import Mathlib

/-
  The durable outbox of Fleet events (`fleet_events.py`) and what a replay reads from it in one
  snapshot.

  A transaction numbers its events as its last statements, so identifiers follow commit order. An
  identifier without a row is a hole, and a replay over a hole is refused.

  Main declarations:
    * `Outbox`
    * `Outbox.numberStagedEvents`
    * `replayAfter_consecutive`
-/

----
-- Rows
----

namespace VonkForge.Fleet

/- `MAX_SIGNED_BIGINT`. -/
def maxSignedBigint : Nat := 9223372036854775807

def maxReplayBatch : Nat := 128

/- The columns of an event that has no identifier yet. -/
structure EventRow (Obj : Type) where
  eventType : String
  nodeId : Option String
  entityKind : String
  entityId : String
  payload : Obj
  occurredAt : Int
  expiresAt : Int

structure FleetStreamEvent (Obj : Type)
    extends EventRow Obj where
  id : Nat

/-
  The tables `fleet_stream_events` and `fleet_event_cursor`: `cursor` is the `last_id` of the
  singleton cursor row.
-/
structure Outbox (Obj : Type) where
  cursor : Option Nat
  rows : List (FleetStreamEvent Obj)

----
-- Writing
----

namespace Outbox

variable {Obj : Type} (outbox : Outbox Obj)

/- `max(FleetStreamEvent.id)`, zero without rows. -/
def newest : Nat := (outbox.rows.map fun row => row.id).max?.getD 0

/- `high_watermark_in_session`. -/
def highWatermark : Nat := outbox.cursor.getD outbox.newest

/-
  The rows of a transaction: staged event number `offset` gets the identifier `first + offset`. A
  staged event without a row leaves a hole.
-/
def numbered (first : Nat) : List (Option (EventRow Obj)) → List (FleetStreamEvent Obj)
  | [] => []
  | none :: staged => numbered (first + 1) staged
  | some row :: staged => ⟨row, first⟩ :: numbered (first + 1) staged

/-
  `_number_staged_events`. A missing cursor row is seeded after the newest stored row, which is what
  the watermark reads without it.
-/
def numberStagedEvents (staged : List (Option (EventRow Obj))) : Outbox Obj :=
  if staged.isEmpty then outbox
  else
    let lastId := outbox.highWatermark + staged.length
    { cursor := some lastId, rows := outbox.rows ++ numbered (lastId - staged.length + 1) staged }

/- `TelemetryMaintenance._prune_events`. -/
def pruneEvents (now : Int) (limit : Nat) : Outbox Obj :=
  let expired := outbox.rows.filter fun row => row.expiresAt ≤ now
  let oldest := expired.insertionSort fun first second =>
      first.expiresAt < second.expiresAt ∨ (first.expiresAt = second.expiresAt ∧
          first.id ≤ second.id)
  let eventIds := (oldest.take limit).map fun row => row.id
  { outbox with rows := outbox.rows.filter fun row => !eventIds.contains row.id }

end Outbox

----
-- Payloads
----

structure NodeTelemetryPayload where
  nodeId : String
  sampleId : String
deriving DecidableEq

/- `FleetEventPayload`, with the fields that a reader of the outbox looks at. -/
inductive FleetEventPayload where
  | nodeProfile (nodeId : String)
  | nodeTelemetry (payload : NodeTelemetryPayload)
  | entity (entityKind entityId : String) (nodeId : Option String)
deriving DecidableEq

/- `_as_model` for each of the payload models. -/
structure PayloadModels (Obj : Type) where
  nodeProfile : Obj → Option String
  nodeTelemetry : Obj → Option NodeTelemetryPayload
  -- The kind and identity the document states, and its
  -- node if the model has one.
  entity : String → Obj → Option (String × String × Option String)
  -- A typed payload is an object that can be checked again.
  typed : FleetEventPayload → Obj

/- `allowed_kinds`. -/
def allowedKinds (eventType : String) : List String :=
  if eventType = "node-profile" then ["node-profile"]
  else if eventType = "node-telemetry" then ["node-telemetry-latest"]
  else if eventType = "recipe-state" then
    ["recipe-installation", "installation-node", "recipe-run", "run-node"]
  else if eventType = "operation-state" then ["job", "agent-operation"]
  else []

def nodeScopedKinds : List String := ["installation-node", "run-node", "agent-operation"]

variable {Obj : Type} (models : PayloadModels Obj)

/- `validate_fleet_event_payload`; nothing where the source raises. -/
def validateFleetEventPayload (eventType entityKind entityId : String)
    (nodeId : Option String) (payload : Obj) : Option FleetEventPayload :=
  if !(allowedKinds eventType).contains entityKind then none
  else if eventType = "node-profile" then do
    let node ← models.nodeProfile payload
    if node ≠ entityId ∨ some node ≠ nodeId then none
    else some (.nodeProfile node)
  else if eventType = "node-telemetry" then do
    let value ← models.nodeTelemetry payload
    if value.nodeId ≠ entityId ∨ some value.nodeId ≠ nodeId then none
    else some (.nodeTelemetry value)
  else do
    let (kind, entity, node) ← models.entity entityKind payload
    if kind ≠ entityKind ∨ entity ≠ entityId then none
    else if node ≠ nodeId ∧ nodeScopedKinds.contains entityKind then none
    else some (.entity kind entity node)

/- `FleetEvent`: a row whose payload was read. -/
structure FleetEvent where
  id : Nat
  eventType : String
  nodeId : Option String
  entityKind : String
  entityId : String
  payload : FleetEventPayload
  occurredAt : Int
  expiresAt : Int
deriving DecidableEq

/- Decode the whole row, nothing for an unreadable one. -/
def decode (row : FleetStreamEvent Obj) : Option FleetEvent := do
  let payload ←
    validateFleetEventPayload models row.eventType
      row.entityKind row.entityId row.nodeId row.payload
  some
    { id := row.id, eventType := row.eventType, nodeId := row.nodeId, entityKind := row.entityKind,
      entityId := row.entityId, payload := payload, occurredAt := row.occurredAt,
      expiresAt := row.expiresAt }

variable {row : FleetStreamEvent Obj}

theorem id_of_decode {models : PayloadModels Obj} {event : FleetEvent}
    (hDecode : decode models row = some event) : event.id = row.id := by
  unfold decode at hDecode
  rcases Option.bind_eq_some_iff.mp hDecode with ⟨_, _, hEvent⟩
  rw [← Option.some.inj hEvent]

----
-- Replay
----

structure FleetReplayBatch where
  highWatermark : Nat
  firstRetainedId : Option Nat
  events : List FleetEvent
deriving DecidableEq

/-
  How `replay_after` fails: a `ValueError` about its arguments, or a gap with the cursor to capture
  at.
-/
inductive ReplayFailure where
  | cursorError
  | limitError
  | storedEventGap (eventCursor : Nat)
deriving DecidableEq

namespace Outbox

/- The smallest identifier that has not expired. -/
def firstRetained (outbox : Outbox Obj) (now : Int) : Option Nat :=
  ((outbox.rows.filter fun row => now < row.expiresAt).map fun row => row.id).min?

/- The rows of the replay, in the order of identifiers. -/
def replay (outbox : Outbox Obj) (lastId : Nat) (now : Int)
    (limit : Nat) : List (FleetStreamEvent Obj) :=
  ((outbox.rows.filter fun row => lastId < row.id ∧ now < row.expiresAt).insertionSort
    fun first second => first.id ≤ second.id).take limit

/-
  How many expired rows stand between the cursor and the first retained row. A comparison with a
  missing first row is never true.
-/
def expiredPrefix (outbox : Outbox Obj) (lastId : Nat) (now : Int) : Nat :=
  outbox.rows.countP fun row =>
    lastId < row.id && (outbox.firstRetained now).any (row.id < ·) && row.expiresAt ≤ now

end Outbox

/-
  The loop of `replay_after`: the events of the rows and the identifier expected after them. Nothing
  stands for a gap.
-/
def readRows (models : PayloadModels Obj) (lastId expired : Nat) :
    Nat → List (FleetStreamEvent Obj) → Option (List FleetEvent × Nat)
  | expected, [] => some ([], expected)
  | expected, row :: rows =>
    -- Only the first row may skip, and only over rows that
    -- are all there and expired.
    let isExpiredPrefix := expected == lastId + 1 && row.id - expected == expired
    if row.id ≠ expected ∧ !isExpiredPrefix then none
    else do
      let event ← decode models row
      let (events, next) ← readRows models lastId expired (row.id + 1) rows
      some (event :: events, next)

/- `FleetEventRepository.replay_after`. -/
def replayAfter (outbox : Outbox Obj) (lastId : Nat) (now : Int)
    (limit : Nat) : Except ReplayFailure FleetReplayBatch :=
  if maxSignedBigint < lastId then .error .cursorError
  else if limit < 1 ∨ maxReplayBatch < limit then .error .limitError
  else
    let watermark := outbox.highWatermark
    match
      readRows models lastId (outbox.expiredPrefix lastId now) (lastId + 1)
        (outbox.replay lastId now limit)
    with
    | none => .error (.storedEventGap watermark)
    | some (events, expected) =>
      if expected ≤ watermark ∧ events.length < limit then .error (.storedEventGap watermark)
      else
        .ok
          { highWatermark := watermark, firstRetainedId := outbox.firstRetained now,
            events := events }

----
-- What a Replay Returns
----

variable {models : PayloadModels Obj} {outbox : Outbox Obj} {lastId expected expired limit : Nat}
variable {now : Int}

theorem lt_id_of_mem_replay
    (hRow : row ∈ outbox.replay lastId now limit) : lastId < row.id := by
  have hSorted := List.mem_of_mem_take hRow
  have hFiltered := (List.mem_insertionSort _).mp hSorted
  have hKept := (List.mem_filter.mp hFiltered).2
  exact (of_decide_eq_true hKept).1

/-
  Nothing can have expired between the cursor and a first row that directly follows it or comes
  before it.
-/
theorem expiredPrefix_eq_zero {first : Nat} (hFirst : outbox.firstRetained now = some first)
    (hNear : first ≤ lastId + 1) : outbox.expiredPrefix lastId now = 0 := by
  unfold Outbox.expiredPrefix
  rw [List.countP_eq_zero]
  intro _ _ hBetween
  rw [hFirst] at hBetween
  simp only [Option.any_some, Bool.and_eq_true, decide_eq_true_eq] at hBetween
  omega

/- Without an expired prefix the rows read are consecutive. -/
theorem readRows_consecutive {rows : List (FleetStreamEvent Obj)}
    {events : List FleetEvent} {next : Nat} (hRows : ∀ row ∈ rows, lastId < row.id)
    (hRead : readRows models lastId 0 expected rows = some (events, next)) :
    events.map (fun event => event.id) = List.range' expected events.length := by
  induction rows generalizing expected events next with
  | nil =>
    unfold readRows at hRead
    rw [← (Prod.mk.inj (Option.some.inj hRead)).1]
    rfl
  | cons row rows ih =>
    unfold readRows at hRead
    dsimp only at hRead
    have hPast := hRows row List.mem_cons_self
    split at hRead
    · cases hRead
    · rename_i hAllowed
      -- A skip of no rows is no skip.
      have hHere : row.id = expected := by
        by_contra hOther
        apply hAllowed
        refine ⟨hOther, ?_⟩
        rw [Bool.not_eq_true', Bool.and_eq_false_iff]
        simp only [beq_eq_false_iff_ne]
        omega
      rcases Option.bind_eq_some_iff.mp hRead with ⟨_, hDecode, hTail⟩
      rcases Option.bind_eq_some_iff.mp hTail with ⟨⟨_, _⟩, hRest, hDone⟩
      obtain ⟨rfl, rfl⟩ := Prod.mk.inj (Option.some.inj hDone)
      have hLater := ih (fun later hMem => hRows later (List.mem_cons_of_mem _ hMem)) hRest
      rw [List.map_cons, List.length_cons, List.range'_succ, hLater, id_of_decode hDecode, hHere]

/-
  A batch whose first retained row does not lie past the cursor's successor continues the cursor
  without a gap.
-/
theorem replayAfter_consecutive
    {batch : FleetReplayBatch}
    (hReplay : replayAfter models outbox lastId now limit = .ok batch)
    (hNear : ∀ first ∈ batch.firstRetainedId, first ≤ lastId + 1) :
    batch.events.map (fun event => event.id) =
      List.range' (lastId + 1) batch.events.length := by
  revert hReplay
  fun_cases replayAfter with
  | case5 _ _ _ _ _ hRead =>
    intro hReplay
    obtain rfl := Except.ok.inj hReplay
    have hNone : outbox.expiredPrefix lastId now = 0 := by
      cases hFirst : outbox.firstRetained now with
      | none => simp [Outbox.expiredPrefix, hFirst]
      | some first => exact expiredPrefix_eq_zero hFirst (hNear first hFirst)
    rw [hNone] at hRead
    exact readRows_consecutive (fun row hRow => lt_id_of_mem_replay hRow) hRead
  | _ => exact fun hReplay => by cases hReplay

end VonkForge.Fleet
