import VonkForge.Fleet.Outbox

/-
  The resumable event stream over the Fleet outbox (`fleet_stream.py`), one turn of its loop at a
  time.

  A turn reads a batch after the stream's cursor and either emits the whole batch, or sends the
  client to a fresh capture with a `fleet-refresh` frame. What the clocks and the database answer is
  part of the input of a turn. Times are in milliseconds.

  Main declarations:
    * `Frame`
    * `eventFrame`
    * `Follows.take`
    * `poll_follows`
-/

----
-- Frames
----

namespace VonkForge.Fleet

/- `MAX_CONTROL_DOCUMENT_BYTES`. -/
def maxControlDocumentBytes : Nat := 1048576

def keepaliveInterval : Int := 15000

def retryMilliseconds : Nat := 2000

inductive ProjectionCode where
  | fleetFrameBudgetExceeded
  | fleetFrameEncodingUnavailable
  | fleetStoredEventPayloadUnavailable
deriving DecidableEq

structure FleetFrameIssue where
  reasonCode : ProjectionCode
  observedBytesAtLeast : Option Nat
  budgetBytes : Nat
deriving DecidableEq

inductive ResetReason where
  | initial
  | cursorAhead
  | retentionGap
  | frameUnavailable
deriving DecidableEq

structure FleetRefreshEvent where
  resetReason : ResetReason
  eventCursor : Nat
  issue : Option FleetFrameIssue
deriving DecidableEq

/- What a frame with an identifier carries. -/
inductive FrameData (Data : Type) where
  | event (data : Data)
  | refresh (event : FleetRefreshEvent)
deriving DecidableEq

inductive Frame (Data : Type) where
  | event (retry : Bool) (identifier : Nat) (eventType : String) (data : FrameData Data)
  | keepalive (retry : Bool) (now : Int)
deriving DecidableEq

/-
  The types the stream hands events to: samples of the telemetry store, and the documents it sends.
-/
structure Contract (Obj Sample Data : Type) where
  models : PayloadModels Obj
  sampleNode : Sample → String
  -- `FleetTelemetryEvent` over `telemetry_point`.
  fleetTelemetryEvent : Nat → Sample → Option Data
  -- `FleetChangeEvent` over the checked fields.
  fleetChangeEvent : FleetEvent → FleetEventPayload → Option Data
  -- The sizes of the encoder's pieces, and whether it
  -- raises after them.
  pieces : Data → List Nat × Bool

variable {Obj Sample Data : Type}

def refreshFrame (identifier : Nat) (event : FleetRefreshEvent) (retry : Bool) : Frame Data :=
  .event retry identifier "fleet-refresh" (.refresh event)

/- The first lines of a frame, up to its data. -/
def frameHead (identifier : Nat) (eventType : String) (retry : Bool) : String :=
  (if retry then "retry: " ++ toString retryMilliseconds ++ "\n"
  else "") ++ "id: " ++ toString identifier ++ "\nevent: " ++ eventType ++ "\ndata: "

/- The measure at the first piece that breaks the budget. -/
def overBudget (measured : Nat) : List Nat → Option Nat
  | [] => none
  | piece :: pieces =>
    if maxControlDocumentBytes < measured + piece then some (measured + piece)
    else overBudget (measured + piece) pieces

variable (contract : Contract Obj Sample Data)

def frameIssue (identifier : Nat)
    (eventType : String) (data : Data) (retry : Bool) : Option FleetFrameIssue :=
  let head := frameHead identifier eventType retry
  let (pieces, raises) := contract.pieces data
  match overBudget (head.utf8ByteSize + 2) pieces with
  | some measured => some ⟨.fleetFrameBudgetExceeded, some measured, maxControlDocumentBytes⟩
  | none =>
    if raises then some ⟨.fleetFrameEncodingUnavailable, none, maxControlDocumentBytes⟩
    else none

/-
  `_event_frame`. A frame that cannot be sent is replaced by a refresh frame of the same identifier,
  whose own document is far below the budget.
-/
def eventFrame (identifier : Nat) (eventType : String) (data : Data) (retry : Bool) : Frame Data :=
  match frameIssue contract identifier eventType data retry
  with
  | some issue => refreshFrame identifier ⟨.frameUnavailable, identifier, some issue⟩ retry
  | none => .event retry identifier eventType (.event data)

/- `_unavailable_frame`. -/
def unavailableFrame (eventCursor : Nat) (retry : Bool) : Frame Data :=
  refreshFrame eventCursor ⟨.frameUnavailable, eventCursor,
      some ⟨.fleetStoredEventPayloadUnavailable, none, maxControlDocumentBytes⟩⟩ retry

----
-- A Batch
----

/- `_reset_reason`. -/
def resetReason (lastEventId : Nat) (window : FleetReplayBatch) : Option ResetReason :=
  if window.highWatermark < lastEventId then some .cursorAhead
  else
    match window.firstRetainedId with
    | none =>
      if lastEventId < window.highWatermark then some .retentionGap
      else none
    | some first =>
      if lastEventId < first - 1 then some .retentionGap
      else none

/- `_validate_order`. -/
def validateOrder (previous : Nat) : List FleetEvent → Bool
  | [] => true
  | event :: batch =>
    if event.id ≤ previous then false
    else validateOrder event.id batch

/- The distinct samples a batch refers to, nothing when a telemetry event has another payload. -/
def sampleIds (found : List String) : List FleetEvent → Option (List String)
  | [] => some found
  | event :: batch =>
    if event.eventType ≠ "node-telemetry" then sampleIds found batch
    else
      match event.payload with
      | .nodeTelemetry payload =>
        if found.contains payload.sampleId then sampleIds found batch
        else sampleIds (found ++ [payload.sampleId]) batch
      | _ => none

/- `_hydrate_telemetry`. The stream treats a read that raises like one that returns nothing. -/
def hydrateTelemetry (byIds : List String → Option (List (String × Sample)))
    (batch : List FleetEvent) : Option (List (String × Sample)) := do
  let ids ← sampleIds [] batch
  let samples ← if ids.isEmpty then some [] else byIds ids
  if ids.any fun id => (samples.lookup id).isNone then none
  else some samples

/- `_event_data`, nothing where the source raises. -/
def eventData
    (samples : List (String × Sample)) (event : FleetEvent) : Option Data := do
  let fields :=
    validateFleetEventPayload contract.models event.eventType event.entityKind event.entityId
      event.nodeId (contract.models.typed event.payload)
  if event.eventType = "node-telemetry" then
    let _ ← fields
    match event.payload with
    | .nodeTelemetry payload =>
      let sample ← samples.lookup payload.sampleId
      if some (contract.sampleNode sample) ≠ event.nodeId then none
      else contract.fleetTelemetryEvent event.id sample
    | _ => none
  else if ["node-profile", "recipe-state", "operation-state"].contains event.eventType then
    contract.fleetChangeEvent event (← fields)
  else none

/- The frames of a whole batch, all of them or none. -/
def batchFrames (contract : Contract Obj Sample Data)
    (samples : List (String × Sample)) (retry : Bool) : List FleetEvent → Option (List (Frame Data))
  | [] => some []
  | event :: batch => do
      let data ← eventData contract samples event
      let frames ← batchFrames contract samples false batch
      some (eventFrame contract event.id event.eventType data retry :: frames)

----
-- A Turn of the Loop
----

/- The variables of `FleetStream.events`. -/
structure StreamState where
  currentCursor : Nat
  retry : Bool
  lastEmit : Int
deriving DecidableEq

/- What a turn of the loop is told. -/
structure Poll (Sample : Type) where
  now : Int
  -- The database answered.
  reads : Bool
  byIds : List String → Option (List (String × Sample))
  -- The clocks at the keepalive test and after the frames.
  checkedAt : Int
  keepaliveAt : Int
  emittedAt : Int

/- The frames of a turn, and the stream if it goes on. -/
structure Polled (Data : Type) where
  frames : List (Frame Data)
  stream : Option StreamState
deriving DecidableEq

/- The frames of a batch that the loop was allowed to send. -/
def sendEvents (stream : StreamState) (turn : Poll Sample)
    (replay : FleetReplayBatch) : Option (List (Frame Data)) :=
  if validateOrder stream.currentCursor replay.events then do
    let samples ← hydrateTelemetry turn.byIds replay.events
    batchFrames contract samples stream.retry replay.events
  else none

/- The loop body of `FleetStream.events`. -/
def poll (outbox : Outbox Obj) (stream : StreamState) (turn : Poll Sample) : Polled Data :=
  let cursor := stream.currentCursor
  let stop := fun (eventCursor : Nat) =>
    (⟨[unavailableFrame eventCursor stream.retry], none⟩ : Polled Data)
  if !turn.reads then stop cursor
  else
    match replayAfter contract.models outbox cursor turn.now maxReplayBatch
    with
    | .error (.storedEventGap eventCursor) => stop eventCursor
    | .error _ => stop cursor
    | .ok replay =>
      match resetReason cursor replay with
      | some reason =>
        { frames :=
            [refreshFrame replay.highWatermark ⟨reason, replay.highWatermark, none⟩ stream.retry]
          stream := some ⟨replay.highWatermark, false, turn.emittedAt⟩ }
      | none =>
        match replay.events.getLast? with
        | some last =>
          match sendEvents contract stream turn replay
          with
          | none => stop replay.highWatermark
          | some frames =>
            { frames := frames
              stream := some ⟨last.id, false, turn.emittedAt⟩ }
        | none =>
          if keepaliveInterval ≤ turn.checkedAt - stream.lastEmit then
            { frames := [.keepalive stream.retry turn.keepaliveAt]
              stream := some ⟨cursor, false, turn.emittedAt⟩ }
          else ⟨[], some stream⟩

----
-- Following a Cursor
----

namespace Frame

/- The identifier a client keeps from a frame. -/
def identifier : Frame Data → Option Nat
  | .event _ identifier _ _ => some identifier
  | .keepalive _ _ => none

def isRefresh : Frame Data → Bool
  | .event _ _ eventType _ => eventType == "fleet-refresh"
  | .keepalive _ _ => false

/- A change or telemetry frame. -/
def isEvent : Frame Data → Bool
  | .event _ _ eventType _ => eventType != "fleet-refresh"
  | .keepalive _ _ => false

end Frame

/- The cursor of a client after it received frames. -/
def cursorAfter (cursor : Option Nat) : List (Frame Data) → Option Nat
  | [] => cursor
  | frame :: frames => cursorAfter (frame.identifier.or cursor) frames

/- Every change or telemetry frame carries the successor of the cursor it meets. -/
def Follows (cursor : Option Nat) : List (Frame Data) → Prop
  | [] => True
  | frame :: frames =>
    (frame.isEvent = true → ∃ c, cursor = some c ∧ frame.identifier = some (c + 1)) ∧
      Follows (frame.identifier.or cursor) frames

variable {cursor : Option Nat} {frame : Frame Data} {first second frames : List (Frame Data)}

@[simp] theorem cursorAfter_nil : cursorAfter cursor ([] : List (Frame Data)) = cursor := rfl

@[simp] theorem cursorAfter_cons :
    cursorAfter cursor (frame :: frames) = cursorAfter (frame.identifier.or cursor) frames := rfl

@[simp] theorem cursorAfter_append :
    cursorAfter cursor (first ++ second) = cursorAfter (cursorAfter cursor first) second := by
  induction first generalizing cursor with
  | nil => rfl
  | cons _ _ ih => exact ih

theorem follows_append : Follows cursor (first ++ second) ↔
      Follows cursor first ∧ Follows (cursorAfter cursor first) second := by
  induction first generalizing cursor with
  | nil => simp [Follows]
  | cons _ _ ih => rw [List.cons_append, Follows, Follows, ih, cursorAfter_cons, and_assoc]

/- A stream that is cut off follows its cursor as far as it came. -/
theorem Follows.take
    (hFollows : Follows cursor frames)
    (n : Nat) :
    Follows cursor (frames.take n) := by
  rw [← List.take_append_drop n frames] at hFollows
  exact (follows_append.mp hFollows).1

/- A refresh frame may carry any identifier. -/
theorem follows_refreshFrame (identifier : Nat) (event : FleetRefreshEvent) (retry : Bool) :
    Follows cursor [(refreshFrame identifier event retry : Frame Data)] := by
  refine ⟨?_, trivial⟩
  intro hEvent
  simp [refreshFrame, Frame.isEvent] at hEvent

@[simp] theorem identifier_eventFrame (id : Nat) (eventType : String) (data : Data) (retry : Bool) :
    (eventFrame contract id eventType data retry).identifier = some id := by
  unfold eventFrame
  split <;> rfl

----
-- What a Turn Sends
----

variable {contract : Contract Obj Sample Data} {outbox : Outbox Obj} {stream : StreamState}
variable {turn : Poll Sample} {samples : List (String × Sample)} {events : List FleetEvent}

/- The frames of consecutive events follow their cursor. -/
theorem batchFrames_follows {c : Nat} {retry : Bool}
    (hEvents : events.map (fun event => event.id) = List.range' (c + 1) events.length)
    (hFrames : batchFrames contract samples retry events = some frames) :
    Follows (some c) frames ∧ cursorAfter (some c) frames = some (c + events.length) := by
  induction events generalizing c retry frames with
  | nil =>
    obtain rfl := Option.some.inj hFrames
    exact ⟨trivial, rfl⟩
  | cons _ _ ih =>
    unfold batchFrames at hFrames
    rcases Option.bind_eq_some_iff.mp hFrames with ⟨_, _, hRest⟩
    rcases Option.bind_eq_some_iff.mp hRest with ⟨_, hLater, hDone⟩
    obtain rfl := Option.some.inj hDone
    rw [List.map_cons, List.length_cons, List.range'_succ] at hEvents
    obtain ⟨hHead, hTail⟩ := List.cons.inj hEvents
    rcases ih hTail hLater with ⟨hFollows, hCursor⟩
    simp only [Follows, cursorAfter_cons,
      identifier_eventFrame, hHead, Option.some_or, List.length_cons]
    refine ⟨⟨?_, hFollows⟩, ?_⟩
    · intro _
      exact ⟨c, rfl, rfl⟩
    · rw [hCursor]
      congr 1
      omega

/-
  A batch that needs no reset continues the cursor: its rows follow the cursor directly, or an
  expired prefix would have kept the first retained row away from it.
-/
theorem replay_consecutive {cursor limit : Nat} {now : Int} {replay : FleetReplayBatch}
    (hReplay : replayAfter contract.models outbox cursor now limit = .ok replay)
    (hReset : resetReason cursor replay = none) :
    replay.events.map (fun event => event.id) = List.range' (cursor + 1) replay.events.length := by
  apply replayAfter_consecutive hReplay
  intro _ hFirst
  unfold resetReason at hReset
  rw [Option.mem_def.mp hFirst] at hReset
  dsimp only at hReset
  split at hReset
  · cases hReset
  · split at hReset
    · cases hReset
    · omega

theorem last_of_consecutive {cursor : Nat} {last : FleetEvent}
    (hEvents : events.map (fun event => event.id) = List.range' (cursor + 1) events.length)
    (hLast : events.getLast? = some last) : last.id = cursor + events.length := by
  have hIds := congrArg List.getLast? hEvents
  rw [List.getLast?_map, hLast, List.getLast?_range'] at hIds
  split at hIds
  · cases hIds
  · have hId := Option.some.inj hIds
    dsimp only at hId
    omega

/-
  A turn continues the cursor it started from, and a stream that goes on stands where its frames
  have led the client.
-/
theorem poll_follows :
    Follows (some stream.currentCursor)
      (poll contract outbox stream turn).frames ∧
    ∀ next ∈ (poll contract outbox stream turn).stream,
      cursorAfter (some stream.currentCursor)
        (poll contract outbox stream turn).frames =
        some next.currentCursor := by
  fun_cases poll with
  | case4 =>
    refine ⟨follows_refreshFrame _ _ _, fun next hNext => ?_⟩
    obtain rfl := Option.some.inj hNext
    rfl
  | case6 cursor _ replay hReplay hReset last hLast frames hFrames =>
    have hEvents := replay_consecutive hReplay hReset
    unfold sendEvents at hFrames
    split at hFrames
    · rcases Option.bind_eq_some_iff.mp hFrames with ⟨samples, _, hBatch⟩
      rcases batchFrames_follows hEvents hBatch with ⟨hFollows, hCursor⟩
      refine ⟨hFollows, fun next hNext => ?_⟩
      obtain rfl := Option.some.inj hNext
      rw [hCursor, last_of_consecutive hEvents hLast]
    · cases hFrames
  | case7 =>
    refine ⟨⟨by simp [Frame.isEvent], trivial⟩, fun next hNext => ?_⟩
    obtain rfl := Option.some.inj hNext
    rfl
  | case8 =>
    refine ⟨trivial, fun next hNext => ?_⟩
    obtain rfl := Option.some.inj hNext
    rfl
  | _ => exact ⟨follows_refreshFrame _ _ _, by simp⟩

end VonkForge.Fleet
