import VonkForge.Fleet.Stream
import VonkForge.Foundations.Run

/-
  A client of the event stream over the life of the outbox.

  Transactions commit, retention prunes, and whatever else happens to the stored rows happens
  between the turns of the stream. The client reconnects with the identifier of the last frame that
  it received. A connection may break after any frame, and what was sent after it is lost; a loss
  that reaches back over several turns is a connection that broke in the earliest of them, because
  turns leave the outbox alone.

  Main declarations:
    * `Session`
    * `received_follows`
    * `consecutive_between_refreshes`
    * `stream_never_skips`
-/

----
-- A Client and its Connection
----

namespace VonkForge.Fleet

variable {Obj Sample Data : Type}

/- The outbox, the client's cursor and its live stream. -/
structure Session (Obj : Type) where
  outbox : Outbox Obj
  cursor : Option Nat
  stream : Option StreamState

inductive SessionInput (Obj Sample : Type) where
  | commit (staged : List (Option (EventRow Obj)))
  | prune (now : Int) (limit : Nat)
  -- Rows are deleted, rewritten or poisoned.
  | alter (outbox : Outbox Obj)
  -- `arrives` is set when the connection breaks: that many
  -- of the frames that are sent still arrive.
  | connect (reads : Bool) (startedAt : Int) (arrives : Option Nat)
  | turn (turn : Poll Sample) (arrives : Option Nat)

/- The session after a step, and the frames that came. -/
structure Delivery (Obj Data : Type) where
  session : Session Obj
  frames : List (Frame Data)

variable (session : Session Obj)

/- What arrives of the frames that a stream sends. -/
def Session.deliver (polled : Polled Data) (arrives : Option Nat) : Delivery Obj Data :=
  let frames :=
    match arrives with
    | none => polled.frames
    | some n => polled.frames.take n
  { session :=
      { session with
        cursor := cursorAfter session.cursor frames
        stream := if arrives.isSome then none else polled.stream }
    frames := frames }

variable (outbox : Outbox Obj) (lastEventId : Option Nat) (reads : Bool) (startedAt : Int)

/-
  The start of `FleetStream.events`. A client without a cursor gets an initial refresh frame; the
  header of one with a cursor is read by `parse_last_event_id`.
-/
def openStream : Polled Data :=
  match lastEventId with
  | none =>
    if reads then
      let cursor := outbox.highWatermark
      { frames := [refreshFrame cursor ⟨.initial, cursor, none⟩ true]
        stream := some ⟨cursor, false, startedAt⟩ }
    else ⟨[unavailableFrame 0 true], none⟩
  | some cursor =>
    if maxSignedBigint < cursor then ⟨[], none⟩
    else ⟨[], some ⟨cursor, true, startedAt⟩⟩

variable (contract : Contract Obj Sample Data)

def Session.serve : SessionInput Obj Sample → Delivery Obj Data
  | .commit staged =>
    ⟨{ session with outbox := session.outbox.numberStagedEvents staged },
      []⟩
  | .prune now limit => ⟨{ session with outbox := session.outbox.pruneEvents now limit }, []⟩
  | .alter outbox => ⟨{ session with outbox := outbox }, []⟩
  | .connect reads startedAt arrives =>
    session.deliver (openStream session.outbox session.cursor reads startedAt) arrives
  | .turn turn arrives =>
    match session.stream with
    | none => ⟨session, []⟩
    | some stream => session.deliver (poll contract session.outbox stream turn) arrives

def clientMachine : Machine (Session Obj) (SessionInput Obj Sample) (Delivery Obj Data) where
  answer := fun session input => session.serve contract input
  next := fun delivery => delivery.session

abbrev ClientStep (Obj Sample Data : Type) :=
  Machine.Step (Session Obj) (SessionInput Obj Sample) (Delivery Obj Data)

/- All frames of a run, in the order the client saw them. -/
def received (steps : List (ClientStep Obj Sample Data)) : List (Frame Data) :=
  steps.flatMap fun step => step.output.frames

----
-- The Client Follows
----

/- A live stream stands at the client's cursor. -/
def Session.InStep : Prop := ∀ stream ∈ session.stream, session.cursor = some stream.currentCursor

/- A step brings frames that follow the cursor. -/
structure Continues (session : Session Obj) (delivery : Delivery Obj Data) : Prop where
  follows : Follows session.cursor delivery.frames
  cursor : delivery.session.cursor = cursorAfter session.cursor delivery.frames
  inStep : delivery.session.InStep

variable {contract : Contract Obj Sample Data} {session : Session Obj}

theorem deliver_continues {polled : Polled Data} (hFollows : Follows session.cursor polled.frames)
    (hStream :
      ∀ next ∈ polled.stream, cursorAfter session.cursor polled.frames = some next.currentCursor)
    (arrives : Option Nat) : Continues session (session.deliver polled arrives) := by
  cases arrives with
  | none => exact ⟨hFollows, rfl, hStream⟩
  | some n =>
    refine ⟨hFollows.take n, rfl, ?_⟩
    intro _ hNone
    cases hNone

/- A step that brings nothing and keeps the connection. -/
theorem continues_of_silent (hInStep : session.InStep) (outbox : Outbox Obj) :
    Continues session (⟨{ session with outbox := outbox }, []⟩ : Delivery Obj Data) :=
  ⟨trivial, rfl, hInStep⟩

/- A new stream starts where the client stands. -/
theorem openStream_follows :
    let opened : Polled Data := openStream outbox lastEventId reads startedAt
    Follows lastEventId opened.frames ∧ ∀ next ∈ opened.stream,
        cursorAfter lastEventId opened.frames = some next.currentCursor := by
  cases lastEventId with
  | none =>
    cases reads with
    | false => exact ⟨follows_refreshFrame _ _ _, by simp [openStream]⟩
    | true =>
      refine ⟨follows_refreshFrame _ _ _, ?_⟩
      intro _ hNext
      obtain rfl := Option.some.inj hNext
      rfl
  | some cursor =>
    unfold openStream
    dsimp only
    split
    · exact ⟨trivial, by simp⟩
    · refine ⟨trivial, ?_⟩
      intro _ hNext
      obtain rfl := Option.some.inj hNext
      rfl

theorem serve_continues (hInStep : session.InStep) (input : SessionInput Obj Sample) :
    Continues session (session.serve contract input) := by
  cases input with
  | commit | prune | alter => exact continues_of_silent hInStep _
  | connect =>
    apply deliver_continues
    · exact (openStream_follows _ _ _ _).1
    · exact (openStream_follows _ _ _ _).2
  | turn =>
    simp only [Session.serve]
    cases hStream : session.stream with
    | none => exact continues_of_silent hInStep session.outbox
    | some stream =>
      have hCursor := hInStep stream hStream
      apply deliver_continues
      · rw [hCursor]
        exact poll_follows.1
      · rw [hCursor]
        exact poll_follows.2

@[simp] theorem received_append (first second : List (ClientStep Obj Sample Data)) :
    received (first ++ second) = received first ++ received second :=
  List.flatMap_append

/- Everything a client receives follows its first cursor. -/
theorem received_follows
    (hInStep : session.InStep)
    (inputs : List (SessionInput Obj Sample)) :
    Follows session.cursor
      (received ((clientMachine contract).trace session inputs)) ∧
    ((clientMachine contract).final session inputs).cursor =
      cursorAfter session.cursor
        (received ((clientMachine contract).trace session inputs)) := by
  have hRun := (clientMachine contract).history
      (H := fun past current => Follows session.cursor (received past) ∧
          current.cursor = cursorAfter session.cursor (received past) ∧ current.InStep)
      (s := session)
      ⟨trivial, rfl, hInStep⟩
      (fun past current input hPast => by
        rcases hPast with ⟨hFollows, hCursor, hLive⟩
        have hStep : Continues current (current.serve contract input) := serve_continues hLive input
        rw [received_append]
        have hFrames : received [(clientMachine contract).step current input] =
          (current.serve contract input).frames := List.append_nil _
        rw [hFrames, cursorAfter_append, follows_append, ← hCursor]
        exact ⟨⟨hFollows, hStep.follows⟩, hStep.cursor, hStep.inStep⟩)
      inputs
  exact ⟨hRun.1, hRun.2.1⟩

----
-- No Event Is Skipped
----

variable {cursor : Option Nat} {frame : Frame Data} {frames : List (Frame Data)}

/- A frame that is no refresh frame counts up or is silent. -/
theorem identifier_of_not_refresh (hRefresh : frame.isRefresh = false)
    (hFollows : frame.isEvent → ∃ c, cursor = some c ∧ frame.identifier = some (c + 1)) :
    frame.identifier = none ∨ ∃ c, cursor = some c ∧ frame.identifier = some (c + 1) := by
  cases frame with
  | event =>
    right
    apply hFollows
    simpa [Frame.isRefresh, Frame.isEvent] using hRefresh
  | keepalive => exact Or.inl rfl

/- The identifiers between two refresh frames are consecutive and start after the cursor. -/
theorem consecutive_between_refreshes
    {c : Nat}
    (hFollows : Follows (some c) frames)
    (hRefresh : ∀ frame ∈ frames, frame.isRefresh = false) :
    frames.filterMap Frame.identifier =
      List.range'
        (c + 1) (frames.filterMap Frame.identifier).length := by
  induction frames generalizing c with
  | nil => rfl
  | cons frame frames ih =>
    obtain ⟨hHead, hTail⟩ := hFollows
    have hRest : ∀ later ∈ frames, later.isRefresh = false :=
      fun later hMem => hRefresh later (List.mem_cons_of_mem _ hMem)
    rcases identifier_of_not_refresh (hRefresh frame List.mem_cons_self) hHead
    with hSilent | ⟨d, hCursor, hNext⟩
    · rw [hSilent, Option.none_or] at hTail
      rw [List.filterMap_cons_none hSilent]
      exact ih hTail hRest
    · obtain rfl := Option.some.inj hCursor
      rw [hNext, Option.some_or] at hTail
      rw [List.filterMap_cons_some hNext, List.length_cons, List.range'_succ, ← ih hTail hRest]

/-
  Before its first frame with an identifier a client without a cursor receives no change or
  telemetry frame.
-/
theorem silent_without_cursor (hFollows : Follows none frames)
    (hRefresh : ∀ frame ∈ frames, frame.isRefresh = false) :
    frames.filterMap Frame.identifier = [] := by
  induction frames with
  | nil => rfl
  | cons frame _ ih =>
    obtain ⟨hHead, hTail⟩ := hFollows
    rcases identifier_of_not_refresh (hRefresh frame List.mem_cons_self) hHead
    with hSilent | ⟨d, hCursor, _⟩
    · rw [hSilent, Option.none_or] at hTail
      rw [List.filterMap_cons_none hSilent]
      exact ih hTail fun later hMem => hRefresh later (List.mem_cons_of_mem _ hMem)
    · cases hCursor

theorem Follows.at_position (hFollows : Follows cursor frames) {i : Nat}
    (hFrame : frames[i]? = some frame) (hEvent : frame.isEvent) :
    ∃ c, cursorAfter cursor (frames.take i) = some c ∧ frame.identifier = some (c + 1) := by
  rcases List.getElem?_eq_some_iff.mp hFrame with ⟨hBound, hGet⟩
  rw [← List.take_append_drop i frames, List.drop_eq_getElem_cons hBound, hGet,
    follows_append] at hFollows
  exact hFollows.2.1 hEvent

theorem cursorAfter_take_succ {i : Nat} (hFrame : frames[i]? = some frame) :
    cursorAfter cursor (frames.take (i + 1)) =
    frame.identifier.or (cursorAfter cursor (frames.take i)) := by
  rcases List.getElem?_eq_some_iff.mp hFrame with ⟨hBound, hGet⟩
  rw [List.take_succ_eq_append_getElem hBound, hGet, cursorAfter_append]
  rfl

/-
  Over every life of the outbox and of the client: a change or telemetry frame carries the client's
  cursor plus one, any other move of the cursor is a refresh frame, and the identifiers between two
  refresh frames are consecutive.
-/
theorem stream_never_skips (contract : Contract Obj Sample Data)
    (outbox : Outbox Obj) (cursor : Option Nat) (inputs : List (SessionInput Obj Sample)) :
    let steps := (clientMachine contract).trace ⟨outbox, cursor, none⟩ inputs
    let frames := received steps
    let cursorAt := fun i => cursorAfter cursor (frames.take i)
    (∀ k step, steps[k]? = some step →
      step.before.cursor = cursorAfter cursor (received (steps.take k))) ∧
    (∀ i frame, frames[i]? = some frame → frame.isEvent = true → ∃ c, cursorAt i = some c ∧
        frame.identifier = some (c + 1) ∧ cursorAt (i + 1) = some (c + 1)) ∧
    (∀ i frame, frames[i]? = some frame →
      cursorAt (i + 1) ≠ cursorAt i → frame.isEvent = true ∨ frame.isRefresh = true) ∧
    (∀ before between after, frames = before ++ between ++ after →
      (∀ frame ∈ between, frame.isRefresh = false) →
        match cursorAfter cursor before with
        | some c =>
          between.filterMap Frame.identifier =
            List.range' (c + 1) (between.filterMap Frame.identifier).length
        | none =>
          between.filterMap Frame.identifier = []) := by
  intro _ frames cursorAt
  have hInStep : (⟨outbox, cursor, none⟩ : Session Obj).InStep := by
    intro _ hNone
    cases hNone
  have hFollows : Follows cursor frames := (received_follows hInStep inputs).1
  refine ⟨?_, ?_, ?_, ?_⟩
  · intro k _ hStep
    rcases (clientMachine contract).exists_of_getElem?_trace hStep
    with ⟨input, _, rfl⟩
    rw [Machine.step_before, (received_follows hInStep (inputs.take k)).2,
      ← (clientMachine contract).take_trace]
  · intro i frame hFrame hEvent
    rcases hFollows.at_position hFrame hEvent with ⟨c, hCursor, hNext⟩
    refine ⟨c, hCursor, hNext, ?_⟩
    calc cursorAt (i + 1)
        = frame.identifier.or (cursorAt i) := cursorAfter_take_succ hFrame
      _ = some (c + 1) := by rw [hNext, Option.some_or]
  · intro _ frame hFrame hMoved
    cases frame with
    | event _ _ eventType =>
      simp only [Frame.isEvent, Frame.isRefresh, bne_iff_ne, beq_iff_eq]
      exact (em (eventType = "fleet-refresh")).symm
    | keepalive => exact absurd (cursorAfter_take_succ hFrame) hMoved
  · intro before _ _ hSplit hRefresh
    rw [hSplit] at hFollows
    have hBetween := (follows_append.mp (follows_append.mp hFollows).1).2
    cases hCursor : cursorAfter cursor before with
    | none =>
      rw [hCursor] at hBetween
      exact silent_without_cursor hBetween hRefresh
    | some =>
      rw [hCursor] at hBetween
      exact consecutive_between_refreshes hBetween hRefresh

/- One job as its stored document and as sent. -/
def plainContract : Contract Unit Unit Nat where
  models :=
    { nodeProfile := fun _ => none
      nodeTelemetry := fun _ => none
      entity := fun kind _ => some (kind, "job-1", none)
      typed := fun _ => () }
  sampleNode := fun _ => ""
  fleetTelemetryEvent := fun _ _ => none
  fleetChangeEvent := fun event _ => some event.id
  pieces := fun _ => ([2], false)

def jobChange : EventRow Unit := ⟨"operation-state", none, "job", "job-1", (), 0, 100⟩

def plainTurn : Poll Unit := ⟨10, true, fun _ => none, 0, 0, 0⟩

/- Two events, then a hole that only a refresh crosses. -/
example : (received ((clientMachine plainContract).trace ⟨⟨none, []⟩, some 0, none⟩
          [.commit [some jobChange, some jobChange], .connect true 0 none, .turn plainTurn none,
          .commit [none, some jobChange], .turn plainTurn none])).map
        (fun frame => (frame.identifier, frame.isRefresh)) =
      [(some 1, false), (some 2, false), (some 4, true)] := by
  decide +kernel

end VonkForge.Fleet
