import VonkForge.Lifecycle.Cancel

/-
  How rows end: what a definite report does, and which endings leave a residue record.

  Main declarations:
    * `residueEvent`
    * `definite_report_ends_row_iff`
    * `taken_residues`
    * `residue_accounting`
-/

----
-- Definite Reports
----

namespace VonkForge.LifecycleCore

variable {adapter : KindAdapter} {row : Lifecycle} {now : Int} {event : Event}

/- The dispatch ends a row in the state a report names. -/
theorem reported_state (adapter : KindAdapter) (row : Lifecycle) (now : Int)
    {report : Report} {state : State} (hState : report.endState = some state) :
    (reported row report adapter now).row.state = state := by
  rcases Report.endState_cases hState with
    ⟨hOutcome, rfl⟩ | ⟨hOutcome, rfl⟩ | ⟨hOutcome, hRetry, rfl⟩
  · simp [reported, hOutcome, endWith]
  · simp [reported, hOutcome, endWith]
  · simp [reported, hOutcome, hRetry, endWith]

/-
  An accepted definite report ends the row in the state it names exactly if the row is being
  cancelled or its adapter's own deadline has not passed.
-/
theorem definite_report_ends_row_iff
    (adapter : KindAdapter)
    (row : Lifecycle)
    (now : Int)
    (report : Report)
    (state : State)
    (hLive : row.terminal = false)
    (hOurs : stale row (.reported report) = false)
    (hState : report.endState = some state) :
    (transition row (.reported report) adapter now).row.state = state ↔
      row.cancelRequested = true ∨
      reached (adapter.ownDeadline row) now = false := by
  have hExpired : expired row (.reported report) adapter now =
      (reached (adapter.ownDeadline row) now && !row.cancelRequested) := by
    simp [expired, Event.isCancelRequested]
  cases hDeadline : reached (adapter.ownDeadline row) now with
  | false =>
    have hDispatch : transition row (.reported report) adapter now =
        reported row report adapter now := by
      simp [transition, hLive, hOurs, hExpired, hDeadline, dispatch]
    rw [hDispatch]
    simp [reported_state adapter row now hState]
  | true =>
    cases hCancel : row.cancelRequested with
    | true =>
      have hDispatch : transition row (.reported report) adapter now =
          reported row report adapter now := by
        simp [transition, hLive, hOurs, hExpired, hCancel, dispatch]
      rw [hDispatch]
      simp [reported_state adapter row now hState]
    | false =>
      have hLook : (transition row (.reported report) adapter now).row.state = .observing := by
        simp [transition, hLive, hOurs, hExpired, hDeadline, hCancel, pastOwnDeadline]
      have hEnds := endState_terminal hState
      rw [hLook]
      simp only [Bool.false_eq_true, Bool.true_eq_false, or_self, iff_false]
      rintro rfl
      cases hEnds

/- An irreversible kind with an absolute deadline of zero. -/
def deadlineKind : KindAdapter :=
  { irreversibleKind with recoveryDeadline := some fun _ => some 0 }

/- A running order under a lease. -/
def runningOrder : Lifecycle :=
  { newOrder with
    state := .running
    attempt := 1
    fence := some "first"
    leaseDeadline := some (100 * second)
    nextActionAt := some (100 * second)
    effect := .issued }

/- A report of success ends a running order. -/
theorem done_report_ends_runningOrder :
    (transition runningOrder
       (.reported { outcome := .done, fence := some "first" })
       irreversibleKind 10).row.state =
      .succeeded := by
  apply (definite_report_ends_row_iff irreversibleKind
    runningOrder 10 { outcome := .done, fence := some "first" }
    .succeeded rfl (by decide) rfl).mpr
  exact Or.inr rfl

/- A done report that arrives after the adapter's own deadline only leaves the row observing. -/
theorem done_report_lost_past_own_deadline :
    runningOrder.terminal = false ∧
    stale runningOrder
      (.reported { outcome := .done, fence := some "first" }) =
      false ∧
    (transition runningOrder
       (.reported { outcome := .done, fence := some "first" })
       deadlineKind 10).row.state =
      .observing := by
  refine ⟨?_, ?_, ?_⟩
  · decide +kernel
  · decide +kernel
  · decide +kernel

----
-- Residue of one Decision
----

/- The events whose endings are recorded when unconfirmed. -/
def residueEvent : Event → Bool
  | .tick => true
  | .observed _ _ => true
  | .cancelRequested _ _ => true
  | .leaseLapsed _ => true
  | .operatorAction name _ => name == ActionName.stop.value
  | .reported report => report.endState.isNone
  | .submitted => false
  | .claimed _ _ _ => false
  | .heartbeat _ _ => false

/-
  One residue for an event of that kind that takes a live row to an end with an unknown effect, and
  none otherwise.
-/
def residueOwed (before : Lifecycle) (event : Event) (after : Lifecycle) : Nat :=
  if before.terminal = false ∧ residueEvent event = true ∧ after.terminal = true ∧
    after.effect = .unknown
  then 1 else 0

variable {decision : Decision}

/- A decision that leaves the row open owes nothing. -/
theorem residues_of_open (hOpen : decision.row.terminal = false) (hNone : decision.residues = 0) :
    decision.residues = residueOwed row event decision.row := by simp [residueOwed, hOpen, hNone]

/- An ending with a known effect owes nothing. -/
theorem residues_of_known (hKnown : decision.row.effect ≠ .unknown)
    (hNone : decision.residues = 0) : decision.residues = residueOwed row event decision.row := by
  simp [residueOwed, hKnown, hNone]

/- Any other event owes nothing. -/
theorem residues_of_other (hEvent : residueEvent event = false) (hNone : decision.residues = 0) :
    decision.residues = residueOwed row event decision.row := by simp [residueOwed, hEvent, hNone]

section

variable (hLive : row.terminal = false)

include hLive

section

variable (hEvent : residueEvent event = true)

include hEvent

theorem residues_of_unknown
    (hEnded : decision.row.terminal) (hUnknown : decision.row.effect = .unknown)
    (hOne : decision.residues = 1) : decision.residues = residueOwed row event decision.row := by
  simp [residueOwed, hLive, hEvent, hEnded, hUnknown, hOne]

/- A step of the cancel pays exactly what it owes. -/
theorem advance_residues {flagged : Lifecycle} {issueStop : Bool}
    (hAdvance : Advance flagged now issueStop decision) :
    decision.residues = residueOwed row event decision.row := by
  cases hAdvance with
  | proven _ hEffect _ hCommands =>
    apply residues_of_known
    · rcases hEffect with hStopped | hNone
      · simp [hStopped]
      · simp [hNone]
    · simp [Decision.residues, hCommands]
  | spent _ hState hEffect _ hCommands =>
    apply residues_of_unknown hLive hEvent
    · simp [Lifecycle.terminal, hState, State.terminal]
    · exact hEffect
    · simp [Decision.residues, hCommands, Command.isResidue]
  | driven _ hState _ _ hCommands =>
    apply residues_of_open
    · simp [Lifecycle.terminal, hState, State.terminal]
    · cases issueStop with
      | true => simp [Decision.residues, hCommands, Command.isResidue]
      | false => simp [Decision.residues, hCommands]

/- So does a look at a lost row. -/
theorem lost_residues {commands : List Command} {reason : Option String} {late : Bool}
    (hCommands : commands.countP Command.isResidue = 0) :
    (lost row now reason commands late).residues =
    residueOwed row event (lost row now reason commands late).row := by
  unfold lost
  split
  · exact residues_of_unknown hLive hEvent rfl rfl rfl
  · exact residues_of_open rfl hCommands

end

theorem move_residues (hMove : Move adapter row now event decision) :
    decision.residues = residueOwed row event decision.row := by
  cases hMove with
  | keep | submit | renew | watch | look => exact residues_of_open hLive rfl
  | claim | observe | await | resume | execute | retry => exact residues_of_open rfl rfl
  | conclude _ _ hState =>
    apply residues_of_other
    · simp [residueEvent, hState]
    · rfl
  | lostTick | lostInTime | lostLate => exact lost_residues hLive rfl rfl
  | establish | cease =>
    apply residues_of_known
    · simp
    · rfl
  | endLate effect =>
    by_cases hUnknown : effect = .unknown
    · apply residues_of_unknown hLive rfl rfl hUnknown
      simp [Decision.residues, hUnknown, Command.isResidue]
    · apply residues_of_known hUnknown
      simp [Decision.residues, hUnknown]
  | retire =>
    apply residues_of_other
    · simp [residueEvent, ActionName.value]
    · rfl
  | request event _ _ _ hEvent =>
    have hResidue : residueEvent event := by
      cases event with
      | cancelRequested => rfl
      | operatorAction => simp [residueEvent, hEvent.1]
      | _ => exact absurd hEvent id
    exact advance_residues hLive hResidue (advanceCancel_advance _ _ _ _ _)
  | wind event _ _ hEvent =>
    have hResidue : residueEvent event := by
      cases event with
      | reported => exact hEvent
      | tick | leaseLapsed | observed | cancelRequested => rfl
      | _ => cases hEvent
    exact advance_residues hLive hResidue (advanceCancel_advance _ _ _ _ _)

theorem expiry_residues
    (hExpiry : Expiry adapter row now event decision) :
    decision.residues = residueOwed row event decision.row := by
  cases hExpiry with
  | lost => exact lost_residues hLive rfl rfl
  | finish effect =>
    by_cases hUnknown : effect = .unknown
    · apply residues_of_unknown hLive rfl ?_ hUnknown
      · simp [Decision.residues, hUnknown, Command.isResidue]
      · simp [hUnknown, Lifecycle.terminal, State.terminal]
    · apply residues_of_known hUnknown
      simp [Decision.residues, hUnknown]
  | look => exact residues_of_open rfl rfl

end

/- Every decision pays exactly the residue it owes. -/
theorem taken_residues (hTaken : Taken adapter row now event decision) :
    decision.residues = residueOwed row event decision.row := by
  cases hTaken with
  | ignored =>
    -- A row that stays as it is does not end now.
    cases hTerminal : row.terminal with
    | true => simp [residueOwed, hTerminal, Decision.residues]
    | false => exact residues_of_open hTerminal rfl
  | expired _ hLive _ _ hExpiry => exact expiry_residues hLive hExpiry
  | moved _ hLive _ _ hMove => exact move_residues hLive hMove

----
-- Residue of a Run
----

/- The residue records a step emits. -/
def residuesEmitted (step : Step) : Nat := step.output.residues

/- A live row has one ending ahead of it. -/
def endingsLeft (row : Lifecycle) : Nat := if row.terminal then 0 else 1

/- A residue is owed only for an ending that is used up. -/
theorem residueOwed_le {before after : Lifecycle} (hAbsorbing : before.terminal →
      after.terminal) (event : Event) : residueOwed before event after + endingsLeft after ≤
    endingsLeft before := by
  cases hLive : before.terminal with
  | true => simp [residueOwed, endingsLeft, hLive, hAbsorbing hLive]
  | false =>
    cases hEnded : after.terminal with
    | true =>
      have hOwed : residueOwed before event after ≤ 1 := by
        unfold residueOwed
        split <;> omega
      simpa [endingsLeft, hLive, hEnded] using hOwed
    | false => simp [residueOwed, endingsLeft, hLive, hEnded]

/-
  Residue accounting: each decision of a run emits one residue record if it is one of the listed
  events ending a live row with an unknown effect, and none otherwise, and the whole run emits at
  most one.
-/
theorem residue_accounting
    (adapter : KindAdapter)
    (row : Lifecycle)
    (inputs : List Input) :
    (∀ step ∈ (machine adapter).trace row inputs,
       residuesEmitted step =
         residueOwed step.before step.input.event step.output.row) ∧
    Machine.total residuesEmitted ((machine adapter).trace row inputs) ≤
      1 := by
  have hStep : ∀ (before : Lifecycle) (input : Input),
      residuesEmitted ((machine adapter).step before input) =
      residueOwed before input.event ((machine adapter).move before input) := by
    intro _ input
    exact taken_residues (transition_taken input.event)
  constructor
  · intro step hMem
    have hBefore := (machine adapter).invariant_before (I := fun _ => True) (P := fun _ => True)
      (fun _ _ _ _ => trivial) trivial (fun _ _ => trivial) step hMem
    rcases hBefore with ⟨_, input, hEq⟩
    rw [hEq]
    exact hStep step.before input
  · -- A residue uses up the one ending of a live row.
    have hRank : Machine.total residuesEmitted ((machine adapter).trace row inputs) +
        endingsLeft ((machine adapter).final row inputs) ≤ endingsLeft row := by
      apply (machine adapter).total_le_rank (I := fun _ => True)
        (P := fun _ => True) residuesEmitted endingsLeft
      · intro before input _ _
        rw [hStep before input]
        exact ⟨trivial, residueOwed_le (terminal_absorbing adapter before input) _⟩
      · trivial
      · exact fun _ _ => trivial
    have hStart : endingsLeft row ≤ 1 := by
      unfold endingsLeft
      split <;> omega
    omega

end VonkForge.LifecycleCore
