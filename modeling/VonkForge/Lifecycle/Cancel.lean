import VonkForge.Lifecycle.Runs

/-
  A cancelled row only winds down.

  Rule 4 of the core: once a cancel is recorded, a row is stopped until it is proven stopped or its
  stops are spent. Stops and earlier looks share one counter, so what a cancel really issues depends
  on the looks before it.

  Main declarations:
    * `WindDown`
    * `cancelled_row_winds_down`
    * `stops_of_request`
    * `stop_budget_issued_iff`
-/

----
-- Advancing a Cancel
----

namespace VonkForge.LifecycleCore

variable {adapter : KindAdapter} {row : Lifecycle} {now : Int} {event : Event}

/- The three ways a cancel is advanced. -/
inductive Advance (row : Lifecycle) (now : Int) (issueStop : Bool)
    (decision : Decision) : Prop where
  | proven (hState : decision.row.state = .cancelled)
      (hEffect : decision.row.effect = .stopped ∨ decision.row.effect = .none)
      (hCount : decision.row.observeCount = row.observeCount) (hCommands : decision.commands = [])
  | spent (hSpent : stopBudget ≤ row.observeCount) (hState : decision.row.state = .cancelled)
      (hEffect : decision.row.effect = .unknown)
      (hCount : decision.row.observeCount = row.observeCount)
      (hCommands : decision.commands = [.recordResidue WaitReason.stopUnconfirmed.value])
  | driven (hLeft : row.observeCount < stopBudget) (hState : decision.row.state = .observing)
      (hCount : decision.row.observeCount = row.observeCount + if issueStop then 1 else 0)
      (hNext : decision.row.nextActionAt = some (due row decision.row.observeCount now none none))
      (hCommands : decision.commands = if issueStop then [.stop] else [])

theorem effect_of_provenStopped {effect : Option Effect}
    (hProven : provenStopped row effect) :
    effect.getD .none = .stopped ∨ effect.getD .none = .none := by
  cases effect with
  | none => exact Or.inr rfl
  | some known =>
    cases known with
    | stopped => exact Or.inl rfl
    | none => exact Or.inr rfl
    | unknown | issued | established => cases hProven

theorem advanceCancel_advance (row : Lifecycle) (now : Int)
    (effect : Option Effect) (reason : Option String) (issueStop : Bool) :
    Advance row now issueStop (advanceCancel row now effect reason issueStop) := by
  unfold advanceCancel
  split
  · next hProven => exact Advance.proven rfl (effect_of_provenStopped hProven) rfl rfl
  · split
    · next hSpent => exact Advance.spent hSpent rfl rfl rfl rfl
    · next hLeft => exact Advance.driven (Nat.lt_of_not_le hLeft) rfl rfl rfl rfl

variable {decision : Decision} {issueStop : Bool}

/- A cancel that is still open was driven one step on. -/
theorem driven_of_open (hAdvance : Advance row now issueStop decision)
    (hOpen : decision.row.terminal = false) : row.observeCount < stopBudget ∧
      decision.row.state = .observing ∧
      decision.row.observeCount = row.observeCount + (if issueStop then 1 else 0) ∧
      decision.row.nextActionAt = some (due row decision.row.observeCount now none none) := by
  cases hAdvance with
  | proven hState | spent _ hState => simp [Lifecycle.terminal, hState, State.terminal] at hOpen
  | driven hLeft hState hCount hNext => exact ⟨hLeft, hState, hCount, hNext⟩

----
-- What happens to a cancelled Row
----

/- Everything that can happen to a cancelled row. -/
inductive WindDown (adapter : KindAdapter) (row : Lifecycle) (now : Int)
    (event : Event) (decision : Decision) : Prop where
  | stay (hDecision : decision = { row := row })
  | touch (hState : row.state = .queued ∨ row.state = .running)
      (hSame : decision.row.state = row.state)
      (hCount : decision.row.observeCount = row.observeCount) (hCommands : decision.commands = [])
  | conclude (report : Report) (state : State) (hEvent : event = .reported report)
      (hLive : row.terminal = false) (hOurs : stale row event = false)
      (hState : report.endState = some state)
      (hDecision : decision = endWith row state (endEffect row report) report.reason)
  | retire (hState : decision.row.state = .failed)
      (hCount : decision.row.observeCount = row.observeCount) (hCommands : decision.commands = [])
  | resume (hResumes : resumes adapter row event = true) (hState : decision.row.state = .queued)
      (hCommands : decision.commands = [])
  | wind (reason : Option String) (hLive : row.terminal = false) (hOurs : stale row event = false)
      (hEvent : drivesCancel event = true)
      (hDecision : decision = advanceCancel row now (replyEffect event) reason (issuesStop row
        event))

theorem cancelled_taken (hCancel : row.cancelRequested)
    (hTaken : Taken adapter row now event decision) : WindDown adapter row now event decision := by
  cases hTaken with
  | ignored => exact WindDown.stay rfl
  | expired _ _ _ hExpired => simp [expired, hCancel] at hExpired
  | moved _ hLive hOurs _ hMove =>
    cases hMove with
    | keep => exact WindDown.stay rfl
    | submit hState => exact WindDown.touch (Or.inl hState) rfl rfl rfl
    | renew _ _ hState => exact WindDown.touch (Or.inr hState) rfl rfl rfl
    | conclude report state hState =>
      exact WindDown.conclude report state rfl hLive hOurs hState rfl
    | resume _ _ hResumes => exact WindDown.resume hResumes rfl rfl
    | retire => exact WindDown.retire rfl rfl rfl
    | wind _ reason _ hEvent => exact WindDown.wind reason hLive hOurs hEvent rfl
    | request _ _ _ hFalse | claim _ _ _ _ hFalse | retry _ _ _ _ _ hFalse | observe _ _ _ hFalse =>
      simp [hCancel] at hFalse
    | lostTick _ hFalse | lostInTime _ _ hFalse | lostLate _ hFalse | await _ _ hFalse =>
      simp [hCancel] at hFalse
    | establish _ _ hFalse | cease _ hFalse | endLate _ _ _ hFalse | execute _ hFalse =>
      simp [hCancel] at hFalse
    | watch _ hFalse | look _ hFalse => simp [hCancel] at hFalse

theorem transition_windDown (adapter : KindAdapter) (now : Int) (event : Event)
    (hCancel : row.cancelRequested) :
    WindDown adapter row now event (transition row event adapter now) :=
  cancelled_taken hCancel (transition_taken event)

/- The state a definite report ends a row in is terminal. -/
theorem endState_terminal {report : Report} {state : State}
    (hState : report.endState = some state) : state.terminal := by
  rcases Report.endState_cases hState with ⟨_, rfl⟩ | ⟨_, rfl⟩ | ⟨_, _, rfl⟩
  · rfl
  · rfl
  · rfl

/- The report leaves the row cancelled but unconfirmed. -/
def cancelledUnknown (row : Lifecycle) : Event → Bool
  | .reported report =>
    !row.terminal && !staleFence row report.fence && report.outcome == .cancelled &&
      report.effect == some .unknown
  | _ => false

theorem cancelledUnknown_of_endEffect {report : Report} (hLive : row.terminal = false)
    (hOurs : stale row (.reported report) = false) (hState : report.endState = some .cancelled)
    (hEffect : endEffect row report = .unknown) :
    cancelledUnknown row (.reported report) := by
  have hFence : staleFence row report.fence = false := hOurs
  have hOutcome : report.outcome = .cancelled := by
    rcases Report.endState_cases hState with ⟨_, hEnd⟩ | ⟨hOutcome, _⟩ | ⟨_, _, hEnd⟩
    · cases hEnd
    · exact hOutcome
    · cases hEnd
  have hReported : report.effect = some .unknown := by
    unfold endEffect at hEffect
    simpa [hOutcome, Option.getD_eq_iff] using hEffect
  simp [cancelledUnknown, hLive, hFence, hOutcome, hReported]

----
-- Winding down
----

/- A cancelled row that is not running. -/
structure WindingDown (row : Lifecycle) : Prop where
  cancel : row.cancelRequested = true
  state : row.state ≠ .running

theorem WindingDown.move (hRow : WindingDown row) (adapter : KindAdapter) (now : Int)
    (event : Event) : WindingDown (transition row event adapter now).row := by
  have hKept := cancel_kept adapter now event hRow.cancel
  refine ⟨?_, ?_⟩
  · rw [hKept.requested]
    exact hRow.cancel
  · cases transition_windDown adapter now event
        hRow.cancel with
    | stay hDecision =>
      rw [hDecision]
      exact hRow.state
    | touch _ hSame =>
      rw [hSame]
      exact hRow.state
    | conclude _ _ _ _ _ hState hDecision =>
      have hTerminal := endState_terminal hState
      rw [hDecision]
      rintro rfl
      cases hTerminal
    | retire hState => simp [hState]
    | resume _ hState => simp [hState]
    | wind reason _ _ _ hDecision =>
      rw [hDecision]
      cases advanceCancel_advance row now (replyEffect event) reason (issuesStop row event) with
      | proven hState | spent _ hState | driven _ hState => simp [hState]

/- The stops a cancelled row has left, and its end. -/
def stopsLeft (row : Lifecycle) : Nat :=
  if row.terminal then 0
  else stopBudget - row.observeCount + 1

/- One for a tick that arrives when the row is due. -/
def dueTick (step : Step) : Nat :=
  if step.input.event = .tick ∧ pending step.before.nextActionAt step.input.now = false
  then 1 else 0

theorem stopsLeft_of_terminal (hTerminal : row.terminal) : stopsLeft row = 0 := by
  simp [stopsLeft, hTerminal]

/- A due tick drives the cancel one stop further. -/
theorem transition_dueTick (adapter : KindAdapter) (hLive : row.terminal = false)
    (hCancel : row.cancelRequested) (hDue : pending row.nextActionAt now = false) :
    transition row .tick adapter now = advanceCancel row now none none true := by
  simp [transition, hLive, stale, expired, hCancel, dispatch, tick, hDue]

theorem advance_stopsLeft (hLive : row.terminal = false)
    (hAdvance : Advance row now issueStop decision) :
    stopsLeft decision.row + (if issueStop then 1 else 0) ≤ stopsLeft row := by
  have hStart : stopsLeft row = stopBudget - row.observeCount + 1 := by simp [stopsLeft, hLive]
  cases hAdvance with
  | proven hState | spent _ hState =>
    have hEnd : stopsLeft decision.row = 0 :=
      stopsLeft_of_terminal (by simp [Lifecycle.terminal, hState, State.terminal])
    rw [hEnd, hStart]
    split <;> omega
  | driven _ hState hCount =>
    have hEnd : stopsLeft decision.row = stopBudget - decision.row.observeCount + 1 := by
      simp [stopsLeft, Lifecycle.terminal, hState, State.terminal]
    rw [hEnd, hStart, hCount]
    split <;> omega

/- An event other than a resume never restores a stop. -/
theorem windDown_stopsLeft (hResume : resumes adapter row event = false)
    (hWind : WindDown adapter row now event decision) : stopsLeft decision.row ≤ stopsLeft row := by
  cases hWind with
  | stay hDecision => exact Nat.le_of_eq (by rw [hDecision])
  | touch _ hSame hCount =>
    have hEqual : stopsLeft decision.row = stopsLeft row := by
      unfold stopsLeft Lifecycle.terminal
      rw [hSame, hCount]
    exact Nat.le_of_eq hEqual
  | conclude _ _ _ _ _ hState hDecision =>
    have hEnd : stopsLeft decision.row = 0 := by
      apply stopsLeft_of_terminal
      rw [hDecision]
      exact endState_terminal hState
    omega
  | retire hState =>
    have hEnd : stopsLeft decision.row = 0 :=
      stopsLeft_of_terminal (by simp [Lifecycle.terminal, hState, State.terminal])
    omega
  | resume hResumes => simp [hResume] at hResumes
  | wind reason hLive _ _ hDecision =>
    rw [hDecision]
    have hStop := advance_stopsLeft hLive
      (advanceCancel_advance row now (replyEffect event) reason (issuesStop row event))
    omega

/- One step spends a stop for every due tick it makes. -/
theorem step_stopsLeft {input : Input} (hCancel : row.cancelRequested)
    (hLive : row.terminal = false) (hResume : resumes adapter row input.event = false) :
    dueTick ((machine adapter).step row input) + stopsLeft ((machine adapter).move row input) ≤
    stopsLeft row := by
  rw [machine_move]
  by_cases hDue : input.event = .tick ∧ pending row.nextActionAt input.now = false
  · rcases hDue with ⟨hTick, hNow⟩
    have hStop := advance_stopsLeft hLive (advanceCancel_advance row input.now none none true)
    rw [hTick, transition_dueTick adapter hLive hCancel hNow]
    simp only [dueTick, Machine.step_input,
      Machine.step_before, hTick, hNow, and_self, if_true] at hStop ⊢
    omega
  · have hSame := windDown_stopsLeft hResume
      (transition_windDown adapter input.now input.event hCancel)
    simp only [dueTick, Machine.step_input, Machine.step_before, hDue, if_false]
    omega

/-
  Without a resume, the due ticks of a run that has not ended never exceed the stops the row had
  left.
-/
theorem total_dueTick_le {inputs : List Input} (hRow : WindingDown row)
    (hResume : ∀ step ∈ (machine adapter).trace row inputs,
      resumes adapter step.before step.input.event = false)
    (hLive : ((machine adapter).final row inputs).terminal = false) :
    Machine.total dueTick ((machine adapter).trace row inputs) +
    stopsLeft ((machine adapter).final row inputs) ≤ stopsLeft row := by
  have hBefore : ∀ step ∈ (machine adapter).trace row inputs, ¬ step.before.terminal := by
    apply (machine adapter).before_not_of_absorbing (terminal_absorbing adapter)
    simp [hLive]
  apply (machine adapter).total_le_rank (I := WindingDown)
    (P := fun step => resumes adapter step.before step.input.event = false ∧
      step.before.terminal = false) dueTick stopsLeft
  · intro _ input hWinding hStep
    exact ⟨hWinding.move adapter input.now input.event,
      step_stopsLeft hWinding.cancel hStep.2 hStep.1⟩
  · exact hRow
  · intro step hMem
    exact ⟨hResume step hMem, by simpa using hBefore step hMem⟩

/-
  A cancelled row only winds down: in every run from it the request stays as it is and the row
  neither runs nor executes, and without a resume it has ended by the tick after its last stop.
-/
theorem cancelled_row_winds_down
    (adapter : KindAdapter)
    (row : Lifecycle)
    (hLive : row.terminal = false)
    (hState : row.state ≠ .running)
    (hCancel : row.cancelRequested = true)
    (inputs : List Input) :
    (((machine adapter).final row inputs).cancelRequestedAt =
       row.cancelRequestedAt ∧
     ((machine adapter).final row inputs).cancelRequestKey =
       row.cancelRequestKey ∧
     ((machine adapter).final row inputs).state ≠ .running ∧
     ∀ step ∈ (machine adapter).trace row inputs,
       Command.execute ∉ step.output.commands) ∧
    ((∀ step ∈ (machine adapter).trace row inputs,
        resumes adapter step.before step.input.event = false) →
     stopBudget + 1 ≤
       Machine.total dueTick ((machine adapter).trace row inputs) →
     ((machine adapter).final row inputs).terminal = true) := by
  have hRow : WindingDown row := ⟨hCancel, hState⟩
  have hFinal : WindingDown ((machine adapter).final row inputs) ∧
      Kept row ((machine adapter).final row inputs) := by
    apply (machine adapter).final_of_absorbing (A := fun s => WindingDown s ∧ Kept row s)
    · rintro _ input ⟨hWinding, hKept⟩
      exact ⟨hWinding.move adapter input.now input.event,
        hKept.trans (cancel_kept adapter input.now input.event hWinding.cancel)⟩
    · exact ⟨hRow, Kept.refl row⟩
  constructor
  · refine ⟨hFinal.2.instant, hFinal.2.key, hFinal.1.state, ?_⟩
    intro step hMem hExecute
    have hBefore := (machine adapter).invariant_before (I := WindingDown) (P := fun _ => True)
      (fun s input hWinding _ => hWinding.move adapter input.now input.event) hRow
      (fun _ _ => trivial) step hMem
    rcases hBefore with ⟨hWinding, input, hStep⟩
    rw [hStep] at hExecute
    have hTaken : Taken adapter step.before input.now input.event
      (transition step.before input.event adapter input.now) := transition_taken input.event
    rcases execute_inversion hTaken hExecute with ⟨_, hFalse, _⟩
    simp [hWinding.cancel] at hFalse
  · intro hResume _
    by_contra hOpen
    have hCount := total_dueTick_le hRow hResume (by simpa using hOpen)
    have hStart : stopsLeft row = stopBudget - row.observeCount + 1 := by simp [stopsLeft, hLive]
    have hEnd : 1 ≤ stopsLeft ((machine adapter).final row inputs) := by simp [stopsLeft, hOpen]
    omega

/- An order that is being cancelled after its first stop. -/
def cancellingOrder : Lifecycle :=
  { newOrder with
    state := .observing
    attempt := 1
    observeCount := 1
    effect := .unknown
    nextActionAt := some second
    cancelRequestedAt := some 0 }

/- Ticks a hundred seconds apart. -/
def sparseTicks (count : Nat) : List Input := (List.range count).map fun i =>
    { event := .tick, now := (i + 1) * (100 * second) }

/- Seven ticks are enough for an order that was cancelled. -/
theorem cancelled_row_winds_down_ticks :
    cancellingOrder.terminal = false ∧
    ((machine irreversibleKind).final
       cancellingOrder (sparseTicks 7)).terminal =
      true := by
  refine ⟨rfl, ?_⟩
  apply (cancelled_row_winds_down irreversibleKind
    cancellingOrder rfl (by decide) rfl (sparseTicks 7)).2
  · decide +kernel
  · decide +kernel

----
-- Counting Stops
----

/- The stops a step issues. -/
def stopsIssued (step : Step) : Nat := step.output.stops

/- Cancelled without a proof that the effect is gone. -/
def GivesUp (row : Lifecycle) : Prop := row.state = .cancelled ∧ row.effect = .unknown

/- Every stop, and nothing else, raises the counter. -/
theorem advance_stops (hAdvance : Advance row now issueStop decision) :
    decision.row.observeCount = row.observeCount + decision.stops := by
  cases hAdvance with
  | proven _ _ hCount hCommands | spent _ _ _ hCount hCommands =>
    rw [hCount, Decision.stops, hCommands]
    rfl
  | driven _ _ hCount _ hCommands =>
    rw [hCount, Decision.stops, hCommands]
    cases issueStop with
    | true | false => rfl

theorem windDown_stops (hResume : resumes adapter row event = false)
    (hWind : WindDown adapter row now event decision) :
    decision.row.observeCount = row.observeCount + decision.stops := by
  cases hWind with
  | stay hDecision | conclude _ _ _ _ _ _ hDecision =>
    rw [hDecision]
    rfl
  | touch _ _ hCount hCommands | retire _ hCount hCommands =>
    rw [hCount, Decision.stops, hCommands]
    rfl
  | resume hResumes => simp [hResume] at hResumes
  | wind reason _ _ _ hDecision =>
    rw [hDecision]
    exact advance_stops
      (advanceCancel_advance row now (replyEffect event) reason (issuesStop row event))

/-
  What holds from the request on, for a row that had made `looks` looks by then: the counter stays
  within the stop budget unless the looks had passed it, and the row gives up only with the budget
  spent.
-/
structure Stopping (looks : Nat) (row : Lifecycle) : Prop where
  cancel : row.cancelRequested = true
  bound : row.observeCount ≤ max stopBudget looks
  spent : GivesUp row → stopBudget ≤ row.observeCount

theorem advance_stopping {looks : Nat} (hCancel : decision.row.cancelRequested)
    (hBound : row.observeCount ≤ max stopBudget looks)
    (hAdvance : Advance row now issueStop decision) : Stopping looks decision.row := by
  cases hAdvance with
  | proven _ hEffect =>
    refine ⟨hCancel, by omega, ?_⟩
    rintro ⟨_, hUnknown⟩
    rcases hEffect with hStopped | hNone
    · simp [hUnknown] at hStopped
    · simp [hUnknown] at hNone
  | spent => exact ⟨hCancel, by omega, fun _ => by omega⟩
  | driven _ hState hCount =>
    refine ⟨hCancel, ?_, ?_⟩
    · rw [hCount]
      split <;> omega
    · rintro ⟨hCancelled, _⟩
      simp [hState] at hCancelled

theorem Stopping.move {looks : Nat} (hRow : Stopping looks row)
    (hResume : resumes adapter row event = false) (hReport : cancelledUnknown row event = false) :
    Stopping looks (transition row event adapter now).row := by
  have hCancel : (transition row event adapter now).row.cancelRequested := by
    rw [(cancel_kept adapter now event hRow.cancel).requested]
    exact hRow.cancel
  cases transition_windDown adapter now event hRow.cancel with
  | stay hDecision =>
    rw [hDecision]
    exact hRow
  | touch hState hSame hCount =>
    refine ⟨hCancel, ?_, ?_⟩
    · rw [hCount]
      exact hRow.bound
    · rintro ⟨hCancelled, _⟩
      rw [hSame] at hCancelled
      simp [hCancelled] at hState
  | conclude _ _ hEvent hLive hOurs hState hDecision =>
    refine ⟨hCancel, ?_, ?_⟩
    · rw [hDecision]
      exact hRow.bound
    · rw [hDecision]
      rintro ⟨hCancelled, hUnknown⟩
      simp only [endWith] at hCancelled hUnknown
      subst hCancelled hEvent
      have hGiven := cancelledUnknown_of_endEffect hLive hOurs hState hUnknown
      simp [hReport] at hGiven
  | retire hState hCount =>
    refine ⟨hCancel, ?_, ?_⟩
    · rw [hCount]
      exact hRow.bound
    · rintro ⟨hCancelled, _⟩
      simp [hState] at hCancelled
  | resume hResumes => simp [hResume] at hResumes
  | wind reason _ _ _ hDecision =>
    rw [hDecision] at hCancel ⊢
    exact advance_stopping hCancel hRow.bound
      (advanceCancel_advance row now (replyEffect event) reason (issuesStop row event))

/- The step that records the request. -/
theorem request_stopping (hUnrequested : row.cancelRequested = false)
    (hRequested : (transition row event adapter now).row.cancelRequested) :
    Stopping row.observeCount (transition row event adapter now).row ∧
    (transition row event adapter now).row.observeCount = row.observeCount +
    (transition row event adapter now).stops := by
  cases transition_keeps adapter row now event with
  | kept hKept =>
    rw [hKept.requested, hUnrequested] at hRequested
    cases hRequested
  | claim _ _ _ _ _ _ _ hRow =>
    rw [hRow] at hRequested
    have hSame : row.cancelRequested := hRequested
    rw [hUnrequested] at hSame
    cases hSame
  | request key reason hCancel _ hDecision =>
    have hLooks : (withCancelFlag row now key).observeCount = row.observeCount := by
      simp [withCancelFlag, hCancel]
    have hAdvance := advanceCancel_advance (withCancelFlag row now key) now none reason true
    rw [← hDecision] at hAdvance
    refine ⟨advance_stopping hRequested ?_ hAdvance, ?_⟩
    · rw [hLooks]
      exact Nat.le_max_right _ _
    · rw [advance_stops hAdvance, hLooks]

/-
  From the request to the end a row that gives up issues exactly the stops its earlier looks have
  left over.
-/
theorem stops_of_request
    {inputs : List Input}
    {request : Input}
    (hUnrequested : row.cancelRequested = false)
    (hRequested : ((machine adapter).move row request).cancelRequested)
    (hSteps :
      ∀ step ∈ (machine adapter).trace
        ((machine adapter).move row request) inputs,
        resumes adapter step.before step.input.event = false ∧
        cancelledUnknown step.before step.input.event = false)
    (hEnd : GivesUp ((machine adapter).final row (request :: inputs))) :
    Machine.total stopsIssued
      ((machine adapter).trace row (request :: inputs)) =
      stopBudget - row.observeCount := by
  rcases request_stopping hUnrequested hRequested with ⟨hFirst, _⟩
  have hRun := (machine adapter).invariant (I := Stopping row.observeCount)
    (fun s input hRow hStep => hRow.move hStep.1 hStep.2) hFirst hSteps
  have hTotal := (machine adapter).total_conserved (I := Stopping row.observeCount) stopsIssued
    Lifecycle.observeCount (fun s input hRow hStep =>
      ⟨hRow.move hStep.1 hStep.2, windDown_stops hStep.1
      (transition_windDown adapter input.now input.event hRow.cancel)⟩) hFirst hSteps
  have hBound := hRun.bound
  have hSpent := hRun.spent hEnd
  rw [Machine.trace_cons, Machine.total_cons]
  simp only [stopsIssued, Machine.step_output,
    machine_answer, machine_move] at hTotal hBound hSpent ⊢
  omega

/-
  When a cancel gives up, it has issued its whole stop budget exactly if the row had not been looked
  at when the cancel was requested, in every run in which nothing resumes the row after the request
  and the executor does not itself report it cancelled with an unknown effect.
-/
theorem stop_budget_issued_iff
    (adapter : KindAdapter)
    (row : Lifecycle)
    (earlier : List Input)
    (request : Input)
    (later : List Input)
    (hUnrequested :
      ((machine adapter).final row earlier).cancelRequested = false)
    (hRequested :
      ((machine adapter).final
         row (earlier ++ [request])).cancelRequested =
        true)
    (hSteps :
      ∀ step ∈ (machine adapter).trace
        ((machine adapter).final row (earlier ++ [request])) later,
        resumes adapter step.before step.input.event = false ∧
        cancelledUnknown step.before step.input.event = false)
    (hEnd :
      GivesUp
        ((machine adapter).final row (earlier ++ request :: later))) :
    Machine.total stopsIssued
      ((machine adapter).trace ((machine adapter).final row earlier)
         (request :: later)) =
      stopBudget ↔
      ((machine adapter).final row earlier).observeCount = 0 := by
  rw [Machine.final_append] at hRequested hSteps hEnd
  have hStops := stops_of_request hUnrequested hRequested hSteps hEnd
  have hBudget : stopBudget = 6 := rfl
  omega

/- A running order that is cancelled and never confirmed. -/
def cancelledRun : List Input :=
  { event := .cancelRequested (some "key") none, now := 10 } :: sparseTicks 6

/- A running order is stopped as often as the budget says. -/
theorem stop_budget_issued_running :
    Machine.total stopsIssued
      ((machine irreversibleKind).trace
         ((machine irreversibleKind).final newOrder
            [{ event := .claimed 1 "first" 100, now := 0 }])
         cancelledRun) =
      stopBudget := by
  apply (stop_budget_issued_iff irreversibleKind newOrder
    [{ event := .claimed 1 "first" 100, now := 0 }]
    { event := .cancelRequested (some "key") none, now := 10 }
    (sparseTicks 6) ?_ ?_ ?_ ?_).mpr
  · decide +kernel
  · decide +kernel
  · decide +kernel
  · decide +kernel
  · exact ⟨by decide +kernel, by decide +kernel⟩

/-
  An order whose lease lapsed and that was looked at for the sixth time before its cancel is
  requested.
-/
def lookedAtRun : List Input :=
  { event := .claimed 1 "first" 10, now := 0 } ::
    { event := .leaseLapsed none, now := 10 } :: sparseTicks 5

/- Cancelling it gives up at once, without a single stop. -/
theorem cancel_gives_up_without_stop :
    1 ≤
      ((machine irreversibleKind).final newOrder lookedAtRun).attempt ∧
    ((machine irreversibleKind).final newOrder lookedAtRun).effect ≠
      .none ∧
    ((machine irreversibleKind).final
       newOrder lookedAtRun).cancelRequested =
      false ∧
    GivesUp
      ((machine irreversibleKind).final newOrder
         (lookedAtRun ++
            [{ event := .cancelRequested none none, now := 600 * second }])) ∧
    Machine.total stopsIssued
      ((machine irreversibleKind).trace
         ((machine irreversibleKind).final newOrder lookedAtRun)
         [{ event := .cancelRequested none none, now := 600 * second }]) =
      0 := by
  refine ⟨?_, ?_, ?_, ⟨?_, ?_⟩, ?_⟩
  · decide +kernel
  · decide +kernel
  · decide +kernel
  · decide +kernel
  · decide +kernel
  · decide +kernel

end VonkForge.LifecycleCore
