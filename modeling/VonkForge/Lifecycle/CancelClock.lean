import VonkForge.Lifecycle.Cancel

/-
  How long a cancel takes.

  An answer to a stop recomputes the row's schedule from the time it arrives at, so it keeps the
  schedule only when it is prompt. With prompt answers and a tick at every due instant a cancel ends
  within the delays of its stops.

  Main declarations:
    * `answers`
    * `notLater_iff_prompt`
    * `inTime_run`
    * `prompt_answers_keep_the_cancel_in_time`
-/

----
-- Answers
----

namespace VonkForge.LifecycleCore

variable {adapter : KindAdapter} {row : Lifecycle} {now : Int} {event : Event}

/- An observation or an uncertain report that does not prove the effect gone. -/
def answers : Event → Bool
  | .observed effect _ => effect != .stopped && effect != .none
  | .reported report => report.endState.isNone && (knownStopped report.effect).isNone
  | _ => false

/-
  The backoff from now on, or the recovery deadline, falls no later than the next action the row
  already has.
-/
def Prompt (row : Lifecycle) (now : Int) : Prop := ∃ instant, row.nextActionAt = some instant ∧
    (now + backoff row row.observeCount ≤ instant ∨ reached row.recoveryDeadline instant = true)

instance decidablePrompt (row : Lifecycle) (now : Int) : Decidable (Prompt row now) :=
  match hNext : row.nextActionAt with
  | none => isFalse (by simp [Prompt, hNext])
  | some instant =>
    decidable_of_iff (now + backoff row row.observeCount ≤ instant ∨
        reached row.recoveryDeadline instant = true) (by simp [Prompt, hNext])

/- The next action did not move to a later instant. -/
def NotLater (before after : Lifecycle) : Prop := after.nextActionAt = before.nextActionAt ∨
    ∃ old new, before.nextActionAt = some old ∧ after.nextActionAt = some new ∧ new ≤ old

/- An answer is recorded without issuing the next stop. -/
theorem transition_answer (adapter : KindAdapter) (now : Int) (hLive : row.terminal = false)
    (hCancel : row.cancelRequested) (hState : row.state = .observing)
    (hOurs : stale row event = false) (hAnswer : answers event) :
    Advance row now false (transition row event adapter now) := by
  cases event with
  | observed effect reason =>
    have hAdvance := advanceCancel_advance row now (some effect) reason false
    simpa [transition, hLive, hOurs, expired, hCancel, dispatch, observed] using hAdvance
  | reported report =>
    have hAdvance := advanceCancel_advance row now (knownStopped report.effect) report.reason false
    simp only [answers, Bool.and_eq_true, Option.isNone_iff_eq_none] at hAnswer
    have hReported : reported row report adapter now = reportedUncertain row report adapter now :=
        by
      unfold reported
      have hEnd := hAnswer.1
      unfold Report.endState at hEnd
      cases hOutcome : report.outcome with
      | done | cancelled => simp [hOutcome] at hEnd
      | failed =>
        have hRetry : report.retryable := by simpa [hOutcome] using hEnd
        simp [hRetry]
      | unknown => rfl
    simpa [transition, hLive, hOurs, expired, hCancel, dispatch, hReported, reportedUncertain,
        hState] using hAdvance
  | _ => cases hAnswer

variable {decision : Decision} {bound clock : Int}

/- An open row after an answer is scheduled from now on. -/
theorem nextActionAt_of_answer (hAdvance : Advance row now false decision)
    (hOpen : decision.row.terminal = false) : decision.row.observeCount = row.observeCount ∧
    decision.row.nextActionAt = some (due row row.observeCount now none none) := by
  rcases driven_of_open hAdvance hOpen with ⟨_, _, hCount, hNext⟩
  have hSame : decision.row.observeCount = row.observeCount := hCount
  rw [hSame] at hNext
  exact ⟨hSame, hNext⟩

/-
  An answer that does not end a cancelled row keeps its schedule exactly when it is stale or prompt.
-/
theorem notLater_iff_prompt
    (adapter : KindAdapter)
    (hCancel : row.cancelRequested)
    (hState : row.state = .observing)
    (hAnswer : answers event)
    (hOpen : (transition row event adapter now).row.terminal = false) :
    NotLater row (transition row event adapter now).row ↔
      stale row event ∨ Prompt row now :=
    by
  have hLive : row.terminal = false := by simp [Lifecycle.terminal, hState, State.terminal]
  cases hOurs : stale row event with
  | true =>
    have hSame : transition row event adapter now = { row := row } := by
      simp [transition, hLive, hOurs]
    rw [hSame]
    simp [NotLater]
  | false =>
    have hNext := (nextActionAt_of_answer
      (transition_answer adapter now hLive hCancel hState hOurs hAnswer) hOpen).2
    constructor
    · intro hNotLater
      right
      rcases hNotLater with hSame | ⟨old, _, hOld, hNew, hLe⟩
      · rw [hNext] at hSame
        exact ⟨_, hSame.symm, (due_le_iff row row.observeCount now _).mp (Int.le_refl _)⟩
      · rw [hNext] at hNew
        rw [← Option.some.inj hNew] at hLe
        exact ⟨old, hOld, (due_le_iff row row.observeCount now old).mp hLe⟩
    · rintro (hStale | ⟨old, hOld, hPrompt⟩)
      · cases hStale
      · exact Or.inr ⟨old, _, hOld, hNext, (due_le_iff row row.observeCount now old).mpr hPrompt⟩

----
-- The Delays of the Stops
----

/- The delays of the stops after the first `count`. -/
def remainingDelays (row : Lifecycle) (count : Nat) : Int :=
  (((List.range stopBudget).drop count).map fun k => backoff row (k + 1)).sum

theorem remainingDelays_of_lt (row : Lifecycle) {count : Nat} (hLeft : count < stopBudget) :
    remainingDelays row count = backoff row (count + 1) + remainingDelays row (count + 1) := by
  have hLength : count < (List.range stopBudget).length := by simpa using hLeft
  unfold remainingDelays
  rw [List.drop_eq_getElem_cons hLength]
  simp

theorem remainingDelays_of_spent (row : Lifecycle) {count : Nat} (hSpent : stopBudget ≤ count) :
    remainingDelays row count = 0 := by
  have hLength : (List.range stopBudget).length ≤ count := by simpa using hSpent
  unfold remainingDelays
  rw [List.drop_eq_nil_of_le hLength]
  rfl

/- Every delay is positive, so fewer stops take less. -/
theorem remainingDelays_anti (row : Lifecycle) {first second : Nat} (hLe : first ≤ second) :
    remainingDelays row second ≤
      remainingDelays row first := by
  induction hLe with
  | refl => exact Int.le_refl _
  | @step count _ ih =>
    by_cases hLeft : count < stopBudget
    · have hStep := remainingDelays_of_lt row hLeft
      have hDelay := backoff_pos row (count + 1)
      rw [Nat.succ_eq_add_one]
      omega
    · have hSpent : stopBudget ≤ count := by omega
      rw [remainingDelays_of_spent row hSpent] at ih
      rw [remainingDelays_of_spent row (by omega)]
      exact ih

theorem remainingDelays_nonneg (row : Lifecycle) (count : Nat) : 0 ≤ remainingDelays row count := by
  have hAnti := remainingDelays_anti row (Nat.le_max_left count stopBudget)
  rw [remainingDelays_of_spent row (Nat.le_max_right count stopBudget)] at hAnti
  exact hAnti

theorem remainingDelays_congr {before after : Lifecycle} (hId : after.id = before.id)
    (count : Nat) : remainingDelays after count = remainingDelays before count := by
  simp only [remainingDelays, backoff, hId]

----
-- One Step of the Clock
----

/-
  Where a cancel stands at an instant: its row has ended, or its next action and all stops still to
  come fit before the bound.
-/
structure InTime (bound clock : Int) (row : Lifecycle) : Prop where
  cancel : row.cancelRequested = true
  fits : row.terminal = false → row.state = .observing ∧
    ∃ instant, row.nextActionAt = some instant ∧
    max clock instant + remainingDelays row row.observeCount ≤ bound

/- A stop issued at an instant that leaves room for it. -/
theorem stop_inTime {bound : Int} (hCancel : row.cancelRequested)
    (hRoom : now + remainingDelays row row.observeCount ≤ bound) (hKept : Kept row decision.row)
    (hAdvance : Advance row now true decision) : InTime bound now decision.row := by
  have hRequested : decision.row.cancelRequested := by
    rw [hKept.requested]
    exact hCancel
  refine ⟨hRequested, fun hOpen => ?_⟩
  rcases driven_of_open hAdvance hOpen with ⟨hLeft, hState, hCount, hNext⟩
  have hSucc : decision.row.observeCount = row.observeCount + 1 := hCount
  have hSum := remainingDelays_of_lt row hLeft
  have hDelay := backoff_pos row (row.observeCount + 1)
  have hDue := due_le_backoff row (row.observeCount + 1) now
  rw [hSucc] at hNext
  refine ⟨hState, _, hNext, ?_⟩
  rw [remainingDelays_congr hKept.id, hSucc]
  omega

/- A prompt answer leaves the room that was there. -/
theorem answer_inTime (hRow : InTime bound clock row) (hLive : row.terminal = false)
    (hNow : ∀ instant, row.nextActionAt = some instant → now ≤ max clock instant)
    (hPrompt : decision.row.terminal = false → Prompt row now) (hKept : Kept row decision.row)
    (hAdvance : Advance row now false decision) : InTime bound now decision.row := by
  have hRequested : decision.row.cancelRequested := by
    rw [hKept.requested]
    exact hRow.cancel
  refine ⟨hRequested, fun hOpen => ?_⟩
  rcases hRow.fits hLive with ⟨_, instant, hInstant, _⟩
  rcases nextActionAt_of_answer hAdvance hOpen with ⟨hCount, hNext⟩
  have hObserving : decision.row.state = .observing := (driven_of_open hAdvance hOpen).2.1
  rcases hPrompt hOpen with ⟨old, hOld, hEarly⟩
  rw [hInstant] at hOld
  have hSame : instant = old := Option.some.inj hOld
  have hDue : due row row.observeCount now none none ≤ instant := by
    rw [hSame]
    exact (due_le_iff row row.observeCount now old).mpr hEarly
  have hArrived := hNow instant hInstant
  refine ⟨hObserving, _, hNext, ?_⟩
  rw [remainingDelays_congr hKept.id, hCount]
  omega

/- A reply that proves nothing is an answer. -/
theorem answers_of_reply (hEvent : drivesCancel event)
    (hReply : issuesStop row event = false)
    (hUnproven : provenStopped row (replyEffect event) = false) : answers event := by
  cases event with
  | observed effect =>
    cases effect <;>
      simp [answers, replyEffect, provenStopped] at hUnproven ⊢
  | reported report =>
    have hEnd : report.endState.isNone := hEvent
    simp only [answers, hEnd, Bool.true_and, Option.isNone_iff_eq_none]
    cases hEffect : report.effect with
    | none => rfl
    | some known =>
      cases known <;>
        simp [replyEffect, hEffect, knownStopped, provenStopped] at hUnproven ⊢
  | _ => cases hReply

/- A step whose answer, if it is one, is prompt. -/
def PromptAnswer (step : Step) : Prop :=
  answers step.input.event = true → step.before.terminal = false →
    stale step.before step.input.event = false → Prompt step.before step.input.now

instance decidablePromptAnswer (step : Step) : Decidable (PromptAnswer step) :=
  inferInstanceAs (Decidable (_ → _ → _ → Prompt _ _))

/-
  One event keeps the cancel in time, if it arrives no later than the row is due and is no resume
  and no late answer.
-/
theorem InTime.move {input : Input} (hRow : InTime bound clock row) (hClock : clock ≤ input.now)
    (hNow : row.terminal = false → ∀ instant, row.nextActionAt = some instant →
      input.now ≤ max clock instant) (hResume : resumes adapter row input.event = false)
    (hPrompt : PromptAnswer ((machine adapter).step row input)) :
    InTime bound input.now ((machine adapter).move row input) := by
  rw [machine_move]
  have hKept := cancel_kept adapter input.now input.event hRow.cancel
  have hRequested : (transition row input.event adapter input.now).row.cancelRequested := by
    rw [hKept.requested]
    exact hRow.cancel
  cases transition_windDown adapter input.now input.event hRow.cancel with
  | stay hDecision =>
    rw [hDecision]
    refine ⟨hRow.cancel, fun hOpen => ?_⟩
    rcases hRow.fits hOpen with ⟨hState, instant, hInstant, _⟩
    have hArrived := hNow hOpen instant hInstant
    have hLeft : max input.now instant + remainingDelays row row.observeCount ≤ bound := by omega
    exact ⟨hState, instant, hInstant, hLeft⟩
  | touch hState =>
    have hLive : row.terminal = false := by
      rcases hState with hQueued | hRunning
      · simp [Lifecycle.terminal, hQueued, State.terminal]
      · simp [Lifecycle.terminal, hRunning, State.terminal]
    have hObserving := (hRow.fits hLive).1
    simp [hObserving] at hState
  | conclude _ _ _ _ _ hState hDecision =>
    refine ⟨hRequested, fun hOpen => ?_⟩
    have hEnded := endState_terminal hState
    rw [hDecision] at hOpen
    simp only [Lifecycle.terminal, endWith, hEnded] at hOpen
    cases hOpen
  | retire hState =>
    refine ⟨hRequested, fun hOpen => ?_⟩
    simp [Lifecycle.terminal, hState, State.terminal] at hOpen
  | resume hResumes => simp [hResume] at hResumes
  | wind reason hLive hOurs hEvent hDecision =>
    rcases hRow.fits hLive with ⟨_, instant, hInstant, _⟩
    have hArrived := hNow hLive instant hInstant
    have hAdvance := advanceCancel_advance row input.now (replyEffect input.event) reason
      (issuesStop row input.event)
    rw [← hDecision] at hAdvance
    cases hIssues : issuesStop row input.event with
    | true =>
      rw [hIssues] at hAdvance
      exact stop_inTime hRow.cancel (by omega) hKept hAdvance
    | false =>
      rw [hIssues] at hAdvance
      refine answer_inTime hRow hLive (hNow hLive) ?_ hKept hAdvance
      -- A reply that leaves the row open proves nothing.
      intro hOpen
      have hUnproven : provenStopped row (replyEffect input.event) = false := by
        by_contra hProven
        rw [Bool.not_eq_false] at hProven
        rw [hDecision] at hOpen
        simp [advanceCancel, hProven, Lifecycle.terminal, State.terminal] at hOpen
      exact hPrompt (answers_of_reply hEvent hIssues hUnproven) hLive hOurs

----
-- Punctual Runs
----

/-
  A run whose times do not decrease and in which the clock passes no instant at which the row is due
  without a tick: the next input comes at once, or no later than the next action.
-/
def Punctual (adapter : KindAdapter) : Int → Lifecycle → List Input → Prop
  | _, _, [] => True
  | clock, row, input :: inputs =>
    clock ≤ input.now ∧ (row.terminal = false → input.now ≤ max clock (row.nextActionAt.getD clock))
      ∧ Punctual adapter input.now ((machine adapter).move row input) inputs

instance decidablePunctual (adapter : KindAdapter) :
    ∀ clock row inputs, Decidable (Punctual adapter clock row inputs)
  | _, _, [] => isTrue trivial
  | _, row, input :: inputs =>
    have := decidablePunctual adapter input.now ((machine adapter).move row input) inputs
    inferInstanceAs (Decidable (_ ∧ (_ → _) ∧ _))

/- In a punctual run a row that is not over is within the bound. -/
theorem inTime_run
    {inputs : List Input}
    (hRow : InTime bound clock row)
    (hPunctual : Punctual adapter clock row inputs)
    (hSteps :
      ∀ step ∈ (machine adapter).trace row inputs,
        resumes adapter step.before step.input.event = false ∧
        PromptAnswer step) :
    ∀ step ∈ (machine adapter).trace row inputs,
      step.before.terminal = false → step.input.now ≤ bound := by
  induction inputs generalizing clock row with
  | nil => simp
  | cons input _ ih =>
    rcases hPunctual with ⟨hClock, hDue, hRest⟩
    rw [Machine.trace_cons] at hSteps ⊢
    have hHead := hSteps _ List.mem_cons_self
    have hNow : row.terminal = false → ∀ instant, row.nextActionAt = some instant →
        input.now ≤ max clock instant := by
      intro hLive _ hInstant
      simpa [hInstant] using hDue hLive
    have hNext := hRow.move hClock hNow hHead.1 hHead.2
    intro step hMem
    rcases List.mem_cons.mp hMem with rfl | hTail
    · intro hLive
      rcases hRow.fits hLive with ⟨_, instant, hInstant, _⟩
      have hArrived := hNow hLive instant hInstant
      have hNonneg : 0 ≤ remainingDelays row row.observeCount :=
        remainingDelays_nonneg row row.observeCount
      simp only [Machine.step_input]
      omega
    · exact ih hNext hRest (fun later hLater => hSteps later (List.mem_cons_of_mem _ hLater)) step
        hTail

/- The request starts the cancel in time. -/
theorem request_inTime {request : Input} (hUnrequested : row.cancelRequested = false)
    (hRequested : ((machine adapter).move row request).cancelRequested) :
    InTime (request.now + remainingDelays row 0) request.now ((machine adapter).move row request) :=
    by
  rw [machine_move] at hRequested ⊢
  cases transition_keeps adapter row request.now request.event with
  | kept hKept =>
    rw [hKept.requested, hUnrequested] at hRequested
    cases hRequested
  | claim _ _ _ _ _ _ _ hRow =>
    rw [hRow] at hRequested
    have hSame : row.cancelRequested := hRequested
    rw [hUnrequested] at hSame
    cases hSame
  | request key reason hCancel _ hDecision hKept =>
    have hFlagged : (withCancelFlag row request.now key).cancelRequested := by
      rw [← hKept.requested]
      exact hRequested
    have hId : (withCancelFlag row request.now key).id = row.id := by simp [withCancelFlag, hCancel]
    have hAdvance := advanceCancel_advance (withCancelFlag row request.now key) request.now none
      reason true
    rw [← hDecision] at hAdvance
    refine stop_inTime hFlagged ?_ hKept hAdvance
    have hAll := remainingDelays_anti row
      (Nat.zero_le (withCancelFlag row request.now key).observeCount)
    rw [remainingDelays_congr hId]
    omega

/-
  Prompt answers keep a cancel in time. An answer that does not end the row keeps its next action
  from moving later exactly if it is stale or prompt. When every answer after the request is,
  nothing resumes the row and a tick comes at every instant the row is due, the row has ended once
  the delays of all its stops have passed.
-/
theorem prompt_answers_keep_the_cancel_in_time (adapter : KindAdapter) :
    (∀ (row : Lifecycle) (event : Event) (now : Int),
       row.cancelRequested = true →
       row.state = .observing →
       answers event = true →
       (transition row event adapter now).row.terminal = false →
       (NotLater row (transition row event adapter now).row ↔
          stale row event = true ∨ Prompt row now)) ∧
    (∀ (row : Lifecycle) (request : Input) (inputs : List Input),
       row.cancelRequested = false →
       ((machine adapter).move row request).cancelRequested = true →
       Punctual adapter request.now ((machine adapter).move row request)
         inputs →
       (∀ step ∈ (machine adapter).trace
          ((machine adapter).move row request) inputs,
          resumes adapter step.before step.input.event = false ∧
          PromptAnswer step) →
       ∀ step ∈ (machine adapter).trace
         ((machine adapter).move row request) inputs,
         request.now + remainingDelays row 0 < step.input.now →
         step.before.terminal = true) := by
  constructor
  · intro _ _ _ hCancel hState hAnswer hOpen
    exact notLater_iff_prompt adapter hCancel hState hAnswer hOpen
  · intro _ _ _ hUnrequested hRequested hPunctual hSteps step hMem _
    have hBound := inTime_run (request_inTime hUnrequested hRequested) hPunctual hSteps step hMem
    by_contra hOpen
    have hEarly := hBound (by simpa using hOpen)
    omega

/- A claimed order, cancelled shortly after its claim. -/
def claimedOrder : Lifecycle := (machine irreversibleKind).final newOrder
    [{ event := .claimed 1 "first" (100 * second), now := 0 }]

/- Each stop of the order, the first ones answered at once. -/
def promptRun : List Input :=
  [ unknownAt 0, tickAt second, unknownAt second, tickAt (5 * second), tickAt (11 * second),
    tickAt (25 * second), tickAt (58 * second), tickAt (110 * second), tickAt (111 * second) ]

/- With prompt answers the cancel of a claimed order is over in less than two minutes. -/
theorem prompt_answers_end_claimedOrder :
    ∀ step ∈ (machine irreversibleKind).trace
      ((machine irreversibleKind).move claimedOrder (cancelAt 0))
      promptRun,
      110 * second < step.input.now → step.before.terminal = true := by
  have hDelays : remainingDelays claimedOrder 0 = 110 * second := by decide +kernel
  have hRun := (prompt_answers_keep_the_cancel_in_time irreversibleKind).2 claimedOrder (cancelAt 0)
    promptRun (by decide +kernel) (by decide +kernel) (by decide +kernel) (by decide +kernel)
  intro step hMem hLate
  apply hRun step hMem
  rw [hDelays]
  simpa [cancelAt] using hLate

/-
  An order that was looked at four times before its cancel and whose stop is answered just before
  each due instant.
-/
def lookedAtOrder : Lifecycle := (machine irreversibleKind).final newOrder
    ({ event := .claimed 1 "first" 10, now := 0 } ::
      { event := .leaseLapsed none, now := 10 } :: sparseTicks 3)

def lateAnswers : List Input := [ unknownAt (432 * second), unknownAt (464 * second),
    unknownAt (496 * second), unknownAt (528 * second) ]

/-
  The first answer postpones the next stop, and with a tick at every due instant the cancel is still
  open after the delays of all six stops.
-/
theorem late_answers_postpone_the_cancel :
    ((machine irreversibleKind).move lookedAtOrder
       (cancelAt (400 * second))).nextActionAt =
      some (433 * second) ∧
    ((machine irreversibleKind).final lookedAtOrder
       [cancelAt (400 * second), unknownAt (432 * second)]).nextActionAt =
      some (465 * second) ∧
    Punctual irreversibleKind (400 * second)
      ((machine irreversibleKind).move lookedAtOrder
         (cancelAt (400 * second)))
      lateAnswers ∧
    400 * second + remainingDelays lookedAtOrder 0 < 528 * second ∧
    ((machine irreversibleKind).final lookedAtOrder
       (cancelAt (400 * second) :: lateAnswers)).state =
      .observing := by
  refine ⟨?_, ?_, ?_, ?_, ?_⟩
  · decide +kernel
  · decide +kernel
  · decide +kernel
  · decide +kernel
  · decide +kernel

end VonkForge.LifecycleCore
