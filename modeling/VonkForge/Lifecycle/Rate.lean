import VonkForge.Lifecycle.Cancel

/-
  The rate of looks, stops and retries.

  A decision schedules the row's next action by a backoff that is cut off at the recovery deadline,
  so the next action lies ahead exactly while no deadline has passed.

  Main declarations:
    * `Schedules`
    * `taken_pending_iff`
    * `tick_commands_iff`
    * `bounded_rate_iff`
-/

----
-- Scheduled Actions
----

namespace VonkForge.LifecycleCore

variable {adapter : KindAdapter} {row : Lifecycle} {now : Int} {event : Event}

/-
  The decision leaves the row observing or in backoff and looks at it, stops it or schedules its
  retry.
-/
def Schedules (row : Lifecycle) (decision : Decision) : Prop :=
  (decision.row.state = .observing ∨ decision.row.state = .backoff) ∧
    (Command.observe ∈ decision.commands ∨ Command.stop ∈ decision.commands ∨
      (decision.row.state = .backoff ∧ decision.row ≠ row))

/- A retry is scheduled only before the stored deadline. -/
theorem stored_not_reached (hDeadline : reached (deadlineOf row (some adapter)) now = false) :
    reached row.recoveryDeadline now = false := by
  cases hStored : row.recoveryDeadline with
  | none => rfl
  | some => simpa [deadlineOf, hStored] using hDeadline

variable {decision : Decision}

/- Neither an end nor a fresh attempt schedules an action. -/
theorem not_schedules_of_state (hObserving : decision.row.state ≠ .observing)
    (hBackoff : decision.row.state ≠ .backoff) : ¬ Schedules row decision := by
  rintro ⟨hState | hState, _⟩
  · exact hObserving hState
  · exact hBackoff hState

/- Nor does an observing row that nothing is asked of. -/
theorem not_schedules_of_idle (hBackoff : decision.row.state ≠ .backoff)
    (hCommands : decision.commands = []) : ¬ Schedules row decision := by
  rintro ⟨_, hObserve | hStop | ⟨hState, _⟩⟩
  · simp [hCommands] at hObserve
  · simp [hCommands] at hStop
  · exact hBackoff hState

theorem not_schedules_of_terminal (hTerminal : decision.row.terminal) :
    ¬ Schedules row decision := by
  apply not_schedules_of_state
  · intro hState
    simp [Lifecycle.terminal, hState, State.terminal] at hTerminal
  · intro hState
    simp [Lifecycle.terminal, hState, State.terminal] at hTerminal

/- An answer about a lost row asks nothing of it. -/
theorem not_schedules_lost (reason : Option String) (late : Bool) :
    ¬ Schedules row (lost row now reason [] late) := by
  unfold lost
  split
  · exact not_schedules_of_terminal rfl
  · exact not_schedules_of_idle (by simp) rfl

/- A look or stop lies ahead while the deadline does. -/
theorem pending_due_iff (row : Lifecycle) (count : Nat) (now : Int) :
    pending (some (due row count now none none)) now ↔
    reached row.recoveryDeadline now = false := by
  have hDue := now_lt_due_iff row count now none none
  rw [deadlineOf_without_adapter] at hDue
  simpa using hDue

/- A retry always lies ahead. -/
theorem pending_retry (hDeadline : reached (deadlineOf row (some adapter)) now = false)
    (count : Nat) (retryAfter : Option Int) :
    pending (some (due row count now (some adapter) retryAfter)) now := by
  have hDue := (now_lt_due_iff row count now (some adapter) retryAfter).mpr hDeadline
  simpa using hDue

theorem advance_pending_iff {issueStop : Bool} (hAdvance : Advance row now issueStop decision)
    (hOpen : decision.row.terminal = false) :
    pending decision.row.nextActionAt now ↔ reached row.recoveryDeadline now = false := by
  rcases driven_of_open hAdvance hOpen with ⟨_, _, _, hNext⟩
  rw [hNext]
  exact pending_due_iff row _ now

/- A lost row is looked at again at a later instant. -/
theorem lost_pending {reason : Option String} {commands : List Command} {late : Bool}
    (hOpen : (lost row now reason commands late).row.terminal = false) :
    pending (lost row now reason commands late).row.nextActionAt now := by
  have hLater := now_lt_scheduled_budget row now none
  unfold lost at hOpen ⊢
  split at hOpen
  · cases hOpen
  · next hLeft =>
      rw [if_neg hLeft]
      simpa using hLater

theorem move_pending_iff (hMove : Move adapter row now event decision)
    (hSchedules : Schedules row decision) :
    pending decision.row.nextActionAt now ↔ reached row.recoveryDeadline now = false := by
  have hOpen : decision.row.terminal = false := by
    rcases hSchedules.1 with hState | hState
    · simp [Lifecycle.terminal, hState, State.terminal]
    · simp [Lifecycle.terminal, hState, State.terminal]
  cases hMove with
  | keep =>
    rcases hSchedules.2 with hObserve | hStop | hRetry
    · exact absurd hObserve List.not_mem_nil
    · exact absurd hStop List.not_mem_nil
    · exact absurd rfl hRetry.2
  | retry _ _ _ _ _ _ hDeadline =>
    simp only [stored_not_reached hDeadline, iff_true]
    exact pending_retry hDeadline _ _
  | observe | look => exact pending_due_iff row _ now
  | lostTick _ _ hDeadline =>
    simp only [hDeadline, iff_true]
    exact lost_pending hOpen
  | request _ key _ hCancel =>
    have hSame : (withCancelFlag row now key).recoveryDeadline = row.recoveryDeadline := by
      simp [withCancelFlag, hCancel]
    rw [← hSame]
    exact advance_pending_iff (advanceCancel_advance _ _ _ _ _) hOpen
  | wind => exact advance_pending_iff (advanceCancel_advance _ _ _ _ _) hOpen
  | lostInTime | lostLate => exact absurd hSchedules (not_schedules_lost _ _)
  | await => exact absurd hSchedules (not_schedules_of_idle (by simp) rfl)
  | submit hState | renew _ _ hState | watch hState =>
    exact absurd hSchedules (not_schedules_of_state (by simp [hState]) (by simp [hState]))
  | claim | resume | execute => exact absurd hSchedules (not_schedules_of_state (by simp) (by simp))
  | conclude _ _ hState =>
    have hEnds := endState_terminal hState
    exact absurd hSchedules (not_schedules_of_terminal hEnds)
  | establish | cease | retire | endLate => exact absurd hSchedules (not_schedules_of_terminal rfl)

/-
  A decision that schedules an action schedules it ahead exactly if no deadline of the row has
  passed.
-/
theorem taken_pending_iff
    (hTaken : Taken adapter row now event decision)
    (hSchedules : Schedules row decision) :
    pending decision.row.nextActionAt now ↔
      reached row.recoveryDeadline now = false ∧
      expired row event adapter now = false := by
  cases hTaken with
  | ignored =>
    rcases hSchedules.2 with hObserve | hStop | hRetry
    · exact absurd hObserve List.not_mem_nil
    · exact absurd hStop List.not_mem_nil
    · exact absurd rfl hRetry.2
  | expired _ _ _ hExpired hExpiry =>
    cases hExpiry with
    | lost => exact absurd hSchedules (not_schedules_lost _ _)
    | finish effect =>
      refine absurd hSchedules (not_schedules_of_terminal ?_)
      by_cases hEstablished : effect = .established
      · simp [hEstablished, Lifecycle.terminal, State.terminal]
      · simp [hEstablished, Lifecycle.terminal, State.terminal]
    | look => simp [hExpired]
  | moved _ _ _ hExpired hMove => simpa [hExpired] using move_pending_iff hMove hSchedules

----
-- Ticks that are not due
----

/- A row whose adapter's own deadline cannot interfere. -/
def ownClear (adapter : KindAdapter) (row : Lifecycle) (now : Int) : Bool :=
  row.cancelRequested || !reached (adapter.ownDeadline row) now

theorem not_expired_tick (hClear : ownClear adapter row now) :
    expired row .tick adapter now = false := by
  unfold ownClear at hClear
  cases hCancel : row.cancelRequested with
  | true => simp [expired, hCancel]
  | false =>
    rw [hCancel] at hClear
    simp at hClear
    simp [expired, hClear]

section

variable (hLive : row.terminal = false) (hPending : pending row.nextActionAt now = true)

include hLive hPending

theorem transition_tick_pending (hClear : ownClear adapter row now) :
    transition row .tick adapter now = { row := row } := by
  have hDispatch : transition row .tick adapter now = tick row adapter now := by
    simp [transition, hLive, stale, not_expired_tick hClear, dispatch]
  rw [hDispatch]
  unfold tick
  cases row.cancelRequested with
  | true | false => simp [hPending]

/-
  A tick before the next action of a row issues no command exactly if the row is being cancelled or
  its adapter's own deadline has not passed.
-/
theorem tick_commands_iff :
    (transition row .tick adapter now).commands = [] ↔
      ownClear adapter row now := by
  cases hClear : ownClear adapter row now with
  | true =>
    rw [transition_tick_pending hLive hPending hClear]
    simp
  | false =>
    simp only [ownClear, Bool.or_eq_false_iff, Bool.not_eq_false'] at hClear
    simp [transition, hLive, stale, expired, hClear.1,
      hClear.2, Event.isCancelRequested, pastOwnDeadline]

end

----
-- Ticks at one Instant
----

/- No deadline of the row has passed and it is not offered for execution. -/
def clear (adapter : KindAdapter) (row : Lifecycle) (now : Int) : Bool :=
  !reached row.recoveryDeadline now && ownClear adapter row now && !claimable row now

/- The looks, stops and executions a step issues. -/
def worksIssued (step : Step) : Nat := step.output.commands.countP fun command => !command.isResidue

/- One while a tick at this instant may still work. -/
def worksLeft (now : Int) (row : Lifecycle) : Nat :=
  if row.terminal || pending row.nextActionAt now then 0
  else 1

theorem worksLeft_le (now : Int) (row : Lifecycle) : worksLeft now row ≤ 1 := by
  unfold worksLeft
  split <;> omega

theorem worksLeft_of_terminal (hTerminal : row.terminal) : worksLeft now row = 0 := by
  simp [worksLeft, hTerminal]

theorem worksLeft_of_pending (hPending : pending row.nextActionAt now) :
    worksLeft now row = 0 := by
  simp [worksLeft, hPending]

theorem advance_works {issueStop : Bool} (hStored : reached row.recoveryDeadline now = false)
    (hAdvance : Advance row now issueStop decision) : decision.commands.countP (fun command =>
        !command.isResidue) + worksLeft now decision.row ≤ 1 := by
  have hPending := advance_pending_iff hAdvance
  cases hAdvance with
  | proven _ _ _ hCommands =>
    have hLeft := worksLeft_le now decision.row
    simpa [hCommands] using hLeft
  | spent _ _ _ _ hCommands =>
    have hLeft := worksLeft_le now decision.row
    simpa [hCommands, Command.isResidue] using hLeft
  | driven _ hState _ _ hCommands =>
    have hOpen : decision.row.terminal = false := by
      simp [Lifecycle.terminal, hState, State.terminal]
    rw [worksLeft_of_pending ((hPending hOpen).mpr hStored)]
    cases issueStop with
    | true => simp [hCommands, Command.isResidue]
    | false => simp [hCommands]

/- What a due tick of a clear row issues is its only work. -/
theorem move_works (hDue : pending row.nextActionAt now = false)
    (hClear : clear adapter row now) (hMove : Move adapter row now .tick decision) :
    decision.commands.countP (fun command =>
        !command.isResidue) + worksLeft now decision.row ≤ 1 := by
  simp only [clear, Bool.and_eq_true, Bool.not_eq_true'] at hClear
  rcases hClear with ⟨⟨hStored, _⟩, hIdle⟩
  have hLeft := worksLeft_le now decision.row
  cases hMove with
  | keep | establish | watch => simpa using hLeft
  | retry => simpa [retry] using hLeft
  | observe =>
    have hPending := (pending_due_iff row (countLook row) now).mpr hStored
    rw [worksLeft_of_pending hPending]
    simp [observe, Command.isResidue]
  | lostTick reason =>
    cases hOpen : (lost row now reason [.observe] false).row.terminal with
    | true =>
      rw [worksLeft_of_terminal hOpen]
      unfold lost
      split <;> simp [Command.isResidue]
    | false =>
      rw [worksLeft_of_pending (lost_pending hOpen)]
      unfold lost
      split <;> simp [Command.isResidue]
  | execute hState =>
    rcases hState with hQueued | hBackoff
    · simp [claimable, hQueued] at hIdle
    · simp [claimable, hBackoff, hDue] at hIdle
  | look =>
    have hPending := (pending_due_iff row (row.observeCount + 1) now).mpr hStored
    rw [worksLeft_of_pending hPending]
    simp [Command.isResidue]
  | request _ _ _ _ hEvent => exact absurd hEvent id
  | wind => exact advance_works hStored (advanceCancel_advance _ _ _ _ _)

/- One tick at an instant uses up the work of the instant. -/
theorem step_works (adapter : KindAdapter) (now : Int) (row : Lifecycle)
    (hClear : row.terminal ∨ clear adapter row now) :
    worksIssued ((machine adapter).step row (tickAt now)) +
    worksLeft now ((machine adapter).move row (tickAt now)) ≤ worksLeft now row := by
  rw [machine_move]
  simp only [worksIssued, Machine.step_output, machine_answer, tickAt]
  cases hTerminal : row.terminal with
  | true =>
    rw [transition_of_terminal hTerminal, worksLeft_of_terminal hTerminal]
    simp
  | false =>
    have hClear : clear adapter row now := by simpa [hTerminal] using hClear
    have hOwn : ownClear adapter row now := by
      simp only [clear, Bool.and_eq_true] at hClear
      exact hClear.1.2
    cases hDue : pending row.nextActionAt now with
    | true =>
      rw [transition_tick_pending hTerminal hDue hOwn]
      simp
    | false =>
      have hStart : worksLeft now row = 1 := by simp [worksLeft, hTerminal, hDue]
      have hTick : transition row .tick adapter now = dispatch row .tick adapter now := by
        simp [transition, hTerminal, stale, not_expired_tick hOwn]
      rw [hStart, hTick]
      exact move_works hDue hClear (dispatch_move (not_expired_tick hOwn))

/- Ticks at one instant issue at most one piece of work. -/
theorem total_works_le (adapter : KindAdapter) (now : Int) (row : Lifecycle) (count : Nat)
    (hClear : ∀ step ∈ (machine adapter).trace row (List.replicate count (tickAt now)),
      step.before.terminal ∨ clear adapter step.before now) :
    Machine.total worksIssued ((machine adapter).trace row (List.replicate count (tickAt now))) ≤
    1 := by
  have hRank : Machine.total worksIssued
      ((machine adapter).trace row (List.replicate count (tickAt now))) +
      worksLeft now ((machine adapter).final row (List.replicate count (tickAt now))) ≤
      worksLeft now row := by
    apply (machine adapter).total_le_rank
      (I := fun _ => True)
      (P := fun step =>
        step.input = tickAt now ∧ (step.before.terminal = true ∨
            clear adapter step.before now = true))
      worksIssued (worksLeft now)
    · rintro before _ _ ⟨hTick, hStep⟩
      rw [Machine.step_input] at hTick
      subst hTick
      exact ⟨trivial, step_works adapter now before hStep⟩
    · trivial
    · intro step hMem
      have hInput := (machine adapter).input_mem_of_mem_trace hMem
      exact ⟨List.eq_of_mem_replicate hInput, hClear step hMem⟩
  have hStart := worksLeft_le now row
  omega

/-
  The rate bound and exactly when the code keeps it.

  A decision that looks at a row, stops it or schedules its retry puts the next action ahead of now
  exactly if neither the stored deadline nor, unless the row is being cancelled, the adapter's own
  one has passed. A tick before the next action issues nothing exactly under the second of these.
  And ticks at one instant look at, stop or execute a row at most once, while both hold and the row
  is not offered for execution.
-/
theorem bounded_rate_iff (adapter : KindAdapter) :
    (∀ (row : Lifecycle) (event : Event) (now : Int),
       Schedules row (transition row event adapter now) →
       (pending
          (transition row event adapter now).row.nextActionAt now =
          true ↔
          reached row.recoveryDeadline now = false ∧
          expired row event adapter now = false)) ∧
    (∀ (row : Lifecycle) (now : Int),
       row.terminal = false →
       pending row.nextActionAt now = true →
       ((transition row .tick adapter now).commands = [] ↔
          ownClear adapter row now = true)) ∧
    (∀ (row : Lifecycle) (now : Int) (count : Nat),
       (∀ step ∈ (machine adapter).trace row
          (List.replicate count (tickAt now)),
          step.before.terminal = true ∨
          clear adapter step.before now = true) →
       Machine.total worksIssued
         ((machine adapter).trace row
            (List.replicate count (tickAt now))) ≤
         1) := by
  refine ⟨?_, ?_, ?_⟩
  · intro _ event _ hSchedules
    exact taken_pending_iff (transition_taken event) hSchedules
  · intro _ _ hLive hPending
    exact tick_commands_iff hLive hPending
  · intro row now count hClear
    exact total_works_le adapter now row count hClear

/- A claimed order whose recovery deadline is a minute. -/
def minuteOrder : Lifecycle := (machine irreversibleKind).final
    { newOrder with recoveryDeadline := some (60 * second) }
    [{ event := .claimed 1 "first" (10 * second), now := 0 }]

/- Before its deadline it is stopped once at an instant. -/
theorem bounded_rate_minuteOrder :
    Machine.total worksIssued
      ((machine irreversibleKind).trace
         ((machine irreversibleKind).move minuteOrder (cancelAt second))
         (List.replicate 3 (tickAt (20 * second)))) ≤
      1 := by
  apply (bounded_rate_iff irreversibleKind).2.2
  decide +kernel

/-
  Cancelled after its deadline, it is stopped at once, its next action lies in the past, and two
  ticks at the same instant stop it twice more.
-/
theorem stops_repeat_past_deadline :
    Schedules minuteOrder
      (transition minuteOrder (.cancelRequested none none)
         irreversibleKind (100 * second)) ∧
    (transition minuteOrder (.cancelRequested none none)
       irreversibleKind (100 * second)).row.nextActionAt =
      some (60 * second) ∧
    Machine.total stopsIssued
      ((machine irreversibleKind).trace
         ((machine irreversibleKind).move minuteOrder
            (cancelAt (100 * second)))
         (List.replicate 2 (tickAt (100 * second)))) =
      2 := by
  refine ⟨⟨Or.inl ?_, Or.inr (Or.inl ?_)⟩, ?_, ?_⟩
  · decide +kernel
  · decide +kernel
  · decide +kernel
  · decide +kernel

end VonkForge.LifecycleCore
