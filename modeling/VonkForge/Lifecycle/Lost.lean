import VonkForge.Lifecycle.Replay
import VonkForge.Lifecycle.Cancel

/-
  Rule 3: lost work.

  The looks past a row's recovery deadline are counted on top of the observation budget in the one
  observation counter. Only an unknown observation past the deadline advances that count, and the
  last one ends the row.

  Main declarations:
    * `Counting`
    * `transition_lateLook`
    * `taken_watching`
    * `lost_work_ends_after_bound`
-/

----
-- The Counter of a live Row
----

namespace VonkForge.LifecycleCore

variable {adapter : KindAdapter} {row : Lifecycle} {now : Int} {event : Event}

/- A row has ended or has late looks left to count. -/
def Counting (row : Lifecycle) : Prop :=
  row.terminal = false → row.observeCount < observeBudget + lostObservationBound

theorem counting_of_le (hCount : row.observeCount ≤ observeBudget) : Counting row := by
  intro _
  unfold lostObservationBound
  omega

section

variable (row : Lifecycle)

/- A counted look stays within the observation budget. -/
theorem countLook_le :
    countLook row ≤ row.observeCount ∨ countLook row ≤ observeBudget := by
  unfold countLook
  split <;> omega

@[simp] theorem looked_false :
    looked row false = row.observeCount - observeBudget := rfl

@[simp] theorem looked_true :
    looked row true = row.observeCount - observeBudget + 1 := rfl

theorem lost_counting (now : Int) (reason : Option String)
    (commands : List Command) (late : Bool) : Counting (lost row now reason commands late).row := by
  unfold lost
  split
  · intro hObserving
    cases hObserving
  · next hLeft =>
      intro _
      exact Nat.add_lt_add_left (Nat.lt_of_not_le hLeft) _

end

/- A look before the last keeps a lost row observing. -/
theorem lost_of_left {late : Bool} (now : Int) (reason : Option String) (commands : List Command)
    (hLeft : looked row late < lostObservationBound) :
    (lost row now reason commands late).row.state = .observing ∧
    (lost row now reason commands late).row.effect = .unknown ∧
    (lost row now reason commands late).row.observeCount = observeBudget + looked row late := by
  unfold lost
  rw [if_neg (Nat.not_le_of_lt hLeft)]
  exact ⟨rfl, rfl, rfl⟩

variable {decision : Decision}

theorem advance_counting {issueStop : Bool} (hAdvance : Advance row now issueStop decision) :
    Counting decision.row := by
  intro hOpen
  rcases driven_of_open hAdvance hOpen with ⟨hLeft, _, hCount, _⟩
  rw [hCount]
  unfold stopBudget at hLeft
  unfold observeBudget lostObservationBound
  split <;> omega

theorem move_counting (hLive : row.terminal = false) (hRow : Counting row)
    (hMove : Move adapter row now event decision) : Counting decision.row := by
  have hBound := hRow hLive
  have hPositive : 0 < lostObservationBound := by decide
  have hNone : 0 < observeBudget + lostObservationBound := by decide
  cases hMove with
  | keep => exact hRow
  | submit | renew | conclude | await | establish | cease | endLate | retire | execute | watch =>
    exact fun _ => hBound
  | claim | resume | retry => exact fun _ => hNone
  | observe =>
    intro _
    have hLook := countLook_le row
    simp only [observe]
    omega
  | lostTick | lostInTime | lostLate => exact lost_counting _ _ _ _ _
  | look =>
    intro _
    unfold lostObservationBound
    simp only
    omega
  | request | wind => exact advance_counting (advanceCancel_advance _ _ _ _ _)

theorem expiry_counting (hBound : row.observeCount < observeBudget + lostObservationBound)
    (hExpiry : Expiry adapter row now event decision) : Counting decision.row := by
  cases hExpiry with
  | lost => exact lost_counting _ _ _ _ _
  | finish => exact fun _ => hBound
  | look =>
    intro _
    have hPositive : 0 < lostObservationBound := by decide
    have hLook := countLook_le row
    simp only
    omega

/- No event spends the late looks of a row it leaves open. -/
theorem taken_counting (hRow : Counting row) (hTaken : Taken adapter row now event decision) :
    Counting decision.row := by
  cases hTaken with
  | ignored => exact hRow
  | expired _ hLive _ _ hExpiry => exact expiry_counting (hRow hLive) hExpiry
  | moved _ hLive _ _ hMove => exact move_counting hLive hRow hMove

----
-- Looks in Time
----

/- Without a reader of its own, only the stored deadline. -/
theorem deadlineOf_without_reader (hReader : adapter.recoveryDeadline = none) (row : Lifecycle) :
    deadlineOf row (some adapter) = row.recoveryDeadline := by
  have hOwn : adapter.ownDeadline row = none := by simp [KindAdapter.ownDeadline, hReader]
  unfold deadlineOf
  cases row.recoveryDeadline with
  | none => exact hOwn
  | some => rfl

/- An unknown look in time never ends a counting row. -/
theorem taken_lookInTime {reason : Option String} (hReader : adapter.recoveryDeadline = none)
    (hLive : row.terminal = false) (hRow : Counting row) (hCancel : row.cancelRequested = false)
    (hInTime : reached row.recoveryDeadline now = false)
    (hTaken : Taken adapter row now (.observed .unknown reason) decision) :
    decision.row.terminal = false := by
  cases hTaken with
  | ignored => exact hLive
  | expired _ _ _ hExpired => simp [not_expired_without_reader hReader] at hExpired
  | moved _ _ _ _ hMove =>
    rw [← deadlineOf_without_reader hReader row] at hInTime
    cases hMove with
    | keep => exact hLive
    | retry | await => rfl
    | lostInTime =>
      have hBound := hRow hLive
      have hLeft : looked row false < lostObservationBound := by
        rw [looked_false]
        omega
      have hState := (lost_of_left now reason [] hLeft).1
      simp [Lifecycle.terminal, hState, State.terminal]
    | lostLate _ _ hDeadline | endLate _ _ _ _ hDeadline => simp [hInTime] at hDeadline
    | observe _ _ hEvent => simp [doubtful] at hEvent
    | establish _ _ _ hEvent => simp [saysEstablished] at hEvent
    | request _ _ _ _ hEvent => exact absurd hEvent id
    | wind _ _ hRequested => simp [hCancel] at hRequested

----
-- Looks past the Deadline
----

/- A lost row that is still watched after `looks` unknown looks past its deadline. -/
structure Watching (deadline : Option Int) (looks : Nat) (row : Lifecycle) : Prop where
  cancel : row.cancelRequested = false
  attempt : 1 ≤ row.attempt
  effect : row.effect ≠ .none
  deadline : row.recoveryDeadline = deadline
  state : row.state = .observing
  count : row.observeCount - observeBudget = looks

/- A lost row that was given up. -/
structure Abandoned (row : Lifecycle) : Prop where
  state : row.state = .failed
  effect : row.effect = .unknown

/- No cancel, no operator, no accepted definite report and no observation of a known effect. -/
def undisturbed (row : Lifecycle) : Event → Bool
  | .cancelRequested _ _ => false
  | .operatorAction _ _ => false
  | .reported report => staleFence row report.fence || report.endState.isNone
  | .observed effect _ => effect == .unknown
  | _ => true

variable {deadline : Option Int} {looks : Nat}

theorem Watching.live (hRow : Watching deadline looks row) : row.terminal = false := by
  simp [Lifecycle.terminal, hRow.state, State.terminal]

/- An unknown look past the deadline is counted. -/
theorem transition_lateLook
    (hReader : adapter.recoveryDeadline = none)
    (hIrreversible : adapter.irreversible row)
    (hLate : reached deadline now)
    (hRow : Watching deadline looks row)
    (reason : Option String) :
    transition row (.observed .unknown reason) adapter now =
      lost row now reason [] true := by
  have hUnsafe : blindRetryIsSafe row adapter none = false :=
    not_blindRetryIsSafe hIrreversible hRow.attempt hRow.effect
  have hReached : reached (deadlineOf row (some adapter)) now := by
    rw [deadlineOf_without_reader hReader, hRow.deadline]
    exact hLate
  simp [transition, hRow.live, stale, dispatch, observed,
    not_expired_without_reader hReader, hRow.cancel, hRow.state, hReached, hUnsafe]

/- The look before the last keeps the row watched. -/
theorem Watching.look (hRow : Watching deadline looks row)
    (hLeft : looks + 1 < lostObservationBound) (now : Int) (reason : Option String) :
    Watching deadline (looks + 1) (lost row now reason [] true).row := by
  have hLooked : looked row true = looks + 1 := by rw [looked_true, hRow.count]
  have hKept := lost_kept row now reason [] true
  rcases lost_of_left now reason [] (by rw [hLooked]; exact hLeft) with ⟨hState, hEffect, hCount⟩
  refine ⟨?_, ?_, ?_, ?_, hState, ?_⟩
  · rw [hKept.requested]
    exact hRow.cancel
  · rw [hKept.attempt]
    exact hRow.attempt
  · simp [hEffect]
  · rw [hKept.deadline]
    exact hRow.deadline
  · rw [hCount, hLooked]
    omega

/- The last look gives the row up. -/
theorem Watching.lastLook (hRow : Watching deadline looks row)
    (hLast : lostObservationBound ≤ looks + 1) (now : Int) (reason : Option String) :
    Abandoned (lost row now reason [] true).row := by
  have hLooked : lostObservationBound ≤ looked row true := by
    rw [looked_true, hRow.count]
    exact hLast
  unfold lost
  rw [if_pos hLooked]
  exact ⟨rfl, rfl⟩

/- Any other event neither advances nor resets the count. -/
theorem taken_watching
    {decision : Decision}
    (hReader : adapter.recoveryDeadline = none)
    (hLate : reached deadline now)
    (hRow : Watching deadline looks row)
    (hQuiet : undisturbed row event)
    (hOther : isAnswer event = false)
    (hTaken : Taken adapter row now event decision) :
    Watching deadline looks decision.row := by
  have hReached : reached row.recoveryDeadline now := by
    rw [hRow.deadline]
    exact hLate
  cases hTaken with
  | ignored => exact hRow
  | expired _ _ _ hExpired => simp [not_expired_without_reader hReader] at hExpired
  | moved _ _ hOurs _ hMove =>
    cases hMove with
    | keep => exact hRow
    | observe =>
      refine ⟨hRow.cancel, hRow.attempt, ?_, hRow.deadline, rfl, ?_⟩
      · simp [observe, hRow.effect]
      · have hCount := hRow.count
        simp only [observe, countLook]
        split <;> omega
    | submit =>
      have hPositive := hRow.attempt
      omega
    | claim _ _ _ hClaimable => simp [claimable, hRow.state] at hClaimable
    | renew _ _ hState | execute hState | watch hState => simp [hRow.state] at hState
    | conclude report _ hState =>
      have hFence : staleFence row report.fence = false := hOurs
      simp [undisturbed, hFence, hState] at hQuiet
    | retry _ _ _ _ _ _ hDeadline =>
      rw [deadlineOf_without_reader hReader, hReached] at hDeadline
      cases hDeadline
    | lostTick _ _ hDeadline | look _ _ hDeadline => simp [hReached] at hDeadline
    | lostInTime | lostLate | await | cease | endLate => cases hOther
    | establish event _ _ hEvent =>
      cases event with
      | observed => cases hOther
      | tick => simp [saysEstablished, hRow.state] at hEvent
      | _ => cases hEvent
    | resume | retire => cases hQuiet
    | request event _ _ _ hEvent =>
      cases event with
      | cancelRequested | operatorAction => cases hQuiet
      | _ => exact absurd hEvent id
    | wind _ _ hCancel => simp [hRow.cancel] at hCancel

----
-- Runs past the Deadline
----

/- An observation that finds the effect still unknown. -/
def unknownLook (input : Input) : Bool :=
  match input.event with
  | .observed effect _ => effect == .unknown
  | _ => false

/- A lost row after `looks` unknown looks. -/
def LostAfter (deadline : Option Int) (looks : Nat) (row : Lifecycle) : Prop :=
  (looks < lostObservationBound ∧ Watching deadline looks row) ∨
    (lostObservationBound ≤ looks ∧ Abandoned row)

theorem unknownLook_of_answer {input : Input} (hQuiet : undisturbed row input.event)
    (hAnswer : isAnswer input.event) :
    ∃ reason, input.event = .observed .unknown reason := by
  cases hEvent : input.event with
  | observed effect reason =>
    rw [hEvent] at hQuiet
    have hUnknown : effect = .unknown := by simpa [undisturbed] using hQuiet
    exact ⟨reason, by rw [hUnknown]⟩
  | _ =>
    rw [hEvent] at hAnswer
    cases hAnswer

/- One undisturbed event counts itself if it is a look. -/
theorem LostAfter.move {input : Input} (hRow : LostAfter deadline looks row)
    (hReader : adapter.recoveryDeadline = none) (hLate : reached deadline input.now)
    (hIrreversible : adapter.irreversible row)
    (hQuiet : undisturbed row input.event) : LostAfter deadline
      (looks + if unknownLook input then 1 else 0)
      ((machine adapter).move row input) := by
  rw [machine_move]
  rcases hRow with ⟨hLeft, hWatching⟩ | ⟨_, hEnd⟩
  · cases hAnswer : isAnswer input.event with
    | false =>
      have hOther : unknownLook input = false := by
        unfold unknownLook
        cases hEvent : input.event with
        | observed =>
          rw [hEvent] at hAnswer
          cases hAnswer
        | _ => rfl
      rw [hOther]
      exact Or.inl ⟨hLeft, taken_watching hReader hLate hWatching hQuiet hAnswer
          (transition_taken input.event)⟩
    | true =>
      rcases unknownLook_of_answer hQuiet hAnswer with ⟨reason, hEvent⟩
      have hLook : unknownLook input := by simp [unknownLook, hEvent]
      rw [hLook, hEvent, if_pos rfl,
        transition_lateLook hReader hIrreversible hLate hWatching reason]
      by_cases hLast : lostObservationBound ≤ looks + 1
      · exact Or.inr ⟨hLast, hWatching.lastLook hLast input.now reason⟩
      · have hMore : looks + 1 < lostObservationBound := by omega
        exact Or.inl ⟨hMore, hWatching.look hMore input.now reason⟩
  · have hTerminal : row.terminal := by
      simp [Lifecycle.terminal, hEnd.state, State.terminal]
    rw [transition_of_terminal hTerminal]
    exact Or.inr ⟨by omega, hEnd⟩

theorem lostAfter_run {inputs : List Input} (hReader : adapter.recoveryDeadline = none)
    (hRow : LostAfter deadline looks row)
    (hLate : ∀ input ∈ inputs, reached deadline input.now)
    (hSteps : ∀ step ∈ (machine adapter).trace row inputs, adapter.irreversible step.before ∧
        undisturbed step.before step.input.event) :
    LostAfter deadline (looks + inputs.countP unknownLook)
      ((machine adapter).final row inputs) := by
  induction inputs generalizing row looks with
  | nil => exact hRow
  | cons input inputs ih =>
    rw [Machine.trace_cons] at hSteps
    have hHead := hSteps _ List.mem_cons_self
    have hNext := hRow.move hReader (hLate input List.mem_cons_self) hHead.1 hHead.2
    have hRest := ih hNext (fun later hLater => hLate later (List.mem_cons_of_mem _ hLater))
      (fun step hMem => hSteps step (List.mem_cons_of_mem _ hMem))
    rw [List.countP_cons, Machine.final_cons]
    have hSum : looks + (inputs.countP unknownLook +
            if unknownLook input then 1 else 0) = looks + (if unknownLook input then 1 else 0) +
            inputs.countP unknownLook := by
      omega
    rw [hSum]
    exact hRest

/-
  Lost work ends after exactly the bounded number of looks. Take a row of irreversible work that may
  have run, under an adapter without a deadline of its own. In any run from it, an unknown
  observation in time never ends it while it is not cancelled. And if it is observing past its
  deadline and nothing else disturbs it, it is still observing before the last of the bounded looks,
  with just these counted, and failed with an unknown effect from then on.
-/
theorem lost_work_ends_after_bound
    (adapter : KindAdapter)
    (hReader : adapter.recoveryDeadline = none)
    (row : Lifecycle)
    (hCancel : row.cancelRequested = false)
    (hAttempt : 1 ≤ row.attempt)
    (hEffect : row.effect ≠ .none)
    (hCount : row.observeCount ≤ observeBudget)
    (inputs : List Input)
    (hIrreversible :
      ∀ step ∈ (machine adapter).trace row inputs,
        adapter.irreversible step.before = true) :
    (∀ step ∈ (machine adapter).trace row inputs,
       (∃ reason, step.input.event = .observed .unknown reason) →
       step.before.cancelRequested = false →
       reached step.before.recoveryDeadline step.input.now = false →
       step.before.terminal = false →
       step.output.row.terminal = false) ∧
    (row.state = .observing →
     (∀ input ∈ inputs, reached row.recoveryDeadline input.now = true) →
     (∀ step ∈ (machine adapter).trace row inputs,
        undisturbed step.before step.input.event = true) →
     (inputs.countP unknownLook < lostObservationBound →
      ((machine adapter).final row inputs).state = .observing ∧
      looked ((machine adapter).final row inputs) false =
        inputs.countP unknownLook) ∧
     (lostObservationBound ≤ inputs.countP unknownLook →
      ((machine adapter).final row inputs).state = .failed ∧
      ((machine adapter).final row inputs).effect = .unknown)) := by
  constructor
  · rintro step hMem ⟨reason, hEvent⟩ hOpen hInTime hLive
    have hBefore := (machine adapter).invariant_before (I := Counting) (P := fun _ => True)
      (fun s input hRow _ => taken_counting hRow (transition_taken input.event))
      (counting_of_le hCount) (fun _ _ => trivial) step hMem
    rcases hBefore with ⟨hCounting, input, hStep⟩
    rw [hStep] at hEvent hInTime ⊢
    have hTaken : Taken adapter step.before input.now (.observed .unknown reason)
      (transition step.before (.observed .unknown reason) adapter input.now) := transition_taken _
    have hStays := taken_lookInTime hReader hLive hCounting hOpen hInTime hTaken
    rw [← hEvent] at hStays
    exact hStays
  · intro hState hLate hQuiet
    have hWatching : Watching row.recoveryDeadline 0 row :=
      ⟨hCancel, hAttempt, hEffect, rfl, hState, by omega⟩
    have hStart : LostAfter row.recoveryDeadline 0 row := Or.inl ⟨by decide, hWatching⟩
    have hFinal := lostAfter_run hReader hStart hLate
      (fun step hMem => ⟨hIrreversible step hMem, hQuiet step hMem⟩)
    rw [Nat.zero_add] at hFinal
    constructor
    · intro _
      rcases hFinal with ⟨_, hWatched⟩ | ⟨_, _⟩
      · exact ⟨hWatched.state, hWatched.count⟩
      · omega
    · intro _
      rcases hFinal with ⟨_, _⟩ | ⟨_, hEnd⟩
      · omega
      · exact ⟨hEnd.state, hEnd.effect⟩

/- An order that is observed past its deadline of zero. -/
def lostOrder : Lifecycle :=
  { newOrder with
    state := .observing
    attempt := 1
    observeCount := 3
    effect := .issued
    nextActionAt := some 0
    recoveryDeadline := some 0 }

/- Six unknown looks with ticks among them. -/
def sixLooks : List Input := [ tickAt 1, unknownAt 2, tickAt 3, unknownAt 4,
    unknownAt 5, unknownAt 6, unknownAt 7, tickAt 8, unknownAt 9 ]

/- Six looks without an answer end lost work as failed, its effect unknown. -/
theorem lost_work_ends_lostOrder :
    ((machine irreversibleKind).final lostOrder sixLooks).state =
      .failed ∧
    ((machine irreversibleKind).final lostOrder sixLooks).effect =
      .unknown := by
  apply ((lost_work_ends_after_bound irreversibleKind rfl lostOrder rfl (by decide) (by decide)
      (by decide) sixLooks (fun _ _ => rfl)).2 rfl ?_ ?_).2
  · decide
  · decide +kernel
  · decide +kernel

end VonkForge.LifecycleCore
