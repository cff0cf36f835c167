import VonkForge.Lifecycle.Runs

/-
  No blind replay of irreversible work.

  A row is guarded while its effect may exist and it is neither queued nor waiting for a retry. A
  claim guards the row; only evidence that no effect began, or an advertised resume, lets the guard
  go; and a guarded row can be neither claimed nor executed.

  Main declarations:
    * `licenses`
    * `Guarded`
    * `taken_guarded`
    * `no_blind_replay`
-/

----
-- Licences and the Guard
----

namespace VonkForge.LifecycleCore

/-
  What licenses repeating irreversible work: an observation or an accepted report that no effect
  began, or a resume or retry that the adapter advertises for the row and that is applied to it.
-/
def licenses (adapter : KindAdapter) (row : Lifecycle) : Event → Bool
  | .observed effect _ => effect == .none
  | .reported report => report.effect == some .none && !staleFence row report.fence
  | event => resumes adapter row event

/- A row whose work may have run and is not offered again. -/
structure Guarded (row : Lifecycle) : Prop where
  effect : row.effect ≠ .none
  queued : row.state ≠ .queued
  backoff : row.state ≠ .backoff

/- The states from which work is started. -/
def startable : State → Bool
  | .queued => true
  | .backoff => true
  | _ => false

variable {adapter : KindAdapter} {row : Lifecycle} {now : Int} {event : Event}

theorem Guarded.of_state (hEffect : row.effect ≠ .none) (hState : startable row.state = false) :
    Guarded row := by
  refine ⟨hEffect, ?_, ?_⟩
  · intro hQueued
    simp [hQueued, startable] at hState
  · intro hBackoff
    simp [hBackoff, startable] at hState

/- Irreversible work that may have run is never repeated. -/
theorem not_blindRetryIsSafe (hIrreversible : adapter.irreversible row)
    (hAttempt : 1 ≤ row.attempt) (hEffect : row.effect ≠ .none) :
    blindRetryIsSafe row adapter none = false := by
  have hZero : row.attempt ≠ 0 := by omega
  simp [blindRetryIsSafe, hIrreversible, hZero, hEffect]

/- An unlicensed event says nothing about a missing effect. -/
theorem not_saysNone (hOurs : stale row event = false)
    (hLicence : licenses adapter row event = false) : saysNone event = false := by
  cases event with
  | observed => exact hLicence
  | reported report =>
    have hFence : staleFence row report.fence = false := hOurs
    simpa [licenses, saysNone, hFence] using hLicence
  | _ => rfl

theorem saysNone_of_replyEffect (hNone : replyEffect event = some .none) :
    saysNone event := by
  cases event with
  | observed => simpa [replyEffect, saysNone] using hNone
  | reported report =>
    cases hEffect : report.effect with
    | none => simp [replyEffect, hEffect, knownStopped] at hNone
    | some known =>
      cases known <;>
        simp [replyEffect, saysNone, hEffect, knownStopped] at hNone ⊢
  | _ => cases hNone

----
-- Keeping the Guard
----

theorem advanceCancel_guarded (hAttempt : 1 ≤ row.attempt) (hEffect : row.effect ≠ .none)
    {effect : Option Effect} (hObserved : effect ≠ some .none) (reason : Option String)
    (issueStop : Bool) : Guarded (advanceCancel row now effect reason issueStop).row := by
  have hGetD : effect.getD .unknown ≠ .none := by
    cases effect with
    | none => simp
    | some => simpa using hObserved
  unfold advanceCancel
  split
  · next hProven =>
      refine Guarded.of_state ?_ rfl
      cases effect with
      | none =>
        have hZero : row.attempt ≠ 0 := by omega
        simp [provenStopped, neverExecuted, hZero, hEffect] at hProven
      | some => simpa using hGetD
  · split
    · exact Guarded.of_state (by simp) rfl
    · exact Guarded.of_state hGetD rfl

theorem lost_guarded (reason : Option String) (commands : List Command) (late : Bool) :
    Guarded (lost row now reason commands late).row := by
  unfold lost
  split
  · exact Guarded.of_state (by simp) rfl
  · exact Guarded.of_state (by simp) rfl

theorem endState_not_startable {report : Report} {state : State}
    (hState : report.endState = some state) : startable state = false := by
  rcases Report.endState_cases hState with ⟨_, rfl⟩ | ⟨_, rfl⟩ | ⟨_, _, rfl⟩
  · rfl
  · rfl
  · rfl

/- A definite report invents no missing effect. -/
theorem endEffect_eq_none {report : Report} (hNone : endEffect row report = .none) :
    report.effect = some .none ∨ row.effect = .none := by
  rcases Option.getD_eq_iff.mp hNone with hReported | ⟨_, hDefault⟩
  · exact Or.inl hReported
  · right
    cases hOutcome : report.outcome with
    | done | cancelled => simp [hOutcome] at hDefault
    | failed | unknown => simpa [hOutcome] using hDefault

variable {decision : Decision}

/- An unlicensed event keeps the guard, one case for each move that can happen to a guarded row. -/
theorem move_guarded (hIrreversible : adapter.irreversible row)
    (hAttempt : 1 ≤ row.attempt) (hGuard : Guarded row) (hOurs : stale row event = false)
    (hLicence : licenses adapter row event = false) (hMove : Move adapter row now event decision) :
    Guarded decision.row := by
  have hSilent : saysNone event = false := not_saysNone hOurs hLicence
  have hUnsafe : blindRetryIsSafe row adapter none = false :=
    not_blindRetryIsSafe hIrreversible hAttempt hGuard.effect
  cases hMove with
  | keep => exact hGuard
  | submit => omega
  | claim | establish | cease | retire => exact Guarded.of_state (by simp) rfl
  | renew | watch | look => exact ⟨hGuard.effect, hGuard.queued, hGuard.backoff⟩
  | conclude _ _ hState =>
    refine Guarded.of_state ?_ (endState_not_startable hState)
    intro hNone
    rcases endEffect_eq_none hNone with hReport | hRow
    · simp [saysNone, hReport] at hSilent
    · exact hGuard.effect hRow
  | retry _ _ _ _ _ _ _ hSafe =>
    rcases hSafe with hSays | hBlind
    · simp [hSays] at hSilent
    · simp [hBlind] at hUnsafe
  | observe =>
    refine Guarded.of_state ?_ rfl
    simp [observe, hGuard.effect]
  | lostTick | lostInTime | lostLate => exact lost_guarded _ _ _
  | await => exact Guarded.of_state hGuard.effect rfl
  | endLate =>
    refine Guarded.of_state ?_ rfl
    simpa [saysNone] using hSilent
  | resume name reason hResumes =>
    have hRefused : resumes adapter row (.operatorAction name reason) = false := hLicence
    simp [hResumes] at hRefused
  | execute hState =>
    rcases hState with hQueued | hBackoff
    · exact absurd hQueued hGuard.queued
    · exact absurd hBackoff hGuard.backoff
  | request _ key _ hCancel =>
    have hFlag : (withCancelFlag row now key).attempt = row.attempt ∧
      (withCancelFlag row now key).effect = row.effect := by simp [withCancelFlag, hCancel]
    apply advanceCancel_guarded
    · rw [hFlag.1]
      exact hAttempt
    · rw [hFlag.2]
      exact hGuard.effect
    · simp
  | wind =>
    apply advanceCancel_guarded hAttempt hGuard.effect
    intro hNone
    simp [saysNone_of_replyEffect hNone] at hSilent

theorem expiry_guarded (hLicence : licenses adapter row event = false)
    (hExpiry : Expiry adapter row now event decision) : Guarded decision.row := by
  cases hExpiry with
  | lost => exact lost_guarded _ _ _
  | finish effect =>
    have hEffect : effect ≠ .none := by simpa [licenses] using hLicence
    by_cases hEstablished : effect = .established
    · simp only [hEstablished, if_true]
      exact Guarded.of_state (by simp) rfl
    · simp only [hEstablished, if_false]
      exact Guarded.of_state hEffect rfl
  | look => exact Guarded.of_state (by simp) rfl

/- Without a licence a started row stays guarded. -/
theorem taken_guarded
    (hIrreversible : adapter.irreversible row)
    (hAttempt : 1 ≤ row.attempt)
    (hGuard : Guarded row)
    (hLicence : licenses adapter row event = false)
    (hTaken : Taken adapter row now event decision) :
    Guarded decision.row := by
  cases hTaken with
  | ignored => exact hGuard
  | expired _ _ _ _ hExpiry => exact expiry_guarded hLicence hExpiry
  | moved _ _ hOurs _ hMove => exact move_guarded hIrreversible hAttempt hGuard hOurs hLicence hMove

/- A guarded row is not claimed. -/
theorem Guarded.not_claimable (hGuard : Guarded row) : claimable row now = false := by
  simp [claimable, hGuard.queued, hGuard.backoff]

/- The claim of a guarded row changes nothing. -/
theorem Guarded.claim_refused (hGuard : Guarded row)
    (hReader : adapter.recoveryDeadline = none) (attempt : Nat) (fence : String)
    (leaseDeadline : Int) : transition row (.claimed attempt fence leaseDeadline)
        adapter now =
      { row := row } := by
  by_cases hTerminal : row.terminal = true
  · exact transition_of_terminal hTerminal
  · simp [transition, hTerminal, stale, dispatch, claimed,
      not_expired_without_reader hReader, hGuard.not_claimable]

----
-- Runs
----

/- The step is the claim that starts attempt `n`. -/
def StartsAttempt (n : Nat) (step : Step) : Prop :=
  ∃ fence leaseDeadline, step.input.event = .claimed n fence leaseDeadline ∧
    step.before.attempt < n ∧ step.output.row.attempt = n

/- The step licenses a repetition of its row's work. -/
def Licenses (adapter : KindAdapter) (step : Step) : Prop :=
  licenses adapter step.before step.input.event = true

/- The step starts a further attempt or executes again. -/
def Repeats (step : Step) : Prop :=
  step.before.attempt < step.output.row.attempt ∨ Command.execute ∈ step.output.commands

theorem startsAttempt_of_raised {input : Input}
    (hRaised : ((machine adapter).move row input).attempt ≠ row.attempt) :
    StartsAttempt ((machine adapter).move row input).attempt ((machine adapter).step row input) ∧
    Guarded ((machine adapter).move row input) := by
  rw [machine_move] at hRaised ⊢
  cases transition_keeps adapter row input.now input.event with
  | kept hKept => exact absurd hKept.attempt hRaised
  | request _ _ hCancel _ _ hKept =>
    refine absurd hKept.attempt ?_
    simpa [withCancelFlag, hCancel] using hRaised
  | claim _ fence leaseDeadline hEvent _ _ hAttempt hRow =>
    rw [hRow]
    refine ⟨⟨fence, leaseDeadline, hEvent, hAttempt, ?_⟩, Guarded.of_state (by simp) rfl⟩
    simp [hRow]

theorem Guarded.not_repeats {input : Input} (hGuard : Guarded row) :
    ¬ Repeats ((machine adapter).step row input) := by
  rintro (hRaised | hExecute)
  · rw [Machine.step_before, Machine.step_output, machine_answer] at hRaised
    cases transition_keeps adapter row input.now input.event with
    | kept hKept =>
      rw [hKept.attempt] at hRaised
      exact Nat.lt_irrefl _ hRaised
    | request _ _ hCancel _ _ hKept =>
      rw [hKept.attempt] at hRaised
      simp [withCancelFlag, hCancel] at hRaised
    | claim _ _ _ _ hClaimable => simp [hGuard.not_claimable] at hClaimable
  · have hTaken :
        Taken adapter row input.now input.event (transition row input.event adapter input.now) :=
      transition_taken input.event
    rcases execute_inversion hTaken hExecute with ⟨_, _, hQueued | hBackoff⟩
    · exact hGuard.queued hQueued
    · exact hGuard.backoff hBackoff

/-
  No blind replay. In every run of an always irreversible kind from a fresh row, a step that starts
  another attempt than `n`, or executes again, comes after a licence that the row received since
  attempt `n` started.
-/
theorem no_blind_replay
    (adapter : KindAdapter)
    (hIrreversible : ∀ row, adapter.irreversible row = true)
    (row : Lifecycle)
    (hFresh : row.Fresh)
    (inputs : List Input)
    (k : Nat)
    (step : Step)
    (hStep : ((machine adapter).trace row inputs)[k]? = some step)
    (hAttempt : 1 ≤ step.before.attempt)
    (hRepeats : Repeats step) :
    ∃ (i j : Nat) (starting licensing : Step),
      i < j ∧
      j < k ∧
      ((machine adapter).trace row inputs)[i]? = some starting ∧
      StartsAttempt step.before.attempt starting ∧
      ((machine adapter).trace row inputs)[j]? = some licensing ∧
      Licenses adapter licensing := by
  have hGranted : Machine.GrantedSince StartsAttempt (Licenses adapter) step.before.attempt
      (((machine adapter).trace row inputs).take k) := by
    -- The epoch is the attempt and no other invariant is
    -- needed: a claim alone opens one and guards the row.
    apply (machine adapter).grantedSince_of_needs (fun _ => True) Guarded Lifecycle.attempt
    · exact fun _ _ _ => trivial
    · intro _ _ _ hRaised
      exact startsAttempt_of_raised hRaised
    · intro s input _ _ hPositive hGuard hSilent
      have hLicence : licenses adapter s input.event = false := by simpa [Licenses] using hSilent
      exact taken_guarded (hIrreversible s) hPositive hGuard hLicence (transition_taken input.event)
    · intro _ _ _ _ hGuard
      exact hGuard.not_repeats
    · exact trivial
    · exact hFresh.attempt
    · exact hStep
    · exact hAttempt
    · exact hRepeats
  exact hGranted.positions

/- An order that is claimed, lapses, is observed without an effect and is claimed again. -/
def retriedRun : List Input := [ { event := .claimed 1 "first" 10, now := 0 },
    { event := .leaseLapsed none, now := 10 },
    { event := .observed .none none, now := 11 },
    { event := .claimed 2 "second" (200 * second), now := 100 * second } ]

/- The second claim of that order. -/
def secondClaim : Step := (machine irreversibleKind).step
    ((machine irreversibleKind).final newOrder (retriedRun.take 3))
    { event := .claimed 2 "second" (200 * second), now := 100 * second }

/- A second attempt has its licence between the first one and itself. -/
theorem no_blind_replay_retried :
    1 ≤ secondClaim.before.attempt ∧
    secondClaim.before.attempt < secondClaim.output.row.attempt ∧
    ∃ (i j : Nat) (starting licensing : Step),
      i < j ∧
      j < 3 ∧
      ((machine irreversibleKind).trace newOrder retriedRun)[i]? =
        some starting ∧
      StartsAttempt secondClaim.before.attempt starting ∧
      ((machine irreversibleKind).trace newOrder retriedRun)[j]? =
        some licensing ∧
      Licenses irreversibleKind licensing := by
  have hAttempt : 1 ≤ secondClaim.before.attempt := by decide +kernel
  have hRaised : secondClaim.before.attempt < secondClaim.output.row.attempt := by decide +kernel
  have hStep : ((machine irreversibleKind).trace newOrder retriedRun)[3]? = some secondClaim := by
    rw [Machine.getElem?_trace]
    rfl
  exact ⟨hAttempt, hRaised, no_blind_replay irreversibleKind (fun _ => rfl) newOrder
      ⟨rfl, rfl, rfl, rfl⟩ retriedRun 3 secondClaim hStep hAttempt (Or.inl hRaised)⟩

end VonkForge.LifecycleCore
