import VonkForge.Foundations.Window
import VonkForge.Memory.Guard

/-
  The guard stops the workloads for a sustained cause.

  Each rule has a window, fed by the samples. A trigger needs a window that has been open for the
  bound of its rule, and any such window triggers.

  Main declarations:
    * `Rule`
    * `window_fed`
    * `fires_iff_sustainedFor`
    * `guard_stops_for_sustained_cause`
-/

----
-- Rules
----

namespace VonkForge.Memory

inductive Rule where
  | exhausted
  | filling
  | thrashing
  | pressure
  | driverFailure
deriving DecidableEq

def Trigger.rule : Trigger → Rule
  | .memoryExhausted => .exhausted
  | .memoryAndSwapExhausted => .exhausted
  | .swapFilling => .filling
  | .thrashing => .thrashing
  | .sustainedPressure => .pressure
  | .driverAllocationFailure => .driverFailure

def Rule.holds (rule : Rule) (condition : Conditions) : Bool :=
  match rule with
  | .exhausted => condition.exhausted
  | .filling => condition.filling
  | .thrashing => condition.thrashing
  | .pressure => condition.pressure
  | .driverFailure => condition.corroborating

/- How long the condition must have held at a sample. -/
def Rule.bound (rule : Rule) (condition : Conditions) (loading : Bool) : Nat :=
  match rule with
  | .exhausted => exhaustedSustain condition.swap
  | .filling => swapFillingSustain
  | .thrashing => thrashSustain
  | .pressure => pressureSustain loading
  | .driverFailure => driverFailureSustain

def Rule.since (rule : Rule) (decision : Decision) : Option Nat :=
  match rule with
  | .exhausted => decision.exhaustedSince
  | .filling => decision.fillingSince
  | .thrashing => decision.thrashingSince
  | .pressure => decision.pressureSince
  | .driverFailure => decision.corroboratedSince

abbrev GuardStep : Type := Machine.Step Decision Observation Verdict

/- The conditions that the sample of a step met. -/
def conditionsAt (step : GuardStep) : Conditions := step.before.conditionsOf step.input

----
-- The Windows
----

/- The window of a rule, as the samples feed it. -/
def Rule.window (rule : Rule) : Machine.Window Decision Observation Verdict where
  since := rule.since
  time := fun step => step.input.now
  active := fun step => step.input.managed && rule.holds (conditionsAt step)
  restarts := fun step =>
    decide (rule = .pressure) &&
      decide (step.input.loading ≠ step.before.pressureLoading)

/- The guard moves the window of each rule as its samples say. -/
theorem window_fed (rule : Rule) : rule.window.Fed guardMachine := by
  intro decision observation
  cases hManaged : observation.managed with
  | false =>
    have hAfter : rule.window.after (guardMachine.step decision observation) = none := by
      simp [Machine.Window.after, Rule.window, Machine.step, hManaged]
    rw [hAfter]
    cases rule <;>
      simp [Machine.move, guardMachine, Decision.observe,
        hManaged, Rule.window, Rule.since, Decision.initial]
  | true =>
    cases rule <;>
      simp [Machine.move, Machine.step, guardMachine, Decision.observe, hManaged,
          Machine.Window.after, Rule.window, Rule.since, Rule.holds, Decision.measure, conditionsAt,
          Decision.conditionsOf, openSince]

theorem window_starts_empty (rule : Rule) : rule.window.since Decision.initial = none := by
  cases rule <;> rfl

----
-- The Verdict
----

/- The rule asks for a stop after a sample. -/
def Rule.fires (rule : Rule) (measured : Decision) (observation : Observation)
    (condition : Conditions) : Bool :=
  (decide (rule ≠ .driverFailure) || observation.driverFailure) &&
    sustained observation.now (rule.since measured) (rule.bound condition observation.loading)

variable {observation : Observation} {condition : Conditions} {measured : Decision}

theorem fires_of_judge
    {trigger : Trigger} (hJudge : measured.judge observation condition = some trigger) :
    trigger.rule.fires measured observation condition ∧
    (trigger = .memoryExhausted → condition.swap = false) ∧
    (trigger = .memoryAndSwapExhausted → condition.swap) := by
  revert hJudge
  fun_cases Decision.judge with
  | case1 _ hSustained =>
    intro hJudge
    cases hJudge
    simpa [Trigger.rule, Rule.fires, Rule.since, Rule.bound] using hSustained
  | case2 _ _ hExhausted =>
    intro hJudge
    cases hSwap : condition.swap with
    | false | true =>
      simp only [hSwap] at hJudge hExhausted
      cases hJudge
      simpa [Trigger.rule, Rule.fires, Rule.since, Rule.bound, hSwap] using hExhausted
  | case3 _ _ _ hSustained | case4 _ _ _ _ hSustained | case5 _ _ _ _ _ hSustained =>
    intro hJudge
    cases hJudge
    simpa [Trigger.rule, Rule.fires, Rule.since, Rule.bound] using hSustained
  | case6 => exact fun hJudge => by cases hJudge

variable {inputs : List Observation} {step : GuardStep} {k : Nat} {rule : Rule}

theorem judge_of_fires
    (hFires : rule.fires measured observation condition) :
    (measured.judge observation condition).isSome := by
  fun_cases Decision.judge with
  | case6 now =>
    -- No window is open long enough: no rule fires.
    cases rule <;> simp_all [now, Rule.fires, Rule.since, Rule.bound]
  | _ => rfl

theorem sustained_iff (now : Nat) (since : Option Nat) (bound : Nat) :
    sustained now since bound ↔ ∃ opened, since = some opened ∧ bound ≤ now - opened := by
  cases since with
  | none | some => simp [sustained]

----
-- Phases
----

theorem pressureLoading_next (hStep : (guardMachine.trace .initial inputs)[k]? = some step)
    (hManaged : step.input.managed) : (guardMachine.next step.output).pressureLoading =
      step.input.loading := by
  rw [guardMachine.next_output hStep]
  simp [Machine.step, guardMachine, Decision.observe, hManaged, Decision.measure]

/- The phase has been the same since the window opened. -/
theorem loading_of_covers {j k : Nat}
    (hCovers : Rule.pressure.window.Covers (guardMachine.trace .initial inputs) j k)
    {first step : GuardStep} (hFirst : (guardMachine.trace .initial inputs)[j]? = some first)
    (hLe : j ≤ k) (hStep : (guardMachine.trace .initial inputs)[k]? = some step) :
    step.input.loading = first.input.loading := by
  induction k, hLe using Nat.le_induction generalizing step with
  | base =>
    rw [hFirst] at hStep
    cases hStep
    rfl
  | succ k hFrom ih =>
    rcases guardMachine.exists_before hStep with ⟨former, hFormer, hBefore⟩
    have hSame := ih (hCovers.of_le (Nat.le_succ k)) hFormer
    have hActive := (hCovers k former hFrom (Nat.le_succ k) hFormer).1
    have hKept := (hCovers (k + 1) step (Nat.le_succ_of_le hFrom) (Nat.le_refl _) hStep).2
      (Nat.lt_succ_of_le hFrom)
    simp only [Rule.window, Bool.and_eq_true] at hActive
    have hPhase : step.input.loading = step.before.pressureLoading := by
      simpa [Rule.window] using hKept
    rw [hPhase, hBefore, pressureLoading_next hFormer hActive.1, hSame]

/- Every sample from one step to another was managed and met the condition, in one phase for R4. -/
def Held (rule : Rule) (steps : List GuardStep) (j k : Nat) (step : GuardStep) : Prop :=
  ∀ i mid, j ≤ i → i ≤ k → steps[i]? = some mid → mid.input.managed = true ∧
    rule.holds (conditionsAt mid) = true ∧
    (rule = .pressure → mid.input.loading = step.input.loading)

theorem covers_iff_held {j k : Nat} (hLe : j ≤ k)
    (hStep : (guardMachine.trace .initial inputs)[k]? = some step) :
    rule.window.Covers (guardMachine.trace .initial inputs) j k ↔
    Held rule (guardMachine.trace .initial inputs) j k step := by
  constructor
  · intro hCovers i mid hFrom hTo hMid
    have hActive := (hCovers i mid hFrom hTo hMid).1
    simp only [Rule.window, Bool.and_eq_true] at hActive
    refine ⟨hActive.1, hActive.2, ?_⟩
    intro hRule
    subst hRule
    have hBound : j < (guardMachine.trace .initial inputs).length := by
      have hLast := (List.getElem?_eq_some_iff.mp hStep).1
      omega
    have hFirst := List.getElem?_eq_getElem hBound
    rw [loading_of_covers (hCovers.of_le hTo) hFirst hFrom hMid,
        loading_of_covers hCovers hFirst hLe hStep]
  · intro hHeld i mid hFrom hTo hMid
    rcases hHeld i mid hFrom hTo hMid with ⟨hManaged, hHolds, hPhase⟩
    refine ⟨by simp [Rule.window, hManaged, hHolds], ?_⟩
    intro _
    cases rule with
    | pressure =>
      cases i with
      | zero => omega
      | succ i =>
        rcases guardMachine.exists_before hMid with ⟨former, hFormer, hBefore⟩
        rcases hHeld i former (by omega) (by omega) hFormer with ⟨hEarlier, -, hSame⟩
        have hLoading := pressureLoading_next hFormer hEarlier
        rw [← hBefore] at hLoading
        simp [Rule.window, hLoading, hPhase rfl, hSame rfl]
    | exhausted | filling | thrashing | driverFailure => simp [Rule.window]

----
-- The Guard
----

/-
  The cause of a rule has been there for its bound at a step, and a driver line counts if the rule
  needs one.
-/
def SustainedFor (rule : Rule) (steps : List GuardStep) (k : Nat) (step : GuardStep) : Prop :=
  (rule = .driverFailure → step.input.driverFailure = true) ∧ ∃ j first,
      j ≤ k ∧ steps[j]? = some first ∧
        rule.bound (conditionsAt step) step.input.loading ≤ step.input.now - first.input.now ∧
        Held rule steps j k step

section

variable (hTimes : inputs.Pairwise fun first later => first.now ≤ later.now)

include hTimes

theorem times_of_sorted
    (i j : Nat)
    (first later : GuardStep)
    (hLe : i ≤ j)
    (hFirst : (guardMachine.trace .initial inputs)[i]? = some first)
    (hLater : (guardMachine.trace .initial inputs)[j]? = some later) :
    first.input.now ≤ later.input.now := by
  rcases guardMachine.exists_of_getElem?_trace hFirst with ⟨_, hA, rfl⟩
  rcases guardMachine.exists_of_getElem?_trace hLater with ⟨_, hB, rfl⟩
  rcases Nat.lt_or_eq_of_le hLe with hLt | rfl
  · rcases List.getElem?_eq_some_iff.mp hA with ⟨hBoundA, rfl⟩
    rcases List.getElem?_eq_some_iff.mp hB with ⟨hBoundB, rfl⟩
    exact List.pairwise_iff_getElem.mp hTimes i j hBoundA hBoundB hLt
  · rw [Option.mem_def] at hA hB
    rw [hA] at hB
    cases hB
    exact Nat.le_refl _

/- A rule fires exactly if its condition was sustained for its time. -/
theorem fires_iff_sustainedFor
    (hStep : (guardMachine.trace .initial inputs)[k]? = some step)
    (rule : Rule) :
    rule.fires (guardMachine.next step.output) step.input
      (conditionsAt step) ↔
      SustainedFor
        rule (guardMachine.trace .initial inputs) k step := by
  have hOpen := Machine.Window.open_for_iff (window_fed rule) (window_starts_empty rule)
    (times_of_sorted hTimes) hStep (rule.bound (conditionsAt step) step.input.loading)
  have hLine : (decide (rule ≠ .driverFailure) || step.input.driverFailure) ↔
      (rule = .driverFailure → step.input.driverFailure) := by
    by_cases hRule : rule = .driverFailure
    · simp [hRule]
    · simp [hRule]
  simp only [Rule.fires, Bool.and_eq_true, hLine, sustained_iff, SustainedFor]
  apply and_congr_right
  intro _
  refine Iff.trans hOpen ?_
  constructor
  · intro hCovered
    rcases hCovered with ⟨j, first, hLe, hFirst, hBound, hCovers⟩
    exact ⟨j, first, hLe, hFirst, hBound, (covers_iff_held hLe hStep).mp hCovers⟩
  · intro hHeld
    rcases hHeld with ⟨j, first, hLe, hFirst, hBound, hAll⟩
    exact ⟨j, first, hLe, hFirst, hBound, (covers_iff_held hLe hStep).mpr hAll⟩

end

section

variable (hStep : (guardMachine.trace .initial inputs)[k]? = some step)

include hStep

/- The verdict of a managed sample. -/
theorem trigger_of_managed
    (hManaged : step.input.managed) :
    step.output.trigger = (guardMachine.next step.output).judge step.input (conditionsAt step) := by
  rw [guardMachine.next_output hStep]
  simp [Machine.step, guardMachine, Decision.observe, hManaged, conditionsAt]

theorem managed_of_trigger
    {trigger : Trigger} (hTrigger : step.output.trigger = some trigger) :
    step.input.managed := by
  cases hManaged : step.input.managed with
  | true => rfl
  | false =>
    rw [guardMachine.next_output hStep] at hTrigger
    simp [Machine.step, guardMachine, Decision.observe, hManaged] at hTrigger

theorem managed_of_sustainedFor
    (hSustained : SustainedFor rule (guardMachine.trace .initial inputs) k step) :
    step.input.managed := by
  rcases hSustained with ⟨-, _, _, hLe, -, -, hHeld⟩
  exact (hHeld k step hLe (Nat.le_refl _) hStep).1

end

/- An unknown MemAvailable meets no condition. -/
theorem holds_eq_false_of_unknown (hUnknown : step.input.sample.availableBytes = none)
    (rule : Rule) : rule.holds (conditionsAt step) = false := by
  have hBelow : ∀ bar, below step.input.sample.availableBytes bar = false := by
    intro _
    simp [below, hUnknown]
  have hExhausted : ∀ total, exhausted step.input.sample total = false := by
    intro _
    unfold exhausted
    split <;> simp [hBelow]
  have hFilling : ∀ total rates, filling step.input.sample total rates = false := by
    intro _ _
    unfold filling
    split <;> simp [hBelow]
  have hThrashing : ∀ rates, thrashing step.input.sample rates = false := by
    intro _
    simp [thrashing, hUnknown, below]
  cases rule <;>
    simp [Rule.holds, conditionsAt, Decision.conditionsOf, conditions, Conditions.corroborating,
        hExhausted, hFilling, hThrashing, pressure, driverFreeLow, hBelow]

theorem window_empty_of_unknown (hStep : (guardMachine.trace .initial inputs)[k]? = some step)
    (hUnknown : step.input.sample.availableBytes = none) (rule : Rule) :
    rule.since step.output.decision = none := by
  have hSince := Machine.Window.since_next (window_fed rule) hStep
  have hHolds := holds_eq_false_of_unknown hUnknown rule
  have hAfter : rule.window.after step = none := by simp [Machine.Window.after, Rule.window, hHolds]
  rw [hAfter] at hSince
  exact hSince

/-
  A trigger has a cause that was there at every sample for the bound of its rule, any such cause
  triggers, and an unknown MemAvailable neither triggers nor leaves a window open.
-/
theorem guard_stops_for_sustained_cause
    (inputs : List Observation)
    (hTimes : inputs.Pairwise fun first later => first.now ≤ later.now)
    (k : Nat)
    (step : GuardStep)
    (hStep : (guardMachine.trace .initial inputs)[k]? = some step) :
    (∀ trigger,
       step.output.trigger = some trigger →
       SustainedFor trigger.rule (guardMachine.trace .initial inputs) k
         step ∧
       (trigger = .memoryExhausted → (conditionsAt step).swap = false) ∧
       (trigger = .memoryAndSwapExhausted →
        (conditionsAt step).swap = true)) ∧
    (∀ rule,
       SustainedFor rule (guardMachine.trace .initial inputs) k step →
       ∃ trigger, step.output.trigger = some trigger) ∧
    (step.input.sample.availableBytes = none →
     step.output.trigger = none ∧
     ∀ rule : Rule, rule.since step.output.decision = none) := by
  refine ⟨?_, ?_, ?_⟩
  · intro _ hTrigger
    have hManaged := managed_of_trigger hStep hTrigger
    rw [trigger_of_managed hStep hManaged] at hTrigger
    rcases fires_of_judge hTrigger with ⟨hFires, hSwap⟩
    exact ⟨(fires_iff_sustainedFor hTimes hStep _).mp hFires, hSwap⟩
  · intro rule hSustained
    have hManaged := managed_of_sustainedFor hStep hSustained
    have hFires := (fires_iff_sustainedFor hTimes hStep rule).mpr hSustained
    rw [trigger_of_managed hStep hManaged]
    exact Option.isSome_iff_exists.mp (judge_of_fires hFires)
  · intro hUnknown
    have hEmpty := window_empty_of_unknown hStep hUnknown
    refine ⟨?_, hEmpty⟩
    cases hTrigger : step.output.trigger with
    | none => rfl
    | some trigger =>
      have hManaged := managed_of_trigger hStep hTrigger
      rw [trigger_of_managed hStep hManaged] at hTrigger
      have hFires := (fires_of_judge hTrigger).1
      have hSince : trigger.rule.since (guardMachine.next step.output) = none := hEmpty trigger.rule
      simp [Rule.fires, hSince, sustained] at hFires

/- No swap, and no MemAvailable for three seconds. -/
def exhaustedSample (now : Nat) : Observation where
  now := now
  sample :=
    { availableBytes := some 0, freeBytes := some 0, swapTotalBytes := some 0,
      swapFreeBytes := some 0, fullAvg10 := none, fullAvg60 := none, counters := none }
  driverFailure := false
  managed := true
  loading := false

/- Three seconds without memory stop the workload. -/
theorem exhausted_host_is_stopped :
    ∃ step,
      (guardMachine.trace .initial
         [exhaustedSample 0, exhaustedSample (seconds 3)])[1]? =
        some step ∧
      step.output.trigger = some .memoryExhausted ∧
      SustainedFor .exhausted
        (guardMachine.trace .initial
           [exhaustedSample 0, exhaustedSample (seconds 3)])
        1 step := by
  refine ⟨_, rfl, by decide +kernel, ?_⟩
  exact ((guard_stops_for_sustained_cause [exhaustedSample 0, exhaustedSample (seconds 3)]
      (by simp [exhaustedSample]) 1 _ rfl).1 .memoryExhausted (by decide +kernel)).1

end VonkForge.Memory
