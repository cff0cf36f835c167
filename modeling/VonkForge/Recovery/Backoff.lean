import VonkForge.Recovery.Policy

/-
  The delays of the shared retry clock (`RecoveryPolicy.next_attempt`).

  A delay is drawn from a window around a step that doubles with every failure. As long as the step
  is below the ceiling, the window of a failure lies before the window of the next one.

  Main declarations:
    * `Possible`
    * `scheduled`
    * `upper_lt_lower`
    * `backoff_is_bounded_and_ordered`
-/

----
-- Windows
----

namespace VonkForge.RecoveryPolicy

variable {policy : RecoveryPolicy}

/- A delay that some digest draws for a failure count. -/
def Possible (policy : RecoveryPolicy) (failedAttempts delay : Nat) : Prop :=
  ∃ entropy, delay = policy.lower failedAttempts +
    entropy % (policy.upper failedAttempts - policy.lower failedAttempts + 1)

theorem Possible.mem_window {failedAttempts delay : Nat}
    (hPossible : policy.Possible failedAttempts delay) :
    policy.lower failedAttempts ≤ delay ∧ delay ≤ policy.upper failedAttempts := by
  rcases hPossible with ⟨entropy, rfl⟩
  have hWindow := policy.lower_le_upper failedAttempts
  have hDrawn : entropy % (policy.upper failedAttempts - policy.lower failedAttempts + 1) <
    policy.upper failedAttempts - policy.lower failedAttempts + 1 := Nat.mod_lt _ (Nat.succ_pos _)
  omega

/- Below the ceiling a step is not cut. -/
theorem cap_eq {n : Nat} (hCeiling : policy.baseDelaySeconds * 2 ^ n ≤ policy.maxDelaySeconds)
    (hExponent : n ≤ 30) : policy.cap (n + 1) = policy.baseDelaySeconds * 2 ^ n := by
  rw [cap, Nat.add_sub_cancel, Nat.min_eq_left hExponent, Nat.min_eq_right hCeiling]

/- As long as doubling stays below the ceiling, the windows do not meet. -/
theorem upper_lt_lower
    {n : Nat}
    (hBase : 2 ≤ policy.baseDelaySeconds)
    (hCeiling :
      policy.baseDelaySeconds * 2 ^ (n + 1) ≤ policy.maxDelaySeconds)
    (hExponent : n + 1 ≤ 30) :
    policy.upper (n + 1) < policy.lower (n + 2) := by
  have hDouble : policy.baseDelaySeconds * 2 ^ (n + 1) = 2 * (policy.baseDelaySeconds * 2 ^ n) := by
    rw [Nat.pow_succ]
    ring
  have hStep : 2 ≤ policy.baseDelaySeconds * 2 ^ n :=
    hBase.trans (Nat.le_mul_of_pos_right _ (Nat.two_pow_pos n))
  have hThis : policy.cap (n + 1) = policy.baseDelaySeconds * 2 ^ n := cap_eq (by omega) (by omega)
  have hNext := cap_eq hCeiling hExponent
  simp only [upper, lower, hThis, hNext, hDouble]
  generalize policy.baseDelaySeconds * 2 ^ n = step at *
  rcases hStep.eq_or_lt with rfl | _
  · omega
  · omega

----
-- Schedules
----

/- The instant of a retry, raised to the bound of a dependency that is later. -/
def scheduled (now : Int) (delay : Nat) : Option Int → Int
  | none => now + delay * second
  | some after => if now + delay * second < after then after else now + delay * second

theorem nextAttempt_scheduled (hValid : policy.Valid) (operationId : String) {failedAttempts : Nat}
    (hCount : 1 ≤ failedAttempts) (now : Int) (retryAfter : Option Int) :
    policy.nextAttempt operationId failedAttempts now retryAfter true =
      if operationId = "" then .error "operation ID and positive failure count are required"
      else
        .ok (some (scheduled now (policy.delaySeconds operationId failedAttempts) retryAfter)) := by
  by_cases hId : operationId = ""
  · simp [nextAttempt, hId]
  · rw [nextAttempt_ongoing hValid hId hCount, if_neg hId]
    cases retryAfter with
    | none => simp [scheduled]
    | some after =>
      simp only [scheduled, Option.getD_some]
      split
      · rename_i hLater
        rw [max_eq_right hLater.le]
      · rename_i hEarlier
        rw [max_eq_left (not_lt.mp hEarlier)]

/-
  Every possible delay is between a second and the ceiling, and as long as doubling stays below the
  ceiling a later delay is longer than any earlier one.
-/
theorem backoff_is_bounded_and_ordered (hValid : policy.Valid) :
    (∀ operationId failedAttempts now,
       1 ≤ failedAttempts →
       ∃ delay,
         policy.Possible failedAttempts delay ∧
         1 ≤ delay ∧
         delay ≤ policy.maxDelaySeconds ∧
         ∀ retryAfter,
           policy.nextAttempt operationId failedAttempts now retryAfter
             true =
             if operationId = "" then
               .error
                 "operation ID and positive failure count are required"
             else
               .ok (some (scheduled now delay retryAfter))) ∧
    ∀ n,
      2 ≤ policy.baseDelaySeconds →
      policy.baseDelaySeconds * 2 ^ (n + 1) ≤ policy.maxDelaySeconds →
      n + 1 ≤ 30 →
      ∀ early late,
        policy.Possible (n + 1) early →
        policy.Possible (n + 2) late →
        early < late := by
  constructor
  · intro operationId failedAttempts now hCount
    exact ⟨policy.delaySeconds operationId failedAttempts, ⟨_, rfl⟩,
      policy.one_le_delaySeconds operationId failedAttempts,
      delaySeconds_le hValid operationId failedAttempts,
      nextAttempt_scheduled hValid operationId hCount now⟩
  · intro _ hBase hCeiling hExponent _ _ hEarly hLate
    exact hEarly.mem_window.2.trans_lt
      ((upper_lt_lower hBase hCeiling hExponent).trans_le hLate.mem_window.1)

/- The shared rate: the second delays are all longer than the first ones. -/
theorem first_retry_before_second :
    recovery.Possible 1 2 ∧
    recovery.Possible 2 4 ∧
    ∀ early late,
      recovery.Possible 1 early →
      recovery.Possible 2 late →
      early < late := by
  refine ⟨⟨1, by decide⟩, ⟨1, by decide⟩, ?_⟩
  exact (backoff_is_bounded_and_ordered recovery_valid).2 0 (by decide) (by decide) (by decide)

end VonkForge.RecoveryPolicy
