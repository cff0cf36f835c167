import VonkForge.Lifecycle.Core

/-
  What the core's schedule builders compute: a backoff delay after now, cut off at the row's
  deadline.

  Main declarations:
    * `backoff`
    * `now_lt_due_iff`
    * `due_le_backoff`
    * `due_le_iff`
-/

----
-- Deadlines
----

namespace VonkForge.LifecycleCore

@[simp] theorem reached_none (now : Int) : reached none now = false := rfl

@[simp] theorem reached_some (instant now : Int) :
    reached (some instant) now = decide (instant ≤ now) := rfl

@[simp] theorem pending_none (now : Int) : pending none now = false := rfl

@[simp] theorem pending_some (instant now : Int) : pending (some instant) now =
      decide (now < instant) := rfl

/-
  Outside the adapter's own deadline, a row whose stored deadline has not passed has no deadline
  behind it.
-/
theorem deadlineOf_not_reached {row : Lifecycle} {adapter : KindAdapter}
    {now : Int} (hStored : reached row.recoveryDeadline now = false)
    (hOwn : reached (adapter.ownDeadline row) now = false) :
    reached (deadlineOf row (some adapter)) now = false := by
  unfold deadlineOf
  cases hDeadline : row.recoveryDeadline with
  | none => exact hOwn
  | some => simpa [hDeadline] using hStored

variable (row : Lifecycle)

@[simp] theorem deadlineOf_without_adapter : deadlineOf row none = row.recoveryDeadline := by
  unfold deadlineOf
  cases row.recoveryDeadline with
  | none | some => rfl

----
-- Backoff
----

variable (count : Nat)

/- The backoff of a row's n-th look, stop or retry. -/
def backoff : Int := recovery.delaySeconds row.id.text (max count 1) * second

theorem backoff_pos : 0 < backoff row count := by
  have hDelay := recovery.one_le_delaySeconds row.id.text (max count 1)
  unfold backoff second
  omega

/- The recovery clock never refuses a row of the core. -/
theorem scheduled_eq (now : Int) (notBefore : Option Int) :
    scheduled row (max count 1) now notBefore = max (now + backoff row count)
    (notBefore.getD (now + backoff row count)) := by
  have hCount : 1 ≤ max count 1 := Nat.le_max_right _ _
  unfold scheduled
  rw [RecoveryPolicy.nextAttempt_ongoing recovery_valid row.id.nonempty hCount]
  rfl

theorem now_lt_scheduled (now : Int) (notBefore : Option Int) :
    now < scheduled row (max count 1) now notBefore := by
  have hBackoff := backoff_pos row count
  rw [scheduled_eq]
  omega

/- A lost row is looked at again at a later instant. -/
theorem now_lt_scheduled_budget (now : Int) (notBefore : Option Int) :
    now < scheduled row observeBudget now notBefore :=
  now_lt_scheduled row observeBudget now notBefore

/- The next action lies ahead exactly when no deadline the schedule is cut off at has passed. -/
theorem now_lt_due_iff
    (now : Int)
    (adapter : Option KindAdapter)
    (retryAfter : Option Int) :
    now < due row count now adapter retryAfter ↔
      reached (deadlineOf row adapter) now = false := by
  have hScheduled :=
    now_lt_scheduled row count now (laterBound (notBefore row now adapter) retryAfter)
  unfold due
  cases deadlineOf row adapter with
  | none => simpa using hScheduled
  | some =>
    simp only [reached_some, decide_eq_false_iff_not]
    omega

/- The instant of a look or a stop, cut at the deadline. -/
theorem due_eq (now : Int) : due row count now none none =
      match row.recoveryDeadline with
      | none => now + backoff row count
      | some deadline => min (now + backoff row count) deadline := by
  unfold due
  rw [deadlineOf_without_adapter]
  cases row.recoveryDeadline with
  | none | some => simp [laterBound, notBefore, scheduled_eq]

/- No look or stop is later than its backoff. -/
theorem due_le_backoff (now : Int) :
    due row count now none none ≤ now + backoff row count := by
  rw [due_eq]
  cases row.recoveryDeadline with
  | none => exact Int.le_refl _
  | some => exact Int.min_le_left _ _

/-
  A look or a stop falls no later than a given instant exactly when its backoff or the deadline
  does.
-/
theorem due_le_iff (now instant : Int) :
    due row count now none none ≤ instant ↔
      now + backoff row count ≤ instant ∨
      reached row.recoveryDeadline instant := by
  rw [due_eq]
  cases row.recoveryDeadline with
  | none => simp
  | some =>
    simp only [reached_some, decide_eq_true_eq]
    omega

end VonkForge.LifecycleCore
