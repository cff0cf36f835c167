import VonkForge.Foundations.Sha256

/-
  The shared retry clock for interrupted work, as `recovery_policy.py` computes it.

  An instant is an `Int`: UTC microseconds, the resolution of an aware `datetime`. A delay is a
  whole number of seconds drawn from a window by the SHA-256 digest of the operation id and the
  failure count, so that a restarted worker computes the same schedule again.

  Main declarations:
    * `RecoveryPolicy`
    * `one_le_delaySeconds`
    * `delaySeconds_le`
    * `nextAttempt_ongoing`
-/

----
-- Policies
----

namespace VonkForge

/- One second, in the microseconds of an instant. -/
def second : Int := 1000000

structure RecoveryPolicy where
  maxFailures : Nat := 5
  baseDelaySeconds : Nat := 2
  maxDelaySeconds : Nat := 60
deriving DecidableEq

namespace RecoveryPolicy

variable (policy : RecoveryPolicy)

/- The policies that `nextAttempt` does not refuse. -/
def Valid : Prop := 1 ≤ policy.maxFailures ∧ 1 ≤ policy.baseDelaySeconds ∧
    policy.baseDelaySeconds ≤ policy.maxDelaySeconds

instance (policy : RecoveryPolicy) : Decidable policy.Valid := by
  unfold Valid
  infer_instance

----
-- Delays
----

/- The UTF-8 bytes of a text. -/
def encode (text : String) : List Nat := (text.toList.flatMap String.utf8EncodeChar).map UInt8.toNat

variable (operationId : String) (failedAttempts : Nat)

/- The first eight digest bytes of `id:count`. -/
def entropy : Nat := Sha256.ofBigEndian
    ((Sha256.digest (encode (operationId ++ ":" ++ toString failedAttempts))).take 8)

def cap (failedAttempts : Nat) : Nat :=
  min policy.maxDelaySeconds (policy.baseDelaySeconds * 2 ^ min (failedAttempts - 1) 30)

def lower (failedAttempts : Nat) : Nat := max 1 (policy.cap failedAttempts * 3 / 4)

def upper (failedAttempts : Nat) : Nat :=
  max (policy.lower failedAttempts) (min policy.maxDelaySeconds (policy.cap failedAttempts * 5 / 4))

/- The stable delay of an operation's n-th failure. -/
def delaySeconds : Nat := policy.lower failedAttempts + entropy operationId failedAttempts %
    (policy.upper failedAttempts - policy.lower failedAttempts + 1)

theorem lower_le_upper (failedAttempts : Nat) :
    policy.lower failedAttempts ≤ policy.upper failedAttempts := Nat.le_max_left _ _

/- The drawn delay stays inside its window. -/
theorem delaySeconds_le_upper : policy.delaySeconds operationId failedAttempts ≤
    policy.upper failedAttempts := by
  have hWindow := policy.lower_le_upper failedAttempts
  have hDrawn : entropy operationId failedAttempts %
    (policy.upper failedAttempts - policy.lower failedAttempts + 1) < policy.upper failedAttempts -
    policy.lower failedAttempts + 1 := Nat.mod_lt _ (Nat.succ_pos _)
  unfold delaySeconds
  omega

/- No delay is shorter than a second. -/
theorem one_le_delaySeconds :
    1 ≤ policy.delaySeconds operationId failedAttempts := by
  have hLower : 1 ≤ policy.lower failedAttempts := Nat.le_max_left _ _
  unfold delaySeconds
  omega

/- No delay is longer than the policy's maximum. -/
theorem delaySeconds_le
    {policy : RecoveryPolicy}
    (hValid : policy.Valid)
    (operationId : String)
    (failedAttempts : Nat) :
    policy.delaySeconds operationId failedAttempts ≤
      policy.maxDelaySeconds := by
  have hDelay := policy.delaySeconds_le_upper operationId failedAttempts
  have hCap : policy.cap failedAttempts ≤ policy.maxDelaySeconds := Nat.min_le_left _ _
  rcases hValid with ⟨_, _, _⟩
  have hUpper : policy.upper failedAttempts ≤ policy.maxDelaySeconds := by
    unfold upper lower
    omega
  omega

----
-- The Next Attempt
----

/-
  A stable, bounded retry time, or `none` when exhausted. `failedAttempts` includes the failure just
  observed, and `retryAfter` is a lower bound the dependency supplied.
-/
def nextAttempt (now : Int)
    (retryAfter : Option Int) (ongoingIntent : Bool) : Except String (Option Int) :=
  if operationId = "" ∨ failedAttempts < 1 then
    .error "operation ID and positive failure count are required"
  else if policy.maxFailures < 1 ∨ policy.baseDelaySeconds < 1 ∨
      policy.maxDelaySeconds < policy.baseDelaySeconds then
    .error "invalid recovery policy"
  else if ¬ ongoingIntent ∧ policy.maxFailures ≤ failedAttempts then .ok none
  else
    let scheduled := now + policy.delaySeconds operationId failedAttempts * second
    match retryAfter with
    | none => .ok (some scheduled)
    | some after => .ok (some (max scheduled after))

/-
  With an ongoing intent a valid policy always schedules: the drawn delay after now, or the
  dependency's own bound when that is later.
-/
theorem nextAttempt_ongoing
    {policy : RecoveryPolicy}
    (hValid : policy.Valid)
    {operationId : String}
    (hId : operationId ≠ "")
    {failedAttempts : Nat}
    (hCount : 1 ≤ failedAttempts)
    (now : Int)
    (retryAfter : Option Int) :
    policy.nextAttempt operationId failedAttempts now retryAfter true =
      .ok
        (some
           (max
              (now + policy.delaySeconds operationId failedAttempts *
                 second)
              (retryAfter.getD
                 (now + policy.delaySeconds operationId failedAttempts *
                    second)))) := by
  rcases hValid with ⟨_, _, _⟩
  have hRequest : ¬ (operationId = "" ∨ failedAttempts < 1) := by
    rintro (hEmpty | _)
    · exact hId hEmpty
    · omega
  have hPolicy : ¬ (policy.maxFailures < 1 ∨ policy.baseDelaySeconds < 1 ∨
      policy.maxDelaySeconds < policy.baseDelaySeconds) := by omega
  unfold nextAttempt
  rw [if_neg hRequest, if_neg hPolicy]
  cases retryAfter with
  | none | some => simp

end RecoveryPolicy

/- The shared rate. -/
def recovery : RecoveryPolicy := {}

theorem recovery_valid : recovery.Valid := by decide

/- The backoff step a wait is re-checked at. -/
def waitStep : Nat := 2

end VonkForge
