import Mathlib

/-
  The swap policy that admission, the agent and the guard share (`swap.py`, `swap.rs`).

  Admission counts with Python integers, the agent and the helper with 64-bit words.

  Main declarations:
    * `swapPolicy`
    * `toNat_usableSwapBytes`
    * `usableSwapBytes_eq_toNat`
    * `usableSwapBytes_mono`
-/

----
-- The Policy
----

namespace VonkForge.Memory

/- The fields of `SwapPolicy` that admission, the helper and the margins read. -/
structure SwapPolicy where
  maximumGib : Nat
  toleranceMib : Nat
  releaseHeadroomGib : Nat
  exhaustedFreeFloorGib : Nat
  exhaustedFreePercent : Nat
  fillingUsedPercent : Nat
deriving DecidableEq

def swapPolicy : SwapPolicy where
  maximumGib := 128
  toleranceMib := 512
  releaseHeadroomGib := 16
  exhaustedFreeFloorGib := 2
  exhaustedFreePercent := 10
  fillingUsedPercent := 90

def gib : Nat := 1024 ^ 3

/- `usable_swap_bytes` of `swap.py`. -/
def usableSwapBytes (totalBytes : Int) : Int :=
  let keptFree := max (swapPolicy.exhaustedFreeFloorGib * gib : Int)
      (totalBytes / 100 * swapPolicy.exhaustedFreePercent)
  max 0 (min (totalBytes - keptFree) (totalBytes / 100 * swapPolicy.fillingUsedPercent))

----
-- Words
----

/- `u64::saturating_sub`. -/
def saturatingSub (left right : UInt64) : UInt64 := if right ≤ left then left - right else 0

namespace Agent

def gib : UInt64 := 1024 * 1024 * 1024

variable (total : UInt64)

/- The free swap that R1 asks for. -/
def keptFree : UInt64 := max (UInt64.ofNat swapPolicy.exhaustedFreeFloorGib * gib)
    (total / 100 * UInt64.ofNat swapPolicy.exhaustedFreePercent)

/- The used swap that R2 allows. -/
def filledAt : UInt64 := total / 100 * UInt64.ofNat swapPolicy.fillingUsedPercent

/- `usable_swap_bytes` of `swap.rs`. -/
def usableSwapBytes : UInt64 := min (saturatingSub total (keptFree total)) (filledAt total)

end Agent

----
-- Words as Numbers
----

theorem toNat_saturatingSub (left right : UInt64) : (saturatingSub left right).toNat =
      left.toNat - right.toNat := by
  unfold saturatingSub
  split
  · rename_i hLe
    exact UInt64.toNat_sub_of_le _ _ hLe
  · rename_i hLt
    rw [UInt64.le_iff_toNat_le] at hLt
    simp only [UInt64.toNat_zero]
    omega

variable (total : UInt64)

/- A percentage of a word does not overflow. -/
theorem toNat_percent (percent : Nat) (hPercent : percent ≤ 100) :
    (total / 100 * UInt64.ofNat percent).toNat = total.toNat / 100 * percent := by
  have hTotal := total.toNat_lt
  have hPart : total.toNat / 100 * percent ≤ total.toNat :=
    calc total.toNat / 100 * percent
        ≤ total.toNat / 100 * 100 := Nat.mul_le_mul_left _ hPercent
      _ ≤ total.toNat := Nat.div_mul_le_self _ _
  have hWord : (UInt64.ofNat percent).toNat = percent := by
    rw [UInt64.toNat_ofNat']
    omega
  rw [UInt64.toNat_mul, UInt64.toNat_div, hWord]
  exact Nat.mod_eq_of_lt (Nat.lt_of_le_of_lt hPart hTotal)

theorem toNat_keptFree : (Agent.keptFree total).toNat = max (2 * gib) (total.toNat / 100 * 10) := by
  unfold Agent.keptFree
  rw [UInt64.toNat_max, toNat_percent total _ (by decide)]
  rfl

theorem toNat_filledAt : (Agent.filledAt total).toNat = total.toNat / 100 * 90 :=
  toNat_percent total _ (by decide)

/- The agent's sum, which never wraps. -/
theorem toNat_usableSwapBytes :
    (Agent.usableSwapBytes total).toNat =
      min (total.toNat - max (2 * gib) (total.toNat / 100 * 10))
        (total.toNat / 100 * 90) := by
  unfold Agent.usableSwapBytes
  rw [UInt64.toNat_min, toNat_saturatingSub, toNat_keptFree, toNat_filledAt]

/- Both languages compute the same number. -/
theorem usableSwapBytes_eq_toNat :
    usableSwapBytes total.toNat =
      (Agent.usableSwapBytes total).toNat := by
  rw [toNat_usableSwapBytes]
  simp only [usableSwapBytes, swapPolicy, gib]
  omega

/-
  The percentage that R1 keeps free goes up in steps of ten bytes. Where it does, the bound of R2 is
  the smaller one.
-/
theorem usableSwapBytes_mono
    (smaller larger : Int)
    (hLe : smaller ≤ larger) :
    usableSwapBytes smaller ≤ usableSwapBytes larger := by
  simp only [usableSwapBytes, swapPolicy, gib]
  omega

end VonkForge.Memory
