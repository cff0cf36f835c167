import VonkForge.Memory.Guard

/-
  The swap that admission lets a load use is the swap that the guard tolerates.

  Main declarations:
    * `swapExhausted_eq_false`
    * `swapFilled_eq_false`
    * `swap_margins_agree`
-/

----
-- The Terms of the Guard
----

namespace VonkForge.Memory

variable {total used : UInt64}

theorem toNat_free (hUsed : used ≤ total) : (total - used).toNat = total.toNat - used.toNat :=
  UInt64.toNat_sub_of_le _ _ hUsed

/- R1 leaves a load alone that keeps enough swap free. -/
theorem swapExhausted_eq_false (hUsed : used ≤ total) :
    swapExhausted total (total - used) = false ↔
      max (2 * gib) (total.toNat / 100 * 10) ≤
        total.toNat - used.toNat := by
  unfold swapExhausted
  rw [decide_eq_false_iff_not, UInt64.lt_iff_toNat_lt, toNat_free hUsed, toNat_keptFree]
  omega

/- R2 leaves a load alone that uses little enough. -/
theorem swapFilled_eq_false (hUsed : used ≤ total) :
    swapFilled total (total - used) = false ↔
      used.toNat ≤ total.toNat / 100 * 90 := by
  have hBound := UInt64.le_iff_toNat_le.mp hUsed
  unfold swapFilled
  rw [decide_eq_false_iff_not, gt_iff_lt, UInt64.lt_iff_toNat_lt, toNat_saturatingSub,
    toNat_free hUsed, toNat_filledAt]
  omega

theorem used_le_usable_iff (hTotal : 2 * gib ≤ total.toNat) (hUsed : used ≤ total) :
    (used.toNat : Int) ≤ usableSwapBytes total.toNat ↔ swapExhausted total (total - used) = false ∧
    swapFilled total (total - used) = false := by
  have hBound := UInt64.le_iff_toNat_le.mp hUsed
  rw [swapExhausted_eq_false hUsed,
    swapFilled_eq_false hUsed, usableSwapBytes_eq_toNat, toNat_usableSwapBytes]
  -- The floor is within the total, so what R1 keeps free is.
  omega

----
-- Admission and Guard
----

/-
  The swap that planning counts on is the swap that the guard leaves alone, both components compute
  it alike, and more swap is never less usable.
-/
theorem swap_margins_agree :
    (∀ total used : UInt64,
       2 * gib ≤ total.toNat →
       used ≤ total →
       ((used.toNat : Int) ≤ usableSwapBytes total.toNat ↔
          swapExhausted total (total - used) = false ∧
          swapFilled total (total - used) = false)) ∧
    (∀ total : UInt64,
       usableSwapBytes total.toNat =
         (Agent.usableSwapBytes total).toNat) ∧
    (∀ smaller larger : Int,
       smaller ≤ larger →
       usableSwapBytes smaller ≤ usableSwapBytes larger) ∧
    ∀ smaller larger : UInt64,
      smaller ≤ larger →
      Agent.usableSwapBytes smaller ≤ Agent.usableSwapBytes larger := by
  refine ⟨?_, usableSwapBytes_eq_toNat, usableSwapBytes_mono, ?_⟩
  · intro _ _ hTotal hUsed
    exact used_le_usable_iff hTotal hUsed
  · intro smaller larger hLe
    have hMono :=
      usableSwapBytes_mono smaller.toNat larger.toNat
        (by
          have hNat := UInt64.le_iff_toNat_le.mp hLe
          omega)
    rw [usableSwapBytes_eq_toNat, usableSwapBytes_eq_toNat] at hMono
    rw [UInt64.le_iff_toNat_le]
    omega

/- Of 64 GiB of swap a load may fill 57 GiB. -/
theorem swap_margins_agree_on_default :
    ((57 * Agent.gib).toNat : Int) ≤
      usableSwapBytes (64 * Agent.gib).toNat ∧
    (swapExhausted (64 * Agent.gib) (64 * Agent.gib - 57 * Agent.gib) =
       false ∧
     swapFilled (64 * Agent.gib) (64 * Agent.gib - 57 * Agent.gib) =
       false) :=
  ⟨by decide,
    (swap_margins_agree.1 (64 * Agent.gib) (57 * Agent.gib) (by decide) (by decide)).mp (by decide)⟩

end VonkForge.Memory
