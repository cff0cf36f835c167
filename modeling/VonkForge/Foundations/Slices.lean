import Mathlib

/-
  A list cut into consecutive slices of one width, and prefixes that grow by what comes next.

  Main declarations:
    * `slice`
    * `count`
    * `flatMap_slice`
    * `append_isPrefix`
-/

----
-- Slices
----

namespace Slices

variable {α : Type}

/- Slice number `k`. -/
def slice (width : Nat) (items : List α) (k : Nat) : List α := (items.drop (k * width)).take width

/- How many slices `n` items make. -/
def count (width n : Nat) : Nat := (n + width - 1) / width

variable {width k m n : Nat} {items : List α}

theorem length_slice : (slice width items k).length = min width (items.length - k * width) := by
  simp [slice]

theorem flatMap_slice_range :
    (List.range m).flatMap (slice width items) = items.take (m * width) := by
  induction m with
  | zero => simp
  | succ m ih =>
    rw [List.range_succ, List.flatMap_append, ih, Nat.succ_mul, List.take_add]
    simp [slice]

theorem le_count_mul (hWidth : 0 < width) : n ≤ count width n * width := by
  unfold count
  have hDiv := Nat.div_add_mod (n + width - 1) width
  have hMod := Nat.mod_lt (n + width - 1) hWidth
  rw [Nat.mul_comm] at hDiv
  omega

/- A slice that is counted starts inside the list. -/
theorem mul_lt_of_lt_count (hLt : k < count width n) : k * width < n := by
  unfold count at hLt
  rcases Nat.eq_zero_or_pos width with rfl | hWidth
  · simp at hLt
  · have hMul := (Nat.le_div_iff_mul_le hWidth).mp hLt
    rw [Nat.succ_mul] at hMul
    omega

/- The slices together are the list. -/
theorem flatMap_slice (hWidth : 0 < width) :
    (List.range (count width items.length)).flatMap
      (slice width items) =
      items := by
  rw [flatMap_slice_range]
  exact List.take_of_length_le (le_count_mul hWidth)

theorem sum_length_slice (hWidth : 0 < width) :
    ((List.range (count width items.length)).map fun k =>
      (slice width items k).length).sum = items.length := by
  rw [← List.length_flatMap, flatMap_slice hWidth]

----
-- Growing Prefixes
----

/- A prefix grows by a prefix of what comes after it. -/
theorem append_isPrefix
    {held next whole : List α}
    (hHeld : held <+: whole)
    (hNext : next <+: whole.drop held.length) :
    held ++ next <+: whole := by
  obtain ⟨_, rfl⟩ := hHeld
  rw [List.drop_left] at hNext
  exact (List.prefix_append_right_inj held).mpr hNext

end Slices
