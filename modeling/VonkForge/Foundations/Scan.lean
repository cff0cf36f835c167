import Mathlib.Data.List.Basic

/-
  Patterns for runs, and substitution by them.

  A `RunPattern` matches at least `least` items of its body, where neither the item before the match
  nor the one after it is barred. A match is as long as it can be, and gives items back until what
  follows is clear.

  Main declarations:
    * `matchAt`
    * `matchAt_eq_some`
    * `substitute_of_quiet`
    * `substitute_of_match`
-/

----
-- Runs
----

namespace VonkForge

namespace Scan

variable {α : Type} {p : α → Bool}

/- A list begins with a run, which ends where it must. -/
theorem exists_run (p : α → Bool) (items : List α) : ∃ run tail, items = run ++ tail ∧
    (∀ item ∈ run, p item) ∧ (∀ item ∈ tail.head?, p item = false) := by
  induction items with
  | nil => exact ⟨[], [], rfl, by simp, by simp⟩
  | cons item items ih =>
    by_cases hItem : p item = true
    · rcases ih with ⟨run, tail, hItems, hRun, hTail⟩
      refine ⟨item :: run, tail, ?_, ?_, hTail⟩
      · rw [hItems, List.cons_append]
      · intro other hOther
        rcases List.mem_cons.mp hOther with rfl | hMem
        · exact hItem
        · exact hRun other hMem
    · refine ⟨[], item :: items, rfl, by simp, ?_⟩
      intro _ hOther
      rw [List.head?_cons, Option.mem_some_iff] at hOther
      rw [← hOther]
      exact Bool.eq_false_iff.mpr hItem

theorem takeWhile_run {run tail : List α} (hRun : ∀ item ∈ run, p item)
    (hTail : ∀ item ∈ tail.head?, p item = false) : (run ++ tail).takeWhile p = run := by
  rw [List.takeWhile_append_of_pos hRun]
  cases tail with
  | nil => simp
  | cons item =>
    rw [List.takeWhile_cons, hTail item rfl]
    simp

/- A list is cut behind the first item of a kind, if any. -/
theorem cut_behind (q : α → Bool) (items : List α) : ∃ plain, (∀ item ∈ plain, q item = false) ∧
    ((items = plain ∧ (items.dropWhile (!q ·)).drop 1 = []) ∨ ∃ joint, q joint ∧
      items = plain ++ joint :: (items.dropWhile (!q ·)).drop 1) := by
  rcases exists_run (!q ·) items with ⟨plain, tail, hItems, hPlain, hTail⟩
  have hDrop : items.dropWhile (!q ·) = tail := by
    rw [hItems, List.dropWhile_append_of_pos hPlain]
    cases tail with
    | nil => rfl
    | cons item =>
      rw [List.dropWhile_cons, hTail item rfl]
      rfl
  refine ⟨plain, fun item hItem => by simpa using hPlain item hItem, ?_⟩
  rw [hDrop]
  cases tail with
  | nil =>
    rw [List.append_nil] at hItems
    exact Or.inl ⟨hItems, rfl⟩
  | cons item =>
    have hJoint := hTail item rfl
    rw [Bool.not_eq_false'] at hJoint
    exact Or.inr ⟨item, hJoint, hItems⟩

end Scan

end VonkForge

----
-- Matching
----

namespace VonkForge

structure RunPattern (α : Type) where
  body : α → Bool
  barred : α → Bool
  least : Nat
  least_pos : 0 < least

namespace RunPattern

variable {α : Type} (p : RunPattern α)

/- Whether a match may have this neighbour. -/
def clear : Option α → Bool
  | none => true
  | some item => !p.barred item

/- The longest match of at most so many items. -/
def longest (items : List α) : Nat → Option Nat
  | 0 => none
  | n + 1 =>
    if n + 1 < p.least then none
    else if p.clear items[n + 1]? then some (n + 1)
    else longest items n

def matchAt (before : Option α) (items : List α) : Option Nat :=
  if p.clear before then p.longest items (items.takeWhile p.body).length
  else none

variable {items : List α} {before : Option α}

theorem longest_eq_none {bound : Nat} (hNone : ∀ n, p.least ≤ n → n ≤ bound →
      p.clear items[n]? = false) : p.longest items bound = none := by
  induction bound with
  | zero => rfl
  | succ bound ih =>
    unfold longest
    by_cases hShort : bound + 1 < p.least
    · rw [if_pos hShort]
    · rw [if_neg hShort, hNone (bound + 1) (by omega) (Nat.le_refl _)]
      exact ih (fun n hLeast hLe => hNone n hLeast (by omega))

theorem longest_eq_some {n bound : Nat} (hLeast : p.least ≤ n) (hLe : n ≤ bound)
    (hClear : p.clear items[n]?)
    (hLonger : ∀ m, n < m → m ≤ bound → p.clear items[m]? = false) :
    p.longest items bound = some n := by
  have hPos := p.least_pos
  induction bound with
  | zero => omega
  | succ bound ih =>
    unfold longest
    rw [if_neg (by omega)]
    by_cases hHere : n = bound + 1
    · rw [← hHere, hClear]
      rfl
    · rw [hLonger (bound + 1) (by omega) (Nat.le_refl _)]
      exact ih (by omega) (fun m hLt hBound => hLonger m hLt (by omega))

theorem matchAt_eq_none (hNone : ∀ n, p.least ≤ n → n ≤ (items.takeWhile p.body).length →
      p.clear items[n]? = false) : p.matchAt before items = none := by
  unfold matchAt
  split
  · exact p.longest_eq_none hNone
  · rfl

theorem matchAt_of_barred (hBarred : p.clear before = false) (items : List α) :
    p.matchAt before items = none := by
  unfold matchAt
  rw [hBarred]
  rfl

/- A match ends at the last place that is clear. -/
theorem matchAt_eq_some
    {n : Nat}
    (hBefore : p.clear before)
    (hLeast : p.least ≤ n)
    (hLe : n ≤ (items.takeWhile p.body).length)
    (hClear : p.clear items[n]?)
    (hLonger :
      ∀ m,
        n < m →
        m ≤ (items.takeWhile p.body).length →
        p.clear items[m]? = false) :
    p.matchAt before items = some n := by
  unfold matchAt
  rw [if_pos hBefore]
  exact p.longest_eq_some hLeast hLe hClear hLonger

----
-- Substitution
----

variable {α : Type} (p : RunPattern α) (replace : List α → List α)

/-
  Replace the matches from left to right. The number is of items of the last match that are still to
  be passed.
-/
def substitute : Nat → Option α → List α → List α
  | _, _, [] => []
  | passing + 1, _, item :: rest => substitute passing (some item) rest
  | 0, before, item :: rest =>
    match p.matchAt before (item :: rest) with
    | some (n + 1) => replace ((item :: rest).take (n + 1)) ++ substitute n (some item) rest
    | _ => item :: substitute 0 (some item) rest

/- The last item so far. -/
def lastItem (before : Option α) (items : List α) : Option α := items.getLast?.or before

theorem lastItem_cons (before : Option α) (item : α) (rest : List α) :
    lastItem before (item :: rest) = lastItem (some item) rest := by
  unfold lastItem
  rw [List.getLast?_cons]
  cases rest.getLast? <;> rfl

theorem substitute_passing (passed rest : List α) (before : Option α) :
    p.substitute replace passed.length before (passed ++ rest) =
    p.substitute replace 0 (lastItem before passed) rest := by
  induction passed generalizing before with
  | nil => rfl
  | cons _ _ ih => rw [List.length_cons, List.cons_append, substitute, ih, lastItem_cons]

variable {before : Option α}

/- A match is replaced, and the scan goes on after it. -/
theorem substitute_of_match
    {token rest : List α}
    (hToken : token ≠ [])
    (hMatch : p.matchAt before (token ++ rest) = some token.length) :
    p.substitute replace 0 before (token ++ rest) =
      replace token ++ p.substitute replace 0 (lastItem before token)
        rest := by
  cases token with
  | nil => exact absurd rfl hToken
  | cons =>
    rw [List.cons_append, List.length_cons] at hMatch
    rw [List.cons_append, substitute, hMatch]
    simp only
    rw [← List.cons_append, ← List.length_cons, List.take_left, substitute_passing, lastItem_cons]

/- Where nothing matches, nothing is replaced. -/
theorem substitute_of_quiet
    {kept rest : List α}
    (hQuiet :
      ∀ front back,
        kept = front ++ back →
        back ≠ [] →
        p.matchAt (lastItem before front) (back ++ rest) = none) :
    p.substitute replace 0 before (kept ++ rest) =
      kept ++ p.substitute replace 0 (lastItem before kept) rest := by
  induction kept generalizing before with
  | nil => rfl
  | cons item kept ih =>
    have hHere := hQuiet [] (item :: kept) rfl (List.cons_ne_nil _ _)
    have hThere : p.substitute replace 0 (some item)
        (kept ++ rest) = kept ++ p.substitute replace 0 (lastItem (some item) kept) rest := by
      apply ih
      intro front back hKept hBack
      rw [← lastItem_cons before item front]
      apply hQuiet (item :: front) back _ hBack
      rw [hKept, List.cons_append]
    have hNone : p.matchAt before (item :: (kept ++ rest)) = none := hHere
    rw [List.cons_append, substitute, hNone]
    simp only
    rw [hThere, lastItem_cons, List.cons_append]

end RunPattern

end VonkForge
