import Mathlib

/-
  Names in their order, begun anew after a cursor.

  The names past the cursor come first, then those up to it. When the cursor is set to the last name
  of a first part, that part goes to the end, so that every other name comes nearer by its length.

  Main declarations:
    * `rotated`
    * `rotated_next`
    * `ahead_next`
    * `ahead_le_of_subset`
-/

----
-- Rotations
----

namespace Rotation

variable {α : Type} [LinearOrder α]

def isPast (cursor : Option α) (name : α) : Bool := cursor.all fun last => decide (last < name)

/- The names past the cursor, then the other ones. -/
def rotated (cursor : Option α) (names : Finset α) : List α :=
  names.sort.filter (isPast cursor) ++ names.sort.filter fun name => !isPast cursor name

variable {cursor : Option α} {names : Finset α} {last name : α}

theorem rotated_perm (cursor : Option α) (names : Finset α) :
    (rotated cursor names).Perm names.sort :=
  List.filter_append_perm _ _

@[simp] theorem mem_rotated : name ∈ rotated cursor names ↔ name ∈ names := by
  rw [(rotated_perm cursor names).mem_iff, Finset.mem_sort]

@[simp] theorem length_rotated : (rotated cursor names).length = names.card := by
  rw [(rotated_perm cursor names).length_eq, Finset.length_sort]

theorem rotated_nodup (cursor : Option α) (names : Finset α) : (rotated cursor names).Nodup :=
  (rotated_perm cursor names).nodup_iff.mpr (Finset.sort_nodup names _)

theorem sort_pairwise_lt (names : Finset α) : names.sort.Pairwise (· < ·) :=
  (Finset.pairwise_sort names _).and (Finset.sort_nodup names _) |>.imp fun hBoth =>
    lt_of_le_of_ne hBoth.1 hBoth.2

/- In order, the names up to the cursor stand before those past it. -/
theorem sort_eq_append (cursor : Option α) (names : Finset α) :
    names.sort = names.sort.filter (fun name => !isPast cursor name) ++
    names.sort.filter (isPast cursor) := by
  have hPerm := (List.perm_append_comm.trans (rotated_perm cursor names)).symm
  refine hPerm.eq_of_pairwise (fun first second _ _ => le_antisymm)
    (Finset.pairwise_sort names _) ?_
  refine List.pairwise_append.mpr ⟨(Finset.pairwise_sort names _).filter _,
    (Finset.pairwise_sort names _).filter _, ?_⟩
  intro _ hFirst _ hSecond
  have hPassed := (List.mem_filter.mp hFirst).2
  have hPast := (List.mem_filter.mp hSecond).2
  cases cursor with
  | none => simp [isPast] at hPassed
  | some =>
    simp only [isPast, Option.all_some, Bool.not_eq_true', decide_eq_false_iff_not,
      not_lt] at hPassed
    simp only [isPast, Option.all_some, decide_eq_true_eq] at hPast
    exact hPassed.trans hPast.le

theorem rotated_cut {before after : List α} (hNames : names.sort = before ++ last :: after) :
    rotated (some last) names = after ++ (before ++ [last]) := by
  have hSorted := sort_pairwise_lt names
  rw [hNames] at hSorted
  have hBefore := (List.pairwise_append.mp hSorted).2.2
  have hAfter := (List.pairwise_cons.mp (List.pairwise_append.mp hSorted).2.1).1
  have hPassed : ∀ name ∈ before, isPast (some last) name = false := fun name hName => by
    simpa [isPast] using (hBefore name hName last List.mem_cons_self).le
  have hPast : ∀ name ∈ after, isPast (some last) name := fun name hName => by
    simpa [isPast] using hAfter name hName
  have hLast : isPast (some last) last = false := by simp [isPast]
  rw [rotated, hNames, List.filter_append, List.filter_append, List.filter_cons, List.filter_cons,
    List.filter_eq_nil_iff.mpr (by simpa using hPassed), List.filter_eq_self.mpr hPast,
    List.filter_eq_self.mpr (by simpa using hPassed),
    List.filter_eq_nil_iff.mpr (by simpa using hPast)]
  simp [hLast]

variable {page rest : List α}

/- After a page, the rest comes first and the page last. -/
theorem rotated_next
    (hRotated : rotated cursor names = page ++ rest)
    (hLast : page.getLast? = some last) :
    rotated (some last) names = rest ++ page := by
  obtain ⟨_, rfl⟩ := List.getLast?_eq_some_iff.mp hLast
  rw [List.append_assoc, List.singleton_append, rotated, List.append_eq_append_iff] at hRotated
  have hNames := sort_eq_append cursor names
  rcases hRotated with ⟨_, hFront, hBefore⟩ | ⟨past, hPast, hRest⟩
  · -- The page goes on among the names up to the cursor.
    rw [hBefore, List.append_assoc, List.cons_append] at hNames
    rw [rotated_cut hNames, hFront]
    simp
  · cases past with
    | nil =>
      rw [List.nil_append] at hRest
      rw [← hRest, hPast, List.append_nil, List.cons_append,
        ← List.nil_append (last :: _)] at hNames
      rw [rotated_cut hNames]
      simp
    | cons =>
      obtain ⟨rfl, rfl⟩ := List.cons.inj hRest
      rw [hPast, ← List.append_assoc] at hNames
      rw [rotated_cut hNames]
      simp

----
-- The Way to a Name
----

/- The number of names that come before a name. -/
def ahead (cursor : Option α) (names : Finset α) (name : α) : Nat :=
  (rotated cursor names).idxOf name

theorem ahead_lt (hName : name ∈ names) : ahead cursor names name < names.card := by
  have hMem : name ∈ rotated cursor names := mem_rotated.mpr hName
  simpa [ahead] using List.idxOf_lt_length_iff.mpr hMem

/- A name that is not on the page moves up by the page. -/
theorem ahead_next
    (hRotated : rotated cursor names = page ++ rest)
    (hLast : page.getLast? = some last)
    (hName : name ∈ names)
    (hAway : name ∉ page) :
    ahead (some last) names name + page.length =
      ahead cursor names name := by
  have hRest : name ∈ rest := by
    have hMem : name ∈ rotated cursor names := mem_rotated.mpr hName
    rw [hRotated] at hMem
    exact (List.mem_append.mp hMem).resolve_left hAway
  rw [ahead, ahead, rotated_next hRotated hLast, hRotated, List.idxOf_append_of_mem hRest,
    List.idxOf_append_of_notMem hAway, Nat.add_comm]

theorem idxOf_filter_le {keep : α → Bool} (hKeep : keep name) (items : List α) :
    (items.filter keep).idxOf name ≤ items.idxOf name := by
  induction items with
  | nil => simp
  | cons item items ih =>
    by_cases hSame : item = name
    · rw [hSame, List.filter_cons_of_pos hKeep, List.idxOf_cons_self, List.idxOf_cons_self]
    · rw [List.idxOf_cons_ne items hSame, List.filter_cons]
      split
      · rw [List.idxOf_cons_ne _ hSame]
        exact Nat.succ_le_succ ih
      · exact ih.trans (Nat.le_succ _)

/- A name comes no later when other ones are gone. -/
theorem ahead_le_of_subset
    {fewer : Finset α}
    (hFewer : fewer ⊆ names)
    (hName : name ∈ fewer) :
    ahead cursor fewer name ≤ ahead cursor names name := by
  have hSort : fewer.sort = names.sort.filter (· ∈ fewer) := by
    refine List.Perm.eq_of_pairwise (fun first second _ _ => le_antisymm)
      (Finset.pairwise_sort fewer _) ((Finset.pairwise_sort names _).filter _) ?_
    rw [List.perm_ext_iff_of_nodup (Finset.sort_nodup fewer _)
      ((Finset.sort_nodup names _).filter _)]
    intro _
    simpa using fun hOther => hFewer hOther
  have hRotated : rotated cursor fewer = (rotated cursor names).filter (· ∈ fewer) := by
    rw [rotated, rotated, hSort, List.filter_append]
    congr 1
    · exact List.filter_comm _ _ _
    · exact List.filter_comm _ _ _
  rw [ahead, hRotated]
  exact idxOf_filter_le (by simpa using hName) _

end Rotation
