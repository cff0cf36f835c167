import VonkForge.Foundations.Run

/-
  A cursor over rows in the order of a key.

  The cursor names the last row taken, and the next row is the first one with a larger key. Either a
  cursor without a next row takes none and starts over, or it goes on with the first row. Both ways
  the rows are taken in a circle.

  Main declarations:
    * `next`, `turn`
    * `turns_rotate`
    * `around_rotate`
    * `views_of_trace`
-/

----
-- Places in a Circle
----

namespace Cursor

/- What is taken by going once around a list whose places follow each other in a circle. -/
theorem taken_eq_rotate {σ β : Type} {circle : List β} (place : σ → Nat)
    {move : σ → σ} {take : σ → β} (hTake : ∀ state, circle[place state]? = some (take state))
    (hMove : ∀ state, place (move state) = (place state + 1) % circle.length) (state : σ) :
    ((List.range circle.length).map fun i => take (move^[i] state)) = circle.rotate (place state) :=
    by
  have hPlace (i : Nat) : place (move^[i] state) = (i + place state) % circle.length := by
    induction i with
    | zero =>
      have hBound := (List.getElem?_eq_some_iff.mp (hTake state)).1
      simp [Nat.mod_eq_of_lt hBound]
    | succ i ih =>
      rw [Function.iterate_succ_apply', hMove, ih, Nat.mod_add_mod]
      congr 1
      omega
  apply List.ext_getElem
  · simp
  · intro i _ _
    have hHere := hTake (move^[i] state)
    rw [hPlace] at hHere
    rw [List.getElem_map, List.getElem_range, List.getElem_rotate]
    exact ((List.getElem?_eq_some_iff.mp hHere).2).symm

----
-- Turns of a Cursor
----

variable {α : Type}

section

variable (key : α → Int) (rows : List α) (cursor : Int)

/- The first row past the cursor. -/
def next : Option α :=
  rows.find? fun row => decide (cursor < key row)

/- The cursor after a turn that starts over at the end. -/
def turn : Int :=
  match next key rows cursor with
  | none => 0
  | some row => key row

/- The row of a cursor that goes on with the first one. -/
def around : Option α :=
  (next key rows cursor).or rows.head?

/- The number of rows up to the cursor. -/
def passed : Nat :=
  rows.countP fun row => decide (key row ≤ cursor)

end

variable {key : α → Int} {rows : List α} {cursor : Int} {found : α}

theorem turn_of_none (hNext : next key rows cursor = none) : turn key rows cursor = 0 := by
  simp [turn, hNext]

theorem turn_of_some (hNext : next key rows cursor = some found) :
    turn key rows cursor = key found := by
  simp [turn, hNext]

theorem passed_eq_zero (hPast : ∀ row ∈ rows, cursor < key row) : passed key rows cursor = 0 := by
  refine List.countP_eq_zero.mpr ?_
  intro row hRow
  have hLater := hPast row hRow
  simp only [decide_eq_true_eq]
  omega

theorem passed_le (key : α → Int) (rows : List α) (cursor : Int) :
    passed key rows cursor ≤ rows.length :=
  List.countP_le_length

section Sorted

variable
  (hSorted : rows.Pairwise fun first second => key first < key second)

include hSorted

/- In order, the next row stands behind those passed. -/
theorem next_eq_getElem? (cursor : Int) : next key rows cursor = rows[passed key rows cursor]? := by
  induction rows with
  | nil => rfl
  | cons row rest ih =>
    have hOrder := List.pairwise_cons.mp hSorted
    by_cases hPast : cursor < key row
    · have hNone : passed key (row :: rest) cursor = 0 := by
        refine passed_eq_zero ?_
        intro other hOther
        rcases List.mem_cons.mp hOther with rfl | hLater
        · exact hPast
        · exact hPast.trans (hOrder.1 other hLater)
      rw [hNone]
      simp [next, hPast]
    · have hHere : key row ≤ cursor := by omega
      have hRest := ih hOrder.2
      simpa [next, passed, hPast, hHere] using hRest

theorem passed_of_getElem? {k : Nat} (hRow : rows[k]? = some found) :
    passed key rows (key found) = k + 1 := by
  induction rows generalizing k with
  | nil => cases hRow
  | cons row rest ih =>
    have hOrder := List.pairwise_cons.mp hSorted
    cases k with
    | zero =>
      obtain rfl : row = found := by simpa using hRow
      have hRest := passed_eq_zero hOrder.1
      simpa [passed] using hRest
    | succ k =>
      have hLater : rest[k]? = some found := by simpa using hRow
      have hBefore := hOrder.1 found (List.mem_of_getElem? hLater)
      have hRest := ih hOrder.2 hLater
      simpa [passed, hBefore.le] using hRest

/- Starting over, one turn in the circle takes no row. -/
theorem turns_rotate
    (hPositive : ∀ row ∈ rows, 0 < key row)
    (cursor : Int) :
    ((List.range (rows.length + 1)).map fun i => next key rows
       ((turn key rows)^[i] cursor)) =
      (rows.map some ++ [none]).rotate (passed key rows cursor) := by
  have hLength : rows.length + 1 = (rows.map some ++ [none]).length := by simp
  rw [hLength]
  refine taken_eq_rotate (passed key rows) ?_ ?_ cursor
  · intro cursor
    have hLe := passed_le key rows cursor
    rw [next_eq_getElem? hSorted]
    rcases Nat.lt_or_eq_of_le hLe with hRow | hEnd
    · rw [List.getElem?_append_left (by simpa using hRow)]
      simp [hRow]
    · simp [hEnd]
  · intro cursor
    rw [← hLength]
    have hNext := next_eq_getElem? hSorted cursor
    cases hFound : next key rows cursor with
    | none =>
      rw [hFound] at hNext
      have hLe := passed_le key rows cursor
      have hEnd := List.getElem?_eq_none_iff.mp hNext.symm
      have hAll : passed key rows cursor = rows.length := by omega
      rw [turn_of_none hFound, passed_eq_zero hPositive, hAll, Nat.mod_self]
    | some =>
      rw [hFound] at hNext
      have hBound := (List.getElem?_eq_some_iff.mp hNext.symm).1
      rw [turn_of_some hFound, passed_of_getElem? hSorted hNext.symm, Nat.mod_eq_of_lt (by omega)]

/- Every row is come to, wherever the cursor stands. -/
theorem visits {row : α} (hPositive : ∀ row ∈ rows, 0 < key row)
    (hRow : row ∈ rows) (cursor : Int) :
    ∃ n, next key rows ((turn key rows)^[n] cursor) = some row := by
  have hTaken : some row ∈ (rows.map some ++ [none]).rotate (passed key rows cursor) := by
    simp [hRow]
  rw [← turns_rotate hSorted hPositive] at hTaken
  rcases List.mem_map.mp hTaken with ⟨n, _, hNext⟩
  exact ⟨n, hNext⟩

theorem next_before {row : α} (hRow : row ∈ rows) : next key rows (key row - 1) = some row := by
  obtain ⟨before, after, rfl⟩ := List.append_of_mem hRow
  have hNone : before.find? (fun other => decide (key row - 1 < key other)) = none := by
    refine List.find?_eq_none.mpr ?_
    intro other hOther
    have hLess := (List.pairwise_append.mp hSorted).2.2 other hOther row List.mem_cons_self
    simp only [decide_eq_true_eq]
    omega
  rw [next, List.find?_append, hNone, Option.none_or, List.find?_cons_of_pos (by simp)]

/- The row a cursor goes on with stands at its place. -/
theorem around_eq_getElem? (cursor : Int) :
    around key rows cursor = rows[passed key rows cursor % rows.length]? := by
  have hLe := passed_le key rows cursor
  rw [around, next_eq_getElem? hSorted]
  rcases Nat.lt_or_eq_of_le hLe with hRow | hEnd
  · rw [Nat.mod_eq_of_lt hRow, List.getElem?_eq_getElem hRow, Option.some_or]
  · rw [hEnd, Nat.mod_self, List.getElem?_eq_none le_rfl, Option.none_or, List.head?_eq_getElem?]

/- Going on with the first row takes the rows in a circle. -/
theorem around_rotate
    (move : Int → Int)
    (hMove :
      ∀ cursor row,
        around key rows cursor = some row → move cursor = key row)
    (cursor : Int) :
    ((List.range rows.length).map fun i => around key rows
       (move^[i] cursor)) =
      (rows.map some).rotate
        (passed key rows cursor % rows.length) := by
  rcases Nat.eq_zero_or_pos rows.length with hNone | hSome
  · obtain rfl := List.length_eq_zero_iff.mp hNone
    rfl
  have hPlace (cursor : Int) := List.getElem?_eq_getElem (Nat.mod_lt (passed key rows cursor) hSome)
  have hLength : rows.length = (rows.map some).length := by simp
  conv_lhs => rw [hLength]
  refine taken_eq_rotate (fun cursor => passed key rows cursor % rows.length) ?_ ?_ cursor
  · intro cursor
    rw [around_eq_getElem? hSorted, List.getElem?_map, hPlace cursor]
    rfl
  · intro cursor
    have hRow := around_eq_getElem? hSorted cursor
    rw [hPlace cursor] at hRow
    rw [hMove cursor _ hRow, ← hLength, passed_of_getElem? hSorted (hPlace cursor)]

end Sorted

----
-- Turns along a Run
----

/-
  What is seen before the steps that count, if each of them turns it and the other steps leave it
  alone.
-/
theorem views_of_trace
    {σ ι ω κ : Type}
    {M : Machine σ ι ω}
    {I : σ → Prop}
    (view : σ → κ)
    (turn : κ → κ)
    (counts : ι → Bool)
    {inputs : List ι}
    (hMove :
      ∀ s,
        ∀ input ∈ inputs,
          I s →
          I (M.move s input) ∧
          view (M.move s input) =
            if counts input then turn (view s) else view s)
    {s : σ}
    (hStart : I s) :
    ((M.trace s inputs).filter fun step => counts step.input).map
      (fun step => view step.before) =
      (List.range (inputs.countP counts)).map
        fun i => turn^[i] (view s) := by
  induction inputs generalizing s with
  | nil => rfl
  | cons input _ ih =>
    rcases hMove s input List.mem_cons_self hStart with ⟨hKept, hView⟩
    have hRest := ih (fun s other hOther => hMove s other (List.mem_cons_of_mem _ hOther)) hKept
    rw [hView] at hRest
    cases hCounts : counts input with
    | true =>
      rw [hCounts, if_pos rfl] at hRest
      simp only [Machine.trace_cons, List.filter_cons, Machine.step_input, hCounts, if_true,
          List.map_cons, Machine.step_before, List.countP_cons, hRest, List.range_succ_eq_map]
      simp [Function.comp_def]
    | false =>
      rw [hCounts] at hRest
      simpa [List.filter_cons, hCounts] using hRest

end Cursor
