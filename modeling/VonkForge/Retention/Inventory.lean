import VonkForge.Foundations.Rotation

/-
  The pages of an inventory (`rotating_page` of the agent).

  An inventory that is over the limit of the wire is reported in pages. A page begins after the last
  name of the page before, which a file remembers, and goes on with the first names.

  Main declarations:
    * `rotatingPage`
    * `calls`
    * `returned_in_time`
    * `rotation_is_fair`
-/

----
-- One Page
----

namespace VonkForge.Inventory

open Rotation

variable {α : Type} [LinearOrder α]

/- What a call returns, and the cursor file after it. -/
structure Paged (α : Type) where
  page : Option (List α)
  cursor : Option α

/- A cursor file that cannot be read is absent; `saves` is whether it can be written. -/
def rotatingPage (cursor : Option α) (names : Finset α) (limit : Nat) (saves : Bool) : Paged α :=
  let page := (rotated cursor names).take limit
  match page.getLast? with
  | none => ⟨some page, cursor⟩
  | some last => if saves then ⟨some page, some last⟩ else ⟨none, cursor⟩

/- The pages of successful calls, each with the names that there are. -/
def calls (limit : Nat) : Option α → List (Finset α) → List (Option (List α))
  | _, [] => []
  | cursor, names :: later =>
    let paged := rotatingPage cursor names limit true
    paged.page :: calls limit paged.cursor later

variable {limit : Nat} {cursor : Option α} {names : Finset α} {name : α}

theorem page_rotatingPage (cursor : Option α) (names : Finset α) (limit : Nat) :
    (rotatingPage cursor names limit true).page = some ((rotated cursor names).take limit) := by
  simp only [rotatingPage, if_true]
  split <;> rfl

----
-- Every Page
----

/- A name that is not on a page comes nearer by the page. -/
theorem ahead_rotatingPage (hLimit : 1 ≤ limit) (hName : name ∈ names)
    (hAway : name ∉ (rotated cursor names).take limit) :
    ahead (rotatingPage cursor names limit true).cursor names name + limit ≤
    ahead cursor names name := by
  have hRotated := (List.take_append_drop limit (rotated cursor names)).symm
  have hMem : name ∈ rotated cursor names := mem_rotated.mpr hName
  have hLength : ((rotated cursor names).take limit).length = limit := by
    refine List.length_take_of_le (Nat.le_of_not_lt fun hShort => hAway ?_)
    rwa [List.take_of_length_le hShort.le]
  cases hLast : ((rotated cursor names).take limit).getLast? with
  | none =>
    rw [List.getLast?_eq_none_iff.mp hLast, List.length_nil] at hLength
    omega
  | some =>
    have hNext := ahead_next hRotated hLast hName hAway
    simp only [rotatingPage, hLast, if_true]
    omega

/- A name that stays is returned before the calls are over. -/
theorem returned_in_time
    (hLimit : 1 ≤ limit)
    {later : List (Finset α)}
    (hRemoved : (names :: later).IsChain (· ⊇ ·))
    (hName : ∀ present ∈ names :: later, name ∈ present)
    (hCalls : ahead cursor names name < (later.length + 1) * limit) :
    ∃ page,
      some page ∈ calls limit cursor (names :: later) ∧
      name ∈ page := by
  induction later generalizing cursor names with
  | nil =>
    by_cases hPage : name ∈ (rotated cursor names).take limit
    · exact ⟨_, List.mem_cons.mpr (Or.inl (page_rotatingPage cursor names limit).symm), hPage⟩
    · have hNearer := ahead_rotatingPage hLimit (hName names List.mem_cons_self) hPage
      simp only [List.length_nil] at hCalls
      omega
  | cons fewer later ih =>
    by_cases hPage : name ∈ (rotated cursor names).take limit
    · exact ⟨_, List.mem_cons.mpr (Or.inl (page_rotatingPage cursor names limit).symm), hPage⟩
    · have hNearer := ahead_rotatingPage hLimit (hName names List.mem_cons_self) hPage
      have hChain := List.isChain_cons_cons.mp hRemoved
      have hLater : ∀ present ∈ fewer :: later, name ∈ present :=
        fun other hOther => hName other (List.mem_cons_of_mem names hOther)
      have hFewer : ahead (rotatingPage cursor names limit true).cursor fewer name ≤
        ahead (rotatingPage cursor names limit true).cursor names name :=
        ahead_le_of_subset hChain.1 (hLater fewer List.mem_cons_self)
      simp only [List.length_cons] at hCalls
      rcases ih hChain.2 hLater (by nlinarith) with ⟨page, hMem, hHere⟩
      exact ⟨page, List.mem_cons_of_mem _ hMem, hHere⟩

/-
  A page has no name twice and is as long as it may be. Over a set that stays, or only loses names,
  every name that stays comes up within one round.
-/
theorem rotation_is_fair (hLimit : 1 ≤ limit) :
    (∀ (cursor : Option α) names,
       ∃ page,
         (rotatingPage cursor names limit true).page = some page ∧
         page.Nodup ∧
         page.length = min names.card limit ∧
         ∀ name ∈ page, name ∈ names) ∧
    (∀ (cursor : Option α) names,
       ∀ name ∈ names,
         ∃ page,
           some page ∈
             calls limit cursor
               (List.replicate (names.card ⌈/⌉ limit) names) ∧
           name ∈ page) ∧
    ∀ (cursor : Option α) names later name,
      (names :: later).IsChain (· ⊇ ·) →
      names.card ⌈/⌉ limit ≤ (names :: later).length →
      (∀ present ∈ names :: later, name ∈ present) →
      ∃ page,
        some page ∈ calls limit cursor (names :: later) ∧
        name ∈ page := by
  have hEnough : ∀ (cursor : Option α) names later name,
      (names :: later).IsChain (· ⊇ ·) →
      names.card ⌈/⌉ limit ≤ (names :: later).length →
      (∀ present ∈ names :: later, name ∈ present) →
      ∃ page, some page ∈ calls limit cursor (names :: later) ∧ name ∈ page := by
    intro cursor names later name hRemoved hCount hName
    have hCard : names.card ≤ limit * (later.length + 1) := (ceilDiv_le_iff_le_mul hLimit).mp hCount
    have hAhead : ahead cursor names name < names.card := ahead_lt (hName names List.mem_cons_self)
    exact returned_in_time hLimit hRemoved hName (by rw [Nat.mul_comm]; omega)
  refine ⟨?_, ?_, hEnough⟩
  · intro cursor names
    refine ⟨_, page_rotatingPage cursor names limit, (rotated_nodup cursor names).sublist
      (List.take_sublist _ _), ?_, fun name hName => mem_rotated.mp (List.mem_of_mem_take hName)⟩
    rw [List.length_take, length_rotated, Nat.min_comm]
  · intro cursor names name hName
    cases hCount : names.card ⌈/⌉ limit with
    | zero =>
      have hNone := (ceilDiv_le_iff_le_mul hLimit).mp hCount.le
      have hSome := Finset.card_pos.mpr ⟨name, hName⟩
      omega
    | succ count =>
      refine hEnough cursor names (List.replicate count names) name ?_ (by simp [hCount]) ?_
      · rw [← List.replicate_succ]
        exact List.isChain_replicate_of_rel _ (Finset.Subset.refl names)
      · intro _ hOther
        rw [← List.replicate_succ] at hOther
        rwa [List.eq_of_mem_replicate hOther]

/- Three names in pages of two; the cursor is at a name that is gone. -/
theorem two_pages_of_three :
    ∃ page,
      some page ∈
        calls 2 (some 5) (List.replicate 2 ({1, 4, 7} : Finset Nat)) ∧
      4 ∈ page :=
  (rotation_is_fair (by decide : 1 ≤ 2)).2.1 (some 5) {1, 4, 7} 4 (by decide)

end VonkForge.Inventory
