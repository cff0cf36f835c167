import Mathlib

/-
  Postconditions of fallible computations.

  A computation that fails has no result, and a caller that drops what it was doing keeps the state
  it had. `Returns` therefore speaks about results only, and its rules follow the way such
  computations are written: a check, a missing value, a step after another.

  Main declarations:
    * `require`
    * `Returns.bind`
    * `Returns.foldlM`
    * `forall₂_of_mapM`
-/

----
-- Checks
----

namespace Fallible

variable {ε α β : Type}

/- Fail unless a condition holds. -/
def require (condition : Bool) (failure : ε) : Except ε Unit :=
  if condition then .ok () else .error failure

/- Fail when a value is missing. -/
def orFail (value : Option α) (failure : ε) : Except ε α :=
  match value with
  | some a => .ok a
  | none => .error failure

----
-- Postconditions
----

/- Whatever the computation returns satisfies `Q`. -/
def Returns (Q : α → Prop) (x : Except ε α) : Prop := ∀ a, x = .ok a → Q a

variable {Q : β → Prop}

theorem Returns.ok {b : β} (hResult : Q b) : Returns Q (.ok b : Except ε β) := by
  intro _ hSame
  obtain rfl := Except.ok.inj hSame
  exact hResult

theorem Returns.error (failure : ε) : Returns Q (.error failure : Except ε β) := by
  intro _ hSame
  cases hSame

variable {f : α → Except ε β}

/- A step continues only from what the step before gave. -/
theorem Returns.bind {x : Except ε α}
    (hNext : ∀ a, x = .ok a → Returns Q (f a)) : Returns Q (x >>= f) := by
  cases x with
  | error failure => exact Returns.error failure
  | ok a => exact hNext a rfl

variable {failure : ε}

theorem require_eq_ok {condition : Bool} {u : Unit}
    (hOk : require condition failure = .ok u) : condition := by
  unfold require at hOk
  cases condition with
  | true => rfl
  | false => cases hOk

theorem orFail_eq_ok {value : Option α} {a : α} (hOk : orFail value failure = .ok a) :
    value = some a := by
  cases value with
  | none => cases hOk
  | some => rw [Except.ok.inj hOk]

/- What holds past a check, whether or not it is needed. -/
theorem Returns.require {condition : Bool} {f : Unit → Except ε β}
    (hNext : condition → Returns Q (f ())) :
    Returns Q (Fallible.require condition failure >>= f) :=
  Returns.bind fun _ hOk => hNext (require_eq_ok hOk)

theorem Returns.orFail {value : Option α}
    (hNext : ∀ a, value = some a → Returns Q (f a)) :
    Returns Q (Fallible.orFail value failure >>= f) :=
  Returns.bind fun a hOk => hNext a (orFail_eq_ok hOk)

/- A loop whose steps keep `Q` keeps it as a whole. -/
theorem Returns.foldlM
    {f : β → α → Except ε β}
    {items : List α}
    (hStep : ∀ b, ∀ a ∈ items, Q b → Returns Q (f b a))
    (b : β)
    (hStart : Q b) :
    Returns Q (items.foldlM f b) := by
  induction items generalizing b with
  | nil => exact Returns.ok hStart
  | cons a items ih =>
    rw [List.foldlM_cons]
    apply Returns.bind
    intro next hNext
    apply ih
    · intro c item hMem
      exact hStep c item (List.mem_cons_of_mem _ hMem)
    · exact hStep b a List.mem_cons_self hStart next hNext

/- A list is computed item by item. -/
theorem forall₂_of_mapM
    {items : List α}
    {found : List β}
    (hFound : items.mapM f = .ok found) :
    List.Forall₂
      (fun item result => f item = .ok result) items found := by
  revert found
  change Returns _ _
  induction items with
  | nil =>
    rw [List.mapM_nil]
    exact Returns.ok List.Forall₂.nil
  | cons item items ih =>
    rw [List.mapM_cons]
    refine Returns.bind fun _ hFirst => Returns.bind fun _ hRest => Returns.ok ?_
    exact List.Forall₂.cons hFirst (ih _ hRest)

theorem exists_of_mem_forall₂
    {R : α → β → Prop}
    {items : List α}
    {found : List β}
    (hFound : List.Forall₂ R items found)
    {result : β}
    (hMem : result ∈ found) :
    ∃ item ∈ items, R item result := by
  induction hFound with
  | nil => cases hMem
  | cons hFirst _ ih =>
    rcases List.mem_cons.mp hMem with rfl | hRest
    · exact ⟨_, List.mem_cons_self, hFirst⟩
    · rcases ih hRest with ⟨item, hItem, hResult⟩
      exact ⟨item, List.mem_cons_of_mem _ hItem, hResult⟩

end Fallible
