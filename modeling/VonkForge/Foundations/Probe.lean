import Mathlib.Logic.Function.Basic

/-
  Asking one at a time until a first answer is accepted.

  A party may ask under a lock, or without it once an answer was accepted. The answer to a party
  with the lock is settled before the lock is free: an accepted answer is remembered, and a refused
  one raises a flag after which nobody asks.

  Main declarations:
    * `State`
    * `Move`
    * `Locked.move`
    * `Known.move`
-/

----
-- The Protocol
----

namespace Probe

/- Where a party stands. A settled answer has raised its flag. -/
inductive Place where
  | idle
  | asking (locked : Bool)
  | settling (settled accepted : Bool)
deriving DecidableEq

/- The places of a party that has the lock. -/
def Place.holds : Place → Bool
  | .idle => false
  | .asking locked => locked
  | .settling _ _ => true

def Place.asks : Place → Bool
  | .asking _ => true
  | _ => false

structure State (ι : Type) where
  place : ι → Place
  lock : Option ι
  proven : Bool
  halted : Bool

variable {ι : Type} [DecidableEq ι]

def State.put (state : State ι) (i : ι) (place : Place) : State ι :=
  { state with place := Function.update state.place i place }

/- One move, with whether it asks and the verdict on an answer that it brings. -/
inductive Move (state : State ι) : Bool → Option Bool → State ι → Prop where
  | other
      (halted : Bool)
      (hUp : state.halted = true → halted = true) :
      Move state false none { state with halted := halted }
  | probe
      (i : ι)
      (hFree : state.lock = none)
      (hGoes : state.halted = false)
      (hIdle : state.place i = .idle) :
      Move state true none { state.put i (.asking true) with lock := some i }
  | request
      (i : ι)
      (hProven : state.proven = true)
      (hIdle : state.place i = .idle) :
      Move state true none (state.put i (.asking false))
  | answer
      (i : ι)
      (accepted : Bool)
      (hAsking : state.place i = .asking true) :
      Move state false (some accepted) (state.put i (.settling false accepted))
  | hear
      (i : ι)
      (accepted : Bool)
      (hAsking : state.place i = .asking false) :
      Move state false (some accepted) (state.put i .idle)
  | settle
      (i : ι)
      (accepted : Bool)
      (hSettling : state.place i = .settling false accepted) :
      Move state false none
        { state.put i (.settling true accepted) with
          proven := state.proven || accepted
          halted := state.halted || !accepted }
  | release
      (i : ι)
      (accepted : Bool)
      (hSettled : state.place i = .settling true accepted) :
      Move state false none { state.put i .idle with lock := none }

----
-- The Lock
----

/- The lock is with the one party that stands at it. -/
def Locked (state : State ι) : Prop :=
  ∀ i, state.lock = some i ↔ (state.place i).holds = true

variable {state next : State ι} {i : ι} {place : Place}

omit [DecidableEq ι] in
theorem Locked.unique
    (hLocked : Locked state)
    {i j : ι}
    (hFirst : (state.place i).holds = true)
    (hSecond : (state.place j).holds = true) :
    i = j :=
  Option.some.inj (((hLocked i).mpr hFirst).symm.trans ((hLocked j).mpr hSecond))

theorem put_self : (state.put i place).place i = place := Function.update_self _ _ _

theorem put_of_ne {j : ι} (hOther : j ≠ i) : (state.put i place).place j = state.place j :=
  Function.update_of_ne hOther _ _

/- A party that keeps or never had the lock. -/
theorem Locked.put
    (hLocked : Locked state)
    (hHolds : place.holds = (state.place i).holds) :
    Locked (state.put i place) := by
  intro j
  by_cases hSame : j = i
  · subst hSame
    rw [put_self, hHolds]
    exact hLocked j
  · rw [put_of_ne hSame]
    exact hLocked j

/- The lock is kept by every move. -/
theorem Locked.move
    {asks : Bool}
    {verdict : Option Bool}
    (hLocked : Locked state)
    (hMove : Move state asks verdict next) :
    Locked next := by
  cases hMove with
  | other => exact hLocked
  | probe i hFree =>
    intro j
    by_cases hSame : j = i
    · subst hSame
      simp [put_self, Place.holds]
    · -- Nobody else stands at a lock that is free.
      have hNobody := hLocked j
      rw [hFree] at hNobody
      simpa [put_of_ne hSame, Ne.symm hSame] using hNobody
  | request i _ hIdle =>
    apply hLocked.put
    rw [hIdle]
    rfl
  | answer i accepted hAsking | hear i accepted hAsking =>
    apply hLocked.put
    rw [hAsking]
    rfl
  | settle i accepted hSettling =>
    have hKept : Locked (state.put i (.settling true accepted)) := by
      apply hLocked.put
      rw [hSettling]
      rfl
    exact hKept
  | release i accepted hSettled =>
    have hMine : (state.place i).holds = true := by
      rw [hSettled]
      rfl
    intro j
    by_cases hSame : j = i
    · subst hSame
      simp [put_self, Place.holds]
    · have hNot : (state.place j).holds = false := by
        rw [Bool.eq_false_iff]
        exact fun hTheirs => hSame (hLocked.unique hTheirs hMine)
      simp [put_of_ne hSame, hNot]

----
-- A Refused Probe
----

/- Nothing was answered: only a party with the lock is asking. -/
structure Unanswered (state : State ι) : Prop where
  unproven : state.proven = false
  places : ∀ i, state.place i = .idle ∨ state.place i = .asking true

/- The first answer was refused: nobody asks, and the flag is raised before the lock is free. -/
structure Refused (state : State ι) : Prop where
  unproven : state.proven = false
  places : ∀ i, state.place i = .idle ∨ ∃ settled, state.place i = .settling settled false
  halts : state.halted = true ∨ ∃ i, state.place i = .settling false false

/- What is known after some moves, by how often they asked and the first verdict. -/
structure Known (asked : Nat) (first : Option Bool) (state : State ι) : Prop where
  locked : Locked state
  unanswered : first = none → Unanswered state ∧ asked = state.lock.isSome.toNat
  refused : first = some false → Refused state ∧ asked = 1

theorem Unanswered.put
    (hUnanswered : Unanswered state)
    (hPlace : place = .idle ∨ place = .asking true) :
    Unanswered (state.put i place) where
  unproven := hUnanswered.unproven
  places := by
    intro j
    by_cases hSame : j = i
    · subst hSame
      rw [put_self]
      exact hPlace
    · rw [put_of_ne hSame]
      exact hUnanswered.places j

/- The places of a refused call when one party moves. -/
theorem Refused.put
    (hRefused : Refused state)
    (hPlace : place = .idle ∨ ∃ settled, place = .settling settled false)
    (j : ι) :
    (state.put i place).place j = .idle ∨
      ∃ settled, (state.put i place).place j = .settling settled false := by
  by_cases hSame : j = i
  · subst hSame
    rw [put_self]
    exact hPlace
  · rw [put_of_ne hSame]
    exact hRefused.places j

omit [DecidableEq ι] in
/- While the flag is not raised, the lock is taken. -/
theorem Refused.taken
    (hRefused : Refused state)
    (hLocked : Locked state)
    (hGoes : state.halted = false) :
    state.lock ≠ none := by
  rcases hRefused.halts with hHalted | ⟨i, hSettling⟩
  · rw [hGoes] at hHalted
    cases hHalted
  · have hMine := (hLocked i).mpr (by rw [hSettling]; rfl)
    rw [hMine]
    exact Option.some_ne_none i

omit [DecidableEq ι] in
/- A party that settles an answer to a refused call settles a refusal. -/
theorem Refused.accepted_eq
    (hRefused : Refused state)
    {settled accepted : Bool}
    (hSettling : state.place i = .settling settled accepted) :
    accepted = false := by
  rcases hRefused.places i with hIdle | ⟨_, hRefusal⟩
  · rw [hSettling] at hIdle
    cases hIdle
  · rw [hSettling] at hRefusal
    cases hRefusal
    rfl

/- The first answer, if it is refused. -/
theorem Unanswered.refused
    (hUnanswered : Unanswered state)
    (hLocked : Locked state)
    (hAsking : state.place i = .asking true) :
    Refused (state.put i (.settling false false)) where
  unproven := hUnanswered.unproven
  places := by
    intro j
    by_cases hSame : j = i
    · subst hSame
      exact Or.inr ⟨false, put_self⟩
    · rw [put_of_ne hSame]
      rcases hUnanswered.places j with hIdle | hOther
      · exact Or.inl hIdle
      · have hBoth : j = i :=
          hLocked.unique (by rw [hOther]; rfl) (by rw [hAsking]; rfl)
        exact absurd hBoth hSame
  halts := Or.inr ⟨i, put_self⟩

/- Nothing was answered yet. -/
theorem Unanswered.move
    {asked : Nat}
    {asks : Bool}
    (hUnanswered : Unanswered state)
    (hAsked : asked = state.lock.isSome.toNat)
    (hMove : Move state asks none next) :
    Unanswered next ∧ asked + asks.toNat = next.lock.isSome.toNat := by
  have hSettling : ∀ {i settled accepted}, state.place i ≠ .settling settled accepted := by
    intro i _ _ hSettling
    rcases hUnanswered.places i with hIdle | hAsking <;> simp_all
  cases hMove with
  | other => exact ⟨⟨hUnanswered.unproven, hUnanswered.places⟩, hAsked⟩
  | probe i hFree =>
    have hNext : Unanswered (state.put i (.asking true)) := hUnanswered.put (Or.inr rfl)
    rw [hFree] at hAsked
    exact ⟨⟨hNext.unproven, hNext.places⟩, by rw [hAsked]; rfl⟩
  | request i hProven =>
    rw [hUnanswered.unproven] at hProven
    cases hProven
  | settle i accepted hHere | release i accepted hHere => exact absurd hHere hSettling

/- A refused call asks for nothing more. -/
theorem Refused.move
    {asks : Bool}
    {verdict : Option Bool}
    (hLocked : Locked state)
    (hRefused : Refused state)
    (hMove : Move state asks verdict next) :
    Refused next ∧ asks = false := by
  have hAsking : ∀ {i locked}, state.place i ≠ .asking locked := by
    intro i _ hAsking
    rcases hRefused.places i with hIdle | ⟨_, hSettling⟩ <;> simp_all
  cases hMove with
  | other halted hUp =>
    exact ⟨⟨hRefused.unproven, hRefused.places, hRefused.halts.imp_left hUp⟩, rfl⟩
  | probe i hFree hGoes => exact absurd hFree (hRefused.taken hLocked hGoes)
  | request i hProven =>
    rw [hRefused.unproven] at hProven
    cases hProven
  | answer i accepted hHere | hear i accepted hHere => exact absurd hHere hAsking
  | settle i accepted hHere =>
    obtain rfl := hRefused.accepted_eq hHere
    refine ⟨⟨?_, hRefused.put (Or.inr ⟨true, rfl⟩), Or.inl (Bool.or_true _)⟩, rfl⟩
    dsimp only
    rw [hRefused.unproven]
    rfl
  | release i accepted hHere =>
    refine ⟨⟨hRefused.unproven, hRefused.put (Or.inl rfl), Or.inl ?_⟩, rfl⟩
    rcases hRefused.halts with hHalted | ⟨j, hOpen⟩
    · exact hHalted
    · -- The party that releases the lock is the one that settled its answer.
      have hSame : j = i := hLocked.unique (by rw [hOpen]; rfl) (by rw [hHere]; rfl)
      rw [hSame, hHere] at hOpen
      cases hOpen

/- So is what is known of the verdict. -/
theorem Known.move
    {asked : Nat}
    {first verdict : Option Bool}
    {asks : Bool}
    (hKnown : Known asked first state)
    (hMove : Move state asks verdict next) :
    Known (asked + asks.toNat) (first.or verdict) next where
  locked := hKnown.locked.move hMove
  unanswered := by
    intro hNone
    rcases Option.or_eq_none_iff.mp hNone with ⟨hFirst, rfl⟩
    rcases hKnown.unanswered hFirst with ⟨hUnanswered, hAsked⟩
    exact hUnanswered.move hAsked hMove
  refused := by
    intro hRefused
    rcases Option.or_eq_some_iff.mp hRefused with hFirst | ⟨hFirst, rfl⟩
    · rcases hKnown.refused hFirst with ⟨hBefore, hAsked⟩
      rcases hBefore.move hKnown.locked hMove with ⟨hAfter, rfl⟩
      exact ⟨hAfter, hAsked⟩
    · rcases hKnown.unanswered hFirst with ⟨hUnanswered, hAsked⟩
      cases hMove with
      | answer i _ hAsking =>
        have hMine : state.lock = some i := (hKnown.locked i).mpr (by rw [hAsking]; rfl)
        rw [hMine] at hAsked
        exact ⟨hUnanswered.refused hKnown.locked hAsking, hAsked⟩
      | hear i _ hAsking =>
        rcases hUnanswered.places i with hIdle | hLocked <;> simp_all

end Probe
