import VonkForge.Foundations.Run

/-
  Counters that hold something back, and what has happened since a step of some kind.

  A counter falls by at most one, and only at the steps of one kind. What needs the counter to be
  zero is then held back for as many steps of that kind as the counter was set to.

  Main declarations:
    * `between`
    * `hold_le_between`
    * `held_back`
    * `since_last`
-/

namespace Machine

variable {σ α ω : Type}

/- The steps after one step and before another. -/
def between (steps : List (Step σ α ω)) (i j : Nat) : List (Step σ α ω) :=
  (steps.take j).drop (i + 1)

theorem between_succ {steps : List (Step σ α ω)} {i k : Nat} (hLt : i < k)
    {step : Step σ α ω} (hStep : steps[k]? = some step) :
    between steps i (k + 1) = between steps i k ++ [step] := by
  rcases List.getElem?_eq_some_iff.mp hStep with ⟨hBound, hSame⟩
  unfold between
  rw [List.take_succ_eq_append_getElem hBound, hSame, List.drop_append_of_le_length]
  rw [List.length_take]
  omega

theorem between_self (steps : List (Step σ α ω)) (i : Nat) : between steps i (i + 1) = [] := by
  unfold between
  apply List.drop_of_length_le
  rw [List.length_take]
  omega

variable (M : Machine σ α ω) (hold : σ → Nat) (counts : Step σ α ω → Bool)

variable {first later : Step σ α ω}

/- A counter has not fallen by more than the steps between. -/
theorem hold_le_between
    {s : σ}
    {inputs : List α}
    (hFalls :
      ∀ step ∈ M.trace s inputs,
        hold step.before ≤
          hold (M.next step.output) + (if counts step then 1 else 0))
    {i j : Nat}
    (hLt : i < j)
    (hFirst : (M.trace s inputs)[i]? = some first)
    (hLater : (M.trace s inputs)[j]? = some later) :
    hold (M.next first.output) ≤
      hold
        later.before
          + (between (M.trace s inputs) i j).countP counts := by
  induction j generalizing later with
  | zero => omega
  | succ k ih =>
    rcases M.exists_before hLater with ⟨step, hStep, hBefore⟩
    rcases Nat.lt_or_eq_of_le (Nat.le_of_lt_succ hLt) with hEarlier | rfl
    · have hSoFar := ih hEarlier hStep
      have hFall := hFalls step (List.mem_of_getElem? hStep)
      rw [between_succ hEarlier hStep, List.countP_append, List.countP_singleton, hBefore]
      omega
    · rw [between_self, hBefore, Option.some.inj (hStep.symm.trans hFirst)]
      exact Nat.le_add_right _ _

/- What needs the counter at zero is held back. -/
theorem held_back
    (needs : Step σ α ω → Prop)
    {s : σ}
    {inputs : List α}
    (hFalls :
      ∀ step ∈ M.trace s inputs,
        hold step.before ≤
          hold (M.next step.output) + (if counts step then 1 else 0))
    (hNeeds :
      ∀ step ∈ M.trace s inputs, needs step → hold step.before = 0)
    {i j : Nat}
    (hLt : i < j)
    (hFirst : (M.trace s inputs)[i]? = some first)
    (hLater : (M.trace s inputs)[j]? = some later)
    (hFew :
      (between (M.trace s inputs) i j).countP counts <
        hold (M.next first.output)) :
    ¬ needs later := by
  intro hNeed
  have hZero := hNeeds later (List.mem_of_getElem? hLater) hNeed
  have hLeft := M.hold_le_between hold counts hFalls hLt hFirst hLater
  omega

/-
  Induction over the steps since the last one of a kind: what a step of the kind begins and every
  other step continues holds at the end of the run.
-/
theorem since_last
    {W : Option (Step σ α ω) → List (Step σ α ω) → σ → Prop}
    {s : σ}
    (hStart : W none [] s)
    (hBegin :
      ∀ t a,
        counts (M.step t a) = true →
        W (some (M.step t a)) [] (M.move t a))
    (hKeep :
      ∀ last since t a,
        W last since t →
        counts (M.step t a) = false →
        W last (since ++ [M.step t a]) (M.move t a))
    (inputs : List α) :
    ∃ earlier since,
      M.trace s inputs = earlier ++ since ∧
      (∀ step ∈ earlier.getLast?, counts step = true) ∧
      (∀ step ∈ since, counts step = false) ∧
      W earlier.getLast? since (M.final s inputs) := by
  refine M.history (H := fun past t => ∃ earlier since,
      past = earlier ++ since ∧ (∀ step ∈ earlier.getLast?, counts step = true) ∧
      (∀ step ∈ since, counts step = false) ∧ W earlier.getLast? since t)
    ⟨[], [], rfl, by simp, by simp, hStart⟩ ?_ inputs
  rintro _ t a ⟨earlier, since, rfl, hLast, hSince, hHolds⟩
  cases hCounts : counts (M.step t a) with
  | true =>
    refine ⟨earlier ++ since ++ [M.step t a], [], by simp, ?_, by simp, ?_⟩
    · simp [hCounts]
    · rw [List.getLast?_concat]
      exact hBegin t a hCounts
  | false =>
    refine ⟨earlier, since ++ [M.step t a], by simp, hLast, ?_, hKeep _ _ t a hHolds hCounts⟩
    intro step hMem
    rcases List.mem_append.mp hMem with hOld | hNew
    · exact hSince step hOld
    · rw [List.mem_singleton.mp hNew]
      exact hCounts

end Machine
