import VonkForge.Foundations.Run

/-
  Epochs that may be left only after a grant.

  A machine numbers its epochs. A step that opens an epoch leaves the machine guarded, and a guarded
  machine stays guarded until some step grants. A step that needs a grant is impossible in a guarded
  state, so every such step has a grant between the opening of its epoch and itself.

  Main declarations:
    * `Opened`
    * `GrantedSince`
    * `grantedSince_of_needs`
-/

----
-- Openings and Grants in a Past
----

namespace Machine

variable {σ α ω : Type} (opens : Nat → Step σ α ω → Prop)

/- Some step of the past opened epoch `n`. -/
def Opened (n : Nat) (past : List (Step σ α ω)) : Prop :=
  ∃ (i : Nat) (opening : Step σ α ω), past[i]? = some opening ∧ opens n opening

/- Some step of the past opened epoch `n`, and a later step of the past granted. -/
def GrantedSince (grants : Step σ α ω → Prop) (n : Nat) (past : List (Step σ α ω)) : Prop :=
  ∃ (i j : Nat) (opening granting : Step σ α ω),
    i < j ∧ past[i]? = some opening ∧ opens n opening ∧ past[j]? = some granting ∧ grants granting

variable {opens : Nat → Step σ α ω → Prop} {grants : Step σ α ω → Prop} {n : Nat}
variable {past : List (Step σ α ω)} {step : Step σ α ω}

/- A longer past keeps the positions of a shorter one. -/
private theorem getElem?_append_of_some {i : Nat} (hGet : past[i]? = some step)
    (later : List (Step σ α ω)) : (past ++ later)[i]? = some step := by
  have hBound : i < past.length := (List.getElem?_eq_some_iff.mp hGet).1
  rw [List.getElem?_append_left hBound]
  exact hGet

theorem opened_append_last (hOpens : opens n step) :
    Opened opens n (past ++ [step]) :=
  ⟨past.length, step, by simp, hOpens⟩

/- A longer past keeps the openings of a shorter one. -/
theorem Opened.append (hOpened : Opened opens n past) (later : List (Step σ α ω)) :
    Opened opens n (past ++ later) := by
  rcases hOpened with ⟨i, opening, hGet, hOpens⟩
  exact ⟨i, opening, getElem?_append_of_some hGet later, hOpens⟩

/- A longer past keeps the grants of a shorter one. -/
theorem GrantedSince.append (hGranted : GrantedSince opens grants n past)
    (later : List (Step σ α ω)) : GrantedSince opens grants n (past ++ later) := by
  rcases hGranted with ⟨i, j, opening, granting, hLt, hOpen, hOpens, hGrant, hGrants⟩
  exact ⟨i, j, opening, granting, hLt, getElem?_append_of_some hOpen later, hOpens,
    getElem?_append_of_some hGrant later, hGrants⟩

/- A grant made after the opening is a grant since it. -/
theorem Opened.grant (hOpened : Opened opens n past) (hGrants : grants step) :
    GrantedSince opens grants n (past ++ [step]) := by
  rcases hOpened with ⟨i, opening, hGet, hOpens⟩
  have hBound : i < past.length := (List.getElem?_eq_some_iff.mp hGet).1
  exact ⟨i, past.length, opening, step, hBound, getElem?_append_of_some hGet [step], hOpens,
    by simp, hGrants⟩

/- A grant in the first `k` steps is one before step `k`. -/
theorem GrantedSince.positions {steps : List (Step σ α ω)} {k : Nat}
    (hGranted : GrantedSince opens grants n (steps.take k)) :
    ∃ (i j : Nat) (opening granting : Step σ α ω), i < j ∧ j < k ∧ steps[i]? = some opening ∧
    opens n opening ∧ steps[j]? = some granting ∧ grants granting := by
  rcases hGranted with ⟨i, j, opening, granting, hLt, hOpen, hOpens, hGrant, hGrants⟩
  have hPlace : ∀ (p : Nat) (step : Step σ α ω), (steps.take k)[p]? = some step → p < k ∧
      steps[p]? = some step := by
    intro p step hGet
    rw [List.getElem?_take] at hGet
    split at hGet
    · next hBound => exact ⟨hBound, hGet⟩
    · cases hGet
  exact ⟨i, j, opening, granting, hLt, (hPlace j granting hGrant).1,
    (hPlace i opening hOpen).2, hOpens, (hPlace j granting hGrant).2, hGrants⟩

----
-- The Grant Rule
----

variable (M : Machine σ α ω)

/-
  What the past of a run says about its current epoch: it was opened, and unless the state is
  guarded a step since then granted.
-/
def EpochHistory (epoch : σ → Nat) (guard : σ → Prop) (opens : Nat → Step σ α ω → Prop)
    (grants : Step σ α ω → Prop) (past : List (Step σ α ω)) (s : σ) : Prop :=
  1 ≤ epoch s → Opened opens (epoch s) past ∧ (guard s ∨ GrantedSince opens grants (epoch s) past)

/- A step that needs a grant is preceded, since the opening of its epoch, by a step that grants. -/
theorem grantedSince_of_needs
    (I guard : σ → Prop)
    (epoch : σ → Nat)
    {needs : Step σ α ω → Prop}
    (hInvariant : ∀ s a, I s → I (M.move s a))
    (hOpens :
      ∀ s a,
        I s →
        epoch (M.move s a) ≠ epoch s →
        opens (epoch (M.move s a)) (M.step s a) ∧ guard (M.move s a))
    (hGuarded :
      ∀ s a,
        I s →
        epoch (M.move s a) = epoch s →
        1 ≤ epoch s →
        guard s →
        ¬ grants (M.step s a) →
        guard (M.move s a))
    (hNeeds : ∀ s a, I s → 1 ≤ epoch s → guard s → ¬ needs (M.step s a))
    {s : σ}
    (hI : I s)
    (hFresh : epoch s = 0)
    {inputs : List α}
    {k : Nat}
    (hStep : (M.trace s inputs)[k]? = some step)
    (hEpoch : 1 ≤ epoch step.before)
    (hNeed : needs step) :
    GrantedSince opens grants (epoch step.before)
      ((M.trace s inputs).take k) := by
  have hHistory : I (M.final s (inputs.take k)) ∧
      EpochHistory epoch guard opens grants (M.trace s (inputs.take k))
      (M.final s (inputs.take k)) := by
    apply M.history (H := fun past t => I t ∧ EpochHistory epoch guard opens grants past t)
    · exact ⟨hI, fun hPositive => by omega⟩
    · rintro _ t a ⟨hIt, hPast⟩
      refine ⟨hInvariant t a hIt, fun hPositive => ?_⟩
      by_cases hSame : epoch (M.move t a) = epoch t
      · rw [hSame] at hPositive ⊢
        rcases hPast hPositive with ⟨hOpened, hCase⟩
        refine ⟨hOpened.append _, ?_⟩
        by_cases hGrant : grants (M.step t a)
        · exact Or.inr (hOpened.grant hGrant)
        · rcases hCase with hGuard | hGranted
          · exact Or.inl (hGuarded t a hIt hSame hPositive hGuard hGrant)
          · exact Or.inr (hGranted.append _)
      · rcases hOpens t a hIt hSame with ⟨hOpening, hGuard⟩
        exact ⟨opened_append_last hOpening, Or.inl hGuard⟩
  rcases M.exists_of_getElem?_trace hStep with ⟨a, _, rfl⟩
  rw [M.take_trace]
  rcases hHistory.2 hEpoch with ⟨_, hGuard | hGranted⟩
  · exact absurd hNeed (hNeeds _ a hHistory.1 hEpoch hGuard)
  · exact hGranted

end Machine
