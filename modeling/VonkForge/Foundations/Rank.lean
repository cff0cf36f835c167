import VonkForge.Foundations.Run

/-
  Machines that run out of moves.

  If every input leaves the state as it is or lowers its rank in a well-founded order, then a
  schedule that keeps changing the state until it is done is done after finitely many inputs.

  Main declarations:
    * `along`
    * `rank_along`
    * `done_of_rank`
-/

namespace Machine

variable {σ α ω : Type} (M : Machine σ α ω)

/- The state after the first inputs of a schedule. -/
def along (s : σ) (schedule : Nat → α) : Nat → σ
  | 0 => s
  | n + 1 => M.move (along s schedule n) (schedule n)

variable {M} {β : Type} [Preorder β] {I : σ → Prop}

/- What an input keeps holds all along a schedule. -/
theorem along_invariant (hKeeps : ∀ s a, I s → I (M.move s a)) {s : σ} (hStart : I s)
    (schedule : Nat → α) (n : Nat) : I (M.along s schedule n) := by
  induction n with
  | zero => exact hStart
  | succ n ih => exact hKeeps _ _ ih

/- Later states are the same or have a lower rank. -/
theorem rank_along
    (hKeeps : ∀ s a, I s → I (M.move s a))
    (rank : σ → β)
    (hLowers : ∀ s a, I s → M.move s a = s ∨ rank (M.move s a) < rank s)
    {s : σ}
    (hStart : I s)
    (schedule : Nat → α)
    (n extra : Nat) :
    M.along s schedule (n + extra) = M.along s schedule n ∨
    rank (M.along s schedule (n + extra)) <
      rank (M.along s schedule n) := by
  induction extra with
  | zero => exact Or.inl rfl
  | succ extra ih =>
    have hHere := along_invariant hKeeps hStart schedule (n + extra)
    have hStep := hLowers _ (schedule (n + extra)) hHere
    change M.move (M.along s schedule (n + extra)) (schedule (n + extra)) = _ ∨
      rank (M.move (M.along s schedule (n + extra)) (schedule (n + extra))) < _
    rcases hStep with hSame | hLower
    · rw [hSame]
      exact ih
    · rcases ih with hEqual | hBelow
      · rw [hEqual] at hLower ⊢
        exact Or.inr hLower
      · exact Or.inr (lt_trans hLower hBelow)

/- A schedule that does not idle before it is done is done. -/
theorem done_of_rank
    [WellFoundedLT β]
    (hKeeps : ∀ s a, I s → I (M.move s a))
    (rank : σ → β)
    (hLowers : ∀ s a, I s → M.move s a = s ∨ rank (M.move s a) < rank s)
    {s : σ}
    (hStart : I s)
    (schedule : Nat → α)
    (done : σ → Prop)
    (hBusy :
      ∀ n,
        ∃ m,
          n ≤ m ∧
          (done (M.along s schedule m) ∨
           M.along s schedule (m + 1) ≠ M.along s schedule m)) :
    ∃ n, done (M.along s schedule n) := by
  by_contra hNever
  rw [not_exists] at hNever
  -- From every moment the rank falls at a later one.
  have hFalls : ∀ value n, rank (M.along s schedule n) = value → False := by
    intro value
    induction value using WellFoundedLT.induction with
    | ind _ ih =>
      intro n hRank
      rcases hBusy n with ⟨m, hLe, hDone | hMoves⟩
      · exact hNever m hDone
      · have hHere := along_invariant hKeeps hStart schedule m
        have hLower : rank (M.along s schedule (m + 1)) < rank (M.along s schedule m) :=
          (hLowers _ (schedule m) hHere).resolve_left hMoves
        have hSoFar := rank_along hKeeps rank hLowers hStart schedule n (m - n)
        rw [Nat.add_sub_cancel' hLe] at hSoFar
        apply ih _ _ (m + 1) rfl
        rw [← hRank]
        rcases hSoFar with hSame | hBelow
        · rw [← hSame]
          exact hLower
        · exact lt_trans hLower hBelow
  exact hFalls _ 0 rfl

end Machine
