import VonkForge.Foundations.Run

/-
  Windows over runs: since when a condition has held.

  A window is empty, or remembers the time of the step that opened it. A step whose condition holds
  keeps it open, or opens it; a step may start it over; any other step empties it. A window is open
  since a step exactly if the condition has held at every step from there on.

  Main declarations:
    * `Window`
    * `Window.covers_of_since`
    * `Window.since_of_covers`
    * `Window.open_for_iff`
-/

----
-- Windows
----

namespace Machine

variable {σ α ω : Type} (M : Machine σ α ω) {inputs : List α}

variable {step : Step σ α ω}

theorem before_zero {s : σ} (hStep : (M.trace s inputs)[0]? = some step) : step.before = s := by
  rcases M.exists_of_getElem?_trace hStep with ⟨_, -, rfl⟩
  rfl

/- A step of a trace is the machine's step. -/
theorem next_output {s : σ} {k : Nat}
    (hStep : (M.trace s inputs)[k]? = some step) : step = M.step step.before step.input := by
  rcases M.exists_of_getElem?_trace hStep with ⟨_, -, rfl⟩
  rfl

structure Window (σ α ω : Type) where
  since : σ → Option Nat
  time : Step σ α ω → Nat
  active : Step σ α ω → Bool
  restarts : Step σ α ω → Bool

namespace Window

variable (W : Window σ α ω)

/- The window after a step. -/
def after (step : Step σ α ω) : Option Nat :=
  if W.active step then
    some
      ((if W.restarts step then none
      else W.since step.before).getD (W.time step))
  else none

/- The machine moves the window as its steps say. -/
def Fed (M : Machine σ α ω) : Prop := ∀ s a, W.since (M.move s a) = W.after (M.step s a)

/- The condition holds from one step to another. -/
def Covers (steps : List (Step σ α ω)) (j k : Nat) : Prop := ∀ i step,
    j ≤ i → i ≤ k → steps[i]? = some step → W.active step = true ∧ (j < i → W.restarts step = false)

variable {W} {M : Machine σ α ω} {s : σ} {inputs : List α}

variable {step : Step σ α ω} {k : Nat} {steps : List (Step σ α ω)}

theorem covers_self (hStep : steps[k]? = some step) (hActive : W.active step) :
    W.Covers steps k k := by
  intro i _ hFrom hTo hOther
  have hSame : i = k := Nat.le_antisymm hTo hFrom
  subst hSame
  rw [hStep] at hOther
  cases hOther
  exact ⟨hActive, fun hLt => absurd hLt (Nat.lt_irrefl _)⟩

theorem Covers.succ {j k : Nat} (hCovers : W.Covers steps j k) (hStep : steps[k + 1]? = some step)
    (hActive : W.active step) (hRestarts : W.restarts step = false) :
    W.Covers steps j (k + 1) := by
  intro i other hFrom hTo hOther
  rcases Nat.lt_or_eq_of_le hTo with hEarlier | rfl
  · exact hCovers i other hFrom (Nat.le_of_lt_succ hEarlier) hOther
  · rw [hStep] at hOther
    cases hOther
    exact ⟨hActive, fun _ => hRestarts⟩

theorem Covers.of_le {j k m : Nat} (hCovers : W.Covers steps j k) (hLe : m ≤ k) :
    W.Covers steps j m := by
  intro i step hFrom hTo hStep
  exact hCovers i step hFrom (Nat.le_trans hTo hLe) hStep

/- The window a step leaves, read off the step. -/
theorem since_next (hFed : W.Fed M) (hStep : (M.trace s inputs)[k]? = some step) :
    W.since (M.next step.output) = W.after step := by
  have hSame := M.next_output hStep
  have hMove := hFed step.before step.input
  rw [← hSame] at hMove
  rw [← hMove]
  exact congrArg (fun step : Step σ α ω => W.since (M.next step.output)) hSame

/- An open window was opened by a step, and not left since. -/
theorem covers_of_since
    (hFed : W.Fed M)
    (hStart : W.since s = none)
    (hStep : (M.trace s inputs)[k]? = some step)
    {opened : Nat}
    (hSince : W.since (M.next step.output) = some opened) :
    ∃ (j : Nat) (first : Step σ α ω),
      j ≤ k ∧
      (M.trace s inputs)[j]? = some first ∧
      W.time first = opened ∧
      W.Covers (M.trace s inputs) j k := by
  induction k generalizing step opened with
  | zero =>
    rw [since_next hFed hStep] at hSince
    unfold after at hSince
    split at hSince
    · rename_i hActive
      rw [M.before_zero hStep, hStart] at hSince
      have hTime : W.time step = opened := by simpa using hSince
      exact ⟨0, step, Nat.le_refl _, hStep, hTime, covers_self hStep hActive⟩
    · cases hSince
  | succ k ih =>
    rw [since_next hFed hStep] at hSince
    unfold after at hSince
    split at hSince
    · rename_i hActive
      rcases M.exists_before hStep with ⟨former, hFormer, hBefore⟩
      rw [hBefore] at hSince
      cases hRestarts : W.restarts step with
      | true =>
        have hTime : W.time step = opened := by simpa [hRestarts] using hSince
        exact ⟨k + 1, step, Nat.le_refl _, hStep, hTime, covers_self hStep hActive⟩
      | false =>
        cases hOpen : W.since (M.next former.output) with
        | none =>
          have hTime : W.time step = opened := by simpa [hRestarts, hOpen] using hSince
          exact ⟨k + 1, step, Nat.le_refl _, hStep, hTime, covers_self hStep hActive⟩
        | some earlier =>
          have hSame : earlier = opened := by simpa [hRestarts, hOpen] using hSince
          subst hSame
          rcases ih hFormer hOpen with ⟨j, first, hLe, hFirst, hTime, hCovers⟩
          exact ⟨j, first, Nat.le_succ_of_le hLe, hFirst, hTime,
            hCovers.succ hStep hActive hRestarts⟩
    · cases hSince

/- Where the condition has held, the window is open. -/
theorem since_of_covers
    (hFed : W.Fed M)
    (hStart : W.since s = none)
    (hTimes :
      ∀ (i j : Nat) (first later : Step σ α ω),
        i ≤ j →
        (M.trace s inputs)[i]? = some first →
        (M.trace s inputs)[j]? = some later →
        W.time first ≤ W.time later)
    {j k : Nat}
    {first step : Step σ α ω}
    (hLe : j ≤ k)
    (hFirst : (M.trace s inputs)[j]? = some first)
    (hStep : (M.trace s inputs)[k]? = some step)
    (hCovers : W.Covers (M.trace s inputs) j k) :
    ∃ opened,
      W.since (M.next step.output) = some opened ∧
      opened ≤ W.time first := by
  induction k, hLe using Nat.le_induction generalizing step with
  | base =>
    have hActive := (hCovers j step (Nat.le_refl _) (Nat.le_refl _) hStep).1
    have hAfter := since_next hFed hStep
    simp only [after, hActive, if_true] at hAfter
    refine ⟨_, hAfter, ?_⟩
    rcases covers_of_since hFed hStart hStep hAfter with ⟨i, opening, hEarlier, hOpening, hTime, -⟩
    rw [← hTime]
    exact hTimes i j opening first hEarlier hOpening hFirst
  | succ k hFrom ih =>
    rcases M.exists_before hStep with ⟨former, hFormer, hBefore⟩
    rcases ih hFormer (hCovers.of_le (Nat.le_succ k)) with ⟨opened, hOpen, hTime⟩
    rcases hCovers (k + 1) step
        (Nat.le_succ_of_le hFrom) (Nat.le_refl _) hStep with
      ⟨hActive, hKept⟩
    have hRestarts := hKept (Nat.lt_succ_of_le hFrom)
    have hAfter := since_next hFed hStep
    rw [after, hBefore, hOpen] at hAfter
    simp only [hActive, hRestarts, if_true, Bool.false_eq_true, if_false, Option.getD_some]
      at hAfter
    exact ⟨opened, hAfter, hTime⟩

/- A window has been open for a while exactly if the condition has held for that while. -/
theorem open_for_iff
    (hFed : W.Fed M)
    (hStart : W.since s = none)
    (hTimes :
      ∀ (i j : Nat) (first later : Step σ α ω),
        i ≤ j →
        (M.trace s inputs)[i]? = some first →
        (M.trace s inputs)[j]? = some later →
        W.time first ≤ W.time later)
    (hStep : (M.trace s inputs)[k]? = some step)
    (bound : Nat) :
    (∃ opened,
       W.since (M.next step.output) = some opened ∧
       bound ≤ W.time step - opened) ↔
      ∃ (j : Nat) (first : Step σ α ω),
        j ≤ k ∧
        (M.trace s inputs)[j]? = some first ∧
        bound ≤ W.time step - W.time first ∧
        W.Covers (M.trace s inputs) j k := by
  constructor
  · intro hOpen
    rcases hOpen with ⟨_, hSince, _⟩
    rcases covers_of_since hFed hStart hStep hSince with ⟨j, first, hLe, hFirst, _, hCovers⟩
    exact ⟨j, first, hLe, hFirst, by omega, hCovers⟩
  · intro hHeld
    rcases hHeld with ⟨_, _, hLe, hFirst, _, hCovers⟩
    rcases since_of_covers hFed hStart hTimes hLe hFirst hStep hCovers with ⟨opened, hSince, _⟩
    exact ⟨opened, hSince, by omega⟩

end Window

end Machine
