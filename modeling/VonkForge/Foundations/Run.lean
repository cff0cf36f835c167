import Mathlib

/-
  Finite runs of deterministic machines.

  A machine answers an input with an output that carries its next state. A run is a finite list of
  inputs, and its trace records each step with the state it started from.

  Main declarations:
    * `Machine`
    * `total_conserved`
    * `total_le_rank`
    * `countP_le_one_of_mark`
-/

----
-- Machines and Runs
----

/-
  A deterministic machine: `answer` is the output for an input, and `next` reads the following state
  off it.
-/
structure Machine (σ α ω : Type) where
  answer : σ → α → ω
  next : ω → σ

namespace Machine

variable {σ α ω : Type}

/- One step of a run, with the state it started from. -/
structure Step (σ α ω : Type) where
  before : σ
  input : α
  output : ω

variable (M : Machine σ α ω) (s : σ) (a : α)

/- The step a machine makes from a state. -/
def step : Step σ α ω := ⟨s, a, M.answer s a⟩

/- The state after one input. -/
def move : σ := M.next (M.answer s a)

/- The state after a list of inputs. -/
def final (s : σ) : List α → σ
  | [] => s
  | a :: inputs => final (M.move s a) inputs

/- The steps of a run, first step first. -/
def trace (s : σ) : List α → List (Step σ α ω)
  | [] => []
  | a :: inputs => M.step s a :: trace (M.move s a) inputs

@[simp] theorem step_before : (M.step s a).before = s := rfl

@[simp] theorem step_input : (M.step s a).input = a := rfl

@[simp] theorem step_output : (M.step s a).output = M.answer s a := rfl

@[simp] theorem final_nil : M.final s [] = s := rfl

variable (inputs : List α)

@[simp] theorem final_cons : M.final s (a :: inputs) = M.final (M.move s a) inputs := rfl

@[simp] theorem trace_nil : M.trace s [] = [] := rfl

@[simp] theorem trace_cons :
    M.trace s (a :: inputs) = M.step s a :: M.trace (M.move s a) inputs := rfl

@[simp] theorem final_append (first second : List α) :
    M.final s (first ++ second) = M.final (M.final s first) second := by
  induction first generalizing s with
  | nil => rfl
  | cons a _ ih => simpa using ih (M.move s a)

@[simp] theorem trace_append (first second : List α) :
    M.trace s (first ++ second) = M.trace s first ++ M.trace (M.final s first) second := by
  induction first generalizing s with
  | nil => rfl
  | cons a _ ih => simpa using ih (M.move s a)

@[simp] theorem length_trace : (M.trace s inputs).length = inputs.length := by
  induction inputs generalizing s with
  | nil => rfl
  | cons a _ ih => simpa using ih (M.move s a)

/- The step at position `k` starts from the state the first `k` inputs lead to. -/
theorem getElem?_trace (k : Nat) :
    (M.trace s inputs)[k]? = inputs[k]?.map (M.step (M.final s (inputs.take k))) := by
  induction inputs generalizing s k with
  | nil => simp
  | cons a _ ih =>
    cases k with
    | zero => simp
    | succ k => simpa using ih (M.move s a) k

/- A trace prefix is the trace of an input prefix. -/
theorem take_trace (k : Nat) : (M.trace s inputs).take k = M.trace s (inputs.take k) := by
  induction inputs generalizing s k with
  | nil => simp
  | cons a _ ih =>
    cases k with
    | zero => simp
    | succ k => simpa using ih (M.move s a) k

variable {s : σ} {inputs : List α} {I : σ → Prop} {P : Step σ α ω → Prop} {step : Step σ α ω}

/- A step of a trace is made from a state that a prefix of the run leads to. -/
theorem exists_of_getElem?_trace {k : Nat}
    (hStep : (M.trace s inputs)[k]? = some step) :
    ∃ a ∈ inputs[k]?, step = M.step (M.final s (inputs.take k)) a := by
  rw [M.getElem?_trace] at hStep
  rcases Option.map_eq_some_iff.mp hStep with ⟨a, hInput, hEq⟩
  exact ⟨a, hInput, hEq.symm⟩

/- The step that an input of a run makes. -/
theorem getElem?_trace_of {k : Nat} {a : α}
    (hInput : inputs[k]? = some a) :
    (M.trace s inputs)[k]? = some (M.step (M.final s (inputs.take k)) a) := by
  rw [M.getElem?_trace, hInput]
  rfl

/- A later moment of a run, from an earlier one. -/
theorem final_take_of_le {i j : Nat} (hLe : i ≤ j) (s : σ) (inputs : List α) :
    M.final s (inputs.take j) = M.final (M.final s (inputs.take i)) ((inputs.take j).drop i) := by
  have hSplit : inputs.take j = inputs.take i ++ (inputs.take j).drop i := by
    calc inputs.take j
        = (inputs.take j).take i ++ (inputs.take j).drop i := (List.take_append_drop i _).symm
      _ = inputs.take i ++ (inputs.take j).drop i := by rw [List.take_take, Nat.min_eq_left hLe]
  calc M.final s (inputs.take j)
      = M.final s (inputs.take i ++ (inputs.take j).drop i) := congrArg (M.final s) hSplit
    _ = M.final (M.final s (inputs.take i)) ((inputs.take j).drop i) := M.final_append _ _ _

/- A later step starts from the state that the inputs between the two steps lead to. -/
theorem before_eq_final_between {i j : Nat} {first later : Step σ α ω}
    (hLt : i < j) (hFirst : (M.trace s inputs)[i]? = some first)
    (hLater : (M.trace s inputs)[j]? = some later) :
    later.before = M.final (M.next first.output) ((inputs.take j).drop (i + 1)) := by
  rcases M.exists_of_getElem?_trace hFirst with ⟨a, hInput, rfl⟩
  rcases M.exists_of_getElem?_trace hLater with ⟨_, _, rfl⟩
  rcases List.getElem?_eq_some_iff.mp hInput with ⟨hBound, hGet⟩
  have hMove : M.final s (inputs.take (i + 1)) = M.move (M.final s (inputs.take i)) a := by
    rw [List.take_succ_eq_append_getElem hBound, hGet, final_append]
    rfl
  rw [step_before, M.final_take_of_le hLt, hMove]
  rfl

/- A step starts from the state that the one before left. -/
theorem before_succ {k : Nat} {first next : Step σ α ω}
    (hFirst : (M.trace s inputs)[k]? = some first)
    (hNext : (M.trace s inputs)[k + 1]? = some next) :
    next.before = M.next first.output := by
  have hBetween := M.before_eq_final_between (Nat.lt_succ_self k) hFirst hNext
  simpa [List.drop_take] using hBetween

/- And there is such a step, except before the first one. -/
theorem exists_before {k : Nat} {next : Step σ α ω}
    (hNext : (M.trace s inputs)[k + 1]? = some next) :
    ∃ first,
      (M.trace s inputs)[k]? = some first ∧
      next.before = M.next first.output := by
  have hBound : k < (M.trace s inputs).length :=
    Nat.lt_of_succ_lt (List.getElem?_eq_some_iff.mp hNext).1
  have hFirst := List.getElem?_eq_getElem hBound
  exact ⟨_, hFirst, M.before_succ hFirst hNext⟩

/- The input of a step is one of the run's inputs. -/
theorem input_mem_of_mem_trace (hMem : step ∈ M.trace s inputs) :
    step.input ∈ inputs := by
  induction inputs generalizing s with
  | nil => exact absurd hMem List.not_mem_nil
  | cons _ _ ih =>
    rw [trace_cons] at hMem
    rcases List.mem_cons.mp hMem with rfl | hTail
    · exact List.mem_cons_self
    · exact List.mem_cons_of_mem _ (ih hTail)

----
-- Invariants
----

section

variable (hMove : ∀ s a, I s → P (M.step s a) → I (M.move s a)) (hStart : I s)
  (hSteps : ∀ step ∈ M.trace s inputs, P step)

include hMove hStart hSteps

/-
  An invariant that every admissible step keeps holds at the end of every run of admissible steps.
-/
theorem invariant : I (M.final s inputs) := by
  induction inputs generalizing s with
  | nil => exact hStart
  | cons a _ ih =>
    rw [trace_cons] at hSteps
    have hHead : P (M.step s a) := hSteps _ List.mem_cons_self
    exact ih (hMove s a hStart hHead) (fun step hMem => hSteps step (List.mem_cons_of_mem _ hMem))

/- The same invariant holds before every step of the run. -/
theorem invariant_before :
    ∀ step ∈ M.trace s inputs, I step.before ∧ ∃ a, step = M.step step.before a := by
  induction inputs generalizing s with
  | nil => simp
  | cons a _ ih =>
    rw [trace_cons] at hSteps ⊢
    have hHead : P (M.step s a) := hSteps _ List.mem_cons_self
    intro step hMem
    rcases List.mem_cons.mp hMem with rfl | hTail
    · exact ⟨hStart, a, rfl⟩
    · exact ih (hMove s a hStart hHead)
        (fun later hLater => hSteps later (List.mem_cons_of_mem _ hLater)) step hTail

end

/-
  What holds after one step of a run, and is kept by every step after it, holds before every later
  step.
-/
theorem invariant_since {i : Nat} {first : Step σ α ω}
    (hFirst : (M.trace s inputs)[i]? = some first) (hStart : I (M.next first.output)) {j : Nat}
    (hMove : ∀ k step, i < k → k < j →
        (M.trace s inputs)[k]? = some step → I step.before → I (M.next step.output))
    {later : Step σ α ω}
    (hLt : i < j)
    (hLater : (M.trace s inputs)[j]? = some later) :
    I later.before := by
  induction j generalizing later with
  | zero => omega
  | succ k ih =>
    rcases M.exists_before hLater with ⟨step, hStep, hBefore⟩
    rw [hBefore]
    rcases Nat.lt_or_eq_of_le (Nat.le_of_lt_succ hLt) with hEarlier | rfl
    · have hKept :=
        ih (fun m step hFrom hTo => hMove m step hFrom (Nat.lt_succ_of_lt hTo)) hEarlier hStep
      exact hMove k step hEarlier (Nat.lt_succ_self k) hStep hKept
    · rw [Option.some.inj (hStep.symm.trans hFirst)]
      exact hStart

/- An absorbing property holds at the end of a run. -/
theorem final_of_absorbing {A : σ → Prop} (hMove : ∀ s a, A s → A (M.move s a)) (hStart : A s)
    (inputs : List α) : A (M.final s inputs) := by
  induction inputs generalizing s with
  | nil => exact hStart
  | cons a _ ih => exact ih (hMove s a hStart)

/- A run that does not end in an absorbing property never made a step from it. -/
theorem before_not_of_absorbing {A : σ → Prop} (hMove : ∀ s a, A s → A (M.move s a))
    (hFinal : ¬ A (M.final s inputs)) : ∀ step ∈ M.trace s inputs, ¬ A step.before := by
  induction inputs generalizing s with
  | nil => simp
  | cons a inputs ih =>
    rw [trace_cons]
    intro step hMem
    rcases List.mem_cons.mp hMem with rfl | hTail
    · intro hStart
      exact hFinal (M.final_of_absorbing hMove hStart (a :: inputs))
    · exact ih hFinal step hTail

/-
  Induction over a run with its whole past in view: a property of the past trace and the current
  state that every step extends holds at the end of the run.
-/
theorem history {H : List (Step σ α ω) → σ → Prop} (hStart : H [] s)
    (hMove : ∀ past t a, H past t → H (past ++ [M.step t a]) (M.move t a)) (inputs : List α) :
    H (M.trace s inputs) (M.final s inputs) := by
  induction inputs using List.reverseRecOn with
  | nil => exact hStart
  | append_singleton _ a ih =>
    have hExtended := hMove _ _ a ih
    simpa using hExtended

----
-- Counting along a Run
----

variable (weight : Step σ α ω → Nat)

/- The sum of a weight over the steps of a trace. -/
def total (steps : List (Step σ α ω)) : Nat := (steps.map weight).sum

@[simp] theorem total_nil : total weight [] = 0 := rfl

@[simp] theorem total_cons (step : Step σ α ω) (steps : List (Step σ α ω)) :
    total weight (step :: steps) = weight step + total weight steps := by simp [total]

/-
  A counter that every admissible step raises by exactly the weight of the step counts the weights
  of the run.
-/
theorem total_conserved
    (counter : σ → Nat)
    (hMove :
      ∀ s a,
        I s →
        P (M.step s a) →
        I (M.move s a) ∧
        counter (M.move s a) = counter s + weight (M.step s a))
    (hStart : I s)
    (hSteps : ∀ step ∈ M.trace s inputs, P step) :
    counter (M.final s inputs) =
      counter s + total weight (M.trace s inputs) := by
  induction inputs generalizing s with
  | nil => simp
  | cons a _ ih =>
    rw [trace_cons] at hSteps ⊢
    have hHead : P (M.step s a) := hSteps _ List.mem_cons_self
    rcases hMove s a hStart hHead with ⟨hNext, hCount⟩
    have hTail := ih hNext (fun step hMem => hSteps step (List.mem_cons_of_mem _ hMem))
    rw [final_cons, hTail, hCount, total_cons]
    omega

/-
  A rank that every admissible step lowers by at least the weight of the step bounds the weights of
  the run.
-/
theorem total_le_rank
    (rank : σ → Nat)
    (hMove :
      ∀ s a,
        I s →
        P (M.step s a) →
        I (M.move s a) ∧
        weight (M.step s a) + rank (M.move s a) ≤ rank s)
    (hStart : I s)
    (hSteps : ∀ step ∈ M.trace s inputs, P step) :
    total weight (M.trace s inputs) + rank (M.final s inputs) ≤
      rank s := by
  induction inputs generalizing s with
  | nil => simp
  | cons a _ ih =>
    rw [trace_cons] at hSteps ⊢
    have hHead : P (M.step s a) := hSteps _ List.mem_cons_self
    rcases hMove s a hStart hHead with ⟨hNext, _⟩
    have hTail := ih hNext (fun step hMem => hSteps step (List.mem_cons_of_mem _ hMem))
    rw [final_cons, total_cons]
    omega

----
-- Steps that fire once
----

variable {fires : Step σ α ω → Bool}

/- A marked state never fires again. -/
theorem countP_eq_zero_of_mark (mark : σ → Prop) (hKept : ∀ s a, mark s → mark (M.move s a))
    (hFires : ∀ s a, fires (M.step s a) → ¬ mark s ∧ mark (M.move s a)) (hMark : mark s)
    (inputs : List α) : (M.trace s inputs).countP fires = 0 := by
  induction inputs generalizing s with
  | nil => rfl
  | cons a _ ih =>
    have hQuiet : ¬ fires (M.step s a) := fun hFire => (hFires s a hFire).1 hMark
    rw [trace_cons, List.countP_cons_of_neg hQuiet]
    exact ih (hKept s a hMark)

/-
  A step that needs the mark to be missing, and sets it, fires at most once when no step takes the
  mark away.
-/
theorem countP_le_one_of_mark
    (mark : σ → Prop)
    (hKept : ∀ s a, mark s → mark (M.move s a))
    (hFires : ∀ s a, fires (M.step s a) → ¬ mark s ∧ mark (M.move s a))
    (s : σ)
    (inputs : List α) :
    (M.trace s inputs).countP fires ≤ 1 := by
  induction inputs generalizing s with
  | nil => exact Nat.zero_le 1
  | cons a inputs ih =>
    rw [trace_cons]
    by_cases hFire : fires (M.step s a) = true
    · have hRest := M.countP_eq_zero_of_mark mark hKept hFires (hFires s a hFire).2 inputs
      rw [List.countP_cons_of_pos hFire]
      omega
    · rw [List.countP_cons_of_neg hFire]
      exact ih (M.move s a)

end Machine
