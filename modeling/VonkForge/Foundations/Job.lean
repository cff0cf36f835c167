import Mathlib

/-
  Jobs: computations over a state that may fail, where what was done to the state before a failure
  stays done.

  `Triple P x Q E` says how a job ends from a state with `P`, and `Keeps view x` what it leaves
  alone however it ends. The rules follow the way jobs are written.

  Main declarations:
    * `Job`
    * `Triple.bind`
    * `Triple.at_state`
    * `Triple.frame`
-/

----
-- Jobs
----

def Job (ε σ α : Type) : Type := σ → Except ε α × σ

namespace Job

variable {ε σ α β : Type}

instance : Monad (Job ε σ) where
  pure := fun a state => (.ok a, state)
  bind := fun x f state =>
    match x state with
    | (.ok a, next) => f a next
    | (.error failure, next) => (.error failure, next)

/- Fail, and leave the state as it is. -/
def fail (failure : ε) : Job ε σ α := fun state => (.error failure, state)

/- The state, or a part of it. -/
def read (f : σ → α) : Job ε σ α := fun state => (.ok (f state), state)

def update (f : σ → σ) : Job ε σ Unit := fun state => (.ok (), f state)

/- Fail unless a condition holds. -/
def require (condition : Bool) (failure : ε) : Job ε σ Unit :=
  if condition then pure () else fail failure

/- Go on whether or not a job failed. -/
def ignore (x : Job ε σ Unit) : Job ε σ Unit := fun state => (.ok (), (x state).2)

/- Tidy up after a job that failed, and fail as it did. -/
def orUndo (x : Job ε σ α) (undo : Job ε σ Unit) : Job ε σ α :=
  fun state =>
    match x state with
    | (.ok a, next) => (.ok a, next)
    | (.error failure, next) => (.error failure, (undo next).2)

/- One job after the other, for each item of a list. -/
def forEach (f : β → Job ε σ Unit) : List β → Job ε σ Unit
  | [] => pure ()
  | b :: items => do
      f b
      forEach f items

variable {x : Job ε σ α} {f : α → Job ε σ β}

/- The second job of a run whose first one did not fail. -/
theorem bind_of_ok {state next : σ} {a : α}
    (hFirst : x state = (.ok a, next)) : (x >>= f) state = f a next := by
  simp only [bind, hFirst]

----
-- Triples
----

/- From a state with `P` a job ends with `Q` of its result, or fails in a state with `E`. -/
def Triple (P : σ → Prop) (x : Job ε σ α) (Q : α → σ → Prop) (E : ε → σ → Prop) : Prop :=
  ∀ state, P state →
    match x state with
    | (.ok a, next) => Q a next
    | (.error failure, next) => E failure next

/- The triple of a job whose failures are all alike. -/
abbrev Holds (P : σ → Prop) (x : Job ε σ α) (Q : α → σ → Prop) (E : σ → Prop) : Prop :=
  Triple P x Q fun _ => E

/- The triple of a job of which one failure is looked at. -/
abbrev Raises (P : σ → Prop) (x : Job ε σ α) (failure : ε) (Q : α → σ → Prop)
    (F : σ → Prop) : Prop :=
  Triple P x Q fun raised state => raised = failure → F state

variable {P R : σ → Prop} {Q T M : α → σ → Prop} {E : ε → σ → Prop} {F : σ → Prop}
variable {failure other : ε} {condition : Bool} {next : Job ε σ β}

theorem Triple.pure {a : α} (hResult : ∀ state, P state → Q a state) :
    Triple P (Pure.pure a : Job ε σ α) Q E :=
  hResult

theorem Triple.fail (hFailed : ∀ state, P state → E failure state) :
    Triple P (Job.fail failure : Job ε σ α) Q E :=
  hFailed

theorem Triple.update {f : σ → σ} {Q : Unit → σ → Prop}
    (hUpdated : ∀ state, P state → Q () (f state)) : Triple P (Job.update f : Job ε σ Unit) Q E :=
  hUpdated

/- The second job starts from what the first one gave. -/
theorem Triple.bind
    {Q : β → σ → Prop}
    (hFirst : Triple P x M E)
    (hSecond : ∀ a, Triple (M a) (f a) Q E) :
    Triple P (x >>= f) Q E := by
  intro state hState
  have hMiddle := hFirst state hState
  have hRest a next := hSecond a next
  simp only [Bind.bind]
  grind

/- A job that goes on with what it read. -/
theorem Triple.bind_read {f : σ → α} {next : α → Job ε σ β} {Q : β → σ → Prop}
    (hNext : ∀ a, Triple (fun state => P state ∧ f state = a) (next a) Q E) :
    Triple P (Job.read f >>= next) Q E :=
  fun state hState => hNext (f state) state ⟨hState, rfl⟩

/- A job that goes on from a state it changed. -/
theorem Triple.bind_update {f : σ → σ} {Q : β → σ → Prop}
    (hUpdated : ∀ state, P state → R (f state)) (hNext : Triple R next Q E) :
    Triple P (Job.update f >>= fun _ => next) Q E :=
  fun state hState => hNext (f state) (hUpdated state hState)

theorem Triple.require
    {Q : Unit → σ → Prop}
    (hHolds : ∀ state, P state → condition → Q () state)
    (hFailed : ∀ state, P state → E failure state) :
    Triple P (Job.require condition failure : Job ε σ Unit) Q E := by
  cases condition with
  | true => exact fun state hState => hHolds state hState rfl
  | false => exact hFailed

/- A job that goes on past a check. -/
theorem Triple.bind_require {Q : β → σ → Prop}
    (hNext : condition → Triple P next Q E)
    (hFailed : ∀ state, P state → E failure state) :
    Triple P (Job.require condition failure >>= fun _ => next) Q E := by
  cases condition with
  | true => exact hNext rfl
  | false => exact hFailed

/- A loop, with what holds before the rest of its items. -/
theorem Triple.forEach {f : β → Job ε σ Unit} {I : List β → σ → Prop}
    (hStep : ∀ b items, Triple (I (b :: items)) (f b) (fun _ => I items) E) (items : List β) :
    Triple (I items) (Job.forEach f items) (fun _ => I []) E := by
  induction items with
  | nil => exact Triple.pure (fun _ hState => hState)
  | cons b items ih => exact Triple.bind (hStep b items) (fun _ => ih)

theorem Triple.mono (hTriple : Triple P x Q E)
    (hBefore : ∀ state, R state → P state) (hAfter : ∀ a state, Q a state → T a state) :
    Triple R x T E := by
  intro state hState
  have hRun := hTriple state (hBefore state hState)
  grind

/- A triple may speak about the state a job started from. -/
theorem Triple.at_state
    (hTriple :
      ∀ start, P start → Triple (fun state => state = start) x Q E) :
    Triple P x Q E :=
  fun state hState => hTriple state hState state rfl

/- What a run that did not fail has left. -/
theorem Triple.returned (hTriple : Triple P x Q E) {state : σ} {a : α} (hState : P state)
    (hOk : (x state).1 = .ok a) : Q a (x state).2 := by
  have hRun := hTriple state hState
  grind

theorem Holds.weaken {E : σ → Prop} (hHolds : Holds P x Q E)
    (hFailed : ∀ state, E state → F state) : Holds P x Q F := by
  intro state hState
  have hRun := hHolds state hState
  grind

theorem Holds.ignore {x : Job ε σ Unit} (hHolds : Holds P x (fun _ => R) R) :
    Triple P (Job.ignore x) (fun _ => R) E := by
  intro state hState
  have hRun := hHolds state hState
  simp only [Job.ignore]
  grind

theorem Holds.orUndo {undo : Job ε σ Unit} {E : σ → Prop} (hHolds : Holds P x Q R)
    (hUndo : Holds R undo (fun _ => E) E) : Holds P (Job.orUndo x undo) Q E := by
  intro state hState
  have hRun := hHolds state hState
  have hIgnored next := Holds.ignore (E := fun _ => E) hUndo next
  simp only [Job.orUndo, Job.ignore] at hIgnored ⊢
  grind

theorem Raises.fail (hFailed : ∀ state, P state → F state) :
    Raises P (Job.fail failure : Job ε σ α) failure Q F :=
  fun state hState _ => hFailed state hState

/- Another failure is not looked at. -/
theorem Raises.fail_other (hOther : other ≠ failure) :
    Raises P (Job.fail other : Job ε σ α) failure Q F :=
  fun _ _ hSame => absurd hSame hOther

theorem Raises.require {Q : Unit → σ → Prop}
    (hOther : other ≠ failure) (hHolds : ∀ state, P state → condition → Q () state) :
    Raises P (Job.require condition other : Job ε σ Unit) failure Q F :=
  Triple.require hHolds fun _ _ hSame => absurd hSame hOther

theorem Raises.bind_require {Q : β → σ → Prop}
    (hOther : other ≠ failure) (hNext : condition → Raises P next failure Q F) :
    Raises P (Job.require condition other >>= fun _ => next) failure Q F :=
  Triple.bind_require hNext fun _ _ hSame => absurd hSame hOther

/- What is done before another failure is not looked at. -/
theorem Raises.update_fail {f : σ → σ} (hOther : other ≠ failure) :
    Raises P (Job.update f >>= fun _ => (Job.fail other : Job ε σ α)) failure Q F :=
  Triple.bind_update (R := fun _ => True) (fun _ _ => trivial) (Raises.fail_other hOther)

/- What a run that ended with the failure has left. -/
theorem Raises.result (hRaises : Raises P x failure Q F)
    {state : σ} (hState : P state) (hFailed : (x state).1 = .error failure) : F (x state).2 := by
  have hRun := hRaises state hState
  grind

----
-- Frames
----

variable {γ : Type}

/- However a job ends, what is seen of the state is what was seen before. -/
def Keeps (view : σ → γ) (x : Job ε σ α) : Prop := ∀ state, view (x state).2 = view state

variable {view : σ → γ}

theorem Keeps.pure (a : α) : Keeps view (Pure.pure a : Job ε σ α) := fun _ => rfl

theorem Keeps.fail (failure : ε) : Keeps view (Job.fail failure : Job ε σ α) := fun _ => rfl

theorem Keeps.read (f : σ → α) : Keeps view (Job.read f : Job ε σ α) := fun _ => rfl

theorem Keeps.update {f : σ → σ} (hSame : ∀ state, view (f state) = view state) :
    Keeps view (Job.update f : Job ε σ Unit) :=
  hSame

theorem Keeps.require (condition : Bool) (failure : ε) :
    Keeps view (Job.require condition failure : Job ε σ Unit) := by
  cases condition with
  | true => exact Keeps.pure ()
  | false => exact Keeps.fail failure

/- What two jobs leave alone, one after the other leaves alone. -/
theorem Keeps.bind (hFirst : Keeps view x) (hSecond : ∀ a, Keeps view (f a)) :
    Keeps view (x >>= f) := by
  intro state
  have hMiddle := hFirst state
  have hRest a next := hSecond a next
  simp only [Bind.bind]
  grind

/- A triple and a frame together. -/
theorem Triple.frame
    (hTriple : Triple P x Q E)
    (hKeeps : Keeps view x)
    (seen : γ) :
    Triple (fun state => P state ∧ view state = seen) x
      (fun a state => Q a state ∧ view state = seen) E := by
  intro state hState
  have hRun := hTriple state hState.1
  have hView := hKeeps state
  grind

end Job
