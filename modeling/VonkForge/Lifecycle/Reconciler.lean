import VonkForge.Lifecycle.Runs

/-
  One pass over a row (`lifecycle/reconciler.py`): an event is fed to the core, the commands it
  names are run, and their answers are fed back, a bounded number of times.

  The pass is generic in where decisions are written. It also keeps the rows and events it fed, in
  order, so that results can speak about them.

  Main declarations:
    * `Executor`, `Ledger`
    * `Settling`
    * `settleLoop_invariant`
    * `pending_of_runCommands`
-/

----
-- Commands
----

namespace VonkForge.Reconciler

/- Commands followed by answers inside one pass. -/
def maxStepsPerRow : Nat := 4

/- The inspection and the stop of a kind. Either may fail, and then nothing is known. -/
structure Executor where
  observe : Lifecycle → Except String (Effect × Option String)
  stop : Lifecycle → Except String StopResult

/-
  Where a pass writes: `save` is refused when the stored row is no longer the one the decision was
  made from.
-/
structure Ledger (σ : Type) where
  save : σ → Lifecycle → Lifecycle → Option σ
  residue : σ → Lifecycle → String → σ

/- An executor failure is an unknown, never a raise. -/
def observationUnavailable : Event :=
  .observed .unknown (some WaitReason.observationUnavailable.value)

variable (executor : Executor)

/- The answer of a command, if it has one (`_run`). -/
def answerOf (row : Lifecycle) : Command → Option Event
  | .observe =>
    match executor.observe row with
    | .ok (effect, reason) => some (.observed effect reason)
    | .error _ => some observationUnavailable
  | .stop =>
    match executor.stop row with
    | .ok .confirmed => some (.observed .stopped none)
    | .ok .unconfirmed => some (.observed .unknown none)
    | .error _ => some observationUnavailable
  | .execute => none
  | .recordResidue _ => none

----
-- One Pass
----

/- A pass under way: `fed` is its history. -/
structure Settling (σ : Type) where
  row : Lifecycle
  store : σ
  pending : Option Event
  changed : Nat := 0
  commands : Nat := 0
  stale : Bool := false
  fed : List (Lifecycle × Event) := []

variable {σ : Type} (ledger : Ledger σ) (pass : Settling σ)

def runCommand (command : Command) : Settling σ :=
  { pass with
    commands := pass.commands + 1
    store :=
      match command with
      | .recordResidue reason => ledger.residue pass.store pass.row reason
      | .execute => pass.store
      | .observe => pass.store
      | .stop => pass.store
    pending :=
      match answerOf executor pass.row command with
      | some answer => some answer
      | none => pass.pending }

def runCommands
    (commands : List Command) : Settling σ := commands.foldl (runCommand executor ledger) pass

variable (adapter : KindAdapter) (executor : Executor) (ledger : Ledger σ) (now : Int)

/- Feed one event, write what it decides, run its commands. -/
def settleStep (pass : Settling σ) (event : Event) : Settling σ :=
  let decision := LifecycleCore.transition pass.row event adapter now
  let fed := pass.fed ++ [(pass.row, event)]
  if decision.row = pass.row then
    runCommands executor ledger
      { pass with pending := none, fed := fed }
      decision.commands
  else
    match ledger.save pass.store pass.row decision.row with
    | none => { pass with pending := none, stale := true, fed := fed }
    | some store =>
      runCommands executor ledger
        { pass with
          row := decision.row, store := store, pending := none, changed := pass.changed + 1,
          fed := fed }
        decision.commands

def settleLoop (adapter : KindAdapter) (executor : Executor) (ledger : Ledger σ) (now : Int) :
    Nat → Settling σ → Settling σ
  | 0, pass => pass
  | steps + 1, pass =>
    match pass.pending with
    | none => pass
    | some event =>
      settleLoop adapter executor ledger now steps
        (settleStep adapter executor ledger now pass event)

/- `settle`, with the default bound on its steps. -/
def settle (row : Lifecycle) (event : Event) (store : σ) : Settling σ :=
  settleLoop adapter executor ledger now maxStepsPerRow
    { row := row, store := store, pending := some event }

----
-- What running Commands changes
----

variable {executor : Executor} {ledger : Ledger σ} (pass : Settling σ)

@[simp] theorem runCommands_nil : runCommands executor ledger pass [] = pass := rfl

@[simp] theorem runCommands_cons (command : Command) (commands : List Command) :
    runCommands executor ledger pass (command :: commands) = runCommands executor ledger
        (runCommand executor ledger pass command)
        commands := rfl

variable (commands : List Command)

@[simp] theorem runCommands_row : (runCommands executor ledger pass commands).row = pass.row := by
  induction commands generalizing pass with
  | nil => rfl
  | cons _ _ ih =>
    rw [runCommands_cons, ih]
    rfl

@[simp] theorem runCommands_fed : (runCommands executor ledger pass commands).fed = pass.fed := by
  induction commands generalizing pass with
  | nil => rfl
  | cons _ _ ih =>
    rw [runCommands_cons, ih]
    rfl

/- Commands touch the store only to record residue. -/
theorem runCommands_store {Q : σ → Prop} (hResidue : ∀ store row reason, Q store →
      Q (ledger.residue store row reason)) (pass : Settling σ) (commands : List Command)
    (hStore : Q pass.store) : Q (runCommands executor ledger pass commands).store := by
  induction commands generalizing pass with
  | nil => exact hStore
  | cons command _ ih =>
    rw [runCommands_cons]
    apply ih
    cases command with
    | recordResidue => exact hResidue _ _ _ hStore
    | execute | observe | stop => exact hStore

/- What is pending afterwards was, or answers a command. -/
theorem pending_of_runCommands
    (event : Event)
    (hPending :
      (runCommands executor ledger pass commands).pending =
        some event) :
    pass.pending = some event ∨
    ∃ command ∈ commands,
      answerOf executor pass.row command = some event := by
  induction commands generalizing pass with
  | nil => exact Or.inl hPending
  | cons command _ ih =>
    rw [runCommands_cons] at hPending
    rcases ih _ hPending with hFirst | ⟨other, hMem, hAnswer⟩
    · cases hOwn : answerOf executor pass.row command with
      | none =>
        left
        simpa [runCommand, hOwn] using hFirst
      | some =>
        right
        refine ⟨command, List.mem_cons_self, ?_⟩
        simpa [runCommand, hOwn] using hFirst
    · right
      exact ⟨other, List.mem_cons_of_mem _ hMem, hAnswer⟩

/- A command is answered only if it looks or stops. -/
theorem answer_inversion {row : Lifecycle} {command : Command} {event : Event}
    (hAnswer : answerOf executor row command = some event) :
    (command = .observe ∨ command = .stop) ∧ ∃ effect reason, event = .observed effect reason := by
  cases command with
  | observe =>
    refine ⟨Or.inl rfl, ?_⟩
    cases hObserve : executor.observe row with
    | ok answer =>
      rw [answerOf, hObserve] at hAnswer
      exact ⟨answer.1, answer.2, (Option.some.inj hAnswer).symm⟩
    | error =>
      rw [answerOf, hObserve] at hAnswer
      exact ⟨_, _, (Option.some.inj hAnswer).symm⟩
  | stop =>
    refine ⟨Or.inr rfl, ?_⟩
    cases hStop : executor.stop row with
    | ok result =>
      rw [answerOf, hStop] at hAnswer
      cases result with
      | confirmed | unconfirmed => exact ⟨_, _, (Option.some.inj hAnswer).symm⟩
    | error =>
      rw [answerOf, hStop] at hAnswer
      exact ⟨_, _, (Option.some.inj hAnswer).symm⟩
  | execute | recordResidue => cases hAnswer

variable {adapter : KindAdapter} {now : Int}

/- A step records the event it fed, saved or not. -/
@[simp] theorem settleStep_fed (event : Event) :
    (settleStep adapter executor ledger now pass event).fed = pass.fed ++ [(pass.row, event)] := by
  simp only [settleStep]
  split
  · rw [runCommands_fed]
  · split
    · rfl
    · rw [runCommands_fed]

/- A ledger that never refuses takes over the decision. -/
theorem settleStep_row (hSaves : ∀ store before after, ledger.save store before after ≠ none)
    (pass : Settling σ) (event : Event) : (settleStep adapter executor ledger now pass event).row =
    (LifecycleCore.transition pass.row event adapter now).row := by
  simp only [settleStep]
  split
  · next hSame => rw [runCommands_row, hSame]
  · split
    · next hRefused => exact absurd hRefused (hSaves _ _ _)
    · rw [runCommands_row]

/- What every step of a pass keeps holds after the pass. -/
theorem settleLoop_invariant
    {J : Settling σ → Prop}
    (hStep :
      ∀ pass event,
        J pass →
        pass.pending = some event →
        J (settleStep adapter executor ledger now pass event))
    (steps : Nat)
    (pass : Settling σ)
    (hPass : J pass) :
    J (settleLoop adapter executor ledger now steps pass) := by
  induction steps generalizing pass with
  | zero => exact hPass
  | succ _ ih =>
    unfold settleLoop
    cases hPending : pass.pending with
    | none => exact hPass
    | some event => exact ih _ (hStep pass event hPass hPending)

end VonkForge.Reconciler
