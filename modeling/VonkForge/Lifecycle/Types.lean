import VonkForge.Recovery.Policy

/-
  The value types of the shared lifecycle core (`lifecycle/types.py`): a row, the events that happen
  to it, the commands a decision names, and the facts the core asks a kind adapter for.

  A text that Python tests for truth is read through `orElse` and `orText`, where an empty text
  counts as none.

  Main declarations:
    * `State`, `Effect`, `Outcome`
    * `Lifecycle`
    * `Report`, `Event`
-/

----
-- Vocabulary
----

namespace VonkForge

/- The nine lifecycle states. -/
inductive State where
  | queued
  | running
  | observing
  | backoff
  | succeeded
  | failed
  | cancelled
  | superseded
  | needsOperator
deriving DecidableEq

/- What is known about the real effect of the work. -/
inductive Effect where
  | unknown
  | none
  | issued
  | established
  | stopped
deriving DecidableEq

/- What an executor reported. -/
inductive Outcome where
  | done
  | failed
  | cancelled
  | unknown
deriving DecidableEq

/- Whether an idempotent stop confirmed the effect gone. -/
inductive StopResult where
  | confirmed
  | unconfirmed
deriving DecidableEq

/- The operator actions the core accepts. -/
inductive ActionName where
  | resume
  | retire
  | retry
  | stop
deriving DecidableEq

/- The stored spelling of an action. -/
def ActionName.value : ActionName → String
  | .resume => "resume"
  | .retire => "retire"
  | .retry => "retry"
  | .stop => "stop"

/- The wait reasons the core and the reconciler write. -/
inductive WaitReason where
  | stopUnconfirmed
  | runtimeEffectUnconfirmed
  | leaseLapsed
  | observationUnavailable
deriving DecidableEq

/- The stored spelling of a wait reason. -/
def WaitReason.value : WaitReason → String
  | .stopUnconfirmed => "stop-unconfirmed"
  | .runtimeEffectUnconfirmed => "runtime-effect-unconfirmed"
  | .leaseLapsed => "lease-lapsed"
  | .observationUnavailable => "observation-unavailable"

/- `FailureCode.OPERATION_CANCELLED`. -/
def operationCancelled : String := "operation_cancelled"

namespace State

/- The states of a row that has ended. -/
def terminal : State → Bool
  | .succeeded => true
  | .failed => true
  | .cancelled => true
  | .superseded => true
  | .queued => false
  | .running => false
  | .observing => false
  | .backoff => false
  | .needsOperator => false

end State

----
-- Texts Tested for Truth
----

/- `first or second` for optional texts. -/
def orElse (first second : Option String) : Option String :=
  match first with
  | none => second
  | some text => if text = "" then second else some text

/- `first or second` when the second is a text. -/
def orText (first : Option String) (second : String) : String :=
  match first with
  | none => second
  | some text => if text = "" then second else text

----
-- Rows
----

/-
  A row's identity. The recovery clock refuses an empty one, so it is kept non-empty by
  construction.
-/
structure SubjectId where
  text : String
  nonempty : text ≠ ""
deriving DecidableEq

/- One lifecycle subject, independent of its kind. -/
structure Lifecycle where
  id : SubjectId
  kind : String
  state : State := .queued
  attempt : Nat := 0
  fence : Option String := none
  leaseDeadline : Option Int := none
  nextActionAt : Option Int := none
  recoveryDeadline : Option Int := none
  retryCount : Nat := 0
  observeCount : Nat := 0
  intentOrdinal : Option Int := none
  cancelRequestedAt : Option Int := none
  cancelRequestKey : Option String := none
  effect : Effect := .none
  reason : Option String := none
  ownerId : Option String := none
deriving DecidableEq

namespace Lifecycle

def terminal (row : Lifecycle) : Bool := row.state.terminal

def cancelRequested (row : Lifecycle) : Bool := row.cancelRequestedAt.isSome

/- A row as it is created: queued, never claimed, without an effect and without a cancel request. -/
structure Fresh (row : Lifecycle) : Prop where
  state : row.state = .queued
  attempt : row.attempt = 0
  effect : row.effect = .none
  cancel : row.cancelRequestedAt = none

end Lifecycle

----
-- Events
----

/- An executor's report. -/
structure Report where
  outcome : Outcome
  fence : Option String := none
  retryable : Bool := false
  effect : Option Effect := none
  reason : Option String := none
  retryAfter : Option Int := none
  consumesRetry : Bool := true
deriving DecidableEq

namespace Report

/-
  The terminal state a definite report names: a report is definite when it is done, cancelled, or
  failed without a retry, and uncertain otherwise.
-/
def endState (report : Report) : Option State :=
  match report.outcome with
  | .done => some .succeeded
  | .cancelled => some .cancelled
  | .failed =>
    if report.retryable then none else some .failed
  | .unknown => none

/- The three definite reports and where they end a row. -/
theorem endState_cases {report : Report} {state : State} (hState : report.endState = some state) :
    (report.outcome = .done ∧ state = .succeeded) ∨
    (report.outcome = .cancelled ∧ state = .cancelled) ∨
    (report.outcome = .failed ∧ report.retryable = false ∧ state = .failed) := by
  unfold endState at hState
  cases hOutcome : report.outcome with
  | done =>
    simp only [hOutcome, Option.some.injEq] at hState
    exact Or.inl ⟨rfl, hState.symm⟩
  | cancelled =>
    simp only [hOutcome, Option.some.injEq] at hState
    exact Or.inr (Or.inl ⟨rfl, hState.symm⟩)
  | failed =>
    cases hRetry : report.retryable with
    | true => simp [hOutcome, hRetry] at hState
    | false =>
      simp only [hOutcome, hRetry, Bool.false_eq_true, if_false, Option.some.injEq] at hState
      exact Or.inr (Or.inr ⟨rfl, rfl, hState.symm⟩)
  | unknown => simp [hOutcome] at hState

end Report

inductive Event where
  | submitted
  | claimed (attempt : Nat) (fence : String) (leaseDeadline : Int)
  | heartbeat (fence : Option String) (leaseDeadline : Int)
  | reported (report : Report)
  | leaseLapsed (reason : Option String)
  | cancelRequested (requestKey reason : Option String)
  | observed (effect : Effect) (reason : Option String)
  | operatorAction (name : String) (reason : Option String)
  | tick
deriving DecidableEq

namespace Event

/- `isinstance(event, CancelRequested)`. -/
def isCancelRequested : Event → Bool
  | .cancelRequested _ _ => true
  | _ => false

end Event

----
-- Decisions
----

inductive Command where
  | execute
  | observe
  | stop
  | recordResidue (reason : String)
deriving DecidableEq

namespace Command

def isResidue : Command → Bool
  | .recordResidue _ => true
  | .execute => false
  | .observe => false
  | .stop => false

end Command

/- The next row and the commands that follow from it. -/
structure Decision where
  row : Lifecycle
  commands : List Command := []
deriving DecidableEq

namespace Decision

/- How many residue records a decision names. -/
def residues (decision : Decision) : Nat := decision.commands.countP Command.isResidue

/- How many stops a decision names. -/
def stops (decision : Decision) : Nat := decision.commands.count .stop

end Decision

----
-- Adapters
----

/-
  What the pure transition function asks of a kind. The recovery deadline is optional: `none` is an
  adapter that has no such method.
-/
structure KindAdapter where
  irreversible : Lifecycle → Bool
  retryNotBefore : Lifecycle → Int → Option Int
  actions : Lifecycle → List String
  recoveryDeadline : Option (Lifecycle → Option Int)

namespace KindAdapter

/- The deadline the adapter's own reader gives for a row. -/
def ownDeadline (adapter : KindAdapter) (row : Lifecycle) : Option Int :=
  match adapter.recoveryDeadline with
  | none => none
  | some reader => reader row

end KindAdapter

end VonkForge
