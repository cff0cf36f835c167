import VonkForge.Lifecycle.Reconciler

/-
  The Spark order as it is stored, and the adapter between its columns and the lifecycle core
  (`lifecycle/agent_operation.py`).

  An order stores no effect: `lifecycle` rebuilds one from the state word and the attempt number,
  and tells a retry from an observation by the observation count alone.

  Main declarations:
    * `StoredOrder`, `Rows`
    * `View`
    * `lifecycle`
-/

----
-- Stored Rows
----

namespace VonkForge.AgentOrders

/- A stored state word, which may be none of the core's. -/
inductive Word where
  | state (state : State)
  | other (text : String)
deriving DecidableEq

/- Why an attempt is being observed rather than settled. -/
inductive ObservationCause where
  | reportedUnknown
  | leaseLapsed
deriving DecidableEq

inductive AttemptState where
  | running
  | succeeded
  | failed
  | cancelled
  | observing (cause : Option ObservationCause)
deriving DecidableEq

/- The row of an order's current attempt. -/
structure StoredAttempt where
  fence : String
  leaseDeadline : Int
  state : AttemptState
deriving DecidableEq

/-
  The columns of an order that its lifecycle reads or writes. An absent observation count is zero.
-/
structure StoredOrder where
  id : SubjectId
  kind : String
  parentJobId : String
  workloadIntentOrdinal : Option Int := none
  state : Word := .state .queued
  currentAttempt : Nat := 0
  nextActionAt : Option Int := none
  observeCount : Nat := 0
  recoveryDeadline : Option Int := none
  statusReason : Option String := none
deriving DecidableEq

/- An order with the row of its current attempt. -/
structure Rows where
  order : StoredOrder
  attempt : Option StoredAttempt := none
deriving DecidableEq

/- An order as it is created. -/
structure StoredOrder.New (order : StoredOrder) : Prop where
  state : order.state = .state .queued
  attempt : order.currentAttempt = 0
  count : order.observeCount = 0
  deadline : order.recoveryDeadline = none

----
-- What a Step reads elsewhere
----

/-
  The parent job: its cancel flag, whether it has ended, and whether the order is a stop it left
  behind on purpose.
-/
structure Parent where
  cancelRequested : Bool := false
  cancelRequestedAt : Option Int := none
  cancelRequestId : Option String := none
  ended : Bool := false
  deferredStop : Bool := false

/- Whether the order's Spark is away, or when it was last. -/
structure SparkReturn where
  live : Bool := false
  endedAt : Option Int := none

/- The facts a step reads from other rows at its time, and the answers its commands get. -/
structure View where
  parent : Option Parent := none
  spark : SparkReturn := {}
  attached : Bool := true
  deliveryOnly : Bool := false
  jobRunBound : Option Int := none
  launchBudget : Option Int := none
  advancedBytes : Bool := false
  stalledInterruptions : Lifecycle → Nat := fun _ => 0
  artifactOwned : Bool := false
  resumable : Lifecycle → Bool := fun _ => false
  isoformat : Int → String
  executor : Reconciler.Executor

----
-- Kinds and Constants
----

/- The kind whose repeat could repeat a visible effect. -/
def recipeJobRun : String := "recipe.job.run.v1"

def agentUpgrade : String := "agent.upgrade.v1"

def irreversibleOperations : List String := [recipeJobRun]

def agentOrderRecoveryBudget : Int := 3600 * second

def agentUpgradeRecoveryFence : Int := 960 * second

def stalledInterruptionLimit : Nat := 3

def stalledRetryBaseSeconds : Nat := 30

def stalledRetryMaxSeconds : Nat := 600

def maxReason : Nat := 512

/- `stall_deadline(started, progressed, budget)`. -/
def stallDeadline (started : Int) (progressed : Option Int) : Int :=
  max started (progressed.getD started) + agentOrderRecoveryBudget

/-
  `progress_deadline` of an order that waits on its Spark: a whole window from now while the Spark
  is away.
-/
def progressDeadline (started : Int) (now : Int) (spark : SparkReturn) : Int :=
  if spark.live then stallDeadline now none
  else stallDeadline started (spark.endedAt.map (min · now))

variable (order : StoredOrder) (view : View)

/- Never reached while the order's Spark is away. -/
def orderRecoveryDeadline (now : Int) : Option Int :=
  match order.recoveryDeadline with
  | none => none
  | some stored =>
    if order.kind == recipeJobRun && view.deliveryOnly then some stored
    else if !view.attached then some stored
    else
      let window := progressDeadline (stored - agentOrderRecoveryBudget) now view.spark
      let bound :=
        if order.kind == recipeJobRun then view.jobRunBound
        else none
      some (max (max stored window) (bound.getD stored))

----
-- Reading an Order
----

/- When a waiting order's retry becomes claimable. -/
def retryScheduled : Option Int :=
  match order.state with
  | .state .backoff =>
    if order.observeCount = 0 then order.nextActionAt
    else none
  | .state .observing =>
    if order.observeCount = 0 then order.nextActionAt
    else none
  | _ => none

/- A wait is a retry, an observation or an operator's. -/
def readParked : State × Option Int :=
  match retryScheduled order with
  | some scheduled => (.backoff, some scheduled)
  | none =>
    match order.nextActionAt with
    | some due => (.observing, some due)
    | none => (.needsOperator, none)

/- The lease of a running order's attempt. -/
def readLease (rows : Rows) (view : View) : Option Int :=
  match rows.attempt with
  | none => none
  | some attempt =>
    if attempt.state = .running then
      some (max attempt.leaseDeadline (view.launchBudget.getD attempt.leaseDeadline))
    else none

/- The core state a stored order is in. -/
def readState : State :=
  match order.state with
  | .state .queued => .queued
  | .state .running => .running
  | .state .needsOperator => .needsOperator
  | .state .backoff => (readParked order).1
  | .state .observing => (readParked order).1
  | .state .succeeded => .succeeded
  | .state .failed => .failed
  | .state .cancelled => .cancelled
  -- A word this adapter does not know is re-evaluated.
  | .state .superseded => .needsOperator
  | .other _ => .needsOperator

/- The clock that goes with that state. -/
def readNextAction (rows : Rows) (view : View) : Option Int :=
  match rows.order.state with
  | .state .running => readLease rows view
  | .state .backoff => (readParked rows.order).2
  | .state .observing => (readParked rows.order).2
  | _ => none

/- The effect that is rebuilt, since none is stored. -/
def readEffect : Effect :=
  match readState order with
  | .succeeded => .established
  | .cancelled => .stopped
  | .running =>
    if order.currentAttempt = 0 then .none else .issued
  | _ =>
    if order.currentAttempt = 0 then .none else .unknown

/- The parent's cancel request: its instant and its id. -/
def cancelRequestedAt (parent : Option Parent) (now : Int) : Option Int × Option String :=
  match parent with
  | none => (none, none)
  | some job =>
    if job.cancelRequested then (some (job.cancelRequestedAt.getD now), job.cancelRequestId)
    else (none, none)

/- An order whose job ended without it is cancelled too. -/
def orphaned (parent : Option Parent) : Bool :=
  match parent with
  | none => false
  | some job => job.ended && !job.deferredStop

/- The lifecycle row of a stored order. -/
def lifecycle (rows : Rows) (view : View) (now : Int) : Lifecycle :=
  let request := cancelRequestedAt view.parent now
  { id := rows.order.id
    kind := rows.order.kind
    state := readState rows.order
    attempt := rows.order.currentAttempt
    fence := rows.attempt.map StoredAttempt.fence
    leaseDeadline :=
      if rows.order.state = .state .running then readLease rows view
      else none
    nextActionAt := readNextAction rows view
    recoveryDeadline := orderRecoveryDeadline rows.order view now
    retryCount := rows.order.currentAttempt - 1
    observeCount := rows.order.observeCount
    intentOrdinal := rows.order.workloadIntentOrdinal
    cancelRequestedAt :=
      if request.1.isNone && orphaned view.parent then some now
      else request.1
    cancelRequestKey := request.2
    effect := readEffect rows.order
    reason := rows.order.statusReason
    ownerId := some rows.order.parentJobId }

----
-- What the Core asks about an Order
----

/- The upgrade's dpkg fence, and a crash loop's slowdown. -/
def retryNotBefore (row : Lifecycle) (now : Int) : Option Int :=
  if row.kind == agentUpgrade then some (now + agentUpgradeRecoveryFence)
  else if row.attempt < stalledInterruptionLimit then none
  else
    let stalled := view.stalledInterruptions row
    if stalledInterruptionLimit ≤ stalled then
      let delay := min (stalledRetryBaseSeconds * 2 ^ (stalled - stalledInterruptionLimit))
          stalledRetryMaxSeconds
      some (now + delay * second)
    else none

/- A one-shot job's order is stopped, never resumed. -/
def actions (row : Lifecycle) : List String :=
  if row.ownerId.isNone then []
  else if view.artifactOwned then
    if row.cancelRequested then []
    else [ActionName.stop.value]
  else if view.resumable row then [ActionName.resume.value, ActionName.retire.value]
  else []

/- The adapter has no deadline reader of its own. -/
def adapter : KindAdapter :=
  { irreversible := fun row => irreversibleOperations.contains row.kind
    retryNotBefore := retryNotBefore view
    actions := actions view
    recoveryDeadline := none }

----
-- Writing a Decision
----

/- The stored word and clock of a decided row (`_stored`). -/
def stored (order : StoredOrder) (after : Lifecycle) (now : Int) : Word × Option Int :=
  match after.state with
  | .queued =>
    if order.currentAttempt = 0 then (.state .queued, none)
    else (.state .backoff, some (after.nextActionAt.getD now))
  | .backoff =>
    if order.currentAttempt = 0 then (.state .queued, none)
    else (.state .backoff, some (after.nextActionAt.getD now))
  | .observing => (.state .observing, some (after.nextActionAt.getD now))
  | .needsOperator => (.state .needsOperator, none)
  | .running => (.state .running, none)
  | .succeeded => (.state .succeeded, none)
  | .failed => (.state .failed, none)
  | .cancelled => (.state .cancelled, none)
  -- The stored vocabulary has no word for this state.
  | .superseded => (.state .observing, some (after.nextActionAt.getD now))

/- `reason[:_MAX_REASON]`. -/
def cut (reason : String) : String := String.ofList (reason.toList.take maxReason)

variable (after : Lifecycle)

/- What an operator reads for a scheduled retry. -/
def scheduledReason (eventReason : Option String) (view : View) : String :=
  match after.nextActionAt with
  | none => orText eventReason "exact effect awaiting bounded observation"
  | some due =>
    let stalled := view.stalledInterruptions after
    let note :=
      if order.kind == agentUpgrade then
        "agent upgrade retries automatically after " ++ view.isoformat due
      else if stalledInterruptionLimit ≤ stalled then
        order.kind ++ " was interrupted " ++ toString stalled ++ " times in a row " ++
          "(agent restart or lapsed lease) without " ++ "copying new bytes; retry slowed to " ++
          view.isoformat due
      else "exact " ++ order.kind ++ " interrupted; retry scheduled at " ++ view.isoformat due
    let note :=
      match order.recoveryDeadline with
      | none => note
      | some deadline => note ++ "; recovery deadline " ++ view.isoformat deadline
    match eventReason with
    | none => note
    | some reason =>
      if reason = "" then note
      else reason ++ "; " ++ note

/- The reason a decision is stored with, if any. -/
def storedReason (before after : Lifecycle) (view : View) : Option String :=
  let reason :=
    if after.state = .backoff ∧ order.currentAttempt = 0 then
      some (orText after.reason "queued again; it never ran")
    else if after.state = .backoff ∧
        (before.state ≠ .backoff ∨ after.nextActionAt ≠ before.nextActionAt) then
      some (scheduledReason order after after.reason view)
    else after.reason
  reason.map cut

/- `lapse`: the attempt can no longer report. -/
def StoredAttempt.lapse (attempt : StoredAttempt) : StoredAttempt :=
  { attempt with state := .observing (some .leaseLapsed) }

def AttemptState.isObserving : AttemptState → Bool
  | .observing _ => true
  | .running => false
  | .succeeded => false
  | .failed => false
  | .cancelled => false

/- A running attempt whose order stops running lapses. -/
def lapseRunning (before after : Lifecycle) (attempt : StoredAttempt) : StoredAttempt :=
  if before.state = .running ∧ after.state ∉ [State.running, .succeeded, .failed] ∧
      attempt.state = .running then
    attempt.lapse
  else attempt

/- A terminal order keeps its receipt, never a live claim. -/
def lapseEnded (attempt : StoredAttempt) : StoredAttempt :=
  if after.state ∈ [State.succeeded, .failed, .cancelled] ∧ attempt.state.isObserving ∧
      attempt.state ≠ .observing (some .leaseLapsed) then
    attempt.lapse
  else attempt

/- A retried upgrade keeps its lease until its fence ends. -/
def fenceUpgradeAttempt (notBefore : Option Int) (attempt : StoredAttempt) : StoredAttempt :=
  match notBefore with
  | none => attempt
  | some instant =>
    if order.kind == agentUpgrade then
      let attempt :=
        if attempt.state = .running then attempt.lapse
        else if attempt.state = .failed ∨ attempt.state.isObserving then attempt
        else { attempt with state := .observing (some .reportedUnknown) }
      { attempt with leaseDeadline := max attempt.leaseDeadline instant }
    else attempt

/- The due field `lifecycle_wait` leaves on the order. -/
def lifecycleWait (state : State) (due : Option Int) (leaseDeadline : Option Int) (now : Int) :
    Option Int :=
  if state ∈ [State.backoff, .observing, .needsOperator] ∨ (state = .queued ∧ due.isSome) ∨
      (state = .running ∧ due.isSome ∧ leaseDeadline.isNone) then
    some (due.getD now)
  else none

/- The recovery budget starts at the first uncertainty. -/
def budgeted (now : Int) : StoredOrder :=
  if order.recoveryDeadline.isNone ∧ 0 < order.currentAttempt ∧
      after.state ∈ [State.observing, .backoff] then
    { order with recoveryDeadline := some (stallDeadline now none) }
  else order

/- Only an observed order keeps its count. -/
def storedCount : Nat :=
  if after.state = .observing then after.observeCount
  else 0

/- The columns a decision writes when one of them changed. -/
def written (before after : Lifecycle) (view : View) (now : Int) : StoredOrder :=
  let target := stored order after now
  let reason := storedReason order before after view
  if order.state ≠ target.1 ∨ order.nextActionAt ≠ target.2 ∨
      order.observeCount ≠ storedCount after ∨ (reason.isSome ∧ order.statusReason ≠ reason) then
    { order with
      state := target.1, nextActionAt := target.2, observeCount := storedCount after,
      statusReason := reason.or order.statusReason }
  else order

/- Project a core decision onto the stored rows. -/
def apply (now : Int) (rows : Rows) (before after : Lifecycle) : Rows :=
  let order := budgeted rows.order after now
  let next := (stored order after now).2
  let attempt := rows.attempt.map (lapseEnded after ∘ lapseRunning before after)
  { order :=
      { written order before after view now with
        nextActionAt := lifecycleWait after.state next after.leaseDeadline now }
    attempt :=
      if after.state = .backoff then attempt.map (fenceUpgradeAttempt order next)
      else attempt }

----
-- Settling and starting
----

/- Whether an event first puts the effect in doubt. -/
def firstUncertainty : Event → Bool
  | .leaseLapsed _ => true
  | .reported report => report.endState.isNone
  | _ => false

def isLapseOrReport : Event → Bool
  | .leaseLapsed _ => true
  | .reported _ => true
  | _ => false

/- The recovery deadline an event leaves on the order. -/
def settledDeadline (event : Event) (now : Int) : Option Int :=
  match order.recoveryDeadline with
  | none =>
    if firstUncertainty event then some (stallDeadline now none)
    else none
  | some _ =>
    if isLapseOrReport event && view.advancedBytes then some (stallDeadline now none)
    else orderRecoveryDeadline order view now

/- Decisions are written in place and never refused. -/
def ledger (now : Int) : Reconciler.Ledger Rows :=
  { save := fun rows before after => some (apply view now rows before after)
    residue := fun rows _ reason =>
      { rows with
        order := { rows.order with statusReason := some (cut reason) } } }

/- Feed an event to the core and write what it decides. -/
def settle (rows : Rows) (view : View) (event : Event) (now : Int) : Reconciler.Settling Rows :=
  let rows :=
    { rows with
      order := { rows.order with recoveryDeadline := settledDeadline rows.order view event now } }
  Reconciler.settle (adapter view) view.executor (ledger view now) now (lifecycle rows view now)
    event rows

/- The rows a step leaves, and the pass it made, if any. -/
structure Answer where
  rows : Rows
  pass : Option (Reconciler.Settling Rows) := none

/-
  Record a claim: the next attempt, its fence and lease, a running order. The order is claimed if
  the core's answer to the claim is a running row.
-/
def startAttempt (rows : Rows) (view : View) (fence : String) (deadline : Int)
    (now : Int) : Answer :=
  if LifecycleCore.reached
      (orderRecoveryDeadline rows.order view now) now then
    let pass := settle rows view .tick now
    { rows := pass.store, pass := some pass }
  else
    let row := lifecycle rows view now
    let claimed := (LifecycleCore.transition row (.claimed (row.attempt + 1) fence deadline)
          (adapter view) now).row
    if claimed.state ≠ .running then { rows := rows }
    else
      { rows :=
          { order :=
              { rows.order with
                currentAttempt := rows.order.currentAttempt + 1, state := .state .running,
                nextActionAt := none, observeCount := 0, statusReason := none }
            attempt := some { fence := fence, leaseDeadline := deadline, state := .running } } }

end VonkForge.AgentOrders
