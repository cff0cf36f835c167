import VonkForge.Lifecycle.Types

/-
  The one transition function of the shared lifecycle core (`lifecycle/core.py`), helper by helper
  in source order.

  Main declarations:
    * `due`
    * `retry`, `observe`
    * `lost`
-/

namespace VonkForge.LifecycleCore

----
-- Budgets
----

/- Observations of an unknown effect at the backoff rate. -/
def observeBudget : Nat := 8

/- Unknown looks past the deadline that end a lost row. -/
def lostObservationBound : Nat := 6

/- Stops of a cancelled row before it is given up. -/
def stopBudget : Nat := 6

/- The operator actions that restart work. -/
def resumeActions : List String := [ActionName.resume.value, ActionName.retry.value]

----
-- Predicates
----

variable (row : Lifecycle)

/- A report or heartbeat fence that is not the row's. -/
def staleFence (fence : Option String) : Bool :=
  match fence, row.fence with
  | some theirs, some ours => theirs != ours
  | _, _ => false

/- Rule 7: a report under another fence is dropped. -/
def stale : Event → Bool
  | .reported report => staleFence row report.fence
  | .heartbeat fence _ => staleFence row fence
  | _ => false

/- No attempt started, or the effect is known absent. -/
def neverExecuted : Bool := row.attempt == 0 || row.effect == .none

variable (adapter : KindAdapter)

/- Rule 1: repeating the work repeats no visible effect. -/
def blindRetryIsSafe (effect : Option Effect) : Bool :=
  row.attempt == 0 || effect.getD row.effect == .none || !adapter.irreversible row

/- `deadline is not None and now >= deadline`. -/
def reached (deadline : Option Int) (now : Int) : Bool :=
  match deadline with
  | none => false
  | some instant => instant ≤ now

/- A clock that is set and lies in the future. -/
def pending (clock : Option Int) (now : Int) : Bool :=
  match clock with
  | none => false
  | some instant => now < instant

----
-- Builders
----

/- The recovery clock's answer, or now when it has none. -/
def scheduled (count : Nat) (now : Int) (notBefore : Option Int) : Int :=
  match recovery.nextAttempt row.id.text count now notBefore true with
  | .ok (some instant) => instant
  | .ok none => now
  | .error _ => now

/- The later of two optional lower bounds. -/
def laterBound (bound retryAfter : Option Int) : Option Int :=
  match retryAfter, bound with
  | none, _ => bound
  | some after, none => some after
  | some after, some instant => some (max instant after)

variable (now : Int)

/- The kind's own fence before a retry may start. -/
def notBefore (adapter : Option KindAdapter) : Option Int :=
  match adapter with
  | none => none
  | some kind => kind.retryNotBefore row now

/- `row.recovery_deadline or deadline_reader(row)`. -/
def deadlineOf (adapter : Option KindAdapter) : Option Int :=
  match row.recoveryDeadline with
  | some instant => some instant
  | none =>
    match adapter with
    | none => none
    | some kind => kind.ownDeadline row

/- Stable bounded backoff, cut off at the deadline. -/
def due (count : Nat) (now : Int) (adapter : Option KindAdapter) (retryAfter : Option Int) : Int :=
  let instant := scheduled row (max count 1) now (laterBound (notBefore row now adapter) retryAfter)
  match deadlineOf row adapter with
  | none => instant
  | some deadline => min instant deadline

/- Rule 1: schedule the next attempt. -/
def retry (adapter : KindAdapter) (effect : Effect)
    (reason : Option String) (retryAfter : Option Int) (consumesRetry : Bool) : Decision :=
  let count := row.retryCount + if consumesRetry then 1 else 0
  { row :=
      { row with
        state := .backoff
        retryCount := count
        observeCount := 0
        nextActionAt :=
          some (due row (if consumesRetry then count else waitStep) now (some adapter) retryAfter)
        leaseDeadline := none, effect := effect, reason := orElse reason row.reason } }

/- An observation counts only below the budget. -/
def countLook : Nat := row.observeCount + if row.observeCount < observeBudget then 1 else 0

/- Rule 2: inspect the effect before anything else. -/
def observe (row : Lifecycle) (now : Int) (reason : Option String) : Decision :=
  { row :=
      { row with
        state := .observing
        observeCount := countLook row
        nextActionAt := some (due row (countLook row) now none none)
        leaseDeadline := none
        effect :=
          if row.effect = .none then .unknown
          else row.effect
        reason := orElse reason row.reason }
    commands := [.observe] }

/- Rules 1 and 2 for an effect that may have happened. -/
def uncertain (effect : Option Effect)
    (reason : Option String) (retryAfter : Option Int) (consumesRetry : Bool) : Decision :=
  if reached row.recoveryDeadline now then observe row now reason
  else if blindRetryIsSafe row adapter effect then
    retry row now adapter (effect.getD row.effect) reason retryAfter consumesRetry
  else observe row now reason

/- The looks past the deadline a row has counted. -/
def looked (observed : Bool) : Nat := (row.observeCount - observeBudget) + if observed then 1 else 0

variable (reason : Option String)

/- Rule 3: a spent budget keeps the unknown effect. -/
def lost (commands : List Command) (observed : Bool) : Decision :=
  if lostObservationBound ≤ looked row observed then
    { row :=
        { row with
          state := .failed, observeCount := observeBudget + looked row observed, effect := .unknown,
          nextActionAt := none, leaseDeadline := none,
          reason := some WaitReason.runtimeEffectUnconfirmed.value }
      commands := [.recordResidue WaitReason.runtimeEffectUnconfirmed.value] }
  else
    { row :=
        { row with
          state := .observing, observeCount := observeBudget + looked row observed,
          nextActionAt := some (scheduled row observeBudget now none), leaseDeadline := none,
          effect := .unknown, reason := orElse reason row.reason }
      commands := commands }

def unknownAfterObservation (commands : List Command) : Decision :=
  if !adapter.irreversible row ||
      blindRetryIsSafe row adapter none then
    retry row now adapter row.effect reason none true
  else if observeBudget ≤ row.observeCount then lost row now reason commands false
  else
    { row :=
        { row with
          state := .observing, nextActionAt := some (due row row.observeCount now none none),
          reason := orElse reason row.reason } }

----
-- Cancel
----

/- Set once, never cleared; the first key is kept. -/
def withCancelFlag (key : Option String) : Lifecycle :=
  if row.cancelRequested then row
  else { row with cancelRequestedAt := some now, cancelRequestKey := key }

/- What an answer, or the row itself, proves stopped. -/
def provenStopped (observed : Option Effect) : Bool :=
  match observed with
  | some .stopped => true
  | some .none => true
  | some _ => false
  | none => neverExecuted row

/-
  Rule 4. `observed` is what a stop or an inspection just proved; without `issueStop` an answer is
  recorded and the next tick issues the stop.
-/
def advanceCancel (observed : Option Effect)
    (reason : Option String) (issueStop : Bool) : Decision :=
  if provenStopped row observed then
    { row :=
        { row with
          state := .cancelled, effect := observed.getD .none, nextActionAt := none,
          leaseDeadline := none,
          reason := some (orText (orElse reason row.reason) operationCancelled) } }
  else if stopBudget ≤ row.observeCount then
    { row :=
        { row with
          state := .cancelled, effect := .unknown, nextActionAt := none, leaseDeadline := none,
          reason := some WaitReason.stopUnconfirmed.value }
      commands := [.recordResidue WaitReason.stopUnconfirmed.value] }
  else
    let count := row.observeCount + if issueStop then 1 else 0
    { row :=
        { row with
          state := .observing, observeCount := count,
          nextActionAt := some (due row count now none none), leaseDeadline := none,
          effect := observed.getD .unknown, reason := orElse reason row.reason }
      commands := if issueStop then [.stop] else [] }

def cancel (requestKey reason : Option String) (now : Int) : Decision :=
  if row.cancelRequested && row.state == .observing then { row := row }
  else advanceCancel (withCancelFlag row now requestKey) now none reason true

----
-- Events
----

def submitted : Decision :=
  if row.state == .queued && row.attempt == 0 then { row := { row with effect := .none } }
  else { row := row }

/- Queued work, or a retry whose time has come. -/
def claimable : Bool :=
  row.state == .queued || (row.state == .backoff && !pending row.nextActionAt now)

def claimed (attempt : Nat) (fence : String) (leaseDeadline : Int) (now : Int) : Decision :=
  if !claimable row now || row.cancelRequested ||
      decide (attempt ≤ row.attempt) then
    { row := row }
  else
    { row :=
        { row with
          state := .running, attempt := attempt, fence := some fence,
          leaseDeadline := some leaseDeadline, nextActionAt := some leaseDeadline,
          effect := .issued, observeCount := 0 } }

/- A heartbeat that does not extend the lease. -/
def noLaterLease (leaseDeadline : Int) : Bool :=
  match row.leaseDeadline with
  | none => false
  | some instant => leaseDeadline ≤ instant

def heartbeat (leaseDeadline : Int) : Decision :=
  if row.state != .running ||
      noLaterLease row leaseDeadline then
    { row := row }
  else
    { row := { row with leaseDeadline := some leaseDeadline, nextActionAt := some leaseDeadline } }

/- `_end`: a definite report ends the row. -/
def endWith (state : State) (effect : Effect) (reason : Option String) : Decision :=
  { row :=
      { row with
        state := state, effect := effect, nextActionAt := none, leaseDeadline := none,
        reason := orElse reason row.reason } }

/- A report's own proof that nothing is left to stop. -/
def knownStopped (effect : Option Effect) : Option Effect :=
  match effect with
  | some .stopped => some .stopped
  | some .none => some .none
  | _ => none

/- A report that is not definite. -/
def reportedUncertain (report : Report) (adapter : KindAdapter) (now : Int) : Decision :=
  if row.cancelRequested then
    advanceCancel row now (knownStopped report.effect) report.reason (row.state != .observing)
  else uncertain row adapter now report.effect report.reason report.retryAfter report.consumesRetry

def reported (report : Report) (adapter : KindAdapter) (now : Int) : Decision :=
  match report.outcome with
  | .done => endWith row .succeeded (report.effect.getD .established) report.reason
  | .cancelled => endWith row .cancelled (report.effect.getD .stopped) report.reason
  | .failed =>
    if report.retryable then reportedUncertain row report adapter now
    else endWith row .failed (report.effect.getD row.effect) report.reason
  | .unknown => reportedUncertain row report adapter now

def lapsed : Decision :=
  if row.state != .running then { row := row }
  else if row.cancelRequested then advanceCancel row now none reason true
  else uncertain row adapter now none (some (orText reason WaitReason.leaseLapsed.value)) none true

def observed (effect : Effect) (reason : Option String)
    (adapter : KindAdapter) (now : Int) : Decision :=
  if row.cancelRequested then advanceCancel row now (some effect) reason false
  else if row.state != .observing &&
      row.state != .needsOperator then
    { row := row }
  else if reached (deadlineOf row (some adapter)) now &&
      effect != .established then
    if effect == .unknown &&
        !blindRetryIsSafe row adapter none then
      lost row now reason [] true
    else
      let why := orText (orElse reason row.reason) WaitReason.runtimeEffectUnconfirmed.value
      { row :=
          { row with
            state := .failed, effect := effect, nextActionAt := none, leaseDeadline := none,
            reason := some why }
        commands :=
          if effect = .unknown then [.recordResidue why]
          else [] }
  else
    match effect with
    | .established =>
      { row :=
          { row with
            state := .succeeded, effect := .established, nextActionAt := none,
            reason := orElse reason row.reason } }
    | .stopped =>
      -- An irreversible effect that ran and ceased ends.
      if blindRetryIsSafe row adapter none then retry row now adapter .none reason none true
      else
        { row :=
            { row with
              state := .failed, effect := .stopped, nextActionAt := none, leaseDeadline := none,
              reason := orElse reason row.reason } }
    | .none => retry row now adapter .none reason none true
    | .unknown => unknownAfterObservation row adapter now reason []
    | .issued => unknownAfterObservation row adapter now reason []

def operator (name : String) (reason : Option String)
    (adapter : KindAdapter) (now : Int) : Decision :=
  if name ∉ adapter.actions row then { row := row }
  else if name = ActionName.stop.value then
    if row.cancelRequested then { row := row }
    else
      advanceCancel (withCancelFlag row now none) now none
        (some (orText reason ActionName.stop.value)) true
  else if row.state != .needsOperator &&
      row.state != .observing then
    { row := row }
  else if name ∈ resumeActions then
    { row :=
        { row with
          state := .queued, retryCount := 0, observeCount := 0, nextActionAt := none,
          reason := some (orText reason ActionName.resume.value) } }
  else if name = ActionName.retire.value then
    { row :=
        { row with
          state := .failed, effect := .unknown, nextActionAt := none,
          reason := some (orText reason ActionName.retire.value) } }
  else { row := row }

----
-- Tick
----

/- Rules 1 to 3 for a parked row. -/
def reevaluateParked : Decision :=
  if row.effect = .established then
    observed { row with state := .observing } .established none adapter now
  else if row.effect == .stopped &&
      !adapter.irreversible row then
    retry row now adapter .none row.reason none true
  else if blindRetryIsSafe row adapter none then
    retry row now adapter row.effect row.reason none true
  else if observeBudget ≤ row.observeCount then lost row now row.reason [.observe] false
  else observe row now row.reason

def tick : Decision :=
  if row.cancelRequested then
    if pending row.nextActionAt now then { row := row }
    else advanceCancel row now none none true
  else if pending row.nextActionAt now then { row := row }
  else if reached row.recoveryDeadline now &&
      row.state != .running then
    observe row now row.reason
  else
    match row.state with
    | .queued =>
      { row := { row with state := .queued, nextActionAt := none }
        commands := [.execute] }
    | .backoff =>
      { row := { row with state := .queued, nextActionAt := none }
        commands := [.execute] }
    | .running =>
      if pending row.leaseDeadline now then
        { row := { row with nextActionAt := row.leaseDeadline } }
      else lapsed row adapter now none
    | .observing =>
      if observeBudget ≤ row.observeCount then
        unknownAfterObservation row adapter now none [.observe]
      else
        { row :=
            { row with
              observeCount := row.observeCount + 1,
              nextActionAt := some (due row (row.observeCount + 1) now none none) }
          commands := [.observe] }
    | .needsOperator => reevaluateParked row adapter now
    | .succeeded => { row := row }
    | .failed => { row := row }
    | .cancelled => { row := row }
    | .superseded => { row := row }

----
-- Transition
----

variable (event : Event) (adapter : KindAdapter) (now : Int)

/- The adapter's own deadline has passed for a row that is not being cancelled. -/
def expired : Bool :=
  reached (adapter.ownDeadline row) now && !row.cancelRequested && !event.isCancelRequested

/- Past its adapter's own deadline a row is only looked at. -/
def pastOwnDeadline : Decision :=
  match event with
  | .observed effect reason =>
    if effect == .unknown &&
        !blindRetryIsSafe row adapter none then
      lost row now reason [] true
    else
      let why := orElse reason row.reason
      { row :=
          { row with
            state :=
              if effect = .established then .succeeded
              else .failed
            effect := effect, nextActionAt := none, leaseDeadline := none, reason := why }
        commands :=
          if effect = .unknown then
            [.recordResidue (orText why WaitReason.runtimeEffectUnconfirmed.value)]
          else [] }
  | _ =>
    { row :=
        { row with
          state := .observing, nextActionAt := some now, leaseDeadline := none,
          observeCount := countLook row, effect := .unknown }
      commands := [.observe] }

/- The event dispatch of `transition`. -/
def dispatch : Decision :=
  match event with
  | .cancelRequested requestKey reason => cancel row requestKey reason now
  | .submitted => submitted row
  | .claimed attempt fence leaseDeadline => claimed row attempt fence leaseDeadline now
  | .heartbeat _ leaseDeadline => heartbeat row leaseDeadline
  | .reported report => reported row report adapter now
  | .leaseLapsed reason => lapsed row adapter now reason
  | .observed effect reason => observed row effect reason adapter now
  | .operatorAction name reason => operator row name reason adapter now
  | .tick => tick row adapter now

/- Decide the next row and the commands for an event. -/
def transition : Decision :=
  if row.terminal then { row := row }
  else if stale row event then { row := row }
  else if expired row event adapter now then pastOwnDeadline row event adapter now
  else dispatch row event adapter now

end VonkForge.LifecycleCore
