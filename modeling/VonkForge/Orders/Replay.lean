import VonkForge.Foundations.Epoch
import VonkForge.Orders.Coupling

/-
  No blind replay through the store.

  An order stores no effect and reads a retry and an observation apart by the observation count
  alone. Along a run every step starts from what the last one stored, so the guard of the core has
  to survive being written and read back.

  Main declarations:
    * `Input`, `machine`
    * `CreatesAttempt`
    * `answer_stepped`
    * `no_blind_replay_through_store`
-/

----
-- Steps of a stored Order
----

namespace VonkForge.AgentOrders

open LifecycleCore

/-
  What happens to a stored order: its owners settle it, its Spark starts an attempt, and the row of
  the attempt is written by heartbeats and receipts.
-/
inductive Input where
  | settle (event : OrderEvent) (view : View) (now : Int)
  | start (fence : String) (deadline : Int) (view : View) (now : Int)
  | attemptWritten (attempt : Option StoredAttempt)

/- What the step read elsewhere, if it decided anything. -/
def viewOf : Input → Option View
  | .settle _ view _ => some view
  | .start _ _ view _ => some view
  | .attemptWritten _ => none

def answer (rows : Rows) : Input → Answer
  | .settle event view now =>
    let pass := AgentOrders.settle rows view event.event now
    { rows := pass.store, pass := some pass }
  | .start fence deadline view now => startAttempt rows view fence deadline now
  | .attemptWritten attempt => { rows := { rows with attempt := attempt } }

/- Every step starts from what the last one stored. -/
def machine : Machine Rows Input Answer := { answer := answer, next := Answer.rows }

abbrev Step := Machine.Step Rows Input Answer

/- The step starts attempt `n` of the order. -/
def CreatesAttempt (n : Nat) (step : Step) : Prop :=
  ∃ fence deadline view now, step.input = .start fence deadline view now ∧
    step.before.order.currentAttempt + 1 = n ∧ step.output.rows.order.currentAttempt = n

/- The step starts an attempt of an order not running. -/
def StartsAnew (step : Step) : Prop :=
  step.before.order.state ≠ .state .running ∧ ∃ n, CreatesAttempt n step

/- An event of the step's pass licenses a repetition. -/
def licensing (step : Step) : Bool :=
  match viewOf step.input, step.output.pass with
  | some view, some pass => licensedIn view pass.fed
  | _, _ => false

variable {rows : Rows} {view : View} {now : Int}

/-
  What a step does to the order. A start past the recovery deadline is a settled tick, and one that
  the core refuses leaves the order as it was.
-/
inductive Stepped (rows : Rows) (input : Input) (answer : Answer) : Prop where
  | settled (event : OrderEvent) (view : View) (now : Int) (hView : viewOf input = some view)
      (hPass : answer.pass = some (settle rows view event.event now))
      (hRows : answer.rows = (settle rows view event.event now).store)
  | created (fence : String) (deadline : Int) (view : View) (now : Int)
      (hInput : input = .start fence deadline view now)
      (hClaimed : (transition (lifecycle rows view now) (.claimed (rows.order.currentAttempt + 1)
        fence deadline) (adapter view) now).row.state = .running) (hPass : answer.pass = none)
      (hKind : answer.rows.order.kind = rows.order.kind)
      (hState : answer.rows.order.state = .state .running)
      (hAttempt : answer.rows.order.currentAttempt = rows.order.currentAttempt + 1)
  | kept (hPass : answer.pass = none) (hOrder : answer.rows.order = rows.order)

/- Every input settles an event, creates an attempt or keeps the order. -/
theorem answer_stepped
    (rows : Rows)
    (input : Input) :
    Stepped rows input (answer rows input) := by
  cases input with
  | settle event view now => exact Stepped.settled event view now rfl rfl rfl
  | start fence deadline view now =>
    simp only [answer, startAttempt]
    split
    · exact Stepped.settled .tick view now rfl rfl rfl
    · split
      · exact Stepped.kept rfl rfl
      · next hClaimed =>
          exact Stepped.created fence deadline view now rfl (not_not.mp hClaimed) rfl rfl rfl rfl
  | attemptWritten => exact Stepped.kept rfl rfl

/- An order that is guarded and not running is refused. -/
theorem not_created (hAttempt : 1 ≤ rows.order.currentAttempt)
    (hOffered : ¬ Offered (readState rows.order))
    (hStored : rows.order.state ≠ .state .running) (fence : String) (deadline : Int) :
    (transition (lifecycle rows view now) (.claimed (rows.order.currentAttempt + 1) fence deadline)
      (adapter view) now).row.state ≠ .running := by
  have hGuard : Guarded (lifecycle rows view now) := lifecycle_guarded hAttempt hOffered
  rw [hGuard.claim_refused rfl, lifecycle_state]
  exact fun hRunning => hStored (word_of_running hRunning)

/- An order that is not offered again. -/
def OrderGuarded (rows : Rows) : Prop := ¬ Offered (readState rows.order)

variable {input : Input} {answer : Answer}

section

variable (hStepped : Stepped rows input answer)

include hStepped

theorem Stepped.kind : answer.rows.order.kind = rows.order.kind := by
  cases hStepped with
  | settled event view now _ _ hRows =>
    rw [hRows]
    exact (settle_sound rows view event now).store.kind
  | created _ _ _ _ _ _ _ hKind => exact hKind
  | kept _ hOrder => rw [hOrder]

/- Only a start that was claimed raises the attempt. -/
theorem Stepped.raised
    (hRaised : answer.rows.order.currentAttempt ≠ rows.order.currentAttempt) :
    CreatesAttempt answer.rows.order.currentAttempt ⟨rows, input, answer⟩ ∧
    OrderGuarded answer.rows := by
  cases hStepped with
  | settled event view now _ _ hRows =>
    rw [hRows] at hRaised
    exact absurd (settle_sound rows view event now).store.attempt hRaised
  | created fence deadline view now hInput _ _ _ hState hAttempt =>
    refine ⟨⟨fence, deadline, view, now, hInput, hAttempt.symm, rfl⟩, ?_⟩
    have hRunning : readState answer.rows.order = .running := readState_of_word hState rfl
    rintro (hQueued | hBackoff)
    · simp [hRunning] at hQueued
    · simp [hRunning] at hBackoff
  | kept _ hOrder =>
    rw [hOrder] at hRaised
    exact absurd rfl hRaised

/- A step without a licence keeps the guard. -/
theorem Stepped.guarded
    (hKind : rows.order.kind ∈ irreversibleOperations) (hAttempt : 1 ≤ rows.order.currentAttempt)
    (hGuard : OrderGuarded rows)
    (hSame : answer.rows.order.currentAttempt = rows.order.currentAttempt)
    (hSilent : licensing ⟨rows, input, answer⟩ = false) : OrderGuarded answer.rows := by
  cases hStepped with
  | settled event view now hView hPass hRows =>
    rw [hRows]
    simp only [licensing, hView, hPass] at hSilent
    rcases settle_guarded hKind hAttempt hGuard view event now with hRow | hLicensed
    · exact (settle_sound rows view event now).store.reads.not_offered hRow
    · rw [hLicensed] at hSilent
      cases hSilent
  | created => omega
  | kept _ hOrder =>
    unfold OrderGuarded
    rw [hOrder]
    exact hGuard

/- A guarded order that is not running gets no attempt. -/
theorem Stepped.not_anew
    (hAttempt : 1 ≤ rows.order.currentAttempt) (hGuard : OrderGuarded rows) :
    ¬ StartsAnew ⟨rows, input, answer⟩ := by
  rintro ⟨hStored, _, _, _, _, _, _, hBefore, hAfter⟩
  simp only at hStored hBefore hAfter
  cases hStepped with
  | settled event view now _ _ hRows =>
    have hSame := (settle_sound rows view event now).store.attempt
    rw [hRows] at hAfter
    omega
  | created _ _ _ _ _ hClaimed => exact not_created hAttempt hGuard hStored _ _ hClaimed
  | kept _ hOrder =>
    rw [hOrder] at hAfter
    omega

/- A step that leaves the core observing is read so. -/
theorem Stepped.observing {pass : Reconciler.Settling Rows}
    (hPass : answer.pass = some pass) (hRow : pass.row.state = .observing) :
    readState answer.rows.order = .observing := by
  cases hStepped with
  | settled event view now _ hOwn hRows =>
    rw [hOwn] at hPass
    obtain rfl := Option.some.inj hPass
    have hReads := (settle_sound rows view event now).store.reads
    rw [hRow] at hReads
    rw [hRows]
    exact hReads.observing
  | created _ _ _ _ _ _ hNone | kept hNone =>
    rw [hNone] at hPass
    cases hPass

end

/-
  No blind replay through the store. In every run of an irreversible order from its creation, a
  start that finds the order not running creates attempt `n + 1` only after a licence that a pass
  fed since attempt `n` started; and an order the core left observing is read as observed.
-/
theorem no_blind_replay_through_store
    (order : StoredOrder)
    (hNew : order.New)
    (hKind : order.kind ∈ irreversibleOperations)
    (inputs : List Input)
    (k : Nat)
    (step : Step)
    (hStep :
      (machine.trace { order := order } inputs)[k]? = some step) :
    (∀ n,
       1 ≤ n →
       CreatesAttempt (n + 1) step →
       step.before.order.state ≠ .state .running →
       ∃ (i j : Nat) (starting granting : Step),
         i < j ∧
         j < k ∧
         (machine.trace { order := order } inputs)[i]? = some starting ∧
         CreatesAttempt n starting ∧
         (machine.trace { order := order } inputs)[j]? = some granting ∧
         licensing granting = true) ∧
    ∀ pass,
      step.output.pass = some pass →
      pass.row.state = .observing →
      ∀ view now,
        (lifecycle step.output.rows view now).state = .observing := by
  constructor
  · intro n hPositive hCreates hStored
    have hEpoch : step.before.order.currentAttempt = n := by
      rcases hCreates with ⟨_, _, _, _, _, _, _⟩
      omega
    have hAnew : StartsAnew step := ⟨hStored, n + 1, hCreates⟩
    have hGranted : Machine.GrantedSince CreatesAttempt
          (fun step => licensing step = true)
          step.before.order.currentAttempt
          ((machine.trace { order := order } inputs).take k) := by
      -- The epoch is the attempt and the guard is that the
      -- order is not offered; its kind never changes.
      refine machine.grantedSince_of_needs (fun rows => rows.order.kind ∈ irreversibleOperations)
        OrderGuarded (fun rows => rows.order.currentAttempt) ?_ ?_ ?_ ?_ hKind hNew.attempt hStep ?_
        hAnew
      · intro rows input hRows
        have hSame := (answer_stepped rows input).kind
        exact hSame ▸ hRows
      · intro rows input _ hRaised
        exact (answer_stepped rows input).raised hRaised
      · intro rows input hRows hSame hAttempt hGuard hSilent
        exact (answer_stepped rows input).guarded hRows
          hAttempt hGuard hSame (eq_false_of_ne_true hSilent)
      · intro rows input _ hAttempt hGuard
        exact (answer_stepped rows input).not_anew hAttempt hGuard
      · rw [hEpoch]
        exact hPositive
    rw [hEpoch] at hGranted
    exact hGranted.positions
  · intro _ hPass hRow _ _
    rcases machine.exists_of_getElem?_trace hStep with ⟨input, _, rfl⟩
    exact (answer_stepped _ input).observing hPass hRow

/- A view whose executor answers every look with `effect`. -/
def answering (effect : Effect) : View :=
  { isoformat := fun _ => ""
    executor :=
      { observe := fun _ => .ok (effect, none)
        stop := fun _ => .ok .unconfirmed } }

/- A one-shot job's order as it is created. -/
def jobOrder : StoredOrder := { id := newOrder.id, kind := recipeJobRun, parentJobId := "job" }

theorem jobOrder_new : jobOrder.New := ⟨rfl, rfl, rfl, rfl⟩

/-
  The order is started and lapses, its effect is unknown and then absent, and it is started again.
-/
def relaunchedRun : List Input :=
  [ .start "first" 10 (answering .unknown) 0, .settle (.leaseLapsed none) (answering .unknown) 10,
    .settle .tick (answering .none) (100 * second),
    .start "second" (300 * second) (answering .unknown) (200 * second) ]

/- The step that follows the first `k` inputs of the run. -/
def relaunchedStep (k : Nat) (input : Input) : Step :=
  machine.step (machine.final { order := jobOrder } (relaunchedRun.take k)) input

/- The pass of the lapse and the second start. -/
def lapsedStep : Step := relaunchedStep 1 (.settle (.leaseLapsed none) (answering .unknown) 10)

def secondStart : Step :=
  relaunchedStep 3 (.start "second" (300 * second) (answering .unknown) (200 * second))

/- The relaunched order has its licence, and a lapsed one is observed before anything else. -/
theorem no_blind_replay_through_store_relaunched :
    (∃ (i j : Nat) (starting granting : Step),
       i < j ∧
       j < 3 ∧
       (machine.trace { order := jobOrder } relaunchedRun)[i]? =
         some starting ∧
       CreatesAttempt 1 starting ∧
       (machine.trace { order := jobOrder } relaunchedRun)[j]? =
         some granting ∧
       licensing granting = true) ∧
    (lifecycle lapsedStep.output.rows (answering .none) 20).state =
      .observing := by
  have hSecond : (machine.trace { order := jobOrder } relaunchedRun)[3]? = some secondStart :=
    machine.getElem?_trace_of rfl
  have hLapsed : (machine.trace { order := jobOrder } relaunchedRun)[1]? = some lapsedStep :=
    machine.getElem?_trace_of rfl
  have hCreates : CreatesAttempt 2 secondStart :=
    ⟨_, _, _, _, rfl, by decide +kernel, by decide +kernel⟩
  have hStored : secondStart.before.order.state ≠ .state .running := by decide +kernel
  have hObserving : (settle lapsedStep.before (answering .unknown) (.leaseLapsed none) 10).row.state
    = .observing := by decide +kernel
  exact ⟨(no_blind_replay_through_store jobOrder jobOrder_new
      (by decide) relaunchedRun 3 secondStart hSecond).1 1 (by decide) hCreates hStored,
    (no_blind_replay_through_store jobOrder jobOrder_new
      (by decide) relaunchedRun 1 lapsedStep hLapsed).2 _ rfl hObserving _ _⟩

/-
  A tick leaves a started order running, and the next start is taken although the core refuses the
  claim: its answer is the running row it was asked about.
-/
def reclaimedRun : List Input :=
  [ .settle .tick (answering .unknown) 0, .start "first" (30 * second) (answering .unknown) 0,
    .settle .tick (answering .unknown) 1, .start "second" (30 * second) (answering .unknown) 1 ]

/- The second start of that order. -/
def reclaimingStart : Step := machine.step
    (machine.final { order := jobOrder } (reclaimedRun.take 3))
    (.start "second" (30 * second) (answering .unknown) 1)

/- No step of that run is a licence, and the second attempt starts. -/
theorem running_order_is_started_again :
    jobOrder.New ∧
    jobOrder.kind ∈ irreversibleOperations ∧
    (machine.trace { order := jobOrder } reclaimedRun)[3]? =
      some reclaimingStart ∧
    CreatesAttempt 2 reclaimingStart ∧
    (machine.trace { order := jobOrder } reclaimedRun).all
      (fun step => !licensing step) =
      true := by
  refine ⟨jobOrder_new, by decide, ?_, ?_, ?_⟩
  · exact machine.getElem?_trace_of rfl
  · exact ⟨_, _, _, _, rfl, by decide +kernel, by decide +kernel⟩
  · decide +kernel

end VonkForge.AgentOrders
