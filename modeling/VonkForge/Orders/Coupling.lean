import VonkForge.Lifecycle.Counted
import VonkForge.Lifecycle.Replay
import VonkForge.Orders.Store

/-
  The coupling of a core row with its stored order.

  What a decision writes reads back as the state it decided, up to the two kinds of offer. A pass
  over an order keeps the coupling, and keeps a guarded order from being offered unless it is fed a
  licence.

  Main declarations:
    * `Offered`, `Reads`
    * `Wrote.reads`
    * `settle_sound`
    * `settle_guarded`
-/

----
-- Reading back what was written
----

namespace VonkForge.AgentOrders

open LifecycleCore

/- Work that is offered to its Spark, now or when due. -/
def Offered (state : State) : Prop := state = .queued ∨ state = .backoff

/-
  An order reads as a decided state. An offer may be read as the other kind of offer: a queued retry
  waits, and a retry of an order that never ran is queued.
-/
def Reads (order : StoredOrder) (state : State) : Prop :=
  readState order = state ∨ (Offered (readState order) ∧ Offered state)

variable {order : StoredOrder} {rows : Rows} {view : View} {now : Int}

@[simp] theorem lifecycle_state (rows : Rows) (view : View) (now : Int) :
    (lifecycle rows view now).state = readState rows.order := rfl

/- The three readings of a parked order. -/
theorem readParked_cases (order : StoredOrder) : (readParked order).1 = .backoff ∨
    ((readParked order).1 = .observing ∧ retryScheduled order = none ∧ order.nextActionAt.isSome) ∨
    (readParked order).1 = .needsOperator := by
  unfold readParked
  cases hRetry : retryScheduled order with
  | some => exact Or.inl rfl
  | none =>
    cases hNext : order.nextActionAt with
    | some => exact Or.inr (Or.inl ⟨rfl, rfl, rfl⟩)
    | none => exact Or.inr (Or.inr rfl)

/- A parked order that has a clock and no count retries. -/
theorem retryScheduled_of_uncounted (hState : order.state = .state .backoff ∨
      order.state = .state .observing) (hCount : order.observeCount = 0) :
    retryScheduled order = order.nextActionAt := by
  rcases hState with hState | hState
  · simp [retryScheduled, hState, hCount]
  · simp [retryScheduled, hState, hCount]

theorem retryScheduled_of_counted (hCount : 0 < order.observeCount) :
    retryScheduled order = none := by
  have hZero : order.observeCount ≠ 0 := by omega
  unfold retryScheduled
  split
  · simp [hZero]
  · simp [hZero]
  · rfl

theorem readParked_counted
    (hState : order.state = .state .backoff ∨ order.state = .state .observing) :
    (readParked order).1 = .observing → 0 < order.observeCount := by
  intro hObserving
  rcases readParked_cases order with hRetry | ⟨_, hNone, hSome⟩ | hWait
  · simp [hRetry] at hObserving
  · rcases Nat.eq_zero_or_pos order.observeCount with hCount | hCount
    · rw [retryScheduled_of_uncounted hState hCount] at hNone
      simp [hNone] at hSome
    · exact hCount
  · simp [hWait] at hObserving

/- Only a parked order reads as an observation. -/
theorem readState_cases (order : StoredOrder) :
    ((order.state = .state .backoff ∨ order.state = .state .observing) ∧
      readState order = (readParked order).1) ∨
    (readState order ≠ .observing ∧ readState order ≠ .superseded) := by
  unfold readState
  cases hWord : order.state with
  | other =>
    right
    simp
  | state state =>
    cases state with
    | backoff => exact Or.inl ⟨Or.inl rfl, rfl⟩
    | observing => exact Or.inl ⟨Or.inr rfl, rfl⟩
    | _ =>
      right
      simp

/- Only an order stored as running reads as running. -/
theorem word_of_running (hRunning : readState order = .running) :
    order.state = .state .running := by
  have hParked : (readParked order).1 ≠ .running := by
    rcases readParked_cases order with hRetry | ⟨hLook, _⟩ | hWait
    · simp [hRetry]
    · simp [hLook]
    · simp [hWait]
  unfold readState at hRunning
  cases hWord : order.state with
  | other => simp [hWord] at hRunning
  | state state =>
    cases state with
    | running => rfl
    | backoff | observing => simp [hWord, hParked] at hRunning
    | _ => simp [hWord] at hRunning

/- What is read from the store is counted, whatever it is. -/
theorem lifecycle_counted (rows : Rows) (view : View) (now : Int) :
    Counted (lifecycle rows view now) := by
  rcases readState_cases rows.order with ⟨hParked, hRead⟩ | ⟨hObserving, hSuperseded⟩
  · constructor
    · intro hLook
      rw [lifecycle_state, hRead] at hLook
      exact readParked_counted hParked hLook
    · rw [lifecycle_state, hRead]
      rcases readParked_cases rows.order with hRetry | ⟨hLook, _⟩ | hWait
      · simp [hRetry]
      · simp [hLook]
      · simp [hWait]
  · exact ⟨fun hLook => absurd hLook hObserving, hSuperseded⟩

/- Work that may have run is guarded unless it is offered. -/
theorem lifecycle_guarded (hAttempt : 1 ≤ rows.order.currentAttempt)
    (hOffered : ¬ Offered (readState rows.order)) : Guarded (lifecycle rows view now) := by
  have hZero : rows.order.currentAttempt ≠ 0 := by omega
  refine ⟨?_, fun hQueued => hOffered (Or.inl hQueued), fun hBackoff => hOffered (Or.inr hBackoff)⟩
  change readEffect rows.order ≠ .none
  unfold readEffect
  split
  · simp
  · simp
  · simp [hZero]
  · simp [hZero]

/- The stored words that read as the state they spell. -/
def plainWord : State → Bool
  | .backoff => false
  | .observing => false
  | .superseded => false
  | _ => true

variable {origin : StoredOrder} {state : State} {after : Lifecycle}

theorem readState_of_word (hWord : order.state = .state state) (hPlain : plainWord state) :
    readState order = state := by
  unfold readState
  rw [hWord]
  cases state with
  | backoff | observing | superseded => cases hPlain
  | _ => rfl

theorem readState_of_retry {due : Int} (hWord : order.state = .state .backoff)
    (hNext : order.nextActionAt = some due) (hCount : order.observeCount = 0) :
    readState order = .backoff := by
  have hRetry : retryScheduled order = some due := by
    rw [retryScheduled_of_uncounted (Or.inl hWord) hCount, hNext]
  simp [readState, hWord, readParked, hRetry]

theorem readState_of_look {due : Int} (hWord : order.state = .state .observing)
    (hNext : order.nextActionAt = some due) (hCount : 0 < order.observeCount) :
    readState order = .observing := by
  have hRetry : retryScheduled order = none := retryScheduled_of_counted hCount
  simp [readState, hWord, readParked, hRetry, hNext]

/- What a decision leaves on the stored order. -/
structure Wrote (origin : StoredOrder) (after : Lifecycle) (now : Int)
    (order : StoredOrder) : Prop where
  kind : order.kind = origin.kind
  attempt : order.currentAttempt = origin.currentAttempt
  word : order.state = (stored origin after now).1
  next : order.nextActionAt =
      lifecycleWait after.state (stored origin after now).2 after.leaseDeadline now
  count : order.observeCount = storedCount after

/- An unchanged order already has the written columns. -/
theorem written_columns (order : StoredOrder) (before after : Lifecycle) (view : View) (now : Int) :
    (written order before after view now).state = (stored order after now).1 ∧
    (written order before after view now).observeCount = storedCount after ∧
    (written order before after view now).kind = order.kind ∧
    (written order before after view now).currentAttempt = order.currentAttempt := by
  simp only [written]
  split
  · exact ⟨rfl, rfl, rfl, rfl⟩
  · next hSame =>
      rcases not_or.mp hSame with ⟨hWord, hRest⟩
      rcases not_or.mp hRest with ⟨_, hRest⟩
      rcases not_or.mp hRest with ⟨hCount, _⟩
      exact ⟨not_not.mp hWord, not_not.mp hCount, rfl, rfl⟩

theorem apply_wrote (view : View) (now : Int) (rows : Rows) (before after : Lifecycle) :
    Wrote rows.order after now (apply view now rows before after).order := by
  have hBudget : (budgeted rows.order after now).kind = rows.order.kind ∧
      (budgeted rows.order after now).currentAttempt = rows.order.currentAttempt := by
    unfold budgeted
    split
    · exact ⟨rfl, rfl⟩
    · exact ⟨rfl, rfl⟩
  have hStored : stored (budgeted rows.order after now) after now = stored rows.order after now :=
    by simp only [stored, hBudget.2]
  rcases written_columns (budgeted rows.order after now)
      before after view now with
    ⟨hWord, hCount, hKind, hAttempt⟩
  constructor
  · exact hKind.trans hBudget.1
  · exact hAttempt.trans hBudget.2
  · rw [← hStored]
    exact hWord
  · rw [← hStored]
    rfl
  · exact hCount

section

variable (hWrote : Wrote origin after now order)

include hWrote

/- An offer is stored as an offer, queued or retried. -/
theorem Wrote.offered (hOffered : Offered after.state) : Offered (readState order) := by
  have hStored : stored origin after now =
        if origin.currentAttempt = 0 then (.state .queued, none)
        else (.state .backoff, some (after.nextActionAt.getD now)) := by
    rcases hOffered with hState | hState
    · simp only [stored, hState]
    · simp only [stored, hState]
  have hCount : order.observeCount = 0 := by
    rw [hWrote.count]
    rcases hOffered with hState | hState
    · simp [storedCount, hState]
    · simp [storedCount, hState]
  have hWord := hWrote.word
  have hNext := hWrote.next
  rw [hStored] at hWord hNext
  by_cases hFresh : origin.currentAttempt = 0
  · rw [if_pos hFresh] at hWord
    exact Or.inl (readState_of_word hWord rfl)
  · rw [if_neg hFresh] at hWord hNext
    have hClock : order.nextActionAt = some (after.nextActionAt.getD now) := by
      rw [hNext]
      rcases hOffered with hState | hState
      · simp [lifecycleWait, hState]
      · simp [lifecycleWait, hState]
    exact Or.inr (readState_of_retry hWord hClock hCount)

/- A plain word is read back as it was written. -/
theorem Wrote.plain
    (hStored : (stored origin after now).1 = .state state) (hPlain : plainWord state) :
    readState order = state := by
  have hWord : order.state = .state state := by rw [hWrote.word, hStored]
  exact readState_of_word hWord hPlain

/-
  What is written reads as what was decided. An observed row needs its count for it, and no other
  state does.
-/
theorem Wrote.reads (hCounted : Counted after) :
    Reads order after.state := by
  have hWord := hWrote.word
  have hNext := hWrote.next
  have hCount := hWrote.count
  cases hState : after.state with
  | queued => exact Or.inr ⟨hWrote.offered (Or.inl hState), Or.inl rfl⟩
  | backoff => exact Or.inr ⟨hWrote.offered (Or.inr hState), Or.inr rfl⟩
  | observing =>
    left
    simp [stored, storedCount, hState, lifecycleWait] at hWord hNext hCount
    rw [readState_of_look hWord hNext]
    rw [hCount]
    exact hCounted.looked hState
  | superseded => exact absurd hState hCounted.live
  | running | needsOperator | succeeded | failed | cancelled =>
    left
    exact hWrote.plain (by simp [stored, hState]) rfl

end

----
-- One Pass
----

/- The stored side of a pass over the order `origin`. -/
structure Coupled (origin : StoredOrder) (state : State) (rows : Rows) : Prop where
  kind : rows.order.kind = origin.kind
  attempt : rows.order.currentAttempt = origin.currentAttempt
  reads : Reads rows.order state

/- What a pass over the order `origin` keeps. -/
structure Sound (origin : StoredOrder) (pass : Reconciler.Settling Rows) : Prop where
  kind : pass.row.kind = origin.kind
  attempt : pass.row.attempt = origin.currentAttempt
  counted : Counted pass.row
  store : Coupled origin pass.row.state pass.store
  answered : ∀ event, pass.pending = some event → Answered pass.row event
  unclaimed : ∀ event, pass.pending = some event →
    ∀ attempt fence leaseDeadline, event ≠ .claimed attempt fence leaseDeadline

/- A pass that waits for no answer has none to count. -/
theorem Sound.idle {pass : Reconciler.Settling Rows} (hIdle : pass.pending = none)
    (hKind : pass.row.kind = origin.kind) (hAttempt : pass.row.attempt = origin.currentAttempt)
    (hCounted : Counted pass.row) (hStore : Coupled origin pass.row.state pass.store) :
    Sound origin pass := by
  refine ⟨hKind, hAttempt, hCounted, hStore, ?_, ?_⟩
  · intro _ hPending
    rw [hIdle] at hPending
    cases hPending
  · intro _ hPending
    rw [hIdle] at hPending
    cases hPending

/- Some event that was fed licenses a repetition. -/
def licensedIn (view : View) (fed : List (Lifecycle × Event)) : Bool :=
  fed.any fun entry => licenses (adapter view) entry.1 entry.2

/- A residue record changes nothing that is read back. -/
theorem residue_coupled (row : Lifecycle) (reason : String) (hStore : Coupled origin state rows) :
    Coupled origin state ((ledger view now).residue rows row reason) :=
  ⟨hStore.kind, hStore.attempt, hStore.reads⟩

theorem apply_coupled {before after : Lifecycle} (hStore : Coupled origin before.state rows)
    (hCounted : Counted after) : Coupled origin after.state (apply view now rows before after) := by
  have hWrote := apply_wrote view now rows before after
  exact ⟨hWrote.kind.trans hStore.kind, hWrote.attempt.trans hStore.attempt, hWrote.reads hCounted⟩

variable (pass : Reconciler.Settling Rows)

/-
  The commands of a counted decision keep a pass sound: they write residue, and their answers were
  counted.
-/
theorem runCommands_sound {commands : List Command} (hSound : Sound origin pass)
    (hPending : pass.pending = none)
    (hAsked :
      ∀ command ∈ commands, command = .observe ∨ command = .stop → 0 < pass.row.observeCount) :
    Sound origin (Reconciler.runCommands view.executor (ledger view now) pass commands) := by
  have hAnswer : ∀ event, (Reconciler.runCommands view.executor (ledger view now) pass
        commands).pending = some event → 0 < pass.row.observeCount ∧
      ∃ effect reason, event = .observed effect reason := by
    intro _ hEvent
    rcases Reconciler.pending_of_runCommands _ _ _ hEvent with hBefore | ⟨command, hMem, hOwn⟩
    · rw [hPending] at hBefore
      cases hBefore
    · rcases Reconciler.answer_inversion hOwn with ⟨hAsks, hObserved⟩
      exact ⟨hAsked command hMem hAsks, hObserved⟩
  constructor
  · rw [Reconciler.runCommands_row]
    exact hSound.kind
  · rw [Reconciler.runCommands_row]
    exact hSound.attempt
  · rw [Reconciler.runCommands_row]
    exact hSound.counted
  · rw [Reconciler.runCommands_row]
    exact Reconciler.runCommands_store (fun _ row reason => residue_coupled row reason) pass
      commands hSound.store
  · intro event hEvent _
    rw [Reconciler.runCommands_row]
    exact (hAnswer event hEvent).1
  · intro event hEvent _ _ _
    rcases hAnswer event hEvent with ⟨_, _, _, rfl⟩
    simp

theorem settleStep_sound (event : Event)
    (hSound : Sound origin pass) (hPending : pass.pending = some event) : Sound origin
      (Reconciler.settleStep (adapter view) view.executor (ledger view now) now pass event) := by
  have hTaken :
      Taken (adapter view) pass.row now event (transition pass.row event (adapter view) now) :=
    transition_taken event
  have hDecision : CountedDecision (transition pass.row event (adapter view) now) :=
    taken_counted hSound.counted (hSound.answered event hPending) hTaken
  have hKept := kept_of_unclaimed (hSound.unclaimed event hPending) hTaken
  unfold Reconciler.settleStep
  by_cases hSame : (transition pass.row event (adapter view) now).row = pass.row
  · simp only [hSame, if_true]
    apply runCommands_sound
    · exact Sound.idle rfl hSound.kind hSound.attempt hSound.counted hSound.store
    · rfl
    · have hAsked := hDecision.asked
      rw [hSame] at hAsked
      exact hAsked
  · simp only [hSame, if_false]
    apply runCommands_sound
    · exact Sound.idle rfl (hKept.2.trans hSound.kind)
        (hKept.1.trans hSound.attempt) hDecision.row (apply_coupled hSound.store hDecision.row)
    · rfl
    · exact hDecision.asked

/- The guard holds until a pass feeds a licence. -/
def GuardedIn (view : View) (pass : Reconciler.Settling Rows) : Prop :=
  Guarded pass.row ∨ licensedIn view pass.fed = true

theorem settleStep_guarded (hKind : origin.kind ∈ irreversibleOperations)
    (hAttempt : 1 ≤ origin.currentAttempt) (pass : Reconciler.Settling Rows)
    (event : Event) (hSound : Sound origin pass) (hGuard : GuardedIn view pass) : GuardedIn view
      (Reconciler.settleStep (adapter view) view.executor (ledger view now) now pass event) := by
  have hSaves : ∀ store before after, (ledger view now).save store before after ≠ none := by
    simp [ledger]
  unfold GuardedIn
  rw [Reconciler.settleStep_fed]
  rcases hGuard with hGuard | hLicensed
  · by_cases hLicence : licenses (adapter view) pass.row event = true
    · right
      simp [licensedIn, hLicence]
    · left
      rw [Reconciler.settleStep_row hSaves]
      have hIrreversible : (adapter view).irreversible pass.row := by
        simpa [adapter, hSound.kind] using hKind
      exact taken_guarded hIrreversible
        (by rw [hSound.attempt]; exact hAttempt) hGuard
        (by simpa using hLicence) (transition_taken event)
  · right
    simp [licensedIn] at hLicensed ⊢
    exact Or.inl hLicensed

/- The events an order's owners settle it with. -/
inductive OrderEvent where
  | tick
  | reported (report : Report)
  | leaseLapsed (reason : Option String)
  | cancelRequested (requestKey reason : Option String)
  | operatorAction (name : String) (reason : Option String)

def OrderEvent.event : OrderEvent → Event
  | .tick => .tick
  | .reported report => .reported report
  | .leaseLapsed reason => .leaseLapsed reason
  | .cancelRequested requestKey reason => .cancelRequested requestKey reason
  | .operatorAction name reason => .operatorAction name reason

/- A pass starts sound, whatever the store holds. -/
theorem start_sound (hKind : rows.order.kind = origin.kind)
    (hAttempt : rows.order.currentAttempt = origin.currentAttempt) (event : OrderEvent) :
    Sound origin
      { row := lifecycle rows view now, store := rows, pending := some event.event } := by
  constructor
  · exact hKind
  · exact hAttempt
  · exact lifecycle_counted rows view now
  · exact ⟨hKind, hAttempt, Or.inl rfl⟩
  · rintro _ ⟨⟩ hAnswer
    cases event <;> cases hAnswer
  · rintro _ ⟨⟩ _ _ _
    cases event <;> simp [OrderEvent.event]

/- Every pass over an order is sound. -/
theorem settle_sound
    (rows : Rows)
    (view : View)
    (event : OrderEvent)
    (now : Int) :
    Sound rows.order (settle rows view event.event now) := by
  apply Reconciler.settleLoop_invariant
  · exact settleStep_sound
  · refine start_sound ?_ ?_ event
    · rfl
    · rfl

/-
  Whatever the store holds, the order that a pass leaves there reads as the state that the pass came
  to, up to the kind of an offer, and is the same attempt of the same work.
-/
theorem settled_orders_read_back
    (rows : Rows)
    (view : View)
    (event : OrderEvent)
    (now : Int) :
    let pass := settle rows view event.event now
    Reads pass.store.order pass.row.state ∧
    pass.store.order.kind = rows.order.kind ∧
    pass.store.order.currentAttempt = rows.order.currentAttempt := by
  intro pass
  have hStore : Coupled rows.order pass.row.state pass.store :=
    (settle_sound rows view event now).store
  exact ⟨hStore.reads, hStore.kind, hStore.attempt⟩

/- A pass over a guarded order keeps the guard. -/
theorem settle_guarded
    {rows : Rows}
    (hKind : rows.order.kind ∈ irreversibleOperations)
    (hAttempt : 1 ≤ rows.order.currentAttempt)
    (hOffered : ¬ Offered (readState rows.order))
    (view : View)
    (event : OrderEvent)
    (now : Int) :
    GuardedIn view (settle rows view event.event now) := by
  have hBoth : Sound rows.order (settle rows view event.event now) ∧
      GuardedIn view (settle rows view event.event now) := by
    apply Reconciler.settleLoop_invariant
      (J := fun pass => Sound rows.order pass ∧ GuardedIn view pass)
    · rintro pass event ⟨hSound, hGuard⟩ hPending
      exact ⟨settleStep_sound pass event hSound hPending,
        settleStep_guarded hKind hAttempt pass event hSound hGuard⟩
    · refine ⟨start_sound ?_ ?_ event, Or.inl (lifecycle_guarded hAttempt hOffered)⟩
      · rfl
      · rfl
  exact hBoth.2

/- An order the core left observing reads as observed. -/
theorem Reads.observing (hReads : Reads order .observing) : readState order = .observing := by
  rcases hReads with hSame | ⟨_, hQueued | hBackoff⟩
  · exact hSame
  · cases hQueued
  · cases hBackoff

/- A guarded row is not stored as an offer. -/
theorem Reads.not_offered {row : Lifecycle} (hReads : Reads order row.state)
    (hGuard : Guarded row) : ¬ Offered (readState order) := by
  have hRow : ¬ Offered row.state := by
    rintro (hQueued | hBackoff)
    · exact hGuard.queued hQueued
    · exact hGuard.backoff hBackoff
  rcases hReads with hSame | ⟨_, hOffered⟩
  · rw [hSame]
    exact hRow
  · exact absurd hOffered hRow

end VonkForge.AgentOrders
