import VonkForge.Foundations.Epoch
import VonkForge.Lifecycle.Moves

/-
  Runs of the lifecycle core: a row fed with events and times, one transition after another.

  Main declarations:
    * `Input`
    * `transition_keeps`
    * `cancel_kept`
    * `execute_inversion`
-/

----
-- The Machine
----

namespace VonkForge.LifecycleCore

/- An event and the time it is fed at. -/
structure Input where
  event : Event
  now : Int
deriving DecidableEq

/- The core of one kind as a machine on rows. -/
def machine (adapter : KindAdapter) : Machine Lifecycle Input Decision :=
  { answer := fun row input => transition row input.event adapter input.now
    next := Decision.row }

abbrev Step : Type := Machine.Step Lifecycle Input Decision

section

variable (adapter : KindAdapter) (row : Lifecycle) (input : Input)

@[simp] theorem machine_answer :
    (machine adapter).answer row input = transition row input.event adapter input.now := rfl

@[simp] theorem machine_move :
    (machine adapter).move row input = (transition row input.event adapter input.now).row :=
  rfl

end

variable {adapter : KindAdapter} {row : Lifecycle} {now : Int} {event : Event}

/- Nothing happens to a row that has ended. -/
theorem transition_of_terminal (hTerminal : row.terminal) :
    transition row event adapter now = { row := row } := by
  simp [transition, hTerminal]

/- Without a deadline reader no row is past its deadline. -/
theorem not_expired_without_reader (hReader : adapter.recoveryDeadline = none) (row : Lifecycle)
    (event : Event) (now : Int) : expired row event adapter now = false := by
  simp [expired, KindAdapter.ownDeadline, hReader]

/- A row that has ended stays ended. -/
theorem terminal_absorbing (adapter : KindAdapter) (row : Lifecycle) (input : Input)
    (hTerminal : row.terminal) : ((machine adapter).move row input).terminal := by
  rw [machine_move, transition_of_terminal hTerminal]
  exact hTerminal

/-
  A kind whose work is always irreversible and that has no deadline, retry fence or actions of its
  own.
-/
def irreversibleKind : KindAdapter :=
  { irreversible := fun _ => true
    retryNotBefore := fun _ _ => none
    actions := fun _ => []
    recoveryDeadline := none }

/- A new order. -/
def newOrder : Lifecycle :=
  { id := ⟨"order", by decide⟩
    kind := "agent-operation" }

/- Inputs of the runs that the results are tried on. -/
def cancelAt (now : Int) : Input := { event := .cancelRequested none none, now := now }

def tickAt (now : Int) : Input := { event := .tick, now := now }

def unknownAt (now : Int) : Input := { event := .observed .unknown none, now := now }

----
-- What an Event keeps
----

/- What only a claim or a cancel request changes. -/
structure Kept (before after : Lifecycle) : Prop where
  id : after.id = before.id
  kind : after.kind = before.kind
  attempt : after.attempt = before.attempt
  fence : after.fence = before.fence
  deadline : after.recoveryDeadline = before.recoveryDeadline
  ordinal : after.intentOrdinal = before.intentOrdinal
  instant : after.cancelRequestedAt = before.cancelRequestedAt
  key : after.cancelRequestKey = before.cancelRequestKey
  owner : after.ownerId = before.ownerId

theorem Kept.refl (row : Lifecycle) : Kept row row := ⟨rfl, rfl, rfl, rfl, rfl, rfl, rfl, rfl, rfl⟩

theorem Kept.trans {first second third : Lifecycle} (hFirst : Kept first second)
    (hSecond : Kept second third) :
    Kept first third :=
  ⟨hSecond.id.trans hFirst.id, hSecond.kind.trans hFirst.kind,
    hSecond.attempt.trans hFirst.attempt, hSecond.fence.trans hFirst.fence,
    hSecond.deadline.trans hFirst.deadline,
    hSecond.ordinal.trans hFirst.ordinal, hSecond.instant.trans hFirst.instant,
    hSecond.key.trans hFirst.key, hSecond.owner.trans hFirst.owner⟩

theorem Kept.requested {before after : Lifecycle} (hKept : Kept before after) :
    after.cancelRequested = before.cancelRequested := by
  simp only [Lifecycle.cancelRequested, hKept.instant]

theorem advanceCancel_kept (row : Lifecycle) (now : Int)
    (effect : Option Effect) (reason : Option String) (issueStop : Bool) :
    Kept row (advanceCancel row now effect reason issueStop).row := by
  unfold advanceCancel
  split
  · exact ⟨rfl, rfl, rfl, rfl, rfl, rfl, rfl, rfl, rfl⟩
  · split
    · exact ⟨rfl, rfl, rfl, rfl, rfl, rfl, rfl, rfl, rfl⟩
    · exact ⟨rfl, rfl, rfl, rfl, rfl, rfl, rfl, rfl, rfl⟩

theorem lost_kept (row : Lifecycle) (now : Int) (reason : Option String) (commands : List Command)
    (late : Bool) : Kept row (lost row now reason commands late).row := by
  unfold lost
  split
  · exact ⟨rfl, rfl, rfl, rfl, rfl, rfl, rfl, rfl, rfl⟩
  · exact ⟨rfl, rfl, rfl, rfl, rfl, rfl, rfl, rfl, rfl⟩

/-
  What a decision keeps. A claim raises the attempt of a row that is not cancelled, a request sets
  the cancel flag once and every other decision keeps all of it.
-/
inductive Keeps (adapter : KindAdapter) (row : Lifecycle) (now : Int)
    (event : Event) (decision : Decision) : Prop where
  | kept (hKept : Kept row decision.row)
  | claim (attempt : Nat) (fence : String) (leaseDeadline : Int)
      (hEvent : event = .claimed attempt fence leaseDeadline)
      (hClaimable : claimable row now = true) (hCancel : row.cancelRequested = false)
      (hAttempt : row.attempt < attempt)
      (hRow : decision = { row := { row with
        state := .running, attempt := attempt, fence := some fence, effect := .issued,
        leaseDeadline := some leaseDeadline, nextActionAt := some leaseDeadline,
        observeCount := 0 } })
  | request (key reason : Option String) (hCancel : row.cancelRequested = false)
      (hEvent : requestsCancel adapter row event)
      (hDecision : decision = advanceCancel (withCancelFlag row now key) now none reason true)
      (hKept : Kept (withCancelFlag row now key) decision.row)

variable {decision : Decision}

theorem move_keeps (hMove : Move adapter row now event decision) :
    Keeps adapter row now event decision := by
  cases hMove with
  | claim attempt fence leaseDeadline hClaimable hCancel hAttempt =>
    exact Keeps.claim attempt fence leaseDeadline rfl hClaimable hCancel hAttempt rfl
  | request _ key reason hCancel hEvent =>
    exact Keeps.request key reason hCancel hEvent rfl (advanceCancel_kept _ _ _ _ _)
  | wind => exact Keeps.kept (advanceCancel_kept _ _ _ _ _)
  | lostTick | lostLate | lostInTime => exact Keeps.kept (lost_kept _ _ _ _ _)
  | _ => exact Keeps.kept ⟨rfl, rfl, rfl, rfl, rfl, rfl, rfl, rfl, rfl⟩

theorem expiry_kept (hExpiry : Expiry adapter row now event decision) : Kept row decision.row := by
  cases hExpiry with
  | lost => exact lost_kept _ _ _ _ _
  | finish | look => exact ⟨rfl, rfl, rfl, rfl, rfl, rfl, rfl, rfl, rfl⟩

theorem taken_keeps (hTaken : Taken adapter row now event decision) :
    Keeps adapter row now event decision := by
  cases hTaken with
  | ignored => exact Keeps.kept (Kept.refl row)
  | expired _ _ _ _ hExpiry => exact Keeps.kept (expiry_kept hExpiry)
  | moved _ _ _ _ hMove => exact move_keeps hMove

/- Every transition keeps what claims and cancels do not set. -/
theorem transition_keeps
    (adapter : KindAdapter)
    (row : Lifecycle)
    (now : Int)
    (event : Event) :
    Keeps adapter row now event (transition row event adapter now) :=
  taken_keeps (transition_taken event)

/- A recorded cancel keeps its instant and its key. -/
theorem cancel_kept
    (adapter : KindAdapter)
    (now : Int)
    (event : Event)
    (hCancel : row.cancelRequested) :
    Kept row (transition row event adapter now).row := by
  cases transition_keeps adapter row now event with
  | kept hKept => exact hKept
  | claim _ _ _ _ _ hFalse | request _ _ hFalse => exact absurd hFalse (by simp [hCancel])

----
-- Executions
----

theorem execute_notMem_advanceCancel (row : Lifecycle) (now : Int)
    (effect : Option Effect) (reason : Option String) (issueStop : Bool) :
    Command.execute ∉ (advanceCancel row now effect reason issueStop).commands := by
  unfold advanceCancel
  split
  · exact List.not_mem_nil
  · split
    · simp
    · cases issueStop <;> simp

theorem execute_notMem_lost (row : Lifecycle) (now : Int) (reason : Option String)
    (commands : List Command) (late : Bool) (hCommands : Command.execute ∉ commands) :
    Command.execute ∉ (lost row now reason commands late).commands := by
  unfold lost
  split
  · simp
  · exact hCommands

/- Only a due tick of queued or retried work executes. -/
theorem execute_inversion
    (hTaken : Taken adapter row now event decision)
    (hExecute : Command.execute ∈ decision.commands) :
    event = .tick ∧
    row.cancelRequested = false ∧
    (row.state = .queued ∨ row.state = .backoff) := by
  cases hTaken with
  | ignored => exact absurd hExecute List.not_mem_nil
  | expired _ _ _ _ hExpiry =>
    cases hExpiry with
    | lost => exact absurd hExecute (execute_notMem_lost _ _ _ _ _ List.not_mem_nil)
    | finish effect =>
      by_cases hUnknown : effect = .unknown
      · simp [hUnknown] at hExecute
      · simp [hUnknown] at hExecute
    | look => simp at hExecute
  | moved _ _ _ _ hMove =>
    cases hMove with
    | execute hState hCancel => exact ⟨rfl, hCancel, hState⟩
    | endLate effect =>
      by_cases hUnknown : effect = .unknown
      · simp [hUnknown] at hExecute
      · simp [hUnknown] at hExecute
    | request | wind => exact absurd hExecute (execute_notMem_advanceCancel _ _ _ _ _)
    | lostTick => exact absurd hExecute (execute_notMem_lost _ _ _ _ _ (by simp))
    | lostInTime | lostLate =>
      exact absurd hExecute (execute_notMem_lost _ _ _ _ _ List.not_mem_nil)
    | observe => simp [observe] at hExecute
    | look => simp at hExecute
    | _ => exact absurd hExecute List.not_mem_nil

----
-- Clocks
----

/-
  A row wakes at the end of its lease while it runs, and at a time of its own while it waits. Queued
  and ended rows have no clock.
-/
def Clocked (row : Lifecycle) : Prop :=
  match row.state with
  | .running => row.leaseDeadline.isSome ∧ row.nextActionAt = row.leaseDeadline
  | .observing => row.nextActionAt.isSome
  | .backoff => row.nextActionAt.isSome
  | .needsOperator => False
  | _ => row.nextActionAt = none

theorem advanceCancel_clocked (row : Lifecycle) (now : Int) (effect : Option Effect)
    (reason : Option String) (issueStop : Bool) :
    Clocked (advanceCancel row now effect reason issueStop).row := by
  unfold advanceCancel
  split
  · rfl
  · split <;> rfl

theorem lost_clocked (row : Lifecycle) (now : Int) (reason : Option String)
    (commands : List Command) (late : Bool) : Clocked (lost row now reason commands late).row := by
  unfold lost
  split <;> rfl

theorem move_clocked (hRow : Clocked row) (hMove : Move adapter row now event decision) :
    Clocked decision.row := by
  cases hMove with
  | keep => exact hRow
  | submit hState => simpa [Clocked, hState] using hRow
  | renew _ _ hState => simp [Clocked, hState]
  | look hState => simp [Clocked, hState]
  | watch hState =>
    simp only [Clocked, hState] at hRow ⊢
    exact ⟨hRow.1, trivial⟩
  | claim => exact ⟨rfl, rfl⟩
  | conclude _ _ hState =>
    rcases Report.endState_cases hState with ⟨_, rfl⟩ | ⟨_, rfl⟩ | ⟨_, _, rfl⟩ <;> rfl
  | lostTick | lostInTime | lostLate => exact lost_clocked _ _ _ _ _
  | request | wind => exact advanceCancel_clocked _ _ _ _ _
  | _ => rfl

theorem taken_clocked (hRow : Clocked row) (hTaken : Taken adapter row now event decision) :
    Clocked decision.row := by
  cases hTaken with
  | ignored => exact hRow
  | moved _ _ _ _ hMove => exact move_clocked hRow hMove
  | expired _ _ _ _ hExpiry =>
    cases hExpiry with
    | lost => exact lost_clocked _ _ _ _ _
    | look => rfl
    | finish effect =>
      by_cases hEstablished : effect = .established <;> simp [Clocked, hEstablished]

/-
  No row is left without its clock: along every run from a queued row, work that runs, waits or is
  watched has the time at which it is looked at again, and only such work has one.
-/
theorem clocks_follow_states
    (adapter : KindAdapter)
    (row : Lifecycle)
    (inputs : List Input) :
    Clocked
      ((machine adapter).final
         { row with state := .queued, nextActionAt := none }
         inputs) := by
  refine (machine adapter).final_of_absorbing (A := Clocked) ?_ ?_ inputs
  · exact fun _ _ hRow => taken_clocked hRow (transition_taken _)
  · rfl

end VonkForge.LifecycleCore
