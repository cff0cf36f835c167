import VonkForge.Lifecycle.Rate
import VonkForge.Lifecycle.Reconciler

/-
  Which decisions are confirmed before they act.

  A pass saves a decision before it runs its commands, and a save that is refused ends the pass. A
  decision that keeps the row as it is is not saved, and its commands run on whatever was read. This
  is so for queued work that may start at once, which is executed without a look at the store, and
  for a look at a row whose looks are spent and whose next one is due already.

  Main declarations:
    * `Action`
    * `changes_iff_compared`
    * `stepActions_confirmed`
    * `decisions_are_confirmed_iff`
-/

----
-- What a Pass Does
----

namespace VonkForge.Reconciler

open LifecycleCore

/-
  What a pass does, in order. A save is recorded with the store it met; a command with the row and
  the event that the decision was made from.
-/
inductive Action (σ : Type) where
  | saved (store : σ) (before after : Lifecycle)
  | refused (store : σ) (before after : Lifecycle)
  | ran (before : Lifecycle) (event : Event) (command : Command)
deriving DecidableEq

/-
  A save succeeds only if the row it finds is the one the decision was made from. The row that is
  found is what the other writers have left, whatever they did since.
-/
structure Confirming {σ : Type} (ledger : Ledger σ) (found : σ → Lifecycle) : Prop where
  save :
    ∀ store before after next, ledger.save store before after = some next → found store = before

variable {σ : Type}

/- What one step of a pass does. -/
def stepActions (adapter : KindAdapter) (ledger : Ledger σ) (now : Int)
    (pass : Settling σ) (event : Event) : List (Action σ) :=
  let decision := transition pass.row event adapter now
  let ran := decision.commands.map (.ran pass.row event)
  if decision.row = pass.row then ran
  else
    match ledger.save pass.store pass.row decision.row with
    | none => [.refused pass.store pass.row decision.row]
    | some _ => .saved pass.store pass.row decision.row :: ran

/- What the steps of a pass do. -/
def passActions (adapter : KindAdapter) (executor : Executor) (ledger : Ledger σ) (now : Int) :
    Nat → Settling σ → List (Action σ)
  | 0, _ => []
  | steps + 1, pass =>
    match pass.pending with
    | none => []
    | some event =>
      stepActions adapter ledger now pass event ++ passActions adapter executor ledger now steps
        (settleStep adapter executor ledger now pass event)

/- What `settle` does, with any bound on its steps. -/
def settleActions (adapter : KindAdapter) (executor : Executor) (ledger : Ledger σ) (now : Int)
    (steps : Nat) (row : Lifecycle) (event : Event) (store : σ) : List (Action σ) :=
  passActions adapter executor ledger now steps
    { row := row, store := store, pending := some event }

----
-- Decisions That Change Their Row
----

variable {adapter : KindAdapter} {now : Int} {row : Lifecycle} {event : Event} {command : Command}

/-
  A look that leaves the row as it is: the budget of looks is spent, and the next look is scheduled
  for the instant that the row names already.
-/
def LooksAgain (adapter : KindAdapter) (now : Int) (row : Lifecycle) (event : Event) : Prop :=
  row.state = .observing ∧ observeBudget ≤ row.observeCount ∧ row.leaseDeadline = none ∧
    if expired row event adapter now then row.nextActionAt = some now ∧ row.effect = .unknown
    else row.nextActionAt = some (due row row.observeCount now none none) ∧ row.effect ≠ .none ∧
      orElse (said event) row.reason = row.reason

/- What has to be so of a row for a command to come with a changed one. -/
def Compared (adapter : KindAdapter) (now : Int) (row : Lifecycle) (event : Event) :
    Command → Prop
  | .execute => row.state = .backoff ∨ row.nextActionAt ≠ none
  | .observe => ¬ LooksAgain adapter now row event
  | .stop => True
  | .recordResidue _ => True

theorem ne_of_ended {ended : Lifecycle} (hLive : row.terminal = false) (hEnded : ended.terminal) :
    ended ≠ row := by
  rintro rfl
  rw [hLive] at hEnded
  cases hEnded

/- A cancelled row is stopped once more or given up, and changes with either. -/
theorem advance_compared
    {stops : Bool}
    {decision : Decision}
    {before : Lifecycle}
    (hAdvance : Advance row now stops decision)
    (hCommand : command ∈ decision.commands) :
    Compared adapter now before event command ∧
      (row.terminal = false → decision.row ≠ row) := by
  cases hAdvance with
  | proven _ _ _ hCommands =>
    rw [hCommands] at hCommand
    cases hCommand
  | spent _ hState _ _ hCommands =>
    rw [hCommands] at hCommand
    obtain rfl := List.mem_singleton.mp hCommand
    exact ⟨trivial, fun hLive => ne_of_ended hLive (by simp [Lifecycle.terminal, hState,
      State.terminal])⟩
  | driven _ _ hCount _ hCommands =>
    rw [hCommands] at hCommand
    cases stops with
    | false => cases hCommand
    | true =>
      obtain rfl := List.mem_singleton.mp hCommand
      refine ⟨trivial, fun _ hSame => ?_⟩
      simp [hSame] at hCount

variable {reason : Option String}

/- A row is lost with a look that lies ahead, so the row changes if it was due. -/
theorem lost_changes
    {commands : List Command}
    {late : Bool}
    (hLive : row.terminal = false)
    (hDue : pending row.nextActionAt now = false) :
    (lost row now reason commands late).row ≠ row := by
  unfold lost
  split
  · exact ne_of_ended hLive rfl
  · intro hSame
    have hNext := congrArg Lifecycle.nextActionAt hSame
    rw [← hNext] at hDue
    simp only [pending_some, decide_eq_false_iff_not] at hDue
    exact hDue (now_lt_scheduled_budget row now none)

theorem lost_commands
    {commands : List Command}
    {late : Bool}
    (hCommand : command ∈ (lost row now reason commands late).commands) :
    command ∈ commands ∨ ∃ why, command = .recordResidue why ∧
      (lost row now reason commands late).row.terminal = true := by
  unfold lost at hCommand ⊢
  split at hCommand
  · rename_i hBound
    rw [if_pos hBound]
    exact Or.inr ⟨_, List.mem_singleton.mp hCommand, rfl⟩
  · exact Or.inl hCommand

/- A counted look is the row itself only where nothing is left to count. -/
theorem look_eq_iff
    {instant : Int}
    {effect : Effect}
    {why : Option String} :
    { row with
      state := .observing, observeCount := countLook row, nextActionAt := some instant,
      leaseDeadline := none, effect := effect, reason := why } = row ↔
      row.state = .observing ∧ observeBudget ≤ row.observeCount ∧ row.leaseDeadline = none ∧
        row.nextActionAt = some instant ∧ row.effect = effect ∧ row.reason = why := by
  have hCount : countLook row = row.observeCount ↔ observeBudget ≤ row.observeCount := by
    unfold countLook
    split <;> omega
  cases row
  simp only [Lifecycle.mk.injEq, true_and, and_true, hCount]
  constructor
  · rintro ⟨rfl, rfl, rfl, hSpent, rfl, rfl⟩
    exact ⟨rfl, hSpent, rfl, rfl, rfl, rfl⟩
  · rintro ⟨rfl, hSpent, rfl, rfl, rfl, rfl⟩
    exact ⟨rfl, rfl, rfl, hSpent, rfl, rfl⟩

theorem observe_eq_iff
    (hExpired : expired row event adapter now = false)
    (hReason : row.state = .observing →
      orElse reason row.reason = orElse (said event) row.reason) :
    (observe row now reason).row = row ↔ LooksAgain adapter now row event := by
  have hSpent (hCount : observeBudget ≤ row.observeCount) : countLook row = row.observeCount := by
    simp [countLook, Nat.not_lt.mpr hCount]
  have hEffect : (row.effect = if row.effect = .none then .unknown else row.effect) ↔
      row.effect ≠ .none := by
    cases row.effect with
    | _ => simp
  rw [observe, look_eq_iff, hEffect, LooksAgain, if_neg (Bool.eq_false_iff.mp hExpired)]
  constructor
  · rintro ⟨hState, hCount, hLease, hNext, hKnown, hWhy⟩
    rw [hSpent hCount] at hNext
    exact ⟨hState, hCount, hLease, hNext, hKnown, (hReason hState).symm.trans hWhy.symm⟩
  · rintro ⟨hState, hCount, hLease, hNext, hKnown, hWhy⟩
    rw [hSpent hCount]
    exact ⟨hState, hCount, hLease, hNext, hKnown, hWhy.symm.trans (hReason hState).symm⟩

/- A decision that names a command changes the row exactly if the row is one to be compared. -/
theorem changes_iff_compared
    (hCommand : command ∈ (transition row event adapter now).commands) :
    (transition row event adapter now).row ≠ row ↔
      Compared adapter now row event command := by
  have hTaken : Taken adapter row now event _ := transition_taken event
  generalize transition row event adapter now = decision at hCommand hTaken ⊢
  cases hTaken with
  | ignored => cases hCommand
  | expired _ hLive _ hExpired hExpiry =>
    cases hExpiry with
    | lost =>
      rcases lost_commands hCommand with hNone | ⟨why, rfl, hEnded⟩
      · cases hNone
      · exact iff_of_true (ne_of_ended hLive hEnded) trivial
    | finish effect =>
      cases effect with
      | unknown =>
        obtain rfl := List.mem_singleton.mp hCommand
        exact iff_of_true (ne_of_ended hLive rfl) trivial
      | _ => cases hCommand
    | look =>
      obtain rfl := List.mem_singleton.mp hCommand
      rw [Compared, LooksAgain, if_pos hExpired, ne_eq, not_iff_not, look_eq_iff]
      simp
  | moved _ hLive _ hExpired hMove =>
    cases hMove with
    | execute hState =>
      obtain rfl := List.mem_singleton.mp hCommand
      have hKept : { row with state := .queued, nextActionAt := none } = row ↔
          row.state = .queued ∧ row.nextActionAt = none := by
        cases row
        simp [eq_comm]
      rw [Compared, ne_eq, hKept]
      rcases hState with hState | hState
      · simp [hState]
      · simp [hState]
    | look _ _ _ hLeft =>
      obtain rfl := List.mem_singleton.mp hCommand
      refine iff_of_true (fun hSame => ?_) fun hAgain => absurd hAgain.2.1 (Nat.not_le.mpr hLeft)
      have hCount := congrArg Lifecycle.observeCount hSame
      simp at hCount
    | observe _ _ _ _ hReason =>
      obtain rfl := List.mem_singleton.mp hCommand
      exact not_congr (observe_eq_iff hExpired hReason)
    | lostTick _ _ hDeadline _ _ hDue =>
      refine iff_of_true (lost_changes hLive hDue) ?_
      rcases lost_commands hCommand with hLook | ⟨why, rfl, _⟩
      · obtain rfl := List.mem_singleton.mp hLook
        rintro ⟨_, _, _, hNext⟩
        rw [if_neg (Bool.eq_false_iff.mp hExpired)] at hNext
        rw [hNext.1, (pending_due_iff row _ now).mpr hDeadline] at hDue
        cases hDue
      · trivial
    | lostInTime | lostLate =>
      rcases lost_commands hCommand with hNone | ⟨why, rfl, hEnded⟩
      · cases hNone
      · exact iff_of_true (ne_of_ended hLive hEnded) trivial
    | endLate effect =>
      cases effect with
      | unknown =>
        obtain rfl := List.mem_singleton.mp hCommand
        exact iff_of_true (ne_of_ended hLive rfl) trivial
      | _ => cases hCommand
    | request _ key why hCancel =>
      refine iff_of_true (fun hSame => ?_)
        (advance_compared (advanceCancel_advance _ _ _ _ _) hCommand).1
      have hKept := (advanceCancel_kept (withCancelFlag row now key) now none why true).requested
      rw [hSame, hCancel, withCancelFlag, if_neg (Bool.eq_false_iff.mp hCancel)] at hKept
      cases hKept
    | wind =>
      have hBoth : Compared adapter now row event command ∧ _ :=
        advance_compared (advanceCancel_advance _ _ _ _ _) hCommand
      exact iff_of_true (hBoth.2 hLive) hBoth.1
    | _ => cases hCommand

----
-- Decisions That Are Saved
----

variable {executor : Executor} {ledger : Ledger σ}

/-
  A command follows the save of its decision, with nothing but commands of the same decision in
  between.
-/
def FollowsSave (adapter : KindAdapter) (now : Int) (found : σ → Lifecycle)
    (earlier : List (Action σ)) (before : Lifecycle) (event : Event) : Prop :=
  ∃ start rest store, earlier = start ++
    .saved store before (transition before event adapter now).row :: rest ∧
    (∀ action ∈ rest, ∃ other, action = .ran before event other) ∧ found store = before

variable {found : σ → Lifecycle} {before : Lifecycle}

theorem FollowsSave.after {earlier : List (Action σ)} {event : Event}
    (hFollows : FollowsSave adapter now found earlier before event) (first : List (Action σ)) :
    FollowsSave adapter now found (first ++ earlier) before
      event := by
  rcases hFollows with ⟨start, rest, store, rfl, hRest⟩
  refine ⟨first ++ start, rest, store, ?_, hRest⟩
  rw [List.append_assoc]

variable {earlier later : List (Action σ)}

/- Within one step. -/
theorem stepActions_confirmed
    (hConfirming : Confirming ledger found)
    (pass : Settling σ)
    (event : Event)
    {caused : Event}
    {command : Command}
    (hActions :
      stepActions adapter ledger now pass event =
        earlier ++ .ran before caused command :: later)
    (hChanged : (transition before caused adapter now).row ≠ before) :
    FollowsSave adapter now found earlier before caused := by
  have hMem : .ran before caused command ∈ stepActions adapter ledger now pass event := by
    rw [hActions]
    simp
  unfold stepActions at hActions hMem
  simp only at hActions hMem
  split at hMem
  · -- The row is kept, so the decision did not change it.
    rename_i hKept
    rcases List.mem_map.mp hMem with ⟨_, _, hSame⟩
    cases hSame
    exact absurd hKept hChanged
  · rename_i hMoved
    rw [if_neg hMoved] at hActions
    cases hSave : ledger.save pass.store pass.row (transition pass.row event adapter now).row with
    | none =>
      rw [hSave] at hMem
      cases List.mem_singleton.mp hMem
    | some =>
      rw [hSave] at hActions
      simp only at hActions
      cases earlier with
      | nil => cases (List.cons.inj hActions).1
      | cons _ rest =>
        rw [List.cons_append] at hActions
        rcases List.cons.inj hActions with ⟨hFirst, hRest⟩
        have hRan : ∀ action ∈ rest ++ .ran before caused command ::
            later, ∃ other, action = .ran pass.row event other := by
          rw [← hRest]
          intro _ hAction
          rcases List.mem_map.mp hAction with ⟨other, _, hSame⟩
          exact ⟨other, hSame.symm⟩
        rcases hRan (.ran before caused command) (by simp) with ⟨_, hSame⟩
        cases hSame
        refine ⟨[], rest, pass.store, ?_, ?_, ?_⟩
        · rw [← hFirst]
          rfl
        · intro action hAction
          exact hRan action (List.mem_append_left _ hAction)
        · exact hConfirming.save _ _ _ _ hSave

theorem passActions_confirmed (hConfirming : Confirming ledger found) (steps : Nat)
    (pass : Settling σ) {event : Event} {command : Command}
    (hActions : passActions adapter executor ledger now steps pass = earlier ++
      .ran before event command :: later)
    (hChanged : (transition before event adapter now).row ≠ before) :
    FollowsSave adapter now found earlier before event := by
  induction steps generalizing pass earlier with
  | zero =>
    have hLength := congrArg List.length hActions
    simp [passActions] at hLength
  | succ steps ih =>
    unfold passActions at hActions
    cases hPending : pass.pending with
    | none =>
      rw [hPending] at hActions
      have hLength := congrArg List.length hActions
      simp at hLength
    | some pending =>
      rw [hPending] at hActions
      rcases List.append_eq_append_iff.mp hActions with
        ⟨middle, hEarlier, hRest⟩ | ⟨middle, hStep, hLater⟩
      · -- The command is run by a later step.
        rw [hEarlier]
        exact (ih _ hRest).after _
      · cases middle with
        | nil =>
          have hRest : passActions adapter executor ledger now steps
            (settleStep adapter executor ledger now pass pending) = [] ++
            .ran before event command :: later := hLater.symm
          have hFollows := (ih _ hRest).after earlier
          rwa [List.append_nil] at hFollows
        | cons =>
          rcases List.cons.inj hLater with ⟨hFirst, _⟩
          rw [← hFirst] at hStep
          exact stepActions_confirmed hConfirming pass pending hStep hChanged

theorem mem_passActions
    {steps : Nat}
    {pass : Settling σ}
    {action : Action σ}
    (hMem : action ∈ passActions adapter executor ledger now steps pass) :
    ∃ pass event, action ∈ stepActions adapter ledger now pass event := by
  induction steps generalizing pass with
  | zero => cases hMem
  | succ steps ih =>
    unfold passActions at hMem
    split at hMem
    · cases hMem
    · rcases List.mem_append.mp hMem with hStep | hLater
      · exact ⟨_, _, hStep⟩
      · exact ih hLater

/- Only a changed row is saved. -/
theorem saved_changes
    {pass : Settling σ}
    {store : σ}
    {after : Lifecycle}
    (hMem : .saved store before after ∈ stepActions adapter ledger now pass event) :
    after ≠ before := by
  unfold stepActions at hMem
  simp only at hMem
  split at hMem
  · simp at hMem
  · rename_i hMoved
    split at hMem
    · simp at hMem
    · simp only [List.mem_cons, Action.saved.injEq, List.mem_map, reduceCtorEq, and_false,
        exists_false, or_false] at hMem
      rw [hMem.2.1, hMem.2.2]
      exact hMoved

/- A command that is run is one that its decision names. -/
theorem ran_of_decision
    {pass : Settling σ}
    {caused : Event}
    (hMem : .ran before caused command ∈ stepActions adapter ledger now pass event) :
    command ∈ (transition before caused adapter now).commands := by
  have hNamed (hRan : .ran before caused command ∈
      (transition pass.row event adapter now).commands.map
        (Action.ran pass.row event : Command → Action σ)) :
      command ∈ (transition before caused adapter now).commands := by
    rcases List.mem_map.mp hRan with ⟨_, hNamed, hSame⟩
    cases hSame
    exact hNamed
  unfold stepActions at hMem
  simp only at hMem
  split at hMem
  · exact hNamed hMem
  · split at hMem
    · simp at hMem
    · rcases List.mem_cons.mp hMem with hOther | hRan
      · cases hOther
      · exact hNamed hRan

/-
  In every pass a command runs after a save that found the row its decision was made from, exactly
  if that row is one to be compared: an Execute for a row in backoff or with a next action, a look
  that is not looked again, any stop and any residue.
-/
theorem decisions_are_confirmed_iff
    (adapter : KindAdapter)
    (executor : Executor)
    (ledger : Ledger σ)
    (found : σ → Lifecycle)
    (hConfirming : Confirming ledger found)
    (now : Int)
    (steps : Nat)
    (row : Lifecycle)
    (event : Event)
    (store : σ)
    (earlier later : List (Action σ))
    (before : Lifecycle)
    (caused : Event)
    (command : Command)
    (hActions :
      settleActions adapter executor ledger now steps row event store =
        earlier ++ .ran before caused command :: later) :
    (∃ start rest met,
       earlier =
         start ++ .saved met before
           (transition before caused adapter now).row :: rest ∧
       (∀ action ∈ rest, ∃ other, action = .ran before caused other) ∧
       found met = before) ↔
      Compared adapter now before caused command := by
  have hRan : .ran before caused command ∈
      settleActions adapter executor ledger now steps row event store := by
    rw [hActions]
    simp
  rcases mem_passActions hRan with ⟨_, _, hStep⟩
  rw [← changes_iff_compared (ran_of_decision hStep)]
  constructor
  · rintro ⟨start, rest, met, rfl, _⟩
    have hSaved : .saved met before (transition before caused adapter now).row ∈
        settleActions adapter executor ledger now steps row event store := by
      rw [hActions]
      simp
    rcases mem_passActions hSaved with ⟨_, _, hStep⟩
    exact saved_changes hStep
  · exact passActions_confirmed hConfirming steps _ hActions

/- A store that holds one row, and compares before a write. -/
def rowLedger : Ledger Lifecycle where
  save := fun stored before after => if stored = before then some after else none
  residue := fun stored _ _ => stored

theorem rowLedger_confirming : Confirming rowLedger id where
  save := by
    intro _ _ _ _ hSave
    unfold rowLedger at hSave
    simp only at hSave
    split at hSave
    · assumption
    · cases hSave

def plainAdapter : KindAdapter where
  irreversible := fun _ => false
  retryNotBefore := fun _ _ => none
  actions := fun _ => []
  recoveryDeadline := none

def silentExecutor : Executor where
  observe := fun _ => .error "unavailable"
  stop := fun _ => .error "unavailable"

def waitingRow : Lifecycle where
  id := { text := "subject", nonempty := by decide }
  kind := "job"

def retriedRow : Lifecycle :=
  { waitingRow with state := .backoff, attempt := 1, nextActionAt := some 5 }

/- Work that was waiting for its retry is saved before it is executed. -/
theorem retried_work_is_confirmed :
    settleActions plainAdapter silentExecutor rowLedger 9 4 retriedRow
      .tick retriedRow =
      [.saved retriedRow retriedRow (transition retriedRow .tick plainAdapter 9).row]
        ++ .ran retriedRow .tick .execute :: [] ∧
    ∃ start rest met,
      [Action.saved retriedRow retriedRow (transition retriedRow .tick plainAdapter 9).row] =
        start ++ .saved met retriedRow
          (transition retriedRow .tick plainAdapter 9).row :: rest ∧
      met = retriedRow := by
  have hActions : settleActions plainAdapter silentExecutor rowLedger 9 4 retriedRow .tick
    retriedRow = [.saved retriedRow retriedRow (transition retriedRow .tick plainAdapter 9).row] ++
    .ran retriedRow .tick .execute :: [] := by decide +kernel
  rcases (decisions_are_confirmed_iff plainAdapter silentExecutor rowLedger id rowLedger_confirming
    9 4 retriedRow .tick retriedRow _ [] retriedRow .tick .execute hActions).mpr (Or.inl rfl) with
    ⟨start, rest, met, hEarlier, _, hFound⟩
  exact ⟨hActions, start, rest, met, hEarlier, hFound⟩

/-
  Queued work was cancelled after it was read. It is executed all the same: no save compares the two
  rows.
-/
theorem cancelled_work_is_executed :
    let stored := (transition waitingRow (.cancelRequested none none) plainAdapter 9).row
    stored.state = .cancelled ∧
    stored ≠ waitingRow ∧
    Confirming rowLedger id ∧
    settleActions plainAdapter silentExecutor rowLedger 9 4 waitingRow
      .tick stored =
      [.ran waitingRow .tick .execute] := by
  refine ⟨by decide +kernel, by decide +kernel, rowLedger_confirming, by decide +kernel⟩

end VonkForge.Reconciler
