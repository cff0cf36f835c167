import VonkForge.Helper.Rollback

/-
  An activation is acknowledged or rolled back, never both.

  The journal says which of the two an attempt has come to. A program that holds the lock goes by
  the journal it read, which no other program changes meanwhile, and a program that crashes leaves
  the journal as it stood.

  Main declarations:
    * `Journaled`
    * `advance_sound`
    * `serve_sound`
    * `acknowledged_or_rolled_back`
-/

----
-- Events of an Attempt
----

namespace VonkForge.Rollback

namespace Event

def tx : Event → Transaction
  | .prepared tx => tx
  | .acknowledged tx _ => tx
  | .reportedFailed tx => tx
  | .deadlineReached tx _ => tx
  | .rollingBack tx _ => tx
  | .restoring tx _ => tx
  | .installs tx _ => tx

/- The attempt was acknowledged. -/
def acknowledges (nonce : String) : Event → Prop
  | .acknowledged tx _ => tx.nonce = nonce
  | _ => False

/- The restore of the attempt began or went on. -/
def restores (nonce : String) : Event → Prop
  | .rollingBack tx _ => tx.nonce = nonce
  | .restoring tx _ => tx.nonce = nonce
  | .installs tx _ => tx.nonce = nonce
  | _ => False

/- The attempt failed, or its deadline was reached. -/
def prompts (authority : Authority) : Event → Prop
  | .reportedFailed tx => tx.rollback = authority
  | .deadlineReached tx clock => tx.rollback = authority ∧ authority.activationDeadline ≤ clock
  | _ => False

theorem nonce_of_acknowledges {nonce : String} {event : Event} (hEvent : event.acknowledges nonce) :
    event.tx.nonce = nonce := by
  cases event with
  | acknowledged => exact hEvent
  | _ => exact hEvent.elim

theorem nonce_of_restores {nonce : String} {event : Event} (hEvent : event.restores nonce) :
    event.tx.nonce = nonce := by
  cases event with
  | rollingBack | restoring | installs => exact hEvent
  | _ => exact hEvent.elim

end Event

----
-- The Journal and What Was Done
----

/- What the entry of an attempt says about its past. -/
structure Journaled (used : List String) (log : List Event) (tx : Transaction) : Prop where
  known : tx.nonce ∈ used
  unacknowledged : tx.phase ≠ .acknowledged → ∀ event ∈ log, ¬ event.acknowledges tx.nonce
  unrestored : tx.phase = .armed ∨ tx.phase = .activationFailed ∨ tx.phase = .acknowledged →
    ∀ event ∈ log, ¬ event.restores tx.nonce
  prompted : tx.phase ≠ .armed → tx.phase ≠ .acknowledged → ∃ event ∈ log, event.prompts tx.rollback

/- The watchdog has to act on a transaction. -/
structure Due (log : List Event) (tx : Transaction) : Prop where
  unacknowledged : tx.phase ≠ .acknowledged
  prompted : ∃ event ∈ log, event.prompts tx.rollback

/- The watchdog is restoring the source of a transaction. -/
structure Restoring (store : Store) (tx : Transaction) (timestamp : Int) : Prop where
  journal : store.disk.journal = some tx
  phase : tx.phase = .rollingBack
  marked : .rollingBack tx timestamp ∈ store.pass
  inTime : timestamp < tx.deadline + rollbackRetryTimeout

/- What a program knows at the point it has come to. -/
def Program.Sound (store : Store) : Program → Prop
  | .prepareCopy tx _ | .prepareRunner tx
  | .prepareWrite tx =>
    tx.phase = .armed ∧ tx.nonce ∈ store.used ∧ ∀ event ∈ store.log, event.tx.nonce ≠ tx.nonce
  | .acknowledgeRead _ _ _ | .failRead | .watchRead => True
  | .acknowledgeCheck _ _ _ tx | .watchDecide tx => store.disk.journal = some tx
  | .acknowledgeWrite tx clock =>
    store.disk.journal = some tx ∧ (tx.phase = .armed ∨ tx.phase = .acknowledged) ∧
      clock < tx.deadline
  | .failWrite tx => store.disk.journal = some tx ∧ tx.phase = .armed
  | .watchBudget tx | .watchReconcile tx => store.disk.journal = some tx ∧ Due store.log tx
  | .watchMark tx timestamp =>
    store.disk.journal = some tx ∧ Due store.log tx ∧ timestamp < tx.deadline + rollbackRetryTimeout
  | .restoreCheck tx timestamp
  | .restoreVerify tx timestamp
  | .watchFinish tx timestamp _ => Restoring store tx timestamp
  | .restoreInstall tx timestamp =>
    Restoring store tx timestamp ∧
      store.disk.sourceDeb.map PackageFile.sha256 = some tx.rollback.source.packageSha256

structure Store.Sound (store : Store) : Prop where
  known : ∀ event ∈ store.log, event.tx.nonce ∈ store.used
  journaled : ∀ tx ∈ store.disk.journal, Journaled store.used store.log tx
  holder : ∀ program ∈ store.holder, program.Sound store

/- When each of the events may happen. -/
def Lawful (store : Store) : Event → Prop
  | .acknowledged tx clock => clock < tx.deadline ∧ ∀ event ∈ store.log, ¬ event.restores tx.nonce
  | .rollingBack tx _ => ∀ event ∈ store.log, ¬ event.acknowledges tx.nonce
  | .restoring tx timestamp =>
    (∀ event ∈ store.log, ¬ event.acknowledges tx.nonce) ∧ Restoring store tx timestamp ∧
      ∃ event ∈ store.log, event.prompts tx.rollback
  | .installs tx sha256 =>
    (∀ event ∈ store.log, ¬ event.acknowledges tx.nonce) ∧ store.disk.journal = some tx ∧
      sha256 = some tx.rollback.source.packageSha256
  | _ => True

/- The store after a step of the holder. -/
def Store.after (store : Store) (effect : Effect) : Store where
  disk := effect.disk
  holder := effect.program
  used := store.used
  pass := store.pass ++ effect.event.toList
  log := store.log ++ effect.event.toList

structure Effect.Sound (store : Store) (effect : Effect) : Prop where
  lawful : ∀ event ∈ effect.event, Lawful store event
  after : (store.after effect).Sound

----
-- Steps Without an Event
----

section Silent

variable {store : Store} {disk : Disk}

/- A step that neither writes the journal nor is an event. -/
theorem silent_sound (hSound : store.Sound)
    (hJournal : disk.journal = store.disk.journal) {program : Option Program}
    (hProgram : ∀ next ∈ program, next.Sound (store.after
            { disk := disk, program := program, event := none })) : Effect.Sound store
      { disk := disk, program := program, event := none } where
  lawful := by
    intro _ hEvent
    cases hEvent
  after :=
    { known := by
        simp only [Store.after, Option.toList_none, List.append_nil]
        exact hSound.known
      journaled := by
        simp only [Store.after, Option.toList_none, List.append_nil, hJournal]
        exact hSound.journaled
      holder := hProgram }

theorem leave_sound (hSound : store.Sound) (hJournal : disk.journal = store.disk.journal) :
    (leave disk).Sound store := by
  apply silent_sound hSound hJournal
  intro _ hNext
  cases hNext

theorem goOn_sound (hSound : store.Sound)
    (hJournal : disk.journal = store.disk.journal) {program : Program}
    (hProgram : program.Sound (store.after (goOn disk program))) :
    (goOn disk program).Sound store := by
  apply silent_sound hSound hJournal
  intro _ hNext
  rw [← Option.some.inj hNext]
  exact hProgram

theorem read_spec (disk : Disk) (reading : Reading) (tx : Transaction)
    (hRead : disk.read reading = some tx) : disk.journal = some tx := by
  unfold Disk.read at hRead
  split at hRead
  · exact (Option.filter_eq_some_iff.mp hRead).1
  · cases hRead

end Silent

----
-- Writing the Journal
----

section Writes

variable {store : Store} {used : List String} {log : List Event} {tx : Transaction}

/- One more event, of another kind or another attempt. -/
theorem Journaled.append (hJournaled : Journaled used log tx) (event : Event)
    (hAcknowledges : tx.phase ≠ .acknowledged → ¬ event.acknowledges tx.nonce)
    (hRestores : tx.phase = .armed ∨ tx.phase = .activationFailed ∨ tx.phase = .acknowledged →
        ¬ event.restores tx.nonce) : Journaled used (log ++ [event]) tx where
  known := hJournaled.known
  unacknowledged := by
    intro hPhase other hOther
    rcases List.mem_append.mp hOther with hOld | hNew
    · exact hJournaled.unacknowledged hPhase other hOld
    · rw [List.mem_singleton.mp hNew]
      exact hAcknowledges hPhase
  unrestored := by
    intro hPhase other hOther
    rcases List.mem_append.mp hOther with hOld | hNew
    · exact hJournaled.unrestored hPhase other hOld
    · rw [List.mem_singleton.mp hNew]
      exact hRestores hPhase
  prompted := by
    intro hArmed hAcknowledged
    rcases hJournaled.prompted hArmed hAcknowledged with ⟨other, hOther, hPrompts⟩
    exact ⟨other, List.mem_append_left _ hOther, hPrompts⟩

/- A last write is sound if what it publishes is. -/
theorem writeLast_sound (hSound : store.Sound) (tx : Transaction)
    (reading : Reading) (event : Option Event) (hLawful : ∀ other ∈ event, Lawful store other)
    (hKnown : ∀ other ∈ event, other.tx.nonce ∈ store.used)
    (hJournaled : Journaled store.used (store.log ++ event.toList) tx) :
    (writeLast store.disk tx reading event).Sound store := by
  fun_cases writeLast with
  | case1 =>
    refine ⟨hLawful, ?_, ?_, ?_⟩
    · intro other hOther
      rcases List.mem_append.mp hOther with hOld | hNew
      · exact hSound.known other hOld
      · exact hKnown other (Option.mem_toList.mp hNew)
    · intro _ hOther
      rw [← Option.some.inj hOther]
      exact hJournaled
    · exact fun program hProgram => by cases hProgram
  | case2 => exact leave_sound hSound rfl

/- A last write that is an event. -/
theorem writeEvent_sound (hSound : store.Sound) (tx : Transaction) (reading : Reading)
    (event : Event) (hLawful : Lawful store event) (hKnown : event.tx.nonce ∈ store.used)
    (hJournaled : Journaled store.used (store.log ++ [event]) tx) :
    (writeLast store.disk tx reading (some event)).Sound store := by
  apply writeLast_sound hSound tx reading (some event) _ _ hJournaled
  · intro _ hOther
    rw [← Option.some.inj hOther]
    exact hLawful
  · intro _ hOther
    rw [← Option.some.inj hOther]
    exact hKnown

theorem journaled_record_of_prompted (hJournaled : Journaled used log tx)
    (hDue : Due log tx) (phase : Phase)
    (hPhase : phase = .rollingBack ∨ phase = .rolledBack ∨ phase = .rollbackFailed)
    (outcome : Outcome) (updatedAt : Int) :
    Journaled used log (tx.record phase outcome updatedAt) where
  known := hJournaled.known
  unacknowledged := fun _ => hJournaled.unacknowledged hDue.unacknowledged
  unrestored := by
    intro hOpen
    simp only [Transaction.record] at hOpen
    rcases hPhase with rfl | rfl | rfl <;> simp at hOpen
  prompted := fun _ _ => hDue.prompted

theorem journaled_settled (hJournaled : Journaled used log tx) (hDue : Due log tx) (restored : Bool)
    (updatedAt : Int) : Journaled used log (tx.settled restored updatedAt) := by
  fun_cases Transaction.settled <;>
    exact journaled_record_of_prompted hJournaled hDue _ (by simp) _ _

/- A last write of what the restore came to is no event. -/
theorem writeSettled_sound (hSound : store.Sound) (hJournal : store.disk.journal = some tx)
    (hDue : Due store.log tx) (restored : Bool) (updatedAt : Int) (reading : Reading) :
    (writeLast store.disk (tx.settled restored updatedAt) reading none).Sound store := by
  apply writeLast_sound hSound
  · exact fun event hEvent => by cases hEvent
  · exact fun event hEvent => by cases hEvent
  · rw [Option.toList_none, List.append_nil]
    exact journaled_settled (hSound.journaled tx hJournal) hDue _ _

end Writes

----
-- Prepare, Acknowledge and Fail
----

section Programs

variable {store : Store} (hSound : store.Sound)

/- After a step without an event, the log is as it was. -/
theorem log_after_goOn (disk : Disk) (program : Program) :
    (store.after (goOn disk program)).log = store.log :=
  List.append_nil _

include hSound

theorem prepareCopy_sound (tx : Transaction) (source : PackageFile)
    (hProgram : (Program.prepareCopy tx source).Sound store) (reading : Reading) :
    (advancePrepareCopy store.disk tx source reading).Sound store := by
  fun_cases advancePrepareCopy with
  | case1 =>
    apply goOn_sound hSound
    · rfl
    · simp only [Program.Sound, log_after_goOn]
      exact hProgram
  | _ => exact leave_sound hSound rfl

theorem prepareRunner_sound (tx : Transaction) (hProgram : (Program.prepareRunner tx).Sound store)
    (reading : Reading) : (advancePrepareRunner store.disk tx reading).Sound store := by
  fun_cases advancePrepareRunner with
  | case1 =>
    apply goOn_sound hSound rfl
    simp only [Program.Sound, log_after_goOn]
    exact hProgram
  | case2 => exact leave_sound hSound rfl

/- A fresh attempt has no past. -/
theorem prepareWrite_sound (tx : Transaction) (hProgram : (Program.prepareWrite tx).Sound store)
    (reading : Reading) : (advancePrepareWrite store.disk tx reading).Sound store := by
  rcases hProgram with ⟨hArmed, hUsed, hFresh⟩
  have hNew : Journaled store.used store.log tx :=
    { known := hUsed
      unacknowledged := fun _ event hEvent hSame =>
        hFresh event hEvent (Event.nonce_of_acknowledges hSame)
      unrestored := fun _ event hEvent hSame => hFresh event hEvent (Event.nonce_of_restores hSame)
      prompted := fun hPhase => absurd hArmed hPhase }
  exact writeEvent_sound hSound _ _ _ trivial hUsed (hNew.append _ (fun _ => id) (fun _ => id))

variable (node candidate nonce : String)

theorem acknowledgeRead_sound (reading : Reading) :
    (advanceAcknowledgeRead store.disk node candidate nonce reading).Sound store := by
  fun_cases advanceAcknowledgeRead with
  | case1 => exact leave_sound hSound rfl
  | case2 tx hRead => exact goOn_sound hSound rfl (read_spec store.disk reading tx hRead)

theorem acknowledgeCheck_sound (tx : Transaction)
    (hProgram : (Program.acknowledgeCheck node candidate nonce tx).Sound store)
    (reading : Reading) : (advanceAcknowledgeCheck store.disk node candidate nonce tx reading).Sound
    store := by
  fun_cases advanceAcknowledgeCheck with
  | case2 _ _ hCheck =>
    simp only [checkAcknowledgement, decide_eq_true_eq] at hCheck
    exact goOn_sound hSound rfl ⟨hProgram, hCheck.2.2.2.1, hCheck.2.2.2.2⟩
  | _ => exact leave_sound hSound rfl

omit hSound in
theorem unrestored_of_open {used : List String} {log : List Event} {tx : Transaction}
    (hJournaled : Journaled used log tx) (hPhase : tx.phase = .armed ∨ tx.phase = .acknowledged) :
    ∀ event ∈ log, ¬ event.restores tx.nonce :=
  hJournaled.unrestored (hPhase.imp_right Or.inr)

theorem acknowledgeWrite_sound (tx : Transaction) (clock : Int)
    (hProgram : (Program.acknowledgeWrite tx clock).Sound store) (reading : Reading) :
    (advanceAcknowledgeWrite store.disk tx clock reading).Sound store := by
  rcases hProgram with ⟨hJournal, hPhase, hClock⟩
  have hJournaled := hSound.journaled tx hJournal
  have hUnrestored := unrestored_of_open hJournaled hPhase
  fun_cases advanceAcknowledgeWrite with
  | case2 updatedAt =>
    have hEntry : Journaled store.used store.log
        (tx.record .acknowledged .controllerConfirmedActivation updatedAt) :=
      { known := hJournaled.known
        unacknowledged := fun hOther => absurd rfl hOther
        unrestored := fun _ => hUnrestored
        prompted := fun _ hOther => absurd rfl hOther }
    exact writeEvent_sound hSound _ _ _ ⟨hClock, hUnrestored⟩ hJournaled.known
      (hEntry.append _ (fun hOther => absurd rfl hOther) (fun _ => id))
  | _ => exact leave_sound hSound rfl

theorem failRead_sound (reading : Reading) : (advanceFailRead store.disk reading).Sound store := by
  fun_cases advanceFailRead with
  | case2 tx hRead hArmed =>
    exact goOn_sound hSound rfl ⟨read_spec store.disk reading tx hRead, hArmed⟩
  | _ => exact leave_sound hSound rfl

theorem failWrite_sound (tx : Transaction) (hProgram : (Program.failWrite tx).Sound store)
    (reading : Reading) : (advanceFailWrite store.disk tx reading).Sound store := by
  rcases hProgram with ⟨hJournal, hArmed⟩
  have hJournaled := hSound.journaled tx hJournal
  fun_cases advanceFailWrite with
  | case1 => exact leave_sound hSound rfl
  | case2 =>
    have hPast := hJournaled.append (.reportedFailed tx) (fun _ => id) (fun _ => id)
    exact writeEvent_sound hSound _ _ _ trivial hJournaled.known
      { known := hPast.known
        unacknowledged := fun _ => hPast.unacknowledged (by simp [hArmed])
        unrestored := fun _ => hPast.unrestored (Or.inl hArmed)
        prompted := fun _ _ =>
          ⟨.reportedFailed tx, List.mem_append_right _ List.mem_cons_self, rfl⟩ }

end Programs

----
-- Watch
----

section Programs

variable {store : Store} (hSound : store.Sound)

include hSound

theorem watchRead_sound (reading : Reading) :
    (advanceWatchRead store.disk reading).Sound store := by
  fun_cases advanceWatchRead with
  | case1 => exact leave_sound hSound rfl
  | case2 tx hRead => exact goOn_sound hSound rfl (read_spec store.disk reading tx hRead)

/- An event that is neither of the two kinds. -/
theorem event_sound (program : Program) (event : Event)
    (hLawful : Lawful store event) (hKnown : event.tx.nonce ∈ store.used)
    (hAcknowledges : ∀ nonce, ¬ event.acknowledges nonce)
    (hRestores : ∀ tx ∈ store.disk.journal, tx.phase = .armed ∨ tx.phase = .activationFailed ∨
        tx.phase = .acknowledged → ¬ event.restores tx.nonce)
    {disk : Disk}
    (hJournal : disk.journal = store.disk.journal)
    (hProgram : program.Sound (store.after
          { disk := disk, program := some program, event := some event })) : Effect.Sound store
      { disk := disk, program := some program, event := some event } where
  lawful := by
    intro _ hOther
    rw [← Option.some.inj hOther]
    exact hLawful
  after :=
    { known := by
        intro other hOther
        rcases List.mem_append.mp hOther with hOld | hNew
        · exact hSound.known other hOld
        · rw [List.mem_singleton.mp hNew]
          exact hKnown
      journaled := by
        intro tx hTx
        simp only [Store.after, hJournal] at hTx
        exact (hSound.journaled tx hTx).append event (fun _ => hAcknowledges tx.nonce)
          (hRestores tx hTx)
      holder := by
        intro _ hNext
        rw [← Option.some.inj hNext]
        exact hProgram }

theorem armed_sound (tx : Transaction) (hJournal : store.disk.journal = some tx)
    (hArmed : tx.phase = .armed) (reading : Reading) :
    (advanceArmed store.disk tx reading).Sound store := by
  fun_cases advanceArmed with
  | case3 clock _ hReached =>
    apply event_sound hSound
    · trivial
    · exact (hSound.journaled tx hJournal).known
    · exact fun _ => id
    · exact fun _ _ _ => id
    · rfl
    · refine ⟨hJournal, by simp [hArmed], ?_⟩
      exact ⟨.deadlineReached tx clock, List.mem_append_right _ List.mem_cons_self, rfl,
        Int.not_lt.mp hReached⟩
  | _ => exact leave_sound hSound rfl

theorem watchDecide_sound (tx : Transaction) (hJournal : store.disk.journal = some tx)
    (reading : Reading) : (advanceWatchDecide store.disk tx reading).Sound store := by
  -- A phase past the first ones has its cause in the log.
  have hGoOn (hArmed : tx.phase ≠ .armed) (hAcknowledged : tx.phase ≠ .acknowledged) :
      (goOn store.disk (.watchBudget tx)).Sound store := by
    apply goOn_sound hSound rfl
    refine ⟨hJournal, hAcknowledged, ?_⟩
    rw [log_after_goOn]
    exact (hSound.journaled tx hJournal).prompted hArmed hAcknowledged
  unfold advanceWatchDecide
  cases hPhase : tx.phase with
  | acknowledged | rolledBack => exact leave_sound hSound rfl
  | armed => exact armed_sound hSound tx hJournal hPhase reading
  | activationFailed | rollingBack | rollbackFailed =>
    exact hGoOn (by simp [hPhase]) (by simp [hPhase])

section

variable (tx : Transaction)

omit hSound in
theorem inTime_of_budget (timestamp remaining : Int)
    (hBudget : rollbackRetryBudget tx timestamp = some remaining) :
    timestamp < tx.deadline + rollbackRetryTimeout := by
  simp only [rollbackRetryBudget] at hBudget
  split at hBudget
  · omega
  · cases hBudget

theorem watchBudget_sound (hProgram : (Program.watchBudget tx).Sound store)
    (reading : Reading) : (advanceWatchBudget store.disk tx reading).Sound store := by
  fun_cases advanceWatchBudget with
  | case1 => exact leave_sound hSound rfl
  | case2 =>
    apply goOn_sound hSound rfl
    simp only [Program.Sound, log_after_goOn]
    exact hProgram
  | case3 timestamp _ remaining hBudget =>
    apply goOn_sound hSound rfl
    simp only [Program.Sound, log_after_goOn]
    exact ⟨hProgram.1, hProgram.2, inTime_of_budget tx timestamp remaining hBudget⟩

theorem watchReconcile_sound (hProgram : (Program.watchReconcile tx).Sound store)
    (reading : Reading) : (advanceWatchReconcile store.disk tx reading).Sound store := by
  fun_cases advanceWatchReconcile with
  | case1 => exact leave_sound hSound rfl
  | case2 => exact writeSettled_sound hSound hProgram.1 hProgram.2 _ _ reading

/- The restore begins with a durable entry. -/
theorem watchMark_sound (timestamp : Int)
    (hProgram : (Program.watchMark tx timestamp).Sound store) (reading : Reading) :
    (advanceWatchMark store.disk tx timestamp reading).Sound store := by
  rcases hProgram with ⟨hJournal, hDue, hInTime⟩
  have hJournaled := hSound.journaled tx hJournal
  generalize hMarked : tx.record .rollingBack .restoringCapturedSource timestamp = marked
  have hEntry : Journaled store.used (store.log ++ [.rollingBack marked timestamp]) marked := by
    subst hMarked
    exact (journaled_record_of_prompted hJournaled hDue _ (Or.inl rfl) _ _).append _ (fun _ => id)
      (by simp [Transaction.record])
  have hNonce : marked.nonce = tx.nonce := by
    rw [← hMarked]
    rfl
  have hLast := writeEvent_sound hSound marked reading (.rollingBack marked timestamp)
    (by simpa only [Lawful, hNonce] using hJournaled.unacknowledged hDue.unacknowledged)
    hEntry.known hEntry
  unfold advanceWatchMark
  simp only [hMarked]
  split
  · rename_i hWrites
    -- A write that succeeds is published as a last one is.
    have hPublishes : reading.publishes := by
      simp only [writes, Bool.and_eq_true] at hWrites
      rw [Reading.publishes, hWrites.1, Bool.true_or]
    rw [writeLast, if_pos hPublishes] at hLast
    refine ⟨hLast.lawful, hLast.after.known, hLast.after.journaled, ?_⟩
    intro _ hNext
    rw [← Option.some.inj hNext]
    refine ⟨rfl, ?_, List.mem_append_right _ List.mem_cons_self, ?_⟩
    · rw [← hMarked]
      rfl
    · rw [← hMarked]
      exact hInTime
  · exact hLast

end

end Programs

----
-- Restore
----

section Programs

variable {store : Store} {tx : Transaction} {timestamp : Int}

section

variable (hSound : store.Sound) (hRestoring : Restoring store tx timestamp)

include hSound hRestoring

theorem Restoring.due : Due store.log tx := by
  have hJournaled := hSound.journaled tx hRestoring.journal
  have hPhase := hRestoring.phase
  exact ⟨by simp [hPhase], hJournaled.prompted (by simp [hPhase]) (by simp [hPhase])⟩

theorem Restoring.unacknowledged : ∀ event ∈ store.log, ¬ event.acknowledges tx.nonce :=
  (hSound.journaled tx hRestoring.journal).unacknowledged (hRestoring.due hSound).unacknowledged

end

/- The restore goes on from where it is. -/
theorem Restoring.after (hRestoring : Restoring store tx timestamp)
    (effect : Effect) (hJournal : effect.disk.journal = store.disk.journal) :
    Restoring (store.after effect) tx timestamp where
  journal := hJournal.trans hRestoring.journal
  phase := hRestoring.phase
  marked := List.mem_append_left _ hRestoring.marked
  inTime := hRestoring.inTime

theorem retryRestore_sound (hRestoring : Restoring store tx timestamp) (reading : Reading) :
    (retryRestore tx timestamp reading).Sound store := by
  fun_cases retryRestore <;> exact hRestoring

theorem restore_event_sound (hSound : store.Sound)
    (hRestoring : Restoring store tx timestamp) (program : Program)
    (event : Event) (hTx : event.tx = tx) (hAcknowledges : ∀ nonce, ¬ event.acknowledges nonce)
    (hLawful : Lawful store event) {disk : Disk} (hJournal : disk.journal = store.disk.journal)
    (hProgram : program.Sound (store.after
          { disk := disk, program := some program, event := some event })) : Effect.Sound store
      { disk := disk, program := some program, event := some event } := by
  apply event_sound hSound program event hLawful
  · rw [hTx]
    exact (hSound.journaled tx hRestoring.journal).known
  · exact hAcknowledges
  · intro _ hOther hOpen
    -- The journal is in the phase of a restore.
    rw [hRestoring.journal] at hOther
    rw [← Option.some.inj hOther, hRestoring.phase] at hOpen
    simp at hOpen
  · exact hJournal
  · exact hProgram

theorem sha256_of_restoreAllowed (disk : Disk) (tx : Transaction)
    (hAllowed : restoreAllowed disk tx) :
    disk.sourceDeb.map PackageFile.sha256 = some tx.rollback.source.packageSha256 := by
  simp only [restoreAllowed, decide_eq_true_eq] at hAllowed
  cases hDeb : disk.sourceDeb with
  | none => simp [hDeb] at hAllowed
  | some =>
    have hDigest := hAllowed.1
    rw [hDeb, Option.any_some, decide_eq_true_eq] at hDigest
    rw [Option.map_some, hDigest]

section

variable (hSound : store.Sound)

include hSound

section

variable (tx : Transaction) (timestamp : Int)

theorem restoreCheck_sound (hProgram : Restoring store tx timestamp) (reading : Reading) :
    (advanceRestoreCheck store.disk tx timestamp reading).Sound store := by
  unfold advanceRestoreCheck
  apply restore_event_sound hSound hProgram
  · rfl
  · exact fun _ => id
  · exact ⟨hProgram.unacknowledged hSound, hProgram, (hProgram.due hSound).prompted⟩
  · rfl
  · split
    · rename_i hAllowed
      refine ⟨hProgram.after _ rfl, ?_⟩
      exact sha256_of_restoreAllowed store.disk tx hAllowed.2
    · exact retryRestore_sound (hProgram.after _ rfl) reading

/- Only the package that the journal names is installed. -/
theorem restoreInstall_sound
    (hProgram : (Program.restoreInstall tx timestamp).Sound store) (reading : Reading) :
    (advanceRestoreInstall store.disk tx timestamp reading).Sound store := by
  rcases hProgram with ⟨hRestoring, hDigest⟩
  have hLawful : Lawful store (.installs tx (store.disk.sourceDeb.map PackageFile.sha256)) :=
    ⟨hRestoring.unacknowledged hSound, hRestoring.journal, hDigest⟩
  fun_cases advanceRestoreInstall with
  | case1 =>
    exact restore_event_sound hSound hRestoring _ _ rfl (fun _ => id) hLawful rfl
      (hRestoring.after _ rfl)
  | case2 =>
    exact restore_event_sound hSound hRestoring _ _ rfl (fun _ => id) hLawful rfl
      (retryRestore_sound (hRestoring.after _ rfl) reading)

theorem restoreVerify_sound (hProgram : Restoring store tx timestamp) (reading : Reading) :
    (advanceRestoreVerify store.disk tx timestamp reading).Sound store := by
  fun_cases advanceRestoreVerify with
  | case1 => exact goOn_sound hSound rfl (hProgram.after _ rfl)
  | case2 => exact goOn_sound hSound rfl (retryRestore_sound (hProgram.after _ rfl) reading)

theorem watchFinish_sound
    (restored : Bool) (hProgram : Restoring store tx timestamp) (reading : Reading) :
    (advanceWatchFinish store.disk tx restored reading).Sound store := by
  fun_cases advanceWatchFinish with
  | case1 => exact leave_sound hSound rfl
  | case2 => exact writeSettled_sound hSound hProgram.journal (hProgram.due hSound) _ _ reading

end

end

end Programs

----
-- Every Run of the Store
----

variable {store : Store}

/- Each step of a program is lawful and leaves the store sound. -/
theorem advance_sound
    (hSound : store.Sound)
    (program : Program)
    (hProgram : program.Sound store)
    (reading : Reading) :
    (advance store.disk reading program).Sound store := by
  cases program with
  | prepareCopy tx source => exact prepareCopy_sound hSound tx source hProgram reading
  | prepareRunner tx => exact prepareRunner_sound hSound tx hProgram reading
  | prepareWrite tx => exact prepareWrite_sound hSound tx hProgram reading
  | acknowledgeRead node candidate nonce =>
    exact acknowledgeRead_sound hSound node candidate nonce reading
  | acknowledgeCheck node candidate nonce tx =>
    exact acknowledgeCheck_sound hSound node candidate nonce tx hProgram reading
  | acknowledgeWrite tx clock => exact acknowledgeWrite_sound hSound tx clock hProgram reading
  | failRead => exact failRead_sound hSound reading
  | failWrite tx => exact failWrite_sound hSound tx hProgram reading
  | watchRead => exact watchRead_sound hSound reading
  | watchDecide tx => exact watchDecide_sound hSound tx hProgram reading
  | watchBudget tx => exact watchBudget_sound hSound tx hProgram reading
  | watchReconcile tx => exact watchReconcile_sound hSound tx hProgram reading
  | watchMark tx timestamp => exact watchMark_sound hSound tx timestamp hProgram reading
  | restoreCheck tx timestamp => exact restoreCheck_sound hSound tx timestamp hProgram reading
  | restoreInstall tx timestamp => exact restoreInstall_sound hSound tx timestamp hProgram reading
  | restoreVerify tx timestamp => exact restoreVerify_sound hSound tx timestamp hProgram reading
  | watchFinish tx timestamp restored =>
    exact watchFinish_sound hSound tx timestamp restored hProgram reading

theorem enter_sound (hSound : store.Sound) (program : Program)
    (hProgram : ∀ other : Store, program.Sound other) : (store.enter program).store.Sound := by
  unfold Store.enter
  simp only
  split
  · refine ⟨hSound.known, hSound.journaled, ?_⟩
    intro _ hNext
    rw [← Option.some.inj hNext]
    exact hProgram _
  · exact hSound

theorem phase_of_prepareTransaction (request : PrepareRequest) (timestamp : Int) (tx : Transaction)
    (hTransaction : prepareTransaction request timestamp = .ok tx) : tx.phase = .armed := by
  revert hTransaction
  fun_cases prepareTransaction with
  | case5 =>
    rintro hTransaction
    rw [← Except.ok.inj hTransaction]
  | _ => exact fun hTransaction => by cases hTransaction

/- An entry stays as it was when a nonce is prepared. -/
theorem Journaled.use {used : List String} {log : List Event} {tx : Transaction}
    (hJournaled : Journaled used log tx) (nonce : String) : Journaled (nonce :: used) log tx :=
  { hJournaled with known := List.mem_cons_of_mem _ hJournaled.known }

theorem prepare_sound (hSound : store.Sound) (request : PrepareRequest)
    (timestamp : Int) : (store.prepare request timestamp).store.Sound := by
  fun_cases Store.prepare with
  | case3 tx hTransaction hFree =>
    rw [not_or] at hFree
    refine ⟨?_, ?_, ?_⟩
    · exact fun event hEvent => List.mem_cons_of_mem _ (hSound.known event hEvent)
    · exact fun other hOther => (hSound.journaled other hOther).use tx.nonce
    · intro _ hNext
      rw [← Option.some.inj hNext]
      refine ⟨phase_of_prepareTransaction request timestamp tx hTransaction, List.mem_cons_self, ?_⟩
      -- No event is of a nonce that was never used.
      exact fun event hEvent hSame => hFree.1 (hSame ▸ hSound.known event hEvent)
  | _ => exact hSound

/- Programs go by the journal and the captured package. -/
theorem Program.Sound.change {store other : Store} {program : Program}
    (hProgram : program.Sound store) (hJournal : other.disk.journal = store.disk.journal)
    (hSource : other.disk.sourceDeb = store.disk.sourceDeb) (hUsed : other.used = store.used)
    (hPass : other.pass = store.pass) (hLog : other.log = store.log) : program.Sound other := by
  have hRestoring {tx : Transaction} {timestamp : Int} (hOld : Restoring store tx timestamp) :
      Restoring other tx timestamp :=
    { journal := hJournal.trans hOld.journal
      phase := hOld.phase
      marked := by
        rw [hPass]
        exact hOld.marked
      inTime := hOld.inTime }
  cases program with
  | restoreCheck | restoreVerify | watchFinish => exact hRestoring hProgram
  | restoreInstall =>
    refine ⟨hRestoring hProgram.1, ?_⟩
    rw [hSource]
    exact hProgram.2
  | acknowledgeRead | failRead | watchRead => trivial
  | _ =>
    simp only [Program.Sound, hJournal, hUsed, hLog] at hProgram ⊢
    exact hProgram

theorem prepare_event (store : Store) (request : PrepareRequest) (timestamp : Int) :
    (store.prepare request timestamp).event = none := by
  fun_cases Store.prepare <;> rfl

/- So is every input, whoever makes it. -/
theorem serve_sound (hSound : store.Sound) (input : Input) :
    (∀ event ∈ (store.serve input).event, Lawful store event) ∧ (store.serve input).store.Sound :=
    by
  have hSilent : ∀ event ∈ (none : Option Event), Lawful store event := by
    intro _ hEvent
    cases hEvent
  cases input with
  | prepare request timestamp =>
    refine ⟨?_, prepare_sound hSound request timestamp⟩
    simp only [Store.serve, prepare_event]
    exact hSilent
  | acknowledge | activationFailed | watch =>
    exact ⟨hSilent, enter_sound hSound _ (fun _ => trivial)⟩
  | advance reading =>
    simp only [Store.serve, Store.advance]
    split
    · exact ⟨hSilent, hSound⟩
    · rename_i program hHolder
      have hEffect := advance_sound hSound program (hSound.holder program hHolder) reading
      exact ⟨hEffect.lawful, hEffect.after⟩
  | crash =>
    refine ⟨hSilent, hSound.known, hSound.journaled, ?_⟩
    intro _ hNext
    cases hNext
  | change agent helper =>
    refine ⟨hSilent, hSound.known, hSound.journaled, ?_⟩
    intro next hNext
    exact (hSound.holder next hNext).change rfl rfl rfl rfl rfl

theorem empty_sound (agent helper : Option String) : (Store.empty agent helper).Sound where
  known := by
    intro _ hEvent
    cases hEvent
  journaled := by
    intro _ hTx
    cases hTx
  holder := by
    intro _ hProgram
    cases hProgram

/- What the steps of a run did. -/
def happened (steps : List (Machine.Step Store Input Output)) : List Event :=
  steps.flatMap (fun step => step.output.event.toList)

theorem log_serve (store : Store) (input : Input) :
    (store.serve input).store.log = store.log ++ (store.serve input).event.toList := by
  cases input with
  | prepare =>
    simp only [Store.serve]
    fun_cases Store.prepare <;> exact (List.append_nil _).symm
  | advance =>
    simp only [Store.serve]
    fun_cases Store.advance with
    | case1 => exact (List.append_nil _).symm
    | case2 => rfl
  | crash | change => exact (List.append_nil _).symm
  | _ =>
    simp only [Store.serve, Store.enter, Option.toList_none, List.append_nil]
    split <;> rfl

/- The log is what the run did. -/
theorem log_eq_happened (agent helper : Option String) (inputs : List Input) :
    (storeMachine.final (Store.empty agent helper) inputs).log =
    happened (storeMachine.trace (Store.empty agent helper) inputs) := by
  apply storeMachine.history (H := fun past store => store.log = happened past)
  · rfl
  · intro _ store input hLog
    rw [happened, List.flatMap_append, ← happened, ← hLog, List.flatMap_singleton]
    exact log_serve store input

/-
  The journal tells the past of its attempt after every run: whether it was acknowledged, whether
  its source was restored, and that a restore was called for.
-/
theorem journal_tells_the_past
    (agent helper : Option String)
    (inputs : List Input) :
    let store := storeMachine.final (Store.empty agent helper) inputs
    let past := happened (storeMachine.trace (Store.empty agent helper) inputs)
    (∀ event ∈ past, event.tx.nonce ∈ store.used) ∧
    ∀ tx ∈ store.disk.journal, Journaled store.used past tx := by
  intro store past
  have hSound : store.Sound := storeMachine.final_of_absorbing (A := Store.Sound)
    (fun _ input hStore => (serve_sound hStore input).2) (empty_sound agent helper) inputs
  have hPast : store.log = past := log_eq_happened agent helper inputs
  rw [← hPast]
  exact ⟨hSound.known, hSound.journaled⟩

/-
  Of one attempt, an acknowledgement and a restore exclude each other, in either order. An
  acknowledgement is before the deadline; a restore follows an entry of its own pass, a reason to
  restore and a clock within the budget; and what it installs is what the journal names.
-/
theorem acknowledged_or_rolled_back
    (agent helper : Option String)
    (inputs : List Input)
    (k : Nat)
    (step : Machine.Step Store Input Output)
    (hStep :
      (storeMachine.trace (Store.empty agent helper) inputs)[k]? =
        some step)
    (event : Event)
    (hEvent : step.output.event = some event) :
    let past := happened ((storeMachine.trace (Store.empty agent helper) inputs).take k)
    (∀ tx clock,
       event = .acknowledged tx clock →
       clock < tx.deadline ∧
       ∀ earlier ∈ past, ¬ earlier.restores tx.nonce) ∧
    (∀ nonce,
       event.restores nonce →
       ∀ earlier ∈ past, ¬ earlier.acknowledges nonce) ∧
    (∀ tx timestamp,
       event = .restoring tx timestamp →
       .rollingBack tx timestamp ∈ step.before.pass ∧
       step.before.disk.journal = some tx ∧
       tx.phase = .rollingBack ∧
       (∃ earlier ∈ past, earlier.prompts tx.rollback) ∧
       timestamp < tx.deadline + rollbackRetryTimeout) ∧
    (∀ tx sha256,
       event = .installs tx sha256 →
       step.before.disk.journal = some tx ∧
       sha256 = some tx.rollback.source.packageSha256) := by
  rcases storeMachine.exists_of_getElem?_trace hStep with ⟨input, hInput, rfl⟩
  have hSound : (storeMachine.final (Store.empty agent helper) (inputs.take k)).Sound :=
    storeMachine.invariant (I := Store.Sound)
      (P := fun _ => True)
      (fun store next hOld _ => (serve_sound hOld next).2)
      (empty_sound agent helper)
      (fun _ _ => trivial)
  have hLog := log_eq_happened agent helper (inputs.take k)
  rw [← storeMachine.take_trace] at hLog
  have hLawful := (serve_sound hSound input).1 event hEvent
  rw [← hLog]
  refine ⟨?_, ?_, ?_, ?_⟩
  · rintro _ _ rfl
    exact hLawful
  · intro _ hRestores
    cases event with
    | rollingBack =>
      rw [← hRestores]
      exact hLawful
    | restoring | installs =>
      rw [← hRestores]
      exact hLawful.1
    | _ => exact hRestores.elim
  · rintro _ _ rfl
    rcases hLawful with ⟨_, hRestoring, hPrompted⟩
    exact ⟨hRestoring.marked, hRestoring.journal, hRestoring.phase, hPrompted, hRestoring.inTime⟩
  · rintro _ _ rfl
    exact hLawful.2

/- An agent that replaces itself and does not come up. -/
def digestOf (letter : Char) : String := String.ofList (List.replicate 64 letter)

def triedAuthority : Authority where
  source :=
    { packageSha256 := digestOf 'a', packageSignature := String.ofList (List.replicate 128 'a'),
      packageVersion := "1.0", binarySha256 := digestOf 'b', helperSha256 := digestOf 'c' }
  attemptNonce := digestOf '1'
  activationDeadline := 200

def triedRequest : PrepareRequest where
  node := "spk_" ++ String.ofList (List.replicate 32 '0')
  source :=
    { sha256 := digestOf 'a', package := "vonk-forge-agent", architecture := "arm64",
      version := "1.0", binarySha256 := digestOf 'b', helperSha256 := digestOf 'c' }
  candidate :=
    { sha256 := digestOf 'd', package := "vonk-forge-agent", architecture := "arm64",
      version := "1.1", binarySha256 := digestOf 'e', helperSha256 := digestOf 'f' }
  candidateSha256 := digestOf 'd'
  authority := triedAuthority

def smoothAt (clock : Int) : Reading where
  clock := some clock
  succeeds := true
  published := true
  proven := true
  retries := true

def triedInputs : List Input :=
  [.prepare triedRequest 100, .advance (smoothAt 100), .advance (smoothAt 100),
    .advance (smoothAt 100), .change (some (digestOf 'e')) (some (digestOf 'f')), .watch,
    .advance (smoothAt 200), .advance (smoothAt 200), .advance (smoothAt 201),
    .advance (smoothAt 201), .advance (smoothAt 202), .advance (smoothAt 203)]

def triedTrace : List (Machine.Step Store Input Output) :=
  storeMachine.trace (Store.empty (some (digestOf 'b')) (some (digestOf 'c'))) triedInputs

def installsTried : Event → Bool
  | .installs tx _ => tx.rollback = triedAuthority
  | _ => false

/- The run ends with the source installed again. -/
theorem silent_candidate_is_rolled_back :
    ∃ step tx sha256,
      triedTrace[11]? = some step ∧
      step.output.event = some (.installs tx sha256) ∧
      sha256 = some (digestOf 'a') ∧
      ∀ earlier ∈ happened (triedTrace.take 11),
        ¬ earlier.acknowledges (digestOf '1') := by
  have hEvent :
      (triedTrace[11]?.bind (fun step => step.output.event)).any installsTried = true := by
    decide +kernel
  rcases Option.any_eq_true _ _ |>.mp hEvent with ⟨event, hSome, hInstalls⟩
  rcases Option.bind_eq_some_iff.mp hSome with ⟨step, hStep, hOutput⟩
  have hLaw := acknowledged_or_rolled_back _ _ triedInputs 11 step hStep event hOutput
  cases event with
  | installs tx sha256 =>
    have hRollback : tx.rollback = triedAuthority := of_decide_eq_true hInstalls
    have hNonce : tx.nonce = digestOf '1' := congrArg Authority.attemptNonce hRollback
    refine ⟨step, tx, sha256, hStep, hOutput, ?_, ?_⟩
    · rw [(hLaw.2.2.2 tx sha256 rfl).2, hRollback]
      rfl
    · exact hLaw.2.1 (digestOf '1') hNonce
  | _ => cases hInstalls

end VonkForge.Rollback
