import VonkForge.Journal.Once

/-
  The journal seen from one key: the receipt under it, and whether it is acknowledged, reconciled
  and refused.

  Every call of every handle does to a key one of the few things that `Touch` lists. What the wire
  contract has to keep for a stored receipt to be read back is `Faithful`.

  Main declarations:
    * `Slot`, `slot`
    * `Faithful`
    * `find_update`
    * `serve_touch`
-/

----
-- One Key
----

namespace VonkForge.Journal

open Fallible

variable {P D U E : Type}

structure Slot where
  operation : Option String
  receipt : Option Bytes
  acknowledged : Bool
  reconciled : Bool
  refused : Bool

def slot (database : Database) (key : Text) : Slot :=
  let entry := database.operations.find key
  { operation := entry.bind fun row => row.operation.read
    receipt := entry.bind Entry.receipt
    acknowledged := entry.any Entry.acknowledged
    reconciled := decide (key ∈ database.reconciled)
    refused := (findRejection database key).isSome }

namespace Operations

variable {table : Operations} {key : Text}

theorem mem_of_find {entry : Entry} (hFind : table.find key = some entry) :
    entry ∈ table.entries ∧ entry.fence = key := by
  refine ⟨List.mem_of_find?_eq_some hFind, ?_⟩
  have hSame := List.find?_some hFind
  simpa using hSame

/- The key is unique, so its row is the one that is found. -/
theorem find_of_mem {entry : Entry} (hMem : entry ∈ table.entries) :
    table.find entry.fence = some entry := by
  cases hFind : table.find entry.fence with
  | none =>
    have hNone := List.find?_eq_none.mp hFind entry hMem
    simp at hNone
  | some =>
    rcases mem_of_find hFind with ⟨hFound, hFence⟩
    rw [List.inj_on_of_nodup_map table.unique hFound hMem hFence]

/- An update changes the selected row of a key and no other. -/
theorem find_update
    (selected : Entry → Bool)
    (change : Change) :
    (table.update selected change).find key =
      (table.find key).map fun entry => if selected entry then
        change.apply entry else entry := by
  unfold find update
  rw [List.find?_map]
  congr 2
  funext entry
  simp only [Function.comp]
  split
  · rfl
  · rfl

/- A condition on the row of a key, by the row itself. -/
theorem any_key (holds : Entry → Bool) : (table.entries.any fun entry =>
        entry.fence == key && holds entry) = (table.find key).any holds := by
  cases hFind : table.find key with
  | none =>
    rw [Option.any_none, List.any_eq_false]
    intro entry hMem
    have hOther := List.find?_eq_none.mp hFind entry hMem
    simp only [Bool.not_eq_true] at hOther
    simp [hOther]
  | some found =>
    rcases mem_of_find hFind with ⟨hFound, hFence⟩
    rw [Option.any_some, Bool.eq_iff_iff, List.any_eq_true]
    constructor
    · rintro ⟨entry, hMem, hBoth⟩
      simp only [Bool.and_eq_true, beq_iff_eq] at hBoth
      have hSame : entry = found := by
        apply List.inj_on_of_nodup_map table.unique hMem hFound
        rw [hBoth.1, hFence]
      rw [← hSame]
      exact hBoth.2
    · intro hHolds
      exact ⟨found, hFound, by simp [hFence, hHolds]⟩

theorem find_insert (key : Text) {inserted : Operations}
    {fence operation deadline : Text} {claim : Option Bytes}
    (hInsert : table.insert fence operation deadline claim = .ok inserted) :
    table.find fence = none ∧ inserted.find key = (table.find key).or
          (if fence == key then
            some
              { rowid := table.nextRowid, fence := fence, operation := operation,
                deadline := deadline, claim := claim }
          else none) := by
  have hFree := (insert_fences hInsert).1
  refine ⟨?_, ?_⟩
  · refine List.find?_eq_none.mpr fun entry hMem hSame => ?_
    apply hFree
    rw [← LawfulBEq.eq_of_beq hSame]
    exact List.mem_map_of_mem hMem
  · unfold insert at hInsert
    rw [dif_neg hFree] at hInsert
    rw [← Except.ok.inj hInsert]
    simp only [find, List.find?_append, List.find?_cons, List.find?_nil]
    split
    · next hSame => simp [hSame]
    · next hOther => simp [hOther]

end Operations

----
-- What the Wire Contract keeps
----

namespace Wire

/- The document of the result reads back as the result. -/
def Canonical (wire : Wire P D U E) (result : AgentResult D U) : Prop :=
  ∀ body, wire.resultJson result = some body → wire.parseResult body = some result

/-
  Fences read back as they are spelled. A result that went through its own reader once is canonical
  and still the same outcome; so is the one recovery writes.
-/
structure Faithful (wire : Wire P D U E) : Prop where
  fence : ∀ fence, wire.parseFence (wire.fenceText fence) = some fence
  revalidated : ∀ sent result, wire.revalidate sent = some result → wire.Canonical result ∧
    result.fence = sent.fence ∧ result.result.isUnknown = sent.result.isUnknown
  interrupted : ∀ operation fence,
    wire.Canonical (wire.finishFor operation fence (.unknown wire.restartInterrupted))

end Wire

----
-- What a Call does to a Key
----

/- The receipt under a key gives way to this result. -/
structure Gives (wire : Wire P D U E) (operation : AgentOperation)
    (fence : Uuid) (result : AgentResult D U) (before after : Slot) : Prop where
  operated : before.operation = some operation.text
  kept : after.operation = before.operation
  fence : result.fence = fence
  valid : wire.validFor result operation = true
  written : ∃ body, after.receipt = some body ∧ wire.parseResult body = some result
  acknowledged : after.acknowledged = false

/- What a call does to what is stored under a key. -/
inductive Touch (wire : Wire P D U E) (call : Call P D U E) (key : Text)
    (before after : Slot) : Prop where
  | kept (hOperation : after.operation = before.operation)
      (hReceipt : after.receipt = before.receipt)
      (hAcknowledged : after.acknowledged = before.acknowledged)
      (hReconciled : after.reconciled = before.reconciled)
  | opened (hBefore : before.receipt = none) (hAfter : after.receipt = none)
      (hAcknowledged : after.acknowledged = false)
      (hReconciled : after.reconciled = before.reconciled)
  -- A receipt comes only where there is none, or where an
  -- unknown one gives way to a definite one.
  | finished (claim : AgentClaim P) (executed : ExecutionResult E U) (result : AgentResult D U)
      (hCall : call = .finish claim executed) (hKey : key = wire.key claim.fence)
      (hKind : result.result.isUnknown = (wire.finishFor claim.operation claim.fence
        executed).result.isUnknown)
      (hGives : Gives wire claim.operation claim.fence result before after)
      (hBefore : Replaceable wire result before.receipt) (hReconciled : after.reconciled = false)
      (hRefused : after.refused = false)
  | recovered (operation : AgentOperation) (fence : Uuid) (result : AgentResult D U)
      (hCall : call = .recoverInterrupted)
      (hFence : ∃ text, key = .utf8 text ∧ wire.parseFence text = some fence)
      (hGives : Gives wire operation fence result before after) (hBefore : before.receipt = none)
      (hReconciled : after.reconciled = before.reconciled)
  | acknowledged (result : AgentResult D U) (hCall : call.settles = some result)
      (hKey : key = wire.key result.fence) (hOperation : after.operation = before.operation)
      (hReceipt : after.receipt = before.receipt) (hAcknowledged : after.acknowledged = true)
      (hReconciled : after.reconciled = before.reconciled)
  | reconciled (result : AgentResult D U) (hCall : call.settles = some result)
      (hKey : key = wire.key result.fence) (hOperation : after.operation = before.operation)
      (hReceipt : after.receipt = before.receipt)
      (hAcknowledged : after.acknowledged = before.acknowledged)
      (hReconciled : after.reconciled = true)
  | discarded (result : AgentResult D U) (body : Bytes)
      (hCall : call = .discardRejectedResult result) (hKey : key = wire.key result.fence)
      (hOperation : after.operation = before.operation) (hReceipt : after.receipt = before.receipt)
      (hAcknowledged : after.acknowledged = before.acknowledged)
      (hBody : wire.resultJson result = some body) (hSame : before.receipt = some body)
      (hReconciled : after.reconciled = true)

variable {wire : Wire P D U E} {handle : Handle} {available : Bool} {database : Database}
variable {call : Call P D U E} {key : Text}

/- The row of the key and its reconciliation stay. -/
theorem Touch.of_find {after : Database}
    (hFind : after.operations.find key = database.operations.find key)
    (hReconciled : key ∈ after.reconciled ↔ key ∈ database.reconciled) :
    Touch wire call key (slot database key) (slot after key) := by
  refine Touch.kept ?_ ?_ ?_ ?_
  · simp only [slot, hFind]
  · simp only [slot, hFind]
  · simp only [slot, hFind]
  · simp only [slot, hReconciled]

/- A claim that inserts a row opens its key, and no other. -/
theorem insert_touch {fence operation deadline : Text} {body : Option Bytes}
    {operations : Operations}
    (hInsert : database.operations.insert fence operation deadline body = .ok operations) :
    Touch wire call key (slot database key)
      (slot { database with operations := operations } key) := by
  rcases Operations.find_insert key hInsert with ⟨hFree, hFind⟩
  by_cases hKey : fence = key
  · subst hKey
    simp only [hFree, beq_self_eq_true, if_true, Option.none_or] at hFind
    refine Touch.opened ?_ ?_ ?_ rfl
    · simp [slot, hFree]
    · simp [slot, hFind]
    · simp [slot, hFind]
  · have hOther : (fence == key) = false := beq_eq_false_iff_ne.mpr hKey
    simp only [hOther, Bool.false_eq_true, if_false, Option.or_none] at hFind
    exact Touch.of_find hFind Iff.rfl

/- An update that does not select the row of the key. -/
theorem find_update_other {table : Operations} {selected : Entry → Bool}
    {change : Operations.Change} (hOther : ∀ entry, table.find key = some entry →
      selected entry = false) : (table.update selected change).find key = table.find key := by
  rw [Operations.find_update]
  cases hFind : table.find key with
  | none => rfl
  | some entry =>
    rw [Option.map_some, hOther entry hFind]
    simp

theorem notMem_deleteFence (table : List Text) (key : Text) : key ∉ deleteFence table key := by
  simp [deleteFence]

theorem mem_deleteFence_other {table : List Text} {fence : Text} (hOther : fence ≠ key) :
    key ∈ deleteFence table fence ↔ key ∈ table := by
  simp only [deleteFence, List.mem_filter, bne_iff_ne, and_iff_left_iff_imp]
  intro _ hSame
  exact hOther hSame.symm

theorem findRejection_deleteRejection (rows : List RejectionRow) (key : Text) :
    (deleteRejection rows key).find? (fun row => row.fence == key) = none := by
  simp [deleteRejection, List.find?_eq_none]

theorem finishFor_fence (wire : Wire P D U E) (operation : AgentOperation) (fence : Uuid)
    (executed : ExecutionResult E U) : (wire.finishFor operation fence executed).fence = fence := by
  cases executed with
  | ended | unknown => rfl

variable {executed : ExecutionResult E U} {claim : AgentClaim P}

/- A recorded result is the receipt, and nothing else is. -/
theorem record_touch
    {stored : Entry} (hFaithful : wire.Faithful)
    (hFind : database.operations.find (wire.key claim.fence) = some stored)
    (hOperation : stored.operation.read = some claim.operation.text)
    (hBefore : Replaceable wire (wire.finishFor claim.operation claim.fence executed)
      stored.receipt) :
    Returns
      (fun out => Touch wire (.finish claim executed) key (slot database key) (slot out.1 key))
      (record wire database claim (wire.finishFor claim.operation claim.fence executed)) := by
  unfold record
  refine Returns.orFail fun result hResult => ?_
  refine Returns.require fun hValid => ?_
  refine Returns.orFail fun body hBody => ?_
  refine Returns.ok ?_
  rcases hFaithful.revalidated _ _ hResult with ⟨hCanonical, hFence, hUnknown⟩
  by_cases hKey : wire.key claim.fence = key
  · subst hKey
    have hRow := (Operations.mem_of_find hFind).2
    refine Touch.finished claim executed result rfl rfl hUnknown
      ⟨?_, ?_, ?_, hValid, ⟨body, ?_, hCanonical body hBody⟩, ?_⟩ ?_ ?_ ?_
    · simp [slot, hFind, hOperation]
    · simp [slot, Operations.find_update, hFind, hRow, Operations.Change.apply]
    · rw [hFence, finishFor_fence]
    · simp [slot, Operations.find_update, hFind, hRow, Operations.Change.apply]
    · simp [slot, Operations.find_update, hFind, hRow, Operations.Change.apply]
    · rw [Replaceable, hUnknown]
      simpa [slot, hFind, Replaceable] using hBefore
    · simp [slot, notMem_deleteFence]
    · simp [slot, findRejection, findRejection_deleteRejection]
  · refine Touch.of_find ?_ (mem_deleteFence_other hKey)
    apply find_update_other
    intro _ hEntry
    rw [(Operations.mem_of_find hEntry).2]
    exact beq_eq_false_iff_ne.mpr fun hSame => hKey hSame.symm

/- An update of other columns than those of the slot. -/
theorem renew_touch (selected : Entry → Bool) (deadline : Text) :
    Touch wire call key (slot database key)
      (slot
        { database with
          operations := database.operations.update selected { deadline := fun _ => deadline } }
        key) := by
  refine Touch.kept ?_ ?_ ?_ rfl
  all_goals
    simp only [slot, Operations.find_update]
    cases database.operations.find key with
    | none => rfl
    | some =>
      rw [Option.map_some]
      split
      · rfl
      · rfl

theorem mem_insertIgnore (table : List Text) (fence : Text) :
    key ∈ insertIgnore table fence ↔ key ∈ table ∨ key = fence := by
  unfold insertIgnore
  split
  · next hMem =>
      constructor
      · exact Or.inl
      · rintro (hOld | rfl)
        · exact hOld
        · exact hMem
  · simp

/- A reconciled fence is no other key. -/
theorem reconcile_touch {result : AgentResult D U}
    (hOwn : key = wire.key result.fence →
      Touch wire call key (slot database key)
        (slot { database with reconciled := insertIgnore database.reconciled key } key)) :
    Touch wire call key (slot database key)
      (slot
        { database with
          reconciled := insertIgnore database.reconciled (wire.key result.fence) }
        key) := by
  by_cases hKey : key = wire.key result.fence
  · rw [← hKey]
    exact hOwn hKey
  · refine Touch.of_find rfl ?_
    simp [mem_insertIgnore, hKey]

variable {result : AgentResult D U}

theorem discard_touch {body : Bytes} (hBody : wire.resultJson result = some body)
    (hStored : database.operations.entries.any fun entry =>
      entry.fence == wire.key result.fence && entry.receipt == some body) :
    Touch wire (.discardRejectedResult result) key (slot database key)
      (slot
        { database with
          reconciled := insertIgnore database.reconciled (wire.key result.fence) }
        key) := by
  rw [Operations.any_key fun entry : Entry => entry.receipt == some body] at hStored
  apply reconcile_touch
  rintro rfl
  refine Touch.discarded result body rfl rfl rfl rfl rfl hBody ?_ ?_
  · rcases (Option.any_eq_true _ _).mp hStored with ⟨_, hEntry, hSame⟩
    simp [slot, hEntry, LawfulBEq.eq_of_beq hSame]
  · simp [slot, mem_insertIgnore]

theorem settle_touch (hCall : call.settles = some result)
    (hCompleted : database.operations.entries.any fun entry =>
      entry.fence == wire.key result.fence && entry.completed) :
    Touch wire call key (slot database key)
      (slot
        { database with
          operations := database.operations.update
            (fun entry => entry.fence == wire.key result.fence && entry.completed)
            { acknowledged := fun _ => true }
          rejections := deleteRejection database.rejections (wire.key result.fence) }
        key) := by
  rw [Operations.any_key Entry.completed] at hCompleted
  by_cases hKey : key = wire.key result.fence
  · subst hKey
    rcases (Option.any_eq_true _ _).mp hCompleted with ⟨_, hEntry, hDone⟩
    have hRow := (Operations.mem_of_find hEntry).2
    refine Touch.acknowledged result hCall rfl ?_ ?_ ?_ rfl
    all_goals
      simp [slot, Operations.find_update, hEntry, hRow, hDone, Operations.Change.apply]
  · refine Touch.of_find (find_update_other ?_) Iff.rfl
    intro _ hEntry
    simp [(Operations.mem_of_find hEntry).2, hKey]

----
-- Recovery
----

/- What a loop of recovered rows does to a key. -/
inductive Recovering (wire : Wire P D U E) (key : Text) (before after : Slot) : Prop where
  | same (hSame : after = before)
  | ended (operation : AgentOperation) (fence : Uuid) (result : AgentResult D U)
      (hFence : ∃ text, key = .utf8 text ∧ wire.parseFence text = some fence)
      (hUnknown : result.result.isUnknown = true)
      (hGives : Gives wire operation fence result before after) (hBefore : before.receipt = none)
      (hReconciled : after.reconciled = before.reconciled)

theorem Recovering.operation {before after : Slot}
    (hRecovering : Recovering wire key before after) : after.operation = before.operation := by
  cases hRecovering with
  | same hSame => rw [hSame]
  | ended _ _ _ _ _ hGives => exact hGives.kept

/- A row that was ended is not running any more. -/
theorem Recovering.trans {before middle after : Slot} (hFirst : Recovering wire key before middle)
    (hSecond : Recovering wire key middle after) : Recovering wire key before after := by
  cases hFirst with
  | same hSame =>
    rw [← hSame]
    exact hSecond
  | ended operation fence result hFence hUnknown hGives hBefore hReconciled =>
    cases hSecond with
    | same hSame =>
      rw [hSame]
      exact Recovering.ended operation fence result hFence hUnknown hGives hBefore hReconciled
    | ended _ _ _ _ _ _ hNone =>
      rcases hGives.written with ⟨_, hBody, _⟩
      rw [hBody] at hNone
      cases hNone

theorem parse_text {word : String} {operation : AgentOperation}
    (hParse : AgentOperation.parse word = some operation) : operation.text = word := by
  have hFound := List.find?_some hParse
  simpa using hFound

theorem Text.eq_of_read {column : Text} {text : String} (hRead : column.read = some text) :
    column = .utf8 text := by
  cases column with
  | utf8 => exact congrArg Text.utf8 (Option.some.inj hRead)
  | damaged => cases hRead

theorem recoverRow_recovering {current : Database} {entry : Entry} (hFaithful : wire.Faithful)
    (hOperation : (slot current entry.fence).operation = entry.operation.read) :
    Returns (fun after => ∀ key, Recovering wire key (slot current key) (slot after key))
    (recoverRow wire current entry) := by
  unfold recoverRow
  split
  · next fence word hFence hWord =>
      split
      · next operation parsed hParse hClaim hParsed =>
          refine Returns.require fun hValid => ?_
          refine Returns.orFail fun body hBody => ?_
          refine Returns.ok fun key => ?_
          by_cases hEnds : key = entry.fence ∧ (current.operations.find key).any Entry.running =
            true
          · rcases hEnds with ⟨rfl, hRunning⟩
            rcases (Option.any_eq_true _ _).mp hRunning with ⟨row, hRow, hRunning⟩
            have hKey := (Operations.mem_of_find hRow).2
            have hText : entry.fence = .utf8 fence := Text.eq_of_read hFence
            refine Recovering.ended operation parsed _ ⟨fence, hText, hParsed⟩ rfl
              ⟨?_, ?_, rfl, hValid, ⟨body, ?_, hFaithful.interrupted _ _ body hBody⟩, ?_⟩ ?_ rfl
            · rw [hOperation, hWord, parse_text hParse]
            · simp [slot, Operations.find_update, hRow, hKey, hRunning, Operations.Change.apply]
            · simp [slot, Operations.find_update, hRow, hKey, hRunning, Operations.Change.apply]
            · simp [slot, Operations.find_update, hRow, hKey, hRunning, Operations.Change.apply]
            · have hNone : row.receipt = none := Option.isNone_iff_eq_none.mp hRunning
              simp [slot, hRow, hNone]
          · apply Recovering.same
            unfold slot
            rw [find_update_other]
            · rfl
            · intro _ hRow
              have hKey := (Operations.mem_of_find hRow).2
              simp only [hRow, Option.any_some, not_and, Bool.not_eq_true] at hEnds
              rw [hKey, Bool.and_eq_false_iff]
              by_cases hSame : key = entry.fence
              · exact Or.inr (hEnds hSame)
              · exact Or.inl (beq_eq_false_iff_ne.mpr hSame)
      · exact Returns.ok fun key => Recovering.same rfl
  · exact Returns.ok fun key => Recovering.same rfl

theorem recover_touch {after : Database} (hFaithful : wire.Faithful)
    (hLoop : (database.operations.entries.filter Entry.running).foldlM (recoverRow wire)
      database = .ok after) :
    Touch wire .recoverInterrupted key (slot database key) (slot after key) := by
  have hRecovering : Returns
      (fun after => ∀ key, Recovering wire key (slot database key) (slot after key))
      ((database.operations.entries.filter Entry.running).foldlM (recoverRow wire) database) := by
    apply Returns.foldlM
    · intro current entry hEntry hCurrent next hNext key
      have hMem := List.mem_of_mem_filter hEntry
      have hOperation : (slot current entry.fence).operation = entry.operation.read := by
        rw [(hCurrent entry.fence).operation]
        simp [slot, Operations.find_of_mem hMem]
      exact (hCurrent key).trans (recoverRow_recovering hFaithful hOperation next hNext key)
    · intro _
      exact Recovering.same rfl
  cases hRecovering after hLoop key with
  | same hSame =>
    rw [hSame]
    exact Touch.of_find rfl Iff.rfl
  | ended operation fence result hFence _ hGives hBefore hReconciled =>
    exact Touch.recovered operation fence result rfl hFence hGives hBefore hReconciled

----
-- Every Call
----

theorem Wrote.touch {after : Database} (hFaithful : wire.Faithful)
    (hWrote : Wrote wire database call after) (key : Text) :
    Touch wire call key (slot database key) (slot after key) := by
  cases hWrote with
  | kept _ _ hOperations hReconciled =>
    exact Touch.of_find (by rw [hOperations]) (by rw [hReconciled])
  | inserted _ _ _ _ _ _ hInsert => exact insert_touch hInsert
  | recorded _ _ _ _ hStored hOperation hBefore hRecord =>
    exact record_touch hFaithful hStored hOperation hBefore _ hRecord
  | renewed _ selected deadline => exact renew_touch selected deadline
  | settled _ _ hCall hCompleted => exact settle_touch hCall hCompleted
  | reconciled _ result hCall =>
    apply reconcile_touch
    rintro rfl
    refine Touch.reconciled result hCall rfl rfl rfl rfl ?_
    simp [slot, mem_insertIgnore]
  | discarded _ _ hBody hStored => exact discard_touch hBody hStored
  | recovered _ hLoop => exact recover_touch hFaithful hLoop

/- Every call touches a key in one of these ways. -/
theorem serve_touch
    (hFaithful : wire.Faithful)
    (system : System)
    (input : Input P D U E)
    (key : Text) :
    Touch wire input.call key (slot system.database key)
      (slot (serve wire system input).system.database key) :=
  (serve_wrote wire system input).touch hFaithful key

end VonkForge.Journal
