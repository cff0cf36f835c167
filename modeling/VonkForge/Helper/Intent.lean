import VonkForge.Helper.Fences

/-
  The intent fence of an installation: one nonce, one ordinal and one flag against every future of
  calls.

  A call is accepted only with the nonce in store. Every challenge and every accepted cleanup
  replaces it, and a new nonce never repeats an old one.

  Main declarations:
    * `intentMachine`
    * `Deciding`
    * `accept_deciding`
    * `intent_fence_futures`
-/

----
-- Calls on one Installation
----

namespace VonkForge.Helper

/- A call, with what the storage does and draws during it. -/
structure IntentCall where
  intent : Intent
  storage : IntentStorage

def intentMachine (installationId : Uuid) : Machine (Stored InstallationIntentFence) IntentCall
    (Stored InstallationIntentFence × Outcome) :=
  { answer := fun file call =>
      acceptInstallationIntent installationId call.storage call.intent file
    next := Prod.fst }

abbrev IntentStep :=
  Machine.Step (Stored InstallationIntentFence) IntentCall
    (Stored InstallationIntentFence × Outcome)

def LetThrough (step : IntentStep) : Prop := step.output.2 = .ok ()

/- The call was answered by a challenge. -/
def Challenged (step : IntentStep) : Prop :=
  ∃ nonce, step.output.2 = .error (.installationIntentObservationRequired nonce)

/- The stored ordinal; an installation may have none yet. -/
def highestOrdinal : Stored InstallationIntentFence → Nat
  | .missing => 0
  | .damaged => 0
  | .document record => record.highestOrdinal

def storedNonce : Stored InstallationIntentFence → Option String
  | .missing => none
  | .damaged => none
  | .document record => some record.nonce

/- The file was not lost: no record yet, or a trusted one. -/
def Intact (installationId : Uuid) (file : Stored InstallationIntentFence) : Prop :=
  file = .missing ∨ ∃ record, file = .document record ∧ record.trusted installationId = true

/- The nonces issued so far: the stored one, then the new. -/
def issued (file : Stored InstallationIntentFence) (calls : List IntentCall) : List String :=
  (storedNonce file).toList ++ calls.map fun call => call.storage.fresh.text

----
-- One Call
----

/- The record an accepted call publishes over `old`. -/
def advancedIntent (call : IntentCall) (ordinal : Nat) (old : InstallationIntentFence) :
    InstallationIntentFence :=
  { old with
    highestOrdinal := ordinal
    cancelled := call.intent.cleanup
    nonce :=
      if call.intent.cleanup then call.storage.fresh.text
      else old.nonce }

/- What a call does to an intact file. -/
inductive Deciding (installationId : Uuid)
    (file : Stored InstallationIntentFence) (call : IntentCall)
    (output : Stored InstallationIntentFence × Outcome) : Prop where
  | unchanged (failure : OperationError)
      (hFailure : ∀ nonce, failure ≠ .installationIntentObservationRequired nonce)
      (hOutput : output = (file, .error failure))
  | rotated (record : InstallationIntentFence) (failure : OperationError)
      (hTrusted : record.trusted installationId = true)
      (hNonce : record.nonce = call.storage.fresh.text)
      (hOrdinal : record.highestOrdinal = highestOrdinal file)
      (hFlag : ∀ old, file = .document old → record.cancelled = old.cancelled)
      (hOutput : output = (.document record, .error failure))
  | advanced (old : InstallationIntentFence) (ordinal : Nat) (reply : Outcome)
      (hOld : file = .document old)
      (hTrusted : (advancedIntent call ordinal old).trusted installationId = true)
      (hNonce : call.intent.nonce = some old.nonce) (hOrdinal : call.intent.ordinal = some ordinal)
      (hHighest : old.highestOrdinal ≤ ordinal)
      (hStart : call.intent.cleanup = false → old.cancelled = true → old.highestOrdinal < ordinal)
      (hReply : ∀ nonce, reply ≠ .error (.installationIntentObservationRequired nonce))
      (hOutput : output = (.document (advancedIntent call ordinal old), reply))

variable {installationId : Uuid} {file : Stored InstallationIntentFence} {call : IntentCall}

theorem trusted_iff {record : InstallationIntentFence} : record.trusted installationId ↔
    record.installationId = installationId ∧ record.schemaVersion = 2 ∧
    record.highestOrdinal ≤ i64Max ∧ lowerHex64 record.nonce := by
  simp [InstallationIntentFence.trusted, and_assoc]

variable {old : InstallationIntentFence} {record : InstallationIntentFence}

/- A fresh nonce leaves a trusted record trusted. -/
theorem trusted_fresh (hTrusted : record.trusted installationId) (fresh : Nonce) :
    { record with nonce := fresh.text }.trusted installationId = true := by
  rcases trusted_iff.mp hTrusted with ⟨hOwner, hSchema, hHighest, _⟩
  exact trusted_iff.mpr ⟨hOwner, hSchema, hHighest, fresh.hex⟩

theorem trusted_advanced (call : IntentCall) {ordinal : Nat}
    (hTrusted : old.trusted installationId) (hOrdinal : ordinal ≤ i64Max) :
    (advancedIntent call ordinal old).trusted installationId := by
  rcases trusted_iff.mp hTrusted with ⟨hOwner, hSchema, _, hHex⟩
  refine trusted_iff.mpr ⟨hOwner, hSchema, hOrdinal, ?_⟩
  unfold advancedIntent
  split
  · exact call.storage.fresh.hex
  · exact hHex

/- Publishing a record that carries the fresh nonce. -/
theorem Deciding.of_rotated (hTrusted : record.trusted installationId)
    (hNonce : record.nonce = call.storage.fresh.text)
    (hOrdinal : record.highestOrdinal = highestOrdinal file)
    (hFlag : ∀ old, file = .document old → record.cancelled = old.cancelled) :
    Deciding installationId file call
      (call.storage.publish.leaves record file,
        if !call.storage.publish.succeeds then .error .installationReconciliationStorageUnavailable
        else
          .error (.installationIntentObservationRequired record.nonce)) := by
  cases hPublish : call.storage.publish with
  | stored | unsynced => exact Deciding.rotated record _ hTrusted hNonce hOrdinal hFlag rfl
  | refused => exact Deciding.unchanged .installationReconciliationStorageUnavailable (by simp) rfl

/- Publishing the record of a call that was let through. -/
theorem Deciding.of_advanced {ordinal : Nat} (hFile : file = .document old)
    (hTrusted : old.trusted installationId) (hBound : ordinal ≤ i64Max)
    (hNonce : call.intent.nonce = some old.nonce) (hOrdinal : call.intent.ordinal = some ordinal)
    (hHighest : old.highestOrdinal ≤ ordinal)
    (hStart : call.intent.cleanup = false → old.cancelled → old.highestOrdinal < ordinal) :
    Deciding installationId file call
      (call.storage.publish.leaves (advancedIntent call ordinal old) file,
        if !call.storage.publish.succeeds then .error .installationReconciliationStorageUnavailable
        else .ok ()) := by
  have hNext := trusted_advanced call hTrusted hBound
  cases hPublish : call.storage.publish with
  | stored | unsynced =>
    exact Deciding.advanced old ordinal _ hFile hNext hNonce
      hOrdinal hHighest hStart (by simp [Publish.succeeds])
      rfl
  | refused => exact Deciding.unchanged .installationReconciliationStorageUnavailable (by simp) rfl

theorem read_trusted (hTrusted : record.trusted installationId) :
    readInstallationIntent installationId (.document record) = some record := by
  simp [readInstallationIntent, hTrusted]

/- A call with another nonce is challenged. -/
theorem nextIntent_of_ne (hNonce : call.intent.nonce ≠ some old.nonce)
    (installationId : Uuid) (ordinal : Nat) : nextIntent installationId call.storage call.intent
        ordinal (some old) = some ({ old with nonce := call.storage.fresh.text }, true) := by
  simp [nextIntent, hNonce]

/- A call with the stored nonce is let through or refused. -/
theorem nextIntent_of_eq (hNonce : call.intent.nonce = some old.nonce)
    (installationId : Uuid) (ordinal : Nat) : nextIntent installationId call.storage call.intent
        ordinal (some old) =
      if ordinal < old.highestOrdinal ∨ call.intent.cleanup = false ∧ old.cancelled ∧
        ordinal = old.highestOrdinal
      then none
      else some (advancedIntent call ordinal old, false) := by
  simp [nextIntent, hNonce, advancedIntent, and_assoc]

/- A call on an intact file does one of these things. -/
theorem accept_deciding
    (call : IntentCall)
    (hIntact : Intact installationId file) :
    Deciding installationId file call
      (acceptInstallationIntent installationId call.storage call.intent
         file) := by
  unfold acceptInstallationIntent
  split
  · exact Deciding.unchanged .invalidOperation (by simp) rfl
  · next ordinal hFilter =>
      have hPresented := Option.filter_eq_some_iff.mp hFilter
      split
      · exact Deciding.unchanged .installationReconciliationStorageUnavailable (by simp) rfl
      · rcases hIntact with rfl | ⟨old, rfl, hTrusted⟩
        · refine Deciding.of_rotated ?_ rfl rfl (by simp)
          exact trusted_iff.mpr ⟨rfl, rfl, Nat.zero_le _, call.storage.fresh.hex⟩
        · by_cases hNonce : call.intent.nonce = some old.nonce
          · rw [read_trusted hTrusted, nextIntent_of_eq hNonce]
            by_cases hFenced : ordinal < old.highestOrdinal ∨ call.intent.cleanup = false ∧
              old.cancelled = true ∧ ordinal = old.highestOrdinal
            · rw [if_pos hFenced]
              exact Deciding.unchanged .invalidOperation (by simp) rfl
            · rw [if_neg hFenced]
              refine Deciding.of_advanced rfl hTrusted (of_decide_eq_true hPresented.2) hNonce
                hPresented.1 (by omega) ?_
              intro hStart hCancelled
              have hNe : ordinal ≠ old.highestOrdinal :=
                fun hSame => hFenced (Or.inr ⟨hStart, hCancelled, hSame⟩)
              omega
          · rw [read_trusted hTrusted, nextIntent_of_ne hNonce]
            exact Deciding.of_rotated (trusted_fresh hTrusted call.storage.fresh) rfl rfl (by simp)

variable
  {output : Stored InstallationIntentFence × Outcome}

section

variable (hDeciding : Deciding installationId file call output)

include hDeciding

theorem Deciding.intact
    (hIntact : Intact installationId file) : Intact installationId output.1 := by
  cases hDeciding with
  | unchanged _ _ hOutput =>
    rw [hOutput]
    exact hIntact
  | rotated record _ hTrusted _ _ _ hOutput =>
    rw [hOutput]
    exact Or.inr ⟨record, rfl, hTrusted⟩
  | advanced _ _ _ _ hTrusted _ _ _ _ _ hOutput =>
    rw [hOutput]
    exact Or.inr ⟨_, rfl, hTrusted⟩

/- The stored ordinal never falls. -/
theorem Deciding.highestOrdinal_le :
    highestOrdinal file ≤ highestOrdinal output.1 := by
  cases hDeciding with
  | unchanged _ _ hOutput => rw [hOutput]
  | rotated _ _ _ _ hOrdinal _ hOutput =>
    rw [hOutput]
    exact hOrdinal.ge
  | advanced _ _ _ hOld _ _ _ hHighest _ _ hOutput =>
    rw [hOutput, hOld]
    exact hHighest

/- The stored nonce stays, or is the fresh one. -/
theorem Deciding.storedNonce_cases :
    storedNonce output.1 = storedNonce file ∨ storedNonce output.1 = some call.storage.fresh.text :=
    by
  cases hDeciding with
  | unchanged _ _ hOutput =>
    rw [hOutput]
    exact Or.inl rfl
  | rotated _ _ _ hNonce _ _ hOutput =>
    rw [hOutput]
    exact Or.inr (congrArg some hNonce)
  | advanced _ _ _ hOld _ _ _ _ _ _ hOutput =>
    rw [hOutput, hOld]
    cases hCleanup : call.intent.cleanup with
    | false =>
      left
      simp [storedNonce, advancedIntent, hCleanup]
    | true =>
      right
      simp [storedNonce, advancedIntent, hCleanup]

/- An accepted call carried the stored nonce. -/
theorem Deciding.accepted_nonce
    (hAccepted : output.2 = .ok ()) :
    ∃ nonce, storedNonce file = some nonce ∧ call.intent.nonce = some nonce := by
  cases hDeciding with
  | unchanged _ _ hOutput | rotated _ _ _ _ _ _ hOutput =>
    rw [hOutput] at hAccepted
    cases hAccepted
  | advanced old _ _ hOld _ hNonce => exact ⟨old.nonce, by rw [hOld]; rfl, hNonce⟩

/- A challenge and an accepted cleanup renew the nonce. -/
theorem Deciding.renewed
    (hRenews : output.2 = .ok () ∧ call.intent.cleanup ∨
      ∃ nonce, output.2 = .error (.installationIntentObservationRequired nonce)) :
    storedNonce output.1 = some call.storage.fresh.text := by
  cases hDeciding with
  | unchanged _ hFailure hOutput =>
    rw [hOutput] at hRenews
    rcases hRenews with ⟨hAccepted, _⟩ | ⟨nonce, hError⟩
    · cases hAccepted
    · exact absurd (Except.error.inj hError) (hFailure nonce)
  | rotated _ _ _ hNonce _ _ hOutput =>
    rw [hOutput]
    exact congrArg some hNonce
  | advanced _ _ _ _ _ _ _ _ _ hReply hOutput =>
    rw [hOutput] at hRenews ⊢
    rcases hRenews with ⟨_, hCleanup⟩ | ⟨nonce, hError⟩
    · simp [storedNonce, advancedIntent, hCleanup]
    · exact absurd hError (hReply nonce)

end

----
-- After a Cleanup
----

/-
  Every START up to ordinal `k` is fenced off: the record stands above `k`, or at `k` and cancelled.
-/
def Retired (k : Nat) (file : Stored InstallationIntentFence) : Prop :=
  ∃ record, file = .document record ∧
    k ≤ record.highestOrdinal ∧ (record.highestOrdinal = k → record.cancelled = true)

section

variable (hDeciding : Deciding installationId file call output)

include hDeciding

theorem Deciding.retires {k : Nat}
    (hAccepted : output.2 = .ok ()) (hCleanup : call.intent.cleanup)
    (hPresented : call.intent.ordinal = some k) : Retired k output.1 := by
  cases hDeciding with
  | unchanged _ _ hOutput | rotated _ _ _ _ _ _ hOutput =>
    rw [hOutput] at hAccepted
    cases hAccepted
  | advanced _ _ _ _ _ _ hOrdinal _ _ _ hOutput =>
    rw [hPresented] at hOrdinal
    obtain rfl := Option.some.inj hOrdinal
    rw [hOutput]
    exact ⟨_, rfl, Nat.le_refl _, fun _ => hCleanup⟩

theorem Deciding.retired {k : Nat}
    (hRetired : Retired k file) : Retired k output.1 := by
  rcases hRetired with ⟨old, hFile, hLe, hCancelled⟩
  cases hDeciding with
  | unchanged _ _ hOutput =>
    rw [hOutput]
    exact ⟨old, hFile, hLe, hCancelled⟩
  | rotated record _ _ _ hOrdinal hFlag hOutput =>
    have hSame : record.highestOrdinal = old.highestOrdinal := by
      rw [hOrdinal, hFile]
      rfl
    rw [hOutput]
    refine ⟨record, rfl, by omega, ?_⟩
    intro _
    rw [hFlag old hFile]
    exact hCancelled (by omega)
  | advanced _ ordinal _ hOld _ _ _ hHighest hStart _ hOutput =>
    rw [hFile] at hOld
    obtain rfl := Stored.document.inj hOld
    rw [hOutput]
    refine ⟨_, rfl, hLe.trans hHighest, ?_⟩
    -- Only a cleanup can be let through at the mark.
    intro hAt
    have hMark : ordinal = k := hAt
    cases hCleanup : call.intent.cleanup with
    | true => exact hCleanup
    | false =>
      have hBelow := hStart hCleanup (hCancelled (by omega))
      omega

theorem Deciding.start_above {k n : Nat}
    (hRetired : Retired k file) (hAccepted : output.2 = .ok ())
    (hCleanup : call.intent.cleanup = false) (hPresented : call.intent.ordinal = some n) :
    k < n := by
  rcases hRetired with ⟨old, hFile, _, hCancelled⟩
  cases hDeciding with
  | unchanged _ _ hOutput | rotated _ _ _ _ _ _ hOutput =>
    rw [hOutput] at hAccepted
    cases hAccepted
  | advanced _ _ _ hOld _ _ hOrdinal _ hStart =>
    rw [hFile] at hOld
    obtain rfl := Stored.document.inj hOld
    rw [hPresented] at hOrdinal
    obtain rfl := Option.some.inj hOrdinal
    by_cases hAt : old.highestOrdinal = k
    · have hBelow := hStart hCleanup (hCancelled hAt)
      omega
    · omega

end

/-
  A cleanup over storage that works, with the stored nonce and an ordinal from the stored one up to
  the largest.
-/
structure DueCleanup (file : Stored InstallationIntentFence) (call : IntentCall)
    (nonce : String) (ordinal : Nat) : Prop where
  ready : call.storage.ready = true
  published : call.storage.publish = .stored
  cleanup : call.intent.cleanup = true
  stored : storedNonce file = some nonce
  presented : call.intent.nonce = some nonce
  numbered : call.intent.ordinal = some ordinal
  highest : highestOrdinal file ≤ ordinal
  largest : ordinal ≤ i64Max

variable {nonce : String}

/- Such a cleanup is never refused. -/
theorem accept_cleanup {n : Nat} (hIntact : Intact installationId file)
    (hDue : DueCleanup file call nonce n) :
    (acceptInstallationIntent installationId call.storage call.intent file).2 = .ok () := by
  rcases hIntact with rfl | ⟨old, rfl, hTrusted⟩
  · cases hDue.stored
  · have hSame : call.intent.nonce = some old.nonce := by
      rw [hDue.presented, ← hDue.stored]
      rfl
    have hOpen : ¬ (n < old.highestOrdinal ∨ call.intent.cleanup = false ∧ old.cancelled ∧
          n = old.highestOrdinal) := by
      have hLe : old.highestOrdinal ≤ n := hDue.highest
      simp only [hDue.cleanup, reduceCtorEq, false_and, or_false]
      omega
    simp [acceptInstallationIntent, hDue.numbered, Option.filter, hDue.largest, hDue.ready,
      read_trusted hTrusted, nextIntent_of_eq hSame, hOpen, hDue.published, Publish.succeeds]

----
-- Every Future of Calls
----

theorem intact_move (file : Stored InstallationIntentFence) (call : IntentCall)
    (hIntact : Intact installationId file) :
    Intact installationId ((intentMachine installationId).move file call) :=
  (accept_deciding call hIntact).intact hIntact

/- The nonce in store at the end of a run was issued. -/
theorem storedNonce_final (hIntact : Intact installationId file) (calls : List IntentCall)
    (hStored : storedNonce ((intentMachine installationId).final file calls) =
      some nonce) : nonce ∈ issued file calls := by
  induction calls generalizing file with
  | nil =>
    have hSame : storedNonce file = some nonce := hStored
    simp [issued, hSame]
  | cons call _ ih =>
    have hRest := ih (intact_move file call hIntact) hStored
    have hCases := (accept_deciding call hIntact).storedNonce_cases
    have hMove : storedNonce ((intentMachine installationId).move file call) =
      storedNonce (acceptInstallationIntent installationId call.storage call.intent file).1 := rfl
    unfold issued at hRest ⊢
    rw [hMove] at hRest
    rcases hCases with hKept | hFresh
    · rw [hKept] at hRest
      simp only [List.mem_append, List.map_cons, List.mem_cons] at hRest ⊢
      tauto
    · rw [hFresh] at hRest
      simp only [List.mem_append, List.map_cons, List.mem_cons, Option.toList_some,
        List.not_mem_nil, or_false] at hRest ⊢
      tauto

/- What a cleanup fenced off stays fenced off. -/
theorem retired_final {k : Nat} (hIntact : Intact installationId file) (hRetired : Retired k file)
    (calls : List IntentCall) : Retired k ((intentMachine installationId).final file calls) := by
  have hKept := (intentMachine installationId).final_of_absorbing
    (A := fun file => Intact installationId file ∧ Retired k file)
    (fun file call hBoth => ⟨intact_move file call hBoth.1,
      (accept_deciding call hBoth.1).retired hBoth.2⟩) ⟨hIntact, hRetired⟩ calls
  exact hKept.2

/- What is issued from a step on was not issued before it. -/
theorem issued_later
    (j : Nat)
    {calls : List IntentCall}
    {i : Nat}
    (hFresh : (issued file calls).Nodup)
    (hCall : calls[i]? = some call)
    (hLater :
      nonce = call.storage.fresh.text ∨
      nonce ∈
        ((calls.take j).drop (i + 1)).map fun later =>
          later.storage.fresh.text) :
    nonce ∉ issued file (calls.take i) := by
  have hSplit : issued file calls = issued file (calls.take i) ++ (calls.drop i).map fun later =>
      later.storage.fresh.text := by
    unfold issued
    rw [List.append_assoc, ← List.map_append, List.take_append_drop]
  rw [hSplit] at hFresh
  have hRest : nonce ∈ (calls.drop i).map fun later => later.storage.fresh.text := by
    rcases List.getElem?_eq_some_iff.mp hCall with ⟨hBound, hGet⟩
    rw [List.drop_eq_getElem_cons hBound, hGet, List.map_cons, List.mem_cons]
    rcases hLater with hHere | hAfter
    · exact Or.inl hHere
    · right
      rw [List.drop_take] at hAfter
      exact List.map_subset _ (List.take_subset _ _) hAfter
  intro hEarlier
  exact (List.disjoint_of_nodup_append hFresh) hEarlier hRest

/-
  One installation against every sequence of calls. No nonce that was issued before a challenge or
  an accepted cleanup is accepted after it, and no START up to the ordinal of an accepted cleanup.
-/
theorem intent_fence_futures
    {calls : List IntentCall}
    (hIntact : Intact installationId file)
    (hFresh : (issued file calls).Nodup) :
    (∀ step ∈ (intentMachine installationId).trace file calls,
       highestOrdinal step.before ≤ highestOrdinal step.output.1 ∧
       (LetThrough step →
        ∃ nonce,
          storedNonce step.before = some nonce ∧
          step.input.intent.nonce = some nonce) ∧
       ∀ nonce n,
         DueCleanup step.before step.input nonce n → LetThrough step) ∧
    ∀ i j first later,
      i < j →
      ((intentMachine installationId).trace file calls)[i]? =
        some first →
      ((intentMachine installationId).trace file calls)[j]? =
        some later →
      LetThrough later →
      (LetThrough first ∧ first.input.intent.cleanup = true ∨
       Challenged first →
       ∀ nonce ∈ issued file (calls.take i),
         later.input.intent.nonce ≠ some nonce) ∧
      (LetThrough first →
       first.input.intent.cleanup = true →
       later.input.intent.cleanup = false →
       ∀ k n,
         first.input.intent.ordinal = some k →
         later.input.intent.ordinal = some n →
         k < n) := by
  let M := intentMachine installationId
  have hReached : ∀ inputs, Intact installationId (M.final file inputs) :=
    M.final_of_absorbing intact_move hIntact
  constructor
  · intro _ hMem
    rcases List.mem_iff_getElem?.mp hMem with ⟨i, hStep⟩
    rcases M.exists_of_getElem?_trace hStep with ⟨call, _, rfl⟩
    have hBefore := hReached (calls.take i)
    have hDeciding := accept_deciding call hBefore
    exact ⟨hDeciding.highestOrdinal_le, hDeciding.accepted_nonce,
      fun nonce n hDue => accept_cleanup hBefore hDue⟩
  · intro i j _ _ hLt hFirst hLater hAccepted
    have hBetween := M.before_eq_final_between hLt hFirst hLater
    rcases M.exists_of_getElem?_trace hFirst with ⟨firstCall, hFirstCall, rfl⟩
    rcases M.exists_of_getElem?_trace hLater with ⟨laterCall, _, rfl⟩
    have hBefore := hReached (calls.take i)
    have hFirstDeciding := accept_deciding firstCall hBefore
    have hLaterDeciding := accept_deciding laterCall (hReached (calls.take j))
    have hAfter := hFirstDeciding.intact hBefore
    constructor
    · intro hRenews nonce hEarlier hCarried
      rcases hLaterDeciding.accepted_nonce hAccepted with ⟨stored, hStored, hPresented⟩
      have hSame : stored = nonce := Option.some.inj (hPresented.symm.trans hCarried)
      subst hSame
      have hLater : stored ∈ issued _ ((calls.take j).drop (i + 1)) :=
        storedNonce_final hAfter _ ((congrArg storedNonce hBetween).symm.trans hStored)
      unfold issued at hLater
      rw [hFirstDeciding.renewed hRenews] at hLater
      refine issued_later j hFresh hFirstCall ?_ hEarlier
      simpa using hLater
    · intro hDone hCleanup hStart k _ hFirstOrdinal hLaterOrdinal
      have hRetired : Retired k (M.final file (calls.take j)) := by
        have hKept := retired_final hAfter (hFirstDeciding.retires hDone hCleanup hFirstOrdinal)
          ((calls.take j).drop (i + 1))
        exact (congrArg (Retired k) hBetween).mpr hKept
      exact hLaterDeciding.start_above hRetired hAccepted hStart hLaterOrdinal

/- A START is challenged, and a cleanup answers for it. -/
def challengedThenCleaned : List IntentCall :=
  [{ intent := ⟨none, some 1, false⟩
     storage :=
      { reconstructed := repeatedNonce 0, fresh := repeatedNonce 1 } },
    { intent := ⟨some (repeatedNonce 1).text, some 3, true⟩
      storage :=
        { reconstructed := repeatedNonce 0, fresh := repeatedNonce 2 } },
    { intent := ⟨some (repeatedNonce 1).text, some 4, false⟩
      storage :=
        { reconstructed := repeatedNonce 0, fresh := repeatedNonce 3 } }]

/- The START that held the old nonce is not let through. -/
theorem old_nonce_after_cleanup_refused :
    ∃ cleanup start,
      ((intentMachine 7).trace .missing challengedThenCleaned)[1]? =
        some cleanup ∧
      ((intentMachine 7).trace .missing challengedThenCleaned)[2]? =
        some start ∧
      LetThrough cleanup ∧
      ¬ LetThrough start := by
  have hIntact : Intact 7 .missing := Or.inl rfl
  have hFresh : (issued .missing challengedThenCleaned).Nodup := by decide +kernel
  have hFutures := (intent_fence_futures hIntact hFresh).2 1 2 _ _ (by omega) rfl rfl
  refine ⟨_, _, rfl, rfl, ?_, ?_⟩
  · unfold LetThrough
    decide +kernel
  · intro hLetThrough
    refine (hFutures hLetThrough).1 (Or.inl ⟨?_, rfl⟩) (repeatedNonce 1).text ?_ rfl
    · unfold LetThrough
      decide +kernel
    · decide +kernel

end VonkForge.Helper
