import VonkForge.Helper.Intent

/-
  The two fences together: what the helper does for a START, a STOP and a cleanup of one
  installation and one of its runtimes (`start.rs`, `stop.rs`, `authority.rs`), and what it does
  after the runtime's generation fence was lost.

  A START over a lost fence is challenged, and so is a STOP over a damaged one. A STOP over a
  missing fence writes a new fence under the nonce that stands.

  Main declarations:
    * `runtimeStartAuthorized`
    * `start_needs_fence`
    * `lost_fence_revives_no_grant`
    * `stop_over_missing_fence_revives_grant`
-/

----
-- START, STOP and Cleanup
----

namespace VonkForge.Helper

/- A START, with what the storage does in each phase. -/
structure StartRequest where
  generation : Nat
  nonce : Option String
  ordinal : Option Nat
  clockRefused : Bool := false
  prepare : FenceStorage
  accept : IntentStorage
  update : FenceStorage

inductive Request where
  | start (request : StartRequest)
  | stop (generation : Nat) (cancelPendingStart : Bool) (storage : FenceStorage)
  | cleanup (call : IntentCall)
  -- Not a request: the generation fence goes away.
  | lose (damaged : Bool)

variable (runtimeId installationId : Uuid)

/- The authority of a START, up to the launch itself. -/
def runtimeStartAuthorized (request : StartRequest) (fences : Fences) : Fences × Outcome :=
  let identity : RuntimeEffectIdentity := ⟨runtimeId, installationId, request.generation⟩
  match prepareRuntimeGenerationFence request.prepare identity fences with
  | (prepared, .error failure) => (prepared, .error failure)
  | (prepared, .ok _) =>
    match acceptInstallationIntent installationId
        request.accept
        ⟨request.nonce, request.ordinal, false⟩
        prepared.intent with
    | (intent, .error failure) => ({ prepared with intent := intent }, .error failure)
    | (intent, .ok _) =>
      if request.clockRefused then ({ prepared with intent := intent }, .error .invalidOperation)
      else
        updateRuntimeGenerationFence request.update
          identity .start
          { prepared with intent := intent }

/- A cleanup is only ever a cleanup. -/
def installationCleanup (installationId : Uuid) (call : IntentCall) (fences : Fences) :
    Fences × Outcome :=
  let answer := acceptInstallationIntent installationId call.storage
      { call.intent with cleanup := true } fences.intent
  ({ fences with intent := answer.1 }, answer.2)

variable (fences : Fences)

def authorize : Request → Fences × Outcome
  | .start request => runtimeStartAuthorized runtimeId installationId request fences
  | .stop generation cancelPendingStart storage =>
    updateRuntimeGenerationFence storage ⟨runtimeId, installationId, generation⟩
      (.stop cancelPendingStart) fences
  | .cleanup call => installationCleanup installationId call fences
  | .lose damaged =>
    ({ fences with runtime := if damaged then .damaged else .missing },
      .ok ())

def authorityMachine : Machine Fences Request (Fences × Outcome) :=
  { answer := authorize runtimeId installationId, next := Prod.fst }

abbrev AuthorityStep := Machine.Step Fences Request (Fences × Outcome)

/- The nonces a request may draw. -/
def Request.draws : Request → List String
  | .start request =>
    [request.prepare.challenge.fresh.text, request.accept.fresh.text,
      request.update.challenge.fresh.text]
  | .stop _ _ storage => [storage.challenge.fresh.text]
  | .cleanup call => [call.storage.fresh.text]
  | .lose _ => []

/- The nonces issued by the end of a run. -/
def issuedBy (requests : List Request) : List String :=
  (storedNonce fences.intent).toList ++ requests.flatMap Request.draws

/- No fence of this runtime can be read from the file. -/
def Lost : Prop :=
  ∀ generation fence, readRuntimeGenerationFence true ⟨runtimeId, installationId, generation⟩
    fences.runtime ≠ .ok (some fence)

----
-- One Request
----

variable {runtimeId installationId : Uuid} {fences after last : Fences} {drawn : List String}

/- The stored nonce is one of those drawn. -/
def Renewed (drawn : List String) (fences : Fences) : Prop :=
  ∃ nonce ∈ drawn, storedNonce fences.intent = some nonce

/- The intent file stays intact, its nonce or a new one. -/
structure Drawn (installationId : Uuid) (drawn : List String) (fences after : Fences) : Prop where
  intact : Intact installationId after.intent
  nonce : storedNonce after.intent = storedNonce fences.intent ∨ Renewed drawn after

/- A lost fence comes back only under a new nonce. -/
structure Guarding (runtimeId installationId : Uuid) (drawn : List String)
    (fences after : Fences) : Prop extends
    Drawn installationId drawn fences after where
  lost :
    Lost runtimeId installationId fences → Lost runtimeId installationId after ∨ Renewed drawn after

theorem Drawn.renewed (hDrawn : Drawn installationId drawn fences after)
    (hRenewed : Renewed drawn fences) : Renewed drawn after := by
  rcases hDrawn.nonce with hKept | hNew
  · rcases hRenewed with ⟨nonce, hMem, hStored⟩
    exact ⟨nonce, hMem, hKept.trans hStored⟩
  · exact hNew

theorem Drawn.trans (hFirst : Drawn installationId drawn fences after)
    (hSecond : Drawn installationId drawn after last) : Drawn installationId drawn fences last := by
  refine ⟨hSecond.intact, ?_⟩
  rcases hFirst.nonce with hKept | hNew
  · rw [← hKept]
    exact hSecond.nonce
  · exact Or.inr (hSecond.renewed hNew)

theorem Guarding.trans (hFirst : Guarding runtimeId installationId drawn fences after)
    (hSecond : Guarding runtimeId installationId drawn after last) :
    Guarding runtimeId installationId drawn fences last := by
  refine ⟨hFirst.toDrawn.trans hSecond.toDrawn, ?_⟩
  intro hLost
  rcases hFirst.lost hLost with hStill | hNew
  · exact hSecond.lost hStill
  · exact Or.inr (hSecond.toDrawn.renewed hNew)

theorem Guarding.refl (hIntact : Intact installationId fences.intent) :
    Guarding runtimeId installationId drawn fences fences := ⟨⟨hIntact, Or.inl rfl⟩, Or.inl⟩

/- Under a new nonce anything may happen to the fence. -/
theorem Guarding.under {rotated : Fences} (hRotated : Intact installationId rotated.intent ∧
      Renewed drawn rotated) (hIntent : after.intent = rotated.intent) :
    Guarding runtimeId installationId drawn fences after := by
  have hRenewed : Renewed drawn after := by
    unfold Renewed
    rw [hIntent]
    exact hRotated.2
  refine ⟨⟨?_, Or.inr hRenewed⟩, fun _ => Or.inr hRenewed⟩
  rw [hIntent]
  exact hRotated.1

/- A fence that can be read may be replaced. -/
theorem Guarding.of_readable {generation : Nat} {fence : RuntimeGenerationFence}
    (hIntact : Intact installationId fences.intent)
    (hRead : readRuntimeGenerationFence true ⟨runtimeId, installationId, generation⟩
      fences.runtime = .ok (some fence)) (hIntent : after.intent = fences.intent) :
    Guarding runtimeId installationId drawn fences after := by
  refine ⟨⟨?_, ?_⟩, ?_⟩
  · rw [hIntent]
    exact hIntact
  · exact Or.inl (congrArg storedNonce hIntent)
  · intro hLost
    exact absurd hRead (hLost generation fence)

/- A call on the intent file leaves the other one alone. -/
theorem guarding_accept (call : IntentCall) (hIntact : Intact installationId fences.intent)
    (hMem : call.storage.fresh.text ∈ drawn) : Guarding runtimeId installationId drawn fences
      { fences with
        intent :=
          (acceptInstallationIntent installationId call.storage call.intent fences.intent).1 } := by
  have hDeciding := accept_deciding call hIntact
  refine ⟨⟨hDeciding.intact hIntact, ?_⟩, Or.inl⟩
  rcases hDeciding.storedNonce_cases with hKept | hFresh
  · exact Or.inl hKept
  · exact Or.inr ⟨_, hMem, hFresh⟩

----
-- The Challenge
----

variable {storage : IntentStorage} {identity : RuntimeEffectIdentity}

theorem retire_intent (retired : Publish) (fences : Fences) :
    (retireDamagedRuntimeFence retired fences).1.intent = fences.intent := by
  unfold retireDamagedRuntimeFence
  split <;> rfl

theorem write_intent (write : Publish) (fence : RuntimeGenerationFence) (fences : Fences) :
    (writeRuntimeGenerationFence write fence fences).1.intent = fences.intent := by
  unfold writeRuntimeGenerationFence
  split <;> rfl

theorem advance_intent (write : Publish) (identity : RuntimeEffectIdentity)
    (use : RuntimeGenerationFenceUse) (current : Option RuntimeGenerationFence) (fences : Fences) :
    (advanceRuntimeGenerationFence write identity use current fences).1.intent = fences.intent := by
  unfold advanceRuntimeGenerationFence
  cases current with
  | none => exact write_intent write _ fences
  | some =>
    simp only
    split
    · cases use with
      | start | stop => rfl
    · split
      · split
        · rfl
        · split
          · exact write_intent write _ fences
          · rfl
      · exact write_intent write _ fences

section

variable (hIntact : Intact identity.installationId fences.intent)

include hIntact

/- A challenge that was published renewed the nonce. -/
theorem renewed_of_invalidate {challenge : OperationError}
    (hInvalidate : invalidateRuntimeStartAuthority storage identity fences = (after, .ok challenge))
    (hMem : storage.fresh.text ∈ drawn) : Intact identity.installationId after.intent ∧
    Renewed drawn after := by
  have hDeciding := accept_deciding ⟨⟨none, some 0, false⟩, storage⟩ hIntact
  unfold invalidateRuntimeStartAuthority at hInvalidate
  split at hInvalidate
  · next intent nonce hAnswer =>
      obtain ⟨rfl, _⟩ := Prod.mk.inj hInvalidate
      simp only [hAnswer] at hDeciding
      exact ⟨hDeciding.intact hIntact, _, hMem, hDeciding.renewed (Or.inr ⟨nonce, rfl⟩)⟩
  · cases (Prod.mk.inj hInvalidate).2

theorem guarding_of_invalidate {failure : OperationError}
    (hInvalidate : invalidateRuntimeStartAuthority storage identity fences =
      (after, .error failure)) (hMem : storage.fresh.text ∈ drawn) :
    Guarding runtimeId identity.installationId drawn fences after := by
  have hGuarding : Guarding runtimeId identity.installationId drawn fences _ :=
    guarding_accept ⟨⟨none, some 0, false⟩, storage⟩ hIntact hMem
  unfold invalidateRuntimeStartAuthority at hInvalidate
  split at hInvalidate
  · cases (Prod.mk.inj hInvalidate).2
  · next intent answer _ hAnswer =>
      obtain ⟨rfl, _⟩ := Prod.mk.inj hInvalidate
      simpa only [hAnswer] using hGuarding

end

/-
  The challenge comes before anything is done to the fence, so whatever follows it is done under the
  new nonce.
-/
theorem guarding_prepare (storage : FenceStorage) (generation : Nat)
    (hIntact : Intact installationId fences.intent) (hMem : storage.challenge.fresh.text ∈ drawn) :
    Guarding runtimeId installationId drawn fences
    (prepareRuntimeGenerationFence storage ⟨runtimeId, installationId, generation⟩ fences).1 := by
  unfold prepareRuntimeGenerationFence
  split
  · exact Guarding.refl hIntact
  · split
    · exact Guarding.refl hIntact
    · split
      · next rotated failure hInvalidate => exact guarding_of_invalidate hIntact hInvalidate hMem
      · next rotated challenge hInvalidate =>
          have hRotated := renewed_of_invalidate hIntact hInvalidate hMem
          have hRetire := retire_intent storage.retired rotated
          split
          · next retired failure hRetired =>
              rw [hRetired] at hRetire
              exact Guarding.under hRotated hRetire
          · next retired done hRetired =>
              rw [hRetired] at hRetire
              have hWrite := write_intent storage.write
                (firstFence ⟨runtimeId, installationId, generation⟩ false) retired
              split
              · next written failure hWritten =>
                  rw [hWritten] at hWrite
                  exact Guarding.under hRotated (hWrite.trans hRetire)
              · next written done hWritten =>
                  rw [hWritten] at hWrite
                  exact Guarding.under hRotated (hWrite.trans hRetire)

variable {file : Stored RuntimeGenerationFence}

theorem read_of_readable {readable : Bool}
    {current : Option RuntimeGenerationFence}
    (hRead : readRuntimeGenerationFence readable identity file = .ok current) :
    readRuntimeGenerationFence true identity file = .ok current := by
  cases readable with
  | false => simp [readRuntimeGenerationFence] at hRead
  | true => exact hRead

theorem missing_of_read {readable : Bool}
    (hRead : readRuntimeGenerationFence readable identity file = .ok none) : file = .missing := by
  have hTrue := read_of_readable hRead
  cases file with
  | missing => rfl
  | damaged => simp [readRuntimeGenerationFence] at hTrue
  | document =>
    simp only [readRuntimeGenerationFence] at hTrue
    split at hTrue
    · cases hTrue
    · split at hTrue
      · cases hTrue
      · cases hTrue

/- A START passes the preparation with a fence, or never. -/
theorem prepare_needs_fence {storage : FenceStorage} {generation : Nat}
    (hPrepared : prepareRuntimeGenerationFence storage ⟨runtimeId, installationId, generation⟩
      fences = (after, .ok ())) : after = fences ∧
    ∃ fence, readRuntimeGenerationFence true ⟨runtimeId, installationId, generation⟩
    fences.runtime = .ok (some fence) := by
  unfold prepareRuntimeGenerationFence at hPrepared
  split at hPrepared
  · cases hPrepared
  · split at hPrepared
    · next fence hRead => exact ⟨(Prod.mk.inj hPrepared).1.symm, fence, read_of_readable hRead⟩
    · split at hPrepared
      · cases hPrepared
      · split at hPrepared
        · cases hPrepared
        · split at hPrepared
          · cases hPrepared
          · cases hPrepared

section

variable (storage : FenceStorage) (generation : Nat) (use : RuntimeGenerationFenceUse)

/-
  A use of the generation fence guards it, unless the fence is simply missing: then one is written,
  and the intent fence stays as it is.
-/
theorem update_guarding (hIntact : Intact installationId fences.intent)
    (hMem : storage.challenge.fresh.text ∈ drawn)
    (hUpdate : (updateRuntimeGenerationFence storage ⟨runtimeId, installationId, generation⟩ use
      fences).1 = after) : Guarding runtimeId installationId drawn fences after ∨
    fences.runtime = .missing ∧ after.intent = fences.intent := by
  subst hUpdate
  unfold updateRuntimeGenerationFence
  split
  · exact Or.inl (Guarding.refl hIntact)
  · split
    · next current hRead =>
        have hIntent :=
          advance_intent storage.write ⟨runtimeId, installationId, generation⟩ use current fences
        cases current with
        | none => exact Or.inr ⟨missing_of_read hRead, hIntent⟩
        | some => exact Or.inl (Guarding.of_readable hIntact (read_of_readable hRead) hIntent)
    · left
      split
      · next rotated failure hInvalidate => exact guarding_of_invalidate hIntact hInvalidate hMem
      · next rotated challenge hInvalidate =>
          have hRotated := renewed_of_invalidate hIntact hInvalidate hMem
          have hRetire := retire_intent storage.retired rotated
          split
          · next retired failure hRetired =>
              rw [hRetired] at hRetire
              exact Guarding.under hRotated hRetire
          · next retired done hRetired =>
              rw [hRetired] at hRetire
              cases use with
              | start => exact Guarding.under hRotated hRetire
              | stop cancelPendingStart =>
                have hAdvance := advance_intent storage.write
                  ⟨runtimeId, installationId, generation⟩ (.stop cancelPendingStart) none retired
                exact Guarding.under hRotated (hAdvance.trans hRetire)

theorem update_drawn
    (hIntact : Intact installationId fences.intent) (hMem : storage.challenge.fresh.text ∈ drawn) :
    Drawn installationId drawn fences
    (updateRuntimeGenerationFence storage ⟨runtimeId, installationId, generation⟩ use fences).1 :=
    by
  rcases update_guarding storage generation use hIntact hMem
      rfl with hGuarding | ⟨_, hIntent⟩
  · exact hGuarding.toDrawn
  · refine ⟨?_, Or.inl (congrArg storedNonce hIntent)⟩
    rw [hIntent]
    exact hIntact

end

theorem start_guarding (request : StartRequest) (hIntact : Intact installationId fences.intent) :
    Guarding runtimeId installationId (Request.start request).draws fences
    (runtimeStartAuthorized runtimeId installationId request fences).1 := by
  have hPrepare : Guarding runtimeId installationId (Request.start request).draws fences _ :=
    guarding_prepare request.prepare request.generation hIntact (by simp [Request.draws])
  simp only [runtimeStartAuthorized]
  split
  · next prepared failure hPrepared =>
      rw [hPrepared] at hPrepare
      exact hPrepare
  · next prepared done hPrepared =>
      rcases prepare_needs_fence hPrepared with ⟨rfl, fence, hRead⟩
      have hAccept : Guarding runtimeId installationId (Request.start request).draws prepared _ :=
        guarding_accept ⟨⟨request.nonce, request.ordinal, false⟩, request.accept⟩ hIntact
        (by simp [Request.draws])
      split
      · next intent failure hAnswer => simpa only [hAnswer] using hAccept
      · next intent accepted hAnswer =>
          simp only [hAnswer] at hAccept
          split
          · exact hAccept
          · refine hAccept.trans ?_
            have hMem : request.update.challenge.fresh.text ∈ (Request.start request).draws := by
              simp [Request.draws]
            rcases update_guarding request.update
                request.generation .start hAccept.intact
                hMem rfl with
              hGuarding | ⟨hMissing, _⟩
            · exact hGuarding
            · have hFile : prepared.runtime = .missing := hMissing
              simp [hFile, readRuntimeGenerationFence] at hRead

/- A START passes only over a fence that can be read, with the nonce that is stored. -/
theorem start_needs_fence
    {request : StartRequest}
    (hIntact : Intact installationId fences.intent)
    (hStarted :
      (runtimeStartAuthorized
         runtimeId installationId request fences).2 =
        .ok ()) :
    ¬ Lost runtimeId installationId fences ∧
    ∃ nonce,
      storedNonce fences.intent = some nonce ∧
      request.nonce = some nonce := by
  simp only [runtimeStartAuthorized] at hStarted
  split at hStarted
  · cases hStarted
  · next prepared done hPrepared =>
      rcases prepare_needs_fence hPrepared with ⟨rfl, fence, hRead⟩
      have hDeciding :=
        accept_deciding ⟨⟨request.nonce, request.ordinal, false⟩, request.accept⟩ hIntact
      split at hStarted
      · cases hStarted
      · next intent accepted hAnswer =>
          simp only [hAnswer] at hDeciding
          refine ⟨?_, hDeciding.accepted_nonce rfl⟩
          intro hLost
          exact hLost _ fence hRead

----
-- After a Loss
----

theorem authorize_drawn (request : Request) (hIntact : Intact installationId fences.intent) :
    Drawn installationId request.draws fences
    (authorize runtimeId installationId fences request).1 := by
  cases request with
  | start request => exact (start_guarding request hIntact).toDrawn
  | stop generation _ storage =>
    exact update_drawn storage generation _ hIntact (by simp [Request.draws])
  | cleanup call =>
    have hGuarding : Guarding runtimeId installationId (Request.cleanup call).draws fences _ :=
      guarding_accept
        ⟨{ call.intent with cleanup := true }, call.storage⟩
        hIntact (by simp [Request.draws])
    exact hGuarding.toDrawn
  | lose => exact ⟨hIntact, Or.inl rfl⟩

theorem lost_lose (damaged : Bool) (fences : Fences) :
    Lost runtimeId installationId (authorize runtimeId installationId fences (.lose damaged)).1 :=
    by
  intro _ _
  cases damaged with
  | true | false => simp [authorize, readRuntimeGenerationFence]

/- The request is a STOP. -/
def Request.stops : Request → Bool
  | .start _ => false
  | .stop _ _ _ => true
  | .cleanup _ => false
  | .lose _ => false

/- A STOP over a missing fence is the one exception. -/
theorem authorize_guarding (request : Request) (hIntact : Intact installationId fences.intent)
    (hStop : request.stops → fences.runtime ≠ .missing) :
    Guarding runtimeId installationId request.draws fences
    (authorize runtimeId installationId fences request).1 := by
  cases request with
  | start request => exact start_guarding request hIntact
  | stop generation cancelPendingStart storage =>
    have hMem : storage.challenge.fresh.text ∈
      (Request.stop generation cancelPendingStart storage).draws := by simp [Request.draws]
    rcases update_guarding storage generation
        (.stop cancelPendingStart) hIntact hMem rfl with
      hGuarding | ⟨hMissing, _⟩
    · exact hGuarding
    · exact absurd hMissing (hStop rfl)
  | cleanup call =>
    exact guarding_accept
      ⟨{ call.intent with cleanup := true }, call.storage⟩
      hIntact (by simp [Request.draws])
  | lose damaged => exact ⟨⟨hIntact, Or.inl rfl⟩, fun _ => Or.inl (lost_lose damaged fences)⟩

/- None of the old nonces is the stored one. -/
def Retracted (old : List String) (fences : Fences) : Prop :=
  ∀ nonce ∈ old, storedNonce fences.intent ≠ some nonce

/-
  The old nonces are worth nothing: there is no fence to start under, or another nonce is stored.
-/
structure Revoked (runtimeId installationId : Uuid) (old : List String)
    (fences : Fences) : Prop where
  intact : Intact installationId fences.intent
  revoked : Lost runtimeId installationId fences ∨ Retracted old fences

variable {old : List String}

theorem Retracted.of_renewed (hFresh : ∀ nonce ∈ drawn, nonce ∉ old)
    (hRenewed : Renewed drawn fences) : Retracted old fences := by
  rcases hRenewed with ⟨nonce, hMem, hStored⟩
  intro _ hOther hSame
  rw [hStored] at hSame
  obtain rfl := Option.some.inj hSame
  exact hFresh nonce hMem hOther

theorem Retracted.kept (hFresh : ∀ nonce ∈ drawn, nonce ∉ old)
    (hDrawn : Drawn installationId drawn fences after) (hRetracted : Retracted old fences) :
    Retracted old after := by
  rcases hDrawn.nonce with hKept | hRenewed
  · intro nonce hMem
    rw [hKept]
    exact hRetracted nonce hMem
  · exact Retracted.of_renewed hFresh hRenewed

/- One request after the loss. -/
theorem Revoked.authorize {request : Request}
    (hRevoked : Revoked runtimeId installationId old fences)
    (hFresh : ∀ nonce ∈ request.draws, nonce ∉ old)
    (hStop : request.stops → fences.runtime = .missing → Retracted old fences) :
    Revoked runtimeId installationId old (authorize runtimeId installationId fences request).1 := by
  have hDrawn : Drawn installationId request.draws fences
    (Helper.authorize runtimeId installationId fences request).1 :=
    authorize_drawn request hRevoked.intact
  refine ⟨hDrawn.intact, ?_⟩
  by_cases hRetracted : Retracted old fences
  · exact Or.inr (hRetracted.kept hFresh hDrawn)
  · rcases hRevoked.revoked with hLost | hOther
    · have hGuarding : Guarding runtimeId installationId request.draws
            fences _ :=
        authorize_guarding request hRevoked.intact
          (fun hStops hMissing => hRetracted (hStop hStops hMissing))
      rcases hGuarding.lost hLost with hStill | hRenewed
      · exact Or.inl hStill
      · exact Or.inr (Retracted.of_renewed hFresh hRenewed)
    · exact absurd hOther hRetracted

/- What a later request draws was not issued before. -/
theorem draws_fresh {requests : List Request} {i k : Nat} {request : Request}
    (hFresh : (issuedBy fences requests).Nodup) (hLe : i ≤ k)
    (hRequest : requests[k]? = some request) :
    ∀ nonce ∈ request.draws, nonce ∉ issuedBy fences (requests.take i) := by
  have hSplit : issuedBy fences requests = issuedBy fences (requests.take i) ++
      (requests.drop i).flatMap Request.draws := by
    unfold issuedBy
    rw [List.append_assoc, ← List.flatMap_append, List.take_append_drop]
  rw [hSplit] at hFresh
  intro _ hMem hIssued
  have hLater : request ∈ requests.drop i := by
    refine List.mem_of_getElem? (i := k - i) ?_
    rw [List.getElem?_drop, Nat.add_sub_cancel' hLe]
    exact hRequest
  exact List.disjoint_of_nodup_append hFresh hIssued (List.mem_flatMap.mpr ⟨request, hLater, hMem⟩)

/-
  After the generation fence is lost no START is authorized with a nonce issued before the loss, as
  long as no STOP finds the fence missing while such a nonce is stored.
-/
theorem lost_fence_revives_no_grant
    {requests : List Request}
    {i j : Nat}
    {loss start : AuthorityStep}
    {damaged : Bool}
    {request : StartRequest}
    (hIntact : Intact installationId fences.intent)
    (hFresh : (issuedBy fences requests).Nodup)
    (hLoss :
      ((authorityMachine runtimeId installationId).trace
         fences requests)[i]? =
        some loss)
    (hLost : loss.input = .lose damaged)
    (hStops :
      ∀ k step,
        i < k →
        k < j →
        ((authorityMachine runtimeId installationId).trace fences
           requests)[k]? =
          some step →
        step.input.stops = true →
        step.before.runtime = .missing →
        Retracted (issuedBy fences (requests.take i)) step.before)
    (hLater : i < j)
    (hStart :
      ((authorityMachine runtimeId installationId).trace
         fences requests)[j]? =
        some start)
    (hInput : start.input = .start request)
    (hAuthorized : start.output.2 = .ok ()) :
    ∀ nonce ∈ issuedBy fences (requests.take i),
      request.nonce ≠ some nonce := by
  let M := authorityMachine runtimeId installationId
  let old := issuedBy fences (requests.take i)
  have hReached : ∀ inputs, Intact installationId (M.final fences inputs).intent :=
    M.final_of_absorbing (A := fun fences => Intact installationId fences.intent)
    (fun _ request hBefore => (authorize_drawn request hBefore).intact) hIntact
  have hRevoked : Revoked runtimeId installationId old start.before := by
    refine M.invariant_since hLoss ?_ ?_ hLater hStart
    · rcases M.exists_of_getElem?_trace hLoss with
        ⟨lost, _, rfl⟩
      obtain rfl : lost = .lose damaged := hLost
      have hBefore := hReached (requests.take i)
      exact ⟨(authorize_drawn _ hBefore).intact, Or.inl (lost_lose damaged _)⟩
    · intro k _ hFrom hTo hStep hBefore
      rcases M.exists_of_getElem?_trace hStep with ⟨_, hRequest, rfl⟩
      refine hBefore.authorize ?_ ?_
      · exact draws_fresh hFresh (Nat.le_of_lt hFrom) hRequest
      · exact hStops k _ hFrom hTo hStep
  rcases M.exists_of_getElem?_trace hStart with ⟨last, _, rfl⟩
  obtain rfl : last = .start request := hInput
  rcases start_needs_fence hRevoked.intact hAuthorized with ⟨hFence, _, hStored, hCarried⟩
  intro other hMem hSame
  rcases hRevoked.revoked with hGone | hRetracted
  · exact hFence hGone
  · rw [hCarried] at hSame
    exact hRetracted other hMem (hStored.trans hSame)

/- Storage that works, with the nonces it would draw. -/
def drawing (fresh : Nat) : IntentStorage :=
  { reconstructed := repeatedNonce 0, fresh := repeatedNonce fresh }

/- A START of generation 2 under the first ordinal. -/
def startWith (nonce : Option String) (prepare accept update : Nat) : Request := .start
    { generation := 2
      nonce := nonce
      ordinal := some 1
      prepare := { challenge := drawing prepare }
      accept := drawing accept
      update := { challenge := drawing update } }

def stopWith (generation : Nat) (cancelPendingStart : Bool) (fresh : Nat) : Request :=
  .stop generation cancelPendingStart
    { challenge := drawing fresh }

/- A damaged fence, a STOP, and a START it was told about. -/
def damagedRun : List Request := [startWith none 1 2 3, .lose true, stopWith 1 false 4,
    startWith (some (repeatedNonce 4).text) 5 6 7]

/- A nonce of before the damage is not the one that is issued after it. -/
theorem damaged_fence_needs_new_nonce :
    (issuedBy {} damagedRun).Nodup ∧
    ∀ nonce ∈ issuedBy {} (damagedRun.take 1),
      some (repeatedNonce 4).text ≠ some nonce := by
  have hFresh : (issuedBy {} damagedRun).Nodup := by decide +kernel
  have hStops : ∀ k step, 1 < k → k < 3 →
      ((authorityMachine 1 2).trace {} damagedRun)[k]? = some step → step.input.stops = true →
      step.before.runtime = .missing → Retracted (issuedBy {} (damagedRun.take 1)) step.before := by
    intro k _ _ _ hStep _ hMissing
    obtain rfl : k = 2 := by omega
    obtain rfl := Option.some.inj hStep
    exact absurd hMissing (by decide +kernel)
  exact ⟨hFresh, lost_fence_revives_no_grant (Or.inl rfl) hFresh rfl rfl hStops (by omega) rfl rfl
      (by decide +kernel)⟩

/-
  A grant of generation 2 that was cancelled. The fence goes missing, and an older STOP writes one
  for generation 1.
-/
def missingRun : List Request :=
  [startWith none 1 2 3, stopWith 2 true 4, .lose false, stopWith 1 false 5,
    startWith (some (repeatedNonce 1).text) 6 7 8]

/- The cancelled grant is authorized after all. -/
theorem stop_over_missing_fence_revives_grant :
    (issuedBy {} missingRun).Nodup ∧
    missingRun[2]? = some (.lose false) ∧
    ∃ start request,
      ((authorityMachine 1 2).trace {} missingRun)[4]? = some start ∧
      start.input = .start request ∧
      start.output.2 = .ok () ∧
      ∃ nonce ∈ issuedBy {} (missingRun.take 2),
        request.nonce = some nonce := by
  refine ⟨by decide +kernel, rfl, _, _, rfl, rfl, by decide +kernel, (repeatedNonce 1).text,
      by decide +kernel, rfl⟩

end VonkForge.Helper
