import VonkForge.Cache.Pinned
import VonkForge.Cache.RangeEnds

/-
  What a digest mismatch leaves of a file, in one transfer.

  The bytes that failed are in the partial, which is removed. Copies of them may be in the range
  segments, which are not: they are gone only if no range was answered short three times and no
  earlier call left them.

  Main declarations:
    * `Attempt`
    * `downloadArtifact_raises`
    * `transferPart_raises`
    * `prepareSplit_drops`
-/

----
-- Inputs and Files
----

namespace VonkForge.Cache

variable {δ : Type} [DecidableEq δ]

/- What a stream ends with. -/
def SourceStream.failure : SourceStream → Option CacheFailure
  | .refuses failure => some failure
  | .opens _ _ raises => raises

/- What happens in a fetch. Only a comparison of digests reports a digest mismatch. -/
structure Attempt where
  fetch : FetchInput
  refusal : fetch.ranges.refused ≠ some .digestMismatch
  sampling : fetch.ranges.samplerRaises ≠ some .digestMismatch
  stream : fetch.source.failure ≠ some .digestMismatch

namespace Store

variable (store : Store δ)

/- A range call of any file with this digest would find no segment. -/
def noSegments (digest : δ) : Prop := ∀ k, k < parallelRangeWorkers → store.segments digest k = none

/- The files when a range call of the file begins. -/
def rangeFiles (pin : Pin δ) : Files UInt8 :=
  ⟨if store.sizeAt pin.sha256 < pin.expectedBytes then
      (store.partials pin.sha256).map PartialFile.bytes
    else none,
    store.segments pin.sha256⟩

end Store

/- Neither a partial nor a segment exists. -/
structure Nothing (digest : δ) (store : Store δ) : Prop where
  missing : store.partials digest = none
  segments : store.noSegments digest

/-
  The next attempt asks the source for every byte: a stream from the start, or each range from its
  first byte.
-/
structure FromZero (pin : Pin δ) (store : Store δ) : Prop where
  stream : store.sizeAt pin.sha256 = 0
  ranges : ∀ stopped k, k < (rangePlan pin).count →
    (beginRanges (rangePlan pin) (store.rangeFiles pin) stopped).counts k = 0

omit [DecidableEq δ] in
theorem rangePlan_count_le (pin : Pin δ) : (rangePlan pin).count ≤ parallelRangeWorkers := by
  by_contra hMore
  have hStart : 4 * (rangePlan pin).width < pin.expectedBytes :=
    Slices.mul_lt_of_lt_count (Nat.lt_of_not_le hMore)
  have hWidth : (rangePlan pin).width = (pin.expectedBytes + 4 - 1) / 4 := rfl
  omega

omit [DecidableEq δ] in
/- A file that is fetched in ranges has as many as there are workers. -/
theorem rangePlan_count {pin : Pin δ} (hLarge : parallelRangeMinBytes ≤ pin.expectedBytes) :
    (rangePlan pin).count = parallelRangeWorkers := by
  apply le_antisymm (rangePlan_count_le pin)
  by_contra hFewer
  have hWidth : (rangePlan pin).width = (pin.expectedBytes + 4 - 1) / 4 := rfl
  have hMin : 64 * 1024 * 1024 ≤ pin.expectedBytes := hLarge
  have hAll : pin.expectedBytes ≤ (rangePlan pin).count * (rangePlan pin).width :=
    Slices.le_count_mul (by omega)
  have hThree : (rangePlan pin).count ≤ 3 := Nat.le_of_lt_succ (Nat.lt_of_not_le hFewer)
  have hShort := Nat.mul_le_mul_right (rangePlan pin).width hThree
  omega

omit [DecidableEq δ] in
theorem Nothing.fromZero {pin : Pin δ} {store : Store δ} (hNothing : Nothing pin.sha256 store) :
    FromZero pin store where
  stream := by
    unfold Store.sizeAt Store.bytesAt
    rw [hNothing.missing]
    rfl
  ranges := by
    intro _ k hCount
    have hTarget : (store.rangeFiles pin).target = none := by
      unfold Store.rangeFiles
      rw [hNothing.missing]
      exact ite_self _
    have hSegment : (store.rangeFiles pin).segments k = none :=
      hNothing.segments k (hCount.trans_le (rangePlan_count_le pin))
    simp [beginRanges, prepareSegment, hTarget, hSegment, size]

----
-- The Condition
----

/- Whether a file of this size and source uses ranges. -/
def usesRanges (file : SourceFile δ) (input : FetchInput) : Prop :=
  parallelRangeMinBytes ≤ file.pin.expectedBytes ∧ file.http ∧ !input.interrupts

instance (file : SourceFile δ) (input : FetchInput) : Decidable (usesRanges file input) := by
  unfold usesRanges
  infer_instance

/- A part that is complete is not fetched. -/
def isFetched (file : SourceFile δ) (fetchOnly : Bool) (store : Store δ) : Prop :=
  fetchOnly = false ∨ store.sizeAt file.pin.sha256 ≠ file.pin.expectedBytes

instance (file : SourceFile δ) (fetchOnly : Bool) (store : Store δ) :
    Decidable (isFetched file fetchOnly store) := by
  unfold isFetched
  infer_instance

/- A range call gets few short bodies; without one, no segments are there. -/
def Ready (file : SourceFile δ) (input : FetchInput) (store : Store δ) : Prop :=
  if usesRanges file input then
    input.ranges.rangesFit = true → FewShort (rangePlan file.pin) input.ranges.schedule
  else store.noSegments file.pin.sha256

/-
  In a range call, if one is made, no range is answered short three times; if none is made, no
  earlier one has left its files.
-/
def ClearFetch (file : SourceFile δ) (fetchOnly : Bool) (input : FetchInput)
    (store : Store δ) : Prop :=
  if isFetched file fetchOnly store then Ready file input store
  else store.noSegments file.pin.sha256

----
-- One File
----

variable {hash : Bytes → δ} {pin : Pin δ} {store : Store δ}

/-
  From a store with `P` the job leaves no segments of the file, and nothing of it at all if it fails
  with a mismatch.
-/
abbrev Discards {α : Type} (P : Store δ → Prop) (pin : Pin δ) (job : Transfer δ α) : Prop :=
  Job.Raises P job .digestMismatch (fun _ store => store.noSegments pin.sha256) (Nothing pin.sha256)

/- Removing the partial of a file without segments. -/
theorem nothing_unlink (hNone : store.noSegments pin.sha256) :
    Nothing pin.sha256 (store.unlink pin.sha256) where
  missing := Function.update_self _ _ _
  segments := hNone

/- Bytes that failed are dropped with the failure. -/
theorem discard_raises {α : Type} {Q : α → Store δ → Prop} :
    Job.Raises (fun store => store.noSegments pin.sha256)
    (Job.update (fun store => store.unlink pin.sha256) >>= fun _ =>
      Job.fail CacheFailure.digestMismatch) CacheFailure.digestMismatch Q (Nothing pin.sha256) := by
  apply Job.Triple.bind_update
  · exact fun store hNone => nothing_unlink hNone
  · exact Job.Raises.fail fun store hNothing => hNothing

/- Verifying leaves the segments alone. -/
theorem verifyFile_raises : Discards (·.noSegments pin.sha256) pin (verifyFile hash pin) := by
  unfold verifyFile
  apply Job.Triple.bind_read
  intro found
  cases found with
  | none => exact Job.Triple.pure fun store hBefore => hBefore.1
  | some =>
    apply Job.Triple.bind_read
    intro _
    split
    · exact Job.Triple.pure fun store hBefore => hBefore.1.1
    · split
      · apply Job.Triple.bind_update (R := fun store => store.noSegments pin.sha256)
        · exact fun store hBefore => hBefore.1.1
        · exact Job.Triple.pure fun store hNone => hNone
      · exact Job.Triple.pure fun store hBefore => hBefore.1.1

theorem placeObject_raises : Discards (·.noSegments pin.sha256) pin (placeObject pin) := by
  unfold placeObject
  apply Job.Triple.bind_read
  intro found
  cases found with
  | none => exact Job.Raises.fail_other (by decide)
  | some => exact fun store hBefore => hBefore.1

theorem completeDownload_raises (gate : Gate) (ingressVerified : Bool) :
    Discards (·.noSegments pin.sha256) pin (completeDownload hash pin gate ingressVerified) := by
  have hVerified :
      Discards (·.noSegments pin.sha256) pin (isVerified hash pin ingressVerified) := by
    unfold isVerified
    split
    · exact Job.Triple.pure fun store hNone => hNone
    · exact verifyFile_raises
  unfold completeDownload
  apply Job.Raises.bind_require (by decide)
  intro _
  apply Job.Triple.bind hVerified
  intro ok
  cases ok with
  | false => exact discard_raises
  | true =>
    apply Job.Raises.bind_require (by decide)
    intro _
    apply Job.Raises.bind_require (by decide)
    intro _
    exact placeObject_raises

theorem failStream_raises {failure : CacheFailure} {P : Store δ → Prop}
    {Q : Unit → Store δ → Prop} (hOther : failure ≠ .digestMismatch) :
    Job.Raises P (failStream pin failure) .digestMismatch Q (Nothing pin.sha256) := by
  unfold failStream
  split
  · exact Job.Raises.update_fail hOther
  · exact Job.Raises.fail_other hOther

theorem receiveChunks_failure {raises : Option CacheFailure} {room : Nat} {chunks : List Bytes}
    {failure : CacheFailure} (hEnd : (receiveChunks raises room chunks).2 = .raised failure) :
    raises = some failure := by
  induction chunks generalizing room with
  | nil =>
    cases raises with
    | none => cases hEnd
    | some =>
      cases hEnd
      rfl
  | cons _ _ ih =>
    simp only [receiveChunks] at hEnd
    split at hEnd
    · cases hEnd
    · split at hEnd
      · cases hEnd
      · exact ih hEnd

theorem downloadSequential_raises (offset : Nat) (source : SourceStream)
    (hSource : source.failure ≠ some .digestMismatch) :
    Discards (·.noSegments pin.sha256) pin (downloadSequential pin offset source) := by
  cases source with
  | refuses => exact failStream_raises fun hSame => hSource (congrArg some hSame)
  | opens restarts chunks raises =>
    simp only [downloadSequential]
    apply Job.Triple.bind_update (R := fun store => store.noSegments pin.sha256)
    · exact fun store hNone => hNone
    · split
      · exact failStream_raises (by decide)
      · rename_i failure hEnd
        apply failStream_raises
        rintro rfl
        exact hSource (receiveChunks_failure hEnd)
      · exact Job.Raises.require (by decide) fun store hNone _ => hNone

theorem segments_afterRanges (outcome : RangeOutcome UInt8) :
    (store.afterRanges pin.sha256 outcome).segments pin.sha256 = outcome.files.segments := by
  simp only [Store.afterRanges]
  split <;>
    simp [Store.setSegments, Store.write, Store.unlink]

/- A range call with few short bodies leaves no segments. -/
theorem downloadParallelRanges_raises (fetchOnly : Bool) (input : RangesInput)
    (hLarge : parallelRangeMinBytes ≤ pin.expectedBytes)
    (hFew : input.rangesFit = true → FewShort (rangePlan pin) input.schedule)
    (hRefused : input.refused ≠ some .digestMismatch)
    (hSampler : input.samplerRaises ≠ some .digestMismatch) :
    Discards (fun _ => True) pin (downloadParallelRanges hash pin fetchOnly input) := by
  have hCount := rangePlan_count hLarge
  unfold downloadParallelRanges
  split
  · rename_i failure hFailure
    apply Job.Raises.fail_other
    rintro rfl
    exact hRefused hFailure
  · split
    · rename_i hFit
      apply Job.Triple.bind_read
      intro outcome
      apply Job.Triple.bind_update
        (R := fun store =>
          ∀ completed, outcome.result = some (.ok completed) → store.noSegments pin.sha256)
      · rintro _ ⟨_, rfl⟩ _ hResult
        unfold Store.noSegments
        rw [segments_afterRanges, ← hCount]
        exact downloadRanges_leaves hResult (hFew hFit)
      · split
        · rename_i failure hFailure
          apply Job.Raises.fail_other
          rintro rfl
          exact hSampler hFailure
        · rename_i hResult
          split
          · exact Job.Triple.pure fun store hAfter => hAfter true hResult
          · apply discard_raises.mono
            · exact fun store hAfter => hAfter true hResult
            · exact fun _ _ hDone => hDone
        · rename_i hResult
          exact Job.Triple.pure fun store hAfter => hAfter false hResult
        · exact Job.Raises.fail_other (by decide)
        · exact Job.Raises.fail_other (by decide)
    · apply Job.Triple.bind_update (R := fun store => store.noSegments pin.sha256)
      · intro _ _ _ hLess
        simp only [Store.setSegments, Function.update_self]
        exact if_pos (hLess.trans_eq hCount.symm)
      · exact Job.Triple.pure fun store hNone => hNone

variable {file : SourceFile δ} {fetchOnly : Bool} {input : FetchInput} {attempt : Attempt}

theorem tryRanges_of_uses (hUses : usesRanges file input) (fetchOnly : Bool) :
    tryRanges hash file fetchOnly input = downloadParallelRanges hash file.pin fetchOnly
    input.ranges := if_pos hUses

theorem tryRanges_of_not (hUses : ¬ usesRanges file input) (fetchOnly : Bool) :
    tryRanges hash file fetchOnly input = pure false :=
  if_neg hUses

theorem tryRanges_raises (fetchOnly : Bool) (attempt : Attempt) :
    Discards (Ready file attempt.fetch) file.pin (tryRanges hash file fetchOnly attempt.fetch) := by
  by_cases hUses : usesRanges file attempt.fetch
  · apply Job.Triple.at_state
    intro _ hReady
    rw [Ready, if_pos hUses] at hReady
    rw [tryRanges_of_uses hUses]
    apply (downloadParallelRanges_raises fetchOnly attempt.fetch.ranges hUses.1 hReady
        attempt.refusal attempt.sampling).mono
    · exact fun _ _ => trivial
    · exact fun _ _ hNone => hNone
  · rw [tryRanges_of_not hUses]
    apply Job.Triple.pure
    intro _ hReady
    rwa [Ready, if_neg hUses] at hReady

theorem fetchFile_raises (fetchOnly : Bool) (attempt : Attempt) (offset : Nat) :
    Discards (Ready file attempt.fetch) file.pin
      (fetchFile hash file fetchOnly attempt.fetch offset) := by
  have hFinish : ∀ ingress,
      Discards (·.noSegments file.pin.sha256) file.pin
        (finishFetch hash file.pin fetchOnly attempt.fetch.gate ingress) := by
    intro _
    unfold finishFetch
    split
    · exact Job.Raises.require (by decide) fun store hNone _ => hNone
    · exact completeDownload_raises _ _
  unfold fetchFile
  apply Job.Triple.bind (tryRanges_raises fetchOnly attempt)
  intro ranged
  cases ranged with
  | true => exact hFinish true
  | false =>
    exact Job.Triple.bind (downloadSequential_raises offset _ attempt.stream) fun _ => hFinish false

/- The verifier remembers the partial as it is. -/
def Known (pin : Pin δ) (store : Store δ) : Prop :=
  ∃ held, store.partials pin.sha256 = some held ∧ held.bytes.length = pin.expectedBytes ∧
    (pin.sha256, held.version) ∈ store.verified

theorem known_remember {held : PartialFile} (hHeld : store.partials pin.sha256 = some held)
    (hLength : held.bytes.length = pin.expectedBytes) :
    Known pin (store.remember pin.sha256 held.version) := by
  refine ⟨held, hHeld, hLength, ?_⟩
  simp [Store.remember, Store.verifierCapacity]

theorem verifyFile_known {P F : Store δ → Prop} : Job.Raises P (verifyFile hash pin) .digestMismatch
      (fun ok store => if ok then Known pin store else P store)
      F := by
  unfold verifyFile
  apply Job.Triple.bind_read
  intro found
  cases found with
  | none => exact Job.Triple.pure fun store hBefore => hBefore.1
  | some held =>
    apply Job.Triple.bind_read
    intro known
    split
    · exact Job.Triple.pure fun store hBefore => hBefore.1.1
    · rename_i hLength
      split
      · apply Job.Triple.bind_update (R := Known pin)
        · intro _ hBefore
          exact known_remember hBefore.1.2 (not_not.mp hLength)
        · exact Job.Triple.pure fun store hKnown => hKnown
      · exact Job.Triple.pure fun store hBefore => hBefore.1.1

variable {F : Store δ → Prop}

/- A file that was verified is verified again. -/
theorem verifyFile_again :
    Job.Raises (Known pin) (verifyFile hash pin) .digestMismatch (fun ok _ => ok = true) F := by
  unfold verifyFile
  apply Job.Triple.bind_read
  intro found
  cases found with
  | none =>
    apply Job.Triple.pure
    rintro _ ⟨⟨_, hHeld, _, _⟩, hNone⟩
    rw [hNone] at hHeld
    cases hHeld
  | some held =>
    apply Job.Triple.bind_read
    intro known
    split
    · rename_i hLength
      apply Job.Triple.pure
      rintro _ ⟨⟨⟨_, hOther, hSize, _⟩, hHeld⟩, _⟩
      obtain rfl := Option.some.inj (hOther.symm.trans hHeld)
      exact absurd hSize hLength
    · split
      · apply Job.Triple.bind_update (R := fun _ => True)
        · exact fun _ _ => trivial
        · exact Job.Triple.pure fun _ _ => rfl
      · rename_i hUnknown
        apply Job.Triple.pure
        rintro _ ⟨⟨⟨_, hOther, _, hMem⟩, hHeld⟩, hKnown⟩
        obtain rfl := Option.some.inj (hOther.symm.trans hHeld)
        rw [← hKnown] at hUnknown
        simp [hMem] at hUnknown

theorem publishObject_raises :
    Job.Raises (Known pin) (publishObject hash pin) .digestMismatch (fun _ _ => True) F := by
  unfold publishObject
  apply Job.Triple.bind verifyFile_again
  intro ok
  cases ok with
  | false =>
    intro _ hFalse
    cases hFalse
  | true =>
    unfold placeObject
    apply Job.Triple.bind_read
    intro found
    cases found with
    | none => exact Job.Raises.fail_other (by decide)
    | some => exact fun _ _ => trivial

----
-- Attempts
----

/- A partial that is too long is dropped with its length. -/
theorem retainedBytes_raises : Job.Raises (fun state => state = store)
    (retainedBytes pin) .digestMismatch
    (fun offset state => (store.sizeAt pin.sha256 ≤ pin.expectedBytes ∧
      offset = store.sizeAt pin.sha256 ∧ state = store) ∨
      (pin.expectedBytes < store.sizeAt pin.sha256 ∧ offset = 0 ∧ state = store.unlink pin.sha256))
    F := by
  unfold retainedBytes
  apply Job.Triple.bind_read
  intro offset
  split
  · rename_i hLong
    apply Job.Triple.bind_update (R := fun state => pin.expectedBytes < store.sizeAt pin.sha256 ∧
        state = store.unlink pin.sha256)
    · rintro _ ⟨rfl, rfl⟩
      exact ⟨hLong, rfl⟩
    · exact Job.Triple.pure fun state hAfter => Or.inr ⟨hAfter.1, rfl, hAfter.2⟩
  · rename_i hFits
    apply Job.Triple.pure
    rintro _ ⟨rfl, rfl⟩
    exact Or.inl ⟨Nat.le_of_not_lt hFits, rfl, rfl⟩

omit [DecidableEq δ] in
/- A file without bytes is never fetched in ranges. -/
theorem noSegments_of_empty (hReady : Ready file input store)
    (hEmpty : file.pin.expectedBytes = 0) : store.noSegments file.pin.sha256 := by
  rwa [Ready, if_neg] at hReady
  intro hUses
  have hLarge := hUses.1
  rw [hEmpty] at hLarge
  exact absurd hLarge (by decide)

/- A fetch that ends in a digest mismatch leaves nothing under its digest. -/
theorem downloadArtifact_raises
    (fetchOnly : Bool)
    (attempt : Attempt) :
    Job.Raises (ClearFetch file fetchOnly attempt.fetch)
      (downloadArtifact hash file fetchOnly attempt.fetch)
      .digestMismatch
      (fun _ state =>
         fetchOnly = true → state.noSegments file.pin.sha256)
      (Nothing file.pin.sha256) := by
  apply Job.Triple.at_state
  intro store hClear
  have hReady : isFetched file fetchOnly store → Ready file attempt.fetch store := by
    intro hFetched
    rwa [ClearFetch, if_pos hFetched] at hClear
  unfold downloadArtifact
  apply Job.Triple.bind retainedBytes_raises
  intro offset
  split
  · -- The partial is not complete.
    apply (fetchFile_raises fetchOnly attempt offset).mono
    · -- What a fetch needs is not about the partial.
      rintro _ (⟨_, _, rfl⟩ | ⟨_, _, rfl⟩) <;>
        exact hReady (Or.inr (by omega))
    · exact fun _ _ hNone _ => hNone
  · rename_i hComplete
    split
    · -- A complete part is appended as it is.
      rename_i hPart
      apply Job.Triple.pure
      rintro _ (⟨_, _, rfl⟩ | ⟨_, _, rfl⟩) _
      · rw [ClearFetch, if_neg] at hClear
        · exact hClear
        · rintro (hWhole | _)
          · rw [hPart] at hWhole
            cases hWhole
          · omega
      · exact noSegments_of_empty (hReady (Or.inr (by omega))) (by omega)
    · rename_i hWhole
      apply Job.Triple.bind verifyFile_known
      intro ok
      cases ok with
      | true =>
        apply Job.Raises.bind_require (by decide)
        intro _
        apply publishObject_raises.mono
        · exact fun store hKnown => hKnown
        · exact fun _ _ _ hPart => absurd hPart hWhole
      | false =>
        apply Job.Triple.bind_update (R := Ready file attempt.fetch)
        · rintro _ (⟨_, _, rfl⟩ | ⟨_, _, rfl⟩) <;>
            exact hReady (Or.inl (Bool.eq_false_iff.mpr hWhole))
        · apply (fetchFile_raises fetchOnly attempt 0).mono
          · exact fun _ hReady => hReady
          · exact fun _ _ hNone _ => hNone

----
-- Split Files
----

/- A part is dropped when it is in, and when it fails its digest. -/
theorem appendPart_raises {assembled : δ} (whole : Bytes) (edge : Nat) (input : AppendInput) :
    Job.Raises (fun store => store.noSegments pin.sha256)
    (appendPart hash pin assembled whole edge input) .digestMismatch
    (fun _ => Nothing pin.sha256) (Nothing pin.sha256) := by
  unfold appendPart
  apply Job.Triple.bind_read
  intro found
  cases found with
  | none => exact Job.Raises.fail_other (by decide)
  | some =>
    dsimp only
    split
    · exact Job.Raises.update_fail (by decide)
    · split
      · exact Job.Raises.update_fail (by decide)
      · apply Job.Triple.bind_update (R := fun store => store.noSegments pin.sha256)
        · exact fun store hBefore => hBefore.1
        · split
          · apply Job.Triple.bind_update (R := Nothing pin.sha256)
            · intro store hNone
              have hCut : (store.truncate assembled edge).noSegments pin.sha256 := hNone
              exact nothing_unlink hCut
            · exact Job.Raises.fail fun store hNothing => hNothing
          · apply Job.Triple.bind_update (R := Nothing pin.sha256)
            · exact fun store hNone => nothing_unlink hNone
            · exact Job.Triple.pure fun _ hNothing => hNothing

/- So does a part, and one that is appended leaves nothing either. -/
theorem transferPart_raises
    {assembled : δ}
    (whole : Bytes)
    (edge : Nat)
    (attempt : Attempt)
    (input : AppendInput) :
    Job.Raises (ClearFetch file true attempt.fetch)
      (transferPart hash file assembled whole edge
         ⟨attempt.fetch, input⟩)
      .digestMismatch (fun _ => Nothing file.pin.sha256)
      (Nothing file.pin.sha256) := by
  unfold transferPart
  apply Job.Triple.bind (downloadArtifact_raises true attempt)
  intro _
  apply (appendPart_raises whole edge input).mono
  · exact fun store hNone => hNone rfl
  · exact fun _ _ hNothing => hNothing

theorem finishSplit_raises (gate : Gate) (whole : Bytes) :
    Job.Raises (fun store => store.noSegments pin.sha256)
    (finishSplit hash pin gate whole) .digestMismatch (fun _ _ => True) (Nothing pin.sha256) := by
  unfold finishSplit
  apply Job.Raises.bind_require (by decide)
  intro _
  apply Job.Triple.bind_read
  intro found
  cases found with
  | none => exact Job.Raises.fail_other (by decide)
  | some =>
    dsimp only
    split
    · apply discard_raises.mono
      · exact fun store hBefore => hBefore.1
      · exact fun _ _ hDone => hDone
    · apply Job.Raises.bind_require (by decide)
      intro _
      apply Job.Raises.bind_require (by decide)
      intro _
      apply placeObject_raises.mono
      · exact fun store hBefore => hBefore.1
      · exact fun _ _ _ => trivial


/- The parts before `done` have no partial, unless it is one of a later part. -/
def Dropped (parts : List (SourceFile δ)) (done : Nat) (store : Store δ) : Prop :=
  ∀ part ∈ parts.take done, store.partials part.pin.sha256 = none ∨
    ∃ later ∈ parts.drop done, later.pin.sha256 = part.pin.sha256

theorem foldl_unlink {digest : δ} (dropped : List (SourceFile δ)) (store : Store δ)
    (hGone : store.partials digest = none ∨ ∃ part ∈ dropped, part.pin.sha256 = digest) :
    (dropped.foldl (fun store part => store.unlink part.pin.sha256) store).partials digest =
      none := by
  induction dropped generalizing store with
  | nil => simpa using hGone
  | cons part _ ih =>
    apply ih
    by_cases hSame : digest = part.pin.sha256
    · rw [hSame]
      exact Or.inl (Function.update_self _ _ _)
    · rcases hGone with hNone | ⟨other, hMem, hOther⟩
      · exact Or.inl (by simp [Store.unlink, Function.update_of_ne hSame, hNone])
      · rcases List.mem_cons.mp hMem with rfl | hRest
        · exact absurd hOther.symm hSame
        · exact Or.inr ⟨other, hRest, hOther⟩

theorem dropParts_drops {P : Store δ → Prop} (parts : List (SourceFile δ)) (done : Nat) :
    Job.Holds P (dropParts parts done) (fun _ => Dropped parts done) (fun _ => True) := by
  apply Job.Triple.update
  intro store _ part hMem
  by_cases hLater : ∃ later ∈ parts.drop done, later.pin.sha256 = part.pin.sha256
  · exact Or.inr hLater
  · apply Or.inl
    apply foldl_unlink
    refine Or.inr ⟨part, List.mem_filter.mpr ⟨hMem, ?_⟩, rfl⟩
    simpa using hLater

/- The parts that are counted as in are within the partial that was there. -/
theorem prepareSplit_drops
    (parts : List (SourceFile δ))
    (size : Nat) :
    Job.Holds (fun store => store.sizeAt pin.sha256 = size)
      (prepareSplit pin parts)
      (fun recovered store =>
         boundary parts recovered.1 ≤ size ∧
         Dropped parts recovered.1 store)
      (fun _ => True) := by
  have hRetained : Job.Holds (fun store => store.sizeAt pin.sha256 = size) (retainedBytes pin)
      (fun _ store => store.sizeAt pin.sha256 ≤ size) (fun _ => True) := by
    unfold retainedBytes
    apply Job.Triple.bind_read
    intro _
    split
    · apply Job.Triple.bind_update (R := fun store => store.sizeAt pin.sha256 ≤ size)
      · intro _ _
        rw [Store.sizeAt, bytesAt_unlink]
        exact Nat.zero_le _
      · exact Job.Triple.pure fun _ hSize => hSize
    · exact Job.Triple.pure fun _ hBefore => hBefore.1.le
  have hCut : Job.Holds (fun store => store.sizeAt pin.sha256 ≤ size) (cutTail pin.sha256 parts)
      (fun done _ => boundary parts done ≤ size) (fun _ => True) := by
    unfold cutTail
    apply Job.Triple.bind_read
    intro found
    have hFits := boundary_wholeParts_le parts found
    apply Job.Triple.at_state
    rintro _ ⟨hSize, rfl⟩
    dsimp only
    split
    · exact Job.Triple.pure fun _ _ => hFits.trans hSize
    · apply Job.Triple.bind_update (R := fun _ => True)
      · exact fun _ _ => trivial
      · exact Job.Triple.pure fun _ _ => hFits.trans hSize
  have hRecovered : ∀ cut, Job.Holds (fun _ => boundary parts cut ≤ size)
      (recoverPrefix pin.sha256 (boundary parts cut) cut)
      (fun recovered _ => boundary parts recovered.1 ≤ size) (fun _ : Store δ => True) := by
    intro cut
    have hZero : boundary parts 0 ≤ size := by simp [boundary]
    unfold recoverPrefix
    split
    · exact Job.Triple.pure fun _ _ => hZero
    · apply Job.Triple.bind_read
      intro found
      cases found with
      | none => exact Job.Triple.fail fun _ _ => trivial
      | some =>
        dsimp only
        split
        · apply Job.Triple.bind_update (R := fun _ => True)
          · exact fun _ _ => trivial
          · exact Job.Triple.pure fun _ _ => hZero
        · exact Job.Triple.pure fun _ hBefore => hBefore.1
  unfold prepareSplit
  apply Job.Triple.bind hRetained
  intro _
  apply Job.Triple.bind hCut
  intro cut
  apply Job.Triple.bind (hRecovered cut)
  rintro ⟨done, whole⟩
  apply Job.Triple.at_state
  intro _ hFits
  apply Job.Triple.bind (dropParts_drops parts done)
  intro _
  exact Job.Triple.pure fun _ hDropped => ⟨hFits, hDropped⟩

end VonkForge.Cache
