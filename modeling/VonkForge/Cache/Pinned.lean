import VonkForge.Cache.Frames
import VonkForge.Cache.RangeLanes

/-
  Every object that is published matches its pin.

  A file is renamed only after the bytes it holds at that moment were found to have the pinned size
  and digest: by a read of the file, by a read whose result the verifier remembers for the same
  version, from the bytes the range assembly wrote, or from the hash object of a split file. The
  last one covers the file because the file is always the tail of what the hash object was fed.

  Main declarations:
    * `Sound`
    * `appendParts_holds`
    * `downloadSplit_holds`
    * `published_objects_match_pins`
-/

----
-- A Sound Store
----

namespace VonkForge.Cache

variable {δ : Type} [DecidableEq δ] {hash : Bytes → δ} {pin file : Pin δ} {store : Store δ}
variable {digest : δ}

/- What the verifier remembers is true of the files. -/
structure Remembers (hash : Bytes → δ) (store : Store δ) : Prop where
  versions : ∀ digest held, store.partials digest = some held → held.version < store.version
  past : ∀ entry ∈ store.verified, entry.2 < store.version
  holds : ∀ digest held, store.partials digest = some held →
    (digest, held.version) ∈ store.verified → hash held.bytes = digest

/- A sound store, where only `pin` was published. -/
structure Sound (hash : Bytes → δ) (pin : Pin δ) (store : Store δ) : Prop extends
    Remembers hash store where
  renamed : ∀ renamed ∈ store.renamed, renamed.pin = pin ∧
    renamed.bytes.length = pin.expectedBytes ∧ hash renamed.bytes = pin.sha256

/- The partial of `file` has the pinned size and digest. -/
def Verified (hash : Bytes → δ) (file : Pin δ) (store : Store δ) : Prop :=
  ∃ held, store.partials file.sha256 = some held ∧ held.bytes.length = file.expectedBytes ∧
    hash held.bytes = file.sha256

@[simp] theorem bytesAt_write (bytes : Bytes) :
    (store.write digest bytes).bytesAt digest = bytes := by
  simp [Store.bytesAt, Store.write]

@[simp] theorem bytesAt_unlink : (store.unlink digest).bytesAt digest = [] := by
  simp [Store.bytesAt, Store.unlink]

omit [DecidableEq δ] in
theorem bytesAt_of_some {held : PartialFile} (hHeld : store.partials digest = some held) :
    store.bytesAt digest = held.bytes := by
  simp [Store.bytesAt, hHeld]

section

variable (hSound : Sound hash pin store)

include hSound

theorem Sound.write (digest : δ) (bytes : Bytes) : Sound hash pin (store.write digest bytes) := by
  refine ⟨⟨?_, ?_, ?_⟩, hSound.renamed⟩
  · intro other held hHeld
    by_cases hSame : other = digest
    · rw [hSame] at hHeld
      simp only [Store.write, Function.update_self, Option.some.injEq] at hHeld
      rw [← hHeld]
      exact Nat.lt_succ_self _
    · simp only [Store.write, Function.update_of_ne hSame] at hHeld
      exact Nat.lt_succ_of_lt (hSound.versions other held hHeld)
  · intro entry hEntry
    exact Nat.lt_succ_of_lt (hSound.past entry hEntry)
  · intro other held hHeld hEntry
    by_cases hSame : other = digest
    · -- Nothing is remembered of a version that is new.
      rw [hSame] at hHeld
      simp only [Store.write, Function.update_self, Option.some.injEq] at hHeld
      rw [← hHeld] at hEntry
      exact absurd (hSound.past _ hEntry) (Nat.lt_irrefl _)
    · simp only [Store.write, Function.update_of_ne hSame] at hHeld
      exact hSound.holds other held hHeld hEntry

theorem Sound.unlink (digest : δ) : Sound hash pin (store.unlink digest) := by
  have hOld : ∀ other held, (store.unlink digest).partials other = some held →
      store.partials other = some held := by
    intro other _ hHeld
    by_cases hSame : other = digest
    · rw [hSame] at hHeld
      simp [Store.unlink] at hHeld
    · simpa [Store.unlink, Function.update_of_ne hSame] using hHeld
  refine ⟨⟨?_, hSound.past, ?_⟩, hSound.renamed⟩
  · intro other held hHeld
    exact hSound.versions other held (hOld other held hHeld)
  · intro other held hHeld hEntry
    exact hSound.holds other held (hOld other held hHeld) hEntry

theorem Sound.setSegments (digest : δ)
    (segments : Nat → Option Bytes) : Sound hash pin (store.setSegments digest segments) :=
  ⟨⟨hSound.versions, hSound.past, hSound.holds⟩, hSound.renamed⟩

theorem Sound.remember {held : PartialFile}
    (hHeld : store.partials digest = some held) (hHash : hash held.bytes = digest) :
    Sound hash pin (store.remember digest held.version) := by
  have hEntries : ∀ entry ∈ (store.remember digest held.version).verified,
      entry = (digest, held.version) ∨ entry ∈ store.verified := by
    intro _ hEntry
    have hListed := List.mem_of_mem_take hEntry
    rcases List.mem_cons.mp hListed with hNew | hOld
    · exact Or.inl hNew
    · exact Or.inr (List.mem_of_mem_erase hOld)
  refine ⟨⟨hSound.versions, ?_, ?_⟩, hSound.renamed⟩
  · intro entry hEntry
    rcases hEntries entry hEntry with rfl | hOld
    · exact hSound.versions digest held hHeld
    · exact hSound.past entry hOld
  · intro other found hFound hEntry
    rcases hEntries _ hEntry with hNew | hOld
    · obtain ⟨rfl, _⟩ := Prod.mk.inj hNew
      obtain rfl := Option.some.inj (hFound.symm.trans hHeld)
      exact hHash
    · exact hSound.holds other found hFound hOld

theorem Sound.rename {bytes : Bytes}
    (hLength : bytes.length = pin.expectedBytes) (hHash : hash bytes = pin.sha256) :
    Sound hash pin (store.rename pin bytes) := by
  have hUnlinked := hSound.unlink pin.sha256
  refine ⟨⟨hUnlinked.versions, hUnlinked.past, hUnlinked.holds⟩, ?_⟩
  intro renamed hMem
  rcases List.mem_append.mp hMem with hOld | hNew
  · exact hSound.renamed renamed hOld
  · rw [List.mem_singleton.mp hNew]
    exact ⟨rfl, hLength, hHash⟩

end

----
-- One File
----

theorem verifyFile_holds : Job.Holds (Sound hash pin)
      (verifyFile hash file)
      (fun ok store =>
        Sound hash pin store ∧ (ok → Verified hash file store))
      (Sound hash pin) := by
  unfold verifyFile
  apply Job.Triple.bind_read
  intro found
  cases found with
  | none =>
    apply Job.Triple.pure
    intro _ hBefore
    exact ⟨hBefore.1, by simp⟩
  | some held =>
    apply Job.Triple.bind_read
    intro known
    split
    · apply Job.Triple.pure
      intro _ hBefore
      exact ⟨hBefore.1.1, by simp⟩
    · rename_i hLength
      split
      · rename_i hMatches
        apply Job.Triple.bind_update
          (R := fun store => Sound hash pin store ∧ Verified hash file store)
        · rintro _ ⟨⟨hSound, hHeld⟩, hKnown⟩
          have hHash : hash held.bytes = file.sha256 := by
            simp only [Bool.or_eq_true, decide_eq_true_eq] at hMatches
            rcases hMatches with hRemembered | hHashed
            · rw [← hKnown] at hRemembered
              exact hSound.holds _ _ hHeld (List.contains_iff_mem.mp hRemembered)
            · exact hHashed
          exact ⟨hSound.remember hHeld hHash, held, hHeld, not_not.mp hLength, hHash⟩
        · apply Job.Triple.pure
          intro _ hAfter
          exact ⟨hAfter.1, fun _ => hAfter.2⟩
      · apply Job.Triple.pure
        intro _ hBefore
        exact ⟨hBefore.1.1, by simp⟩

/- A verified partial may be published under its own pin. -/
theorem placeObject_holds : Job.Holds (fun store => Sound hash pin store ∧
      Verified hash pin store) (placeObject pin) (fun _ => Sound hash pin)
    (Sound hash pin) := by
  unfold placeObject
  apply Job.Triple.bind_read
  intro found
  cases found with
  | none =>
    apply Job.Triple.fail
    intro _ hBefore
    exact hBefore.1.1
  | some =>
    apply Job.Triple.update
    rintro _ ⟨⟨hSound, _, hFound, hMatches⟩, hHeld⟩
    obtain rfl := Option.some.inj (hFound.symm.trans hHeld)
    exact hSound.rename hMatches.1 hMatches.2

/- Bytes that did not match are dropped. -/
theorem discard_holds {α : Type} {Q : α → Store δ → Prop} (failure : CacheFailure) :
    Job.Holds (Sound hash pin)
    (Job.update (fun store => store.unlink digest) >>= fun _ => Job.fail failure) Q
    (Sound hash pin) := by
  apply Job.Triple.bind_update
  · exact fun store hSound => hSound.unlink _
  · exact Job.Triple.fail fun store hSound => hSound

theorem publishObject_holds : Job.Holds (Sound hash pin) (publishObject hash pin)
    (fun _ => Sound hash pin) (Sound hash pin) := by
  unfold publishObject
  apply Job.Triple.bind verifyFile_holds
  intro ok
  cases ok with
  | true =>
    apply placeObject_holds.mono
    · intro _ hBefore
      exact ⟨hBefore.1, hBefore.2 rfl⟩
    · exact fun _ _ hAfter => hAfter
  | false =>
    apply (discard_holds .digestMismatch).mono
    · exact fun store hBefore => hBefore.1
    · exact fun _ _ hAfter => hAfter

theorem completeDownload_holds (gate : Gate) (ingressVerified : Bool) :
    Job.Holds (fun store => Sound hash pin store ∧
      (ingressVerified → Verified hash pin store))
    (completeDownload hash pin gate ingressVerified) (fun _ => Sound hash pin)
    (Sound hash pin) := by
  have hVerified : Job.Holds
        (fun store => Sound hash pin store ∧
            (ingressVerified → Verified hash pin store))
        (isVerified hash pin ingressVerified)
        (fun ok store =>
          Sound hash pin store ∧ (ok → Verified hash pin store))
        (Sound hash pin) := by
    cases ingressVerified with
    | true =>
      apply Job.Triple.pure
      exact fun store hBefore => hBefore
    | false =>
      apply verifyFile_holds.mono
      · exact fun store hBefore => hBefore.1
      · exact fun _ _ hAfter => hAfter
  unfold completeDownload
  apply Job.Triple.bind_require
  · intro _
    apply Job.Triple.bind hVerified
    intro ok
    cases ok with
    | true =>
      apply Job.Triple.bind_require
      · intro _
        apply Job.Triple.bind_require
        · intro _
          apply placeObject_holds.mono
          · intro _ hBefore
            exact ⟨hBefore.1, hBefore.2 rfl⟩
          · exact fun _ _ hAfter => hAfter
        · exact fun store hBefore => hBefore.1
      · exact fun store hBefore => hBefore.1
    | false =>
      apply (discard_holds .digestMismatch).mono
      · exact fun store hBefore => hBefore.1
      · exact fun _ _ hAfter => hAfter
  · exact fun store hBefore => hBefore.1

theorem failStream_holds (failure : CacheFailure) : Job.Holds (Sound hash pin)
    (failStream file failure) (fun _ => Sound hash pin)
    (Sound hash pin) := by
  unfold failStream
  split
  · exact discard_holds failure
  · exact Job.Triple.fail fun store hSound => hSound

theorem downloadSequential_holds (offset : Nat) (source : SourceStream) :
    Job.Holds (Sound hash pin) (downloadSequential file offset source)
    (fun _ => Sound hash pin) (Sound hash pin) := by
  cases source with
  | refuses failure => exact failStream_holds failure
  | opens =>
    simp only [downloadSequential]
    apply Job.Triple.bind_update
    · exact fun store hSound => hSound.write _ _
    · split
      · exact failStream_holds _
      · exact failStream_holds _
      · apply Job.Triple.require
        · exact fun store hSound _ => hSound
        · exact fun store hSound => hSound

/- The target of a range call that returned `True`. -/
theorem afterRanges_verified {outcome : RangeOutcome UInt8}
    (hResult : outcome.result = some (.ok true)) (hTarget : outcome.files.target = some outcome.fed)
    (hLength : outcome.fed.length = file.expectedBytes) (hHash : hash outcome.fed = file.sha256) :
    Verified hash file (store.afterRanges file.sha256 outcome) := by
  simp only [Store.afterRanges, hResult, hTarget]
  exact ⟨⟨outcome.fed, store.version⟩, by simp [Store.write, Store.setSegments], hLength, hHash⟩

theorem Sound.afterRanges (hSound : Sound hash pin store) (digest : δ)
    (outcome : RangeOutcome UInt8) : Sound hash pin (store.afterRanges digest outcome) := by
  have hKept := hSound.setSegments digest outcome.files.segments
  simp only [Store.afterRanges]
  split
  · exact hKept.write _ _
  · exact hKept
  · exact hKept.unlink _

theorem downloadParallelRanges_holds (fetchOnly : Bool) (input : RangesInput) :
    Job.Holds (Sound hash pin)
    (downloadParallelRanges hash file fetchOnly input)
    (fun ranged store => Sound hash pin store ∧
      (ranged → fetchOnly = false → Verified hash file store))
    (Sound hash pin) := by
  unfold downloadParallelRanges
  split
  · exact Job.Triple.fail fun store hSound => hSound
  · split
    · apply Job.Triple.bind_read
      intro outcome
      apply Job.Triple.bind_update (R := fun store => Sound hash pin store ∧
          (outcome.result = some (.ok true) → hash outcome.fed = file.sha256 →
          Verified hash file store))
      · rintro _ ⟨hSound, rfl⟩
        refine ⟨hSound.afterRanges _ _, ?_⟩
        intro hResult hHash
        obtain ⟨hTarget, hLength⟩ := downloadRanges_fed hResult
        exact afterRanges_verified hResult hTarget hLength hHash
      · split
        · exact Job.Triple.fail fun store hBefore => hBefore.1
        · rename_i hResult
          split
          · rename_i hMatches
            apply Job.Triple.pure
            intro _ hBefore
            refine ⟨hBefore.1, ?_⟩
            intro _ hFetchOnly
            apply hBefore.2 hResult
            rw [hFetchOnly] at hMatches
            simpa using hMatches
          · apply (discard_holds .digestMismatch).mono
            · exact fun store hBefore => hBefore.1
            · exact fun _ _ hAfter => hAfter
        · apply Job.Triple.pure
          intro _ hBefore
          exact ⟨hBefore.1, by simp⟩
        · exact Job.Triple.fail fun store hBefore => hBefore.1
        · exact Job.Triple.fail fun store hBefore => hBefore.1
    · apply Job.Triple.bind_update
      · exact fun store hSound => hSound.setSegments _ _
      · apply Job.Triple.pure
        intro _ hSound
        exact ⟨hSound, by simp⟩

theorem retainedBytes_holds : Job.Holds (Sound hash pin) (retainedBytes file)
    (fun _ => Sound hash pin) (Sound hash pin) := by
  unfold retainedBytes
  apply Job.Triple.bind_read
  intro _
  split
  · apply Job.Triple.bind_update
    · exact fun store hBefore => hBefore.1.unlink _
    · exact Job.Triple.pure fun store hSound => hSound
  · exact Job.Triple.pure fun store hBefore => hBefore.1

variable {fetchOnly : Bool}

/- Only a file that is no part is published. -/
theorem finishFetch_holds (hPin : fetchOnly ∨ file = pin) (gate : Gate)
    (ingressVerified : Bool) : Job.Holds (fun store => Sound hash pin store ∧
      (ingressVerified → fetchOnly = false → Verified hash file store))
    (finishFetch hash file fetchOnly gate ingressVerified)
    (fun _ => Sound hash pin) (Sound hash pin) := by
  unfold finishFetch
  cases fetchOnly with
  | true =>
    apply Job.Triple.require
    · exact fun store hBefore _ => hBefore.1
    · exact fun store hBefore => hBefore.1
  | false =>
    obtain rfl : file = pin := by simpa using hPin
    apply (completeDownload_holds gate ingressVerified).mono
    · intro _ hBefore
      exact ⟨hBefore.1, fun hIngress => hBefore.2 hIngress rfl⟩
    · exact fun _ _ hAfter => hAfter

variable {source : SourceFile δ}

theorem fetchFile_holds (hPin : fetchOnly ∨ source.pin = pin)
    (input : FetchInput) (offset : Nat) : Job.Holds (Sound hash pin)
    (fetchFile hash source fetchOnly input offset)
    (fun _ => Sound hash pin)
    (Sound hash pin) := by
  have hRanges : Job.Holds (Sound hash pin)
      (tryRanges hash source fetchOnly input)
      (fun ranged store => Sound hash pin store ∧
        (ranged → fetchOnly = false → Verified hash source.pin store))
      (Sound hash pin) := by
    unfold tryRanges
    split
    · exact downloadParallelRanges_holds fetchOnly _
    · apply Job.Triple.pure
      intro _ hSound
      exact ⟨hSound, by simp⟩
  unfold fetchFile
  apply Job.Triple.bind hRanges
  intro ranged
  cases ranged with
  | true => exact finishFetch_holds hPin input.gate true
  | false =>
    apply Job.Triple.bind (M := fun _ => Sound hash pin)
    · apply (downloadSequential_holds offset _).mono
      · exact fun store hBefore => hBefore.1
      · exact fun _ _ hAfter => hAfter
    · intro _
      apply (finishFetch_holds hPin input.gate false).mono
      · exact fun store hSound => ⟨hSound, by simp⟩
      · exact fun _ _ hAfter => hAfter

/- The transfer of one file publishes verified bytes only. -/
theorem downloadArtifact_holds (hPin : fetchOnly ∨ source.pin = pin)
    (input : FetchInput) : Job.Holds (Sound hash pin)
    (downloadArtifact hash source fetchOnly input)
    (fun _ => Sound hash pin)
    (Sound hash pin) := by
  unfold downloadArtifact
  apply Job.Triple.bind retainedBytes_holds
  intro offset
  split
  · exact fetchFile_holds hPin input offset
  · split
    · exact Job.Triple.pure fun store hSound => hSound
    · rename_i hWhole
      obtain rfl : source.pin = pin := by simpa [hWhole] using hPin
      apply Job.Triple.bind verifyFile_holds
      intro ok
      cases ok with
      | true =>
        apply Job.Triple.bind_require
        · intro _
          apply publishObject_holds.mono
          · exact fun store hBefore => hBefore.1
          · exact fun _ _ hAfter => hAfter
        · exact fun store hBefore => hBefore.1
      | false =>
        apply Job.Triple.bind_update
        · exact fun store hBefore => hBefore.1.unlink _
        · exact fetchFile_holds (Or.inr rfl) input 0

----
-- Split Files
----

/- The partial is the tail of what the hash object was fed. -/
def Tail (digest : δ) (whole : Bytes) (store : Store δ) : Prop :=
  ∃ lost, whole = lost ++ store.bytesAt digest

variable {whole : Bytes} {parts : List (SourceFile δ)}

omit [DecidableEq δ] in
theorem tail_of_empty (hEmpty : store.bytesAt digest = []) : Tail digest whole store := by
  refine ⟨whole, ?_⟩
  rw [hEmpty, List.append_nil]

omit [DecidableEq δ] in
theorem Tail.congr {next : Store δ} (hTail : Tail digest whole store)
    (hSame : next.partials digest = store.partials digest) :
    Tail digest whole next := by
  obtain ⟨lost, hWhole⟩ := hTail
  refine ⟨lost, ?_⟩
  rw [hWhole, Store.bytesAt, Store.bytesAt, hSame]

theorem Tail.unlink (hTail : Tail digest whole store) (other : δ) :
    Tail digest whole (store.unlink other) := by
  by_cases hSame : digest = other
  · rw [← hSame]
    exact tail_of_empty bytesAt_unlink
  · apply hTail.congr
    simp [Store.unlink, Function.update_of_ne hSame]

/-
  An append keeps the partial a tail of the hash object. A part with the digest of the whole takes
  the partial away.
-/
theorem appendPart_holds {part : Pin δ} (edge : Nat) (input : AppendInput) :
    Job.Holds (fun store => Sound hash pin store ∧ (part.sha256 ≠ digest → Tail digest whole store))
    (appendPart hash part digest whole edge input)
    (fun appended store => Sound hash pin store ∧ Tail digest appended store ∧
      appended.length = whole.length + part.expectedBytes) (Sound hash pin) := by
  unfold appendPart
  apply Job.Triple.bind_read
  intro found
  cases found with
  | none => exact Job.Triple.fail fun store hBefore => hBefore.1.1
  | some held =>
    dsimp only
    split
    · apply Job.Triple.bind_update
      · exact fun store hBefore => hBefore.1.1.unlink _
      · exact Job.Triple.fail fun store hSound => hSound
    · rename_i hLength
      split
      · apply Job.Triple.bind_update
        · exact fun store hBefore => hBefore.1.1.write _ _
        · exact Job.Triple.fail fun store hSound => hSound
      · apply Job.Triple.bind_update (R := fun store => Sound hash pin store ∧
            (part.sha256 ≠ digest → Tail digest (whole ++ held.bytes) store))
        · intro _ hBefore
          refine ⟨hBefore.1.1.write _ _, ?_⟩
          intro hOther
          obtain ⟨lost, hWhole⟩ := hBefore.1.2 hOther
          refine ⟨lost, ?_⟩
          rw [bytesAt_write, hWhole, List.append_assoc]
        · split
          · apply Job.Triple.bind_update
            · intro _ hBefore
              exact (hBefore.1.write _ _).unlink _
            · exact Job.Triple.fail fun store hSound => hSound
          · apply Job.Triple.bind_update
              (R := fun store => Sound hash pin store ∧ Tail digest (whole ++ held.bytes) store)
            · intro _ hBefore
              refine ⟨hBefore.1.unlink _, ?_⟩
              by_cases hOther : part.sha256 = digest
              · rw [hOther]
                exact tail_of_empty bytesAt_unlink
              · exact (hBefore.2 hOther).unlink _
            · apply Job.Triple.pure
              intro _ hAfter
              refine ⟨hAfter.1, hAfter.2, ?_⟩
              rw [List.length_append, not_not.mp hLength]

/- Fetching a part leaves the other partials alone. -/
theorem fetchPart_holds (input : FetchInput) :
    Job.Holds (fun store => Sound hash pin store ∧ Tail digest whole store)
    (downloadArtifact hash source true input)
    (fun _ store => Sound hash pin store ∧ (source.pin.sha256 ≠ digest → Tail digest whole store))
    (Sound hash pin) := by
  apply Job.Triple.at_state
  rintro start ⟨hSound, hTail⟩
  by_cases hSame : digest = source.pin.sha256
  · apply (downloadArtifact_holds (Or.inl rfl) input).mono
    · rintro _ rfl
      exact hSound
    · exact fun _ _ hAfter => ⟨hAfter, fun hOther => absurd hSame.symm hOther⟩
  · have hFetch : Job.Holds (Sound hash pin) (downloadArtifact hash source true input)
        (fun _ => Sound hash pin) (Sound hash pin) := downloadArtifact_holds (Or.inl rfl) input
    apply (hFetch.frame (downloadArtifact_keeps hSame true input) (start.filesAt digest)).mono
    · rintro _ rfl
      exact ⟨hSound, rfl⟩
    · exact fun _ _ hAfter => ⟨hAfter.1, fun _ => hTail.congr (congrArg Prod.fst hAfter.2)⟩

theorem transferPart_holds (edge : Nat) (input : PartInput) :
    Job.Holds (fun store => Sound hash pin store ∧ Tail digest whole store)
    (transferPart hash source digest whole edge input)
    (fun appended store => Sound hash pin store ∧ Tail digest appended store ∧
      appended.length = whole.length + source.pin.expectedBytes) (Sound hash pin) :=
  Job.Triple.bind (fetchPart_holds input.fetch) fun _ => appendPart_holds edge input.append

/-
  The loop over the parts appends what their pins say, and nothing that is not theirs is renamed.
-/
theorem appendParts_holds
    (inputs : Nat → PartInput)
    (index edge : Nat) :
    Job.Holds
      (fun store => Sound hash pin store ∧ Tail digest whole store)
      (appendParts hash digest inputs parts index whole edge)
      (fun appended store =>
         Sound hash pin store ∧
         Tail digest appended store ∧
         appended.length =
           whole.length +
             (parts.map fun part => part.pin.expectedBytes).sum)
      (Sound hash pin) := by
  induction parts generalizing index whole edge with
  | nil =>
    apply Job.Triple.pure
    exact fun store hBefore => ⟨hBefore.1, hBefore.2, rfl⟩
  | cons part _ ih =>
    unfold appendParts
    apply Job.Triple.bind (transferPart_holds edge _)
    intro _
    -- The length of this part is a fact about no state.
    apply Job.Triple.at_state
    rintro _ ⟨hSound, hTail, hLength⟩
    apply (ih (index + 1) (edge + part.pin.expectedBytes)).mono
    · rintro _ rfl
      exact ⟨hSound, hTail⟩
    · rintro _ _ ⟨hAfter, hEnd, hResult⟩
      refine ⟨hAfter, hEnd, ?_⟩
      rw [hResult, hLength, List.map_cons, List.sum_cons, Nat.add_assoc]

/- The parts counted as appended fit into the size. -/
omit [DecidableEq δ] in
theorem boundary_wholeParts_le (parts : List (SourceFile δ)) (size : Nat) :
    boundary parts (wholeParts parts size) ≤ size := by
  have hMem : wholeParts parts size ∈
        (List.range (parts.length + 1)).filter fun index => boundary parts index ≤ size := by
    have hSome : (List.range (parts.length + 1)).filter
          (fun index => decide (boundary parts index ≤ size)) ≠ [] := by
      intro hNone
      have hZero := List.filter_eq_nil_iff.mp hNone 0 (by simp)
      simp [boundary] at hZero
    unfold wholeParts
    rw [List.getLastD_eq_getLast?, List.getLast?_eq_some_getLast hSome]
    exact List.getLast_mem hSome
  exact of_decide_eq_true (List.mem_filter.mp hMem).2

/- The torn tail is gone: the partial ends at a boundary. -/
theorem cutTail_holds : Job.Holds (Sound hash pin)
      (cutTail digest parts)
      (fun done store =>
        Sound hash pin store ∧ store.sizeAt digest = boundary parts done)
      (Sound hash pin) := by
  unfold cutTail
  apply Job.Triple.bind_read
  intro size
  dsimp only
  split
  · rename_i hSame
    apply Job.Triple.pure
    rintro _ ⟨hSound, hSize⟩
    exact ⟨hSound, hSize.trans hSame⟩
  · apply Job.Triple.bind_update (R := fun store => Sound hash pin store ∧
        store.sizeAt digest = boundary parts (wholeParts parts size))
    · rintro _ ⟨hSound, hSize⟩
      refine ⟨hSound.write _ _, ?_⟩
      rw [Store.sizeAt, bytesAt_write, List.length_take]
      exact Nat.min_eq_left ((boundary_wholeParts_le parts size).trans_eq hSize.symm)
    · apply Job.Triple.pure
      exact fun store hAfter => hAfter

/- The hash object is rebuilt from the whole partial. -/
theorem recoverPrefix_holds {cut : Nat} :
    Job.Holds (fun store => Sound hash pin store ∧ store.sizeAt digest = boundary parts cut)
    (recoverPrefix digest (boundary parts cut) cut)
    (fun recovered store => Sound hash pin store ∧ Tail digest recovered.2 store ∧
      recovered.2.length = boundary parts recovered.1)
    (Sound hash pin) := by
  unfold recoverPrefix
  split
  · rename_i hZero
    apply Job.Triple.pure
    rintro _ ⟨hSound, hSize⟩
    rw [hZero] at hSize
    refine ⟨hSound, ?_, by simp [boundary]⟩
    exact tail_of_empty (List.eq_nil_of_length_eq_zero hSize)
  · apply Job.Triple.bind_read
    intro found
    cases found with
    | none => exact Job.Triple.fail fun store hBefore => hBefore.1.1
    | some held =>
      dsimp only
      split
      · apply Job.Triple.bind_update
          (R := fun store => Sound hash pin store ∧ store.bytesAt digest = [])
        · intro _ hBefore
          exact ⟨hBefore.1.1.unlink _, bytesAt_unlink⟩
        · apply Job.Triple.pure
          intro _ hAfter
          exact ⟨hAfter.1, tail_of_empty hAfter.2, by simp [boundary]⟩
      · apply Job.Triple.pure
        rintro _ ⟨⟨hSound, hSize⟩, hHeld⟩
        have hBytes := bytesAt_of_some hHeld
        have hLength : held.bytes.length = boundary parts cut := by
          rw [← hBytes]
          exact hSize
        refine ⟨hSound, ⟨[], ?_⟩, ?_⟩
        · rw [List.nil_append, hBytes]
          exact List.take_of_length_le hLength.le
        · dsimp only
          rw [List.length_take, hLength, Nat.min_self]

theorem dropParts_holds (done : Nat) :
    Job.Holds (fun store => Sound hash pin store ∧ Tail digest whole store) (dropParts parts done)
    (fun _ store => Sound hash pin store ∧ Tail digest whole store) (Sound hash pin) := by
  apply Job.Triple.update
  intro store hBefore
  generalize (parts.take done).filter
    (fun part => !((parts.drop done).any fun later => later.pin.sha256 = part.pin.sha256)) = dropped
  induction dropped generalizing store with
  | nil => exact hBefore
  | cons _ _ ih =>
    apply ih
    exact ⟨hBefore.1.unlink _, hBefore.2.unlink _⟩

/- A tail of the full length is the whole. -/
theorem finishSplit_holds (hWhole : whole.length = pin.expectedBytes) (gate : Gate) :
    Job.Holds (fun store => Sound hash pin store ∧ Tail pin.sha256 whole store)
    (finishSplit hash pin gate whole) (fun _ => Sound hash pin) (Sound hash pin) := by
  unfold finishSplit
  apply Job.Triple.bind_require
  · intro _
    apply Job.Triple.bind_read
    intro found
    cases found with
    | none => exact Job.Triple.fail fun store hBefore => hBefore.1.1
    | some held =>
      dsimp only
      split
      · apply Job.Triple.bind_update
        · exact fun store hBefore => hBefore.1.1.unlink _
        · exact Job.Triple.fail fun store hSound => hSound
      · rename_i hMatches
        obtain ⟨hLength, hHash⟩ := not_or.mp hMatches
        apply Job.Triple.bind_require
        · intro _
          apply Job.Triple.bind_require
          · intro _
            apply Job.Triple.at_state
            rintro start ⟨⟨hSound, lost, hTail⟩, hHeld⟩
            rw [bytesAt_of_some hHeld] at hTail
            have hSame : whole = held.bytes := by
              have hLost : lost.length = 0 := by
                have hSum := congrArg List.length hTail
                rw [List.length_append, hWhole, not_not.mp hLength] at hSum
                omega
              rw [hTail, List.eq_nil_of_length_eq_zero hLost, List.nil_append]
            apply placeObject_holds.mono
            · rintro _ rfl
              refine ⟨hSound, held, hHeld, not_not.mp hLength, ?_⟩
              rw [← hSame]
              exact not_not.mp hHash
            · exact fun _ store hAfter => hAfter
          · exact fun store hBefore => hBefore.1.1
        · exact fun store hBefore => hBefore.1.1
  · exact fun store hBefore => hBefore.1

theorem prepareSplit_holds : Job.Holds (Sound hash pin) (prepareSplit pin parts)
    (fun recovered store => Sound hash pin store ∧ Tail pin.sha256 recovered.2 store ∧
      recovered.2.length = boundary parts recovered.1) (Sound hash pin) := by
  unfold prepareSplit
  apply Job.Triple.bind retainedBytes_holds
  intro _
  apply Job.Triple.bind cutTail_holds
  intro _
  apply Job.Triple.bind recoverPrefix_holds
  rintro ⟨done, whole⟩
  apply Job.Triple.at_state
  rintro _ ⟨hFound, hTail, hLength⟩
  apply Job.Triple.bind (M := fun _ store => Sound hash pin store ∧ Tail pin.sha256 whole store)
  · apply (dropParts_holds done).mono
    · rintro _ rfl
      exact ⟨hFound, hTail⟩
    · exact fun _ store hAfter => hAfter
  · exact fun _ => Job.Triple.pure fun _ hAfter => ⟨hAfter.1, hAfter.2, hLength⟩

/- A split file is renamed only as the bytes of its pin. -/
theorem downloadSplit_holds
    (hSum :
      (parts.map fun part => part.pin.expectedBytes).sum =
        pin.expectedBytes)
    (input : SplitInput) :
    Job.Holds (Sound hash pin) (downloadSplit hash pin parts input)
      (fun _ => Sound hash pin) (Sound hash pin) := by
  unfold downloadSplit
  apply Job.Triple.bind prepareSplit_holds
  rintro ⟨_, whole⟩
  apply Job.Triple.at_state
  rintro _ ⟨hFound, hTail, hLength⟩
  apply Job.Triple.bind
    (M := fun appended store => Sound hash pin store ∧ Tail pin.sha256 appended store ∧
      appended.length = pin.expectedBytes)
  · apply (appendParts_holds _ _ _).mono
    · rintro _ rfl
      exact ⟨hFound, hTail⟩
    · rintro _ _ ⟨hAppended, hEnd, hAll⟩
      refine ⟨hAppended, hEnd, ?_⟩
      rw [hAll, hLength, boundary, ← List.sum_append,
        ← List.map_append, List.take_append_drop, hSum]
  · intro _
    apply Job.Triple.at_state
    rintro _ ⟨hAppended, hEnd, hWhole⟩
    apply (finishSplit_holds hWhole input.gate).mono
    · rintro _ rfl
      exact ⟨hAppended, hEnd⟩
    · exact fun _ store hAfter => hAfter

----
-- Every Publication
----

omit [DecidableEq δ] in
/- A job's triple at the state it leaves. -/
theorem sound_after {job : Transfer δ Unit}
    (hJob : Job.Holds (Sound hash pin) job (fun _ => Sound hash pin) (Sound hash pin))
    (hStore : Remembers hash store) : Sound hash pin (job { store with renamed := [] }).2 := by
  have hStart : Sound hash pin { store with renamed := [] } :=
    ⟨⟨hStore.versions, hStore.past, hStore.holds⟩, by simp⟩
  have hRun := hJob _ hStart
  revert hRun
  cases job { store with renamed := [] } with
  | mk ending =>
    cases ending with
    | error | ok => exact id

omit [DecidableEq δ] in
theorem restart_remembers (version : Nat) (partials : δ → Option Bytes)
    (segments : δ → Nat → Option Bytes) :
    Remembers hash (Store.restart version partials segments) where
  versions := by
    intro _ _ hHeld
    obtain ⟨_, _, rfl⟩ := Option.map_eq_some_iff.mp hHeld
    exact Nat.lt_succ_self version
  past := by simp [Store.restart]
  holds := by simp [Store.restart]

/- An attempt keeps the verifier right and its pin. -/
theorem serve_sound
    (hStore : Remembers hash store)
    (input : TransferInput δ) :
    Remembers hash (store.serve hash input) ∧
    ∀ renamed ∈ (store.serve hash input).renamed,
      input.pin = some renamed.pin ∧
      renamed.bytes.length = renamed.pin.expectedBytes ∧
      hash renamed.bytes = renamed.pin.sha256 := by
  cases input with
  | fetch source input =>
    have hSound : Sound hash source.pin
          (downloadArtifact hash source false input
            { store with renamed := [] }).2 :=
      sound_after (downloadArtifact_holds (Or.inr rfl) input) hStore
    refine ⟨hSound.toRemembers, ?_⟩
    intro renamed hMem
    obtain ⟨hPin, hMatches⟩ := hSound.renamed renamed hMem
    rw [hPin]
    exact ⟨rfl, hMatches⟩
  | split spec parts hSplit input =>
    have hSound := sound_after (downloadSplit_holds (spec.sum parts hSplit) input) hStore
    refine ⟨hSound.toRemembers, ?_⟩
    intro renamed hMem
    obtain ⟨hPin, hMatches⟩ := hSound.renamed renamed hMem
    rw [hPin]
    exact ⟨rfl, hMatches⟩
  | crash =>
    refine ⟨restart_remembers _ _ _, ?_⟩
    intro _ hMem
    cases hMem

/-
  Over every sequence of attempts and crashes, whatever is in the files and whatever the source
  serves: a file that is renamed into the object store has the pinned size and the pinned digest of
  the artifact that was transferred.
-/
theorem published_objects_match_pins
    (hash : Bytes → δ)
    (partials : δ → Option Bytes)
    (segments : δ → Nat → Option Bytes)
    (inputs : List (TransferInput δ)) :
    ∀ step ∈ (transferMachine hash).trace
      (Store.restart 0 partials segments) inputs,
      ∀ renamed ∈ step.output.renamed,
        step.input.pin = some renamed.pin ∧
        renamed.bytes.length = renamed.pin.expectedBytes ∧
        hash renamed.bytes = renamed.pin.sha256 := by
  intro step hStep
  have hBefore := (transferMachine hash).invariant_before (I := Remembers hash) (P := fun _ => True)
    (fun store input hStore _ => (serve_sound hStore input).1)
    (restart_remembers 0 partials segments) (fun _ _ => trivial) step hStep
  obtain ⟨hStore, input, hSame⟩ := hBefore
  rw [hSame]
  exact (serve_sound hStore input).2

/- A digest that keeps all the bytes, for concrete runs. -/
def plainDigest (bytes : Bytes) : Bytes := bytes

def openGate : Gate := ⟨true, true, true⟩

def plainFetch (chunks : List Bytes) (raises : Option CacheFailure) : FetchInput :=
  ⟨openGate, false, ⟨none, false, ⟨false, []⟩, none⟩, .opens false chunks raises⟩

/- A stream that breaks is resumed and then published. -/
def resumedFetch : List (TransferInput Bytes) :=
  [.fetch ⟨⟨[1, 2, 3], 3⟩, false⟩ (plainFetch [[1], [2]] (some .raised)),
      .fetch ⟨⟨[1, 2, 3], 3⟩, false⟩ (plainFetch [[3]] none)]

/- What a resumed fetch publishes is what its pin names. -/
theorem resumed_fetch_matches_its_pin :
    ∃ step ∈ (transferMachine plainDigest).trace
      (Store.restart 0 (fun _ => none) fun _ _ => none) resumedFetch,
      ∃ renamed ∈ step.output.renamed,
        step.input.pin = some renamed.pin ∧
        renamed.bytes.length = renamed.pin.expectedBytes ∧
        plainDigest renamed.bytes = renamed.pin.sha256 := by
  have hStep : ((transferMachine plainDigest).trace
      (Store.restart 0 (fun _ => none) fun _ _ => none) resumedFetch)[1]? = some _ := rfl
  have hMem := List.mem_of_getElem? hStep
  have hRenamed : (⟨⟨[1, 2, 3], 3⟩, [1, 2, 3]⟩ : Renamed Bytes) ∈
    ((transferMachine plainDigest).move
      ((transferMachine plainDigest).move (Store.restart 0 (fun _ => none) fun _ _ => none)
      (.fetch ⟨⟨[1, 2, 3], 3⟩, false⟩ (plainFetch [[1], [2]] (some .raised))))
      (.fetch ⟨⟨[1, 2, 3], 3⟩, false⟩ (plainFetch [[3]] none))).renamed := by decide +kernel
  exact
    ⟨_, hMem, _, hRenamed, published_objects_match_pins plainDigest
        (fun _ => none) (fun _ _ => none) resumedFetch _ hMem
        _ hRenamed⟩

/- The parts of a split file are joined in their order. -/
example : (downloadSplit plainDigest ⟨[1, 2, 3], 3⟩ [⟨⟨[1, 2], 2⟩, false⟩, ⟨⟨[3], 1⟩, false⟩]
      ⟨fun index => ⟨plainFetch (if index = 0 then [[1, 2]] else [[3]]) none, none, false⟩,
        openGate⟩
      (Store.restart 0 (fun _ => none) fun _ _ => none)).2.renamed =
      [⟨⟨[1, 2, 3], 3⟩, [1, 2, 3]⟩] := by
  decide +kernel

end VonkForge.Cache
