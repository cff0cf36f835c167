import VonkForge.Cache.Split

/-
  What the transfer of a file leaves alone: the partials and the range segments of every other
  digest.

  Main declarations:
    * `Store.filesAt`
    * `downloadArtifact_keeps`
    * `prepareSplit_keeps`
    * `transferPart_keeps`
-/

----
-- Files of a Digest
----

namespace VonkForge.Cache

variable {δ : Type} [DecidableEq δ]

/- The partial and the segments of a digest. -/
def Store.filesAt (store : Store δ) (digest : δ) : Option PartialFile × (Nat → Option Bytes) :=
  (store.partials digest, store.segments digest)

variable {store : Store δ} {digest other : δ} {hash : Bytes → δ} {pin : Pin δ}

section

variable (hOther : other ≠ digest)

include hOther

theorem filesAt_write (bytes : Bytes) :
    (store.write digest bytes).filesAt other = store.filesAt other := by
  simp [Store.filesAt, Store.write, hOther]

theorem filesAt_unlink : (store.unlink digest).filesAt other = store.filesAt other := by
  simp [Store.filesAt, Store.unlink, hOther]

theorem filesAt_setSegments (segments : Nat → Option Bytes) :
    (store.setSegments digest segments).filesAt other = store.filesAt other := by
  simp [Store.filesAt, Store.setSegments, hOther]

theorem filesAt_afterRanges (outcome : RangeOutcome UInt8) :
    (store.afterRanges digest outcome).filesAt other = store.filesAt other := by
  have hKept :
      (store.setSegments digest outcome.files.segments).filesAt other = store.filesAt other :=
    filesAt_setSegments hOther _
  unfold Store.afterRanges
  dsimp only
  split
  · exact (filesAt_write hOther _).trans hKept
  · exact hKept
  · exact (filesAt_unlink hOther).trans hKept

end

----
-- One File
----

/- A drop of the partial, and a failure. -/
theorem discard_keeps {α : Type} (hOther : other ≠ digest) (failure : CacheFailure) :
    Job.Keeps (fun store : Store δ => store.filesAt other)
      (Job.update (fun store => store.unlink digest) >>= fun _ =>
        (Job.fail failure : Transfer δ α)) :=
  Job.Keeps.bind (Job.Keeps.update fun _ => filesAt_unlink hOther) fun _ => Job.Keeps.fail failure

theorem verifyFile_keeps :
    Job.Keeps (fun store : Store δ => store.filesAt other) (verifyFile hash pin) := by
  unfold verifyFile
  refine Job.Keeps.bind (Job.Keeps.read _) fun found => ?_
  cases found with
  | none => exact Job.Keeps.pure _
  | some =>
    refine Job.Keeps.bind (Job.Keeps.read _) fun _ => ?_
    split
    · exact Job.Keeps.pure _
    · split
      · exact Job.Keeps.bind (Job.Keeps.update fun _ => rfl) fun _ => Job.Keeps.pure _
      · exact Job.Keeps.pure _

section

variable (hOther : other ≠ pin.sha256)

include hOther

theorem placeObject_keeps :
    Job.Keeps (fun store : Store δ => store.filesAt other) (placeObject pin) := by
  unfold placeObject
  refine Job.Keeps.bind (Job.Keeps.read _) fun found => ?_
  cases found with
  | none => exact Job.Keeps.fail _
  | some =>
    apply Job.Keeps.update
    intro _
    simp [Store.filesAt, Store.rename, Store.unlink, hOther]

theorem publishObject_keeps :
    Job.Keeps (fun store : Store δ => store.filesAt other) (publishObject hash pin) := by
  refine Job.Keeps.bind verifyFile_keeps fun ok => ?_
  cases ok with
  | true => exact placeObject_keeps hOther
  | false => exact discard_keeps hOther _

theorem completeDownload_keeps (gate : Gate) (ingressVerified : Bool) :
    Job.Keeps (fun store : Store δ => store.filesAt other)
      (completeDownload hash pin gate ingressVerified) := by
  have hVerified : Job.Keeps (fun store : Store δ => store.filesAt other)
      (isVerified hash pin ingressVerified) := by
    unfold isVerified
    split
    · exact Job.Keeps.pure _
    · exact verifyFile_keeps
  refine Job.Keeps.bind (Job.Keeps.require _ _) fun _ => Job.Keeps.bind hVerified fun ok => ?_
  cases ok with
  | true =>
    exact Job.Keeps.bind (Job.Keeps.require _ _) fun _ =>
      Job.Keeps.bind (Job.Keeps.require _ _) fun _ => placeObject_keeps hOther
  | false => exact discard_keeps hOther _

theorem failStream_keeps (failure : CacheFailure) :
    Job.Keeps (fun store : Store δ => store.filesAt other) (failStream pin failure) := by
  unfold failStream
  split
  · exact discard_keeps hOther failure
  · exact Job.Keeps.fail failure

theorem downloadSequential_keeps (offset : Nat) (source : SourceStream) :
    Job.Keeps (fun store : Store δ => store.filesAt other)
      (downloadSequential pin offset source) := by
  cases source with
  | refuses => exact failStream_keeps hOther _
  | opens =>
    refine Job.Keeps.bind (Job.Keeps.update fun _ => filesAt_write hOther _) fun _ => ?_
    split
    · exact failStream_keeps hOther _
    · exact failStream_keeps hOther _
    · exact Job.Keeps.require _ _

theorem downloadParallelRanges_keeps (fetchOnly : Bool) (input : RangesInput) :
    Job.Keeps (fun store : Store δ => store.filesAt other)
      (downloadParallelRanges hash pin fetchOnly input) := by
  unfold downloadParallelRanges
  split
  · exact Job.Keeps.fail _
  · split
    · refine Job.Keeps.bind (Job.Keeps.read _) fun outcome =>
        Job.Keeps.bind (Job.Keeps.update fun _ => filesAt_afterRanges hOther outcome) fun _ => ?_
      split
      · exact Job.Keeps.fail _
      · split
        · exact Job.Keeps.pure _
        · exact discard_keeps hOther _
      · exact Job.Keeps.pure _
      · exact Job.Keeps.fail _
      · exact Job.Keeps.fail _
    · exact Job.Keeps.bind (Job.Keeps.update fun _ => filesAt_setSegments hOther _) fun _ =>
        Job.Keeps.pure _

theorem retainedBytes_keeps :
    Job.Keeps (fun store : Store δ => store.filesAt other) (retainedBytes pin) := by
  refine Job.Keeps.bind (Job.Keeps.read _) fun _ => ?_
  split
  · exact Job.Keeps.bind (Job.Keeps.update fun _ => filesAt_unlink hOther) fun _ =>
      Job.Keeps.pure _
  · exact Job.Keeps.pure _

end

section

variable {file : SourceFile δ} (hOther : other ≠ file.pin.sha256) (fetchOnly : Bool)
  (input : FetchInput)

include hOther

theorem fetchFile_keeps (offset : Nat) : Job.Keeps (fun store : Store δ => store.filesAt other)
    (fetchFile hash file fetchOnly input offset) := by
  have hRanges : Job.Keeps (fun store : Store δ => store.filesAt other)
      (tryRanges hash file fetchOnly input) := by
    unfold tryRanges
    split
    · exact downloadParallelRanges_keeps hOther fetchOnly _
    · exact Job.Keeps.pure _
  have hFinish : ∀ ingress, Job.Keeps (fun store : Store δ => store.filesAt other)
      (finishFetch hash file.pin fetchOnly input.gate ingress) := by
    intro _
    unfold finishFetch
    split
    · exact Job.Keeps.require _ _
    · exact completeDownload_keeps hOther _ _
  refine Job.Keeps.bind hRanges fun ranged => ?_
  cases ranged with
  | true => exact hFinish true
  | false => exact Job.Keeps.bind (downloadSequential_keeps hOther offset _) fun _ => hFinish false

/- The transfer of a file touches the files of its own digest only. -/
theorem downloadArtifact_keeps :
    Job.Keeps (fun store : Store δ => store.filesAt other)
      (downloadArtifact hash file fetchOnly input) := by
  refine Job.Keeps.bind (retainedBytes_keeps hOther) fun offset => ?_
  split
  · exact fetchFile_keeps hOther fetchOnly input offset
  · split
    · exact Job.Keeps.pure _
    · refine Job.Keeps.bind verifyFile_keeps fun ok => ?_
      cases ok with
      | true =>
        exact Job.Keeps.bind (Job.Keeps.require _ _) fun _ => publishObject_keeps hOther
      | false =>
        exact Job.Keeps.bind (Job.Keeps.update fun _ => filesAt_unlink hOther) fun _ =>
          fetchFile_keeps hOther fetchOnly input 0

end

----
-- Parts
----

variable {γ : Type} {view : Store δ → γ} {assembled : δ} {parts : List (SourceFile δ)}

/- What is seen does not depend on the partial of a digest, nor on what was published. -/
structure Ignores (view : Store δ → γ) (digest : δ) : Prop where
  write : ∀ store bytes, view (store.write digest bytes) = view store
  unlink : ∀ store, view (store.unlink digest) = view store
  renamed : ∀ (store : Store δ) renamed, view { store with renamed := renamed } = view store

theorem ignores_segments : Ignores (fun store : Store δ => store.segments) digest where
  write _ _ := rfl
  unlink _ := rfl
  renamed _ _ := rfl

theorem ignores_filesAt (hOther : other ≠ digest) :
    Ignores (fun store : Store δ => store.filesAt other) digest where
  write _ _ := filesAt_write hOther _
  unlink _ := filesAt_unlink hOther
  renamed _ _ := rfl

/- An append writes and drops two partials. -/
theorem appendPart_keeps (hPart : Ignores view pin.sha256) (hWhole : Ignores view assembled)
    (whole : Bytes) (edge : Nat) (input : AppendInput) :
    Job.Keeps view (appendPart hash pin assembled whole edge input) := by
  refine Job.Keeps.bind (Job.Keeps.read _) fun found => ?_
  cases found with
  | none => exact Job.Keeps.fail _
  | some =>
    dsimp only
    split
    · exact Job.Keeps.bind (Job.Keeps.update hPart.unlink) fun _ => Job.Keeps.fail _
    · split
      · exact Job.Keeps.bind (Job.Keeps.update fun _ => hWhole.write _ _) fun _ => Job.Keeps.fail _
      · refine Job.Keeps.bind (Job.Keeps.update fun _ => hWhole.write _ _) fun _ => ?_
        split
        · refine Job.Keeps.bind (Job.Keeps.update fun _ => ?_) fun _ => Job.Keeps.fail _
          exact (hPart.unlink _).trans (hWhole.write _ _)
        · exact Job.Keeps.bind (Job.Keeps.update hPart.unlink) fun _ => Job.Keeps.pure _

/- The digests of a split file and of its parts. -/
def digestsOf (pin : Pin δ) (parts : List (SourceFile δ)) : List δ :=
  pin.sha256 :: parts.map fun part => part.pin.sha256

theorem dropParts_keeps (done : Nat) (hParts : ∀ part ∈ parts, Ignores view part.pin.sha256) :
    Job.Keeps view (dropParts parts done) := by
  apply Job.Keeps.update
  intro store
  have hDropped : ∀ part ∈ (parts.take done).filter (fun part =>
      !((parts.drop done).any fun later => later.pin.sha256 = part.pin.sha256)),
      Ignores view part.pin.sha256 :=
    fun part hMem => hParts part (List.mem_of_mem_take (List.mem_of_mem_filter hMem))
  revert hDropped
  generalize (parts.take done).filter _ = dropped
  intro hDropped
  induction dropped generalizing store with
  | nil => rfl
  | cons part rest ih =>
    refine (ih _ fun other hMem => hDropped other (List.mem_cons_of_mem _ hMem)).trans ?_
    exact (hDropped part List.mem_cons_self).unlink store

/- What is in no digest of the file stays as it is. -/
theorem prepareSplit_keeps
    (hAll : ∀ digest ∈ digestsOf pin parts, Ignores view digest) :
    Job.Keeps view (prepareSplit pin parts) := by
  have hWhole : Ignores view pin.sha256 := hAll _ List.mem_cons_self
  have hRetained : Job.Keeps view (retainedBytes pin) := by
    refine Job.Keeps.bind (Job.Keeps.read _) fun _ => ?_
    split
    · exact Job.Keeps.bind (Job.Keeps.update hWhole.unlink) fun _ => Job.Keeps.pure _
    · exact Job.Keeps.pure _
  have hCut : Job.Keeps view (cutTail pin.sha256 parts) := by
    refine Job.Keeps.bind (Job.Keeps.read _) fun _ => ?_
    dsimp only
    split
    · exact Job.Keeps.pure _
    · exact Job.Keeps.bind (Job.Keeps.update fun _ => hWhole.write _ _) fun _ => Job.Keeps.pure _
  have hRecovered : ∀ edge done, Job.Keeps view (recoverPrefix pin.sha256 edge done) := by
    intro edge done
    unfold recoverPrefix
    split
    · exact Job.Keeps.pure _
    · refine Job.Keeps.bind (Job.Keeps.read _) fun found => ?_
      cases found with
      | none => exact Job.Keeps.fail _
      | some =>
        dsimp only
        split
        · exact Job.Keeps.bind (Job.Keeps.update hWhole.unlink) fun _ => Job.Keeps.pure _
        · exact Job.Keeps.pure _
  refine Job.Keeps.bind hRetained fun _ => Job.Keeps.bind hCut fun cut =>
    Job.Keeps.bind (hRecovered _ _) fun recovered => ?_
  refine Job.Keeps.bind (dropParts_keeps _ ?_) fun _ => Job.Keeps.pure _
  exact fun part hMem => hAll _ (List.mem_cons_of_mem _ (List.mem_map_of_mem hMem))

theorem finishSplit_keeps (hWhole : Ignores view pin.sha256) (gate : Gate) (whole : Bytes) :
    Job.Keeps view (finishSplit hash pin gate whole) := by
  refine Job.Keeps.bind (Job.Keeps.require _ _) fun _ =>
    Job.Keeps.bind (Job.Keeps.read _) fun found => ?_
  cases found with
  | none => exact Job.Keeps.fail _
  | some =>
    dsimp only
    split
    · exact Job.Keeps.bind (Job.Keeps.update hWhole.unlink) fun _ => Job.Keeps.fail _
    · refine Job.Keeps.bind (Job.Keeps.require _ _) fun _ =>
        Job.Keeps.bind (Job.Keeps.require _ _) fun _ => Job.Keeps.bind (Job.Keeps.read _) ?_
      intro found
      cases found with
      | none => exact Job.Keeps.fail _
      | some =>
        exact Job.Keeps.update fun _ => (hWhole.renamed _ _).trans (hWhole.unlink _)

/- The transfer of a part touches the files of its digest and the partial of the whole. -/
theorem transferPart_keeps
    {part : SourceFile δ}
    (hPart : other ≠ part.pin.sha256)
    (hWhole : other ≠ assembled)
    (whole : Bytes)
    (edge : Nat)
    (input : PartInput) :
    Job.Keeps (fun store : Store δ => store.filesAt other)
      (transferPart hash part assembled whole edge input) :=
  Job.Keeps.bind (downloadArtifact_keeps hPart true input.fetch) fun _ =>
    appendPart_keeps (ignores_filesAt hPart) (ignores_filesAt hWhole) whole edge input.append

theorem transferPart_keeps_segments {part : SourceFile δ} (hPart : other ≠ part.pin.sha256)
    (whole : Bytes) (edge : Nat) (input : PartInput) :
    Job.Keeps (fun store : Store δ => store.segments other)
      (transferPart hash part assembled whole edge input) := by
  have hAppend : Job.Keeps (fun store : Store δ => store.segments)
      (appendPart hash part.pin assembled whole edge input.append) :=
    appendPart_keeps ignores_segments ignores_segments whole edge input.append
  refine Job.Keeps.bind (fun store => ?_) fun _ store => congrFun (hAppend store) other
  exact congrArg Prod.snd (downloadArtifact_keeps hPart true input.fetch store)

end VonkForge.Cache
