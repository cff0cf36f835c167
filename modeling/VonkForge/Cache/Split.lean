import VonkForge.Cache.Partials
import VonkForge.Foundations.Run

/-
  Files that the source hosts only as ordered parts (`split_transfer.py`), and the transfers of a
  cache over any number of attempts and crashes.

  A part is fetched into its own partial and appended to the partial of the whole file. The whole
  file's hash object lives as long as the call; a new call rebuilds it from the retained prefix. A
  part may carry the digest of the whole file, and then both have the same partial.

  Main declarations:
    * `ArtifactSpec`
    * `appendPart`
    * `downloadSplit`
-/

----
-- Parts
----

namespace VonkForge.Cache

variable {δ : Type} [DecidableEq δ]

/-
  An artifact whose parts, if it has any, have together the size of the whole (`_validate_parts`).
-/
structure ArtifactSpec (δ : Type) where
  whole : SourceFile δ
  parts : Option (List (SourceFile δ))
  sum : ∀ split, parts = some split →
    (split.map fun part => part.pin.expectedBytes).sum = whole.pin.expectedBytes

/- `boundaries[index]`. -/
def boundary (parts : List (SourceFile δ)) (index : Nat) : Nat :=
  ((parts.take index).map fun part => part.pin.expectedBytes).sum

/- The largest index whose boundary is within the size. -/
def wholeParts (parts : List (SourceFile δ)) (size : Nat) : Nat :=
  ((List.range (parts.length + 1)).filter fun index => boundary parts index ≤ size).getLastD 0

variable (hash : Bytes → δ)

/- What an append is told. -/
structure AppendInput where
  -- A stop is seen when so many bytes are appended.
  stopsAfter : Option Nat
  -- A file that grows under its reader shows more bytes.
  seesGrowth : Bool
deriving DecidableEq

/- `_append_part`, with the hash object of the whole file before and after it. -/
def appendPart (part : Pin δ) (assembled : δ) (whole : Bytes) (edge : Nat)
    (input : AppendInput) : Transfer δ Bytes := do
  match ← Job.read fun store => store.partials part.sha256
  with
  | none => Job.fail .sourceTruncated
  | some file =>
    if file.bytes.length ≠ part.expectedBytes then do
      Job.update fun store => store.unlink part.sha256
      Job.fail .sourceSizeMismatch
    else
      match input.stopsAfter with
      | some n => do
          Job.update fun store =>
            store.write assembled (store.bytesAt assembled ++ file.bytes.take n)
          Job.fail .interrupted
      | none => do
          Job.update fun store => store.write assembled (store.bytesAt assembled ++ file.bytes)
          let oversized := part.sha256 = assembled && input.seesGrowth
          if oversized || hash file.bytes ≠ part.sha256 then
            do
            Job.update fun store => (store.truncate assembled edge).unlink part.sha256
            Job.fail .digestMismatch
          else do
            Job.update fun store => store.unlink part.sha256
            pure (whole ++ file.bytes)

structure PartInput where
  fetch : FetchInput
  append : AppendInput

/- One turn of the loop over the parts. -/
def transferPart (part : SourceFile δ) (assembled : δ) (whole : Bytes)
    (edge : Nat) (input : PartInput) : Transfer δ Bytes := do
  downloadArtifact hash part true input.fetch
  appendPart hash part.pin assembled whole edge input.append

/- The loop over the parts that are missing. -/
def appendParts (assembled : δ) (inputs : Nat → PartInput) :
    List (SourceFile δ) → Nat → Bytes → Nat → Transfer δ Bytes
  | [], _, whole, _ => pure whole
  | part :: parts, index, whole, edge => do
      let whole ← transferPart hash part assembled whole edge (inputs index)
      appendParts assembled inputs parts (index + 1) whole (edge + part.pin.expectedBytes)

/-
  `_rehash_prefix` of the retained prefix. A prefix that is too short is dropped, and the file
  starts over.
-/
def recoverPrefix (assembled : δ) (edge : Nat) (done : Nat) : Transfer δ (Nat × Bytes) :=
  if done = 0 then pure (0, [])
  else do
    match ← Job.read fun store => store.partials assembled
    with
    | none => Job.fail .raised
    | some file =>
      if file.bytes.length < edge then do
        Job.update fun store => store.unlink assembled
        pure (0, [])
      else pure (done, file.bytes.take edge)

/- The appended parts, with a torn tail cut off. -/
def cutTail (assembled : δ) (parts : List (SourceFile δ)) : Transfer δ Nat := do
  let size ← Job.read fun store => store.sizeAt assembled
  let done := wholeParts parts size
  if size = boundary parts done then pure done
  else do
    Job.update fun store =>
      store.write assembled ((store.bytesAt assembled).take (boundary parts done))
    pure done

/- The partials of parts that are in and not needed again. -/
def dropParts (parts : List (SourceFile δ)) (done : Nat) : Transfer δ Unit :=
  Job.update fun store => ((parts.take done).filter fun part =>
      !((parts.drop done).any fun later => later.pin.sha256 = part.pin.sha256)).foldl
    (fun store part => store.unlink part.pin.sha256) store

/- What `_download_split` does before its loop. -/
def prepareSplit (pin : Pin δ) (parts : List (SourceFile δ)) : Transfer δ (Nat × Bytes) := do
  let _ ← retainedBytes pin
  let cut ← cutTail pin.sha256 parts
  let (done, whole) ← recoverPrefix pin.sha256 (boundary parts cut) cut
  dropParts parts done
  pure (done, whole)

structure SplitInput where
  parts : Nat → PartInput
  gate : Gate

/- The end of `_download_split`. -/
def finishSplit (pin : Pin δ) (gate : Gate) (whole : Bytes) : Transfer δ Unit := do
  Job.require gate.running .interrupted
  match ← Job.read fun store => store.partials pin.sha256 with
  | none => Job.fail .raised
  | some file =>
    if file.bytes.length ≠ pin.expectedBytes ∨ hash whole ≠ pin.sha256 then do
      Job.update fun store => store.unlink pin.sha256
      Job.fail .digestMismatch
    else do
      Job.require gate.uncancelled .interrupted
      Job.require gate.publicationAllowed .interrupted
      placeObject pin

/- `_download_split`. -/
def downloadSplit (pin : Pin δ) (parts : List (SourceFile δ))
    (input : SplitInput) : Transfer δ Unit := do
  let (done, whole) ← prepareSplit pin parts
  let whole ←
    appendParts hash pin.sha256 input.parts (parts.drop done) done whole (boundary parts done)
  finishSplit hash pin input.gate whole

----
-- Attempts and Crashes
----

inductive TransferInput (δ : Type) where
  | fetch (file : SourceFile δ) (input : FetchInput)
  | split (spec : ArtifactSpec δ) (parts : List (SourceFile δ)) (isSplit : spec.parts = some parts)
      (input : SplitInput)
  -- The process ends at any moment of an attempt. Whatever
  -- is then in the files is what the next one starts from.
  | crash (partials : δ → Option Bytes) (segments : δ → Nat → Option Bytes)

/- The pin of the artifact that an input transfers. -/
def TransferInput.pin : TransferInput δ → Option (Pin δ)
  | .fetch file _ => some file.pin
  | .split spec _ _ _ => some spec.whole.pin
  | .crash _ _ => none

/- A new process over what is in the files. -/
def Store.restart (version : Nat) (partials : δ → Option Bytes)
    (segments : δ → Nat → Option Bytes) : Store δ where
  partials := fun digest => (partials digest).map fun bytes => ⟨bytes, version⟩
  segments := segments
  version := version + 1
  verified := []
  renamed := []

/- One attempt, with the renames it made. -/
def Store.serve (store : Store δ) : TransferInput δ → Store δ
  | .fetch file input =>
    (downloadArtifact hash file false input
      { store with renamed := [] }).2
  | .split spec parts _ input =>
    (downloadSplit hash spec.whole.pin parts input
      { store with renamed := [] }).2
  | .crash partials segments => Store.restart store.version partials segments

def transferMachine : Machine (Store δ) (TransferInput δ) (Store δ) where
  answer := fun store input => store.serve hash input
  next := fun store => store

end VonkForge.Cache
