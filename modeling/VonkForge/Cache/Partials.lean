import VonkForge.Cache.Ranges
import VonkForge.Foundations.Job

/-
  The transfer of one model-cache file into its partial and from there into the object store
  (`download.py`, `split_transfer.py`, `http.py`), with the verifier that remembers what it has
  hashed (`cached_file_verification.py`).

  The partials of one owner are named by digest. Every write gives a file a new version; the version
  stands for the identity that the verifier compares. A hash object is the bytes it was updated
  with.

  What the source sends, and what the stop event and the database say, is part of the input.

  Main declarations:
    * `Store`
    * `verifyFile`
    * `completeDownload`
-/

----
-- The Store
----

namespace VonkForge.Cache

abbrev Bytes := List UInt8

/- The immutable size and digest of a file. -/
structure Pin (δ : Type) where
  sha256 : δ
  expectedBytes : Nat
deriving DecidableEq

/- A file the source serves in one piece. -/
structure SourceFile (δ : Type) where
  pin : Pin δ
  -- The scheme of the source is `http` or `https`.
  http : Bool
deriving DecidableEq

structure PartialFile where
  bytes : Bytes
  version : Nat
deriving DecidableEq

/- A rename into the object store, with what it was for. -/
structure Renamed (δ : Type) where
  pin : Pin δ
  bytes : Bytes
deriving DecidableEq

/-
  The partials with their range segments, what the verifier has hashed, and what was renamed into
  the object store.
-/
structure Store (δ : Type) where
  partials : δ → Option PartialFile
  segments : δ → Nat → Option Bytes
  version : Nat
  verified : List (δ × Nat)
  renamed : List (Renamed δ)

inductive CacheFailure where
  | interrupted
  | sourceSizeMismatch
  | sourceTruncated
  | digestMismatch
  | sourceUnavailable
  -- Any other exception.
  | raised
deriving DecidableEq

abbrev Transfer (δ α : Type) := Job CacheFailure (Store δ) α

variable {δ : Type} [DecidableEq δ]

namespace Store

variable (store : Store δ) (digest : δ)

def bytesAt : Bytes := ((store.partials digest).map PartialFile.bytes).getD []

/- The size of a partial, zero when it does not exist. -/
def sizeAt : Nat := (store.bytesAt digest).length

def write (bytes : Bytes) : Store δ :=
  { store with
    partials := Function.update store.partials digest (some ⟨bytes, store.version⟩)
    version := store.version + 1 }

def unlink : Store δ := { store with partials := Function.update store.partials digest none }

/- `truncate`, which fills a file that is too short. -/
def truncate (length : Nat) : Store δ :=
  let bytes := (store.bytesAt digest).take length
  store.write digest (bytes ++ List.replicate (length - bytes.length) 0)

def setSegments (segments : Nat → Option Bytes) : Store δ :=
  { store with segments := Function.update store.segments digest segments }

/- The size of the verifier's memory. -/
def verifierCapacity : Nat := 8192

/- `move_to_end`, and forget what was used longest ago. -/
def remember (version : Nat) : Store δ :=
  { store with
    verified :=
      ((digest, version) :: store.verified.erase (digest, version)).take verifierCapacity }

/- `os.replace` of a partial over its object. -/
def rename (pin : Pin δ) (bytes : Bytes) : Store δ :=
  { store.unlink pin.sha256 with renamed := store.renamed ++ [⟨pin, bytes⟩] }

end Store

variable (hash : Bytes → δ)

----
-- Verifying and Publishing
----

variable (pin : Pin δ)

/- `_verify_file`, through `CachedFileVerifier.verify`. -/
def verifyFile : Transfer δ Bool := do
  match ← Job.read fun store => store.partials pin.sha256 with
  | none => pure false
  | some file =>
    let known ← Job.read fun store => store.verified.contains (pin.sha256, file.version)
    if file.bytes.length ≠ pin.expectedBytes then pure false
    else if known || hash file.bytes = pin.sha256 then do
      Job.update fun store => store.remember pin.sha256 file.version
      pure true
    else pure false

/- `_place_object`. -/
def placeObject : Transfer δ Unit := do
  match ← Job.read fun store => store.partials pin.sha256 with
  | none => Job.fail .raised
  | some file => Job.update fun store => store.rename pin file.bytes

/- `_publish_object`. -/
def publishObject : Transfer δ Unit := do
  if ← verifyFile hash pin then placeObject pin
  else do
    Job.update fun store => store.unlink pin.sha256
    Job.fail .digestMismatch

/- What `_complete_download` is told on its way. -/
structure Gate where
  running : Bool
  uncancelled : Bool
  publicationAllowed : Bool
deriving DecidableEq

/- Bytes that were verified at ingress are not read again. -/
def isVerified (ingressVerified : Bool) : Transfer δ Bool :=
  if ingressVerified then pure true else verifyFile hash pin

/- `_complete_download`. -/
def completeDownload (gate : Gate) (ingressVerified : Bool) : Transfer δ Unit := do
  Job.require gate.running .interrupted
  if ← isVerified hash pin ingressVerified then do
    Job.require gate.uncancelled .interrupted
    Job.require gate.publicationAllowed .interrupted
    placeObject pin
  else do
    Job.update fun store => store.unlink pin.sha256
    Job.fail .digestMismatch

----
-- The Sequential Stream
----

/- How the loop over a source ends. -/
inductive StreamEnd where
  | ended
  | tooLong
  | raised (failure : CacheFailure)
deriving DecidableEq

/-
  The loop of `_download_sequential`: what is written, and how it ends. An empty chunk ends the
  source.
-/
def receiveChunks (raises : Option CacheFailure) : Nat → List Bytes → Bytes × StreamEnd
  | _, [] =>
    match raises with
    | none => ([], .ended)
    | some failure => ([], .raised failure)
  | room, chunk :: chunks =>
    if chunk.isEmpty then ([], .ended)
    else if room < chunk.length then ([], .tooLong)
    else
      let rest := receiveChunks raises (room - chunk.length) chunks
      (chunk ++ rest.1, rest.2)

/- What `_open_source` does, and what the source sends. -/
inductive SourceStream where
  | refuses (failure : CacheFailure)
  -- A source that ignores the range starts over.
  | opens (restarts : Bool) (chunks : List Bytes) (raises : Option CacheFailure)
deriving DecidableEq

/- A source that disagrees with the pin is not resumed. -/
def failStream (failure : CacheFailure) : Transfer δ Unit :=
  if failure = .sourceSizeMismatch then do
    Job.update fun store => store.unlink pin.sha256
    Job.fail failure
  else Job.fail failure

/- `_download_sequential`. -/
def downloadSequential (offset : Nat) : SourceStream → Transfer δ Unit
  | .refuses failure => failStream pin failure
  | .opens restarts chunks raises => do
      let start := if restarts then 0 else offset
      let received := receiveChunks raises (pin.expectedBytes - start) chunks
      -- Opened with `ab` or, from the start, with `wb`.
      Job.update fun store =>
        store.write pin.sha256
          ((if start = 0 then [] else store.bytesAt pin.sha256) ++ received.1)
      match received.2 with
      | .tooLong => failStream pin .sourceSizeMismatch
      | .raised failure => failStream pin failure
      | .ended => Job.require (start + received.1.length == pin.expectedBytes) .sourceTruncated

----
-- Parallel Ranges
----

def parallelRangeMinBytes : Nat := 64 * 1024 * 1024

def parallelRangeWorkers : Nat := 4

def rangePlan : RangePlan := ⟨pin.expectedBytes, parallelRangeWorkers⟩

structure RangesInput where
  -- The source or the client is refused.
  refused : Option CacheFailure
  rangesFit : Bool
  schedule : RangeSchedule UInt8
  -- What the progress sampler raises when it is closed.
  samplerRaises : Option CacheFailure

/- The store with what a range call did to its files. -/
def Store.afterRanges (store : Store δ) (digest : δ) (outcome : RangeOutcome UInt8) : Store δ :=
  let kept := store.setSegments digest outcome.files.segments
  match outcome.result, outcome.files.target with
  | some (.ok true), some bytes => kept.write digest bytes
  -- The target was left alone, or dropped as too long.
  | _, some _ => kept
  | _, none => kept.unlink digest

/- `_download_parallel_ranges`. -/
def downloadParallelRanges (fetchOnly : Bool) (input : RangesInput) : Transfer δ Bool :=
  match input.refused with
  | some failure => Job.fail failure
  | none =>
    if input.rangesFit then do
      let outcome ← Job.read fun store =>
        downloadRanges (rangePlan pin)
          ⟨(store.partials pin.sha256).map PartialFile.bytes, store.segments pin.sha256⟩
          input.schedule
      Job.update fun store => store.afterRanges pin.sha256 outcome
      match input.samplerRaises, outcome.result with
      | some failure, _ => Job.fail failure
      | none, some (.ok true) =>
        if fetchOnly || hash outcome.fed = pin.sha256 then pure true
        else do
          Job.update fun store => store.unlink pin.sha256
          Job.fail .digestMismatch
      | none, some (.ok false) => pure false
      | none, some (.error _) => Job.fail .raised
      | none, none => Job.fail .raised
    else do
      Job.update fun store =>
        store.setSegments pin.sha256 fun k =>
          if k < (rangePlan pin).count then none else store.segments pin.sha256 k
      pure false

----
-- One File
----

structure FetchInput where
  gate : Gate
  interrupts : Bool
  ranges : RangesInput
  source : SourceStream

/- The retained length; a partial too long is dropped. -/
def retainedBytes : Transfer δ Nat := do
  let offset ← Job.read fun store => store.sizeAt pin.sha256
  if pin.expectedBytes < offset then do
    Job.update fun store => store.unlink pin.sha256
    pure 0
  else pure offset

/- The end of a fetch, for a part and for a whole file. -/
def finishFetch (fetchOnly : Bool) (gate : Gate) (ingressVerified : Bool) : Transfer δ Unit :=
  if fetchOnly then Job.require gate.running .interrupted
  else completeDownload hash pin gate ingressVerified

variable (file : SourceFile δ) (fetchOnly : Bool) (input : FetchInput)

/- Whether ranges completed the partial. -/
def tryRanges : Transfer δ Bool :=
  if parallelRangeMinBytes ≤ file.pin.expectedBytes ∧ file.http ∧ !input.interrupts then
    downloadParallelRanges hash file.pin fetchOnly input.ranges
  else pure false

/- The transfer that a partial which is not complete needs. -/
def fetchFile
    (offset : Nat) : Transfer δ Unit := do
  if ← tryRanges hash file fetchOnly input then finishFetch hash file.pin fetchOnly input.gate true
  else do
    downloadSequential file.pin offset input.source
    finishFetch hash file.pin fetchOnly input.gate false

/- `_download_artifact`. -/
def downloadArtifact : Transfer δ Unit := do
  let offset ← retainedBytes file.pin
  if offset ≠ file.pin.expectedBytes then fetchFile hash file fetchOnly input offset
  else if fetchOnly then pure ()
  else if ← verifyFile hash file.pin then do
    Job.require input.gate.publicationAllowed .interrupted
    publishObject hash file.pin
  else do
    Job.update fun store => store.unlink file.pin.sha256
    fetchFile hash file fetchOnly input 0

end VonkForge.Cache
