import VonkForge.Foundations.Run
import VonkForge.Foundations.Slices

/-
  Parallel range downloads of one model-cache object (`model_cache_ranges.py`).

  Each worker appends to the file of its own segment; the workers share counters, flags, a slot for
  the first failure and a probe lock. A step is one move of one thread and makes at most one change
  that another thread can see. Reads of flags that only ever go up are made together with the move
  that depends on them, and `fallback` is read when no worker is left.

  A file is its bytes, or nothing when it does not exist. What the provider answers, and when a stop
  comes, is part of the input.

  Main declarations:
    * `Segment`
    * `Worker`
    * `RangeDownload`
-/

----
-- Segments
----

namespace VonkForge.Cache

/- The arguments `expected_bytes` and `workers`. -/
structure RangePlan where
  expectedBytes : Nat
  workers : Nat
deriving DecidableEq

/- A segment from its first to its last byte. -/
structure Segment where
  start : Nat
  last : Nat
deriving DecidableEq

namespace Segment

/- `end - start + 1`. -/
def length (segment : Segment) : Nat := segment.last + 1 - segment.start

end Segment

namespace RangePlan

def valid (plan : RangePlan) : Bool := 0 < plan.expectedBytes && 0 < plan.workers

def width (plan : RangePlan) : Nat := (plan.expectedBytes + plan.workers - 1) / plan.workers

/- The length of `range(0, expected_bytes, width)`. -/
def count (plan : RangePlan) : Nat := Slices.count plan.width plan.expectedBytes

/- Segment number `k` of `_segments`. -/
def segment (plan : RangePlan) (k : Nat) : Segment :=
  { start := k * plan.width, last := min (k * plan.width + plan.width) plan.expectedBytes - 1 }

end RangePlan

----
-- Answers
----

/- What a transfer raises. -/
inductive RangeFailure where
  | valueError
  | interrupted
  | rangeResponse
  | truncated
  | raised (code : Nat)
deriving DecidableEq

/- How a worker ends. -/
inductive Exit where
  | finished
  | ignored
  | failed (failure : RangeFailure)
deriving DecidableEq

variable {α : Type}

/-
  A response. `contentRange` holds the three numbers of a header that has the right form; `raises`
  is what iterating over the body ends with.
-/
structure Response (α : Type) where
  status : Nat
  contentRange : Option (Nat × Nat × Nat)
  contentEncoding : Option String
  chunks : List (List α)
  raises : Option RangeFailure
deriving DecidableEq

/- What `open_range` does. -/
inductive Answer (α : Type) where
  | response (response : Response α)
  | raises (failure : RangeFailure)
deriving DecidableEq

/- `_open_checked`, with the response if it is accepted. -/
def openChecked (plan : RangePlan) (offset last : Nat) : Answer α → Except Exit (Response α)
  | .raises failure => .error (.failed failure)
  | .response response =>
    if response.status = 200 then .error .ignored
    else if response.status < 200 ∨ 300 ≤ response.status then
      .error (.failed (.raised response.status))
    else if response.status ≠ 206 ∨
        response.contentRange ≠ some (offset, last, plan.expectedBytes) then
      .error (.failed .rangeResponse)
    else if (response.contentEncoding.getD
        "identity").toLower ≠ "identity" then
      .error (.failed .rangeResponse)
    else .ok response

----
-- The State of a Download
----

/- What a worker does next with an answer: the first three under the probe lock. -/
inductive Settling where
  | noting
  | flagging
  | releasing
  | leaving
deriving DecidableEq

/-
  Where a worker stands. `tries` counts the short bodies it has seen, `offset` is where it asks
  from, `remaining` is what it still accepts.
-/
inductive Worker (α : Type) where
  | submitted
  | trying (tries : Nat)
  | opening (tries offset : Nat)
  -- At the probe lock, then holding it over the request.
  | waiting (tries offset : Nat)
  | probing (tries offset : Nat)
  | requesting (tries offset : Nat)
  -- The answer is there, checked.
  | settling (stage : Settling) (tries offset : Nat) (outcome : Except Exit (Response α))
  | streaming (tries remaining : Nat) (chunks : List (List α)) (raises : Option RangeFailure)
  -- The chunk is written and not counted yet.
  | counting (tries remaining size : Nat) (chunks : List (List α)) (raises : Option RangeFailure)
  | exited (exit : Exit)
  | collected
deriving DecidableEq

/- What the calling thread is doing. -/
inductive Phase (α : Type) where
  | transferring
  | assembling (index position : Nat) (output : List α)
  | ended (result : Except RangeFailure Bool)

/- The target and the segment files. -/
structure Files (α : Type) where
  target : Option (List α)
  segments : Nat → Option (List α)

structure RangeDownload (α : Type) where
  files : Files α
  counts : Nat → Nat
  workers : Nat → Worker α
  probe : Option Nat
  proven : Bool
  abort : Bool
  fallback : Bool
  ignored : Bool
  stopped : Bool
  failure : Option RangeFailure
  -- The calling thread has noted a failure and not set the abort flag yet.
  failing : Bool
  -- The bytes `on_assembled_bytes` was called with.
  fed : List α
  phase : Phase α

/- The length of a file, zero when it is missing. -/
def size (file : Option (List α)) : Nat := (file.getD []).length

namespace Files

def setSegment (files : Files α) (k : Nat) (file : Option (List α)) : Files α :=
  { files with segments := Function.update files.segments k file }

/- `cleanup_ranges`. -/
def cleanupRanges (files : Files α) (plan : RangePlan) : Files α :=
  { files with segments := fun k => if k < plan.count then none else files.segments k }

end Files

namespace RangeDownload

def setWorker (download : RangeDownload α) (k : Nat) (worker : Worker α) : RangeDownload α :=
  { download with workers := Function.update download.workers k worker }

def setSegment (download : RangeDownload α) (k : Nat) (file : Option (List α)) : RangeDownload α :=
  { download with files := download.files.setSegment k file }

def interrupted (download : RangeDownload α) : Bool := download.stopped || download.abort

/- The part of `fail` under the lock: the first failure is the one that is kept. -/
def note (download : RangeDownload α) (failure : RangeFailure) : RangeDownload α :=
  { download with failure := download.failure.or (some failure) }

variable (plan : RangePlan) (download : RangeDownload α)

/- `sum(counts.values())`. -/
def progress : Nat := ((List.range plan.count).map download.counts).sum

----
-- A Worker
----

/- An exception leaves a try of `transfer`. A short body is tried again, three times in all. -/
def raiseIn (download : RangeDownload α) (k tries : Nat)
    (failure : RangeFailure) : RangeDownload α :=
  if failure = .truncated then
    if tries + 1 < 3 then download.setWorker k (.trying (tries + 1))
    else { download with fallback := true }.setWorker k (.exited .finished)
  else download.setWorker k (.exited (.failed failure))

/- The end of `_open` for a request that may go out. -/
def request (download : RangeDownload α) (k tries offset : Nat) : RangeDownload α :=
  if download.interrupted then download.raiseIn k tries .interrupted
  else download.setWorker k (.requesting tries offset)

/- The accepted response of `_transfer_body`. -/
def openFile (k tries offset : Nat) (response : Response α) : RangeDownload α :=
  (download.setSegment k (some ((download.files.segments k).getD []))).setWorker k
    (.streaming tries ((plan.segment k).last - offset + 1) response.chunks response.raises)

/- The next chunk of a body. -/
def receive (download : RangeDownload α) (k tries remaining : Nat) (raises : Option RangeFailure) :
    List (List α) → RangeDownload α
  | [] =>
    match raises with
    | some failure => download.raiseIn k tries failure
    | none =>
      if remaining ≠ 0 then download.raiseIn k tries .truncated
      else download.setWorker k (.exited .finished)
  | chunk :: chunks =>
    if download.interrupted then download.raiseIn k tries .interrupted
    else if remaining < chunk.length then
      -- The file is unlinked before the exception leaves.
      (download.setSegment k none).raiseIn k tries .rangeResponse
    else
      (download.setSegment k (some ((download.files.segments k).getD [] ++ chunk))).setWorker k
        (.counting tries (remaining - chunk.length) chunk.length chunks raises)

/-
  What `_open` does with an answer, move by move. Of an answer to the probe a failure is noted, then
  the flag is set, then the lock is free; a request without the lock only leaves.
-/
def settle (k tries offset : Nat) : Settling → Except Exit (Response α) → RangeDownload α
  | .noting, .error (.failed failure) =>
    (download.note failure).setWorker k
      (.settling .flagging tries offset (.error (.failed failure)))
  | .noting, outcome => download.setWorker k (.settling .flagging tries offset outcome)
  | .flagging, .ok response =>
    { download with proven := true }.setWorker k
      (.settling .releasing tries offset (.ok response))
  | .flagging, .error exit =>
    { download with abort := true }.setWorker k
      (.settling .releasing tries offset (.error exit))
  | .releasing, outcome =>
    { download with probe := none }.setWorker k (.settling .leaving tries offset outcome)
  | .leaving, .ok response => openFile plan download k tries offset response
  | .leaving, .error (.failed failure) => download.raiseIn k tries failure
  | .leaving, .error exit => download.setWorker k (.exited exit)

/- The next move of a worker on its own. -/
def work (k : Nat) : RangeDownload α :=
  match download.workers k with
  | .submitted =>
    if download.interrupted then download.setWorker k (.exited (.failed .interrupted))
    else download.setWorker k (.trying 0)
  | .trying tries =>
    let offset := (plan.segment k).start + download.counts k
    if download.interrupted then download.setWorker k (.exited (.failed .interrupted))
    else if (plan.segment k).last < offset then download.setWorker k (.exited .finished)
    else download.setWorker k (.opening tries offset)
  | .opening tries offset =>
    if download.proven then download.request k tries offset
    else download.setWorker k (.waiting tries offset)
  | .waiting tries offset =>
    if download.probe.isSome then download
    else if download.proven then download.request k tries offset
    else if download.interrupted then download.raiseIn k tries .interrupted
    else { download with probe := some k }.setWorker k (.probing tries offset)
  | .streaming tries remaining chunks raises => download.receive k tries remaining raises chunks
  | .counting tries remaining size chunks raises =>
    { download with
      counts := Function.update download.counts k (download.counts k + size) }.setWorker k
      (.streaming tries remaining chunks raises)
  | .settling stage tries offset outcome => download.settle plan k tries offset stage outcome
  | .probing _ _ => download
  | .requesting _ _ => download
  | .exited _ => download
  | .collected => download

/- What a move reports through `on_progress`. -/
def workReports (k : Nat) : List Nat :=
  match download.workers k with
  | .counting _ _ _ _ _ => [(download.work plan k).progress plan]
  | _ => []

/- The provider answers a worker's request. -/
def answered (k : Nat) (answer : Answer α) : RangeDownload α :=
  match download.workers k with
  | .probing tries offset =>
    download.setWorker k
      (.settling .noting tries offset (openChecked plan offset (plan.segment k).last answer))
  | .requesting tries offset =>
    download.setWorker k
      (.settling .leaving tries offset (openChecked plan offset (plan.segment k).last answer))
  | _ => download

----
-- The Calling Thread
----

/- `future.result()` of a worker that has ended, unless the thread is still in `fail`. -/
def collect (download : RangeDownload α) (k : Nat) : RangeDownload α :=
  if download.failing then download
  else
    match download.workers k with
    | .exited .finished => download.setWorker k .collected
    | .exited .ignored => { download with ignored := true, abort := true }.setWorker k .collected
    | .exited (.failed failure) =>
      { download.note failure with failing := true }.setWorker k .collected
    | _ => download

def isCollected : Worker α → Bool
  | .collected => true
  | _ => false

/- The decision after the pool has closed. -/
def close : RangeDownload α :=
  if download.ignored then
    { download with files := download.files.cleanupRanges plan, phase := .ended (.ok false) }
  else
    match download.failure with
    | some failure => { download with phase := .ended (.error failure) }
    | none =>
      if download.stopped then { download with phase := .ended (.error .interrupted) }
      else if download.fallback then { download with phase := .ended (.ok false) }
      else { download with phase := .assembling 0 0 [] }

/- The reads of the assembly are this long. -/
def assemblyChunk : Nat := 1024 * 1024

/- The next read of the assembly, or its end. -/
def assemble (index position : Nat) (output : List α) : RangeDownload α :=
  if plan.count ≤ index then
    { download with
      files := { download.files with target := some output }.cleanupRanges plan
      phase := .ended (.ok true) }
  else
    match download.files.segments index with
    | none => { download with phase := .ended (.ok false) }
    | some file =>
      if position = 0 ∧ file.length ≠ (plan.segment index).length then
        { download.setSegment index none with phase := .ended (.ok false) }
      else
        let chunk := (file.drop position).take assemblyChunk
        if chunk.isEmpty then { download with phase := .assembling (index + 1) 0 output }
        else if download.stopped then { download with phase := .ended (.error .interrupted) }
        else
          { download with
            fed := download.fed ++ chunk
            phase := .assembling index (position + chunk.length) (output ++ chunk) }

/- The next move of the calling thread. -/
def proceed : RangeDownload α :=
  match download.phase with
  | .transferring =>
    if download.failing then { download with abort := true, failing := false }
    else if (List.range plan.count).all fun k => isCollected (download.workers k) then
      download.close plan
    else download
  | .assembling index position output => download.assemble plan index position output
  | .ended _ => download

end RangeDownload

----
-- A Whole Call
----

inductive RangeInput (α : Type) where
  | stop
  | work (k : Nat)
  | answer (k : Nat) (answer : Answer α)
  | collect (k : Nat)
  | proceed

/- The state after a move, and what it reported. -/
structure RangeTurn (α : Type) where
  download : RangeDownload α
  reports : List Nat

def isTransferring : Phase α → Bool
  | .transferring => true
  | _ => false

namespace RangeDownload

/- One move. The workers exist while the pool is open, and there is one for each segment. -/
def serve (plan : RangePlan) (download : RangeDownload α) : RangeInput α → RangeTurn α
  | .stop => ⟨{ download with stopped := true }, []⟩
  | .proceed => ⟨download.proceed plan, []⟩
  | .work k =>
    if isTransferring download.phase ∧ k < plan.count then
      ⟨download.work plan k, download.workReports plan k⟩
    else ⟨download, []⟩
  | .answer k answer =>
    if isTransferring download.phase ∧ k < plan.count then ⟨download.answered plan k answer, []⟩
    else ⟨download, []⟩
  | .collect k =>
    if isTransferring download.phase ∧ k < plan.count then ⟨download.collect k, []⟩
    else ⟨download, []⟩

end RangeDownload

def rangeMachine (plan : RangePlan) : Machine (RangeDownload α) (RangeInput α) (RangeTurn α) where
  answer := fun download input => download.serve plan input
  next := fun turn => turn.download

/-
  The start of a segment: a file that is too long is dropped, and what the target already holds of
  the segment is copied. A short read of the target is a miss.
-/
def prepareSegment (segment : Segment) (target : Option (List α))
    (file : Option (List α)) : Option (List α) × Nat :=
  let kept := file.filter fun bytes => bytes.length ≤ segment.length
  let available := min (size target) (segment.last + 1) - segment.start
  if size kept < available then
    let copied := ((target.getD []).drop (segment.start + size kept)).take (available - size kept)
    if copied.length = available - size kept then (some (kept.getD [] ++ copied), available)
    else (some (kept.getD []), size kept)
  else (kept, size kept)

/- The state when the workers have been submitted. -/
def beginRanges (plan : RangePlan) (files : Files α) (stopped : Bool) : RangeDownload α :=
  let target := files.target.filter fun bytes => bytes.length ≤ plan.expectedBytes
  let prepared := fun k => prepareSegment (plan.segment k) target (files.segments k)
  { files :=
      { target := target
        segments := fun k =>
          if k < plan.count then (prepared k).1
          else files.segments k }
    counts := fun k => (prepared k).2
    workers := fun _ => .submitted
    probe := none
    proven := false
    abort := false
    fallback := false
    ignored := false
    stopped := stopped
    failure := none
    failing := false
    fed := []
    phase := .transferring }

/-
  What one call of `download_ranges` leaves behind. A call without a result was cut off by the end
  of the process.
-/
structure RangeOutcome (α : Type) where
  files : Files α
  reports : List Nat
  fed : List α
  result : Option (Except RangeFailure Bool)

/- A call's schedule: whether it starts stopped, its moves. -/
structure RangeSchedule (α : Type) where
  stopped : Bool
  moves : List (RangeInput α)

def reported
    (steps : List (Machine.Step (RangeDownload α) (RangeInput α) (RangeTurn α))) : List Nat :=
  steps.flatMap fun step => step.output.reports

def result : Phase α → Option (Except RangeFailure Bool)
  | .ended result => some result
  | _ => none

/- `download_ranges`. -/
def downloadRanges (plan : RangePlan) (files : Files α)
    (schedule : RangeSchedule α) : RangeOutcome α :=
  if plan.valid then
    let begun := beginRanges plan files schedule.stopped
    let ended := (rangeMachine plan).final begun schedule.moves
    { files := ended.files
      reports := begun.progress plan :: reported ((rangeMachine plan).trace begun schedule.moves)
      fed := ended.fed
      result := result ended.phase }
  else ⟨files, [], [], some (.error .valueError)⟩

/- Calls on one target, one after the other. -/
def callsMachine (plan : RangePlan) : Machine (Files α) (RangeSchedule α) (RangeOutcome α) where
  answer := fun files schedule => downloadRanges plan files schedule
  next := fun outcome => outcome.files

end VonkForge.Cache
