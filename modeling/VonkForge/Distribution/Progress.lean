import VonkForge.Distribution.Record

/-
  The bytes a distribution reports.

  Every object counts the bytes its ranges accept and reports the count from time to time. The
  operation keeps the highest count of each object and reports their sum. Objects and ranges move in
  any order; more of them at once than the streams allow is harmless here. The phase of a report,
  the file operations and the order of the objects have no part in the counts and are left out.

  Source: `Accepted`, `download_assignment_with_progress`, `download_trusted_object_with_progress`
  and `DistributionProgressTracker`.

  Main declarations:
    * `Tracker.report`
    * `RangeTransfer.counted_serve`
    * `Exact.serve`
    * `progress_never_overstates`
-/

namespace VonkForge.Distribution

----
-- The Tracker of an Operation
----

structure DistributionObject where
  sha256 : String
  kind : String
  bytes : Nat
deriving DecidableEq

def totalOf (objects : List DistributionObject) : Nat := (objects.map DistributionObject.bytes).sum

/- What is shown to the Controller, without its phase. -/
structure DistributionProgress where
  completedItems : Nat
  totalItems : Nat
  objectSha256 : String
  kind : String
  bytes : Nat
  totalBytes : Option Nat
deriving DecidableEq

/- Not more than the total is shown, of the total. -/
def DistributionProgress.Within (objects : List DistributionObject)
    (progress : DistributionProgress) : Prop :=
  progress.bytes ≤ totalOf objects ∧ progress.totalBytes = some (totalOf objects)

structure Tracker where
  objectBytes : List Nat
  bytes : Nat
  completedItems : Nat
  totalBytes : Nat
deriving DecidableEq

/- The tracker after a report, and what it showed. -/
structure Told where
  tracker : Tracker
  progress : List DistributionProgress
deriving DecidableEq

namespace Tracker

def begin (objects : List DistributionObject) : Tracker where
  objectBytes := List.replicate objects.length 0
  bytes := 0
  completedItems := 0
  totalBytes := totalOf objects

/- The tracker that `report` leaves. -/
def after (tracker : Tracker) (index bytes : Nat) (completed : Bool) : Tracker where
  objectBytes := tracker.objectBytes.set index (max (tracker.objectBytes.getD index 0) bytes)
  bytes := tracker.bytes + (bytes - tracker.objectBytes.getD index 0)
  completedItems := tracker.completedItems + completed.toNat
  totalBytes := tracker.totalBytes

def report (tracker : Tracker) (index : Nat) (object : DistributionObject)
    (bytes : Nat) (completed : Bool) : Told where
  tracker := tracker.after index bytes completed
  progress :=
    [{ completedItems :=
        (tracker.after index bytes completed).completedItems
       totalItems := tracker.objectBytes.length
       objectSha256 := object.sha256
       kind := object.kind
       bytes := (tracker.after index bytes completed).bytes
       totalBytes := some tracker.totalBytes }]

/- The reports of one object, one after the other. -/
def reportAll (tracker : Tracker) (index : Nat) (object : DistributionObject) : List Nat → Told
  | [] => ⟨tracker, []⟩
  | bytes :: counts =>
    let now := tracker.report index object bytes false
    let rest := reportAll now.tracker index object counts
    ⟨rest.tracker, now.progress ++ rest.progress⟩

end Tracker

----
-- The Counter of an Object
----

/- `Accepted`, and the counts that it passed on. -/
structure Counter where
  bytes : Nat
  counts : List Nat
deriving DecidableEq

/- `Accepted::add` passes the count on if the last report is old enough. -/
def Counter.note (due : Bool) (counter : Counter) : Effect → Counter
  | .add count =>
    { bytes := counter.bytes + count
      counts :=
        if due then counter.counts ++ [counter.bytes + count]
        else counter.counts }
  | .report =>
    { counter with counts := counter.counts ++ [counter.bytes] }
  | _ => counter

----
-- One Object
----

/- Where the transfer of an object stands. -/
inductive ObjectStage where
  | fresh
  | moving (accepted : Nat) (lanes : List RangeFetch)
  -- A range failed: what is recorded is synced.
  | failing
  -- All ranges are in the file.
  | fetched
  -- The file is whole and checked.
  | finalizing
  | done
  | lost

inductive ObjectEvent where
  -- The object is there already.
  | found
  | adopted (file : List UInt8) (length : Nat) (rangeBytes : ℕ+)
  | range (lane : Nat) (event : FetchEvent) (due : Bool)
  | collected
  | finished
  | published
  | failed

/- An object after an event, and what it reported. -/
structure ObjectServed where
  stage : ObjectStage
  counts : List Nat
  completes : Bool

def Stage.endedWell : Stage → Bool
  | .ended (.ok _) => true
  | _ => false

def Stage.endedBadly : Stage → Bool
  | .ended (.error _) => true
  | _ => false

namespace DistributionObject

variable (object : DistributionObject)

def transfer : RangeTransfer where
  sha256 := object.sha256
  total := object.bytes

/- The checkpoint of the partial file is taken over. -/
def adopted : Option Adopted → ObjectServed
  | none => ⟨.lost, [], false⟩
  | some found =>
    ⟨.moving (object.bytes - remaining found.pending) (found.pending.map RangeFetch.begin),
        [object.bytes - remaining found.pending], false⟩

variable (accepted : Nat) (lanes : List RangeFetch)

/- One event of a range. A range that fails drops the other ones. -/
def serveRange (lane : Nat) (event : FetchEvent) (due : Bool) : ObjectServed :=
  match lanes[lane]? with
  | none => ⟨.moving accepted lanes, [], false⟩
  | some fetch =>
    let served := object.transfer.serve fetch event
    let counter := served.effects.foldl (Counter.note due) ⟨accepted, []⟩
    ⟨if served.fetch.stage.endedBadly then
        .failing
      else .moving counter.bytes (lanes.set lane served.fetch),
      counter.counts, false⟩

/- The ranges are collected once all of them are there. -/
def collect : ObjectServed :=
  if lanes.all (fun fetch => fetch.stage.endedWell) then ⟨.fetched, [object.bytes], false⟩
  else ⟨.moving accepted lanes, [], false⟩

def serve (stage : ObjectStage) (event : ObjectEvent) : ObjectServed :=
  match stage, event with
  | .fresh, .found => ⟨.done, [], true⟩
  | .fresh, .adopted file length rangeBytes =>
    object.adopted (adopt file length object.bytes rangeBytes)
  | .fresh, .failed => ⟨.lost, [], false⟩
  | .moving accepted lanes, .range lane event due => object.serveRange accepted lanes lane event due
  | .moving accepted lanes, .collected => object.collect accepted lanes
  | .moving _ _, .failed => ⟨.lost, [], false⟩
  | .failing, .failed => ⟨.lost, [], false⟩
  | .fetched, .finished => ⟨.finalizing, [object.bytes], false⟩
  | .fetched, .failed => ⟨.lost, [], false⟩
  | .finalizing, .published => ⟨.done, [], true⟩
  | .finalizing, .failed => ⟨.lost, [], false⟩
  | stage, _ => ⟨stage, [], false⟩

end DistributionObject

----
-- The Operation
----

def ObjectStage.isDone : ObjectStage → Bool
  | .done => true
  | _ => false

def ObjectStage.isLost : ObjectStage → Bool
  | .lost => true
  | _ => false

structure Operation where
  tracker : Tracker
  stages : List ObjectStage
  failed : Bool

structure OperationEvent where
  index : Nat
  event : ObjectEvent

/- The operation after an event, the byte counts its object reported and what was shown. -/
structure OperationServed where
  operation : Operation
  counts : List Nat
  progress : List DistributionProgress

namespace Operation

def begin (objects : List DistributionObject) : Operation where
  tracker := .begin objects
  stages := objects.map (fun _ => .fresh)
  failed := false

/- The reports of one object. -/
def tell (tracker : Tracker) (index : Nat) (object : DistributionObject)
    (served : ObjectServed) : Told :=
  let moved := tracker.reportAll index object served.counts
  if served.completes then
    let whole := moved.tracker.report index object object.bytes true
    ⟨whole.tracker, moved.progress ++ whole.progress⟩
  else moved

/- One event of one object. -/
def serveObject (operation : Operation) (index : Nat)
    (object : DistributionObject) (stage : ObjectStage) (event : ObjectEvent) : OperationServed :=
  let served := object.serve stage event
  let told := tell operation.tracker index object served
  { operation :=
      { tracker := told.tracker
        stages := operation.stages.set index served.stage
        failed := served.stage.isLost }
    counts := served.counts ++ (if served.completes then [object.bytes] else [])
    progress := told.progress }

/- An object that is lost ends the operation. -/
def serve (objects : List DistributionObject) (operation : Operation)
    (input : OperationEvent) : OperationServed :=
  if operation.failed then ⟨operation, [], []⟩
  else
    match objects[input.index]?, operation.stages[input.index]? with
    | some object, some stage => operation.serveObject input.index object stage input.event
    | _, _ => ⟨operation, [], []⟩

/- `downloaded_bytes`, once every object is there. -/
def downloadedBytes (operation : Operation) : Option Nat :=
  if operation.stages.all ObjectStage.isDone then some operation.tracker.bytes
  else none

end Operation

def operationMachine (objects : List DistributionObject) :
    Machine Operation OperationEvent OperationServed where
  answer := Operation.serve objects
  next := OperationServed.operation

abbrev OperationStep : Type := Machine.Step Operation OperationEvent OperationServed

/- The byte counts one object reported in a run. -/
def countsOf (index : Nat) (steps : List OperationStep) : List Nat :=
  steps.flatMap (fun step =>
    if step.input.index = index then step.output.counts
    else [])

----
-- Sums of High-Water Marks
----

/- A mark that is raised raises the sum by the difference. -/
theorem sum_set_max (marks : List Nat) {index : Nat} (hIndex : index < marks.length) (count : Nat) :
    (marks.set index (max (marks.getD index 0) count)).sum = marks.sum +
    (count - marks.getD index 0) := by
  induction marks generalizing index with
  | nil => exact absurd hIndex (Nat.not_lt_zero _)
  | cons _ _ ih =>
    cases index with
    | zero =>
      simp only [List.set_cons_zero, List.sum_cons, List.getD_cons_zero]
      omega
    | succ =>
      have hRest := ih (Nat.lt_of_succ_lt_succ hIndex)
      simp only [List.set_cons_succ, List.sum_cons, List.getD_cons_succ] at hRest ⊢
      omega

/- The marks of the objects are in their sizes, and the sum of the operation is their sum. -/
structure Tracker.Fits (tracker : Tracker) (objects : List DistributionObject) : Prop where
  sum : tracker.bytes = tracker.objectBytes.sum
  total : tracker.totalBytes = totalOf objects
  length : tracker.objectBytes.length = objects.length
  marks : ∀ (index : Nat) object, objects[index]? = some object →
    tracker.objectBytes.getD index 0 ≤ object.bytes

/- Sums of numbers that are smaller one by one. -/
theorem sum_marks_le {marks : List Nat} {objects : List DistributionObject}
    (hLength : marks.length = objects.length)
    (hMarks : ∀ (index : Nat) object, objects[index]? = some object →
      marks.getD index 0 ≤ object.bytes) : marks.sum ≤ totalOf objects := by
  induction marks generalizing objects with
  | nil => exact Nat.zero_le _
  | cons _ _ ih =>
    cases objects with
    | nil => cases hLength
    | cons object =>
      have hHere := hMarks 0 object rfl
      have hRest := ih (Nat.succ.inj hLength) (fun index => hMarks (index + 1))
      rw [List.getD_cons_zero] at hHere
      simp only [totalOf, List.map_cons, List.sum_cons] at hRest ⊢
      omega

namespace Tracker.Fits

variable {tracker : Tracker} {objects : List DistributionObject} {object : DistributionObject}
variable {index : Nat}

theorem begin (objects : List DistributionObject) : (Tracker.begin objects).Fits objects := by
  constructor
  · simp [Tracker.begin]
  · rfl
  · simp [Tracker.begin]
  · intro _ _ _
    simp [Tracker.begin, List.getD_eq_getElem?_getD, List.getElem?_replicate]
    split <;> simp

theorem bytes_le (hFits : tracker.Fits objects) : tracker.bytes ≤ tracker.totalBytes := by
  rw [hFits.sum, hFits.total]
  exact sum_marks_le hFits.length hFits.marks

/- The marks after a report. -/
theorem mark_after (hIndex : index < tracker.objectBytes.length) (count : Nat)
    (completed : Bool) (other : Nat) : (tracker.after index count completed).objectBytes.getD
        other 0 =
      if index = other then max (tracker.objectBytes.getD index 0) count
      else
        tracker.objectBytes.getD other 0 := by
  unfold Tracker.after
  simp only [List.getD_eq_getElem?_getD]
  by_cases hSame : index = other
  · rw [if_pos hSame, ← hSame, List.getElem?_set_self hIndex]
    rfl
  · rw [if_neg hSame, List.getElem?_set_ne hSame]

section

variable (hFits : tracker.Fits objects) (hObject : objects[index]? = some object)

include hFits hObject

theorem after {count : Nat}
    (hCount : count ≤ object.bytes) (completed : Bool) :
    (tracker.after index count completed).Fits objects := by
  have hIndex : index < tracker.objectBytes.length := by
    rw [hFits.length]
    exact (List.getElem?_eq_some_iff.mp hObject).1
  constructor
  · change tracker.bytes + _ = _
    rw [hFits.sum]
    exact (sum_set_max _ hIndex count).symm
  · exact hFits.total
  · simpa [Tracker.after] using hFits.length
  · intro other another hOther
    rw [mark_after hIndex]
    split
    · next hSame =>
        subst hSame
        rw [hObject] at hOther
        cases hOther
        exact max_le (hFits.marks index object hObject) hCount
    · exact hFits.marks other another hOther

/- Every report shows at most the total. -/
theorem report_le
    {count : Nat} (hCount : count ≤ object.bytes) (completed : Bool) :
    ∀ progress ∈ (tracker.report index object count completed).progress, progress.Within objects :=
    by
  intro _ hProgress
  have hAfter := hFits.after hObject hCount completed
  have hLe := hAfter.bytes_le
  rw [hAfter.total] at hLe
  rw [List.mem_singleton.mp hProgress]
  exact ⟨hLe, congrArg some hFits.total⟩

/- A list of counts is reported one after the other. -/
theorem reportAll {counts : List Nat}
    (hCounts : ∀ count ∈ counts, count ≤ object.bytes) :
    (tracker.reportAll index object counts).tracker.Fits
        objects ∧
      (∀ progress ∈ (tracker.reportAll index object counts).progress, progress.Within objects) ∧
      ∀ other,
        (tracker.reportAll index object counts).tracker.objectBytes.getD other 0 =
          if index = other then counts.foldl max (tracker.objectBytes.getD index 0)
          else
            tracker.objectBytes.getD other 0 := by
  induction counts generalizing tracker with
  | nil =>
    refine ⟨hFits, ?_, ?_⟩
    · intro _ hProgress
      exact absurd hProgress List.not_mem_nil
    · intro other
      split
      · next hSame =>
          rw [← hSame]
          rfl
      · rfl
  | cons count counts ih =>
    have hIndex : index < tracker.objectBytes.length := by
      rw [hFits.length]
      exact (List.getElem?_eq_some_iff.mp hObject).1
    have hCount := hCounts count List.mem_cons_self
    have hNow := hFits.after hObject hCount false
    rcases ih hNow (fun other hOther => hCounts other (List.mem_cons_of_mem _ hOther)) with
      ⟨hRest, hShown, hMarks⟩
    refine ⟨hRest, ?_, ?_⟩
    · intro progress hProgress
      rcases List.mem_append.mp hProgress with hHere | hLater
      · exact hFits.report_le hObject hCount false progress hHere
      · exact hShown progress hLater
    · intro other
      change ((tracker.after index count false).reportAll index object
          counts).tracker.objectBytes.getD other 0 = _
      rw [hMarks other, mark_after hIndex, mark_after hIndex, if_pos rfl, List.foldl_cons]
      split <;> rfl

end

end Tracker.Fits

----
-- Bytes of a Range
----

/- A write that gives accepted bytes up ends its range: its error is not retried. -/
def KeepsAccepted (fetch : RangeFetch) (event : FetchEvent) : Prop :=
  ∀ final error, fetch.stage = .writing final → event = .written (.error error) →
    fetch.buffer ≠ [] → ¬ (error.mayRetry ∧ fetch.dropped.retriesAfter < maxAttempts)

/-
  An event of a range: the count grows by what the offset grew by, and what is passed on is the new
  count.
-/
structure Counted (fetch : RangeFetch) (accepted : Nat) (due : Bool) (served : Served) : Prop where
  counted : ∃ added, (served.effects.foldl (Counter.note due) ⟨accepted, []⟩).bytes = accepted +
    added ∧ ((served.effects.foldl (Counter.note due) ⟨accepted, []⟩).counts = [] ∨
      (served.effects.foldl (Counter.note due) ⟨accepted, []⟩).counts = [accepted + added]) ∧
    ((served.fetch.stage.endedBadly = true ∧ added = 0) ∨
      served.fetch.offset = fetch.offset + added)

namespace Counted

variable {fetch : RangeFetch} {accepted : Nat} {due : Bool}

/- Nothing is counted and the offset stays. -/
theorem quiet {served : Served} (hOffset : served.fetch.offset = fetch.offset)
    (hBytes : (served.effects.foldl (Counter.note due) ⟨accepted, []⟩).bytes = accepted)
    (hCounts : (served.effects.foldl (Counter.note due) ⟨accepted, []⟩).counts = [] ∨
      (served.effects.foldl (Counter.note due) ⟨accepted, []⟩).counts = [accepted]) :
    Counted fetch accepted due served := ⟨0, hBytes, hCounts, Or.inr hOffset⟩

theorem settle {ended : RangeFetch} (hOffset : ended.offset = fetch.offset)
    (attempt : Except ClientError Unit) : Counted fetch accepted due (ended.settle attempt) := by
  cases attempt with
  | ok => exact quiet hOffset rfl (Or.inl rfl)
  | error error =>
    rcases ended.settle_error error with ⟨_, hEq⟩ | hEq
    · rw [hEq]
      exact quiet hOffset rfl (Or.inr rfl)
    · rw [hEq]
      exact quiet hOffset rfl (Or.inl rfl)

theorem accept (bytes : List UInt8)
    {served : Served} (hOffset : served.fetch.offset = fetch.offset + bytes.length)
    (hEffects : served.effects.foldl (Counter.note due) ⟨accepted, []⟩ =
      Counter.note due ⟨accepted, []⟩ (.add bytes.length)) : Counted fetch accepted due served := by
  refine ⟨bytes.length, ?_, ?_, Or.inr hOffset⟩
  · rw [hEffects]
    rfl
  · rw [hEffects]
    cases due with
    | true => exact Or.inr rfl
    | false => exact Or.inl rfl

/- Bytes that are given up for good are counted no more. -/
theorem dropped (hSound : Sound fetch) (error : ClientError)
    (hKeeps : fetch.buffer ≠ [] → ¬ (error.mayRetry ∧ fetch.dropped.retriesAfter < maxAttempts)) :
    Counted fetch accepted due (fetch.dropped.settle (.error error)) := by
  by_cases hEmpty : fetch.buffer = []
  · apply settle
    have hPlace := hSound.place_add
    rw [hEmpty] at hPlace
    exact hPlace
  · have hEq : fetch.dropped.settle (.error error) = ⟨fetch.dropped.giveUp error, []⟩ :=
      if_neg (hKeeps hEmpty)
    rw [hEq]
    exact ⟨0, rfl, Or.inl rfl, Or.inl ⟨rfl, rfl⟩⟩

end Counted

/- One event of a range counts what it accepts. -/
theorem RangeTransfer.counted_serve
    (transfer : RangeTransfer)
    {fetch : RangeFetch}
    {event : FetchEvent}
    (hSound : Sound fetch)
    (hKeeps : KeepsAccepted fetch event)
    (accepted : Nat)
    (due : Bool) :
    Counted fetch accepted due (transfer.serve fetch event) := by
  have hHappened := RangeTransfer.serve_happened transfer fetch event
  generalize transfer.serve fetch event = served at hHappened ⊢
  cases hHappened with
  | granted | opened | closed | wrote | recorded | idle => exact .quiet rfl rfl (Or.inl rfl)
  | failed => exact .settle rfl _
  | accepted bytes | filled bytes => exact .accept bytes rfl rfl
  | wroteAll =>
    have hOffset : fetch.wrote.offset = fetch.offset := rfl
    exact .settle hOffset _
  | dropped final error hStage => exact .dropped hSound error (hKeeps final error hStage rfl)

----
-- The Count of an Object
----

/- The bytes a range has not accepted yet. -/
def RangeFetch.left (fetch : RangeFetch) : Nat := fetch.range.last + 1 - fetch.offset

def leftOf (lanes : List RangeFetch) : Nat := (lanes.map RangeFetch.left).sum

/- What a stage says of the highest count reported. -/
def DistributionObject.Exact (object : DistributionObject) (mark : Nat) : ObjectStage → Prop
  | .fresh => mark = 0
  | .moving accepted lanes =>
    mark ≤ accepted ∧ accepted + leftOf lanes = object.bytes ∧ ∀ fetch ∈ lanes, Sound fetch
  | .done => mark = object.bytes
  | _ => mark ≤ object.bytes

/- An event of an object that keeps its count exact. -/
structure DistributionObject.Told (object : DistributionObject) (mark : Nat)
    (served : ObjectServed) : Prop where
  rises : ∀ count ∈ served.counts, mark ≤ count
  ordered : served.counts.Pairwise (· ≤ ·)
  within : ∀ count ∈ served.counts, count ≤ object.bytes
  exact : object.Exact
      (if served.completes then object.bytes
      else served.counts.foldl max mark)
      served.stage

/- Lanes that begin have all their bytes left. -/
theorem leftOf_begin (pending : List PendingRange) :
    leftOf (pending.map RangeFetch.begin) = remaining pending := by
  unfold leftOf remaining
  rw [List.map_map]
  rfl

/- What is left after one lane moved. -/
theorem leftOf_set {lanes : List RangeFetch} {lane : Nat}
    {fetch next : RangeFetch} (hLane : lanes[lane]? = some fetch) {added : Nat}
    (hLeft : next.left + added = fetch.left) : leftOf (lanes.set lane next) + added =
      leftOf lanes := by
  induction lanes generalizing lane with
  | nil => cases hLane
  | cons _ _ ih =>
    cases lane with
    | zero =>
      cases hLane
      simp only [leftOf, List.set_cons_zero, List.map_cons, List.sum_cons]
      omega
    | succ =>
      have hRest := ih hLane
      simp only [leftOf, List.set_cons_succ, List.map_cons, List.sum_cons] at hRest ⊢
      omega

namespace DistributionObject

variable {object : DistributionObject} {mark : Nat} {stage : ObjectStage}

/- Nothing is reported. -/
theorem told_quiet (hExact : object.Exact mark stage) : object.Told mark ⟨stage, [], false⟩ where
  rises := by simp
  ordered := List.Pairwise.nil
  within := by simp
  exact := hExact

/- One count is reported. -/
theorem told_count {count : Nat} (hRises : mark ≤ count)
    (hWithin : count ≤ object.bytes) (hExact : object.Exact count stage) :
    object.Told mark ⟨stage, [count], false⟩ where
  rises := by simpa using hRises
  ordered := List.pairwise_singleton _ _
  within := by simpa using hWithin
  exact := by
    change object.Exact (max mark count) stage
    rw [max_eq_right hRises]
    exact hExact

/- A whole object is reported whole. -/
theorem told_done : object.Told mark ⟨.done, [], true⟩ where
  rises := by simp
  ordered := List.Pairwise.nil
  within := by simp
  exact := rfl

theorem exact_le (hExact : object.Exact mark stage) : mark ≤ object.bytes := by
  cases stage with
  | fresh =>
    have hZero : mark = 0 := hExact
    omega
  | moving =>
    have hLe := hExact.1
    have hSum := hExact.2.1
    omega
  | done => exact Nat.le_of_eq hExact
  | failing | fetched | finalizing | lost => exact hExact

theorem told_adopted (hMark : mark = 0) (file : List UInt8) (length : Nat) (rangeBytes : ℕ+) :
    object.Told mark (object.adopted (adopt file length object.bytes rangeBytes)) := by
  cases hAdopt : adopt file length object.bytes rangeBytes with
  | none =>
    apply told_quiet
    change mark ≤ object.bytes
    omega
  | some =>
    have hSound := adopt_sound rangeBytes.pos hAdopt
    have hFits := hSound.fits
    apply told_count
    · omega
    · omega
    · refine ⟨Nat.le_refl _, ?_, ?_⟩
      · rw [leftOf_begin]
        omega
      · intro _ hFetch
        rcases List.mem_map.mp hFetch with ⟨range, hRange, rfl⟩
        have hOrder := (hSound.ordered range hRange).1
        exact .begin (Nat.le_succ_of_le hOrder)

variable {lanes : List RangeFetch}

/- A range event reports the new count, if it reports. -/
theorem told_serveRange {accepted : Nat}
    (hExact : object.Exact mark (.moving accepted lanes)) (lane : Nat) (event : FetchEvent)
    (due : Bool) (hKeeps : ∀ fetch, lanes[lane]? = some fetch → KeepsAccepted fetch event) :
    object.Told mark (object.serveRange accepted lanes lane event due) := by
  cases hLane : lanes[lane]? with
  | none =>
    rw [serveRange, hLane]
    exact told_quiet hExact
  | some fetch =>
    rcases hExact with ⟨_, _, hLanes⟩
    have hSound : Sound fetch := hLanes fetch (List.mem_of_getElem? hLane)
    have hNext : Sound (object.transfer.serve fetch event).fetch :=
      RangeTransfer.sound_serve hSound event
    have hRange := object.transfer.range_serve fetch event
    rcases
        (object.transfer.counted_serve hSound (hKeeps fetch hLane) accepted due).counted with
      ⟨added, hBytes, hCounts, hOffset⟩
    rw [serveRange, hLane]
    simp only
    generalize object.transfer.serve fetch event = served at hNext hRange hBytes hCounts hOffset ⊢
    -- The stage after the event is exact for the new count.
    have hStage : accepted + added ≤ object.bytes ∧ ∀ new, new ≤ accepted + added → object.Exact new
              (if served.fetch.stage.endedBadly then .failing
              else
                .moving
                  (served.effects.foldl (Counter.note due) ⟨accepted, []⟩).bytes
                  (lanes.set lane served.fetch)) := by
      rcases hOffset with ⟨hBad, _⟩ | _
      · refine ⟨by omega, ?_⟩
        intro new _
        rw [if_pos hBad]
        change new ≤ object.bytes
        omega
      · have hWithin := hNext.within
        have hLeft : served.fetch.left + added = fetch.left := by
          unfold RangeFetch.left
          rw [hRange] at hWithin ⊢
          omega
        have hSet := leftOf_set hLane hLeft
        refine ⟨by omega, ?_⟩
        intro new _
        split
        · change new ≤ object.bytes
          omega
        · refine ⟨by omega, by omega, ?_⟩
          intro other hOther
          rcases List.mem_or_eq_of_mem_set hOther with hOld | rfl
          · exact hLanes other hOld
          · exact hNext
    rcases hCounts with hNone | hOne
    · rw [hNone]
      exact told_quiet (hStage.2 mark (by omega))
    · rw [hOne]
      exact told_count (by omega) hStage.1 (hStage.2 _ (Nat.le_refl _))

theorem told_collect {accepted : Nat}
    (hExact : object.Exact mark (.moving accepted lanes)) :
    object.Told mark (object.collect accepted lanes) := by
  have hLe := exact_le hExact
  unfold collect
  split
  · exact told_count hLe (Nat.le_refl _) (Nat.le_refl _)
  · exact told_quiet hExact

/- An event of a range that is about to move. -/
def KeepsCounts (stage : ObjectStage) (event : ObjectEvent) : Prop :=
  ∀ accepted lanes lane fetch happened due, stage = .moving accepted lanes →
    event = .range lane happened due → lanes[lane]? = some fetch → KeepsAccepted fetch happened

/- Every event of an object keeps its count exact. -/
theorem told_serve {event : ObjectEvent} (hExact : object.Exact mark stage)
    (hKeeps : KeepsCounts stage event) : object.Told mark (object.serve stage event) := by
  have hLe := exact_le hExact
  unfold serve
  split
  · exact told_done
  · exact told_adopted hExact _ _ _
  · exact told_quiet hLe
  · next lane happened due =>
      apply told_serveRange hExact
      intro fetch hLane
      exact hKeeps _ _ lane fetch happened due rfl rfl hLane
  · exact told_collect hExact
  · exact told_quiet hLe
  · exact told_quiet hLe
  · exact told_count hLe (Nat.le_refl _) (Nat.le_refl _)
  · exact told_quiet hLe
  · exact told_done
  · exact told_quiet hLe
  · exact told_quiet hExact

end DistributionObject

----
-- The Counts of an Operation
----

/- The highest count of one object. -/
def Operation.mark (operation : Operation) (index : Nat) : Nat :=
  operation.tracker.objectBytes.getD index 0

structure Operation.Exact (operation : Operation) (objects : List DistributionObject) : Prop where
  fits : operation.tracker.Fits objects
  length : operation.stages.length = objects.length
  each : ∀ (index : Nat) object stage, objects[index]? = some object →
    operation.stages[index]? = some stage → object.Exact (operation.mark index) stage

/- What an event of an exact operation does. -/
structure OperationServed.Kept (objects : List DistributionObject)
    (before : Operation) (index : Nat) (served : OperationServed) : Prop where
  exact : served.operation.Exact objects
  marks : ∀ other, before.mark other ≤ served.operation.mark other
  ordered : served.counts.Pairwise (· ≤ ·)
  rises : ∀ count ∈ served.counts, before.mark index ≤ count ∧ count ≤ served.operation.mark index
  shown : ∀ progress ∈ served.progress, progress.Within objects

theorem le_foldl_max (counts : List Nat) (mark : Nat) :
    mark ≤ counts.foldl max mark ∧ ∀ count ∈ counts, count ≤ counts.foldl max mark := by
  induction counts generalizing mark with
  | nil => simp
  | cons first _ ih =>
    rcases ih (max mark first) with ⟨hMark, hCounts⟩
    have hLeft := le_max_left mark first
    have hRight := le_max_right mark first
    refine ⟨hLeft.trans hMark, ?_⟩
    intro count hCount
    rcases List.mem_cons.mp hCount with rfl | hRest
    · exact hRight.trans hMark
    · exact hCounts count hRest

namespace Operation

variable {objects : List DistributionObject} {operation : Operation} {object : DistributionObject}
variable {index : Nat}

theorem Exact.begin (objects : List DistributionObject) :
    (Operation.begin objects).Exact objects := by
  constructor
  · exact .begin objects
  · simp [Operation.begin]
  · intro _ _ stage hObject hStage
    have hFresh : stage = .fresh := by
      rw [Operation.begin, List.getElem?_map, hObject] at hStage
      exact (Option.some.inj hStage).symm
    rw [hFresh]
    simp only [DistributionObject.Exact, mark, Operation.begin, Tracker.begin,
      List.getD_eq_getElem?_getD, List.getElem?_replicate]
    split <;> rfl

/- What the tracker is told of one object. -/
theorem Exact.tell (hFits : operation.tracker.Fits objects)
    (hObject : objects[index]? = some object) {served : ObjectServed}
    (hTold : object.Told (operation.mark index) served) : (tell operation.tracker index object
        served).tracker.Fits objects ∧
      (∀ progress ∈ (tell operation.tracker index object served).progress, progress.Within objects)
        ∧ ∀ other,
        (tell operation.tracker index object served).tracker.objectBytes.getD other 0 =
          if index = other then
            if served.completes then object.bytes
            else served.counts.foldl max (operation.mark index)
          else
            operation.mark other := by
  rcases hFits.reportAll hObject hTold.within with ⟨hMoved, hShown, hMarks⟩
  unfold Operation.tell
  cases hWhole : served.completes with
  | false => exact ⟨hMoved, hShown, hMarks⟩
  | true =>
    have hBytes := Nat.le_refl object.bytes
    refine ⟨hMoved.after hObject hBytes true, ?_, ?_⟩
    · intro progress hProgress
      rcases List.mem_append.mp hProgress with hEarlier | hLast
      · exact hShown progress hEarlier
      · exact hMoved.report_le hObject hBytes true progress hLast
    · intro other
      have hIndex : index < (operation.tracker.reportAll index object
            served.counts).tracker.objectBytes.length := by
        rw [hMoved.length]
        exact (List.getElem?_eq_some_iff.mp hObject).1
      have hMark := hMoved.marks index object hObject
      change ((operation.tracker.reportAll index object served.counts).tracker.after index
          object.bytes true).objectBytes.getD other 0 = _
      rw [Tracker.Fits.mark_after hIndex, max_eq_right hMark, hMarks other]
      split
      · rfl
      · rfl

/- One event of an object that is known. -/
theorem Exact.serveObject (hExact : operation.Exact objects)
    (hObject : objects[index]? = some object)
    {stage : ObjectStage} (hStage : operation.stages[index]? = some stage)
    {event : ObjectEvent} (hKeeps : DistributionObject.KeepsCounts stage event) :
    (operation.serveObject index object stage event).Kept objects operation index := by
  have hTold := DistributionObject.told_serve (hExact.each index object stage hObject hStage) hKeeps
  have hMark := hExact.fits.marks index object hObject
  unfold Operation.serveObject
  simp only
  generalize object.serve stage event = served at hTold ⊢
  rcases Exact.tell hExact.fits hObject hTold with ⟨hFits, hShown, hMarks⟩
  have hHigh := le_foldl_max served.counts (operation.mark index)
  constructor
  · constructor
    · exact hFits
    · simpa using hExact.length
    · intro other another next hOther hNext
      rw [mark, hMarks other]
      by_cases hSame : index = other
      · subst hSame
        rw [hObject] at hOther
        cases hOther
        have hLength : index < operation.stages.length := (List.getElem?_eq_some_iff.mp hStage).1
        rw [List.getElem?_set_self hLength] at hNext
        cases hNext
        rw [if_pos rfl]
        exact hTold.exact
      · rw [if_neg hSame]
        rw [List.getElem?_set_ne hSame] at hNext
        exact hExact.each other another next hOther hNext
  · intro other
    change _ ≤
      (Operation.tell operation.tracker index object served).tracker.objectBytes.getD other 0
    rw [hMarks other]
    split
    · next hSame =>
        rw [← hSame]
        split
        · exact hMark
        · exact hHigh.1
    · exact Nat.le_refl _
  · rw [List.pairwise_append]
    refine ⟨hTold.ordered, ?_, ?_⟩
    · split
      · exact List.pairwise_singleton _ _
      · exact List.Pairwise.nil
    · intro count hCount _ hLast
      split at hLast
      · rw [List.mem_singleton.mp hLast]
        exact hTold.within count hCount
      · exact absurd hLast List.not_mem_nil
  · intro count hCount
    change operation.mark index ≤ count ∧ count ≤
      (Operation.tell operation.tracker index object served).tracker.objectBytes.getD index 0
    rw [hMarks index, if_pos rfl]
    rcases List.mem_append.mp hCount with hOwn | hWhole
    · refine ⟨hTold.rises count hOwn, ?_⟩
      split
      · exact hTold.within count hOwn
      · exact hHigh.2 count hOwn
    · split at hWhole
      · next hCompletes =>
          rw [List.mem_singleton.mp hWhole, if_pos hCompletes]
          exact ⟨hMark, Nat.le_refl _⟩
      · exact absurd hWhole List.not_mem_nil
  · exact hShown

/- Nothing happens. -/
theorem Exact.idle (hExact : operation.Exact objects) (index : Nat) :
    OperationServed.Kept objects operation index ⟨operation, [], []⟩ := by
  constructor
  · exact hExact
  · intro _
    exact Nat.le_refl _
  · exact List.Pairwise.nil
  · intro _ hCount
    exact absurd hCount List.not_mem_nil
  · intro _ hProgress
    exact absurd hProgress List.not_mem_nil

end Operation

/- No write of the event's range gives bytes up to fetch them again. -/
def KeepsBytes (step : OperationStep) : Prop :=
  ∀ stage, step.before.stages[step.input.index]? = some stage →
    DistributionObject.KeepsCounts stage step.input.event

variable {objects : List DistributionObject} {operation : Operation} {input : OperationEvent}

/- An event of one object keeps the counts of all of them exact. -/
theorem Operation.Exact.serve
    (hExact : operation.Exact objects)
    (hKeeps :
      KeepsBytes ((operationMachine objects).step operation input)) :
    (operation.serve objects input).Kept
      objects operation input.index := by
  unfold Operation.serve
  split
  · exact hExact.idle _
  · split
    · next object stage hObject hStage =>
        exact hExact.serveObject hObject hStage (hKeeps stage hStage)
    · exact hExact.idle _

----
-- Whole Transfers
----

/- What has been reported when an operation got this far. -/
structure Reported (objects : List DistributionObject)
    (past : List OperationStep) (operation : Operation) : Prop where
  exact : operation.Exact objects
  ordered : ∀ index, (countsOf index past).Pairwise (· ≤ ·)
  below : ∀ index, ∀ count ∈ countsOf index past, count ≤ operation.mark index
  shown : ∀ step ∈ past, ∀ progress ∈ step.output.progress, progress.Within objects

/- The counts of one more step. -/
theorem countsOf_append (index : Nat) (past : List OperationStep) (step : OperationStep) :
    countsOf index (past ++ [step]) = countsOf index past ++
        (if step.input.index = index then step.output.counts
        else
          []) := by
  simp [countsOf]

/- One more event of an operation. -/
theorem Reported.step {past : List OperationStep}
    (hReported : Reported objects past operation)
    (hKeeps : KeepsBytes ((operationMachine objects).step operation input)) :
    Reported objects (past ++ [(operationMachine objects).step operation input])
    ((operationMachine objects).move operation input) := by
  have hKept := hReported.exact.serve hKeeps
  constructor
  · exact hKept.exact
  · intro index
    rw [countsOf_append]
    split
    · next hIndex =>
        rw [List.pairwise_append]
        refine ⟨hReported.ordered index, hKept.ordered, ?_⟩
        intro early hEarly late hLate
        have hBelow := hReported.below index early hEarly
        have hRises := (hKept.rises late hLate).1
        rw [← hIndex] at hBelow
        exact hBelow.trans hRises
    · rw [List.append_nil]
      exact hReported.ordered index
  · intro index count hCount
    rw [countsOf_append] at hCount
    rcases List.mem_append.mp hCount with hEarly | hNow
    · exact (hReported.below index count hEarly).trans (hKept.marks index)
    · split at hNow
      · next hIndex =>
          have hMark := (hKept.rises count hNow).2
          rw [← hIndex]
          exact hMark
      · exact absurd hNow List.not_mem_nil
  · intro step hStep
    rcases List.mem_append.mp hStep with hEarly | hNow
    · exact hReported.shown step hEarly
    · rw [List.mem_singleton.mp hNow]
      exact hKept.shown

theorem reported_trace (objects : List DistributionObject) (events : List OperationEvent)
    (hKeeps : ∀ step ∈ (operationMachine objects).trace (.begin objects) events, KeepsBytes step) :
    Reported objects ((operationMachine objects).trace (.begin objects) events)
    ((operationMachine objects).final (.begin objects) events) := by
  have hHistory := (operationMachine objects).history
    (H := fun past operation => (∀ step ∈ past, KeepsBytes step) → Reported objects past operation)
    (fun _ => ⟨.begin objects, fun _ => List.Pairwise.nil, by simp [countsOf], by simp⟩)
    (fun past operation input hPast hSteps =>
      (hPast (fun step hStep => hSteps step (List.mem_append_left _ hStep))).step
      (hSteps _ (List.mem_append_right _ List.mem_cons_self))) events
  exact hHistory hKeeps

/- An operation that succeeds has counted every byte once. -/
theorem Operation.Exact.downloadedBytes (hExact : operation.Exact objects)
    {bytes : Nat} (hBytes : operation.downloadedBytes = some bytes) : bytes = totalOf objects := by
  unfold Operation.downloadedBytes at hBytes
  split at hBytes
  · next hDone =>
      cases hBytes
      rw [hExact.fits.sum]
      congr 1
      apply List.ext_getElem?
      intro index
      rw [List.getElem?_map]
      cases hObject : objects[index]? with
      | none =>
        rw [Option.map_none, List.getElem?_eq_none_iff, hExact.fits.length]
        exact List.getElem?_eq_none_iff.mp hObject
      | some object =>
        have hIndex := (List.getElem?_eq_some_iff.mp hObject).1
        have hLength : index < operation.stages.length := by
          rw [hExact.length]
          exact hIndex
        have hStage := List.getElem?_eq_getElem hLength
        have hAll := List.all_eq_true.mp hDone _ (List.mem_of_getElem? hStage)
        have hMark := hExact.each index object _ hObject hStage
        cases hCase : operation.stages[index] with
        | done =>
          rw [hCase] at hMark
          have hWhole : operation.tracker.objectBytes.getD index 0 = object.bytes := hMark
          have hHere : index < operation.tracker.objectBytes.length := by
            rw [hExact.fits.length]
            exact hIndex
          rw [List.getD_eq_getElem _ _ hHere] at hWhole
          rw [List.getElem?_eq_getElem hHere, hWhole]
          rfl
        | fresh | moving | failing | fetched | finalizing | lost =>
          rw [hCase] at hAll
          cases hAll
  · cases hBytes

/-
  Progress never overstates, for all objects, checkpoints, answers and orders of events: as long as
  no write gives accepted bytes up to fetch them again, an object's counts grow up to its size, the
  operation shows at most its total, and a transfer that succeeds downloaded its total.
-/
theorem progress_never_overstates
    (objects : List DistributionObject)
    (events : List OperationEvent)
    (hKeeps :
      ∀ step ∈ (operationMachine objects).trace (.begin objects) events,
        KeepsBytes step) :
    (∀ (index : Nat) object,
       objects[index]? = some object →
       (countsOf index
          ((operationMachine objects).trace
             (.begin objects) events)).Pairwise
         (· ≤ ·) ∧
       ∀ count ∈ countsOf index
         ((operationMachine objects).trace (.begin objects) events),
         count ≤ object.bytes) ∧
    (∀ step ∈ (operationMachine objects).trace (.begin objects) events,
       ∀ progress ∈ step.output.progress, progress.Within objects) ∧
    ∀ bytes,
      ((operationMachine objects).final
         (.begin objects) events).downloadedBytes =
        some bytes →
      bytes = totalOf objects := by
  have hReported := reported_trace objects events hKeeps
  refine ⟨?_, hReported.shown, ?_⟩
  · intro index object hObject
    refine ⟨hReported.ordered index, ?_⟩
    intro count hCount
    exact (hReported.below index count hCount).trans
      (hReported.exact.fits.marks index object hObject)
  · intro _ hBytes
    exact hReported.exact.downloadedBytes hBytes

/- An object of two bytes. -/
def smallObject : DistributionObject where
  sha256 := twoBytes.sha256
  kind := "file"
  bytes := 2

/- One event of the only range of the only object. -/
def onlyRange (event : FetchEvent) : OperationEvent := ⟨0, .range 0 event true⟩

/- Its file is new, and one range holds it. -/
def startSmall : OperationEvent := ⟨0, .adopted [] 0 8⟩

/- The answer is cut once, and the object is published. -/
def cutTransfer : List OperationEvent :=
  [startSmall, onlyRange .granted, onlyRange (.answered (twoBytes.rightAnswer 0 1)),
    onlyRange (.chunk [7]), onlyRange .bodyEnded, onlyRange .granted,
    onlyRange (.answered (twoBytes.rightAnswer 1 1)),
    onlyRange (.chunk [7]), onlyRange .bodyEnded, onlyRange (.written (.ok ())),
    onlyRange (.recorded (.ok ())), ⟨0, .collected⟩, ⟨0, .finished⟩, ⟨0, .published⟩]

/- Cut answers are counted once: the run of `cutTransfer` meets what the counts need. -/
theorem cut_transfer_counts_once :
    (countsOf 0
       ((operationMachine [smallObject]).trace (.begin [smallObject])
          cutTransfer)).Pairwise
      (· ≤ ·) ∧
    ∀ count ∈ countsOf 0
      ((operationMachine [smallObject]).trace (.begin [smallObject])
         cutTransfer),
      count ≤ 2 := by
  have hKeeps : ∀ step ∈ (operationMachine [smallObject]).trace (.begin [smallObject]) cutTransfer,
      KeepsBytes step := by
    intro step hStep stage hStage accepted lanes lane fetch happened due hMoving hEvent hLane final
      error hWriting hWritten
    -- No event of the run is a write that fails.
    have hMem := (operationMachine [smallObject]).input_mem_of_mem_trace hStep
    subst hWritten
    simp only [cutTransfer, startSmall, onlyRange,
      List.mem_cons, List.not_mem_nil, or_false] at hMem
    rcases hMem with
      hIs | hIs | hIs | hIs | hIs | hIs | hIs | hIs | hIs | hIs | hIs | hIs | hIs | hIs
    all_goals
      rw [hIs] at hEvent
      simp at hEvent
  exact (progress_never_overstates [smallObject] cutTransfer hKeeps).1 0 smallObject rfl

/- The first write of both bytes stalls. -/
def stalledTransfer : List OperationEvent :=
  [startSmall, onlyRange .granted, onlyRange (.answered (twoBytes.rightAnswer 0 1)),
    onlyRange (.chunk [7, 7]), onlyRange .bodyEnded,
    onlyRange (.written (.error .stalled)), onlyRange .granted,
    onlyRange (.answered (twoBytes.rightAnswer 0 1)),
    onlyRange (.chunk [7, 7]), onlyRange .bodyEnded,
    onlyRange (.written (.ok ())), onlyRange (.recorded (.ok ())),
    ⟨0, .collected⟩, ⟨0, .finished⟩, ⟨0, .published⟩]

theorem transfer_small : smallObject.transfer = twoBytes := rfl

theorem bytes_small : smallObject.bytes = 2 := rfl

theorem adopt_small : adopt [] 0 2 8 = some
        { record :=
            { total := 2, rangeBytes := 8, bitmap := [0], recorded := false }
          pending := [bothBytes] } := by
  decide

/- The bytes of a stalled write count twice: a report goes to four and back to two. -/
theorem stalled_write_counts_twice :
    countsOf 0
      ((operationMachine [smallObject]).trace (.begin [smallObject])
         stalledTransfer) =
      [0, 2, 2, 4, 2, 2, 2] ∧
    ((operationMachine [smallObject]).final (.begin [smallObject])
       stalledTransfer).downloadedBytes =
      some 4 := by
  simp [stalledTransfer, startSmall, onlyRange, countsOf,
    operationMachine, Machine.move, Machine.step, Operation.serve, Operation.begin,
    Operation.serveObject, DistributionObject.serve,
    DistributionObject.adopted, transfer_small, bytes_small, adopt_small,
    DistributionObject.serveRange, RangeTransfer.serve, RangeTransfer.openAnswer, RangeFetch.begin,
    RangeFetch.read, RangeFetch.closeBody, RangeFetch.settle, RangeFetch.endWrite,
    RangeFetch.dropped, RangeFetch.accept, RangeFetch.writeAccepted, writeBufferBytes,
    RangeFetch.retriesAfter, RangeFetch.again, ClientError.mayRetry, maxAttempts, RangeFetch.place,
    Operation.tell, Tracker.reportAll, Tracker.report,
    Tracker.after, Tracker.begin, Counter.note, remaining,
    PendingRange.length, bothBytes, Stage.endedBadly, Stage.endedWell, ObjectStage.isLost,
    Operation.downloadedBytes, ObjectStage.isDone, DistributionObject.collect, RangeFetch.wrote]

end VonkForge.Distribution
