import VonkForge.Cache.RangeTurns

/-
  What every move of a range download keeps, whatever the provider sends: a worker changes nothing
  but its own lane, its counter says how long its file is, and the assembly has exactly the bytes of
  the segment files.

  Main declarations:
    * `Frame`
    * `Served.kept`
    * `moves_kept`
    * `downloadRanges_fed`
-/

----
-- Segment Lengths
----

namespace VonkForge.Cache

variable {α : Type} {plan : RangePlan} {download next : RangeDownload α} {k : Nat}

section

variable (hValid : plan.valid = true)

include hValid

theorem width_pos : 0 < plan.width := by
  unfold RangePlan.valid at hValid
  simp only [Bool.and_eq_true, decide_eq_true_eq] at hValid
  exact Nat.div_pos (by omega) hValid.2

theorem length_segment (hCount : k < plan.count) :
    (plan.segment k).length = min plan.width (plan.expectedBytes - k * plan.width) := by
  have hWidth := width_pos hValid
  have hStart := Slices.mul_lt_of_lt_count hCount
  simp only [Segment.length, RangePlan.segment]
  omega

/- The segments have the length of their object's slices. -/
theorem length_slice_segment {object : List α}
    (hBytes : object.length = plan.expectedBytes) (hCount : k < plan.count) :
    (Slices.slice plan.width object k).length = (plan.segment k).length := by
  rw [length_segment hValid hCount, Slices.length_slice, hBytes]

theorem sum_segment_length : ((List.range plan.count).map fun k =>
      (plan.segment k).length).sum = plan.expectedBytes := by
  -- The lengths are those of the slices of any object of
  -- the size.
  let object := List.replicate plan.expectedBytes ()
  have hBytes : object.length = plan.expectedBytes := List.length_replicate
  have hSame : ∀ k ∈ List.range plan.count, (plan.segment k).length =
    (Slices.slice plan.width object k).length :=
    fun k hMem => (length_slice_segment hValid hBytes (List.mem_range.mp hMem)).symm
  have hSum : ((List.range (Slices.count plan.width object.length)).map fun k =>
        (Slices.slice plan.width object k).length).sum =
        object.length :=
    Slices.sum_length_slice (width_pos hValid)
  rw [hBytes] at hSum
  rw [List.map_congr_left hSame]
  exact hSum

end

/- An accepted answer is a response with the asked range. -/
theorem openChecked_accepts {offset last : Nat} {answer : Answer α} {response : Response α}
    (hOpened : openChecked plan offset last answer = .ok response) : answer = .response response ∧
    response.contentRange = some (offset, last, plan.expectedBytes) := by
  revert hOpened
  fun_cases openChecked with
  | case6 _ _ _ hRange =>
    intro hOpened
    obtain rfl := Except.ok.inj hOpened
    exact ⟨rfl, not_not.mp fun hOther => hRange (Or.inr hOther)⟩
  | _ => exact fun hOpened => by cases hOpened

----
-- Frames
----

/- Nothing changes but lane `k` and the shared flags. -/
structure Frame (k : Nat) (download next : RangeDownload α) : Prop where
  target : next.files.target = download.files.target
  phase : next.phase = download.phase
  fed : next.fed = download.fed
  segments : ∀ j, j ≠ k → next.files.segments j = download.files.segments j
  counts : ∀ j, j ≠ k → next.counts j = download.counts j
  workers : ∀ j, j ≠ k → next.workers j = download.workers j
  grows : download.counts k ≤ next.counts k

/- Only flags change. -/
theorem Frame.flags (hFiles : next.files = download.files)
    (hPhase : next.phase = download.phase) (hFed : next.fed = download.fed)
    (hCounts : next.counts = download.counts) (hWorkers : next.workers = download.workers) :
    Frame k download next where
  target := by rw [hFiles]
  phase := hPhase
  fed := hFed
  segments := fun j _ => by rw [hFiles]
  counts := fun j _ => by rw [hCounts]
  workers := fun j _ => by rw [hWorkers]
  grows := by rw [hCounts]

theorem Frame.refl : Frame k download download := Frame.flags rfl rfl rfl rfl rfl

section

variable (hFrame : Frame k download next)

include hFrame

theorem Frame.setWorker (worker : Worker α) : Frame k download (next.setWorker k worker) where
  target := hFrame.target
  phase := hFrame.phase
  fed := hFrame.fed
  segments := hFrame.segments
  counts := hFrame.counts
  workers := fun j hOther => (Function.update_of_ne hOther _ _).trans (hFrame.workers j hOther)
  grows := hFrame.grows

theorem Frame.setSegment (file : Option (List α)) : Frame k download (next.setSegment k file) where
  target := hFrame.target
  phase := hFrame.phase
  fed := hFrame.fed
  segments := fun j hOther => (Function.update_of_ne hOther _ _).trans (hFrame.segments j hOther)
  counts := hFrame.counts
  workers := hFrame.workers
  grows := hFrame.grows

end

theorem counted_frame (size : Nat) : Frame k download
      { download with counts := Function.update download.counts k (download.counts k + size) } where
  target := rfl
  phase := rfl
  fed := rfl
  segments := fun _ _ => rfl
  counts := fun _ hOther => Function.update_of_ne hOther _ _
  workers := fun _ _ => rfl
  grows := by
    dsimp only
    rw [Function.update_self]
    exact Nat.le_add_right _ _

theorem Turn.frame
    {input : RangeInput α}
    (hTurn : Turn plan k download input next) :
    Frame k download next := by
  cases hTurn with
  | stay => exact Frame.refl
  | count => exact (counted_frame _).setWorker _
  | openFile | drop | write => exact (Frame.refl.setSegment _).setWorker _
  | _ =>
    apply Frame.setWorker
    exact Frame.flags rfl rfl rfl rfl rfl

----
-- Lanes
----

/- What a worker's file and counter say at each place. -/
def Accounts (segment : Segment) (file : Option (List α)) (count : Nat) : Worker α → Prop
  | .submitted => size file = count
  | .trying _ => size file = count
  | .opening _ offset => size file = count ∧ offset = segment.start + count ∧ offset ≤ segment.last
  | .waiting _ offset => size file = count ∧ offset = segment.start + count ∧ offset ≤ segment.last
  | .probing _ offset => size file = count ∧ offset = segment.start + count ∧ offset ≤ segment.last
  | .requesting _ offset =>
    size file = count ∧ offset = segment.start + count ∧ offset ≤ segment.last
  | .settling _ _ offset _ =>
    size file = count ∧ offset = segment.start + count ∧ offset ≤ segment.last
  | .streaming _ remaining _ _ => size file = count ∧ remaining + count = segment.length
  | .counting _ remaining written _ _ =>
    size file = count + written ∧ remaining + (count + written) = segment.length
  | .exited _ => True
  | .collected => True

structure Lane (plan : RangePlan) (download : RangeDownload α) (k : Nat) : Prop where
  bounded : download.counts k ≤ (plan.segment k).length
  accounts :
    Accounts (plan.segment k) (download.files.segments k) (download.counts k) (download.workers k)

variable (worker : Worker α)

@[simp] theorem workers_setWorker : (download.setWorker k worker).workers k = worker :=
  Function.update_self _ _ _

@[simp] theorem workers_openFile (tries offset : Nat) (response : Response α) :
    (download.openFile plan k tries offset response).workers k =
      .streaming tries ((plan.segment k).last - offset + 1) response.chunks response.raises :=
  Function.update_self _ _ _

@[simp] theorem segments_setSegment (file : Option (List α)) :
    (download.setSegment k file).files.segments k = file :=
  Function.update_self _ _ _

@[simp] theorem counts_setSegment (file : Option (List α)) : (download.setSegment k file).counts =
      download.counts := rfl

theorem lane_setWorker {worker : Worker α} (hBounded : download.counts k ≤ (plan.segment k).length)
    (hAccounts : Accounts (plan.segment k) (download.files.segments k) (download.counts k) worker) :
    Lane plan (download.setWorker k worker) k := by
  refine ⟨hBounded, ?_⟩
  rw [workers_setWorker]
  exact hAccounts

/- A response that is short was counted. -/
theorem Raised.size_eq
    {segment : Segment}
    {file : Option (List α)}
    {count tries : Nat}
    {failure : RangeFailure}
    {worker : Worker α}
    (hRaised : Raised worker tries failure)
    (hAccounts : Accounts segment file count worker) :
    size file = count := by
  cases hRaised <;> exact hAccounts.1

theorem Turn.lane
    {input : RangeInput α}
    (hTurn : Turn plan k download input next)
    (hLane : Lane plan download k) :
    Lane plan next k := by
  have hBounded := hLane.bounded
  have hAccounts := hLane.accounts
  cases hTurn with
  | stay => exact hLane
  | enter hWorker hInside =>
    rw [hWorker] at hAccounts
    exact lane_setWorker hBounded ⟨hAccounts, rfl, hInside⟩
  | ask hWorker =>
    apply lane_setWorker hBounded
    rcases hWorker with hWorker | hWorker <;>
    · rw [hWorker] at hAccounts
      exact hAccounts
  | start hWorker | wait hWorker | probe hWorker | probed _ hWorker | heard _ hWorker
  | note hWorker | pass hWorker | prove hWorker | refuse hWorker | release hWorker =>
    rw [hWorker] at hAccounts
    exact lane_setWorker hBounded hAccounts
  | openFile hWorker =>
    rw [hWorker] at hAccounts
    obtain ⟨hSize, rfl, _⟩ := hAccounts
    apply lane_setWorker
    · exact hBounded
    · rw [segments_setSegment, counts_setSegment]
      unfold size at hSize
      simp only [Accounts, size, Option.getD_some, Segment.length]
      omega
  | again hRaised => exact lane_setWorker hBounded (hRaised.size_eq hAccounts)
  | write hWorker hFits =>
    rw [hWorker] at hAccounts
    obtain ⟨hSize, hRemaining⟩ := hAccounts
    apply lane_setWorker
    · exact hBounded
    · rw [segments_setSegment, counts_setSegment]
      unfold size at hSize
      simp only [Accounts, size, Option.getD_some, List.length_append]
      omega
  | count hWorker =>
    rw [hWorker] at hAccounts
    obtain ⟨hSize, hRemaining⟩ := hAccounts
    apply lane_setWorker <;> dsimp only <;> rw [Function.update_self]
    · omega
    · exact ⟨hSize, hRemaining⟩
  | _ => exact lane_setWorker hBounded trivial

----
-- The Assembly
----

/- The output is the segment files before `index`, and of the file of `index` what was read. -/
structure Assembling (plan : RangePlan) (files : Files α) (index position : Nat)
    (output : List α) : Prop where
  inside : index ≤ plan.count
  sizes : ∀ j, j < index → size (files.segments j) = (plan.segment j).length
  -- A file is only read once its size was checked.
  checked :
    position ≠ 0 → index < plan.count ∧ size (files.segments index) = (plan.segment index).length
  output : output = ((List.range index).flatMap fun j => (files.segments j).getD []) ++
    ((files.segments index).getD []).take position

/-
  What holds in each phase of a call on `target`. The digest is fed exactly what the assembly
  writes.
-/
def PhaseKept (plan : RangePlan) (target : Option (List α)) (files : Files α)
    (fed : List α) : Phase α → Prop
  | .transferring => files.target = target ∧ fed = []
  | .assembling index position output =>
    files.target = target ∧ fed = output ∧ Assembling plan files index position output
  | .ended (.ok true) => files.target = some fed ∧ fed.length = plan.expectedBytes
  | .ended (.ok false) => files.target = target
  | .ended (.error _) => files.target = target

variable {files : Files α} {index position : Nat} {output : List α}

/- A complete assembly is all segment files in order. -/
theorem Assembling.complete (hAssembling : Assembling plan files index position output)
    (hDone : plan.count ≤ index) : (∀ j, j < plan.count →
      size (files.segments j) = (plan.segment j).length) ∧ output =
        (List.range plan.count).flatMap fun j => (files.segments j).getD [] := by
  have hPosition : position = 0 := by
    by_contra hReading
    exact absurd (hAssembling.checked hReading).1 (Nat.not_lt_of_le hDone)
  obtain rfl : index = plan.count := le_antisymm hAssembling.inside hDone
  refine ⟨hAssembling.sizes, ?_⟩
  rw [hAssembling.output, hPosition, List.take_zero, List.append_nil]

theorem Assembling.length (hValid : plan.valid)
    (hAssembling : Assembling plan files index position output) (hDone : plan.count ≤ index) :
    output.length = plan.expectedBytes := by
  obtain ⟨hSizes, hOutput⟩ := hAssembling.complete hDone
  have hSame :
      ∀ j ∈ List.range plan.count, ((files.segments j).getD []).length = (plan.segment j).length :=
    fun j hMem => hSizes j (List.mem_range.mp hMem)
  rw [hOutput, List.length_flatMap, List.map_congr_left hSame, sum_segment_length hValid]

theorem assembling_start (files : Files α) : Assembling plan files 0 0 [] where
  inside := Nat.zero_le _
  sizes := fun j hLt => absurd hLt (Nat.not_lt_zero j)
  checked := fun hZero => absurd rfl hZero
  output := rfl

variable {output file : List α}

/- A file that was read to its end is in the output. -/
theorem Assembling.nextFile
    (hAssembling : Assembling plan files index position output)
    (hIndex : index < plan.count) (hFile : files.segments index = some file)
    (hSize : file.length = (plan.segment index).length) (hRead : file.length ≤ position) :
    Assembling plan files (index + 1) 0 output where
  inside := hIndex
  sizes := by
    intro j hLt
    rcases Nat.lt_succ_iff_lt_or_eq.mp hLt with hOld | rfl
    · exact hAssembling.sizes j hOld
    · rw [hFile]
      exact hSize
  checked := fun hZero => absurd rfl hZero
  output := by
    rw [hAssembling.output, hFile, List.range_succ,
      List.flatMap_append, List.take_zero, List.append_nil]
    simp [hFile, List.take_of_length_le hRead]

theorem Assembling.nextChunk {index position n : Nat}
    (hAssembling : Assembling plan files index position output)
    (hIndex : index < plan.count) (hFile : files.segments index = some file)
    (hSize : file.length = (plan.segment index).length) :
    let chunk := (file.drop position).take n
    Assembling plan files index (position + chunk.length) (output ++ chunk) := by
  intro chunk
  have hTaken : (file.drop position).take chunk.length = chunk := by
    simp [chunk, List.take_eq_take_iff]
  refine ⟨hAssembling.inside, hAssembling.sizes, ?_, ?_⟩
  · intro _
    rw [hFile]
    exact ⟨hIndex, hSize⟩
  · rw [hAssembling.output, hFile, Option.getD_some, List.append_assoc, List.take_add, hTaken]

/- A move of the assembly. -/
theorem assemble_phase {target : Option (List α)} (hValid : plan.valid)
    (hTarget : download.files.target = target) (hFed : download.fed = output)
    (hAssembling : Assembling plan download.files index position output) :
    PhaseKept plan target (download.assemble plan index position output).files
    (download.assemble plan index position output).fed
    (download.assemble plan index position output).phase := by
  have hSize : ∀ file, download.files.segments index = some file →
      ¬(position = 0 ∧ file.length ≠ (plan.segment index).length) →
      file.length = (plan.segment index).length := by
    intro _ hFile hChecked
    by_contra hOther
    have hRead := (hAssembling.checked fun hPosition => hChecked ⟨hPosition, hOther⟩).2
    rw [hFile] at hRead
    exact hOther hRead
  fun_cases RangeDownload.assemble with
  | case1 hAll =>
    rw [← hFed] at hAssembling
    refine ⟨?_, hAssembling.length hValid hAll⟩
    rw [hFed]
    rfl
  | case4 hIndex file hFile hChecked chunk hEmpty =>
    have hRead : file.length ≤ position := by
      simpa [chunk, RangeDownload.assemblyChunk] using hEmpty
    exact ⟨hTarget, hFed, hAssembling.nextFile (Nat.lt_of_not_le hIndex) hFile
      (hSize file hFile hChecked) hRead⟩
  | case6 hIndex file hFile hChecked =>
    refine ⟨hTarget, ?_, hAssembling.nextChunk (Nat.lt_of_not_le hIndex) hFile
      (hSize file hFile hChecked)⟩
    dsimp only
    rw [hFed]
  | _ => exact hTarget

----
-- Moves and Calls
----

/- What a call on `target` keeps, whatever it is answered. -/
structure Kept (plan : RangePlan) (target : Option (List α))
    (download : RangeDownload α) : Prop where
  bounded : ∀ k, k < plan.count → download.counts k ≤ (plan.segment k).length
  lanes : isTransferring download.phase = true → ∀ k, k < plan.count → Lane plan download k
  phase : PhaseKept plan target download.files download.fed download.phase

variable {target : Option (List α)}

theorem transferring_of_isTransferring (hPhase : isTransferring download.phase) :
    download.phase = .transferring := by
  cases hCase : download.phase with
  | transferring => rfl
  | assembling | ended =>
    rw [hCase] at hPhase
    cases hPhase

section

variable (hKept : Kept plan target download)

include hKept

/- A worker's move keeps what all lanes keep. -/
theorem Kept.ofLane
    (hPhase : isTransferring download.phase)
    (hFrame : Frame k download next) (hLane : Lane plan next k) :
    Kept plan target next := by
  have hEvery : ∀ j, j < plan.count → Lane plan next j := by
    intro j hCount
    by_cases hSame : j = k
    · rw [hSame]
      exact hLane
    · have hOld := hKept.lanes hPhase j hCount
      refine ⟨?_, ?_⟩
      · rw [hFrame.counts j hSame]
        exact hOld.bounded
      · rw [hFrame.counts j hSame, hFrame.segments j hSame, hFrame.workers j hSame]
        exact hOld.accounts
  have hHere := transferring_of_isTransferring hPhase
  have hTarget := hKept.phase
  rw [hHere] at hTarget
  refine ⟨fun j hCount => (hEvery j hCount).bounded, fun _ => hEvery, ?_⟩
  rw [hFrame.phase, hFrame.fed, hHere]
  exact ⟨hFrame.target.trans hTarget.1, hTarget.2⟩

/- Flags are not part of it. -/
theorem Kept.flags (hFiles : next.files = download.files) (hPhase : next.phase = download.phase)
    (hFed : next.fed = download.fed) (hCounts : next.counts = download.counts)
    (hWorkers : next.workers = download.workers) : Kept plan target next where
  bounded := by
    rw [hCounts]
    exact hKept.bounded
  lanes := by
    rw [hPhase]
    intro hOpen k hCount
    have hLane := hKept.lanes hOpen k hCount
    refine ⟨?_, ?_⟩
    · rw [hCounts]
      exact hLane.bounded
    · rw [hCounts, hFiles, hWorkers]
      exact hLane.accounts
  phase := by
    rw [hFiles, hFed, hPhase]
    exact hKept.phase

/- Past the transfers only the phase can go wrong. -/
theorem Kept.later (hCounts : next.counts = download.counts)
    (hLater : isTransferring next.phase = false)
    (hPhase : PhaseKept plan target next.files next.fed next.phase) : Kept plan target next where
  bounded := by
    rw [hCounts]
    exact hKept.bounded
  lanes := by
    intro hTransferring
    rw [hLater] at hTransferring
    cases hTransferring
  phase := hPhase

theorem close_kept (hTarget : download.files.target = target)
    (hFed : download.fed = []) : Kept plan target (download.close plan) := by
  fun_cases RangeDownload.close with
  | case5 => exact hKept.later rfl rfl ⟨hTarget, hFed, assembling_start _⟩
  | _ => exact hKept.later rfl rfl hTarget

end

section

variable (index position : Nat) (output : List α)

theorem assemble_counts :
    (download.assemble plan index position output).counts = download.counts := by
  fun_cases RangeDownload.assemble <;> rfl

theorem assemble_later :
    isTransferring (download.assemble plan index position output).phase = false := by
  fun_cases RangeDownload.assemble <;> rfl

end

section

variable (hValid : plan.valid = true) (hKept : Kept plan target download)

include hValid hKept

theorem proceed_kept : Kept plan target (download.proceed plan) := by
  have hPhase := hKept.phase
  fun_cases RangeDownload.proceed with
  | case1 => exact hKept.flags rfl rfl rfl rfl rfl
  | case2 hHere =>
    rw [hHere] at hPhase
    exact close_kept hKept hPhase.1 hPhase.2
  | case4 index position output hHere =>
    rw [hHere] at hPhase
    exact hKept.later (assemble_counts index position output) (assemble_later index position output)
      (assemble_phase hValid hPhase.1 hPhase.2.1 hPhase.2.2)
  | _ => exact hKept

/- Every move keeps what a call keeps. -/
theorem Served.kept
    {input : RangeInput α}
    (hServed : Served plan download input next) :
    Kept plan target next := by
  cases hServed with
  | stop => exact hKept.flags rfl rfl rfl rfl rfl
  | proceed => exact proceed_kept hValid hKept
  | turn k hPhase hCount hTurn =>
    exact hKept.ofLane hPhase hTurn.frame (hTurn.lane (hKept.lanes hPhase k hCount))
  | closed => exact hKept

end

----
-- Progress
----

theorem progress_le_of_counts (hCounts : ∀ k, download.counts k ≤ next.counts k) :
    download.progress plan ≤ next.progress plan :=
  List.sum_le_sum fun k _ => hCounts k

theorem Frame.progress_le (hFrame : Frame k download next) :
    download.progress plan ≤ next.progress plan := by
  apply progress_le_of_counts
  intro j
  by_cases hSame : j = k
  · rw [hSame]
    exact hFrame.grows
  · rw [hFrame.counts j hSame]

theorem close_counts : (download.close plan).counts = download.counts := by
  fun_cases RangeDownload.close <;> rfl

theorem proceed_counts : (download.proceed plan).counts = download.counts := by
  fun_cases RangeDownload.proceed with
  | case2 => exact close_counts
  | case4 => exact assemble_counts _ _ _
  | _ => rfl

theorem Served.progress_le
    {input : RangeInput α}
    (hServed : Served plan download input next) :
    download.progress plan ≤ next.progress plan := by
  cases hServed with
  | proceed => exact progress_le_of_counts fun k => le_of_eq (congrFun proceed_counts k).symm
  | turn _ _ _ hTurn => exact hTurn.frame.progress_le
  | stop | closed => exact le_rfl

/- A move reports nothing, or the progress it leaves. -/
theorem serve_reports (input : RangeInput α) : (download.serve plan input).reports = [] ∨
    (download.serve plan input).reports = [(download.serve plan input).download.progress plan] := by
  fun_cases RangeDownload.serve with
  | case3 => fun_cases RangeDownload.workReports <;> simp
  | _ => exact Or.inl rfl

/- All segments are counted at most once. -/
theorem Kept.progress_le (hValid : plan.valid) (hKept : Kept plan target download) :
    download.progress plan ≤ plan.expectedBytes := by
  rw [← sum_segment_length hValid]
  apply List.sum_le_sum
  intro k hMem
  exact hKept.bounded k (List.mem_range.mp hMem)

/- Reports rise up to the progress that was reached. -/
def Rising (reports : List Nat) (progress : Nat) : Prop :=
  reports.Pairwise (· ≤ ·) ∧ ∀ report ∈ reports, report ≤ progress

theorem Rising.append {reports more : List Nat} {progress later : Nat}
    (hRising : Rising reports progress) (hLater : progress ≤ later)
    (hMore : more = [] ∨ more = [later]) : Rising (reports ++ more) later := by
  have hBelow : ∀ report ∈ reports, report ≤ later :=
    fun report hMem => le_trans (hRising.2 report hMem) hLater
  rcases hMore with rfl | rfl
  · rw [List.append_nil]
    exact ⟨hRising.1, hBelow⟩
  · refine ⟨?_, ?_⟩
    · rw [List.pairwise_append]
      refine ⟨hRising.1, List.pairwise_singleton _ _, ?_⟩
      intro report hMem _ hLast
      rw [List.mem_singleton.mp hLast]
      exact hBelow report hMem
    · intro report hMem
      rcases List.mem_append.mp hMem with hOld | hNew
      · exact hBelow report hOld
      · exact le_of_eq (List.mem_singleton.mp hNew)

/- The moves of a call keep its state and rise. -/
theorem moves_kept
    (hValid : plan.valid)
    (hKept : Kept plan target download)
    (moves : List (RangeInput α)) :
    Kept plan target ((rangeMachine plan).final download moves) ∧
    Rising
      (download.progress plan :: reported
         ((rangeMachine plan).trace download moves))
      (((rangeMachine plan).final download moves).progress plan) := by
  apply (rangeMachine plan).history (H := fun past current => Kept plan target current ∧
      Rising (download.progress plan :: reported past) (current.progress plan))
  · refine ⟨hKept, List.pairwise_singleton _ _, ?_⟩
    intro _ hMem
    exact le_of_eq (List.mem_singleton.mp hMem)
  · intro past current input hPast
    have hServed := serve_served plan current input
    refine ⟨hServed.kept hValid hPast.1, ?_⟩
    have hReported : reported (past ++ [(rangeMachine plan).step current input]) = reported past ++
        (current.serve plan input).reports := by
      rw [reported, List.flatMap_append, List.flatMap_singleton]
      rfl
    rw [hReported]
    exact hPast.2.append hServed.progress_le (serve_reports input)

----
-- A Call
----

theorem prepareSegment_lane {segment : Segment} {file : Option (List α)} :
    size (prepareSegment segment target file).1 = (prepareSegment segment target file).2 ∧
    (prepareSegment segment target file).2 ≤ segment.length := by
  have hKept : size (file.filter fun bytes => decide (bytes.length ≤ segment.length)) ≤
        segment.length := by
    cases file with
    | none => exact Nat.zero_le _
    | some bytes =>
      by_cases hFits : bytes.length ≤ segment.length
      · simp [Option.filter, size, hFits]
      · simp [Option.filter, size, hFits]
  unfold prepareSegment
  dsimp only
  split
  · split
    · rename_i hMore hCopied
      refine ⟨?_, ?_⟩
      · change (_ ++ _ : List α).length = _
        rw [List.length_append, hCopied]
        unfold size at hMore ⊢
        omega
      · unfold Segment.length
        omega
    · exact ⟨rfl, hKept⟩
  · exact ⟨rfl, hKept⟩

theorem begin_kept (files : Files α) (stopped : Bool) : Kept plan
      (files.target.filter fun bytes => decide (bytes.length ≤ plan.expectedBytes))
      (beginRanges plan files stopped) where
  bounded := fun _ _ => prepareSegment_lane.2
  lanes := by
    intro _ k hCount
    refine ⟨prepareSegment_lane.2, ?_⟩
    change size (if k < plan.count then _ else _) = _
    rw [if_pos hCount]
    exact prepareSegment_lane.1
  phase := ⟨rfl, rfl⟩

/-
  A call that returns `True` has put the bytes into the target that it fed to the digest, as many as
  expected.
-/
theorem downloadRanges_fed
    {files : Files α}
    {schedule : RangeSchedule α}
    (hResult :
      (downloadRanges plan files schedule).result = some (.ok true)) :
    (downloadRanges plan files schedule).files.target =
      some (downloadRanges plan files schedule).fed ∧
    (downloadRanges plan files schedule).fed.length =
      plan.expectedBytes := by
  unfold downloadRanges at hResult ⊢
  split at hResult
  · rename_i hValid
    rw [if_pos hValid]
    have hKept := (moves_kept hValid (begin_kept files schedule.stopped) schedule.moves).1
    have hPhase := hKept.phase
    dsimp only at hResult ⊢
    cases hHere : ((rangeMachine plan).final (beginRanges plan files schedule.stopped)
          schedule.moves).phase with
    | transferring | assembling =>
      rw [hHere] at hResult
      cases hResult
    | ended =>
      rw [hHere] at hResult hPhase
      obtain rfl := Option.some.inj hResult
      exact hPhase
  · cases hResult

end VonkForge.Cache
