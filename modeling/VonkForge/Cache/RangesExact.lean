import VonkForge.Cache.RangeLanes

/-
  Parallel ranges assemble the exact object.

  The provider is assumed to send, in a range answer that is accepted, a prefix of the object's
  bytes from the offset that was asked for. Then every segment file is a prefix of its segment at
  every moment of every call.

  Progress is the progress of one call: a call that drops a segment file makes the next one start
  lower.

  Main declarations:
    * `Segment.bytes`
    * `Served.exact`
    * `Assembling.exact`
    * `ranges_assemble_exactly`
-/

----
-- The Bytes of a Segment
----

namespace VonkForge.Cache

variable {α : Type} {plan : RangePlan} {object : List α} {download next : RangeDownload α} {k : Nat}

/- The object's bytes from `start` to `last`. -/
def Segment.bytes (segment : Segment) (object : List α) : List α :=
  (object.drop segment.start).take segment.length

section

variable (hValid : plan.valid = true) (hBytes : object.length = plan.expectedBytes)

include hValid hBytes

theorem bytes_eq_slice
    (hCount : k < plan.count) : (plan.segment k).bytes object = Slices.slice plan.width object k :=
    by
  have hStart : (plan.segment k).start = k * plan.width := rfl
  rw [Segment.bytes, Slices.slice, hStart, List.take_eq_take_iff, length_segment hValid hCount,
    List.length_drop, hBytes]
  omega

theorem length_bytes (hCount : k < plan.count) :
    ((plan.segment k).bytes object).length = (plan.segment k).length := by
  rw [bytes_eq_slice hValid hBytes hCount, length_slice_segment hValid hBytes hCount]

/- All segments together are the object. -/
theorem flatMap_bytes :
    ((List.range plan.count).flatMap fun k => (plan.segment k).bytes object) = object := by
  have hSame : ∀ k ∈ List.range plan.count, (plan.segment k).bytes object =
      Slices.slice plan.width object k :=
    fun k hMem => bytes_eq_slice hValid hBytes (List.mem_range.mp hMem)
  rw [List.flatMap_congr hSame, RangePlan.count, ← hBytes]
  exact Slices.flatMap_slice (width_pos hValid)

end

variable {files : Files α} {segment : Segment} {target : Option (List α)}

/-
  A file that is a prefix of its segment grows by the object's bytes at its end, within the segment.
-/
theorem grows_within {held chunk : List α} (hHeld : held <+: segment.bytes object)
    (hChunk : chunk <+: object.drop (segment.start + held.length))
    (hFits : held.length + chunk.length ≤ segment.length) :
    held ++ chunk <+: segment.bytes object := by
  apply Slices.append_isPrefix hHeld
  rw [Segment.bytes, List.drop_take, List.drop_drop, List.prefix_take_iff]
  exact ⟨hChunk, by omega⟩

----
-- Exact Lanes
----

/- An accepted answer carries the bytes that were asked. -/
def Honest (plan : RangePlan) (object : List α)
    (step : Machine.Step (RangeDownload α) (RangeInput α) (RangeTurn α)) : Prop :=
  ∀ k answer tries offset response, step.input = .answer k answer →
    (step.before.workers k = .probing tries offset ∨
      step.before.workers k = .requesting tries offset) →
    openChecked plan offset (plan.segment k).last answer = .ok response →
    response.chunks.flatten <+: object.drop offset

/- A file holds a prefix of its segment, if it exists. -/
def HoldsPrefix (segment : Segment) (object : List α) (file : Option (List α)) : Prop :=
  ∀ bytes, file = some bytes → bytes <+: segment.bytes object

/- What a body still has follows what is in the file, or begins where it was asked for. -/
def Coming (segment : Segment) (object : List α) (file : Option (List α)) : Worker α → Prop
  | .settling _ _ offset outcome =>
    ∀ response, outcome = .ok response → response.chunks.flatten <+: object.drop offset
  | .streaming _ _ chunks _ => chunks.flatten <+: object.drop (segment.start + size file)
  | .counting _ _ _ chunks _ => chunks.flatten <+: object.drop (segment.start + size file)
  | _ => True

structure ExactLane (plan : RangePlan) (object : List α)
    (download : RangeDownload α) (k : Nat) : Prop where
  held : HoldsPrefix (plan.segment k) object (download.files.segments k)
  coming : Coming (plan.segment k) object (download.files.segments k) (download.workers k)

theorem HoldsPrefix.missing (segment : Segment) : HoldsPrefix segment object none := by
  intro _ hNone
  cases hNone

theorem HoldsPrefix.getD {file : Option (List α)} (hHeld : HoldsPrefix segment object file) :
    file.getD [] <+: segment.bytes object := by
  cases file with
  | none => exact List.nil_prefix
  | some bytes => exact hHeld bytes rfl

theorem HoldsPrefix.some {bytes : List α} (hPrefix : bytes <+: segment.bytes object) :
    HoldsPrefix segment object (some bytes) := by
  intro _ hSame
  obtain rfl := Option.some.inj hSame
  exact hPrefix

theorem exact_setWorker {worker : Worker α}
    (hHeld : HoldsPrefix (plan.segment k) object (download.files.segments k))
    (hComing : Coming (plan.segment k) object (download.files.segments k) worker) :
    ExactLane plan object (download.setWorker k worker) k := by
  refine ⟨hHeld, ?_⟩
  rw [workers_setWorker]
  exact hComing

/- What is left of a body follows the chunk that was written. -/
theorem coming_of_cons
    {held chunk rest : List α}
    {start : Nat}
    (hComing : chunk ++ rest <+: object.drop (start + held.length)) :
    rest <+: object.drop (start + (held ++ chunk).length) := by
  rw [List.length_append, ← Nat.add_assoc, ← List.drop_drop]
  obtain ⟨_, hRest⟩ := hComing
  rw [← hRest, List.append_assoc, List.drop_left]
  exact List.prefix_append _ _

/- With honest bodies a turn leaves bytes of the object in its segment. -/
theorem Turn.exact
    {input : RangeInput α}
    (hTurn : Turn plan k download input next)
    (hLane : Lane plan download k)
    (hExact : ExactLane plan object download k)
    (hHonest :
      ∀ answer tries offset response,
        input = .answer k answer →
        (download.workers k = .probing tries offset ∨
         download.workers k = .requesting tries offset) →
        openChecked plan offset (plan.segment k).last answer =
          .ok response →
        response.chunks.flatten <+: object.drop offset) :
    ExactLane plan object next k := by
  have hHeld := hExact.held
  have hAccounts := hLane.accounts
  have hComing := hExact.coming
  cases hTurn with
  | stay => exact hExact
  | probed answer hWorker =>
    exact exact_setWorker hHeld fun response => hHonest answer _ _ response rfl (Or.inl hWorker)
  | heard answer hWorker =>
    exact exact_setWorker hHeld fun response => hHonest answer _ _ response rfl (Or.inr hWorker)
  | note hWorker | pass hWorker | prove hWorker | refuse hWorker | release hWorker
  | count hWorker =>
    rw [hWorker] at hComing
    exact exact_setWorker hHeld hComing
  | openFile hWorker =>
    rw [hWorker] at hAccounts hComing
    have hBody := hComing _ rfl
    rw [hAccounts.2.1, ← hAccounts.1] at hBody
    apply exact_setWorker <;> rw [segments_setSegment]
    · exact HoldsPrefix.some hHeld.getD
    · exact hBody
  | drop =>
    apply exact_setWorker
    · rw [segments_setSegment]
      exact HoldsPrefix.missing _
    · trivial
  | @write _ _ chunk chunks _ hWorker hFits =>
    rw [hWorker] at hAccounts hComing
    have hRemaining := hAccounts.2
    rw [← hAccounts.1, size] at hRemaining
    have hChunk := (List.prefix_append chunk chunks.flatten).trans hComing
    apply exact_setWorker <;> rw [segments_setSegment]
    · exact HoldsPrefix.some (grows_within hHeld.getD hChunk (by omega))
    · exact coming_of_cons hComing
  | _ => exact exact_setWorker hHeld trivial

----
-- Exact Calls
----

/- Every segment file holds a prefix of its segment. -/
def AllPrefixes (plan : RangePlan) (object : List α) (files : Files α) : Prop :=
  ∀ k, k < plan.count → HoldsPrefix (plan.segment k) object (files.segments k)

structure Exact (plan : RangePlan) (object : List α) (download : RangeDownload α) : Prop where
  held : AllPrefixes plan object download.files
  coming : isTransferring download.phase = true → ∀ k, k < plan.count →
    Coming (plan.segment k) object (download.files.segments k) (download.workers k)
  whole : result download.phase = some (.ok true) → download.files.target = some object

/- A finished assembly of exact files is the object. -/
theorem Assembling.exact {index position : Nat} {output : List α} (hValid : plan.valid)
    (hBytes : object.length = plan.expectedBytes) (hHeld : AllPrefixes plan object files)
    (hAssembling : Assembling plan files index position output) (hDone : plan.count ≤ index) :
    output = object := by
  obtain ⟨hSizes, hOutput⟩ := hAssembling.complete hDone
  have hSame :
      ∀ j ∈ List.range plan.count, (files.segments j).getD [] = (plan.segment j).bytes object := by
    intro j hMem
    have hCount := List.mem_range.mp hMem
    apply (hHeld j hCount).getD.eq_of_length
    rw [length_bytes hValid hBytes hCount]
    exact hSizes j hCount
  rw [hOutput, List.flatMap_congr hSame, flatMap_bytes hValid hBytes]

theorem Exact.ofLane (hExact : Exact plan object download)
    (hPhase : isTransferring download.phase)
    (hFrame : Frame k download next) (hLane : ExactLane plan object next k) :
    Exact plan object next := by
  refine ⟨?_, ?_, ?_⟩
  · intro j hCount
    by_cases hSame : j = k
    · rw [hSame]
      exact hLane.held
    · rw [hFrame.segments j hSame]
      exact hExact.held j hCount
  · intro _ j hCount
    by_cases hSame : j = k
    · rw [hSame]
      exact hLane.coming
    · rw [hFrame.segments j hSame, hFrame.workers j hSame]
      exact hExact.coming hPhase j hCount
  · intro hWhole
    rw [hFrame.phase, transferring_of_isTransferring hPhase] at hWhole
    cases hWhole

theorem cleanup_prefixes (files : Files α) :
    AllPrefixes plan object (files.cleanupRanges plan) := by
  intro k hCount
  change HoldsPrefix _ _ (if k < plan.count then _ else _)
  rw [if_pos hCount]
  exact HoldsPrefix.missing _

/- A phase without workers and without a result of `True`. -/
theorem Exact.later (hHeld : AllPrefixes plan object next.files)
    (hLater : isTransferring next.phase = false)
    (hWhole : result next.phase = some (.ok true) → next.files.target = some object) :
    Exact plan object next where
  held := hHeld
  coming := by
    intro hTransferring
    rw [hLater] at hTransferring
    cases hTransferring
  whole := hWhole

theorem close_exact (hExact : Exact plan object download) :
    Exact plan object (download.close plan) := by
  fun_cases RangeDownload.close with
  | case1 => exact Exact.later (cleanup_prefixes _) rfl (by simp [result])
  | _ => exact Exact.later hExact.held rfl (by simp [result])

section

variable (hValid : plan.valid = true) (hBytes : object.length = plan.expectedBytes)

include hValid hBytes

theorem assemble_exact {index position : Nat} {output : List α}
    (hHeld : AllPrefixes plan object download.files)
    (hAssembling : Assembling plan download.files index position output) :
    Exact plan object (download.assemble plan index position output) := by
  fun_cases RangeDownload.assemble with
  | case1 hDone =>
    refine Exact.later (cleanup_prefixes _) rfl fun _ => ?_
    rw [← hAssembling.exact hValid hBytes hHeld hDone]
    rfl
  | case3 =>
    refine Exact.later (fun j hCount => ?_) rfl (by simp [result])
    by_cases hSame : j = index
    · rw [hSame]
      dsimp only
      rw [segments_setSegment]
      exact HoldsPrefix.missing _
    · change HoldsPrefix _ _ (Function.update download.files.segments index none j)
      rw [Function.update_of_ne hSame]
      exact hHeld j hCount
  | _ => exact Exact.later hHeld rfl (by simp [result])

section

variable (hKept : Kept plan target download) (hExact : Exact plan object download)

include hKept hExact

theorem proceed_exact : Exact plan object (download.proceed plan) := by
  have hPhase := hKept.phase
  fun_cases RangeDownload.proceed with
  | case1 => exact ⟨hExact.held, hExact.coming, hExact.whole⟩
  | case2 => exact close_exact hExact
  | case4 _ _ _ hHere =>
    rw [hHere] at hPhase
    exact assemble_exact hValid hBytes hExact.held hPhase.2.2
  | _ => exact hExact

/- An honest move keeps every file a prefix. -/
theorem Served.exact
    {input : RangeInput α}
    (hServed : Served plan download input next)
    (hHonest : Honest plan object ((rangeMachine plan).step download input)) :
    Exact plan object next := by
  cases hServed with
  | stop => exact ⟨hExact.held, hExact.coming, hExact.whole⟩
  | proceed => exact proceed_exact hValid hBytes hKept hExact
  | turn k hPhase hCount hTurn =>
    exact hExact.ofLane hPhase hTurn.frame (hTurn.exact (hKept.lanes hPhase k hCount)
      ⟨hExact.held k hCount, hExact.coming hPhase k hCount⟩ (hHonest k))
  | closed => exact hExact

/- The moves of an honest call keep every file a prefix. -/
theorem moves_exact
    {moves : List (RangeInput α)}
    (hHonest : ∀ step ∈ (rangeMachine plan).trace download moves, Honest plan object step) :
    Exact plan object ((rangeMachine plan).final download moves) := by
  have hBoth : Kept plan target ((rangeMachine plan).final download moves) ∧
      Exact plan object ((rangeMachine plan).final download moves) := by
    refine (rangeMachine plan).invariant (I := fun current => Kept plan target current ∧
      Exact plan object current) (fun current input hBefore hStep => ?_) ⟨hKept, hExact⟩ hHonest
    have hServed := serve_served plan current input
    exact ⟨hServed.kept hValid hBefore.1, hServed.exact hValid hBytes hBefore.1 hBefore.2 hStep⟩
  exact hBoth.2

end

end

theorem prepareSegment_exact {target file : Option (List α)}
    (hTarget : ∀ bytes, target = some bytes → bytes <+: object)
    (hHeld : HoldsPrefix segment object file) :
    HoldsPrefix segment object (prepareSegment segment target file).1 := by
  have hKept : HoldsPrefix segment object
        (file.filter fun bytes => decide (bytes.length ≤ segment.length)) := by
    intro bytes hBytes
    exact hHeld bytes (Option.filter_eq_some_iff.mp hBytes).1
  have hSource : target.getD [] <+: object := by
    cases target with
    | none => exact List.nil_prefix
    | some bytes => exact hTarget bytes rfl
  unfold prepareSegment
  dsimp only
  split
  · split
    · rename_i hMore hCopied
      apply HoldsPrefix.some
      apply grows_within hKept.getD
      · exact (List.take_prefix _ _).trans (hSource.drop _)
      · have hInside : min (size target) (segment.last + 1) - segment.start ≤ segment.length := by
          unfold Segment.length
          omega
        rw [hCopied]
        change size _ + _ ≤ _
        omega
    · exact HoldsPrefix.some hKept.getD
  · exact hKept

theorem begin_exact (hTarget : ∀ bytes, files.target = some bytes → bytes <+: object)
    (hHeld : AllPrefixes plan object files) (stopped : Bool) :
    Exact plan object (beginRanges plan files stopped) where
  held := by
    intro k hCount
    change HoldsPrefix _ _ (if k < plan.count then _ else _)
    rw [if_pos hCount]
    apply prepareSegment_exact _ (hHeld k hCount)
    intro bytes hBytes
    exact hTarget bytes (Option.filter_eq_some_iff.mp hBytes).1
  coming := fun _ _ _ => trivial
  whole := by
    intro hWhole
    cases hWhole

/- A call that did not return `True` left the target. -/
theorem target_of_phase {fed : List α} {phase : Phase α}
    (hPhase : PhaseKept plan target files fed phase) (hResult : result phase ≠ some (.ok true)) :
    files.target = target := by
  cases phase with
  | transferring | assembling => exact hPhase.1
  | ended ending =>
    cases ending with
    | error => exact hPhase
    | ok returned =>
      cases returned with
      | false => exact hPhase
      | true => exact absurd rfl hResult

/- What files of an object a call may start from. -/
structure Holding (plan : RangePlan) (object : List α) (files : Files α) : Prop where
  target : ∀ bytes, files.target = some bytes → bytes <+: object
  segments : AllPrefixes plan object files

/- A target that holds a prefix is never too long. -/
theorem Holding.filter_target (hBytes : object.length = plan.expectedBytes)
    (hHolding : Holding plan object files) : (files.target.filter fun bytes =>
      decide (bytes.length ≤ plan.expectedBytes)) =
      files.target := by
  cases hTarget : files.target with
  | none => rfl
  | some bytes =>
    have hPrefix := hHolding.target bytes hTarget
    have hFits := hPrefix.length_le
    rw [hBytes] at hFits
    simp [hFits]

/- What one call has to answer for. -/
structure CallExact (plan : RangePlan) (object : List α) (files : Files α)
    (outcome : RangeOutcome α) : Prop where
  whole : outcome.result = some (.ok true) → outcome.files.target = some object
  unchanged : outcome.result ≠ some (.ok true) → outcome.files.target = files.target
  segments : AllPrefixes plan object outcome.files
  rising : outcome.reports.Pairwise (· ≤ ·)
  bounded : ∀ report ∈ outcome.reports, report ≤ object.length

theorem downloadRanges_exact {schedule : RangeSchedule α}
    (hBytes : object.length = plan.expectedBytes) (hHolding : Holding plan object files)
    (hHonest : ∀ step ∈ (rangeMachine plan).trace (beginRanges plan files schedule.stopped)
      schedule.moves, Honest plan object step) :
    CallExact plan object files (downloadRanges plan files schedule) := by
  unfold downloadRanges
  split
  · rename_i hValid
    have hBegun : Kept plan files.target (beginRanges plan files schedule.stopped) := by
      rw [← hHolding.filter_target hBytes]
      exact begin_kept files schedule.stopped
    have hMoves := moves_kept hValid hBegun schedule.moves
    have hExact := moves_exact hValid hBytes hBegun
      (begin_exact hHolding.target hHolding.segments schedule.stopped) hHonest
    refine ⟨hExact.whole, target_of_phase hMoves.1.phase, hExact.held, hMoves.2.1, ?_⟩
    intro report hMem
    rw [hBytes]
    exact (hMoves.2.2 report hMem).trans (hMoves.1.progress_le hValid)
  · exact ⟨by simp, fun _ => rfl, hHolding.segments, List.Pairwise.nil, by simp⟩

theorem CallExact.holding {outcome : RangeOutcome α} (hHolding : Holding plan object files)
    (hCall : CallExact plan object files outcome) : Holding plan object outcome.files where
  target := by
    intro bytes hTarget
    by_cases hWhole : outcome.result = some (.ok true)
    · rw [hCall.whole hWhole] at hTarget
      obtain rfl := Option.some.inj hTarget
      exact List.prefix_refl _
    · rw [hCall.unchanged hWhole] at hTarget
      exact hHolding.target bytes hTarget
  segments := hCall.segments

/-
  Over any number of calls on one target: a call that returns `True` leaves exactly the object in
  the target, any other leaves the target as it was, every segment file that exists is a prefix of
  its segment, and the progress a call reports rises and stays within the object.
-/
theorem ranges_assemble_exactly
    (plan : RangePlan)
    (object : List α)
    (hBytes : object.length = plan.expectedBytes)
    (files : Files α)
    (hTarget : ∀ bytes, files.target = some bytes → bytes <+: object)
    (hSegments :
      ∀ k,
        k < plan.count →
        ∀ bytes,
          files.segments k = some bytes →
          bytes <+: (plan.segment k).bytes object)
    (calls : List (RangeSchedule α))
    (hHonest :
      ∀ call ∈ (callsMachine plan).trace files calls,
        ∀ step ∈ (rangeMachine plan).trace
          (beginRanges plan call.before call.input.stopped)
          call.input.moves,
          Honest plan object step) :
    ∀ call ∈ (callsMachine plan).trace files calls,
      (call.output.result = some (.ok true) →
       call.output.files.target = some object) ∧
      (call.output.result ≠ some (.ok true) →
       call.output.files.target = call.before.target) ∧
      (∀ k,
         k < plan.count →
         ∀ bytes,
           call.output.files.segments k = some bytes →
           bytes <+: (plan.segment k).bytes object) ∧
      call.output.reports.Pairwise (· ≤ ·) ∧
      ∀ report ∈ call.output.reports, report ≤ object.length := by
  intro call hCall
  have hBefore := (callsMachine plan).invariant_before (I := Holding plan object)
    (fun before schedule hHolding hMoves => (downloadRanges_exact hBytes hHolding hMoves).holding
      hHolding) ⟨hTarget, hSegments⟩ hHonest call hCall
  obtain ⟨hHolding, _, hStep⟩ := hBefore
  have hMoves := hHonest call hCall
  rw [hStep] at hMoves ⊢
  have hExact := downloadRanges_exact hBytes hHolding hMoves
  exact ⟨hExact.whole, hExact.unchanged, hExact.segments, hExact.rising, hExact.bounded⟩

/- An answer that keeps what its content range says. -/
def keepsRange [BEq α] (object : List α) : RangeInput α → Bool
  | .answer _ (.response response) =>
    match response.contentRange with
    | some (offset, _, _) => response.chunks.flatten.isPrefixOf (object.drop offset)
    | none => true
  | _ => true

/- Answers that keep their content ranges are honest. -/
theorem honest_of_keepsRange [BEq α] [LawfulBEq α] {moves : List (RangeInput α)}
    (hMoves : ∀ move ∈ moves, keepsRange object move) :
    ∀ step ∈ (rangeMachine plan).trace download moves, Honest plan object step := by
  intro step hStep _ _ _ _ _ hInput _ hOpened
  have hKeeps := hMoves step.input ((rangeMachine plan).input_mem_of_mem_trace hStep)
  obtain ⟨hAnswer, hRange⟩ := openChecked_accepts hOpened
  rw [hInput, hAnswer] at hKeeps
  simp only [keepsRange, hRange] at hKeeps
  exact List.isPrefixOf_iff_prefix.mp hKeeps

/- Two workers for an object of three bytes. -/
def smallPlan : RangePlan := ⟨3, 2⟩

def partialAnswer (offset last : Nat) (chunks : List (List Nat)) : Answer Nat :=
  .response ⟨206, some (offset, last, 3), none, chunks, none⟩

/-
  Worker 0 has the first byte from the target and worker 1 a body that ends early, which it asks for
  again.
-/
def smallCall : RangeSchedule Nat where
  stopped := false
  moves := [.work 1, .work 0, .work 1, .work 1, .work 0, .work 0, .work 1,
      .answer 1 (partialAnswer 2 2 []), .work 1, .work 1, .work 1, .work 1, .work 1, .work 0,
      .answer 0 (partialAnswer 1 1 [[8]]), .work 0, .work 1, .work 0, .work 1, .work 0, .work 0,
      .collect 0, .answer 1 (partialAnswer 2 2 [[9]]), .work 1, .work 1, .work 1, .work 1,
      .collect 1, .proceed, .proceed, .proceed, .proceed, .proceed,
      .proceed]

def smallFiles : Files Nat := ⟨some [7], fun _ => none⟩

/- A small object is put together from its ranges. -/
theorem small_call_assembles :
    ∃ call ∈ (callsMachine smallPlan).trace smallFiles [smallCall],
      call.output.result = some (.ok true) ∧
      call.output.files.target = some [7, 8, 9] := by
  have hResult : (downloadRanges smallPlan smallFiles smallCall).result = some (.ok true) := by
    decide +kernel
  have hHonest : ∀ call ∈ (callsMachine smallPlan).trace smallFiles [smallCall],
      ∀ step ∈ (rangeMachine smallPlan).trace (beginRanges smallPlan call.before call.input.stopped)
      call.input.moves, Honest smallPlan [7, 8, 9] step := by
    intro _ hCall
    rw [List.mem_singleton.mp hCall]
    exact honest_of_keepsRange (by decide)
  have hTarget : ∀ bytes, smallFiles.target = some bytes → bytes <+: [7, 8, 9] := by
    intro _ hSame
    obtain rfl := Option.some.inj hSame
    decide
  have hSegments : ∀ k, k < smallPlan.count → ∀ bytes, smallFiles.segments k = some bytes →
      bytes <+: (smallPlan.segment k).bytes [7, 8, 9] := by
    intro _ _ _ hNone
    cases hNone
  exact ⟨_, List.mem_singleton_self _, hResult,
      (ranges_assemble_exactly smallPlan [7, 8, 9] rfl smallFiles hTarget hSegments [smallCall]
      hHonest _ (List.mem_singleton_self _)).1 hResult⟩

end VonkForge.Cache
