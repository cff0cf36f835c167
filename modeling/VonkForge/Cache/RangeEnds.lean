import VonkForge.Cache.RangeLanes

/-
  What a range download leaves behind when it ends.

  A worker that finished has its whole segment, or it gave up on short bodies. So the assembly never
  meets a file that is not complete, and a call that returns `False` has removed its segment files,
  unless a worker gave up.

  Main declarations:
    * `Upward`
    * `Turn.done`
    * `Served.ends`
    * `downloadRanges_leaves`
-/

----
-- Flags
----

namespace VonkForge.Cache

variable {α : Type} {plan : RangePlan} {download next : RangeDownload α} {k : Nat}

/- The flags of a call only go up. -/
structure Upward (download next : RangeDownload α) : Prop where
  stopped : download.stopped = true → next.stopped = true
  proven : download.proven = true → next.proven = true
  abort : download.abort = true → next.abort = true
  fallback : download.fallback = true → next.fallback = true
  ignored : download.ignored = true → next.ignored = true
  failure : download.failure ≠ none → next.failure ≠ none

theorem note_failure (failure : RangeFailure) : (download.note failure).failure ≠ none := by
  simp [RangeDownload.note]

theorem Turn.upward
    {input : RangeInput α}
    (hTurn : Turn plan k download input next) :
    Upward download next := by
  cases hTurn with
  | note | collectFailed => exact ⟨id, id, id, id, id, fun _ => note_failure _⟩
  | prove => exact ⟨id, fun _ => rfl, id, id, id, id⟩
  | refuse => exact ⟨id, id, fun _ => rfl, id, id, id⟩
  | giveUp => exact ⟨id, id, id, fun _ => rfl, id, id⟩
  | collectIgnored => exact ⟨id, id, fun _ => rfl, id, fun _ => rfl, id⟩
  | _ => exact ⟨id, id, id, id, id, id⟩

----
-- Workers That Are Done
----

/- The segment file of a worker is complete. -/
def Full (plan : RangePlan) (download : RangeDownload α) (k : Nat) : Prop :=
  size (download.files.segments k) = (plan.segment k).length

/- What the end of a worker says about its segment. A checked answer is no finished transfer. -/
def Done (plan : RangePlan) (download : RangeDownload α) (k : Nat) : Worker α → Prop
  | .settling _ _ _ outcome => outcome ≠ .error .finished
  | .exited .finished => Full plan download k ∨ download.fallback = true
  | .collected =>
    Full plan download k ∨ download.fallback = true ∨
      download.ignored = true ∨ download.failure ≠ none
  | _ => True

variable {worker : Worker α}

theorem done_setWorker (hDone : Done plan download k worker) :
    Done plan (download.setWorker k worker) k ((download.setWorker k worker).workers k) := by
  rw [workers_setWorker]
  exact hDone

theorem openChecked_ne_finished (offset last : Nat) (answer : Answer α) :
    openChecked plan offset last answer ≠ .error .finished := by
  fun_cases openChecked <;> simp

/- A worker that ends has its segment in full, or left it for a reason that is kept. -/
theorem Turn.done
    {input : RangeInput α}
    (hTurn : Turn plan k download input next)
    (hLane : Lane plan download k)
    (hDone : Done plan download k (download.workers k)) :
    Done plan next k (next.workers k) := by
  have hAccounts := hLane.accounts
  cases hTurn with
  | stay => exact hDone
  | complete hWorker hPast =>
    have hBounded := hLane.bounded
    rw [hWorker] at hAccounts
    have hSize : size (download.files.segments k) = download.counts k := hAccounts
    refine done_setWorker (Or.inl ?_)
    unfold Full Segment.length at *
    omega
  | probed | heard => exact done_setWorker (openChecked_ne_finished _ _ _)
  | note hWorker | pass hWorker | prove hWorker | refuse hWorker | release hWorker =>
    rw [hWorker] at hDone
    exact done_setWorker hDone
  | @leave _ _ exit hWorker hOther =>
    rw [hWorker] at hDone
    cases exit with
    | finished => exact absurd rfl hDone
    | ignored => exact done_setWorker trivial
    | failed failure => exact absurd rfl (hOther failure)
  | giveUp => exact done_setWorker (Or.inr rfl)
  | finish hWorker =>
    rw [hWorker] at hAccounts
    have hAll := hAccounts.2
    rw [Nat.zero_add] at hAll
    exact done_setWorker (Or.inl (hAccounts.1.trans hAll))
  | collect hWorker =>
    rw [hWorker] at hDone
    exact done_setWorker (hDone.imp_right Or.inl)
  | collectIgnored => exact done_setWorker (Or.inr (Or.inr (Or.inl rfl)))
  | collectFailed => exact done_setWorker (Or.inr (Or.inr (Or.inr (note_failure _))))
  | _ => exact done_setWorker trivial

/- A worker that is done stays so when flags go up. -/
theorem Done.mono (hDone : Done plan download k worker)
    (hSegment : next.files.segments k = download.files.segments k)
    (hUpward : Upward download next) :
    Done plan next k worker := by
  have hFull : Full plan download k → Full plan next k := by
    intro hFull
    unfold Full
    rw [hSegment]
    exact hFull
  cases worker with
  | exited exit =>
    cases exit with
    | finished => exact hDone.imp hFull hUpward.fallback
    | ignored | failed => trivial
  | collected =>
    exact hDone.imp hFull (Or.imp hUpward.fallback (Or.imp hUpward.ignored hUpward.failure))
  | settling => exact hDone
  | _ => trivial

----
-- The End of a Call
----

/- No segment file of the plan exists. -/
def NoSegments (plan : RangePlan) (segments : Nat → Option (List α)) : Prop :=
  ∀ k, k < plan.count → segments k = none

def PhaseEnds (plan : RangePlan) (download : RangeDownload α) : Phase α → Prop
  | .transferring => True
  | .assembling _ _ _ => ∀ k, k < plan.count → Full plan download k
  | .ended (.ok true) => NoSegments plan download.files.segments
  | .ended (.ok false) => download.fallback = true ∨ NoSegments plan download.files.segments
  | .ended (.error _) => True

structure Ends (plan : RangePlan) (download : RangeDownload α) : Prop where
  done : isTransferring download.phase = true → ∀ k, k < plan.count →
    Done plan download k (download.workers k)
  phase : PhaseEnds plan download download.phase

theorem noSegments_cleanupRanges (files : Files α) :
    NoSegments plan (files.cleanupRanges plan).segments :=
  fun _ hCount => if_pos hCount

/- A worker's move keeps what is known of all of them. -/
theorem Ends.ofLane (hEnds : Ends plan download) (hPhase : isTransferring download.phase)
    (hFrame : Frame k download next) (hUpward : Upward download next)
    (hDone : Done plan next k (next.workers k)) : Ends plan next where
  done := by
    intro _ j hCount
    by_cases hSame : j = k
    · rw [hSame]
      exact hDone
    · rw [hFrame.workers j hSame]
      exact (hEnds.done hPhase j hCount).mono (hFrame.segments j hSame) hUpward
  phase := by
    rw [hFrame.phase, transferring_of_isTransferring hPhase]
    trivial

theorem ends_of_later (hLater : isTransferring next.phase = false)
    (hPhase : PhaseEnds plan next next.phase) : Ends plan next where
  done := by
    intro hTransferring
    rw [hLater] at hTransferring
    cases hTransferring
  phase := hPhase

section

variable (hEnds : Ends plan download) (hPhase : isTransferring download.phase = true)
  (hCollected :
    ((List.range plan.count).all fun j => RangeDownload.isCollected (download.workers j)) = true)

include hEnds hPhase hCollected

/- All workers were collected without a flag that matters. -/
theorem full_of_collected
    (hIgnored : download.ignored = false)
    (hFailure : download.failure = none)
    (hFallback : download.fallback = false)
    (hCount : k < plan.count) :
    Full plan download k := by
  have hAt := List.all_eq_true.mp hCollected k (List.mem_range.mpr hCount)
  have hDone := hEnds.done hPhase k hCount
  cases hWorker : download.workers k with
  | collected =>
    rw [hWorker] at hDone
    rcases hDone with hFull | hUp | hUp | hUp
    · exact hFull
    · rw [hFallback] at hUp
      cases hUp
    · rw [hIgnored] at hUp
      cases hUp
    · exact absurd hFailure hUp
  | _ =>
    rw [hWorker] at hAt
    cases hAt

theorem close_ends : Ends plan (download.close plan) := by
  fun_cases RangeDownload.close with
  | case1 => exact ends_of_later rfl (Or.inr (noSegments_cleanupRanges _))
  | case4 _ _ _ hFallback => exact ends_of_later rfl (Or.inl hFallback)
  | case5 hIgnored hFailure _ hFallback =>
    refine ends_of_later rfl (fun k hCount => ?_)
    have hFull := full_of_collected hEnds hPhase hCollected (Bool.eq_false_iff.mpr hIgnored)
      hFailure (Bool.eq_false_iff.mpr hFallback) hCount
    exact hFull
  | _ => exact ends_of_later rfl trivial

end

section

variable (hValid : plan.valid = true)

include hValid

theorem segment_pos (hCount : k < plan.count) : 0 < (plan.segment k).length := by
  have hWidth := width_pos hValid
  have hStart : k * plan.width < plan.expectedBytes := Slices.mul_lt_of_lt_count hCount
  rw [length_segment hValid hCount]
  omega

/- The assembly finds every segment file complete. -/
theorem assemble_ends (index position : Nat)
    (output : List α) (hFull : ∀ k, k < plan.count → Full plan download k) :
    Ends plan (download.assemble plan index position output) := by
  apply ends_of_later (assemble_later index position output)
  fun_cases RangeDownload.assemble with
  | case1 => exact noSegments_cleanupRanges _
  | case2 hIndex hMissing =>
    -- A complete segment file is not empty.
    have hEmpty := hFull index (Nat.lt_of_not_le hIndex)
    have hPositive := segment_pos hValid (Nat.lt_of_not_le hIndex)
    rw [Full, hMissing] at hEmpty
    exact absurd hEmpty hPositive.ne
  | case3 hIndex _ hFile hWrong =>
    have hHere := hFull index (Nat.lt_of_not_le hIndex)
    rw [Full, hFile] at hHere
    exact absurd hHere hWrong.2
  | case5 => trivial
  | _ => exact hFull

theorem proceed_ends (hEnds : Ends plan download) : Ends plan (download.proceed plan) := by
  have hPhase := hEnds.phase
  fun_cases RangeDownload.proceed with
  | case1 =>
    refine ⟨fun hOpen k hCount => ?_, hPhase⟩
    exact (hEnds.done hOpen k hCount).mono rfl ⟨id, id, fun _ => rfl, id, id, id⟩
  | case2 hHere _ hCollected => exact close_ends hEnds (by rw [hHere]; rfl) hCollected
  | case4 index position output hHere =>
    rw [hHere] at hPhase
    exact assemble_ends hValid index position output hPhase
  | _ => exact hEnds

/- Every input keeps what the ends of the workers and of the call say. -/
theorem Served.ends
    {target : Option (List α)}
    {input : RangeInput α}
    (hServed : Served plan download input next)
    (hKept : Kept plan target download)
    (hEnds : Ends plan download) :
    Ends plan next := by
  cases hServed with
  | stop =>
    refine ⟨fun hPhase j hCount => ?_, hEnds.phase⟩
    exact (hEnds.done hPhase j hCount).mono rfl ⟨fun _ => rfl, id, id, id, id, id⟩
  | proceed => exact proceed_ends hValid hEnds
  | turn k hPhase hCount hTurn =>
    exact hEnds.ofLane hPhase hTurn.frame hTurn.upward
      (hTurn.done (hKept.lanes hPhase k hCount) (hEnds.done hPhase k hCount))
  | closed => exact hEnds

end

/- The state in which the moves of a call end. -/
def endOfRanges (plan : RangePlan) (files : Files α)
    (schedule : RangeSchedule α) : RangeDownload α :=
  (rangeMachine plan).final (beginRanges plan files schedule.stopped) schedule.moves

theorem endOfRanges_ends (hValid : plan.valid) (files : Files α)
    (schedule : RangeSchedule α) : Ends plan (endOfRanges plan files schedule) := by
  have hBoth : Kept plan (files.target.filter fun bytes =>
        decide (bytes.length ≤ plan.expectedBytes)) (endOfRanges plan files schedule) ∧
      Ends plan (endOfRanges plan files schedule) := by
    apply (rangeMachine plan).invariant (I := fun current => Kept plan _ current ∧
        Ends plan current) (P := fun _ => True)
    · intro current input hCurrent _
      have hServed := serve_served plan current input
      exact ⟨hServed.kept hValid hCurrent.1, hServed.ends hValid hCurrent.1 hCurrent.2⟩
    · exact ⟨begin_kept files schedule.stopped, fun _ _ _ => trivial, trivial⟩
    · exact fun _ _ => trivial
  exact hBoth.2

----
-- Short Bodies
----

/- A body that ends before the bytes that are asked for, or is said to. -/
def cutShort (remaining : Nat) (chunks : List (List α)) : Option RangeFailure → Bool
  | some failure => failure = .truncated
  | none => chunks.flatten.length < remaining

/- An answer whose body is short of its own content range. -/
def Answer.short : Answer α → Bool
  | .raises failure => failure = .truncated
  | .response given =>
    match given.contentRange with
    | some (offset, last, _) => cutShort (last - offset + 1) given.chunks given.raises
    | none => false

/- A short answer to worker `k`. -/
def shortFor (k : Nat) : RangeInput α → Bool
  | .answer j answer => decide (j = k) && answer.short
  | _ => false

/- The short bodies a worker has seen, with the one it is about to see. -/
def shortSeen (segment : Segment) : Worker α → Nat
  | .trying tries => tries
  | .opening tries _ => tries
  | .waiting tries _ => tries
  | .probing tries _ => tries
  | .requesting tries _ => tries
  | .settling _ tries offset (.ok response) =>
    tries + (cutShort (segment.last - offset + 1) response.chunks response.raises).toNat
  | .settling _ tries _ (.error exit) => tries + (exit = .failed .truncated : Bool).toNat
  | .streaming tries remaining chunks raises => tries + (cutShort remaining chunks raises).toNat
  | .counting tries remaining _ chunks raises => tries + (cutShort remaining chunks raises).toNat
  | _ => 0

/- An answer that is checked is short if its body is. -/
theorem shortSeen_openChecked
    (answer : Answer α)
    (segment : Segment)
    (stage : Settling)
    (tries offset : Nat) :
    shortSeen segment (.settling stage tries offset
        (openChecked plan offset segment.last answer)) ≤
      tries + answer.short.toNat := by
  fun_cases openChecked with
  | case1 => simp [shortSeen, Answer.short]
  | case6 response _ _ hRange =>
    have hAccepted : response.contentRange =
        some (offset, segment.last, plan.expectedBytes) :=
      not_not.mp fun hOther => hRange (Or.inr hOther)
    simp [shortSeen, Answer.short, hAccepted]
  | _ => simp [shortSeen]

/- A body that is cut short after a chunk was cut short before it. -/
theorem cutShort_cons
    {remaining : Nat}
    {chunk : List α}
    {chunks : List (List α)}
    {raises : Option RangeFailure}
    (hFits : chunk.length ≤ remaining) :
    cutShort (remaining - chunk.length) chunks raises =
      cutShort remaining (chunk :: chunks) raises := by
  cases raises with
  | some => rfl
  | none =>
    simp only [cutShort, List.flatten_cons, List.length_append, decide_eq_decide]
    omega

/- What a response raises as short was seen as short. -/
theorem Raised.seen
    {segment : Segment}
    {tries : Nat}
    (hRaised : Raised worker tries .truncated) :
    tries + 1 ≤ shortSeen segment worker := by
  cases hRaised with
  | body => exact Nat.le_refl _
  | short hMissing => simp [shortSeen, cutShort, Nat.pos_of_ne_zero hMissing]
  | refused => simp [shortSeen]

/- A turn is one short body more if it brings one. -/
theorem Turn.seen
    {input : RangeInput α}
    (hTurn : Turn plan k download input next) :
    shortSeen (plan.segment k) (next.workers k) ≤
      shortSeen (plan.segment k) (download.workers k) + (shortFor k input).toNat := by
  cases hTurn with
  | stay => exact Nat.le_add_right _ _
  | probed answer hWorker | heard answer hWorker =>
    rw [workers_setWorker, hWorker]
    have hShort : (shortFor k (.answer k answer)).toNat = answer.short.toNat := by
      simp [shortFor]
    rw [hShort]
    exact shortSeen_openChecked answer _ _ _ _
  | ask hWorker =>
    rcases hWorker with hWorker | hWorker <;>
    · rw [workers_setWorker, hWorker]
      exact Nat.le_refl _
  | @pass _ _ outcome hWorker | @release _ _ outcome hWorker =>
    rw [workers_setWorker, hWorker]
    cases outcome <;> exact Nat.le_refl _
  | again hRaised =>
    rw [workers_setWorker]
    exact hRaised.seen
  | write hWorker hFits =>
    rw [workers_setWorker, hWorker]
    simp only [shortSeen, cutShort_cons hFits]
    exact Nat.le_refl _
  | enter hWorker | wait hWorker | probe hWorker | note hWorker | prove hWorker | refuse hWorker
  | openFile hWorker | count hWorker =>
    refine Nat.le_trans (Nat.le_of_eq (congrArg _ (workers_setWorker _))) ?_
    rw [hWorker]
    exact Nat.le_refl _
  | _ =>
    refine Nat.le_trans (Nat.le_of_eq (congrArg _ (workers_setWorker _))) ?_
    exact Nat.zero_le _

/- Three short bodies are needed to give up. -/
theorem Turn.gaveUp
    {input : RangeInput α}
    (hTurn : Turn plan k download input next)
    (hUp : next.fallback = true) :
    download.fallback = true ∨ 3 ≤ shortSeen (plan.segment k) (download.workers k) := by
  cases hTurn with
  | giveUp hRaised hMany => exact Or.inr (Nat.le_trans hMany hRaised.seen)
  | _ => exact Or.inl hUp

theorem proceed_tried : (download.proceed plan).workers = download.workers ∧
    (download.proceed plan).fallback = download.fallback := by
  fun_cases RangeDownload.proceed with
  | case2 => fun_cases RangeDownload.close <;> exact ⟨rfl, rfl⟩
  | case4 => fun_cases RangeDownload.assemble <;> exact ⟨rfl, rfl⟩
  | _ => exact ⟨rfl, rfl⟩

/- A move is one short body more for the worker that it answers short. -/
theorem Served.seen
    {input : RangeInput α}
    (hServed : Served plan download input next)
    (j : Nat) :
    shortSeen (plan.segment j) (next.workers j) ≤
      shortSeen (plan.segment j) (download.workers j) + (shortFor j input).toNat := by
  cases hServed with
  | proceed =>
    rw [proceed_tried.1]
    exact Nat.le_add_right _ _
  | turn k _ _ hTurn =>
    by_cases hSame : j = k
    · rw [hSame]
      exact hTurn.seen
    · rw [hTurn.frame.workers j hSame]
      exact Nat.le_add_right _ _
  | stop | closed => exact Nat.le_add_right _ _

theorem Served.gaveUp
    {input : RangeInput α}
    (hServed : Served plan download input next)
    (hUp : next.fallback = true) :
    download.fallback = true ∨
      ∃ j, j < plan.count ∧ 3 ≤ shortSeen (plan.segment j) (download.workers j) := by
  cases hServed with
  | proceed => exact Or.inl (proceed_tried.2.symm.trans hUp)
  | turn k _ hCount hTurn =>
    exact (hTurn.gaveUp hUp).imp_right fun hMany => ⟨k, hCount, hMany⟩
  | stop | closed => exact Or.inl hUp

/- A call gives up on ranges only if one of them is answered short three times. -/
theorem gaveUp_of_moves {moves : List (RangeInput α)}
    (hUp : ((rangeMachine plan).final download moves).fallback = true) :
    download.fallback = true ∨ ∃ j, j < plan.count ∧
      3 ≤ shortSeen (plan.segment j) (download.workers j) + moves.countP (shortFor j) := by
  induction moves generalizing download with
  | nil => exact Or.inl hUp
  | cons input moves ih =>
    have hServed := serve_served plan download input
    rcases ih hUp with hNow | ⟨j, hCount, hMany⟩
    · refine (hServed.gaveUp hNow).imp_right ?_
      exact fun ⟨j, hCount, hMany⟩ => ⟨j, hCount, Nat.le_trans hMany (Nat.le_add_right _ _)⟩
    · refine Or.inr ⟨j, hCount, ?_⟩
      have hSeen := hServed.seen j
      change 3 ≤ shortSeen (plan.segment j) ((download.serve plan input).download.workers j) +
        moves.countP (shortFor j) at hMany
      rw [List.countP_cons]
      cases hShort : shortFor j input with
      | true =>
        rw [hShort, Bool.toNat_true] at hSeen
        simp only [if_true]
        omega
      | false =>
        rw [hShort, Bool.toNat_false] at hSeen
        omega

/- No range is answered short three times. -/
def FewShort (plan : RangePlan) (schedule : RangeSchedule α) : Prop :=
  ∀ k, k < plan.count → schedule.moves.countP (shortFor k) < 3

/-
  A call that returns has removed the segment files, unless it returns `False` because a worker gave
  up.
-/
theorem downloadRanges_leaves
    {files : Files α}
    {schedule : RangeSchedule α}
    {completed : Bool}
    (hResult :
      (downloadRanges plan files schedule).result =
        some (.ok completed))
    (hFew : FewShort plan schedule) :
    NoSegments
      plan (downloadRanges plan files schedule).files.segments := by
  unfold downloadRanges at hResult ⊢
  split at hResult
  · rename_i hValid
    rw [if_pos hValid]
    have hPhase := (endOfRanges_ends hValid files schedule).phase
    have hGoes : (endOfRanges plan files schedule).fallback = false := by
      rw [Bool.eq_false_iff]
      intro hUp
      rcases gaveUp_of_moves hUp with hBegun | ⟨j, hCount, hMany⟩
      · cases hBegun
      · have hLess := hFew j hCount
        change 3 ≤ 0 + _ at hMany
        omega
    change result (endOfRanges plan files schedule).phase = some (.ok completed) at hResult
    change NoSegments plan (endOfRanges plan files schedule).files.segments
    cases hHere : (endOfRanges plan files schedule).phase with
    | transferring | assembling =>
      rw [hHere] at hResult
      cases hResult
    | ended =>
      rw [hHere] at hResult hPhase
      obtain rfl := Option.some.inj hResult
      cases completed with
      | true => exact hPhase
      | false =>
        rcases hPhase with hFallback | hNone
        · rw [hGoes] at hFallback
          cases hFallback
        · exact hNone
  · cases hResult

end VonkForge.Cache
