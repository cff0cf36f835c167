import VonkForge.Cache.RangeProbe
import VonkForge.Foundations.Rank

/-
  How a range download returns.

  A plain 200 makes the call return `False`, whatever else happens. The first failure is kept, so
  that the interruption of a worker which saw the abort flag is not what the call raises. Every move
  lowers a rank, and a call that has not ended has a move, so the call does return.

  Main declarations:
    * `Ignoring`
    * `Served.lowers`
    * `moves_on`
    * `refused_ranges_cost_one_request`
-/

----
-- Ignored Ranges
----

namespace VonkForge.Cache

variable {α : Type} {plan : RangePlan} {download next : RangeDownload α} {k : Nat}

/- A checked answer to a range that was ignored. -/
def isIgnored : Except Exit (Response α) → Bool
  | .error exit => exit = .ignored
  | .ok _ => false

/- A worker whose range was ignored. -/
def ignores : Worker α → Bool
  | .settling _ _ _ outcome => isIgnored outcome
  | .exited exit => exit = .ignored
  | _ => false

theorem ignores_of_looks
    {worker : Worker α}
    (hLooks : looks worker = true) :
    ignores worker = false := by
  cases worker <;> first | rfl | cases hLooks

theorem Raised.ignores_eq
    {worker : Worker α}
    {tries : Nat}
    {failure : RangeFailure}
    (hRaised : Raised worker tries failure) :
    ignores worker = false := by
  cases hRaised <;> simp [ignores, isIgnored]

/- A worker's range was ignored, collected yet or not. -/
def IgnoredBy (plan : RangePlan) (download : RangeDownload α) : Prop :=
  download.ignored = true ∨ ∃ j, j < plan.count ∧ ignores (download.workers j) = true

/- The call is going to return `False`, or has returned it. -/
def Ignoring (plan : RangePlan) (download : RangeDownload α) : Prop :=
  (isTransferring download.phase = true ∧ IgnoredBy plan download) ∨
    download.phase = .ended (.ok false)

variable {answer : Answer α} {failure : RangeFailure} {exit : Exit} {response : Response α}
variable {offset last tries : Nat} {begun : RangeDownload α} {before worker : Worker α}
variable {input : RangeInput α}

/- A worker whose range was ignored goes on to its end, and is collected as such. -/
theorem Turn.ignores
    (hTurn : Turn plan k download input next)
    (hIgnores : ignores (download.workers k) = true) :
    next.ignored = true ∨ ignores (next.workers k) = true := by
  cases hTurn with
  | stay => exact Or.inr hIgnores
  | collectIgnored => exact Or.inl rfl
  | pass hWorker | refuse hWorker | release hWorker | leave hWorker =>
    rw [hWorker] at hIgnores
    rw [workers_setWorker]
    exact Or.inr hIgnores
  | interrupt hLooks =>
    rw [ignores_of_looks hLooks] at hIgnores
    cases hIgnores
  | again hRaised | giveUp hRaised | fail hRaised =>
    rw [hRaised.ignores_eq] at hIgnores
    cases hIgnores
  | ask hWorker =>
    rcases hWorker with hWorker | hWorker <;> rw [hWorker] at hIgnores <;> cases hIgnores
  | start hWorker | complete hWorker | enter hWorker | wait hWorker | probe hWorker
  | probed _ hWorker | heard _ hWorker | note hWorker | prove hWorker | openFile hWorker
  | finish hWorker | drop hWorker | write hWorker | count hWorker | collect hWorker
  | collectFailed hWorker =>
    rw [hWorker] at hIgnores
    cases hIgnores

section

variable (hIgnored : IgnoredBy plan download)

include hIgnored

theorem Turn.ignoredBy (hTurn : Turn plan k download input next) : IgnoredBy plan next := by
  rcases hIgnored with hFlag | ⟨j, hCount, hIgnores⟩
  · exact Or.inl (hTurn.upward.ignored hFlag)
  · by_cases hSame : j = k
    · subst hSame
      exact (hTurn.ignores hIgnores).imp_right fun hKept => ⟨j, hCount, hKept⟩
    · refine Or.inr ⟨j, hCount, ?_⟩
      rw [hTurn.frame.workers j hSame]
      exact hIgnores

/- Once all are collected, the flag says it. -/
theorem ignored_of_collected
    (hCollected : ((List.range plan.count).all fun j =>
        RangeDownload.isCollected (download.workers j))) : download.ignored := by
  rcases hIgnored with hFlag | ⟨j, hCount, hIgnores⟩
  · exact hFlag
  · have hAt := List.all_eq_true.mp hCollected j (List.mem_range.mpr hCount)
    cases hWorker : download.workers j <;> simp_all [RangeDownload.isCollected, ignores]

end

/- A call that is going to return `False` does so. -/
theorem Served.ignoring
    (hServed : Served plan download input next)
    (hIgnoring : Ignoring plan download) :
    Ignoring plan next := by
  rcases hIgnoring with ⟨hPhase, hIgnored⟩ | hEnded
  · have hHere := transferring_of_isTransferring hPhase
    cases hServed with
    | proceed =>
      fun_cases RangeDownload.proceed with
      | case1 => exact Or.inl ⟨hPhase, hIgnored⟩
      | case2 _ _ hCollected =>
        right
        unfold RangeDownload.close
        rw [if_pos (ignored_of_collected hIgnored hCollected)]
      | case3 => exact Or.inl ⟨hPhase, hIgnored⟩
      | case4 _ _ _ hLater | case5 _ hLater =>
        rw [hHere] at hLater
        cases hLater
    | turn _ _ _ hTurn =>
      exact Or.inl ⟨(congrArg _ hTurn.frame.phase).trans hPhase, hTurn.ignoredBy hIgnored⟩
    | stop | closed => exact Or.inl ⟨hPhase, hIgnored⟩
  · right
    cases hServed with
    | proceed => simp only [RangeDownload.proceed, hEnded]
    | turn _ hPhase =>
      rw [hEnded] at hPhase
      cases hPhase
    | stop | closed => exact hEnded

/- A plain 200 to a request. -/
theorem ignoring_of_plain {offset : Nat} (hPhase : isTransferring download.phase)
    (hCount : k < plan.count) (hAsking : asking (download.workers k) = some offset)
    (hAnswer : answer = .response response) (hStatus : response.status = 200) :
    Ignoring plan (download.answered plan k answer) := by
  have hChecked :
      ∀ place, openChecked plan place (plan.segment k).last answer = .error .ignored := by
    intro _
    rw [hAnswer]
    simp only [openChecked]
    rw [if_pos hStatus]
  have hTurn : Turn plan k download _ _ := answered_turn answer
  left
  rw [hTurn.frame.phase]
  refine ⟨hPhase, Or.inr ⟨k, hCount, ?_⟩⟩
  unfold RangeDownload.answered
  cases hWorker : download.workers k with
  | probing | requesting =>
    simp only [hChecked]
    exact congrArg ignores (workers_setWorker _)
  | _ =>
    rw [hWorker] at hAsking
    cases hAsking

----
-- The First Failure
----

/- What an answer can raise, when opened or when read. -/
def Answer.raising : Answer α → Option RangeFailure
  | .raises failure => some failure
  | .response given => given.raises

/- What a checked answer raises, at once or when read. -/
def outcomeRaises : Except Exit (Response α) → Option RangeFailure
  | .ok response => response.raises
  | .error (.failed failure) => some failure
  | .error _ => none

/- What the answer that a worker has, or the body that it reads, raises. -/
def bodyRaises : Worker α → Option RangeFailure
  | .settling _ _ _ outcome => outcomeRaises outcome
  | .streaming _ _ _ raises => raises
  | .counting _ _ _ _ raises => raises
  | _ => none

/- A failure is in the slot before its worker sets the flag. -/
def Noted (failure : Option RangeFailure) : Worker α → Prop
  | .settling stage _ _ outcome => outcome ≠ .error .finished ∧
      (stage = .flagging → ∀ raised, outcome = .error (.failed raised) → failure ≠ none)
  | _ => True

/-
  The abort flag has a reason that the call will report, and an interruption has a stop or that flag
  as its cause.
-/
structure Blamed (plan : RangePlan) (download : RangeDownload α) : Prop where
  abort : download.abort = true → download.failure ≠ none ∨ IgnoredBy plan download
  exits : ∀ j, download.workers j = .exited (.failed .interrupted) → download.stopped = true ∨
    download.abort = true
  failure : download.failure = some .interrupted → download.stopped = true ∨ IgnoredBy plan download
  bodies : ∀ j, bodyRaises (download.workers j) ≠ some .interrupted
  noted : ∀ j, Noted download.failure (download.workers j)
  failing : download.failing = true → download.failure ≠ none

/- An interruption that a response raises is what its body raises. -/
theorem Raised.bodyRaises_eq
    (hRaised : Raised worker tries .interrupted) :
    bodyRaises worker = some .interrupted := by
  cases hRaised <;> rfl

/- Checking an answer raises no interruption of its own. -/
theorem outcomeRaises_openChecked (hRaising : answer.raising ≠ some .interrupted) :
    outcomeRaises (openChecked plan offset last answer) ≠ some .interrupted := by
  fun_cases openChecked <;> simp_all [outcomeRaises, Answer.raising]

/- A worker that a turn ends as interrupted has seen a flag. -/
theorem Turn.interrupted
    (hTurn : Turn plan k download input next)
    (hBody : bodyRaises (download.workers k) ≠ some .interrupted)
    (hExit : next.workers k = .exited (.failed .interrupted)) :
    download.workers k = next.workers k ∨ download.interrupted = true := by
  cases hTurn with
  | stay => exact Or.inl rfl
  | interrupt _ hStopped => exact Or.inr hStopped
  | fail hRaised =>
    rw [workers_setWorker] at hExit
    cases hExit
    exact absurd hRaised.bodyRaises_eq hBody
  | leave _ hOther =>
    rw [workers_setWorker] at hExit
    cases hExit
    exact absurd rfl (hOther .interrupted)
  | openFile =>
    rw [workers_openFile] at hExit
    cases hExit
  | _ =>
    rw [workers_setWorker] at hExit
    cases hExit

theorem Turn.bodies
    (hTurn : Turn plan k download input next)
    (hRaising : ∀ answer, input = .answer k answer → asking (download.workers k) ≠ none →
      answer.raising ≠ some .interrupted)
    (hBody : bodyRaises (download.workers k) ≠ some .interrupted) :
    bodyRaises (next.workers k) ≠ some .interrupted := by
  cases hTurn with
  | stay => exact hBody
  | probed answer hWorker | heard answer hWorker =>
    rw [workers_setWorker]
    exact outcomeRaises_openChecked (hRaising answer rfl (by rw [hWorker]; simp [asking]))
  | note hWorker | pass hWorker | prove hWorker | refuse hWorker | release hWorker
  | openFile hWorker | write hWorker | count hWorker =>
    rw [hWorker] at hBody
    first | rw [workers_setWorker] | rw [workers_openFile]
    exact hBody
  | _ =>
    rw [workers_setWorker]
    simp [bodyRaises]

theorem noted_setWorker (hNoted : Noted download.failure worker) :
    Noted (download.setWorker k worker).failure ((download.setWorker k worker).workers k) := by
  rw [workers_setWorker]
  exact hNoted

theorem Turn.noted
    (hTurn : Turn plan k download input next)
    (hNoted : Noted download.failure (download.workers k)) :
    Noted next.failure (next.workers k) := by
  cases hTurn with
  | stay => exact hNoted
  | probed | heard =>
    exact noted_setWorker ⟨openChecked_ne_finished _ _ _, fun hStage => by cases hStage⟩
  | note => exact noted_setWorker ⟨by simp, fun _ _ _ => note_failure _⟩
  | pass hWorker hOther =>
    rw [hWorker] at hNoted
    exact noted_setWorker ⟨hNoted.1, fun _ raised hRaised => absurd hRaised (hOther raised)⟩
  | prove hWorker | refuse hWorker | release hWorker =>
    rw [hWorker] at hNoted
    exact noted_setWorker ⟨hNoted.1, fun hStage => by cases hStage⟩
  | _ => exact noted_setWorker trivial

theorem Noted.mono {before after : Option RangeFailure} (hNoted : Noted before worker)
    (hUp : before ≠ none → after ≠ none) : Noted after worker := by
  cases worker with
  | settling =>
    exact ⟨hNoted.1, fun hStage raised hRaised => hUp (hNoted.2 hStage raised hRaised)⟩
  | _ => trivial

section

variable (hBlamed : Blamed plan download)

include hBlamed

/- A lane's move, with what it does to the flags. -/
theorem Blamed.ofLane
    (hFrame : Frame k download next) (hUpward : Upward download next)
    (hIgnored : IgnoredBy plan download → IgnoredBy plan next)
    (hAbort : next.abort → download.abort ∨ next.failure ≠ none ∨ IgnoredBy plan next)
    (hFailure : next.failure = some .interrupted → download.failure = some .interrupted ∨
          next.stopped ∨ IgnoredBy plan next)
    (hExit : next.workers k = .exited (.failed .interrupted) → download.workers k = next.workers k ∨
          next.stopped ∨ next.abort)
    (hBody : bodyRaises (next.workers k) ≠ some .interrupted)
    (hNoted : Noted next.failure (next.workers k))
    (hFailing : next.failing → download.failing ∨ next.failure ≠ none) : Blamed plan next where
  abort := by
    intro hSet
    rcases hAbort hSet with hBefore | hReason
    · exact (hBlamed.abort hBefore).imp hUpward.failure hIgnored
    · exact hReason
  exits := by
    intro j hExited
    have hOld : download.workers j = .exited (.failed .interrupted) →
          next.stopped ∨ next.abort :=
      fun hBefore => (hBlamed.exits j hBefore).imp hUpward.stopped hUpward.abort
    by_cases hSame : j = k
    · subst hSame
      rcases hExit hExited with hKept | hReason
      · exact hOld (hKept.trans hExited)
      · exact hReason
    · rw [hFrame.workers j hSame] at hExited
      exact hOld hExited
  failure := by
    intro hSome
    rcases hFailure hSome with hBefore | hReason
    · exact (hBlamed.failure hBefore).imp hUpward.stopped hIgnored
    · exact hReason
  bodies := by
    intro j
    by_cases hSame : j = k
    · rw [hSame]
      exact hBody
    · rw [hFrame.workers j hSame]
      exact hBlamed.bodies j
  noted := by
    intro j
    by_cases hSame : j = k
    · rw [hSame]
      exact hNoted
    · rw [hFrame.workers j hSame]
      exact (hBlamed.noted j).mono hUpward.failure
  failing := fun hSet =>
    (hFailing hSet).elim (fun hBefore => hUpward.failure (hBlamed.failing hBefore)) id

theorem Turn.blamed
    (hTurn : Turn plan k download input next)
    (hCount : k < plan.count)
    (hRaising : ∀ answer, input = .answer k answer → asking (download.workers k) ≠ none →
      answer.raising ≠ some .interrupted) :
    Blamed plan next := by
  have hNoted := hBlamed.noted k
  have hBody := hBlamed.bodies k
  apply hBlamed.ofLane hTurn.frame hTurn.upward hTurn.ignoredBy
  · intro hSet
    have hIgnored : IgnoredBy plan download → _ := fun hBefore => hTurn.ignoredBy hBefore
    cases hTurn with
    | @refuse _ _ exit hWorker =>
      right
      rw [hWorker] at hNoted
      cases exit with
      | finished => exact absurd rfl hNoted.1
      | ignored => exact Or.inr (hIgnored (Or.inr ⟨k, hCount, by rw [hWorker]; rfl⟩))
      | failed raised => exact Or.inl (hNoted.2 rfl raised rfl)
    | collectIgnored => exact Or.inr (Or.inr (Or.inl rfl))
    | _ => exact Or.inl hSet
  · intro hSome
    have hUpward := hTurn.upward
    have hIgnored : IgnoredBy plan download → _ := fun hBefore => hTurn.ignoredBy hBefore
    cases hTurn with
    | note hWorker =>
      rw [hWorker] at hBody
      refine Or.inl ((Option.or_eq_some_iff.mp hSome).resolve_right fun hMine => ?_)
      exact hBody hMine.2
    | collectFailed hWorker =>
      -- The interruption of a worker that saw the flag comes after the failure or the ignored range
      -- that set it.
      refine (Option.or_eq_some_iff.mp hSome).imp_right ?_
      rintro ⟨hFirst, hMine⟩
      cases hMine
      refine (hBlamed.exits k hWorker).imp hUpward.stopped fun hAbort => ?_
      exact hIgnored ((hBlamed.abort hAbort).resolve_left (absurd hFirst))
    | _ => exact Or.inl hSome
  · intro hExit
    refine (hTurn.interrupted hBody hExit).imp_right fun hStopped => ?_
    rw [RangeDownload.interrupted, Bool.or_eq_true] at hStopped
    exact hStopped.imp hTurn.upward.stopped hTurn.upward.abort
  · exact hTurn.bodies hRaising hBody
  · exact hTurn.noted hNoted
  · intro hSet
    cases hTurn with
    | collectFailed => exact Or.inr (note_failure _)
    | _ => exact Or.inl hSet

end

/- What a call that raises an interruption was stopped by. -/
structure Reported (plan : RangePlan) (download : RangeDownload α) : Prop where
  blamed : isTransferring download.phase = true → Blamed plan download
  ended : download.phase = .ended (.error .interrupted) → download.stopped = true

theorem reported_of_later (hLater : isTransferring next.phase = false)
    (hEnded : next.phase = .ended (.error .interrupted) → next.stopped) :
    Reported plan next where
  blamed := by
    intro hPhase
    rw [hLater] at hPhase
    cases hPhase
  ended := hEnded

theorem Reported.ofBlamed (hPhase : isTransferring download.phase)
    (hSame : next.phase = download.phase) (hBlamed : Blamed plan next) : Reported plan next where
  blamed := fun _ => hBlamed
  ended := by
    intro hEnded
    rw [← hSame, hEnded] at hPhase
    cases hPhase

theorem close_reported (hBlamed : Blamed plan download)
    (hCollected : ((List.range plan.count).all fun j =>
        RangeDownload.isCollected (download.workers j))) :
    Reported plan (download.close plan) := by
  fun_cases RangeDownload.close with
  | case2 hIgnored _ hFailure =>
    refine reported_of_later rfl (fun hEnded => ?_)
    cases hEnded
    rcases hBlamed.failure hFailure with hStopped | hPlain
    · exact hStopped
    · exact absurd (ignored_of_collected hPlain hCollected) hIgnored
  | case3 _ _ hStopped => exact reported_of_later rfl (fun _ => hStopped)
  | _ => exact reported_of_later rfl (fun hEnded => by cases hEnded)

theorem assemble_reported (index position : Nat) (output : List α) :
    Reported plan (download.assemble plan index position output) := by
  apply reported_of_later (assemble_later index position output)
  fun_cases RangeDownload.assemble with
  | case5 _ _ _ _ _ _ hStopped => exact fun _ => hStopped
  | _ => exact fun hEnded => by cases hEnded

theorem Served.reported
    (hServed : Served plan download input next)
    (hReported : Reported plan download)
    (hRaising : ∀ reply, received plan ((rangeMachine plan).step download input) = some reply →
      reply.answer.raising ≠ some .interrupted) :
    Reported plan next := by
  cases hServed with
  | stop =>
    refine ⟨fun hPhase => ?_, fun _ => rfl⟩
    have hBlamed := hReported.blamed hPhase
    exact ⟨hBlamed.abort, fun _ _ => Or.inl rfl, fun _ => Or.inl rfl, hBlamed.bodies,
      hBlamed.noted, hBlamed.failing⟩
  | proceed =>
    have hBlamed : download.phase = .transferring → Blamed plan download :=
      fun hHere => hReported.blamed (by rw [hHere]; rfl)
    fun_cases RangeDownload.proceed with
    | case1 hHere hFailing =>
      -- The flag follows the failure that was noted.
      have hNoted := hBlamed hHere
      refine ⟨fun _ => ?_, hReported.ended⟩
      exact ⟨fun _ => Or.inl (hNoted.failing hFailing), fun _ _ => Or.inr rfl, hNoted.failure,
        hNoted.bodies, hNoted.noted, fun hSet => by cases hSet⟩
    | case2 hHere _ hCollected => exact close_reported (hBlamed hHere) hCollected
    | case4 index position output => exact assemble_reported index position output
    | case3 | case5 => exact hReported
  | turn k hPhase hCount hTurn =>
    refine Reported.ofBlamed hPhase hTurn.frame.phase
      (hTurn.blamed (hReported.blamed hPhase) hCount fun answer hInput hAsking => ?_)
    obtain ⟨offset, hOffset⟩ := Option.ne_none_iff_exists'.mp hAsking
    apply hRaising ⟨k, offset, answer⟩
    rw [hInput, received_answer, if_pos ⟨hPhase, hCount⟩, hOffset]
    rfl
  | closed => exact hReported

theorem begin_reported (files : Files α) (stopped : Bool) :
    Reported plan (beginRanges plan files stopped) where
  blamed := fun _ =>
    { abort := fun hSet => by cases hSet
      exits := fun _ hExited => by cases hExited
      failure := fun hSome => by cases hSome
      bodies := fun _ => by simp [beginRanges, bodyRaises]
      noted := fun _ => trivial
      failing := fun hSet => by cases hSet }
  ended := fun hEnded => by cases hEnded

----
-- The Rank of a Call
----

/- How often a worker can still ask or be answered. -/
def answersLeft : Worker α → Nat
  | .submitted => 8
  | .trying tries => 2 * (3 - tries) + 1
  | .opening tries _ => 2 * (3 - tries) + 1
  | .waiting tries _ => 2 * (3 - tries) + 1
  | .probing tries _ => 2 * (3 - tries) + 1
  | .requesting tries _ => 2 * (3 - tries) + 1
  | .settling _ tries _ _ => 2 * (3 - tries) + 1
  | .streaming tries _ _ _ => 2 * (3 - tries)
  | .counting tries _ _ _ _ => 2 * (3 - tries)
  | .exited _ => 0
  | .collected => 0

/- The moves of a worker until it has read all, with those of the thread that collects it. -/
def movesLeft : Worker α → Nat
  | .submitted => 11
  | .trying _ => 10
  | .opening _ _ => 9
  | .waiting _ _ => 8
  | .probing _ _ => 7
  | .requesting _ _ => 7
  | .settling .noting _ _ _ => 6
  | .settling .flagging _ _ _ => 5
  | .settling .releasing _ _ _ => 4
  | .settling .leaving _ _ _ => 3
  | .streaming _ _ chunks _ => 2 * chunks.length + 3
  | .counting _ _ _ chunks _ => 2 * chunks.length + 4
  | .exited _ => 2
  | .collected => 0

/- A lane has come closer to its end, with the thread that collects it. -/
def Closer (k : Nat) (download next : RangeDownload α) : Prop :=
  answersLeft (next.workers k) < answersLeft (download.workers k) ∨
    (answersLeft (next.workers k) = answersLeft (download.workers k) ∧
      movesLeft (next.workers k) + next.failing.toNat <
        movesLeft (download.workers k) + download.failing.toNat)

theorem closer_setWorker
    (hWorker : download.workers k = before)
    (hFailing : next.failing = download.failing)
    (hCloser : answersLeft worker < answersLeft before ∨
      (answersLeft worker = answersLeft before ∧ movesLeft worker < movesLeft before)) :
    Closer k download (next.setWorker k worker) := by
  unfold Closer
  rw [workers_setWorker, hWorker]
  exact hCloser.imp_right fun hEqual =>
    ⟨hEqual.1, hFailing ▸ Nat.add_lt_add_right hEqual.2 _⟩

theorem closer_exited
    (hMoves : 2 < movesLeft (download.workers k))
    (hFailing : next.failing = download.failing)
    (exit : Exit) :
    Closer k download (next.setWorker k (.exited exit)) := by
  apply closer_setWorker rfl hFailing
  have hAnswers : answersLeft (.exited exit : Worker α) = 0 := rfl
  have hLeft : movesLeft (.exited exit : Worker α) = 2 := rfl
  omega

theorem movesLeft_of_looks (hLooks : looks worker = true) : 2 < movesLeft worker := by
  cases worker with
  | submitted | trying | opening | waiting | streaming => simp [movesLeft]
  | _ => cases hLooks

theorem Raised.left
    (hRaised : Raised worker tries failure) :
    2 * (3 - tries) ≤ answersLeft worker ∧ 2 < movesLeft worker := by
  cases hRaised <;> simp [answersLeft, movesLeft]

/- A turn changes nothing or comes closer. -/
theorem Turn.closer
    (hTurn : Turn plan k download input next) :
    (Idle download input ∧ next = download) ∨ Closer k download next := by
  cases hTurn with
  | stay hIdle => exact Or.inl ⟨hIdle, rfl⟩
  | interrupt hLooks => exact Or.inr (closer_exited (movesLeft_of_looks hLooks) rfl _)
  | again hRaised hFew =>
    refine Or.inr (closer_setWorker rfl rfl (Or.inl ?_))
    have hLeft := hRaised.left.1
    change 2 * (3 - _) + 1 < _
    omega
  | giveUp hRaised | fail hRaised => exact Or.inr (closer_exited hRaised.left.2 rfl _)
  | ask hWorker =>
    rcases hWorker with hWorker | hWorker <;>
      exact Or.inr (closer_setWorker hWorker rfl (by simp [answersLeft, movesLeft]))
  | collectFailed hWorker =>
    -- The thread has yet to set the abort flag.
    right
    unfold Closer
    rw [workers_setWorker, hWorker]
    exact Or.inr ⟨rfl, Nat.lt_of_lt_of_le (Nat.lt_succ_self 1) (Nat.le_add_right _ _)⟩
  | complete hWorker | leave hWorker | finish hWorker | drop hWorker =>
    have hMoves : 2 < movesLeft (download.workers k) := by
      simp [hWorker, movesLeft]
    exact Or.inr (closer_exited hMoves rfl _)
  | write hWorker =>
    refine Or.inr (closer_setWorker hWorker rfl (Or.inr ⟨rfl, ?_⟩))
    simp only [movesLeft, List.length_cons]
    omega
  | start hWorker | enter hWorker | wait hWorker | probe hWorker | probed _ hWorker
  | heard _ hWorker | note hWorker | pass hWorker | prove hWorker | refuse hWorker
  | release hWorker | openFile hWorker | count hWorker | collect hWorker
  | collectIgnored hWorker =>
    exact Or.inr (closer_setWorker hWorker rfl (by simp [answersLeft, movesLeft]))

theorem Turn.stopped
    (hTurn : Turn plan k download input next) :
    next.stopped = download.stopped := by
  cases hTurn <;> rfl

/- The rank of a call: its phase first, then its workers. -/
def phaseLeft : Phase α → Nat
  | .transferring => 2
  | .assembling _ _ _ => 1
  | .ended _ => 0

section

variable (plan : RangePlan) (download : RangeDownload α)

/- The files and the bytes that the assembly has to read. -/
def filesLeft : Phase α → Nat
  | .transferring => ∑ j ∈ Finset.range plan.count, answersLeft (download.workers j)
  | .assembling index _ _ => plan.count - index
  | .ended _ => 0

def bytesLeft : Phase α → Nat
  | .transferring => ∑ j ∈ Finset.range plan.count, movesLeft (download.workers j) +
      download.failing.toNat
  | .assembling index position _ => size (download.files.segments index) - position
  | .ended _ => 0

def rank : Nat ×ₗ Nat ×ₗ Nat := toLex
    (2 * phaseLeft download.phase + (if download.stopped then 0 else 1),
      toLex (filesLeft plan download download.phase, bytesLeft plan download download.phase))

end

/- Only the summand of one lane changes. -/
theorem sum_of_lane (measure : Worker α → Nat) (hCount : k < plan.count)
    (hFrame : Frame k download next) :
    ∑ j ∈ Finset.range plan.count, measure (next.workers j) + measure (download.workers k) =
      ∑ j ∈ Finset.range plan.count, measure (download.workers j) + measure (next.workers k) := by
  have hMem : k ∈ Finset.range plan.count := Finset.mem_range.mpr hCount
  have hOthers : ∑ j ∈ (Finset.range plan.count).erase k, measure (next.workers j) =
      ∑ j ∈ (Finset.range plan.count).erase k, measure (download.workers j) := by
    apply Finset.sum_congr rfl
    intro j hOther
    rw [hFrame.workers j (Finset.ne_of_mem_erase hOther)]
  rw [← Finset.add_sum_erase _ _ hMem, ← Finset.add_sum_erase _ _ hMem, hOthers]
  omega

/- A turn that is not idle lowers the rank. -/
theorem Turn.lowers
    (hTurn : Turn plan k download input next)
    (hPhase : isTransferring download.phase = true)
    (hCount : k < plan.count) :
    (Idle download input ∧ next = download) ∨
    rank plan next < rank plan download := by
  refine hTurn.closer.imp_right fun hCloser => ?_
  have hHere := transferring_of_isTransferring hPhase
  have hAnswers := sum_of_lane answersLeft hCount hTurn.frame
  have hMoves := sum_of_lane movesLeft hCount hTurn.frame
  unfold rank
  rw [hTurn.frame.phase, hHere, hTurn.stopped, Prod.Lex.toLex_lt_toLex]
  refine Or.inr ⟨rfl, ?_⟩
  rw [Prod.Lex.toLex_lt_toLex]
  simp only [filesLeft, bytesLeft]
  unfold Closer at hCloser
  omega

/- A phase that is over lowers the rank. -/
theorem rank_of_phase (hStopped : next.stopped = download.stopped)
    (hPhase : phaseLeft next.phase < phaseLeft download.phase) :
    rank plan next < rank plan download := by
  unfold rank
  rw [hStopped, Prod.Lex.toLex_lt_toLex]
  left
  dsimp only
  omega

theorem close_rank (hPhase : isTransferring download.phase) :
    rank plan (download.close plan) < rank plan download := by
  have hHere := transferring_of_isTransferring hPhase
  fun_cases RangeDownload.close <;> exact rank_of_phase rfl (by simp [hHere, phaseLeft])

/- A read of the assembly, or its end, lowers the rank. -/
theorem assemble_rank {index position : Nat} {output : List α}
    (hHere : download.phase = .assembling index position output) :
    rank plan (download.assemble plan index position output) < rank plan download := by
  fun_cases RangeDownload.assemble with
  | case4 =>
    unfold rank
    rw [Prod.Lex.toLex_lt_toLex]
    refine Or.inr ⟨by simp [hHere, phaseLeft], ?_⟩
    rw [Prod.Lex.toLex_lt_toLex]
    left
    simp only [hHere, filesLeft]
    omega
  | case6 _ file hFile _ chunk hMore =>
    unfold rank
    rw [Prod.Lex.toLex_lt_toLex]
    refine Or.inr ⟨by simp [hHere, phaseLeft], ?_⟩
    rw [Prod.Lex.toLex_lt_toLex]
    refine Or.inr ⟨by simp [hHere, filesLeft], ?_⟩
    have hRead : 0 < chunk.length :=
      List.length_pos_iff.mpr fun hNothing => hMore (by simp [hNothing])
    have hInside : position < file.length := by
      rw [List.length_take, List.length_drop] at hRead
      omega
    simp only [hHere, bytesLeft, hFile, size, Option.getD_some]
    omega
  | _ => exact rank_of_phase rfl (by simp [hHere, phaseLeft])

/- Setting the flag of a failure that was noted. -/
theorem failing_rank (hPhase : isTransferring download.phase) (hFailing : download.failing = true) :
    rank plan { download with abort := true, failing := false } < rank plan download := by
  have hHere := transferring_of_isTransferring hPhase
  unfold rank
  rw [Prod.Lex.toLex_lt_toLex]
  refine Or.inr ⟨rfl, ?_⟩
  rw [Prod.Lex.toLex_lt_toLex]
  simp [hHere, filesLeft, bytesLeft, hFailing]

/- Every input changes nothing or lowers the rank. -/
theorem Served.lowers
    (hServed : Served plan download input next) :
    next = download ∨ rank plan next < rank plan download := by
  cases hServed with
  | stop =>
    cases hStopped : download.stopped with
    | true =>
      left
      cases download
      cases hStopped
      rfl
    | false =>
      right
      unfold rank
      rw [Prod.Lex.toLex_lt_toLex]
      left
      simp [hStopped]
  | proceed =>
    fun_cases RangeDownload.proceed with
    | case1 hHere hFailing => exact Or.inr (failing_rank (by rw [hHere]; rfl) hFailing)
    | case2 hHere => exact Or.inr (close_rank (by rw [hHere]; rfl))
    | case4 _ _ _ hHere => exact Or.inr (assemble_rank hHere)
    | _ => exact Or.inl rfl
  | turn _ hPhase hCount hTurn => exact (hTurn.lowers hPhase hCount).imp_left And.right
  | closed => exact Or.inl rfl

/- An input that an open pool has use for moves the call on. -/
theorem Served.busy
    (hServed : Served plan download input next)
    (hPhase : isTransferring download.phase = true)
    (hCount : k < plan.count)
    (hLane : lane input = some k)
    (hBusy : ¬Idle download input) :
    rank plan next < rank plan download := by
  cases hServed with
  | stop | proceed => cases hLane
  | turn _ hPhase hCount hTurn =>
    exact (hTurn.lowers hPhase hCount).resolve_left fun hIdle => hBusy hIdle.1
  | closed hClosed => exact absurd ⟨hPhase, hCount⟩ (hClosed k hLane)

/- A worker that was not collected lets the call move on. -/
theorem worker_moves_on (hLocked : Locked plan download) (hGoes : download.failing = false)
    (hPhase : isTransferring download.phase) (hCount : k < plan.count)
    (hOpen : RangeDownload.isCollected (download.workers k) = false) : ∃ input, input ≠ .stop ∧
    rank plan (download.serve plan input).download < rank plan download := by
  have hMoves : ∀ j input, j < plan.count → lane input = some j → ¬Idle download input →
      ∃ input, input ≠ .stop ∧ rank plan (download.serve plan input).download <
        rank plan download := by
    intro j input hInside hLane hBusy
    refine ⟨input, ?_, (serve_served plan download input).busy hPhase hInside hLane hBusy⟩
    rintro rfl
    cases hLane
  cases hWorker : download.workers k with
  | waiting =>
    cases hProbe : download.probe with
    | none => exact hMoves k (.work k) hCount rfl (by simp [Idle, hWorker, waits, hProbe])
    | some j =>
      -- The holder of the probe has a request that is open, or an answer.
      have hInside := hLocked.inside j hProbe
      have hHolds : (place (download.workers j)).holds = true := (hLocked.held j).mp hProbe
      cases hHolder : download.workers j with
      | probing =>
        exact hMoves j (.answer j (.raises .valueError)) hInside rfl
          (by simp [Idle, hHolder, asking])
      | settling => exact hMoves j (.work j) hInside rfl (by simp [Idle, hHolder, waits])
      | _ =>
        rw [hHolder] at hHolds
        cases hHolds
  | probing | requesting =>
    exact hMoves k (.answer k (.raises .valueError)) hCount rfl (by simp [Idle, hWorker, asking])
  | exited => exact hMoves k (.collect k) hCount rfl (by simp [Idle, hWorker, hGoes])
  | collected =>
    rw [hWorker] at hOpen
    cases hOpen
  | _ => exact hMoves k (.work k) hCount rfl (by simp [Idle, hWorker, waits])

/- A call that has not ended has a move that brings it nearer to its end. -/
theorem moves_on
    (hLocked : Locked plan download)
    (hOpen : ∀ ending, download.phase ≠ .ended ending) :
    ∃ input,
      input ≠ .stop ∧
      rank plan (download.serve plan input).download <
        rank plan download := by
  cases hHere : download.phase with
  | transferring =>
    have hPhase : isTransferring download.phase := by
      rw [hHere]
      rfl
    cases hFailing : download.failing with
    | true =>
      refine ⟨.proceed, by simp, ?_⟩
      have hProceed :
          download.proceed plan = { download with abort := true, failing := false } := by
        simp only [RangeDownload.proceed, hHere, if_pos hFailing]
      simp only [RangeDownload.serve, hProceed]
      exact failing_rank hPhase hFailing
    | false =>
      by_cases hAll : ((List.range plan.count).all fun j =>
          RangeDownload.isCollected (download.workers j)) = true
      · refine ⟨.proceed, by simp, ?_⟩
        have hProceed : download.proceed plan = download.close plan := by
          simp [RangeDownload.proceed, hHere, hFailing, hAll]
        simp only [RangeDownload.serve, hProceed]
        exact close_rank hPhase
      · rw [List.all_eq_true] at hAll
        push Not at hAll
        rcases hAll with ⟨_, hMem, hOther⟩
        exact worker_moves_on hLocked hFailing hPhase (List.mem_range.mp hMem)
          (Bool.eq_false_iff.mpr hOther)
  | assembling =>
    refine ⟨.proceed, by simp, ?_⟩
    simp only [RangeDownload.serve, RangeDownload.proceed, hHere]
    exact assemble_rank hHere
  | ended ending => exact absurd hHere (hOpen ending)

----
-- Whole Calls
----

/- The steps of a call. -/
def traceOfRanges (plan : RangePlan) (files : Files α)
    (schedule : RangeSchedule α) : List (RangeStep α) :=
  (rangeMachine plan).trace (beginRanges plan files schedule.stopped) schedule.moves

/-
  From this state the call returns this and nothing else: it has a move until it has ended, and a
  schedule that goes on moving it reaches the end.
-/
structure Returns (plan : RangePlan) (download : RangeDownload α)
    (ending : Except RangeFailure Bool) : Prop where
  only :
    ∀ moves other, ((rangeMachine plan).final download moves).phase = .ended other → other = ending
  moves : ∀ moves, (∀ other, ((rangeMachine plan).final download moves).phase ≠ .ended other) →
    ∃ input, input ≠ .stop ∧ (rangeMachine plan).move ((rangeMachine plan).final download moves)
    input ≠ (rangeMachine plan).final download moves
  ends : ∀ later : Nat → RangeInput α,
    (∀ n, ∃ m, n ≤ m ∧ ((∃ other, ((rangeMachine plan).along download later m).phase = .ended other)
      ∨ (rangeMachine plan).along download later (m + 1) ≠
      (rangeMachine plan).along download later m)) →
    ∃ n, ((rangeMachine plan).along download later n).phase = .ended ending

theorem phase_of_ignoring {other : Except RangeFailure Bool} (hIgnoring : Ignoring plan download)
    (hEnded : download.phase = .ended other) : other = .ok false := by
  rcases hIgnoring with ⟨hPhase, _⟩ | hFalse
  · rw [hEnded] at hPhase
    cases hPhase
  · rw [hEnded] at hFalse
    injection hFalse

theorem locked_final (hLocked : Locked plan download) (moves : List (RangeInput α)) :
    Locked plan ((rangeMachine plan).final download moves) :=
  (rangeMachine plan).final_of_absorbing (A := Locked plan)
    (fun _ input hCurrent => serve_locked hCurrent input) hLocked moves

theorem move_ignoring (current : RangeDownload α) (input : RangeInput α)
    (hCurrent : Ignoring plan current) : Ignoring plan ((rangeMachine plan).move current input) :=
  (serve_served plan current input).ignoring hCurrent

theorem returns_of_ignoring (hLocked : Locked plan download) (hIgnoring : Ignoring plan download) :
    Returns plan download (.ok false) where
  only := by
    intro moves _ hEnded
    have hLater :=
      (rangeMachine plan).final_of_absorbing (A := Ignoring plan) move_ignoring hIgnoring moves
    exact phase_of_ignoring hLater hEnded
  moves := by
    intro moves hOpen
    rcases moves_on (locked_final hLocked moves) hOpen with ⟨input, hInput, hLower⟩
    refine ⟨input, hInput, fun hSame => ?_⟩
    change (((rangeMachine plan).final download moves).serve plan input).download = _ at hSame
    rw [hSame] at hLower
    exact lt_irrefl _ hLower
  ends := by
    intro later hBusy
    rcases Machine.done_of_rank (M := rangeMachine plan)
      (I := Ignoring plan) move_ignoring (rank plan)
      (fun current input _ => (serve_served plan current input).lowers) hIgnoring later
      (fun current => ∃ other, current.phase = .ended other) hBusy with ⟨n, _, hEnded⟩
    have hLater := Machine.along_invariant (M := rangeMachine plan)
      (I := Ignoring plan) move_ignoring hIgnoring later n
    refine ⟨n, ?_⟩
    rw [hEnded, phase_of_ignoring hLater hEnded]

/- After a plain 200 the call is ignoring to its end. -/
theorem ignoring_of_trace {moves : List (RangeInput α)} {step : RangeStep α} {reply : Reply α}
    (hMem : step ∈ (rangeMachine plan).trace begun moves)
    (hReceived : received plan step = some reply) (hAnswer : reply.answer = .response response)
    (hStatus : response.status = 200) : Ignoring plan ((rangeMachine plan).final begun moves) := by
  induction moves generalizing begun with
  | nil => exact absurd hMem List.not_mem_nil
  | cons input moves ih =>
    rw [Machine.trace_cons] at hMem
    rcases List.mem_cons.mp hMem with rfl | hTail
    · have hHere : Ignoring plan ((rangeMachine plan).move begun input) := by
        cases input with
        | answer j answer =>
          rw [received_answer] at hReceived
          split at hReceived
          · rename_i hOpen
            rcases Option.map_eq_some_iff.mp hReceived with ⟨_, hAsking, rfl⟩
            change Ignoring plan (begun.serve plan (.answer j answer)).download
            simp only [RangeDownload.serve, if_pos hOpen]
            exact ignoring_of_plain hOpen.1 hOpen.2 hAsking hAnswer hStatus
          · cases hReceived
        | _ => cases hReceived
      exact (rangeMachine plan).final_of_absorbing (A := Ignoring plan) move_ignoring hHere moves
    · exact ih hTail

/-
  A call whose first answer is refused makes one request. A plain 200 makes it return `False`. An
  interruption that neither an open nor a body raised comes from a stop.
-/
theorem refused_ranges_cost_one_request
    (plan : RangePlan)
    (files : Files α)
    (schedule : RangeSchedule α) :
    (∀ exit,
       (traceOfRanges plan files schedule).findSome? (verdict plan) =
         some (.error exit) →
       (traceOfRanges plan files schedule).countP opens = 1) ∧
    ((∃ step ∈ traceOfRanges plan files schedule,
        ∃ reply response,
          received plan step = some reply ∧
          reply.answer = .response response ∧
          response.status = 200) →
     Returns plan (endOfRanges plan files schedule) (.ok false)) ∧
    ((∀ step ∈ traceOfRanges plan files schedule,
        ∀ reply,
          received plan step = some reply →
          reply.answer.raising ≠ some .interrupted) →
     (endOfRanges plan files schedule).phase =
       .ended (.error .interrupted) →
     (endOfRanges plan files schedule).stopped = true) := by
  have hProbed :
      Probed plan (traceOfRanges plan files schedule) (endOfRanges plan files schedule) :=
    probe_history files schedule
  refine ⟨?_, ?_, ?_⟩
  · intro exit hFirst
    have hRefused := hProbed.known.refused
    rw [hFirst] at hRefused
    exact (hRefused rfl).2
  · rintro ⟨_, hMem, _, _, hReceived, hAnswer, hStatus⟩
    exact returns_of_ignoring hProbed.locked (ignoring_of_trace hMem hReceived hAnswer hStatus)
  · intro hRaising
    have hReported : Reported plan (endOfRanges plan files schedule) :=
      (rangeMachine plan).invariant (P := fun step => ∀ reply, received plan step = some reply →
        reply.answer.raising ≠ some .interrupted)
      (fun current input hCurrent hStep =>
        (serve_served plan current input).reported hCurrent hStep)
      (begin_reported files schedule.stopped) hRaising
    exact hReported.ended

/- Two workers; the first is answered with a plain 200. -/
def plainSchedule : RangeSchedule Nat where
  stopped := false
  moves := [.work 0, .work 1, .work 0, .work 1, .work 0, .work 1, .work 0, .work 1,
      .answer 0 (.response ⟨200, none, none, [], none⟩), .work 0, .work 0, .work 0, .work 1,
      .work 0, .collect 1, .proceed, .collect 0, .proceed]

/- Two workers that are stopped before they ask. -/
def stoppedSchedule : RangeSchedule Nat where
  stopped := false
  moves := [.work 0, .stop, .work 0, .work 1, .collect 0, .proceed, .collect 1, .proceed, .proceed]

/- A server without ranges is asked once, and a stopped call is left as one. -/
theorem plain_answer_costs_one_request :
    ((traceOfRanges ⟨3, 2⟩ ⟨none, fun _ => none⟩ plainSchedule).countP
       opens =
       1 ∧
     Returns ⟨3, 2⟩
       (endOfRanges ⟨3, 2⟩ ⟨none, fun _ => none⟩ plainSchedule)
       (.ok false)) ∧
    (endOfRanges ⟨3, 2⟩ ⟨none, fun _ => none⟩ stoppedSchedule).stopped =
      true := by
  have hPlain := refused_ranges_cost_one_request ⟨3, 2⟩ ⟨none, fun _ => none⟩ plainSchedule
  have hStopped := refused_ranges_cost_one_request ⟨3, 2⟩ ⟨none, fun _ => none⟩ stoppedSchedule
  have hStep : (traceOfRanges ⟨3, 2⟩ ⟨none, fun _ => none⟩ plainSchedule)[8]? = some _ := rfl
  refine ⟨⟨hPlain.1 .ignored rfl, hPlain.2.1 ⟨_, List.mem_of_getElem? hStep, _, _, rfl, rfl, rfl⟩⟩,
      hStopped.2.2 ?_ rfl⟩
  have hNone : ((traceOfRanges ⟨3, 2⟩ ⟨none, fun _ => none⟩ stoppedSchedule).all fun step =>
          (received ⟨3, 2⟩ step).isNone) = true := by
    rfl
  intro step hMem _ hReceived
  have hNothing := List.all_eq_true.mp hNone step hMem
  rw [hReceived] at hNothing
  cases hNothing

end VonkForge.Cache
