import VonkForge.Cache.Ranges

/-
  The moves of a range download, said once.

  A move of the pool is the turn of one lane: its worker goes from one place to the next, and with
  it its file, its counter or one of the shared flags. Every invariant of a call is shown turn by
  turn.

  Main declarations:
    * `Raised`
    * `Turn`
    * `work_turn`
    * `serve_served`
-/

----
-- Turns
----

namespace VonkForge.Cache

variable {α : Type} {plan : RangePlan} {download : RangeDownload α} {k : Nat}

/- The offset of a worker's request that has no answer yet. -/
def asking : Worker α → Option Nat
  | .probing _ offset => some offset
  | .requesting _ offset => some offset
  | _ => none

/- A worker that does not move on its own. -/
def waits (download : RangeDownload α) : Worker α → Bool
  | .waiting _ _ => download.probe.isSome
  | .probing _ _ => true
  | .requesting _ _ => true
  | .exited _ => true
  | .collected => true
  | _ => false

/- An input that its lane has no use for. -/
def Idle (download : RangeDownload α) : RangeInput α → Prop
  | .work k => waits download (download.workers k) = true
  | .answer k _ => asking (download.workers k) = none
  | .collect k => download.failing = true ∨ ∀ exit, download.workers k ≠ .exited exit
  | _ => True

/- The places at which a worker looks whether it is to stop. -/
def looks : Worker α → Bool
  | .submitted => true
  | .trying _ => true
  | .opening _ _ => true
  | .waiting _ _ => true
  | .streaming _ _ (_ :: _) _ => true
  | _ => false

/- What a response raises in a try of `transfer`. -/
inductive Raised : Worker α → Nat → RangeFailure → Prop where
  | body
      {tries remaining : Nat}
      {failure : RangeFailure} :
      Raised (.streaming tries remaining [] (some failure)) tries failure
  | short
      {tries remaining : Nat}
      (hMissing : remaining ≠ 0) :
      Raised (.streaming tries remaining [] none) tries .truncated
  | refused
      {tries offset : Nat}
      {failure : RangeFailure} :
      Raised (.settling .leaving tries offset (.error (.failed failure))) tries failure

/- The turn of lane `k` for an input, with the state that it leaves. -/
inductive Turn (plan : RangePlan) (k : Nat) (download : RangeDownload α) :
    RangeInput α → RangeDownload α → Prop where
  | stay
      {input : RangeInput α}
      (hIdle : Idle download input) :
      Turn plan k download input download
  | interrupt
      (hLooks : looks (download.workers k) = true)
      (hStopped : download.interrupted = true) :
      Turn plan k download (.work k)
        (download.setWorker k (.exited (.failed .interrupted)))
  | start
      (hWorker : download.workers k = .submitted) :
      Turn plan k download (.work k) (download.setWorker k (.trying 0))
  | complete
      {tries : Nat}
      (hWorker : download.workers k = .trying tries)
      (hPast : (plan.segment k).last < (plan.segment k).start + download.counts k) :
      Turn plan k download (.work k) (download.setWorker k (.exited .finished))
  | enter
      {tries : Nat}
      (hWorker : download.workers k = .trying tries)
      (hInside : (plan.segment k).start + download.counts k ≤ (plan.segment k).last) :
      Turn plan k download (.work k)
        (download.setWorker k (.opening tries ((plan.segment k).start + download.counts k)))
  | wait
      {tries offset : Nat}
      (hWorker : download.workers k = .opening tries offset) :
      Turn plan k download (.work k) (download.setWorker k (.waiting tries offset))
  | ask
      {tries offset : Nat}
      (hWorker : download.workers k = .opening tries offset ∨
        download.workers k = .waiting tries offset)
      (hProven : download.proven = true) :
      Turn plan k download (.work k) (download.setWorker k (.requesting tries offset))
  | probe
      {tries offset : Nat}
      (hWorker : download.workers k = .waiting tries offset)
      (hFree : download.probe = none)
      (hGoes : download.abort = false) :
      Turn plan k download (.work k)
        ({ download with probe := some k }.setWorker k (.probing tries offset))
  | probed
      {tries offset : Nat}
      (answer : Answer α)
      (hWorker : download.workers k = .probing tries offset) :
      Turn plan k download (.answer k answer)
        (download.setWorker k (.settling .noting tries offset
          (openChecked plan offset (plan.segment k).last answer)))
  | heard
      {tries offset : Nat}
      (answer : Answer α)
      (hWorker : download.workers k = .requesting tries offset) :
      Turn plan k download (.answer k answer)
        (download.setWorker k (.settling .leaving tries offset
          (openChecked plan offset (plan.segment k).last answer)))
  | note
      {tries offset : Nat}
      {failure : RangeFailure}
      (hWorker : download.workers k = .settling .noting tries offset (.error (.failed failure))) :
      Turn plan k download (.work k) ((download.note failure).setWorker k
        (.settling .flagging tries offset (.error (.failed failure))))
  | pass
      {tries offset : Nat}
      {outcome : Except Exit (Response α)}
      (hWorker : download.workers k = .settling .noting tries offset outcome)
      (hOther : ∀ failure, outcome ≠ .error (.failed failure)) :
      Turn plan k download (.work k)
        (download.setWorker k (.settling .flagging tries offset outcome))
  | prove
      {tries offset : Nat}
      {response : Response α}
      (hWorker : download.workers k = .settling .flagging tries offset (.ok response)) :
      Turn plan k download (.work k) ({ download with proven := true }.setWorker k
        (.settling .releasing tries offset (.ok response)))
  | refuse
      {tries offset : Nat}
      {exit : Exit}
      (hWorker : download.workers k = .settling .flagging tries offset (.error exit)) :
      Turn plan k download (.work k) ({ download with abort := true }.setWorker k
        (.settling .releasing tries offset (.error exit)))
  | release
      {tries offset : Nat}
      {outcome : Except Exit (Response α)}
      (hWorker : download.workers k = .settling .releasing tries offset outcome) :
      Turn plan k download (.work k) ({ download with probe := none }.setWorker k
        (.settling .leaving tries offset outcome))
  | openFile
      {tries offset : Nat}
      {response : Response α}
      (hWorker : download.workers k = .settling .leaving tries offset (.ok response)) :
      Turn plan k download (.work k) (download.openFile plan k tries offset response)
  | leave
      {tries offset : Nat}
      {exit : Exit}
      (hWorker : download.workers k = .settling .leaving tries offset (.error exit))
      (hOther : ∀ failure, exit ≠ .failed failure) :
      Turn plan k download (.work k) (download.setWorker k (.exited exit))
  | again
      {tries : Nat}
      (hRaised : Raised (download.workers k) tries .truncated)
      (hFew : tries + 1 < 3) :
      Turn plan k download (.work k) (download.setWorker k (.trying (tries + 1)))
  | giveUp
      {tries : Nat}
      (hRaised : Raised (download.workers k) tries .truncated)
      (hMany : 3 ≤ tries + 1) :
      Turn plan k download (.work k)
        ({ download with fallback := true }.setWorker k (.exited .finished))
  | fail
      {tries : Nat}
      {failure : RangeFailure}
      (hRaised : Raised (download.workers k) tries failure) :
      Turn plan k download (.work k) (download.setWorker k (.exited (.failed failure)))
  | finish
      {tries : Nat}
      (hWorker : download.workers k = .streaming tries 0 [] none) :
      Turn plan k download (.work k) (download.setWorker k (.exited .finished))
  | drop
      {tries remaining : Nat}
      {chunk : List α}
      {chunks : List (List α)}
      {raises : Option RangeFailure}
      (hWorker : download.workers k = .streaming tries remaining (chunk :: chunks) raises) :
      Turn plan k download (.work k)
        ((download.setSegment k none).setWorker k (.exited (.failed .rangeResponse)))
  | write
      {tries remaining : Nat}
      {chunk : List α}
      {chunks : List (List α)}
      {raises : Option RangeFailure}
      (hWorker : download.workers k = .streaming tries remaining (chunk :: chunks) raises)
      (hFits : chunk.length ≤ remaining) :
      Turn plan k download (.work k)
        ((download.setSegment k (some ((download.files.segments k).getD [] ++ chunk))).setWorker k
          (.counting tries (remaining - chunk.length) chunk.length chunks raises))
  | count
      {tries remaining size : Nat}
      {chunks : List (List α)}
      {raises : Option RangeFailure}
      (hWorker : download.workers k = .counting tries remaining size chunks raises) :
      Turn plan k download (.work k)
        ({ download with
          counts := Function.update download.counts k (download.counts k + size) }.setWorker k
          (.streaming tries remaining chunks raises))
  | collect
      (hWorker : download.workers k = .exited .finished) :
      Turn plan k download (.collect k) (download.setWorker k .collected)
  | collectIgnored
      (hWorker : download.workers k = .exited .ignored) :
      Turn plan k download (.collect k)
        ({ download with ignored := true, abort := true }.setWorker k .collected)
  | collectFailed
      {failure : RangeFailure}
      (hWorker : download.workers k = .exited (.failed failure)) :
      Turn plan k download (.collect k)
        ({ download.note failure with failing := true }.setWorker k .collected)

----
-- The Code Takes Turns
----

theorem raiseIn_turn
    {tries : Nat}
    {failure : RangeFailure}
    (hRaised : Raised (download.workers k) tries failure) :
    Turn plan k download (.work k) (download.raiseIn k tries failure) := by
  fun_cases RangeDownload.raiseIn with
  | case1 hTruncated hFew =>
    rw [hTruncated] at hRaised
    exact .again hRaised hFew
  | case2 hTruncated hMany =>
    rw [hTruncated] at hRaised
    exact .giveUp hRaised (Nat.not_lt.mp hMany)
  | case3 => exact .fail hRaised

theorem request_turn
    {tries offset : Nat}
    (hWorker : download.workers k = .opening tries offset ∨
      download.workers k = .waiting tries offset)
    (hProven : download.proven = true) :
    Turn plan k download (.work k) (download.request k tries offset) := by
  fun_cases RangeDownload.request with
  | case1 hStopped =>
    refine .interrupt ?_ hStopped
    rcases hWorker with hWorker | hWorker <;> rw [hWorker] <;> rfl
  | case2 => exact .ask hWorker hProven

theorem receive_turn
    {tries remaining : Nat}
    {chunks : List (List α)}
    {raises : Option RangeFailure}
    (hWorker : download.workers k = .streaming tries remaining chunks raises) :
    Turn plan k download (.work k) (download.receive k tries remaining raises chunks) := by
  revert hWorker
  fun_cases RangeDownload.receive with
  | case1 => exact fun hWorker => raiseIn_turn (by rw [hWorker]; exact .body)
  | case2 hMissing => exact fun hWorker => raiseIn_turn (by rw [hWorker]; exact .short hMissing)
  | case3 hNothing =>
    obtain rfl := not_not.mp hNothing
    exact .finish
  | case4 _ _ _ hStopped => exact fun hWorker => .interrupt (by rw [hWorker]; rfl) hStopped
  | case5 => exact .drop
  | case6 _ _ _ _ hFits => exact fun hWorker => .write hWorker (Nat.not_lt.mp hFits)

theorem settle_turn
    {stage : Settling}
    {tries offset : Nat}
    {outcome : Except Exit (Response α)}
    (hWorker : download.workers k = .settling stage tries offset outcome) :
    Turn plan k download (.work k) (download.settle plan k tries offset stage outcome) := by
  revert hWorker
  fun_cases RangeDownload.settle with
  | case1 => exact .note
  | case2 _ hOther => exact fun hWorker => .pass hWorker fun failure => hOther failure
  | case3 => exact .prove
  | case4 => exact .refuse
  | case5 => exact .release
  | case6 => exact .openFile
  | case7 => exact fun hWorker => raiseIn_turn (by rw [hWorker]; exact .refused)
  | case8 _ hOther => exact fun hWorker => .leave hWorker hOther

/- A worker makes one of the turns. -/
theorem work_turn :
    Turn plan k download (.work k) (download.work plan k) := by
  fun_cases RangeDownload.work with
  | case1 hWorker hStopped | case3 _ hWorker hStopped =>
    exact .interrupt (by rw [hWorker]; rfl) hStopped
  | case2 hWorker => exact .start hWorker
  | case4 _ hWorker _ _ hPast => exact .complete hWorker hPast
  | case5 _ hWorker _ _ hInside => exact .enter hWorker (Nat.not_lt.mp hInside)
  | case6 _ _ hWorker hProven => exact request_turn (Or.inl hWorker) hProven
  | case7 _ _ hWorker => exact .wait hWorker
  | case9 _ _ hWorker _ hProven => exact request_turn (Or.inr hWorker) hProven
  | case10 _ _ hWorker _ _ hStopped => exact .interrupt (by rw [hWorker]; rfl) hStopped
  | case11 _ _ hWorker hFree _ hGoes =>
    rw [RangeDownload.interrupted, Bool.or_eq_true, not_or] at hGoes
    exact .probe hWorker (Option.not_isSome_iff_eq_none.mp hFree) (Bool.eq_false_iff.mpr hGoes.2)
  | case12 _ _ _ _ hWorker => exact receive_turn hWorker
  | case13 _ _ _ _ _ hWorker => exact .count hWorker
  | case14 _ _ _ _ hWorker => exact settle_turn hWorker
  | case8 _ _ hWorker hHeld =>
    refine .stay ?_
    rw [Idle, hWorker]
    exact hHeld
  | case15 _ _ hWorker | case16 _ _ hWorker | case17 _ hWorker | case18 hWorker =>
    refine .stay ?_
    rw [Idle, hWorker]
    rfl

theorem answered_turn (answer : Answer α) :
    Turn plan k download (.answer k answer) (download.answered plan k answer) := by
  fun_cases RangeDownload.answered with
  | case1 _ _ hWorker => exact .probed answer hWorker
  | case2 _ _ hWorker => exact .heard answer hWorker
  | case3 hProbing hRequesting =>
    refine .stay ?_
    change asking (download.workers k) = none
    cases hWorker : download.workers k with
    | probing tries offset => exact absurd hWorker (hProbing tries offset)
    | requesting tries offset => exact absurd hWorker (hRequesting tries offset)
    | _ => rfl

theorem collect_turn : Turn plan k download (.collect k) (download.collect k) := by
  fun_cases RangeDownload.collect with
  | case1 hFailing => exact .stay (Or.inl hFailing)
  | case2 _ hWorker => exact .collect hWorker
  | case3 _ hWorker => exact .collectIgnored hWorker
  | case4 _ _ hWorker => exact .collectFailed hWorker
  | case5 =>
    refine .stay (Or.inr fun exit hExited => ?_)
    cases exit <;> simp_all

/- The lane of an input to the pool. -/
def lane : RangeInput α → Option Nat
  | .work k => some k
  | .answer k _ => some k
  | .collect k => some k
  | _ => none

/-
  One move of a call: a stop, a move of the calling thread or the turn of a lane, unless the pool is
  closed or has no such lane.
-/
inductive Served (plan : RangePlan) (download : RangeDownload α) :
    RangeInput α → RangeDownload α → Prop where
  | stop : Served plan download .stop { download with stopped := true }
  | proceed : Served plan download .proceed (download.proceed plan)
  | turn
      {input : RangeInput α}
      {next : RangeDownload α}
      (k : Nat)
      (hPhase : isTransferring download.phase = true)
      (hCount : k < plan.count)
      (hTurn : Turn plan k download input next) :
      Served plan download input next
  | closed
      {input : RangeInput α}
      (hClosed : ∀ k, lane input = some k →
        ¬(isTransferring download.phase = true ∧ k < plan.count)) :
      Served plan download input download

/- Every input is a turn of one worker, or moves the call as a whole. -/
theorem serve_served
    (plan : RangePlan)
    (download : RangeDownload α)
    (input : RangeInput α) :
    Served
      plan download input (download.serve plan input).download := by
  fun_cases RangeDownload.serve with
  | case1 => exact .stop
  | case2 => exact .proceed
  | case3 k hOpen => exact .turn k hOpen.1 hOpen.2 work_turn
  | case5 k answer hOpen => exact .turn k hOpen.1 hOpen.2 (answered_turn answer)
  | case7 k hOpen => exact .turn k hOpen.1 hOpen.2 collect_turn
  | case4 _ hClosed | case6 _ _ hClosed | case8 _ hClosed =>
    refine .closed fun k hLane => ?_
    obtain rfl := Option.some.inj hLane
    exact hClosed

end VonkForge.Cache
