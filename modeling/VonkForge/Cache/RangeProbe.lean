import VonkForge.Cache.RangeEnds
import VonkForge.Foundations.Probe

/-
  The requests of a range download.

  Until one answer is accepted the workers ask one at a time, under the probe lock. A refused answer
  sets the abort flag before the lock is free, so no other worker asks. That is a property of asking
  under a lock; here the moves of a download are shown to be moves of that protocol.

  Main declarations:
    * `verdict`
    * `Turn.move`
    * `Served.move`
    * `probe_history`
-/

----
-- Requests and Answers
----

namespace VonkForge.Cache

variable {α : Type} {plan : RangePlan} {download next : RangeDownload α} {k : Nat}

abbrev RangeStep (α : Type) := Machine.Step (RangeDownload α) (RangeInput α) (RangeTurn α)

/- An answer, with the request it is for. -/
structure Reply (α : Type) where
  worker : Nat
  offset : Nat
  answer : Answer α

/- The answer to a request. -/
def received (plan : RangePlan) (step : RangeStep α) : Option (Reply α) :=
  match step.input with
  | .answer k answer =>
    if isTransferring step.before.phase ∧ k < plan.count then
      (asking (step.before.workers k)).map fun offset => ⟨k, offset, answer⟩
    else none
  | _ => none

/- Whether the answer to a request is accepted. -/
def verdict (plan : RangePlan) (step : RangeStep α) : Option (Except Exit (Response α)) :=
  (received plan step).map fun reply =>
    openChecked plan reply.offset (plan.segment reply.worker).last reply.answer

/- A step that calls `open_range`. -/
def opens (step : RangeStep α) : Bool :=
  match step.input with
  | .work k =>
    (asking (step.before.workers k)).isNone && (asking (step.output.download.workers k)).isSome
  | _ => false

/- Where a worker stands in the protocol. -/
def place : Worker α → Probe.Place
  | .probing _ _ => .asking true
  | .requesting _ _ => .asking false
  | .settling .noting _ _ outcome => .settling false outcome.isOk
  | .settling .flagging _ _ outcome => .settling false outcome.isOk
  | .settling .releasing _ _ outcome => .settling true outcome.isOk
  | _ => .idle

/- What the protocol sees of a download. -/
def view (download : RangeDownload α) : Probe.State Nat where
  place := fun j => place (download.workers j)
  lock := download.probe
  proven := download.proven
  halted := download.abort

----
-- Moves of the Protocol
----

variable {worker : Worker α} {input : RangeInput α} {reports : List Nat}

theorem isSome_asking (worker : Worker α) : (asking worker).isSome = (place worker).asks := by
  cases worker with
  | settling stage => cases stage <;> rfl
  | _ => rfl

theorem opens_setWorker :
    opens ⟨download, .work k, ⟨next.setWorker k worker, reports⟩⟩ =
      (!(place (download.workers k)).asks && (place worker).asks) := by
  rw [← isSome_asking, ← isSome_asking, Option.not_isSome]
  simp only [opens, workers_setWorker]

theorem view_setWorker (worker : Worker α) :
    view (download.setWorker k worker) = (view download).put k (place worker) := by
  simp only [view, Probe.State.put, RangeDownload.setWorker, Probe.State.mk.injEq, and_true]
  funext j
  by_cases hSame : j = k
  · subst hSame
    simp
  · simp [Function.update_of_ne hSame]

/- A lane that stays where it is in the protocol. -/
theorem view_quiet
    (hPlace : place worker = place (download.workers k))
    (hWorkers : next.workers = download.workers)
    (hProbe : next.probe = download.probe)
    (hProven : next.proven = download.proven) :
    view (next.setWorker k worker) = { view download with halted := next.abort } := by
  have hSame : Function.update (fun j => place (download.workers j)) k (place worker) =
      fun j => place (download.workers j) := by
    rw [hPlace, Function.update_eq_self]
  rw [view_setWorker]
  simp only [view, Probe.State.put, hWorkers, hProbe, hProven, hSame]

theorem quiet_move
    (hPlace : place worker = place (download.workers k))
    (hWorkers : next.workers = download.workers)
    (hProbe : next.probe = download.probe)
    (hProven : next.proven = download.proven)
    (hAbort : download.abort = true → next.abort = true) :
    Probe.Move (view download) false none (view (next.setWorker k worker)) := by
  rw [view_quiet hPlace hWorkers hProbe hProven]
  exact .other next.abort hAbort

theorem quiet_work
    (hPlace : place worker = place (download.workers k))
    (hWorkers : next.workers = download.workers)
    (hProbe : next.probe = download.probe)
    (hProven : next.proven = download.proven)
    (hAbort : download.abort = true → next.abort = true) :
    Probe.Move (view download) (opens ⟨download, .work k, ⟨next.setWorker k worker, reports⟩⟩) none
      (view (next.setWorker k worker)) := by
  rw [opens_setWorker, hPlace, Bool.not_and_self]
  exact quiet_move hPlace hWorkers hProbe hProven hAbort

theorem place_of_looks (hLooks : looks worker = true) : place worker = .idle := by
  cases worker with
  | probing | requesting | settling => cases hLooks
  | _ => rfl

theorem Raised.place_eq
    {tries : Nat}
    {failure : RangeFailure}
    (hRaised : Raised worker tries failure) :
    place worker = .idle := by
  cases hRaised <;> rfl

theorem received_answer (answer : Answer α) :
    received plan ((rangeMachine plan).step download (.answer k answer)) =
      if isTransferring download.phase ∧ k < plan.count then
        (asking (download.workers k)).map fun offset => ⟨k, offset, answer⟩
      else none := rfl

theorem received_of_idle
    {turn : RangeTurn α}
    (hIdle : Idle download input) :
    received plan ⟨download, input, turn⟩ = none := by
  cases input with
  | answer j answer =>
    have hNone : asking (download.workers j) = none := hIdle
    simp only [received, hNone, Option.map_none, ite_self]
  | _ => rfl

/- A step that changes nothing and brings no answer. -/
theorem still_move
    (hNone : received plan ⟨download, input, ⟨download, reports⟩⟩ = none) :
    Probe.Move (view download) (opens ⟨download, input, ⟨download, reports⟩⟩)
      ((verdict plan ⟨download, input, ⟨download, reports⟩⟩).map Except.isOk) (view download) := by
  have hOpens : opens ⟨download, input, ⟨download, reports⟩⟩ = false := by
    cases input with
    | work j => simp only [opens, ← Option.not_isSome, Bool.not_and_self]
    | _ => rfl
  rw [hOpens, verdict, hNone]
  exact .other _ id

/- A turn of a lane is a move of the protocol: the flag before the lock. -/
theorem Turn.move
    (hPhase : isTransferring download.phase = true)
    (hCount : k < plan.count)
    (hTurn : Turn plan k download input next) :
    Probe.Move (view download) (opens ⟨download, input, ⟨next, reports⟩⟩)
      ((verdict plan ⟨download, input, ⟨next, reports⟩⟩).map Except.isOk) (view next) := by
  have hReceived : ∀ answer turn, received plan ⟨download, .answer k answer, turn⟩ =
      (asking (download.workers k)).map fun offset => ⟨k, offset, answer⟩ :=
    fun _ _ => if_pos ⟨hPhase, hCount⟩
  cases hTurn with
  | stay hIdle => exact still_move (received_of_idle hIdle)
  | ask hWorker hProven =>
    have hIdle : place (download.workers k) = .idle := by
      rcases hWorker with hWorker | hWorker <;> exact congrArg place hWorker
    rw [opens_setWorker, view_setWorker, hIdle]
    exact .request k hProven hIdle
  | probe hWorker hFree hGoes =>
    have hIdle : place (download.workers k) = .idle := congrArg place hWorker
    rw [opens_setWorker, view_setWorker, hIdle]
    exact .probe k hFree hGoes hIdle
  | probed answer hWorker =>
    rw [verdict, hReceived, hWorker, view_setWorker]
    exact .answer k _ (congrArg place hWorker)
  | heard answer hWorker =>
    rw [verdict, hReceived, hWorker, view_setWorker]
    exact .hear k _ (congrArg place hWorker)
  | prove hWorker =>
    have hPlace := congrArg place hWorker
    have hMove : Probe.Move (view download) _ _ _ := .settle k true hPlace
    rw [Bool.or_true, Bool.not_true, Bool.or_false] at hMove
    rw [opens_setWorker, view_setWorker, hPlace]
    exact hMove
  | refuse hWorker =>
    have hPlace := congrArg place hWorker
    have hMove : Probe.Move (view download) _ _ _ := .settle k false hPlace
    rw [Bool.or_false, Bool.not_false, Bool.or_true] at hMove
    rw [opens_setWorker, view_setWorker, hPlace]
    exact hMove
  | release hWorker =>
    have hPlace := congrArg place hWorker
    rw [opens_setWorker, view_setWorker, hPlace]
    exact .release k _ hPlace
  | collect hWorker | collectIgnored hWorker | collectFailed hWorker =>
    exact quiet_move (congrArg place hWorker).symm rfl rfl rfl (by simp [RangeDownload.note])
  | interrupt hLooks => exact quiet_work (place_of_looks hLooks).symm rfl rfl rfl id
  | again hRaised | giveUp hRaised | fail hRaised =>
    exact quiet_work hRaised.place_eq.symm rfl rfl rfl id
  | start hWorker | complete hWorker | enter hWorker | wait hWorker | note hWorker | pass hWorker
  | openFile hWorker | leave hWorker | finish hWorker | drop hWorker | write hWorker
  | count hWorker => exact quiet_work (congrArg place hWorker).symm rfl rfl rfl id

/- The calling thread asks for nothing. -/
theorem proceed_frame : (download.proceed plan).workers = download.workers ∧
    (download.proceed plan).probe = download.probe ∧
    (download.proceed plan).proven = download.proven ∧
    (download.abort = true → (download.proceed plan).abort = true) := by
  fun_cases RangeDownload.proceed with
  | case1 => exact ⟨rfl, rfl, rfl, fun _ => rfl⟩
  | case2 => fun_cases RangeDownload.close <;> exact ⟨rfl, rfl, rfl, id⟩
  | case4 => fun_cases RangeDownload.assemble <;> exact ⟨rfl, rfl, rfl, id⟩
  | _ => exact ⟨rfl, rfl, rfl, id⟩

/- Every step of a download is a move of the protocol. -/
theorem Served.move
    (hServed : Served plan download input next) :
    Probe.Move (view download) (opens ⟨download, input, ⟨next, reports⟩⟩)
      ((verdict plan ⟨download, input, ⟨next, reports⟩⟩).map Except.isOk) (view next) := by
  cases hServed with
  | stop => exact .other _ id
  | proceed =>
    have hFrame : (download.proceed plan).workers = download.workers ∧ _ := proceed_frame
    rcases hFrame with ⟨hWorkers, hProbe, hProven, hAbort⟩
    have hView : view (download.proceed plan) =
        { view download with halted := (download.proceed plan).abort } := by
      simp only [view, hWorkers, hProbe, hProven]
    rw [hView]
    exact .other _ hAbort
  | turn k hPhase hCount hTurn => exact hTurn.move hPhase hCount
  | closed hClosed =>
    apply still_move
    cases input with
    | answer j answer => exact if_neg (hClosed j rfl)
    | _ => rfl

----
-- Runs
----

/- The probe lock is with the worker that stands at it. -/
structure Locked (plan : RangePlan) (download : RangeDownload α) : Prop where
  held : Probe.Locked (view download)
  inside : ∀ j, download.probe = some j → j < plan.count

/- Only a worker of the plan takes the lock. -/
theorem Served.inside
    (hServed : Served plan download input next)
    (hInside : ∀ j, download.probe = some j → j < plan.count)
    (j : Nat)
    (hHolder : next.probe = some j) :
    j < plan.count := by
  cases hServed with
  | proceed => exact hInside j (proceed_frame.2.1.symm.trans hHolder)
  | turn k _ hCount hTurn =>
    cases hTurn with
    | probe => exact Option.some.inj hHolder ▸ hCount
    | release => cases hHolder
    | _ => exact hInside j hHolder
  | stop | closed => exact hInside j hHolder

theorem serve_locked (hLocked : Locked plan download) (input : RangeInput α) :
    Locked plan (download.serve plan input).download where
  held := by
    have hMove : Probe.Move (view download) (opens ((rangeMachine plan).step download input)) _ _ :=
      (serve_served plan download input).move
    exact hLocked.held.move hMove
  inside := (serve_served plan download input).inside hLocked.inside

/- What is known of a call after its steps so far. -/
structure Probed (plan : RangePlan) (past : List (RangeStep α))
    (download : RangeDownload α) : Prop where
  locked : Locked plan download
  known : Probe.Known (past.countP opens) ((past.findSome? (verdict plan)).map Except.isOk)
    (view download)

/- At every moment, the probe is in the state that the requests so far say. -/
theorem probe_history
    (files : Files α)
    (schedule : RangeSchedule α) :
    Probed plan
      ((rangeMachine plan).trace
         (beginRanges plan files schedule.stopped) schedule.moves)
      (endOfRanges plan files schedule) := by
  refine (rangeMachine plan).history (H := Probed plan) ?_ ?_ schedule.moves
  · have hLocked : Probe.Locked (view (beginRanges plan files schedule.stopped)) := by
      intro j
      simp [view, beginRanges, place, Probe.Place.holds]
    refine ⟨⟨hLocked, fun j hHolder => ?_⟩, hLocked, fun _ => ⟨⟨rfl, fun _ => Or.inl rfl⟩, rfl⟩, ?_⟩
    · cases hHolder
    · exact fun hFirst => absurd hFirst (by simp)
  · intro past current input hPast
    refine ⟨serve_locked hPast.locked input, ?_⟩
    have hMove : Probe.Move (view current) (opens ((rangeMachine plan).step current input)) _ _ :=
      (serve_served plan current input).move
    have hCount : (past ++ [(rangeMachine plan).step current input]).countP opens =
        past.countP opens + (opens ((rangeMachine plan).step current input)).toNat := by
      rw [List.countP_append, List.countP_singleton]
      cases opens ((rangeMachine plan).step current input) <;> rfl
    rw [hCount, List.findSome?_append, List.findSome?_singleton, Option.map_or]
    exact hPast.known.move hMove

end VonkForge.Cache
