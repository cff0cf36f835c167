import VonkForge.Lifecycle.Schedule

/-
  What one transition can do.

  `Move` lists the decisions of the event dispatch with their guards, and `Expiry` those of a row
  past its adapter's own deadline. Every later result about runs starts from `transition_taken`, not
  from the definitions.

  Main declarations:
    * `Move`
    * `dispatch_move`
    * `pastOwnDeadline_expiry`
    * `transition_taken`
-/

----
-- Moves
----

namespace VonkForge.LifecycleCore

/- An observation or a report that says no effect began. -/
def saysNone : Event → Bool
  | .observed effect _ => effect == .none
  | .reported report => report.effect == some .none
  | _ => false

/- What proves a row's effect established. -/
def saysEstablished (row : Lifecycle) : Event → Bool
  | .observed effect _ => effect == .established
  | .tick => row.state == .needsOperator
  | _ => false

/- `isinstance(event, Observed)`. -/
def isAnswer : Event → Bool
  | .observed _ _ => true
  | _ => false

/- The events that may find an effect in doubt. -/
def doubtful : Event → Bool
  | .tick => true
  | .leaseLapsed _ => true
  | .reported report => report.endState.isNone
  | _ => false

/- The reason that an event gives for an effect in doubt. -/
def said : Event → Option String
  | .reported report => report.reason
  | _ => none

/- The events that drive a recorded cancel. -/
def drivesCancel : Event → Bool
  | .tick => true
  | .leaseLapsed _ => true
  | .observed _ _ => true
  | .reported report => report.endState.isNone
  | .cancelRequested _ _ => true
  | _ => false

/- What an event proves about the effect to be stopped. -/
def replyEffect : Event → Option Effect
  | .observed effect _ => some effect
  | .reported report => knownStopped report.effect
  | _ => none

/- An answer is recorded, any other event stops again. -/
def issuesStop (row : Lifecycle) : Event → Bool
  | .observed _ _ => false
  | .reported _ => row.state != .observing
  | _ => true

variable (adapter : KindAdapter) (row : Lifecycle)

/- A resume or retry that the adapter's row accepts. -/
def resumes : Event → Bool
  | .operatorAction name _ =>
    decide (name ∈ resumeActions) &&
      decide (name ∈ adapter.actions row) &&
      (row.state == .needsOperator || row.state == .observing)
  | _ => false

/- The events that record a cancel request. -/
def requestsCancel : Event → Prop
  | .cancelRequested _ _ => True
  | .operatorAction name _ => name = ActionName.stop.value ∧ name ∈ adapter.actions row
  | _ => False

/- The effect a definite report leaves on the row. -/
def endEffect (row : Lifecycle) (report : Report) : Effect := report.effect.getD
    (match report.outcome with
      | .done => .established
      | .cancelled => .stopped
      | .failed => row.effect
      | .unknown => row.effect)

/-
  The decisions of the event dispatch, one constructor for each kind of decision, with the guards it
  is made under.
-/
inductive Move (adapter : KindAdapter) (row : Lifecycle) (now : Int) : Event → Decision → Prop where
  | keep (event : Event) : Move adapter row now event { row := row }
  | submit (hState : row.state = .queued)
      (hAttempt : row.attempt = 0) : Move adapter row now .submitted
        { row := { row with effect := .none } }
  | claim (attempt : Nat) (fence : String) (leaseDeadline : Int)
      (hClaimable : claimable row now = true) (hCancel : row.cancelRequested = false)
      (hAttempt : row.attempt < attempt) : Move adapter row now
        (.claimed attempt fence leaseDeadline)
        { row :=
            { row with
              state := .running, attempt := attempt, fence := some fence,
              leaseDeadline := some leaseDeadline, nextActionAt := some leaseDeadline,
              effect := .issued, observeCount := 0 } }
  | renew (fence : Option String) (leaseDeadline : Int)
      (hState : row.state = .running) : Move adapter row now (.heartbeat fence leaseDeadline)
        { row :=
            { row with leaseDeadline := some leaseDeadline, nextActionAt := some leaseDeadline } }
  | conclude (report : Report) (state : State)
      (hState : report.endState = some state) : Move adapter row now (.reported report)
      (endWith row state (endEffect row report) report.reason)
  | retry (event : Event) (effect : Effect) (reason : Option String) (retryAfter : Option Int)
      (consumesRetry : Bool) (hCancel : row.cancelRequested = false)
      (hDeadline : reached (deadlineOf row (some adapter)) now = false)
      (hSafe : saysNone event = true ∨ blindRetryIsSafe row adapter none = true) :
      Move adapter row now event
        (LifecycleCore.retry row now adapter effect reason retryAfter consumesRetry)
  | observe (event : Event) (reason : Option String) (hEvent : doubtful event = true)
      (hCancel : row.cancelRequested = false)
      (hReason : row.state = .observing →
        orElse reason row.reason = orElse (said event) row.reason) :
      Move adapter row now event (LifecycleCore.observe row now reason)
  | lostTick (reason : Option String) (hCancel : row.cancelRequested = false)
      (hDeadline : reached row.recoveryDeadline now = false)
      (hUnsafe : blindRetryIsSafe row adapter none = false)
      (hSpent : observeBudget ≤ row.observeCount)
      (hDue : pending row.nextActionAt now = false) :
      Move adapter row now .tick (lost row now reason [.observe] false)
  | lostInTime (effect : Effect) (reason : Option String) (hCancel : row.cancelRequested = false)
      (hDeadline : reached (deadlineOf row (some adapter)) now = false)
      (hUnsafe : blindRetryIsSafe row adapter none = false)
      (hSpent : observeBudget ≤ row.observeCount) :
      Move adapter row now (.observed effect reason) (lost row now reason [] false)
  | lostLate (reason : Option String) (hCancel : row.cancelRequested = false)
      (hDeadline : reached (deadlineOf row (some adapter)) now = true)
      (hUnsafe : blindRetryIsSafe row adapter none = false) :
      Move adapter row now (.observed .unknown reason) (lost row now reason [] true)
  | await (effect : Effect) (reason : Option String) (hCancel : row.cancelRequested = false)
      (hDeadline : reached (deadlineOf row (some adapter)) now = false)
      (hUnsafe : blindRetryIsSafe row adapter none = false)
      (hLeft : row.observeCount < observeBudget) : Move adapter row now (.observed effect reason)
        { row :=
            { row with
              state := .observing, nextActionAt := some (due row row.observeCount now none none),
              reason := orElse reason row.reason } }
  | establish (event : Event) (reason : Option String) (hCancel : row.cancelRequested = false)
      (hEvent : saysEstablished row event = true) : Move adapter row now event
        { row :=
            { row with
              state := .succeeded, effect := .established, nextActionAt := none,
              reason := reason } }
  | cease (reason : Option String)
      (hCancel : row.cancelRequested = false) : Move adapter row now (.observed .stopped reason)
        { row :=
            { row with
              state := .failed, effect := .stopped, nextActionAt := none, leaseDeadline := none,
              reason := orElse reason row.reason } }
  | endLate (effect : Effect) (reason : Option String) (why : String)
      (hCancel : row.cancelRequested = false)
      (hDeadline : reached (deadlineOf row (some adapter)) now = true)
      (hKnown : effect = .unknown → blindRetryIsSafe row adapter none = true) :
      Move adapter row now (.observed effect reason)
        { row :=
            { row with
              state := .failed, effect := effect, nextActionAt := none, leaseDeadline := none,
              reason := some why }
          commands :=
            if effect = .unknown then [.recordResidue why]
            else [] }
  | resume (name : String) (reason : Option String)
      (hResumes : resumes adapter row (.operatorAction name reason) = true) :
      Move adapter row now (.operatorAction name reason)
        { row :=
            { row with
              state := .queued, retryCount := 0, observeCount := 0, nextActionAt := none,
              reason := some (orText reason ActionName.resume.value) } }
  | retire (reason : Option String) : Move adapter row now
        (.operatorAction ActionName.retire.value reason)
        { row :=
            { row with
              state := .failed, effect := .unknown, nextActionAt := none,
              reason := some (orText reason ActionName.retire.value) } }
  | execute (hState : row.state = .queued ∨ row.state = .backoff)
      (hCancel : row.cancelRequested = false) : Move adapter row now .tick
        { row := { row with state := .queued, nextActionAt := none }
          commands := [.execute] }
  | watch (hState : row.state = .running)
      (hCancel : row.cancelRequested = false) : Move adapter row now .tick
        { row := { row with nextActionAt := row.leaseDeadline } }
  | look (hState : row.state = .observing) (hCancel : row.cancelRequested = false)
      (hDeadline : reached row.recoveryDeadline now = false)
      (hLeft : row.observeCount < observeBudget) : Move adapter row now .tick
        { row :=
            { row with
              observeCount := row.observeCount + 1,
              nextActionAt := some (due row (row.observeCount + 1) now none none) }
          commands := [.observe] }
  | request (event : Event) (key reason : Option String) (hCancel : row.cancelRequested = false)
      (hEvent : requestsCancel adapter row event) :
      Move adapter row now event (advanceCancel (withCancelFlag row now key) now none reason true)
  | wind (event : Event) (reason : Option String) (hCancel : row.cancelRequested = true)
      (hEvent : drivesCancel event = true) : Move adapter row now event
        (advanceCancel row now (replyEffect event) reason (issuesStop row event))

/-
  The decisions about a row that is not cancelled and past its adapter's own deadline: an answer is
  recorded, and any other event looks at the effect.
-/
inductive Expiry (adapter : KindAdapter) (row : Lifecycle) (now : Int) :
    Event → Decision → Prop where
  | lost (reason : Option String) (hUnsafe : blindRetryIsSafe row adapter none = false) :
      Expiry adapter row now (.observed .unknown reason) (LifecycleCore.lost row now reason [] true)
  | finish (effect : Effect) (reason why : Option String)
      (hKnown : effect = .unknown → blindRetryIsSafe row adapter none = true) :
      Expiry adapter row now (.observed effect reason)
        { row :=
            { row with
              state :=
                if effect = .established then .succeeded
                else .failed
              effect := effect, nextActionAt := none, leaseDeadline := none, reason := why }
          commands :=
            if effect = .unknown then
              [.recordResidue (orText why WaitReason.runtimeEffectUnconfirmed.value)]
            else [] }
  | look (event : Event) (hEvent : isAnswer event = false) : Expiry adapter row now event
        { row :=
            { row with
              state := .observing, nextActionAt := some now, leaseDeadline := none,
              observeCount := countLook row, effect := .unknown }
          commands := [.observe] }

/- Every way a transition decides. -/
inductive Taken (adapter : KindAdapter) (row : Lifecycle) (now : Int) (event : Event) :
    Decision → Prop where
  | ignored (hIgnored : row.terminal = true ∨ stale row event = true) :
      Taken adapter row now event { row := row }
  | expired (decision : Decision) (hLive : row.terminal = false) (hOurs : stale row event = false)
      (hExpired : LifecycleCore.expired row event adapter now = true)
      (hExpiry : Expiry adapter row now event decision) : Taken adapter row now event decision
  | moved (decision : Decision) (hLive : row.terminal = false) (hOurs : stale row event = false)
      (hExpired : LifecycleCore.expired row event adapter now = false)
      (hMove : Move adapter row now event decision) : Taken adapter row now event decision

----
-- One Lemma for each Event
----

variable {adapter : KindAdapter} {row : Lifecycle} {now : Int}

theorem withCancelFlag_of_requested (hCancel : row.cancelRequested) (key : Option String) :
    withCancelFlag row now key = row := by
  simp [withCancelFlag, hCancel]

theorem cancel_move (requestKey reason : Option String) :
    Move adapter row now (.cancelRequested requestKey reason) (cancel row requestKey reason now) :=
    by
  unfold cancel
  by_cases hCancel : row.cancelRequested = true
  · by_cases hState : row.state = .observing
    · simpa [hCancel, hState] using Move.keep _
    · have hBeq : (row.state == State.observing) = false := by
        simpa using hState
      rw [hBeq, Bool.and_false, if_neg Bool.false_ne_true, withCancelFlag_of_requested hCancel]
      exact Move.wind _ _ hCancel rfl
  · have hFalse : row.cancelRequested = false := by
      simpa using hCancel
    rw [hFalse, Bool.false_and, if_neg Bool.false_ne_true]
    exact Move.request _ _ _ hFalse trivial

theorem submitted_move : Move adapter row now .submitted (submitted row) := by
  fun_cases submitted with
  | case1 hGuard =>
    simp only [Bool.and_eq_true, beq_iff_eq] at hGuard
    exact Move.submit hGuard.1 hGuard.2
  | case2 => exact Move.keep _

theorem claimed_move (attempt : Nat) (fence : String) (leaseDeadline : Int) :
    Move adapter row now (.claimed attempt fence leaseDeadline)
    (claimed row attempt fence leaseDeadline now) := by
  fun_cases claimed with
  | case1 => exact Move.keep _
  | case2 hGuard =>
    simp only [Bool.or_eq_true, Bool.not_eq_true', decide_eq_true_eq, not_or, Bool.not_eq_false,
      Bool.not_eq_true, Nat.not_le] at hGuard
    exact Move.claim _ _ _ hGuard.1.1 hGuard.1.2 hGuard.2

theorem heartbeat_move (fence : Option String) (leaseDeadline : Int) :
    Move adapter row now (.heartbeat fence leaseDeadline) (heartbeat row leaseDeadline) := by
  fun_cases heartbeat with
  | case1 => exact Move.keep _
  | case2 hGuard =>
    simp only [Bool.or_eq_true, bne_iff_ne, ne_eq, not_or, not_not] at hGuard
    exact Move.renew _ _ hGuard.1

variable {event : Event}

/-
  Doubt about a row that is not cancelled is settled by a retry, if that is safe in time, or by an
  observation.
-/
theorem uncertain_move (hEvent : doubtful event)
    (hCancel : row.cancelRequested = false) (hOwn : reached (adapter.ownDeadline row) now = false)
    (effect : Option Effect) (hEffect : effect = some .none → saysNone event)
    (reason : Option String) (retryAfter : Option Int) (consumesRetry : Bool)
    (hReason : row.state = .observing →
      orElse reason row.reason = orElse (said event) row.reason) :
    Move adapter row now event (uncertain row adapter now effect reason retryAfter consumesRetry) :=
    by
  fun_cases uncertain with
  | case2 hDeadline hSafe =>
    have hStored : reached row.recoveryDeadline now = false := by simpa using hDeadline
    refine Move.retry _ _ _ _ _ hCancel (deadlineOf_not_reached hStored hOwn) ?_
    by_cases hNone : effect = some .none
    · exact Or.inl (hEffect hNone)
    · right
      cases effect with
      | none => exact hSafe
      | some known =>
        have hKnown : known ≠ .none := fun hSame => hNone (congrArg some hSame)
        simp only [blindRetryIsSafe, Option.getD_some, Bool.or_eq_true,
          beq_iff_eq, hKnown, or_false] at hSafe
        simp only [blindRetryIsSafe, Bool.or_eq_true]
        exact hSafe.imp (fun hZero => Or.inl (by simpa using hZero)) id
  | _ => exact Move.observe _ _ hEvent hCancel hReason

theorem reportedUncertain_move (report : Report) (hUncertain : report.endState = none)
    (hOwn : row.cancelRequested = false → reached (adapter.ownDeadline row) now = false) :
    Move adapter row now (.reported report) (reportedUncertain row report adapter now) := by
  fun_cases reportedUncertain with
  | case1 hCancel => exact Move.wind _ _ hCancel (by simp [drivesCancel, hUncertain])
  | case2 hCancel =>
    have hFalse : row.cancelRequested = false := by simpa using hCancel
    refine uncertain_move (by simp [doubtful, hUncertain]) hFalse (hOwn hFalse) _ ?_ _ _ _
      fun _ => rfl
    intro hNone
    simp [saysNone, hNone]

theorem reported_move (report : Report)
    (hOwn : row.cancelRequested = false → reached (adapter.ownDeadline row) now = false) :
    Move adapter row now (.reported report) (reported row report adapter now) := by
  have hConclude (state : State) (hState : report.endState = some state) :
      Move adapter row now (.reported report) _ := Move.conclude report state hState
  fun_cases reported with
  | case1 hOutcome =>
    simpa [endEffect, hOutcome] using hConclude .succeeded (by simp [Report.endState, hOutcome])
  | case2 hOutcome =>
    simpa [endEffect, hOutcome] using hConclude .cancelled (by simp [Report.endState, hOutcome])
  | case3 hOutcome hRetry =>
    exact reportedUncertain_move report (by simp [Report.endState, hOutcome, hRetry]) hOwn
  | case4 hOutcome hRetry =>
    simpa [endEffect, hOutcome] using
      hConclude .failed (by simp [Report.endState, hOutcome, hRetry])
  | case5 hOutcome => exact reportedUncertain_move report (by simp [Report.endState, hOutcome]) hOwn

theorem lapsed_move (hEvent : event = .tick ∨ ∃ why, event = .leaseLapsed why)
    (hOwn : row.cancelRequested = false → reached (adapter.ownDeadline row) now = false)
    (reason : Option String) : Move adapter row now event (lapsed row adapter now reason) := by
  fun_cases lapsed with
  | case1 => exact Move.keep _
  | case2 _ hCancel => rcases hEvent with rfl | ⟨why, rfl⟩ <;> exact Move.wind _ _ hCancel rfl
  | case3 hRunning hCancel =>
    have hFalse : row.cancelRequested = false := by simpa using hCancel
    have hDoubt : doubtful event := by rcases hEvent with rfl | ⟨why, rfl⟩ <;> rfl
    refine uncertain_move hDoubt hFalse (hOwn hFalse) none (by simp) _ _ _ fun hState => ?_
    simp [hState] at hRunning

theorem blind_of_guard (hSafe : (!adapter.irreversible row || blindRetryIsSafe row adapter none) =
      true) : blindRetryIsSafe row adapter none := by
  rcases (Bool.or_eq_true _ _).mp hSafe with hRepeat | hBlind
  · simp [blindRetryIsSafe, hRepeat]
  · exact hBlind

theorem not_blind_of_guard
    (hUnsafe : ¬(!adapter.irreversible row || blindRetryIsSafe row adapter none)) :
    blindRetryIsSafe row adapter none = false := by
  simp only [Bool.or_eq_true, not_or, Bool.not_eq_true] at hUnsafe
  exact hUnsafe.2

variable (effect : Effect) (reason : Option String)

/-
  An observation that leaves the effect unknown, in time, retries, counts as lost, or waits for the
  next look.
-/
theorem unknownAfterObservation_move (hCancel : row.cancelRequested = false)
    (hDeadline : reached (deadlineOf row (some adapter)) now = false) :
    Move adapter row now (.observed effect reason)
    (unknownAfterObservation row adapter now reason []) := by
  fun_cases unknownAfterObservation with
  | case1 hSafe => exact Move.retry _ _ _ _ _ hCancel hDeadline (Or.inr (blind_of_guard hSafe))
  | case2 hUnsafe hSpent =>
    exact Move.lostInTime _ _ hCancel hDeadline (not_blind_of_guard hUnsafe) hSpent
  | case3 hUnsafe hLeft =>
    exact Move.await _ _ hCancel hDeadline (not_blind_of_guard hUnsafe) (Nat.lt_of_not_le hLeft)

theorem observed_move :
    Move adapter row now (.observed effect reason) (observed row effect reason adapter now) := by
  have hFalse : ¬row.cancelRequested → row.cancelRequested = false := Bool.eq_false_iff.mpr
  fun_cases observed with
  | case1 _ hCancel => exact Move.wind _ _ hCancel rfl
  | case2 => exact Move.keep _
  | case3 _ hCancel _ hLate hUnknown =>
    simp only [Bool.and_eq_true, beq_iff_eq, Bool.not_eq_true'] at hLate hUnknown
    rcases hUnknown with ⟨rfl, hUnsafe⟩
    exact Move.lostLate _ (hFalse hCancel) hLate.1 hUnsafe
  | case4 _ hCancel _ hLate hKnown =>
    simp only [Bool.and_eq_true] at hLate
    refine Move.endLate _ _ _ (hFalse hCancel) hLate.1 ?_
    rintro rfl
    simpa using hKnown
  | case5 hCancel => exact Move.establish _ _ (hFalse hCancel) rfl
  | case6 hCancel _ hSafe hInTime =>
    exact Move.retry _ _ _ _ _ (hFalse hCancel) (by simpa using hInTime) (Or.inr hSafe)
  | case7 hCancel => exact Move.cease _ (hFalse hCancel)
  | case8 hCancel _ hInTime =>
    exact Move.retry _ _ _ _ _ (hFalse hCancel) (by simpa using hInTime) (Or.inl rfl)
  | case9 hCancel _ hInTime | case10 hCancel _ hInTime =>
    exact unknownAfterObservation_move _ _ (hFalse hCancel) (by simpa using hInTime)

theorem operator_move (name : String) (reason : Option String) :
    Move adapter row now (.operatorAction name reason) (operator row name reason adapter now) := by
  fun_cases operator with
  | case3 hAdvertised hStop hCancel =>
    exact Move.request _ _ _ (by simpa using hCancel) ⟨hStop, not_not.mp hAdvertised⟩
  | case5 hAdvertised _ hState hResume =>
    have hMem := not_not.mp hAdvertised
    have hWaits : (row.state == .needsOperator || row.state == .observing) := by
      by_cases hNeeds : row.state = .needsOperator
      · simp [hNeeds]
      · by_contra hObserving
        simp only [Bool.or_eq_true, beq_iff_eq, not_or] at hObserving
        exact hState (by simp [hNeeds, hObserving.2])
    refine Move.resume _ _ ?_
    simp only [resumes, hResume, hMem, hWaits, decide_true, Bool.and_self]
  | case6 _ _ _ _ hRetire =>
    subst hRetire
    exact Move.retire _
  | _ => exact Move.keep _

----
-- Ticks
----

theorem reevaluateParked_move (hState : row.state = .needsOperator)
    (hCancel : row.cancelRequested = false) (hStored : reached row.recoveryDeadline now = false)
    (hOwn : reached (adapter.ownDeadline row) now = false)
    (hDue : pending row.nextActionAt now = false) :
    Move adapter row now .tick (reevaluateParked row adapter now) := by
  have hDeadline := deadlineOf_not_reached hStored hOwn
  fun_cases reevaluateParked with
  | case1 =>
    have hEstablished : observed { row with state := .observing }
            .established none adapter now =
          { row :=
              { row with
                state := .succeeded, effect := .established, nextActionAt := none,
                reason := orElse none row.reason } } := by
      have hParked : ({ row with state := .observing } : Lifecycle).cancelRequested = false :=
        hCancel
      simp [observed, hParked]
    rw [hEstablished]
    exact Move.establish _ _ hCancel (by simp [saysEstablished, hState])
  | case2 _ hStopped =>
    simp only [Bool.and_eq_true, Bool.not_eq_true'] at hStopped
    exact Move.retry _ _ _ _ _ hCancel hDeadline (Or.inr (by simp [blindRetryIsSafe, hStopped.2]))
  | case3 _ _ hSafe => exact Move.retry _ _ _ _ _ hCancel hDeadline (Or.inr hSafe)
  | case4 _ _ hUnsafe hSpent =>
    exact Move.lostTick _ hCancel hStored (by simpa using hUnsafe) hSpent hDue
  | case5 =>
    refine Move.observe _ _ rfl hCancel fun hObserving => ?_
    rw [hState] at hObserving
    cases hObserving

/- A look at an observing row whose budget is spent. -/
theorem spentLook_move (hCancel : row.cancelRequested = false)
    (hStored : reached row.recoveryDeadline now = false)
    (hOwn : reached (adapter.ownDeadline row) now = false)
    (hSpent : observeBudget ≤ row.observeCount)
    (hDue : pending row.nextActionAt now = false) :
    Move adapter row now .tick (unknownAfterObservation row adapter now none [.observe]) := by
  fun_cases unknownAfterObservation with
  | case1 hSafe =>
    exact Move.retry _ _ _ _ _ hCancel (deadlineOf_not_reached hStored hOwn)
      (Or.inr (blind_of_guard hSafe))
  | case2 hUnsafe =>
    exact Move.lostTick _ hCancel hStored (not_blind_of_guard hUnsafe) hSpent hDue
  | case3 _ hLeft => exact absurd hSpent hLeft

theorem tick_move
    (hOwn : row.cancelRequested = false → reached (adapter.ownDeadline row) now = false) :
    Move adapter row now .tick (tick row adapter now) := by
  have hFalse : ¬row.cancelRequested → row.cancelRequested = false := Bool.eq_false_iff.mpr
  fun_cases tick with
  | case2 hCancel => exact Move.wind _ _ hCancel rfl
  | case4 hCancel =>
    refine Move.observe _ _ rfl (hFalse hCancel) fun _ => ?_
    cases hReason : row.reason with
    | none => rfl
    | some => simp [orElse, said]
  | case5 hCancel _ _ hState => exact Move.execute (Or.inl hState) (hFalse hCancel)
  | case6 hCancel _ _ hState => exact Move.execute (Or.inr hState) (hFalse hCancel)
  | case7 hCancel _ _ hState =>
    have hMove : Move adapter row now .tick _ := Move.watch hState (hFalse hCancel)
    simpa [hState] using hMove
  | case8 => exact lapsed_move (Or.inl rfl) hOwn _
  | case9 hCancel hDue hInTime hState hSpent =>
    exact spentLook_move (hFalse hCancel) (by simpa [hState] using hInTime) (hOwn (hFalse hCancel))
      hSpent (Bool.eq_false_iff.mpr hDue)
  | case10 hCancel _ hInTime hState hLeft =>
    have hMove : Move adapter row now .tick _ :=
      Move.look hState (hFalse hCancel) (by simpa [hState] using hInTime) (Nat.lt_of_not_le hLeft)
    simpa [hState] using hMove
  | case11 hCancel hDue hInTime hState =>
    exact reevaluateParked_move hState (hFalse hCancel) (by simpa [hState] using hInTime)
      (hOwn (hFalse hCancel)) (Bool.eq_false_iff.mpr hDue)
  | _ => exact Move.keep _

----
-- The Dispatch
----

/- Every decision of the dispatch is one of the moves. -/
theorem dispatch_move
    (hExpired : expired row event adapter now = false) :
    Move adapter row now event (dispatch row event adapter now) := by
  have hOwn : event.isCancelRequested = false → row.cancelRequested = false →
      reached (adapter.ownDeadline row) now = false := by
    intro hEvent hCancel
    simpa [expired, hEvent, hCancel] using hExpired
  cases event with
  | submitted => exact submitted_move
  | claimed attempt fence leaseDeadline => exact claimed_move attempt fence leaseDeadline
  | heartbeat fence leaseDeadline => exact heartbeat_move fence leaseDeadline
  | reported report => exact reported_move report (hOwn rfl)
  | leaseLapsed reason => exact lapsed_move (Or.inr ⟨reason, rfl⟩) (hOwn rfl) reason
  | cancelRequested requestKey reason => exact cancel_move requestKey reason
  | observed effect reason => exact observed_move effect reason
  | operatorAction name reason => exact operator_move name reason
  | tick => exact tick_move (hOwn rfl)

/- Every decision past the own deadline is an expiry. -/
theorem pastOwnDeadline_expiry (event : Event) :
    Expiry
      adapter
        row now event (pastOwnDeadline row event adapter now) := by
  cases event with
  | observed effect reason =>
    unfold pastOwnDeadline
    dsimp only
    split
    · next hUnknown =>
      simp only [Bool.and_eq_true, beq_iff_eq, Bool.not_eq_true'] at hUnknown
      rcases hUnknown with ⟨rfl, hUnsafe⟩
      exact Expiry.lost _ hUnsafe
    · next hKnown =>
      refine Expiry.finish _ _ _ ?_
      rintro rfl
      simpa using hKnown
  | _ => exact Expiry.look _ rfl

/- The inversion that every result about runs starts from. -/
theorem transition_taken (event : Event) :
    Taken adapter row now event (transition row event adapter now) := by
  fun_cases transition with
  | case1 hTerminal => exact Taken.ignored (Or.inl hTerminal)
  | case2 _ hStale => exact Taken.ignored (Or.inr hStale)
  | case3 hLive hOurs hExpired =>
    exact Taken.expired _ (by simpa using hLive) (by simpa using hOurs) hExpired
      (pastOwnDeadline_expiry event)
  | case4 hLive hOurs hExpired =>
    have hFalse : expired row event adapter now = false := by simpa using hExpired
    exact Taken.moved _ (by simpa using hLive) (by simpa using hOurs) hFalse (dispatch_move hFalse)

end VonkForge.LifecycleCore
