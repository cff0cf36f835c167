import VonkForge.Foundations.Run

/-
  The GPU clock of a Spark (`operations/gpu_clock.rs` of the helper).

  The helper keeps the intent it was given last in a checkpoint, fenced by the generation of the
  profile. Each change of it opens a window, in which the lock command is tried at most every minute
  until it is confirmed.

  Main declarations:
    * `GpuClockCheckpoint`
    * `attempt_spec`
    * `reconcile_spec`
    * `gpu_clock_fenced_and_bounded`
-/

----
-- Intents and Checkpoints
----

namespace VonkForge.GpuClock

def retrySeconds : Nat := 60

def attemptSeconds : Nat := 10 * 60

structure GpuClockRange where
  minMhz : Nat
  maxMhz : Nat
deriving DecidableEq

structure GpuClockIntent where
  generation : Nat
  range : GpuClockRange
deriving DecidableEq

inductive GpuClockApplyState where
  | waiting
  | applied
  | refused
  | expired
deriving DecidableEq

structure GpuClockCheckpoint where
  desired : GpuClockIntent
  state : GpuClockApplyState
  detail : Option String
  nextAttemptAt : Option Nat
  deadline : Nat
  appliedBootId : Option String
  appliedRange : Option GpuClockRange
deriving DecidableEq

def hardMaxMhz : Nat := 2300

def defaultRange : GpuClockRange := ⟨300, 2200⟩

def validRange (range : GpuClockRange) : Bool :=
  range.minMhz ≤ range.maxMhz ∧ range.maxMhz ≤ hardMaxMhz

inductive OperationError where
  | invalidOperation
  | installationReconciliationBusy
  | unsafePath
  | invalidArtifact
  | io
deriving DecidableEq

----
-- One Call
----

/-
  How far a write of the checkpoint came: a new one is in its place before everything is known to be
  durable.
-/
inductive Written where
  | nothing
  | renamed
  | durable
deriving DecidableEq

/- What a command ended with, and the text for it. -/
structure CommandOutput where
  success : Bool
  exitCode : Option Int
  exit : String
deriving DecidableEq

/-
  A call, and what it meets: a failure before the checkpoint is read, the boot identity, how far its
  writes come, and whether it is killed before the command.
-/
structure Pass where
  desired : Option GpuClockIntent
  hourly : Bool
  now : Nat
  failure : Option OperationError
  boot : Option String
  first : Written
  killed : Bool
  command : Except String CommandOutput
  observation : Except String String
  second : Written

variable (pass : Pass) (stored : Option GpuClockCheckpoint)

inductive Fence where
  | stale
  | conflict
  | pass
deriving DecidableEq

def fence : Fence :=
  match stored with
  | none => .pass
  | some old =>
    match pass.desired with
    | none => .pass
    | some new =>
      if new.generation < old.desired.generation then .stale
      else if new.generation = old.desired.generation ∧ new.range ≠ old.desired.range
      then .conflict
      else .pass

def wanted : GpuClockIntent :=
  (pass.desired.or (stored.map GpuClockCheckpoint.desired)).getD ⟨0, defaultRange⟩

def changed : Bool := stored.all fun current => current.desired ≠ wanted pass stored

/- The checkpoint a call goes on with. -/
def startRecord : GpuClockCheckpoint :=
  let fresh : GpuClockCheckpoint :=
    { desired := wanted pass stored, state := .waiting, detail := none,
      nextAttemptAt := some pass.now, deadline := pass.now + attemptSeconds,
      appliedBootId := stored.bind GpuClockCheckpoint.appliedBootId,
      appliedRange := stored.bind GpuClockCheckpoint.appliedRange }
  if changed pass stored then fresh else stored.getD fresh

variable (record : GpuClockCheckpoint)

def reboot : Bool := record.appliedBootId ≠ pass.boot

/- A window is opened again without a new intent. -/
def reopens : Bool := pass.hourly && (record.state = .applied || record.state = .expired) ||
    reboot pass record && record.state = .applied

/- The checkpoint with the window the call is to keep to. -/
def drawn : GpuClockCheckpoint :=
  let found := startRecord pass stored
  if reopens pass found then
    { found with deadline := pass.now + attemptSeconds, nextAttemptAt := some pass.now }
  else found

inductive Decision where
  | done
  | expire (record : GpuClockCheckpoint)
  | attempt (record : GpuClockCheckpoint)

/- What a call that passes the fence is to do. -/
def decision : Decision :=
  let found := startRecord pass stored
  let record := drawn pass stored
  if !changed pass stored && !pass.hourly && !reboot pass found && found.state = .applied
  then .done
  else if !changed pass stored && record.nextAttemptAt.any (pass.now < ·)
  then .done
  else if record.deadline ≤ pass.now then
    if record.state = .expired then .done
    else
      let cause := record.detail.getD "not reported"
      .expire
        { record with
          state := .expired
          nextAttemptAt := none
          detail := some ("GPU clock retry deadline expired; the hourly " ++
                "host-settings reconciliation will retry. Workloads " ++
                s!"continue. Last cause: {cause}") }
  else if record.state = .refused then .done
  else
    .attempt
      { record with state := .waiting, nextAttemptAt := some (pass.now + retrySeconds) }

/- The checkpoint of an attempt that is to be repeated. -/
def retried (what cause : String) : GpuClockCheckpoint :=
  let next := pass.now + retrySeconds
  let deadline := record.deadline
  { record with
    detail := some (s!"GPU clock command {what}: {cause}; retry after {next} " ++
          s!"(deadline {deadline}). Workloads continue.") }

/- The checkpoint of an attempt the driver refuses. -/
def rejected (what cause : String) : GpuClockCheckpoint :=
  { record with
    state := .refused, nextAttemptAt := none, detail := some s!"GPU clock {what}: {cause}" }

/- The checkpoint after the command. -/
def settle : GpuClockCheckpoint :=
  let unconfirmed := "succeeded but observation is unconfirmed"
  match pass.command with
  | .error cause => retried pass record "failed" cause
  | .ok output =>
    if output.success then
      match pass.observation with
      | .error cause => retried pass record unconfirmed cause
      | .ok evidence =>
        match pass.boot with
        | none => retried pass record unconfirmed "boot identity unavailable"
        | some boot =>
          { record with
            state := .applied, appliedRange := some record.desired.range,
            appliedBootId := some boot, detail := some evidence, nextAttemptAt := none }
    else if output.exitCode = some 4 then rejected record "permission denied" output.exit
    else if output.exitCode = some 2 ∨ output.exitCode = some 3 then
      rejected record "request rejected by driver" output.exit
    else retried pass record "failed" output.exit

inductive Effect where
  | wrote (record : GpuClockCheckpoint)
  | lock (range : GpuClockRange)
deriving DecidableEq

/- What a call leaves; one that is killed does not reply. -/
structure Served where
  now : Nat
  stored : Option GpuClockCheckpoint
  reply : Option (Except OperationError Unit)
  effects : List Effect

def Written.reply : Written → Except OperationError Unit
  | .durable => .ok ()
  | _ => .error .io

def Written.leaves (written : Written) (old : Option GpuClockCheckpoint)
    (new : GpuClockCheckpoint) : Option GpuClockCheckpoint :=
  if written = .nothing then old else some new

/- The first write of a call. -/
def write (record : GpuClockCheckpoint) : Served :=
  { now := pass.now, stored := pass.first.leaves stored record, reply := some pass.first.reply,
    effects := if pass.first = .durable then [.wrote record] else [] }

/- Write the intent, run the command, write its outcome. -/
def carryOut : Served :=
  let begun := write pass stored record
  if pass.first ≠ .durable then begun
  else if pass.killed then { begun with reply := none }
  else if validRange record.desired.range then
    { begun with
      stored := pass.second.leaves (some record) (settle pass record),
      reply := some pass.second.reply, effects := begun.effects ++ [.lock record.desired.range] }
  else { begun with reply := some (.error .invalidOperation) }

def reconcileGpuClockAt : Served :=
  let quiet (reply : Except OperationError Unit) : Served :=
    { now := pass.now, stored := stored, reply := some reply, effects := [] }
  if pass.desired.any fun intent => !validRange intent.range then quiet (.error .invalidOperation)
  else
    match pass.failure with
    | some failure => quiet (.error failure)
    | none =>
      match fence pass stored with
      | .stale => quiet (.ok ())
      | .conflict => quiet (.error .invalidOperation)
      | .pass =>
        match decision pass stored with
        | .done => quiet (.ok ())
        | .expire record => write pass stored record
        | .attempt record => carryOut pass stored record

/- The call gets to its decision. -/
def passes : Prop := (∀ intent ∈ pass.desired, validRange intent.range = true) ∧
    pass.failure = none ∧ fence pass stored = .pass

/- It changes the intent or opens its window again. -/
def Fresh : Prop := changed pass stored = true ∨ reopens pass (startRecord pass stored) = true

/- The call opens a window. -/
def opening : Prop := passes pass stored ∧ Fresh pass stored

/- The checkpoint, and the time of the last call. -/
structure Setting where
  stored : Option GpuClockCheckpoint
  clock : Nat

def machine : Machine Setting Pass Served where
  answer := fun setting pass => reconcileGpuClockAt pass setting.stored
  next := fun served => ⟨served.stored, served.now⟩

----
-- What a Call Can Do
----

variable {pass : Pass} {stored : Option GpuClockCheckpoint} {record : GpuClockCheckpoint}

/- The intent is the one stored, or one of a later generation. -/
theorem generation_le_wanted (hPass : fence pass stored = .pass) :
    ∀ old ∈ stored, old.desired.generation ≤ (wanted pass stored).generation := by
  rintro _ rfl
  unfold fence at hPass
  unfold wanted
  cases hDesired : pass.desired with
  | none => exact le_rfl
  | some =>
    simp only [hDesired] at hPass
    split_ifs at hPass with hStale
    exact Nat.le_of_not_lt hStale

theorem startRecord_desired : (startRecord pass stored).desired = wanted pass stored := by
  unfold startRecord
  dsimp only
  split
  · rfl
  · rename_i hSame
    cases stored with
    | none => rfl
    | some => simpa [changed] using hSame

/- A window without a new intent is the stored one. -/
theorem stored_of_unchanged (hSame : changed pass stored = false) :
    stored = some (startRecord pass stored) := by
  unfold startRecord
  cases stored with
  | none => cases hSame
  | some => simp [hSame]

theorem drawn_desired : (drawn pass stored).desired = wanted pass stored := by
  unfold drawn
  dsimp only
  split
  · exact startRecord_desired
  · exact startRecord_desired

theorem deadline_of_fresh (hFresh : Fresh pass stored) :
    (drawn pass stored).deadline = pass.now + attemptSeconds := by
  unfold drawn
  dsimp only
  split
  · rfl
  · rename_i hSame
    rw [startRecord, if_pos (hFresh.resolve_right hSame)]

theorem stored_of_not_fresh (hFound : ¬ Fresh pass stored) : stored = some (drawn pass stored) := by
  have hSame : changed pass stored = false :=
    Bool.eq_false_iff.mpr (fun hChanged => hFound (Or.inl hChanged))
  have hClosed : ¬ reopens pass (startRecord pass stored) :=
    fun hReopens => hFound (Or.inr hReopens)
  rw [drawn, if_neg hClosed]
  exact stored_of_unchanged hSame

/- A window of this call, or the one it found still open. -/
structure Attempted (pass : Pass) (stored : Option GpuClockCheckpoint)
    (record : GpuClockCheckpoint) : Prop where
  desired : record.desired = wanted pass stored
  state : record.state = .waiting
  next : record.nextAttemptAt = some (pass.now + retrySeconds)
  before : pass.now < record.deadline
  opened : Fresh pass stored → record.deadline = pass.now + attemptSeconds
  found : ¬ Fresh pass stored → ∃ old ∈ stored, old.deadline = record.deadline ∧
    old.nextAttemptAt.getD 0 ≤ pass.now ∧ (old.state = .waiting ∨ old.state = .expired)

/- An attempt is due, in its window and of the wanted intent. -/
theorem attempt_spec
    (hAttempt : decision pass stored = .attempt record) :
    Attempted pass stored record := by
  unfold decision at hAttempt
  dsimp only at hAttempt
  split_ifs at hAttempt with hSettled hEarly hLate _ hRefused
  obtain rfl := Decision.attempt.inj hAttempt
  refine ⟨drawn_desired, rfl, rfl, Nat.lt_of_not_le hLate, deadline_of_fresh, ?_⟩
  intro hFound
  have hStored := stored_of_not_fresh hFound
  refine ⟨drawn pass stored, hStored, rfl, ?_, ?_⟩
  · have hSame : changed pass stored = false :=
      Bool.eq_false_iff.mpr (fun hChanged => hFound (Or.inl hChanged))
    cases hNext : (drawn pass stored).nextAttemptAt with
    | none => exact Nat.zero_le _
    | some => simpa [hSame, hNext] using hEarly
  · -- An applied checkpoint is left alone or opens a window.
    have hClosed : reopens pass (startRecord pass stored) = false :=
      Bool.eq_false_iff.mpr (fun hReopens => hFound (Or.inr hReopens))
    have hDrawn : drawn pass stored = startRecord pass stored := by simp [drawn, hClosed]
    have hSame : changed pass stored = false :=
      Bool.eq_false_iff.mpr (fun hChanged => hFound (Or.inl hChanged))
    rw [hDrawn] at hRefused ⊢
    cases hState : (startRecord pass stored).state with
    | waiting => exact Or.inl rfl
    | expired => exact Or.inr rfl
    | refused => exact absurd hState hRefused
    | applied =>
      have hCalm : pass.hourly = false ∧ reboot pass (startRecord pass stored) = false := by
        simpa [reopens, hState] using hClosed
      exact absurd (by simp [hSame, hCalm.1, hCalm.2, hState]) hSettled

/- An expired window, which leaves no attempt. -/
structure Expired (pass : Pass) (stored : Option GpuClockCheckpoint)
    (record : GpuClockCheckpoint) : Prop where
  desired : record.desired = wanted pass stored
  after : record.deadline ≤ pass.now
  next : record.nextAttemptAt = none

theorem expire_spec (hExpire : decision pass stored = .expire record) :
    Expired pass stored record := by
  unfold decision at hExpire
  dsimp only at hExpire
  split_ifs at hExpire with hSettled hEarly hLate
  obtain rfl := Decision.expire.inj hExpire
  exact ⟨drawn_desired, hLate, rfl⟩

/- The outcome of an attempt keeps its intent and window. -/
structure Outcome (record settled : GpuClockCheckpoint) : Prop where
  desired : settled.desired = record.desired
  deadline : settled.deadline = record.deadline
  ends : settled.nextAttemptAt = record.nextAttemptAt ∨ settled.state = .applied ∨
    settled.state = .refused

theorem settle_spec (pass : Pass) (record : GpuClockCheckpoint) :
    Outcome record (settle pass record) := by
  have hRetried (what cause : String) : Outcome record (retried pass record what cause) :=
    ⟨rfl, rfl, Or.inl rfl⟩
  have hRejected (what cause : String) : Outcome record (rejected record what cause) :=
    ⟨rfl, rfl, Or.inr (Or.inr rfl)⟩
  unfold settle
  dsimp only
  split
  · exact hRetried _ _
  · split_ifs
    · split
      · exact hRetried _ _
      · split
        · exact hRetried _ _
        · exact ⟨rfl, rfl, Or.inr (Or.inl rfl)⟩
    · exact hRejected _ _
    · exact hRejected _ _
    · exact hRetried _ _

/- Everything a call can do, by what it leaves behind. -/
inductive Happened (pass : Pass) (stored : Option GpuClockCheckpoint) : Served → Prop where
  | quiet
      (reply : Except OperationError Unit) : Happened pass stored ⟨pass.now, stored, some reply, []⟩
  | expired (record : GpuClockCheckpoint) (hPasses : passes pass stored)
      (hExpired : Expired pass stored record) : Happened pass stored (write pass stored record)
  | begun (record : GpuClockCheckpoint) (reply : Option (Except OperationError Unit))
      (hPasses : passes pass stored) (hAttempted : Attempted pass stored record) :
      Happened pass stored { write pass stored record with reply := reply }
  | locked (record settled : GpuClockCheckpoint) (hPasses : passes pass stored)
      (hAttempted : Attempted pass stored record) (hOutcome : Outcome record settled)
      (hDurable : pass.first = .durable) : Happened pass stored
        { now := pass.now, stored := pass.second.leaves (some record) settled,
          reply := some pass.second.reply, effects := [.wrote record, .lock record.desired.range] }

theorem reconcile_happened (pass : Pass) (stored : Option GpuClockCheckpoint) :
    Happened pass stored (reconcileGpuClockAt pass stored) := by
  unfold reconcileGpuClockAt
  dsimp only
  split
  · exact Happened.quiet _
  · rename_i hValid
    cases hFailure : pass.failure with
    | some => exact Happened.quiet _
    | none =>
      cases hFence : fence pass stored with
      | stale | conflict => exact Happened.quiet _
      | pass =>
        have hPasses : passes pass stored := by
          refine ⟨?_, hFailure, hFence⟩
          intro _ hIntent
          simpa [Option.mem_def.mp hIntent] using hValid
        cases hDecision : decision pass stored with
        | done => exact Happened.quiet _
        | expire record => exact Happened.expired record hPasses (expire_spec hDecision)
        | attempt record =>
          have hAttempted := attempt_spec hDecision
          unfold carryOut
          dsimp only
          split_ifs with hShort hKilled hRange
          · exact Happened.begun record _ hPasses hAttempted
          · exact Happened.begun record _ hPasses hAttempted
          · have hDurable : pass.first = .durable := by simpa using hShort
            have hLocked :=
              Happened.locked record _ hPasses hAttempted (settle_spec pass record) hDurable
            simpa [write, hDurable] using hLocked
          · exact Happened.begun record _ hPasses hAttempted

----
-- Attempts Left in a Window
----

/- How often the lock may be tried before the deadline. -/
def attemptsLeft (clock : Nat) (current : GpuClockCheckpoint) : Nat :=
  if current.state = .applied ∨ current.state = .refused then 0
  else
    (current.deadline - max (current.nextAttemptAt.getD 0) clock + (retrySeconds - 1)) /
      retrySeconds

def Setting.left (setting : Setting) : Nat :=
  (setting.stored.map (attemptsLeft setting.clock)).getD 0

/- Deadlines are never further away than a whole window. -/
def Setting.Sound (setting : Setting) : Prop :=
  ∀ current ∈ setting.stored, current.deadline ≤ setting.clock + attemptSeconds

/- `ceil(ATTEMPT_SECONDS / RETRY_SECONDS)`. -/
def attemptLimit : Nat := (attemptSeconds + (retrySeconds - 1)) / retrySeconds

def locks (step : Machine.Step Setting Pass Served) : Nat :=
  step.output.effects.countP fun effect =>
    match effect with
    | .wrote _ => false
    | .lock _ => true

theorem attemptsLeft_anti {clock now : Nat} (hTime : clock ≤ now) (current : GpuClockCheckpoint) :
    attemptsLeft now current ≤ attemptsLeft clock current := by
  unfold attemptsLeft retrySeconds
  split_ifs
  · exact le_rfl
  · omega

variable {current : GpuClockCheckpoint}

theorem attemptsLeft_le {clock : Nat}
    (hDeadline : current.deadline ≤ clock + attemptSeconds) :
    attemptsLeft clock current ≤ attemptLimit := by
  unfold attemptsLeft attemptLimit attemptSeconds retrySeconds at *
  split_ifs
  · exact Nat.zero_le _
  · omega

theorem sound_some {clock : Nat}
    (hDeadline : current.deadline ≤ clock + attemptSeconds) :
    (Setting.mk (some current) clock).Sound := by
  intro _ hOther
  obtain rfl := Option.some.inj hOther
  exact hDeadline

theorem Setting.Sound.left_le {setting : Setting} (hSound : setting.Sound) :
    setting.left ≤ attemptLimit := by
  unfold Setting.left
  cases hStored : setting.stored with
  | none => exact Nat.zero_le _
  | some current => exact attemptsLeft_le (hSound current hStored)

/- What a call that opens no window takes off the attempts. -/
structure Spent (pass : Pass) (setting : Setting) (count : Nat)
    (after : Option GpuClockCheckpoint) : Prop where
  sound : (Setting.mk after pass.now).Sound
  found : ¬ opening pass setting.stored → count + (Setting.mk after pass.now).left ≤ setting.left
  opened : count + (Setting.mk after pass.now).left ≤ attemptLimit

variable {setting : Setting} {after : Option GpuClockCheckpoint}

theorem Spent.mono {count : Nat} (hSpent : Spent pass setting count after) :
    Spent pass setting 0 after where
  sound := hSpent.sound
  found := by
    intro hFound
    have hLeft := hSpent.found hFound
    omega
  opened := by
    have hLeft := hSpent.opened
    omega

theorem now_call (pass : Pass) (stored : Option GpuClockCheckpoint) :
    (reconcileGpuClockAt pass stored).now = pass.now := by
  have hHappened := reconcile_happened pass stored
  generalize reconcileGpuClockAt pass stored = served at hHappened ⊢
  cases hHappened with
  | quiet | expired | begun | locked => rfl

theorem move_eq (setting : Setting) (pass : Pass) :
    machine.move setting pass = ⟨(reconcileGpuClockAt pass setting.stored).stored, pass.now⟩ :=
  congrArg (Setting.mk _) (now_call pass setting.stored)

theorem spent_expired (hExpired : Expired pass setting.stored record) :
    Spent pass setting 0 (some record) := by
  have hAfter := hExpired.after
  have hNone : (Setting.mk (some record) pass.now).left = 0 := by
    simp only [Setting.left, Option.map_some, Option.getD_some, attemptsLeft, retrySeconds]
    split_ifs
    · rfl
    · omega
  refine ⟨sound_some (by omega), ?_, ?_⟩
  · intro _
    omega
  · omega

section Calls

variable (hSound : setting.Sound) (hTime : setting.clock ≤ pass.now)

include hSound hTime

/- The checkpoint stays as it is. -/
theorem spent_kept : Spent pass setting 0 setting.stored := by
  have hStill : (Setting.mk setting.stored pass.now).Sound := by
    intro current hCurrent
    have hDeadline := hSound current hCurrent
    simp only
    omega
  refine ⟨hStill, ?_, ?_⟩
  · intro _
    unfold Setting.left
    cases setting.stored with
    | none => exact le_rfl
    | some current => simpa using attemptsLeft_anti hTime current
  · simpa using hStill.left_le

/- An attempt counts, whatever becomes of its outcome. -/
theorem spent_attempted (hPasses : passes pass setting.stored)
    (hAttempted : Attempted pass setting.stored record)
    {settled : GpuClockCheckpoint} (hOutcome : Outcome record settled) :
    Spent pass setting 1 (some settled) := by
  have hBefore := hAttempted.before
  -- The next attempt has to wait.
  have hLeft : (Setting.mk (some settled) pass.now).left ≤
      (record.deadline - (pass.now + 60) + 59) / 60 := by
    simp only [Setting.left, Option.map_some, Option.getD_some, attemptsLeft,
      hOutcome.deadline, retrySeconds]
    split_ifs with hEnds
    · exact Nat.zero_le _
    · rcases hOutcome.ends with hNext | hState
      · rw [hNext, hAttempted.next, Option.getD_some, retrySeconds]
        omega
      · exact absurd hState hEnds
  by_cases hFresh : Fresh pass setting.stored
  · have hDeadline := hAttempted.opened hFresh
    unfold attemptSeconds at hDeadline
    refine ⟨sound_some (hOutcome.deadline.trans hDeadline).le, ?_, ?_⟩
    · exact fun hFound => absurd ⟨hPasses, hFresh⟩ hFound
    · unfold attemptLimit attemptSeconds retrySeconds
      omega
  · rcases hAttempted.found hFresh with ⟨old, hOld, hSame, hDue, hOpen⟩
    have hDeadline := hSound old hOld
    have hRoom : (record.deadline - pass.now + 59) / 60 ≤ setting.left := by
      have hHere : attemptsLeft pass.now old ≤ setting.left := by
        rw [Setting.left, Option.mem_def.mp hOld]
        exact attemptsLeft_anti hTime old
      refine le_trans ?_ hHere
      rw [attemptsLeft, if_neg (by rcases hOpen with h | h <;> simp [h]),
        hSame, Nat.max_eq_right hDue]
      exact le_rfl
    have hLimit := hSound.left_le
    have hWindow := hOutcome.deadline
    refine ⟨sound_some (by omega), ?_, ?_⟩
    · intro _
      omega
    · omega

theorem spent_call : Spent pass setting (locks (machine.step setting pass))
    (reconcileGpuClockAt pass setting.stored).stored := by
  have hKept := spent_kept hSound hTime
  have hHappened := reconcile_happened pass setting.stored
  have hLeaves (written : Written)
      {old : Option GpuClockCheckpoint} {new : GpuClockCheckpoint} {count : Nat}
      (hOld : Spent pass setting count old) (hNew : Spent pass setting count (some new)) :
      Spent pass setting count (written.leaves old new) := by
    unfold Written.leaves
    split
    · exact hOld
    · exact hNew
  unfold locks
  rw [Machine.step_output]
  change Spent pass setting ((reconcileGpuClockAt pass setting.stored).effects.countP _) _
  generalize reconcileGpuClockAt pass setting.stored = served at hHappened ⊢
  cases hHappened with
  | quiet => exact hKept
  | expired _ _ hExpired =>
    have hNew := hLeaves pass.first hKept (spent_expired hExpired)
    unfold write
    split_ifs <;> exact hNew
  | begun _ _ hPasses hAttempted =>
    have hNew := hLeaves pass.first hKept
        (spent_attempted hSound hTime hPasses hAttempted ⟨rfl, rfl, Or.inl rfl⟩).mono
    unfold write
    split_ifs <;> exact hNew
  | locked _ _ hPasses hAttempted hOutcome =>
    exact hLeaves pass.second (spent_attempted hSound hTime hPasses hAttempted
        ⟨rfl, rfl, Or.inl rfl⟩) (spent_attempted hSound hTime hPasses hAttempted hOutcome)

/- The same, of the step of a run. -/
theorem spent_move : (machine.move setting pass).Sound ∧ (¬ opening pass setting.stored →
      locks (machine.step setting pass) + (machine.move setting pass).left ≤ setting.left) ∧
    locks (machine.step setting pass) + (machine.move setting pass).left ≤ attemptLimit := by
  have hSpent := spent_call hSound hTime
  rw [move_eq]
  exact ⟨hSpent.sound, hSpent.found, hSpent.opened⟩

end Calls

----
-- Every Run
----

/- A stored intent only gives way to a later one. -/
theorem generation_le_call (pass : Pass) (stored : Option GpuClockCheckpoint) :
    ∀ old ∈ stored, ∃ new ∈ (reconcileGpuClockAt pass stored).stored, old.desired.generation ≤
    new.desired.generation := by
  intro old hOld
  have hLater (hPasses : passes pass stored) {current : GpuClockCheckpoint}
      (hDesired : current.desired = wanted pass stored) :
      old.desired.generation ≤ current.desired.generation := by
    rw [hDesired]
    exact generation_le_wanted hPasses.2.2 old hOld
  have hLeaves (written : Written) (new : GpuClockCheckpoint)
      (hNew : old.desired.generation ≤ new.desired.generation) :
      ∃ current ∈ written.leaves stored new, old.desired.generation ≤ current.desired.generation :=
      by
    unfold Written.leaves
    split
    · exact ⟨old, hOld, le_rfl⟩
    · exact ⟨new, rfl, hNew⟩
  have hHappened := reconcile_happened pass stored
  generalize reconcileGpuClockAt pass stored = served at hHappened ⊢
  cases hHappened with
  | quiet => exact ⟨old, hOld, le_rfl⟩
  | expired record hPasses hExpired =>
    exact hLeaves pass.first record (hLater hPasses hExpired.desired)
  | begun record _ hPasses hAttempted =>
    exact hLeaves pass.first record (hLater hPasses hAttempted.desired)
  | locked record settled hPasses hAttempted hOutcome =>
    have hNew := hLater hPasses hAttempted.desired
    dsimp only
    unfold Written.leaves
    split
    · exact ⟨record, rfl, hNew⟩
    · refine ⟨settled, rfl, ?_⟩
      rw [hOutcome.desired]
      exact hNew

theorem generation_le_final (setting : Setting) (passes : List Pass) :
    ∀ old ∈ setting.stored, ∃ new ∈ (machine.final setting passes).stored, old.desired.generation ≤
    new.desired.generation := by
  induction passes generalizing setting with
  | nil => exact fun old hOld => ⟨old, hOld, le_rfl⟩
  | cons pass _ ih =>
    intro old hOld
    rcases generation_le_call pass setting.stored old hOld with ⟨middle, hMiddle, hFirst⟩
    rcases ih (machine.move setting pass) middle hMiddle with ⟨new, hNew, hSecond⟩
    exact ⟨new, hNew, hFirst.trans hSecond⟩

/- An intent of the stored generation with another range. -/
theorem conflict_refused {old : GpuClockCheckpoint} {intent : GpuClockIntent}
    (hDesired : pass.desired = some intent) (hSame : intent.generation = old.desired.generation)
    (hOther : intent.range ≠ old.desired.range) :
    (reconcileGpuClockAt pass (some old)).stored = some old ∧
    (reconcileGpuClockAt pass (some old)).effects = [] ∧
    ∃ failure, (reconcileGpuClockAt pass (some old)).reply = some (.error failure) := by
  have hFence : fence pass (some old) = .conflict := by simp [fence, hDesired, hSame, hOther]
  unfold reconcileGpuClockAt
  dsimp only
  split
  · exact ⟨rfl, rfl, _, rfl⟩
  · cases pass.failure with
    | some => exact ⟨rfl, rfl, _, rfl⟩
    | none =>
      rw [hFence]
      exact ⟨rfl, rfl, _, rfl⟩

/- A lock follows a durable write of its intent. -/
theorem lock_written {range : GpuClockRange}
    (hLock : .lock range ∈ (reconcileGpuClockAt pass stored).effects) :
    ∃ record, (reconcileGpuClockAt pass stored).effects = [.wrote record, .lock range] ∧
    record.desired.range = range ∧ ∃ current ∈ (reconcileGpuClockAt pass stored).stored,
    current.desired = record.desired := by
  have hHappened := reconcile_happened pass stored
  generalize reconcileGpuClockAt pass stored = served at hHappened hLock ⊢
  have hWrite (record : GpuClockCheckpoint) : .lock range ∉ (write pass stored record).effects := by
    unfold write
    dsimp only
    split <;> simp
  cases hHappened with
  | quiet => cases hLock
  | expired record | begun record => exact absurd hLock (hWrite record)
  | locked record settled _ _ hOutcome =>
    obtain rfl : range = record.desired.range := by simpa using hLock
    refine ⟨record, rfl, rfl, ?_⟩
    dsimp only
    unfold Written.leaves
    split
    · exact ⟨record, rfl, rfl⟩
    · exact ⟨settled, rfl, hOutcome.desired⟩

/-
  In every run of calls at times that do not go back, from a host without a checkpoint: the stored
  generation does not fall, a conflicting intent is refused without effect, each lock uses the
  stored range after it was durably written, and from the opening of a window to the next one at
  most `attemptLimit` locks are run.
-/
theorem gpu_clock_fenced_and_bounded
    (passes : List Pass)
    (hTimes :
      ∀ step ∈ machine.trace ⟨none, 0⟩ passes,
        step.before.clock ≤ step.input.now) :
    (∀ i j,
       i ≤ j →
       ∀ old ∈ (machine.final ⟨none, 0⟩ (passes.take i)).stored,
         ∃ new ∈ (machine.final ⟨none, 0⟩ (passes.take j)).stored,
           old.desired.generation ≤ new.desired.generation) ∧
    (∀ step ∈ machine.trace ⟨none, 0⟩ passes,
       ∀ old intent,
         step.before.stored = some old →
         step.input.desired = some intent →
         intent.generation = old.desired.generation →
         intent.range ≠ old.desired.range →
         step.output.stored = step.before.stored ∧
         step.output.effects = [] ∧
         ∃ failure, step.output.reply = some (.error failure)) ∧
    (∀ step ∈ machine.trace ⟨none, 0⟩ passes,
       ∀ range,
         .lock range ∈ step.output.effects →
         ∃ record,
           step.output.effects = [.wrote record, .lock range] ∧
           record.desired.range = range ∧
           ∃ current ∈ step.output.stored,
             current.desired = record.desired) ∧
    ∀ earlier opener rest later,
      passes = earlier ++ opener :: (rest ++ later) →
      opening opener (machine.final ⟨none, 0⟩ earlier).stored →
      (∀ step ∈ machine.trace
         (machine.final ⟨none, 0⟩ (earlier ++ [opener])) rest,
         ¬ opening step.input step.before.stored) →
      Machine.total locks
        (machine.trace (machine.final ⟨none, 0⟩ earlier)
           (opener :: rest)) ≤
        attemptLimit := by
  have hSteps : ∀ step ∈ machine.trace ⟨none, 0⟩ passes, ∃ setting pass,
      step = machine.step setting pass := by
    intro step hStep
    rcases (machine.invariant_before (I := fun _ => True) (P := fun _ => True)
      (fun _ _ _ _ => trivial) trivial (fun _ _ => trivial) step hStep).2 with
      ⟨pass, hEq⟩
    exact ⟨_, pass, hEq⟩
  refine ⟨?_, ?_, ?_, ?_⟩
  · intro _ _ hLe old hOld
    rw [machine.final_take_of_le hLe]
    exact generation_le_final _ _ old hOld
  · intro step hStep old _ hOld hDesired hSame hOther
    obtain ⟨setting, _, rfl⟩ := hSteps step hStep
    change setting.stored = some old at hOld
    have hRefused := conflict_refused hDesired hSame hOther
    rw [← hOld] at hRefused
    exact hRefused
  · intro step hStep _ hLock
    obtain ⟨_, _, rfl⟩ := hSteps step hStep
    exact lock_written hLock
  · intro earlier _ _ _ hSplit _ hClosed
    subst hSplit
    simp only [Machine.trace_append, Machine.trace_cons, List.mem_append, List.mem_cons] at hTimes
    have hSound : (machine.final ⟨none, 0⟩ earlier).Sound := machine.invariant (I := Setting.Sound)
      (P := fun step => step.before.clock ≤ step.input.now)
      (fun setting pass hSound hTime => (spent_move hSound hTime).1)
      (fun current hCurrent => nomatch hCurrent) (fun step hStep => hTimes step (Or.inl hStep))
    have hOpener := spent_move hSound (hTimes _ (Or.inr (Or.inl rfl)))
    have hRest :=
      machine.total_le_rank (I := Setting.Sound)
        (P := fun step =>
          step.before.clock ≤ step.input.now ∧ ¬ opening step.input step.before.stored)
        locks Setting.left
        (fun setting pass hSound hStep =>
          ⟨(spent_move hSound hStep.1).1, (spent_move hSound hStep.1).2.1 hStep.2⟩)
        hOpener.1
        (fun step hStep => by
          refine ⟨hTimes step (Or.inr (Or.inr (Or.inl hStep))), ?_⟩
          refine hClosed step ?_
          simpa using hStep)
    have hFirst := hOpener.2.2
    rw [Machine.trace_cons, Machine.total_cons]
    exact (Nat.add_le_add_left (Nat.le_of_add_right_le hRest) _).trans hFirst

/- A call whose command fails, and is to be repeated. -/
def failing (now : Nat) : Pass where
  desired := none
  hourly := false
  now := now
  failure := none
  boot := some "boot"
  first := .durable
  killed := false
  command := .error "timed out"
  observation := .error ""
  second := .durable

/- A minute after a failed attempt the lock is tried again, within the limit of ten. -/
theorem two_failing_calls :
    (∃ record,
       (reconcileGpuClockAt (failing 60)
          (machine.final ⟨none, 0⟩ [failing 0]).stored).effects =
         [.wrote record, .lock defaultRange]) ∧
    attemptLimit = 10 ∧
    Machine.total locks (machine.trace ⟨none, 0⟩ [failing 0]) ≤
      attemptLimit := by
  have hRun :=
    gpu_clock_fenced_and_bounded [failing 0, failing 60]
      (by
        intro _ hStep
        simp only [Machine.trace_cons, Machine.trace_nil, List.mem_cons,
          List.not_mem_nil, or_false] at hStep
        rcases hStep with rfl | rfl
        · exact Nat.le_refl _
        · exact Nat.zero_le _)
  refine ⟨?_, rfl, ?_⟩
  · rcases hRun.2.2.1 _ (List.mem_of_getElem? (i := 1) rfl) defaultRange
      (by decide) with ⟨record, hEffects, _⟩
    exact ⟨record, hEffects⟩
  · refine hRun.2.2.2 [] (failing 0) [] [failing 60] rfl ?_ ?_
    · refine ⟨⟨?_, rfl, rfl⟩, Or.inl rfl⟩
      intro _ hIntent
      cases hIntent
    · intro _ hStep
      cases hStep

end VonkForge.GpuClock
