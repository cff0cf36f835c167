import VonkForge.Foundations.Hold

/-
  The bound on the range streams of the agent.

  It is the Controller's in another language, but a step that is taken back is also forgotten. Rates
  are exact here, and times are in nanoseconds. Waking the streams that wait is left out: each of
  them looks again at any time.

  Source: `State` and `StreamGovernor` of the agent.

  Main declarations:
    * `State`
    * `window_sees_calls`
    * `sound_serve`
    * `risen_history`
    * `limit_rises_when_it_pays`
-/

----
-- The Governor
----

namespace VonkForge.AgentStreams

def minStreams : Nat := 2
def rampStep : Nat := 2
def holdWindows : Nat := 6

/- `WINDOW`, in nanoseconds. -/
def window : Nat := 10 * 1000000000

structure State where
  max : Nat
  limit : Nat
  active : Nat
  peakActive : Nat
  windowStarted : Nat
  windowBytes : Nat
  lastRate : Option Rat
  previousLimit : Option Nat
  holdWindows : Nat
deriving DecidableEq

namespace State

/- `usize::clamp`. -/
def clamp (value low high : Nat) : Nat :=
  if value < low then low
  else if high < value then high
  else value

def new (initial max : Nat) (now : Nat) : State where
  max := max
  limit := clamp initial (min minStreams max) max
  active := 0
  peakActive := 0
  windowStarted := now
  windowBytes := 0
  lastRate := none
  previousLimit := none
  holdWindows := 0

variable (state : State) (now : Nat)

def resetWindow : State :=
  { state with windowStarted := now, windowBytes := 0, peakActive := state.active }

def stepUp (rate : Rat) : State :=
  { state with
    previousLimit := some state.limit, lastRate := some rate,
    limit := min (state.limit + rampStep) state.max }

/- What is decided of a window that is closed. -/
def judge (rate : Rat) : State :=
  if 0 < state.holdWindows then
    if state.holdWindows - 1 = 0 then { state with holdWindows := 0, lastRate := none }
    else { state with holdWindows := state.holdWindows - 1 }
  else
    match state.previousLimit with
    | some previous =>
      if rate < state.lastRate.getD 0 * (1 + 1 / 10) then
        { state with
          limit := previous, previousLimit := none, holdWindows := AgentStreams.holdWindows }
      else if state.limit ≤ state.peakActive ∧ state.limit < state.max then state.stepUp rate
      else { state with lastRate := some rate, previousLimit := none }
    | none =>
      if state.limit ≤ state.peakActive ∧ state.limit < state.max ∧ 0 < rate then state.stepUp rate
      else state

/- `saturating_duration_since` is zero for an earlier time. -/
def closes : Bool := window ≤ now - state.windowStarted

/- Bytes per second. -/
def rateOf : Rat := state.windowBytes / (((now - state.windowStarted : Nat) : Rat) / 1000000000)

def evaluate : State :=
  if state.closes now then (state.judge (state.rateOf now)).resetWindow now
  else state

def throttled : State := resetWindow
    { state with
      limit := Nat.max (state.limit / 2) (min minStreams state.max), previousLimit := none,
      lastRate := none, holdWindows := AgentStreams.holdWindows }
    now

def takePermit : State :=
  if state.active < state.limit then
    { state with
      active := state.active + 1, peakActive := Nat.max state.peakActive (state.active + 1) }
  else state

/- `u64::saturating_add`. -/
def count (bytes : Nat) : State :=
  { state with windowBytes := min (state.windowBytes + bytes) (2^64 - 1) }

end State

/- One turn of the loop in `acquire`, and the other calls. -/
inductive Call where
  | acquire (now : Nat)
  | release
  | recordBytes (bytes : Nat) (now : Nat)
  | throttled (now : Nat)
deriving DecidableEq

/- The state when a call comes to `evaluate`, if it does. -/
def reached (state : State) : Call → Option (State × Nat)
  | .acquire now => some (state, now)
  | .release => none
  | .recordBytes bytes now => some (state.count bytes, now)
  | .throttled _ => none

def serve (state : State) : Call → State
  | .acquire now => (state.evaluate now).takePermit
  | .release => { state with active := state.active - 1 }
  | .recordBytes bytes now => (state.count bytes).evaluate now
  | .throttled now => state.throttled now

def governorMachine : Machine State Call State where
  answer := serve
  next := id

/- `StreamGovernor::new`. -/
def newGovernor (initial max : Nat) (now : Nat) : State := State.new initial (Nat.max max 1) now

----
-- Closing a Window
----

/- What closing a window does to the limit, and why. -/
inductive Judged (state : State) (rate : Rat) (after : State) : Prop where
  | held (hHold : 0 < state.holdWindows) (hLimit : after.limit = state.limit)
      (hPrevious : after.previousLimit = state.previousLimit)
      (hAfter : after.holdWindows = state.holdWindows - 1)
  | undone (hHold : state.holdWindows = 0) (previous : Nat)
      (hBefore : state.previousLimit = some previous) (hLimit : after.limit = previous)
      (hPrevious : after.previousLimit = none) (hAfter : after.holdWindows = holdWindows)
  | stepped (hHold : state.holdWindows = 0) (hSaturated : state.limit ≤ state.peakActive)
      (hBelow : state.limit < state.max)
      (hWhy : (state.previousLimit = none ∧ 0 < rate) ∨ (state.previousLimit ≠ none ∧
        state.lastRate.getD 0 * (1 + 1 / 10) ≤ rate))
      (hLimit : after.limit = min (state.limit + rampStep) state.max)
      (hPrevious : after.previousLimit = some state.limit) (hLast : after.lastRate = some rate)
      (hAfter : after.holdWindows = 0)
  | rested (hHold : state.holdWindows = 0) (hLimit : after.limit = state.limit)
      (hPrevious : after.previousLimit = none) (hAfter : after.holdWindows = 0)

theorem State.judged
    (state : State)
    (rate : Rat) :
    Judged state rate (state.judge rate) := by
  fun_cases State.judge with
  | case1 hHold hLast => exact .held hHold rfl rfl hLast.symm
  | case2 hHold => exact .held hHold rfl rfl rfl
  | case3 hHold previous hPrevious =>
    exact .undone (Nat.eq_zero_of_not_pos hHold) previous hPrevious rfl rfl rfl
  | case4 hHold _ hPrevious hGrown hRoom =>
    have hZero := Nat.eq_zero_of_not_pos hHold
    exact .stepped hZero hRoom.1 hRoom.2 (Or.inr ⟨by simp [hPrevious], not_lt.mp hGrown⟩) rfl rfl
      rfl hZero
  | case5 hHold =>
    have hZero := Nat.eq_zero_of_not_pos hHold
    exact .rested hZero rfl rfl hZero
  | case6 hHold hPrevious hRoom =>
    have hZero := Nat.eq_zero_of_not_pos hHold
    exact .stepped hZero hRoom.1 hRoom.2.1 (Or.inl ⟨hPrevious, hRoom.2.2⟩) rfl rfl rfl hZero
  | case7 hHold hPrevious =>
    have hZero := Nat.eq_zero_of_not_pos hHold
    exact .rested hZero rfl hPrevious hZero

/- The fields that closing a window leaves alone. -/
theorem State.judge_frame (state : State) (rate : Rat) :
    (state.judge rate).max = state.max ∧ (state.judge rate).active = state.active := by
  fun_cases State.judge <;> exact ⟨rfl, rfl⟩

/- A remembered limit is below the limit, its rate is positive, and nothing is held back. -/
structure Sound (state : State) : Prop where
  low_le : min minStreams state.max ≤ state.limit
  limit_le : state.limit ≤ state.max
  active_le : state.active ≤ state.max
  previous : ∀ previous, state.previousLimit = some previous → min minStreams state.max ≤ previous ∧
    previous < state.limit ∧ state.holdWindows = 0 ∧ ∃ rate, state.lastRate = some rate ∧ 0 < rate
  hold_le : state.holdWindows ≤ holdWindows

variable {state : State}

/- A rate that has grown is positive. -/
theorem positive_of_stepped (hSound : Sound state)
    {rate : Rat} (hWhy : (state.previousLimit = none ∧ 0 < rate) ∨
      (state.previousLimit ≠ none ∧ state.lastRate.getD 0 * (1 + 1 / 10) ≤ rate)) : 0 < rate := by
  rcases hWhy with ⟨_, hPositive⟩ | ⟨hPrevious, hGrown⟩
  · exact hPositive
  · rcases Option.ne_none_iff_exists'.mp hPrevious with ⟨previous, hSome⟩
    rcases hSound.previous previous hSome with ⟨_, _, _, _, hLast, hBaseline⟩
    rw [hLast, Option.getD_some] at hGrown
    exact lt_of_lt_of_le (mul_pos hBaseline (by norm_num)) hGrown

variable {now : Nat}

theorem positive_rateOf (hPositive : 0 < state.rateOf now) :
    0 < state.windowBytes := by
  by_contra hNone
  have hZero : state.windowBytes = 0 := by omega
  rw [State.rateOf, hZero] at hPositive
  simp at hPositive

variable {state after : State}

theorem Judged.sound {rate : Rat} (hJudged : Judged state rate after)
    (hMax : after.max = state.max) (hActive : after.active = state.active) (hSound : Sound state) :
    Sound after := by
  have hLow := hSound.low_le
  have hHigh := hSound.limit_le
  have hActiveLe := hSound.active_le
  have hHoldLe := hSound.hold_le
  cases hJudged with
  | held _ _ hPrevious =>
    refine ⟨by omega, by omega, by omega, ?_, by omega⟩
    intro previous hSome
    rw [hPrevious] at hSome
    have hZero := (hSound.previous previous hSome).2.2.1
    omega
  | undone _ previous hBefore _ hPrevious =>
    have hOld := hSound.previous previous hBefore
    refine ⟨by omega, by omega, by omega, ?_, by omega⟩
    intro _ hSome
    rw [hPrevious] at hSome
    cases hSome
  | stepped _ _ _ hWhy _ hPrevious hLast hAfter =>
    have hStep : rampStep = 2 := rfl
    refine ⟨by omega, by omega, by omega, ?_, by omega⟩
    intro _ hSome
    rw [hPrevious, Option.some.injEq] at hSome
    refine ⟨by omega, by omega, hAfter, rate, hLast, ?_⟩
    exact positive_of_stepped hSound hWhy
  | rested _ _ hPrevious =>
    refine ⟨by omega, by omega, by omega, ?_, by omega⟩
    intro _ hSome
    rw [hPrevious] at hSome
    cases hSome

----
-- Calls
----

/- What a call can do, with or without closing a window. -/
structure Moved (state : State) (closed : Bool) (after : State) : Prop where
  sound : Sound after
  max_eq : after.max = state.max
  hold_le : state.holdWindows ≤ after.holdWindows + (if closed then 1 else 0)
  held : state.limit < after.limit → state.holdWindows = 0
  quiet : closed = false → after.previousLimit = none ∨
    (after.previousLimit = state.previousLimit ∧ after.limit = state.limit)
  remembered :
    closed = true → ∀ previous, after.previousLimit = some previous → state.limit = previous
  undone : closed = true → after.limit < state.limit → state.previousLimit = some after.limit ∧
    after.holdWindows = holdWindows

/- A closing raises the limit on moving bytes only. -/
theorem Judged.rises
    (hJudged : Judged state (state.rateOf now) after) (hSound : Sound state)
    (hLess : state.limit < after.limit) :
    state.holdWindows = 0 ∧ 0 < state.windowBytes ∧ state.limit ≤ state.peakActive := by
  cases hJudged with
  | held | rested => omega
  | undone _ previous hBefore =>
    have hOld := (hSound.previous previous hBefore).2.1
    omega
  | stepped hHold hSaturated _ hWhy =>
    exact ⟨hHold, positive_rateOf (positive_of_stepped hSound hWhy), hSaturated⟩

variable {state : State} {rate : Rat}

theorem Judged.hold_le (hJudged : Judged state rate after) :
    state.holdWindows ≤ after.holdWindows + 1 := by
  cases hJudged <;> omega

theorem Judged.remembered (hJudged : Judged state rate after)
    (hSound : Sound state) {previous : Nat} (hAfter : after.previousLimit = some previous) :
    state.limit = previous := by
  cases hJudged with
  | held _ _ hPrevious =>
    rw [hPrevious] at hAfter
    have hZero := (hSound.previous previous hAfter).2.2.1
    omega
  | undone _ _ _ _ hPrevious | rested _ _ hPrevious =>
    rw [hPrevious] at hAfter
    cases hAfter
  | stepped _ _ _ _ _ hPrevious =>
    rw [hPrevious] at hAfter
    exact Option.some.inj hAfter

theorem Judged.undone_of_lt
    (hJudged : Judged state rate after) (hLess : after.limit < state.limit) :
    state.previousLimit = some after.limit ∧ after.holdWindows = holdWindows := by
  cases hJudged with
  | held | stepped | rested => omega
  | undone _ _ hBefore hLimit _ hAfter => exact ⟨hBefore.trans (by rw [hLimit]), hAfter⟩

theorem State.evaluated (hSound : Sound state) (now : Nat) :
    Moved state (state.closes now) (state.evaluate now) := by
  unfold State.evaluate
  cases hCloses : state.closes now with
  | true =>
    rw [if_pos rfl]
    have hJudged := state.judged (state.rateOf now)
    rcases state.judge_frame (state.rateOf now) with ⟨hMax, hActive⟩
    have hAfter := hJudged.sound hMax hActive hSound
    exact {
      sound := ⟨hAfter.low_le, hAfter.limit_le, hAfter.active_le, hAfter.previous, hAfter.hold_le⟩
      max_eq := hMax
      hold_le := hJudged.hold_le
      held := fun hLess => (hJudged.rises hSound hLess).1
      quiet := fun hOpen => absurd hOpen (by decide)
      remembered := fun _ _ hSome => hJudged.remembered hSound hSome
      undone := fun _ hLess => hJudged.undone_of_lt hLess }
  | false =>
    rw [if_neg (by decide)]
    exact {
      sound := hSound
      max_eq := rfl
      hold_le := Nat.le_refl _
      held := fun hLess => absurd hLess (Nat.lt_irrefl _)
      quiet := fun _ => Or.inr ⟨rfl, rfl⟩
      remembered := fun hClosed => absurd hClosed (by decide)
      undone := fun hClosed => absurd hClosed (by decide) }

theorem State.rises_evaluate (hSound : Sound state)
    (hLess : state.limit < (state.evaluate now).limit) :
    state.closes now ∧ 0 < state.windowBytes ∧ state.limit ≤ state.peakActive := by
  unfold State.evaluate at hLess
  by_cases hCloses : state.closes now = true
  · rw [if_pos hCloses] at hLess
    have hJudged := state.judged (state.rateOf now)
    exact ⟨hCloses, (hJudged.rises hSound hLess).2⟩
  · rw [if_neg hCloses] at hLess
    exact absurd hLess (Nat.lt_irrefl _)

theorem Sound.takePermit (hSound : Sound state) : Sound state.takePermit := by
  unfold State.takePermit
  split
  · rename_i hRoom
    exact ⟨hSound.low_le, hSound.limit_le,
      Nat.le_trans hRoom hSound.limit_le, hSound.previous, hSound.hold_le⟩
  · exact hSound

theorem takePermit_frame (state : State) : state.takePermit.max = state.max ∧
    state.takePermit.limit = state.limit ∧ state.takePermit.previousLimit = state.previousLimit ∧
    state.takePermit.holdWindows = state.holdWindows := by
  unfold State.takePermit
  split <;> exact ⟨rfl, rfl, rfl, rfl⟩

theorem Moved.takePermit {closed : Bool} (hMoved : Moved state closed after) :
    Moved state closed after.takePermit := by
  rcases takePermit_frame after with ⟨hMax, hLimit, hPrevious, hHold⟩
  rcases hMoved with ⟨hSound, hSame, hLe, hHeld, hQuiet, hRemembered, hUndone⟩
  refine ⟨hSound.takePermit, ?_, ?_, ?_, ?_, ?_, ?_⟩
  · rw [hMax]
    exact hSame
  · rw [hHold]
    exact hLe
  · rw [hLimit]
    exact hHeld
  · rw [hPrevious, hLimit]
    exact hQuiet
  · rw [hPrevious]
    exact hRemembered
  · rw [hLimit, hHold]
    exact hUndone

theorem Sound.throttled (hSound : Sound state) (now : Nat) :
    Moved state false (state.throttled now) := by
  have hLow := hSound.low_le
  have hHigh := hSound.limit_le
  have hLimit : Nat.max (state.limit / 2) (min minStreams state.max) ≤ state.limit :=
    Nat.max_le.mpr ⟨Nat.div_le_self _ _, hLow⟩
  exact {
    sound := ⟨Nat.le_max_right _ _, Nat.le_trans hLimit hHigh, hSound.active_le,
        fun _ hSome => absurd hSome.symm (Option.some_ne_none _), Nat.le_refl _⟩
    max_eq := rfl
    hold_le := hSound.hold_le
    held := fun hLess => absurd hLess (Nat.not_lt.mpr hLimit)
    quiet := fun _ => Or.inl rfl
    remembered := fun hClosed => absurd hClosed (by decide)
    undone := fun hClosed => absurd hClosed (by decide) }

/- Counting bytes changes nothing that a closing is about. -/
theorem Moved.of_count {bytes : Nat} {closed : Bool}
    (hMoved : Moved (state.count bytes) closed after) : Moved state closed after :=
  ⟨hMoved.sound, hMoved.max_eq, hMoved.hold_le, hMoved.held,
    hMoved.quiet, hMoved.remembered, hMoved.undone⟩

theorem Sound.count (hSound : Sound state) (bytes : Nat) : Sound (state.count bytes) :=
  ⟨hSound.low_le, hSound.limit_le, hSound.active_le, hSound.previous, hSound.hold_le⟩

theorem Sound.release (hSound : Sound state) : Moved state false
      { state with active := state.active - 1 } where
  sound := ⟨hSound.low_le, hSound.limit_le, Nat.le_trans (Nat.sub_le _ _) hSound.active_le,
    hSound.previous, hSound.hold_le⟩
  max_eq := rfl
  hold_le := Nat.le_refl _
  held := fun hLess => absurd hLess (Nat.lt_irrefl _)
  quiet := fun _ => Or.inr ⟨rfl, rfl⟩
  remembered := fun hClosed => absurd hClosed (by decide)
  undone := fun hClosed => absurd hClosed (by decide)

abbrev GovernorStep := Machine.Step State Call State

/- A call that closes a window. -/
def closesWindow (step : GovernorStep) : Bool :=
  match reached step.before step.input with
  | none => false
  | some (state, now) => state.closes now

/- A call that begins a window: it closes the one before, or it is a throttle. -/
def beginsWindow (step : GovernorStep) : Bool :=
  match step.input with
  | .throttled _ => true
  | _ => closesWindow step

/- The bytes that a call counts. -/
def counted (step : GovernorStep) : Nat :=
  match step.input with
  | .recordBytes bytes _ => bytes
  | _ => 0

/-
  What the window has seen: the bytes of the calls since the one that began it, as far as they can
  be counted, and the most streams that were running after any of them.
-/
structure WindowOf
    (opening : Option GovernorStep)
    (since : List GovernorStep)
    (state : State) : Prop where
  bytes_eq : state.windowBytes = min (Machine.total counted since) (2^64 - 1)
  peak_eq :
    state.peakActive =
      (since.map (·.output.active)).foldl max (opening.elim 0 (·.output.active))
  active_le : state.active ≤ state.peakActive

theorem takePermit_window (state : State) :
    state.takePermit.windowBytes = state.windowBytes ∧
      (state.active ≤ state.peakActive →
        state.takePermit.peakActive = max state.peakActive state.takePermit.active) ∧
      state.active ≤ state.takePermit.active := by
  unfold State.takePermit
  split
  · exact ⟨rfl, fun _ => rfl, Nat.le_succ _⟩
  · exact ⟨rfl, fun hLe => (Nat.max_eq_left hLe).symm, Nat.le_refl _⟩

theorem evaluate_of_open (hOpen : state.closes now = false) : state.evaluate now = state := by
  unfold State.evaluate
  rw [hOpen]
  rfl

/- A closing leaves an empty window behind. -/
theorem evaluate_of_closes (hCloses : state.closes now = true) :
    (state.evaluate now).windowBytes = 0 ∧
      (state.evaluate now).peakActive = (state.evaluate now).active := by
  unfold State.evaluate
  rw [hCloses]
  exact ⟨rfl, rfl⟩

theorem WindowOf.begins {call : Call}
    (hBegins : beginsWindow (governorMachine.step state call) = true) :
    WindowOf (some (governorMachine.step state call)) [] (serve state call) := by
  suffices hFresh : (serve state call).windowBytes = 0 ∧
      (serve state call).peakActive = (serve state call).active from
    ⟨hFresh.1, hFresh.2, Nat.le_of_eq hFresh.2.symm⟩
  cases call with
  | acquire now =>
    rcases (evaluate_of_closes hBegins : (state.evaluate now).windowBytes = 0 ∧ _)
      with ⟨hBytes, hPeak⟩
    rcases takePermit_window (state.evaluate now) with ⟨hKept, hMax, hLe⟩
    refine ⟨hKept.trans hBytes, (hMax (Nat.le_of_eq hPeak.symm)).trans ?_⟩
    exact Nat.max_eq_right (Nat.le_trans (Nat.le_of_eq hPeak) hLe)
  | release => cases hBegins
  | recordBytes => exact evaluate_of_closes hBegins
  | throttled => exact ⟨rfl, rfl⟩

theorem WindowOf.continues
    {opening : Option GovernorStep}
    {since : List GovernorStep}
    (hWindow : WindowOf opening since state)
    {call : Call}
    (hOpen : beginsWindow (governorMachine.step state call) = false) :
    WindowOf opening (since ++ [governorMachine.step state call]) (serve state call) := by
  have hLe := hWindow.active_le
  have hBound : state.windowBytes ≤ 2^64 - 1 := by
    rw [hWindow.bytes_eq]
    exact Nat.min_le_right _ _
  suffices hSeen : (serve state call).windowBytes =
        min (state.windowBytes + counted (governorMachine.step state call)) (2^64 - 1) ∧
      (serve state call).peakActive = max state.peakActive (serve state call).active by
    refine ⟨?_, ?_, ?_⟩
    · rw [hSeen.1, hWindow.bytes_eq]
      simp only [Machine.total, List.map_append, List.sum_append, List.map_cons, List.map_nil,
        List.sum_cons, List.sum_nil]
      omega
    · rw [hSeen.2, hWindow.peak_eq, List.map_append, List.foldl_append]
      rfl
    · rw [hSeen.2]
      exact Nat.le_max_right _ _
  cases call with
  | acquire now =>
    have hSame : state.evaluate now = state := evaluate_of_open hOpen
    rcases takePermit_window state with ⟨hKept, hMax, _⟩
    rw [serve, hSame]
    exact ⟨hKept.trans (Nat.min_eq_left hBound).symm, hMax hLe⟩
  | release =>
    exact ⟨(Nat.min_eq_left hBound).symm,
      (Nat.max_eq_left (Nat.le_trans (Nat.sub_le _ _) hLe)).symm⟩
  | recordBytes bytes now =>
    have hSame : (state.count bytes).evaluate now = state.count bytes := evaluate_of_open hOpen
    rw [serve, hSame]
    exact ⟨rfl, (Nat.max_eq_left hLe).symm⟩
  | throttled => cases hOpen

/-
  In every run, the bytes and the peak of the window are those of the calls since the last one that
  closed a window or was a throttle.
-/
theorem window_sees_calls
    (initial max : Nat)
    (now : Nat)
    (calls : List Call) :
    ∃ earlier since,
      governorMachine.trace (newGovernor initial max now) calls =
        earlier ++ since ∧
      (∀ step ∈ earlier.getLast?, beginsWindow step = true) ∧
      (∀ step ∈ since, beginsWindow step = false) ∧
      WindowOf earlier.getLast? since
        (governorMachine.final
           (newGovernor initial max now) calls) :=
  governorMachine.since_last beginsWindow
    ⟨rfl, rfl, Nat.le_refl _⟩
    (fun _ _ hBegins => WindowOf.begins hBegins)
    (fun _ _ _ _ hWindow hOpen => hWindow.continues hOpen) calls

/- A call that raises the limit does so on moving bytes. -/
def RisesOnBytes (step : GovernorStep) : Prop := step.before.limit < step.output.limit →
    ∃ state now, reached step.before step.input = some (state, now) ∧
    state.limit = step.before.limit ∧ state.closes now = true ∧ 0 < state.windowBytes ∧
    state.limit ≤ state.peakActive

/- Every call keeps the governor sound and moves its limit as it may. -/
theorem sound_serve
    (hSound : Sound state)
    (call : Call) :
    Moved state (closesWindow (governorMachine.step state call))
      (serve state call) := by
  cases call with
  | acquire now => exact (State.evaluated hSound now).takePermit
  | release => exact hSound.release
  | recordBytes bytes now => exact (State.evaluated (hSound.count bytes) now).of_count
  | throttled now => exact hSound.throttled now

theorem rises_serve (hSound : Sound state) (call : Call) :
    RisesOnBytes (governorMachine.step state call) := by
  intro hLess
  cases call with
  | acquire now =>
    change state.limit < (state.evaluate now).takePermit.limit at hLess
    rw [(takePermit_frame _).2.1] at hLess
    exact ⟨state, now, rfl, rfl, State.rises_evaluate hSound hLess⟩
  | release => exact absurd hLess (Nat.lt_irrefl _)
  | recordBytes bytes now =>
    exact ⟨state.count bytes, now, rfl, rfl, State.rises_evaluate (hSound.count bytes) hLess⟩
  | throttled now =>
    have hHigh : (state.throttled now).limit ≤ state.limit :=
      Nat.max_le.mpr ⟨Nat.div_le_self _ _, hSound.low_le⟩
    exact absurd hLess (Nat.not_lt.mpr hHigh)

theorem sound_new (initial max : Nat) (now : Nat) : Sound (newGovernor initial max now) := by
  refine ⟨?_, ?_, Nat.zero_le _, fun _ hSome => absurd hSome.symm (Option.some_ne_none _),
      Nat.zero_le _⟩
  · change min minStreams (Nat.max max 1) ≤
      State.clamp initial (min minStreams (Nat.max max 1)) (Nat.max max 1)
    unfold State.clamp
    split
    · exact Nat.le_refl _
    · split
      · exact Nat.min_le_right _ _
      · omega
  · change State.clamp initial (min minStreams (Nat.max max 1)) (Nat.max max 1) ≤ Nat.max max 1
    unfold State.clamp
    split
    · exact Nat.min_le_right _ _
    · split
      · exact Nat.le_refl _
      · omega

----
-- Runs
----

/- A remembered limit was left by the last closing, which raised it to the limit of now. -/
def Risen (past : List GovernorStep) (state : State) : Prop :=
  ∀ previous, state.previousLimit = some previous → ∃ (i : Nat) (rising : GovernorStep),
    past[i]? = some rising ∧ closesWindow rising = true ∧ rising.before.limit = previous ∧
    rising.output.limit = state.limit ∧ ∀ (j : Nat) later, i < j → past[j]? = some later →
    closesWindow later = false

theorem risen_append {past : List GovernorStep}
    (hSound : Sound state) (hRisen : Risen past state) (call : Call) :
    Risen (past ++ [governorMachine.step state call]) (serve state call) := by
  intro previous hSome
  have hMoved := sound_serve hSound call
  cases hClosed : closesWindow (governorMachine.step state call) with
  | true =>
    refine ⟨past.length, governorMachine.step state call, List.getElem?_concat_length, hClosed,
      hMoved.remembered hClosed previous hSome, rfl, ?_⟩
    intro _ _ _ hLater
    rw [List.getElem?_eq_none] at hLater
    · cases hLater
    · rw [List.length_append, List.length_singleton]
      omega
  | false =>
    rcases hMoved.quiet hClosed with hNone | ⟨hSame, hLimit⟩
    · rw [hNone] at hSome
      cases hSome
    · rw [hSame] at hSome
      rcases hRisen previous hSome with ⟨i, rising, hAt, hCloses, hFrom, hTo, hQuiet⟩
      have hBound := (List.getElem?_eq_some_iff.mp hAt).1
      refine ⟨i, rising, ?_, hCloses, hFrom, hTo.trans hLimit.symm, ?_⟩
      · rw [List.getElem?_append_left hBound]
        exact hAt
      · intro j later hLt hLater
        rcases Nat.lt_or_ge j past.length with hIn | hOut
        · rw [List.getElem?_append_left hIn] at hLater
          exact hQuiet j later hLt hLater
        · rw [List.getElem?_append_right hOut, List.getElem?_singleton] at hLater
          split at hLater
          · cases hLater
            exact hClosed
          · cases hLater

/- A remembered limit is the one before the last step up. -/
theorem risen_history
    {start : State}
    (hSound : Sound start)
    (hNone : start.previousLimit = none)
    (calls : List Call) :
    Sound (governorMachine.final start calls) ∧
    Risen (governorMachine.trace start calls)
      (governorMachine.final start calls) := by
  refine governorMachine.history (H := fun past state => Sound state ∧ Risen past state)
    ⟨hSound, ?_⟩ ?_ calls
  · intro _ hSome
    rw [hNone] at hSome
    cases hSome
  · intro _ _ call hPast
    exact ⟨(sound_serve hPast.1 call).sound, risen_append hPast.1 hPast.2 call⟩

/- A closing at which the limit falls undoes a rise. -/
def UndoesRise (steps : List GovernorStep) (j : Nat) (falling : GovernorStep) : Prop :=
  ∃ (i : Nat) (rising : GovernorStep), i < j ∧ steps[i]? = some rising ∧
    closesWindow rising = true ∧ rising.before.limit = falling.output.limit ∧
    rising.output.limit = falling.before.limit ∧ ∀ (k : Nat) between, i < k → k < j →
    steps[k]? = some between → closesWindow between = false

theorem undoesRise_of_previous {start : State} (hSound : Sound start)
    (hNone : start.previousLimit = none)
    {calls : List Call} {j : Nat} {falling : GovernorStep}
    (hAt : (governorMachine.trace start calls)[j]? = some falling)
    (hPrevious : falling.before.previousLimit = some falling.output.limit) :
    UndoesRise (governorMachine.trace start calls) j falling := by
  rcases governorMachine.exists_of_getElem?_trace hAt with ⟨call, _, hStep⟩
  have hBefore : falling.before = governorMachine.final start (calls.take j) := by
    rw [hStep]
    rfl
  have hRisen := (risen_history hSound hNone (calls.take j)).2
  rw [← hBefore, ← Machine.take_trace] at hRisen
  rcases hRisen _ hPrevious with ⟨i, rising, hRising, hCloses, hFrom, hTo, hQuiet⟩
  -- The past of the falling step is what stands before it.
  rw [List.getElem?_take] at hRising
  split at hRising
  · rename_i hLt
    refine ⟨i, rising, hLt, hRising, hCloses, hFrom, hTo, ?_⟩
    intro k between hAfter hEarlier hBetween
    apply hQuiet k between hAfter
    rw [List.getElem?_take, if_pos hEarlier]
    exact hBetween
  · cases hRising

/-
  The limit and the streams stay within their bounds. The limit rises only at the closing of a
  window with bytes in which the streams reached it, a closing lowers it only by undoing the rise of
  the closing before, and after a throttle or an undone rise the next closings do not raise it.
-/
theorem limit_rises_when_it_pays
    (initial max : Nat)
    (hMax : 1 ≤ max)
    (now : Nat)
    (calls : List Call)
    (steps : List GovernorStep)
    (hSteps :
      steps =
        governorMachine.trace (newGovernor initial max now) calls) :
    (∀ step ∈ steps,
       min minStreams max ≤ step.output.limit ∧
       step.output.limit ≤ max ∧
       step.output.active ≤ max ∧
       RisesOnBytes step) ∧
    (∀ (j : Nat) falling,
       steps[j]? = some falling →
       closesWindow falling = true →
       falling.output.limit < falling.before.limit →
       UndoesRise steps j falling) ∧
    ∀ (i j : Nat) holding later,
      i < j →
      steps[i]? = some holding →
      steps[j]? = some later →
      ((∃ time, holding.input = .throttled time) ∨
       (closesWindow holding = true ∧
        holding.output.limit < holding.before.limit)) →
      (Machine.between steps i j).countP closesWindow < holdWindows →
      ¬ later.before.limit < later.output.limit := by
  subst hSteps
  have hBefore : ∀ step ∈ governorMachine.trace (newGovernor initial max now) calls,
      (Sound step.before ∧ step.before.max = Nat.max max 1) ∧
      ∃ call, step = governorMachine.step step.before call :=
    governorMachine.invariant_before
      (I := fun state => Sound state ∧ state.max = Nat.max max 1)
      (P := fun _ => True)
      (fun state call hKept _ => by
        have hMoved := sound_serve hKept.1 call
        exact ⟨hMoved.sound, hMoved.max_eq.trans hKept.2⟩)
      ⟨sound_new initial max now, rfl⟩
      (fun _ _ => trivial)
  have hMaxEq : Nat.max max 1 = max := Nat.max_eq_left hMax
  have hMoved : ∀ step ∈ governorMachine.trace (newGovernor initial max now) calls,
      Moved step.before (closesWindow step) step.output ∧ RisesOnBytes step := by
    intro step hMem
    rcases hBefore step hMem with ⟨⟨hSound, _⟩, call, hStep⟩
    rw [hStep]
    exact ⟨sound_serve hSound call, rises_serve hSound call⟩
  refine ⟨?_, ?_, ?_⟩
  · intro step hMem
    rcases hMoved step hMem with ⟨hDone, hRises⟩
    have hSame : step.output.max = max := hDone.max_eq.trans ((hBefore step hMem).1.2.trans hMaxEq)
    have hSound := hDone.sound
    refine ⟨?_, ?_, ?_, hRises⟩
    · rw [← hSame]
      exact hSound.low_le
    · rw [← hSame]
      exact hSound.limit_le
    · rw [← hSame]
      exact hSound.active_le
  · intro _ falling hAt hCloses hLess
    have hDone := (hMoved falling (List.mem_of_getElem? hAt)).1
    have hPrevious := (hDone.undone hCloses hLess).1
    exact undoesRise_of_previous (sound_new initial max now) rfl hAt hPrevious
  · intro _ _ holding _ hLt hHolding hLater hWhy hFew
    have hHold : holding.output.holdWindows = holdWindows := by
      rcases hWhy with ⟨time, hInput⟩ | ⟨hCloses, hLess⟩
      · rcases (hBefore holding (List.mem_of_getElem? hHolding)).2 with
          ⟨call, hStep⟩
        rw [hStep] at hInput ⊢
        have hCall : call = .throttled time := hInput
        rw [hCall]
        rfl
      · exact ((hMoved holding (List.mem_of_getElem? hHolding)).1.undone hCloses hLess).2
    apply governorMachine.held_back State.holdWindows closesWindow
      (fun step => step.before.limit < step.output.limit)
      (fun step hMem => (hMoved step hMem).1.hold_le)
      (fun step hMem => (hMoved step hMem).1.held) hLt hHolding hLater
    change _ < holding.output.holdWindows
    rw [hHold]
    exact hFew

/- Two streams whose third window is slower than the second. -/
def slowedCalls : List Call := [.acquire 1, .acquire 1, .recordBytes 100 10000000000,
    .recordBytes 50 20000000000, .recordBytes 50 30000000000]

/- A step that did not pay is taken back, and the next one waits. -/
theorem slowed_streams_fall_back :
    (∃ falling,
       (governorMachine.trace (newGovernor 2 8 0) slowedCalls)[3]? =
         some falling ∧
       falling.output.limit < falling.before.limit ∧
       UndoesRise
         (governorMachine.trace (newGovernor 2 8 0) slowedCalls) 3
         falling) ∧
    ∃ later,
      (governorMachine.trace (newGovernor 2 8 0) slowedCalls)[4]? =
        some later ∧
      ¬ later.before.limit < later.output.limit := by
  have hSafe :=
    limit_rises_when_it_pays 2 8 (by decide) 0 slowedCalls _
      rfl
  have hStep k call (hCall : slowedCalls[k]? = some call) :=
    governorMachine.getElem?_trace_of (s := newGovernor 2 8 0) hCall
  have hCloses : closesWindow (governorMachine.step
      (governorMachine.final (newGovernor 2 8 0) (slowedCalls.take 3))
      (.recordBytes 50 20000000000)) = true := by decide +kernel
  have hFalls : (governorMachine.step
      (governorMachine.final (newGovernor 2 8 0) (slowedCalls.take 3))
      (.recordBytes 50 20000000000)).output.limit <
    (governorMachine.final (newGovernor 2 8 0) (slowedCalls.take 3)).limit := by decide +kernel
  refine ⟨⟨_, hStep 3 _ rfl, hFalls, ?_⟩, _, hStep 4 _ rfl, ?_⟩
  · exact hSafe.2.1 3 _ (hStep 3 _ rfl) hCloses hFalls
  · exact hSafe.2.2 3 4 _ _ (by decide) (hStep 3 _ rfl) (hStep 4 _ rfl) (Or.inr ⟨hCloses, hFalls⟩)
      (by decide +kernel)

end VonkForge.AgentStreams
