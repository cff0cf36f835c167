import VonkForge.Foundations.Hold

/-
  The bound on the streams of the Controller's model cache.

  A window of ten seconds is closed by the first call after it. A step up is taken back at the next
  closing if the rate did not grow, and the bound then holds for some windows.

  Rates are floating point numbers. What is used of them is that a rate is positive exactly if bytes
  were counted, and that a rate which is not below the growth of a positive one is positive. The log
  and its counters are left out.

  Source: `StreamGovernor` of the Controller.

  Main declarations:
    * `Rates`
    * `Governor.judged`
    * `window_sees_calls`
    * `sound_serve`
    * `limit_rises_on_moving_bytes`
-/

----
-- The Governor
----

namespace VonkForge.Streams

def windowSeconds : Rat := 10
def plateauHoldWindows : Nat := 6
def rampStep : Nat := 2
def minStreams : Nat := 1

/- The arithmetic of rates. -/
structure Rates (Rate : Type) where
  zero : Rate
  /- The bytes of a window over its seconds. -/
  rate : Nat → Rat → Rate
  positive : Rate → Bool
  /- `rate < baseline * (1 + GROWTH_FRACTION)`. -/
  belowGrowth : Rate → Rate → Bool
  positive_rate :
    ∀ bytes elapsed, windowSeconds ≤ elapsed → (positive (rate bytes elapsed) = true ↔ 0 < bytes)
  positive_of_growth : ∀ rate baseline, positive baseline = true →
    belowGrowth rate baseline = false → positive rate = true

structure Governor (Rate : Type) where
  max : Nat
  limit : Nat
  active : Nat
  peakActive : Nat
  windowStarted : Rat
  windowBytes : Nat
  lastRate : Option Rate
  previousLimit : Option Nat
  holdWindows : Nat
  rate : Rate
  reason : String

variable {Rate : Type} (rates : Rates Rate)

namespace Governor

/- `initial_streams or 8`: a zero counts as none. -/
def create (maxStreams : Nat) (initialStreams : Option Nat) (now : Rat) : Governor Rate where
  max := maxStreams
  limit := min maxStreams
      (if initialStreams.getD 0 = 0 then 8
      else initialStreams.getD 0)
  active := 0
  peakActive := 0
  windowStarted := now
  windowBytes := 0
  lastRate := none
  previousLimit := none
  holdWindows := 0
  rate := rates.zero
  reason := "ramping"

variable (g : Governor Rate) (now : Rat)

def resetWindow : Governor Rate :=
  { g with windowStarted := now, windowBytes := 0, peakActive := g.active }

def stepUp (rate : Rate) : Governor Rate :=
  { g with
    previousLimit := some g.limit, lastRate := some rate, limit := min g.max (g.limit + rampStep),
    reason := "ramping" }

/- What is decided of a window that is closed. -/
def judge (rate : Rate) : Governor Rate :=
  if 0 < g.holdWindows then
    if g.holdWindows - 1 = 0 then { g with holdWindows := 0, lastRate := none, reason := "ramping" }
    else { g with holdWindows := g.holdWindows - 1 }
  else
    match g.previousLimit with
    | some previous =>
      if rates.belowGrowth rate
          (g.lastRate.getD rates.zero) then
        { g with
          limit := previous, holdWindows := plateauHoldWindows,
          reason := "plateau: more streams did not raise throughput" }
      else if g.limit ≤ g.peakActive ∧ g.limit < g.max then g.stepUp rate
      else { g with lastRate := some rate, previousLimit := none }
    | none =>
      if g.limit ≤ g.peakActive ∧ g.limit < g.max ∧ rates.positive rate then g.stepUp rate
      else if g.max ≤ g.limit then { g with reason := "at stream cap" }
      else g

/- Whether a call at this time closes the window. -/
def closes : Bool := windowSeconds ≤ now - g.windowStarted

def evaluate : Governor Rate :=
  if g.closes now then
    let rate := rates.rate g.windowBytes (now - g.windowStarted)
    resetWindow { g.judge rates rate with rate := rate } now
  else g

def throttled (reason : String) : Governor Rate := resetWindow
    { g with
      limit := Nat.max minStreams (g.limit / 2), previousLimit := none, lastRate := none,
      holdWindows := plateauHoldWindows, reason := reason }
    now

def takePermit : Governor Rate :=
  if g.active < g.limit then
    { g with active := g.active + 1, peakActive := Nat.max g.peakActive (g.active + 1) }
  else g

end Governor

/-
  The calls: one turn of the loop in `stream`, which may be stopped, the end of a stream, and the
  others by their names.
-/
inductive Call where
  | start (stopped : Bool) (now : Rat)
  | finish
  | recordBytes (count : Nat) (now : Rat)
  | throttled (now : Rat) (reason : String)
  | tick (now : Rat)

/- The governor when a call comes to `_evaluate`, if it does. -/
def reached (g : Governor Rate) : Call → Option (Governor Rate × Rat)
  | .start true _ => none
  | .start false now => some (g, now)
  | .finish => none
  | .recordBytes count now => some ({ g with windowBytes := g.windowBytes + count }, now)
  | .throttled _ _ => none
  | .tick now => some (g, now)

def serve (g : Governor Rate) : Call → Governor Rate
  | .start true _ => g
  | .start false now => (g.evaluate rates now).takePermit
  | .finish => { g with active := g.active - 1 }
  | .recordBytes count now =>
    Governor.evaluate rates
      { g with windowBytes := g.windowBytes + count } now
  | .throttled now reason => g.throttled now reason
  | .tick now => g.evaluate rates now

def governorMachine : Machine (Governor Rate) Call (Governor Rate) where
  answer := serve rates
  next := id

----
-- Closing a Window
----

variable {Rate : Type} (rates : Rates Rate)

/- What closing a window does to the limit, and why. -/
inductive Judged (g : Governor Rate) (rate : Rate) (after : Governor Rate) : Prop where
  | held (hHold : 0 < g.holdWindows) (hLimit : after.limit = g.limit)
      (hPrevious : after.previousLimit = g.previousLimit)
      (hLast : after.lastRate = g.lastRate ∨ after.lastRate = none)
      (hAfter : after.holdWindows = g.holdWindows - 1)
  | undone (hHold : g.holdWindows = 0) (previous : Nat) (hBefore : g.previousLimit = some previous)
      (hLimit : after.limit = previous) (hPrevious : after.previousLimit = g.previousLimit)
      (hLast : after.lastRate = g.lastRate) (hAfter : after.holdWindows = plateauHoldWindows)
  | stepped (hHold : g.holdWindows = 0) (hSaturated : g.limit ≤ g.peakActive)
      (hBelow : g.limit < g.max)
      (hWhy : (g.previousLimit = none ∧ rates.positive rate = true) ∨ (g.previousLimit ≠ none ∧
        rates.belowGrowth rate (g.lastRate.getD rates.zero) = false))
      (hLimit : after.limit = min g.max (g.limit + rampStep))
      (hPrevious : after.previousLimit = some g.limit) (hLast : after.lastRate = some rate)
      (hAfter : after.holdWindows = 0)
  | rested (hHold : g.holdWindows = 0) (hLimit : after.limit = g.limit)
      (hPrevious : after.previousLimit = none) (hAfter : after.holdWindows = 0)

/- A closing does one of these things. -/
theorem Governor.judged (g : Governor Rate) (rate : Rate) :
    Judged rates g rate (g.judge rates rate) := by
  fun_cases Governor.judge with
  | case1 hHold hLast => exact .held hHold rfl rfl (Or.inr rfl) hLast.symm
  | case2 hHold => exact .held hHold rfl rfl (Or.inl rfl) rfl
  | case3 hHold previous hPrevious =>
    exact .undone (Nat.eq_zero_of_not_pos hHold) previous hPrevious rfl rfl rfl rfl
  | case4 hHold _ hPrevious hGrown hRoom =>
    have hZero := Nat.eq_zero_of_not_pos hHold
    exact .stepped hZero hRoom.1 hRoom.2
      (Or.inr ⟨by simp [hPrevious], Bool.eq_false_iff.mpr hGrown⟩) rfl rfl rfl hZero
  | case6 hHold hPrevious hRoom =>
    have hZero := Nat.eq_zero_of_not_pos hHold
    exact .stepped hZero hRoom.1 hRoom.2.1 (Or.inl ⟨hPrevious, hRoom.2.2⟩) rfl rfl rfl hZero
  | _ =>
    have hZero := Nat.eq_zero_of_not_pos ‹_›
    exact .rested hZero rfl (by first | rfl | assumption) hZero

/- The fields that closing a window leaves alone. -/
theorem Governor.judge_frame (g : Governor Rate) (rate : Rate) :
    (g.judge rates rate).max = g.max ∧ (g.judge rates rate).active = g.active := by
  fun_cases Governor.judge <;> exact ⟨rfl, rfl⟩

/- Where a previous limit is remembered, its rate is positive, as long as there is one. -/
structure Sound (g : Governor Rate) : Prop where
  min_le : minStreams ≤ g.limit
  limit_le : g.limit ≤ g.max
  active_le : g.active ≤ g.max
  previous :
    ∀ previous, g.previousLimit = some previous → minStreams ≤ previous ∧ previous ≤ g.limit
  last : ∀ rate, g.previousLimit ≠ none → g.lastRate = some rate → rates.positive rate = true
  hold_le : g.holdWindows ≤ plateauHoldWindows

/-
  A remembered limit with no rate is left over from a step that was taken back. The first window
  behind the hold must not then be full of streams and empty of bytes.
-/
def Governor.Paying (g : Governor Rate) (now : Rat) : Prop :=
  g.closes now = true → g.holdWindows = 0 → g.previousLimit ≠ none → g.lastRate = none →
    g.limit ≤ g.peakActive → g.limit < g.max → 0 < g.windowBytes

/- A step up is on moving bytes. -/
theorem positive_of_stepped {g : Governor Rate} (hSound : Sound rates g)
    {now : Rat} (hCloses : g.closes now) (hPaying : g.Paying now)
    (hHold : g.holdWindows = 0) (hSaturated : g.limit ≤ g.peakActive) (hBelow : g.limit < g.max)
    (hWhy : (g.previousLimit = none ∧
        rates.positive (rates.rate g.windowBytes (now - g.windowStarted))) ∨
        (g.previousLimit ≠ none ∧ rates.belowGrowth
        (rates.rate g.windowBytes (now - g.windowStarted)) (g.lastRate.getD rates.zero) = false)) :
    0 < g.windowBytes := by
  have hElapsed : windowSeconds ≤ now - g.windowStarted := by simpa [Governor.closes] using hCloses
  rcases hWhy with ⟨_, hPositive⟩ | ⟨hPrevious, hGrown⟩
  · exact (rates.positive_rate _ _ hElapsed).mp hPositive
  · cases hLast : g.lastRate with
    | none => exact hPaying hCloses hHold hPrevious hLast hSaturated hBelow
    | some baseline =>
      rw [hLast, Option.getD_some] at hGrown
      apply (rates.positive_rate _ _ hElapsed).mp
      exact rates.positive_of_growth _ baseline (hSound.last baseline hPrevious hLast) hGrown

variable {rates} {g after : Governor Rate} {rate : Rate}

section

variable (hJudged : Judged rates g rate after)

include hJudged

/- The limit rises by a step up only. -/
theorem Judged.stepped_of_lt (hSound : Sound rates g)
    (hLess : g.limit < after.limit) : g.holdWindows = 0 ∧ g.limit ≤ g.peakActive ∧ g.limit < g.max ∧
    ((g.previousLimit = none ∧ rates.positive rate) ∨
      (g.previousLimit ≠ none ∧ rates.belowGrowth rate (g.lastRate.getD rates.zero) = false)) := by
  cases hJudged with
  | held | rested => omega
  | undone _ previous hBefore =>
    have hOld := (hSound.previous previous hBefore).2
    omega
  | stepped hHold hSaturated hBelow hWhy => exact ⟨hHold, hSaturated, hBelow, hWhy⟩

theorem Judged.hold_le : g.holdWindows ≤ after.holdWindows + 1 := by
  cases hJudged <;> omega

theorem Judged.sound (hMax : after.max = g.max)
    (hActive : after.active = g.active) (hSound : Sound rates g)
    (hPositive : g.limit < after.limit → rates.positive rate) : Sound rates after := by
  have hActiveLe : after.active ≤ after.max := by
    rw [hMax, hActive]
    exact hSound.active_le
  have hMinLe := hSound.min_le
  have hLimitLe := hSound.limit_le
  have hHoldLe := hSound.hold_le
  cases hJudged with
  | held _ hLimit hPrevious hLast =>
    refine ⟨by omega, by omega, hActiveLe, ?_, ?_, by omega⟩
    · intro previous hSome
      rw [hPrevious] at hSome
      rw [hLimit]
      exact hSound.previous previous hSome
    · intro other hNotNone hOther
      rw [hPrevious] at hNotNone
      rcases hLast with hSame | hNone
      · rw [hSame] at hOther
        exact hSound.last other hNotNone hOther
      · rw [hNone] at hOther
        cases hOther
  | undone _ previous hBefore hLimit hPrevious hLast =>
    have hOld := hSound.previous previous hBefore
    refine ⟨by omega, by omega, hActiveLe, ?_, ?_, by omega⟩
    · intro _ hSome
      rw [hPrevious, hBefore, Option.some.injEq] at hSome
      rw [hLimit, ← hSome]
      exact ⟨hOld.1, Nat.le_refl _⟩
    · intro other hNotNone hOther
      rw [hPrevious] at hNotNone
      rw [hLast] at hOther
      exact hSound.last other hNotNone hOther
  | stepped _ _ _ _ _ hPrevious hLast =>
    have hStep : rampStep = 2 := rfl
    refine ⟨by omega, by omega, hActiveLe, ?_, ?_, by omega⟩
    · intro _ hSome
      rw [hPrevious, Option.some.injEq] at hSome
      omega
    · intro _ _ hOther
      rw [hLast, Option.some.injEq] at hOther
      rw [← hOther]
      exact hPositive (by omega)
  | rested _ _ hPrevious =>
    refine ⟨by omega, by omega, hActiveLe, ?_, ?_, by omega⟩
    · intro _ hSome
      rw [hPrevious] at hSome
      cases hSome
    · intro _ hNotNone
      exact absurd hPrevious hNotNone

end

/- What an evaluation can do to the limit. -/
structure Evaluated (rates : Rates Rate) (g : Governor Rate) (now : Rat)
    (after : Governor Rate) : Prop where
  sound : Sound rates after
  max_eq : after.max = g.max
  active_eq : after.active = g.active
  hold_le : g.holdWindows ≤ after.holdWindows + (if g.closes now then 1 else 0)
  rises : g.limit < after.limit → g.closes now = true ∧ 0 < g.windowBytes ∧ g.limit ≤ g.peakActive ∧
    g.holdWindows = 0

theorem Governor.evaluated {g : Governor Rate} (hSound : Sound rates g)
    {now : Rat} (hPaying : g.Paying now) : Evaluated rates g now (g.evaluate rates now) := by
  unfold Governor.evaluate
  by_cases hCloses : g.closes now = true
  · rw [if_pos hCloses]
    have hElapsed : windowSeconds ≤ now - g.windowStarted := by
      simpa [Governor.closes] using hCloses
    have hJudged := g.judged rates (rates.rate g.windowBytes (now - g.windowStarted))
    have hFrame := g.judge_frame rates (rates.rate g.windowBytes (now - g.windowStarted))
    have hBytes : g.limit < (g.judge rates (rates.rate g.windowBytes (now - g.windowStarted))).limit
        → 0 < g.windowBytes := by
      intro hLess
      rcases hJudged.stepped_of_lt hSound hLess with ⟨hHold, hSaturated, hBelow, hWhy⟩
      exact positive_of_stepped rates hSound hCloses hPaying hHold hSaturated hBelow hWhy
    have hAfter := hJudged.sound hFrame.1 hFrame.2 hSound
      (fun hLess => (rates.positive_rate _ _ hElapsed).mpr (hBytes hLess))
    refine ⟨⟨hAfter.min_le, hAfter.limit_le, hAfter.active_le, hAfter.previous, hAfter.last,
      hAfter.hold_le⟩, hFrame.1, hFrame.2, ?_, ?_⟩
    · rw [if_pos hCloses]
      exact hJudged.hold_le
    · intro hLess
      rcases hJudged.stepped_of_lt hSound hLess with ⟨hHold, hSaturated, _, _⟩
      exact ⟨hCloses, hBytes hLess, hSaturated, hHold⟩
  · rw [if_neg hCloses]
    exact ⟨hSound, rfl, rfl, Nat.le_add_right _ _, fun hLess => absurd hLess (Nat.lt_irrefl _)⟩

----
-- Runs
----

variable {Rate : Type} {rates : Rates Rate}

abbrev GovernorStep (Rate : Type) := Machine.Step (Governor Rate) Call (Governor Rate)

/- A call that closes a window. -/
def closesWindow (step : GovernorStep Rate) : Bool :=
  match reached step.before step.input with
  | none => false
  | some (g, now) => g.closes now

/- A call that begins a window: it closes the one before, or it is a throttle. -/
def beginsWindow (step : GovernorStep Rate) : Bool :=
  match step.input with
  | .throttled _ _ => true
  | _ => closesWindow step

/- The bytes that a call counts. -/
def counted (step : GovernorStep Rate) : Nat :=
  match step.input with
  | .recordBytes count _ => count
  | _ => 0

/-
  What the window has seen: the bytes of the calls since the one that began it, and the most streams
  that were running after any of them.
-/
structure WindowOf
    (opening : Option (GovernorStep Rate))
    (since : List (GovernorStep Rate))
    (g : Governor Rate) : Prop where
  bytes_eq : g.windowBytes = Machine.total counted since
  peak_eq :
    g.peakActive =
      (since.map (·.output.active)).foldl max (opening.elim 0 (·.output.active))
  active_le : g.active ≤ g.peakActive

/- The condition, at the call that comes to `_evaluate`. -/
def Paying (step : GovernorStep Rate) : Prop :=
  ∀ g now, reached step.before step.input = some (g, now) → g.Paying now

/- A call that raises the limit does so on moving bytes. -/
def RisesOnBytes (step : GovernorStep Rate) : Prop :=
  step.before.limit < step.output.limit → ∃ g now, reached step.before step.input = some (g, now) ∧
    g.limit = step.before.limit ∧ g.closes now = true ∧ 0 < g.windowBytes ∧ g.limit ≤ g.peakActive

/- What a call can do. -/
structure Served (step : GovernorStep Rate) : Prop where
  max_eq : step.output.max = step.before.max
  hold_le : step.before.holdWindows ≤ step.output.holdWindows + (if closesWindow step then 1 else 0)
  rises : RisesOnBytes step
  held : step.before.limit < step.output.limit → step.before.holdWindows = 0

theorem Sound.takePermit {g : Governor Rate} (hSound : Sound rates g) :
    Sound rates g.takePermit := by
  unfold Governor.takePermit
  split
  · rename_i hRoom
    have hLimit := hSound.limit_le
    exact ⟨hSound.min_le, hSound.limit_le,
      Nat.le_trans hRoom hLimit, hSound.previous, hSound.last, hSound.hold_le⟩
  · exact hSound

theorem takePermit_frame (g : Governor Rate) : g.takePermit.max = g.max ∧
    g.takePermit.limit = g.limit ∧ g.takePermit.holdWindows = g.holdWindows := by
  unfold Governor.takePermit
  split <;> exact ⟨rfl, rfl, rfl⟩

theorem evaluate_of_open {g : Governor Rate} {now : Rat} (hOpen : g.closes now = false) :
    g.evaluate rates now = g := by
  unfold Governor.evaluate
  rw [hOpen]
  rfl

/- A closing leaves an empty window behind. -/
theorem evaluate_of_closes {g : Governor Rate} {now : Rat} (hCloses : g.closes now = true) :
    (g.evaluate rates now).windowBytes = 0 ∧
      (g.evaluate rates now).peakActive = (g.evaluate rates now).active := by
  unfold Governor.evaluate
  rw [hCloses]
  exact ⟨rfl, rfl⟩

theorem takePermit_window (g : Governor Rate) :
    g.takePermit.windowBytes = g.windowBytes ∧
      (g.active ≤ g.peakActive → g.takePermit.peakActive = max g.peakActive g.takePermit.active) ∧
      g.active ≤ g.takePermit.active := by
  unfold Governor.takePermit
  split
  · exact ⟨rfl, fun _ => rfl, Nat.le_succ _⟩
  · exact ⟨rfl, fun hLe => (Nat.max_eq_left hLe).symm, Nat.le_refl _⟩

theorem WindowOf.begins {g : Governor Rate} {call : Call}
    (hBegins : beginsWindow ((governorMachine rates).step g call) = true) :
    WindowOf (some ((governorMachine rates).step g call)) [] (serve rates g call) := by
  suffices hFresh : (serve rates g call).windowBytes = 0 ∧
      (serve rates g call).peakActive = (serve rates g call).active from
    ⟨hFresh.1, hFresh.2, Nat.le_of_eq hFresh.2.symm⟩
  cases call with
  | start stopped now =>
    cases stopped with
    | true => cases hBegins
    | false =>
      rcases (evaluate_of_closes hBegins : (g.evaluate rates now).windowBytes = 0 ∧ _)
        with ⟨hBytes, hPeak⟩
      rcases takePermit_window (g.evaluate rates now) with ⟨hKept, hMax, hLe⟩
      refine ⟨hKept.trans hBytes, (hMax (Nat.le_of_eq hPeak.symm)).trans ?_⟩
      exact Nat.max_eq_right (Nat.le_trans (Nat.le_of_eq hPeak) hLe)
  | finish => cases hBegins
  | recordBytes | tick => exact evaluate_of_closes hBegins
  | throttled => exact ⟨rfl, rfl⟩

theorem WindowOf.continues
    {opening : Option (GovernorStep Rate)}
    {since : List (GovernorStep Rate)}
    {g : Governor Rate}
    (hWindow : WindowOf opening since g)
    {call : Call}
    (hOpen : beginsWindow ((governorMachine rates).step g call) = false) :
    WindowOf opening (since ++ [(governorMachine rates).step g call]) (serve rates g call) := by
  have hLe := hWindow.active_le
  suffices hSeen : (serve rates g call).windowBytes =
        g.windowBytes + counted ((governorMachine rates).step g call) ∧
      (serve rates g call).peakActive = max g.peakActive (serve rates g call).active by
    refine ⟨?_, ?_, ?_⟩
    · rw [hSeen.1, hWindow.bytes_eq]
      simp [Machine.total]
    · rw [hSeen.2, hWindow.peak_eq, List.map_append, List.foldl_append]
      rfl
    · rw [hSeen.2]
      exact Nat.le_max_right _ _
  cases call with
  | start stopped now =>
    cases stopped with
    | true => exact ⟨rfl, (Nat.max_eq_left hLe).symm⟩
    | false =>
      have hSame : g.evaluate rates now = g := evaluate_of_open hOpen
      rcases takePermit_window g with ⟨hKept, hMax, _⟩
      rw [serve, hSame]
      exact ⟨hKept, hMax hLe⟩
  | finish => exact ⟨rfl, (Nat.max_eq_left (Nat.le_trans (Nat.sub_le _ _) hLe)).symm⟩
  | recordBytes count now =>
    have hSame : Governor.evaluate rates { g with windowBytes := g.windowBytes + count } now = _ :=
      evaluate_of_open hOpen
    rw [serve, hSame]
    exact ⟨rfl, (Nat.max_eq_left hLe).symm⟩
  | tick now =>
    have hSame : g.evaluate rates now = g := evaluate_of_open hOpen
    rw [serve, hSame]
    exact ⟨rfl, (Nat.max_eq_left hLe).symm⟩
  | throttled => cases hOpen

/-
  In every run, the bytes and the peak of the window are those of the calls since the last one that
  closed a window or was a throttle.
-/
theorem window_sees_calls (maxStreams : Nat) (initialStreams : Option Nat)
    (now : Rat) (calls : List Call) :
    ∃ earlier since,
      (governorMachine rates).trace
          (Governor.create rates maxStreams initialStreams now) calls = earlier ++ since ∧
      (∀ step ∈ earlier.getLast?, beginsWindow step = true) ∧
      (∀ step ∈ since, beginsWindow step = false) ∧
      WindowOf earlier.getLast? since
        ((governorMachine rates).final
          (Governor.create rates maxStreams initialStreams now) calls) :=
  (governorMachine rates).since_last beginsWindow
    ⟨rfl, rfl, Nat.le_refl _⟩
    (fun _ _ hBegins => WindowOf.begins hBegins)
    (fun _ _ _ _ hWindow hOpen => hWindow.continues hOpen) calls

/- Every call that meets the condition keeps the governor sound. -/
theorem sound_serve {g : Governor Rate} (hSound : Sound rates g) (call : Call)
    (hPaying : Paying ((governorMachine rates).step g call)) :
    Sound rates (serve rates g call) ∧ Served ((governorMachine rates).step g call) := by
  cases call with
  | start stopped now =>
    cases stopped with
    | true =>
      refine ⟨hSound, rfl, Nat.le_add_right _ _, ?_, ?_⟩
      · intro hLess
        exact absurd hLess (Nat.lt_irrefl _)
      · intro hLess
        exact absurd hLess (Nat.lt_irrefl _)
    | false =>
      have hDone := Governor.evaluated hSound (hPaying g now rfl)
      rcases takePermit_frame (g.evaluate rates now) with ⟨hMax, hLimit, hHold⟩
      refine ⟨hDone.sound.takePermit, hMax.trans hDone.max_eq, ?_, ?_, ?_⟩
      · change g.holdWindows ≤
          (g.evaluate rates now).takePermit.holdWindows + (if g.closes now then 1 else 0)
        rw [hHold]
        exact hDone.hold_le
      · intro hLess
        change g.limit < (g.evaluate rates now).takePermit.limit at hLess
        rw [hLimit] at hLess
        rcases hDone.rises hLess with ⟨hCloses, hBytes, hPeak, _⟩
        exact ⟨g, now, rfl, rfl, hCloses, hBytes, hPeak⟩
      · intro hLess
        change g.limit < (g.evaluate rates now).takePermit.limit at hLess
        rw [hLimit] at hLess
        exact (hDone.rises hLess).2.2.2
  | finish =>
    refine ⟨⟨hSound.min_le, hSound.limit_le, Nat.le_trans (Nat.sub_le _ _) hSound.active_le,
      hSound.previous, hSound.last, hSound.hold_le⟩, rfl, Nat.le_add_right _ _, ?_, ?_⟩
    · intro hLess
      exact absurd hLess (Nat.lt_irrefl _)
    · intro hLess
      exact absurd hLess (Nat.lt_irrefl _)
  | recordBytes count now =>
    have hCounted : Sound rates
          { g with windowBytes := g.windowBytes + count } :=
      ⟨hSound.min_le, hSound.limit_le, hSound.active_le,
        hSound.previous, hSound.last, hSound.hold_le⟩
    have hDone := Governor.evaluated hCounted (hPaying _ now rfl)
    refine ⟨hDone.sound, hDone.max_eq, hDone.hold_le, ?_, ?_⟩
    · intro hLess
      rcases hDone.rises hLess with ⟨hCloses, hBytes, hPeak, _⟩
      exact ⟨_, now, rfl, rfl, hCloses, hBytes, hPeak⟩
    · intro hLess
      exact (hDone.rises hLess).2.2.2
  | throttled =>
    have hMin : minStreams = 1 := rfl
    have hLow := hSound.min_le
    have hHigh := hSound.limit_le
    have hLimit : Nat.max minStreams (g.limit / 2) ≤ g.limit := by
      apply Nat.max_le.mpr
      exact ⟨hLow, Nat.div_le_self _ _⟩
    refine ⟨⟨Nat.le_max_left _ _, Nat.le_trans hLimit hHigh, hSound.active_le, ?_, ?_,
      Nat.le_refl _⟩, rfl, ?_, ?_, ?_⟩
    · intro _ hSome
      cases hSome
    · intro _ hNotNone
      exact absurd rfl hNotNone
    · exact Nat.le_trans hSound.hold_le (Nat.le_add_right _ _)
    · intro hLess
      exact absurd hLess (Nat.not_lt.mpr hLimit)
    · intro hLess
      exact absurd hLess (Nat.not_lt.mpr hLimit)
  | tick now =>
    have hDone := Governor.evaluated hSound (hPaying g now rfl)
    refine ⟨hDone.sound, hDone.max_eq, hDone.hold_le, ?_, ?_⟩
    · intro hLess
      rcases hDone.rises hLess with ⟨hCloses, hBytes, hPeak, _⟩
      exact ⟨g, now, rfl, rfl, hCloses, hBytes, hPeak⟩
    · intro hLess
      exact (hDone.rises hLess).2.2.2

theorem sound_create {maxStreams : Nat} (hMax : minStreams ≤ maxStreams)
    (initialStreams : Option Nat) (now : Rat) :
    Sound rates (Governor.create rates maxStreams initialStreams now) := by
  refine ⟨?_, Nat.min_le_left _ _, Nat.zero_le _, ?_, ?_, Nat.zero_le _⟩
  · apply Nat.le_min.mpr
    refine ⟨hMax, ?_⟩
    split
    · decide
    · exact Nat.pos_of_ne_zero (by assumption)
  · intro _ hSome
    cases hSome
  · intro _ hNotNone
    exact absurd rfl hNotNone

/-
  In a run that meets the condition at every call, the limit is raised only at the closing of a
  window with bytes, in which the streams reached the limit. The limit stays within its bounds, the
  streams stay within the maximum, and after a throttle the limit is not raised at the closings that
  are held back.
-/
theorem limit_rises_on_moving_bytes
    (rates : Rates Rate)
    (maxStreams : Nat)
    (hMax : minStreams ≤ maxStreams)
    (initialStreams : Option Nat)
    (now : Rat)
    (calls : List Call)
    (hPaying :
      ∀ step ∈ (governorMachine rates).trace
        (Governor.create rates maxStreams initialStreams now) calls,
        Paying step) :
    (∀ step ∈ (governorMachine rates).trace
       (Governor.create rates maxStreams initialStreams now) calls,
       RisesOnBytes step ∧
       minStreams ≤ step.output.limit ∧
       step.output.limit ≤ maxStreams ∧
       step.output.active ≤ maxStreams) ∧
    ∀ (i j : Nat) (throttling later : GovernorStep Rate) time reason,
      i < j →
      ((governorMachine rates).trace
         (Governor.create rates maxStreams initialStreams now)
         calls)[i]? =
        some throttling →
      ((governorMachine rates).trace
         (Governor.create rates maxStreams initialStreams now)
         calls)[j]? =
        some later →
      throttling.input = .throttled time reason →
      (Machine.between
         ((governorMachine rates).trace
            (Governor.create rates maxStreams initialStreams now) calls)
         i j).countP
        closesWindow <
        plateauHoldWindows →
      ¬ later.before.limit < later.output.limit := by
  have hBefore :=
    (governorMachine rates).invariant_before
      (I := fun g => Sound rates g ∧ g.max = maxStreams)
      (P := Paying)
      (fun g call hKept hStep => by
        rcases sound_serve hKept.1 call hStep with ⟨hSound, hServed⟩
        exact ⟨hSound, hServed.max_eq.trans hKept.2⟩)
      ⟨sound_create hMax initialStreams now, rfl⟩ hPaying
  have hServed : ∀ step ∈ (governorMachine rates).trace
      (Governor.create rates maxStreams initialStreams now) calls,
      (Sound rates step.output ∧ step.output.max = maxStreams) ∧ Served step := by
    intro step hMem
    rcases hBefore step hMem with ⟨⟨hSound, hSame⟩, call, hStep⟩
    have hPays := hPaying step hMem
    rw [hStep] at hPays
    rcases sound_serve hSound call hPays with ⟨hAfter, hDone⟩
    rw [hStep]
    exact ⟨⟨hAfter, hDone.max_eq.trans hSame⟩, hDone⟩
  refine ⟨?_, ?_⟩
  · intro step hMem
    rcases hServed step hMem with ⟨⟨hSound, hSame⟩, hDone⟩
    refine ⟨hDone.rises, hSound.min_le, ?_, ?_⟩
    · rw [← hSame]
      exact hSound.limit_le
    · rw [← hSame]
      exact hSound.active_le
  · intro _ _ throttling _ time reason hLt hThrottling hLater hInput hFew
    rcases (hBefore throttling (List.mem_of_getElem? hThrottling)).2 with ⟨call, hStep⟩
    have hHold : throttling.output.holdWindows = plateauHoldWindows := by
      rw [hStep] at hInput ⊢
      have hCall : call = .throttled time reason := hInput
      rw [hCall]
      rfl
    apply (governorMachine rates).held_back Governor.holdWindows closesWindow
      (fun step => step.before.limit < step.output.limit)
      (fun step hMem => (hServed step hMem).2.hold_le)
      (fun step hMem => (hServed step hMem).2.held) hLt hThrottling hLater
    change _ < throttling.output.holdWindows
    rw [hHold]
    exact hFew

/- Rates without rounding. -/
def exactRates : Rates Rat where
  zero := 0
  rate bytes elapsed := bytes / elapsed
  positive rate := 0 < rate
  belowGrowth rate baseline := rate < baseline * (11 / 10)
  positive_rate := by
    intro _ elapsed hElapsed
    have hPositive : (0 : Rat) < elapsed := lt_of_lt_of_le (by decide) hElapsed
    rw [decide_eq_true_eq, div_pos_iff_of_pos_right hPositive]
    exact Nat.cast_pos
  positive_of_growth := by
    intro _ _ hBaseline hGrown
    rw [decide_eq_true_eq] at hBaseline ⊢
    rw [decide_eq_false_iff_not, not_lt] at hGrown
    exact lt_of_lt_of_le (mul_pos hBaseline (by norm_num)) hGrown

def Governor.pays (g : Governor Rate) (now : Rat) : Bool :=
  !(g.closes now && g.holdWindows == 0 && g.previousLimit.isSome && g.lastRate.isNone &&
      decide (g.limit ≤ g.peakActive) &&
      decide (g.limit < g.max)) ||
    decide (0 < g.windowBytes)

def pays (step : GovernorStep Rate) : Bool :=
  match reached step.before step.input with
  | none => true
  | some (g, now) => g.pays now

theorem paying_of_pays {step : GovernorStep Rate} (hPays : pays step) : Paying step := by
  intro g _ hReached hCloses hHold hPrevious hLast hPeak hBelow
  unfold pays at hPays
  rw [hReached] at hPays
  have hSome : g.previousLimit.isSome := Option.isSome_iff_ne_none.mpr hPrevious
  simpa [Governor.pays, hCloses, hHold, hSome, hLast, hPeak, hBelow] using hPays

/- Two streams that move bytes, and an answer 429. -/
def throttledCalls : List Call :=
  [.start false 1, .start false 1, .recordBytes 100 10, .throttled 12 "429", .recordBytes 100 22]

/- The limit rises on moving bytes, and not behind a throttle. -/
theorem throttled_streams_are_held_back :
    (∃ step,
       ((governorMachine exactRates).trace
          (Governor.create exactRates 8 (some 2) 0)
          throttledCalls)[2]? =
         some step ∧
       step.before.limit < step.output.limit ∧
       RisesOnBytes step) ∧
    ∃ later,
      ((governorMachine exactRates).trace
         (Governor.create exactRates 8 (some 2) 0) throttledCalls)[4]? =
        some later ∧
      ¬ later.before.limit < later.output.limit := by
  have hAll : ((governorMachine exactRates).trace (Governor.create exactRates 8 (some 2) 0)
      throttledCalls).all pays = true := by decide +kernel
  have hSafe := limit_rises_on_moving_bytes exactRates 8 (by decide)
    (some 2) 0 throttledCalls (fun step hMem => paying_of_pays (List.all_eq_true.mp hAll step hMem))
  have hStep k call (hCall : throttledCalls[k]? = some call) :=
    (governorMachine exactRates).getElem?_trace_of
      (s := Governor.create exactRates 8 (some 2) 0) hCall
  refine ⟨⟨_, hStep 2 _ rfl, ?_, ?_⟩, _, hStep 4 _ rfl, ?_⟩
  · decide +kernel
  · exact (hSafe.1 _ (List.mem_of_getElem? (hStep 2 _ rfl))).1
  · exact hSafe.2 3 4 _ _ 12 "429" (by decide)
      (hStep 3 _ rfl) (hStep 4 _ rfl) rfl (by decide +kernel)

/- Two streams that move bytes once, and then stand still. -/
def stalledCalls : List Call := [.start false 1, .start false 1, .recordBytes 100 10,
    .tick 20, .tick 30, .tick 40, .tick 50, .tick 60, .tick 70, .tick 80, .tick 90]

/- A window without a byte raises the limit, once the hold of a step taken back is over. -/
theorem stalled_streams_raise_the_limit :
    ∃ step,
      ((governorMachine exactRates).trace
         (Governor.create exactRates 8 (some 2) 0) stalledCalls)[10]? =
        some step ∧
      step.before.windowBytes = 0 ∧
      step.before.limit = 2 ∧
      step.output.limit = 4 ∧
      ¬ RisesOnBytes step := by
  have hInput : stalledCalls[10]? = some (.tick 90) := rfl
  have hStep := (governorMachine exactRates).getElem?_trace_of
    (s := Governor.create exactRates 8 (some 2) 0) hInput
  let stalled := (governorMachine exactRates).final (Governor.create exactRates 8 (some 2) 0)
    (stalledCalls.take 10)
  have hEmpty : stalled.windowBytes = 0 := by decide +kernel
  have hBefore : stalled.limit = 2 := by decide +kernel
  have hAfter : (serve exactRates stalled (.tick 90)).limit = 4 := by decide +kernel
  refine ⟨_, hStep, hEmpty, hBefore, hAfter, ?_⟩
  intro hRises
  have hLess : stalled.limit < (serve exactRates stalled (.tick 90)).limit := by
    rw [hBefore, hAfter]
    decide
  rcases hRises hLess with ⟨_, _, hReached, _, _, hBytes, _⟩
  cases hReached
  exact absurd hEmpty (Nat.ne_of_gt hBytes)

end VonkForge.Streams
