import Mathlib

/-
  Stall windows of the Controller.

  Work that waits on a live owner waits. Other work stalls once a whole window has passed since it
  started, last progressed, or an owner it waited on ended. Times are instants: a time without a
  zone is one of UTC.

  Source: `stall_window.py`.

  Main declarations:
    * `latestProgress`
    * `progressVerdict`
    * `progressVerdict_eq_stalled_iff`
    * `silent_window_stalls_iff`
-/

----
-- Verdicts
----

namespace VonkForge.Stall

inductive Verdict where
  | progressing
  | waiting
  | stalled
deriving DecidableEq

/- An owner that work waits on. -/
structure Wait where
  live : Bool
  endedAt : Option Int
deriving DecidableEq

/- The newest signal, never later than `now`. -/
def latestProgress (signals : List (Option Int)) (now : Int) : Option Int :=
  match signals.reduceOption with
  | [] => none
  | first :: rest => some (min (rest.foldl max first) now)

variable (startedAt : Int) (progressedAt : Option Int)

def stallDeadline (window : Int) : Int :=
  match progressedAt with
  | none => startedAt + window
  | some progressed => max startedAt progressed + window

/- The work's own progress and the ends of its owners. -/
def signalsOf (progressedAt : Option Int) (owners : List Wait) : List (Option Int) :=
  progressedAt :: owners.map Wait.endedAt

variable (window now : Int) (owners : List Wait)

def progressDeadline : Int :=
  if owners.any Wait.live then stallDeadline now none window
  else stallDeadline startedAt (latestProgress (signalsOf progressedAt owners) now) window

def progressVerdict : Verdict :=
  if owners.any Wait.live then .waiting
  else if
      progressDeadline startedAt progressedAt window now owners ≤ now then
    .stalled
  else .progressing

----
-- When Work Stalls
----

theorem foldl_max_le_iff (first bound : Int) (rest : List Int) :
    rest.foldl max first ≤ bound ↔ ∀ signal ∈ first :: rest, signal ≤ bound := by
  induction rest generalizing first with
  | nil => simp
  | cons _ _ ih =>
    rw [List.foldl_cons, ih]
    simp [and_assoc]

/- A deadline has passed if a window has, since each signal. -/
theorem stallDeadline_latestProgress_le_iff {window : Int} (hWindow : 0 < window)
    (startedAt now : Int) (signals : List (Option Int)) :
    stallDeadline startedAt (latestProgress signals now) window ≤ now ↔ startedAt + window ≤ now ∧
    ∀ signal, some signal ∈ signals → signal + window ≤ now := by
  have hMem : ∀ signal, some signal ∈ signals ↔ signal ∈ signals.reduceOption :=
    fun signal => List.reduceOption_mem_iff.symm
  simp only [hMem]
  unfold latestProgress
  cases signals.reduceOption with
  | nil => simp [stallDeadline]
  | cons first rest =>
    have hNewest := foldl_max_le_iff first (now - window) rest
    simp only [stallDeadline]
    -- A signal that is cut to `now` leaves a whole window.
    have hCut : max startedAt (min (rest.foldl max first) now) + window ≤ now ↔
          startedAt + window ≤ now ∧ rest.foldl max first ≤ now - window := by
      omega
    rw [hCut, hNewest]
    simp only [le_sub_iff_add_le]

/- Work without a live owner has stalled exactly if nothing was heard for a window. -/
theorem progressVerdict_eq_stalled_iff
    {window : Int}
    (hWindow : 0 < window)
    {owners : List Wait}
    (hEnded : ∀ owner ∈ owners, owner.live = false)
    (startedAt : Int)
    (progressedAt : Option Int)
    (now : Int) :
    progressVerdict startedAt progressedAt window now owners =
      .stalled ↔
      startedAt + window ≤ now ∧
      ∀ signal,
        some signal ∈ signalsOf progressedAt owners →
        signal + window ≤ now := by
  have hNone : ¬ owners.any Wait.live := by simpa using hEnded
  rw [← stallDeadline_latestProgress_le_iff hWindow]
  unfold progressVerdict progressDeadline
  rw [if_neg hNone, if_neg hNone]
  split <;> simp_all

/-
  A silent window stalls work, and it stays stalled, exactly if no signal was later than a window
  before the check.
-/
theorem silent_window_stalls_iff
    (startedAt : Int)
    (progressedAt : Option Int)
    {window : Int}
    (hWindow : 0 < window)
    {owners : List Wait}
    (hEnded : ∀ owner ∈ owners, owner.live = false)
    {first second : Int}
    (hStarted : startedAt ≤ first)
    (hSilent : first + window ≤ second) :
    (progressVerdict startedAt progressedAt window second owners =
       .stalled ∧
     ∀ now later,
       now ≤ later →
       progressVerdict startedAt progressedAt window now owners =
         .stalled →
       progressVerdict startedAt progressedAt window later owners =
         .stalled) ↔
      ∀ signal,
        some signal ∈ signalsOf progressedAt owners →
        signal + window ≤ second := by
  simp only [progressVerdict_eq_stalled_iff hWindow hEnded]
  constructor
  · rintro ⟨⟨_, hSignals⟩, _⟩
    exact hSignals
  · intro hSignals
    refine ⟨⟨by omega, hSignals⟩, ?_⟩
    rintro _ _ _ ⟨_, hNow⟩
    refine ⟨by omega, ?_⟩
    intro signal hSignal
    have hPassed := hNow signal hSignal
    omega

/- A window without a signal is a stall. -/
theorem silent_window_stalls :
    progressVerdict 0 (some 5) 10 20 [⟨false, some 3⟩] = .stalled := by
  have hSilent : (10 : Int) + 10 ≤ 20 := by decide
  have hEnded : ∀ owner ∈ [(⟨false, some 3⟩ : Wait)], owner.live = false := by decide
  have hStalls := silent_window_stalls_iff 0 (some 5) (by decide) hEnded (by decide) hSilent
  exact (hStalls.mpr (by simp [signalsOf])).1

/- A signal between the two checks, and one that is still to come, hold work open. -/
theorem future_signals_hold_work_open :
    progressVerdict 0 (some 5) 10 10 [] = .progressing ∧
    progressVerdict 0 none 10 10 [⟨false, some 99⟩] = .progressing := by decide

end VonkForge.Stall
