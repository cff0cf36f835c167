import VonkForge.Lifecycle.Runs

/-
  Every row the core observes was looked at.

  A store that tells an observation from a retry by the observation count depends on this: the count
  is above zero on every row the core leaves observing, and on every row it asks an answer about.

  Main declarations:
    * `Counted`
    * `CountedDecision`
    * `taken_counted`
-/

----
-- Observed Rows are counted
----

namespace VonkForge.LifecycleCore

/- A row that is observed was looked at. -/
structure Counted (row : Lifecycle) : Prop where
  looked : row.state = .observing → 0 < row.observeCount
  live : row.state ≠ .superseded

/- A decision that asks for an answer has counted it. -/
structure CountedDecision (decision : Decision) : Prop where
  row : Counted decision.row
  asked : ∀ command ∈ decision.commands, command = .observe ∨ command = .stop →
    0 < decision.row.observeCount

variable {adapter : KindAdapter} {row : Lifecycle} {now : Int} {event : Event}

/- The states that need no look and are not superseded. -/
def unwatched : State → Bool
  | .observing => false
  | .superseded => false
  | _ => true

theorem Counted.of_state {state : State} (hState : row.state = state)
    (hUnwatched : unwatched state) : Counted row := by
  constructor
  · intro hObserving
    simp [← hState, hObserving, unwatched] at hUnwatched
  · intro hSuperseded
    simp [← hState, hSuperseded, unwatched] at hUnwatched

/- A decision without commands asks for nothing. -/
theorem CountedDecision.silent (hRow : Counted row) : CountedDecision { row := row } :=
  ⟨hRow, fun _ hMem => absurd hMem List.not_mem_nil⟩

variable {decision : Decision}

/- Residue and execution ask for no answer. -/
theorem CountedDecision.quiet (hRow : Counted decision.row)
    (hObserve : Command.observe ∉ decision.commands) (hStop : Command.stop ∉ decision.commands) :
    CountedDecision decision := by
  refine ⟨hRow, fun command hMem hAsks => ?_⟩
  rcases hAsks with rfl | rfl
  · exact absurd hMem hObserve
  · exact absurd hMem hStop

/- A counted look covers whatever the decision asks. -/
theorem CountedDecision.look (hState : decision.row.state ≠ .superseded)
    (hCount : 0 < decision.row.observeCount) : CountedDecision decision :=
  ⟨⟨fun _ => hCount, hState⟩, fun _ _ _ => hCount⟩

theorem countLook_pos (row : Lifecycle) : 0 < countLook row := by
  unfold countLook observeBudget
  split
  · omega
  · omega

theorem lost_counted (reason : Option String) (commands : List Command) (late : Bool) :
    CountedDecision (lost row now reason commands late) := by
  unfold lost
  split
  · exact CountedDecision.look (by simp) (Nat.add_pos_left (by decide) _)
  · exact CountedDecision.look (by simp) (Nat.add_pos_left (by decide) _)

/- A cancel counts its stop, or was counted before. -/
theorem advanceCancel_counted (effect : Option Effect) (reason : Option String)
    {issueStop : Bool} (hCount : issueStop = false → 0 < row.observeCount) :
    CountedDecision (advanceCancel row now effect reason issueStop) := by
  unfold advanceCancel
  split
  · exact CountedDecision.silent (Counted.of_state rfl rfl)
  · split
    · exact CountedDecision.quiet (Counted.of_state rfl rfl) (by simp) (by simp)
    · refine CountedDecision.look (by simp) ?_
      cases issueStop with
      | true => exact Nat.succ_pos _
      | false => exact hCount rfl

theorem endState_unwatched {report : Report} {state : State}
    (hState : report.endState = some state) : unwatched state := by
  rcases Report.endState_cases hState with ⟨_, rfl⟩ | ⟨_, rfl⟩ | ⟨_, _, rfl⟩
  · rfl
  · rfl
  · rfl

/- What an event must bring: an answer was counted. -/
def Answered (row : Lifecycle) (event : Event) : Prop :=
  isAnswer event = true → 0 < row.observeCount

theorem move_counted (hRow : Counted row) (hAnswered : Answered row event)
    (hMove : Move adapter row now event decision) : CountedDecision decision := by
  cases hMove with
  | keep => exact CountedDecision.silent hRow
  | submit hState | renew _ _ hState | watch hState =>
    exact CountedDecision.silent (Counted.of_state hState rfl)
  | claim | retry | establish | cease | resume | retire =>
    exact CountedDecision.silent (Counted.of_state rfl rfl)
  | conclude _ _ hState =>
    exact CountedDecision.silent (Counted.of_state rfl (endState_unwatched hState))
  | observe => exact CountedDecision.look (by simp [observe]) (countLook_pos row)
  | lostTick | lostInTime | lostLate => exact lost_counted _ _ _
  | await | endLate => exact CountedDecision.look (by simp) (hAnswered rfl)
  | execute => exact CountedDecision.quiet (Counted.of_state rfl rfl) (by simp) (by simp)
  | look hState =>
    refine CountedDecision.look ?_ (Nat.succ_pos _)
    simp [hState]
  | request => exact advanceCancel_counted _ _ (by simp)
  | wind event =>
    apply advanceCancel_counted
    intro hSilent
    cases event with
    | observed => exact hAnswered rfl
    | reported report =>
      -- A report stops again unless the row is observed.
      apply hRow.looked
      simpa [issuesStop] using hSilent
    | _ => cases hSilent

/- Every decision that asks for an answer has counted it. -/
theorem taken_counted
    (hRow : Counted row)
    (hAnswered : Answered row event)
    (hTaken : Taken adapter row now event decision) :
    CountedDecision decision := by
  cases hTaken with
  | ignored => exact CountedDecision.silent hRow
  | expired _ _ _ _ hExpiry =>
    cases hExpiry with
    | lost => exact lost_counted _ _ _
    | finish effect =>
      refine CountedDecision.look ?_ (hAnswered rfl)
      by_cases hEstablished : effect = .established
      · simp [hEstablished]
      · simp [hEstablished]
    | look => exact CountedDecision.look (by simp) (countLook_pos row)
  | moved _ _ _ _ hMove => exact move_counted hRow hAnswered hMove

/- Only a claim changes the attempt of a row. -/
theorem kept_of_unclaimed
    (hEvent : ∀ attempt fence leaseDeadline, event ≠ .claimed attempt fence leaseDeadline)
    (hTaken : Taken adapter row now event decision) :
    decision.row.attempt = row.attempt ∧ decision.row.kind = row.kind := by
  cases taken_keeps hTaken with
  | kept hKept => exact ⟨hKept.attempt, hKept.kind⟩
  | claim _ _ _ hClaim => exact absurd hClaim (hEvent _ _ _)
  | request _ _ hCancel _ _ hKept =>
    rw [hKept.attempt, hKept.kind]
    simp [withCancelFlag, hCancel]

end VonkForge.LifecycleCore
