import VonkForge.Retention.Sweep

/-
  A directory leaves only after a full judged grace.

  The mark of a directory carries the grace from pass to pass. Whoever finds a mark knows the pass
  that made it, and that every pass since then that observed the directory judged it unused, since
  another one would have taken the mark away.

  Main declarations:
    * `Pass.Unused`
    * `mark_inversion`
    * `markedSince_of_mark`
    * `removed_after_judged_grace`
-/

----
-- What a Pass Judges
----

namespace VonkForge.Retention

variable {Name : Type} [DecidableEq Name]

/- A pass judges a directory of the store unused. -/
def Pass.Unused (pass : Pass Name) (store : Store Name) (name : Name) : Prop :=
  ∃ started directory, pass.started = some started ∧ store name = some directory ∧
    pass.judgesUnused started directory name = true

/- A pass observes a directory of the store. -/
def Pass.Observed (pass : Pass Name) (store : Store Name) (name : Name) : Prop :=
  ∃ started directory, pass.started = some started ∧ store name = some directory ∧
    pass.observes started directory name = true

/- The events of a run whose passes meet no failure. -/
def Event.Orderly : Event Name → Prop
  | .pass swept => swept.Orderly
  | .install _ _ => True
  | .uninstall _ => True

variable {name : Name} {pass : Pass Name} {started : List Name} {directory : Directory}

/- What an orderly pass makes of a directory. -/
theorem sweep_eq_visit (hOrderly : pass.Orderly) (hStarted : pass.started = some started)
    {store : Store Name} (hHeld : store name = some directory) :
    sweep pass store name = pass.visit started directory name := by
  unfold sweep
  rw [hOrderly.1, hStarted]
  simp only [Bool.true_eq_false, if_false, hHeld]

theorem sweep_of_missing (pass : Pass Name) {store : Store Name} (hMissing : store name = none) :
    sweep pass store name = none := by
  unfold sweep
  split
  · exact hMissing
  · cases pass.started with
    | none => exact hMissing
    | some => simp only [hMissing]

variable {directory left : Directory}

/- A removal leaves no mark but the one that was there. -/
omit [DecidableEq Name] in
theorem Pass.mark_of_remove
    (hLeft : pass.remove directory name = some left)
    {since : Nat} (hMark : left.mark = some since) : directory.mark = some since := by
  unfold Pass.remove at hLeft
  split at hLeft <;> cases hLeft
  · exact hMark
  · cases hMark
  · exact hMark

/-
  A mark behind a visit was there before, and the directory was not judged used, or it is new and
  the directory was judged unused.
-/
theorem Pass.mark_of_visit (hOrderly : pass.Orderly)
    (hLeft : pass.visit started directory name = some left) {since : Nat}
    (hMark : left.mark = some since) : (directory.mark = some since ∧
        (pass.observes started directory name →
          pass.judgesUnused started directory name)) ∨
      (directory.mark = none ∧ since = pass.now ∧
        pass.judgesUnused started directory name) := by
  rcases hOrderly.2.2 name with ⟨hListed, hMarks, hUnmarks⟩
  unfold Pass.visit at hLeft
  rw [hListed] at hLeft
  simp only [Bool.true_eq_false, if_false] at hLeft
  cases hObserved : pass.observes started directory name with
  | false =>
    rw [if_pos hObserved] at hLeft
    cases hLeft
    exact Or.inl ⟨hMark, fun hTrue => by cases hTrue⟩
  | true =>
    rw [if_neg (by rw [hObserved]; decide)] at hLeft
    cases hUnused : pass.judgesUnused started directory name with
    | true =>
      cases hBefore : directory.mark with
      | none =>
        simp only [hUnused, hBefore, hMarks] at hLeft
        cases hLeft
        cases hMark
        exact Or.inr ⟨rfl, rfl, rfl⟩
      | some =>
        simp only [hUnused, hBefore] at hLeft
        left
        refine ⟨?_, fun _ => rfl⟩
        rw [← hBefore]
        split at hLeft
        · exact Pass.mark_of_remove hLeft hMark
        · cases hLeft
          exact hMark
    | false =>
      cases hBefore : directory.mark with
      | none =>
        simp only [hUnused, hBefore] at hLeft
        cases hLeft
        rw [hBefore] at hMark
        cases hMark
      | some =>
        simp only [hUnused, hBefore, hUnmarks] at hLeft
        cases hLeft
        cases hMark

/- A visit that a directory leaves with. -/
theorem Pass.gone_of_visit
    (hGone : pass.visit started directory name = none) :
    pass.judgesUnused started directory name ∧ ∃ since, directory.mark = some since ∧
    since + grace < pass.now := by
  revert hGone
  fun_cases Pass.visit with
  | case4 _ _ since hMark hUnused hAged =>
    simp only [Pass.aged, Bool.and_eq_true, decide_eq_true_eq] at hAged
    exact fun _ => ⟨hUnused, since, hMark, by omega⟩
  | _ => exact fun hGone => by cases hGone

----
-- Marks along a Run
----

variable {Name : Type} [DecidableEq Name]

abbrev SweepStep (Name : Type) := Machine.Step (Store Name) (Event Name) (Store Name)

/- A step that keeps a directory and does not judge it used. -/
def Sparing (name : Name) (step : SweepStep Name) : Prop :=
  step.before name ≠ none ∧ step.output name ≠ none ∧
    ∀ pass, step.input = .pass pass → pass.Observed step.before name → pass.Unused step.before name

/- A pass that judges a directory unused and marks it. -/
def Marking (name : Name) (time : Nat) (step : SweepStep Name) : Prop :=
  ∃ pass directory left, step.input = .pass pass ∧ pass.now = time ∧ pass.Unused step.before name ∧
    step.before name = some directory ∧ directory.mark = none ∧ step.output name = some left ∧
    left.mark = some time

/- A past in which a mark was made, and spared since then. -/
def MarkedSince (name : Name) (time : Nat) (past : List (SweepStep Name)) : Prop :=
  ∃ (i : Nat) (marking : SweepStep Name), past[i]? = some marking ∧ Marking name time marking ∧
    ∀ (j : Nat) (later : SweepStep Name), i < j → past[j]? = some later → Sparing name later

variable {name : Name} {time : Nat} {step : SweepStep Name}

theorem MarkedSince.append {past : List (SweepStep Name)}
    (hSince : MarkedSince name time past) (hSparing : Sparing name step) :
    MarkedSince name time (past ++ [step]) := by
  rcases hSince with ⟨i, marking, hGet, hMarking, hSpared⟩
  have hBound : i < past.length := (List.getElem?_eq_some_iff.mp hGet).1
  refine ⟨i, marking, ?_, hMarking, ?_⟩
  · rw [List.getElem?_append_left hBound]
    exact hGet
  · intro j later hLt hLater
    by_cases hOld : j < past.length
    · rw [List.getElem?_append_left hOld] at hLater
      exact hSpared j later hLt hLater
    · rw [List.getElem?_append_right (by omega)] at hLater
      rcases List.getElem?_eq_some_iff.mp hLater with ⟨_, hSame⟩
      rw [List.getElem_singleton] at hSame
      rw [← hSame]
      exact hSparing

/- Where a mark behind a step comes from. -/
theorem mark_inversion
    {store : Store Name}
    {event : Event Name}
    (hOrderly : event.Orderly)
    {left : Directory}
    (hLeft : serve store event name = some left)
    (hMark : left.mark = some time) :
    ((∃ directory,
        store name = some directory ∧ directory.mark = some time) ∧
     Sparing name (sweepMachine.step store event)) ∨
    Marking name time (sweepMachine.step store event) := by
  cases event with
  | pass pass =>
    have hOrderly : pass.Orderly := hOrderly
    have hSwept : sweep pass store name = some left := hLeft
    cases hHeld : store name with
    | none =>
      rw [sweep_of_missing pass hHeld] at hSwept
      cases hSwept
    | some directory =>
      rcases Option.isSome_iff_exists.mp hOrderly.2.1 with ⟨started, hStarted⟩
      have hVisit := hSwept
      rw [sweep_eq_visit hOrderly hStarted hHeld] at hVisit
      rcases Pass.mark_of_visit hOrderly hVisit hMark with
        ⟨hBefore, hJudged⟩ | ⟨hBefore, hTime, hUnused⟩
      · left
        refine ⟨⟨directory, rfl, hBefore⟩, ?_, ?_, ?_⟩
        · change store name ≠ none
          rw [hHeld]
          exact Option.some_ne_none _
        · change sweep pass store name ≠ none
          rw [hSwept]
          exact Option.some_ne_none _
        · rintro _ hInput ⟨_, seen, hOther, hSeen, hObserved⟩
          cases hInput
          have hSeen : store name = some seen := hSeen
          rw [hStarted, Option.some.injEq] at hOther
          rw [hHeld, Option.some.injEq] at hSeen
          subst hOther hSeen
          exact ⟨started, directory, hStarted, hHeld, hJudged hObserved⟩
      · right
        exact ⟨pass, directory, left, rfl, hTime.symm,
          ⟨started, directory, hStarted, hHeld, hUnused⟩, hHeld, hBefore, hSwept, hMark⟩
  | install other unreadable =>
    left
    have hInstalled : Function.update store other (some (installed unreadable (store other))) name =
        some left := hLeft
    have hBefore : ∃ directory, store name = some directory ∧ directory.mark = some time := by
      by_cases hSame : name = other
      · subst hSame
        rw [Function.update_self, Option.some.injEq] at hInstalled
        rw [← hInstalled] at hMark
        unfold installed at hMark
        cases hHeld : store name with
        | none =>
          rw [hHeld] at hMark
          cases hMark
        | some directory =>
          rw [hHeld] at hMark
          exact ⟨directory, rfl, hMark⟩
      · rw [Function.update_of_ne hSame] at hInstalled
        exact ⟨left, hInstalled, hMark⟩
    refine ⟨hBefore, ?_, ?_, ?_⟩
    · rcases hBefore with ⟨_, hHeld, _⟩
      change store name ≠ none
      rw [hHeld]
      exact Option.some_ne_none _
    · change Function.update store other _ name ≠ none
      rw [hInstalled]
      exact Option.some_ne_none _
    · intro _ hInput
      cases hInput
  | uninstall other =>
    left
    have hKept : Function.update store other none name = some left := hLeft
    have hOther : name ≠ other := by
      rintro rfl
      rw [Function.update_self] at hKept
      cases hKept
    have hHeld := hKept
    rw [Function.update_of_ne hOther] at hHeld
    refine ⟨⟨left, hHeld, hMark⟩, ?_, ?_, ?_⟩
    · change store name ≠ none
      rw [hHeld]
      exact Option.some_ne_none _
    · change Function.update store other none name ≠ none
      rw [hKept]
      exact Option.some_ne_none _
    · intro _ hInput
      cases hInput

theorem Marking.since (hMarking : Marking name time step)
    (past : List (SweepStep Name)) : MarkedSince name time (past ++ [step]) := by
  refine ⟨past.length, step, by simp, hMarking, ?_⟩
  intro _ _ _ hLater
  have hBound := (List.getElem?_eq_some_iff.mp hLater).1
  rw [List.length_append, List.length_singleton] at hBound
  omega

/- A store in which no directory has a mark. -/
def Unmarked (store : Store Name) : Prop :=
  ∀ name directory, store name = some directory → directory.mark = none

/- Every mark of an orderly run was made in it. -/
theorem markedSince_of_mark
    {start : Store Name}
    (hStart : Unmarked start)
    {inputs : List (Event Name)}
    (hOrderly : ∀ event ∈ inputs, event.Orderly)
    (hHeld : sweepMachine.final start inputs name = some directory)
    (hMark : directory.mark = some time) :
    MarkedSince name time (sweepMachine.trace start inputs) := by
  have hHistory : (∀ step ∈ sweepMachine.trace start inputs, step.input.Orderly) →
      ∀ name directory time, sweepMachine.final start inputs name = some directory →
      directory.mark = some time → MarkedSince name time (sweepMachine.trace start inputs) := by
    apply sweepMachine.history (H := fun past store => (∀ step ∈ past, step.input.Orderly) →
        ∀ name directory time, store name = some directory → directory.mark = some time →
        MarkedSince name time past)
    · intro _ name directory _ hHeld hMark
      rw [hStart name directory hHeld] at hMark
      cases hMark
    · intro past store event ih hAll name _ time hLeft hMark
      have hEvent : event.Orderly := hAll (sweepMachine.step store event) (by simp)
      rcases mark_inversion hEvent hLeft hMark with
        ⟨⟨directory, hHeld, hBefore⟩, hSparing⟩ | hMarking
      · have hPast := ih (fun step hStep => hAll step (List.mem_append_left _ hStep)) name directory
          time hHeld hBefore
        exact hPast.append hSparing
      · exact hMarking.since past
  exact hHistory (fun step hStep => hOrderly _ (sweepMachine.input_mem_of_mem_trace hStep)) name
    directory time hHeld hMark

/-
  A directory that leaves in a pass is judged unused by it, and an earlier pass, by more than the
  grace, judged it unused and left its mark. In between the directory stayed, and every pass that
  observed it judged it unused.
-/
theorem removed_after_judged_grace
    {start : Store Name}
    (hStart : Unmarked start)
    {inputs : List (Event Name)}
    (hOrderly : ∀ event ∈ inputs, event.Orderly)
    {k : Nat}
    {step : SweepStep Name}
    (hStep : (sweepMachine.trace start inputs)[k]? = some step)
    {pass : Pass Name}
    (hPass : step.input = .pass pass)
    (name : Name)
    (hHeld : step.before name ≠ none)
    (hGone : step.output name = none) :
    pass.Unused step.before name ∧
    ∃ (i : Nat) (marking : SweepStep Name) (earlier : Pass Name)
      (left : Directory),
      i < k ∧
      (sweepMachine.trace start inputs)[i]? = some marking ∧
      marking.input = .pass earlier ∧
      earlier.now + grace < pass.now ∧
      earlier.Unused marking.before name ∧
      marking.output name = some left ∧
      left.mark = some earlier.now ∧
      ∀ (j : Nat) (later : SweepStep Name),
        i < j →
        j < k →
        (sweepMachine.trace start inputs)[j]? = some later →
        later.before name ≠ none ∧
        later.output name ≠ none ∧
        ∀ between,
          later.input = .pass between →
          between.Observed later.before name →
          between.Unused later.before name := by
  rcases sweepMachine.exists_of_getElem?_trace hStep with ⟨event, hEvent, rfl⟩
  have hInput : event = .pass pass := hPass
  subst hInput
  have hPassOrderly : pass.Orderly := hOrderly _ (List.mem_of_getElem? hEvent)
  rcases Option.ne_none_iff_exists'.mp hHeld with ⟨directory, hDirectory⟩
  rcases Option.isSome_iff_exists.mp hPassOrderly.2.1 with ⟨started, hStarted⟩
  have hVisit : pass.visit started directory name = none := by
    rw [← sweep_eq_visit hPassOrderly hStarted hDirectory]
    exact hGone
  rcases Pass.gone_of_visit hVisit with ⟨hUnused, since, hMark, hAged⟩
  have hSince := markedSince_of_mark hStart
    (fun event hMem => hOrderly event (List.mem_of_mem_take hMem)) hDirectory hMark
  rw [← sweepMachine.take_trace] at hSince
  rcases hSince with ⟨i, marking, hGet, hMarking, hSpared⟩
  rw [List.getElem?_take] at hGet
  split at hGet
  · rename_i hLt
    rcases hMarking with ⟨earlier, _, left, hInput, hTime, hJudged, _, _, hLeft, hLeftMark⟩
    refine ⟨⟨started, directory, hStarted, hDirectory,
      hUnused⟩, i, marking, earlier, left, hLt, hGet, hInput, ?_, hJudged, hLeft, ?_, ?_⟩
    · rw [hTime]
      exact hAged
    · rw [hTime]
      exact hLeftMark
    · intro j later hAfter hBefore hLater
      apply hSpared j later hAfter
      rw [List.getElem?_take, if_pos hBefore]
      exact hLater
  · cases hGet

variable (now : Nat) (observed untracked : List Nat)

/- A pass that tells of one installation, and meets no fault. -/
def tellingPass : Pass Nat where
  now := now
  rootOwned := true
  started := some []
  untracked := some ⟨untracked, observed⟩
  listed := fun _ => true
  marks := fun _ => some now
  unmarks := fun _ => true
  removes := fun _ => .gone

theorem tellingPass_orderly : (tellingPass now observed untracked).Orderly :=
  ⟨rfl, rfl, fun _ => ⟨rfl, rfl, rfl⟩⟩

/- An installation, its mark, another page, and its end. -/
def forgotten : List (Event Nat) := [.install 7 false, .pass (tellingPass 5 [7] [7]),
    .pass (tellingPass 9 [8] []), .pass (tellingPass (6 + grace) [7] [7])]

/- What a pass had marked unused goes once its grace is over. -/
theorem forgotten_leaves :
    (∃ step,
       (sweepMachine.trace (fun _ => none) forgotten)[3]? = some step ∧
       step.before 7 ≠ none ∧
       step.output 7 = none) ∧
    ∃ (i : Nat) (marking : SweepStep Nat) (earlier : Pass Nat),
      i < 3 ∧
      (sweepMachine.trace (fun _ => none) forgotten)[i]? =
        some marking ∧
      marking.input = .pass earlier ∧
      earlier.now + grace < 6 + grace ∧
      earlier.Unused marking.before 7 := by
  have hHeld : sweepMachine.final (fun _ => none) (forgotten.take 3) 7 ≠ none := by decide +kernel
  have hGone : sweep (tellingPass (6 + grace) [7] [7])
    (sweepMachine.final (fun _ => none) (forgotten.take 3)) 7 = none := by decide +kernel
  have hOrderly : ∀ event ∈ forgotten, event.Orderly := by
    intro _ hEvent
    simp only [forgotten, List.mem_cons, List.not_mem_nil, or_false] at hEvent
    rcases hEvent with rfl | rfl | rfl | rfl
    · exact True.intro
    all_goals exact tellingPass_orderly _ _ _
  have hInput : forgotten[3]? = some (.pass (tellingPass (6 + grace) [7] [7])) := rfl
  have hStep := sweepMachine.getElem?_trace_of (s := fun _ => none) hInput
  rcases removed_after_judged_grace
    (fun _ _ hNone => by cases hNone) hOrderly hStep rfl 7
    hHeld hGone with
    ⟨_, i, marking, earlier, _, hLt, hMarking, hInput, hAged, hUnused, _⟩
  exact ⟨⟨_, hStep, hHeld, hGone⟩, i, marking, earlier, hLt, hMarking, hInput, hAged, hUnused⟩

end VonkForge.Retention
