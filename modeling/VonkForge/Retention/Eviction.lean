import VonkForge.Retention.Sweep

/-
  Model objects that leave when space is needed (`store_retention.rs`).

  `make_room` and the low-space relief of a sweep go through the objects that no installation owns,
  from the least recently changed on, and look at the disk before each of them.

  Main declarations:
    * `unusedModelObjects`
    * `unowned_of_unused`
    * `mem_unused_iff`
    * `removeWhile_guarded`
    * `evicted_objects_are_unused`
-/

----
-- The Store
----

namespace VonkForge.Eviction

/- `read_persisted_plan`. -/
inductive PlanRead (ν : Type) where
  | artifacts (names : List ν)
  | missing
  | denied
  | unreadable

/- An entry of the directory of installations, with the objects that it links. -/
structure Installation (ν : Type) where
  listed : Bool
  canonical : Bool
  plan : PlanRead ν
  links : List ν

structure Entry (ν : Type) where
  name : ν
  -- `model_object`.
  isObject : Bool
  changed : Nat
  bytes : Nat
  -- Links that are not of an installation.
  otherLinks : Nat

structure Store (ν : Type) where
  -- The entries of the agent, as `list_owned` finds them.
  objects : List (Entry ν)
  -- Whether the directory of installations can be read.
  readable : Bool
  installations : Option (List (Installation ν))

variable {ν : Type}

def Store.installed (store : Store ν) : List (Installation ν) := store.installations.getD []

/- The loop of `installation_objects`. -/
def namedBy : List (Installation ν) → Option (List ν)
  | [] => some []
  | entry :: entries =>
    if entry.listed = false then none
    else if entry.canonical = false then namedBy entries
    else match entry.plan with
      | .artifacts names => (namedBy entries).map (names ++ ·)
      | .missing | .unreadable => namedBy entries
      | .denied => none

def installationObjects (store : Store ν) : Option (List ν) :=
  match store.installations with
  | none => some []
  | some entries => if store.readable then namedBy entries else none

variable [DecidableEq ν]

def Store.nlink (store : Store ν) (entry : Entry ν) : Nat :=
  1 + entry.otherLinks + (store.installed.flatMap Installation.links).count entry.name

def unusedModelObjects (store : Store ν) (keep : List ν) : Option (List (Entry ν)) :=
  (installationObjects store).map fun named =>
    (store.objects.filter fun entry => entry.isObject && store.nlink entry == 1 &&
      !named.contains entry.name && !keep.contains entry.name).insertionSort
    fun first second => first.changed ≤ second.changed

----
-- Removals
----

/- What the calls of a loop meet: disk readings, the deadline and removals. -/
structure World where
  disk : Nat → Option (Nat × Nat)
  late : Nat → Bool
  removes : Nat → Bool

inductive Event (ν : Type) where
  | read (reading : Option (Nat × Nat))
  | attempt (entry : Entry ν) (removed : Bool)

/- `is_none_or(|free| free >= target)`. -/
def enough (target : Nat) (reading : Option (Nat × Nat)) : Bool :=
  reading.all fun usage => decide (target ≤ usage.1)

/- The loop of `relieve`; a removal past the deadline only sets `pending`. -/
def removeWhile (world : World) (target : Nat) : Nat → Bool → List (Entry ν) → List (Event ν)
  | _, _, [] => []
  | k, pending, entry :: entries =>
    .read (world.disk k) ::
      if enough target (world.disk k) || pending then []
      else if world.late k then removeWhile world target (k + 1) true entries
      else .attempt entry (world.removes k) :: removeWhile world target (k + 1) pending entries

/- `make_room` has no deadline. -/
def makeRoom (store : Store ν) (world : World) (owned : Bool) (required : Nat)
    (keep protectedObjects : List ν) : List (Event ν) :=
  .read (world.disk 0) ::
    if enough required (world.disk 0) || !owned then []
    else removeWhile { world with late := fun _ => false } required 1 false
      ((unusedModelObjects store (keep ++ protectedObjects)).getD [])

def lowFreePercent : Nat := 10
def reservePercent : Nat := 2
def reserveFloorBytes : Nat := 5 * 1024 * 1024 * 1024

def line (total : Nat) : Nat := total / 100 * lowFreePercent

def reliefTarget (required : Nat) : Option (Nat × Nat) → Nat
  | none => required
  | some (free, total) =>
    if free < line total then
      max required (line total + max reserveFloorBytes (total / 100 * reservePercent))
    else required

def relieve (world : World) (pending : Bool) (required : Nat) (objects : List (Entry ν)) :
    List (Event ν) :=
  .read (world.disk 0) ::
    if (world.disk 0).all fun usage => decide (max (line usage.2) required ≤ usage.1) then []
    else removeWhile world (reliefTarget required (world.disk 0)) 1 pending objects

/- Removals without a look at the disk. -/
def removeAll (world : World) : Nat → List (Entry ν) → List (Event ν)
  | _, [] => []
  | k, entry :: entries =>
    if world.late k then removeAll world (k + 1) entries
    else .attempt entry (world.removes k) :: removeAll world (k + 1) entries

def attempts (log : List (Event ν)) : List (Entry ν) := log.filterMap fun
    | .read _ => none
    | .attempt entry _ => some entry

/- The store without what was removed. -/
def Store.after (store : Store ν) (log : List (Event ν)) : Store ν :=
  { store with objects := store.objects.filter fun entry => !log.any fun
      | .read _ => false
      | .attempt other removed => other.name == entry.name && removed }

def pastGrace (now : Nat) (entry : Entry ν) : Bool := entry.changed + Retention.grace < now

structure Sweep (ν : Type) where
  requested : List (Event ν)
  aged : List (Event ν)
  relieved : List (Event ν)

/- The part of `sweep_with` that removes model objects. -/
def sweepWith (store : Store ν) (now : Nat) (protectedObjects : List ν) (requiredFreeBytes : Nat)
    (requested : List ν) (pending : Bool) (requests grace relief : World) : Sweep ν :=
  let selected := ((unusedModelObjects store protectedObjects).getD []).filter fun entry =>
    requested.contains entry.name
  let removed := removeAll requests 0 selected
  let unused := (unusedModelObjects (store.after removed) protectedObjects).getD []
  let aged := unused.filter (pastGrace now)
  let late := (List.range selected.length).any requests.late ||
    (List.range aged.length).any grace.late
  ⟨removed, removeAll grace 0 aged,
    relieve relief (pending || late) requiredFreeBytes (unused.filter (!pastGrace now ·))⟩

----
-- Ownership
----

/- No installation links the object or names it in a plan that can be read, and it is not kept. -/
structure Unowned (store : Store ν) (keep : List ν) (entry : Entry ν) : Prop where
  unlinked : ∀ installation ∈ store.installed, entry.name ∉ installation.links
  unnamed : ∀ installation ∈ store.installed, installation.canonical = true →
    ∀ names, installation.plan = .artifacts names → entry.name ∉ names
  unkept : entry.name ∉ keep

omit [DecidableEq ν] in
theorem subset_namedBy {entries : List (Installation ν)} {named : List ν}
    (hNamed : namedBy entries = some named) {installation : Installation ν}
    (hMem : installation ∈ entries) (hCanonical : installation.canonical) {names : List ν}
    (hPlan : installation.plan = .artifacts names) : names ⊆ named := by
  fun_induction namedBy entries generalizing named with
  | case1 => cases hMem
  | case3 entry entries _ hOther ih =>
    rcases List.mem_cons.mp hMem with rfl | hLater
    · cases hCanonical.symm.trans hOther
    · exact ih hNamed hLater
  | case4 entry entries _ _ artifacts hArtifacts ih =>
    rcases Option.map_eq_some_iff.mp hNamed with ⟨rest, hRest, rfl⟩
    rcases List.mem_cons.mp hMem with rfl | hLater
    · obtain rfl := PlanRead.artifacts.inj (hPlan.symm.trans hArtifacts)
      exact List.subset_append_left _ _
    · exact List.Subset.trans (ih hRest hLater) (List.subset_append_right _ _)
  | case5 entry entries _ _ hOther ih | case6 entry entries _ _ hOther ih =>
    rcases List.mem_cons.mp hMem with rfl | hLater
    · cases hPlan.symm.trans hOther
    · exact ih hNamed hLater
  | _ => cases hNamed

omit [DecidableEq ν] in
/- A name that was collected is one of a plan. -/
theorem exists_of_mem_namedBy {entries : List (Installation ν)} {named : List ν}
    (hNamed : namedBy entries = some named) {name : ν} (hName : name ∈ named) :
    ∃ installation ∈ entries, installation.canonical = true ∧
      ∃ names, installation.plan = .artifacts names ∧ name ∈ names := by
  fun_induction namedBy entries generalizing named with
  | case1 =>
    cases hNamed
    cases hName
  | case4 entry entries _ hCanonical artifacts hArtifacts ih =>
    rcases Option.map_eq_some_iff.mp hNamed with ⟨rest, hRest, rfl⟩
    rcases List.mem_append.mp hName with hOwn | hLater
    · exact ⟨entry, List.mem_cons_self, by simpa using hCanonical, artifacts, hArtifacts, hOwn⟩
    · rcases ih hRest hLater with ⟨installation, hMem, hFound⟩
      exact ⟨installation, List.mem_cons_of_mem _ hMem, hFound⟩
  | case3 entry entries _ _ ih | case5 entry entries _ _ _ ih | case6 entry entries _ _ _ ih =>
    rcases ih hNamed hName with ⟨installation, hMem, hFound⟩
    exact ⟨installation, List.mem_cons_of_mem _ hMem, hFound⟩
  | _ => cases hNamed

variable {store : Store ν} {keep : List ν} {entry : Entry ν}

/- What is listed as unused is owned by nobody. -/
theorem unowned_of_unused
    (hMem : entry ∈ (unusedModelObjects store keep).getD []) :
    Unowned store keep entry := by
  cases hUnused : unusedModelObjects store keep with
  | none =>
    rw [hUnused] at hMem
    cases hMem
  | some unused =>
    rcases Option.map_eq_some_iff.mp hUnused with ⟨named, hNamed, rfl⟩
    simp only [hUnused, Option.getD_some, List.mem_insertionSort, List.mem_filter, Bool.and_eq_true,
        beq_iff_eq, Bool.not_eq_true', List.contains_eq_mem, decide_eq_false_iff_not] at hMem
    obtain ⟨_, ⟨⟨_, hLinks⟩, hName⟩, hKeep⟩ := hMem
    refine ⟨?_, ?_, hKeep⟩
    · intro installation hInstalled hLink
      have hCount : (store.installed.flatMap Installation.links).count entry.name = 0 := by
        unfold Store.nlink at hLinks
        omega
      exact List.count_eq_zero.mp hCount (List.mem_flatMap.mpr ⟨_, hInstalled, hLink⟩)
    · intro installation hInstalled hCanonical names hPlan hOwn
      unfold installationObjects at hNamed
      unfold Store.installed at hInstalled
      cases hEntries : store.installations with
      | none =>
        rw [hEntries] at hInstalled
        cases hInstalled
      | some entries =>
        simp only [hEntries, Option.getD_some] at hInstalled hNamed
        split at hNamed
        · exact hName (subset_namedBy hNamed hInstalled hCanonical hPlan hOwn)
        · cases hNamed

/- Once the plans could be read, no object that is free to leave is left out. -/
theorem mem_unused_iff (hKnown : installationObjects store ≠ none) :
    entry ∈ (unusedModelObjects store keep).getD [] ↔
      entry ∈ store.objects ∧
      entry.isObject = true ∧
      store.nlink entry = 1 ∧
      Unowned store keep entry := by
  rcases Option.ne_none_iff_exists'.mp hKnown with ⟨named, hNamed⟩
  have hUnused : entry ∈ (unusedModelObjects store keep).getD [] ↔
      entry ∈ store.objects ∧ ((entry.isObject = true ∧ store.nlink entry = 1) ∧
        entry.name ∉ named) ∧ entry.name ∉ keep := by
    simp [unusedModelObjects, hNamed]
  constructor
  · intro hMem
    have hParts := hUnused.mp hMem
    exact ⟨hParts.1, hParts.2.1.1.1, hParts.2.1.1.2, unowned_of_unused hMem⟩
  · rintro ⟨hMem, hObject, hLinks, hUnowned⟩
    refine hUnused.mpr ⟨hMem, ⟨⟨hObject, hLinks⟩, fun hName => ?_⟩, hUnowned.unkept⟩
    unfold installationObjects at hNamed
    have hPlans := hUnowned.unnamed
    unfold Store.installed at hPlans
    cases hEntries : store.installations with
    | none =>
      rw [hEntries] at hNamed
      cases hNamed
      cases hName
    | some entries =>
      simp only [hEntries, Option.getD_some] at hNamed hPlans
      split at hNamed
      · rcases exists_of_mem_namedBy hNamed hName with
          ⟨installation, hInstalled, hCanonical, names, hPlan, hOwn⟩
        exact hPlans installation hInstalled hCanonical names hPlan hOwn
      · cases hNamed

theorem unused_of_unknown (hUnknown : installationObjects store = none) (keep : List ν) :
    (unusedModelObjects store keep).getD [] = [] := by
  rw [unusedModelObjects, hUnknown]
  rfl

theorem pairwise_unused (store : Store ν) (keep : List ν) :
    ((unusedModelObjects store keep).getD []).Pairwise fun first second =>
      first.changed ≤ second.changed := by
  have hTotal : Std.Total fun first second : Entry ν => first.changed ≤ second.changed :=
    ⟨fun first second => Nat.le_total _ _⟩
  have hTrans : IsTrans (Entry ν) fun first second => first.changed ≤ second.changed :=
    ⟨fun _ _ _ => Nat.le_trans⟩
  unfold unusedModelObjects
  cases installationObjects store with
  | none => exact List.Pairwise.nil
  | some => exact List.pairwise_insertionSort _ _

omit [DecidableEq ν] in
/- Of objects in this order, those past the grace come first. -/
theorem split_pastGrace (now : Nat) {objects : List (Entry ν)}
    (hOrdered : objects.Pairwise fun first second => first.changed ≤ second.changed) :
    objects = objects.filter (pastGrace now) ++ objects.filter (!pastGrace now ·) := by
  induction hOrdered with
  | nil => rfl
  | @cons entry objects hFirst _ ih =>
    cases hPast : pastGrace now entry with
    | true => simpa [List.filter_cons, hPast] using ih
    | false =>
      have hLater : ∀ other ∈ objects, pastGrace now other = false := by
        intro other hOther
        have hLe := hFirst other hOther
        simp only [pastGrace, decide_eq_false_iff_not] at hPast ⊢
        omega
      have hNone : objects.filter (pastGrace now) = [] := by simpa using hLater
      rw [hNone, List.nil_append] at ih
      simpa [List.filter_cons, hPast, hNone] using ih

----
-- Loops
----

/- Each attempt follows a reading below the target. -/
def Guarded (target : Nat) (log : List (Event ν)) : Prop :=
  ∀ k entry removed, log[k]? = some (.attempt entry removed) → ∃ j free total, k = j + 1 ∧
    log[j]? = some (.read (some (free, total))) ∧ free < target

variable {target : Nat} {world : World} {log : List (Event ν)}

omit [DecidableEq ν] in
theorem Guarded.read (hLog : Guarded target log) (reading : Option (Nat × Nat)) :
    Guarded target (.read reading :: log) := by
  intro k entry removed hAttempt
  cases k with
  | zero => cases hAttempt
  | succ k =>
    rcases hLog k entry removed hAttempt with ⟨j, free, total, rfl, hRead, hLess⟩
    exact ⟨j + 1, free, total, rfl, hRead, hLess⟩

omit [DecidableEq ν] in
theorem Guarded.attempt (hLog : Guarded target log) {reading : Option (Nat × Nat)}
    (hBelow : enough target reading = false) (entry : Entry ν) (removed : Bool) :
    Guarded target (.read reading :: .attempt entry removed :: log) := by
  intro k other gone hAttempt
  cases k with
  | zero => cases hAttempt
  | succ k =>
    cases k with
    | zero =>
      cases reading with
      | none => cases hBelow
      | some usage =>
        simp only [enough, Option.all_some, decide_eq_false_iff_not, not_le] at hBelow
        exact ⟨0, usage.1, usage.2, rfl, rfl, hBelow⟩
    | succ k =>
      rcases hLog k other gone hAttempt with ⟨j, free, total, rfl, hRead, hLess⟩
      exact ⟨j + 2, free, total, rfl, hRead, hLess⟩

omit [DecidableEq ν] in
theorem guarded_nil : Guarded target ([] : List (Event ν)) := by
  intro k entry removed hAttempt
  cases hAttempt

/- Every removal follows a reading below the target. -/
omit [DecidableEq ν] in
theorem removeWhile_guarded
    (k : Nat)
    (pending : Bool)
    (entries : List (Entry ν)) :
    Guarded target (removeWhile world target k pending entries) := by
  induction entries generalizing k pending with
  | nil => exact guarded_nil
  | cons entry entries ih =>
    rw [removeWhile]
    split
    · exact guarded_nil.read _
    · split
      · exact (ih _ _).read _
      · exact (ih _ _).attempt (by simp_all) _ _

/- What is tried is a first part of the objects: past the deadline nothing more is. -/
omit [DecidableEq ν] in
theorem attempts_removeWhile (k : Nat) (pending : Bool) (entries : List (Entry ν)) :
    attempts (removeWhile world target k pending entries) <+: entries := by
  have hPending (k : Nat) (entries : List (Entry ν)) :
      attempts (removeWhile world target k true entries) = [] := by
    cases entries with
    | nil => rfl
    | cons => simp [removeWhile, attempts]
  induction entries generalizing k pending with
  | nil => exact List.nil_prefix
  | cons entry entries ih =>
    rw [removeWhile]
    change attempts (ite _ _ _) <+: _
    split
    · exact List.nil_prefix
    · split
      · rw [hPending]
        exact List.nil_prefix
      · exact List.cons_prefix_cons.mpr ⟨rfl, ih _ _⟩

omit [DecidableEq ν] in
theorem attempts_removeAll (k : Nat) (entries : List (Entry ν)) :
    attempts (removeAll world k entries) ⊆ entries := by
  fun_induction removeAll world k entries with
  | case1 => exact List.Subset.refl _
  | case2 _ _ _ _ ih => exact List.Subset.trans ih (List.subset_cons_self _ _)
  | case3 _ _ _ _ ih => exact List.cons_subset_cons _ ih

omit [DecidableEq ν] in
theorem attempts_append (first second : List (Event ν)) :
    attempts (first ++ second) = attempts first ++ attempts second :=
  List.filterMap_append

/-
  What leaves, through `make_room` or a sweep, is unowned and leaves only below the target, from the
  least recently changed on: the objects are tried in their order, and they are all the model
  objects with one link that no installation owns and that are not kept.
-/
theorem evicted_objects_are_unused
    (store : Store ν) :
    (∀ world owned required keep protectedObjects,
      let log := makeRoom store world owned required keep protectedObjects
      let kept := keep ++ protectedObjects
      (∀ entry ∈ attempts log, Unowned store kept entry) ∧
      attempts log <+: (unusedModelObjects store kept).getD [] ∧ Guarded required log ∧
      (installationObjects store = none → attempts log = [])) ∧
    (∀ now protectedObjects requiredFreeBytes requested pending requests grace relief,
      let sweep := sweepWith store now protectedObjects requiredFreeBytes requested pending requests
        grace relief
      let unused := (unusedModelObjects (store.after sweep.requested) protectedObjects).getD []
      (∀ entry ∈ attempts (sweep.requested ++ sweep.aged ++ sweep.relieved),
        Unowned store protectedObjects entry) ∧
      unused = unused.filter (pastGrace now) ++ unused.filter (!pastGrace now ·) ∧
      attempts sweep.relieved <+: unused.filter (!pastGrace now ·) ∧
      Guarded (reliefTarget requiredFreeBytes (relief.disk 0)) sweep.relieved ∧
      (installationObjects store = none →
        attempts (sweep.requested ++ sweep.aged ++ sweep.relieved) = [])) ∧
    ∀ keep,
      (((unusedModelObjects store keep).getD []).Pairwise fun first second =>
        first.changed ≤ second.changed) ∧
      (installationObjects store ≠ none →
        ∀ entry, entry ∈ (unusedModelObjects store keep).getD [] ↔
          entry ∈ store.objects ∧ entry.isObject = true ∧ store.nlink entry = 1 ∧
            Unowned store keep entry) := by
  refine ⟨?_, ?_, fun keep =>
    ⟨pairwise_unused store keep, fun hKnown entry => mem_unused_iff hKnown⟩⟩
  · intro world owned required keep protectedObjects log kept
    have hPrefix : attempts log <+: (unusedModelObjects store kept).getD [] := by
      change attempts (ite _ _ _) <+: _
      split
      · exact List.nil_prefix
      · exact attempts_removeWhile _ _ _
    refine ⟨fun entry hMem => unowned_of_unused (hPrefix.subset hMem), hPrefix, ?_, ?_⟩
    · apply Guarded.read
      split
      · exact guarded_nil
      · exact removeWhile_guarded _ _ _
    · intro hUnknown
      rw [unused_of_unknown hUnknown] at hPrefix
      exact List.prefix_nil.mp hPrefix
  · intro now keep requiredFreeBytes requested pending requests grace relief sweep unused
    have hRequested : attempts sweep.requested ⊆ (unusedModelObjects store keep).getD [] :=
      List.Subset.trans (attempts_removeAll _ _) List.filter_sublist.subset
    have hAged : attempts sweep.aged ⊆ unused :=
      List.Subset.trans (attempts_removeAll _ _) List.filter_sublist.subset
    have hRelieved : attempts sweep.relieved <+: unused.filter (!pastGrace now ·) := by
      change attempts (ite _ _ _) <+: _
      split
      · exact List.nil_prefix
      · exact attempts_removeWhile _ _ _
    have hYounger : attempts sweep.relieved ⊆ unused :=
      List.Subset.trans hRelieved.subset List.filter_sublist.subset
    refine ⟨?_, split_pastGrace now (pairwise_unused _ _), hRelieved, ?_, ?_⟩
    · intro entry hMem
      have hUnowned (hLater : entry ∈ unused) : Unowned store keep entry :=
        ⟨(unowned_of_unused hLater).unlinked, (unowned_of_unused hLater).unnamed,
          (unowned_of_unused hLater).unkept⟩
      simp only [attempts_append, List.mem_append] at hMem
      rcases hMem with (hMem | hMem) | hMem
      · exact unowned_of_unused (hRequested hMem)
      · exact hUnowned (hAged hMem)
      · exact hUnowned (hYounger hMem)
    · apply Guarded.read
      split
      · exact guarded_nil
      · exact removeWhile_guarded _ _ _
    · intro hUnknown
      have hAfter : installationObjects (store.after sweep.requested) = none := hUnknown
      have hNone : unused = [] := unused_of_unknown hAfter keep
      rw [unused_of_unknown hUnknown] at hRequested
      rw [hNone] at hAged hYounger
      simp only [attempts_append, List.subset_nil.mp hRequested, List.subset_nil.mp hAged,
        List.subset_nil.mp hYounger, List.append_nil]

end VonkForge.Eviction
