import VonkForge.Fleet.Outbox

/-
  Events that a transaction stages (`fleet_events.py`).

  An event is staged with the savepoint that is open, and numbered when the outermost transaction
  commits. The hooks of the session drop the events of a savepoint that is rolled back, also those
  of savepoints inside it that were released.

  Main declarations:
    * `Session`
    * `Work.kept`
    * `staged_run`
    * `committed_work_is_numbered`
-/

----
-- Sessions
----

namespace VonkForge.Staging

open Fleet

variable {Obj : Type}

/- A savepoint is a list: its own number, then those of the savepoints it is in. -/
structure StagedEvent (Obj : Type) where
  savepoint : List Nat
  row : Option (EventRow Obj)

structure Session (Obj : Type) where
  outbox : Outbox Obj
  -- The savepoints begun so far, and those that are open.
  begun : Nat
  nested : List Nat
  staged : List (StagedEvent Obj)

/- `_within`. -/
def within (boundary : Nat) : List Nat → Bool
  | [] => false
  | savepoint :: parents => savepoint == boundary || within boundary parents

namespace Session

variable (session : Session Obj)

/- `_stage`. -/
def stage (row : Option (EventRow Obj)) : Session Obj :=
  { session with staged := session.staged ++ [⟨session.nested, row⟩] }

/- `_number_staged_events`; what the flush stages comes last. -/
def numberStagedEvents (flushed : List (Option (EventRow Obj))) : Session Obj :=
  if session.nested ≠ [] then session
  else
    let flushed := flushed.foldl stage session
    { flushed with
      outbox := flushed.outbox.numberStagedEvents (flushed.staged.map StagedEvent.row)
      staged := [] }

/- `_discard_rolled_back_events`, for a savepoint. -/
def discardRolledBackEvents (previous : Nat) : Session Obj :=
  { session with staged := session.staged.filter fun event => !within previous event.savepoint }

/- `_discard_unfinished_events`. -/
def discardUnfinishedEvents (parent : Bool) : Session Obj :=
  if parent then session else { session with staged := [] }

def beginNested : Session Obj :=
  { session with begun := session.begun + 1, nested := session.begun :: session.nested }

/- The innermost savepoint is closed. -/
def close : Session Obj := { session with nested := session.nested.tail }

def release : Session Obj := (session.numberStagedEvents []).close.discardUnfinishedEvents true

def rollbackNested (savepoint : Nat) : Session Obj :=
  (session.close.discardUnfinishedEvents true).discardRolledBackEvents savepoint

/- The outermost transaction ends. -/
def commit (flushed : List (Option (EventRow Obj))) : Session Obj :=
  (session.numberStagedEvents flushed).discardUnfinishedEvents false

def rollback : Session Obj := session.discardUnfinishedEvents false

end Session

----
-- Work
----

/- What a transaction does, with every savepoint that it begins. -/
inductive Work (Obj : Type) where
  | done
  | stage (row : Option (EventRow Obj)) (rest : Work Obj)
  | savepoint (body : Work Obj) (released : Bool) (rest : Work Obj)

/- The events and holes in scopes that were not rolled back. -/
def Work.kept : Work Obj → List (Option (EventRow Obj))
  | .done => []
  | .stage row rest => row :: rest.kept
  | .savepoint body released rest => (if released then body.kept else []) ++ rest.kept

def Session.run (session : Session Obj) : Work Obj → Session Obj
  | .done => session
  | .stage row rest => (session.stage row).run rest
  | .savepoint body released rest =>
    let inside := session.beginNested.run body
    (if released then inside.release else inside.rollbackNested session.begun).run rest

variable (outbox : Outbox Obj) (begun : Nat)

/- A session whose transaction begins. -/
def Session.begin : Session Obj := ⟨outbox, begun, [], []⟩

----
-- Staged Events
----

theorem within_iff {boundary : Nat} {savepoint : List Nat} :
    within boundary savepoint ↔ boundary ∈ savepoint := by
  induction savepoint with
  | nil => simp [within]
  | cons first parents ih => rw [within, Bool.or_eq_true, beq_iff_eq, ih, List.mem_cons, eq_comm]

/- Savepoints have numbers of savepoints that were begun. -/
structure Session.Numbered (session : Session Obj) : Prop where
  nested : ∀ savepoint ∈ session.nested, savepoint < session.begun
  staged : ∀ event ∈ session.staged, ∀ savepoint ∈ event.savepoint, savepoint < session.begun

/- What work adds to a session, in the savepoints that are open. -/
structure Adds (session after : Session Obj) (kept : List (Option (EventRow Obj))) : Prop where
  numbered : after.Numbered
  outbox : after.outbox = session.outbox
  nested : after.nested = session.nested
  begun : session.begun ≤ after.begun
  staged : ∃ added, after.staged = session.staged ++ added ∧ added.map StagedEvent.row = kept ∧
    ∀ event ∈ added, session.nested ⊆ event.savepoint

variable {session middle after : Session Obj} {first second : List (Option (EventRow Obj))}

theorem Adds.trans (hFirst : Adds session middle first) (hSecond : Adds middle after second) :
    Adds session after (first ++ second) := by
  rcases hFirst.staged with ⟨added, hAdded, hRows, hInside⟩
  rcases hSecond.staged with ⟨more, hMore, hOthers, hBelow⟩
  refine ⟨hSecond.numbered, hSecond.outbox.trans hFirst.outbox, hSecond.nested.trans hFirst.nested,
    hFirst.begun.trans hSecond.begun, added ++ more, ?_, ?_, ?_⟩
  · rw [hMore, hAdded, List.append_assoc]
  · rw [List.map_append, hRows, hOthers]
  · rw [hFirst.nested] at hBelow
    exact List.forall_mem_append.mpr ⟨hInside, hBelow⟩

theorem Adds.stage (hNumbered : session.Numbered) (row : Option (EventRow Obj)) :
    Adds session (session.stage row) [row] := by
  refine ⟨⟨hNumbered.nested, ?_⟩, rfl, rfl, Nat.le_refl _, _, rfl, rfl, ?_⟩
  · refine List.forall_mem_append.mpr ⟨hNumbered.staged, ?_⟩
    rw [List.forall_mem_singleton]
    exact hNumbered.nested
  · rw [List.forall_mem_singleton]
    exact List.Subset.refl _

theorem numbered_beginNested (hNumbered : session.Numbered) : session.beginNested.Numbered := by
  refine ⟨?_, fun event hEvent savepoint hMem => ?_⟩
  · intro savepoint hMem
    rcases List.mem_cons.mp hMem with rfl | hOuter
    · exact Nat.lt_succ_self _
    · exact Nat.lt_succ_of_lt (hNumbered.nested savepoint hOuter)
  · exact Nat.lt_succ_of_lt (hNumbered.staged event hEvent savepoint hMem)

/- The savepoints that are open once the innermost one is closed. -/
theorem Adds.closed (hBody : Adds session.beginNested middle first) :
    middle.close.nested = session.nested ∧
    ∀ savepoint ∈ middle.close.nested, savepoint < middle.begun := by
  have hNested : middle.nested = session.begun :: session.nested := hBody.nested
  constructor
  · rw [Session.close, hNested]
    rfl
  · exact fun savepoint hMem => hBody.numbered.nested savepoint (List.mem_of_mem_tail hMem)

/- A released savepoint leaves its events staged. -/
theorem Adds.release (hBody : Adds session.beginNested middle first) :
    Adds session middle.release first := by
  have hRelease : middle.release = middle.close := by
    unfold Session.release Session.numberStagedEvents
    rw [if_pos (by rw [hBody.nested]; exact List.cons_ne_nil _ _)]
    rfl
  rcases hBody.staged with ⟨added, hAdded, hRows, hInside⟩
  rw [hRelease]
  refine ⟨⟨hBody.closed.2, hBody.numbered.staged⟩, hBody.outbox, hBody.closed.1,
    Nat.le_of_succ_le hBody.begun, added, hAdded, hRows, fun event hEvent => ?_⟩
  exact List.subset_of_cons_subset (hInside event hEvent)

/- A savepoint that is rolled back takes exactly its own events with it. -/
theorem Adds.rolledBack (hNumbered : session.Numbered)
    (hBody : Adds session.beginNested middle first) :
    Adds session (middle.rollbackNested session.begun) [] := by
  rcases hBody.staged with ⟨added, hAdded, _, hInside⟩
  have hBefore : (session.staged.filter fun event => !within session.begun event.savepoint) =
      session.staged := by
    rw [List.filter_eq_self]
    intro event hEvent
    rw [Bool.not_eq_true', Bool.eq_false_iff, ne_eq, within_iff]
    exact fun hMem => Nat.lt_irrefl _ (hNumbered.staged event hEvent _ hMem)
  have hOwn : (added.filter fun event => !within session.begun event.savepoint) = [] := by
    rw [List.filter_eq_nil_iff]
    intro event hEvent
    rw [Bool.not_eq_true', Bool.not_eq_false, within_iff]
    exact hInside event hEvent List.mem_cons_self
  have hStaged : (middle.rollbackNested session.begun).staged = session.staged := by
    change (middle.staged.filter _) = _
    rw [hAdded, List.filter_append, hOwn, List.append_nil]
    exact hBefore
  refine ⟨⟨hBody.closed.2, fun event hEvent => ?_⟩, hBody.outbox, hBody.closed.1,
    Nat.le_of_succ_le hBody.begun, [], by rw [hStaged, List.append_nil], rfl, by simp⟩
  exact hBody.numbered.staged event (List.mem_of_mem_filter hEvent)

/- A unit of work adds the events it keeps, with the next numbers. -/
theorem staged_run
    (work : Work Obj)
    (hNumbered : session.Numbered) :
    Adds session (session.run work) work.kept := by
  induction work generalizing session with
  | done => exact ⟨hNumbered, rfl, rfl, Nat.le_refl _, [], (List.append_nil _).symm, rfl, by simp⟩
  | stage row rest ih =>
    have hStaged := Adds.stage hNumbered row
    exact hStaged.trans (ih hStaged.numbered)
  | savepoint body released rest hBody hRest =>
    have hInside := hBody (numbered_beginNested hNumbered)
    cases released with
    | true => exact hInside.release.trans (hRest hInside.release.numbered)
    | false =>
      have hOutside := hInside.rolledBack hNumbered
      exact hOutside.trans (hRest hOutside.numbered)

----
-- Commits
----

theorem foldl_stage (session : Session Obj) (flushed : List (Option (EventRow Obj))) :
    (flushed.foldl Session.stage session).outbox = session.outbox ∧
    (flushed.foldl Session.stage session).staged.map StagedEvent.row =
    session.staged.map StagedEvent.row ++ flushed := by
  induction flushed generalizing session with
  | nil => simp
  | cons row flushed ih =>
    refine ⟨(ih (session.stage row)).1, ?_⟩
    rw [List.foldl_cons, (ih (session.stage row)).2]
    simp [Session.stage]

theorem mem_numbered {first : Nat} {staged : List (Option (EventRow Obj))}
    {event : FleetStreamEvent Obj} : event ∈ Outbox.numbered first staged ↔
    ∃ k, staged[k]? = some (some event.toEventRow) ∧ event.id = first + k := by
  induction staged generalizing first with
  | nil => simp [Outbox.numbered]
  | cons row staged ih =>
    have hRest : (∃ k, (row :: staged)[k + 1]? = some (some event.toEventRow) ∧
        event.id = first + (k + 1)) ↔ event ∈ Outbox.numbered (first + 1) staged := by
      rw [ih]
      exact exists_congr fun k => and_congr_right fun _ => by omega
    rw [← Nat.or_exists_add_one, hRest, List.getElem?_cons_zero, Option.some.injEq, Nat.add_zero]
    cases row with
    | none => simp [Outbox.numbered]
    | some row =>
      rw [Outbox.numbered, List.mem_cons]
      refine or_congr_left ⟨?_, ?_⟩
      · rintro rfl
        exact ⟨rfl, rfl⟩
      · rintro ⟨hRow, rfl⟩
        obtain rfl := Option.some.inj hRow
        rfl

theorem pairwise_numbered (first : Nat) (staged : List (Option (EventRow Obj))) :
    (Outbox.numbered first staged).Pairwise fun earlier later => earlier.id < later.id := by
  induction staged generalizing first with
  | nil => exact List.Pairwise.nil
  | cons row staged ih =>
    cases row with
    | none => exact ih (first + 1)
    | some row =>
      refine List.Pairwise.cons (fun later hLater => ?_) (ih (first + 1))
      rcases mem_numbered.mp hLater with ⟨k, _, hId⟩
      change first < later.id
      omega

/-
  A commit numbers what was staged in scopes that were not rolled back, in its order and after the
  watermark, and stores the events among it. A transaction that is rolled back stores nothing.
-/
theorem committed_work_is_numbered
    (work : Work Obj)
    (flushed : List (Option (EventRow Obj))) :
    let session := (Session.begin outbox begun).run work
    let kept := work.kept ++ flushed
    (∃ added,
       (session.commit flushed).outbox.rows = outbox.rows ++ added ∧
       (∀ event,
          event ∈ added ↔
            ∃ k,
              kept[k]? = some (some event.toEventRow) ∧
              event.id = outbox.highWatermark + 1 + k) ∧
       added.Pairwise fun earlier later => earlier.id < later.id) ∧
    (session.commit flushed).outbox.highWatermark =
      outbox.highWatermark + kept.length ∧
    (session.commit flushed).staged = [] ∧
    session.rollback.outbox = outbox ∧
    session.rollback.staged = [] := by
  intro session kept
  have hStart : (Session.begin outbox begun).Numbered :=
    ⟨List.forall_mem_nil _, List.forall_mem_nil _⟩
  have hAdds : Adds (Session.begin outbox begun) session work.kept := staged_run work hStart
  have hClosed : session.nested = [] := hAdds.nested
  rcases hAdds.staged with ⟨added, hAdded, hRows, _⟩
  have hCommit : (session.commit flushed).outbox = outbox.numberStagedEvents kept := by
    have hFlushed := foldl_stage session flushed
    unfold Session.commit Session.numberStagedEvents
    rw [if_neg (not_not.mpr hClosed)]
    change Outbox.numberStagedEvents _ _ = _
    rw [hFlushed.1, hFlushed.2, hAdded, hAdds.outbox, List.map_append, hRows]
    rfl
  rw [hCommit]
  refine ⟨?_, ?_, rfl, hAdds.outbox, rfl⟩
  · refine ⟨Outbox.numbered (outbox.highWatermark + 1) kept, ?_, fun event => mem_numbered,
      pairwise_numbered _ _⟩
    cases kept with
    | nil => simp [Outbox.numberStagedEvents, Outbox.numbered]
    | cons row staged => simp [Outbox.numberStagedEvents]
  · cases kept with
    | nil => simp [Outbox.numberStagedEvents]
    | cons row staged => simp [Outbox.numberStagedEvents, Outbox.highWatermark]

----
-- The Life of the Outbox
----

/- What changes the tables: a transaction that commits, and retention. -/
inductive Change (Obj : Type) where
  | commit (staged : List (Option (EventRow Obj)))
  | prune (now : Int) (limit : Nat)

def Change.apply (outbox : Outbox Obj) : Change Obj → Outbox Obj
  | .commit staged => outbox.numberStagedEvents staged
  | .prune now limit => outbox.pruneEvents now limit

/- Identifiers count up to the watermark, and the rows that bear one have a cursor. -/
structure Ordered (outbox : Outbox Obj) : Prop where
  seeded : outbox.cursor = none → outbox.rows = []
  rows : outbox.rows.Pairwise fun earlier later => earlier.id < later.id
  below : ∀ row ∈ outbox.rows, row.id ≤ outbox.highWatermark

/- A row of a later outbox was there before or is numbered after all that were. -/
structure Grows (before after : Outbox Obj) : Prop where
  ordered : Ordered after
  watermark : before.highWatermark ≤ after.highWatermark
  rows : ∀ row ∈ after.rows, row ∈ before.rows ∨ before.highWatermark < row.id

variable {outbox : Outbox Obj}

theorem grows_numberStagedEvents (hOrdered : Ordered outbox)
    (staged : List (Option (EventRow Obj))) : Grows outbox (outbox.numberStagedEvents staged) := by
  unfold Outbox.numberStagedEvents
  split
  · exact ⟨hOrdered, Nat.le_refl _, fun _ => Or.inl⟩
  · have hAdded : ∀ row ∈ Outbox.numbered
          (outbox.highWatermark + staged.length - staged.length + 1) staged,
        outbox.highWatermark < row.id ∧ row.id ≤ outbox.highWatermark + staged.length := by
      intro row hRow
      rcases mem_numbered.mp hRow with ⟨k, hStaged, hId⟩
      have hBound := (List.getElem?_eq_some_iff.mp hStaged).1
      omega
    refine ⟨⟨fun hNone => absurd hNone (Option.some_ne_none _), ?_, ?_⟩, Nat.le_add_right _ _, ?_⟩
    · refine List.pairwise_append.mpr ⟨hOrdered.rows, pairwise_numbered _ _, ?_⟩
      exact fun old hOld new hNew => (hOrdered.below old hOld).trans_lt (hAdded new hNew).1
    · refine List.forall_mem_append.mpr ⟨fun row hRow => ?_, fun row hRow => (hAdded row hRow).2⟩
      exact (hOrdered.below row hRow).trans (Nat.le_add_right _ _)
    · refine List.forall_mem_append.mpr ⟨fun _ => Or.inl, fun row hRow => ?_⟩
      exact Or.inr (hAdded row hRow).1

theorem grows_pruneEvents (hOrdered : Ordered outbox) (now : Int)
    (limit : Nat) : Grows outbox (outbox.pruneEvents now limit) := by
  have hMark : (outbox.pruneEvents now limit).highWatermark = outbox.highWatermark := by
    cases hCursor : outbox.cursor with
    | none =>
      have hEmpty := hOrdered.seeded hCursor
      simp [Outbox.highWatermark, Outbox.newest, Outbox.pruneEvents, hEmpty]
    | some => simp [Outbox.highWatermark, Outbox.pruneEvents, hCursor]
  refine ⟨⟨fun hNone => ?_, hOrdered.rows.filter _, fun row hRow => ?_⟩, hMark.ge,
    fun row hRow => ?_⟩
  · simp [Outbox.pruneEvents, hOrdered.seeded hNone]
  · rw [hMark]
    exact hOrdered.below row (List.mem_of_mem_filter hRow)
  · exact Or.inl (List.mem_of_mem_filter hRow)

theorem grows_foldl (hOrdered : Ordered outbox)
    (changes : List (Change Obj)) : Grows outbox (changes.foldl Change.apply outbox) := by
  induction changes generalizing outbox with
  | nil => exact ⟨hOrdered, Nat.le_refl _, fun _ => Or.inl⟩
  | cons change changes ih =>
    have hFirst : Grows outbox (change.apply outbox) := by
      cases change with
      | commit staged => exact grows_numberStagedEvents hOrdered staged
      | prune now limit => exact grows_pruneEvents hOrdered now limit
    have hRest := ih hFirst.ordered
    refine ⟨hRest.ordered, hFirst.watermark.trans hRest.watermark, fun row hRow => ?_⟩
    rcases hRest.rows row hRow with hKept | hNew
    · exact hFirst.rows row hKept
    · exact Or.inr (hFirst.watermark.trans_lt hNew)

/-
  Whatever commits and whatever retention deletes in between, an identifier names one event for
  good: a later row at or below an earlier watermark is a row that was stored then. The first run
  starts from a database without events, whatever its cursor.
-/
theorem identifiers_are_never_reused
    (cursor : Option Nat)
    (first second : List (Change Obj)) :
    let earlier := first.foldl Change.apply ⟨cursor, []⟩
    let later := second.foldl Change.apply earlier
    Ordered later ∧
    earlier.highWatermark ≤ later.highWatermark ∧
    ∀ row ∈ later.rows,
      row.id ≤ earlier.highWatermark → row ∈ earlier.rows := by
  intro earlier later
  have hEmpty : Ordered (⟨cursor, []⟩ : Outbox Obj) :=
    ⟨fun _ => rfl, List.Pairwise.nil, List.forall_mem_nil _⟩
  have hGrows : Grows earlier later := grows_foldl (grows_foldl hEmpty first).ordered second
  refine ⟨hGrows.ordered, hGrows.watermark, fun row hRow hOld => ?_⟩
  exact (hGrows.rows row hRow).resolve_right (Nat.not_lt.mpr hOld)

end VonkForge.Staging
