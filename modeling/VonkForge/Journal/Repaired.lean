import VonkForge.Journal.Repair

/-
  When the repair of the journal is safe from crashes.

  The files of a journal are moved away one by one, and a power cut may lose each of these renames.
  It is the marker that brings the repair back. So as long as the marker is durable before the first
  file is moved, the directory is in one of three modes: nothing is half moved, or the marker is
  durable, or it is durable still and all files are gone.

  Main declarations:
    * `Whole`
    * `fits_serve`
    * `beyond_serve`
    * `repair_is_crash_safe`
-/

----
-- Modes of the Directory
----

namespace VonkForge.Repair

/- No file in place is of a journal that was moved away. -/
def Whole (disk : Disk) : Prop :=
  ∀ part generation, disk.files part = some generation → ∀ other, (other, generation) ∉ disk.moved

/- A change that moves nothing, and makes nothing half. -/
def Change.Plain (disk : Disk) : Change → Prop
  | .create _ generation => ∀ other, (other, generation) ∉ disk.moved
  | .unlink _ => True
  | .quarantine _ _ => False
  | .raise _ => True
  | .retire => False

/- Nothing is half moved, whatever is lost. -/
structure Quiet (storage : Storage) : Prop where
  marker : storage.durable.marker = none
  whole : Whole storage.durable
  pending : ∀ change ∈ storage.pending, change.Plain storage.durable

/- The marker is durable, and files are being moved. -/
structure Marked (storage : Storage) : Prop where
  marker : storage.durable.marker ≠ none
  pending : ∀ change ∈ storage.pending, ∃ part generation, change = .quarantine part generation

/- The marker is durable, and no file is left. -/
structure Cleared (storage : Storage) : Prop where
  marker : storage.durable.marker ≠ none
  files : ∀ part, storage.durable.files part = none
  pending : ∀ change ∈ storage.pending, change = .retire

def Mode (storage : Storage) : Prop := Quiet storage ∨ Marked storage ∨ Cleared storage

variable {disk : Disk} {changes : List Change}

/- What is said of every file holds when one is replaced. -/
theorem files_update
    {files : Part → Option Nat}
    {good : Nat → Prop}
    (hFiles : ∀ part found, files part = some found → good found)
    (part : Part)
    {value : Option Nat}
    (hValue : ∀ found, value = some found → good found) :
    ∀ other found, Function.update files part value other = some found → good found := by
  intro other found hFound
  by_cases hSame : other = part
  · rw [hSame, Function.update_self] at hFound
    exact hValue found hFound
  · rw [Function.update_of_ne hSame] at hFound
    exact hFiles other found hFound

/- Plain changes keep a directory whole. -/
theorem Whole.foldl (hWhole : Whole disk) (hPlain : ∀ change ∈ changes, change.Plain disk) :
    Whole (changes.foldl apply disk) ∧ (changes.foldl apply disk).moved = disk.moved := by
  apply Buffered.foldl_invariant apply
    (I := fun reached => Whole reached ∧ reached.moved = disk.moved)
  · exact ⟨hWhole, rfl⟩
  · rintro reached change hChange ⟨hReached, hMoved⟩
    have hOne := hPlain change hChange
    cases change with
    | create part generation =>
      refine ⟨files_update hReached part ?_, hMoved⟩
      intro _ hFound
      rw [← Option.some.inj hFound, hMoved]
      exact hOne
    | unlink part => exact ⟨files_update hReached part (by simp), hMoved⟩
    | quarantine | retire => exact absurd hOne not_false
    | raise => exact ⟨hReached, hMoved⟩

/- Quarantines leave the marker alone. -/
theorem marker_of_quarantines (hMoves : ∀ change ∈ changes, ∃ part generation,
      change = .quarantine part generation) : (changes.foldl apply disk).marker = disk.marker := by
  apply Buffered.foldl_invariant apply (I := fun reached => reached.marker = disk.marker) rfl
  intro _ change hChange hReached
  rcases hMoves change hChange with ⟨_, _, rfl⟩
  exact hReached

/- Retirements leave the files alone. -/
theorem files_of_retirements (hRetire : ∀ change ∈ changes, change = .retire) :
    (changes.foldl apply disk).files = disk.files := by
  apply Buffered.foldl_invariant apply (I := fun reached => reached.files = disk.files) rfl
  intro _ change hChange hReached
  rw [hRetire change hChange]
  exact hReached

/- What is kept of the changes leaves one of the modes. -/
theorem mode_of_kept {storage : Storage} (hMode : Mode storage)
    {kept : List Change} (hKept : kept.Sublist storage.pending) :
    Mode ⟨kept.foldl apply storage.durable, []⟩ := by
  have hNothing : ∀ (P : Change → Prop), ∀ change ∈ ([] : List Change), P change := by
    intro _ _ hChange
    cases hChange
  rcases hMode with hQuiet | hMarked | hCleared
  · have hPlain : ∀ change ∈ kept, change.Plain storage.durable :=
      fun change hChange => hQuiet.pending change (hKept.subset hChange)
    rcases hQuiet.whole.foldl hPlain with ⟨hWhole, _⟩
    by_cases hMarker : (kept.foldl apply storage.durable).marker = none
    · exact Or.inl ⟨hMarker, hWhole, hNothing _⟩
    · exact Or.inr (Or.inl ⟨hMarker, hNothing _⟩)
  · have hMoves := fun change hChange => hMarked.pending change (hKept.subset hChange)
    right
    left
    refine ⟨?_, hNothing _⟩
    change (kept.foldl apply storage.durable).marker ≠ none
    rw [marker_of_quarantines hMoves]
    exact hMarked.marker
  · have hRetire := fun change hChange => hCleared.pending change (hKept.subset hChange)
    have hFiles : ∀ part, (kept.foldl apply storage.durable).files part = none := by
      rw [files_of_retirements hRetire]
      exact hCleared.files
    by_cases hMarker : (kept.foldl apply storage.durable).marker = none
    · left
      refine ⟨hMarker, ?_, hNothing _⟩
      intro part _ hFound
      rw [hFiles part] at hFound
      cases hFound
    · exact Or.inr (Or.inr ⟨hMarker, hFiles, hNothing _⟩)

----
-- Generations
----

/- All generations on a disk are below a number. -/
def Disk.Below (disk : Disk) (number : Nat) : Prop :=
  (∀ part generation, disk.files part = some generation → generation < number) ∧
    (∀ entry ∈ disk.moved, entry.2 < number) ∧
    ∀ intent, disk.marker = some intent → intent.generation < number

def Change.Below (number : Nat) : Change → Prop
  | .create _ generation => generation < number
  | .unlink _ => True
  | .quarantine _ generation => generation < number
  | .raise intent => intent.generation < number
  | .retire => True

variable {number : Nat} {change : Change} {disk : Disk}

theorem Disk.Below.apply (disk : Disk) (change : Change) (hDisk : disk.Below number)
    (hChange : change.Below number) : (Repair.apply disk change).Below number := by
  cases change with
  | create part =>
    refine ⟨files_update hDisk.1 part ?_, hDisk.2⟩
    intro _ hOther
    rw [← Option.some.inj hOther]
    exact hChange
  | unlink part => exact ⟨files_update hDisk.1 part (by simp), hDisk.2⟩
  | quarantine part =>
    refine ⟨files_update hDisk.1 part (by simp), ?_, hDisk.2.2⟩
    exact List.forall_mem_cons.mpr ⟨hChange, hDisk.2.1⟩
  | raise =>
    refine ⟨hDisk.1, hDisk.2.1, ?_⟩
    intro _ hOther
    rw [← Option.some.inj hOther]
    exact hChange
  | retire => exact ⟨hDisk.1, hDisk.2.1, fun other hOther => by cases hOther⟩

variable {changes : List Change}

theorem Disk.Below.mono {small large : Nat} (hDisk : disk.Below small)
    (hLe : small ≤ large) : disk.Below large :=
  ⟨fun part generation hFound => Nat.lt_of_lt_of_le (hDisk.1 part generation hFound) hLe,
      fun entry hEntry => Nat.lt_of_lt_of_le (hDisk.2.1 entry hEntry) hLe, fun intent hIntent =>
      Nat.lt_of_lt_of_le (hDisk.2.2 intent hIntent) hLe⟩

theorem Change.Below.mono {small large : Nat}
    (hChange : change.Below small) (hLe : small ≤ large) :
    change.Below large := by
  cases change with
  | create | quarantine | raise => exact Nat.lt_of_lt_of_le hChange hLe
  | unlink | retire => exact True.intro

/- All generations of a storage are below a number. -/
def Storage.Below (storage : Storage) (number : Nat) : Prop :=
  Buffered.Holds (Disk.Below · number) (Change.Below number) storage

----
-- What a Step Does to the Directory
----

/- Where a change that a step writes comes from. -/
def Origin (before after : System) : Change → Prop
  | .create _ generation =>
    (generation = before.generations ∧ before.generations < after.generations) ∨
      before.storage.read.files .main = some generation
  | .unlink _ => True
  | .quarantine part generation => before.storage.read.files part = some generation
  | .raise intent =>
    intent.number = before.intents ∧ before.storage.read.files .main = some intent.generation
  | .retire => True

/- What a step does to the storage. -/
inductive Stored (before after : System) : Prop where
  | kept (hStorage : after.storage = before.storage)
  | settled
      (changes : List Change)
      (hKept : changes.Sublist before.storage.pending)
      (hStorage : after.storage = ⟨changes.foldl apply before.storage.durable, []⟩)
  | wrote
      (change : Change)
      (hOrigin : Origin before after change)
      (hStorage : after.storage = before.storage.write change)

structure Touched (before after : System) : Prop where
  generations_le : before.generations ≤ after.generations
  intents_le : before.intents ≤ after.intents
  stored : Stored before after

variable (system : System)

theorem touched_sync (phase : Phase) : Touched system (system.sync phase) :=
  ⟨Nat.le_refl _, Nat.le_refl _, .settled system.storage.pending (List.Sublist.refl _) rfl⟩

theorem touched_phase (phase : Phase) : Touched system { system with phase := phase } :=
  ⟨Nat.le_refl _, Nat.le_refl _, .kept rfl⟩

theorem touched_write
    {change : Change}
    (phase : Phase)
    (hOrigin : Origin system (system.write change phase) change) :
    Touched system (system.write change phase) :=
  ⟨Nat.le_refl _, Nat.le_refl _, .wrote change hOrigin rfl⟩

theorem touched_useJournal (repaired : Bool) (use : Use) :
    Touched system (useJournal system repaired use) := by
  cases use with
  | create part =>
    simp only [useJournal]
    cases hMain : system.storage.read.files .main with
    | none => exact touched_phase system _
    | some generation =>
      cases system.storage.read.files part with
      | some => exact touched_phase system _
      | none => exact touched_write system _ (Or.inr hMain)
  | unlink part =>
    simp only [useJournal]
    split
    · exact touched_phase system _
    · exact touched_write system _ True.intro
  | sync => exact touched_sync system _
  | damaged =>
    simp only [useJournal]
    split <;> exact touched_phase system _
  | failed | restoreCustody => exact touched_phase system _

theorem touched_advance (use : Use) : Touched system (advance system use) := by
  unfold advance
  cases system.phase with
  | off | look => exact touched_phase system _
  | moving _ left =>
    cases left with
    | nil => exact touched_phase system _
    | cons part =>
      simp only
      cases hFile : system.storage.read.files part with
      | none => exact touched_phase system _
      | some generation => exact touched_write system _ hFile
  | syncMoves | syncRetired | pruning | syncIntent => exact touched_sync system _
  | retiring => exact touched_write system _ True.intro
  | opening =>
    simp only [openJournal]
    cases system.storage.read.files .main with
    | some => exact touched_phase system _
    | none =>
      exact ⟨Nat.le_succ _, Nat.le_refl _, .wrote (.create .main system.generations)
        (Or.inl ⟨rfl, Nat.lt_succ_self _⟩) rfl⟩
  | inUse repaired => exact touched_useJournal system repaired use
  | damaged =>
    simp only [raiseIntent]
    cases hMain : system.storage.read.files .main with
    | none => exact touched_phase system _
    | some generation =>
      exact ⟨Nat.le_refl _, Nat.le_succ _, .wrote (.raise ⟨system.intents, generation⟩)
        ⟨rfl, hMain⟩ rfl⟩

theorem touched_serve (input : Input) : Touched system (serve system input) := by
  cases input with
  | advance use => exact touched_advance system use
  | kill => exact touched_phase system _
  | powerCut keep =>
    rcases Buffered.cut_spec apply keep system.storage with ⟨changes, hKept, hCut⟩
    exact ⟨Nat.le_refl _, Nat.le_refl _, .settled changes hKept hCut⟩

/- What is good about the disk stays so if every change that is written is good. -/
theorem Stored.holds
    {before after : System}
    {D : Disk → Prop}
    {C : Change → Prop}
    (hStored : Stored before after)
    (hHolds : Buffered.Holds D C before.storage)
    (hApply : ∀ disk change, D disk → C change → D (apply disk change))
    (hWritten : ∀ change, Origin before after change → C change) :
    Buffered.Holds D C after.storage := by
  cases hStored with
  | kept hStorage =>
    rw [hStorage]
    exact hHolds
  | settled _ hKept hStorage =>
    rw [hStorage]
    exact Buffered.holds_of_settled (hHolds.foldl hApply hKept)
  | wrote change hOrigin hStorage =>
    rw [hStorage]
    exact hHolds.write (hWritten change hOrigin)

/- The generations so far. -/
def Numbered : Prop := Storage.Below system.storage system.generations

theorem Touched.numbered {before after : System} (hTouched : Touched before after)
    (hNumbered : Numbered before) : Numbered after := by
  have hLe := hTouched.generations_le
  have hFiles := (hNumbered.visible Disk.Below.apply).1
  apply hTouched.stored.holds (hNumbered.mono (fun _ hDisk => hDisk.mono hLe)
    (fun _ hChange => hChange.mono hLe)) Disk.Below.apply
  intro change hOrigin
  cases change with
  | create =>
    rcases hOrigin with ⟨rfl, hLess⟩ | hMain
    · exact hLess
    · exact Nat.lt_of_lt_of_le (hFiles _ _ hMain) hLe
  | quarantine => exact Nat.lt_of_lt_of_le (hFiles _ _ hOrigin) hLe
  | raise => exact Nat.lt_of_lt_of_le (hFiles _ _ hOrigin.2) hLe
  | unlink | retire => exact True.intro

----
-- Phases and Modes
----

/- Which modes a phase can have. -/
def Phase.Fits (storage : Storage) : Phase → Prop
  | .off => Mode storage
  | .look _ => Mode storage
  | .moving _ left => Marked storage ∧ ∀ part, part ∉ left → storage.read.files part = none
  | .syncMoves _ => Marked storage ∧ ∀ part, storage.read.files part = none
  | .retiring _ => Cleared storage ∧ storage.pending = []
  | .syncRetired _ => Cleared storage ∧ storage.read.marker = none
  | .pruning _ => (Quiet storage ∨ Cleared storage) ∧ storage.read.marker = none
  | .opening _ => Quiet storage ∧ storage.pending = []
  | .inUse _ => Quiet storage ∧ storage.read.marker = none
  | .damaged => Quiet storage ∧ storage.read.marker = none
  | .syncIntent => Quiet storage

def Fits (system : System) : Prop := system.phase.Fits system.storage

variable {storage : Storage} {system : System}

theorem Fits.mode (hFits : Fits system) : Mode system.storage := by
  unfold Fits Phase.Fits at hFits
  split at hFits
  · exact hFits
  · exact hFits
  · exact Or.inr (Or.inl hFits.1)
  · exact Or.inr (Or.inl hFits.1)
  · exact Or.inr (Or.inr hFits.1)
  · exact Or.inr (Or.inr hFits.1)
  · rcases hFits.1 with hQuiet | hCleared
    · exact Or.inl hQuiet
    · exact Or.inr (Or.inr hCleared)
  · exact Or.inl hFits.1
  · exact Or.inl hFits.1
  · exact Or.inl hFits.1
  · exact Or.inl hFits

/- A plain change leaves a quiet directory quiet. -/
theorem Quiet.write (hQuiet : Quiet storage) (hPlain : change.Plain storage.durable) :
    Quiet (storage.write change) := by
  exact ⟨hQuiet.marker, hQuiet.whole,
    List.forall_mem_append.mpr ⟨hQuiet.pending, List.forall_mem_singleton.mpr hPlain⟩⟩

theorem Quiet.read_whole (hQuiet : Quiet storage) :
    Whole storage.read ∧ storage.read.moved = storage.durable.moved :=
  hQuiet.whole.foldl hQuiet.pending

theorem Marked.read_marker (hMarked : Marked storage) :
    storage.read.marker = storage.durable.marker :=
  marker_of_quarantines hMarked.pending

theorem Cleared.read_files (hCleared : Cleared storage) (part : Part) :
    storage.read.files part = none := by
  have hFiles : storage.read.files = storage.durable.files := files_of_retirements hCleared.pending
  rw [hFiles]
  exact hCleared.files part

/- With the marker in view and retired, nothing is pending. -/
theorem Cleared.settled (hCleared : Cleared storage) (hMarker : storage.read.marker ≠ none) :
    storage.pending = [] := by
  rcases List.eq_nil_or_concat storage.pending with hNil | ⟨_, last, hPending⟩
  · exact hNil
  · have hLast : last = .retire := hCleared.pending last (by rw [hPending]; simp)
    have hRetired : storage.read.marker = none := by
      unfold Storage.read Buffered.visible
      rw [hPending, hLast]
      simp [apply]
    exact absurd hRetired hMarker

/- Without an intent in the air, a quiet directory has none. -/
theorem Quiet.read_marker (hQuiet : Quiet storage)
    (hNone : ∀ intent, .raise intent ∉ storage.pending) : storage.read.marker = none := by
  apply Buffered.foldl_invariant apply (I := fun reached => reached.marker = none) hQuiet.marker
  intro _ change hChange hReached
  have hPlain := hQuiet.pending change hChange
  cases change with
  | create | unlink | quarantine => exact hReached
  | raise intent => exact absurd hChange (hNone intent)
  | retire => rfl

/- A sync of a directory without a marker in view. -/
theorem quiet_sync (hMode : Quiet storage ∨ Cleared storage)
    (hMarker : storage.read.marker = none) : Quiet (storage.sync apply) := by
  refine ⟨hMarker, ?_, fun change hChange => by cases hChange⟩
  rcases hMode with hQuiet | hCleared
  · exact hQuiet.read_whole.1
  · intro part generation hFound
    have hNone := hCleared.read_files part
    change storage.read.files part = some generation at hFound
    rw [hNone] at hFound
    cases hFound

/- The marker is looked for only when the rename that put it in its place is durable. -/
def Settled (step : Machine.Step System Input System) : Prop :=
  ∀ repaired, step.before.phase = .look repaired →
    ∀ intent, .raise intent ∉ step.before.storage.pending

theorem fits_look (hMode : Mode system.storage)
    (hSettled : ∀ intent, .raise intent ∉ system.storage.pending) (repaired : Bool) :
    Phase.Fits system.storage (afterLook repaired system.storage.read.marker) := by
  have hAll :
      ∀ part : Part, part ∉ [Part.main, .wal, .shm] → system.storage.read.files part = none := by
    intro part hPart
    cases part <;> exact absurd (by decide) hPart
  cases hMarker : system.storage.read.marker with
  | some =>
    refine ⟨?_, hAll⟩
    rcases hMode with hQuiet | hMarked | hCleared
    · rw [hQuiet.read_marker hSettled] at hMarker
      cases hMarker
    · exact hMarked
    · have hPending := hCleared.settled (by
        rw [hMarker]
        exact Option.some_ne_none _)
      refine ⟨hCleared.marker, ?_⟩
      rw [hPending]
      intro _ hChange
      cases hChange
  | none =>
    refine ⟨?_, hMarker⟩
    rcases hMode with hQuiet | hMarked | hCleared
    · exact Or.inl hQuiet
    · rw [hMarked.read_marker] at hMarker
      exact absurd hMarker hMarked.marker
    · exact Or.inr hCleared

/- Moving one file, if it is there. -/
theorem fits_moving {repaired : Bool} {part : Part} {left : List Part}
    (hMarked : Marked system.storage)
    (hGone : ∀ other, other ∉ part :: left → system.storage.read.files other = none)
    {generation : Nat} :
    Fits (system.write (.quarantine part generation) (.moving repaired left)) := by
  refine ⟨⟨hMarked.marker, ?_⟩, ?_⟩
  · exact List.forall_mem_append.mpr
      ⟨hMarked.pending, List.forall_mem_singleton.mpr ⟨part, generation, rfl⟩⟩
  · intro other hOther
    change (Buffered.visible apply
      (system.storage.write (.quarantine part generation))).files other = none
    rw [Buffered.visible_write]
    change Function.update system.storage.read.files part none other = none
    by_cases hSame : other = part
    · rw [hSame, Function.update_self]
    · rw [Function.update_of_ne hSame]
      apply hGone
      rw [List.mem_cons, not_or]
      exact ⟨hSame, hOther⟩

theorem fits_useJournal {repaired : Bool} (hPhase : system.phase = .inUse repaired)
    (hQuiet : Quiet system.storage) (hMarker : system.storage.read.marker = none) (use : Use) :
    Fits (useJournal system repaired use) := by
  have hSame : Fits system := by
    rw [Fits, hPhase]
    exact ⟨hQuiet, hMarker⟩
  -- A change of a file leaves the marker as it is.
  have hWritten : ∀ change : Change,
        change.Plain system.storage.durable → (∀ disk, (apply disk change).marker = disk.marker) →
          Fits (system.write change (.inUse repaired)) := by
    intro change hPlain hApart
    refine ⟨hQuiet.write hPlain, ?_⟩
    change (Buffered.visible apply (system.storage.write change)).marker = none
    rw [Buffered.visible_write, hApart]
    exact hMarker
  cases use with
  | create part =>
    simp only [useJournal]
    cases hMain : system.storage.read.files .main with
    | none => exact hSame
    | some generation =>
      cases system.storage.read.files part with
      | some => exact hSame
      | none =>
        apply hWritten
        · intro other
          rw [← hQuiet.read_whole.2]
          exact hQuiet.read_whole.1 .main generation hMain other
        · intro _
          rfl
  | unlink =>
    simp only [useJournal]
    split
    · exact hSame
    · exact hWritten _ True.intro (fun _ => rfl)
  | sync => exact ⟨quiet_sync (Or.inl hQuiet) hMarker, hMarker⟩
  | damaged =>
    simp only [useJournal]
    split
    · exact Or.inl hQuiet
    · exact ⟨hQuiet, hMarker⟩
  | failed | restoreCustody => exact Or.inl hQuiet

theorem fits_advance (hFits : Fits system) (hNumbered : Numbered system)
    (hSettled : ∀ repaired, system.phase = .look repaired →
      ∀ intent, .raise intent ∉ system.storage.pending) (use : Use) : Fits (advance system use) :=
    by
  unfold advance
  unfold Fits at hFits
  cases hPhase : system.phase with
  | off =>
    rw [hPhase] at hFits
    exact hFits
  | look repaired =>
    rw [hPhase] at hFits
    exact fits_look hFits (hSettled repaired hPhase) repaired
  | moving _ left =>
    rw [hPhase] at hFits
    rcases hFits with ⟨hMarked, hGone⟩
    cases left with
    | nil => exact ⟨hMarked, fun part => hGone part List.not_mem_nil⟩
    | cons part =>
      simp only
      cases hFile : system.storage.read.files part with
      | some => exact fits_moving hMarked hGone
      | none =>
        refine ⟨hMarked, ?_⟩
        intro other hOther
        by_cases hSame : other = part
        · rw [hSame]
          exact hFile
        · apply hGone
          rw [List.mem_cons, not_or]
          exact ⟨hSame, hOther⟩
  | syncMoves =>
    rw [hPhase] at hFits
    rcases hFits with ⟨hMarked, hGone⟩
    refine ⟨⟨?_, hGone, ?_⟩, rfl⟩
    · change system.storage.read.marker ≠ none
      rw [hMarked.read_marker]
      exact hMarked.marker
    · intro _ hChange
      cases hChange
  | retiring =>
    rw [hPhase] at hFits
    rcases hFits with ⟨hCleared, hPending⟩
    refine ⟨⟨hCleared.marker, hCleared.files, ?_⟩, ?_⟩
    · intro change hChange
      change change ∈ system.storage.pending ++ [.retire] at hChange
      rw [hPending, List.nil_append] at hChange
      exact List.mem_singleton.mp hChange
    · change (Buffered.visible apply (system.storage.write .retire)).marker = none
      rw [Buffered.visible_write]
      rfl
  | syncRetired =>
    rw [hPhase] at hFits
    rcases hFits with ⟨hCleared, hMarker⟩
    exact ⟨Or.inl (quiet_sync (Or.inr hCleared) hMarker), hMarker⟩
  | pruning =>
    rw [hPhase] at hFits
    exact ⟨quiet_sync hFits.1 hFits.2, rfl⟩
  | opening =>
    rw [hPhase] at hFits
    rcases hFits with ⟨hQuiet, hPending⟩
    have hMarker : system.storage.read.marker = none := by
      apply hQuiet.read_marker
      rw [hPending]
      intro _ hMem
      cases hMem
    simp only [openJournal]
    cases system.storage.read.files .main with
    | some => exact ⟨hQuiet, hMarker⟩
    | none =>
      refine ⟨hQuiet.write ?_, ?_⟩
      · intro _ hMoved
        exact absurd (hNumbered.durable.2.1 _ hMoved) (Nat.lt_irrefl _)
      · change (Buffered.visible apply (system.storage.write _)).marker = none
        rw [Buffered.visible_write]
        exact hMarker
  | inUse =>
    rw [hPhase] at hFits
    exact fits_useJournal hPhase hFits.1 hFits.2 use
  | damaged =>
    rw [hPhase] at hFits
    simp only [raiseIntent]
    cases system.storage.read.files .main with
    | none => exact Or.inl hFits.1
    | some => exact hFits.1.write True.intro
  | syncIntent =>
    rw [hPhase] at hFits
    exact mode_of_kept (Or.inl hFits) (List.Sublist.refl _)

/- Every step that is settled keeps the disk in one of the states of a repair. -/
theorem fits_serve
    {input : Input}
    (hFits : Fits system)
    (hNumbered : Numbered system)
    (hSettled : Settled (repairMachine.step system input)) :
    Fits (serve system input) := by
  cases input with
  | advance use => exact fits_advance hFits hNumbered hSettled use
  | kill => exact hFits.mode
  | powerCut keep =>
    rcases Buffered.cut_spec apply keep system.storage with ⟨_, hKept, hCut⟩
    change Mode (system.storage.cut apply keep)
    rw [hCut]
    exact mode_of_kept hFits.mode hKept

----
-- Repairs along a Run
----

/- Every file is of later days. -/
def Later (generation : Nat) (disk : Disk) : Prop :=
  ∀ part found, disk.files part = some found → generation < found

def Change.Later (generation : Nat) : Change → Prop
  | .create _ found => generation < found
  | _ => True

/- Every file, now or once it is durable, is of later days. -/
def Past (generation : Nat) (storage : Storage) : Prop :=
  Buffered.Holds (Later generation) (Change.Later generation) storage

variable {before after : System} {generation : Nat} {storage : Storage}

theorem Later.apply (disk : Disk) (change : Change) (hLater : Later generation disk)
    (hChange : change.Later generation) : Later generation (Repair.apply disk change) := by
  cases change with
  | create part made =>
    apply files_update hLater part
    intro _ hFound
    rw [← Option.some.inj hFound]
    exact hChange
  | unlink part | quarantine part => exact files_update hLater part (by simp)
  | raise | retire => exact hLater

theorem Past.touched (hTouched : Touched before after) (hPast : Past generation before.storage)
    (hLess : generation < before.generations) : Past generation after.storage := by
  apply hTouched.stored.holds hPast Later.apply
  intro change hOrigin
  cases change with
  | create =>
    rcases hOrigin with ⟨rfl, _⟩ | hMain
    · exact hLess
    · exact hPast.visible Later.apply .main _ hMain
  | _ => exact True.intro

variable (intent : Intent)

/- An intent that was durable is so still, or is done. -/
def Kept (system : System) : Prop := intent.generation < system.generations ∧
    (system.storage.durable.marker = some intent ∨ Past intent.generation system.storage)

theorem Kept.touched {intent : Intent} (hTouched : Touched before after)
    (hMode : Mode before.storage) (hKept : Kept intent before) : Kept intent after := by
  refine ⟨Nat.lt_of_lt_of_le hKept.1 hTouched.generations_le, ?_⟩
  rcases hKept.2 with hMarker | hPast
  · -- Only when all files are gone does the marker go.
    cases hTouched.stored with
    | kept hStorage =>
      rw [hStorage]
      exact Or.inl hMarker
    | wrote _ _ hStorage =>
      rw [hStorage]
      exact Or.inl hMarker
    | settled changes hSub hStorage =>
      rw [hStorage]
      rcases hMode with hQuiet | hMarked | hCleared
      · rw [hQuiet.marker] at hMarker
        cases hMarker
      · have hMoves : (changes.foldl apply before.storage.durable).marker =
            before.storage.durable.marker :=
          marker_of_quarantines (fun change hChange => hMarked.pending change (hSub.subset hChange))
        exact Or.inl (hMoves.trans hMarker)
      · have hFiles : (changes.foldl apply before.storage.durable).files =
            before.storage.durable.files :=
          files_of_retirements (fun change hChange => hCleared.pending change (hSub.subset hChange))
        refine Or.inr (Buffered.holds_of_settled fun part _ hFound => ?_)
        rw [hFiles, hCleared.files part] at hFound
        cases hFound
  · exact Or.inr (Past.touched hTouched hPast hKept.1)

def Intended (number : Nat) (disk : Disk) : Prop :=
  ∀ intent, disk.marker = some intent → number ≤ intent.number

def Change.Intended (number : Nat) : Change → Prop
  | .raise intent => number ≤ intent.number
  | _ => True

/- Every intent, in view or in the air, is of later days. -/
def Recent (number : Nat) (system : System) : Prop := number ≤ system.intents ∧
    Buffered.Holds (Intended number) (Change.Intended number) system.storage

theorem Intended.apply (disk : Disk) (change : Change) (hDisk : Intended number disk)
    (hChange : change.Intended number) : Intended number (Repair.apply disk change) := by
  cases change with
  | raise other =>
    intro _ hIntent
    rw [← Option.some.inj hIntent]
    exact hChange
  | retire =>
    intro _ hIntent
    cases hIntent
  | create | unlink | quarantine => exact hDisk

theorem Recent.touched (hTouched : Touched before after)
    (hRecent : Recent number before) : Recent number after := by
  refine ⟨Nat.le_trans hRecent.1 hTouched.intents_le, ?_⟩
  apply hTouched.stored.holds hRecent.2 Intended.apply
  intro change hOrigin
  cases change with
  | raise => exact Nat.le_trans hRecent.1 (Nat.le_of_eq hOrigin.1.symm)
  | _ => exact True.intro

----
-- Safety
----

abbrev RepairStep := Machine.Step System Input System

variable (step : RepairStep)

/- A step that opens the journal. -/
def Opens : Prop :=
  ∃ repaired use, step.before.phase = .opening repaired ∧ step.input = .advance use

/- A step that renames an intent into its place. -/
def Raises : Prop := ∃ use, step.before.phase = .damaged ∧ step.input = .advance use ∧
    step.output.storage = step.before.storage.write (.raise intent)

/- A step that moves a file away for an intent. -/
def MovesFor (part : Part) (generation : Nat) (step : RepairStep) : Prop :=
  ∃ repaired left use, step.before.phase = .moving repaired (part :: left) ∧
    step.input = .advance use ∧ step.before.storage.read.files part = some generation ∧
    step.before.storage.read.marker = some intent

theorem raises_number {intent : Intent} {system : System} {input : Input}
    (hRaises : Raises intent (repairMachine.step system input)) :
    intent.number = system.intents ∧ (serve system input).intents = system.intents + 1 := by
  rcases hRaises with ⟨use, hPhase, hInput, hOutput⟩
  rw [Machine.step_before] at hPhase hOutput
  rw [Machine.step_input] at hInput
  change (serve system input).storage = _ at hOutput
  subst hInput
  have hServe : serve system (.advance use) = raiseIntent system := by
    change advance system use = raiseIntent system
    unfold advance
    rw [hPhase]
  rw [hServe] at hOutput ⊢
  unfold raiseIntent at hOutput ⊢
  cases hMain : system.storage.read.files .main with
  | none =>
    rw [hMain] at hOutput
    have hLength := congrArg (fun storage => storage.pending.length) hOutput
    simp [Buffered.write] at hLength
  | some =>
    rw [hMain] at hOutput
    have hPending := congrArg Buffered.pending hOutput
    simp [System.write, Buffered.write] at hPending
    rw [← hPending]
    exact ⟨rfl, rfl⟩

variable {inputs : List Input}

/- The invariants of a run that meets the condition. -/
theorem run_sound
    (files : Part → Bool)
    (hSettled :
      ∀ step ∈ repairMachine.trace (initial files) inputs,
        Settled step) :
    ∀ step ∈ repairMachine.trace (initial files) inputs,
      (Fits step.before ∧ Numbered step.before) ∧
      ∃ input, step = repairMachine.step step.before input := by
  apply repairMachine.invariant_before (I := fun system => Fits system ∧ Numbered system)
    (P := Settled)
  · rintro system input ⟨hFits, hNumbered⟩ hStep
    exact ⟨fits_serve hFits hNumbered hStep, (touched_serve system input).numbered hNumbered⟩
  · refine ⟨?_, ?_⟩
    · left
      refine ⟨rfl, ?_, fun _ hMem => by cases hMem⟩
      intro _ _ _ _ hMem
      cases hMem
    · refine Buffered.holds_of_settled ⟨?_, ?_, ?_⟩
      · intro part generation hFound
        change (if files part then some 0 else none) = some generation at hFound
        split at hFound
        · rw [← Option.some.inj hFound]
          exact Nat.one_pos
        · cases hFound
      · intro _ hEntry
        cases hEntry
      · intro _ hIntent
        cases hIntent
  · exact hSettled

/- What was durable is kept or done before a later step. -/
theorem kept_before (files : Part → Bool)
    (hSettled : ∀ step ∈ repairMachine.trace (initial files) inputs, Settled step) {i k : Nat}
    {earlier step : RepairStep} (hLt : i < k)
    (hEarlier : (repairMachine.trace (initial files) inputs)[i]? = some earlier)
    (hStep : (repairMachine.trace (initial files) inputs)[k]? = some step) {intent : Intent}
    (hDurable : earlier.output.storage.durable.marker = some intent) :
    Kept intent step.before := by
  have hSound := run_sound files hSettled
  apply repairMachine.invariant_since hEarlier _ _ hLt hStep
  · rcases hSound earlier (List.mem_of_getElem? hEarlier) with ⟨⟨_, hNumbered⟩, input, hInput⟩
    have hAfter : Numbered earlier.output := by
      rw [hInput]
      exact (touched_serve _ input).numbered hNumbered
    exact ⟨hAfter.durable.2.2 intent hDurable, Or.inl hDurable⟩
  · intro _ between _ _ hBetween hKept
    rcases hSound between (List.mem_of_getElem? hBetween) with ⟨⟨hFits, _⟩, input, hInput⟩
    rw [hInput]
    exact Kept.touched (touched_serve _ input) hFits.mode hKept

/-
  In a run in which the marker is looked for only when it is durable, no journal is opened while a
  part of it has been moved away, none of the files of an intent that was durable remains at an
  opening, and no file is moved for an intent that was raised before an opening.
-/
theorem repair_is_crash_safe
    (files : Part → Bool)
    (inputs : List Input)
    (hSettled :
      ∀ step ∈ repairMachine.trace (initial files) inputs,
        Settled step) :
    (∀ (k : Nat) (step : RepairStep),
       (repairMachine.trace (initial files) inputs)[k]? = some step →
       Opens step →
       Whole step.before.storage.read ∧
       ∀ (i : Nat) (earlier : RepairStep) intent,
         i < k →
         (repairMachine.trace (initial files) inputs)[i]? =
           some earlier →
         earlier.output.storage.durable.marker = some intent →
         ∀ part generation,
           step.before.storage.read.files part = some generation →
           intent.generation < generation) ∧
    ∀ (i j k : Nat) (raising opening moving : RepairStep)
      (intent current : Intent) part generation,
      i < j →
      j < k →
      (repairMachine.trace (initial files) inputs)[i]? = some raising →
      (repairMachine.trace (initial files) inputs)[j]? = some opening →
      (repairMachine.trace (initial files) inputs)[k]? = some moving →
      Raises intent raising →
      Opens opening →
      MovesFor current part generation moving →
      current ≠ intent := by
  have hSound := run_sound files hSettled
  -- At an opening all is durable, and there is no marker.
  have hOpening : ∀ step ∈ repairMachine.trace (initial files) inputs, Opens step →
      Quiet step.before.storage ∧ step.before.storage.pending = [] := by
    rintro step hMem ⟨_, _, hPhase, _⟩
    have hFits := (hSound step hMem).1.1
    unfold Fits at hFits
    rw [hPhase] at hFits
    exact hFits
  have hTouched : ∀ step ∈ repairMachine.trace (initial files) inputs,
      Touched step.before step.output := by
    intro step hMem
    rcases (hSound step hMem).2 with ⟨input, hInput⟩
    rw [hInput]
    exact touched_serve _ input
  constructor
  · intro _ step hStep hOpens
    have hMem := List.mem_of_getElem? hStep
    rcases hOpening step hMem hOpens with ⟨hQuiet, _⟩
    refine ⟨hQuiet.read_whole.1, ?_⟩
    intro _ _ _ hLt hEarlier hDurable part found hFound
    have hKept := kept_before files hSettled hLt hEarlier hStep hDurable
    rcases hKept.2 with hMarker | hPast
    · rw [hQuiet.marker] at hMarker
      cases hMarker
    · exact hPast.visible Later.apply part found hFound
  · intro i j k raising opening moving intent current part generation hFirst hSecond hRaising hOpen
      hMoving hRaises hOpens hMoves hSame
    have hOpenMem := List.mem_of_getElem? hOpen
    rcases hOpening opening hOpenMem hOpens with ⟨hQuiet, hPending⟩
    -- Before the opening the number of the intent was given.
    have hGiven : intent.number < opening.before.intents := by
      apply repairMachine.invariant_since (I := fun system => intent.number < system.intents)
        hRaising _ _ hFirst hOpen
      · rcases (hSound raising (List.mem_of_getElem? hRaising)).2 with
          ⟨input, hInput⟩
        rw [hInput] at hRaises ⊢
        rcases raises_number hRaises with ⟨_, _⟩
        change intent.number < (serve raising.before input).intents
        omega
      · intro _ between _ _ hBetween hLess
        exact Nat.lt_of_lt_of_le hLess (hTouched between (List.mem_of_getElem? hBetween)).intents_le
    -- After it every marker has a later number.
    have hRecent : Recent opening.before.intents moving.before := by
      apply repairMachine.invariant_since hOpen _ _ hSecond hMoving
      · apply Recent.touched (hTouched opening hOpenMem)
        refine ⟨Nat.le_refl _, ?_, ?_⟩
        · intro _ hOther
          rw [hQuiet.marker] at hOther
          cases hOther
        · intro _ hOther
          rw [hPending] at hOther
          cases hOther
      · intro _ between _ _ hBetween hBefore
        exact Recent.touched (hTouched between (List.mem_of_getElem? hBetween)) hBefore
    rcases hMoves with ⟨_, _, _, _, _, _, hMarker⟩
    have hNumber := hRecent.2.visible Intended.apply current hMarker
    rw [hSame] at hNumber
    omega

/- The next operation, whichever it is. -/
def onward : Input := .advance .sync

/- A journal is found damaged, and its intent is raised. -/
def upToIntent : List Input := [onward, onward, onward, onward, .advance .damaged, onward]

/-
  The intent is durable, one file is moved, and the power cut loses the move. The next start
  finishes the repair.
-/
def lostMove : List Input :=
  upToIntent ++ [onward, onward, onward, .powerCut [false], onward, onward, onward, onward, onward,
      onward, onward, onward, onward, onward, onward]

def isRaise : Change → Bool
  | .raise _ => true
  | _ => false

def looksSettled : Bool :=
  match step.before.phase with
  | .look _ => step.before.storage.pending.all (!isRaise ·)
  | _ => true

theorem settled_of_looksSettled {step : RepairStep} (hLooks : looksSettled step) :
    Settled step := by
  intro _ hPhase _ hMem
  unfold looksSettled at hLooks
  rw [hPhase] at hLooks
  have hRaise := List.all_eq_true.mp hLooks _ hMem
  cases hRaise

/- A move that a power cut took back is made again before the journal is opened. -/
theorem lost_move_is_made_again :
    (∃ step,
       (repairMachine.trace (initial fun _ => true) lostMove)[20]? =
         some step ∧
       Opens step ∧
       step.before.storage.read.moved ≠ [] ∧
       Whole step.before.storage.read) ∧
    ∃ step : RepairStep,
      (repairMachine.trace (initial fun _ => true) lostMove)[6]? =
        some step ∧
      step.output.storage.durable.marker = some ⟨0, 0⟩ := by
  have hAll : (repairMachine.trace (initial fun _ => true) lostMove).all looksSettled = true := by
    decide +kernel
  have hSettled : ∀ step ∈ repairMachine.trace (initial fun _ => true) lostMove, Settled step :=
    fun step hMem => settled_of_looksSettled (List.all_eq_true.mp hAll step hMem)
  have hStep k (hInput : lostMove[k]? = some onward) :=
    repairMachine.getElem?_trace_of (s := initial fun _ => true) hInput
  have hOpens : Opens (repairMachine.step
        (repairMachine.final (initial fun _ => true) (lostMove.take 20)) onward) := by
    refine ⟨false, .sync, ?_, rfl⟩
    change (repairMachine.final (initial fun _ => true) (lostMove.take 20)).phase = .opening false
    decide +kernel
  have hMoved :
      (repairMachine.final (initial fun _ => true) (lostMove.take 20)).storage.read.moved ≠ [] := by
    decide +kernel
  have hSafe :=
    (repair_is_crash_safe (fun _ => true) lostMove hSettled).1 20 _ (hStep 20 rfl) hOpens
  refine ⟨⟨_, hStep 20 rfl, hOpens, hMoved, hSafe.1⟩, _, hStep 6 rfl, ?_⟩
  change (serve (repairMachine.final (initial fun _ => true)
    (lostMove.take 6)) onward).storage.durable.marker = some ⟨0, 0⟩
  decide +kernel

/-
  The process is killed before the intent is durable. The next start sees it and moves two files.
  The power cut loses the intent and the first move, and keeps the second.
-/
def lostIntent : List Input :=
  upToIntent ++ [.kill, onward, onward, onward, onward, .powerCut [false, false, true], onward,
      onward, onward, onward]

/- The original main file is then opened while its log is in quarantine. -/
theorem original_is_opened_without_its_wal :
    ∃ step,
      (repairMachine.trace (initial fun _ => true) lostIntent)[15]? =
        some step ∧
      Opens step ∧
      step.before.storage.read.files .main = some 0 ∧
      step.before.storage.read.files .wal = none ∧
      (.wal, 0) ∈ step.before.storage.read.moved ∧
      ¬ Whole step.before.storage.read := by
  have hInput : lostIntent[15]? = some onward := rfl
  have hStep := repairMachine.getElem?_trace_of (s := initial fun _ => true) hInput
  have hMain : (repairMachine.final (initial fun _ => true) (lostIntent.take 15)).storage.read.files
    .main = some 0 := by decide +kernel
  have hWal : (repairMachine.final (initial fun _ => true) (lostIntent.take 15)).storage.read.files
    .wal = none := by decide +kernel
  have hMoved : (.wal, 0) ∈ (repairMachine.final (initial fun _ => true)
      (lostIntent.take 15)).storage.read.moved := by decide +kernel
  refine ⟨_, hStep, ⟨false, .sync, ?_, rfl⟩, hMain, hWal, hMoved, ?_⟩
  · change (repairMachine.final (initial fun _ => true) (lostIntent.take 15)).phase = .opening false
    decide +kernel
  · intro hWhole
    exact hWhole .main 0 hMain .wal hMoved

end VonkForge.Repair
