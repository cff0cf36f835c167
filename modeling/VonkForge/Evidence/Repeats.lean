import Mathlib.Data.Int.Order.Basic
import Mathlib.Data.List.Flatten
import Mathlib.Data.List.Nodup
import Mathlib.Data.List.Perm.Basic
import Mathlib.Logic.Function.Basic
import Mathlib.Order.MinMax

/-
  Pruning command evidence is invisible (`evidence_repeats.py`).

  A clear hides every older failure of its command, so it may only go when no other operation still
  holds such a failure. That test looks at the other operations, which may be going as well. The
  latest clear either stays, or takes nothing with it that was hidden by it alone.

  Main declarations:
    * `commandEvents`
    * `shown_of_deleted`
    * `absorb_comm`
    * `pruning_is_invisible`
-/

----
-- Evidence and Its Owners
----

namespace VonkForge.Repeats

/- A command success is a clear, with no code. -/
structure RepeatedEvidence where
  nodeId : String
  subject : String
  code : Option String
  repeats : Nat
  firstAt : Int
  lastAt : Int
  detail : Option String
  observationSequence : Int
deriving DecidableEq

inductive Column where
  | absent
  | damaged
  | stored (value : List RepeatedEvidence)
deriving DecidableEq

structure AgentOperation where
  id : String
  nodeId : String
  kind : String
  repeatedEvidence : Column
deriving DecidableEq

variable (row : AgentOperation)

def binds (item : RepeatedEvidence) : Bool :=
  item.nodeId == row.nodeId && item.subject == row.kind && decide (0 < item.observationSequence)

def ownerEvidence : Option (List RepeatedEvidence) :=
  match row.repeatedEvidence with
  | .absent => some []
  | .damaged => none
  | .stored value => if value.all (binds row) then some value else none

----
-- The Events of Commands
----

structure CommandEvents where
  events : List (String × RepeatedEvidence)
  unreadable : List (String × String)
deriving DecidableEq

/- The query, in whatever order the store answers it. -/
def selected (nodeIds : List String) (subject : Option String) (row : AgentOperation) : Bool :=
  nodeIds.contains row.nodeId && row.repeatedEvidence != .absent && subject.all (· == row.kind)

def readRow (read : CommandEvents) (row : AgentOperation) : CommandEvents :=
  match ownerEvidence row with
  | none => { read with unreadable := (row.nodeId, row.kind) :: read.unreadable }
  | some evidence => { read with events := read.events ++ evidence.map (row.id, ·) }

def commandEvents (ops : List AgentOperation) (nodeIds : List String) (subject : Option String) :
    CommandEvents :=
  let read := (ops.filter (selected nodeIds subject)).foldl readRow ⟨[], []⟩
  { read with
    events := read.events.filter fun item =>
      !read.unreadable.contains (item.2.nodeId, item.2.subject) }

variable (events : List (String × RepeatedEvidence))

def lastClear : Int :=
  ((events.filter (·.2.code.isNone)).map (·.2.observationSequence)).max?.getD (-1)

def commandEvidenceNeeded (ops : List AgentOperation) (operation : AgentOperation) : Bool :=
  match ownerEvidence operation with
  | none => true
  | some [] => false
  | some own =>
    let read := commandEvents ops [operation.nodeId] (some operation.kind)
    if read.unreadable.contains (operation.nodeId, operation.kind) then true
    else
      let cleared := lastClear read.events
      if own.any fun event => event.code.isSome && decide (cleared < event.observationSequence) then
        true
      else
        (own.any fun event => event.code.isNone && event.observationSequence == cleared) &&
          read.events.any fun item =>
            item.1 != operation.id && item.2.code.isSome &&
              decide (item.2.observationSequence < cleared)

----
-- The Projection
----

variable (cleared : String × String → Int)

def clear (item : String × RepeatedEvidence) : String × String → Int :=
  match item.2.code with
  | some _ => cleared
  | none =>
    let key := (item.2.nodeId, item.2.subject)
    Function.update cleared key (max (cleared key) item.2.observationSequence)

def clearedBy : String × String → Int := events.foldl clear fun _ => -1

def absorb (previous : Option RepeatedEvidence) (event : RepeatedEvidence) : RepeatedEvidence :=
  match previous with
  | none => event
  | some previous =>
    { previous with
      repeats := previous.repeats + event.repeats
      firstAt := min previous.firstAt event.firstAt
      lastAt := max previous.lastAt event.lastAt
      detail :=
        if previous.observationSequence < event.observationSequence then event.detail
        else previous.detail
      observationSequence :=
        if previous.observationSequence < event.observationSequence then event.observationSequence
        else previous.observationSequence }

structure Key where
  nodeId : String
  subject : String
  code : String
deriving DecidableEq

variable (grouped : Key → Option RepeatedEvidence)

def group (item : String × RepeatedEvidence) : Key → Option RepeatedEvidence :=
  match item.2.code with
  | none => grouped
  | some code =>
    if item.2.observationSequence ≤ cleared (item.2.nodeId, item.2.subject) then grouped
    else
      let key := ⟨item.2.nodeId, item.2.subject, code⟩
      Function.update grouped key (some (absorb (grouped key) item.2))

/- The command part of `repeating_evidence`. -/
def commandSummaries (ops : List AgentOperation) (nodeIds : List String) :
    Key → Option RepeatedEvidence :=
  let events := (commandEvents ops nodeIds none).events
  events.foldl (group (clearedBy events)) fun _ => none

----
-- Readable Operations
----

def recorded : List RepeatedEvidence := (ownerEvidence row).getD []

def entries : List (String × RepeatedEvidence) := (recorded row).map (row.id, ·)

/- What the store holds when all of it can be read. -/
structure Sound (ops : List AgentOperation) : Prop where
  keyed : (ops.map AgentOperation.id).Nodup
  readable : ∀ row ∈ ops, (ownerEvidence row).isSome
  distinct : ((ops.flatMap recorded).map RepeatedEvidence.observationSequence).Nodup

variable {ops rows after : List AgentOperation} {row : AgentOperation} {event : RepeatedEvidence}
variable {nodeIds : List String} {nodeId subject : String}

theorem recorded_bound (hEvent : event ∈ recorded row) :
    event.nodeId = row.nodeId ∧ event.subject = row.kind ∧ 0 < event.observationSequence := by
  unfold recorded ownerEvidence at hEvent
  split at hEvent
  · exact absurd hEvent List.not_mem_nil
  · exact absurd hEvent List.not_mem_nil
  · split at hEvent
    · rename_i hAll
      simpa [binds, and_assoc] using List.all_eq_true.mp hAll event hEvent
    · exact absurd hEvent List.not_mem_nil

theorem foldl_readRow (hReadable : ∀ row ∈ ops, (ownerEvidence row).isSome) (read : CommandEvents) :
    ops.foldl readRow read = { read with events := read.events ++ ops.flatMap entries } := by
  induction ops generalizing read with
  | nil => simp
  | cons row _ ih =>
    rcases Option.isSome_iff_exists.mp (hReadable row List.mem_cons_self) with ⟨_, hRow⟩
    rw [List.foldl_cons, ih fun other hOther => hReadable other (List.mem_cons_of_mem row hOther)]
    simp [readRow, hRow, entries, recorded]

theorem commandEvents_eq (hSound : Sound ops) (nodeIds : List String) (subject : Option String) :
    commandEvents ops nodeIds subject =
    ⟨(ops.filter (selected nodeIds subject)).flatMap entries, []⟩ := by
  have hReadable : ∀ row ∈ ops.filter (selected nodeIds subject), (ownerEvidence row).isSome :=
    fun row hRow => hSound.readable row (List.mem_of_mem_filter hRow)
  simp [commandEvents, foldl_readRow hReadable]

theorem mem_commandEvents (hSound : Sound ops) (subject : Option String)
    (item : String × RepeatedEvidence) : item ∈ (commandEvents ops nodeIds subject).events ↔
    ∃ row ∈ ops, row.nodeId ∈ nodeIds ∧ subject.all (· == row.kind) ∧ item.1 = row.id ∧
    item.2 ∈ recorded row := by
  rw [commandEvents_eq hSound]
  simp only [List.mem_flatMap, List.mem_filter, selected, entries, List.mem_map, Bool.and_eq_true,
    List.contains_iff_mem, bne_iff_ne]
  constructor
  · rintro ⟨row, ⟨hRow, ⟨hNode, -⟩, hSubject⟩, _, hEvent, rfl⟩
    exact ⟨row, hRow, hNode, hSubject, rfl, hEvent⟩
  · rintro ⟨row, hRow, hNode, hSubject, hId, hEvent⟩
    have hStored : row.repeatedEvidence ≠ .absent := by
      intro hAbsent
      simp [recorded, ownerEvidence, hAbsent] at hEvent
    exact ⟨row, ⟨hRow, ⟨hNode, hStored⟩, hSubject⟩, item.2, hEvent, Prod.ext hId.symm rfl⟩

----
-- The Latest Clear
----

/- The sequences of the clears of a command on a node. -/
def Clears (ops : List AgentOperation) (nodeId subject : String) (sequence : Int) : Prop :=
  ∃ row ∈ ops, ∃ event ∈ recorded row, row.nodeId = nodeId ∧ row.kind = subject ∧
    event.code = none ∧ event.observationSequence = sequence

structure Latest (clears : Int → Prop) (latest : Int) : Prop where
  least : -1 ≤ latest
  above : ∀ sequence, clears sequence → sequence ≤ latest
  reached : latest = -1 ∨ clears latest

variable {latest other : Int}

theorem Latest.le {clears others : Int → Prop} (hLatest : Latest clears latest)
    (hOther : Latest others other) (hSub : ∀ sequence, clears sequence → others sequence) :
    latest ≤ other := by
  rcases hLatest.reached with hNone | hClears
  · rw [hNone]
    exact hOther.least
  · exact hOther.above latest (hSub latest hClears)

theorem Latest.eq {clears : Int → Prop} (hLatest : Latest clears latest)
    (hOther : Latest clears other) : latest = other :=
  le_antisymm (hLatest.le hOther fun _ => id) (hOther.le hLatest fun _ => id)

theorem lastClear_latest (hSound : Sound ops) (nodeId subject : String) :
    Latest (Clears ops nodeId subject)
    (lastClear (commandEvents ops [nodeId] (some subject)).events) := by
  have hMem : ∀ sequence,
      sequence ∈ (((commandEvents ops [nodeId] (some subject)).events.filter
        (·.2.code.isNone)).map (·.2.observationSequence)) ↔ Clears ops nodeId subject sequence := by
    intro _
    simp only [List.mem_map, List.mem_filter, mem_commandEvents hSound, Option.isNone_iff_eq_none]
    constructor
    · rintro ⟨item, ⟨⟨row, hRow, hNode, hSubject, -, hEvent⟩, hCode⟩, hSequence⟩
      refine ⟨row, hRow, item.2, hEvent, by simpa using hNode, ?_, hCode, hSequence⟩
      simpa using (Eq.symm (by simpa using hSubject : subject = row.kind))
    · rintro ⟨row, hRow, event, hEvent, hNode, hSubject, hCode, hSequence⟩
      exact ⟨(row.id, event),
        ⟨⟨row, hRow, by simp [hNode], by simp [hSubject], rfl, hEvent⟩, hCode⟩, hSequence⟩
  unfold lastClear
  cases hMax : ((((commandEvents ops [nodeId] (some subject)).events.filter
      (·.2.code.isNone)).map (·.2.observationSequence))).max? with
  | none =>
    rw [List.max?_eq_none_iff] at hMax
    rw [hMax] at hMem
    exact ⟨le_rfl, fun sequence hClears => absurd ((hMem sequence).mpr hClears) List.not_mem_nil,
      Or.inl rfl⟩
  | some latest =>
    rcases List.max?_eq_some_iff.mp hMax with ⟨hLatest, hAbove⟩
    have hClears := (hMem latest).mp hLatest
    refine ⟨?_, fun sequence hOther => hAbove sequence ((hMem sequence).mpr hOther), Or.inr hClears⟩
    rcases hClears with ⟨_, -, _, hEvent, -, -, -, rfl⟩
    have hPositive := (recorded_bound hEvent).2.2
    simp only [Option.getD_some]
    omega

theorem clear_apply (item : String × RepeatedEvidence)
    (key : String × String) : clear cleared item key =
      if item.2.code = none ∧ (item.2.nodeId, item.2.subject) = key then
        max (cleared key) item.2.observationSequence
      else cleared key := by
  unfold clear
  cases hCode : item.2.code with
  | some => simp
  | none =>
    by_cases hKey : (item.2.nodeId, item.2.subject) = key
    · simp [hKey]
    · simp [hKey, Function.update_of_ne (Ne.symm hKey)]

theorem foldl_clear_latest
    (cleared : String × String → Int) (key : String × String) (hLeast : -1 ≤ cleared key) :
    Latest (fun sequence => sequence = cleared key ∨
      ∃ item ∈ events, (item.2.nodeId, item.2.subject) = key ∧ item.2.code = none ∧
      item.2.observationSequence = sequence) (events.foldl clear cleared key) := by
  induction events generalizing cleared with
  | nil => exact ⟨hLeast, by simp, Or.inr (Or.inl rfl)⟩
  | cons item events ih =>
    rw [List.foldl_cons]
    have hGrown : cleared key ≤ clear cleared item key := by
      rw [clear_apply]
      split
      · exact le_max_left _ _
      · exact le_rfl
    have hRest := ih (clear cleared item) (hLeast.trans hGrown)
    refine ⟨hRest.least, ?_, ?_⟩
    · rintro _ (rfl | ⟨other, hOther, hKey, hCode, rfl⟩)
      · exact hGrown.trans (hRest.above _ (Or.inl rfl))
      · rcases List.mem_cons.mp hOther with rfl | hOther
        · refine le_trans ?_ (hRest.above _ (Or.inl rfl))
          rw [clear_apply, if_pos ⟨hCode, hKey⟩]
          exact le_max_right _ _
        · exact hRest.above _ (Or.inr ⟨other, hOther, hKey, hCode, rfl⟩)
    · rcases hRest.reached with hNone | hStep | ⟨other, hOther, hSame⟩
      · exact Or.inl hNone
      · refine Or.inr ?_
        rw [hStep, clear_apply]
        split
        · rename_i hHere
          rcases max_choice (cleared key) item.2.observationSequence with hMax | hMax
          · exact Or.inl hMax
          · exact Or.inr ⟨item, List.mem_cons_self, hHere.2, hHere.1, hMax.symm⟩
        · exact Or.inl rfl
      · exact Or.inr (Or.inr ⟨other, List.mem_cons_of_mem item hOther, hSame⟩)

theorem clearedBy_latest (hSound : Sound ops) (hNode : nodeId ∈ nodeIds) (subject : String) :
    Latest (Clears ops nodeId subject)
    (clearedBy (commandEvents ops nodeIds none).events (nodeId, subject)) := by
  have hLatest := foldl_clear_latest (commandEvents ops nodeIds none).events (fun _ => -1)
    (nodeId, subject) le_rfl
  refine ⟨hLatest.least, ?_, ?_⟩
  · rintro _ ⟨row, hRow, event, hEvent, rfl, rfl, hCode, rfl⟩
    have hBound := recorded_bound hEvent
    exact hLatest.above _ (Or.inr ⟨(row.id, event), (mem_commandEvents hSound none _).mpr
      ⟨row, hRow, hNode, rfl, rfl, hEvent⟩, Prod.ext hBound.1 hBound.2.1, hCode, rfl⟩)
  · rcases hLatest.reached with hNone | hNone | ⟨item, hItem, hKey, hCode, hSequence⟩
    · exact Or.inl hNone
    · exact Or.inl hNone
    · rcases (mem_commandEvents hSound none item).mp hItem with ⟨row, hRow, -, -, -, hEvent⟩
      have hBound := recorded_bound hEvent
      rw [hBound.1, hBound.2.1, Prod.mk.injEq] at hKey
      exact Or.inr ⟨row, hRow, item.2, hEvent, hKey.1, hKey.2, hCode, hSequence⟩

----
-- What Is Shown
----

/- The uncleared failures a key stands for. -/
def shows (key : Key) (item : String × RepeatedEvidence) : Bool :=
  item.2.code == some key.code && item.2.nodeId == key.nodeId && item.2.subject == key.subject &&
    decide (cleared (item.2.nodeId, item.2.subject) < item.2.observationSequence)

theorem group_apply
    (item : String × RepeatedEvidence) (key : Key) : group cleared grouped item key =
      if shows cleared key item then some (absorb (grouped key) item.2) else grouped key := by
  unfold group shows
  cases hCode : item.2.code with
  | none => simp
  | some code =>
    by_cases hHidden : item.2.observationSequence ≤ cleared (item.2.nodeId, item.2.subject)
    · simp [hHidden]
    · simp only [if_neg hHidden, not_le.mp hHidden, Function.update_apply]
      by_cases hKey : key = ⟨item.2.nodeId, item.2.subject, code⟩
      · simp [hKey]
      · rw [if_neg hKey, if_neg]
        intro hFields
        simp only [Bool.and_eq_true, beq_iff_eq, Option.some.injEq] at hFields
        cases key
        exact hKey (by simp [hFields.1.1.1, hFields.1.1.2, hFields.1.2])

theorem foldl_group (key : Key) :
    events.foldl (group cleared) grouped key = (events.filter (shows cleared key)).foldl
        (fun previous item => some (absorb previous item.2)) (grouped key) := by
  induction events generalizing grouped with
  | nil => rfl
  | cons _ _ ih =>
    rw [List.foldl_cons, ih, group_apply, List.filter_cons]
    split
    · rw [List.foldl_cons]
    · rfl

theorem commandSummaries_eq (ops : List AgentOperation) (nodeIds : List String) (key : Key) :
    commandSummaries ops nodeIds key = ((commandEvents ops nodeIds none).events.filter
        (shows (clearedBy (commandEvents ops nodeIds none).events) key)).foldl
      (fun previous item => some (absorb previous item.2)) none :=
  foldl_group _ _ _ key

----
-- Deleting
----

/- The operations without those of some identities. -/
def deleted (doomed : List String) (ops : List AgentOperation) : List AgentOperation :=
  ops.filter fun row => !doomed.contains row.id

theorem Sound.deleted (hSound : Sound ops) (doomed : List String) : Sound (deleted doomed ops) where
  keyed := hSound.keyed.sublist (List.filter_sublist.map _)
  readable := fun row hRow => hSound.readable row (List.mem_of_mem_filter hRow)
  distinct := hSound.distinct.sublist ((List.filter_sublist.flatMap _).map _)

theorem Sound.perm (hSound : Sound ops) (hPerm : ops.Perm rows) : Sound rows where
  keyed := (hPerm.map _).nodup_iff.mp hSound.keyed
  readable := fun row hRow => hSound.readable row (hPerm.mem_iff.mpr hRow)
  distinct := ((hPerm.flatMap_right _).map _).nodup_iff.mp hSound.distinct

theorem Sound.event_eq
    (hSound : Sound ops)
    {other : AgentOperation}
    {event another : RepeatedEvidence}
    (hRow : row ∈ ops)
    (hOther : other ∈ ops)
    (hEvent : event ∈ recorded row)
    (hAnother : another ∈ recorded other)
    (hSequence :
      event.observationSequence = another.observationSequence) :
    event = another :=
  List.inj_on_of_nodup_map hSound.distinct (List.mem_flatMap.mpr ⟨row, hRow, hEvent⟩)
    (List.mem_flatMap.mpr ⟨other, hOther, hAnother⟩) hSequence

/- What the test refuses to say of an operation it lets go. -/
structure Spare (ops : List AgentOperation) (row : AgentOperation) (cleared : Int) : Prop where
  settled : ∀ event ∈ recorded row, event.code.isSome → event.observationSequence ≤ cleared
  alone : (∃ event ∈ recorded row, event.code = none ∧ event.observationSequence = cleared) →
    ∀ other ∈ ops, other.nodeId = row.nodeId → other.kind = row.kind → other.id ≠ row.id →
    ∀ event ∈ recorded other, event.code.isSome → cleared ≤ event.observationSequence

theorem spare_of_unneeded (hSound : Sound ops) {cleared : Int}
    (hLatest : Latest (Clears ops row.nodeId row.kind) cleared)
    (hUnneeded : commandEvidenceNeeded ops row = false) : Spare ops row cleared := by
  have hCleared := (lastClear_latest hSound row.nodeId row.kind).eq hLatest
  unfold commandEvidenceNeeded at hUnneeded
  split at hUnneeded
  · cases hUnneeded
  · rename_i hOwn
    exact ⟨by simp [recorded, hOwn], by simp [recorded, hOwn]⟩
  · rename_i own _ hOwn
    have hRecorded : recorded row = own := by simp [recorded, hOwn]
    simp only [hCleared] at hUnneeded
    split at hUnneeded
    · cases hUnneeded
    · split at hUnneeded
      · cases hUnneeded
      · rename_i hSettled
        refine ⟨fun event hEvent hCode => ?_, ?_⟩
        · by_contra hAbove
          rw [hRecorded] at hEvent
          exact hSettled (List.any_eq_true.mpr ⟨event, hEvent, by simp [hCode, not_le.mp hAbove]⟩)
        · rintro ⟨event, hEvent, hCode, hSequence⟩
          intro other hOther hNode hKind hId failure hFailure hFailed
          rw [hRecorded] at hEvent
          have hClear : (own.any fun event => event.code.isNone && event.observationSequence ==
              cleared) := List.any_eq_true.mpr ⟨event, hEvent, by simp [hCode, hSequence]⟩
          rw [hClear, Bool.true_and, List.any_eq_false] at hUnneeded
          have hItem := hUnneeded (other.id, failure) ((mem_commandEvents hSound _ _).mpr
            ⟨other, hOther, by simp [hNode], by simp [hKind], rfl, hFailure⟩)
          simpa [hId, hFailed] using hItem

variable {doomed : List String}

/- A failure that stays is as open after as before. -/
theorem shown_of_deleted
    (hSound : Sound ops)
    (hDoomed :
      ∀ row ∈ ops,
        row.id ∈ doomed → commandEvidenceNeeded ops row = false)
    (hRow : row ∈ deleted doomed ops)
    (hEvent : event ∈ recorded row)
    (hFailed : event.code.isSome)
    {before now : Int}
    (hBefore : Latest (Clears ops row.nodeId row.kind) before)
    (hNow :
      Latest (Clears (deleted doomed ops) row.nodeId row.kind) now) :
    now < event.observationSequence ↔
      before < event.observationSequence := by
  have hMem : ∀ other, other ∈ deleted doomed ops ↔ other ∈ ops ∧ other.id ∉ doomed := by
    intro _
    simp [deleted]
  have hLe : now ≤ before := by
    refine hNow.le hBefore ?_
    rintro _ ⟨other, hOther, hRest⟩
    exact ⟨other, ((hMem other).mp hOther).1, hRest⟩
  refine ⟨fun hOpen => ?_, fun hOpen => lt_of_le_of_lt hLe hOpen⟩
  by_contra hHidden
  have hPositive := (recorded_bound hEvent).2.2
  have hClears : Clears ops row.nodeId row.kind before := by
    rcases hBefore.reached with _ | hClears
    · omega
    · exact hClears
  rcases hClears with ⟨other, hOther, clear, hClear, hNode, hKind, hCode, hSequence⟩
  by_cases hKept : other.id ∈ doomed
  · -- The clear went: its test saw this failure on another operation.
    have hRowOps := ((hMem row).mp hRow).1
    have hLatest : Latest (Clears ops other.nodeId other.kind) before := by
      rw [hNode, hKind]
      exact hBefore
    have hSpare := spare_of_unneeded hSound hLatest (hDoomed other hOther hKept)
    have hId : row.id ≠ other.id := fun hId => ((hMem row).mp hRow).2 (hId ▸ hKept)
    have hAbove := hSpare.alone ⟨clear, hClear, hCode, hSequence⟩ row hRowOps hNode.symm hKind.symm
      hId event hEvent hFailed
    have hSame := hSound.event_eq hRowOps hOther hEvent hClear (by omega)
    rw [hSame, hCode] at hFailed
    cases hFailed
  · have hStays := hNow.above before
      ⟨other, (hMem other).mpr ⟨hOther, hKept⟩, clear, hClear, hNode, hKind, hCode, hSequence⟩
    omega

theorem filter_flatMap_filter
    {α β : Type}
    {keep : α → Bool}
    {f : α → List β}
    {shown other : β → Bool}
    {items : List α}
    (hKept :
      ∀ item ∈ items,
        keep item → (f item).filter shown = (f item).filter other)
    (hGone :
      ∀ item ∈ items, keep item = false → (f item).filter other = []) :
    ((items.filter keep).flatMap f).filter shown =
      (items.flatMap f).filter other := by
  induction items with
  | nil => rfl
  | cons item _ ih =>
    have hRest := ih (fun another hMem => hKept another (List.mem_cons_of_mem item hMem))
      (fun another hMem => hGone another (List.mem_cons_of_mem item hMem))
    rw [List.filter_cons, List.flatMap_cons, List.filter_append]
    cases hKeep : keep item with
    | true =>
      rw [if_pos rfl, List.flatMap_cons, List.filter_append, hRest,
        hKept item List.mem_cons_self hKeep]
    | false => rw [if_neg (by simp), hRest, hGone item List.mem_cons_self hKeep, List.nil_append]

theorem commandSummaries_deleted (hSound : Sound ops)
    (hDoomed : ∀ row ∈ ops, row.id ∈ doomed → commandEvidenceNeeded ops row = false)
    (nodeIds : List String) :
    commandSummaries (deleted doomed ops) nodeIds = commandSummaries ops nodeIds := by
  funext key
  rw [commandSummaries_eq, commandSummaries_eq]
  congr 1
  generalize hNow : clearedBy (commandEvents (deleted doomed ops) nodeIds none).events = now
  generalize hBefore : clearedBy (commandEvents ops nodeIds none).events = before
  have hLatest : ∀ row : AgentOperation, row.nodeId ∈ nodeIds →
    Latest (Clears ops row.nodeId row.kind) (before (row.nodeId, row.kind)) :=
    fun row hNode => hBefore ▸ clearedBy_latest hSound hNode row.kind
  rw [commandEvents_eq hSound, commandEvents_eq (hSound.deleted doomed), deleted, List.filter_comm]
  refine filter_flatMap_filter ?_ ?_
  · intro row hSelected hStays
    rcases List.mem_filter.mp hSelected with ⟨hRow, hSelected⟩
    have hNode : row.nodeId ∈ nodeIds := by
      simp only [selected, Bool.and_eq_true, List.contains_iff_mem] at hSelected
      exact hSelected.1.1
    have hStill : row ∈ deleted doomed ops := List.mem_filter.mpr ⟨hRow, hStays⟩
    refine List.filter_congr fun item hItem => ?_
    rcases List.mem_map.mp hItem with ⟨event, hEvent, rfl⟩
    have hBound := recorded_bound hEvent
    unfold shows
    by_cases hCode : event.code = some key.code
    · have hOpen := shown_of_deleted hSound hDoomed hStill hEvent (by simp [hCode])
        (hLatest row hNode) (hNow ▸ clearedBy_latest (hSound.deleted doomed) hNode row.kind)
      simp only [hBound.1, hBound.2.1, hOpen]
    · rw [beq_false_of_ne hCode]
      rfl
  · intro row hSelected hGone
    rcases List.mem_filter.mp hSelected with ⟨hRow, hSelected⟩
    have hNode : row.nodeId ∈ nodeIds := by
      simp only [selected, Bool.and_eq_true, List.contains_iff_mem] at hSelected
      exact hSelected.1.1
    have hSpare := spare_of_unneeded hSound (hLatest row hNode)
      (hDoomed row hRow (by simpa using hGone))
    rw [List.filter_eq_nil_iff]
    intro _ hItem
    rcases List.mem_map.mp hItem with ⟨event, hEvent, rfl⟩
    have hBound := recorded_bound hEvent
    intro hShows
    simp only [shows, Bool.and_eq_true, beq_iff_eq, decide_eq_true_eq, hBound.1, hBound.2.1]
      at hShows
    have hSettled := hSpare.settled event hEvent (by simp [hShows.1.1.1])
    omega

----
-- The Order of Rows
----

/- Two pieces of evidence may be absorbed in either order. -/
theorem absorb_comm
    {first second : RepeatedEvidence}
    (hNode : first.nodeId = second.nodeId)
    (hSubject : first.subject = second.subject)
    (hCode : first.code = second.code)
    (hDistinct : first.observationSequence ≠ second.observationSequence)
    (previous : Option RepeatedEvidence) :
    absorb (some (absorb previous first)) second =
      absorb (some (absorb previous second)) first := by
  cases previous with
  | none =>
    simp only [absorb, RepeatedEvidence.mk.injEq]
    refine ⟨hNode, hSubject, hCode, Nat.add_comm _ _, min_comm _ _, max_comm _ _, ?_, ?_⟩
    all_goals grind
  | some =>
    simp only [absorb, RepeatedEvidence.mk.injEq, true_and]
    refine ⟨by omega, min_right_comm _ _ _, max_right_comm _ _ _, ?_, ?_⟩
    all_goals grind

theorem commandSummaries_perm (hSound : Sound ops) (hPerm : ops.Perm rows) (nodeIds : List String) :
    commandSummaries rows nodeIds = commandSummaries ops nodeIds := by
  funext key
  rw [commandSummaries_eq, commandSummaries_eq]
  have hEvents : (commandEvents ops nodeIds none).events.Perm
      (commandEvents rows nodeIds none).events := by
    rw [commandEvents_eq hSound, commandEvents_eq (hSound.perm hPerm)]
    exact (hPerm.filter _).flatMap_right _
  have hShows : ∀ item ∈ (commandEvents ops nodeIds none).events,
      shows (clearedBy (commandEvents ops nodeIds none).events) key item =
      shows (clearedBy (commandEvents rows nodeIds none).events) key item := by
    intro item hItem
    rcases (mem_commandEvents hSound none item).mp hItem with ⟨row, _, hNode, -, -, hEvent⟩
    have hBound := recorded_bound hEvent
    have hClears : Clears rows row.nodeId row.kind = Clears ops row.nodeId row.kind := by
      funext sequence
      simp [Clears, hPerm.mem_iff]
    have hLatest := clearedBy_latest (hSound.perm hPerm) hNode row.kind
    rw [hClears] at hLatest
    simp only [shows, hBound.1, hBound.2.1, (clearedBy_latest hSound hNode row.kind).eq hLatest]
  rw [List.filter_congr hShows]
  refine ((hEvents.filter _).foldl_eq' ?_ none).symm
  intro first hFirst second hSecond _
  rcases List.mem_filter.mp hFirst with ⟨hFirst, hFirstShown⟩
  rcases List.mem_filter.mp hSecond with ⟨hSecond, hSecondShown⟩
  simp only [shows, Bool.and_eq_true, beq_iff_eq] at hFirstShown hSecondShown
  by_cases hSame : first.2.observationSequence = second.2.observationSequence
  · rcases (mem_commandEvents hSound none first).mp hFirst with ⟨_, hRow, -, -, -, hEvent⟩
    rcases (mem_commandEvents hSound none second).mp hSecond with ⟨_, hOther, -, -, -, hAnother⟩
    rw [hSound.event_eq hRow hOther hEvent hAnother hSame]
  · rw [absorb_comm (hFirstShown.1.1.2.trans hSecondShown.1.1.2.symm)
      (hFirstShown.1.2.trans hSecondShown.1.2.symm)
      (hFirstShown.1.1.1.trans hSecondShown.1.1.1.symm) hSame]

----
-- Pruning
----

/- The tables that pruning makes of one: any set that the test lets go goes at once, and the test is
   then repeated; the store may answer with the rows in another order. -/
inductive Pruned (ops : List AgentOperation) : List AgentOperation → Prop where
  | untouched : Pruned ops ops
  | reordered {rows other : List AgentOperation} (hPruned : Pruned ops rows)
      (hPerm : rows.Perm other) : Pruned ops other
  | deleted {rows : List AgentOperation} (hPruned : Pruned ops rows) (doomed : List String)
      (hDoomed : ∀ row ∈ rows, row.id ∈ doomed → commandEvidenceNeeded rows row = false) :
      Pruned ops (deleted doomed rows)

theorem Pruned.sound (hSound : Sound ops) (hPruned : Pruned ops after) : Sound after := by
  induction hPruned with
  | untouched => exact hSound
  | reordered _ hPerm ih => exact ih.perm hPerm
  | deleted _ doomed _ ih => exact ih.deleted doomed

/- Whatever unneeded evidence is deleted, one by one or in sets, no summary shows it. -/
theorem pruning_is_invisible
    (hSound : Sound ops)
    (hPruned : Pruned ops after)
    (nodeIds : List String)
    (key : Key) :
    commandSummaries after nodeIds key =
      commandSummaries ops nodeIds key := by
  induction hPruned with
  | untouched => rfl
  | reordered hPruned hPerm ih => rw [commandSummaries_perm (hPruned.sound hSound) hPerm, ih]
  | deleted hPruned _ hDoomed ih => rw [commandSummaries_deleted (hPruned.sound hSound) hDoomed, ih]

/- A failure, then a clear elsewhere, then a new failure. -/
def exampleEvent (code : Option String) (sequence : Int) : RepeatedEvidence :=
  ⟨"node", "start", code, if code.isSome then 1 else 0, sequence, sequence, code, sequence⟩

def exampleOps : List AgentOperation :=
  [⟨"a", "node", "start", .stored [exampleEvent (some "x") 1]⟩,
    ⟨"b", "node", "start", .stored [exampleEvent none 2]⟩,
    ⟨"c", "node", "start", .stored [exampleEvent (some "x") 3]⟩]

/- The clear is needed as long as the failure it clears is stored, and may go after it. -/
theorem cleared_failure_goes_before_its_clear :
    commandEvidenceNeeded exampleOps
      ⟨"b", "node", "start", .stored [exampleEvent none 2]⟩ =
      true ∧
    commandSummaries (deleted ["b"] (deleted ["a"] exampleOps)) ["node"]
      ⟨"node", "start", "x"⟩ =
      commandSummaries exampleOps ["node"] ⟨"node", "start", "x"⟩ ∧
    commandSummaries exampleOps ["node"] ⟨"node", "start", "x"⟩ =
      some (exampleEvent (some "x") 3) := by
  refine ⟨by decide +kernel, ?_, by decide +kernel⟩
  exact pruning_is_invisible ⟨by decide +kernel, by decide +kernel, by decide +kernel⟩
    ((Pruned.untouched.deleted ["a"] (by decide +kernel)).deleted ["b"] (by decide +kernel))
    ["node"] ⟨"node", "start", "x"⟩

end VonkForge.Repeats
