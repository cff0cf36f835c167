import VonkForge.Foundations.Rotation

/-
  Due waits are examined fairly (`DueWaitBackstop.tick`).

  A pass looks at one row of one source after the other, for as long as its batch and its time last.
  The source and the row are taken in rotation, and both cursors move before a handler runs. So what
  a handler does has no part in the examination, and is left out.

  Main declarations:
    * `Pass.turn`
    * `Going.turn`
    * `turn_nearer`
    * `due_rows_are_examined`
-/

----
-- Passes
----

namespace VonkForge.DueWaits

open Rotation

variable {κ : Type} [LinearOrder κ]

/- What outlives a pass. -/
structure Backstop (κ : Type) where
  ownerCursor : Nat
  rowCursors : Nat → Option κ

structure Pass (κ : Type) extends Backstop κ where
  visited : Nat → List κ
  exhausted : Finset Nat
  examined : List (Nat × κ)

/- The due row after the cursor, or the first one. -/
def candidate (rows : Finset κ) (cursor : Option κ) : Option κ := (rotated cursor rows).head?

namespace Pass

variable (pass : Pass κ)

def exhaust (index : Nat) : Pass κ := { pass with exhausted := insert index pass.exhausted }

def examine (index : Nat) (key : κ) : Pass κ :=
  { pass with
    rowCursors := Function.update pass.rowCursors index (some key)
    visited := Function.update pass.visited index (pass.visited index ++ [key])
    examined := pass.examined ++ [(index, key)] }

/- One look at a source. A selection that fails has no row. -/
def look (rows : Finset κ) (index : Nat) (selects : Bool) : Pass κ :=
  match selects, candidate rows (pass.rowCursors index) with
  | true, some key =>
    if key ∈ pass.visited index then pass.exhaust index else pass.examine index key
  | _, _ => pass.exhaust index

/- One round of the loop. -/
def turn (due : List (Finset κ)) (pass : Pass κ) (selects : Bool) : Pass κ :=
  let index := pass.ownerCursor
  let moved := { pass with ownerCursor := (index + 1) % due.length }
  if index ∈ pass.exhausted then moved else moved.look (due.getD index ∅) index selects

/- The loop: each check of the clock that is in time, with what the selection after it does. -/
def run (due : List (Finset κ)) (limit : Nat) : List Bool → Pass κ → Pass κ
  | [], pass => pass
  | selects :: checks, pass =>
    if due = [] ∨ limit ≤ pass.examined.length then pass
    else if pass.ownerCursor ∈ pass.exhausted ∧ pass.exhausted.card = due.length then
      pass.turn due selects
    else run due limit checks (pass.turn due selects)

end Pass

def Backstop.begin (backstop : Backstop κ) : Pass κ :=
  { backstop with visited := fun _ => [], exhausted := ∅, examined := [] }

def tick (due : List (Finset κ)) (limit : Nat) (backstop : Backstop κ)
    (checks : List Bool) : Pass κ :=
  backstop.begin.run due limit checks

/- The rows that consecutive passes examine. -/
def ticks (due : List (Finset κ)) (limit : Nat) :
    Backstop κ → List (List Bool) → List (List (Nat × κ))
  | _, [] => []
  | backstop, checks :: later =>
    let pass := tick due limit backstop checks
    pass.examined :: ticks due limit pass.toBackstop later

----
-- No Row Twice
----

variable {due : List (Finset κ)} {limit : Nat} {pass : Pass κ}

structure Once (pass : Pass κ) : Prop where
  visited : ∀ index key, (index, key) ∈ pass.examined ↔ key ∈ pass.visited index
  nodup : pass.examined.Nodup

/- A turn of a pass examines a row that it has not seen. -/
theorem Once.turn
    (hOnce : Once pass)
    (selects : Bool) :
    Once (pass.turn due selects) := by
  unfold Pass.turn Pass.look
  dsimp only
  split
  · exact ⟨hOnce.visited, hOnce.nodup⟩
  · split
    · rename_i key _
      split
      · exact ⟨hOnce.visited, hOnce.nodup⟩
      · rename_i hNew
        constructor
        · intro index _
          by_cases hIndex : index = pass.ownerCursor
          · simp [Pass.examine, hIndex, hOnce.visited]
          · simp [Pass.examine, hIndex, hOnce.visited]
        · refine List.nodup_append.mpr ⟨hOnce.nodup, List.nodup_singleton _, ?_⟩
          rintro _ hEntry _ hLast rfl
          rw [List.mem_singleton.mp hLast] at hEntry
          exact hNew ((hOnce.visited _ _).mp hEntry)
    · exact ⟨hOnce.visited, hOnce.nodup⟩

theorem Once.run (hOnce : Once pass) (checks : List Bool) : Once (pass.run due limit checks) := by
  induction checks generalizing pass with
  | nil => exact hOnce
  | cons selects _ ih =>
    unfold Pass.run
    split_ifs
    · exact hOnce
    · exact hOnce.turn selects
    · exact ih (hOnce.turn selects)

omit [LinearOrder κ] in
theorem Once.begin (backstop : Backstop κ) : Once backstop.begin :=
  ⟨fun _ _ => by simp [Backstop.begin], List.nodup_nil⟩

----
-- The Rows of a Source
----

variable {rows : Finset κ} {index : Nat} {start : Option κ}

/- The rows visited came first in the rotation, and now come last. -/
structure Going (rows : Finset κ) (index : Nat) (start : Option κ) (pass : Pass κ) (rest : List κ) :
    Prop where
  begun : rotated start rows = pass.visited index ++ rest
  now : rotated (pass.rowCursors index) rows = rest ++ pass.visited index
  exhausted : index ∈ pass.exhausted → rest = []

theorem Going.all_visited (hGoing : Going rows index start pass []) {key : κ} (hKey : key ∈ rows) :
    key ∈ pass.visited index := by
  have hMem : key ∈ rotated start rows := mem_rotated.mpr hKey
  simpa [hGoing.begun] using hMem

variable {rest : List κ}

/- A source that has its turn examines its next row. -/
theorem Going.turn (hGoing : Going rows index start pass rest)
    (hDue : due[index]? = some rows) : (pass.ownerCursor ≠ index ∨ rest = []) ∧
    Going rows index start (pass.turn due true) rest ∨ ∃ key later, pass.ownerCursor = index ∧
    rest = key :: later ∧ Going rows index start (pass.turn due true) later := by
  have hRows : due.getD index ∅ = rows := by simp [hDue]
  by_cases hIndex : pass.ownerCursor = index
  · cases rest with
    | nil =>
      refine Or.inl ⟨Or.inr rfl, ?_⟩
      unfold Pass.turn Pass.look
      dsimp only
      split
      · exact ⟨hGoing.begun, hGoing.now, fun _ => rfl⟩
      · rw [hIndex, hRows]
        cases hKey : candidate rows (pass.rowCursors index) with
        | none => exact ⟨hGoing.begun, hGoing.now, fun _ => rfl⟩
        | some key =>
          have hSeen : key ∈ pass.visited index := by
            rw [candidate, hGoing.now] at hKey
            exact List.mem_of_mem_head? hKey
          dsimp only
          rw [if_pos hSeen]
          exact ⟨hGoing.begun, hGoing.now, fun _ => rfl⟩
    | cons key later =>
      refine Or.inr ⟨key, later, hIndex, rfl, ?_⟩
      have hOpen : index ∉ pass.exhausted := fun hDone => by cases hGoing.exhausted hDone
      have hNew : key ∉ pass.visited index := by
        have hNodup := rotated_nodup start rows
        rw [hGoing.begun] at hNodup
        exact fun hSeen => (List.nodup_append.mp hNodup).2.2 key hSeen key List.mem_cons_self rfl
      have hNext : candidate rows (pass.rowCursors index) = some key := by
        rw [candidate, hGoing.now]
        rfl
      have hTurn : pass.turn due true =
          ({ pass with ownerCursor := (index + 1) % due.length } : Pass κ).examine index key := by
        simp only [Pass.turn, Pass.look, hIndex, hRows, hNext, if_neg hOpen, if_neg hNew]
      have hRotated :
          rotated (pass.rowCursors index) rows = [key] ++ (later ++ pass.visited index) :=
        hGoing.now
      rw [hTurn]
      refine ⟨?_, ?_, fun hDone => absurd hDone hOpen⟩
      · simpa [Pass.examine] using hGoing.begun
      · simpa [Pass.examine] using rotated_next hRotated rfl
  · refine Or.inl ⟨Or.inl hIndex, ?_⟩
    have hOther : index ≠ pass.ownerCursor := Ne.symm hIndex
    unfold Pass.turn Pass.look
    dsimp only
    split_ifs with hDone
    · exact ⟨hGoing.begun, hGoing.now, hGoing.exhausted⟩
    · split
      · split_ifs
        · refine ⟨hGoing.begun, hGoing.now, fun hMem => hGoing.exhausted ?_⟩
          simpa [Pass.exhaust, hOther] using hMem
        · refine ⟨?_, ?_, hGoing.exhausted⟩
          · simpa [Pass.examine, hOther] using hGoing.begun
          · simpa [Pass.examine, hOther] using hGoing.now
      · refine ⟨hGoing.begun, hGoing.now, fun hMem => hGoing.exhausted ?_⟩
        simpa [Pass.exhaust, hOther] using hMem

----
-- The Way to a Row
----

/- The turns until a source has its turn. -/
def untilTurn (sources owner index : Nat) : Nat :=
  if owner ≤ index then index - owner else index + sources - owner

/- The turns until a row is examined, at most. -/
def toGo (due : List (Finset κ)) (rows : Finset κ) (index : Nat) (key : κ) (backstop : Backstop κ) :
    Nat :=
  ahead (backstop.rowCursors index) rows key * due.length +
    untilTurn due.length backstop.ownerCursor index

variable {sources owner : Nat}

theorem untilTurn_lt (hOwner : owner < sources) (hIndex : index < sources) :
    untilTurn sources owner index < sources := by
  unfold untilTurn
  split <;> omega

theorem untilTurn_next (hOwner : owner < sources) (hIndex : index < sources)
    (hOther : owner ≠ index) :
    untilTurn sources ((owner + 1) % sources) index + 1 = untilTurn sources owner index := by
  unfold untilTurn
  rcases Nat.lt_or_eq_of_le (Nat.succ_le_of_lt hOwner) with hInside | hEnd
  · rw [Nat.mod_eq_of_lt hInside]
    split_ifs <;> omega
  · rw [← hEnd, Nat.mod_self]
    split_ifs <;> omega

variable (selects : Bool)

theorem ownerCursor_turn :
    (pass.turn due selects).ownerCursor = (pass.ownerCursor + 1) % due.length := by
  unfold Pass.turn Pass.look
  dsimp only
  split
  · rfl
  · split
    · split <;> rfl
    · rfl

theorem rowCursors_turn (hOther : pass.ownerCursor ≠ index) :
    (pass.turn due selects).rowCursors index = pass.rowCursors index := by
  have hIndex : index ≠ pass.ownerCursor := Ne.symm hOther
  unfold Pass.turn Pass.look
  dsimp only
  split
  · rfl
  · split
    · split
      · rfl
      · simp [Pass.examine, hIndex]
    · rfl

variable {key : κ}

/- A turn that selects examines the row or comes nearer to it. -/
theorem turn_nearer
    (hGoing : Going rows index start pass rest)
    (hDue : due[index]? = some rows)
    (hOwner : pass.ownerCursor < due.length)
    (hKey : key ∈ rows) :
    key ∈ (pass.turn due true).visited index ∨
    toGo due rows index key (pass.turn due true).toBackstop <
      toGo due rows index key pass.toBackstop := by
  have hIndex := (List.getElem?_eq_some_iff.mp hDue).1
  have hBound := Nat.mod_lt (pass.ownerCursor + 1) (Nat.zero_lt_of_lt hOwner)
  by_cases hHere : pass.ownerCursor = index
  · rcases hGoing.turn hDue with ⟨hRest, hNext⟩ | ⟨first, later, -, rfl, hNext⟩
    · obtain rfl := hRest.resolve_left (not_not_intro hHere)
      exact Or.inl (hNext.all_visited hKey)
    · by_cases hFirst : key ∈ (pass.turn due true).visited index
      · exact Or.inl hFirst
      · right
        have hPage :
            rotated (pass.rowCursors index) rows = [first] ++ (later ++ pass.visited index) :=
          hGoing.now
        have hVisited : (pass.turn due true).visited index = pass.visited index ++ [first] := by
          have hBegun := hNext.begun
          rw [hGoing.begun, List.append_cons] at hBegun
          exact (List.append_cancel_right hBegun).symm
        have hAway : key ∉ [first] := by
          intro hMem
          exact hFirst (by simp [hVisited, List.mem_singleton.mp hMem])
        have hMoved : rotated (some first) rows = (later ++ pass.visited index) ++ [first] :=
          rotated_next hPage rfl
        have hCursor : ahead ((pass.turn due true).rowCursors index) rows key =
            ahead (some first) rows key := by
          rw [ahead, ahead, hNext.now, hMoved, hVisited, List.append_assoc]
        have hNearer : ahead (some first) rows key + 1 = ahead (pass.rowCursors index) rows key :=
          ahead_next hPage rfl hKey hAway
        have hTurn := untilTurn_lt hBound hIndex
        rw [toGo, toGo, ownerCursor_turn, hCursor, ← hNearer, Nat.succ_mul]
        omega
  · right
    have hTurn := untilTurn_next hOwner hIndex hHere
    rw [toGo, toGo, ownerCursor_turn, rowCursors_turn true hHere]
    omega

theorem turn_going (hGoing : Going rows index start pass rest)
    (hDue : due[index]? = some rows) :
    ∃ later, Going rows index start (pass.turn due true) later := by
  rcases hGoing.turn hDue with ⟨-, hNext⟩ | ⟨_, later, -, -, hNext⟩
  · exact ⟨rest, hNext⟩
  · exact ⟨later, hNext⟩

/- Rows that are visited stay visited. -/
theorem visited_turn (hKey : key ∈ pass.visited index) :
    key ∈ (pass.turn due selects).visited index := by
  unfold Pass.turn Pass.look
  dsimp only
  split
  · exact hKey
  · split
    · split
      · exact hKey
      · by_cases hIndex : index = pass.ownerCursor
        · subst hIndex
          simp [Pass.examine, hKey]
        · simpa [Pass.examine, hIndex] using hKey
    · exact hKey

theorem visited_run (checks : List Bool) (hKey : key ∈ pass.visited index) :
    key ∈ (pass.run due limit checks).visited index := by
  induction checks generalizing pass with
  | nil => exact hKey
  | cons selects _ ih =>
    unfold Pass.run
    split_ifs
    · exact hKey
    · exact visited_turn selects hKey
    · exact ih (visited_turn selects hKey)

variable {checks : List Bool}

/- The rest of a pass leads no row away. -/
theorem run_nearer (limit : Nat) (hSelects : ∀ selects ∈ checks, selects)
    (hGoing : Going rows index start pass rest) (hDue : due[index]? = some rows)
    (hOwner : pass.ownerCursor < due.length) (hKey : key ∈ rows) :
    (pass.run due limit checks).ownerCursor < due.length ∧
      (key ∈ (pass.run due limit checks).visited index ∨
        toGo due rows index key (pass.run due limit checks).toBackstop ≤
          toGo due rows index key pass.toBackstop) := by
  induction checks generalizing pass rest with
  | nil => exact ⟨hOwner, Or.inr le_rfl⟩
  | cons selects checks ih =>
    obtain rfl := hSelects selects List.mem_cons_self
    have hNext : (pass.turn due true).ownerCursor < due.length := by
      rw [ownerCursor_turn]
      exact Nat.mod_lt _ (Nat.zero_lt_of_lt hOwner)
    have hNearer := turn_nearer hGoing hDue hOwner hKey
    unfold Pass.run
    split_ifs
    · exact ⟨hOwner, Or.inr le_rfl⟩
    · exact ⟨hNext, hNearer.imp id le_of_lt⟩
    · rcases turn_going hGoing hDue with ⟨_, hLater⟩
      have hOthers := fun other hOther => hSelects other (List.mem_cons_of_mem _ hOther)
      have hRest := ih hOthers hLater hNext
      refine ⟨hRest.1, ?_⟩
      rcases hNearer with hSeen | hNearer
      · exact Or.inl (visited_run checks hSeen)
      · exact hRest.2.imp id fun hLe => hLe.trans hNearer.le

----
-- Passes on End
----

theorem tick_nearer
    (hLimit : 1 ≤ limit)
    (hSome : checks ≠ [])
    (hSelects : ∀ selects ∈ checks, selects)
    {backstop : Backstop κ}
    (hDue : due[index]? = some rows)
    (hOwner : backstop.ownerCursor < due.length)
    (hKey : key ∈ rows) :
    (tick due limit backstop checks).ownerCursor < due.length ∧
    ((index, key) ∈ (tick due limit backstop checks).examined ∨
     toGo
       due rows index key (tick due limit backstop checks).toBackstop <
       toGo due rows index key backstop) := by
  cases checks with
  | nil => exact absurd rfl hSome
  | cons selects checks =>
    obtain rfl := hSelects selects List.mem_cons_self
    have hGoing : Going rows index (backstop.rowCursors index) backstop.begin
      (rotated (backstop.rowCursors index) rows) :=
      ⟨rfl, by simp [Backstop.begin], by simp [Backstop.begin]⟩
    have hNext : (backstop.begin.turn due true).ownerCursor < due.length := by
      rw [ownerCursor_turn]
      exact Nat.mod_lt _ (Nat.zero_lt_of_lt hOwner)
    have hRun : tick due limit backstop (true :: checks) =
        (backstop.begin.turn due true).run due limit checks := by
      have hSources : due ≠ [] := List.ne_nil_of_length_pos (Nat.zero_lt_of_lt hOwner)
      rw [tick, Pass.run, if_neg, if_neg]
      · simp [Backstop.begin]
      · simpa [Backstop.begin, hSources] using Nat.ne_of_gt hLimit
    have hOnce : Once (tick due limit backstop (true :: checks)) := (Once.begin backstop).run _
    rw [hOnce.visited, hRun]
    rcases turn_going hGoing hDue with ⟨_, hLater⟩
    have hChecks : ∀ selects ∈ checks, selects :=
      fun other hOther => hSelects other (List.mem_cons_of_mem _ hOther)
    have hRest := run_nearer limit hChecks hLater hDue hNext hKey
    refine ⟨hRest.1, ?_⟩
    rcases turn_nearer hGoing hDue hOwner hKey with hSeen | hNearer
    · exact Or.inl (visited_run checks hSeen)
    · exact hRest.2.imp id fun hLe => hLe.trans_lt hNearer

/-
  No pass looks at a row twice. Where every check selects, each due row is examined within as many
  passes as there are owners, times the rows of its owner.
-/
theorem due_rows_are_examined
    (due : List (Finset κ))
    {limit : Nat}
    (hLimit : 1 ≤ limit)
    (backstop : Backstop κ)
    (hOwner : backstop.ownerCursor < due.length)
    (passes : List (List Bool)) :
    (∀ examined ∈ ticks due limit backstop passes, examined.Nodup) ∧
    ((∀ checks ∈ passes,
        checks ≠ [] ∧ ∀ selects ∈ checks, selects = true) →
     ∀ index rows,
       due[index]? = some rows →
       due.length * rows.card ≤ passes.length →
       ∀ key ∈ rows,
         ∃ examined ∈ ticks due limit backstop passes,
           (index, key) ∈ examined) := by
  constructor
  · clear hOwner
    induction passes generalizing backstop with
    | nil => simp [ticks]
    | cons checks _ ih =>
      refine List.forall_mem_cons.mpr ⟨?_, ih _⟩
      exact ((Once.begin backstop).run checks).nodup
  · intro hChecks index rows hDue hEnough key hKey
    have hAhead : ahead (backstop.rowCursors index) rows key < rows.card := ahead_lt hKey
    have hTurn := untilTurn_lt hOwner (List.getElem?_eq_some_iff.mp hDue).1
    have hToGo : toGo due rows index key backstop < passes.length := by
      rw [toGo]
      nlinarith
    clear hEnough hAhead hTurn
    induction passes generalizing backstop with
    | nil => exact absurd hToGo (Nat.not_lt_zero _)
    | cons checks _ ih =>
      have hHere := hChecks checks List.mem_cons_self
      rcases tick_nearer hLimit hHere.1 hHere.2 hDue hOwner hKey with ⟨hNext, hSeen | _⟩
      · exact ⟨_, List.mem_cons_self, hSeen⟩
      · rw [List.length_cons] at hToGo
        rcases ih _ hNext (fun other hOther => hChecks other (List.mem_cons_of_mem _ hOther))
          (by omega) with ⟨examined, hMem, hSeen⟩
        exact ⟨examined, List.mem_cons_of_mem _ hMem, hSeen⟩

/- Two sources, with time for one row in every pass. -/
theorem four_short_passes :
    ∃ examined ∈ ticks [({1, 2} : Finset Nat), {7}] 16
      ⟨0, fun _ => none⟩ (List.replicate 4 [true]),
      (0, 2) ∈ examined :=
  (due_rows_are_examined [({1, 2} : Finset Nat), {7}] (by decide : 1 ≤ 16) ⟨0, fun _ => none⟩
    (by decide) (List.replicate 4 [true])).2 (by decide) 0 {1, 2} rfl (by decide) 2 (by decide)

end VonkForge.DueWaits
