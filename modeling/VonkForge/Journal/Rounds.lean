import VonkForge.Journal.Receipts

/-
  The rounds of delivery and of observation (`vonk-agent/src/state.rs`).

  A call of either kind selects one row past its cursor. The delivery cursor moves before the
  columns of the row are read and starts over at the end, so a damaged row takes its turn like any
  other. The observation cursor moves only once the columns were read: it stays in front of a row
  whose columns are no text.

  Main declarations:
    * `Entry.Damaged`
    * `due`
    * `deliveries_go_round`
    * `observations_go_round_iff`
-/

----
-- Rounds of Delivery
----

namespace VonkForge.Journal

open Fallible

variable {P D U E : Type} {wire : Wire P D U E} {system later : System} {handle : Nat}
variable {input : Input P D U E}

/- The call asks this handle for the next receipt. -/
def Input.Asks (handle : Nat) (input : Input P D U E) : Prop :=
  input.handle = handle ∧ ∃ saved, input.call = .nextDeliveryResult saved

/- The row a call of the handle selects. -/
def offeredRow (handle : Nat) (step : Machine.Step System (Input P D U E) (Served P D U)) :
    Option Entry :=
  nextDelivery step.before.database (step.before.handles handle).deliveryCursor

/- The fence and the operation of a row can be read. -/
def Entry.Names (wire : Wire P D U E) (entry : Entry)
    (operation : AgentOperation) (fence : Uuid) : Prop :=
  entry.fence.read.bind wire.parseFence = some fence ∧
    entry.operation.read.bind AgentOperation.parse = some operation

/- No trusted result of the fence is read from its bytes. -/
def Entry.Damaged (wire : Wire P D U E) (entry : Entry)
    (operation : AgentOperation) (fence : Uuid) : Prop :=
  ∀ result, (bounded entry.receipt).bind wire.parseResult = some result → result.fence = fence →
    wire.validFor result operation = false

theorem delivery_of_damaged {entry : Entry} {operation : AgentOperation} {fence : Uuid}
    (hNames : entry.Names wire operation fence) (hDamaged : entry.Damaged wire operation fence) :
    delivery wire entry = some ⟨operation, wire.uncertainReceipt operation fence,
      entry.acknowledged⟩ := by
  rcases Option.bind_eq_some_iff.mp hNames.1 with ⟨_, hText, hFence⟩
  rcases Option.bind_eq_some_iff.mp hNames.2 with ⟨_, hWord, hOperation⟩
  have hRead : readReceipt wire (bounded entry.receipt) operation fence =
      wire.uncertainReceipt operation fence := by
    unfold readReceipt
    cases hResult : (bounded entry.receipt).bind wire.parseResult with
    | none => rfl
    | some result =>
      have hNot : ¬ (result.fence == fence && wire.validFor result operation) := by
        intro hBoth
        rw [Bool.and_eq_true, beq_iff_eq] at hBoth
        have hInvalid := hDamaged result hResult hBoth.1
        rw [hBoth.2] at hInvalid
        cases hInvalid
      simp [Option.filter, hNot]
  simp [delivery, hText, hWord, hOperation, hFence, hRead]

/- A call over storage that does not answer does nothing. -/
theorem serve_unanswered (hCustody : (system.handles handle).durableCustody)
    (hAsks : input.Asks handle) (hAway : input.available = false) :
    (serve wire system input).system = system := by
  rcases hAsks with ⟨rfl, _, hCall⟩
  simp [serve, hCall, nextDeliveryResult, hCustody, reach, require, hAway, bind, Except.bind]

theorem eq_poll (hAsks : input.Asks handle) (hHere : input.available) :
    ∃ saved, input = poll handle saved := by
  cases input with
  | mk _ available =>
    rcases hAsks with ⟨rfl, saved, rfl⟩
    obtain rfl : available = true := hHere
    exact ⟨saved, rfl⟩

/- What a call does to the cursor of its handle. -/
theorem serve_asks (wire : Wire P D U E) {cursor : Int}
    (hPolled : Polled handle cursor system later)
    (hCustody : (system.handles handle).durableCustody) (hAsks : input.Asks handle) :
    Polled handle
      (if input.available then Cursor.turn Entry.rowid (pending system.database) cursor
      else cursor)
      system (serve wire later input).system := by
  have hStill := hPolled.custody.trans hCustody
  cases hHere : input.available with
  | false =>
    rw [serve_unanswered hStill hAsks hHere]
    exact hPolled
  | true =>
    obtain ⟨saved, rfl⟩ := eq_poll hAsks hHere
    have hTurn := (serve_poll wire saved hStill).1
    rw [hPolled.pending, hPolled.cursor] at hTurn
    exact hPolled.trans hTurn

/- The states the calls of one handle lead to. -/
def Within (handle : Nat) (system later : System) : Prop :=
  ∃ cursor, Polled handle cursor system later

theorem Within.served (hWithin : Within handle system later)
    (hCustody : (system.handles handle).durableCustody) (hAsks : input.Asks handle) :
    Within handle system (serve wire later input).system ∧
      ((serve wire later input).system.handles handle).deliveryCursor =
        if input.available then
          Cursor.turn Entry.rowid (pending system.database) (later.handles handle).deliveryCursor
        else (later.handles handle).deliveryCursor := by
  rcases hWithin with ⟨_, hPolled⟩
  have hServed := serve_asks wire hPolled hCustody hAsks
  refine ⟨⟨_, hServed⟩, ?_⟩
  rw [hServed.cursor, hPolled.cursor]

/-
  Counting only the calls the storage answers, as many calls as there are rows and one more select
  each row once, in the order of a circle, and once no row.
-/
theorem deliveries_go_round
    (wire : Wire P D U E)
    (system : System)
    (handle : Nat)
    (hCustody : (system.handles handle).durableCustody = true)
    (hPositive : ∀ entry ∈ pending system.database, 0 < entry.rowid)
    (inputs : List (Input P D U E))
    (hAsks : ∀ input ∈ inputs, input.Asks handle)
    (hCount :
      inputs.countP Input.available =
        (pending system.database).length + 1) :
    (∃ k ≤ (pending system.database).length,
       (((machine wire).trace system inputs).filter fun step =>
          step.input.available).map
         (offeredRow handle) =
         ((pending system.database).map some ++ [none]).rotate k) ∧
    (∀ step ∈ (machine wire).trace system inputs,
       step.input.available = true →
       step.output.reply =
         .ok
           (.delivery
              ((offeredRow handle step).bind (delivery wire)))) ∧
    ∀ entry ∈ pending system.database,
      ∀ operation fence,
        entry.Names wire operation fence →
        entry.Damaged wire operation fence →
        ∃ offered,
          delivery wire entry = some offered ∧
          offered.operation = operation ∧
          offered.result.fence = fence ∧
          offered.result.result = .unknown wire.receiptUnavailable := by
  have hStart : Within handle system system := ⟨_, rfl, rfl, rfl⟩
  have hReached := (machine wire).invariant_before (I := Within handle system)
    (P := fun step => step.input.Asks handle)
    (fun later input hLater hAsk => (hLater.served hCustody hAsk).1) hStart
    (fun step hStep => hAsks _ ((machine wire).input_mem_of_mem_trace hStep))
  have hRow : ∀ step ∈ (machine wire).trace system inputs,
        offeredRow handle step = Cursor.next Entry.rowid (pending system.database)
            (step.before.handles handle).deliveryCursor := by
    intro step hStep
    rcases (hReached step hStep).1 with ⟨_, hPolled⟩
    rw [offeredRow, nextDelivery_eq, hPolled.pending]
  refine ⟨?_, ?_, ?_⟩
  · have hViews := Cursor.views_of_trace (M := machine wire) (I := Within handle system)
      (fun later => (later.handles handle).deliveryCursor)
      (Cursor.turn Entry.rowid (pending system.database)) Input.available
      (fun later input hInput hLater => hLater.served hCustody (hAsks input hInput)) hStart
    have hRound := Cursor.turns_rotate (pending_ordered system.database) hPositive
      (system.handles handle).deliveryCursor
    refine ⟨_, Cursor.passed_le _ _ _, Eq.trans ?_ hRound⟩
    rw [hCount] at hViews
    have hTaken := congrArg (List.map (Cursor.next Entry.rowid (pending system.database))) hViews
    rw [List.map_map, List.map_map] at hTaken
    refine Eq.trans (List.map_congr_left ?_) hTaken
    intro step hStep
    exact hRow step (List.mem_of_mem_filter hStep)
  · intro step hStep hHere
    rcases hReached step hStep with ⟨⟨_, hPolled⟩, _, hEq⟩
    have hOutput : step.output = serve wire step.before step.input := by
      rw [hEq]
      rfl
    have hAsk := hAsks _ ((machine wire).input_mem_of_mem_trace hStep)
    obtain ⟨saved, hPoll⟩ := eq_poll hAsk hHere
    have hTurn := (serve_poll wire saved (hPolled.custody.trans hCustody)).2
    rw [← hPoll, hPolled.pending] at hTurn
    rw [hOutput, hRow step hStep]
    exact hTurn
  · intro _ _ _ _ hNames hDamaged
    exact ⟨_, delivery_of_damaged hNames hDamaged, rfl, rfl, rfl⟩

/- Two rows whose bytes are no receipts, one without a fence. -/
def damagedSpool : System where
  database :=
    { operations :=
        { entries :=
            [{ rowid := 3
               fence := .utf8 "f"
               operation := .utf8 "recipe.start"
               deadline := .damaged [255]
               claim := none
               receipt := some [9] },
              { rowid := 8, fence := .damaged [255], operation := .utf8 "recipe.start",
                deadline := .utf8 "", claim := none, receipt := some [0] }]
          unique := by decide
          ordered := by decide } }
  handles := fun _ => { nodeId := "node", deliveryCursor := 5 }

/- A call the storage does not answer is not counted. -/
def askedFour : List (Input Unit Bytes Unit Bytes) :=
  [poll 0 true, { poll 0 true with available := false }, poll 0 false, poll 0 true]

/- Rows that cannot be read take their turns like any other. -/
theorem damaged_rows_take_turns :
    ∃ k ≤ 2,
      (((machine smallWire).trace damagedSpool askedFour).filter fun
         step => step.input.available).map
        (offeredRow 0) =
        ((pending damagedSpool.database).map some ++ [none]).rotate
          k := by
  refine (deliveries_go_round smallWire damagedSpool 0 rfl ?_ askedFour ?_ rfl).1
  · decide
  · intro _ hInput
    fin_cases hInput
    all_goals exact ⟨rfl, _, rfl⟩

----
-- Rounds of Observation
----

/- The rows that are due for observation, in order. -/
def due (wire : Wire P D U E) (database : Database) : List Entry :=
  database.operations.entries.filter (observable wire database)

/- The columns that are read before the cursor moves. -/
def Entry.readable (entry : Entry) : Bool :=
  entry.fence.read.isSome && entry.operation.read.isSome && entry.deadline.read.isSome

/- The cursor after a call. -/
def observed (wire : Wire P D U E) (database : Database) (cursor : Int) : Int :=
  match nextObservation wire database cursor with
  | none => cursor
  | some entry => if entry.readable then entry.rowid else cursor

/- The row a call of the handle selects. -/
def observedRow (wire : Wire P D U E) (handle : Nat)
    (step : Machine.Step System (Input P D U E) (Served P D U)) : Option Entry :=
  nextObservation wire step.before.database (step.before.handles handle).observationCursor

/- A handle looks for the next claim to observe. -/
def look (handle : Nat) : Input P D U E :=
  { handle := handle, available := true, call := .observationClaims }

/- The handle, with its observation cursor at this place. -/
def observingFrom (system : System) (handle : Nat) (cursor : Int) : System :=
  withHandle system handle
    { system.handles handle with observationCursor := cursor }

section

variable (wire : Wire P D U E)

/- One call over storage that answers. -/
theorem serve_look
    (hCustody : (system.handles handle).durableCustody) :
    (serve wire system (look handle)).system = observingFrom system handle
        (observed wire system.database (system.handles handle).observationCursor) := by
  have hHandle : (observationClaims wire (system.handles handle) true system.database).1 =
        { system.handles handle with
          observationCursor :=
            observed wire system.database (system.handles handle).observationCursor } := by
    have hReach : reach (system.handles handle) true = .ok () := by simp [reach, require, hCustody]
    unfold observationClaims observed
    rw [hReach]
    dsimp only
    cases nextObservation wire system.database (system.handles handle).observationCursor with
    | none => rfl
    | some entry =>
      dsimp only
      unfold Entry.readable
      cases entry.fence.read with
      | none => rfl
      | some =>
        cases entry.operation.read with
        | none => rfl
        | some =>
          cases entry.deadline.read with
          | none | some => rfl
  rw [observingFrom, ← hHandle]
  rfl

/- The rows that calls of one handle select. -/
theorem observed_rows
    (hCustody : (system.handles handle).durableCustody) (cursor : Int) (n : Nat) :
    ((machine wire).trace (observingFrom system handle cursor)
        (List.replicate n (look handle))).map (observedRow wire handle) =
      (List.range n).map fun i =>
        nextObservation wire system.database ((observed wire system.database)^[i] cursor) := by
  induction n generalizing cursor with
  | zero => rfl
  | succ n ih =>
    have hMove : (machine wire).move (observingFrom system handle cursor)
        (look handle) = observingFrom system handle (observed wire system.database cursor) := by
      refine (serve_look wire ?_).trans ?_
      · simpa [observingFrom, withHandle] using hCustody
      · simp only [observingFrom, withHandle, if_true, System.mk.injEq, true_and]
        funext other
        split
        · rfl
        · rfl
    rw [List.replicate_succ, Machine.trace_cons, hMove, List.map_cons, ih,
      List.range_succ_eq_map, List.map_cons, List.map_map]
    congr 1
    simp [observedRow, observingFrom, withHandle]

theorem due_ordered (database : Database) :
    (due wire database).Pairwise fun first second =>
      first.rowid < second.rowid :=
  database.operations.ordered.filter _

theorem due_nodup (database : Database) :
    ((due wire database).map some).Nodup := by
  refine List.Nodup.map (Option.some_injective _) ?_
  refine (due_ordered wire database).imp ?_
  rintro _ _ hLess rfl
  exact absurd hLess (lt_irrefl _)

end

/- In front of a row that is not readable the cursor stays. -/
theorem observed_stuck {database : Database} {entry : Entry} (hDue : entry ∈ due wire database)
    (hDamaged : entry.readable = false) :
    nextObservation wire database (entry.rowid - 1) = some entry ∧
    observed wire database (entry.rowid - 1) = entry.rowid - 1 := by
  have hNext : nextObservation wire database (entry.rowid - 1) = some entry := by
    have hPast := Cursor.next_before (due_ordered wire database) hDue
    exact (congrArg (Option.or · _) hPast).trans Option.some_or
  refine ⟨hNext, ?_⟩
  simp [observed, hNext, hDamaged]

/-
  From every place of the cursor, as many calls as there are rows select each row once: exactly if
  the columns of all rows are texts, or no other row waits behind one.
-/
theorem observations_go_round_iff
    (wire : Wire P D U E)
    (system : System)
    (handle : Nat)
    (hCustody : (system.handles handle).durableCustody = true) :
    (∀ cursor,
       (((machine wire).trace (observingFrom system handle cursor)
           (List.replicate (due wire system.database).length
              (look handle))).map
          (observedRow wire handle)).Perm
         ((due wire system.database).map some)) ↔
      (due wire system.database).length ≤ 1 ∨
      ∀ entry ∈ due wire system.database, entry.readable = true := by
  simp only [observed_rows wire hCustody]
  have hOrdered := due_ordered wire system.database
  have hAround := Cursor.around_eq_getElem? hOrdered
  constructor
  · intro hOnce
    by_contra hNot
    push Not at hNot
    rcases hNot with ⟨hMany, entry, hDue, hDamaged⟩
    rcases observed_stuck hDue (Bool.eq_false_iff.mpr hDamaged) with ⟨_, hStays⟩
    -- The first two calls select the same row.
    have hDistinct := List.inj_on_of_nodup_map
      ((hOnce (entry.rowid - 1)).nodup_iff.mpr (due_nodup _ _))
      (List.mem_range.mpr (by omega : 0 < _)) (List.mem_range.mpr hMany) (by simp [hStays])
    cases hDistinct
  · rintro (hFew | hReadable) cursor
    · rcases Nat.le_one_iff_eq_zero_or_eq_one.mp hFew with hNone | hOne
      · rw [List.length_eq_zero_iff.mp hNone]
        exact List.Perm.refl _
      · obtain ⟨entry, hEntry⟩ := List.length_eq_one_iff.mp hOne
        have hHere := hAround cursor
        rw [hOne, Nat.mod_one, hEntry] at hHere
        have hRow : nextObservation wire system.database cursor = some entry :=
          (congrArg (Cursor.around Entry.rowid · cursor) hEntry).trans hHere
        rw [hOne, hEntry]
        simp [hRow]
    · have hRound := Cursor.around_rotate hOrdered (observed wire system.database) ?_ cursor
      · exact (List.Perm.of_eq hRound).trans (List.rotate_perm _ _)
      · intro cursor row hRow
        have hDue := List.mem_of_getElem? ((hAround cursor).symm.trans hRow)
        have hNext : nextObservation wire system.database cursor = some row := hRow
        simp [observed, hNext, hReadable row hDue]

/- Two rows that are due; the columns of the first vary. -/
def twoDue (fence : Text) (hOther : fence ≠ .utf8 "f") : System where
  database :=
    { operations :=
        { entries :=
            [{ rowid := 1
               fence := fence
               operation := .utf8 "recipe.start"
               deadline := .utf8 ""
               claim := some [] },
              { rowid := 2, fence := .utf8 "f", operation := .utf8 "recipe.start",
                deadline := .utf8 "", claim := some [] }]
          unique := by simpa using hOther
          ordered := by simp } }
  handles := fun _ => { nodeId := "node" }

/- Two rows that can be read are observed in turn, from any cursor. -/
theorem texts_take_turns :
    (due smallWire (twoDue (.utf8 "x") (by decide)).database).length =
      2 ∧
    ∀ cursor,
      (((machine smallWire).trace
          (observingFrom (twoDue (.utf8 "x") (by decide)) 0 cursor)
          (List.replicate 2 (look 0))).map
         (observedRow smallWire 0)).Perm
        ((due smallWire (twoDue (.utf8 "x") (by decide)).database).map
           some) :=
  ⟨rfl, (observations_go_round_iff smallWire (twoDue (.utf8 "x") (by decide)) 0
      rfl).mpr (Or.inr (by decide))⟩

/- A fence that is no text is selected again and again, and the row behind it never. -/
theorem damaged_fence_starves_observation :
    ((machine smallWire).trace (twoDue (.damaged [255]) (by decide))
       (List.replicate 2 (look 0))).map
      (fun step => (observedRow smallWire 0 step).map Entry.rowid) =
      [some 1, some 1] ∧
    (due smallWire (twoDue (.damaged [255]) (by decide)).database).map
      Entry.rowid =
      [1, 2] :=
  ⟨rfl, rfl⟩

end VonkForge.Journal
