import VonkForge.Foundations.Cursor
import VonkForge.Journal.Slots

/-
  Receipts only gain information.

  A receipt comes once, as unknown or definite, and only an unknown one gives way, to a definite
  one. The step that replaces it takes back what had settled it, so the rounds of delivery come past
  it again.

  Main declarations:
    * `Gained`
    * `Touch.gained`
    * `offered_of_open`
    * `receipts_only_gain`
-/

----
-- The Information Order
----

namespace VonkForge.Journal

open Fallible

variable {P D U E : Type} {wire : Wire P D U E} {call : Call P D U E} {key : Text}
variable {before after : Slot}

/- The bytes are the document of a definite result. -/
def Wire.Definite (wire : Wire P D U E) (body : Bytes) : Prop :=
  ∃ result, wire.parseResult body = some result ∧ result.result.isUnknown = false

def Wire.Unknown (wire : Wire P D U E) (body : Bytes) : Prop :=
  ∃ result, wire.parseResult body = some result ∧ result.result.isUnknown = true

/- From no receipt to an unknown one to a definite one. -/
inductive Gained (wire : Wire P D U E) (earlier later : Option Bytes) : Prop where
  | same (hSame : later = earlier)
  | first (body : Bytes) (hEarlier : earlier = none) (hLater : later = some body)
      (hRead : wire.Unknown body ∨ wire.Definite body)
  | settled (old body : Bytes) (hEarlier : earlier = some old) (hLater : later = some body)
      (hUnknown : wire.Unknown old) (hDefinite : wire.Definite body)

theorem Wire.Definite.not_unknown {body : Bytes} (hDefinite : wire.Definite body) :
    ¬ wire.Unknown body := by
  rintro ⟨_, hOther, hUnknown⟩
  rcases hDefinite with ⟨_, hRead, hKnown⟩
  rw [hRead] at hOther
  obtain rfl := Option.some.inj hOther
  rw [hKnown] at hUnknown
  cases hUnknown

theorem Wire.unknown_or_definite {body : Bytes} {result : AgentResult D U}
    (hRead : wire.parseResult body = some result) : wire.Unknown body ∨ wire.Definite body := by
  cases hKind : result.result.isUnknown with
  | true => exact Or.inl ⟨result, hRead, hKind⟩
  | false => exact Or.inr ⟨result, hRead, hKind⟩

theorem Gained.trans {earlier middle later : Option Bytes} (hFirst : Gained wire earlier middle)
    (hSecond : Gained wire middle later) : Gained wire earlier later := by
  cases hFirst with
  | same hSame =>
    rw [← hSame]
    exact hSecond
  | first body hEarlier hMiddle hRead =>
    cases hSecond with
    | same hSame => exact Gained.first body hEarlier (hSame.trans hMiddle) hRead
    | first _ hNone =>
      rw [hMiddle] at hNone
      cases hNone
    | settled _ other _ hLater _ hDefinite =>
      exact Gained.first other hEarlier hLater (Or.inr hDefinite)
  | settled old body hEarlier hMiddle hUnknown hDefinite =>
    cases hSecond with
    | same hSame => exact Gained.settled old body hEarlier (hSame.trans hMiddle) hUnknown hDefinite
    | first _ hNone =>
      rw [hMiddle] at hNone
      cases hNone
    | settled _ _ hFormer _ hFormerUnknown =>
      rw [hMiddle] at hFormer
      obtain rfl := Option.some.inj hFormer
      exact absurd hFormerUnknown hDefinite.not_unknown

/- Whatever a call does to a key, its receipt loses nothing. -/
theorem Touch.gained (hTouch : Touch wire call key before after) :
    Gained wire before.receipt after.receipt := by
  cases hTouch with
  | kept _ hReceipt | acknowledged _ _ _ _ hReceipt | reconciled _ _ _ _ hReceipt =>
    exact Gained.same hReceipt
  | opened hBefore hAfter => exact Gained.same (hAfter.trans hBefore.symm)
  | finished _ _ result _ _ _ hGives hBefore =>
    rcases hGives.written with ⟨body, hBody, hRead⟩
    rcases hBefore with hNone | ⟨old, previous, hOld, hPrevious, hUnknown, hDefinite⟩
    · exact Gained.first body hNone hBody (Wire.unknown_or_definite hRead)
    · exact Gained.settled old body hOld hBody ⟨previous, hPrevious, hUnknown⟩
        ⟨result, hRead, hDefinite⟩
  | recovered _ _ _ _ _ hGives hBefore =>
    rcases hGives.written with ⟨body, hBody, hRead⟩
    exact Gained.first body hBefore hBody (Wire.unknown_or_definite hRead)
  | discarded _ _ _ _ _ hReceipt => exact Gained.same hReceipt

/- What stands after an unknown receipt was replaced. -/
structure Reopened (wire : Wire P D U E) (key : Text) (slot : Slot) : Prop where
  acknowledged : slot.acknowledged = false
  reconciled : slot.reconciled = false
  refused : slot.refused = false
  readable : ∃ (operation : AgentOperation) (result : AgentResult D U) (body : Bytes),
    slot.operation = some operation.text ∧ slot.receipt = some body ∧ key = wire.key result.fence ∧
    wire.parseResult body = some result ∧ result.result.isUnknown = false ∧
    wire.validFor result operation = true

theorem Touch.reopened {old : Bytes} (hTouch : Touch wire call key before after)
    (hBefore : before.receipt = some old) (hReplaced : after.receipt ≠ before.receipt) :
    Reopened wire key after := by
  cases hTouch with
  | kept _ hReceipt | acknowledged _ _ _ _ hReceipt | reconciled _ _ _ _ hReceipt =>
    exact absurd hReceipt hReplaced
  | opened hNone hAfter => exact absurd (hAfter.trans hNone.symm) hReplaced
  | finished claim _ result _ hKey _ hGives hPrior hReconciled hRefused =>
    rcases hGives.written with ⟨body, hBody, hRead⟩
    rcases hPrior with hNone | ⟨_, _, _, _, _, hDefinite⟩
    · rw [hBefore] at hNone
      cases hNone
    · refine ⟨hGives.acknowledged, hReconciled, hRefused,
        claim.operation, result, body, ?_, hBody, ?_, hRead, hDefinite, hGives.valid⟩
      · rw [hGives.kept]
        exact hGives.operated
      · rw [hGives.fence]
        exact hKey
  | recovered _ _ _ _ _ _ hNone =>
    rw [hBefore] at hNone
    cases hNone
  | discarded _ _ _ _ _ hReceipt => exact absurd hReceipt hReplaced

----
-- Rounds of Delivery
----

variable (database : Database)

/- The rows that are still to be delivered, in order. -/
def pending : List Entry := database.operations.entries.filter (deliverable database)

theorem pending_ordered : (pending database).Pairwise fun first second =>
      first.rowid < second.rowid :=
  database.operations.ordered.filter _

/- A handle asks for the next receipt. -/
def poll (handle : Nat) (saved : Bool) : Input P D U E :=
  { handle := handle, available := true, call := .nextDeliveryResult saved }

/- It asks again and again; the cursor is saved or not. -/
def polls (handle : Nat) (saved : Nat → Bool) (n : Nat) : List (Input P D U E) :=
  (List.range n).map fun i => poll handle (saved i)

/- At some turn the handle is offered this delivery. -/
def Offered (wire : Wire P D U E) (system : System) (handle : Nat)
    (saved : Nat → Bool) (delivery : Delivery D U) : Prop :=
  ∃ n step, ((machine wire).trace system (polls handle saved (n + 1)))[n]? = some step ∧
    step.output.reply = .ok (.delivery (some delivery))

variable {system later : System} {handle : Nat}

/- Asking moves the cursor, and nothing that is delivered. -/
structure Polled (handle : Nat) (cursor : Int) (system later : System) : Prop where
  operations : later.database.operations = system.database.operations
  reconciled : later.database.reconciled = system.database.reconciled
  cursor : later.handles handle = { system.handles handle with deliveryCursor := cursor }

theorem nextDelivery_eq (cursor : Int) :
    nextDelivery database cursor = Cursor.next Entry.rowid (pending database) cursor := by
  unfold nextDelivery Cursor.next pending
  rw [List.find?_filter]
  congr 1
  funext entry
  simp

theorem Polled.pending {cursor : Int} (hPolled : Polled handle cursor system later) :
    pending later.database = pending system.database := by
  unfold Journal.pending
  rw [hPolled.operations]
  apply List.filter_congr
  intro _ _
  simp only [deliverable, hPolled.reconciled]

theorem Polled.custody {cursor : Int} (hPolled : Polled handle cursor system later) :
    (later.handles handle).durableCustody = (system.handles handle).durableCustody := by
  rw [hPolled.cursor]

theorem Polled.trans {cursor moved : Int} {latest : System}
    (hFirst : Polled handle cursor system later) (hSecond : Polled handle moved later latest) :
    Polled handle moved system latest where
  operations := hSecond.operations.trans hFirst.operations
  reconciled := hSecond.reconciled.trans hFirst.reconciled
  cursor := by rw [hSecond.cursor, hFirst.cursor]

/- One turn of a handle over storage that answers. -/
theorem serve_poll (wire : Wire P D U E) (saved : Bool)
    (hCustody : (system.handles handle).durableCustody) : Polled handle
        (Cursor.turn Entry.rowid (pending system.database) (system.handles handle).deliveryCursor)
        system
        (serve wire system (poll handle saved)).system ∧
      (serve wire system (poll handle saved)).reply = .ok
          (.delivery ((Cursor.next Entry.rowid (pending system.database)
                (system.handles handle).deliveryCursor).bind
              (delivery wire))) := by
  have hNext := nextDelivery_eq system.database (system.handles handle).deliveryCursor
  cases hFound :
      Cursor.next Entry.rowid (pending system.database) (system.handles handle).deliveryCursor with
  | none =>
    rw [hFound] at hNext
    rw [Cursor.turn_of_none hFound]
    have hResult : nextDeliveryResult wire (system.handles handle) true
            saved system.database = .ok
            ({ system.handles handle with deliveryCursor := 0 },
              if saved then { system.database with deliveryCursor := none }
              else system.database,
              none) := by
      simp [nextDeliveryResult, hCustody, reach, require,
        hNext, bind, Except.bind, pure, Except.pure]
    simp only [serve, poll, hResult]
    refine ⟨⟨?_, ?_, ?_⟩, rfl⟩
    · cases saved <;> rfl
    · cases saved <;> rfl
    · simp [withHandle]
  | some entry =>
    rw [hFound] at hNext
    rw [Cursor.turn_of_some hFound]
    have hResult : nextDeliveryResult wire (system.handles handle) true
            saved system.database = .ok
            ({ system.handles handle with deliveryCursor := entry.rowid },
              if saved then
                { system.database with deliveryCursor := some (.utf8 (toString entry.rowid)) }
              else system.database,
              delivery wire entry) := by
      simp [nextDeliveryResult, hCustody, reach, require,
        hNext, bind, Except.bind, pure, Except.pure]
    simp only [serve, poll, hResult]
    refine ⟨⟨?_, ?_, ?_⟩, rfl⟩
    · cases saved <;> rfl
    · cases saved <;> rfl
    · simp [withHandle]

theorem polls_succ (handle : Nat) (saved : Nat → Bool) (n : Nat) :
    (polls handle saved (n + 1) : List (Input P D U E)) = polls handle saved n ++
    [poll handle (saved n)] := by simp [polls, List.range_succ]

/- The cursor after some turns of the handle. -/
theorem polled_final (wire : Wire P D U E) (saved : Nat → Bool)
    (hCustody : (system.handles handle).durableCustody) (n : Nat) :
    Polled handle ((Cursor.turn Entry.rowid (pending system.database))^[n]
      (system.handles handle).deliveryCursor) system
    ((machine wire).final system (polls handle saved n)) := by
  induction n with
  | zero => exact ⟨rfl, rfl, rfl⟩
  | succ n ih =>
    have hTurn := (serve_poll wire (saved n) (ih.custody.trans hCustody)).1
    rw [ih.pending, ih.cursor] at hTurn
    rw [polls_succ, Machine.final_append, Function.iterate_succ_apply']
    exact ih.trans hTurn

/- Every row to be delivered is come to and offered. -/
theorem offered_of_pending {entry : Entry} {offered : Delivery D U} (saved : Nat → Bool)
    (hCustody : (system.handles handle).durableCustody)
    (hPositive : ∀ entry ∈ pending system.database, 0 < entry.rowid)
    (hPending : entry ∈ pending system.database) (hDelivery : delivery wire entry = some offered) :
    Offered wire system handle saved offered := by
  rcases Cursor.visits (pending_ordered _) hPositive hPending
      (system.handles handle).deliveryCursor with
    ⟨n, hVisit⟩
  have hPolled := polled_final wire saved hCustody n
  have hStill := hPolled.custody.trans hCustody
  have hReply := (serve_poll wire (saved n) hStill).2
  rw [hPolled.pending, hPolled.cursor, hVisit, Option.bind_some, hDelivery] at hReply
  refine ⟨n, (machine wire).step ((machine wire).final system (polls handle saved n))
      (poll handle (saved n)), ?_, hReply⟩
  rw [polls_succ, Machine.trace_append, List.getElem?_append_right]
  · simp [polls]
  · simp [polls]

variable {saved : Nat → Bool}

/- And nothing else is offered. -/
theorem Offered.pending {offered : Delivery D U}
    (hOffered : Offered wire system handle saved offered)
    (hCustody : (system.handles handle).durableCustody) :
    ∃ entry ∈ Journal.pending system.database, delivery wire entry = some offered := by
  rcases hOffered with ⟨n, step, hStep, hReply⟩
  have hPolled := polled_final wire saved hCustody n
  have hStill := hPolled.custody.trans hCustody
  have hTurn := (serve_poll wire (saved n) hStill).2
  have hLast : step = (machine wire).step ((machine wire).final system (polls handle saved n))
      (poll handle (saved n)) := by
    rw [polls_succ, Machine.trace_append, List.getElem?_append_right (by simp [polls])] at hStep
    simpa [polls] using hStep.symm
  rw [hLast] at hReply
  have hSame := hReply.symm.trans hTurn
  simp only [Except.ok.injEq, Reply.delivery.injEq] at hSame
  rcases Option.bind_eq_some_iff.mp hSame.symm with ⟨entry, hNext, hDelivery⟩
  have hMem := List.mem_of_find?_eq_some hNext
  rw [hPolled.pending] at hMem
  exact ⟨entry, hMem, hDelivery⟩

----
-- Row Numbers
----

/- Rows are numbered from one. -/
def Numbered : Prop := ∀ row ∈ database.operations.rows, 0 < row.1

variable {database : Database}

theorem Numbered.pending (hNumbered : Numbered database) :
    ∀ entry ∈ Journal.pending database, 0 < entry.rowid := by
  intro _ hEntry
  exact hNumbered _ (List.mem_map_of_mem (List.mem_of_mem_filter hEntry))

theorem Numbered.nextRowid (hNumbered : Numbered database) :
    0 < database.operations.nextRowid := by
  cases hEntries : database.operations.entries with
  | nil => simp [Operations.nextRowid, hEntries]
  | cons entry =>
    have hMem : entry ∈ database.operations.entries := by
      rw [hEntries]
      exact List.mem_cons_self
    have hPositive : 0 < entry.rowid := hNumbered _ (List.mem_map_of_mem hMem)
    have hLess := database.operations.lt_nextRowid hMem
    omega

theorem Wrote.numbered {call : Call P D U E} {after : Database}
    (hWrote : Wrote wire database call after) (hNumbered : Numbered database) :
    Numbered after := by
  rcases hWrote.rows with hRows | ⟨_, _, _, _, _, hInsert⟩
  · intro row hRow
    rw [hRows] at hRow
    exact hNumbered row hRow
  · intro row hRow
    have hFree := (Operations.insert_fences hInsert).1
    unfold Operations.insert at hInsert
    rw [dif_neg hFree] at hInsert
    rw [← Except.ok.inj hInsert] at hRow
    simp only [Operations.rows, List.map_append, List.map_cons, List.map_nil] at hRow
    rcases List.mem_append.mp hRow with hOld | hNew
    · exact hNumbered row hOld
    · rw [List.mem_singleton.mp hNew]
      exact hNumbered.nextRowid

----
-- Offered again
----

theorem parse_of_text (operation : AgentOperation) :
    AgentOperation.parse operation.text = some operation := by
  cases operation <;> rfl

/- A reopened receipt is offered as what it is, or as unknown if it is too long to be read. -/
theorem Reopened.offered
    (hFaithful : wire.Faithful)
    (hNumbered : Numbered system.database)
    (hReopened : Reopened wire key (slot system.database key)) :
    ∃ operation result body,
      (slot system.database key).receipt = some body ∧
      wire.parseResult body = some result ∧
      result.result.isUnknown = false ∧
      key = wire.key result.fence ∧
      ∀ handle saved, (system.handles handle).durableCustody →
        Offered wire system handle saved
          ⟨operation,
            if body.length ≤ maxCompiledExecutionPlanClaimBytes then result
            else wire.uncertainReceipt operation result.fence,
            false⟩ := by
  rcases hReopened.readable with
    ⟨operation, result, body, hOperation, hReceipt, hKey, hRead, hDefinite, hValid⟩
  refine ⟨operation, result, body, hReceipt, hRead, hDefinite, hKey, ?_⟩
  intro _ saved hCustody
  have hReconciled := hReopened.reconciled
  have hAcknowledged := hReopened.acknowledged
  cases hFind : system.database.operations.find key with
  | none => simp [slot, hFind] at hReceipt
  | some entry =>
    simp only [slot, hFind, Option.bind_some, Option.any_some, decide_eq_false_iff_not]
      at hOperation hReceipt hReconciled hAcknowledged
    rcases Operations.mem_of_find hFind with ⟨hMem, hFence⟩
    have hPending : entry ∈ pending system.database := by
      simp [pending, hMem, deliverable, Entry.completed, hReceipt, hFence, hReconciled]
    have hText : entry.fence.read = some (wire.fenceText result.fence) := by
      rw [hFence, hKey]
      rfl
    refine offered_of_pending saved hCustody hNumbered.pending hPending ?_
    split
    · rename_i hBound
      simp [delivery, hText, hOperation, parse_of_text, hFaithful.fence, hAcknowledged, readReceipt,
        bounded, hReceipt, Option.filter, hBound, hRead, hValid]
    · rename_i hLong
      simp [delivery, hText, hOperation, parse_of_text, hFaithful.fence, hAcknowledged, readReceipt,
        bounded, hReceipt, Option.filter, hLong]

----
-- Every Run
----

theorem gained_final (hFaithful : wire.Faithful) (system : System) (inputs : List (Input P D U E))
    (key : Text) : Gained wire (slot system.database key).receipt
    (slot ((machine wire).final system inputs).database key).receipt := by
  induction inputs generalizing system with
  | nil => exact Gained.same rfl
  | cons input _ ih =>
    have hFirst := (serve_touch hFaithful system input key).gained
    exact hFirst.trans (ih ((machine wire).move system input))

/-
  In every run on any number of handles, a receipt moves only up the information order. The step
  that replaces an unknown one clears what had settled it, and the definite receipt is offered again
  to every handle that keeps asking, if it fits the bound under which receipts are read. One that
  does not is offered as an unknown receipt of its fence.
-/
theorem receipts_only_gain
    (hFaithful : wire.Faithful)
    (hNumbered : Numbered system.database)
    (inputs : List (Input P D U E)) :
    (∀ i j key,
       i ≤ j →
       Gained wire
         (slot ((machine wire).final system (inputs.take i)).database
            key).receipt
         (slot ((machine wire).final system (inputs.take j)).database
            key).receipt) ∧
    ∀ step ∈ (machine wire).trace system inputs,
      ∀ key old body,
        (slot step.before.database key).receipt = some old →
        (slot step.output.system.database key).receipt = some body →
        body ≠ old →
        wire.Unknown old ∧
        wire.Definite body ∧
        (slot step.output.system.database key).acknowledged = false ∧
        (slot step.output.system.database key).reconciled = false ∧
        (slot step.output.system.database key).refused = false ∧
        ∃ operation result,
          wire.parseResult body = some result ∧
          key = wire.key result.fence ∧
          (body.length ≤ maxCompiledExecutionPlanClaimBytes →
           ∀ handle saved,
             (step.output.system.handles handle).durableCustody = true →
             Offered wire step.output.system handle saved
               ⟨operation, result, false⟩) ∧
          (maxCompiledExecutionPlanClaimBytes < body.length →
           ∀ handle saved,
             (step.output.system.handles handle).durableCustody = true →
             Offered wire step.output.system handle saved
               ⟨operation, wire.uncertainReceipt operation result.fence, false⟩) := by
  constructor
  · intro _ _ key hLe
    rw [(machine wire).final_take_of_le hLe]
    exact gained_final hFaithful _ _ key
  · intro step hMem key old body hBefore hAfter hReplaced
    have hReached : ∀ step ∈ (machine wire).trace system inputs, Numbered step.before.database ∧
      ∃ input, step = (machine wire).step step.before input :=
      (machine wire).invariant_before (P := fun _ => True)
      (fun state input hState _ => (serve_wrote wire state input).numbered hState) hNumbered
      (fun _ _ => trivial)
    rcases hReached step hMem with ⟨hState, input, hStep⟩
    rw [hStep] at hBefore hAfter ⊢
    have hTouch := serve_touch hFaithful step.before input key
    have hChanged : (slot (serve wire step.before input).system.database key).receipt ≠
        (slot step.before.database key).receipt := by
      intro hSame
      have hBoth := hAfter.symm.trans (hSame.trans hBefore)
      exact hReplaced (Option.some.inj hBoth)
    have hReopened := hTouch.reopened hBefore hChanged
    rcases hReopened.offered hFaithful
        ((serve_wrote wire step.before input).numbered hState) with
      ⟨operation, result, other, hOther, hRead, hDefinite, hKey, hOffered⟩
    obtain rfl : body = other := Option.some.inj (hAfter.symm.trans hOther)
    have hUnknown : wire.Unknown old := by
      cases hTouch.gained with
      | same hSame => exact absurd hSame hChanged
      | first _ hNone => cases hBefore.symm.trans hNone
      | settled _ _ hFormer _ hUnknown =>
        rw [Option.some.inj (hBefore.symm.trans hFormer)]
        exact hUnknown
    refine ⟨hUnknown, ⟨result, hRead, hDefinite⟩, hReopened.acknowledged, hReopened.reconciled,
      hReopened.refused, operation, result, hRead, hKey, ?_, ?_⟩
    · intro hBound handle saved hCustody
      have hOne := hOffered handle saved hCustody
      rwa [if_pos hBound] at hOne
    · intro hLong handle saved hCustody
      have hOne := hOffered handle saved hCustody
      rwa [if_neg (Nat.not_le.mpr hLong)] at hOne

----
-- A small Contract
----

/- A contract with one operation under one fence. -/
def smallWire : Wire Unit Bytes Unit Bytes where
  fenceText := fun fence => String.ofList (List.replicate fence.toNat 'f')
  parseFence := fun text => some (BitVec.ofNat 128 text.length)
  timeText := fun _ => ""
  parseTime := fun _ => none
  claimJson := fun _ => some []
  parseClaim := fun _ => some ⟨1, .recipeStart, (), 0⟩
  payloadJson := fun _ => some []
  resultJson := fun result =>
    match result with
    | ⟨1, .unknown _, .observing⟩ => some [0]
    | ⟨1, .definite body, .succeeded⟩ => some (1 :: body)
    | _ => none
  parseResult := fun bytes =>
    match bytes with
    | [0] => some ⟨1, .unknown (), .observing⟩
    | 1 :: body => some ⟨1, .definite body, .succeeded⟩
    | _ => none
  revalidate := some
  validClaim := fun _ => true
  validResult := fun _ => true
  validFor := fun _ _ => true
  kindUnknown := fun bytes => bytes == [0]
  finishEnded := fun _ effect => (.succeeded, effect)
  restartInterrupted := ()
  receiptUnavailable := ()

theorem smallWire_canonical (result : AgentResult Bytes Unit) : smallWire.Canonical result := by
  intro _ hBody
  simp only [smallWire] at hBody
  split at hBody
  · obtain rfl := Option.some.inj hBody
    rfl
  · obtain rfl := Option.some.inj hBody
    rfl
  · cases hBody

theorem smallWire_faithful : smallWire.Faithful := by
  refine ⟨?_, ?_, ?_⟩
  · intro _
    simp [smallWire]
  · intro sent _ hRevalidated
    obtain rfl := Option.some.inj hRevalidated
    exact ⟨smallWire_canonical sent, rfl, rfl⟩
  · intro _ _
    exact smallWire_canonical _

def emptyJournal : System where
  database :=
    { operations := { entries := [], unique := List.nodup_nil, ordered := List.Pairwise.nil } }
  handles := fun _ => { nodeId := "node" }

def startClaim : AgentClaim Unit := ⟨1, .recipeStart, (), 10⟩

def onHandle (handle : Nat) (call : Call Unit Bytes Unit Bytes) : Input Unit Bytes Unit Bytes :=
  { handle := handle, available := true, call := call }

/- An outcome that was unknown is found out after all. -/
def foundOut (effect : Bytes) : List (Input Unit Bytes Unit Bytes) :=
  [onHandle 0 (.begin startClaim 0), onHandle 0 (.finish startClaim (.unknown ())),
    onHandle 0 (.finish startClaim (.ended effect))]

/- An outcome that is found out after all is offered to the handle that keeps asking. -/
theorem definite_receipt_offered_again :
    ∃ operation,
      Offered smallWire
        ((machine smallWire).final emptyJournal (foundOut [7])) 0
        (fun _ => true)
        ⟨operation, ⟨1, .definite [7], .succeeded⟩, false⟩ := by
  have hNumbered : Numbered emptyJournal.database := by
    intro _ hRow
    cases hRow
  have hReplaced := (receipts_only_gain smallWire_faithful hNumbered (foundOut [7])).2
    ((machine smallWire).step ((machine smallWire).final emptyJournal ((foundOut [7]).take 2))
      (onHandle 0 (.finish startClaim (.ended [7])))) (List.mem_of_getElem? (i := 2) rfl)
    (smallWire.key 1) [0] [1, 7] (by decide +kernel) (by decide +kernel) (by decide)
  rcases hReplaced with ⟨_, _, _, _, _, operation, _, hRead, _, hOffered, _⟩
  obtain rfl := Option.some.inj hRead
  exact ⟨operation, hOffered (by decide) 0 _ rfl⟩

theorem foundOut_rows (effect : Bytes) : ((machine smallWire).final emptyJournal
        (foundOut effect)).database.operations.entries = [{
      rowid := 1, fence := smallWire.key 1, operation := .utf8 "recipe.start", deadline := .utf8 "",
      claim := some [], receipt := some (1 :: effect) }] :=
  rfl

/- A receipt beyond the bound of a read is not read. -/
theorem oversized_offered {effect : Bytes} {offered : Delivery Bytes Unit}
    (hLong : maxCompiledExecutionPlanClaimBytes ≤ effect.length)
    (hOffered : Offered smallWire ((machine smallWire).final emptyJournal (foundOut effect)) 0 saved
      offered) : offered.result.result.isUnknown := by
  rcases hOffered.pending rfl with ⟨entry, hMem, hDelivery⟩
  have hRow := List.mem_of_mem_filter hMem
  rw [foundOut_rows, List.mem_singleton] at hRow
  have hUnread : bounded entry.receipt = none := by
    rw [hRow]
    simp only [bounded, Option.filter, List.length_cons]
    rw [if_neg]
    simp only [decide_eq_true_eq]
    omega
  have hOffer : delivery smallWire entry =
      some ⟨.recipeStart, smallWire.uncertainReceipt .recipeStart 1, false⟩ := by
    have hRead : readReceipt smallWire (bounded entry.receipt) .recipeStart 1 =
        smallWire.uncertainReceipt .recipeStart 1 := by
      rw [hUnread]
      rfl
    have hFence : entry.fence.read = some (smallWire.fenceText 1) := by
      rw [hRow]
      rfl
    have hOperation : entry.operation.read = some AgentOperation.recipeStart.text := by
      rw [hRow]
      rfl
    have hAcknowledged : entry.acknowledged = false := by rw [hRow]
    simpa [delivery, hFence, hOperation, parse_of_text,
      smallWire_faithful.fence, hAcknowledged] using hRead
  rw [hOffer] at hDelivery
  obtain rfl := Option.some.inj hDelivery
  rfl

/-
  A definite receipt replaces the unknown one, and yet every offer is that of a receipt that cannot
  be read.
-/
theorem oversized_receipt_offered_as_unknown :
    ∃ effect : Bytes,
      (slot
         ((machine smallWire).final emptyJournal
            ((foundOut effect).take 2)).database
         (smallWire.key 1)).receipt =
        some [0] ∧
      (slot
         ((machine smallWire).final
            emptyJournal (foundOut effect)).database
         (smallWire.key 1)).receipt =
        some (1 :: effect) ∧
      smallWire.Definite (1 :: effect) ∧
      ∀ saved offered,
        Offered smallWire
          ((machine smallWire).final emptyJournal (foundOut effect)) 0
          saved offered →
        offered.result.result.isUnknown = true := by
  have hSome : ∃ effect : Bytes, maxCompiledExecutionPlanClaimBytes ≤ effect.length :=
    ⟨List.replicate _ 0, List.length_replicate.ge⟩
  rcases hSome with ⟨effect, hLong⟩
  exact ⟨effect, rfl, rfl, ⟨_, rfl, rfl⟩, fun saved offered => oversized_offered hLong⟩

end VonkForge.Journal
