import VonkForge.Journal.Receipts

/-
  Whose answer settles a receipt.

  The calls that settle a delivery name only the fence of the result they were answered for, so they
  settle whatever receipt is stored there. It is the one that was offered unless it was replaced
  while the answer was on its way.

  Main declarations:
    * `Authentic`
    * `offer_inversion`
    * `settled_by_own_answer`
    * `stale_answer_settles_definite_receipt`
-/

----
-- Receipts under their own Fence
----

namespace VonkForge.Journal

open Fallible

variable {P D U E : Type} {wire : Wire P D U E} {call : Call P D U E} {key : Text}
variable {before after : Slot} {system : System}

/- The receipt of a key names the fence and the operation. -/
structure Own (wire : Wire P D U E) (key : Text) (slot : Slot) (body : Bytes) : Prop where
  own : ∃ (operation : AgentOperation) (result : AgentResult D U),
    slot.operation = some operation.text ∧ wire.parseResult body = some result ∧
    key = wire.key result.fence ∧ wire.validFor result operation = true

/- A journal as its own calls leave it: keys are fences, and a receipt belongs to its row. -/
structure Authentic (wire : Wire P D U E) (database : Database) : Prop where
  keyed : ∀ key ∈ database.operations.fences, ∃ fence, key = wire.key fence
  own : ∀ key body, (slot database key).receipt = some body → Own wire key (slot database key) body

theorem Wire.Faithful.key_injective (hFaithful : wire.Faithful)
    {first second : Uuid} (hSame : wire.key first = wire.key second) : first = second := by
  have hText : wire.fenceText first = wire.fenceText second := Text.utf8.inj hSame
  have hFirst := hFaithful.fence first
  rw [hText, hFaithful.fence second] at hFirst
  exact (Option.some.inj hFirst).symm

variable {body : Bytes} {input : Input P D U E}

theorem Own.congr (hOwn : Own wire key before body)
    (hOperation : after.operation = before.operation) : Own wire key after body := by
  rcases hOwn.own with ⟨operation, result, hText, hRest⟩
  exact ⟨operation, result, hOperation.trans hText, hRest⟩

/- One call keeps the receipt of a key its own. -/
theorem Touch.own (hFaithful : wire.Faithful) (hTouch : Touch wire call key before after)
    (hKeyed : before.operation ≠ none → ∃ fence, key = wire.key fence)
    (hOwn : ∀ body, before.receipt = some body → Own wire key before body)
    (hBody : after.receipt = some body) : Own wire key after body := by
  cases hTouch with
  | kept hOperation hReceipt | acknowledged _ _ _ hOperation hReceipt =>
    exact (hOwn body (hReceipt.symm.trans hBody)).congr hOperation
  | opened _ hAfter => cases hAfter.symm.trans hBody
  | finished claim _ result _ hKey _ hGives =>
    rcases hGives.written with ⟨_, hOther, hRead⟩
    obtain rfl := Option.some.inj (hOther.symm.trans hBody)
    refine ⟨claim.operation, result, ?_, hRead, ?_, hGives.valid⟩
    · exact hGives.kept.trans hGives.operated
    · rw [hGives.fence]
      exact hKey
  | recovered operation _ result _ hFence hGives =>
    rcases hGives.written with ⟨_, hOther, hRead⟩
    obtain rfl := Option.some.inj (hOther.symm.trans hBody)
    have hPresent : before.operation ≠ none := by
      rw [hGives.operated]
      simp
    rcases hKeyed hPresent with ⟨owner, rfl⟩
    rcases hFence with ⟨text, hText, hParsed⟩
    have hSame : wire.fenceText owner = text := Text.utf8.inj hText
    rw [← hSame, hFaithful.fence] at hParsed
    refine ⟨operation, result, ?_, hRead, ?_, hGives.valid⟩
    · exact hGives.kept.trans hGives.operated
    · rw [hGives.fence, Option.some.inj hParsed]
  | reconciled _ _ _ hOperation hReceipt | discarded _ _ _ _ hOperation hReceipt =>
    exact (hOwn body (hReceipt.symm.trans hBody)).congr hOperation

theorem serve_authentic (hFaithful : wire.Faithful) (input : Input P D U E)
    (hAuthentic : Authentic wire system.database) :
    Authentic wire (serve wire system input).system.database := by
  constructor
  · cases serve_serving wire system input with
    | kept hFences =>
      rw [hFences]
      exact hAuthentic.keyed
    | executed claim _ _ _ hFences =>
      rw [hFences]
      intro key hKey
      rcases List.mem_append.mp hKey with hOld | hNew
      · exact hAuthentic.keyed key hOld
      · exact ⟨claim.fence, List.mem_singleton.mp hNew⟩
  · intro key _ hBody
    refine (serve_touch hFaithful system input key).own hFaithful ?_ (hAuthentic.own key) hBody
    intro hPresent
    apply hAuthentic.keyed
    cases hFind : system.database.operations.find key with
    | none => simp [slot, hFind] at hPresent
    | some =>
      rcases Operations.mem_of_find hFind with ⟨hMem, rfl⟩
      exact List.mem_map_of_mem hMem

----
-- What is offered
----

variable {replied : Reply P D U}

theorem serveResult_reply {α : Type} {result : Except StateError (Database × α)}
    {reply : α → Reply P D U}
    (hReply : (serveResult system result reply).reply = .ok replied) :
    ∃ value, replied = reply value := by
  cases result with
  | error => cases hReply
  | ok out => exact ⟨out.2, (Except.ok.inj hReply).symm⟩

theorem serveUpdate_reply {result : Except StateError Database}
    (hReply : (serveUpdate system result).reply = .ok replied) : replied = .done := by
  cases result with
  | error => cases hReply
  | ok => exact (Except.ok.inj hReply).symm

theorem nextDeliveryResult_offer {asker : Handle} {available saved : Bool} {database : Database} :
    Returns (fun out => ∀ offered, out.2.2 = some offered → ∃ entry ∈ database.operations.entries,
      entry.receipt ≠ none ∧ delivery wire entry = some offered)
    (nextDeliveryResult wire asker available saved database) := by
  unfold nextDeliveryResult
  split
  · refine Returns.ok ?_
    intro _ hNone
    cases hNone
  · refine Returns.bind fun _ hReach => ?_
    cases hNext : nextDelivery database asker.deliveryCursor with
    | none =>
      refine Returns.ok ?_
      intro _ hNone
      cases hNone
    | some entry =>
      refine Returns.ok ?_
      intro _ hOffered
      have hFound := List.find?_some hNext
      simp only [deliverable, Entry.completed, Bool.and_eq_true] at hFound
      refine ⟨entry, List.mem_of_find?_eq_some hNext, ?_, hOffered⟩
      intro hNone
      simp [hNone] at hFound

variable {offered : Delivery D U}

/- An offer is that of a row with a receipt. -/
theorem offer_inversion
    (hReply :
      (serve wire system input).reply =
        .ok (.delivery (some offered))) :
    ∃ entry ∈ system.database.operations.entries,
      entry.receipt ≠ none ∧ delivery wire entry = some offered := by
  rcases input with ⟨index, available, call⟩
  cases call with
  | begin | finish | rejectResult =>
    rcases serveResult_reply hReply with ⟨_, hOther⟩
    cases hOther
  | applyHeartbeat | discardRejectedResult | acknowledge | supersede | markReconciled
  | endObservation | recoverInterrupted => cases serveUpdate_reply hReply
  | nextDeliveryResult saved =>
    simp only [serve] at hReply
    split at hReply
    · cases hReply
    · next moved database delivered hOk =>
        refine nextDeliveryResult_offer _ hOk offered ?_
        simpa using hReply
  | observationClaims =>
    simp only [serve] at hReply
    cases hObserved :
        (observationClaims wire (system.handles index) available system.database).2 with
    | error | ok =>
      rw [hObserved] at hReply
      cases hReply
  | reopen =>
    simp only [serve] at hReply
    split at hReply
    · cases hReply
    · cases hReply

theorem readReceipt_fence (wire : Wire P D U E) (receipt : Option Bytes)
    (operation : AgentOperation) (fence : Uuid) :
    (readReceipt wire receipt operation fence).fence = fence := by
  unfold readReceipt
  cases hRead : (receipt.bind wire.parseResult).filter fun result =>
        result.fence == fence && wire.validFor result operation with
  | none => rfl
  | some =>
    have hBoth := (Option.filter_eq_some_iff.mp hRead).2
    simp only [Bool.and_eq_true, beq_iff_eq] at hBoth
    exact hBoth.1

/- An offer names the fence of its row, and reads it. -/
theorem offer_reads (hFaithful : wire.Faithful)
    (hAuthentic : Authentic wire system.database)
    (hReply : (serve wire system input).reply = .ok (.delivery (some offered))) :
    ∃ body, (slot system.database (wire.key offered.result.fence)).receipt = some body ∧
    (body.length ≤ maxCompiledExecutionPlanClaimBytes → wire.parseResult body = some offered.result)
    := by
  rcases offer_inversion hReply with ⟨entry, hMem, hReceipt, hDelivery⟩
  rcases Option.ne_none_iff_exists'.mp hReceipt with ⟨body, hBody⟩
  have hFind := Operations.find_of_mem hMem
  have hSlot : (slot system.database entry.fence).receipt = some body := by
    simp [slot, hFind, hBody]
  rcases (hAuthentic.own _ _ hSlot).own with ⟨operation, result, hOperation, hRead, hKey, hValid⟩
  have hText : entry.fence.read = some (wire.fenceText result.fence) := by
    rw [hKey]
    rfl
  have hWord : entry.operation.read = some operation.text := by simpa [slot, hFind] using hOperation
  have hOffer : delivery wire entry =
    some ⟨operation, readReceipt wire (bounded entry.receipt) operation result.fence,
      entry.acknowledged⟩ := by simp [delivery, hText, hWord, parse_of_text, hFaithful.fence]
  rw [hOffer] at hDelivery
  obtain rfl := Option.some.inj hDelivery
  refine ⟨body, ?_, ?_⟩
  · simp only [readReceipt_fence]
    rw [← hKey]
    exact hSlot
  · intro hBound
    have hResult : readReceipt wire (bounded entry.receipt) operation result.fence = result := by
      simp [readReceipt, bounded, hBody, Option.filter, hBound, hRead, hValid]
    rw [hResult]
    exact hRead

----
-- What is settled
----

/- The call makes the key acknowledged or reconciled. -/
def Settles (before after : Slot) : Prop :=
  before.acknowledged = false ∧ after.acknowledged = true ∨
    before.reconciled = false ∧ after.reconciled = true

theorem Touch.settles (hTouch : Touch wire call key before after)
    (hSettles : Settles before after) :
    (∃ result, call.settles = some result ∧ key = wire.key result.fence) ∨
    ∃ result, call = .discardRejectedResult result ∧ key = wire.key result.fence ∧
    wire.resultJson result = before.receipt := by
  cases hTouch with
  | kept _ _ hAcknowledged hReconciled =>
    rw [Settles, hAcknowledged, hReconciled] at hSettles
    rcases hSettles with ⟨hNo, hYes⟩ | ⟨hNo, hYes⟩
    · cases hNo.symm.trans hYes
    · cases hNo.symm.trans hYes
  | opened _ _ hAcknowledged hReconciled =>
    rw [Settles, hAcknowledged, hReconciled] at hSettles
    rcases hSettles with ⟨_, hYes⟩ | ⟨hNo, hYes⟩
    · cases hYes
    · cases hNo.symm.trans hYes
  | finished _ _ _ _ _ _ hGives _ hReconciled =>
    rw [Settles, hGives.acknowledged, hReconciled] at hSettles
    rcases hSettles with ⟨_, hYes⟩ | ⟨_, hYes⟩
    · cases hYes
    · cases hYes
  | recovered _ _ _ _ _ hGives _ hReconciled =>
    rw [Settles, hGives.acknowledged, hReconciled] at hSettles
    rcases hSettles with ⟨_, hYes⟩ | ⟨hNo, hYes⟩
    · cases hYes
    · cases hNo.symm.trans hYes
  | acknowledged result hCall hKey | reconciled result hCall hKey =>
    exact Or.inl ⟨result, hCall, hKey⟩
  | discarded result _ hCall hKey _ _ _ hBody hSame =>
    exact Or.inr ⟨result, hCall, hKey, hBody.trans hSame.symm⟩

/- A call that finds out an outcome under the fence. -/
def Call.findsOut (fence : Uuid) : Call P D U E → Bool
  | .finish claim (.ended _) => claim.fence == fence
  | _ => false

/- Only such a call replaces a receipt that is there. -/
theorem Touch.receipt_kept {fence : Uuid} (hFaithful : wire.Faithful)
    (hTouch : Touch wire call (wire.key fence) before after) (hBody : before.receipt = some body)
    (hCall : call.findsOut fence = false) : after.receipt = some body := by
  cases hTouch with
  | kept _ hReceipt | acknowledged _ _ _ _ hReceipt | reconciled _ _ _ _ hReceipt =>
    exact hReceipt.trans hBody
  | opened hBefore | recovered _ _ _ _ _ _ hBefore => cases hBefore.symm.trans hBody
  | finished _ executed _ hFinish hKey hKind _ hBefore =>
    have hFence := hFaithful.key_injective hKey
    cases executed with
    | ended =>
      rw [hFinish, hFence] at hCall
      simp [Call.findsOut] at hCall
    | unknown =>
      rcases hBefore with hNone | ⟨_, _, _, _, _, hDefinite⟩
      · cases hNone.symm.trans hBody
      · cases hDefinite.symm.trans hKind
  | discarded _ _ _ _ _ hReceipt => exact hReceipt.trans hBody

/- A call that offers a receipt finds nothing out. -/
theorem offer_findsOut {offered : Option (Delivery D U)} (fence : Uuid)
    (hReply : (serve wire system input).reply = .ok (.delivery offered)) :
    input.call.findsOut fence = false := by
  rcases input with ⟨_, _, call⟩
  cases call with
  | finish =>
    rcases serveResult_reply hReply with ⟨_, hOther⟩
    cases hOther
  | _ => rfl

----
-- Every Interleaving
----

/-
  The result was offered before step `j`, from a receipt within the bound of a read, and no outcome
  was found out under its fence since.
-/
def AnsweredFor (wire : Wire P D U E) (steps : List (Step P D U E)) (j : Nat)
    (result : AgentResult D U) : Prop :=
  ∃ i offer delivery, i < j ∧ steps[i]? = some offer ∧
    offer.output.reply = .ok (.delivery (some delivery)) ∧ delivery.result = result ∧
    (∀ body, (slot offer.before.database (wire.key result.fence)).receipt = some body →
      body.length ≤ maxCompiledExecutionPlanClaimBytes) ∧ ∀ k step, i < k → k < j →
    steps[k]? = some step → step.input.call.findsOut result.fence = false

theorem AnsweredFor.stored {inputs : List (Input P D U E)} {j : Nat} {result : AgentResult D U}
    {step : Step P D U E} (hFaithful : wire.Faithful) (hAuthentic : Authentic wire system.database)
    (hAnswered : AnsweredFor wire ((machine wire).trace system inputs) j result)
    (hStep : ((machine wire).trace system inputs)[j]? = some step) :
    ∃ body, (slot step.before.database (wire.key result.fence)).receipt = some body ∧
    wire.parseResult body = some result := by
  rcases hAnswered with ⟨_, offer, delivery, hLt, hOffer, hReply, rfl, hBound, hQuiet⟩
  have hReached : Authentic wire offer.before.database :=
    ((machine wire).invariant_before (I := fun state => Authentic wire state.database)
      (P := fun _ => True) (fun state input hState _ => serve_authentic hFaithful input hState)
      hAuthentic (fun _ _ => trivial) offer (List.mem_of_getElem? hOffer)).1
  rcases (machine wire).exists_of_getElem?_trace hOffer with ⟨asked, _, rfl⟩
  rcases offer_reads hFaithful hReached hReply with ⟨body, hBody, hRead⟩
  refine ⟨body, ?_, hRead (hBound body hBody)⟩
  refine (machine wire).invariant_since
    (I := fun state => (slot state.database (wire.key delivery.result.fence)).receipt = some body)
    hOffer ?_ ?_ hLt hStep
  · exact (serve_touch hFaithful _ asked _).receipt_kept hFaithful hBody (offer_findsOut _ hReply)
  · intro k _ hFrom hTo hLater hBefore
    rcases (machine wire).exists_of_getElem?_trace hLater with ⟨input, _, rfl⟩
    exact (serve_touch hFaithful _ input _).receipt_kept
      hFaithful hBefore (hQuiet k _ hFrom hTo hLater)

/-
  No receipt is settled by another one's answer, as long as nothing is found out under a fence while
  an answer for its receipt is on its way. A refused delivery is settled by its bytes in any case.
-/
theorem settled_by_own_answer
    {inputs : List (Input P D U E)}
    {j : Nat}
    {step : Step P D U E}
    {fence : Uuid}
    {body : Bytes}
    {receipt : AgentResult D U}
    (hFaithful : wire.Faithful)
    (hAuthentic : Authentic wire system.database)
    (hStep : ((machine wire).trace system inputs)[j]? = some step)
    (hAnswered :
      ∀ result,
        step.input.call.settles = some result →
        AnsweredFor wire ((machine wire).trace system inputs) j result)
    (hStored :
      (slot step.before.database (wire.key fence)).receipt = some body)
    (hRead : wire.parseResult body = some receipt)
    (hSettles :
      Settles (slot step.before.database (wire.key fence))
        (slot step.output.system.database (wire.key fence))) :
    step.input.call.settles = some receipt ∨
    ∃ result,
      step.input.call = .discardRejectedResult result ∧
      wire.resultJson result = some body := by
  rcases (machine wire).exists_of_getElem?_trace hStep with ⟨input, _, rfl⟩
  have hTouch :=
    serve_touch hFaithful ((machine wire).final system (inputs.take j)) input (wire.key fence)
  rcases hTouch.settles hSettles with ⟨result, hCall, hKey⟩ | ⟨result, hCall, _, hSame⟩
  · left
    rcases (hAnswered result hCall).stored hFaithful hAuthentic hStep with ⟨other, hOther, hResult⟩
    rw [← hKey] at hOther
    obtain rfl : body = other := Option.some.inj (hStored.symm.trans hOther)
    rw [hRead] at hResult
    rw [Option.some.inj hResult]
    exact hCall
  · exact Or.inr ⟨result, hCall, hSame.trans hStored⟩

def unknownReceipt : AgentResult Bytes Unit := ⟨1, .unknown (), .observing⟩

def foundReceipt : AgentResult Bytes Unit := ⟨1, .definite [7], .succeeded⟩

theorem emptyJournal_authentic : Authentic smallWire emptyJournal.database := by
  constructor
  · intro _ hKey
    cases hKey
  · intro _ _ hBody
    cases hBody

/- A receipt is offered, and its own answer settles it. -/
def answered : List (Input Unit Bytes Unit Bytes) :=
  [onHandle 0 (.begin startClaim 0), onHandle 0 (.finish startClaim (.ended [7])),
    onHandle 1 (.nextDeliveryResult true), onHandle 1 (.acknowledge foundReceipt)]

/- The answer for a receipt settles that receipt. -/
theorem answered_settles_own_receipt :
    ∃ step,
      ((machine smallWire).trace emptyJournal answered)[3]? =
        some step ∧
      (step.input.call.settles = some foundReceipt ∨
       ∃ result,
         step.input.call = .discardRejectedResult result ∧
         smallWire.resultJson result = some [1, 7]) := by
  have hAnswered : ∀ result, Call.settles (.acknowledge foundReceipt : Call Unit Bytes Unit Bytes) =
      some result → AnsweredFor smallWire ((machine smallWire).trace emptyJournal answered) 3
      result := by
    intro _ hResult
    obtain rfl := Option.some.inj hResult
    refine ⟨2, _, _, by omega, rfl, rfl, rfl, ?_, ?_⟩
    · intro _ hBody
      obtain rfl := Option.some.inj hBody
      decide
    · intro _ _ _ _
      omega
  let step :=
    (machine smallWire).step ((machine smallWire).final emptyJournal (answered.take 3))
      (onHandle 1 (.acknowledge foundReceipt))
  have hStored : (slot step.before.database (smallWire.key 1)).receipt = some [1, 7] := by
    decide +kernel
  have hSettles : Settles (slot step.before.database (smallWire.key 1))
      (slot step.output.system.database (smallWire.key 1)) := by
    refine Or.inl ⟨?_, ?_⟩
    · decide +kernel
    · decide +kernel
  exact ⟨step, rfl, settled_by_own_answer smallWire_faithful
      emptyJournal_authentic (j := 3) rfl hAnswered hStored
      rfl hSettles⟩

/-
  The unknown receipt is offered to one handle. Before its answer comes, another handle finds the
  outcome out.
-/
def overtaken : List (Input Unit Bytes Unit Bytes) :=
  [onHandle 0 (.begin startClaim 0), onHandle 0 (.finish startClaim (.unknown ())),
    onHandle 1 (.nextDeliveryResult true), onHandle 0 (.finish startClaim (.ended [7])),
    onHandle 1 (.acknowledge unknownReceipt), onHandle 1 (.markReconciled unknownReceipt)]

/- The answer for the unknown receipt settles the definite one, which is never delivered. -/
theorem stale_answer_settles_definite_receipt :
    ∃ offer acknowledging reconciling,
      ((machine smallWire).trace emptyJournal overtaken)[2]? =
        some offer ∧
      offer.output.reply =
        .ok (.delivery (some ⟨.recipeStart, unknownReceipt, false⟩)) ∧
      ((machine smallWire).trace emptyJournal overtaken)[4]? =
        some acknowledging ∧
      acknowledging.input.call.settles = some unknownReceipt ∧
      (slot acknowledging.before.database (smallWire.key 1)).receipt =
        some [1, 7] ∧
      smallWire.parseResult [1, 7] = some foundReceipt ∧
      Settles (slot acknowledging.before.database (smallWire.key 1))
        (slot acknowledging.output.system.database (smallWire.key 1)) ∧
      ((machine smallWire).trace emptyJournal overtaken)[5]? =
        some reconciling ∧
      reconciling.input.call.settles = some unknownReceipt ∧
      Settles (slot reconciling.before.database (smallWire.key 1))
        (slot reconciling.output.system.database (smallWire.key 1)) ∧
      pending reconciling.output.system.database = [] := by
  refine ⟨_, _, _, rfl, rfl, rfl, rfl, ?_, rfl, Or.inl ⟨?_, ?_⟩, rfl, rfl, Or.inr ⟨?_, ?_⟩, ?_⟩
  all_goals decide +kernel

end VonkForge.Journal
