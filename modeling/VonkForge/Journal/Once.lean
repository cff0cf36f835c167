import VonkForge.Journal.Store

/-
  At most one execution per fence.

  A fence is executed when its row is inserted, and no call of any handle removes a row or renames
  its fence. Later claims under the fence therefore find the row, whatever its other columns hold.

  Main declarations:
    * `System`
    * `Call`, `Reply`
    * `serve_serving`
    * `Wrote` and `serve_wrote`
    * `execute_at_most_once`
-/

----
-- Handles sharing one Journal
----

namespace VonkForge.Journal

open Fallible

variable {P D U E : Type}

/- One journal and the handles that are open on it. -/
structure System where
  database : Database
  handles : Nat → Handle

/- The calls of a handle; a reopened one gets a new index. -/
inductive Call (P D U E : Type) where
  | begin (claim : AgentClaim P) (now : Int)
  | finish (claim : AgentClaim P) (executed : ExecutionResult E U)
  | applyHeartbeat (request : AgentProgress) (directive : AgentDirective)
  | rejectResult (result : AgentResult D U) (error : ControllerError) (now : Int)
  | discardRejectedResult (result : AgentResult D U)
  | nextDeliveryResult (saved : Bool)
  | acknowledge (result : AgentResult D U)
  | supersede (result : AgentResult D U)
  | markReconciled (result : AgentResult D U)
  | observationClaims
  | endObservation (fence : Uuid)
  | recoverInterrupted
  | reopen (opened : Nat)

/- What a call that succeeded returned. -/
inductive Reply (P D U : Type) where
  | began (decision : BeginDecision D U)
  | finished (result : AgentResult D U)
  | rejected (rejection : ResultRejection)
  | delivery (offered : Option (Delivery D U))
  | claims (claims : List (AgentClaim P))
  | done

/- One call: its handle, and whether the storage answers. -/
structure Input (P D U E : Type) where
  handle : Nat
  available : Bool
  call : Call P D U E

/- The system after a call, and its reply. -/
structure Served (P D U : Type) where
  system : System
  reply : Except StateError (Reply P D U)

variable (system : System)

/- A failed call leaves the journal as it was. -/
def serveResult {α : Type} (result : Except StateError (Database × α))
    (reply : α → Reply P D U) : Served P D U :=
  match result with
  | .error failure => { system := system, reply := .error failure }
  | .ok (database, value) =>
    { system := { system with database := database }, reply := .ok (reply value) }

/- The same for a call that returns nothing. -/
def serveUpdate (result : Except StateError Database) : Served P D U :=
  match result with
  | .error failure => { system := system, reply := .error failure }
  | .ok database => { system := { system with database := database }, reply := .ok .done }

def withHandle (index : Nat) (handle : Handle) : System :=
  { system with
    handles := fun other =>
      if other = index then handle
      else system.handles other }

def serve (wire : Wire P D U E) (system : System) (input : Input P D U E) : Served P D U :=
  let handle := system.handles input.handle
  let available := input.available
  let database := system.database
  match input.call with
  | .begin claim now =>
    serveResult system (Journal.begin wire handle available database claim now) .began
  | .finish claim executed =>
    serveResult system (Journal.finish wire handle available database claim executed) .finished
  | .applyHeartbeat request directive =>
    serveUpdate system (Journal.applyHeartbeat wire handle available database request directive)
  | .rejectResult result error now =>
    serveResult system (Journal.rejectResult wire handle available database result error now)
      .rejected
  | .discardRejectedResult result =>
    serveUpdate system (Journal.discardRejectedResult wire handle available database result)
  | .nextDeliveryResult saved =>
    match Journal.nextDeliveryResult wire handle available saved database with
    | .error failure => { system := system, reply := .error failure }
    | .ok (moved, database, offered) =>
      { system := withHandle { system with database := database } input.handle moved
        reply := .ok (.delivery offered) }
  | .acknowledge result =>
    serveUpdate system (Journal.acknowledge wire handle available database result)
  | .supersede result =>
    serveUpdate system (Journal.supersede wire handle available database result)
  | .markReconciled result =>
    serveUpdate system (Journal.markReconciled wire handle available database result)
  | .observationClaims =>
    let observed := Journal.observationClaims wire handle available database
    { system := withHandle system input.handle observed.1, reply := observed.2.map .claims }
  | .endObservation fence =>
    serveUpdate system (Journal.endObservation wire handle available database fence)
  | .recoverInterrupted =>
    serveUpdate system (Journal.recoverInterrupted wire handle available database)
  | .reopen opened =>
    match Journal.reopen handle available database with
    | .error failure => { system := system, reply := .error failure }
    | .ok (database, fresh) =>
      { system := withHandle { system with database := database } opened fresh
        reply := .ok .done }

/- The calls of all handles, in the order they commit. -/
def machine (wire : Wire P D U E) : Machine System (Input P D U E) (Served P D U) :=
  { answer := serve wire, next := Served.system }

----
-- Fences of the Operations Table
----

namespace Operations

variable (table : Operations)

/- The rows by their number and fence. -/
def rows : List (Int × Text) := table.entries.map fun entry => (entry.rowid, entry.fence)

@[simp] theorem update_rows (selected : Entry → Bool) (change : Change) :
    (table.update selected change).rows = table.rows := by
  simp only [rows, update, List.map_map]
  apply List.map_congr_left
  intro _ _
  simp only [Function.comp]
  split
  · rfl
  · rfl

theorem fences_eq_rows : table.fences = table.rows.map Prod.snd := by
  simp [fences, rows, Function.comp_def]

theorem insert_fences {table inserted : Operations} {fence operation deadline : Text}
    {claim : Option Bytes} (hInsert : table.insert fence operation deadline claim = .ok inserted) :
    fence ∉ table.fences ∧ inserted.fences = table.fences ++ [fence] := by
  unfold insert at hInsert
  split at hInsert
  · cases hInsert
  · next hFree =>
      refine ⟨hFree, ?_⟩
      rw [← Except.ok.inj hInsert]
      simp [fences]

end Operations

/- The call keeps every row under its fence. -/
def SameFences (before after : Database) : Prop :=
  after.operations.fences = before.operations.fences

/- It keeps them under their numbers, too. -/
def SameRows (before after : Database) : Prop := after.operations.rows = before.operations.rows

theorem SameRows.fences {before after : Database} (hRows : SameRows before after) :
    SameFences before after := by
  unfold SameFences
  rw [Operations.fences_eq_rows, hRows, ← Operations.fences_eq_rows]

----
-- What a Call writes
----

/- The result the Controller answered a call about. -/
def Call.settles : Call P D U E → Option (AgentResult D U)
  | .acknowledge result => some result
  | .supersede result => some result
  | .markReconciled result => some result
  | _ => none

/- The call claims an operation. -/
def Call.claims : Call P D U E → Bool
  | .begin _ _ => true
  | _ => false

/- A receipt is new, or a definite one in place of an unknown one. -/
def Replaceable (wire : Wire P D U E) (finished : AgentResult D U)
    (receipt : Option Bytes) : Prop :=
  receipt = none ∨
    ∃ body previous,
      receipt = some body ∧
      wire.parseResult body = some previous ∧
      previous.result.isUnknown = true ∧
      finished.result.isUnknown = false

/- Everything that a call can do to the journal. -/
inductive Wrote (wire : Wire P D U E) (database : Database) :
    Call P D U E → Database → Prop where
  -- The rows stay, and so does what is reconciled.
  | kept (call : Call P D U E) (after : Database)
      (hOperations : after.operations = database.operations)
      (hReconciled : after.reconciled = database.reconciled) :
      Wrote wire database call after
  | inserted (claim : AgentClaim P) (now : Int)
      (operation deadline : Text) (body : Option Bytes) (operations : Operations)
      (hInsert : database.operations.insert (wire.key claim.fence) operation deadline body =
        .ok operations) :
      Wrote wire database (.begin claim now) { database with operations := operations }
  | recorded (claim : AgentClaim P) (executed : ExecutionResult E U)
      (stored : Entry) (out : Database × AgentResult D U)
      (hStored : database.operations.find (wire.key claim.fence) = some stored)
      (hOperation : stored.operation.read = some claim.operation.text)
      (hBefore : Replaceable wire (wire.finishFor claim.operation claim.fence executed)
        stored.receipt)
      (hRecord : record wire database claim
        (wire.finishFor claim.operation claim.fence executed) = .ok out) :
      Wrote wire database (.finish claim executed) out.1
  | renewed (call : Call P D U E) (selected : Entry → Bool) (deadline : Text) :
      Wrote wire database call
        { database with
          operations := database.operations.update selected { deadline := fun _ => deadline } }
  | settled (call : Call P D U E) (result : AgentResult D U)
      (hCall : call.settles = some result)
      (hCompleted : database.operations.entries.any fun entry =>
        entry.fence == wire.key result.fence && entry.completed) :
      Wrote wire database call
        { database with
          operations := database.operations.update
            (fun entry => entry.fence == wire.key result.fence && entry.completed)
            { acknowledged := fun _ => true }
          rejections := deleteRejection database.rejections (wire.key result.fence) }
  | reconciled (call : Call P D U E) (result : AgentResult D U)
      (hCall : call.settles = some result) :
      Wrote wire database call
        { database with
          reconciled := insertIgnore database.reconciled (wire.key result.fence) }
  | discarded (result : AgentResult D U) (body : Bytes)
      (hBody : wire.resultJson result = some body)
      (hStored : database.operations.entries.any fun entry =>
        entry.fence == wire.key result.fence && entry.receipt == some body) :
      Wrote wire database (.discardRejectedResult result)
        { database with
          reconciled := insertIgnore database.reconciled (wire.key result.fence) }
  | recovered (after : Database)
      (hLoop : (database.operations.entries.filter Entry.running).foldlM (recoverRow wire)
        database = .ok after) :
      Wrote wire database .recoverInterrupted after

/- What a claim does: it replays, or inserts its fence. -/
inductive Began (wire : Wire P D U E) (database : Database) (claim : AgentClaim P) :
    Database × BeginDecision D U → Prop where
  | replayed (result : AgentResult D U) : Began wire database claim (database, .replay result)
  | executed (operation deadline : Text) (body : Option Bytes) (operations : Operations)
      (hInsert : database.operations.insert (wire.key claim.fence) operation deadline body =
        .ok operations) :
      Began wire database claim ({ database with operations := operations }, .execute)

variable {wire : Wire P D U E} {handle : Handle} {available : Bool} {database : Database}
variable {call : Call P D U E}

theorem beginStored_replays (stored : Entry) (claim : AgentClaim P) :
    Returns (fun decision => ∃ result, decision = .replay result) (beginStored wire stored claim) :=
    by
  unfold beginStored
  refine Returns.orFail fun operation hOperation => ?_
  cases stored.claim with
  | none => exact Returns.ok ⟨_, rfl⟩
  | some =>
    refine Returns.bind fun accepted hAccepted => ?_
    refine Returns.require fun hBusy => ?_
    exact Returns.ok ⟨_, rfl⟩

theorem begin_began (claim : AgentClaim P) (now : Int) :
    Returns (Began wire database claim) (begin wire handle available database claim now) := by
  unfold begin
  refine Returns.require fun hValid => ?_
  refine Returns.require fun hCustody => ?_
  refine Returns.require fun hDeadline => ?_
  refine Returns.bind fun _ hReach => ?_
  cases database.operations.find (wire.key claim.fence) with
  | none =>
    refine Returns.orFail fun body hBody => ?_
    refine Returns.bind fun operations hInsert => ?_
    exact Returns.ok (Began.executed _ _ _ operations hInsert)
  | some stored =>
    refine Returns.bind fun decision hDecision => ?_
    rcases beginStored_replays stored claim decision hDecision with ⟨result, rfl⟩
    exact Returns.ok (Began.replayed result)

theorem begin_wrote (claim : AgentClaim P) (now : Int) :
    Returns (fun out => Wrote wire database (.begin claim now) out.1)
      (begin wire handle available database claim now) := by
  intro out hOut
  cases begin_began claim now out hOut with
  | replayed => exact .kept _ _ rfl rfl
  | executed _ _ _ _ hInsert => exact .inserted _ _ _ _ _ _ hInsert

/- A result is recorded under its claim, or the receipt there is repeated. -/
theorem replaceReceipt_wrote {claim : AgentClaim P} {executed : ExecutionResult E U}
    {stored : Entry}
    (hStored : database.operations.find (wire.key claim.fence) = some stored)
    (hOperation : stored.operation.read = some claim.operation.text) :
    Returns (fun out => Wrote wire database (.finish claim executed) out.1)
      (replaceReceipt wire database claim (wire.finishFor claim.operation claim.fence executed)
        stored.receipt) := by
  cases hReceipt : stored.receipt with
  | none =>
    intro out hRecord
    exact .recorded _ _ stored out hStored hOperation (Or.inl hReceipt) hRecord
  | some body =>
    unfold replaceReceipt
    refine Returns.orFail fun previous hPrevious => ?_
    refine Returns.require fun hValid => ?_
    refine Returns.require fun hFence => ?_
    refine Returns.require fun hUnknown => ?_
    split
    · exact Returns.ok (.kept _ _ rfl rfl)
    · next hDefinite =>
        intro out hRecord
        refine .recorded _ _ stored out hStored hOperation ?_ hRecord
        exact Or.inr ⟨body, previous, hReceipt, hPrevious, hUnknown, by simpa using hDefinite⟩

theorem finish_wrote (claim : AgentClaim P) (executed : ExecutionResult E U) :
    Returns (fun out => Wrote wire database (.finish claim executed) out.1)
      (finish wire handle available database claim executed) := by
  unfold finish
  refine Returns.bind fun _ hReach => ?_
  refine Returns.orFail fun stored hStored => ?_
  refine Returns.orFail fun operation hOperation => ?_
  refine Returns.require fun hSame => ?_
  have hText : stored.operation.read = some claim.operation.text := by
    rw [hOperation]
    exact congrArg some (LawfulBEq.eq_of_beq hSame)
  cases stored.claim with
  | none => exact replaceReceipt_wrote hStored hText
  | some =>
    refine Returns.bind fun _ hAccepted => ?_
    exact replaceReceipt_wrote hStored hText

theorem applyHeartbeat_wrote (request : AgentProgress) (directive : AgentDirective) :
    Returns (Wrote wire database call)
      (applyHeartbeat wire handle available database request directive) := by
  unfold applyHeartbeat
  refine Returns.require fun hValid => ?_
  refine Returns.require fun hFence => ?_
  refine Returns.bind fun _ hReach => ?_
  refine Returns.require fun hRunning => ?_
  exact Returns.ok (.renewed _ _ _)

theorem rejectResult_wrote (result : AgentResult D U) (error : ControllerError) (now : Int) :
    Returns (fun out => Wrote wire database call out.1)
      (rejectResult wire handle available database result error now) := by
  unfold rejectResult
  refine Returns.require fun hValid => ?_
  refine Returns.bind fun _ hReach => ?_
  exact Returns.ok (.kept _ _ rfl rfl)

theorem discardRejectedResult_wrote (result : AgentResult D U) :
    Returns (Wrote wire database (.discardRejectedResult result))
      (discardRejectedResult wire handle available database result) := by
  unfold discardRejectedResult
  refine Returns.require fun hValid => ?_
  refine Returns.orFail fun rejection hRejection => ?_
  refine Returns.require fun hSettles => ?_
  refine Returns.orFail fun body hBody => ?_
  refine Returns.require fun hStored => ?_
  refine Returns.ok ?_
  split
  · next hSame => exact .discarded result body hBody hSame
  · exact .kept _ _ rfl rfl

theorem nextDeliveryResult_wrote (saved : Bool) :
    Returns (fun out => Wrote wire database call out.2.1)
      (nextDeliveryResult wire handle available saved database) := by
  unfold nextDeliveryResult
  split
  · exact Returns.ok (.kept _ _ rfl rfl)
  · refine Returns.bind fun _ hReach => ?_
    cases nextDelivery database handle.deliveryCursor with
    | none | some => cases saved <;> exact Returns.ok (.kept _ _ rfl rfl)

section

variable {result : AgentResult D U} (hCall : call.settles = some result)

include hCall

theorem settleDelivery_wrote :
    Returns (Wrote wire database call)
      (settleDelivery wire handle available database result) := by
  unfold settleDelivery
  refine Returns.require fun hValid => ?_
  refine Returns.bind fun _ hReach => ?_
  refine Returns.require fun hCompleted => ?_
  exact Returns.ok (.settled _ result hCall hCompleted)

theorem markReconciled_wrote :
    Returns (Wrote wire database call)
      (markReconciled wire handle available database result) := by
  unfold markReconciled
  refine Returns.require fun hValid => ?_
  refine Returns.bind fun _ hReach => ?_
  refine Returns.ok ?_
  split
  · exact .reconciled _ result hCall
  · exact .kept _ _ rfl rfl

end

theorem endObservation_wrote (fence : Uuid) :
    Returns (Wrote wire database call) (endObservation wire handle available database fence) := by
  unfold endObservation
  refine Returns.bind fun _ hReach => ?_
  exact Returns.ok (.kept _ _ rfl rfl)

theorem recoverInterrupted_wrote :
    Returns (Wrote wire database .recoverInterrupted)
      (recoverInterrupted wire handle available database) := by
  unfold recoverInterrupted
  refine Returns.bind fun _ hReach => ?_
  exact fun after hLoop => .recovered after hLoop

theorem reopen_wrote :
    Returns (fun out => Wrote wire database call out.1) (reopen handle available database) := by
  unfold reopen
  refine Returns.require fun hAvailable => ?_
  cases database.nodeId with
  | none => exact Returns.ok (.kept _ _ rfl rfl)
  | some =>
    refine Returns.orFail fun stored hStored => ?_
    refine Returns.require fun hSame => ?_
    exact Returns.ok (.kept _ _ rfl rfl)

variable {system : System}

theorem serveResult_wrote {α : Type} {result : Except StateError (Database × α)}
    (hResult : Returns (fun out => Wrote wire system.database call out.1) result)
    (reply : α → Reply P D U) :
    Wrote wire system.database call (serveResult system result reply).system.database := by
  cases result with
  | error => exact .kept _ _ rfl rfl
  | ok out => exact hResult out rfl

theorem serveUpdate_wrote {result : Except StateError Database}
    (hResult : Returns (Wrote wire system.database call) result) :
    Wrote wire system.database call
      (serveUpdate system result : Served P D U).system.database := by
  cases result with
  | error => exact .kept _ _ rfl rfl
  | ok database => exact hResult database rfl

theorem serve_wrote (wire : Wire P D U E) (system : System) (input : Input P D U E) :
    Wrote wire system.database input.call (serve wire system input).system.database := by
  rcases input with ⟨index, available, call⟩
  cases call with
  | begin claim now => exact serveResult_wrote (begin_wrote claim now) _
  | finish claim executed => exact serveResult_wrote (finish_wrote claim executed) _
  | applyHeartbeat request directive =>
    exact serveUpdate_wrote (applyHeartbeat_wrote request directive)
  | rejectResult result error now => exact serveResult_wrote (rejectResult_wrote result error now) _
  | discardRejectedResult result => exact serveUpdate_wrote (discardRejectedResult_wrote result)
  | nextDeliveryResult saved =>
    simp only [serve]
    split
    · exact .kept _ _ rfl rfl
    · next hOk => exact nextDeliveryResult_wrote saved _ hOk
  | acknowledge | supersede => exact serveUpdate_wrote (settleDelivery_wrote rfl)
  | markReconciled => exact serveUpdate_wrote (markReconciled_wrote rfl)
  | observationClaims => exact .kept _ _ rfl rfl
  | endObservation fence => exact serveUpdate_wrote (endObservation_wrote fence)
  | recoverInterrupted => exact serveUpdate_wrote recoverInterrupted_wrote
  | reopen opened =>
    simp only [serve]
    split
    · exact .kept _ _ rfl rfl
    · next hOk => exact reopen_wrote _ hOk

----
-- Rows
----

theorem record_sameRows (claim : AgentClaim P) (finished : AgentResult D U) :
    Returns (fun out => SameRows database out.1) (record wire database claim finished) := by
  unfold record
  refine Returns.orFail fun result hResult => ?_
  refine Returns.require fun hValid => ?_
  refine Returns.orFail fun body hBody => ?_
  exact Returns.ok (Operations.update_rows _ _ _)

theorem recoverRow_sameRows (database : Database) (entry : Entry) :
    Returns (SameRows database) (recoverRow wire database entry) := by
  unfold recoverRow
  split
  · split
    · refine Returns.require fun hValid => ?_
      refine Returns.orFail fun body hBody => ?_
      exact Returns.ok (Operations.update_rows _ _ _)
    · exact Returns.ok rfl
  · exact Returns.ok rfl

/- A call keeps the rows, or it is a claim that adds one. -/
theorem Wrote.rows {after : Database} (hWrote : Wrote wire database call after) :
    SameRows database after ∨
      call.claims = true ∧
      ∃ fence operation deadline body,
        database.operations.insert fence operation deadline body = .ok after.operations := by
  cases hWrote with
  | kept _ _ hOperations => exact Or.inl (congrArg Operations.rows hOperations)
  | inserted _ _ _ _ _ _ hInsert => exact Or.inr ⟨rfl, _, _, _, _, hInsert⟩
  | recorded _ _ _ _ _ _ _ hRecord => exact Or.inl (record_sameRows _ _ _ hRecord)
  | renewed | settled => exact Or.inl (Operations.update_rows _ _ _)
  | reconciled | discarded => exact Or.inl rfl
  | recovered _ hLoop =>
    -- The loop keeps the rows of the journal it started on.
    left
    revert hLoop
    apply Returns.foldlM
    · intro current entry _ hCurrent next hNext
      exact (recoverRow_sameRows current entry next hNext).trans hCurrent
    · rfl

----
-- Every Call
----

/- A call keeps the fences, or executes a claim of a new one. -/
inductive Serving (wire : Wire P D U E) (system : System)
    (input : Input P D U E) (served : Served P D U) : Prop where
  | kept (hFences : SameFences system.database served.system.database)
      (hReply : ∀ claim now, input.call = .begin claim now → served.reply ≠ .ok (.began .execute))
  | executed (claim : AgentClaim P) (now : Int) (hCall : input.call = .begin claim now)
      (hFree : wire.key claim.fence ∉ system.database.operations.fences)
      (hFences : served.system.database.operations.fences = system.database.operations.fences ++
        [wire.key claim.fence])

variable {input : Input P D U E} {served : Served P D U} {fence : Uuid}

/- Only a claim can be answered `Execute`. -/
theorem Serving.unclaimed {wire : Wire P D U E}
    (hRows : SameRows system.database served.system.database) (hCall : input.call.claims = false) :
    Serving wire system input served := by
  refine Serving.kept hRows.fences ?_
  intro _ _ hBegin
  rw [hBegin] at hCall
  cases hCall

section

variable (wire : Wire P D U E) (system : System) (input : Input P D U E)

/- Every call keeps the fences, or is the execution of a new one. -/
theorem serve_serving :
    Serving wire system input (serve wire system input) := by
  cases hCall : input.call.claims with
  | false =>
    have hRows := (serve_wrote wire system input).rows.resolve_right (by simp [hCall])
    exact Serving.unclaimed hRows hCall
  | true =>
    rcases input with ⟨index, available, call⟩
    cases call with
    | begin claim now =>
      cases hBegin :
          Journal.begin wire (system.handles index) available system.database claim now with
      | error =>
        simp only [serve, hBegin, serveResult]
        refine Serving.kept rfl ?_
        intro _ _ _ hReply
        cases hReply
      | ok out =>
        simp only [serve, hBegin, serveResult]
        cases begin_began claim now out hBegin with
        | replayed =>
          refine Serving.kept rfl ?_
          intro _ _ _ hReply
          cases hReply
        | executed _ _ _ _ hInsert =>
          rcases Operations.insert_fences hInsert with ⟨hFree, hFences⟩
          exact Serving.executed claim now rfl hFree hFences
    | _ => cases hCall

end

----
-- Runs
----

abbrev Step (P D U E : Type) := Machine.Step System (Input P D U E) (Served P D U)

/- The step is a claim of the fence, answered `Execute`. -/
def executes (fence : Uuid) (step : Step P D U E) : Bool :=
  match step.input.call, step.output.reply with
  | .begin claim _, .ok (.began .execute) => claim.fence == fence
  | _, _ => false

theorem executes_inversion {step : Step P D U E} (hExecutes : executes fence step) :
    ∃ claim now, step.input.call = .begin claim now ∧ claim.fence = fence ∧
    step.output.reply = .ok (.began .execute) := by
  unfold executes at hExecutes
  split at hExecutes
  · next claim now hCall hReply => exact ⟨claim, now, hCall, by simpa using hExecutes, hReply⟩
  · cases hExecutes

/- The fence has a row, which is what `Execute` needs not. -/
def Known (wire : Wire P D U E) (fence : Uuid) (system : System) : Prop :=
  wire.key fence ∈ system.database.operations.fences

theorem Serving.known (hServing : Serving wire system input served)
    (hKnown : Known wire fence system) : Known wire fence served.system := by
  unfold Known at hKnown ⊢
  cases hServing with
  | kept hFences =>
    rw [hFences]
    exact hKnown
  | executed _ _ _ _ hFences =>
    rw [hFences]
    exact List.mem_append_left _ hKnown

/- An executed fence was unknown, and is known afterwards. -/
theorem Serving.executes (hServing : Serving wire system input served)
    (hExecutes : executes fence ⟨system, input, served⟩) : ¬ Known wire fence system ∧
    Known wire fence served.system := by
  rcases executes_inversion hExecutes with ⟨claim, now, hBegin, rfl, hReply⟩
  cases hServing with
  | kept _ hRefused => exact absurd hReply (hRefused claim now hBegin)
  | executed other _ hCall hFree hFences =>
    have hSame : other = claim := by
      have hBoth := hCall.symm.trans hBegin
      simp only [Call.begin.injEq] at hBoth
      exact hBoth.1
    subst hSame
    refine ⟨hFree, ?_⟩
    unfold Known
    rw [hFences]
    exact List.mem_append_right _ List.mem_cons_self

/-
  At most one execution per fence. In every run of calls on any number of handles of one journal,
  whatever the journal held before, a claim of a fence is answered `Execute` at most once.
-/
theorem execute_at_most_once
    (wire : Wire P D U E)
    (system : System)
    (inputs : List (Input P D U E))
    (fence : Uuid) :
    ((machine wire).trace system inputs).countP (executes fence) ≤
      1 := by
  -- The mark that an execution sets is the row of the fence.
  apply (machine wire).countP_le_one_of_mark (Known wire fence)
  · intro state input hKnown
    exact (serve_serving wire state input).known hKnown
  · intro state input hExecutes
    exact (serve_serving wire state input).executes hExecutes

end VonkForge.Journal
