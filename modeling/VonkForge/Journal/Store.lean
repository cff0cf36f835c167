import VonkForge.Journal.Tables

/-
  The calls of the agent journal (`vonk-agent/src/state.rs`).

  A call either returns with the database it leaves, or fails and leaves the database as it was: its
  writes are one transaction or a single statement. Only `acknowledge` and `supersede` make two
  statements that commit on their own, which are taken as one step here. Several handles share one
  database, and each keeps its own cursors.

  Main declarations:
    * `Handle`
    * `begin`, `finish`
    * `acknowledge`, `discardRejectedResult`
-/

----
-- Handles
----

namespace VonkForge.Journal

open Fallible

/-
  A handle of the journal. Without durable custody it only observes: its connection holds none of
  the tables.
-/
structure Handle where
  nodeId : String
  deliveryCursor : Int := 0
  observationCursor : Int := 0
  durableCustody : Bool := true

variable {P D U E : Type} (wire : Wire P D U E)

/- The key a fence is stored under. -/
def Wire.key (fence : Uuid) : Text := .utf8 (wire.fenceText fence)

variable (handle : Handle) (available : Bool)

/- A statement reaches the tables if the storage answers. -/
def reach : Except StateError Unit := require (handle.durableCustody && available) .database

----
-- Claims
----

inductive BeginDecision (D U : Type) where
  | execute
  | replay (result : AgentResult D U)

/- The accepted claim names the same work as this one. -/
def acceptedClaim (body : Bytes) (claim : AgentClaim P) : Except StateError (AgentClaim P) := do
  let accepted ← orFail (wire.parseClaim body) .protocol
  require (accepted.fence == claim.fence && accepted.operation == claim.operation) .identity
  let stored ← orFail (wire.payloadJson accepted.payload) .protocol
  let offered ← orFail (wire.payloadJson claim.payload) .protocol
  require (stored == offered) .identity
  return accepted

/- The stored receipt if it can be trusted. -/
def readReceipt (receipt : Option Bytes) (operation : AgentOperation)
    (fence : Uuid) : AgentResult D U :=
  let read := (receipt.bind wire.parseResult).filter fun result =>
      result.fence == fence && wire.validFor result operation
  read.getD (wire.uncertainReceipt operation fence)

/- Answer a claim whose fence is already stored. -/
def beginStored (stored : Entry) (claim : AgentClaim P) :
    Except StateError (BeginDecision D U) := do
  let operation ← orFail stored.operation.read .database
  match stored.claim with
  | none => pure ()
  | some body =>
    let accepted ← acceptedClaim wire body claim
    require (!(operation == accepted.operation.text && stored.receipt.isNone)) .busy
  -- A receipt bound to another operation proves nothing.
  let receipt :=
    if operation == claim.operation.text then stored.receipt
    else none
  return .replay (readReceipt wire receipt claim.operation claim.fence)

variable (database : Database) (claim : AgentClaim P)

def begin (now : Int) : Except StateError (Database × BeginDecision D U) := do
  require (wire.validClaim claim) .protocol
  require handle.durableCustody .resultState
  require (decide (now < claim.deadline)) .expired
  reach handle available
  match database.operations.find (wire.key claim.fence) with
  | none =>
    let body ← orFail (wire.claimJson claim) .protocol
    let operations ←
      database.operations.insert (wire.key claim.fence) (.utf8 claim.operation.text)
        (.utf8 (wire.timeText claim.deadline)) (some body)
    return ({ database with operations := operations }, .execute)
  | some stored =>
    let decision ← beginStored wire stored claim
    return (database, decision)

/- Make a result durable under its fence. -/
def record
    (finished : AgentResult D U) : Except StateError (Database × AgentResult D U) := do
  let result ← orFail (wire.revalidate finished) .resultState
  require (wire.validFor result claim.operation) .protocol
  let body ← orFail (wire.resultJson result) .protocol
  let key := wire.key claim.fence
  pure
    ({ database with
        operations := database.operations.update
            (fun entry => entry.fence == key)
            { receipt := fun _ => some body
              acknowledged := fun _ => false }
        rejections := deleteRejection database.rejections key,
        reconciled := deleteFence database.reconciled key },
      result)

/- Only an unknown receipt gives way, to a definite one. -/
def replaceReceipt (finished : AgentResult D U) :
    Option Bytes → Except StateError (Database × AgentResult D U)
  | none => record wire database claim finished
  | some body => do
      let previous ← orFail (wire.parseResult body) .protocol
      require (wire.validFor previous claim.operation) .protocol
      require (previous.fence == claim.fence) .identity
      require previous.result.isUnknown .stale
      -- Repeated uncertainty is not a new receipt.
      if finished.result.isUnknown then return (database, previous)
      else record wire database claim finished

def finish (executed : ExecutionResult E U) : Except StateError (Database × AgentResult D U) := do
  reach handle available
  let stored ← orFail (database.operations.find (wire.key claim.fence)) .stale
  let operation ← orFail stored.operation.read .database
  require (operation == claim.operation.text) .identity
  match stored.claim with
  | none => pure ()
  | some body => discard (acceptedClaim wire body claim)
  replaceReceipt wire database claim (wire.finishFor claim.operation claim.fence executed)
    stored.receipt

/- Renew the deadline of exactly the running fence. -/
def applyHeartbeat (request : AgentProgress) (directive : AgentDirective) :
    Except StateError Database := do
  require request.valid .protocol
  require (request.fence == directive.fence) .stale
  reach handle available
  let selected := fun entry : Entry => entry.fence == wire.key request.fence && entry.running
  require (database.operations.entries.any selected) .stale
  pure
    { database with
      operations := database.operations.update selected
          { deadline := fun _ => .utf8 (wire.timeText directive.deadline) } }

----
-- Refusals
----

def resultRetryMinSeconds : Nat := 15

def resultRetryMaxSeconds : Nat := 900

/- The largest value of a machine word, by its width. -/
def wordMax (width : Nat) : Nat := 2 ^ width - 1

/- A jittered exponential delay, in seconds. -/
def backoffDelay (attempt entropy minimum maximum : Nat) : Nat :=
  let multiplier := 2 ^ min attempt 62
  let base := min (min (minimum * multiplier) (wordMax 64)) maximum
  let lower := max (min (base * 3) (wordMax 64) / 4) minimum
  let upper := max (min (min (base * 5) (wordMax 64) / 4) maximum) lower
  lower + entropy % (upper - lower + 1)

def nanosecond : Int := 1000000000

structure ResultRejection where
  httpStatus : Nat
  code : String
  decision : String
  requestId : Option String
  reason : String
  observedAt : Int
  retryDueAt : Int
  rejections : Nat

/- A stored integer read back at a width in bits. -/
def readWord (width : Nat) (value : Int) : Option Nat :=
  if 0 ≤ value ∧ value ≤ wordMax width then some value.toNat
  else none

def findRejection (fence : Text) : Option RejectionRow :=
  database.rejections.find? fun row => row.fence == fence

/- A refusal whose columns and times can all be read. -/
def readRejection (row : RejectionRow) : Option ResultRejection := do
  let httpStatus ← readWord 16 row.httpStatus
  let code ← row.code.read
  let decision ← row.decision.read
  let requestId ←
    match row.requestId with
    | none => some none
    | some text => text.read.map some
  let reason ← row.reason.read
  let observed ← row.observedAt.read
  let due ← row.retryDueAt.read
  let rejections ← readWord 32 row.rejections
  let observedAt ← wire.parseTime observed
  let retryDueAt ← wire.parseTime due
  pure
    { httpStatus := httpStatus, code := code, decision := decision, requestId := requestId,
      reason := reason, observedAt := observedAt, retryDueAt := retryDueAt,
      rejections := rejections }

variable (result : AgentResult D U)

/- An unreadable record is no refusal, and stays in place. -/
def retainedRejection : Option ResultRejection :=
  if handle.durableCustody && available then
    (findRejection database (wire.key result.fence)).bind (readRejection wire)
  else none

/- The count and the first time of a readable record. -/
def previousRefusal (row : RejectionRow) : Option (Nat × String) := do
  let rejections ← readWord 32 row.rejections
  let observed ← row.observedAt.read
  return (rejections, observed)

def rejectResult (error : ControllerError) (now : Int) :
    Except StateError (Database × ResultRejection) := do
  require (wire.validResult result) .protocol
  reach handle available
  let key := wire.key result.fence
  let previous := (findRejection database key).bind previousRefusal
  let observedAt := (previous.bind fun stored => wire.parseTime stored.2).getD now
  let count :=
    match previous with
    | none => 0
    | some stored => stored.1
  let rejections := min (count + 1) (wordMax 32)
  let delay :=
    backoffDelay rejections (now % nanosecond).toNat resultRetryMinSeconds resultRetryMaxSeconds
  let retryDueAt := now + delay * nanosecond
  let row : RejectionRow :=
    { fence := key, httpStatus := error.status, code := .utf8 error.code,
      decision := .utf8 error.decision, requestId := error.requestId.map .utf8,
      reason := .utf8 error.context, observedAt := .utf8 (wire.timeText observedAt),
      retryDueAt := .utf8 (wire.timeText retryDueAt), rejections := rejections }
  pure
    ({ database with rejections := upsertRejection database.rejections row },
      { httpStatus := error.status, code := error.code, decision := error.decision,
        requestId := error.requestId, reason := error.context, observedAt := observedAt,
        retryDueAt := retryDueAt, rejections := rejections })

/- `Refusal::of_status(status).settles()`. -/
def refusalSettles (status : Nat) : Bool :=
  decide (400 ≤ status) && decide (status ≤ 499) && status != 401 && status != 403 && status != 429

/- Settle a refused delivery of exactly the stored bytes. -/
def discardRejectedResult : Except StateError Database := do
  require (wire.validResult result) .protocol
  let rejection ← orFail (retainedRejection wire handle available database result) .resultState
  require (refusalSettles rejection.httpStatus) .resultState
  let body ← orFail (wire.resultJson result) .protocol
  let key := wire.key result.fence
  let stored :=
    database.operations.entries.any fun entry => entry.fence == key && entry.receipt == some body
  require (stored || decide (key ∈ database.reconciled)) .stale
  pure
    { database with
      reconciled :=
        if stored then insertIgnore database.reconciled key
        else database.reconciled }

----
-- Settled Deliveries
----

/-
  The Controller's answer to a result ends its delivery: the stored receipt of the fence counts as
  acknowledged.
-/
def settleDelivery : Except StateError Database := do
  require (wire.validResult result) .protocol
  reach handle available
  let key := wire.key result.fence
  let selected := fun entry : Entry => entry.fence == key && entry.completed
  require (database.operations.entries.any selected) .stale
  pure
    { database with
      operations := database.operations.update selected
          { acknowledged := fun _ => true }
      rejections := deleteRejection database.rejections key }

def acknowledge : Except StateError Database := settleDelivery wire handle available database result

/- A result refused as no longer current is not sent again. -/
def supersede : Except StateError Database := settleDelivery wire handle available database result

def markReconciled : Except StateError Database := do
  require (wire.validResult result) .protocol
  reach handle available
  let key := wire.key result.fence
  let selected := database.operations.entries.any fun entry =>
      entry.fence == key && entry.completed && entry.acknowledged
  pure
    { database with
      reconciled :=
        if selected then insertIgnore database.reconciled key
        else database.reconciled }

def endObservation (fence : Uuid) : Except StateError Database := do
  reach handle available
  let key := wire.key fence
  let selected := database.operations.entries.any fun entry => entry.fence == key && entry.completed
  pure
    { database with
      observationEnded :=
        if selected then insertIgnore database.observationEnded key
        else database.observationEnded }

----
-- Delivery and Observation
----

def maxCompiledExecutionPlanClaimBytes : Nat := 18 * 1024 * 1024

/- `CASE WHEN length(column) <= limit THEN column END`. -/
def bounded (column : Option Bytes) : Option Bytes :=
  column.filter fun bytes => decide (bytes.length ≤ maxCompiledExecutionPlanClaimBytes)

structure Delivery (D U : Type) where
  operation : AgentOperation
  result : AgentResult D U
  acknowledged : Bool

variable (entry : Entry)

/- A completed row that no reconciliation settled. -/
def deliverable : Bool := entry.completed && !decide (entry.fence ∈ database.reconciled)

/- The next row to deliver after the handle's cursor. -/
def nextDelivery (cursor : Int) : Option Entry := database.operations.entries.find? fun entry =>
    deliverable database entry && decide (cursor < entry.rowid)

/- What a selected row is offered as, if it can be read. -/
def delivery : Option (Delivery D U) := do
  let fence ← entry.fence.read
  let operation ← entry.operation.read
  let operation ← AgentOperation.parse operation
  let fence ← wire.parseFence fence
  pure
    { operation := operation, result := readReceipt wire (bounded entry.receipt) operation fence,
      acknowledged := entry.acknowledged }

/-
  Offer one receipt. The cursor moves before the upload, and writing it to the metadata may fail
  (`saved`).
-/
def nextDeliveryResult (available saved : Bool)
    (database : Database) : Except StateError (Handle × Database × Option (Delivery D U)) :=
  if !handle.durableCustody then .ok (handle, database, none)
  else do
    reach handle available
    match nextDelivery database handle.deliveryCursor with
    | none =>
      pure
        ({ handle with deliveryCursor := 0 },
          if saved then { database with deliveryCursor := none }
          else database, none)
    | some entry =>
      pure
        ({ handle with deliveryCursor := entry.rowid },
          if saved then { database with deliveryCursor := some (.utf8 (toString entry.rowid)) }
          else database, delivery wire entry)

/- A row with an accepted claim and no final outcome. -/
def observable : Bool := entry.claim.isSome &&
    !decide (entry.fence ∈ database.observationEnded) &&
    (match entry.receipt with
      | none => true
      | some body => wire.kindUnknown body)

/- Rows past the cursor come first, then those up to it. -/
def nextObservation (cursor : Int) : Option Entry :=
  let due := database.operations.entries.filter (observable wire database)
  (due.find? fun entry => decide (cursor < entry.rowid)).or due.head?

/- The claim a selected row is observed under. A damaged deadline falls back to the claim's own. -/
def observedClaim (fence operation deadline : String) : Except StateError (AgentClaim P) := do
  let body ← orFail (bounded entry.claim) .resultState
  let accepted ← orFail (wire.parseClaim body) .protocol
  require (wire.validClaim accepted) .protocol
  let claim := { accepted with deadline := (wire.parseTime deadline).getD accepted.deadline }
  require (wire.fenceText claim.fence == fence && claim.operation.text == operation) .identity
  return claim

/- Select one row to observe. The cursor moves only once the columns of the row were read. -/
def observationClaims : Handle × Except StateError (List (AgentClaim P)) :=
  match reach handle available with
  | .error failure => (handle, .error failure)
  | .ok _ =>
    match nextObservation wire database handle.observationCursor
    with
    | none => (handle, .ok [])
    | some entry =>
      match entry.fence.read, entry.operation.read, entry.deadline.read with
      | some fence, some operation, some deadline =>
        ({ handle with observationCursor := entry.rowid },
          do
            let claim ← observedClaim wire entry fence operation deadline
            return [claim])
      | _, _, _ => (handle, .error .database)

----
-- Recovery and Reopening
----

/- End one running row that kept no accepted claim. -/
def recoverRow : Except StateError Database :=
  match entry.fence.read, entry.operation.read with
  | some fence, some word =>
    match AgentOperation.parse word, entry.claim, wire.parseFence fence with
    | some operation, none, some parsed => do
        let result := wire.finishFor operation parsed (.unknown wire.restartInterrupted)
        require (wire.validFor result operation) .protocol
        let body ← orFail (wire.resultJson result) .protocol
        pure
          { database with
            operations := database.operations.update
                (fun other => other.fence == entry.fence && other.running)
                { receipt := fun _ => some body
                  acknowledged := fun _ => false } }
    | _, _, _ => .ok database
  | _, _ => .ok database

def recoverInterrupted : Except StateError Database := do
  reach handle available
  (database.operations.entries.filter Entry.running).foldlM (recoverRow wire) database

/- `str::parse::<i64>`. -/
def parseI64 (text : String) : Option Int :=
  let magnitude (digits : List Char) : Option Nat :=
    if !digits.isEmpty && digits.all Char.isDigit then
      some (digits.foldl (fun total digit => total * 10 + (digit.toNat - '0'.toNat)) 0)
    else none
  let value :=
    match text.toList with
    | '-' :: digits => (magnitude digits).map fun total => -(total : Int)
    | '+' :: digits => (magnitude digits).map Int.ofNat
    | digits => (magnitude digits).map Int.ofNat
  value.filter fun total =>
    decide (-(2 ^ 63 : Int) ≤ total) &&
      decide (total < (2 ^ 63 : Int))

/- The delivery cursor a new handle starts from. -/
def storedCursor : Int :=
  let value := do
    let column ← database.deliveryCursor
    let text ← column.read
    let cursor ← parseI64 text
    if 0 ≤ cursor then some cursor else none
  value.getD 0

/-
  Open another handle of the same journal. The tables stay as they are, and a journal of another
  node is refused.
-/
def reopen : Except StateError (Database × Handle) := do
  require available .database
  let opened : Handle := { nodeId := handle.nodeId, deliveryCursor := storedCursor database }
  match database.nodeId with
  | none => pure ({ database with nodeId := some (.utf8 handle.nodeId) }, opened)
  | some column =>
    let stored ← orFail column.read .database
    require (stored == handle.nodeId) .identity
    pure (database, opened)

end VonkForge.Journal
