import VonkForge.Foundations.Run

/-
  The activation transaction of a package upgrade (`package_rollback/activation.rs`, `recovery.rs`
  and `store.rs`).

  A candidate is armed with a deadline. The Controller may acknowledge it, or the watchdog restores
  the captured source. Every program works under the lock of the store and may crash before any of
  its steps. The steps between two crashes are those that read the clock or the disk or write to it.

  Main declarations:
    * `Transaction`
    * `prepareTransaction`
    * `Program`
-/

----
-- Transactions
----

namespace VonkForge.Rollback

inductive Phase where
  | armed
  | activationFailed
  | acknowledged
  | rollingBack
  | rolledBack
  | rollbackFailed
deriving DecidableEq

/- `PackageActivationOutcome`. -/
inductive Outcome where
  | awaitingControllerActivation
  | candidateInstallFailed
  | controllerConfirmedActivation
  | restoringCapturedSource
  | sourceRestoredAndRestarted
  | sourceRestoreFailed
deriving DecidableEq

structure Source where
  packageSha256 : String
  packageSignature : String
  packageVersion : String
  binarySha256 : String
  helperSha256 : String
deriving DecidableEq

structure Authority where
  source : Source
  attemptNonce : String
  activationDeadline : Int
deriving DecidableEq

structure Transaction where
  schemaVersion : Nat
  nodeId : String
  candidateSha256 : String
  candidateVersion : String
  candidateBinarySha256 : String
  candidateHelperSha256 : String
  rollback : Authority
  phase : Phase
  createdAt : Int
  updatedAt : Int
  outcome : Outcome
deriving DecidableEq

def Transaction.nonce (tx : Transaction) : String := tx.rollback.attemptNonce

def Transaction.deadline (tx : Transaction) : Int := tx.rollback.activationDeadline

def hexDigit (letter : Char) : Bool := letter.isDigit ∨ ('a' ≤ letter ∧ letter ≤ 'f')

variable (value : String)

def isHex (length : Nat) : Bool := value.toList.length = length ∧ value.toList.all hexDigit

def isVersion : Bool := value.toList.head?.any Char.isAlphanum ∧ value.toList.length ≤ 128 ∧
    value.toList.all (fun letter => letter.isAlphanum ∨ letter ∈ ".+~:-".toList)

def isNode : Bool := value.toList.length = 36 ∧ value.toList.take 4 = "spk_".toList ∧
    (value.toList.drop 4).all hexDigit

/- `PackageRollbackAuthority::valid`. -/
def Authority.valid (authority : Authority) : Bool :=
  isHex authority.source.packageSha256 64 ∧ isHex authority.source.packageSignature 128 ∧
    isHex authority.source.binarySha256 64 ∧ isHex authority.source.helperSha256 64 ∧
    isHex authority.attemptNonce 64 ∧ 0 < authority.activationDeadline ∧
    isVersion authority.source.packageVersion

/- `PackageActivationReceipt::validate` of the receipt. -/
def Transaction.receiptValid (tx : Transaction) : Bool :=
  isNode tx.nodeId ∧ isHex tx.rollback.source.packageSha256 64 ∧
    isHex tx.rollback.source.binarySha256 64 ∧ isHex tx.candidateSha256 64 ∧
    isHex tx.candidateBinarySha256 64 ∧ isHex tx.rollback.attemptNonce 64 ∧
    isVersion tx.rollback.source.packageVersion ∧ isVersion tx.candidateVersion ∧ 1 ≤ tx.createdAt ∧
    tx.createdAt ≤ tx.updatedAt

/- The next entry of the journal for the same attempt. -/
def Transaction.record (tx : Transaction) (phase : Phase) (outcome : Outcome)
    (updatedAt : Int) : Transaction :=
  { tx with phase := phase, outcome := outcome, updatedAt := updatedAt }

/- A package file, with what `dpkg-deb` says about it. -/
structure PackageFile where
  sha256 : String
  package : String
  architecture : String
  version : String
  binarySha256 : String
  helperSha256 : String
deriving DecidableEq

structure PrepareRequest where
  node : String
  source : PackageFile
  candidate : PackageFile
  candidateSha256 : String
  authority : Authority
deriving DecidableEq

def PackageFile.isAgent (file : PackageFile) : Bool :=
  file.package = "vonk-forge-agent" ∧ file.architecture = "arm64"

variable (request : PrepareRequest) (timestamp : Int)

/- The checks of `prepare`, before it takes the lock. -/
def prepareTransaction : Except String Transaction :=
  if isNode request.node = false ∨ request.authority.valid = false ∨
    request.authority.activationDeadline ≤ timestamp
  then .error "invalid activation deadline or source"
  else if
    request.source.sha256 ≠ request.authority.source.packageSha256 ∨
      request.candidate.sha256 ≠ request.candidateSha256
  then .error "authorized package digest differs"
  else if request.source.isAgent = false ∨ request.candidate.isAgent = false
  then .error "package identity mismatch"
  else if
    request.source.binarySha256 ≠ request.authority.source.binarySha256 ∨
      request.source.helperSha256 ≠ request.authority.source.helperSha256
  then .error ("signed source payload does not match captured " ++ "installed identity")
  else
    .ok
      { schemaVersion := 2, nodeId := request.node, candidateSha256 := request.candidateSha256,
        candidateVersion := request.candidate.version,
        candidateBinarySha256 := request.candidate.binarySha256,
        candidateHelperSha256 := request.candidate.helperSha256, rollback := request.authority,
        phase := .armed, createdAt := timestamp, updatedAt := timestamp,
        outcome := .awaitingControllerActivation }

/- `check_acknowledgement`. -/
def checkAcknowledgement (tx : Transaction) (node candidate nonce : String)
    (timestamp : Int) : Bool :=
  tx.nodeId = node ∧ tx.candidateSha256 = candidate ∧ tx.nonce = nonce ∧
    (tx.phase = .armed ∨ tx.phase = .acknowledged) ∧ timestamp < tx.deadline

def rollbackRetryTimeout : Int := 600

/- `rollback_retry_budget`, on saturating 64-bit integers. -/
def rollbackRetryBudget (tx : Transaction) (timestamp : Int) : Option Int :=
  let deadline := min (tx.deadline + rollbackRetryTimeout) (2 ^ 63 - 1)
  let remaining := max (-2 ^ 63) (min (deadline - timestamp) (2 ^ 63 - 1))
  if 0 < remaining then some (min remaining rollbackRetryTimeout)
  else none

----
-- Programs Under the Lock
----

/- The journal, the captured package, what is installed. -/
structure Disk where
  journal : Option Transaction
  sourceDeb : Option PackageFile
  agent : Option String
  helper : Option String
deriving DecidableEq

/- Where the holder of the lock is. `tx` is the transaction that it read or wrote last. -/
inductive Program where
  | prepareCopy (tx : Transaction) (source : PackageFile)
  | prepareRunner (tx : Transaction)
  | prepareWrite (tx : Transaction)
  | acknowledgeRead (node candidate nonce : String)
  | acknowledgeCheck (node candidate nonce : String) (tx : Transaction)
  | acknowledgeWrite (tx : Transaction) (clock : Int)
  | failRead
  | failWrite (tx : Transaction)
  | watchRead
  | watchDecide (tx : Transaction)
  | watchBudget (tx : Transaction)
  | watchReconcile (tx : Transaction)
  | watchMark (tx : Transaction) (timestamp : Int)
  | restoreCheck (tx : Transaction) (timestamp : Int)
  | restoreInstall (tx : Transaction) (timestamp : Int)
  | restoreVerify (tx : Transaction) (timestamp : Int)
  | watchFinish (tx : Transaction) (timestamp : Int) (restored : Bool)
deriving DecidableEq

/-
  What a step meets: the clock, whether its commands and its input and output succeed, whether a
  write that fails was published before it did, whether the process was proven to run, and whether
  there is time to try again.
-/
structure Reading where
  clock : Option Int
  succeeds : Bool
  published : Bool
  proven : Bool
  retries : Bool
deriving DecidableEq

inductive Event where
  | prepared (tx : Transaction)
  | acknowledged (tx : Transaction) (clock : Int)
  | reportedFailed (tx : Transaction)
  | deadlineReached (tx : Transaction) (clock : Int)
  | rollingBack (tx : Transaction) (timestamp : Int)
  | restoring (tx : Transaction) (timestamp : Int)
  | installs (tx : Transaction) (sha256 : Option String)
deriving DecidableEq

/- What a step does. Without a program, the lock is free. -/
structure Effect where
  disk : Disk
  program : Option Program
  event : Option Event
deriving DecidableEq

variable (disk : Disk)

/- The end of a program. -/
def leave : Effect where
  disk := disk
  program := none
  event := none

def goOn (program : Program) : Effect where
  disk := disk
  program := some program
  event := none

variable (reading : Reading)

/- `read`. -/
def Disk.read : Option Transaction :=
  if reading.succeeds then disk.journal.filter (fun tx => tx.schemaVersion = 2 ∧ tx.rollback.valid)
  else none

/-
  `write`: the journal is published before the receipt, so a write may fail with the journal
  replaced.
-/
def Reading.publishes : Bool := reading.succeeds || reading.published

def writes (tx : Transaction) (reading : Reading) : Bool := reading.succeeds && tx.receiptValid

/- Write the journal, and leave whether or not it worked. -/
def writeLast (tx : Transaction) (reading : Reading) (event : Option Event) : Effect :=
  if reading.publishes then
    { disk := { disk with journal := some tx }, program := none, event := event }
  else leave disk

/- After a failed attempt: another one, or the end. -/
def retryRestore (tx : Transaction) (timestamp : Int) (reading : Reading) : Program :=
  if reading.retries then .restoreCheck tx timestamp
  else .watchFinish tx timestamp false

/- An executable that is there is the source's or ours. -/
def isKnown (installed : Option String) (source candidate : String) : Bool :=
  installed.all (fun digest => digest = source ∨ digest = candidate)

/- What `restore` checks before it stops anything. -/
def restoreAllowed (tx : Transaction) : Bool :=
  disk.sourceDeb.any (fun file => file.sha256 = tx.rollback.source.packageSha256) ∧
    isKnown disk.agent tx.rollback.source.binarySha256 tx.candidateBinarySha256 ∧
    isKnown disk.helper tx.rollback.source.helperSha256 tx.candidateHelperSha256

def sourceInstalled (tx : Transaction) : Bool := disk.agent = some tx.rollback.source.binarySha256 ∧
    disk.helper = some tx.rollback.source.helperSha256

def candidateInstalled (tx : Transaction) : Bool :=
  disk.agent = some tx.candidateBinarySha256 ∧ disk.helper = some tx.candidateHelperSha256

/- The last entry of the journal after a restore. -/
def Transaction.settled (tx : Transaction) (restored : Bool) (updatedAt : Int) : Transaction :=
  if restored then tx.record .rolledBack .sourceRestoredAndRestarted updatedAt
  else tx.record .rollbackFailed .sourceRestoreFailed updatedAt

----
-- Prepare
----

def advancePrepareCopy (tx : Transaction) (source : PackageFile) (reading : Reading) : Effect :=
  let copied := { disk with sourceDeb := some source }
  if reading.succeeds then goOn copied (.prepareRunner tx)
  else if reading.published then leave copied
  else leave disk

def advancePrepareRunner (tx : Transaction) (reading : Reading) : Effect :=
  if reading.succeeds then goOn disk (.prepareWrite tx)
  else leave disk

def advancePrepareWrite (tx : Transaction) (reading : Reading) : Effect :=
  writeLast disk tx reading (some (.prepared tx))

----
-- Acknowledge and Fail
----

variable (node candidate nonce : String)

def advanceAcknowledgeRead (reading : Reading) : Effect :=
  match disk.read reading with
  | none => leave disk
  | some tx => goOn disk (.acknowledgeCheck node candidate nonce tx)

def advanceAcknowledgeCheck (tx : Transaction) (reading : Reading) : Effect :=
  match reading.clock with
  | none => leave disk
  | some clock =>
    if checkAcknowledgement tx node candidate nonce clock
    then goOn disk (.acknowledgeWrite tx clock)
    else leave disk

def advanceAcknowledgeWrite (tx : Transaction) (clock : Int) (reading : Reading) : Effect :=
  match reading.clock with
  | none => leave disk
  | some updatedAt =>
    if candidateInstalled disk tx then
      writeLast disk (tx.record .acknowledged .controllerConfirmedActivation updatedAt) reading
        (some (.acknowledged tx clock))
    else leave disk

def advanceFailRead : Effect :=
  match disk.read reading with
  | none => leave disk
  | some tx =>
    if tx.phase = .armed then goOn disk (.failWrite tx)
    else leave disk

def advanceFailWrite (tx : Transaction) (reading : Reading) : Effect :=
  match reading.clock with
  | none => leave disk
  | some updatedAt =>
    writeLast disk (tx.record .activationFailed .candidateInstallFailed updatedAt) reading
      (some (.reportedFailed tx))

----
-- Watch
----

def advanceWatchRead : Effect :=
  match disk.read reading with
  | none => leave disk
  | some tx => goOn disk (.watchDecide tx)

/- An armed transaction is left alone until its deadline. -/
def advanceArmed (tx : Transaction) (reading : Reading) : Effect :=
  match reading.clock with
  | none => leave disk
  | some clock =>
    if clock < tx.deadline then leave disk
    else
      { disk := disk, program := some (.watchBudget tx), event := some (.deadlineReached tx clock) }

def advanceWatchDecide (tx : Transaction) (reading : Reading) : Effect :=
  match tx.phase with
  | .acknowledged | .rolledBack => leave disk
  | .armed => advanceArmed disk tx reading
  | .activationFailed | .rollingBack | .rollbackFailed => goOn disk (.watchBudget tx)

def advanceWatchBudget (tx : Transaction) (reading : Reading) : Effect :=
  match reading.clock with
  | none => leave disk
  | some timestamp =>
    match rollbackRetryBudget tx timestamp with
    | none => goOn disk (.watchReconcile tx)
    | some _ => goOn disk (.watchMark tx timestamp)

/- At expiry, effects are reconciled and nothing is tried. -/
def advanceWatchReconcile (tx : Transaction) (reading : Reading) : Effect :=
  match reading.clock with
  | none => leave disk
  | some updatedAt =>
    writeLast disk (tx.settled (sourceInstalled disk tx && reading.proven) updatedAt) reading none

def advanceWatchMark (tx : Transaction) (timestamp : Int) (reading : Reading) : Effect :=
  let marked := tx.record .rollingBack .restoringCapturedSource timestamp
  if writes marked reading then
    { disk := { disk with journal := some marked }
      program := some (.restoreCheck marked timestamp)
      event := some (.rollingBack marked timestamp) }
  else writeLast disk marked reading (some (.rollingBack marked timestamp))

/- An attempt of `restore` starts with its checks. -/
def advanceRestoreCheck (tx : Transaction) (timestamp : Int) (reading : Reading) : Effect :=
  { disk := disk
    program := some
        (if reading.succeeds ∧ restoreAllowed disk tx then .restoreInstall tx timestamp
        else retryRestore tx timestamp reading)
    event := some (.restoring tx timestamp) }

def Disk.install : Disk :=
  { disk with
    agent := disk.sourceDeb.map PackageFile.binarySha256,
    helper := disk.sourceDeb.map PackageFile.helperSha256 }

def advanceRestoreInstall (tx : Transaction) (timestamp : Int) (reading : Reading) : Effect :=
  let event := some (.installs tx (disk.sourceDeb.map PackageFile.sha256))
  if reading.succeeds then
    { disk := disk.install, program := some (.restoreVerify tx timestamp), event := event }
  else { disk := disk, program := some (retryRestore tx timestamp reading), event := event }

def advanceRestoreVerify (tx : Transaction) (timestamp : Int) (reading : Reading) : Effect :=
  if sourceInstalled disk tx ∧ reading.succeeds ∧ reading.proven
  then goOn disk (.watchFinish tx timestamp true)
  else goOn disk (retryRestore tx timestamp reading)

def advanceWatchFinish (tx : Transaction) (restored : Bool) (reading : Reading) : Effect :=
  match reading.clock with
  | none => leave disk
  | some updatedAt => writeLast disk (tx.settled restored updatedAt) reading none

/- The next step of the holder of the lock. -/
def advance : Program → Effect
  | .prepareCopy tx source => advancePrepareCopy disk tx source reading
  | .prepareRunner tx => advancePrepareRunner disk tx reading
  | .prepareWrite tx => advancePrepareWrite disk tx reading
  | .acknowledgeRead node candidate nonce =>
    advanceAcknowledgeRead disk node candidate nonce reading
  | .acknowledgeCheck node candidate nonce tx =>
    advanceAcknowledgeCheck disk node candidate nonce tx reading
  | .acknowledgeWrite tx clock => advanceAcknowledgeWrite disk tx clock reading
  | .failRead => advanceFailRead disk reading
  | .failWrite tx => advanceFailWrite disk tx reading
  | .watchRead => advanceWatchRead disk reading
  | .watchDecide tx => advanceWatchDecide disk tx reading
  | .watchBudget tx => advanceWatchBudget disk tx reading
  | .watchReconcile tx => advanceWatchReconcile disk tx reading
  | .watchMark tx timestamp => advanceWatchMark disk tx timestamp reading
  | .restoreCheck tx timestamp => advanceRestoreCheck disk tx timestamp reading
  | .restoreInstall tx timestamp => advanceRestoreInstall disk tx timestamp reading
  | .restoreVerify tx timestamp => advanceRestoreVerify disk tx timestamp reading
  | .watchFinish tx _ restored => advanceWatchFinish disk tx restored reading

----
-- The Store
----

/-
  The disk, the holder of the lock, the nonces that were prepared, what the holder did so far in its
  pass, and all that was done.
-/
structure Store where
  disk : Disk
  holder : Option Program
  used : List String
  pass : List Event
  log : List Event
deriving DecidableEq

inductive Input where
  | prepare (request : PrepareRequest) (timestamp : Int)
  | acknowledge (node candidate nonce : String)
  | activationFailed
  | watch
  | advance (reading : Reading)
  | crash
  | change (agent helper : Option String)
deriving DecidableEq

structure Output where
  event : Option Event
  store : Store
deriving DecidableEq

variable (store : Store)

/- A program takes the lock, if it is free. -/
def Store.enter (program : Program) : Output where
  event := none
  store :=
    if store.holder = none then { store with holder := some program, pass := [] }
    else store

/-
  A request with a new nonce. The Controller draws a nonce for each attempt, so none is prepared
  again.
-/
def Store.prepare : Output :=
  match prepareTransaction request timestamp with
  | .error _ => { event := none, store := store }
  | .ok tx =>
    if tx.nonce ∈ store.used ∨ store.holder ≠ none then { event := none, store := store }
    else
      { event := none
        store :=
          { store with
            holder := some (.prepareCopy tx request.source), used := tx.nonce :: store.used,
            pass := [] } }

def Store.advance (store : Store) (reading : Reading) : Output :=
  match store.holder with
  | none => { event := none, store := store }
  | some program =>
    let effect := Rollback.advance store.disk reading program
    { event := effect.event
      store :=
        { disk := effect.disk, holder := effect.program, used := store.used,
          pass := store.pass ++ effect.event.toList, log := store.log ++ effect.event.toList } }

def Store.serve : Input → Output
  | .prepare request timestamp => store.prepare request timestamp
  | .acknowledge node candidate nonce => store.enter (.acknowledgeRead node candidate nonce)
  | .activationFailed => store.enter .failRead
  | .watch => store.enter .watchRead
  | .advance reading => store.advance reading
  | .crash => { event := none, store := { store with holder := none } }
  | .change agent helper =>
    { event := none
      store :=
        { store with
          disk := { store.disk with agent := agent, helper := helper } } }

def storeMachine : Machine Store Input Output where
  answer := Store.serve
  next := Output.store

/- Nothing was prepared yet. -/
def Store.empty (agent helper : Option String) : Store where
  disk := { journal := none, sourceDeb := none, agent := agent, helper := helper }
  holder := none
  used := []
  pass := []
  log := []

end VonkForge.Rollback
