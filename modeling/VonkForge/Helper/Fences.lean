import VonkForge.Foundations.Run

/-
  The two durable fences of the privileged helper (`vonk-agent-helper/src/operations`): the
  generation fence of a runtime (`generation.rs`) and the intent fence of its installation
  (`installation_intent.rs`).

  The helper holds the installation's lock over every call, so calls are atomic. What the storage
  does during a call is part of its input.

  Main declarations:
    * `RuntimeGenerationFence`
    * `InstallationIntentFence`
    * `acceptInstallationIntent`
-/

----
-- Files
----

namespace VonkForge.Helper

abbrev Uuid := BitVec 128

/- `i64::MAX`. -/
def i64Max : Nat := 2 ^ 63 - 1

/-
  A file that holds one document. A file without custody, or whose bytes are no canonical document,
  is damaged.
-/
inductive Stored (α : Type) where
  | missing
  | damaged
  | document (value : α)
deriving DecidableEq

/-
  How replacing a file ends: a failure may come before the rename, or after it from the sync of the
  directory.
-/
inductive Publish where
  | stored
  | refused
  | unsynced
deriving DecidableEq

namespace Publish

/- The file that is left behind. -/
def leaves {α : Type} (publish : Publish) (value : α) (file : Stored α) : Stored α :=
  match publish with
  | .stored => .document value
  | .refused => file
  | .unsynced => .document value

def succeeds : Publish → Bool
  | .stored => true
  | .refused => false
  | .unsynced => false

end Publish

inductive OperationError where
  | invalidOperation
  | invalidArtifact
  | io
  | installationReconciliationStorageUnavailable
  | installationIntentObservationRequired (nonce : String)
deriving DecidableEq

/- A call changes the files, and fails or returns. -/
abbrev Outcome := Except OperationError Unit

----
-- The Intent Fence
----

structure InstallationIntentFence where
  schemaVersion : Nat
  installationId : Uuid
  nonce : String
  highestOrdinal : Nat
  cancelled : Bool
deriving DecidableEq

/- Sixty-four lower-case hexadecimal digits. -/
def lowerHex64 (text : String) : Bool :=
  text.length == 64 && text.toList.all fun digit => digit.isDigit || ('a' ≤ digit && digit ≤ 'f')

/- What `hex_sha256` of a new identifier gives. -/
structure Nonce where
  text : String
  hex : lowerHex64 text = true
deriving DecidableEq

theorem lowerHex64_replicate (digit : Fin 16) :
    lowerHex64 (String.ofList (List.replicate 64 (Nat.digitChar digit))) := by
  revert digit
  decide +kernel

/- One digit all the way: the nonces of concrete runs. -/
def repeatedNonce (digit : Nat) : Nonce where
  text := String.ofList (List.replicate 64 (Nat.digitChar (Fin.ofNat 16 digit)))
  hex := lowerHex64_replicate (Fin.ofNat 16 digit)

/- The record is one that is trusted when it is read. -/
def InstallationIntentFence.trusted (record : InstallationIntentFence)
    (installationId : Uuid) : Bool :=
  record.installationId == installationId &&
    record.schemaVersion == 2 &&
    decide (record.highestOrdinal ≤ i64Max) &&
    lowerHex64 record.nonce

variable (installationId : Uuid)

/- Anything that cannot be trusted is no record. -/
def readInstallationIntent : Stored InstallationIntentFence → Option InstallationIntentFence
  | .missing => none
  | .damaged => none
  | .document record =>
    if record.trusted installationId then some record
    else none

/- The storage under one call, and the nonces it draws. -/
structure IntentStorage where
  ready : Bool := true
  publish : Publish := .stored
  reconstructed : Nonce
  fresh : Nonce

/- A START or a cleanup presented for an installation. -/
structure Intent where
  nonce : Option String
  ordinal : Option Nat
  cleanup : Bool
deriving DecidableEq

variable (storage : IntentStorage)

/- The record to publish, and whether the caller is to be challenged; `none` is a refusal. -/
def nextIntent (intent : Intent) (ordinal : Nat)
    (current : Option InstallationIntentFence) : Option (InstallationIntentFence × Bool) :=
  let record := current.getD
      { schemaVersion := 2, installationId := installationId, nonce := storage.reconstructed.text,
        highestOrdinal := 0, cancelled := false }
  if current.isNone || intent.nonce != some record.nonce then
    -- A signed grant cannot predict the new nonce.
    some ({ record with nonce := storage.fresh.text }, true)
  else if
    decide (ordinal < record.highestOrdinal) ||
      (!intent.cleanup && record.cancelled && ordinal == record.highestOrdinal)
  then none
  else
    some ({ record with
          highestOrdinal := ordinal
          cancelled := intent.cleanup
          nonce :=
            if intent.cleanup then storage.fresh.text
            else record.nonce },
        false)

def acceptInstallationIntent (intent : Intent)
    (file : Stored InstallationIntentFence) : Stored InstallationIntentFence × Outcome :=
  match intent.ordinal.filter fun value => decide (value ≤ i64Max) with
  | none => (file, .error .invalidOperation)
  | some ordinal =>
    if !storage.ready then (file, .error .installationReconciliationStorageUnavailable)
    else
      match nextIntent installationId storage intent ordinal
          (readInstallationIntent installationId file) with
      | none => (file, .error .invalidOperation)
      | some (record, challenged) =>
        (storage.publish.leaves record file,
          if !storage.publish.succeeds then .error .installationReconciliationStorageUnavailable
          else if challenged then .error (.installationIntentObservationRequired record.nonce)
          else .ok ())

----
-- The Generation Fence
----

structure RuntimeGenerationFence where
  schemaVersion : Nat
  installationId : Uuid
  runtimeId : Uuid
  highestGeneration : Nat
  cancelled : Bool
deriving DecidableEq

structure RuntimeEffectIdentity where
  runtimeId : Uuid
  installationId : Uuid
  runGeneration : Nat
deriving DecidableEq

inductive RuntimeGenerationFenceUse where
  | start
  | stop (cancelPendingStart : Bool)
deriving DecidableEq

/- `matches!(use_kind, Stop { cancel_pending_start: true })`. -/
def RuntimeGenerationFenceUse.cancels : RuntimeGenerationFenceUse → Bool
  | .start => false
  | .stop cancelPendingStart => cancelPendingStart

/- A generation is positive and fits a signed word. -/
def validGeneration (generation : Nat) : Bool := generation != 0 && decide (generation ≤ i64Max)

/- The fences of one installation and one of its runtimes. -/
structure Fences where
  intent : Stored InstallationIntentFence := .missing
  runtime : Stored RuntimeGenerationFence := .missing
deriving DecidableEq

/- The storage under one use of the generation fence. -/
structure FenceStorage where
  readable : Bool := true
  challenge : IntentStorage
  retired : Publish := .stored
  write : Publish := .stored

/- The file must be the fence of exactly this runtime. -/
def readRuntimeGenerationFence (readable : Bool)
    (identity : RuntimeEffectIdentity) (file : Stored RuntimeGenerationFence) :
    Except OperationError (Option RuntimeGenerationFence) :=
  if !readable then .error .io
  else
    match file with
    | .missing => .ok none
    | .damaged => .error .invalidArtifact
    | .document fence =>
      if fence.schemaVersion == 2 && fence.installationId == identity.installationId &&
        fence.runtimeId == identity.runtimeId && validGeneration fence.highestGeneration
      then .ok (some fence)
      else .error .invalidArtifact

/- Replace the fence by one that carries `generation`. -/
def writeRuntimeGenerationFence (write : Publish) (fence : RuntimeGenerationFence)
    (fences : Fences) : Fences × Outcome :=
  if fence.schemaVersion == 2 && validGeneration fence.highestGeneration
  then
    ({ fences with runtime := write.leaves fence fences.runtime },
      if write.succeeds then .ok () else .error .io)
  else (fences, .error .invalidOperation)

variable (identity : RuntimeEffectIdentity)

/- Rotate the nonce by a START that carries none. The error it answers with is the challenge. -/
def invalidateRuntimeStartAuthority
    (fences : Fences) : Fences × Except OperationError OperationError :=
  match acceptInstallationIntent identity.installationId
      storage ⟨none, some 0, false⟩ fences.intent with
  | (intent, .error (.installationIntentObservationRequired nonce)) =>
    ({ fences with intent := intent }, .ok (.installationIntentObservationRequired nonce))
  | (intent, _) =>
    ({ fences with intent := intent }, .error .installationReconciliationStorageUnavailable)

/- Move whatever stands at the path aside. -/
def retireDamagedRuntimeFence (retired : Publish) (fences : Fences) : Fences × Outcome :=
  match retired, fences.runtime with
  | .refused, _ => (fences, .error .installationReconciliationStorageUnavailable)
  -- A path that is not there needs no sync.
  | _, .missing => (fences, .ok ())
  | .stored, _ => ({ fences with runtime := .missing }, .ok ())
  | .unsynced, _ =>
    ({ fences with runtime := .missing }, .error .installationReconciliationStorageUnavailable)

/- The fence of a runtime that has none yet. -/
def firstFence (cancelled : Bool) : RuntimeGenerationFence :=
  { schemaVersion := 2, installationId := identity.installationId, runtimeId := identity.runtimeId,
    highestGeneration := identity.runGeneration, cancelled := cancelled }

variable (storage : FenceStorage) (identity : RuntimeEffectIdentity)

/-
  A START without a readable fence is challenged, and leaves a fence of its own generation behind.
-/
def prepareRuntimeGenerationFence (fences : Fences) : Fences × Outcome :=
  if !validGeneration identity.runGeneration then (fences, .error .invalidOperation)
  else
    match readRuntimeGenerationFence storage.readable identity fences.runtime with
    | .ok (some _) => (fences, .ok ())
    | _ =>
      match invalidateRuntimeStartAuthority storage.challenge identity fences with
      | (rotated, .error failure) => (rotated, .error failure)
      | (rotated, .ok challenge) =>
        match retireDamagedRuntimeFence storage.retired rotated with
        | (retired, .error failure) => (retired, .error failure)
        | (retired, .ok _) =>
          match writeRuntimeGenerationFence storage.write (firstFence identity false) retired with
          | (written, .error _) => (written, .error .installationReconciliationStorageUnavailable)
          | (written, .ok _) => (written, .error challenge)

/- Apply a use to the fence that was read, if any. -/
def advanceRuntimeGenerationFence (write : Publish) (identity : RuntimeEffectIdentity)
    (use : RuntimeGenerationFenceUse) (current : Option RuntimeGenerationFence) (fences : Fences) :
    Fences × Outcome :=
  match current with
  | none => writeRuntimeGenerationFence write (firstFence identity use.cancels) fences
  | some current =>
    if identity.runGeneration < current.highestGeneration
    then
      match use with
      -- An older Stop cannot rewind the high-water mark.
      | .stop _ => (fences, .ok ())
      | .start => (fences, .error .invalidOperation)
    else if identity.runGeneration = current.highestGeneration
    then
      if use = .start ∧ current.cancelled then (fences, .error .invalidOperation)
      else if use.cancels && !current.cancelled then
        writeRuntimeGenerationFence write
          { current with cancelled := true } fences
      else (fences, .ok ())
    else
      writeRuntimeGenerationFence write
        { current with highestGeneration := identity.runGeneration, cancelled := use.cancels }
        fences

def updateRuntimeGenerationFence
    (use : RuntimeGenerationFenceUse) (fences : Fences) : Fences × Outcome :=
  if !validGeneration identity.runGeneration then (fences, .error .invalidOperation)
  else
    match readRuntimeGenerationFence storage.readable identity fences.runtime with
    | .ok current =>
      advanceRuntimeGenerationFence storage.write identity
        use current fences
    | .error _ =>
      match invalidateRuntimeStartAuthority storage.challenge identity fences with
      | (rotated, .error failure) => (rotated, .error failure)
      | (rotated, .ok challenge) =>
        match retireDamagedRuntimeFence storage.retired rotated with
        | (retired, .error failure) => (retired, .error failure)
        | (retired, .ok _) =>
          match use with
          | .start => (retired, .error challenge)
          | .stop _ => advanceRuntimeGenerationFence storage.write identity use none retired

end VonkForge.Helper
