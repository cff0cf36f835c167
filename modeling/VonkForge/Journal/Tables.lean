import VonkForge.Foundations.Fallible
import VonkForge.Foundations.Run

/-
  The data of the agent journal: the messages it keeps and the tables it keeps them in
  (`vonk-agent/src/state.rs`).

  A text column may hold bytes that are not a text, and a stored document may be any bytes at all.
  What the journal asks of the wire contract, of its generated types and of the libraries it uses is
  gathered in `Wire`.

  Main declarations:
    * `AgentClaim`, `AgentResult`
    * `Wire`
    * `Entry`, `Operations`
-/

----
-- Messages
----

namespace VonkForge.Journal

abbrev Uuid := BitVec 128

abbrev Bytes := List UInt8

inductive AgentOperation where
  | runtimePreflight
  | agentUpgrade
  | artifactDistribution
  | recipeBuild
  | recipeBuildCleanup
  | recipeInstall
  | recipeStart
  | recipeJobRun
  | recipeStop
  | recipeUninstall
  | recipeReconcile
deriving DecidableEq

namespace AgentOperation

/- `as_str`. -/
def text : AgentOperation → String
  | .runtimePreflight => "runtime.preflight.v1"
  | .agentUpgrade => "agent.upgrade.v1"
  | .artifactDistribution => "artifact.distribution.v1"
  | .recipeBuild => "recipe.build.v1"
  | .recipeBuildCleanup => "recipe.build.cleanup.v1"
  | .recipeInstall => "recipe.install"
  | .recipeStart => "recipe.start"
  | .recipeJobRun => "recipe.job.run.v1"
  | .recipeStop => "recipe.stop"
  | .recipeUninstall => "recipe.uninstall"
  | .recipeReconcile => "recipe.reconcile"

def all : List AgentOperation :=
  [ .runtimePreflight, .agentUpgrade, .artifactDistribution, .recipeBuild, .recipeBuildCleanup,
      .recipeInstall, .recipeStart, .recipeJobRun, .recipeStop, .recipeUninstall, .recipeReconcile ]

def parse (word : String) : Option AgentOperation :=
  all.find? fun operation => operation.text == word

end AgentOperation

inductive ResultState where
  | succeeded
  | failed
  | cancelled
  | observing
deriving DecidableEq

/- A claim of the Controller, by its payload type. -/
structure AgentClaim (P : Type) where
  fence : Uuid
  operation : AgentOperation
  payload : P
  deadline : Int

/- An outcome is either definite or known to be unknown. -/
inductive Outcome (D U : Type) where
  | definite (body : D)
  | unknown (body : U)

/- `matches!(result, AgentResultResult::OutcomeUnknown(_))`. -/
def Outcome.isUnknown {D U : Type} : Outcome D U → Bool
  | .definite _ => false
  | .unknown _ => true

structure AgentResult (D U : Type) where
  fence : Uuid
  result : Outcome D U
  state : ResultState

/- What an executor hands over, before it is normalised. -/
inductive ExecutionResult (E U : Type) where
  | ended (effect : E)
  | unknown (unconfirmed : U)

/- A heartbeat's request: `valid` is its own validation. -/
structure AgentProgress where
  fence : Uuid
  valid : Bool

structure AgentDirective where
  fence : Uuid
  deadline : Int

/- A Controller refusal; `context` is its bounded `rejection_context`. -/
structure ControllerError where
  status : Nat
  code : String
  decision : String
  requestId : Option String
  context : String

----
-- The Wire Contract
----

/-
  The wire contract as the journal uses it: the spelling of fences and times, the strict readers and
  the canonical writers of documents, and their validations.
-/
structure Wire (P D U E : Type) where
  fenceText : Uuid → String
  parseFence : String → Option Uuid
  timeText : Int → String
  parseTime : String → Option Int
  claimJson : AgentClaim P → Option Bytes
  parseClaim : Bytes → Option (AgentClaim P)
  payloadJson : P → Option Bytes
  resultJson : AgentResult D U → Option Bytes
  parseResult : Bytes → Option (AgentResult D U)
  revalidate : AgentResult D U → Option (AgentResult D U)
  validClaim : AgentClaim P → Bool
  validResult : AgentResult D U → Bool
  validFor : AgentResult D U → AgentOperation → Bool
  kindUnknown : Bytes → Bool
  finishEnded : AgentOperation → E → ResultState × D
  restartInterrupted : U
  receiptUnavailable : U

namespace Wire

variable {P D U E : Type} (wire : Wire P D U E) (operation : AgentOperation) (fence : Uuid)

/- `finish_for`: an unknown effect is reported as observed. -/
def finishFor : ExecutionResult E U → AgentResult D U
  | .ended effect =>
    { fence := fence
      result := .definite (wire.finishEnded operation effect).2
      state := (wire.finishEnded operation effect).1 }
  | .unknown unconfirmed => { fence := fence, result := .unknown unconfirmed, state := .observing }

/- A typed unknown for a receipt that cannot be read. -/
def uncertainReceipt : AgentResult D U :=
  wire.finishFor operation fence (.unknown wire.receiptUnavailable)

end Wire

----
-- Rows
----

/- A text column: a text, or bytes that are none. -/
inductive Text where
  | utf8 (text : String)
  | damaged (bytes : Bytes)
deriving DecidableEq

def Text.read : Text → Option String
  | .utf8 text => some text
  | .damaged _ => none

/-
  A row of `operations`. The table's own check makes a row completed exactly when it holds a
  receipt, so the state word is not kept apart from it.
-/
structure Entry where
  rowid : Int
  fence : Text
  operation : Text
  deadline : Text
  claim : Option Bytes
  receipt : Option Bytes := none
  acknowledged : Bool := false
deriving DecidableEq

namespace Entry

def completed (entry : Entry) : Bool := entry.receipt.isSome

def running (entry : Entry) : Bool := entry.receipt.isNone

end Entry

/- A row of `result_rejections`. -/
structure RejectionRow where
  fence : Text
  httpStatus : Int
  code : Text
  decision : Text
  requestId : Option Text
  reason : Text
  observedAt : Text
  retryDueAt : Text
  rejections : Int
deriving DecidableEq

inductive StateError where
  | database
  | protocol
  | io
  | identity
  | expired
  | stale
  | busy
  | resultState
deriving DecidableEq

----
-- The Operations Table
----

/- Rows in `rowid` order, with the fence as primary key. -/
structure Operations where
  entries : List Entry
  unique : (entries.map Entry.fence).Nodup
  ordered : entries.Pairwise fun earlier later => earlier.rowid < later.rowid

namespace Operations

variable (table : Operations)

def fences : List Text := table.entries.map Entry.fence

/- `SELECT ... WHERE fence=?1`. -/
def find (table : Operations) (fence : Text) : Option Entry :=
  table.entries.find? fun entry => entry.fence == fence

/- The `rowid` of the next row. -/
def nextRowid : Int :=
  match table.entries.getLast? with
  | none => 1
  | some last => last.rowid + 1

theorem lt_nextRowid {entry : Entry} (hMem : entry ∈ table.entries) :
    entry.rowid < table.nextRowid := by
  have hNonempty : table.entries ≠ [] := List.ne_nil_of_mem hMem
  have hLast : table.entries.getLast? = some (table.entries.getLast hNonempty) :=
    List.getLast?_eq_some_getLast hNonempty
  have hSplit : table.entries = table.entries.dropLast ++ [table.entries.getLast hNonempty] :=
    (List.dropLast_concat_getLast hNonempty).symm
  unfold nextRowid
  rw [hLast]
  have hOrdered := table.ordered
  rw [hSplit] at hOrdered hMem
  rcases List.mem_append.mp hMem with hInit | hOwn
  · have hLess := (List.pairwise_append.mp hOrdered).2.2 entry hInit _ List.mem_cons_self
    simp only
    omega
  · rw [List.mem_singleton] at hOwn
    rw [hOwn]
    simp only
    omega

/- `INSERT`: a taken primary key is a database error. -/
def insert (fence operation deadline : Text) (claim : Option Bytes) :
    Except StateError Operations :=
  if hTaken : fence ∈ table.fences then .error .database
  else
    .ok
      { entries := table.entries ++ [{
            rowid := table.nextRowid, fence := fence, operation := operation, deadline := deadline,
            claim := claim }]
        unique := by
          rw [List.map_append]
          refine List.nodup_append.mpr ⟨table.unique, by simp, ?_⟩
          rintro _ hKey _ hOther rfl
          rw [List.map_singleton, List.mem_singleton] at hOther
          subst hOther
          exact hTaken hKey
        ordered := by
          refine List.pairwise_append.mpr ⟨table.ordered, List.pairwise_singleton _ _, ?_⟩
          intro _ hMem _ hLater
          rw [List.mem_singleton] at hLater
          rw [hLater]
          exact table.lt_nextRowid hMem }

/- `UPDATE`: the columns an update may change are those that are neither the key nor the `rowid`. -/
structure Change where
  deadline : Entry → Text := Entry.deadline
  receipt : Entry → Option Bytes := Entry.receipt
  acknowledged : Entry → Bool := Entry.acknowledged

def Change.apply (change : Change) (entry : Entry) : Entry :=
  { entry with
    deadline := change.deadline entry
    receipt := change.receipt entry
    acknowledged := change.acknowledged entry }

/- `UPDATE operations SET ... WHERE ...`. -/
def update (selected : Entry → Bool) (change : Change) : Operations :=
  { entries := table.entries.map fun entry =>
        if selected entry then change.apply entry else entry
    unique := by
      have hSame : (table.entries.map fun entry =>
              if selected entry then change.apply entry
              else entry).map Entry.fence =
            table.entries.map Entry.fence := by
        rw [List.map_map]
        apply List.map_congr_left
        intro _ _
        simp only [Function.comp]
        split
        · rfl
        · rfl
      rw [hSame]
      exact table.unique
    ordered := by
      refine List.pairwise_map.mpr (table.ordered.imp fun {earlier later} hLess => ?_)
      have hKeeps : ∀ entry : Entry,
            (if selected entry then change.apply entry
              else entry).rowid = entry.rowid := by
        intro _
        split
        · rfl
        · rfl
      rw [hKeeps, hKeeps]
      exact hLess }

end Operations

----
-- The Journal
----

/-
  The journal file: the operations with the three tables beside them, and the metadata the calls
  read.
-/
structure Database where
  operations : Operations
  reconciled : List Text := []
  observationEnded : List Text := []
  rejections : List RejectionRow := []
  deliveryCursor : Option Text := none
  nodeId : Option Text := none

/- `INSERT OR IGNORE` into a table of fences. -/
def insertIgnore (table : List Text) (fence : Text) : List Text :=
  if fence ∈ table then table else table ++ [fence]

/- `DELETE ... WHERE fence=?1` from a table of fences. -/
def deleteFence (table : List Text) (fence : Text) : List Text :=
  table.filter fun other => other != fence

/- `DELETE FROM result_rejections WHERE fence=?1`. -/
def deleteRejection (table : List RejectionRow) (fence : Text) : List RejectionRow :=
  table.filter fun row => row.fence != fence

/- `INSERT ... ON CONFLICT(fence) DO UPDATE`. -/
def upsertRejection (table : List RejectionRow) (row : RejectionRow) : List RejectionRow :=
  if table.any fun other => other.fence == row.fence then
    table.map fun other =>
      if other.fence == row.fence then row else other
  else table ++ [row]

end VonkForge.Journal
