import VonkForge.Foundations.Job
import VonkForge.Memory.Swap

/-
  The helper's managed swap file (`operations/swap.rs`).

  The helper reads the active swap from the kernel and tells its own files by their names. A pass
  activates a new file before it releases the old ones. Each step may fail, and a command that timed
  out may have taken effect. Which files the kernel refuses to unlink is a parameter.

  Main declarations:
    * `managedName`
    * `managedRow`
    * `managedPath_image`
    * `managedPath_temporary`
-/

----
-- Names
----

namespace VonkForge.Memory

/- The components of a path. -/
abbrev Path : Type := List String

/- The canonical text of a UUID. -/
def isUuid (value : List Char) : Bool := value.length = 36 ∧ value.zipIdx.all (fun entry =>
      if entry.2 ∈ [8, 13, 18, 23] then entry.1 = '-'
      else entry.1.isDigit ∨ ('a' ≤ entry.1 ∧ entry.1 ≤ 'f'))

structure Uuid where
  text : List Char
  canonical : isUuid text = true

/- Whether a name is a UUID between two fixed parts. -/
def uuidBetween (before after name : String) : Bool := ((name.toList.dropPrefix? before.toList).bind
    (fun rest => rest.dropSuffix? after.toList)).any isUuid

/- `managed_name`. -/
def managedName (name : String) : Bool :=
  uuidBetween "swap-" ".img" name || uuidBetween ".swap-" ".tmp" name

def nameBetween (before after : String) (id : Uuid) : String :=
  String.ofList (before.toList ++ id.text ++ after.toList)

def imageName (id : Uuid) : String := nameBetween "swap-" ".img" id

def temporaryName (id : Uuid) : String := nameBetween ".swap-" ".tmp" id

/- `managed_path`. -/
def managedPath (directory path : Path) : Bool :=
  path.dropLast = directory ∧ path.getLast?.any managedName

theorem uuidBetween_nameBetween (before after : String) (id : Uuid) :
    uuidBetween before after (nameBetween before after id) := by
  have hBefore : (before.toList ++ (id.text ++ after.toList)).dropPrefix? before.toList =
    some (id.text ++ after.toList) := List.dropPrefix?_append_of_beq _ (beq_self_eq_true _)
  have hAfter : (id.text ++ after.toList).dropSuffix? after.toList = some id.text :=
    List.dropSuffix?_eq_some_iff.mpr ⟨after.toList, rfl, beq_self_eq_true _⟩
  rw [uuidBetween, nameBetween, String.toList_ofList,
    List.append_assoc, hBefore, Option.bind_some, hAfter]
  exact id.canonical

theorem managedPath_append (root : Path) (name : String) (hName : managedName name) :
    managedPath root (root ++ [name]) := by
  simp [managedPath, hName]

/- The names the helper gives are its own. -/
theorem managedPath_image
    (root : Path)
    (id : Uuid) :
    managedPath root (root ++ [imageName id]) := by
  apply managedPath_append
  rw [managedName, imageName, uuidBetween_nameBetween, Bool.true_or]

/- Those of unfinished files too. -/
theorem managedPath_temporary
    (root : Path)
    (id : Uuid) :
    managedPath root (root ++ [temporaryName id]) := by
  apply managedPath_append
  rw [managedName, temporaryName, uuidBetween_nameBetween, Bool.or_true]

----
-- The Host
----

/- Active swap: where it really is, and under which path the kernel lists it. -/
structure Row where
  path : Path
  listed : Path
  sizeBytes : Nat
  usedBytes : Nat
deriving DecidableEq

structure SwapFile where
  path : Path
  bytes : Nat
deriving DecidableEq

structure Host where
  active : List Row
  files : List SwapFile
deriving DecidableEq

/- All active swap. -/
def total (rows : List Row) : Nat := (rows.map Row.sizeBytes).sum

namespace Host

variable (host : Host) (path : Path)

def isActive : Bool := host.active.any (fun row => row.path = path)

def fileBytes : Option Nat := (host.files.find? (fun file => file.path = path)).map SwapFile.bytes

def isFile : Bool := (host.fileBytes path).isSome

def without : List SwapFile := host.files.filter (fun file => file.path ≠ path)

/- `create_new`. -/
def create (path : Path) (host : Host) : Option Host :=
  if host.isFile path then none
  else some { host with files := ⟨path, 0⟩ :: host.files }

def allocate (path : Path) (bytes : Nat) (host : Host) : Option Host :=
  if host.isFile path then
    some { host with files := ⟨path, bytes⟩ :: host.without path }
  else none

/- A file that is active is not formatted. -/
def makeSwap (path : Path) (host : Host) : Option Host :=
  if host.isFile path ∧ host.isActive path = false then some host
  else none

/- Whether the kernel refuses to move or to unlink a file is left open. -/
def rename (refuses : Host → Path → Bool) (source target : Path) (host : Host) : Option Host :=
  match host.fileBytes source with
  | none => none
  | some bytes =>
    if refuses host source ∨ refuses host target then none
    else
      some { host with
        files := ⟨target, bytes⟩ :: (host.without source).filter (fun file => file.path ≠ target) }

/- The header takes the first page of a swap file. -/
def swapOn (header : Nat) (path : Path) (host : Host) : Option Host :=
  match host.fileBytes path with
  | none => none
  | some bytes =>
    if host.isActive path then none
    else
      some { host with
        active := host.active ++ [{
          path := path, listed := path, sizeBytes := bytes - header, usedBytes := 0 }] }

def swapOff (path : Path) (host : Host) : Option Host :=
  if host.isActive path then
    some { host with active := host.active.filter (fun row => row.path ≠ path) }
  else none

def unlink (refuses : Host → Path → Bool) (path : Path) (host : Host) : Option Host :=
  if host.isFile path ∧ refuses host path = false then
    some { host with files := host.without path }
  else none

end Host

----
-- Steps That May Fail
----

inductive SwapWaitReason where
  | insufficientDisk
  | commandFailed
  | fileFailed
  | hostUnreadable
  | releaseDeferred
deriving DecidableEq

structure Wait where
  reason : SwapWaitReason
  detail : String
deriving DecidableEq

structure FilesystemSpace where
  totalBytes : Nat
  availableBytes : Nat
deriving DecidableEq

/- What a pass meets, step by step, and which files the kernel does not let go. -/
structure Surroundings where
  refuses : Host → Path → Bool
  succeeds : Nat → Bool
  lands : Nat → Bool := fun _ => false
  cause : Nat → String
  memAvailable : Nat → Option Nat
  space : Nat → Option FilesystemSpace
  uuid : Nat → Uuid

inductive Command where
  | fallocate (bytes : Nat) (path : Path)
  | mkswap (path : Path)
  | swapon (path : Path)
  | swapoff (path : Path)
deriving DecidableEq

namespace Command

def executable : Command → String
  | .fallocate _ _ => "/usr/bin/fallocate"
  | .mkswap _ => "/usr/sbin/mkswap"
  | .swapon _ => "/usr/sbin/swapon"
  | .swapoff _ => "/usr/sbin/swapoff"

def target : Command → Path
  | .fallocate _ path => path
  | .mkswap path => path
  | .swapon path => path
  | .swapoff path => path

def effect (header : Nat) : Command → Host → Option Host
  | .fallocate bytes path => Host.allocate path bytes
  | .mkswap path => Host.makeSwap path
  | .swapon path => Host.swapOn header path
  | .swapoff path => Host.swapOff path

end Command

/- A point of a pass: the command, and what is active. -/
structure Event where
  command : Option Command
  active : List Row
deriving DecidableEq

structure PassState where
  host : Host
  time : Nat
  events : List Event
deriving DecidableEq

def PassState.start (host : Host) : PassState where
  host := host
  time := 0
  events := []

def PassState.after (state : PassState) (command : Option Command) (host : Host) : PassState where
  host := host
  time := state.time + 1
  events := state.events ++ [⟨command, host.active⟩]

section Passes

variable (world : Surroundings) (header : Nat) (root : Path)

variable (command : Option Command) (effect : Host → Option Host)

/- A step with an effect; a failed command may have it. -/
def attempt : Job Wait PassState Bool :=
  fun state =>
    let next := effect state.host
    let landed := command.isSome && world.lands state.time
    if world.succeeds state.time then (.ok next.isSome, state.after command (next.getD state.host))
    else if landed then (.ok false, state.after command (next.getD state.host))
    else (.ok false, state.after command state.host)

/- A step whose failure ends the pass. -/
def perform (failure : String → Wait) : Job Wait PassState Unit := do
  let cause ← Job.read (fun state => world.cause state.time)
  let done ← attempt world command effect
  Job.require done (failure cause)

def fileFailed (what cause : String) : Wait where
  reason := .fileFailed
  detail := s!"{what}: {cause}"

/- `swap_command`. -/
def swapCommand (command : Command) : Job Wait PassState Unit :=
  let executable := command.executable
  perform world (some command) (command.effect header)
    (fun cause => { reason := .commandFailed, detail := s!"{executable} failed: {cause}" })

/- `fs::remove_file`, where a failure does not matter. -/
def removeQuietly (path : Path) : Job Wait PassState Unit :=
  Job.ignore (perform world none (Host.unlink world.refuses path) (fileFailed "not removed"))

end Passes

----
-- The Plan
----

/- A `/proc/swaps` row as the helper goes on with it. -/
structure ActiveSwap where
  path : Path
  sizeBytes : Nat
  usedBytes : Nat
deriving DecidableEq

structure Plan where
  keep : Option ActiveSwap
  release : List ActiveSwap
  usableBytes : Nat
deriving DecidableEq

def desiredBytes (sizeGib : Nat) : Nat := sizeGib * gib

def toleranceBytes : Nat := swapPolicy.toleranceMib * 1024 * 1024

def absDiff (left right : Nat) : Nat := if left ≤ right then right - left else left - right

/- `managed_row`: the file of the helper that a row names by its file name, whatever its path is. -/
def managedRow (root : Path) (host : Host) (listed : Path) : Option Path :=
  match listed.getLast? with
  | none => none
  | some name =>
    if "swap-".toList.isPrefixOf name.toList ∧ managedName name ∧ host.isFile (root ++ [name])
    then some (root ++ [name])
    else none

def managedSwaps (root : Path) (host : Host) : List ActiveSwap := host.active.filterMap (fun row =>
    (managedRow root host row.listed).map (fun path =>
      { path := path, sizeBytes := row.sizeBytes, usedBytes := row.usedBytes }))

def otherSwaps (root : Path) (host : Host) : List Row :=
  host.active.filter (fun row => managedRow root host row.listed = none)

/- A 64-bit sum. -/
def otherBytes (root : Path) (host : Host) : Nat := total (otherSwaps root host) % 2 ^ 64

/- What the managed file has to add. -/
def usableBytes (root : Path) (sizeGib : Nat) (host : Host) : Nat :=
  let shortfall := desiredBytes sizeGib - otherBytes root host
  if shortfall < toleranceBytes then 0 else shortfall

/- Within the tolerance, a file is never made anew. -/
def closeEnough (usable : Nat) (swap : ActiveSwap) : Bool :=
  0 < usable ∧ absDiff swap.sizeBytes usable < toleranceBytes

def planFor (root : Path) (sizeGib : Nat) (host : Host) : Plan :=
  let usable := usableBytes root sizeGib host
  let managed := managedSwaps root host
  { keep := managed.find? (closeEnough usable)
    release := managed.eraseP (closeEnough usable)
    usableBytes := usable }

----
-- One Pass
----

section Passes

variable (world : Surroundings) (header : Nat) (root : Path)

/- `plan_swap`. -/
def planSwap (sizeGib : Nat) : Job Wait PassState Plan := do
  perform world none some (fun cause =>
      { reason := .hostUnreadable, detail := s!"active swap unreadable: {cause}" })
  let host ← Job.read PassState.host
  return planFor root sizeGib host

/- `remove_inactive_swap_files`. -/
def removeInactiveSwapFiles (active : List Path) : Job Wait PassState Unit := do
  let files ← Job.read (fun state => state.host.files)
  Job.forEach (removeQuietly world)
    ((files.map SwapFile.path).filter (fun path => managedPath root path ∧ path ∉ active))

/- `u64::saturating_add`. -/
def saturatingSum (left right : Nat) : Nat := min (left + right) (2 ^ 64 - 1)

/- How much of a filesystem stays free. -/
def lowFreePercent : Nat := 10

/- Whether the disk takes a file of this size. -/
def requireSpace (fileBytes : Nat) : Job Wait PassState Unit := do
  let found ← Job.read (fun state => (world.space state.time, world.cause state.time))
  match found with
  | (none, cause) =>
    Job.fail
      { reason := .hostUnreadable, detail := s!"filesystem space unreadable: {cause}" }
  | (some space, _) =>
    let reserve := space.totalBytes / 100 * lowFreePercent
    let needed := saturatingSum fileBytes reserve
    let available := space.availableBytes
    Job.require (needed ≤ available)
      { reason := .insufficientDisk
        detail := s!"a {fileBytes}-byte swap file needs " ++ s!"{needed} bytes available " ++
            s!"({lowFreePercent}% of the filesystem " ++ s!"stays free); {available} available" }

/- Create, format, publish and activate a file. -/
def makeSwapFile (temporary target : Path) (fileBytes : Nat) : Job Wait PassState Unit := do
  perform world none (Host.create temporary) (fileFailed "swap file not created")
  swapCommand world header (.fallocate fileBytes temporary)
  swapCommand world header (.mkswap temporary)
  perform world none (Host.rename world.refuses temporary target)
    (fileFailed "swap file not published")
  perform world none some (fileFailed "swap directory not synced")
  swapCommand world header (.swapon target)

/- `activate_swap_file`. -/
def activateSwapFile (usable : Nat) : Job Wait PassState ActiveSwap := do
  requireSpace world (usable + header)
  let id ← Job.read (fun state => world.uuid state.time)
  let temporary := root ++ [temporaryName id]
  let target := root ++ [imageName id]
  Job.orUndo
    (makeSwapFile world header temporary target (usable + header))
    (do
      removeQuietly world temporary
      removeQuietly world target)
  return { path := target, sizeBytes := usable, usedBytes := 0 }

/- A path as the texts give it. -/
def display (path : Path) : String := "/" ++ "/".intercalate path

def releaseHeadroom : Nat := swapPolicy.releaseHeadroomGib * gib

/- Whether the pages of a file fit into memory. -/
def requireMemory (old : ActiveSwap) : Job Wait PassState Unit := do
  let found ← Job.read (fun state => world.memAvailable state.time)
  let name := display old.path
  match found with
  | none =>
    Job.fail
      { reason := .releaseDeferred
        detail := s!"old swap file {name} kept: MemAvailable " ++ "unreadable" }
  | some available =>
    let used := old.usedBytes
    Job.require
      (saturatingSum used releaseHeadroom ≤ available)
      { reason := .releaseDeferred
        detail := s!"old swap file {name} kept: it holds {used} " ++
          s!"bytes in use and only {available} bytes " ++
          s!"are available ({releaseHeadroom} bytes of " ++ "headroom must stay free)" }

/- `release_swap_file`. -/
def releaseSwapFile (old : ActiveSwap) : Job Wait PassState Unit := do
  requireMemory world old
  let executable := (Command.swapoff old.path).executable
  let name := display old.path
  perform world (some (.swapoff old.path))
    ((Command.swapoff old.path).effect header)
    (fun cause => { reason := .releaseDeferred, detail := s!"{executable} failed: {cause}" })
  perform world none (Host.unlink world.refuses old.path)
    (fun cause =>
      { reason := .fileFailed, detail := s!"released swap file {name} not removed: " ++ cause })

/- The file that stays, or a new one where one is needed. -/
def keepOrActivate (plan : Plan) : Job Wait PassState (Option ActiveSwap) :=
  match plan.keep with
  | some swap => pure (some swap)
  | none =>
    if 0 < plan.usableBytes then do
      let swap ← activateSwapFile world header root plan.usableBytes
      return some swap
    else pure none

/- `converge_swap`. -/
def convergeSwap (sizeGib : Nat) : Job Wait PassState String := do
  let plan ← planSwap world root sizeGib
  removeInactiveSwapFiles world root ((plan.keep.toList ++ plan.release).map ActiveSwap.path)
  let kept ← keepOrActivate world header root plan
  Job.forEach (releaseSwapFile world header) plan.release
  let bytes := (kept.map ActiveSwap.sizeBytes).getD 0
  return s!"Managed swap {bytes} bytes active; desired " ++ s!"total {sizeGib} GiB"

end Passes

end VonkForge.Memory
