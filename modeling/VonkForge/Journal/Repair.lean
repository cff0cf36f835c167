import VonkForge.Foundations.Run
import VonkForge.Foundations.Buffered

/-
  Opening the journal, and the repair of a damaged one.

  `open_recovered` finishes a repair that is pending, opens the journal, and if it is damaged raises
  an intent, moves its files away and opens a new one. The program goes from one file operation to
  the next, so that it can be killed, or the power be cut, at each of them.

  A journal has a generation, which its files share, and an intent has a number. Neither is read by
  the program. What SQLite makes of the files next to the main one, and whether it finds the journal
  damaged, is part of the input.

  Sources: `StateStore::open_recovered`, `finish_pending_state_repair`, `prune_state_diagnostics`
  and `StateStore::restore_custody` of the agent.

  Main declarations:
    * `Disk`
    * `Change`
    * `Phase`
-/

----
-- Files
----

namespace VonkForge.Repair

/- The suffixes `""`, `"-wal"` and `"-shm"`. -/
inductive Part where
  | main
  | wal
  | shm
deriving DecidableEq

/- An intent, and the generation that it is about. -/
structure Intent where
  number : Nat
  generation : Nat
deriving DecidableEq

/-
  The state directory: the generation of each file that is in place, the marker, and what has been
  moved away.
-/
structure Disk where
  files : Part → Option Nat
  marker : Option Intent
  moved : List (Part × Nat)

/- Changes of the directory. -/
inductive Change where
  | create (part : Part) (generation : Nat)
  | unlink (part : Part)
  | quarantine (part : Part) (generation : Nat)
  | raise (intent : Intent)
  | retire
deriving DecidableEq

def apply (disk : Disk) : Change → Disk
  | .create part generation =>
    { disk with files := Function.update disk.files part (some generation) }
  | .unlink part => { disk with files := Function.update disk.files part none }
  | .quarantine part generation =>
    { disk with
      files := Function.update disk.files part none
      moved := (part, generation) :: disk.moved }
  | .raise intent => { disk with marker := some intent }
  | .retire => { disk with marker := none }

abbrev Storage := Buffered Disk Change

def Storage.read (storage : Storage) : Disk := Buffered.visible apply storage

----
-- The Program
----

/-
  Where the program is. The flag says whether this is after a repair of the same call of
  `open_recovered`.
-/
inductive Phase where
  | off
  | look (repaired : Bool)
  | moving (repaired : Bool) (left : List Part)
  | syncMoves (repaired : Bool)
  | retiring (repaired : Bool)
  | syncRetired (repaired : Bool)
  | pruning (repaired : Bool)
  | opening (repaired : Bool)
  | inUse (repaired : Bool)
  | damaged
  | syncIntent
deriving DecidableEq

structure System where
  storage : Storage
  phase : Phase
  generations : Nat
  intents : Nat

/- What SQLite and the agent do with an opened journal. -/
inductive Use where
  | create (part : Part)
  | unlink (part : Part)
  | sync
  | damaged
  | failed
  | restoreCustody
deriving DecidableEq

def System.write (system : System) (change : Change) (phase : Phase) : System :=
  { system with storage := system.storage.write change, phase := phase }

def System.sync (system : System) (phase : Phase) : System :=
  { system with storage := system.storage.sync apply, phase := phase }

variable (system : System) (repaired : Bool)

/- The main file is made if it is not there. -/
def openJournal : System :=
  match system.storage.read.files .main with
  | some _ => { system with phase := .inUse repaired }
  | none =>
    { system.write (.create .main system.generations)
        (.inUse repaired) with
      generations := system.generations + 1 }

/- SQLite makes and drops the files next to the main one. -/
def useJournal : Use → System
  | .create part =>
    match system.storage.read.files .main, system.storage.read.files part with
    | some generation, none => system.write (.create part generation) (.inUse repaired)
    | _, _ => system
  | .unlink part =>
    if part = .main then system
    else system.write (.unlink part) (.inUse repaired)
  | .sync => system.sync (.inUse repaired)
  | .damaged =>
    -- A second failure is returned as it is.
    if repaired then { system with phase := .off }
    else { system with phase := .damaged }
  | .failed => { system with phase := .off }
  | .restoreCustody => { system with phase := .look false }

/- The intent is written and renamed into its place. -/
def raiseIntent : System :=
  match system.storage.read.files .main with
  | some generation =>
    { system.write
        (.raise ⟨system.intents, generation⟩)
        .syncIntent with
      intents := system.intents + 1 }
  | none => { system with phase := .off }

/- With a marker there is a repair to finish. -/
def afterLook : Option Intent → Phase
  | some _ => .moving repaired [.main, .wal, .shm]
  | none => .pruning repaired

/- One file operation. -/
def advance (use : Use) : System :=
  match system.phase with
  | .off => { system with phase := .look false }
  | .look repaired => { system with phase := afterLook repaired system.storage.read.marker }
  | .moving repaired [] => { system with phase := .syncMoves repaired }
  | .moving repaired (part :: left) =>
    match system.storage.read.files part with
    | some generation => system.write (.quarantine part generation) (.moving repaired left)
    | none => { system with phase := .moving repaired left }
  | .syncMoves repaired => system.sync (.retiring repaired)
  | .retiring repaired => system.write .retire (.syncRetired repaired)
  | .syncRetired repaired => system.sync (.pruning repaired)
  | .pruning repaired => system.sync (.opening repaired)
  | .opening repaired => openJournal system repaired
  | .inUse repaired => useJournal system repaired use
  | .damaged => raiseIntent system
  | .syncIntent => system.sync (.look true)

----
-- Runs
----

/- A kill loses nothing that is read, a power cut may. -/
inductive Input where
  | advance (use : Use)
  | kill
  | powerCut (keep : List Bool)

def serve : Input → System
  | .advance use => advance system use
  | .kill => { system with phase := .off }
  | .powerCut keep => { system with storage := system.storage.cut apply keep, phase := .off }

def repairMachine : Machine System Input System where
  answer := serve
  next := id

/- A directory with at most one journal, as it was made. -/
def initial (files : Part → Bool) : System where
  storage := ⟨⟨fun part => if files part then some 0 else none, none, []⟩, []⟩
  phase := .off
  generations := 1
  intents := 0

end VonkForge.Repair
