import VonkForge.Foundations.Run

/-
  The sweep of installation directories that are not tracked.

  A pass visits each directory that it lists. A directory that it judges unused gets a mark, and
  leaves when its mark is older than the grace. A directory that it judges used loses its mark. A
  pass judges only what it observes: what cannot be read, what a run has started, and the batch that
  the verdict of the Controller is about.

  Each visit touches its own directory only. What the file system and the helper answer is part of
  the input of a pass, by name.

  Source: `sweep_with` and `Pass::untracked` of the agent.

  Main declarations:
    * `Pass`
    * `Pass.observes`
    * `Pass.judgesUnused`
-/

----
-- Directories and Passes
----

namespace VonkForge.Retention

/- `GRACE`, in nanoseconds. -/
def grace : Nat := 24 * 60 * 60 * 1000000000

/-
  An installation directory: whether its plan can be read, and when its `untracked-since` file
  changed, if it has one.
-/
structure Directory where
  unreadable : Bool
  mark : Option Nat
deriving DecidableEq

/- The installation directories, by name. -/
abbrev Store (Name : Type) := Name → Option Directory

/- What the Controller said about a batch of installations. -/
structure Verdict (Name : Type) where
  installations : List Name
  observedInstallations : List Name

/- How a removal ends. The mark is the last file to go. -/
inductive Removal where
  | gone
  | failed (markLeft : Bool)
  | pastDeadline
deriving DecidableEq

/- A pass, with what it is told and what it meets. -/
structure Pass (Name : Type) where
  now : Nat
  rootOwned : Bool
  started : Option (List Name)
  untracked : Option (Verdict Name)
  listed : Name → Bool
  marks : Name → Option Nat
  unmarks : Name → Bool
  removes : Name → Removal

----
-- One Visit
----

variable {Name : Type} [DecidableEq Name]

namespace Pass

variable (pass : Pass Name)

def verdictNames (names : Verdict Name → List Name) (name : Name) : Bool :=
  match pass.untracked with
  | none => false
  | some verdict => (names verdict).contains name

variable (started : List Name) (directory : Directory) (name : Name)

/- The first closure that `untracked` is called with. -/
def observes : Bool := directory.unreadable || started.contains name ||
    pass.verdictNames Verdict.observedInstallations name

/- And the second one. -/
def judgesUnused : Bool :=
  !started.contains name && (directory.unreadable || pass.verdictNames Verdict.installations name)

/- `now.duration_since(since)` is over the grace. -/
def aged (since : Nat) : Bool := since ≤ pass.now && grace < pass.now - since

def remove (directory : Directory) (name : Name) : Option Directory :=
  match pass.removes name with
  | .gone => none
  | .failed true => some directory
  | .failed false => some { directory with mark := none }
  | .pastDeadline => some directory

/- The loop body of `Pass::untracked`. -/
def visit : Option Directory :=
  if pass.listed name = false then some directory
  else if pass.observes started directory name = false then some directory
  else
    match pass.judgesUnused started directory name, directory.mark with
    | true, none => some { directory with mark := pass.marks name }
    | true, some since =>
      if pass.aged since then pass.remove directory name
      else some directory
    | false, some _ =>
      if pass.unmarks name then some { directory with mark := none }
      else some directory
    | false, none => some directory

end Pass

/- What a pass does to the installation directories. -/
def sweep (pass : Pass Name) (store : Store Name) : Store Name :=
  if pass.rootOwned = false then store
  else
    match pass.started with
    | none => store
    | some started => fun name =>
      match store name with
      | none => none
      | some directory => pass.visit started directory name

----
-- Runs
----

variable {Name : Type} [DecidableEq Name]

/-
  What happens to the directories: a pass, an installation that writes its directory, with or
  without a plan that can be read, and a directory that leaves on an order.
-/
inductive Event (Name : Type) where
  | pass (pass : Pass Name)
  | install (name : Name) (unreadable : Bool)
  | uninstall (name : Name)

/- An installation does not write a mark. -/
def installed (unreadable : Bool) (present : Option Directory) : Directory :=
  match present with
  | none => ⟨unreadable, none⟩
  | some directory => ⟨unreadable, directory.mark⟩

def serve (store : Store Name) : Event Name → Store Name
  | .pass pass => sweep pass store
  | .install name unreadable =>
    Function.update store name (some (installed unreadable (store name)))
  | .uninstall name => Function.update store name none

def sweepMachine : Machine (Store Name) (Event Name) (Store Name) where
  answer := serve
  next := id

/- A pass for which listing, marking and unmarking succeed. -/
def Pass.Orderly (pass : Pass Name) : Prop := pass.rootOwned = true ∧ pass.started.isSome = true ∧
    ∀ name, pass.listed name = true ∧ pass.marks name = some pass.now ∧ pass.unmarks name = true

end VonkForge.Retention
