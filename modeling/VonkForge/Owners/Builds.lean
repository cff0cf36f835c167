import VonkForge.Lifecycle.Types

/-
  One rule for builds in flight (`owner_liveness.py`).

  Whether a build that has no image yet still has a live owner is asked of one build, query by
  query, and of all builds in one filter. The filter is evaluated in the logic of SQL, where a
  comparison with NULL is neither true nor false; a row is selected when its condition is true.

  Main declarations:
    * `Truth`
    * `buildInFlight`
    * `filter_is_rule`
-/

----
-- Conditions
----

namespace VonkForge.Builds

/- The value of a condition; `none` is NULL. -/
abbrev Truth := Option Bool

def Truth.or : Truth → Truth → Truth
  | some true, _ | _, some true => some true
  | some false, some false => some false
  | _, _ => none

def Truth.and : Truth → Truth → Truth
  | some false, _ | _, some false => some false
  | some true, some true => some true
  | _, _ => none

/- A comparison of two columns. -/
def compare {α : Type} (holds : α → α → Bool) (left right : Option α) : Truth :=
  left.bind fun left => right.map fun right => holds left right

def equal (left right : Option String) : Truth := compare (· == ·) left right

@[simp] theorem or_eq_true (left right : Truth) :
    left.or right = some true ↔ left = some true ∨ right = some true := by
  rcases left with _ | _ | _ <;> rcases right with _ | _ | _ <;> decide

@[simp] theorem and_eq_true (left right : Truth) :
    left.and right = some true ↔ left = some true ∧ right = some true := by
  rcases left with _ | _ | _ <;> rcases right with _ | _ | _ <;> decide

----
-- Tables
----

/- A job, with the fields of its payload and the text of its result. -/
structure Job where
  id : String
  state : State
  ownerKind : Option String
  ownerId : Option String
  result : Option String
deriving DecidableEq

structure AgentOperation where
  parentJobId : Option String
  state : State
deriving DecidableEq

inductive BuildState where
  | planned
  | building
  | succeeded
  | failed
deriving DecidableEq

structure RecipeBuild where
  id : String
  state : BuildState
  updatedAt : Option Int
deriving DecidableEq

/- The rows, and how the store matches a text with one that it may contain. -/
structure Database where
  builds : List RecipeBuild
  unique : (builds.map RecipeBuild.id).Nodup
  jobs : List Job
  operations : List AgentOperation
  contains : String → String → Bool

/- `JOB_ENDED_STATES`. -/
def jobEnded : State → Bool
  | .succeeded | .failed | .cancelled | .superseded => true
  | _ => false

/- `UNFINISHED_BUILD_STATES`. -/
def unfinished : BuildState → Bool
  | .planned | .building => true
  | _ => false

/- `OwnerKind.RECIPE_BUILD`. -/
def recipeBuildKind : String := "recipe-build"

/- `OWNER_SETTLE_GRACE`, in microseconds. -/
def ownerSettleGrace : Int := 5 * 60 * 1000000

----
-- The Rule
----

namespace Database

variable (database : Database)

def get (id : String) : Option RecipeBuild := database.builds.find? fun build => build.id == id

/- The job is of the owner. -/
def ownJob (ownerKind ownerId : String) (job : Job) : Truth :=
  (equal job.ownerKind (some ownerKind)).and (equal job.ownerId (some ownerId))

def referencingActiveJob (ownerKind ownerId : String) : Bool :=
  database.jobs.any fun job => decide ((Truth.and (some !jobEnded job.state)
    ((ownJob ownerKind ownerId job).or
      (compare database.contains job.result (some ownerId)))) = some true)

def orderStates (jobId : String) : List State := (database.operations.filter fun order =>
    decide (equal order.parentJobId (some jobId) = some true)).map AgentOperation.state

variable (build : RecipeBuild)

def buildMayRun : Bool :=
  if build.state = .building then true
  else
    (database.jobs.filter fun job => decide ((Truth.and (some !jobEnded job.state)
      (ownJob recipeBuildKind build.id job)) = some true)).any fun job =>
        (database.orderStates job.id).isEmpty || (database.orderStates job.id).any (!·.terminal)

def settled (since : Option Int) (now window : Int) : Bool :=
  since.all fun since => decide (since + window ≤ now)

/- `_recipe_build(...).live`. -/
def recipeBuildLive (id : String) (now : Int) : Bool :=
  match database.get id with
  | none => false
  | some build =>
    if settled build.updatedAt now ownerSettleGrace = false then true
    else if build.state = .building then database.referencingActiveJob recipeBuildKind id
    else database.buildMayRun build

def buildInFlight (now : Int) : Bool :=
  unfinished build.state && database.recipeBuildLive build.id now

----
-- The Filter
----

def exist {α : Type} (rows : List α) (condition : α → Truth) : Truth :=
  some (rows.any fun row => decide (condition row = some true))

def mayRun : Truth := exist database.jobs fun job =>
    (Truth.and (some !jobEnded job.state) (ownJob recipeBuildKind build.id job)).and
    (Truth.or ((exist database.operations fun order => equal order.parentJobId (some job.id)).map
      not) (exist database.operations fun order => (equal order.parentJobId (some job.id)).and
      (some !order.state.terminal)))

def referenced : Truth := exist database.jobs fun job => Truth.and (some !jobEnded job.state)
    ((ownJob recipeBuildKind build.id job).or
      (compare database.contains job.result (some build.id)))

def buildsInFlight (now : Int) (build : RecipeBuild) : Truth :=
  Truth.and (some (unfinished build.state))
    ((compare (fun updated bound => decide (bound < updated)) build.updatedAt
      (some (now - ownerSettleGrace))).or
      ((Truth.and (some (build.state == .building)) (database.referenced build)).or
      (Truth.and (some (build.state != .building)) (database.mayRun build))))

----
-- One Rule
----

variable {database} {build : RecipeBuild} {now : Int}

theorem get_of_mem (hBuild : build ∈ database.builds) : database.get build.id = some build := by
  cases hGet : database.get build.id with
  | none => simpa using List.find?_eq_none.mp hGet build hBuild
  | some found =>
    have hFound := List.mem_of_find?_eq_some hGet
    have hId : found.id = build.id := by simpa using List.find?_some hGet
    rw [List.inj_on_of_nodup_map database.unique hFound hBuild hId]

theorem unsettled_iff (since : Option Int) : settled since now ownerSettleGrace = false ↔
    compare (fun updated bound => decide (bound < updated)) since (some (now - ownerSettleGrace)) =
    some true := by
  cases since with
  | none => simp [settled, compare]
  | some =>
    simp only [settled, compare, Option.all_some, Option.bind_some, Option.map_some,
      Option.some.injEq, decide_eq_true_eq, decide_eq_false_iff_not]
    omega

theorem exist_eq_true {α : Type} (rows : List α) (condition : α → Truth) :
    exist rows condition = some true ↔ ∃ row ∈ rows, condition row = some true := by
  simp [exist]

theorem referenced_iff : database.referenced build = some true ↔
    database.referencingActiveJob recipeBuildKind build.id := by
  simp [referenced, exist, referencingActiveJob]

theorem mayRun_iff (hState : build.state ≠ .building) :
    database.mayRun build = some true ↔ database.buildMayRun build := by
  have hOrders (job : Job) :
      ((database.orderStates job.id).isEmpty || (database.orderStates job.id).any (!·.terminal)) =
        true ↔
        ((exist database.operations fun order => equal order.parentJobId (some job.id)).map not) =
          some true ∨
        exist database.operations (fun order =>
            (equal order.parentJobId (some job.id)).and (some !order.state.terminal)) =
          some true := by
    simp [orderStates, exist]
  rw [buildMayRun, if_neg hState, mayRun, exist_eq_true, List.any_eq_true]
  constructor
  · rintro ⟨job, hJob, hRun⟩
    rw [and_eq_true, or_eq_true, ← hOrders] at hRun
    exact ⟨job, List.mem_filter.mpr ⟨hJob, by simpa using hRun.1⟩, hRun.2⟩
  · rintro ⟨job, hJob, hRun⟩
    rcases List.mem_filter.mp hJob with ⟨hJob, hOwn⟩
    refine ⟨job, hJob, ?_⟩
    rw [and_eq_true, or_eq_true, ← hOrders]
    exact ⟨by simpa using hOwn, hRun⟩

theorem inFlight_iff (hBuild : build ∈ database.builds) :
    database.buildsInFlight now build = some true ↔ database.buildInFlight build now := by
  rw [buildsInFlight, and_eq_true, or_eq_true, or_eq_true, and_eq_true, and_eq_true,
    ← unsettled_iff, buildInFlight, Bool.and_eq_true, recipeBuildLive, get_of_mem hBuild]
  simp only [Option.some.injEq]
  refine and_congr_right fun _ => ?_
  split
  · rename_i hSettling
    simp [hSettling]
  · rename_i hSettled
    split
    · rename_i hState
      simp [hSettled, hState, referenced_iff]
    · rename_i hState
      simp [hSettled, hState, mayRun_iff hState]

end Database

/-
  The filter that the database runs selects exactly the builds that the rule says are in flight, at
  any time.
-/
theorem filter_is_rule
    (database : Database)
    (now : Int) :
    (database.builds.filter fun build => decide
       (database.buildsInFlight now build = some true)) =
      database.builds.filter fun build => database.buildInFlight build
        now := by
  refine List.filter_congr fun build hBuild => ?_
  rw [Bool.eq_iff_iff, decide_eq_true_iff]
  exact Database.inFlight_iff hBuild

end VonkForge.Builds
