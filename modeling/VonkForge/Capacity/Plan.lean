import VonkForge.Capacity.Swap
import VonkForge.Foundations.Fallible

/-
  Memory admission on a Spark (`resource_planning/types.py`, `resource_planning/capacity.py` and
  `memory_admission.py` of the public contracts).

  A demand is admitted against the pool, against what is observed free and against what is already
  claimed. An estimate that no idle Spark admits is tried, on a Spark that holds nothing else.
  Arguments below zero make the admission raise, and with it the whole plan.

  Main declarations:
    * `evaluateMemoryAdmission`
    * `CapacitySnapshot`
    * `planCapacity_spec`
    * `planPool_claim_fits`
-/

----
-- Admission
----

namespace VonkForge

namespace Capacity

open Fallible

structure MemoryAdmission where
  freeAfterBytes : Int
  commitmentHeadroomBytes : Int
  declarationAdmissible : Bool
  memoryFloorBytes : Int
deriving DecidableEq

def MemoryAdmission.admissible (admission : MemoryAdmission) : Bool :=
  admission.declarationAdmissible ∧ admission.memoryFloorBytes ≤ admission.freeAfterBytes ∧
    0 ≤ admission.commitmentHeadroomBytes

/- What stands against a demand, and what is to be freed. -/
structure Standing where
  occupiedBytes : Int := 0
  reservedBytes : Int := 0
  unmaterializedBytes : Int := 0
  unknownResidualBytes : Int := 0
  releaseBytes : Int := 0

/- A release does not make a demand larger than the pool admissible. -/
def evaluateMemoryAdmission (demandBytes poolBytes : Int)
    (standing : Standing) (memoryFloorBytes : Int) : Except String MemoryAdmission := do
  require
    ([demandBytes, poolBytes, memoryFloorBytes, standing.occupiedBytes, standing.reservedBytes,
      standing.unmaterializedBytes, standing.unknownResidualBytes, standing.releaseBytes].all
      (0 ≤ ·))
    "memory admission requires nonnegative integer bytes"
  return {
    declarationAdmissible := demandBytes + memoryFloorBytes ≤ poolBytes
    freeAfterBytes := poolBytes - standing.occupiedBytes - standing.unmaterializedBytes -
      standing.unknownResidualBytes - demandBytes + standing.releaseBytes
    commitmentHeadroomBytes := poolBytes - standing.reservedBytes - demandBytes -
      memoryFloorBytes + standing.releaseBytes
    memoryFloorBytes := memoryFloorBytes }

----
-- Evidence
----

inductive EvidenceState where
  | declared
  | measured
  | fresh
  | stale
  | unknown
deriving DecidableEq

/- Memory kinds and the words for their reservations. -/
inductive MemoryKind where
  | unified
  | unifiedMemory
  | host
  | hostMemory
  | accelerator
  | gpuMemory
deriving DecidableEq

/- `_same_memory_kind`. -/
def sameMemoryKind (left right : MemoryKind) : Bool :=
  let within (words : List MemoryKind) : Bool := left ∈ words ∧ right ∈ words
  within [.unified, .unifiedMemory] || within [.host, .hostMemory] ||
    within [.accelerator, .gpuMemory]

inductive OwnerKind where
  | fleetProfile
  | node
  | sparkReturn
  | job
  | run
  | installation
  | recipeBuild
  | agentAttempt
  | cacheOperation
  | imageJob
  | syncRun
  | renewalIntent
  | enrollment
deriving DecidableEq

def OwnerKind.value : OwnerKind → String
  | .fleetProfile => "fleet-profile"
  | .node => "node"
  | .sparkReturn => "spark-return"
  | .job => "job"
  | .run => "run"
  | .installation => "installation"
  | .recipeBuild => "recipe-build"
  | .agentAttempt => "agent-attempt"
  | .cacheOperation => "model-cache-operation"
  | .imageJob => "recipe-image-job"
  | .syncRun => "sync-run"
  | .renewalIntent => "renewal-intent"
  | .enrollment => "enrollment"

structure MemoryClaimHolder where
  ownerKind : OwnerKind
  ownerId : String
  amountBytes : Int
deriving DecidableEq

structure UnknownRunMemoryResidual where
  runId : String
  runGeneration : Nat
  reservationKind : MemoryKind
  maximumBytes : Int
deriving DecidableEq

/- One pool of a Spark. The time of the observation is the text that the reasons give. -/
structure PoolSnapshot where
  nodeId : String
  memoryKind : MemoryKind
  availableBytes : Option Int
  occupiedBytes : Option Int
  reservedBytes : Option Int
  evidenceState : EvidenceState
  evidenceDigest : Option String
  unmaterializedBytes : Option Int
  unknownRunResiduals : List UnknownRunMemoryResidual
  evidenceObservedAt : Option String
  keptBytes : Int
  unmaterializedHolders : List MemoryClaimHolder
  releasingBytes : Int
  freeUpsideBytes : Int
  swap : SwapCapacity
deriving DecidableEq

/- A snapshot of several pools has them as components. -/
structure CapacitySnapshot extends PoolSnapshot where
  components : List CapacitySnapshot

def PoolSnapshot.unknownUpperBytes (pool : PoolSnapshot) : Int :=
  (pool.unknownRunResiduals.map UnknownRunMemoryResidual.maximumBytes).sum

structure PlannedStopRelease where
  nodeId : String
  memoryKind : MemoryKind
  releaseBytes : Option Int
  planned : Bool
deriving DecidableEq

structure NodeCapacityPlan where
  nodeId : String
  requiredBytes : Option Int
  currentFreeAfterBytes : Option Int
  afterStopFreeAfterBytes : Option Int
  selectedFreeAfterBytes : Option Int
  stopRequired : Bool
  allowed : Bool
  reasons : List ResourceReason
  insufficientComponents : List MemoryKind
  unknownRunResiduals : List UnknownRunMemoryResidual
deriving DecidableEq

structure CapacityPlan where
  nodes : List NodeCapacityPlan
  allowed : Bool
  stopBeforePrepare : Bool
  reasons : List ResourceReason
deriving DecidableEq

----
-- Texts
----

/- `_resident_usage_uncertainty_detail`. -/
def residentUsageUncertaintyDetail (pool : PoolSnapshot) (admitted : Bool) : String :=
  let observedAt := pool.evidenceObservedAt.getD "timestamp unavailable"
  -- An empty digest counts as none.
  let digest := (pool.evidenceDigest.filter (· ≠ "")).getD "digest unavailable"
  let count := pool.unknownRunResiduals.length
  let maximum := pool.unknownUpperBytes
  if admitted then
    s!"Aggregate inventory {observedAt} ({digest}) " ++ "reports no per-run resident usage for " ++
      s!"{count} exact active claim(s); their remaining " ++
      s!"commitment is in the range 0..{maximum} bytes. " ++
      "Admission applies the full upper bound."
  else
    "Capacity is unverified by aggregate inventory " ++
      s!"{observedAt} ({digest}): {count} exact active run " ++
      s!"claim(s) may retain 0..{maximum} bytes, and the " ++
      "safe upper bound does not fit. Reconcile the exact " ++
      "run claims and retry against fresh inventory."

def MemoryClaimHolder.text (holder : MemoryClaimHolder) : String :=
  let kind := holder.ownerKind.value
  let owner := holder.ownerId
  let amount := holder.amountBytes
  s!"{kind} {owner} ({amount} bytes)"

/- `_charged_claims_detail`: the largest claims first. -/
def chargedClaimsDetail (pool : PoolSnapshot) (shortfallBytes : Int) : String :=
  if pool.unmaterializedHolders = [] then ""
  else
    let largest := pool.unmaterializedHolders.mergeSort
        (fun one other => decide (other.amountBytes ≤ one.amountBytes))
    let others := largest.length - namedClaims
    let named := ", ".intercalate
          ((largest.take namedClaims).map MemoryClaimHolder.text) ++
        if namedClaims < largest.length then s!" and {others} more"
        else ""
    if shortfallBytes ≤ pool.unmaterializedBytes.getD 0 then
      " The demand fits once these claims are released: " ++ s!"{named}."
    else s!" Charged claims: {named}."

----
-- Estimates Above the Idle Maximum
----

/- `_holds_nothing`. -/
def holdsNothing (pool : PoolSnapshot) (stopping : Bool) : Bool :=
  pool.reservedBytes.getD 0 = 0 ∧ pool.unmaterializedBytes.getD 0 = 0 ∧
    pool.unknownRunResiduals = [] ∧ pool.keptBytes = 0 ∧ pool.releasingBytes = 0 ∧ stopping = false

/- `_above_idle_maximum`. -/
def aboveIdleMaximum (pool : PoolSnapshot) (demandBytes memoryFloorBytes : Int)
    (stopping : Bool) : Except String (Option String) :=
  match pool.availableBytes with
  | none => .ok none
  | some available => do
    let whole ← evaluateMemoryAdmission demandBytes available {} memoryFloorBytes
    if whole.admissible = false then
      return some (s!"The estimated demand of {demandBytes} bytes " ++
          s!"plus the {memoryFloorBytes}-byte platform " ++
          s!"floor exceeds this Spark's {available}-byte " ++
          "memory pool; an idle Spark admits less")
    let hostUse := pool.occupiedBytes.getD 0
    let best ← evaluateMemoryAdmission demandBytes available
        { occupiedBytes := max 0 (hostUse - pool.freeUpsideBytes) }
        memoryFloorBytes
    let left := best.freeAfterBytes
    if holdsNothing pool stopping ∧ best.admissible = false
    then
      return some (s!"The host itself uses {hostUse} of this " ++
          s!"Spark's {available}-byte pool, and the " ++
          s!"estimated demand of {demandBytes} bytes " ++
          s!"leaves {left} bytes before the required " ++
          s!"{memoryFloorBytes}-byte floor even at the " ++
          "most free memory the Spark reported recently; " ++ "an idle Spark admits less")
    return none

----
-- Planned Stops
----

def validRelease (stop : PlannedStopRelease) : Option Int := stop.releaseBytes.filter (0 ≤ ·)

def stopReasons (stops : List PlannedStopRelease) : List ResourceReason :=
  (stops.filter (fun stop => stop.planned ∧ validRelease stop = none)).map
    (fun stop => reason .stopReleaseUnknown
      ("A planned stop has no valid capacity release " ++ "evidence.") .blocker stop.nodeId)

/- What the planned stops free of one kind. -/
def released (stops : List PlannedStopRelease) (nodeId : String) (kind : MemoryKind) : Int :=
  ((stops.filter (fun stop =>
    stop.planned ∧ stop.nodeId = nodeId ∧ stop.memoryKind = kind)).filterMap validRelease).sum

section

variable (stops : List PlannedStopRelease) (nodeId : String)

/- The kinds of which something is released on a node. -/
def releasedKinds : List MemoryKind :=
  (stops.filter (fun stop => stop.planned ∧ stop.nodeId = nodeId ∧ validRelease stop ≠ none)).map
    PlannedStopRelease.memoryKind

/- The release for a pool. A kind under another word counts where the pool's own word has none. -/
def releaseFor (kind : MemoryKind) : Int :=
  let exact := released stops nodeId kind
  if exact ≠ 0 then exact
  else
    (((releasedKinds stops nodeId).filter (sameMemoryKind · kind)).map
      (released stops nodeId)).max?.getD 0

def stopsHere : Bool :=
  stops.any (fun stop => stop.planned ∧ stop.nodeId = nodeId)

end

----
-- One Pool
----

/- Missing or negative. -/
def invalid (value : Option Int) : Bool := value.all (fun bytes => decide (bytes < 0))

def evidenceValues (pool : PoolSnapshot) : List (String × Option Int) :=
  [("available", pool.availableBytes), ("occupied", pool.occupiedBytes),
    ("reserved", pool.reservedBytes), ("unmaterialized", pool.unmaterializedBytes)]

def invalidReason (nodeId name : String) : ResourceReason :=
  reason .capacityUnknown (s!"Current {name} capacity evidence is missing or " ++ "invalid.")
    .blocker nodeId

variable (nodeId : String)

def staleReasons (state : EvidenceState) : List ResourceReason :=
  if state = .unknown ∨ state = .stale then
    [reason .capacityUnknown "Current capacity evidence is missing or stale." .blocker nodeId]
  else []

def evidenceReasons (pool : PoolSnapshot) : List ResourceReason :=
  ((evidenceValues pool).filter (fun value => invalid value.2)).map
    (fun value => invalidReason nodeId value.1) ++ staleReasons nodeId pool.evidenceState

/- The numbers of a pool, once all of them are known. -/
structure Facts where
  available : Int
  occupied : Int
  reserved : Int
  unmaterialized : Int
  totalBytes : Int

variable (demand : ResourceDemand)

def facts (pool : PoolSnapshot) (reasons : List ResourceReason) : Option Facts :=
  if reasons.any ResourceReason.blocks then none
  else
    match
      pool.availableBytes, pool.occupiedBytes,
      pool.reservedBytes, pool.unmaterializedBytes,
      demand.totalBytes
    with
    | some available, some occupied, some reserved, some unmaterialized, some totalBytes =>
      some
        { available := available, occupied := occupied, reserved := reserved,
          unmaterialized := unmaterialized, totalBytes := totalBytes }
    | _, _, _, _, _ => none

/- An estimate claims at most the Spark less the floor. -/
def Facts.charged (facts : Facts) (memoryFloorBytes : Int) : Int :=
  if facts.available ≤ memoryFloorBytes then facts.totalBytes
  else min facts.totalBytes (facts.available - memoryFloorBytes)

def Facts.admission (facts : Facts) (unknownUpperBytes release memoryFloorBytes : Int) :
    Except String MemoryAdmission :=
  evaluateMemoryAdmission
    (facts.charged memoryFloorBytes) facts.available
    { occupiedBytes := facts.occupied, reservedBytes := facts.reserved,
      unmaterializedBytes := facts.unmaterialized, unknownResidualBytes := unknownUpperBytes,
      releaseBytes := release }
    memoryFloorBytes

/- The memory plan of a node with no known capacity. -/
def unknownPlan
    (reasons : List ResourceReason) : NodeCapacityPlan where
  nodeId := nodeId
  requiredBytes := demand.totalBytes
  currentFreeAfterBytes := none
  afterStopFreeAfterBytes := none
  selectedFreeAfterBytes := none
  stopRequired := false
  allowed := false
  reasons := reasons
  insufficientComponents := []
  unknownRunResiduals := []

/- Everything that decides about a pool of known capacity. -/
structure Outlook where
  charged : Int
  current : MemoryAdmission
  after : MemoryAdmission
  unknownUpperBytes : Int
  release : Int
  floor : Int
  above : Option String
  tried : Bool

def outlook (pool : PoolSnapshot) (facts : Facts)
    (stops : List PlannedStopRelease) (memoryFloorBytes : Int) : Except String Outlook := do
  let release := releaseFor stops nodeId pool.memoryKind
  let current ← facts.admission pool.unknownUpperBytes 0 memoryFloorBytes
  let after ← facts.admission pool.unknownUpperBytes release memoryFloorBytes
  let stopping := stopsHere stops nodeId
  let above ← aboveIdleMaximum pool facts.totalBytes memoryFloorBytes stopping
  return {
    charged := facts.charged memoryFloorBytes
    current := current
    after := after
    unknownUpperBytes := pool.unknownUpperBytes
    release := release
    floor := memoryFloorBytes
    above := above
    -- Tried as the only claim on an empty Spark.
    tried := above.isSome ∧ holdsNothing pool stopping ∧
      0 < facts.available - facts.occupied - memoryFloorBytes }

def Outlook.fits (outlook : Outlook) : Bool :=
  if outlook.release ≠ 0 then outlook.after.admissible
  else outlook.current.admissible

def budgetReasons (pool : PoolSnapshot) (outlook : Outlook) : List ResourceReason :=
  let budgetAfter := outlook.current.commitmentHeadroomBytes
  let excess := -budgetAfter
  if budgetAfter < 0 ∧ (outlook.release = 0 ∨ outlook.after.commitmentHeadroomBytes < 0)
  then
    [reason .insufficientReservationBudget ("Exact memory commitments plus demand and reserve " ++
        s!"exceed the physical pool by {excess} bytes." ++ chargedClaimsDetail pool excess) .blocker
        nodeId]
  else []

def fitReasons (pool : PoolSnapshot) (outlook : Outlook) : List ResourceReason :=
  let floor := outlook.floor
  let current := outlook.current.freeAfterBytes
  let definite := current + outlook.unknownUpperBytes
  let afterStop := outlook.after.freeAfterBytes
  if floor ≤ definite ∧ current < floor ∧ outlook.release = 0 then
    [reason .residentUsageUnknown (residentUsageUncertaintyDetail pool false) .blocker nodeId]
  else if definite < floor ∧ outlook.release = 0 then
    [reason .insufficientCapacity ("Observed free capacity less definite claims and " ++
        s!"selected demand leaves {definite} bytes before " ++
        s!"the required {floor}-byte reserve, even if " ++ "retained runs use zero bytes." ++
        chargedClaimsDetail pool (floor - definite)) .blocker nodeId]
  else if outlook.release ≠ 0 ∧ afterStop < floor then
    [reason .insufficientCapacityAfterStop (s!"Selected demand leaves {afterStop} bytes after " ++
        s!"planned stops; {floor} bytes must remain " ++ "reserved.")
      .blocker nodeId]
  else if
    outlook.release = 0 ∧ floor ≤ current ∧ 0 ≤ outlook.current.commitmentHeadroomBytes ∧
      pool.unknownRunResiduals ≠ []
  then [reason .residentUsageUnknown (residentUsageUncertaintyDetail pool true) .warning nodeId]
  else []

def triedReason (outlook : Outlook) : ResourceReason :=
  let above := outlook.above.getD ""
  let claim := outlook.charged
  reason .estimateUncertain
    (s!"{above}; it is tried as the only claim on this " ++
      s!"Spark (claim {claim} bytes) and the host memory " ++ "guard stops it if it runs out.")
    .warning nodeId

def outlookReasons (pool : PoolSnapshot) (outlook : Outlook) : List ResourceReason :=
  if outlook.tried then [triedReason nodeId outlook]
  else budgetReasons nodeId pool outlook ++ fitReasons nodeId pool outlook

/- A node with one pool of known capacity. -/
def planFacts (pool : PoolSnapshot) (facts : Facts) (stops : List PlannedStopRelease)
    (memoryFloorBytes : Int) (reasons : List ResourceReason) : Except String NodeCapacityPlan := do
  let outlook ← outlook nodeId pool facts stops memoryFloorBytes
  let known (bytes : Int) : Option Int := if pool.unknownRunResiduals ≠ [] then none else some bytes
  let current := outlook.current.freeAfterBytes
  let afterStop := outlook.after.freeAfterBytes
  return {
    nodeId := nodeId
    requiredBytes := some outlook.charged
    currentFreeAfterBytes := known current
    afterStopFreeAfterBytes := known afterStop
    selectedFreeAfterBytes := known (if outlook.release ≠ 0 then afterStop else current)
    stopRequired :=
      outlook.current.admissible = false ∧ outlook.after.admissible ∧ 0 < outlook.release
    allowed := (outlook.tried ∨ outlook.fits) ∧ reasons.any ResourceReason.blocks = false
    reasons := reasons ++ outlookReasons nodeId pool outlook
    insufficientComponents :=
      if outlook.tried ∨ outlook.current.admissible then []
      else [pool.memoryKind]
    unknownRunResiduals := pool.unknownRunResiduals }

/- The body of `_plan_memory_capacity` for one pool. -/
def planPool (pool : PoolSnapshot)
    (stops : List PlannedStopRelease) (memoryFloorBytes : Int) : Except String NodeCapacityPlan :=
  let reasons := demand.reasons ++ evidenceReasons nodeId pool
  match facts demand pool reasons with
  | none => .ok (unknownPlan nodeId demand reasons)
  | some facts => planFacts nodeId pool facts stops memoryFloorBytes reasons

----
-- One Node
----

/- `_minimum_known`. -/
def minimumKnown (values : List (Option Int)) : Option Int :=
  if none ∈ values then none
  else (values.filterMap id).min?

/- A node has to fit into each of its pools. -/
def combine (parts : List NodeCapacityPlan) : NodeCapacityPlan where
  nodeId := nodeId
  requiredBytes := minimumKnown (parts.map NodeCapacityPlan.requiredBytes)
  currentFreeAfterBytes := minimumKnown (parts.map NodeCapacityPlan.currentFreeAfterBytes)
  afterStopFreeAfterBytes := minimumKnown (parts.map NodeCapacityPlan.afterStopFreeAfterBytes)
  selectedFreeAfterBytes := minimumKnown (parts.map NodeCapacityPlan.selectedFreeAfterBytes)
  stopRequired := parts.any NodeCapacityPlan.stopRequired
  allowed := parts.all NodeCapacityPlan.allowed
  reasons := (parts.flatMap NodeCapacityPlan.reasons).eraseDups
  insufficientComponents := (parts.flatMap NodeCapacityPlan.insufficientComponents).eraseDups
  unknownRunResiduals := (parts.flatMap NodeCapacityPlan.unknownRunResiduals).eraseDups

def missingPlan : NodeCapacityPlan := unknownPlan nodeId demand (demand.reasons ++
      [reason .capacityUnknown ("Capacity evidence is unavailable for the " ++ "selected rank.")
      .blocker nodeId])

mutual

/- `_plan_memory_capacity` for one node that is known. -/
def planNode (nodeId : String) (demand : ResourceDemand)
    (stops : List PlannedStopRelease) (memoryFloorBytes : Int) :
    CapacitySnapshot → Except String NodeCapacityPlan
  | ⟨pool, components⟩ =>
    if components.isEmpty then planPool nodeId demand pool stops memoryFloorBytes
    else do
      let parts ← planParts nodeId demand stops memoryFloorBytes components
      return combine nodeId parts

/- A part is looked up by its own node, as any capacity is. -/
def planParts (nodeId : String) (demand : ResourceDemand)
    (stops : List PlannedStopRelease) (memoryFloorBytes : Int) :
    List CapacitySnapshot → Except String (List NodeCapacityPlan)
  | [] => .ok []
  | part :: parts => do
    let planned :=
      if part.nodeId = nodeId then planNode nodeId demand stops memoryFloorBytes part
      else .ok (missingPlan nodeId demand)
    let first ← planned
    let others ← planParts nodeId demand stops memoryFloorBytes parts
    return first :: others

end

----
-- A Plan
----

/- A mapping from nodes to demands, in its order. -/
structure Requirements where
  entries : List (String × ResourceDemand)
  nodup : (entries.map Prod.fst).Nodup

variable (capacities : List CapacitySnapshot)

/- The last capacity that is given for a node. -/
def capacityOf (nodeId : String) : Option CapacitySnapshot :=
  capacities.reverse.find? (fun capacity => capacity.nodeId = nodeId)

def planEntry (stops : List PlannedStopRelease)
    (memoryFloorBytes : Int) (entry : String × ResourceDemand) : Except String NodeCapacityPlan :=
  match capacityOf capacities entry.1 with
  | none => .ok (missingPlan entry.1 entry.2)
  | some capacity => planNode entry.1 entry.2 stops memoryFloorBytes capacity

variable (requirements : Requirements) (capacities : List CapacitySnapshot)

/- What the plans of the nodes make together. -/
def memoryPlan (stops : List PlannedStopRelease) (nodes : List NodeCapacityPlan) : CapacityPlan :=
  let reasons := stopReasons stops ++ nodes.flatMap NodeCapacityPlan.reasons
  { nodes := nodes
    allowed :=
      nodes ≠ [] ∧ nodes.all NodeCapacityPlan.allowed ∧ reasons.any ResourceReason.blocks = false
    stopBeforePrepare := nodes.any NodeCapacityPlan.stopRequired
    reasons := reasons }

/- `_plan_memory_capacity`. -/
def planMemoryCapacity (stops : List PlannedStopRelease) (memoryFloorBytes : Int) :
    Except String CapacityPlan := do
  let nodes ← requirements.entries.mapM (planEntry capacities stops memoryFloorBytes)
  return memoryPlan stops nodes

/- The swap reasons of a node that has a demand. -/
def swapReasons (node : NodeCapacityPlan) : List ResourceReason :=
  match requirements.entries.lookup node.nodeId with
  | none => []
  | some demand =>
    loadSwapReason node.nodeId demand
      ((capacityOf capacities node.nodeId).map (fun capacity => capacity.swap))

def NodeCapacityPlan.withSwap (node : NodeCapacityPlan)
    (found : List ResourceReason) : NodeCapacityPlan :=
  { node with
    allowed := node.allowed ∧ found.any ResourceReason.blocks = false,
    reasons := node.reasons ++ found }

def CapacityPlan.withSwap (memory : CapacityPlan)
    (found : NodeCapacityPlan → List ResourceReason) : CapacityPlan :=
  let swap := memory.nodes.flatMap found
  { nodes := memory.nodes.map (fun node => node.withSwap (found node))
    allowed := memory.allowed ∧ swap.any ResourceReason.blocks = false
    stopBeforePrepare := memory.stopBeforePrepare
    reasons := memory.reasons ++ swap }

/- `plan_capacity`: memory first, then the rise and swap. -/
def planCapacity (stops : List PlannedStopRelease) (memoryFloorBytes : Int) :
    Except String CapacityPlan := do
  let memory ← planMemoryCapacity requirements capacities stops memoryFloorBytes
  return memory.withSwap (swapReasons requirements capacities)

/- A plan that is returned is made of the plans of its entries, in their order. -/
theorem planCapacity_spec
    (stops : List PlannedStopRelease)
    (floor : Int) :
    Returns
      (fun plan =>
         ∃ nodes,
           List.Forall₂
             (fun entry node =>
                planEntry capacities stops floor entry = .ok node)
             requirements.entries nodes ∧
           plan =
             (memoryPlan stops nodes).withSwap
               (swapReasons requirements capacities))
      (planCapacity requirements capacities stops floor) := by
  refine Returns.bind fun memory hMemory => Returns.ok ?_
  revert memory
  refine Returns.bind fun nodes hNodes => Returns.ok ?_
  exact ⟨nodes, forall₂_of_mapM hNodes, rfl⟩

----
-- The Claim of an Allowed Pool
----

theorem evidenceReasons_blocks (pool : PoolSnapshot) (value : String × Option Int)
    (hValue : value ∈ evidenceValues pool) (hInvalid : invalid value.2) :
    (evidenceReasons nodeId pool).any ResourceReason.blocks := by
  have hReason : invalidReason nodeId value.1 ∈ evidenceReasons nodeId pool :=
    List.mem_append_left _ (List.mem_map_of_mem (List.mem_filter.mpr ⟨hValue, hInvalid⟩))
  exact List.any_eq_true.mpr ⟨_, hReason, rfl⟩

/- The facts are the pool's own numbers. -/
theorem facts_spec (pool : PoolSnapshot) (found : Facts)
    (hFacts : facts demand pool (demand.reasons ++ evidenceReasons nodeId pool) = some found) :
    pool.availableBytes = some found.available ∧ pool.reservedBytes = some found.reserved ∧
    demand.totalBytes = some found.totalBytes ∧ 0 ≤ found.occupied := by
  unfold facts at hFacts
  split at hFacts
  · cases hFacts
  · rename_i hClear
    split at hFacts
    · rename_i available occupied reserved unmaterialized totalBytes hAvailable hOccupied hReserved
        hUnmaterialized hTotal
      cases hFacts
      refine ⟨hAvailable, hReserved, hTotal, ?_⟩
      by_contra hNegative
      -- A negative occupation would have been a blocker.
      have hBlocks := evidenceReasons_blocks nodeId pool ("occupied", pool.occupiedBytes)
        (by simp [evidenceValues]) (by simpa [invalid, hOccupied] using hNegative)
      apply hClear
      rw [List.any_append, hBlocks, Bool.or_true]
    · cases hFacts

theorem charged_nonneg (facts : Facts) (floor : Int) (hTotal : 0 ≤ facts.totalBytes) :
    0 ≤ facts.charged floor := by
  unfold Facts.charged
  split <;> omega

theorem charged_le (facts : Facts) (floor : Int) (hRoom : floor < facts.available) :
    facts.charged floor ≤ facts.available - floor := by
  unfold Facts.charged
  split <;> omega

theorem reserved_of_holdsNothing (pool : PoolSnapshot) (stopping : Bool)
    (hNothing : holdsNothing pool stopping) : pool.reservedBytes.getD 0 = 0 := by
  simp only [holdsNothing, decide_eq_true_eq] at hNothing
  exact hNothing.1

/- What an admission was computed from, and what it admits. -/
theorem evaluateMemoryAdmission_spec (demandBytes poolBytes : Int) (standing : Standing)
    (floor : Int) :
    Returns
      (fun admission =>
        0 ≤ demandBytes ∧ 0 ≤ standing.reservedBytes ∧ 0 ≤ standing.unknownResidualBytes ∧
        admission =
          { declarationAdmissible := demandBytes + floor ≤ poolBytes
            freeAfterBytes := poolBytes - standing.occupiedBytes - standing.unmaterializedBytes -
              standing.unknownResidualBytes - demandBytes + standing.releaseBytes
            commitmentHeadroomBytes := poolBytes - standing.reservedBytes - demandBytes -
              floor + standing.releaseBytes
            memoryFloorBytes := floor })
      (evaluateMemoryAdmission demandBytes poolBytes standing floor) := by
  refine Returns.require fun hValues => Returns.ok ?_
  simp only [List.all_cons, Bool.and_eq_true, decide_eq_true_eq] at hValues
  exact ⟨hValues.1, hValues.2.2.2.2.1, hValues.2.2.2.2.2.2.1, rfl⟩

/- What an outlook was computed from. -/
structure Outlook.Of (nodeId : String) (pool : PoolSnapshot) (facts : Facts)
    (stops : List PlannedStopRelease) (floor : Int) (outlook : Outlook) : Prop where
  current : facts.admission pool.unknownUpperBytes 0 floor = .ok outlook.current
  after : facts.admission pool.unknownUpperBytes (releaseFor stops nodeId pool.memoryKind) floor =
    .ok outlook.after
  charged : outlook.charged = facts.charged floor
  unknown : outlook.unknownUpperBytes = pool.unknownUpperBytes
  release : outlook.release = releaseFor stops nodeId pool.memoryKind
  tried : outlook.tried → holdsNothing pool (stopsHere stops nodeId) ∧
    0 < facts.available - facts.occupied - floor
  floor : outlook.floor = floor

theorem outlook_of (pool : PoolSnapshot) (found : Facts) (stops : List PlannedStopRelease)
    (floor : Int) :
    Returns (Outlook.Of nodeId pool found stops floor) (outlook nodeId pool found stops floor) := by
  refine Returns.bind fun _ hCurrent => Returns.bind fun _ hAfter => Returns.bind fun _ _ =>
    Returns.ok ⟨hCurrent, hAfter, rfl, rfl, rfl, fun hTried => ?_, rfl⟩
  simp only [decide_eq_true_eq] at hTried
  exact hTried.2

/-
  What an allowed plan claims goes into the pool above the floor, with what is reserved there. A
  tried estimate does as well: its claim is cut, and nothing else is reserved.
-/
theorem planPool_claim_fits
    (pool : PoolSnapshot)
    (floor available reserved : Int)
    (hAvailable : pool.availableBytes = some available)
    (hReserved : pool.reservedBytes = some reserved)
    (hDemand : ∀ total ∈ demand.totalBytes, 0 ≤ total) :
    Returns
      (fun node =>
         node.allowed = true →
         ∃ claim,
           node.requiredBytes = some claim ∧
           0 ≤ claim ∧
           reserved + claim ≤ available - floor)
      (planPool nodeId demand pool [] floor) := by
  unfold planPool
  simp only
  cases hFacts : facts demand pool (demand.reasons ++ evidenceReasons nodeId pool) with
  | none =>
    refine Returns.ok fun hAllowed => ?_
    cases hAllowed
  | some found =>
    rcases facts_spec nodeId demand pool found hFacts with ⟨hPool, hHeld, hTotal, _⟩
    have hNonneg := hDemand found.totalBytes hTotal
    rw [hAvailable, Option.some.injEq] at hPool
    rw [hReserved, Option.some.injEq] at hHeld
    refine Returns.bind fun outlook hOutlook => Returns.ok fun hAllowed => ?_
    have hOf := outlook_of nodeId pool found [] floor outlook hOutlook
    refine ⟨_, rfl, ?_⟩
    rw [hOf.charged]
    refine ⟨charged_nonneg found floor hNonneg, ?_⟩
    simp only [decide_eq_true_eq] at hAllowed
    rcases hAllowed.1 with hTried | hFits
    · have hNone := reserved_of_holdsNothing pool _ (hOf.tried hTried).1
      rw [hReserved, Option.getD_some] at hNone
      have hRoom := (hOf.tried hTried).2
      have hCut := charged_le found floor (by omega)
      omega
    · have hRelease : outlook.release = 0 := hOf.release
      rw [Outlook.fits, if_neg (by simp [hRelease])] at hFits
      rcases evaluateMemoryAdmission_spec _ _ _ _ _ hOf.current with ⟨_, _, _, hCurrent⟩
      rw [hCurrent] at hFits
      simp only [MemoryAdmission.admissible, decide_eq_true_eq] at hFits
      omega

/- A node with one pool is planned as that pool is. -/
theorem planNode_single (stops : List PlannedStopRelease) (floor : Int) (pool : PoolSnapshot) :
    planNode nodeId demand stops floor ⟨pool, []⟩ = planPool nodeId demand pool stops floor := by
  rw [planNode]
  rfl

end Capacity

end VonkForge
