import VonkForge.Foundations.Run
import VonkForge.Capacity.Plan

/-
  The claims of a fleet over a history of plans.

  Each allowed plan adds what it requires on each of its nodes, and claims end in any order. All of
  a node's claims together stay within its pool above the floor, also where estimates above the idle
  maximum are tried.

  Main declarations:
    * `Claim`
    * `committed_filterMap_le`
    * `within_serve`
    * `ledger_never_overcommits`
-/

----
-- The Ledger
----

namespace VonkForge.Capacity

open Fallible

structure Claim where
  nodeId : String
  bytes : Int
deriving DecidableEq

/- The sum of the live claims on a node. -/
def committed (ledger : List Claim) (nodeId : String) : Int :=
  ((ledger.filter (fun claim => claim.nodeId = nodeId)).map Claim.bytes).sum

/- What an allowed plan adds to the ledger. -/
def claimsOf (plan : CapacityPlan) : List Claim :=
  if plan.allowed then
    plan.nodes.filterMap (fun node => node.requiredBytes.map (Claim.mk node.nodeId))
  else []

/-
  A plan with evidence about its nodes, or the end of a live claim. The evidence gives neither the
  size of a pool nor what is reserved on it.
-/
inductive Request where
  | plan (requirements : Requirements) (evidence : List PoolSnapshot)
  | release (index : Nat)

variable (pools : String → Int)

/- A node of one pool, with the ledger's reservations. -/
def observed (ledger : List Claim) (pool : PoolSnapshot) : CapacitySnapshot :=
  { pool with
    availableBytes := some (pools pool.nodeId)
    reservedBytes := some (committed ledger pool.nodeId)
    components := [] }

structure Served where
  plan : Option CapacityPlan
  ledger : List Claim

def serve (floor : Int) (ledger : List Claim) : Request → Served
  | .plan requirements evidence =>
    match planCapacity requirements (evidence.map (observed pools ledger)) [] floor with
    | .ok plan => { plan := some plan, ledger := ledger ++ claimsOf plan }
    | .error _ => { plan := none, ledger := ledger }
  | .release index => { plan := none, ledger := ledger.eraseIdx index }

def ledgerMachine (floor : Int) : Machine (List Claim) Request Served where
  answer := serve pools floor
  next := Served.ledger

----
-- Sums of Claims
----

theorem committed_append (ledger added : List Claim) (nodeId : String) :
    committed (ledger ++ added) nodeId = committed ledger nodeId + committed added nodeId := by
  simp only [committed, List.filter_append, List.map_append, List.sum_append]

theorem committed_eq_zero (ledger : List Claim) (nodeId : String)
    (hOther : ∀ claim ∈ ledger, claim.nodeId ≠ nodeId) : committed ledger nodeId = 0 := by
  have hNone : ledger.filter (fun claim => claim.nodeId = nodeId) = [] := by
    rw [List.filter_eq_nil_iff]
    intro claim hClaim
    simpa using hOther claim hClaim
  rw [committed, hNone]
  rfl

/- A claim that ends makes no sum larger. -/
theorem committed_eraseIdx_le (ledger : List Claim) (hNonneg : ∀ claim ∈ ledger, 0 ≤ claim.bytes)
    (index : Nat) (nodeId : String) :
    committed (ledger.eraseIdx index) nodeId ≤ committed ledger nodeId := by
  have hKept : ((ledger.eraseIdx index).filter (fun claim => claim.nodeId = nodeId)).Sublist
    (ledger.filter (fun claim => claim.nodeId = nodeId)) :=
    (List.eraseIdx_sublist ledger index).filter _
  apply (hKept.map Claim.bytes).sum_le_sum
  intro _ hBytes
  rcases List.mem_map.mp hBytes with ⟨claim, hClaim, rfl⟩
  exact hNonneg claim (List.mem_filter.mp hClaim).1

/-
  One plan claims at most once on each node, so what it claims there is bounded by its largest
  requirement.
-/
theorem committed_filterMap_le
    (nodes : List NodeCapacityPlan)
    (hNodup : (nodes.map NodeCapacityPlan.nodeId).Nodup)
    (nodeId : String)
    (bound : Int)
    (hBound : 0 ≤ bound)
    (hRequired :
      ∀ node ∈ nodes,
        node.nodeId = nodeId →
        ∀ bytes ∈ node.requiredBytes, bytes ≤ bound) :
    committed
      (nodes.filterMap
         (fun node => node.requiredBytes.map (Claim.mk node.nodeId)))
      nodeId ≤
      bound := by
  induction nodes with
  | nil => exact hBound
  | cons node nodes ih =>
    rw [List.map_cons, List.nodup_cons] at hNodup
    have hRest := ih hNodup.2 (fun other hOther => hRequired other (List.mem_cons_of_mem _ hOther))
    cases hBytes : node.requiredBytes with
    | none =>
      rw [List.filterMap_cons_none (by rw [hBytes]; rfl)]
      exact hRest
    | some bytes =>
      rw [List.filterMap_cons_some (by rw [hBytes]; rfl), ← List.singleton_append, committed_append]
      by_cases hHere : node.nodeId = nodeId
      · -- The other nodes of the plan are not this one.
        have hNone : committed (nodes.filterMap
              (fun node => node.requiredBytes.map (Claim.mk node.nodeId))) nodeId = 0 := by
          apply committed_eq_zero
          intro _ hClaim hSame
          rcases List.mem_filterMap.mp hClaim with ⟨_, hOther, hMade⟩
          rcases Option.map_eq_some_iff.mp hMade with ⟨_, _, rfl⟩
          apply hNodup.1
          rw [hHere, ← hSame]
          exact List.mem_map_of_mem hOther
        have hOwn := hRequired node List.mem_cons_self hHere bytes hBytes
        rw [hNone]
        simp only [committed, hHere, List.filter_cons, decide_true, if_true, List.filter_nil,
          List.map_cons, List.map_nil, List.sum_cons, List.sum_nil]
        omega
      · rw [committed_eq_zero _ nodeId (by simpa using hHere), Int.zero_add]
        exact hRest

----
-- One Plan
----

theorem nodeId_planNode (nodeId : String) (demand : ResourceDemand)
    (stops : List PlannedStopRelease) (floor : Int) (capacity : CapacitySnapshot) :
    Returns (fun node => node.nodeId = nodeId) (planNode nodeId demand stops floor capacity) := by
  rcases capacity with ⟨_, _ | ⟨_, _⟩⟩
  · rw [planNode_single, planPool]
    split
    · exact Returns.ok rfl
    · exact Returns.bind fun _ _ => Returns.ok rfl
  · rw [planNode]
    exact Returns.bind fun _ _ => Returns.ok rfl

theorem nodeId_planEntry (capacities : List CapacitySnapshot) (stops : List PlannedStopRelease)
    (floor : Int) (entry : String × ResourceDemand) :
    Returns (fun node => node.nodeId = entry.1) (planEntry capacities stops floor entry) := by
  unfold planEntry
  split
  · exact Returns.ok rfl
  · exact nodeId_planNode _ _ _ _ _

/- Each allowed requirement fits with what is reserved. -/
theorem planEntry_claim_fits (floor : Int) (ledger : List Claim) (evidence : List PoolSnapshot)
    (entry : String × ResourceDemand) (hDemand : ∀ total ∈ entry.2.totalBytes, 0 ≤ total) :
    Returns
      (fun node => node.allowed = true → ∃ bytes, node.requiredBytes = some bytes ∧ 0 ≤ bytes ∧
        committed ledger entry.1 + bytes ≤ pools entry.1 - floor)
      (planEntry (evidence.map (observed pools ledger)) [] floor entry) := by
  unfold planEntry
  cases hCapacity : capacityOf (evidence.map (observed pools ledger)) entry.1 with
  | none =>
    refine Returns.ok fun hAllowed => ?_
    cases hAllowed
  | some capacity =>
    have hMem : capacity ∈ evidence.map (observed pools ledger) :=
      List.mem_reverse.mp (List.mem_of_find?_eq_some hCapacity)
    have hNode : capacity.nodeId = entry.1 := by simpa using List.find?_some hCapacity
    rcases List.mem_map.mp hMem with ⟨pool, _, rfl⟩
    have hPool : pool.nodeId = entry.1 := hNode
    simp only [observed]
    rw [planNode_single, ← hPool]
    exact planPool_claim_fits _ _ _ _ _ _ rfl rfl hDemand

----
-- Histories
----

section Histories

variable (pools : String → Int) (floor : Int)

/- No claim is negative, and each node's claims fit. -/
structure Within (ledger : List Claim) : Prop where
  nonneg : ∀ claim ∈ ledger, 0 ≤ claim.bytes
  fits : ∀ nodeId, committed ledger nodeId ≤ max 0 (pools nodeId - floor)

/- The demands of a request are not negative. -/
def Request.Nonneg : Request → Prop
  | .plan requirements _ => ∀ entry ∈ requirements.entries, ∀ total ∈ entry.2.totalBytes, 0 ≤ total
  | .release _ => True

/- What an allowed plan requires of a node fits there. -/
theorem required_fits
    (requirements : Requirements)
    (evidence : List PoolSnapshot)
    (ledger : List Claim)
    (hDemands : ∀ entry ∈ requirements.entries, ∀ total ∈ entry.2.totalBytes, 0 ≤ total) :
    Returns
      (fun plan => plan.nodes.map NodeCapacityPlan.nodeId = requirements.entries.map Prod.fst ∧
        (plan.allowed = true → ∀ node ∈ plan.nodes, ∀ bytes ∈ node.requiredBytes,
          0 ≤ bytes ∧ committed ledger node.nodeId + bytes ≤ pools node.nodeId - floor))
      (planCapacity requirements (evidence.map (observed pools ledger)) [] floor) := by
  intro plan hPlan
  rcases planCapacity_spec _ _ _ _ plan hPlan with ⟨nodes, hNodes, rfl⟩
  constructor
  · have hIds : List.Forall₂ Eq (requirements.entries.map Prod.fst)
        (nodes.map NodeCapacityPlan.nodeId) := by
      rw [List.forall₂_map_left_iff, List.forall₂_map_right_iff]
      exact hNodes.imp fun entry node hNode => (nodeId_planEntry _ _ floor entry node hNode).symm
    rw [List.forall₂_eq_eq_eq] at hIds
    rw [hIds, CapacityPlan.withSwap, List.map_map]
    rfl
  · intro hAllowed node hNode bytes hBytes
    rcases List.mem_map.mp hNode with ⟨memory, hMemory, rfl⟩
    rcases exists_of_mem_forall₂ hNodes hMemory with ⟨entry, hEntry, hPlanned⟩
    simp only [CapacityPlan.withSwap, memoryPlan, decide_eq_true_eq] at hAllowed
    rcases planEntry_claim_fits pools floor ledger evidence entry (hDemands entry hEntry) memory
      hPlanned (List.all_eq_true.mp hAllowed.1.2.1 memory hMemory) with
      ⟨claim, hClaimed, hNonneg, hFits⟩
    obtain rfl : claim = bytes := Option.some.inj (hClaimed.symm.trans hBytes)
    rw [← nodeId_planEntry _ _ floor entry memory hPlanned] at hFits
    exact ⟨hNonneg, hFits⟩

section

variable (ledger : List Claim)

theorem within_plan (hWithin : Within pools floor ledger)
    (requirements : Requirements) (evidence : List PoolSnapshot)
    (hDemands : (Request.plan requirements evidence).Nonneg) (plan : CapacityPlan)
    (hPlan : planCapacity requirements (evidence.map (observed pools ledger)) [] floor = .ok plan) :
    Within pools floor (ledger ++ claimsOf plan) := by
  rcases required_fits pools floor requirements evidence ledger hDemands plan hPlan with
    ⟨hIds, hFits⟩
  unfold claimsOf
  split
  · rename_i hAllowed
    have hRequired := hFits hAllowed
    constructor
    · intro claim hClaim
      rcases List.mem_append.mp hClaim with hOld | hNew
      · exact hWithin.nonneg claim hOld
      · rcases List.mem_filterMap.mp hNew with ⟨node, hNode, hMade⟩
        rcases Option.map_eq_some_iff.mp hMade with ⟨bytes, hBytes, rfl⟩
        exact (hRequired node hNode bytes hBytes).1
    · intro nodeId
      have hRoom := hWithin.fits nodeId
      have hAdded := committed_filterMap_le plan.nodes
          (by
            rw [hIds]
            exact requirements.nodup)
          nodeId
          (max 0 (pools nodeId - floor) - committed ledger nodeId)
          (by omega)
          (by
            intro node hNode hSame bytes hBytes
            have hFits := (hRequired node hNode bytes hBytes).2
            rw [hSame] at hFits
            omega)
      rw [committed_append]
      omega
  · rw [List.append_nil]
    exact hWithin

theorem within_release (hWithin : Within pools floor ledger) (index : Nat) :
    Within pools floor (ledger.eraseIdx index) := by
  constructor
  · intro claim hClaim
    exact hWithin.nonneg claim (List.mem_of_mem_eraseIdx hClaim)
  · intro nodeId
    exact Int.le_trans (committed_eraseIdx_le ledger hWithin.nonneg index nodeId)
      (hWithin.fits nodeId)

/- A request that is admitted leaves every pool within its bytes. -/
theorem within_serve
    (request : Request)
    (hWithin : Within pools floor ledger)
    (hNonneg : request.Nonneg) :
    Within
      pools
        floor ((ledgerMachine pools floor).move ledger request) := by
  cases request with
  | plan requirements evidence =>
    cases hPlan : planCapacity requirements (evidence.map (observed pools ledger)) [] floor with
    | error =>
      simp only [Machine.move, ledgerMachine, serve, hPlan]
      exact hWithin
    | ok plan =>
      simp only [Machine.move, ledgerMachine, serve, hPlan]
      exact within_plan pools floor ledger hWithin requirements evidence hNonneg plan hPlan
  | release index => exact within_release pools floor ledger hWithin index

end

theorem within_nil : Within pools floor [] := by
  constructor
  · intro _ hClaim
    cases hClaim
  · intro _
    exact Int.le_max_left 0 _

/-
  Over any history of plans and releases, the live claims on a node stay within its pool above the
  floor.
-/
theorem ledger_never_overcommits
    (requests : List Request)
    (hNonneg : ∀ request ∈ requests, request.Nonneg)
    (nodeId : String) :
    committed ((ledgerMachine pools floor).final [] requests) nodeId ≤
      max 0 (pools nodeId - floor) := by
  have hReached : Within pools floor ((ledgerMachine pools floor).final [] requests) := by
    apply (ledgerMachine pools floor).invariant (P := fun step => step.input.Nonneg)
      (within_serve pools floor) (within_nil pools floor)
    intro step hStep
    exact hNonneg step.input ((ledgerMachine pools floor).input_mem_of_mem_trace hStep)
  exact hReached.fits nodeId

end Histories

/- A Spark that holds nothing but the host's own use. -/
def idleSpark : PoolSnapshot where
  nodeId := "spark"
  memoryKind := .unified
  availableBytes := none
  occupiedBytes := some 20
  reservedBytes := none
  evidenceState := .fresh
  evidenceDigest := none
  unmaterializedBytes := some 0
  unknownRunResiduals := []
  evidenceObservedAt := none
  keptBytes := 0
  unmaterializedHolders := []
  releasingBytes := 0
  freeUpsideBytes := 0
  swap := noSwap

/- One rank that declares so much memory and no rise. -/
def estimate (bytes : Int) : Requirements where
  entries := [("spark",
      { totalBytes := some bytes, reasons := [], loadOvershootBytes := 0, minimumSwapBytes := 0 })]
  nodup := List.nodup_singleton _

/- An estimate above the pool is tried and claims it all. -/
theorem tried_estimate_claims_the_pool :
    committed
      ((ledgerMachine (fun _ => 100) 10).final []
         [.plan (estimate 500) [idleSpark], .plan (estimate 20) [idleSpark]])
      "spark" =
      90 ∧
    committed
      ((ledgerMachine (fun _ => 100) 10).final []
         [.plan (estimate 500) [idleSpark], .plan (estimate 20) [idleSpark]])
      "spark" ≤
      max 0 (100 - 10) := by
  refine ⟨by decide +kernel, ?_⟩
  apply ledger_never_overcommits (fun _ => 100) 10
  simp [Request.Nonneg, estimate]

end VonkForge.Capacity
