import VonkForge.Foundations.Envelope
import VonkForge.Capacity.Plan

/-
  The ledger's memory commitments on a node (`memory_reservations.py`).

  A promise and the runs it will stop hold memory one after the other. The committed total of a pool
  is an envelope of all phases this can go through.

  Main declarations:
    * `ResourceReservation`
    * `committed_of_memoryReservations`
    * `total_poolTally`
    * `envelope_covers_every_phase`
-/

----
-- Rows
----

namespace VonkForge.Capacity

inductive ReservationState where
  | active
  | promised
  | released
  | expired
deriving DecidableEq

/- A row of `resource_reservations`. -/
structure ResourceReservation where
  id : String
  nodeId : String
  kind : MemoryKind
  ownerKind : OwnerKind
  ownerId : String
  planDigest : String
  state : ReservationState
  amountBytes : Nat
  releasedAt : Option Nat
deriving DecidableEq

structure RecipeRun where
  id : String
  planDigest : String
  runGeneration : Nat
  -- Whether the state is `stopped` or `stopping`.
  stopped : Bool
deriving DecidableEq

structure RecipeBuild where
  id : String
  building : Bool
  buildInputSha256 : String
  builderNodeId : String
deriving DecidableEq

structure StopImpact where
  runId : String
  runPlanDigest : String
  nodeIds : List String
deriving DecidableEq

inductive MemoryPool where
  | shared
  | separate
deriving DecidableEq

/-
  What the projection reads. The last three fields are answers of other modules about the same
  database.
-/
structure Session where
  -- Ordered by id.
  reservations : List ResourceReservation
  run : String → Option RecipeRun
  build : String → Option RecipeBuild
  hasRunNode : String → String → Bool
  buildMayRun : RecipeBuild → Bool
  profileMemoryReplacements : ResourceReservation → List StopImpact
  profileBuildMemoryClaims : RecipeBuild → MemoryPool → List ResourceReservation

structure MemoryReservationTotals where
  committedBytesByKind : List (MemoryKind × Nat)
  unmaterializedBytesByKind : List (MemoryKind × Nat)
  unknownRunResidualsByKind : List (MemoryKind × List UnknownRunMemoryResidual)
  releasedUnobservedBytesByKind : List (MemoryKind × Nat)
  keptBytesByKind : List (MemoryKind × Nat)
  unmaterializedHoldersByKind : List (MemoryKind × List MemoryClaimHolder)
  releasingBytesByKind : List (MemoryKind × Nat)
deriving DecidableEq

def memoryReservationKindList : List MemoryKind := [.hostMemory, .gpuMemory, .unifiedMemory]

/- `memory_reservation_kinds` of `memory_kinds.py`. -/
def memoryReservationKinds (kind : MemoryKind) (pool : MemoryPool) : List MemoryKind :=
  match pool with
  | .shared => memoryReservationKindList
  | .separate =>
    if kind = .unifiedMemory then memoryReservationKindList
    else [kind, .unifiedMemory]

def amounts (claims : List ResourceReservation) : Nat :=
  (claims.map ResourceReservation.amountBytes).sum

def ofKind (claims : List ResourceReservation) (kind : MemoryKind) : List ResourceReservation :=
  claims.filter (fun claim => claim.kind = kind)

/- The kinds with something to tell about. -/
def byKind {β : Type} (kinds : List MemoryKind) (value : MemoryKind → β)
    (empty : β → Bool) : List (MemoryKind × β) :=
  (kinds.map (fun kind => (kind, value kind))).filter (fun entry => !empty entry.2)

----
-- Which Claims Count
----

/- The options of a call of `memory_reservations`. -/
structure Exclusions where
  profileApplicationIds : List String
  profileClaimIds : List String
  runIds : List String
  keptRunIds : List String

/- `reservation_visible`, for applications and runs. -/
def reservationVisible (exclusions : Exclusions) (claim : ResourceReservation) : Bool :=
  (claim.ownerKind ≠ .fleetProfile ∨ claim.ownerId ∉ exclusions.profileApplicationIds) ∧
    (claim.ownerKind ≠ .run ∨ claim.ownerId ∉ exclusions.runIds)

/- `kept_run_residual` is zero for a kept run. -/
def keptRun (exclusions : Exclusions) (claim : ResourceReservation) : Bool :=
  claim.ownerKind = .run ∧ claim.ownerId ∈ exclusions.keptRunIds

variable (session : Session)

/- `_build_holds_memory`. -/
def buildHoldsMemory (claim : ResourceReservation) : Bool :=
  match session.build claim.ownerId with
  | none => true
  | some build => session.buildMayRun build

variable (nodeId : String)

def visibleClaims (exclusions : Exclusions) : List ResourceReservation :=
  session.reservations.filter (fun claim => claim.nodeId = nodeId ∧
      claim.kind ∈ memoryReservationKindList ∧ (claim.state = .active ∨ claim.state = .promised) ∧
      reservationVisible exclusions claim ∧ claim.id ∉ exclusions.profileClaimIds)

def countedClaims (exclusions : Exclusions) : List ResourceReservation :=
  (visibleClaims session nodeId exclusions).filter (fun claim => keptRun exclusions claim = false ∧
      (claim.ownerKind ≠ .recipeBuild ∨ buildHoldsMemory session claim))

structure ClaimUsage where
  unmaterialized : Bool
  unknownResidual : Option UnknownRunMemoryResidual
deriving DecidableEq

/- A running claim may hold anything up to its amount. -/
def residual (run : RecipeRun) (claim : ResourceReservation) : UnknownRunMemoryResidual where
  runId := run.id
  runGeneration := run.runGeneration
  reservationKind := claim.kind
  maximumBytes := claim.amountBytes

/- The usage of a claim that a run holds. -/
def runUsage (claim : ResourceReservation) : ClaimUsage :=
  match session.run claim.ownerId with
  | none => { unmaterialized := true, unknownResidual := none }
  | some run =>
    if session.hasRunNode claim.ownerId claim.nodeId then
      { unmaterialized := false, unknownResidual := some (residual run claim) }
    else { unmaterialized := true, unknownResidual := none }

/- `_claim_usage`. -/
def claimUsage (claim : ResourceReservation) : Except String ClaimUsage :=
  match claim.ownerKind with
  | .fleetProfile | .recipeBuild =>
    .ok
      { unmaterialized := true, unknownResidual := none }
  | .run => .ok (runUsage session claim)
  | _ => .error "memory reservation has an unsupported owner kind"

/- `_releasing_bytes`. -/
def releasingBytes (runIds : List String) : List (MemoryKind × Nat) :=
  let rows :=
    session.reservations.filter (fun claim => claim.nodeId = nodeId ∧ claim.ownerKind = .run ∧
        claim.ownerId ∈ runIds ∧ claim.kind ∈ memoryReservationKindList ∧ claim.state = .active)
  ((rows.map ResourceReservation.kind).eraseDups).map
    (fun kind => (kind, amounts (ofKind rows kind)))

/- `_released_since_observation`. -/
def releasedSinceObservation (observedAt : Option Nat) : List (MemoryKind × Nat) :=
  match observedAt with
  | none => []
  | some since =>
    let rows :=
      session.reservations.filter (fun claim => claim.nodeId = nodeId ∧ claim.ownerKind = .run ∧
          claim.kind ∈ memoryReservationKindList ∧ claim.state = .released ∧
          (session.run claim.ownerId).any RecipeRun.stopped ∧ claim.releasedAt.any (since < ·))
    ((rows.map ResourceReservation.kind).eraseDups).map
      (fun kind => (kind, amounts (ofKind rows kind)))

----
-- Promises and What They Replace
----

/- `reviewed_run_memory_reservations`. -/
def reviewedRunMemoryReservations (stop : StopImpact) : List ResourceReservation :=
  if nodeId ∈ stop.nodeIds then
    session.reservations.filter (fun claim => claim.nodeId = nodeId ∧ claim.ownerKind = .run ∧
        claim.ownerId = stop.runId ∧ claim.kind ∈ memoryReservationKindList ∧
        claim.state = .active ∧ claim.planDigest = stop.runPlanDigest ∧
        (session.run claim.ownerId).any (fun run => run.planDigest = stop.runPlanDigest))
  else []

/- The promises of an owner. -/
structure Promised where
  owner : String
  claims : List ResourceReservation
deriving DecidableEq

/- Promised claims by owner, the first owner first. -/
def futureClaims (claims : List ResourceReservation) : List Promised :=
  let promised := claims.filter (fun claim => claim.state = .promised)
  ((promised.map ResourceReservation.ownerId).eraseDups).map
    (fun owner =>
      { owner := owner
        claims := promised.filter (fun claim => claim.ownerId = owner) })

/- The runs that the promises of an owner will stop. -/
def replacedRuns (promised : Promised) : List String :=
  (promised.claims.flatMap (fun claim => (session.profileMemoryReplacements claim).flatMap
      (reviewedRunMemoryReservations session nodeId))).map ResourceReservation.id

/- The exact current build behind an active claim. -/
def currentBuild (claim : ResourceReservation) : Option RecipeBuild :=
  if claim.ownerKind = .recipeBuild then
    (session.build claim.ownerId).filter (fun build =>
      build.building ∧ build.buildInputSha256 = claim.planDigest ∧ build.builderNodeId = nodeId)
  else none

variable (pool : MemoryPool) (active : List ResourceReservation)

/- A preparation build uses its parent's promise. -/
def inheritedBuilds (owner : String) : List String :=
  (active.filter (fun claim => (currentBuild session nodeId claim).any
      (fun build => (session.profileBuildMemoryClaims build pool).any
      (fun inherited => inherited.ownerId = owner)))).map ResourceReservation.id

/- The ids of the live claims that an owner replaces. -/
def replacementsOf (promised : Promised) : List String :=
  replacedRuns session nodeId promised ++ inheritedBuilds session nodeId pool active promised.owner

----
-- One Pool
----

structure PoolTally where
  total : Nat
  unmaterialized : Nat
  credited : List String
deriving DecidableEq

/- What an owner's promises demand of a pool. -/
def Promised.demand (overlapping : List MemoryKind) (promised : Promised) : Nat :=
  amounts (promised.claims.filter (fun claim => claim.kind ∈ overlapping))

section Pools

variable
  (overlapping : List MemoryKind)
  (live : List ResourceReservation)
  (unmaterialized : ResourceReservation → Bool)
  (replacements : Promised → List String)

/-
  One turn of the loop over the owners. Amounts are not negative, so a difference that would be is
  zero.
-/
def chargeOwner (tally : PoolTally) (promised : Promised) : PoolTally :=
  let demand := promised.demand overlapping
  let replaced :=
    live.filter (fun claim => claim.id ∉ tally.credited ∧ claim.id ∈ replacements promised)
  { total := tally.total + (demand - amounts replaced)
    unmaterialized := tally.unmaterialized + (demand - amounts (replaced.filter unmaterialized))
    credited := tally.credited ++ replaced.map ResourceReservation.id }

def poolTally (future : List Promised) : PoolTally := future.foldl
    (chargeOwner overlapping live unmaterialized replacements)
    { total := amounts live
      unmaterialized := amounts (live.filter unmaterialized)
      credited := [] }

end Pools

----
-- The Projection
----

/- The kinds under which the pools of a node are told. -/
def poolKinds : MemoryPool → List MemoryKind
  | .shared => [.unifiedMemory]
  | .separate => [.hostMemory, .gpuMemory]

def isZero (bytes : Nat) : Bool := bytes = 0

def holder (claim : ResourceReservation) : MemoryClaimHolder where
  ownerKind := claim.ownerKind
  ownerId := claim.ownerId
  amountBytes := claim.amountBytes

/- Claims with what they use. -/
abbrev UsedClaims : Type := List (ResourceReservation × ClaimUsage)

def residuals (used : UsedClaims) : List UnknownRunMemoryResidual :=
  used.filterMap (fun entry => entry.2.unknownResidual)

/- Whether some entry says so of a claim. -/
def isUnmaterialized (used : UsedClaims) (claim : ResourceReservation) : Bool :=
  used.any (fun entry => entry.1.id = claim.id ∧ entry.2.unmaterialized)

/- The live claims on the pool of a kind. -/
def liveOn (active : UsedClaims) (kind : MemoryKind) (pool : MemoryPool) : UsedClaims :=
  active.filter (fun entry => entry.1.kind ∈ memoryReservationKinds kind pool)

variable (memoryPool : Option MemoryPool) (exclusions : Exclusions) (observedAt : Option Nat)

/- `memory_reservations`, after the claims were read. -/
def reservationTotals (used : UsedClaims) : MemoryReservationTotals :=
  let claims := used.map Prod.fst
  let unmaterialized := isUnmaterialized used
  let kept := (visibleClaims session nodeId exclusions).filter (keptRun exclusions)
  let held := claims.filter unmaterialized
  let common : MemoryReservationTotals :=
    { committedBytesByKind := []
      unmaterializedBytesByKind := []
      unknownRunResidualsByKind := []
      releasedUnobservedBytesByKind := releasedSinceObservation session nodeId observedAt
      keptBytesByKind :=
        byKind memoryReservationKindList (fun kind => amounts (ofKind kept kind)) isZero
      unmaterializedHoldersByKind :=
        ((held.map ResourceReservation.kind).eraseDups).map
        (fun kind => (kind, (ofKind held kind).map holder))
      releasingBytesByKind := releasingBytes session nodeId exclusions.runIds }
  match memoryPool with
  | none =>
    { common with
      committedBytesByKind :=
        byKind memoryReservationKindList (fun kind => amounts (ofKind claims kind)) isZero
      unmaterializedBytesByKind :=
        byKind memoryReservationKindList (fun kind => amounts (ofKind held kind)) isZero
      unknownRunResidualsByKind :=
        byKind memoryReservationKindList
        (fun kind => residuals (used.filter (fun entry => entry.1.kind = kind))) List.isEmpty }
  | some pool =>
    let active := used.filter (fun entry => entry.1.state = .active)
    let future := futureClaims claims
    let replacements := replacementsOf session nodeId pool (active.map Prod.fst)
    let tally (kind : MemoryKind) : PoolTally := poolTally (memoryReservationKinds kind pool)
        ((liveOn active kind pool).map Prod.fst) unmaterialized replacements future
    { common with
      committedBytesByKind := byKind (poolKinds pool) (fun kind => (tally kind).total) isZero
      unmaterializedBytesByKind :=
        byKind (poolKinds pool) (fun kind => (tally kind).unmaterialized) isZero
      unknownRunResidualsByKind :=
        byKind (poolKinds pool) (fun kind => residuals (liveOn active kind pool)) List.isEmpty }

/- `memory_reservations`. -/
def memoryReservations : Except String MemoryReservationTotals := do
  let used ←
    (countedClaims session nodeId exclusions).mapM
      (fun claim => do
        let usage ← claimUsage session claim
        return (claim, usage))
  return reservationTotals session nodeId memoryPool exclusions observedAt used

----
-- What the Projection Reports
----

theorem lookup_byKind (kinds : List MemoryKind) (value : MemoryKind → Nat) (kind : MemoryKind)
    (hKind : kind ∈ kinds) : ((byKind kinds value isZero).lookup kind).getD 0 = value kind := by
  induction kinds with
  | nil => cases hKind
  | cons first kinds ih =>
    by_cases hFirst : kind = first
    · subst hFirst
      by_cases hZero : value kind = 0
      · -- A zero is left out, wherever the kind stands.
        have hLeft : ∀ entry ∈ byKind (kind :: kinds) value isZero, entry.1 ≠ kind := by
          intro _ hEntry hSame
          rcases List.mem_filter.mp hEntry with ⟨hMem, hKept⟩
          rcases List.mem_map.mp hMem with ⟨_, _, rfl⟩
          subst hSame
          simp [isZero, hZero] at hKept
        rw [List.lookup_eq_none_iff.mpr (fun entry hEntry =>
          bne_iff_ne.mpr (hLeft entry hEntry).symm)]
        exact hZero.symm
      · simp [byKind, isZero, hZero]
    · have hRest := ih ((List.mem_cons.mp hKind).resolve_left hFirst)
      have hOther : (kind == first) = false := beq_eq_false_iff_ne.mpr hFirst
      rw [← hRest]
      by_cases hZero : value first = 0
      · simp [byKind, isZero, hZero]
      · simp [byKind, isZero, hZero, List.lookup_cons, hOther]

/- The claims on the pool of a kind that are live. -/
def liveClaims (exclusions : Exclusions)
    (pool : MemoryPool) (kind : MemoryKind) : List ResourceReservation :=
  ((countedClaims session nodeId exclusions).filter (fun claim => claim.state = .active)).filter
    (fun claim => claim.kind ∈ memoryReservationKinds kind pool)

theorem fst_of_mapM_usage
    (claims : List ResourceReservation) (used : UsedClaims)
    (hUsed : claims.mapM (fun claim => do
        let usage ← claimUsage session claim
        return (claim, usage)) = Except.ok used) : used.map Prod.fst = claims := by
  induction claims generalizing used with
  | nil =>
    rw [List.mapM_nil] at hUsed
    cases hUsed
    rfl
  | cons claim claims ih =>
    rw [List.mapM_cons] at hUsed
    cases hUsage : claimUsage session claim with
    | error =>
      rw [hUsage] at hUsed
      cases hUsed
    | ok usage =>
      rw [hUsage] at hUsed
      cases hRest : claims.mapM (fun claim => do
          let usage ← claimUsage session claim
          return (claim, usage)) with
      | error detail =>
        simp only [hRest] at hUsed
        cases hUsed
      | ok rest =>
        simp only [hRest] at hUsed
        cases hUsed
        rw [List.map_cons, ih rest hRest]

/- The reported commitment of a pool is its tally. -/
theorem committed_of_memoryReservations
    (exclusions : Exclusions)
    (observedAt : Option Nat)
    (totals : MemoryReservationTotals)
    (hTotals :
      memoryReservations session nodeId (some pool) exclusions
        observedAt =
        .ok totals)
    (kind : MemoryKind)
    (hKind : kind ∈ poolKinds pool) :
    ∃ unmaterialized,
      (totals.committedBytesByKind.lookup kind).getD 0 =
        (poolTally (memoryReservationKinds kind pool)
           (liveClaims session nodeId exclusions pool kind)
           unmaterialized
           (replacementsOf session nodeId pool
              ((countedClaims session nodeId exclusions).filter
                 (fun claim => claim.state = .active)))
           (futureClaims
              (countedClaims session nodeId exclusions))).total := by
  unfold memoryReservations at hTotals
  cases hUsed : (countedClaims session nodeId exclusions).mapM
        (fun claim => do
          let usage ← claimUsage session claim
          return (claim, usage)) with
  | error detail =>
    rw [hUsed] at hTotals
    cases hTotals
  | ok used =>
    have hClaims := fst_of_mapM_usage session _ used hUsed
    have hActive : (used.filter (fun entry => entry.1.state = .active)).map Prod.fst =
          (used.map Prod.fst).filter (fun claim => claim.state = .active) := by
      rw [List.filter_map]
      rfl
    have hLive : (liveOn (used.filter (fun entry =>
            entry.1.state = .active)) kind pool).map
            Prod.fst = ((used.filter (fun entry =>
            entry.1.state = .active)).map
            Prod.fst).filter (fun claim => claim.kind ∈ memoryReservationKinds kind pool) := by
      rw [List.filter_map]
      rfl
    rw [hUsed] at hTotals
    cases hTotals
    refine ⟨isUnmaterialized used, ?_⟩
    apply (lookup_byKind _ _ kind hKind).trans
    simp only [hLive, hActive, hClaims, liveClaims]

----
-- The Envelope
----

section Envelopes

variable
  (overlapping : List MemoryKind)
  (live : List ResourceReservation)
  (unmaterialized : ResourceReservation → Bool)
  (replacements : Promised → List String)

/- Whether an owner's promises replace a claim. -/
def replaces (promised : Promised) (claim : ResourceReservation) : Bool :=
  claim.id ∈ replacements promised

variable (future : List Promised)

/- What the pool holds, over all phases. -/
def commitments : Set Nat :=
  Set.range (fun phase : Envelope.Phase live future (replaces replacements) =>
      phase.commitment ResourceReservation.amountBytes (Promised.demand overlapping))

theorem mem_credited_chargeOwner (tally : PoolTally) (promised : Promised)
    (claim : ResourceReservation) (hClaim : claim ∈ live) :
    claim.id ∈ (chargeOwner overlapping live unmaterialized replacements tally promised).credited ↔
    claim.id ∈ tally.credited ∨ claim.id ∈ replacements promised := by
  simp only [chargeOwner, List.mem_append, List.mem_map, List.mem_filter, decide_eq_true_eq]
  constructor
  · rintro (hBefore | ⟨_, ⟨_, _, hNow⟩, hSame⟩)
    · exact Or.inl hBefore
    · rw [← hSame]
      exact Or.inr hNow
  · rintro (hBefore | hNow)
    · exact Or.inl hBefore
    · by_cases hBefore : claim.id ∈ tally.credited
      · exact Or.inl hBefore
      · exact Or.inr ⟨claim, ⟨hClaim, hBefore, hNow⟩, rfl⟩

/- The loop counts what the promises add, one by one. -/
theorem total_foldl_chargeOwner (tally : PoolTally) :
    (future.foldl (chargeOwner overlapping live unmaterialized replacements) tally).total =
    tally.total + Envelope.increments ResourceReservation.amountBytes live
    (Promised.demand overlapping) (replaces replacements)
    (fun claim => decide (claim.id ∈ tally.credited)) future := by
  induction future generalizing tally with
  | nil => rfl
  | cons promised _ ih =>
    -- Among the live claims, exactly those replaced are
    -- credited from here on.
    have hCredited : ∀ claim ∈ live,
          decide
              (claim.id ∈ (chargeOwner overlapping live unmaterialized replacements tally
                  promised).credited) =
            (decide (claim.id ∈ tally.credited) || replaces replacements promised claim) := by
      intro _ hClaim
      rw [Bool.eq_iff_iff, decide_eq_true_eq, mem_credited_chargeOwner _ _ _ _ _ _ _ hClaim,
        Bool.or_eq_true, decide_eq_true_eq, replaces, decide_eq_true_eq]
    have hLoad : amounts (live.filter (fun claim =>
            decide (claim.id ∉ tally.credited ∧ claim.id ∈ replacements promised))) =
          Envelope.load ResourceReservation.amountBytes
            live (fun claim =>
              replaces replacements promised claim && !decide (claim.id ∈ tally.credited)) := by
      apply Envelope.load_congr
      intro _ _
      rw [Bool.eq_iff_iff]
      simp only [replaces, decide_eq_true_eq, Bool.and_eq_true, Bool.not_eq_true',
        decide_eq_false_iff_not, and_comm]
    rw [List.foldl_cons, ih, Envelope.increments_congr _ _ _ _ _ hCredited,
      Envelope.increments, ← hLoad]
    simp only [chargeOwner]
    omega

/- The loop computes the envelope. -/
theorem total_poolTally :
    (poolTally
       overlapping live unmaterialized replacements future).total =
      Envelope.total ResourceReservation.amountBytes
        (Promised.demand overlapping) live future
        (replaces replacements) := by
  have hAll :
      amounts live = Envelope.load ResourceReservation.amountBytes live (fun _ => true) := by
    rw [Envelope.load, List.filter_true]
    rfl
  rw [poolTally, total_foldl_chargeOwner, Envelope.total, hAll]
  simp only [List.not_mem_nil, decide_false]

/-
  The committed total of a pool bounds what is held in each phase, for any order of the owners. If
  no two owners replace the same claim, it is the largest of these.
-/
theorem envelope_covers_every_phase
    (future order : List Promised)
    (hOrder : order.Perm future) :
    (poolTally
       overlapping live unmaterialized replacements order).total ∈
      upperBounds (commitments overlapping live replacements future) ∧
    (future.Pairwise
       (fun promised later =>
          (replacements promised).Disjoint (replacements later)) →
     IsGreatest (commitments overlapping live replacements future)
       (poolTally
          overlapping
            live unmaterialized replacements order).total) := by
  rw [total_poolTally]
  have hBound : Envelope.total ResourceReservation.amountBytes (Promised.demand overlapping) live
      order (replaces replacements) ∈
      upperBounds (commitments overlapping live replacements future) := by
    rintro _ ⟨_, rfl⟩
    simp only [← Envelope.commitment_reorder _ _ hOrder]
    exact Envelope.commitment_le_total _ _ _
  refine ⟨hBound, fun hDisjoint => ⟨?_, hBound⟩⟩
  have hApart : order.Pairwise (fun promised later =>
      (replacements promised).Disjoint (replacements later)) :=
    (hOrder.pairwise_iff (fun hPair => hPair.symm)).mpr hDisjoint
  have hPeak :=
    Envelope.commitment_peakPhase
      ResourceReservation.amountBytes
      (Promised.demand overlapping)
      (hApart.imp (fun hPair claim _ hFirst => by
        simp only [replaces, decide_eq_true_eq, decide_eq_false_iff_not] at hFirst ⊢
        exact fun hLater => hPair hFirst hLater) :
        order.Pairwise (fun promised later => ∀ claim ∈ live, replaces replacements promised claim =
            true → replaces replacements later claim = false))
  rw [← hPeak]
  refine ⟨Envelope.Phase.reorder hOrder.symm
    (Envelope.peakPhase ResourceReservation.amountBytes (Promised.demand overlapping)), ?_⟩
  exact Envelope.commitment_reorder _ _ hOrder.symm _

end Envelopes

def reservationOf (id : String) (state : ReservationState)
    (amountBytes : Nat) : ResourceReservation where
  id := id
  nodeId := "spark"
  kind := .unifiedMemory
  ownerKind := .run
  ownerId := id
  planDigest := ""
  state := state
  amountBytes := amountBytes
  releasedAt := none

/- An owner with one promise. -/
def promisedOf (owner : String) (amountBytes : Nat) : Promised where
  owner := owner
  claims := [reservationOf owner .promised amountBytes]

/-
  One promise replaces a run of five bytes, another none. In the other order, the envelope is the
  same.
-/
theorem envelope_covers_two_promises :
    (poolTally [.unifiedMemory] [reservationOf "run" .active 5]
       (fun _ => false)
       (fun promised =>
          if promised.owner = "first" then ["run"] else [])
       [promisedOf "second" 6, promisedOf "first" 8]).total =
      14 ∧
    IsGreatest
      (commitments [.unifiedMemory] [reservationOf "run" .active 5]
         (fun promised =>
            if promised.owner = "first" then ["run"] else [])
         [promisedOf "first" 8, promisedOf "second" 6])
      (poolTally [.unifiedMemory] [reservationOf "run" .active 5]
         (fun _ => false)
         (fun promised =>
            if promised.owner = "first" then ["run"] else [])
         [promisedOf "second" 6, promisedOf "first" 8]).total := by
  refine ⟨by decide, ?_⟩
  apply (envelope_covers_every_phase _ _ _ _ _ _ (List.Perm.swap _ _ _)).2
  simp [promisedOf]


end VonkForge.Capacity
