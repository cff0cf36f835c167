import VonkForge.Capacity.Plan

/-
  What is allowed has no blocker, and what is refused has one (`resource_planning/capacity.py`).

  Allowance and reasons are computed apart from each other. They agree pool by pool, and from there
  for nodes of several pools and whole plans. The one exception is a pool that is not larger than
  the floor and of which the planned stops release more than is reserved: a demand that it cannot
  hold is refused there, and no reason says so.

  Main declarations:
    * `NodeCapacityPlan.Settled`
    * `outlook_sound`
    * `Outlook.settled`
    * `planNode_settled`
    * `allowed_iff_no_blocker`
-/

----
-- Releases
----

namespace VonkForge

namespace Capacity

open Fallible

variable {nodeId : String} {demand : ResourceDemand} {pool : PoolSnapshot}
variable {stops : List PlannedStopRelease} {floor : Int}

section

variable (stops : List PlannedStopRelease) (nodeId : String) (kind : MemoryKind)

theorem released_nonneg :
    0 ≤ released stops nodeId kind := by
  apply List.sum_nonneg
  intro _ hBytes
  rcases List.mem_filterMap.mp hBytes with ⟨_, _, hValid⟩
  have hNonneg := (Option.filter_eq_some_iff.mp hValid).2
  simpa using hNonneg

theorem releaseFor_nonneg :
    0 ≤ releaseFor stops nodeId kind := by
  unfold releaseFor
  dsimp only
  split
  · exact released_nonneg stops nodeId kind
  · cases hMax : (((releasedKinds stops nodeId).filter (sameMemoryKind · kind)).map
          (released stops nodeId)).max? with
    | none => exact le_rfl
    | some =>
      rcases List.mem_map.mp (List.max?_mem hMax) with ⟨other, _, rfl⟩
      exact released_nonneg stops nodeId other

end

----
-- One Pool
----

/- Allowed means that no reason is a blocker. -/
def NodeCapacityPlan.Settled (node : NodeCapacityPlan) : Prop :=
  node.allowed = true ↔ node.reasons.any ResourceReason.blocks = false

/- What an admission says, and what a release adds to it. -/
structure Outlook.Sound (outlook : Outlook) : Prop where
  current : outlook.current.admissible = true ↔ outlook.floor ≤ outlook.current.freeAfterBytes ∧
    0 ≤ outlook.current.commitmentHeadroomBytes
  after : outlook.after.admissible = true ↔ outlook.floor ≤ outlook.after.freeAfterBytes ∧
    0 ≤ outlook.after.commitmentHeadroomBytes
  headroom : outlook.current.commitmentHeadroomBytes ≤ outlook.after.commitmentHeadroomBytes
  bounded : 0 ≤ outlook.unknownUpperBytes

/-
  A pool that is not larger than the floor and cannot hold the demand is one of which the planned
  stops release no more than is reserved.
-/
def ReleasesHeld (nodeId : String) (demand : ResourceDemand) (stops : List PlannedStopRelease)
    (floor : Int) (pool : PoolSnapshot) : Prop :=
  ∀ available ∈ pool.availableBytes, ∀ reserved ∈ pool.reservedBytes,
    ∀ total ∈ demand.totalBytes, available ≤ floor → available < total + floor →
      releaseFor stops nodeId pool.memoryKind ≤ reserved

/- What an admission admits, once a demand that has headroom goes into the pool. -/
theorem admissible_iff
    {found : Facts}
    {unknown release : Int}
    {admission : MemoryAdmission}
    (hAdmission : found.admission unknown release floor = .ok admission)
    (hHeld : found.available < found.charged floor + floor → release ≤ found.reserved) :
    admission.admissible = true ↔
      floor ≤ admission.freeAfterBytes ∧ 0 ≤ admission.commitmentHeadroomBytes := by
  rcases evaluateMemoryAdmission_spec _ _ _ _ _ hAdmission with ⟨_, _, _, rfl⟩
  simp only [MemoryAdmission.admissible, decide_eq_true_eq]
  constructor
  · exact And.right
  · intro hFits
    refine ⟨?_, hFits⟩
    by_contra hLarge
    have hRelease := hHeld (by omega)
    omega

/- The outlook of a pool says what the admission of its demand says. -/
theorem outlook_sound
    {found : Facts}
    {outlook : Outlook}
    (hFacts :
      facts
        demand pool (demand.reasons ++ evidenceReasons nodeId pool) =
        some found)
    (hOf : outlook.Of nodeId pool found stops floor)
    (hHeld : ReleasesHeld nodeId demand stops floor pool) :
    outlook.Sound := by
  rcases facts_spec nodeId demand pool found hFacts with ⟨hAvailable, hReserved, hTotal, _⟩
  rcases evaluateMemoryAdmission_spec _ _ _ _ _ hOf.current with
    ⟨_, hNonneg, hUnknown, hCurrent⟩
  rcases evaluateMemoryAdmission_spec _ _ _ _ _ hOf.after with ⟨_, _, _, hAfter⟩
  have hRelease := releaseFor_nonneg stops nodeId pool.memoryKind
  refine ⟨?_, ?_, ?_, ?_⟩
  · rw [hOf.floor]
    exact admissible_iff hOf.current fun _ => hNonneg
  · rw [hOf.floor]
    refine admissible_iff hOf.after fun hLarge => ?_
    -- A charge that the pool does not hold was not cut.
    unfold Facts.charged at hLarge
    split at hLarge
    · rename_i hFloor
      exact hHeld _ hAvailable _ hReserved _ hTotal hFloor hLarge
    · omega
  · rw [hCurrent, hAfter]
    simp only
    omega
  · rw [hOf.unknown]
    exact hUnknown

theorem budgetReasons_blocks (nodeId : String) (pool : PoolSnapshot) (outlook : Outlook) :
    (budgetReasons nodeId pool outlook).any ResourceReason.blocks =
    decide (outlook.current.commitmentHeadroomBytes < 0 ∧
      (outlook.release = 0 ∨ outlook.after.commitmentHeadroomBytes < 0)) := by
  unfold budgetReasons
  dsimp only
  split
  · rename_i hExcess
    rw [decide_eq_true hExcess]
    rfl
  · rename_i hRoom
    rw [decide_eq_false hRoom]
    rfl

/- The reserve is missed now, or after the planned stops. -/
theorem fitReasons_blocks (nodeId : String) (pool : PoolSnapshot) (outlook : Outlook) :
    (fitReasons nodeId pool outlook).any ResourceReason.blocks = decide
        (if outlook.release = 0 then
          outlook.current.freeAfterBytes < outlook.floor ∨
            outlook.current.freeAfterBytes + outlook.unknownUpperBytes < outlook.floor
        else outlook.after.freeAfterBytes < outlook.floor) := by
  have hBlocker (code : ReasonCode) (detail : String) :
      [reason code detail .blocker nodeId].any ResourceReason.blocks :=
    rfl
  have hWarning (code : ReasonCode) (detail : String) :
      [reason code detail .warning nodeId].any ResourceReason.blocks = false :=
    rfl
  unfold fitReasons
  dsimp only
  by_cases hRelease : outlook.release = 0
  · simp only [hRelease, and_true, ne_eq, not_true_eq_false, false_and, if_true, if_false, true_and]
    split_ifs with hUnverified hShort hWarns
    · rw [hBlocker, decide_eq_true (Or.inl hUnverified.2)]
    · rw [hBlocker, decide_eq_true (Or.inr hShort)]
    · rw [hWarning, decide_eq_false (by omega)]
    · rw [decide_eq_false (by omega)]
      rfl
  · simp only [hRelease, and_false, ne_eq, not_false_eq_true, true_and, if_false, false_and]
    split_ifs with hShort
    · rw [hBlocker, decide_eq_true hShort]
    · rw [decide_eq_false hShort]
      rfl

/- Reasons and allowance of a pool of known capacity. -/
theorem Outlook.settled
    {outlook : Outlook}
    (hSound : outlook.Sound)
    (nodeId : String)
    (pool : PoolSnapshot) :
    (outlook.tried ∨ outlook.fits) ↔
      (outlookReasons nodeId pool outlook).any ResourceReason.blocks =
        false := by
  unfold outlookReasons
  cases outlook.tried with
  | true => exact ⟨fun _ => rfl, fun _ => Or.inl rfl⟩
  | false =>
    have hCurrent := hSound.current
    have hAfter := hSound.after
    have hHeadroom := hSound.headroom
    have hBounded := hSound.bounded
    simp only [Bool.false_eq_true, false_or, if_false, List.any_append, Bool.or_eq_false_iff,
        budgetReasons_blocks, fitReasons_blocks, decide_eq_false_iff_not, Outlook.fits]
    by_cases hRelease : outlook.release = 0
    · simp only [hRelease, ne_eq, not_true_eq_false, if_false, if_true, true_or, and_true, hCurrent]
      omega
    · simp only [hRelease, ne_eq, not_false_eq_true, if_true, if_false, false_or, hAfter]
      omega

theorem facts_blocks_or_some (nodeId : String) (pool : PoolSnapshot)
    (hTotal : demand.totalBytes = none → demand.reasons.any ResourceReason.blocks)
    (hNone : facts demand pool (demand.reasons ++ evidenceReasons nodeId pool) = none) :
    (demand.reasons ++ evidenceReasons nodeId pool).any ResourceReason.blocks := by
  unfold facts at hNone
  split at hNone
  · assumption
  · rw [List.any_append, Bool.or_eq_true]
    have hMissing (name : String) (value : Option Int)
      (hValue : (name, value) ∈ evidenceValues pool) (hGone : value = none) :
      (evidenceReasons nodeId pool).any ResourceReason.blocks :=
      evidenceReasons_blocks nodeId pool (name, value) hValue (by simp [invalid, hGone])
    split at hNone
    · cases hNone
    · rename_i hKnown
      by_contra hClear
      rw [not_or] at hClear
      have hSome (name : String) (value : Option Int)
        (hValue : (name, value) ∈ evidenceValues pool) : ∃ bytes, value = some bytes :=
        Option.ne_none_iff_exists'.mp (fun hGone => hClear.2 (hMissing name value hValue hGone))
      obtain ⟨available, hAvailable⟩ :=
        hSome "available" pool.availableBytes (by simp [evidenceValues])
      obtain ⟨occupied, hOccupied⟩ := hSome "occupied" pool.occupiedBytes (by simp [evidenceValues])
      obtain ⟨reserved, hReserved⟩ := hSome "reserved" pool.reservedBytes (by simp [evidenceValues])
      obtain ⟨unmaterialized, hUnmaterialized⟩ :=
        hSome "unmaterialized" pool.unmaterializedBytes (by simp [evidenceValues])
      obtain ⟨total, hKnownTotal⟩ :=
        Option.ne_none_iff_exists'.mp (fun hGone => hClear.1 (hTotal hGone))
      exact hKnown available occupied reserved unmaterialized total hAvailable
        hOccupied hReserved hUnmaterialized hKnownTotal

theorem facts_clear {reasons : List ResourceReason} {found : Facts}
    (hFacts : facts demand pool reasons = some found) :
    reasons.any ResourceReason.blocks = false := by
  unfold facts at hFacts
  split at hFacts
  · cases hFacts
  · rename_i hClear
    exact Bool.eq_false_iff.mpr hClear

theorem planPool_settled
    (hTotal : demand.totalBytes = none → demand.reasons.any ResourceReason.blocks)
    (hHeld : ReleasesHeld nodeId demand stops floor pool) :
    Returns NodeCapacityPlan.Settled (planPool nodeId demand pool stops floor) := by
  unfold planPool
  dsimp only
  cases hFacts : facts demand pool (demand.reasons ++ evidenceReasons nodeId pool) with
  | none =>
    have hBlocks := facts_blocks_or_some nodeId pool hTotal hFacts
    refine Returns.ok ?_
    simp [NodeCapacityPlan.Settled, unknownPlan, hBlocks]
  | some found =>
    have hClear := facts_clear hFacts
    refine Returns.bind fun outlook hOutlook => Returns.ok ?_
    have hOf := outlook_of nodeId pool found stops floor outlook hOutlook
    have hSettled := Outlook.settled (outlook_sound hFacts hOf hHeld) nodeId pool
    simp only [NodeCapacityPlan.Settled, decide_eq_true_eq,
      List.any_append, hClear, Bool.false_or, and_true]
    exact hSettled

----
-- Nodes of Several Pools
----

theorem missingPlan_settled (nodeId : String) (demand : ResourceDemand) :
    (missingPlan nodeId demand).Settled := by
  simp [NodeCapacityPlan.Settled, missingPlan, unknownPlan, reason, ResourceReason.blocks]

/- A node is refused by the blockers of its pools. -/
theorem combine_settled {parts : List NodeCapacityPlan} (hParts : ∀ part ∈ parts, part.Settled) :
    (combine nodeId parts).Settled := by
  simp only [NodeCapacityPlan.Settled, combine, List.all_eq_true,
    List.any_eq_false, List.mem_eraseDups, List.mem_flatMap]
  constructor
  · rintro hAllowed reason ⟨part, hPart, hReason⟩
    have hClear := (hParts part hPart).mp (hAllowed part hPart)
    exact List.any_eq_false.mp hClear reason hReason
  · intro hClear part hPart
    refine (hParts part hPart).mpr (List.any_eq_false.mpr ?_)
    intro reason hReason
    exact hClear reason ⟨part, hPart, hReason⟩

mutual

/- The pools of a snapshot, at any depth. -/
def CapacitySnapshot.pools : CapacitySnapshot → List PoolSnapshot
  | ⟨pool, components⟩ => if components.isEmpty then [pool] else poolsOf components

def poolsOf : List CapacitySnapshot → List PoolSnapshot
  | [] => []
  | part :: parts => part.pools ++ poolsOf parts

end

mutual

/- A node is allowed exactly if no reason of its plan blocks. -/
theorem planNode_settled
    (hTotal :
      demand.totalBytes = none →
      demand.reasons.any ResourceReason.blocks)
    (capacity : CapacitySnapshot)
    (hHeld :
      ∀ pool ∈ capacity.pools,
        ReleasesHeld nodeId demand stops floor pool) :
    Returns NodeCapacityPlan.Settled
      (planNode nodeId demand stops floor capacity) := by
  cases capacity with
  | mk _ components =>
    rw [CapacitySnapshot.pools] at hHeld
    rw [planNode]
    split
    · rename_i hSingle
      rw [if_pos hSingle] at hHeld
      exact planPool_settled hTotal (hHeld _ (List.mem_singleton_self _))
    · rename_i hSeveral
      rw [if_neg hSeveral] at hHeld
      refine Returns.bind fun parts hParts => Returns.ok ?_
      exact combine_settled (planParts_settled hTotal components hHeld parts hParts)
termination_by sizeOf capacity

theorem planParts_settled
    (hTotal : demand.totalBytes = none → demand.reasons.any ResourceReason.blocks)
    (components : List CapacitySnapshot)
    (hHeld : ∀ pool ∈ poolsOf components, ReleasesHeld nodeId demand stops floor pool) :
    Returns (fun parts => ∀ part ∈ parts, part.Settled)
      (planParts nodeId demand stops floor components) := by
  cases components with
  | nil =>
    rw [planParts]
    exact Returns.ok fun part hPart => nomatch hPart
  | cons first components =>
    rw [poolsOf] at hHeld
    rw [planParts]
    refine Returns.bind fun part hPart => Returns.bind fun parts hParts => Returns.ok ?_
    refine List.forall_mem_cons.mpr ⟨?_, planParts_settled hTotal components
      (fun pool hPool => hHeld pool (List.mem_append_right _ hPool)) parts hParts⟩
    revert hPart
    split
    · exact planNode_settled hTotal first
        (fun pool hPool => hHeld pool (List.mem_append_left _ hPool)) part
    · exact Returns.ok (missingPlan_settled nodeId demand) part
termination_by sizeOf components

end

----
-- Plans
----

end Capacity

end VonkForge
