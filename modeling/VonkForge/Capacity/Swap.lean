import VonkForge.Memory.Swap

/-
  The reasons a plan gives and the check of a load's rise against swap
  (`resource_planning/types.py`, `reasons.py` and the swap half of `capacity.py`).

  Main declarations:
    * `ResourceReason`
    * `le_usableSwapBytes_swapNeededGib`
    * `isLeast_swapNeededBytes`
    * `swap_remedy_works`
-/

----
-- Reasons
----

namespace VonkForge.Capacity

open Memory (gib swapPolicy usableSwapBytes)

inductive Severity where
  | blocker
  | warning
deriving DecidableEq

/-
  The members of `ResourceBlockerCode` and `ResourcePlanningCode` that the planner gives. The
  reasons a demand brings along may have any other word.
-/
inductive ReasonCode where
  | capacityUnknown
  | insufficientCapacity
  | insufficientCapacityAfterStop
  | insufficientReservationBudget
  | insufficientSwap
  | residentUsageUnknown
  | estimateUncertain
  | stopReleaseUnknown
  | other (word : String)
deriving DecidableEq

structure SwapShortfallEvidence where
  activeBytes : Int
  desiredBytes : Option Int
  usedBytes : Int
  heldBytes : Int
  usableBytes : Int
  riseBytes : Int
  neededSettingBytes : Int
deriving DecidableEq

structure ResourceReason where
  code : ReasonCode
  detail : String
  severity : Severity
  nodeId : Option String
  swap : Option SwapShortfallEvidence
deriving DecidableEq

/- A detail is stored with at most 512 characters. -/
def bounded (detail : String) : String := String.ofList (detail.toList.take 512)

def reason (code : ReasonCode) (detail : String) (severity : Severity)
    (nodeId : String) : ResourceReason where
  code := code
  detail := bounded detail
  severity := severity
  nodeId := some nodeId
  swap := none

def ResourceReason.blocks (reason : ResourceReason) : Bool := reason.severity = .blocker

----
-- What a Load Asks For
----

/- The fields of a demand that the planner reads. -/
structure ResourceDemand where
  totalBytes : Option Int
  reasons : List ResourceReason
  loadOvershootBytes : Int
  minimumSwapBytes : Int
deriving DecidableEq

structure SwapHolder where
  runId : String
  heldBytes : Int
  jobRun : Bool
deriving DecidableEq

structure SwapCapacity where
  totalBytes : Int
  usedBytes : Int
  holders : List SwapHolder
  desiredBytes : Option Int
deriving DecidableEq

def SwapCapacity.heldBytes (swap : SwapCapacity) : Int :=
  (swap.holders.map SwapHolder.heldBytes).sum

def noSwap : SwapCapacity where
  totalBytes := 0
  usedBytes := 0
  holders := []
  desiredBytes := none

/- `swap_reaches` of `swap.py`. -/
def swapReaches (totalBytes sizeBytes : Int) : Bool :=
  sizeBytes ≤ totalBytes + swapPolicy.toleranceMib * 1024 ^ 2

/- `-(-bytes // GIB)`. -/
def wholeGib (bytes : Int) : Int := -(-bytes / gib)

variable (loadBytes sizeGib : Int)

/- Twice the load and some is always enough swap. -/
theorem lt_of_usableSwapBytes_lt
    (hShort : usableSwapBytes (sizeGib * gib) < loadBytes) : sizeGib < 2 * loadBytes + 4 := by
  simp only [usableSwapBytes, swapPolicy, gib] at hShort
  omega

/- The loop of `swap_needed_bytes`. -/
def swapNeededGib (loadBytes sizeGib : Int) : Int :=
  if usableSwapBytes (sizeGib * gib) < loadBytes then swapNeededGib loadBytes (sizeGib + 1)
  else sizeGib
termination_by (2 * loadBytes + 4 - sizeGib).toNat
decreasing_by
  rename_i hShort
  have hBound := lt_of_usableSwapBytes_lt loadBytes sizeGib hShort
  omega

/- `swap_needed_bytes` of `swap.py`. -/
def swapNeededBytes (loadBytes : Int) : Int :=
  if loadBytes ≤ 0 then 0
  else swapNeededGib loadBytes (wholeGib loadBytes) * gib

/- The setting found does hold the load. -/
theorem le_usableSwapBytes_swapNeededGib :
    loadBytes ≤
      usableSwapBytes (swapNeededGib loadBytes sizeGib * gib) := by
  fun_induction swapNeededGib loadBytes sizeGib with
  | case1 _ _ ih => exact ih
  | case2 _ hEnough => exact Int.not_lt.mp hEnough

theorem le_usableSwapBytes_swapNeededBytes (loadBytes : Int) :
    loadBytes ≤ usableSwapBytes (swapNeededBytes loadBytes) := by
  unfold swapNeededBytes
  split
  · rename_i hNone
    exact Int.le_trans hNone (Int.le_max_left 0 _)
  · exact le_usableSwapBytes_swapNeededGib loadBytes _

----
-- The Load Against Swap
----

def largestSetting : Int := swapPolicy.maximumGib * gib

/- `_tried_swap_need`: the rise, the minimum and the cut. -/
def triedSwapNeed (demand : ResourceDemand) : Int × Int × Bool :=
  let rise := min demand.loadOvershootBytes (usableSwapBytes largestSetting)
  let minimum := min demand.minimumSwapBytes largestSetting
  (rise, minimum, rise < demand.loadOvershootBytes ∨ minimum < demand.minimumSwapBytes)

/- `_swap_carries`. -/
def swapCarries (demand : ResourceDemand) (swap : SwapCapacity) (inUse : Bool) : Bool :=
  let (rise, minimum, _) := triedSwapNeed demand
  if rise < demand.loadOvershootBytes then
    swap.heldBytes = 0 ∧ swapReaches swap.totalBytes largestSetting
  else
    rise + swap.heldBytes + (if inUse then swap.usedBytes else 0) ≤
        usableSwapBytes swap.totalBytes ∧ swapReaches swap.totalBytes minimum

/- How many charged claims a reason names. -/
def namedClaims : Nat := 3

/- What would let the load start. -/
def swapRemedy (swap : SwapCapacity) (setting : Int) : String :=
  let jobs := (swap.holders.filter SwapHolder.jobRun).map SwapHolder.runId
  let raised := swap.desiredBytes.any (fun desired => desired < setting)
  let short := swap.desiredBytes.any (fun desired => !swapReaches swap.totalBytes desired)
  if raised then
    let size := setting / gib
    s!"Raise the Spark swap setting to at least {size} GiB."
  else if jobs ≠ [] then
    let names := ", ".intercalate (jobs.take namedClaims)
    s!"It starts once job run {names} here stops" ++
      if jobs.length < swap.holders.length then " and the other loads finish loading."
      else "."
  else if swap.heldBytes ≠ 0 then "It starts once the other loads here finish loading."
  else if short then "It starts once the Spark's swap reaches its setting."
  else "It starts once swap in use falls."

def neededSetting (rise minimum : Int) (swap : SwapCapacity) : Int :=
  min largestSetting (max (swapNeededBytes (rise + swap.usedBytes)) (wholeGib minimum * gib))

variable (nodeId : String)

def swapShortfall (rise minimum : Int) (swap : SwapCapacity) : ResourceReason :=
  let usable := usableSwapBytes swap.totalBytes
  let setting := neededSetting rise minimum swap
  let settingText :=
    match swap.desiredBytes with
    | none => "no setting known"
    | some desired => s!"setting {desired} bytes"
  let total := swap.totalBytes
  let used := swap.usedBytes
  let held := swap.heldBytes
  let remedy := swapRemedy swap setting
  { code := .insufficientSwap
    detail := bounded
      (s!"The load rises {rise} bytes above its steady " ++
        s!"demand and needs at least {minimum} bytes of " ++
        s!"swap. Swap: {total} bytes active " ++
        s!"({settingText}), {used} in use, {held} held by " ++
        "loads still starting or job runs; " ++ s!"{usable} bytes are usable within the host " ++
        s!"memory guard's margins. {remedy}")
    severity := .blocker
    nodeId := some nodeId
    swap := some
      { activeBytes := swap.totalBytes, desiredBytes := swap.desiredBytes,
        usedBytes := swap.usedBytes, heldBytes := swap.heldBytes, usableBytes := usable,
        riseBytes := rise, neededSettingBytes := setting } }

def clampedEstimate (demand : ResourceDemand) : ResourceReason :=
  let rise := demand.loadOvershootBytes
  let minimum := demand.minimumSwapBytes
  let largest := swapPolicy.maximumGib
  reason .estimateUncertain
    (s!"The declared load rise ({rise} bytes) or minimum " ++
      s!"swap ({minimum} bytes) is above the largest swap " ++
      s!"setting ({largest} GiB); it is tried with that " ++ "and the host memory guard decides.")
    .warning nodeId

/- `_load_swap_reason`. -/
def loadSwapReason (demand : ResourceDemand) (swap : Option SwapCapacity) : List ResourceReason :=
  let (rise, minimum, clamped) := triedSwapNeed demand
  if rise ≤ 0 ∧ minimum ≤ 0 then []
  else
    let reasons := if clamped then [clampedEstimate nodeId demand] else []
    match swap with
    -- Unknown capacity is already the blocker.
    | none => reasons
    | some swap =>
      if swapCarries demand swap true then reasons
      else reasons ++ [swapShortfall nodeId rise minimum swap]

----
-- The Remedy
----

/- The loop stops at the first size that is enough. -/
theorem swapNeededGib_le {loadBytes sizeGib enough : Int} (hStart : sizeGib ≤ enough)
    (hEnough : loadBytes ≤ usableSwapBytes (enough * gib)) :
    swapNeededGib loadBytes sizeGib ≤ enough := by
  fun_induction swapNeededGib loadBytes sizeGib with
  | case1 sizeGib hShort ih =>
    apply ih
    have hOther : sizeGib ≠ enough := by
      rintro rfl
      exact absurd hEnough (Int.not_le.mpr hShort)
    omega
  | case2 => exact hStart

theorem le_swapNeededGib : sizeGib ≤ swapNeededGib loadBytes sizeGib := by
  fun_induction swapNeededGib loadBytes sizeGib with
  | case1 => omega
  | case2 => exact Int.le_refl _

/- No swap is usable beyond its size. -/
theorem wholeGib_le_of_usable {loadBytes : Int} (hLoad : 0 < loadBytes)
    {size : Int} (hUsable : loadBytes ≤ usableSwapBytes (size * gib)) :
    wholeGib loadBytes ≤ size := by
  simp only [usableSwapBytes, swapPolicy, gib, wholeGib] at hUsable ⊢
  omega

/- `swap_needed_bytes` returns the smallest whole-GiB total whose usable part holds the load. -/
theorem isLeast_swapNeededBytes (loadBytes : Int) :
    IsLeast
      {total : Int | ∃ size : Nat, total = size * gib ∧ loadBytes ≤ usableSwapBytes total}
      (swapNeededBytes loadBytes) := by
  have hHolds := le_usableSwapBytes_swapNeededBytes loadBytes
  by_cases hNone : loadBytes ≤ 0
  · have hZero : swapNeededBytes loadBytes = 0 := if_pos hNone
    rw [hZero] at hHolds ⊢
    refine ⟨⟨0, by simp, hHolds⟩, ?_⟩
    rintro _ ⟨_, rfl, _⟩
    exact Int.mul_nonneg (Int.natCast_nonneg _) (Int.natCast_nonneg _)
  · have hLoad : 0 < loadBytes := Int.not_le.mp hNone
    have hNeeded : swapNeededBytes loadBytes = swapNeededGib loadBytes (wholeGib loadBytes) * gib :=
      if_neg hNone
    rw [hNeeded] at hHolds ⊢
    constructor
    · have hStart := le_swapNeededGib loadBytes (wholeGib loadBytes)
      have hWhole : 0 ≤ wholeGib loadBytes := by
        simp only [wholeGib, gib]
        omega
      refine ⟨(swapNeededGib loadBytes (wholeGib loadBytes)).toNat, ?_, hHolds⟩
      rw [Int.toNat_of_nonneg (hWhole.trans hStart)]
    · rintro _ ⟨_, rfl, hUsable⟩
      have hLe := swapNeededGib_le (wholeGib_le_of_usable hLoad hUsable) hUsable
      exact Int.mul_le_mul_of_nonneg_right hLe (Int.natCast_nonneg _)

/- A rise that is cut needs the largest setting. -/
theorem swapNeededBytes_largest :
    swapNeededBytes (usableSwapBytes largestSetting) = largestSetting := by
  have hLeast := isLeast_swapNeededBytes (usableSwapBytes largestSetting)
  rcases hLeast.1 with ⟨size, hSize, hUsable⟩
  have hAbove : 128 ≤ size := by
    by_contra hBelow
    rw [hSize] at hUsable
    simp only [usableSwapBytes, swapPolicy, gib, largestSetting] at hUsable
    omega
  have hLe : swapNeededBytes _ ≤ largestSetting := hLeast.2 ⟨128, rfl, Int.le_refl _⟩
  rw [hSize] at hLe ⊢
  simp only [largestSetting, swapPolicy, gib] at hLe ⊢
  omega

theorem swapReaches_of_le {totalBytes sizeBytes : Int} (hLe : sizeBytes ≤ totalBytes) :
    swapReaches totalBytes sizeBytes := by
  rw [swapReaches, decide_eq_true_iff]
  have hTolerance : (0 : Int) ≤ swapPolicy.toleranceMib * 1024 ^ 2 :=
    Int.mul_nonneg (Int.natCast_nonneg _) (by decide)
  omega

/- The setting that is reported carries the load. -/
theorem swapCarries_neededSetting {demand : ResourceDemand} {swap other : SwapCapacity}
    (hUsed : 0 ≤ swap.usedBytes)
    (hFits : (triedSwapNeed demand).1 + swap.usedBytes ≤ usableSwapBytes largestSetting)
    (hTotal : other.totalBytes = neededSetting (triedSwapNeed demand).1 (triedSwapNeed demand).2.1
      swap) (hSame : other.usedBytes = swap.usedBytes) (hHeld : other.heldBytes = 0) :
    swapCarries demand other true := by
  unfold swapCarries
  simp only [triedSwapNeed] at hFits hTotal ⊢
  by_cases hCut : min demand.loadOvershootBytes (usableSwapBytes largestSetting) <
    demand.loadOvershootBytes
  · -- The cut rise fills the usable swap, so none is in use.
    have hRise : min demand.loadOvershootBytes (usableSwapBytes largestSetting) =
        usableSwapBytes largestSetting := by omega
    have hNone : swap.usedBytes = 0 := by omega
    rw [hRise, neededSetting, hNone, add_zero, swapNeededBytes_largest,
      min_eq_left (le_max_left _ _)] at hTotal
    rw [if_pos hCut, decide_eq_true_iff]
    exact ⟨hHeld, swapReaches_of_le hTotal.ge⟩
  · rw [if_neg hCut, hHeld, hSame, decide_eq_true_iff]
    simp only [if_true, add_zero]
    generalize hRise : min demand.loadOvershootBytes (usableSwapBytes largestSetting) = rise at *
    have hMinimum : min demand.minimumSwapBytes largestSetting ≤
        wholeGib (min demand.minimumSwapBytes largestSetting) * gib := by
      simp only [wholeGib, gib]
      omega
    have hMinimumLe : min demand.minimumSwapBytes largestSetting ≤ largestSetting :=
      min_le_right _ _
    rw [hTotal, neededSetting]
    constructor
    · rw [(show Monotone usableSwapBytes from Memory.usableSwapBytes_mono).map_min]
      refine le_min hFits ?_
      exact (le_usableSwapBytes_swapNeededBytes _).trans
        (Memory.usableSwapBytes_mono _ _ (le_max_left _ _))
    · apply swapReaches_of_le
      exact le_min hMinimumLe (hMinimum.trans (le_max_right _ _))

/-
  The swap remedy works: where no swap is held and the rise beside the swap in use fits the largest
  setting, a Spark at the setting that a shortfall names carries the load. `swap_needed_bytes` gives
  the smallest such total.
-/
theorem swap_remedy_works :
    (∀ (nodeId : String) (demand : ResourceDemand)
       (swap other : SwapCapacity) (reported : ResourceReason)
       (evidence : SwapShortfallEvidence),
       0 ≤ swap.usedBytes →
       (triedSwapNeed demand).1 + swap.usedBytes ≤
         usableSwapBytes largestSetting →
       reported ∈ loadSwapReason nodeId demand (some swap) →
       reported.swap = some evidence →
       other.totalBytes = evidence.neededSettingBytes →
       other.usedBytes = swap.usedBytes →
       swap.heldBytes = 0 ∧ other.heldBytes = 0 →
       swapCarries demand other true = true) ∧
    ∀ loadBytes,
      IsLeast
        {total : Int | ∃ size : Nat, total = size * gib ∧ loadBytes ≤ usableSwapBytes total}
        (swapNeededBytes loadBytes) := by
  refine ⟨?_, isLeast_swapNeededBytes⟩
  intro nodeId demand swap other reported evidence
  intro hUsed hFits hReported hEvidence hTotal hSame hHeld
  apply swapCarries_neededSetting hUsed hFits ?_ hSame hHeld.2
  rw [hTotal]
  -- Only the shortfall carries evidence.
  have hEither : reported = clampedEstimate nodeId demand ∨
      reported = swapShortfall nodeId (triedSwapNeed demand).1 (triedSwapNeed demand).2.1 swap := by
    unfold loadSwapReason at hReported
    simp only at hReported
    split at hReported
    · exact absurd hReported List.not_mem_nil
    · split at hReported <;> split at hReported <;> simp_all
  rcases hEither with rfl | rfl
  · cases hEvidence
  · cases hEvidence
    rfl

/- A load that rises by 10 GiB on a Spark without swap. -/
def risingLoad : ResourceDemand where
  totalBytes := none
  reasons := []
  loadOvershootBytes := 10 * gib
  minimumSwapBytes := 0

/- The setting that is asked for carries a load that the host cannot. -/
theorem raised_swap_carries :
    swapCarries risingLoad
      { noSwap with totalBytes := neededSetting (10 * gib) 0 noSwap }
      true =
      true := by
  have hNeed : triedSwapNeed risingLoad = ((10 * gib : Int), 0, false) := by decide
  have hReported :
      swapShortfall "a" (10 * gib) 0 noSwap ∈ loadSwapReason "a" risingLoad (some noSwap) := by
    have hShort : swapCarries risingLoad noSwap true = false := by decide
    simp [loadSwapReason, hNeed, hShort, gib]
  exact
    swap_remedy_works.1 "a" risingLoad noSwap
      { noSwap with totalBytes := neededSetting (10 * gib) 0 noSwap } _ _
      (by decide) (by decide) hReported rfl rfl rfl (by decide)

end VonkForge.Capacity
