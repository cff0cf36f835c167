import VonkForge.Foundations.Run
import VonkForge.Memory.Swap

/-
  The decision of the host memory guard (`decision.rs`, `host_memory_guard_policy.rs`).

  Each sample is judged by five rules. A rule whose condition every sample has shown for its bound
  stops the managed workloads. Instants and durations are nanoseconds.

  Main declarations:
    * `Conditions`
    * `conditions`
    * `Decision`
-/

----
-- Samples
----

namespace VonkForge.Memory

def seconds (count : Nat) : Nat := count * 1000000000

inductive Trigger where
  | memoryExhausted
  | memoryAndSwapExhausted
  | swapFilling
  | thrashing
  | sustainedPressure
  | driverAllocationFailure
deriving DecidableEq

structure Counters where
  swapIn : UInt64
  swapOut : UInt64
  refault : UInt64
deriving DecidableEq

/- `Sample`, without the readings that no rule reads. -/
structure Sample where
  availableBytes : Option UInt64
  freeBytes : Option UInt64
  swapTotalBytes : Option UInt64
  swapFreeBytes : Option UInt64
  fullAvg10 : Option Float
  fullAvg60 : Option Float
  counters : Option Counters

/- Page rates per second between two samples. -/
structure Rates where
  swapIn : Float
  swapOut : Float
  refault : Float

def Rates.thrash (rates : Rates) : Float := rates.swapIn + rates.refault

----
-- The Policy
----

def exhaustedBytes : UInt64 := 256 * 1024 * 1024
def sustainedPressure : Nat := seconds 3
def swapExhaustedMemoryBytes : UInt64 := Agent.gib
def swapExhaustedSustain : Nat := seconds 2
def swapFillingMemoryBytes : UInt64 := 4 * Agent.gib
def swapFillingSustain : Nat := seconds 3
def thrashPagesPerSecond : Float := 50000
def thrashFullPsiPercent : Float := 60.0
def thrashHeadroomBytes : UInt64 := 8 * Agent.gib
def thrashSustain : Nat := seconds 10
def pressureAvailableBytes : UInt64 := 8 * Agent.gib
def servingFullPsiPercent : Float := 60.0
def servingPressureSustain : Nat := seconds 30
def loadingFullAvg60Percent : Float := 80.0
def loadingPressureSustain : Nat := seconds 60
def psiFallingRatio : Float := 0.85
def driverFailureFreeBytes : UInt64 := Agent.gib
def driverFailureReclaimPagesPerSecond : Float := 100.0
def driverFailureSustain : Nat := seconds 2
def recentSamples : Nat := 6
def recentSampleSpacing : Nat := seconds 1

----
-- Conditions
----

/- `u64::saturating_add`. -/
def saturatingAdd (left right : UInt64) : UInt64 :=
  if left.toNat + right.toNat < UInt64.size then left + right
  else UInt64.ofNat (UInt64.size - 1)

/- A known reading is below a bar. -/
def below (value : Option UInt64) (bar : UInt64) : Bool :=
  value.any fun known => decide (known < bar)

/- The swap term of R1. -/
def swapExhausted (total free : UInt64) : Bool := decide (free < Agent.keptFree total)

/- The swap term of R2. -/
def swapFilled (total free : UInt64) : Bool :=
  decide (saturatingSub total free > Agent.filledAt total)

structure Conditions where
  swap : Bool
  exhausted : Bool
  filling : Bool
  thrashing : Bool
  pressure : Bool
  driverFreeLow : Bool
deriving DecidableEq

variable (sample : Sample)

/- The condition of R1. -/
def exhausted (swapTotal : Option UInt64) : Bool :=
  match swapTotal, sample.swapFreeBytes with
  | some total, some free =>
    below sample.availableBytes swapExhaustedMemoryBytes && swapExhausted total free
  | _, _ => below sample.availableBytes exhaustedBytes

/- The condition of R2. -/
def filling (swapTotal : Option UInt64) (rates : Option Rates) : Bool :=
  match swapTotal, sample.swapFreeBytes, rates with
  | some total, some free, some rates =>
    swapFilled total free &&
      decide (rates.swapOut > 0.0) &&
      below sample.availableBytes swapFillingMemoryBytes
  | _, _, _ => false

/- The condition of R3. -/
def thrashing (rates : Option Rates) : Bool :=
  let headroom :=
    sample.availableBytes.map fun bytes => saturatingAdd bytes (sample.swapFreeBytes.getD 0)
  (rates.any fun rates => decide (rates.thrash ≥ thrashPagesPerSecond)) &&
    (sample.fullAvg10.any fun psi => decide (psi > thrashFullPsiPercent)) &&
    below headroom thrashHeadroomBytes

/- The condition of R4. -/
def pressure (loading : Bool) : Bool := below sample.availableBytes pressureAvailableBytes &&
    if loading then
      match sample.fullAvg60, sample.fullAvg10 with
      | some avg60, some avg10 =>
        decide (avg60 > loadingFullAvg60Percent) &&
          decide (avg10 ≥ avg60 * psiFallingRatio)
      | _, _ => false
    else sample.fullAvg10.any fun psi => decide (psi > servingFullPsiPercent)

/- The low MemFree that corroborates a driver line. -/
def driverFreeLow (swap : Bool) (rates : Option Rates) : Bool :=
  below sample.freeBytes driverFailureFreeBytes &&
    below sample.availableBytes pressureAvailableBytes &&
    (!swap || rates.any fun rates => decide (rates.swapOut < driverFailureReclaimPagesPerSecond))

def conditions (rates : Option Rates) (loading : Bool) : Conditions :=
  let swapTotal := sample.swapTotalBytes.filter fun total => decide (total > 0)
  let swap := swapTotal.isSome && sample.swapFreeBytes.isSome
  { swap := swap
    exhausted := exhausted sample swapTotal
    filling := filling sample swapTotal rates
    thrashing := thrashing sample rates
    pressure := pressure sample loading
    driverFreeLow := driverFreeLow sample swap rates }

/- R5's condition: something that corroborates the line. -/
def Conditions.corroborating (condition : Conditions) : Bool :=
  condition.exhausted || condition.thrashing || condition.driverFreeLow

----
-- The Decision
----

structure Decision where
  exhaustedSince : Option Nat
  fillingSince : Option Nat
  thrashingSince : Option Nat
  pressureSince : Option Nat
  pressureLoading : Bool
  corroboratedSince : Option Nat
  previous : Option (Nat × Counters)
  rates : Option Rates
  recent : List (Nat × Sample)

/- `Decision::default()`. -/
def Decision.initial : Decision := ⟨none, none, none, none, false, none, none, none, []⟩

structure Observation where
  now : Nat
  sample : Sample
  driverFailure : Bool
  managed : Bool
  loading : Bool

/- `Duration::as_secs_f64`. -/
def asSecs (duration : Nat) : Float :=
  Float.ofNat (duration / 1000000000) + Float.ofNat (duration % 1000000000) / 1000000000.0

variable (decision : Decision) (now : Nat)

/- The rates that `update_rates` sets. -/
def Decision.nextRates (counters : Option Counters) : Option Rates :=
  match decision.previous, counters with
  | some (since, before), some after =>
    if since < now then
      let rate := fun (a b : UInt64) => (saturatingSub a b).toFloat / asSecs (now - since)
      some ⟨rate after.swapIn before.swapIn, rate after.swapOut before.swapOut,
          rate after.refault before.refault⟩
    else none
  | _, _ => none

/- The evidence readings with the one of this sample. -/
def Decision.nextRecent (sample : Sample) : List (Nat × Sample) :=
  if decision.recent.getLast?.all fun last => decide (recentSampleSpacing ≤ now - last.1) then
    (if decision.recent.length = recentSamples then decision.recent.tail
    else decision.recent) ++ [(now, sample)]
  else decision.recent

/- A window after a sample: since when it is open. -/
def openSince (since : Option Nat) (active : Bool) : Option Nat :=
  if active then some (since.getD now) else none

/- Whether the window has been open for the bound. -/
def sustained (since : Option Nat) (bound : Nat) : Bool :=
  since.any fun start => decide (bound ≤ now - start)

/- The bound of R1, for a sample with swap or without. -/
def exhaustedSustain (swap : Bool) : Nat := if swap then swapExhaustedSustain else sustainedPressure

/- The bound of R4 in a phase. -/
def pressureSustain (loading : Bool) : Nat :=
  if loading then loadingPressureSustain
  else servingPressureSustain

variable (observation : Observation)

/- The windows and rates after a managed sample. -/
def Decision.measure : Decision :=
  let now := observation.now
  let sample := observation.sample
  let rates := decision.nextRates now sample.counters
  let condition := conditions sample rates observation.loading
  let pressureSince :=
    if observation.loading ≠ decision.pressureLoading then none
    else decision.pressureSince
  { exhaustedSince := openSince now decision.exhaustedSince condition.exhausted
    fillingSince := openSince now decision.fillingSince condition.filling
    thrashingSince := openSince now decision.thrashingSince condition.thrashing
    pressureSince := openSince now pressureSince condition.pressure
    pressureLoading := observation.loading
    corroboratedSince := openSince now decision.corroboratedSince condition.corroborating
    previous := sample.counters.map fun counters => (now, counters)
    rates := rates
    recent := decision.nextRecent now sample }

/- What the measured windows decide. -/
def Decision.judge (condition : Conditions) : Option Trigger :=
  let now := observation.now
  if observation.driverFailure ∧ sustained now decision.corroboratedSince driverFailureSustain then
    some .driverAllocationFailure
  else if
      sustained now decision.exhaustedSince (exhaustedSustain condition.swap) then
    some
      (if condition.swap then .memoryAndSwapExhausted
      else .memoryExhausted)
  else if
      sustained now decision.fillingSince swapFillingSustain then
    some .swapFilling
  else if
      sustained now decision.thrashingSince thrashSustain then
    some .thrashing
  else if
      sustained now decision.pressureSince (pressureSustain observation.loading) then
    some .sustainedPressure
  else none

structure Verdict where
  trigger : Option Trigger
  decision : Decision

/- The conditions that a sample is judged by. -/
def Decision.conditionsOf : Conditions :=
  conditions observation.sample (decision.nextRates observation.now observation.sample.counters)
    observation.loading

/- `Decision::observe`. -/
def Decision.observe : Verdict :=
  if observation.managed then
    let measured := decision.measure observation
    ⟨measured.judge observation (decision.conditionsOf observation), measured⟩
  else ⟨none, .initial⟩

def guardMachine : Machine Decision Observation Verdict where
  answer := fun decision observation => decision.observe observation
  next := fun verdict => verdict.decision

end VonkForge.Memory
