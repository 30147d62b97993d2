import AstrContinuum.Control.Binary64
import AstrContinuum.Control.Checked
import AstrContinuum.Runtime.Types

/-!
# Pressure

`runtime/pressure.py`: whether a request uses enough of the context to compact the session and to project
its history. The thresholds are ceilings of products of the capacity with a ratio, which is an integer or
a float.
-/

namespace AstrContinuum

open Checked

/-- A ratio of a configuration: an `int` or a finite `float`. -/
inductive Ratio
  | integer (value : Int)
  | float (value : Rat)
deriving DecidableEq

namespace Ratio

/-- The number that a ratio is. -/
def value : Ratio → Rat
  | .integer value => value
  | .float value => value

/-- `math.ceil(capacity * ratio)`; the product with a float needs the capacity as a float. -/
def ceilProduct (capacity : Nat) : Ratio → Except RuntimeFailure Int
  | .integer value => .ok (capacity * value)
  | .float value => do
      let converted ← orMissing (Binary64.ofNat capacity) .overflowError
      pure ⌈Binary64.nearest (converted * value)⌉

end Ratio

/-- `0 < compact <= project <= 1`. -/
def RatiosOrdered (compact project : Ratio) : Prop :=
  0 < compact.value ∧ compact.value ≤ project.value ∧ project.value ≤ 1

instance decidableRatiosOrdered (compact project : Ratio) :
    Decidable (RatiosOrdered compact project) :=
  inferInstanceAs (Decidable (_ ∧ _))

/-- `PressureConfig`. -/
structure PressureConfig where
  contextLimit : Nat
  reservedOutputAndTools : Nat
  compactRatio : Ratio
  projectRatio : Ratio
  reserved_lt : reservedOutputAndTools < contextLimit
  ordered : RatiosOrdered compactRatio projectRatio

/-- The constructor `PressureConfig(...)`. -/
def pressureConfig (contextLimit reservedOutputAndTools : Nat) (compactRatio projectRatio : Ratio) :
    Except RuntimeFailure PressureConfig :=
  if contextLimit = 0 then .error (.valueError "context_limit must be a positive integer")
  else if hlt : reservedOutputAndTools < contextLimit then
    if hratios : RatiosOrdered compactRatio projectRatio then
      .ok ⟨contextLimit, reservedOutputAndTools, compactRatio, projectRatio, hlt, hratios⟩
    else
      .error (.valueError "pressure ratios must satisfy 0 < compact <= project <= 1")
  else
    .error (.valueError
      "reserved_output_and_tools must be a non-negative integer below context_limit")

/-- `PressureConfig.capacity`. -/
def PressureConfig.capacity (config : PressureConfig) : Nat :=
  config.contextLimit - config.reservedOutputAndTools

/-- `PressureSource`. -/
inductive PressureSource
  | trustedProviderUsage
  | conservativeEstimate
deriving DecidableEq

/-- `PressureDecision`. -/
structure PressureDecision where
  used : Nat
  capacity : Nat
  compactAt : Int
  projectAt : Int
  shouldCompact : Bool
  shouldProject : Bool
  source : PressureSource
deriving DecidableEq

/-- The usage that counts: that of the provider where it is trusted and positive. -/
def trustedUsage (trustedTokenUsage : Option Nat) : Option Nat :=
  trustedTokenUsage.filter fun usage => 0 < usage

/-- `assess_pressure`. -/
def assessPressure (trustedTokenUsage : Option Nat) (estimatedInputUsage currentInputCost : Nat)
    (config : PressureConfig) : Except RuntimeFailure PressureDecision := do
  let (used, source) :=
    match trustedUsage trustedTokenUsage with
    | some trusted => (trusted + currentInputCost, PressureSource.trustedProviderUsage)
    | none => (estimatedInputUsage, .conservativeEstimate)
  let compactAt ← config.compactRatio.ceilProduct config.capacity
  let projectAt ← config.projectRatio.ceilProduct config.capacity
  pure
    { used := used
      capacity := config.capacity
      compactAt := compactAt
      projectAt := projectAt
      shouldCompact := decide (compactAt ≤ used)
      shouldProject := decide (projectAt ≤ used)
      source := source }

end AstrContinuum
