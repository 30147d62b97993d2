import AstrContinuum.Runtime.Pressure

/-!
# Values of the request budget

The records of `tokenization/types.py` that `run_request_budget` reads and returns: the profile of a
counter, the resolved budget of a request, its texts, and the outcome.
-/

namespace AstrContinuum

open Checked

/-- `TokenizerMode`. -/
inductive TokenizerMode
  | canonical
  | exactText
  | reference
  | byteFallback
deriving DecidableEq

/-- `TokenizerMode.value`. -/
def TokenizerMode.value : TokenizerMode → String
  | .canonical => "CANONICAL"
  | .exactText => "EXACT_TEXT"
  | .reference => "REFERENCE"
  | .byteFallback => "BYTE_FALLBACK"

/-- `TokenizerProfile`. -/
structure TokenizerProfile where
  profileId : String
  schemaVersion : Nat
  mode : TokenizerMode
  encodingName : Option String
  implementationName : String
  implementationVersion : String
  assetDigest : Option String
  countMultiplierBasisPoints : Nat
deriving DecidableEq

/-- `BYTE_FALLBACK`. -/
def byteFallback : TokenizerProfile where
  profileId := "utf8-byte-v1"
  schemaVersion := 1
  mode := .byteFallback
  encodingName := none
  implementationName := "python-utf8"
  implementationVersion := "1"
  assetDigest := none
  countMultiplierBasisPoints := 10000

/-- The fields of `RequestBudgetProfile` that a budget run reads, as `__post_init__` accepts them. -/
structure RequestBudgetProfile where
  contextLimit : Nat
  tokenizerProfile : TokenizerProfile
  targetInputBudget : Nat
  hardInputCeiling : Nat
  reservedOutputAndTools : Nat
  safetyMargin : Nat
  compactionStartRatio : Ratio
  providerViewSwitchRatio : Ratio
  stableCode : String
  positive : 1 ≤ contextLimit ∧ 1 ≤ targetInputBudget ∧ 1 ≤ hardInputCeiling
  ordered : RatiosOrdered compactionStartRatio providerViewSwitchRatio
  stable : stableCode ≠ ""

/-- `RequestBudgetProfile.effective_input_budget`. -/
def RequestBudgetProfile.effectiveInputBudget (profile : RequestBudgetProfile) : Int :=
  min profile.targetInputBudget
    (min profile.hardInputCeiling
      ((profile.contextLimit : Int) - profile.reservedOutputAndTools))

/-- `HostBudgetView`. -/
structure HostBudgetView where
  allHostTexts : List String
  opaqueTexts : List String
  fixedRequiredTexts : List String

/-- `PreparedBudgetInput`. -/
structure PreparedBudgetInput where
  currentInput : String
  view : RequestView
  candidates : List CandidateBlock
  trustedTokenUsage : Option Nat

/-- `RequestBudgetWorkload`. -/
structure RequestBudgetWorkload where
  prepared : PreparedBudgetInput
  host : HostBudgetView
  profile : RequestBudgetProfile

/-- `RequestBudgetOutcome`. -/
structure RequestBudgetOutcome where
  pressure : PressureDecision
  assembly : Option AssemblyResult
  tokenizerProfileId : String
  tokenizerMode : String
  fallbackCode : String
  stableCode : String
  mutationAllowed : Bool
  primaryResultDiscarded : Bool
deriving DecidableEq

/-- The constructor `RequestBudgetOutcome(...)`. -/
def requestBudgetOutcome (outcome : RequestBudgetOutcome) :
    Except RuntimeFailure RequestBudgetOutcome := do
  require (outcome.tokenizerProfileId ≠ "" ∧ outcome.tokenizerMode ≠ "" ∧
    outcome.fallbackCode ≠ "" ∧ outcome.stableCode ≠ "")
    (.valueError "request budget outcome codes must be non-empty strings")
  pure outcome

end AstrContinuum
