import AstrContinuum.ContextGraph.Live
import AstrContinuum.Tokenization.Types

/-!
# Budget of one request

`tokenization/request.py`: `runRequestBudget` counts the texts of a request with its primary counter,
assesses the pressure and assembles, and does all of it again with the fallback counter when the primary
one failed. A counter is deterministic: what it does with a text depends on the text alone.
`RequestScopedTokenCounter` remembers counts by block id, by part id and by text, so the state of a run
is the content of its caches.
-/

namespace AstrContinuum

open Checked Effects

/-! ## Counters of a request -/

/-- What `getattr(counter, "profile", None)` finds. -/
inductive DeclaredProfile
  | absent
  | malformed
  | profile (declared : TokenizerProfile)
deriving DecidableEq

/-- A counter of the host. -/
structure HostCounter where
  profile : DeclaredProfile
  countText : String → CountAttempt

/-- The three ways in which a request counts, and the profile of the counts. -/
structure RequestCounter (σ : Type) where
  countBlock : String → String → EStateM RuntimeFailure σ Nat
  countRequestPart : String → String → EStateM RuntimeFailure σ Nat
  countText : String → EStateM RuntimeFailure σ Nat
  profile : TokenizerProfile

/-- The counter as an assembly sees it. -/
def RequestCounter.tokenCounter {σ : Type} (counter : RequestCounter σ) : TokenCounter σ where
  countText text s :=
    match counter.countText text s with
    | .ok value s' => (.integer value, s')
    | .error (.tokenizerError code) s' => (.tokenizerError code, s')
    | .error _ s' => (.otherError, s')

/-- `_count_uncached`. -/
def countUncached (attempt : CountAttempt) : Except RuntimeFailure Nat :=
  match attempt with
  | .integer value =>
      if 0 ≤ value then .ok value.toNat else .error (.tokenizerError .tokenizerCountInvalid)
  | .malformed => .error (.tokenizerError .tokenizerCountInvalid)
  | .tokenizerError code => .error (.tokenizerError code)
  | .otherError => .error (.tokenizerError .tokenizerCountFailed)

/-! ## The request-scoped counter -/

/-- A key of a cache: an id or a fingerprint, with the id of the profile. -/
abbrev CacheKey := String × String

/-- A cache whose keys are ids: the fingerprints of the counted texts, and their counts. -/
structure KeyedCache where
  fingerprints : List (CacheKey × String) := []
  counts : List (CacheKey × Nat) := []

/-- The caches of a `RequestScopedTokenCounter`. -/
structure ScopedCaches where
  blocks : KeyedCache := {}
  parts : KeyedCache := {}
  texts : List (CacheKey × Nat) := []

variable [Hashlib]

/-- The body that `count_block` and `_count_request_part` share: the count of a text under a key, and
the cache behind it. -/
def KeyedCache.count (cache : KeyedCache) (attempt : String → CountAttempt) (key : CacheKey)
    (text : String) : Except RuntimeFailure (Nat × KeyedCache) := do
  let fingerprint := Hashlib.sha256Hexdigest text
  require (∀ previous ∈ cache.fingerprints.lookup key, previous = fingerprint)
    (.requestBudgetInvariantError .blockIdTextConflict)
  match cache.counts.lookup key with
  | some cached => pure (cached, cache)
  | none =>
      let value ← countUncached (attempt text)
      pure (value, ⟨(key, fingerprint) :: cache.fingerprints, (key, value) :: cache.counts⟩)

namespace RequestScopedTokenCounter

variable (attempt : String → CountAttempt) (profile : TokenizerProfile)

/-- `RequestScopedTokenCounter.count_block`. -/
def countBlock (blockId text : String) : EStateM RuntimeFailure ScopedCaches Nat := fun caches =>
  if blockId = "" then .error (.requestBudgetInvariantError .blockIdInvalid) caches
  else
    match caches.blocks.count attempt (blockId, profile.profileId) text with
    | .ok (value, blocks) => .ok value { caches with blocks := blocks }
    | .error failure => .error failure caches

/-- `RequestScopedTokenCounter._count_request_part`. -/
def countRequestPart (partId text : String) : EStateM RuntimeFailure ScopedCaches Nat :=
  fun caches =>
    match caches.parts.count attempt (partId, profile.profileId) text with
    | .ok (value, parts) => .ok value { caches with parts := parts }
    | .error failure => .error failure caches

/-- `RequestScopedTokenCounter.count_text`. -/
def countText (text : String) : EStateM RuntimeFailure ScopedCaches Nat := fun caches =>
  let key := (Hashlib.sha256Hexdigest text, profile.profileId)
  match caches.texts.lookup key with
  | some cached => .ok cached caches
  | none =>
      match countUncached (attempt text) with
      | .ok value => .ok value { caches with texts := (key, value) :: caches.texts }
      | .error failure => .error failure caches

/-- The counter as a request uses it. -/
def counter : RequestCounter ScopedCaches where
  countBlock := countBlock attempt profile
  countRequestPart := countRequestPart attempt profile
  countText := countText attempt profile
  profile := profile

/-- The profile that `RequestScopedTokenCounter.__init__` settles on. -/
def resolvedProfile (declared : DeclaredProfile) (profile : TokenizerProfile) :
    Except RuntimeFailure TokenizerProfile :=
  match declared with
  | .absent => .ok profile
  | .malformed => .error (.tokenizerError .tokenizerConstructionFailed)
  | .profile declared => do
      require (declared = profile) (.tokenizerError .tokenizerConstructionFailed)
      pure declared

end RequestScopedTokenCounter

/-! ## One run -/

/-- `BudgetConfig(...)`. -/
def budgetConfig (targetInputBudget hardInputCeiling modelContextLimit reservedOutputAndTools
    safetyMargin : Nat) : Except RuntimeFailure BudgetConfig :=
  if hpositive : 1 ≤ targetInputBudget ∧ 1 ≤ hardInputCeiling ∧ 1 ≤ modelContextLimit then
    if hreserved : reservedOutputAndTools ≤ modelContextLimit then
      .ok ⟨targetInputBudget, hardInputCeiling, modelContextLimit, reservedOutputAndTools,
        safetyMargin, hpositive, hreserved⟩
    else
      .error (.valueError "reserved_output_and_tools must not exceed model_context_limit")
  else
    .error (.valueError
      ((if targetInputBudget = 0 then "target_input_budget"
        else if hardInputCeiling = 0 then "hard_input_ceiling" else "model_context_limit") ++
        " must be a positive integer"))

/-- `assembly_runner`: the plain assembly, or a live selection with its mode and its engine. -/
inductive AssemblyRunner
  | assemble
  | live (mode : ContextEngineMode) (config : Option ContextGraphConfig)
      (solve : ContextGraph → QueryActivation → ContextEngineMode → Option EngineResult)

variable {σ : Type}

/-- The loop of `_sum_texts`. -/
def sumTextsFrom (counter : RequestCounter σ) (label : String) :
    Nat → List String → EStateM RuntimeFailure σ Nat
  | _, [] => pure 0
  | index, text :: rest => do
      let value ← counter.countRequestPart (label ++ ":" ++ toString index) text
      let others ← sumTextsFrom counter label (index + 1) rest
      pure (value + others)

/-- `_sum_texts`. -/
def sumTexts (counter : RequestCounter σ) (label : String) (texts : List String) :
    EStateM RuntimeFailure σ Nat :=
  sumTextsFrom counter label 0 texts

/-- The dictionary of the block counts; block ids are distinct. -/
def countBlocks (counter : RequestCounter σ) :
    List CandidateBlock → EStateM RuntimeFailure σ TokenCounts
  | [] => pure []
  | candidate :: rest => do
      let value ← counter.countBlock candidate.blockId candidate.text
      let others ← countBlocks counter rest
      pure ((candidate.blockId, value) :: others)

variable [UnicodeTables]

/-- A call of the assembly runner. -/
def AssemblyRunner.run (runner : AssemblyRunner) (view : RequestView)
    (candidates : List CandidateBlock) (counter : TokenCounter σ) (input : AssemblyInput) :
    EStateM RuntimeFailure σ AssemblyResult :=
  match runner with
  | .assemble => AstrContinuum.assemble view candidates counter input
  | .live mode config solve => do
      let engine : ContextEngineSolver σ :=
        ⟨config, fun graph activation mode s => (solve graph activation mode, s)⟩
      let selected ← selectLiveContext view candidates counter input mode engine
      pure selected.assembly

/-- The outcome of a run before the fallback is marked. -/
def runOutcome (profile : TokenizerProfile) (pressure : PressureDecision)
    (assembly : Option AssemblyResult) (stableCode : String) :
    Except RuntimeFailure RequestBudgetOutcome :=
  requestBudgetOutcome
    { pressure := pressure
      assembly := assembly
      tokenizerProfileId := profile.profileId
      tokenizerMode := profile.mode.value
      fallbackCode := "NONE"
      stableCode := stableCode
      mutationAllowed := assembly.isSome
      primaryResultDiscarded := false }

/-- The pressure of a request whose context limit leaves no input. -/
def noInputPressure (workload : RequestBudgetWorkload) : PressureDecision :=
  let trusted := trustedUsage workload.prepared.trustedTokenUsage
  { used := trusted.getD 0
    capacity := workload.profile.contextLimit - workload.profile.reservedOutputAndTools
    compactAt := 0
    projectAt := 0
    shouldCompact := true
    shouldProject := true
    source := if trusted.isSome then .trustedProviderUsage else .conservativeEstimate }

/-- The `try` block of `_run_once`: the assembly, or nothing where the required input does not fit. -/
def tryAssembly (workload : RequestBudgetWorkload) (counter : RequestCounter σ)
    (runner : AssemblyRunner) (opaqueCost fixedCost : Nat) (counts : TokenCounts) :
    EStateM RuntimeFailure σ (Option AssemblyResult) :=
  let prepared := workload.prepared
  let profile := workload.profile
  attempt
    (do
      let config ← perform (budgetConfig profile.targetInputBudget profile.hardInputCeiling
        profile.contextLimit profile.reservedOutputAndTools profile.safetyMargin)
      let assembly ← runner.run prepared.view prepared.candidates counter.tokenCounter
        { currentInput := prepared.currentInput
          opaqueTokenCost := opaqueCost
          fixedRequiredCost := fixedCost
          config := config
          blockTokenCounts := some counts.mapping }
      pure (some assembly))
    fun failure =>
      if failure = .budgetInvariantError .requiredInputExceedsBudget then pure none
      else throw failure

/-- The part of `_run_once` that assembles: an assembly with every required block, or nothing. -/
def runAssembly (workload : RequestBudgetWorkload) (counter : RequestCounter σ)
    (runner : AssemblyRunner) (opaqueCost fixedCost : Nat) :
    EStateM RuntimeFailure σ (Option AssemblyResult) := do
  let candidates := workload.prepared.candidates
  let counts ← countBlocks counter candidates
  match ← tryAssembly workload counter runner opaqueCost fixedCost counts with
  | none => pure none
  | some assembly =>
      if ∀ candidate ∈ candidates, candidate.required = true →
          candidate.blockId ∈ blockIds assembly.selectedBlocks then
        pure (some assembly)
      else pure none

/-- `_run_once`. -/
def runOnce (workload : RequestBudgetWorkload) (counter : RequestCounter σ)
    (runner : AssemblyRunner) : EStateM RuntimeFailure σ RequestBudgetOutcome := do
  let prepared := workload.prepared
  let host := workload.host
  let profile := workload.profile
  if profile.effectiveInputBudget < 1 then
    perform (runOutcome counter.profile (noInputPressure workload) none
      "CONTEXT_LIMIT_TOO_SMALL")
  else
    let hostCost ← sumTexts counter "host" host.allHostTexts
    let opaqueCost ← sumTexts counter "opaque" host.opaqueTexts
    let fixedCost ← sumTexts counter "fixed" host.fixedRequiredTexts
    let currentCost ← counter.countRequestPart "current-input" prepared.currentInput
    let config ← perform (pressureConfig profile.contextLimit profile.reservedOutputAndTools
      profile.compactionStartRatio profile.providerViewSwitchRatio)
    let pressure ← perform (assessPressure prepared.trustedTokenUsage hostCost currentCost config)
    if pressure.shouldProject then
      match ← runAssembly workload counter runner opaqueCost fixedCost with
      | none => perform (runOutcome counter.profile pressure none "REQUIRED_INPUT_EXCEEDS_BUDGET")
      | some assembly =>
          perform (runOutcome counter.profile pressure (some assembly) profile.stableCode)
    else perform (runOutcome counter.profile pressure none profile.stableCode)

/-! ## The request -/

/-- `_validate_workload`. -/
def validateWorkload (workload : RequestBudgetWorkload) : Except RuntimeFailure Unit :=
  require (blockIds workload.prepared.candidates).Nodup
    (.requestBudgetInvariantError .duplicateBlockId)

/-- The failures that are answered by the fallback: a `TokenizerError`, or a budget error for which
`_is_tokenizer_count_failure` holds. -/
def triggersFallback : RuntimeFailure → Bool
  | .tokenizerError _ => true
  | .budgetInvariantError code => decide (code = .tokenCounterFailure)
  | _ => false

/-- A run with a `RequestScopedTokenCounter` of its own. -/
def runScoped (workload : RequestBudgetWorkload) (counter : HostCounter)
    (profile : TokenizerProfile) (runner : AssemblyRunner) :
    Except RuntimeFailure RequestBudgetOutcome := do
  let resolved ← RequestScopedTokenCounter.resolvedProfile counter.profile profile
  outcome (runOnce workload (RequestScopedTokenCounter.counter counter.countText resolved) runner {})

/-- The fields that `replace(fallback_outcome, ...)` changes. -/
def RequestBudgetOutcome.markFallback (outcome : RequestBudgetOutcome) : RequestBudgetOutcome :=
  { outcome with fallbackCode := "TOKENIZER_BYTE_FALLBACK", primaryResultDiscarded := true }

/-- `run_request_budget`. -/
def runRequestBudget (workload : RequestBudgetWorkload) (primary fallback : HostCounter)
    (runner : AssemblyRunner) : Except RuntimeFailure RequestBudgetOutcome := do
  validateWorkload workload
  match runScoped workload primary workload.profile.tokenizerProfile runner with
  | .ok outcome => pure outcome
  | .error failure =>
      if triggersFallback failure then
        let outcome ← runScoped workload fallback byteFallback runner
        requestBudgetOutcome outcome.markFallback
      else throw failure

end AstrContinuum
