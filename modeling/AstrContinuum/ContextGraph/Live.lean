import AstrContinuum.ContextGraph.Build
import AstrContinuum.Runtime.Budget
import AstrContinuum.Runtime.Retrieval

/-!
# Live selection

`context_graph/live.py`: `selectLiveContext` assembles the canonical candidates first, asks an engine for
a better selection, and replaces the assembly only after every gate. A failure behind the first
assembly leaves that assembly in place, unless the tokenizer failed.
-/

namespace AstrContinuum

open Checked Effects

variable {σ : Type} [UnicodeTables]

/-! ## The trace -/

/-- `ResidualBand`. -/
inductive ResidualBand
  | unavailable
  | verified
  | marginal
  | failed
deriving DecidableEq

/-- `LiveContextTrace`. -/
structure LiveContextTrace where
  mode : ContextEngineMode
  outcome : EngineOutcome
  errorCode : Option String
  candidateCount : Nat
  selectedCount : Nat
  relationCount : Nat
  constraintCount : Nat
  retainedCount : Nat
  reducedCount : Nat
  selectedBudgetUnits : Nat
  requiredPassed : Bool
  provenancePassed : Bool
  residualBand : ResidualBand
  adaptiveRetryCount : Nat
deriving DecidableEq

/-- `LiveSelectionResult`. -/
structure LiveSelectionResult where
  assembly : AssemblyResult
  trace : LiveContextTrace
deriving DecidableEq

/-- `_residual_band`. -/
def residualBand : Option ErrorCertificate → ResidualBand
  | none => .unavailable
  | some certificate =>
      let maximum := max certificate.stationarityError
        (max certificate.constraintError certificate.reconstructionError)
      if certificate.passed ∧ maximum ≤ Binary64.nearest (1 / 10 ^ 10) then .verified
      else if certificate.passed ∧ maximum ≤ Binary64.nearest (1 / 10 ^ 8) then .marginal
      else .failed

/-- What `_trace` is told besides the mode, the outcome and the assembly. -/
structure LiveTraceInput where
  errorCode : Option String := none
  built : Option BuiltContextGraph := none
  result : Option EngineResult := none
  retryCount : Nat := 0

/-- `_trace`; `selected` is the assembly that is returned. -/
def liveTrace (mode : ContextEngineMode) (outcome : EngineOutcome) (selected : AssemblyResult)
    (candidates : List CandidateBlock) (input : LiveTraceInput) : LiveContextTrace :=
  let certificate := input.result.bind EngineResult.certificate
  let retainedCount :=
    (input.built.map fun built => built.activation.retainedCoordinateIds.length).getD 0
  { mode := mode
    outcome := outcome
    errorCode := input.errorCode
    candidateCount := candidates.length
    selectedCount := selected.selectedBlocks.length
    relationCount := (input.built.map fun built => built.graph.relations.length).getD 0
    constraintCount := (input.built.map fun built => built.graph.constraints.length).getD 0
    retainedCount := retainedCount
    reducedCount := candidates.length - retainedCount
    selectedBudgetUnits := selected.trace.acSelectedCost
    requiredPassed := (certificate.map ErrorCertificate.requiredBlocksPassed).getD false
    provenancePassed := (certificate.map ErrorCertificate.provenancePassed).getD false
    residualBand := residualBand certificate
    adaptiveRetryCount := input.retryCount }

/-! ## Asking the engine -/

/-- `_should_retry`. -/
def shouldRetry (result : EngineResult) (activation : QueryActivation) (count : Nat) : Bool :=
  let reducible : Bool :=
    match result.errorCode with
    | none => false
    | some code =>
        "REDUCTION_".toList.isPrefixOf code.toList || "SOLVE_".toList.isPrefixOf code.toList
  decide (count = 0 ∧ result.outcome = .degradedRaw) && reducible &&
    !activation.retainedCoordinateIds.isEmpty

/-- The engine's answer, asked once more with every coordinate retained where that may help, with the
number of retries. There is no answer where the engine raised. -/
def solveWithRetry (engine : ContextEngineSolver σ) (built : BuiltContextGraph)
    (mode : ContextEngineMode) (s : σ) : (Option EngineResult × Nat) × σ :=
  let activation := built.activation
  match engine.solve built.graph activation mode s with
  | (none, s') => ((none, 0), s')
  | (some result, s') =>
      let retained := built.graph.coordinates.map GraphCoordinate.coordinateId
      let grows := activation.retainedCoordinateIds.all (· ∈ retained) &&
        retained.any (· ∉ activation.retainedCoordinateIds)
      if shouldRetry result activation 0 && grows then
        let (again, s'') := engine.solve built.graph
          { activation with retainedCoordinateIds := retained } mode s'
        ((again, 1), s'')
      else ((some result, 0), s')

/-! ## Packing the answer -/

/-- `_verified_scores`. -/
def verifiedScores (result : EngineResult) (built : BuiltContextGraph) : List (String × Rat) :=
  if result.activationScores = [] then built.activation.scores else result.activationScores

/-- `dict(scores).get(block_id, 0.0)`: the last entry of an id counts. -/
def scoreOf (scores : List (String × Rat)) (blockId : String) : Rat :=
  ((scores.reverse.find? fun entry => entry.1 = blockId).map Prod.snd).getD 0

/-- The body of the loop of `_score_for_pack`; the quotient needs the count as a float. -/
def scoreBlock (scores : List (String × Rat)) (counts : String → Option Int)
    (block : CandidateBlock) : Except RuntimeFailure CandidateBlock := do
  if block.required then pure block
  else
    let cost ← orMissing (counts block.blockId) (.typeError "block token count is missing")
    require (0 ≤ cost) (.typeError "block token count is invalid")
    let divisor ← orMissing (Binary64.ofNat (max 1 cost.toNat)) .overflowError
    candidateBlock
      { block.toCandidateBlockData with
        score := Binary64.nearest (max 0 (scoreOf scores block.blockId) / divisor)
        reason := "verified_activation_per_token" }

/-- `_score_for_pack`. -/
def scoreForPack (blocks : List CandidateBlock) (scores : List (String × Rat))
    (counts : String → Option Int) : Except RuntimeFailure (List CandidateBlock) :=
  blocks.mapM (scoreBlock scores counts)

/-- What a live selection works with behind the first assembly. -/
structure LiveContext where
  view : RequestView
  materialized : List CandidateBlock
  input : AssemblyInput
  counts : String → Option Int
  mode : ContextEngineMode
  config : ContextGraphConfig
  fallback : AssemblyResult

namespace LiveContext

variable (context : LiveContext)

/-- The arguments of both assemblies. -/
def assemblyInput : AssemblyInput :=
  { context.input with blockTokenCounts := some context.counts }

/-- Keep the first assembly. -/
def keep (outcome : EngineOutcome) (trace : LiveTraceInput) : LiveSelectionResult :=
  ⟨context.fallback,
    liveTrace context.mode outcome context.fallback context.materialized trace⟩

/-- The last gate: the closure is packed whole, with every required block, within the budget, and it
is its own closure. -/
def PackGate (closure : List CandidateBlock) (final : AssemblyResult) : Prop :=
  let finalIds := blockIds final.selectedBlocks
  (∀ block ∈ context.materialized, block.required = true → block.blockId ∈ finalIds) ∧
    (∀ block ∈ closure, block.blockId ∈ finalIds) ∧
    final.trace.totalInputCost ≤ final.trace.bInput ∧
    validateDependencyClosure
      (context.materialized.filter fun block => block.blockId ∈ finalIds)
      context.materialized context.config.maxCoordinates = true

instance decidablePackGate (closure : List CandidateBlock) (final : AssemblyResult) :
    Decidable (context.PackGate closure final) :=
  inferInstanceAs (Decidable (_ ∧ _))

/-- The body of the last `try` block. -/
def packFinal (counter : TokenCounter σ) (built : BuiltContextGraph) (result : EngineResult) :
    EStateM RuntimeFailure σ AssemblyResult := do
  let closure ← perform (closeDependencyClosure result.selectedBlocks context.materialized
    context.config.maxCoordinates)
  perform (require (∀ block ∈ closure, ∀ eventId ∈ block.sourceEventIds,
    eventId ∈ built.activation.provenanceEventIds) (.closureError "LIVE_PROVENANCE_GATE_FAILED"))
  let scored ← perform (scoreForPack closure (verifiedScores result built) context.counts)
  let final ← assemble context.view scored counter context.assemblyInput
  perform (require (context.PackGate closure final) (.closureError "LIVE_FINAL_PACK_GATE_FAILED"))
  pure final

/-- The failures that the last `try` block keeps to itself: `ClosureError`, `TypeError`, `ValueError`
and its subclasses. -/
def absorbs : RuntimeFailure → Bool
  | .closureError _ | .typeError _ | .valueError _ | .budgetInvariantError _
  | .requestBudgetInvariantError _ => true
  | .tokenizerError _ | .overflowError | .endlessLoop => false

/-- The engine's answer is accepted for packing. -/
def accepts (result : EngineResult) : Bool :=
  match result.certificate with
  | none => false
  | some certificate =>
      decide (result.outcome = .active) && certificate.passed && certificate.requiredBlocksPassed &&
        certificate.provenancePassed

/-- What follows the engine's answer. -/
def conclude (counter : TokenCounter σ) (built : BuiltContextGraph) (result : EngineResult)
    (retryCount : Nat) : EStateM RuntimeFailure σ LiveSelectionResult := do
  let trace (errorCode : Option String) : LiveTraceInput :=
    ⟨errorCode, some built, some result, retryCount⟩
  if context.mode = .shadow then
    let outcome := if result.outcome = .shadow then EngineOutcome.shadow else .degradedRaw
    pure (context.keep outcome (trace result.errorCode))
  else if !accepts result then
    pure (context.keep .degradedRaw
      (trace (some (result.errorCode.getD "LIVE_ENGINE_REJECTED"))))
  else
    attempt
      (do
        let final ← context.packFinal counter built result
        pure ⟨final, liveTrace context.mode .active final context.materialized (trace none)⟩)
      fun failure =>
        if absorbs failure then
          pure (context.keep .degradedRaw (trace (some "LIVE_FINAL_VALIDATION_FAILED")))
        else throw failure

/-- Ask the engine about a built graph. -/
def consult (counter : TokenCounter σ) (engine : ContextEngineSolver σ) (built : BuiltContextGraph) :
    EStateM RuntimeFailure σ LiveSelectionResult := fun s =>
  match solveWithRetry engine built context.mode s with
  | ((none, retryCount), s') =>
      .ok (context.keep .degradedRaw ⟨some "LIVE_ENGINE_FAILURE", some built, none, retryCount⟩) s'
  | ((some result, retryCount), s') => context.conclude counter built result retryCount s'

end LiveContext

/-- The event of the current input, where the delta ends with it. -/
def satisfiedEventIds (view : RequestView) (currentInput : String) : List String :=
  match view.delta.getLast? with
  | none => []
  | some latest =>
      if latest.eventType = .userMessage ∧ latest.content = currentInput then [latest.eventId]
      else []

/-- What `select_live_context` does behind the first assembly. -/
def LiveContext.select (context : LiveContext) (counter : TokenCounter σ)
    (engine : ContextEngineSolver σ) : EStateM RuntimeFailure σ LiveSelectionResult := do
  let materialized := context.materialized
  let currentInput := context.input.currentInput
  if materialized.any (fun candidate => !candidate.requiredSelectionComplete) ||
      !requiredCandidatesComplete context.view materialized
        (satisfiedEventIds context.view currentInput) then
    pure (context.keep .degradedRaw { errorCode := some "LIVE_REQUIRED_CANDIDATE_TRUNCATED" })
  else if context.mode = .off then pure (context.keep .off {})
  else
    match buildContextGraph context.view materialized currentInput context.config with
    | .error _ => pure (context.keep .degradedRaw { errorCode := some "LIVE_BUILD_FAILURE" })
    | .ok built => context.consult counter engine built

/-! ## Selection -/

/-- A count table as the mapping that is handed on. -/
def TokenCounts.mapping (counts : TokenCounts) (blockId : String) : Option Int :=
  (counts.find? fun entry => entry.1 = blockId).map fun entry => (entry.2 : Int)

/-- `resolved_block_token_counts`. -/
def resolvedBlockTokenCounts (materialized : List CandidateBlock) (counter : TokenCounter σ) :
    Option (String → Option Int) → EStateM RuntimeFailure σ (String → Option Int)
  | none => do
      let counts ← countCandidateBlocks materialized counter
      pure counts.mapping
  | some provided => pure provided

/-- `select_live_context`. -/
def selectLiveContext (view : RequestView) (candidates : List CandidateBlock)
    (counter : TokenCounter σ) (input : AssemblyInput) (mode : ContextEngineMode)
    (engine : ContextEngineSolver σ) : EStateM RuntimeFailure σ LiveSelectionResult := do
  let materialized := canonicalCandidates candidates
  let counts ← resolvedBlockTokenCounts materialized counter input.blockTokenCounts
  let fallback ← assemble view materialized counter { input with blockTokenCounts := some counts }
  let config := engine.config.getD {}
  let context : LiveContext := ⟨view, materialized, input, counts, mode, config, fallback⟩
  context.select counter engine

end AstrContinuum
