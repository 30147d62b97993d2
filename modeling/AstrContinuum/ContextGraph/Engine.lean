import AstrContinuum.ContextGraph.Reduction

/-!
# The sparse engine

`SparseContextEngine.solve` over rational numbers: the operator of a graph, its compiled constraints, the
solve on the full or the reduced system, and the certificate. A backend is a parameter, so the limits that
only backends read are left out. The constructors of the result and of the certificate check again what
the engine has just computed, so both are plain records here.
-/

namespace AstrContinuum

open Checked

/-- What `ContextGraphConfig` holds for the engine beside the capacities. -/
structure SparseEngineConfig extends ContextGraphConfig where
  epsilon : Rat := 1 / 1000000000
  selectionThreshold : Rat := 1 / 2
  directBackwardErrorLimit : Rat := 1 / 10000000000
  iterativeBackwardErrorLimit : Rat := 1 / 100000000
  allowLeastSquares : Bool := false
  epsilon_pos : 0 < epsilon := by norm_num
  threshold_bounds : 0 ≤ selectionThreshold ∧ selectionThreshold ≤ 1 := by norm_num
  limits_pos : 0 < directBackwardErrorLimit ∧ 0 < iterativeBackwardErrorLimit := by norm_num

/-! ## The operator -/

/-- The ids of the coordinates. -/
def ContextGraph.coordinateIds (graph : ContextGraph) : List String :=
  graph.coordinates.map GraphCoordinate.coordinateId

/-- The entries of a relation: every pair of its terms. -/
def SparseRelation.entries (indexOf : String → Nat) (relation : SparseRelation) :
    List (Nat × Nat × Rat) :=
  relation.terms.flatMap fun left => relation.terms.map fun right =>
    (indexOf left.1, indexOf right.1, relation.weight * left.2 * right.2)

/-- `build_propagation_operator`. -/
def buildPropagationOperator (graph : ContextGraph) (epsilon : Rat) :
    Except NumericFailure (CsrMatrix Rat) := do
  require (0 < epsilon) (.valueError "epsilon must be finite and positive")
  let size := graph.coordinates.length
  let diagonal := graph.coordinates.zipIdx.map fun coordinate =>
    (coordinate.2, coordinate.2, coordinate.1.diagonal + epsilon)
  let entries := diagonal ++
    graph.relations.flatMap (SparseRelation.entries fun id => graph.coordinateIds.idxOf id)
  orValueError (CsrMatrix.fromEntries size size entries)

/-! ## Errors -/

/-- `_normalized_residual`. -/
def normalizedResidual (residual : List Rat) (denominator : Rat) : WithTop Rat :=
  let numerator := vectorInfinityNorm residual
  if denominator = 0 then if numerator = 0 then 0 else ⊤
  else ((numerator / denominator : Rat) : WithTop Rat)

/-- `_stationarity_error`. -/
def stationarityError (operator : CsrMatrix Rat) (query : List Rat)
    (constraints : CompiledConstraints Rat) (solution multipliers : List Rat) :
    Except NumericFailure (WithTop Rat) := do
  let operatorProduct ← orValueError (operator.matvec solution)
  let constraintProduct ← orValueError (constraints.matrix.transposeMatvec multipliers)
  let residual := List.zipWith (fun difference constraintValue => difference + constraintValue)
    (subtract operatorProduct query) constraintProduct
  let denominator := operator.infinityNorm * vectorInfinityNorm solution +
    vectorInfinityNorm query + vectorInfinityNorm constraintProduct
  pure (normalizedResidual residual denominator)

/-- `_constraint_error`. -/
def constraintError (constraints : CompiledConstraints Rat) (solution : List Rat) :
    Except NumericFailure (WithTop Rat) := do
  let product ← orValueError (constraints.certificateMatrix.matvec solution)
  let residual := subtract product constraints.certificateRhs
  let denominator := constraints.certificateMatrix.infinityNorm * vectorInfinityNorm solution +
    vectorInfinityNorm constraints.certificateRhs
  pure (normalizedResidual residual denominator)

/-! ## Capacity -/

/-- The loop of `_relation_expansion_exceeds_limit`. -/
def expansionExceeds (limit : Nat) : Nat → List SparseRelation → Bool
  | _, [] => false
  | expandedEntries, relation :: rest =>
      let termCount := relation.terms.length
      let remaining := limit - expandedEntries
      if termCount > remaining / termCount then true
      else expansionExceeds limit (expandedEntries + termCount * termCount) rest

/-- The capacity check of `solve`. -/
def ContextGraphConfig.exceededBy (config : ContextGraphConfig) (graph : ContextGraph) : Bool :=
  decide (graph.coordinates.length > config.maxCoordinates) ||
    decide (graph.relations.length > config.maxRelations) ||
    expansionExceeds config.maxRelationEntries 0 graph.relations ||
    decide (graph.constraints.length > config.maxConstraints)

/-! ## Solving -/

/-- `_degraded`. -/
def degradedResult (errorCode : String) (certificate : Option ErrorCertificate := none)
    (activationScores : List (String × Rat) := []) : EngineResult :=
  { outcome := .degradedRaw
    activationScores := activationScores
    certificate := certificate
    errorCode := some errorCode }

/-- `retained_indices`. -/
def retainedIndices (graph : ContextGraph) (activation : QueryActivation)
    (constraints : CompiledConstraints Rat) : List Nat :=
  if activation.retainedCoordinateIds = [] then List.range graph.coordinates.length
  else
    (List.range graph.coordinates.length).filter fun index =>
      match graph.coordinates[index]? with
      | some coordinate =>
          coordinate.coordinateId ∈ activation.retainedCoordinateIds ∨
            coordinate.coordinateId ∈ constraints.supportCoordinateIds ∨ coordinate.candidate.required
      | none => false

/-- `query`. -/
def queryVector (graph : ContextGraph) (activation : QueryActivation) : List Rat :=
  graph.coordinateIds.map fun coordinateId => (activation.scores.lookup coordinateId).getD 0

/-- What the engine reads of a solve. -/
structure EngineSolve where
  status : SolveStatus
  solution : Option (List Rat)
  multipliers : Option (List Rat)
  reconstructionError : WithTop Rat

/-- The solve of the reduced system, or of the full one where nothing is eliminated. -/
def engineSolve (backend : LinearAlgebraBackend Rat) (policy : SolvePolicy)
    (operator : CsrMatrix Rat) (query : List Rat) (constraints : CompiledConstraints Rat)
    (retained : List Nat) (size : Nat) : Except NumericFailure EngineSolve := do
  if retained.length < size then
    let reduction ← reduceState operator query constraints retained backend policy
    let projected ← solveProjectedSystem reduction backend policy
    pure ⟨projected.status, projected.solution, projected.multipliers, projected.reconstructionError⟩
  else
    let full ← solveConstrainedSystem operator query constraints backend policy
    pure ⟨full.status, full.solution, full.multipliers, 0⟩

/-- The code of a certificate that fails. -/
def certificateFailure (certificate : ErrorCertificate) (limit : Rat) : Option String :=
  if certificate.stationarityError > limit then some "CERTIFICATE_STATIONARITY_FAILED"
  else if certificate.constraintError > limit then some "CERTIFICATE_CONSTRAINT_FAILED"
  else if certificate.reconstructionError > limit then some "CERTIFICATE_RECONSTRUCTION_FAILED"
  else if ¬ certificate.requiredBlocksPassed then some "CERTIFICATE_REQUIRED_BLOCK_FAILED"
  else if ¬ certificate.provenancePassed then some "CERTIFICATE_PROVENANCE_FAILED"
  else none

/-- The part of `solve` after the errors are known to be finite. -/
def certify (config : SparseEngineConfig) (graph : ContextGraph) (activation : QueryActivation)
    (mode : ContextEngineMode) (activationScores : List (String × Rat))
    (stationarity constraint reconstruction : Rat) : EngineResult :=
  let selectedIds := (activationScores.filter fun entry =>
    config.selectionThreshold ≤ entry.2).map Prod.fst
  let selected := graph.coordinates.filter fun coordinate => coordinate.coordinateId ∈ selectedIds
  let requiredPassed := graph.coordinates.all fun coordinate =>
    !coordinate.candidate.required || decide (coordinate.coordinateId ∈ selectedIds)
  let provenancePassed := selected.all fun coordinate =>
    coordinate.candidate.sourceEventIds.all (· ∈ activation.provenanceEventIds)
  let limit := config.directBackwardErrorLimit
  let numericalPassed := decide (stationarity ≤ limit ∧ constraint ≤ limit ∧ reconstruction ≤ limit)
  let certificate : ErrorCertificate :=
    { stationarityError := stationarity
      constraintError := constraint
      reconstructionError := reconstruction
      requiredBlocksPassed := requiredPassed
      provenancePassed := provenancePassed
      passed := numericalPassed && requiredPassed && provenancePassed }
  match certificateFailure certificate limit with
  | some failureCode => degradedResult failureCode (some certificate) activationScores
  | none =>
      { outcome := if mode = .active then .active else .shadow
        selectedBlocks := if mode = .active then selected.map GraphCoordinate.candidate else []
        activationScores := activationScores
        certificate := some certificate }

/-- The errors of a solution, or what raises instead of them. -/
def solutionErrors (operator : CsrMatrix Rat) (query : List Rat)
    (constraints : CompiledConstraints Rat) (solution multipliers : List Rat) :
    Except NumericFailure (WithTop Rat × WithTop Rat) := do
  let stationarity ← stationarityError operator query constraints solution multipliers
  let constraint ← constraintError constraints solution
  pure (stationarity, constraint)

/-- The part of `solve` after the solve. -/
def finishSolve (config : SparseEngineConfig) (graph : ContextGraph) (activation : QueryActivation)
    (mode : ContextEngineMode) (operator : CsrMatrix Rat) (query : List Rat)
    (constraints : CompiledConstraints Rat) (solved : EngineSolve) : EngineResult :=
  match solved.solution, solved.multipliers with
  | some solution, some multipliers =>
      if ¬ solved.status.accepted ⟨config.allowLeastSquares⟩ then
        degradedResult ("SOLVE_" ++ solved.status.value)
      else
        let activationScores := graph.coordinateIds.zip solution
        match solutionErrors operator query constraints solution multipliers,
            solved.reconstructionError with
        | .ok (some stationarity, some constraint), some reconstruction =>
            certify config graph activation mode activationScores stationarity constraint
              reconstruction
        | _, _ => degradedResult "CERTIFICATE_NONFINITE" none activationScores
  | _, _ => degradedResult ("SOLVE_" ++ solved.status.value)

/-- `SparseContextEngine.solve`; `none` where it raises. -/
def sparseContextEngineSolve [CallStack] (backend : LinearAlgebraBackend Rat)
    (config : SparseEngineConfig)
    (graph : ContextGraph) (activation : QueryActivation) (mode : ContextEngineMode) :
    Option EngineResult :=
  if mode = .off then some { outcome := .off }
  else if config.exceededBy graph then some (degradedResult "GRAPH_CAPACITY_EXCEEDED")
  else if activation.scores.any (fun score => score.1 ∉ graph.coordinateIds) ||
      activation.retainedCoordinateIds.any (· ∉ graph.coordinateIds) then
    some (degradedResult "QUERY_UNKNOWN_COORDINATE")
  else
    match buildPropagationOperator graph config.epsilon with
    | .error _ => some (degradedResult "GRAPH_INVALID")
    | .ok operator =>
        match compileConstraints graph.coordinateIds graph.constraints with
        | .error (.constraint code) => some (degradedResult ("CONSTRAINT_" ++ code.value))
        | .error .recursionError => none
        | .error _ => some (degradedResult "GRAPH_INVALID")
        | .ok constraints =>
            let query := queryVector graph activation
            match engineSolve backend ⟨config.allowLeastSquares⟩ operator query constraints
                (retainedIndices graph activation constraints) graph.coordinates.length with
            | .error (.reduction code) => some (degradedResult ("REDUCTION_" ++ code.value))
            | .error .indexError => none
            | .error _ => some (degradedResult "NUMERICAL_INPUT_INVALID")
            | .ok solved =>
                some (finishSolve config graph activation mode operator query constraints solved)

end AstrContinuum
