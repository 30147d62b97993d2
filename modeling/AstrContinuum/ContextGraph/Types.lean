import AstrContinuum.Runtime.Types

/-!
# Values of the context graph

The records of `context_graph/types.py` that a request builds and hands to an engine, and the record
that an engine answers with. A graph and an activation are built by checked constructors. An engine is
not trusted, so its answer is a record without any check.
-/

namespace AstrContinuum

open Checked

/-- `ContextEngineMode`. -/
inductive ContextEngineMode
  | active
  | shadow
  | off
deriving DecidableEq

/-- `EngineOutcome`. -/
inductive EngineOutcome
  | active
  | shadow
  | off
  | degradedRaw
deriving DecidableEq

/-- The limits of `ContextGraphConfig` that building and packing read. -/
structure ContextGraphConfig where
  maxCoordinates : Nat := 1024
  maxRelations : Nat := 4096
  maxRelationEntries : Nat := 4096
  maxConstraints : Nat := 1024
  positive : 1 ≤ maxCoordinates ∧ 1 ≤ maxRelations ∧ 1 ≤ maxRelationEntries ∧ 1 ≤ maxConstraints :=
    by decide
  capacity : maxCoordinates ≤ 1024 := by decide

/-! ## Graphs -/

/-- `GraphCoordinate`. -/
structure GraphCoordinate where
  coordinateId : String
  candidate : CandidateBlock
  diagonal : Rat := 1

/-- `SparseRelation`. -/
structure SparseRelation where
  relationId : String
  terms : List (String × Rat)
  weight : Rat

/-- `ConstraintRow`. -/
structure ConstraintRow where
  constraintId : String
  terms : List (String × Rat)
  rhs : Rat

/-- `ContextGraph`. -/
structure ContextGraph where
  graphId : String
  coordinates : List GraphCoordinate
  relations : List SparseRelation
  constraints : List ConstraintRow

/-- `QueryActivation`. -/
structure QueryActivation where
  queryId : String
  scores : List (String × Rat)
  retainedCoordinateIds : List String
  provenanceEventIds : List String

/-- `_require_identifier` of a string. -/
def requireIdentifier (value fieldName : String) : Except RuntimeFailure Unit :=
  require (value ≠ "") (.valueError (fieldName ++ " must not be empty"))

/-- `_require_unique`. -/
def requireUnique (values : List String) (fieldName : String) : Except RuntimeFailure Unit :=
  require values.Nodup (.valueError (fieldName ++ " must be unique"))

/-- The checks that relations and constraints make of their terms. -/
def requireTerms (terms : List (String × Rat)) (label : String) : Except RuntimeFailure Unit := do
  require (terms ≠ []) (.valueError (label ++ " terms must not be empty"))
  for term in terms do
    requireIdentifier term.1 (label ++ " coordinate_id")
    require (term.2 ≠ 0) (.valueError (label ++ " coefficient must be nonzero"))
  requireUnique (terms.map Prod.fst) (label ++ " coordinate ids")

/-- The constructor `GraphCoordinate(...)` with the default diagonal. -/
def graphCoordinate (coordinateId : String) (candidate : CandidateBlock) :
    Except RuntimeFailure GraphCoordinate := do
  requireIdentifier coordinateId "coordinate_id"
  pure { coordinateId := coordinateId, candidate := candidate }

/-- The constructor `SparseRelation(...)`. -/
def sparseRelation (relation : SparseRelation) : Except RuntimeFailure SparseRelation := do
  requireIdentifier relation.relationId "relation_id"
  requireTerms relation.terms "relation"
  require (0 ≤ relation.weight) (.valueError "weight must be nonnegative")
  pure relation

/-- The constructor `ConstraintRow(...)`. -/
def constraintRow (constraint : ConstraintRow) : Except RuntimeFailure ConstraintRow := do
  requireIdentifier constraint.constraintId "constraint_id"
  requireTerms constraint.terms "constraint"
  pure constraint

/-- `ConstraintRow.fix_one`. -/
def fixOne (constraintId coordinateId : String) : Except RuntimeFailure ConstraintRow :=
  constraintRow ⟨constraintId, [(coordinateId, 1)], 1⟩

/-- The constructor `ContextGraph(...)`. -/
def contextGraph (graph : ContextGraph) : Except RuntimeFailure ContextGraph := do
  requireIdentifier graph.graphId "graph_id"
  let known := graph.coordinates.map GraphCoordinate.coordinateId
  requireUnique known "coordinate ids"
  requireUnique (graph.coordinates.map fun item => item.candidate.blockId) "candidate block ids"
  requireUnique (graph.relations.map SparseRelation.relationId) "relation ids"
  requireUnique (graph.constraints.map ConstraintRow.constraintId) "constraint ids"
  require (∀ relation ∈ graph.relations, ∀ term ∈ relation.terms, term.1 ∈ known)
    (.valueError "relation references an unknown coordinate")
  require (∀ constraint ∈ graph.constraints, ∀ term ∈ constraint.terms, term.1 ∈ known)
    (.valueError "constraint references an unknown coordinate")
  pure graph

/-- The constructor `QueryActivation(...)`. -/
def queryActivation (activation : QueryActivation) : Except RuntimeFailure QueryActivation := do
  requireIdentifier activation.queryId "query_id"
  for entry in activation.scores do
    requireIdentifier entry.1 "score coordinate_id"
  requireUnique (activation.scores.map Prod.fst) "score coordinate ids"
  for coordinateId in activation.retainedCoordinateIds do
    requireIdentifier coordinateId "retained coordinate_id"
  for eventId in activation.provenanceEventIds do
    requireIdentifier eventId "provenance event_id"
  requireUnique activation.retainedCoordinateIds "retained coordinate ids"
  requireUnique activation.provenanceEventIds "provenance event ids"
  pure activation

/-! ## Engines -/

/-- `ErrorCertificate`. -/
structure ErrorCertificate where
  stationarityError : Rat
  constraintError : Rat
  reconstructionError : Rat
  requiredBlocksPassed : Bool
  provenancePassed : Bool
  passed : Bool

/-- The fields of `EngineResult` that the selection reads. -/
structure EngineResult where
  outcome : EngineOutcome
  selectedBlocks : List CandidateBlock := []
  activationScores : List (String × Rat) := []
  certificate : Option ErrorCertificate := none
  errorCode : Option String := none

/-- `ContextEngineSolver`: a configuration, where the engine has one, and `solve`, which answers or
raises. Its state is that of the request, which it may share with the counter. -/
structure ContextEngineSolver (σ : Type) where
  config : Option ContextGraphConfig
  solve : ContextGraph → QueryActivation → ContextEngineMode → σ → Option EngineResult × σ

end AstrContinuum
