import AstrContinuum.ContextGraph.Types
import AstrContinuum.ContextGraph.Closure
import AstrContinuum.Control.Binary64

/-!
# Building a context graph

`context_graph/build.py`: the candidates of a request become the coordinates of a graph, pairs of them
its relations, required ones its constraints, and the characters they share with the input give the
activation.
-/

namespace AstrContinuum

open Checked

variable [UnicodeTables]

/-- `BuiltContextGraph`. -/
structure BuiltContextGraph where
  graph : ContextGraph
  activation : QueryActivation

/-! ## Scores and weights -/

/-- `_lexical_units`, each character once. -/
def lexicalUnits (text : String) : List Char :=
  ((UnicodeTables.casefold text).toList.filter UnicodeTables.isalnum).dedup

/-- `_lexical_score`. -/
def lexicalScore (queryUnits : List Char) (text : String) : Rat :=
  if queryUnits = [] then 0
  else
    let candidateUnits := lexicalUnits text
    let union := queryUnits ∪ candidateUnits
    if union = [] then 0
    else Binary64.nearest ((queryUnits ∩ candidateUnits).length / union.length)

/-- `_relation_weight`; every sum of its terms is a binary64 value. -/
def relationWeight (left right : CandidateBlock) : Rat :=
  let adjacent : Bool :=
    match left.eventSequence, right.eventSequence with
    | some first, some second =>
        decide (left.kind = .rawEvent ∧ right.kind = .rawEvent ∧
          ((first : Int) - second).natAbs = 1)
    | _, _ => false
  (if left.sourceEventIds.any (· ∈ right.sourceEventIds) then 1 else 0) +
    (if left.capsuleId ≠ none ∧ left.capsuleId = right.capsuleId then 3 / 4 else 0) +
    (if adjacent then 1 / 2 else 0) +
    (if left.kind = right.kind then 1 / 4 else 0) +
    (if left.slot = right.slot then 1 / 8 else 0)

/-! ## Relations -/

/-- The relations found so far and the entries they expand to. -/
structure RelationScan where
  relations : List SparseRelation := []
  expandedEntries : Nat := 0

/-- There is no room for another relation. -/
def RelationScan.full (scan : RelationScan) (config : ContextGraphConfig) : Bool :=
  decide (config.maxRelations ≤ scan.relations.length) ||
    decide (config.maxRelationEntries < scan.expandedEntries + 4)

/-- The inner loop: the relations of `left` with the candidates behind it. -/
def RelationScan.relate (config : ContextGraphConfig) (left : CandidateBlock) :
    RelationScan → List CandidateBlock → Except RuntimeFailure RelationScan
  | scan, [] => pure scan
  | scan, right :: rest => do
      let weight := relationWeight left right
      if weight ≤ 0 then relate config left scan rest
      else if scan.full config then pure scan
      else
        let relation ← sparseRelation
          { relationId := "relation:" ++ left.blockId ++ ":" ++ right.blockId
            terms := [(left.blockId, 1), (right.blockId, -1)]
            weight := weight }
        relate config left ⟨scan.relations ++ [relation], scan.expandedEntries + 4⟩ rest

/-- The outer loop. -/
def RelationScan.relateAll (config : ContextGraphConfig) :
    RelationScan → List CandidateBlock → Except RuntimeFailure RelationScan
  | scan, [] => pure scan
  | scan, left :: rest => do
      let scan ← scan.relate config left rest
      if scan.full config then pure scan else relateAll config scan rest

/-! ## The graph -/

/-- `build_context_graph`. -/
def buildContextGraph (view : RequestView) (candidates : List CandidateBlock)
    (currentInput : String) (config : ContextGraphConfig) :
    Except RuntimeFailure BuiltContextGraph := do
  require (blockIds candidates).Nodup (.valueError "candidate block ids must be unique")
  require (candidates.length ≤ config.maxCoordinates) (.valueError "GRAPH_CAPACITY_EXCEEDED")
  let coordinates ← candidates.mapM fun item => graphCoordinate item.blockId item
  let constraints ← (candidates.filter fun item => item.required).mapM fun item =>
    fixOne ("required:" ++ item.blockId) item.blockId
  require (constraints.length ≤ config.maxConstraints) (.valueError "GRAPH_CAPACITY_EXCEEDED")
  let scan ← RelationScan.relateAll config {} candidates
  let queryUnits := lexicalUnits currentInput
  let scores := candidates.map fun item => (item.blockId, lexicalScore queryUnits item.text)
  let retained := (candidates.filter fun item =>
    item.required || decide (0 < lexicalScore queryUnits item.text)).map fun item => item.blockId
  let provenance := uniqueValues (candidates.flatMap fun item => item.sourceEventIds)
  let graph ← contextGraph
    { graphId := "request:" ++ toString view.pointerVersion ++ ":" ++
        toString view.coveredEventEnd ++ ":" ++ toString view.highWaterMark
      coordinates := coordinates
      relations := scan.relations
      constraints := constraints }
  let activation ← queryActivation
    { queryId := "query:" ++ toString view.pointerVersion ++ ":" ++ toString view.highWaterMark
      scores := scores
      retainedCoordinateIds := retained
      provenanceEventIds := provenance }
  pure ⟨graph, activation⟩

end AstrContinuum
