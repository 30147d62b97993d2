import AstrContinuum.ContextGraph.Engine

/-!
# The constructors of graphs

What the checked constructors of relations, constraints, graphs and activations accept.
-/

namespace AstrContinuum

open Checked

/-! ## Terms -/

/-- A loop of checks returns where every item passes. -/
theorem forIn_ok {α ε : Type} {body : α → Except ε (ForInStep Unit)} {passes : α → Prop}
    (hbody : ∀ item step, body item = .ok step ↔ step = .yield ⟨⟩ ∧ passes item)
    {items : List α} {result : Unit} :
    (forIn items PUnit.unit fun item _ => body item) = .ok result ↔
      ∀ item ∈ items, passes item := by
  induction items with
  | nil => exact ⟨fun _ _ hmem => absurd hmem List.not_mem_nil, fun _ => rfl⟩
  | cons item items ih =>
      rw [List.forIn_cons, List.forall_mem_cons, ← ih]
      constructor
      · intro h
        obtain ⟨step, hstep, h⟩ := bind_ok.mp h
        obtain ⟨rfl, hpasses⟩ := (hbody item step).mp hstep
        exact ⟨hpasses, h⟩
      · rintro ⟨hpasses, h⟩
        exact bind_ok.mpr ⟨_, (hbody item _).mpr ⟨rfl, hpasses⟩, h⟩

/-- What relations and constraints ask of their terms. -/
structure TermsValid (terms : List (String × Rat)) : Prop where
  nonempty : terms ≠ []
  each : ∀ term ∈ terms, term.1 ≠ "" ∧ term.2 ≠ 0
  distinct : (terms.map Prod.fst).Nodup

/-- The checks of terms pass where the terms are valid. -/
theorem requireTerms_ok {terms : List (String × Rat)} {label : String} {result : Unit} :
    requireTerms terms label = .ok result ↔ TermsValid terms := by
  have hbody (term : String × Rat) (step : ForInStep Unit) :
      (do
        requireIdentifier term.1 (label ++ " coordinate_id")
        require (term.2 ≠ 0) (.valueError (label ++ " coefficient must be nonzero"))
        pure (ForInStep.yield PUnit.unit) : Except RuntimeFailure _) = .ok step ↔
        step = .yield ⟨⟩ ∧ term.1 ≠ "" ∧ term.2 ≠ 0 := by
    unfold requireIdentifier
    constructor
    · intro h
      obtain ⟨_, hid, h⟩ := bind_ok.mp h
      obtain ⟨_, hcoefficient, h⟩ := bind_ok.mp h
      exact ⟨(pure_ok.mp h).symm, require_ok.mp hid, require_ok.mp hcoefficient⟩
    · rintro ⟨rfl, hid, hcoefficient⟩
      rw [require_bind_pos hid, require_bind_pos hcoefficient]
      rfl
  unfold requireTerms
  constructor
  · intro h
    obtain ⟨_, hnonempty, h⟩ := bind_ok.mp h
    obtain ⟨_, heach, h⟩ := bind_ok.mp h
    exact ⟨require_ok.mp hnonempty, (forIn_ok hbody).mp heach, require_ok.mp h⟩
  · intro h
    rw [require_bind_pos h.nonempty]
    exact bind_ok.mpr ⟨(), (forIn_ok hbody).mpr h.each, require_ok.mpr h.distinct⟩

/-- The constructor of a relation returns what it is given, exactly when its checks pass. -/
theorem sparseRelation_ok {relation built : SparseRelation} :
    sparseRelation relation = .ok built ↔
      built = relation ∧ relation.relationId ≠ "" ∧ TermsValid relation.terms ∧
        0 ≤ relation.weight := by
  unfold sparseRelation requireIdentifier
  constructor
  · intro h
    obtain ⟨_, hid, h⟩ := bind_ok.mp h
    obtain ⟨_, hterms, h⟩ := bind_ok.mp h
    obtain ⟨_, hweight, h⟩ := bind_ok.mp h
    exact ⟨(pure_ok.mp h).symm, require_ok.mp hid, requireTerms_ok.mp hterms,
      require_ok.mp hweight⟩
  · rintro ⟨rfl, hid, hterms, hweight⟩
    rw [require_bind_pos hid]
    refine bind_ok.mpr ⟨(), requireTerms_ok.mpr hterms, ?_⟩
    rw [require_bind_pos hweight]
    rfl

/-- The constructor of a constraint returns what it is given, exactly when its checks pass. -/
theorem constraintRow_ok {constraint built : ConstraintRow} :
    constraintRow constraint = .ok built ↔
      built = constraint ∧ constraint.constraintId ≠ "" ∧ TermsValid constraint.terms := by
  unfold constraintRow requireIdentifier
  constructor
  · intro h
    obtain ⟨_, hid, h⟩ := bind_ok.mp h
    obtain ⟨_, hterms, h⟩ := bind_ok.mp h
    exact ⟨(pure_ok.mp h).symm, require_ok.mp hid, requireTerms_ok.mp hterms⟩
  · rintro ⟨rfl, hid, hterms⟩
    rw [require_bind_pos hid]
    exact bind_ok.mpr ⟨(), requireTerms_ok.mpr hterms, rfl⟩

/-! ## Activations -/

/-- What the checks of an activation's constructor say. -/
structure QueryActivation.Checks (activation : QueryActivation) : Prop where
  queryId : activation.queryId ≠ ""
  scores : ∀ entry ∈ activation.scores, entry.1 ≠ ""
  distinctScores : (activation.scores.map Prod.fst).Nodup
  retained : "" ∉ activation.retainedCoordinateIds
  provenance : "" ∉ activation.provenanceEventIds
  distinctRetained : activation.retainedCoordinateIds.Nodup
  distinctProvenance : activation.provenanceEventIds.Nodup

/-- The constructor of an activation returns what it is given, exactly when its checks pass. -/
theorem queryActivation_ok {activation built : QueryActivation} :
    queryActivation activation = .ok built ↔ built = activation ∧ activation.Checks := by
  have hbody {α : Type} (id : α → String) (label : String) (item : α) (step : ForInStep Unit) :
      (do
        requireIdentifier (id item) label
        pure (ForInStep.yield PUnit.unit) : Except RuntimeFailure _) = .ok step ↔
        step = .yield ⟨⟩ ∧ id item ≠ "" := by
    unfold requireIdentifier
    constructor
    · intro h
      obtain ⟨_, hid, h⟩ := bind_ok.mp h
      exact ⟨(pure_ok.mp h).symm, require_ok.mp hid⟩
    · rintro ⟨rfl, hid⟩
      rw [require_bind_pos hid]
      rfl
  have hnone (ids : List String) : (∀ value ∈ ids, value ≠ "") ↔ "" ∉ ids :=
    ⟨fun h hmem => h _ hmem rfl, fun h _ hmem heq => h (heq ▸ hmem)⟩
  unfold queryActivation
  constructor
  · intro h
    obtain ⟨_, hid, h⟩ := bind_ok.mp h
    obtain ⟨_, hscores, h⟩ := bind_ok.mp h
    obtain ⟨_, hdistinctScores, h⟩ := bind_ok.mp h
    obtain ⟨_, hretained, h⟩ := bind_ok.mp h
    obtain ⟨_, hprovenance, h⟩ := bind_ok.mp h
    obtain ⟨_, hdistinctRetained, h⟩ := bind_ok.mp h
    obtain ⟨_, hdistinctProvenance, h⟩ := bind_ok.mp h
    exact ⟨(pure_ok.mp h).symm, require_ok.mp hid,
      (forIn_ok (hbody Prod.fst "score coordinate_id")).mp hscores,
      require_ok.mp hdistinctScores,
      (hnone _).mp ((forIn_ok (hbody id "retained coordinate_id")).mp hretained),
      (hnone _).mp ((forIn_ok (hbody id "provenance event_id")).mp hprovenance),
      require_ok.mp hdistinctRetained, require_ok.mp hdistinctProvenance⟩
  · rintro ⟨rfl, h⟩
    refine bind_ok.mpr ⟨(), require_ok.mpr h.queryId, bind_ok.mpr ⟨(),
      (forIn_ok (hbody Prod.fst "score coordinate_id")).mpr h.scores,
      bind_ok.mpr ⟨(), require_ok.mpr h.distinctScores, bind_ok.mpr ⟨(),
      (forIn_ok (hbody id "retained coordinate_id")).mpr ((hnone _).mpr h.retained),
      bind_ok.mpr ⟨(), (forIn_ok (hbody id "provenance event_id")).mpr ((hnone _).mpr h.provenance),
      bind_ok.mpr ⟨(), require_ok.mpr h.distinctRetained, bind_ok.mpr ⟨(),
      require_ok.mpr h.distinctProvenance, rfl⟩⟩⟩⟩⟩⟩⟩

/-! ## Graphs -/

/-- What the checks of a graph's constructor say. -/
structure ContextGraph.Checks (graph : ContextGraph) : Prop where
  graphId : graph.graphId ≠ ""
  coordinateIds : graph.coordinateIds.Nodup
  blockIds : (graph.coordinates.map fun item => item.candidate.blockId).Nodup
  relationIds : (graph.relations.map SparseRelation.relationId).Nodup
  constraintIds : (graph.constraints.map ConstraintRow.constraintId).Nodup
  relationTerms : ∀ relation ∈ graph.relations, ∀ term ∈ relation.terms,
    term.1 ∈ graph.coordinateIds
  constraintTerms : ∀ constraint ∈ graph.constraints, ∀ term ∈ constraint.terms,
    term.1 ∈ graph.coordinateIds

/-- The constructor of a graph returns what it is given, exactly when its checks pass. -/
theorem contextGraph_ok {graph built : ContextGraph} :
    contextGraph graph = .ok built ↔ built = graph ∧ graph.Checks := by
  unfold contextGraph requireIdentifier requireUnique
  dsimp only
  constructor
  · intro h
    obtain ⟨_, hid, h⟩ := bind_ok.mp h
    obtain ⟨_, hcoordinates, h⟩ := bind_ok.mp h
    obtain ⟨_, hblocks, h⟩ := bind_ok.mp h
    obtain ⟨_, hrelations, h⟩ := bind_ok.mp h
    obtain ⟨_, hconstraints, h⟩ := bind_ok.mp h
    obtain ⟨_, hrelationTerms, h⟩ := bind_ok.mp h
    obtain ⟨_, hconstraintTerms, h⟩ := bind_ok.mp h
    exact ⟨(pure_ok.mp h).symm, require_ok.mp hid, require_ok.mp hcoordinates,
      require_ok.mp hblocks, require_ok.mp hrelations, require_ok.mp hconstraints,
      require_ok.mp hrelationTerms, require_ok.mp hconstraintTerms⟩
  · rintro ⟨rfl, hid, hcoordinates, hblocks, hrelations, hconstraints, hrelationTerms,
      hconstraintTerms⟩
    unfold ContextGraph.coordinateIds at hcoordinates hrelationTerms hconstraintTerms
    rw [require_bind_pos hid, require_bind_pos hcoordinates, require_bind_pos hblocks,
      require_bind_pos hrelations, require_bind_pos hconstraints, require_bind_pos hrelationTerms,
      require_bind_pos hconstraintTerms]
    rfl

/-- A graph whose records come from their constructors. -/
structure ContextGraph.Constructed (graph : ContextGraph) : Prop where
  checks : graph.Checks
  coordinates : ∀ coordinate ∈ graph.coordinates,
    coordinate.coordinateId ≠ "" ∧ 0 ≤ coordinate.diagonal
  relations : ∀ relation ∈ graph.relations, sparseRelation relation = .ok relation
  constraints : ∀ constraint ∈ graph.constraints, constraintRow constraint = .ok constraint

end AstrContinuum
