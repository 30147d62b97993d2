import AstrContinuum.ContextGraph.Certificate
import AstrContinuum.ContextGraph.Cramer
import AstrContinuum.Guarantees.Construction

/-!
# The maximum principle of the engine

On a graph that `build_context_graph` returns, an exact engine gives every required block the value one
and every block a value between zero and the largest of one and the scores, and its certificate has no
error.
-/

namespace AstrContinuum

open Checked ConstrainedSystems Matrix

/-! ## The constraints -/

section Required

variable (view : RequestView) {candidates : List CandidateBlock} (limits : ContextGraphConfig)

/-- The constraint of a required block fixes a coordinate of the graph. -/
theorem requiredRow_plain (row : ConstraintRow)
    (h : row ∈ (builtGraph view candidates limits).constraints) :
    row.Plain (builtGraph view candidates limits).coordinateIds := by
  obtain ⟨block, hblock, rfl⟩ := List.mem_map.mp h
  rw [builtGraph_coordinateIds]
  exact .inl ⟨block.blockId, List.mem_map_of_mem (List.mem_filter.mp hblock).1, rfl, .inr rfl⟩

/-- The constraint of a required block asks for the value one. -/
theorem requiredRow_satisfied {block : CandidateBlock} {x : String → Rat} :
    (requiredRow block).Satisfied x ↔ x block.blockId = 1 := by
  unfold requiredRow ConstraintRow.Satisfied
  simp

/-- The constraints of a graph that is built equate nothing. -/
theorem equations_requiredRows (candidates : List CandidateBlock) :
    equations (classifiedRows (candidates.map requiredRow)) = 0 := by
  induction candidates with
  | nil => rfl
  | cons block candidates ih =>
      have hclassified : classifyConstraint (requiredRow block) = .ok (.fix block.blockId 1) := by
        unfold classifyConstraint requiredRow
        exact if_pos ⟨rfl, .inr rfl⟩
      simpa [classifiedRows, hclassified, Except.toOption, equations] using ih

/-- The constraints of a graph that is built compile. -/
theorem builtGraph_compiles [CallStack] (hids : (blockIds candidates).Nodup) :
    ∃ constraints : CompiledConstraints Rat,
      compileConstraints (builtGraph view candidates limits).coordinateIds
        (builtGraph view candidates limits).constraints = .ok constraints := by
  have hnamed : "" ∉ blockIds candidates := fun hmem => by
    obtain ⟨block, _, heq⟩ := List.mem_map.mp hmem
    exact block.valid.1 heq
  have hcoordinates := builtGraph_coordinateIds view candidates limits
  rcases compileConstraints_cases (K := Rat) (hcoordinates ▸ hnamed) (hcoordinates ▸ hids)
    (requiredRow_plain view limits) with
    ⟨_, ⟨constraints, hconstraints, _⟩ | ⟨_, hnone⟩⟩ | ⟨hdeep, _⟩
  · exact ⟨constraints, hconstraints⟩
  · refine absurd ⟨fun _ => 1, fun row hrow => ?_⟩ hnone
    obtain ⟨block, _, rfl⟩ := List.mem_map.mp hrow
    exact requiredRow_satisfied.mpr rfl
  · have hcalls := compileCalls_le (builtGraph view candidates limits).coordinateIds
      (classifiedRows (builtGraph view candidates limits).constraints)
    have hroom := CallStack.room
    have hnone : equations (classifiedRows (builtGraph view candidates limits).constraints) = 0 :=
      equations_requiredRows _
    omega

end Required

/-! ## The values -/

section Values

variable {view : RequestView} {candidates : List CandidateBlock} {limits : ContextGraphConfig}

/-- The coefficients of a pair's relation. -/
theorem at_pairRelation (indexOf : String → Nat) (pair : CandidateBlock × CandidateBlock) (i : Nat) :
    SparseRelation.at indexOf (pairRelation pair).terms i =
      (if indexOf pair.1.blockId = i then 1 else 0) - if indexOf pair.2.blockId = i then 1 else 0 := by
  have hterms : (pairRelation pair).terms = [(pair.1.blockId, 1), (pair.2.blockId, -1)] := rfl
  unfold SparseRelation.at
  rw [hterms, List.map_cons, List.map_singleton, List.sum_cons, List.sum_singleton, sub_eq_add_neg]
  congr 1
  split_ifs
  · rfl
  · rw [neg_zero]

/-- The relations of a graph that is built compare two coordinates each. -/
theorem builtGraph_differences (view : RequestView) (limits : ContextGraphConfig)
    (hids : (blockIds candidates).Nodup) :
    ∀ term ∈ (builtGraph view candidates limits).forms, 0 ≤ term.1 ∧ IsDifference term.2 := by
  intro term hterm
  obtain ⟨relation, hrelation, rfl⟩ := List.mem_map.mp hterm
  obtain ⟨pair, hpair, rfl⟩ := List.mem_map.mp hrelation
  obtain ⟨hleft, hright, _, hweight⟩ := mem_keptPairs hids hpair
  have hcoordinates := builtGraph_coordinateIds view candidates limits
  have hknown (block : CandidateBlock) (hblock : block ∈ candidates) :
      block.blockId ∈ (builtGraph view candidates limits).coordinateIds :=
    hcoordinates ▸ List.mem_map_of_mem hblock
  refine ⟨le_of_lt (not_le.mp hweight), ⟨_, ContextGraph.idxOf_lt (hknown pair.1 hleft)⟩,
    ⟨_, ContextGraph.idxOf_lt (hknown pair.2 hright)⟩, funext fun i => ?_⟩
  have hsingle (j : Fin (builtGraph view candidates limits).coordinates.length) :
      (Pi.single j 1 : _ → Rat) i = if (j : Nat) = i then 1 else 0 := by
    rw [Pi.single_apply]
    exact if_congr ⟨fun h => congrArg Fin.val h.symm, fun h => Fin.ext h.symm⟩ rfl rfl
  dsimp only
  rw [at_pairRelation, Pi.sub_apply, hsingle, hsingle]

/-- No compiled constraint touches a block that is not required. -/
theorem optional_column [CallStack] {constraints : CompiledConstraints Rat}
    (hids : (blockIds candidates).Nodup)
    (hcompiled : compileConstraints (builtGraph view candidates limits).coordinateIds
      (builtGraph view candidates limits).constraints = .ok constraints)
    {i : Nat} (hi : i < (builtGraph view candidates limits).coordinates.length)
    (hoptional : ¬ (builtGraph view candidates limits).coordinates[i].candidate.required = true)
    (k : Nat) : constraints.matrix.entry k i = 0 := by
  by_contra hne
  have hindex : i < (builtGraph view candidates limits).coordinateIds.length := by
    unfold ContextGraph.coordinateIds
    rwa [List.length_map]
  have hsupported := (compileConstraints_sound hcompiled).supported k i hindex hne
  obtain ⟨_, row, hrow, hmem⟩ := (supportCoordinateIds_iff hcompiled).mp hsupported
  obtain ⟨block, hblock, rfl⟩ := List.mem_map.mp hrow
  obtain ⟨hin, hrequired⟩ := List.mem_filter.mp hblock
  obtain ⟨other, hother, hat⟩ := List.mem_map.mp (List.getElem_mem hi)
  have hsame : other.blockId = block.blockId := by
    rw [ContextGraph.getElem_coordinateIds hi, ← hat] at hmem
    exact List.mem_singleton.mp hmem
  rw [← hat] at hoptional
  exact hoptional (List.inj_on_of_nodup_map hids hother hin hsame ▸ hrequired)

/-- A feasible vector satisfies the constraints of the graph. -/
theorem feasible_satisfied [CallStack] {constraints : CompiledConstraints Rat}
    (hcompiled : compileConstraints (builtGraph view candidates limits).coordinateIds
      (builtGraph view candidates limits).constraints = .ok constraints) {solution : List Rat}
    (hlength : solution.length = (builtGraph view candidates limits).coordinateIds.length)
    (hfeasible : constraints.matrix.toMatrix constraints.matrix.rowCount
        (builtGraph view candidates limits).coordinateIds.length *ᵥ
      toVector (builtGraph view candidates limits).coordinateIds.length solution =
        toVector constraints.matrix.rowCount constraints.rhs) :
    ∀ row ∈ (builtGraph view candidates limits).constraints,
      row.Satisfied (assignment (builtGraph view candidates limits).coordinateIds solution) := by
  have hcolumns := (compileConstraints_sound hcompiled).columns
  obtain ⟨product, hproduct, hproductLength, hvalues⟩ :=
    matvec_returns constraints.matrix (hlength.trans hcolumns.symm)
  rw [hcolumns, hfeasible] at hvalues
  rw [← compiled_solution_iff (requiredRow_plain view limits) hcompiled hlength, hproduct,
    toVector_injective hproductLength constraints.valid.2.2.1.symm hvalues]

/-- The largest of one and the scores. -/
def scoreBound (activation : QueryActivation) : Rat :=
  (activation.scores.map Prod.snd).foldr max 1

/-- Scores that are not negative, over coordinates of the graph. -/
structure ContextGraph.ActivatesNonnegatively (graph : ContextGraph) (activation : QueryActivation) :
    Prop extends graph.Activates activation where
  nonnegative : ∀ score ∈ activation.scores, 0 ≤ score.2

/-- A maximum is not below any of its values. -/
theorem le_foldr_max {values : List Rat} {start value : Rat} (h : value = start ∨ value ∈ values) :
    value ≤ values.foldr max start := by
  induction values with
  | nil => exact (h.resolve_right List.not_mem_nil).le
  | cons first values ih =>
      rw [List.foldr_cons]
      rcases h with rfl | hmem
      · exact (ih (.inl rfl)).trans (le_max_right _ _)
      · rcases List.mem_cons.mp hmem with rfl | hmem
        · exact le_max_left _ _
        · exact (ih (.inr hmem)).trans (le_max_right _ _)

/-- The query is between zero and the bound. -/
theorem queryVector_bounds {graph : ContextGraph} {activation : QueryActivation}
    (h : graph.ActivatesNonnegatively activation) {value : Rat}
    (hmem : value ∈ queryVector graph activation) : 0 ≤ value ∧ value ≤ scoreBound activation := by
  obtain ⟨coordinateId, _, rfl⟩ := List.mem_map.mp hmem
  cases hlookup : activation.scores.lookup coordinateId with
  | none => exact ⟨le_rfl, zero_le_one.trans (le_foldr_max (.inl rfl))⟩
  | some value =>
      have hscore := mem_of_lookup hlookup
      exact ⟨h.nonnegative _ hscore, le_foldr_max (.inr (List.mem_map_of_mem hscore))⟩

/-- Values that are one at required coordinates, and whose products are within the bounds at the others,
are within the bounds. -/
theorem values_within {graph : ContextGraph} {epsilon : Rat}
    (hdiagonal : ∀ i, 1 ≤ graph.diagonal epsilon i)
    (hforms : ∀ term ∈ graph.forms, 0 ≤ term.1 ∧ IsDifference term.2)
    {x : Fin graph.coordinates.length → Rat} {bound : Rat} (hbound : 1 ≤ bound)
    (hrequired : ∀ i : Fin graph.coordinates.length,
      (graph.coordinates.get i).candidate.required = true → x i = 1)
    (hoptional : ∀ i : Fin graph.coordinates.length,
      ¬ (graph.coordinates.get i).candidate.required = true →
      0 ≤ (squares (graph.diagonal epsilon) graph.forms *ᵥ x) i ∧
        (squares (graph.diagonal epsilon) graph.forms *ᵥ x) i ≤ bound)
    (i : Fin graph.coordinates.length) : 0 ≤ x i ∧ x i ≤ bound := by
  constructor
  · refine squares_lower hdiagonal hforms (fun j => ?_) i
    by_cases hj : graph.coordinates[(j : Nat)].candidate.required = true
    · exact .inl (hrequired j hj ▸ zero_le_one)
    · exact .inr (hoptional j hj).1
  · refine squares_upper hdiagonal hforms (zero_le_one.trans hbound) (fun j => ?_) i
    by_cases hj : graph.coordinates[(j : Nat)].candidate.required = true
    · exact .inl (hrequired j hj ▸ hbound)
    · exact .inr (hoptional j hj).2

/-- A required coordinate has the constraint of its block. -/
theorem required_mem {coordinate : GraphCoordinate}
    (hmem : coordinate ∈ (builtGraph view candidates limits).coordinates)
    (hrequired : coordinate.candidate.required = true) :
    requiredRow coordinate.candidate ∈ (builtGraph view candidates limits).constraints ∧
      coordinate.coordinateId = coordinate.candidate.blockId := by
  obtain ⟨block, hblock, rfl⟩ := List.mem_map.mp hmem
  exact ⟨List.mem_map_of_mem (List.mem_filter.mpr ⟨hblock, hrequired⟩), rfl⟩

/-- A required coordinate has the value one wherever the rows hold. -/
theorem required_one (hids : (blockIds candidates).Nodup) {solution : List Rat}
    (hsatisfied : ∀ row ∈ (builtGraph view candidates limits).constraints,
      row.Satisfied (assignment (builtGraph view candidates limits).coordinateIds solution))
    (i : Fin (builtGraph view candidates limits).coordinates.length)
    (hi : (builtGraph view candidates limits).coordinates[(i : Nat)].candidate.required = true) :
    toVector (builtGraph view candidates limits).coordinates.length solution i = 1 := by
  obtain ⟨hrow, hid⟩ := required_mem (List.getElem_mem i.isLt) hi
  have hindex : (i : Nat) < (builtGraph view candidates limits).coordinateIds.length :=
    i.isLt.trans_eq (List.length_map _).symm
  have hnodup : (builtGraph view candidates limits).coordinateIds.Nodup := by
    rwa [builtGraph_coordinateIds view candidates limits]
  have hplace := hnodup.idxOf_getElem i hindex
  rw [ContextGraph.getElem_coordinateIds i.isLt, hid] at hplace
  have hvalue := requiredRow_satisfied.mp (hsatisfied _ hrow)
  unfold assignment at hvalue
  rwa [hplace] at hvalue

/-- No multiplier reaches a coordinate that is not required. -/
theorem optional_multipliers [CallStack] {constraints : CompiledConstraints Rat}
    (hids : (blockIds candidates).Nodup)
    (hcompiled : compileConstraints (builtGraph view candidates limits).coordinateIds
      (builtGraph view candidates limits).constraints = .ok constraints)
    (i : Fin (builtGraph view candidates limits).coordinates.length)
    (hi : ¬ (builtGraph view candidates limits).coordinates[(i : Nat)].candidate.required = true)
    (multipliers : Fin constraints.matrix.rowCount → Rat) :
    (multipliers ᵥ* constraints.matrix.toMatrix constraints.matrix.rowCount
      (builtGraph view candidates limits).coordinates.length) i = 0 := by
  show ∑ k : Fin constraints.matrix.rowCount, multipliers k * constraints.matrix.entry k i = 0
  exact Finset.sum_eq_zero fun k _ =>
    mul_eq_zero_of_right _ (optional_column hids hcompiled i.isLt hi k)

/-- The diagonal of a graph that is built is at least one. -/
theorem one_le_diagonal {epsilon : Rat} (hepsilon : 0 < epsilon)
    (i : Fin (builtGraph view candidates limits).coordinates.length) :
    1 ≤ (builtGraph view candidates limits).diagonal epsilon i := by
  obtain ⟨block, _, hat⟩ : ∃ block ∈ candidates,
      blockCoordinate block = (builtGraph view candidates limits).coordinates[(i : Nat)] :=
    List.mem_map.mp (List.getElem_mem i.isLt)
  show 1 ≤ (builtGraph view candidates limits).coordinates[(i : Nat)].diagonal + epsilon
  rw [← hat]
  exact le_add_of_nonneg_right hepsilon.le

/-- A run of an exact engine on a graph that is built: no error, and the values within the bounds. -/
theorem exact_run [CallStack] {graph : ContextGraph} (hgraph : graph = builtGraph view candidates limits)
    (hids : (blockIds candidates).Nodup) (hkept : (keptIds candidates limits).Nodup)
    {backend : LinearAlgebraBackend Rat} (hbackend : backend.Exact) {config : SparseEngineConfig}
    (hcapacity : config.exceededBy graph = false) {activation : QueryActivation}
    (hactivation : graph.ActivatesNonnegatively activation) {mode : ContextEngineMode}
    (hmode : mode ≠ .off) :
    ∃ solution, solution.length = graph.coordinates.length ∧
      sparseContextEngineSolve backend config graph activation mode =
        some (certify config graph activation mode (graph.coordinateIds.zip solution) 0 0 0) ∧
      ∀ i : Fin graph.coordinates.length,
        (0 ≤ toVector graph.coordinates.length solution i ∧
          toVector graph.coordinates.length solution i ≤ scoreBound activation) ∧
        ((graph.coordinates.get i).candidate.required = true →
          toVector graph.coordinates.length solution i = 1) := by
  have hconstructed : graph.Constructed := hgraph ▸ builtGraph_constructed hids hkept
  have hsize : graph.coordinateIds.length = graph.coordinates.length := List.length_map _
  obtain ⟨constraints, hcompiled⟩ : ∃ constraints : CompiledConstraints Rat,
      compileConstraints graph.coordinateIds graph.constraints = .ok constraints :=
    hgraph ▸ builtGraph_compiles view limits hids
  obtain ⟨operator, hoperator, hrows, hcolumns, hvalues⟩ :=
    buildPropagationOperator_exact hconstructed.checks config.epsilon_pos
  obtain ⟨operator', solved, solution, multipliers, hoperator', hsolved, hrun⟩ :=
    sparseContextEngineSolve_exact hbackend hconstructed hcapacity
      hactivation.toActivates hmode hcompiled
  obtain rfl : operator' = operator := Except.ok.inj (hoperator'.symm.trans hoperator)
  have hlength : solution.length = graph.coordinates.length :=
    hsolved.solutionLength.trans hsize
  have hsatisfied : ∀ row ∈ graph.constraints,
      row.Satisfied (assignment graph.coordinateIds solution) := by
    subst hgraph
    exact feasible_satisfied hcompiled hsolved.solutionLength hsolved.solves.feasible
  have hquery : (queryVector graph activation).length = graph.coordinateIds.length :=
    List.length_map _
  rw [finishSolve_exact hcompiled (hrows.trans hsize.symm) (hcolumns.trans hsize.symm) hquery
    hsolved hsatisfied] at hrun
  have hrequired : ∀ i : Fin graph.coordinates.length,
      graph.coordinates[(i : Nat)].candidate.required = true →
        toVector graph.coordinates.length solution i = 1 := by
    subst hgraph
    exact required_one hids hsatisfied
  have hstationary := hsolved.solves.stationary
  rw [hsize, hvalues] at hstationary
  have hoptional : ∀ i : Fin graph.coordinates.length,
      ¬ graph.coordinates[(i : Nat)].candidate.required = true →
      (squares (graph.diagonal config.epsilon) graph.forms *ᵥ
        toVector graph.coordinates.length solution) i =
          toVector graph.coordinates.length (queryVector graph activation) i := by
    intro i hi
    rw [← hstationary, Pi.add_apply, left_eq_add]
    subst hgraph
    exact optional_multipliers hids hcompiled i hi _
  have hdiagonal : ∀ i, 1 ≤ graph.diagonal config.epsilon i := by
    subst hgraph
    exact one_le_diagonal config.epsilon_pos
  have hforms := builtGraph_differences view limits hids
  rw [← hgraph] at hforms
  refine ⟨solution, hlength, hrun, fun i => ⟨?_, hrequired i⟩⟩
  refine values_within hdiagonal hforms (le_foldr_max (.inl rfl)) hrequired (fun j hj => ?_) i
  rw [hoptional j hj]
  refine queryVector_bounds hactivation ?_
  unfold toVector
  rw [List.getD_eq_getElem _ _ (by rw [hquery, hsize]; exact j.isLt)]
  exact List.getElem_mem _

end Values

/-! ## The certificate -/

section Certified

variable {config : SparseEngineConfig} {graph : ContextGraph} {activation : QueryActivation}
  {activationScores : List (String × Rat)}

/-- Without errors the certificate has none, and the scores are returned. -/
theorem certify_exact (config : SparseEngineConfig) (graph : ContextGraph)
    (activation : QueryActivation) (mode : ContextEngineMode)
    (activationScores : List (String × Rat)) :
    ∃ certificate,
      (certify config graph activation mode activationScores 0 0 0).certificate = some certificate ∧
        certificate.stationarityError = 0 ∧ certificate.constraintError = 0 ∧
        certificate.reconstructionError = 0 ∧
        (certify config graph activation mode activationScores 0 0 0).activationScores =
          activationScores := by
  unfold certify
  dsimp only
  split
  · exact ⟨_, rfl, rfl, rfl, rfl, rfl⟩
  · exact ⟨_, rfl, rfl, rfl, rfl, rfl⟩

/-- The ids of the coordinates that are selected. -/
def selectedCoordinateIds (config : SparseEngineConfig) (activationScores : List (String × Rat)) :
    List String :=
  (activationScores.filter fun entry => config.selectionThreshold ≤ entry.2).map Prod.fst

/-- Without errors, with all required coordinates selected and with the provenance of all blocks, the
result is active. -/
theorem certify_active
    (hrequired : ∀ coordinate ∈ graph.coordinates, coordinate.candidate.required = true →
      coordinate.coordinateId ∈ selectedCoordinateIds config activationScores)
    (hprovenance : ∀ coordinate ∈ graph.coordinates,
      ∀ eventId ∈ coordinate.candidate.sourceEventIds, eventId ∈ activation.provenanceEventIds) :
    (certify config graph activation .active activationScores 0 0 0).outcome = .active ∧
      (certify config graph activation .active activationScores 0 0 0).errorCode = none ∧
      ∀ coordinate ∈ graph.coordinates, coordinate.candidate.required = true →
        coordinate.candidate ∈
          (certify config graph activation .active activationScores 0 0 0).selectedBlocks := by
  have hrequiredPassed : (graph.coordinates.all fun coordinate =>
      !coordinate.candidate.required ||
        decide (coordinate.coordinateId ∈ selectedCoordinateIds config activationScores)) = true := by
    refine List.all_eq_true.mpr fun coordinate hcoordinate => ?_
    cases hcase : coordinate.candidate.required with
    | false => rfl
    | true => exact decide_eq_true (hrequired coordinate hcoordinate hcase)
  have hprovenancePassed : ((graph.coordinates.filter fun coordinate =>
      coordinate.coordinateId ∈ selectedCoordinateIds config activationScores).all fun coordinate =>
        coordinate.candidate.sourceEventIds.all (· ∈ activation.provenanceEventIds)) = true := by
    refine List.all_eq_true.mpr fun coordinate hcoordinate => List.all_eq_true.mpr fun eventId hid => ?_
    exact decide_eq_true (hprovenance coordinate (List.mem_filter.mp hcoordinate).1 eventId hid)
  have hlimit : ¬ (0 : Rat) > config.directBackwardErrorLimit := not_lt.mpr config.limits_pos.1.le
  unfold selectedCoordinateIds at hrequiredPassed hprovenancePassed
  unfold certify
  dsimp only
  rw [hrequiredPassed, hprovenancePassed]
  unfold certificateFailure
  dsimp only
  rw [if_neg hlimit, if_neg hlimit, if_neg hlimit, if_neg (not_not.mpr rfl),
    if_neg (not_not.mpr rfl)]
  refine ⟨rfl, rfl, fun coordinate hcoordinate hcase => ?_⟩
  exact List.mem_map_of_mem (List.mem_filter.mpr
    ⟨hcoordinate, decide_eq_true (hrequired coordinate hcoordinate hcase)⟩)

end Certified

/-! ## Runs -/

section Runs

variable [UnicodeTables]

/-- The provenance of an activation covers the blocks of a graph. -/
def ContextGraph.Covered (graph : ContextGraph) (activation : QueryActivation) : Prop :=
  ∀ coordinate ∈ graph.coordinates, ∀ eventId ∈ coordinate.candidate.sourceEventIds,
    eventId ∈ activation.provenanceEventIds

omit [UnicodeTables] in
/-- The values of a run: one at required coordinates, and between zero and the bound. -/
structure EngineResult.Bounded (result : EngineResult) (graph : ContextGraph) (bound : Rat) : Prop where
  ids : result.activationScores.map Prod.fst = graph.coordinateIds
  within : ∀ entry ∈ result.activationScores, 0 ≤ entry.2 ∧ entry.2 ≤ bound
  required : ∀ coordinate ∈ graph.coordinates, coordinate.candidate.required = true →
    ∀ entry ∈ result.activationScores, entry.1 = coordinate.coordinateId → entry.2 = 1

omit [UnicodeTables] in
/-- The scores are the ids of the coordinates with their values. -/
theorem mem_zip_iff {graph : ContextGraph} {solution : List Rat}
    (hlength : solution.length = graph.coordinates.length) {entry : String × Rat} :
    entry ∈ graph.coordinateIds.zip solution ↔ ∃ i : Fin graph.coordinates.length,
      entry = (graph.coordinates[(i : Nat)].coordinateId,
        toVector graph.coordinates.length solution i) := by
  have hsize : graph.coordinateIds.length = graph.coordinates.length := List.length_map _
  have hat (i : Nat) (hi : i < graph.coordinates.length)
      (hzip : i < (graph.coordinateIds.zip solution).length) :
      (graph.coordinateIds.zip solution)[i] = (graph.coordinates[i].coordinateId,
        toVector graph.coordinates.length solution ⟨i, hi⟩) := by
    rw [List.getElem_zip, ContextGraph.getElem_coordinateIds hi]
    unfold toVector
    rw [List.getD_eq_getElem _ _ (by omega)]
  have hzipLength : (graph.coordinateIds.zip solution).length = graph.coordinates.length := by
    rw [List.length_zip, hsize, hlength, Nat.min_self]
  constructor
  · intro hmem
    obtain ⟨i, hi, rfl⟩ := List.getElem_of_mem hmem
    exact ⟨⟨i, hzipLength ▸ hi⟩, hat i (hzipLength ▸ hi) hi⟩
  · rintro ⟨i, rfl⟩
    have hi : (i : Nat) < (graph.coordinateIds.zip solution).length := by
      rw [hzipLength]
      exact i.isLt
    rw [← hat i i.isLt hi]
    exact List.getElem_mem hi

/-- A lexical score is not negative. -/
theorem lexicalScore_nonneg (queryUnits : List Char) (text : String) :
    0 ≤ lexicalScore queryUnits text := by
  unfold lexicalScore
  dsimp only
  split_ifs
  · exact le_rfl
  · exact le_rfl
  · exact Binary64.nearest_nonneg (div_nonneg (Nat.cast_nonneg _) (Nat.cast_nonneg _))

/-- The activation that is built is one of its graph, and covers the blocks. -/
theorem builtActivation_activates (view : RequestView) (candidates : List CandidateBlock)
    (currentInput : String) (limits : ContextGraphConfig) :
    (builtGraph view candidates limits).ActivatesNonnegatively
        (builtActivation view candidates currentInput) ∧
      (builtGraph view candidates limits).Covered
        (builtActivation view candidates currentInput) := by
  have hcoordinates := builtGraph_coordinateIds view candidates limits
  refine ⟨⟨⟨fun score hscore => ?_, fun coordinateId hretained => ?_⟩, fun score hscore => ?_⟩,
    fun coordinate hcoordinate eventId hevent => ?_⟩
  · obtain ⟨block, hblock, rfl⟩ := List.mem_map.mp hscore
    exact hcoordinates ▸ List.mem_map_of_mem hblock
  · obtain ⟨block, hblock, rfl⟩ := List.mem_map.mp hretained
    exact hcoordinates ▸ List.mem_map_of_mem (List.mem_filter.mp hblock).1
  · obtain ⟨block, _, rfl⟩ := List.mem_map.mp hscore
    exact lexicalScore_nonneg _ _
  · obtain ⟨block, hblock, rfl⟩ := List.mem_map.mp hcoordinate
    exact mem_uniqueValues.mpr (List.mem_flatMap.mpr ⟨block, hblock, hevent⟩)

/-- The maximum principle: on a graph that `build_context_graph` returns, with its activation or any other
without negative scores, an exact engine gives required blocks the value one and all blocks a value
between zero and the largest of one and the scores; no error of the certificate is more than zero; and
where the provenance covers the blocks, the active mode selects all required ones. -/
theorem engine_maximum_principle [CallStack] (view : RequestView) (candidates : List CandidateBlock)
    (currentInput : String) (limits : ContextGraphConfig) (built : BuiltContextGraph)
    (hbuilt : buildContextGraph view candidates currentInput limits = .ok built) :
    (built.graph.ActivatesNonnegatively built.activation ∧
      built.graph.Covered built.activation ∧ limits.exceededBy built.graph = false) ∧
    ∀ (backend : LinearAlgebraBackend Rat) (config : SparseEngineConfig)
      (activation : QueryActivation) (mode : ContextEngineMode), backend.Exact →
      config.exceededBy built.graph = false → built.graph.ActivatesNonnegatively activation →
      mode ≠ .off →
      ∃ result certificate,
        sparseContextEngineSolve backend config built.graph activation mode = some result ∧
        result.Bounded built.graph (scoreBound activation) ∧
        result.certificate = some certificate ∧ certificate.stationarityError = 0 ∧
        certificate.constraintError = 0 ∧ certificate.reconstructionError = 0 ∧
        (mode = .active → built.graph.Covered activation → result.outcome = .active ∧
          result.errorCode = none ∧
          ∀ coordinate ∈ built.graph.coordinates, coordinate.candidate.required = true →
            coordinate.candidate ∈ result.selectedBlocks) := by
  obtain ⟨⟨hids, hcoordinates, hconstraints⟩, ⟨hkept, _⟩, rfl⟩ := buildContextGraph_ok.mp hbuilt
  obtain ⟨hactivates, hcovered⟩ := builtActivation_activates view candidates currentInput limits
  refine ⟨⟨hactivates, hcovered, builtGraph_accepted hcoordinates hconstraints⟩,
    fun backend config activation mode hbackend hcapacity hactivation hmode => ?_⟩
  have hconstructed : (builtGraph view candidates limits).Constructed :=
    builtGraph_constructed hids hkept
  generalize hgraph : builtGraph view candidates limits = graph at *
  obtain ⟨solution, hlength, hrun, hvalues⟩ :=
    exact_run hgraph.symm hids hkept hbackend hcapacity hactivation hmode
  obtain ⟨certificate, hcertificate, hstationarity, hconstraint, hreconstruction, hscores⟩ :=
    certify_exact config graph activation mode (graph.coordinateIds.zip solution)
  have hsize : graph.coordinateIds.length = graph.coordinates.length := List.length_map _
  refine ⟨_, certificate, hrun, ⟨?_, ?_, ?_⟩, hcertificate, hstationarity, hconstraint,
    hreconstruction, ?_⟩
  · rw [hscores, List.map_fst_zip (by rw [hsize, hlength])]
  · rw [hscores]
    intro entry hentry
    obtain ⟨i, rfl⟩ := (mem_zip_iff hlength).mp hentry
    exact (hvalues i).1
  · rw [hscores]
    intro coordinate hcoordinate hrequired entry hentry hid
    obtain ⟨i, rfl⟩ := (mem_zip_iff hlength).mp hentry
    have hsame : graph.coordinates.get i = coordinate :=
      List.inj_on_of_nodup_map hconstructed.checks.coordinateIds (List.getElem_mem i.isLt)
        hcoordinate hid
    exact (hvalues i).2 (hsame ▸ hrequired)
  · rintro rfl hcovers
    refine certify_active (fun coordinate hcoordinate hrequired => ?_) hcovers
    obtain ⟨i, hi, rfl⟩ := List.getElem_of_mem hcoordinate
    have hvalue := (hvalues ⟨i, hi⟩).2 hrequired
    refine List.mem_map.mpr ⟨(_, 1), List.mem_filter.mpr ⟨(mem_zip_iff hlength).mpr
      ⟨⟨i, hi⟩, Prod.ext rfl hvalue.symm⟩, decide_eq_true config.threshold_bounds.2⟩, rfl⟩

end Runs

open ConstructionSample

/-- With Cramer's rule the engine is active on a graph of two blocks. -/
theorem engine_maximum_principle_sample :
    ∃ built result, buildContextGraph view [before, block] "task" {} = .ok built ∧
      @sparseContextEngineSolve defaultStack cramerBackend {} built.graph built.activation .active =
        some result ∧ result.outcome = .active := by
  let _ := defaultStack
  have hbuilt : buildContextGraph view [before, block] "task" {} =
      .ok ⟨builtGraph view [before, block] {}, builtActivation view [before, block] "task"⟩ :=
    buildContextGraph_ok.mpr ⟨⟨by decide, by decide, by decide⟩, ⟨by decide +kernel, by decide⟩, rfl⟩
  obtain ⟨⟨hactivates, hcovered, hcapacity⟩, hruns⟩ :=
    engine_maximum_principle view [before, block] "task" {} _ hbuilt
  obtain ⟨result, _, hrun, _, _, _, _, _, hactive⟩ := hruns cramerBackend {} _ .active
    cramerBackend_exact hcapacity hactivates (by decide)
  exact ⟨_, result, hbuilt, hrun, (hactive rfl hcovered).1⟩

end AstrContinuum
