import AstrContinuum.ContextGraph.ExactSolve
import AstrContinuum.ContextGraph.Operator

/-!
# Exact engine solves

With an exact backend both ways of the engine solve the stationarity system of the operator and the
compiled constraints, so what is retained makes no difference.
-/

namespace AstrContinuum

open Checked ConstrainedSystems Matrix

section Solves

variable {K : Type} [Field K] [LinearOrder K] {coordinates : List String}
  {constraints : CompiledConstraints K} {retained : List Nat}

/-- Retained indices that a reduction takes: distinct ones of coordinates, with the whole support. -/
structure AdmissibleRetained (constraints : CompiledConstraints K) (coordinates : List String)
    (retained : List Nat) : Prop where
  distinct : retained.Nodup
  within : ∀ index ∈ retained, index < coordinates.length
  support : ∀ coordinateId ∈ constraints.supportCoordinateIds,
    coordinates.idxOf coordinateId ∈ retained

omit [LinearOrder K] in
/-- No compiled row touches a coordinate outside the retained ones. -/
theorem CompiledConstraints.Sound.unretained (hsound : constraints.Sound coordinates)
    (hretained : AdmissibleRetained constraints coordinates retained) (k j) :
    constraints.matrix.toMatrix constraints.matrix.rowCount coordinates.length k
      (position (unretainedIndices coordinates.length retained) unretainedIndices_lt j) = 0 := by
  by_contra hne
  have hmem := List.getElem_mem (l := unretainedIndices coordinates.length retained) j.isLt
  have hindex := mem_unretainedIndices.mp hmem
  have hsupported := hretained.support _ (hsound.supported k _ hindex.1 hne)
  rw [hsound.distinct.idxOf_getElem] at hsupported
  exact hindex.2 hsupported

omit [LinearOrder K] in
/-- The support of compiled rows is known. -/
theorem CompiledConstraints.Sound.known (hsound : constraints.Sound coordinates)
    {coordinateId : String} (h : coordinateId ∈ constraints.supportCoordinateIds) :
    coordinateId ∈ coordinates := by
  have hfilter := (List.mem_filter.mp h).1
  rwa [hsound.coordinateIds] at hfilter

omit [LinearOrder K] in
/-- Compiled rows are as wide as the coordinates. -/
theorem CompiledConstraints.Sound.columns (hsound : constraints.Sound coordinates) :
    constraints.matrix.columns = coordinates.length := by
  rw [constraints.valid.2.1, hsound.coordinateIds]

variable {matrix : CsrMatrix K} {rhs : List K} {backend : LinearAlgebraBackend K}

/-- With an exact backend the full system is solved. -/
theorem fullSolve_exact (hbackend : backend.Exact) (hsound : constraints.Sound coordinates)
    (hmatrix : PositiveDefinite (matrix.toMatrix coordinates.length coordinates.length))
    (hrows : matrix.rowCount = coordinates.length) (hcolumns : matrix.columns = coordinates.length)
    (hrhs : rhs.length = coordinates.length) (policy : SolvePolicy) :
    ∃ result solution multipliers,
      solveConstrainedSystem matrix rhs constraints backend policy = .ok result ∧
        result.Exact matrix constraints.matrix rhs constraints.rhs coordinates.length
          constraints.matrix.rowCount solution multipliers :=
  solveConstrainedSystem_exact hbackend hrows hcolumns hsound.columns rfl hrhs
    (fun _ _ hsolves => hsolves.eq_zero hmatrix hsound.independent) policy

variable [IsStrictOrderedRing K]

/-- With an exact backend the reduced system is solved, and its solution is one of the full system. -/
theorem reducedSolve_exact (hbackend : backend.Exact) (hsound : constraints.Sound coordinates)
    (hmatrix : PositiveDefinite (matrix.toMatrix coordinates.length coordinates.length))
    (hrows : matrix.rowCount = coordinates.length) (hcolumns : matrix.columns = coordinates.length)
    (hrhs : rhs.length = coordinates.length)
    (hretained : AdmissibleRetained constraints coordinates retained) (policy : SolvePolicy) :
    ∃ reduction result solution multipliers,
      reduceState matrix rhs constraints retained backend policy = .ok reduction ∧
        solveProjectedSystem reduction backend policy = .ok result ∧
        result.Exact matrix constraints rhs coordinates.length constraints.matrix.rowCount solution
          multipliers := by
  have hindices : ∀ coordinateId ∈ constraints.supportCoordinateIds,
      constraints.coordinateIds.idxOf coordinateId ∈ retained := by
    rw [hsound.coordinateIds]
    exact hretained.support
  obtain ⟨reduction, z, o, hreduction, hexact⟩ := reduceState_exact hbackend hmatrix hrows hcolumns
    hrhs hsound.columns rfl hretained.distinct hretained.within hindices policy
  obtain ⟨result, solution, multipliers, hresult, hsolved⟩ := solveProjectedSystem_exact hbackend
    hmatrix hrows hcolumns hsound.independent hretained.distinct hretained.within
    (hsound.unretained hretained) hexact policy
  exact ⟨reduction, result, solution, multipliers, hreduction, hresult, hsolved⟩

omit [IsStrictOrderedRing K] in
/-- Lists that solve the same system are the same lists. -/
theorem solution_unique (hsound : constraints.Sound coordinates)
    (hmatrix : PositiveDefinite (matrix.toMatrix coordinates.length coordinates.length))
    {solution solution' multipliers multipliers' : List K}
    (hlength : solution.length = coordinates.length)
    (hlength' : solution'.length = coordinates.length)
    (hcount : multipliers.length = constraints.matrix.rowCount)
    (hcount' : multipliers'.length = constraints.matrix.rowCount)
    {b : Fin coordinates.length → K} {d : Fin constraints.matrix.rowCount → K}
    (hsolves : Solves (matrix.toMatrix coordinates.length coordinates.length)
      (constraints.matrix.toMatrix constraints.matrix.rowCount coordinates.length) b d
      (toVector coordinates.length solution) (toVector constraints.matrix.rowCount multipliers))
    (hsolves' : Solves (matrix.toMatrix coordinates.length coordinates.length)
      (constraints.matrix.toMatrix constraints.matrix.rowCount coordinates.length) b d
      (toVector coordinates.length solution') (toVector constraints.matrix.rowCount multipliers')) :
    solution = solution' ∧ multipliers = multipliers' := by
  obtain ⟨hx, hy⟩ := hsolves.unique hmatrix hsound.independent hsolves'
  exact ⟨toVector_injective hlength hlength' hx, toVector_injective hcount hcount' hy⟩

end Solves

/-! ## The engine -/

/-- What an exact solve of the engine returns. -/
structure EngineSolve.Exact (solved : EngineSolve) (operator : CsrMatrix Rat) (query : List Rat)
    (constraints : CompiledConstraints Rat) (size : Nat) (solution multipliers : List Rat) : Prop where
  result : solved = ⟨.converged, some solution, some multipliers, 0⟩
  solutionLength : solution.length = size
  multipliersLength : multipliers.length = constraints.matrix.rowCount
  solves : Solves (operator.toMatrix size size)
    (constraints.matrix.toMatrix constraints.matrix.rowCount size) (toVector size query)
    (toVector constraints.matrix.rowCount constraints.rhs) (toVector size solution)
    (toVector constraints.matrix.rowCount multipliers)

/-- With an exact backend the engine solves the system, whatever it retains. -/
theorem engineSolve_exact {backend : LinearAlgebraBackend Rat} (hbackend : backend.Exact)
    {coordinates : List String} {constraints : CompiledConstraints Rat}
    (hsound : constraints.Sound coordinates) {operator : CsrMatrix Rat} {query : List Rat}
    (hmatrix : PositiveDefinite (operator.toMatrix coordinates.length coordinates.length))
    (hrows : operator.rowCount = coordinates.length)
    (hcolumns : operator.columns = coordinates.length) (hquery : query.length = coordinates.length)
    {retained : List Nat} (hretained : AdmissibleRetained constraints coordinates retained)
    (policy : SolvePolicy) :
    ∃ solved solution multipliers,
      engineSolve backend policy operator query constraints retained coordinates.length = .ok solved ∧
        solved.Exact operator query constraints coordinates.length solution multipliers := by
  unfold engineSolve
  by_cases hless : retained.length < coordinates.length
  · obtain ⟨reduction, result, solution, multipliers, hreduction, hresult, hexact⟩ :=
      reducedSolve_exact hbackend hsound hmatrix hrows hcolumns hquery hretained policy
    refine ⟨_, solution, multipliers, (if_pos hless).trans (bind_ok.mpr ⟨reduction, hreduction,
      bind_ok.mpr ⟨result, hresult, rfl⟩⟩), ?_, hexact.solutionLength, hexact.multipliersLength,
      hexact.solves⟩
    rw [hexact.status, hexact.returned, hexact.returnedMultipliers, hexact.reconstructionError]
  · obtain ⟨result, solution, multipliers, hresult, hexact⟩ :=
      fullSolve_exact hbackend hsound hmatrix hrows hcolumns hquery policy
    refine ⟨_, solution, multipliers, (if_neg hless).trans (bind_ok.mpr ⟨result, hresult, rfl⟩), ?_,
      hexact.solutionLength, hexact.multipliersLength, hexact.solves⟩
    rw [hexact.status, hexact.returned, hexact.returnedMultipliers]

/-! ## Retained indices -/

section Retained

variable {graph : ContextGraph} {constraints : CompiledConstraints Rat}

/-- The engine retains admissible indices. -/
theorem retainedIndices_admissible (hsound : constraints.Sound graph.coordinateIds)
    (activation : QueryActivation) :
    AdmissibleRetained constraints graph.coordinateIds (retainedIndices graph activation constraints) := by
  have hsize : graph.coordinateIds.length = graph.coordinates.length := List.length_map _
  unfold retainedIndices
  by_cases hall : activation.retainedCoordinateIds = []
  · rw [if_pos hall]
    refine ⟨List.nodup_range, fun index hindex => ?_, fun coordinateId hmem => ?_⟩
    · rw [hsize]
      exact List.mem_range.mp hindex
    · exact List.mem_range.mpr (ContextGraph.idxOf_lt (hsound.known hmem))
  · rw [if_neg hall]
    refine ⟨List.nodup_range.filter _, fun index hindex => ?_, fun coordinateId hmem => ?_⟩
    · rw [hsize]
      exact List.mem_range.mp (List.mem_filter.mp hindex).1
    · have hindex := ContextGraph.idxOf_lt (hsound.known hmem)
      have hat : graph.coordinates[graph.coordinateIds.idxOf coordinateId].coordinateId =
          coordinateId :=
        (List.getElem_map GraphCoordinate.coordinateId).symm.trans
          (List.getElem_idxOf (List.idxOf_lt_length_iff.mpr (hsound.known hmem)))
      refine List.mem_filter.mpr ⟨List.mem_range.mpr hindex, ?_⟩
      rw [List.getElem?_eq_getElem hindex]
      exact decide_eq_true (.inr (.inl (hat.symm ▸ hmem)))

end Retained

/-! ## Whole runs -/

/-- An activation of coordinates of the graph. -/
structure ContextGraph.Activates (graph : ContextGraph) (activation : QueryActivation) : Prop where
  scores : ∀ score ∈ activation.scores, score.1 ∈ graph.coordinateIds
  retained : ∀ coordinateId ∈ activation.retainedCoordinateIds, coordinateId ∈ graph.coordinateIds

/-- Within capacity and over known coordinates, the engine with an exact backend gets to its
certificate with the solution of the system. -/
theorem sparseContextEngineSolve_exact [CallStack] {backend : LinearAlgebraBackend Rat}
    (hbackend : backend.Exact)
    {graph : ContextGraph} (hgraph : graph.Constructed) {config : SparseEngineConfig}
    (hcapacity : config.exceededBy graph = false) {activation : QueryActivation}
    (hknown : graph.Activates activation) {mode : ContextEngineMode} (hmode : mode ≠ .off)
    {constraints : CompiledConstraints Rat}
    (hcompiled : compileConstraints graph.coordinateIds graph.constraints = .ok constraints) :
    ∃ operator solved solution multipliers,
      buildPropagationOperator graph config.epsilon = .ok operator ∧
        solved.Exact operator (queryVector graph activation) constraints graph.coordinateIds.length
          solution multipliers ∧
        sparseContextEngineSolve backend config graph activation mode =
          some (finishSolve config graph activation mode operator (queryVector graph activation)
            constraints solved) := by
  have hsize : graph.coordinates.length = graph.coordinateIds.length := (List.length_map _).symm
  have hquery : (queryVector graph activation).length = graph.coordinateIds.length :=
    List.length_map _
  have hsound := compileConstraints_sound hcompiled
  obtain ⟨operator, hoperator, hrows, hcolumns, hpositive, _⟩ :=
    buildPropagationOperator_positive hgraph config.epsilon_pos hsize
  obtain ⟨solved, solution, multipliers, hsolved, hexact⟩ := engineSolve_exact hbackend hsound
    hpositive hrows hcolumns hquery
    (retainedIndices_admissible hsound activation) ⟨config.allowLeastSquares⟩
  refine ⟨operator, solved, solution, multipliers, hoperator, hexact, ?_⟩
  have hscores : ¬ (activation.scores.any (fun score => score.1 ∉ graph.coordinateIds) ||
      activation.retainedCoordinateIds.any (· ∉ graph.coordinateIds)) = true := by
    rw [Bool.or_eq_true, List.any_eq_true, List.any_eq_true]
    rintro (⟨score, hmem, hunknown⟩ | ⟨coordinateId, hmem, hunknown⟩)
    · exact of_decide_eq_true hunknown (hknown.scores score hmem)
    · exact of_decide_eq_true hunknown (hknown.retained coordinateId hmem)
  unfold sparseContextEngineSolve
  rw [if_neg hmode, if_neg (by rw [hcapacity]; exact Bool.false_ne_true), if_neg hscores, hoperator]
  dsimp only
  rw [hcompiled, hsize]
  dsimp only
  rw [hsolved]

end AstrContinuum
