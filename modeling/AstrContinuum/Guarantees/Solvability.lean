import AstrContinuum.ContextGraph.CompiledSolutions
import AstrContinuum.ContextGraph.Cramer
import AstrContinuum.ContextGraph.ExactEngine

/-!
# The engine has no singular systems

The operator of a graph is bounded below by its epsilon, so the systems of the full solve, of the
elimination and of the reduced solve are nonsingular, and an engine with an exact backend reports none of
them.
-/

namespace AstrContinuum

open Checked ConstrainedSystems Matrix

/-! ## Systems -/

section Systems

variable {K : Type} [Field K] [LinearOrder K]

/-- Both systems that `solve_constrained_system` may hand to its backend are nonsingular. -/
structure NonsingularSystems (matrix : CsrMatrix K) (constraints : CompiledConstraints K) : Prop where
  operator : matrix.Nonsingular
  kkt : ∃ kkt, kktMatrix matrix constraints = .ok kkt ∧ kkt.Nonsingular

/-- Systems whose homogeneous forms have only the zero solution are nonsingular. -/
theorem nonsingularSystems_of_unique {matrix : CsrMatrix K} {constraints : CompiledConstraints K}
    {size count : Nat} (hrows : matrix.rowCount = size) (hcolumns : matrix.columns = size)
    (hwidth : constraints.matrix.columns = size) (hcount : constraints.matrix.rowCount = count)
    (hinjective : ∀ x, matrix.toMatrix size size *ᵥ x = 0 → x = 0)
    (hunique : ∀ x y, Solves (matrix.toMatrix size size) (constraints.matrix.toMatrix count size)
      0 0 x y → x = 0 ∧ y = 0) : NonsingularSystems matrix constraints := by
  refine ⟨CsrMatrix.nonsingular_of_injective hrows hcolumns hinjective, ?_⟩
  obtain ⟨kkt, hkkt, hkktRows, hkktColumns, _, hkktInjective⟩ :=
    kktMatrix_injective hrows hcolumns hwidth hcount hunique
  exact ⟨kkt, hkkt, CsrMatrix.nonsingular_of_injective hkktRows hkktColumns hkktInjective⟩

variable {matrix : CsrMatrix K} {constraints : CompiledConstraints K} {coordinates : List String}

/-- The full systems are nonsingular. -/
theorem fullSystems_nonsingular (hsound : constraints.Sound coordinates)
    (hmatrix : PositiveDefinite (matrix.toMatrix coordinates.length coordinates.length))
    (hrows : matrix.rowCount = coordinates.length) (hcolumns : matrix.columns = coordinates.length) :
    NonsingularSystems matrix constraints :=
  nonsingularSystems_of_unique hrows hcolumns hsound.columns rfl (fun _ => hmatrix.injective)
    fun _ _ hsolves => hsolves.eq_zero hmatrix hsound.independent

/-- The block of the eliminated coordinates is nonsingular. -/
theorem eliminatedBlock_nonsingular {size : Nat} {retained : List Nat}
    (hmatrix : PositiveDefinite (matrix.toMatrix size size)) (hrows : matrix.rowCount = size)
    (hcolumns : matrix.columns = size) (hnodup : retained.Nodup)
    (hwithin : ∀ index ∈ retained, index < size) :
    ∃ block, matrix.submatrix (unretainedIndices size retained) (unretainedIndices size retained) =
      .ok block ∧ block.Nonsingular := by
  have hothers := unretainedIndices_nodup size retained
  obtain ⟨block, hblock, hblockRows, hblockColumns, hvalues⟩ := submatrix_toMatrix matrix hrows
    hcolumns hothers hothers unretainedIndices_lt unretainedIndices_lt
  refine ⟨block, hblock, CsrMatrix.nonsingular_of_injective hblockRows hblockColumns ?_⟩
  rw [hvalues]
  exact fun _ => (hmatrix.eliminated (splits_positions hnodup hwithin)).injective

/-- The reduced systems are nonsingular. -/
theorem reducedSystems_nonsingular (hsound : constraints.Sound coordinates)
    (hmatrix : PositiveDefinite (matrix.toMatrix coordinates.length coordinates.length))
    {retained : List Nat} (hretained : AdmissibleRetained constraints coordinates retained) {rhs : List K}
    {reduction : StateReduction K}
    {z : Matrix (Fin (unretainedIndices coordinates.length retained).length) (Fin retained.length) K}
    {o : Fin (unretainedIndices coordinates.length retained).length → K}
    (hreduction : reduction.Exact matrix rhs constraints retained coordinates.length
      constraints.matrix.rowCount hretained.within z o) :
    NonsingularSystems reduction.reducedMatrix reduction.projectedConstraints := by
  have hsplit := splits_positions hretained.distinct hretained.within
  have hprojected := hreduction.projected
  refine nonsingularSystems_of_unique hreduction.rows hreduction.columns hprojected.columns
    hprojected.rows ?_ ?_
  · rw [hreduction.values]
    intro w hw
    have hnone : RowsIndependent (0 : Matrix (Fin 0) (Fin coordinates.length) K) :=
      fun _ _ => Subsingleton.elim _ _
    exact (hreduction.elimination.reduced_eq_zero (c := 0) (y := 0) hsplit hmatrix hnone
      (fun _ _ => rfl) ⟨by rw [hw, zero_vecMul, add_zero], Subsingleton.elim _ _⟩).1
  · rw [hreduction.values, hprojected.values]
    exact fun _ _ hsolves => hreduction.elimination.reduced_eq_zero hsplit hmatrix
      hsound.independent (hsound.unretained hretained) hsolves

end Systems

/-! ## Answers -/

/-- The engine reports a system that it did not solve. -/
def EngineResult.Unsolved (result : EngineResult) : Prop :=
  (∃ status : SolveStatus, result.errorCode = some ("SOLVE_" ++ status.value)) ∨
    ∃ code : ReductionErrorCode, result.errorCode = some ("REDUCTION_" ++ code.value)

/-- The first characters of all other codes. -/
def otherInitials : List (Option Char) :=
  [some 'C', some 'G', some 'Q']

/-- A result without a code, or with another one, does not report an unsolved system. -/
theorem not_unsolved {result : EngineResult}
    (h : ∀ code, result.errorCode = some code → code.toList.head? ∈ otherInitials) :
    ¬ result.Unsolved := by
  rintro (⟨status, hcode⟩ | ⟨code, hcode⟩)
  · have hhead : ("SOLVE_".toList ++ status.value.toList).head? = some 'S' := rfl
    have hinitial := h _ hcode
    rw [String.toList_append, hhead] at hinitial
    exact absurd hinitial (by decide)
  · have hhead : ("REDUCTION_".toList ++ code.value.toList).head? = some 'R' := rfl
    have hinitial := h _ hcode
    rw [String.toList_append, hhead] at hinitial
    exact absurd hinitial (by decide)

/-- A degraded result has the code it is given. -/
theorem not_unsolved_degraded {errorCode : String} (h : errorCode.toList.head? ∈ otherInitials)
    (certificate : Option ErrorCertificate) (activationScores : List (String × Rat)) :
    ¬ (degradedResult errorCode certificate activationScores).Unsolved :=
  not_unsolved fun _ hcode => Option.some.inj hcode ▸ h

/-- The certificate of a solution reports no unsolved system. -/
theorem not_unsolved_certify (config : SparseEngineConfig) (graph : ContextGraph)
    (activation : QueryActivation) (mode : ContextEngineMode)
    (activationScores : List (String × Rat)) (stationarity constraint reconstruction : Rat) :
    ¬ (certify config graph activation mode activationScores stationarity constraint
      reconstruction).Unsolved := by
  have hinitial (certificate : ErrorCertificate) (limit : Rat) (code : String)
      (hcode : certificateFailure certificate limit = some code) :
      code.toList.head? ∈ otherInitials := by
    unfold certificateFailure at hcode
    split_ifs at hcode
    all_goals
      obtain rfl := Option.some.inj hcode
      decide
  unfold certify
  dsimp only
  split
  · next code hcode => exact not_unsolved_degraded (hinitial _ _ code hcode) _ _
  · exact not_unsolved fun _ hcode => absurd hcode (by simp)

/-- A converged solve reports no unsolved system. -/
theorem not_unsolved_finishSolve {config : SparseEngineConfig} {graph : ContextGraph}
    {activation : QueryActivation} {mode : ContextEngineMode} {operator : CsrMatrix Rat}
    {query : List Rat} {constraints : CompiledConstraints Rat} {solution multipliers : List Rat}
    {reconstruction : WithTop Rat} :
    ¬ (finishSolve config graph activation mode operator query constraints
      ⟨.converged, some solution, some multipliers, reconstruction⟩).Unsolved := by
  have haccepted : SolveStatus.converged.accepted ⟨config.allowLeastSquares⟩ = true :=
    decide_eq_true (.inl rfl)
  unfold finishSolve
  dsimp only
  rw [if_neg (not_not.mpr haccepted)]
  split
  · exact not_unsolved_certify _ _ _ _ _ _ _ _
  · exact not_unsolved_degraded (by decide) _ _

/-- With an exact backend the engine answers, unless the calls of its compilation nest too deep, and
reports no unsolved system. -/
theorem sparseContextEngineSolve_solved [CallStack] {backend : LinearAlgebraBackend Rat}
    (hbackend : backend.Exact) {graph : ContextGraph} (hgraph : graph.Constructed)
    (config : SparseEngineConfig) (activation : QueryActivation) (mode : ContextEngineMode) :
    (∃ result, sparseContextEngineSolve backend config graph activation mode = some result ∧
        ¬ result.Unsolved) ∨
      (CallStack.frames < compileCalls graph.coordinateIds (classifiedRows graph.constraints) ∧
        sparseContextEngineSolve backend config graph activation mode = none) := by
  by_cases hoff : mode = .off
  · exact .inl ⟨_, if_pos hoff, not_unsolved fun _ hcode => absurd hcode (by simp)⟩
  by_cases hcapacity : config.exceededBy graph = true
  · exact .inl ⟨_, (if_neg hoff).trans (if_pos hcapacity), not_unsolved_degraded (by decide) _ _⟩
  by_cases hunknown : (activation.scores.any (fun score => score.1 ∉ graph.coordinateIds) ||
      activation.retainedCoordinateIds.any (· ∉ graph.coordinateIds)) = true
  · exact .inl ⟨_, (if_neg hoff).trans ((if_neg hcapacity).trans (if_pos hunknown)),
      not_unsolved_degraded (by decide) _ _⟩
  have hknown : graph.Activates activation := by
    rw [Bool.not_eq_true, Bool.or_eq_false_iff, List.any_eq_false, List.any_eq_false] at hunknown
    exact ⟨fun score hmem => by simpa using hunknown.1 score hmem,
      fun coordinateId hmem => by simpa using hunknown.2 coordinateId hmem⟩
  cases hcompiled : compileConstraints (K := Rat) graph.coordinateIds graph.constraints with
  | ok constraints =>
      obtain ⟨operator, solved, solution, multipliers, _, hexact, hsolve⟩ :=
        sparseContextEngineSolve_exact hbackend hgraph (Bool.not_eq_true _ ▸ hcapacity) hknown hoff
          hcompiled
      rw [hexact.result] at hsolve
      exact .inl ⟨_, hsolve, not_unsolved_finishSolve⟩
  | error failure =>
      obtain ⟨operator, hoperator, _⟩ :=
        buildPropagationOperator_positive hgraph config.epsilon_pos rfl
      unfold sparseContextEngineSolve
      rw [if_neg hoff, if_neg hcapacity, if_neg hunknown, hoperator]
      dsimp only
      rw [hcompiled]
      cases failure with
      | constraint code =>
          refine .inl ⟨_, rfl, not_unsolved_degraded ?_ _ _⟩
          rw [String.toList_append]
          exact List.mem_cons_self
      | recursionError => exact .inr ⟨compileConstraints_recursionError hcompiled, rfl⟩
      | reduction code => exact .inl ⟨_, rfl, not_unsolved_degraded (by decide) _ _⟩
      | valueError message => exact .inl ⟨_, rfl, not_unsolved_degraded (by decide) _ _⟩
      | indexError => exact .inl ⟨_, rfl, not_unsolved_degraded (by decide) _ _⟩

/-- Solvability: the operator of a graph is symmetric and bounded below by its epsilon; for every list of
constraints that compiles, the systems of the full solve, of the elimination and of the reduced solve are
nonsingular; and with an exact backend the engine reports no unsolved system: it answers, unless the calls
that compile its constraints nest too deep. -/
theorem propagation_systems_solvable [CallStack] (graph : ContextGraph) (hgraph : graph.Constructed) :
    (∀ epsilon : Rat, 0 < epsilon → ∃ operator,
      buildPropagationOperator graph epsilon = .ok operator ∧
      (operator.toMatrix graph.coordinateIds.length graph.coordinateIds.length).IsSymm ∧
      (∀ x, epsilon * (x ⬝ᵥ x) ≤
        x ⬝ᵥ operator.toMatrix graph.coordinateIds.length graph.coordinateIds.length *ᵥ x) ∧
      ∀ rows constraints, compileConstraints graph.coordinateIds rows = .ok constraints →
        NonsingularSystems operator constraints ∧
        ∀ retained, AdmissibleRetained constraints graph.coordinateIds retained →
          (∃ block, operator.submatrix (unretainedIndices graph.coordinateIds.length retained)
            (unretainedIndices graph.coordinateIds.length retained) = .ok block ∧
            block.Nonsingular) ∧
          ∀ backend : LinearAlgebraBackend Rat, backend.Exact →
            ∀ query : List Rat, query.length = graph.coordinateIds.length →
            ∀ policy, ∃ reduction,
              reduceState operator query constraints retained backend policy = .ok reduction ∧
                NonsingularSystems reduction.reducedMatrix reduction.projectedConstraints) ∧
    ∀ backend : LinearAlgebraBackend Rat, backend.Exact → ∀ config activation mode,
      (∃ result, sparseContextEngineSolve backend config graph activation mode = some result ∧
        ¬ result.Unsolved) ∨
      (CallStack.frames < compileCalls graph.coordinateIds (classifiedRows graph.constraints) ∧
        sparseContextEngineSolve backend config graph activation mode = none) := by
  have hsize : graph.coordinates.length = graph.coordinateIds.length := (List.length_map _).symm
  refine ⟨fun epsilon hepsilon => ?_, fun backend hbackend config activation mode =>
    sparseContextEngineSolve_solved hbackend hgraph config activation mode⟩
  obtain ⟨operator, hoperator, hrows, hcolumns, hpositive, hbound⟩ :=
    buildPropagationOperator_positive hgraph hepsilon hsize
  refine ⟨operator, hoperator, hpositive.symmetric, hbound, fun rows constraints hcompiled => ?_⟩
  have hsound := compileConstraints_sound hcompiled
  refine ⟨fullSystems_nonsingular hsound hpositive hrows hcolumns, fun retained hretained => ⟨?_, ?_⟩⟩
  · exact eliminatedBlock_nonsingular hpositive hrows hcolumns hretained.distinct hretained.within
  · intro backend hbackend query hquery policy
    have hindices : ∀ coordinateId ∈ constraints.supportCoordinateIds,
        constraints.coordinateIds.idxOf coordinateId ∈ retained := by
      rw [hsound.coordinateIds]
      exact hretained.support
    obtain ⟨reduction, z, o, hreduction, hexact⟩ := reduceState_exact hbackend hpositive hrows
      hcolumns hquery hsound.columns rfl hretained.distinct hretained.within hindices policy
    exact ⟨reduction, hreduction, reducedSystems_nonsingular hsound hpositive hretained hexact⟩

namespace SolvabilitySample

/-- A block. -/
def goal : CandidateBlock :=
  { blockId := "goal", slot := .activeTask, kind := .taskContext, text := "task"
    sourceEventIds := ["event"], score := 1, reason := "STRUCTURED_FALLBACK", required := false
    capsuleId := none, eventSequence := none, valid := by decide +kernel }

/-- Another block. -/
def note : CandidateBlock :=
  ⟨{ goal.toCandidateBlockData with blockId := "note" }, by decide +kernel⟩

/-- Two coordinates of which the first is fixed, with a relation of both. -/
def graph : ContextGraph where
  graphId := "graph"
  coordinates := [⟨"goal", goal, 1⟩, ⟨"note", note, 0⟩]
  relations := [⟨"near", [("goal", 2), ("note", -3)], 1 / 2⟩]
  constraints := [⟨"fixed", [("goal", 1)], 1⟩]

/-- The graph is built by the constructors. -/
theorem constructed : graph.Constructed where
  checks := ⟨by decide, by decide, by decide, by decide, by decide, by decide, by decide⟩
  coordinates := by decide +kernel
  relations := by
    intro relation hrelation
    obtain rfl := List.mem_singleton.mp hrelation
    exact sparseRelation_ok.mpr ⟨rfl, by decide,
      ⟨by decide, by decide +kernel, by decide⟩, by decide +kernel⟩
  constraints := by
    intro constraint hconstraint
    obtain rfl := List.mem_singleton.mp hconstraint
    exact constraintRow_ok.mpr ⟨rfl, by decide, ⟨by decide, by decide +kernel, by decide⟩⟩

end SolvabilitySample

/-- With Cramer's rule the engine answers on a graph with a relation and a constraint. -/
theorem propagation_systems_solvable_sample : ∃ result,
    @sparseContextEngineSolve defaultStack cramerBackend {} SolvabilitySample.graph
      ⟨"query", [("goal", 1)], ["goal"], ["event"]⟩ .active = some result ∧ ¬ result.Unsolved := by
  let _ := defaultStack
  rcases (propagation_systems_solvable SolvabilitySample.graph SolvabilitySample.constructed).2
    cramerBackend cramerBackend_exact {} ⟨"query", [("goal", 1)], ["goal"], ["event"]⟩ .active with
    hsolved | ⟨hdeep, _⟩
  · exact hsolved
  · have hcalls := compileCalls_le SolvabilitySample.graph.coordinateIds
      (classifiedRows SolvabilitySample.graph.constraints)
    have hnone : equations (classifiedRows SolvabilitySample.graph.constraints) = 0 := by
      decide +kernel
    have hroom : CallStack.frames = 1000 := rfl
    omega

end AstrContinuum
