import AstrContinuum.ContextGraph.BuiltGraph
import AstrContinuum.ContextGraph.CandidateVerification
import AstrContinuum.ContextGraph.CompiledSolutions
import AstrContinuum.ContextGraph.Cramer
import AstrContinuum.ContextGraph.ExactEngine

/-!
# Reduction preserves the solution

With an exact backend the reduced solve returns the solution and the multipliers of the full one, so the
engine's answer does not depend on what is retained, and the verification of a candidate never fails at
the equivalence of its probes.
-/

namespace AstrContinuum

open Checked ConstrainedSystems

/-! ## The engine -/

/-- The end of a run reads only the provenance of its activation. -/
theorem finishSolve_congr (config : SparseEngineConfig) (graph : ContextGraph)
    {activation other : QueryActivation}
    (h : activation.provenanceEventIds = other.provenanceEventIds) (mode : ContextEngineMode)
    (operator : CsrMatrix Rat) (query : List Rat) (constraints : CompiledConstraints Rat)
    (solved : EngineSolve) :
    finishSolve config graph activation mode operator query constraints solved =
      finishSolve config graph other mode operator query constraints solved := by
  unfold finishSolve certify
  rw [h]

/-- Two activations that differ in what they retain. -/
structure QueryActivation.SameQuery (activation other : QueryActivation) : Prop where
  scores : activation.scores = other.scores
  provenance : activation.provenanceEventIds = other.provenanceEventIds

section SameQuery

variable {backend : LinearAlgebraBackend Rat} {graph : ContextGraph} {config : SparseEngineConfig}
  {activation other : QueryActivation} {mode : ContextEngineMode}

/-- Where the constraints compile, both activations lead to the same system, which has one solution. -/
theorem sparseContextEngineSolve_compiled [CallStack] (hbackend : backend.Exact)
    (hgraph : graph.Constructed) (hfits : config.exceededBy graph = false)
    (hactivates : graph.Activates activation) (hothers : graph.Activates other)
    (hsame : activation.SameQuery other) (hmode : mode ≠ .off)
    {constraints : CompiledConstraints Rat}
    (hcompiled : compileConstraints graph.coordinateIds graph.constraints = .ok constraints) :
    sparseContextEngineSolve backend config graph activation mode =
      sparseContextEngineSolve backend config graph other mode := by
  have hsize : graph.coordinates.length = graph.coordinateIds.length := (List.length_map _).symm
  have hsound := compileConstraints_sound hcompiled
  have hquery : queryVector graph other = queryVector graph activation := by
    unfold queryVector
    rw [hsame.scores]
  obtain ⟨operator, solved, solution, multipliers, hoperator, hsolved, hrun⟩ :=
    sparseContextEngineSolve_exact hbackend hgraph hfits hactivates hmode hcompiled
  obtain ⟨operator', solved', solution', multipliers', hoperator', hsolved', hrun'⟩ :=
    sparseContextEngineSolve_exact hbackend hgraph hfits hothers hmode hcompiled
  obtain rfl : operator' = operator := Except.ok.inj (hoperator'.symm.trans hoperator)
  obtain ⟨positive, hpositive, _, _, hdefinite, _⟩ :=
    buildPropagationOperator_positive hgraph config.epsilon_pos hsize
  obtain rfl : positive = operator' := Except.ok.inj (hpositive.symm.trans hoperator)
  have hsolves' := hsolved'.solves
  rw [hquery] at hsolves'
  obtain ⟨rfl, rfl⟩ := solution_unique hsound hdefinite hsolved.solutionLength
    hsolved'.solutionLength hsolved.multipliersLength hsolved'.multipliersLength hsolved.solves
    hsolves'
  rw [hrun, hrun', hsolved.result, hsolved'.result, hquery,
    finishSolve_congr config graph hsame.provenance]

/-- What an exact engine answers does not depend on the coordinates that are retained. -/
theorem sparseContextEngineSolve_sameQuery [CallStack] (hbackend : backend.Exact)
    (hgraph : graph.Constructed) (config : SparseEngineConfig) (hsame : activation.SameQuery other)
    (hretained : ∀ coordinateId ∈ activation.retainedCoordinateIds,
      coordinateId ∈ graph.coordinateIds)
    (hothers : ∀ coordinateId ∈ other.retainedCoordinateIds, coordinateId ∈ graph.coordinateIds)
    (mode : ContextEngineMode) :
    sparseContextEngineSolve backend config graph activation mode =
      sparseContextEngineSolve backend config graph other mode := by
  have hnone (retained : List String)
      (h : ∀ coordinateId ∈ retained, coordinateId ∈ graph.coordinateIds) :
      retained.any (· ∉ graph.coordinateIds) = false :=
    List.any_eq_false.mpr fun coordinateId hmem hunknown =>
      of_decide_eq_true hunknown (h coordinateId hmem)
  by_cases hoff : mode = .off
  · unfold sparseContextEngineSolve
    rw [if_pos hoff, if_pos hoff]
  by_cases hcapacity : config.exceededBy graph = true
  · unfold sparseContextEngineSolve
    rw [if_neg hoff, if_neg hoff, if_pos hcapacity, if_pos hcapacity]
  by_cases hunknown : activation.scores.any (fun score => score.1 ∉ graph.coordinateIds) = true
  · have hunknownOther := hsame.scores ▸ hunknown
    unfold sparseContextEngineSolve
    rw [hunknown, hunknownOther, Bool.true_or, Bool.true_or]
    rfl
  have hscores : ∀ score ∈ activation.scores, score.1 ∈ graph.coordinateIds := by
    rw [Bool.not_eq_true, List.any_eq_false] at hunknown
    exact fun score hmem => by simpa using hunknown score hmem
  have hfits : config.exceededBy graph = false := Bool.not_eq_true _ ▸ hcapacity
  cases hcompiled : compileConstraints (K := Rat) graph.coordinateIds graph.constraints with
  | error failure =>
      obtain ⟨operator, hoperator, _⟩ :=
        buildPropagationOperator_positive hgraph config.epsilon_pos rfl
      unfold sparseContextEngineSolve
      rw [hoperator, hcompiled, hnone _ hretained, hnone _ hothers, hsame.scores]
      cases failure with
      | constraint code => rfl
      | reduction code => rfl
      | valueError message => rfl
      | indexError => rfl
      | recursionError => rfl
  | ok constraints =>
      exact sparseContextEngineSolve_compiled hbackend hgraph hfits ⟨hscores, hretained⟩
        ⟨hsame.scores ▸ hscores, hothers⟩ hsame hoff hcompiled

end SameQuery

/-! ## Probes -/

/-- A result is equivalent to itself. -/
theorem probeEquivalent_self (result : EngineResult) {tolerance : Rat} (h : 0 ≤ tolerance) :
    probeEquivalent result result tolerance = true := by
  have hscored (entry : String × Rat) (hentry : entry ∈ result.activationScores) :
      ∃ score, scoreAt result.activationScores entry.1 = some score := by
    refine Option.ne_none_iff_exists'.mp fun hnone => ?_
    unfold scoreAt at hnone
    have hne := List.lookup_eq_none_iff.mp hnone entry (List.mem_reverse.mpr hentry)
    simp at hne
  unfold probeEquivalent
  rw [Bool.and_eq_true, Bool.and_eq_true, List.all_eq_true, List.all_eq_true]
  refine ⟨⟨decide_eq_true rfl, fun entry hentry => decide_eq_true (List.mem_map_of_mem hentry)⟩,
    fun entry hentry => ?_⟩
  obtain ⟨score, hscore⟩ := hscored entry hentry
  rw [hscore]
  refine decide_eq_true ?_
  rw [sub_self, abs_zero]
  exact h

/-- An exact engine, as the engine of a verification. -/
def exactEngine [CallStack] (backend : LinearAlgebraBackend Rat) (config : SparseEngineConfig) :
    VerificationEngine :=
  fun graph activation mode => sparseContextEngineSolve backend config graph activation mode

/-- The reduced and the full run of a probe give one result. -/
theorem probe_results_agree [CallStack] {backend : LinearAlgebraBackend Rat} (hbackend : backend.Exact)
    {graph : ContextGraph} (hgraph : graph.Constructed) (config : SparseEngineConfig)
    {probeId : String} {probeKinds : List CandidateKind} {provenance : List String}
    {reduced full : QueryActivation}
    (hreduced : probeActivation graph probeId probeKinds provenance false = .ok reduced)
    (hfull : orRaised (queryActivation
      { reduced with retainedCoordinateIds := graph.coordinateIds }) = .ok full) :
    exactEngine backend config graph reduced .active = exactEngine backend config graph full .active := by
  obtain ⟨rfl, _⟩ := queryActivation_ok.mp (mapError_ok.mp hreduced)
  obtain ⟨rfl, _⟩ := queryActivation_ok.mp (mapError_ok.mp hfull)
  unfold exactEngine
  refine sparseContextEngineSolve_sameQuery hbackend hgraph config ⟨?_, ?_⟩ ?_ ?_ .active
  · rfl
  · rfl
  · intro coordinateId hmem
    obtain ⟨coordinate, hcoordinate, rfl⟩ := List.mem_map.mp hmem
    exact List.mem_map_of_mem (List.mem_filter.mp hcoordinate).1
  · exact fun coordinateId hmem => hmem

/-- A failure other than that of the equivalence of probes. -/
def VerificationFailure.Other (failure : VerificationFailure) : Prop :=
  failure ≠ .probeEquivalence

/-- What a callee raises is another failure. -/
theorem orRaised_other {α : Type} (x : Except RuntimeFailure α) :
    Ensures VerificationFailure.Other (fun a => orRaised x = .ok a) (orRaised x) := by
  cases x with
  | ok a => exact rfl
  | error failure => exact nofun

/-- No probe of an exact engine fails at the equivalence. -/
theorem verifyProbe_other [CallStack] {backend : LinearAlgebraBackend Rat} (hbackend : backend.Exact)
    {graph : ContextGraph} (hgraph : graph.Constructed) (config : SparseEngineConfig)
    (blocks : List CandidateBlock) (requiredIds provenance : List String)
    (probe : String × List CandidateKind) :
    Ensures VerificationFailure.Other (fun _ => True)
      (verifyProbe (exactEngine backend config) config blocks graph requiredIds provenance probe) := by
  have htolerance : 0 ≤ max config.directBackwardErrorLimit config.iterativeBackwardErrorLimit :=
    config.limits_pos.1.le.trans (le_max_left _ _)
  refine (orRaised_other _).bind fun reducedActivation hreduced => ?_
  refine (orRaised_other _).bind fun fullActivation hfull => ?_
  have hagree := probe_results_agree hbackend hgraph config hreduced hfull
  refine (Ensures.orMissing fun _ => nofun).bind fun reduced hreducedResult => ?_
  refine (Ensures.orMissing fun _ => nofun).bind fun full hfullResult => ?_
  obtain rfl : reduced = full :=
    Option.some.inj (hreducedResult.symm.trans (hagree.trans hfullResult))
  refine (Ensures.require fun _ => nofun).bind fun _ _ => ?_
  refine (Ensures.require fun hne => absurd (probeEquivalent_self reduced htolerance) hne).bind
    fun _ _ => ?_
  refine (orRaised_other _).bind fun closure _ => ?_
  exact (Ensures.require fun _ => nofun).mono fun _ _ => trivial

/-- The loop over the probes of an exact engine does not fail at the equivalence. -/
theorem verifyProbes_other [CallStack] {backend : LinearAlgebraBackend Rat} (hbackend : backend.Exact)
    {graph : ContextGraph} (hgraph : graph.Constructed) (config : SparseEngineConfig)
    (blocks : List CandidateBlock) (requiredIds provenance : List String)
    (probes : List (String × List CandidateKind)) :
    Ensures VerificationFailure.Other (fun _ => True)
      (forEach (fun _ probe => verifyProbe (exactEngine backend config) config blocks graph
        requiredIds provenance probe) () probes) :=
  Ensures.forEach (fun _ _ => True) (fun probe _ _ _ => verifyProbe_other hbackend hgraph config blocks
    requiredIds provenance probe) trivial

section Verification

variable [UnicodeTables] [JsonReader]

/-- With an exact engine no candidate is rejected at the equivalence of its probes. -/
theorem verifyCandidateWith_other [CallStack] {backend : LinearAlgebraBackend Rat}
    (hbackend : backend.Exact)
    (config : SparseEngineConfig) (candidate : AuditedCandidate) :
    Ensures VerificationFailure.Other (fun _ => True)
      (verifyCandidateWith (exactEngine backend config) config candidate) := by
  have hblocks : Ensures VerificationFailure.Other (fun _ => True)
      (buildCandidateBlocks candidate) := by
    refine (Ensures.require fun _ => nofun).bind fun _ _ => ?_
    refine (Ensures.require fun _ => nofun).bind fun _ _ => ?_
    refine (orRaised_other _).bind fun blocks _ => ?_
    dsimp only
    split
    · exact trivial
    · exact trivial
  refine hblocks.bind fun blocks _ => ?_
  refine (Ensures.require fun _ => nofun).bind fun _ _ => ?_
  refine (Ensures.require fun _ => nofun).bind fun _ _ => ?_
  refine (Ensures.require fun _ => nofun).bind fun _ _ => ?_
  refine (Ensures.require fun _ => nofun).bind fun _ _ => ?_
  refine (orRaised_other _).bind fun built hbuilt => ?_
  obtain ⟨⟨hids, _⟩, ⟨hkept, _⟩, rfl⟩ := buildContextGraph_ok.mp (mapError_ok.mp hbuilt)
  exact (verifyProbes_other hbackend (builtGraph_constructed hids hkept) config blocks _ _ _).bind
    fun _ _ => trivial

/-- State reduction preserves the solution: for every positive definite operator, every compiled list of
constraints and every admissible list of retained indices in any order, an exact backend gives the
reduced solve the solution and the multipliers of the full one, without a reconstruction error; so no
candidate is rejected because its reduced and its full probes differ. -/
theorem state_reduction_preserves_solution [CallStack] :
    (∀ (K : Type) [Field K] [LinearOrder K] [IsStrictOrderedRing K]
      (backend : LinearAlgebraBackend K) (coordinates : List String) (rows : List ConstraintRow)
      (constraints : CompiledConstraints K) (matrix : CsrMatrix K) (rhs : List K)
      (retained : List Nat) (policy : SolvePolicy), backend.Exact →
      compileConstraints coordinates rows = .ok constraints →
      matrix.rowCount = coordinates.length → matrix.columns = coordinates.length →
      PositiveDefinite (matrix.toMatrix coordinates.length coordinates.length) →
      rhs.length = coordinates.length → AdmissibleRetained constraints coordinates retained →
      ∃ reduction projected full solution multipliers,
        reduceState matrix rhs constraints retained backend policy = .ok reduction ∧
        solveProjectedSystem reduction backend policy = .ok projected ∧
        solveConstrainedSystem matrix rhs constraints backend policy = .ok full ∧
        projected.solution = some solution ∧ full.solution = some solution ∧
        projected.multipliers = some multipliers ∧ full.multipliers = some multipliers ∧
        projected.reconstructionError = 0) ∧
    ∀ (backend : LinearAlgebraBackend Rat) (config : SparseEngineConfig), backend.Exact →
      (∀ (graph : ContextGraph) (probeId : String) (probeKinds : List CandidateKind)
        (provenance : List String) (reduced full : QueryActivation), graph.Constructed →
        probeActivation graph probeId probeKinds provenance false = .ok reduced →
        orRaised (queryActivation { reduced with retainedCoordinateIds := graph.coordinateIds }) =
          .ok full →
        sparseContextEngineSolve backend config graph reduced .active =
          sparseContextEngineSolve backend config graph full .active) ∧
      ∀ candidate, verifyCandidateWith (exactEngine backend config) config candidate ≠
        .error .probeEquivalence := by
  refine ⟨?_, fun backend config hbackend => ⟨?_, fun candidate herror => ?_⟩⟩
  · intro K _ _ _ backend coordinates rows constraints matrix rhs retained policy hbackend hcompiled
      hrows hcolumns hmatrix hrhs hretained
    have hsound := compileConstraints_sound hcompiled
    obtain ⟨reduction, projected, solution, multipliers, hreduction, hprojected, hexact⟩ :=
      reducedSolve_exact hbackend hsound hmatrix hrows hcolumns hrhs hretained policy
    obtain ⟨full, solution', multipliers', hfull, hexact'⟩ :=
      fullSolve_exact hbackend hsound hmatrix hrows hcolumns hrhs policy
    obtain ⟨rfl, rfl⟩ := solution_unique hsound hmatrix hexact.solutionLength hexact'.solutionLength
      hexact.multipliersLength hexact'.multipliersLength hexact.solves hexact'.solves
    exact ⟨reduction, projected, full, solution, multipliers, hreduction, hprojected, hfull,
      hexact.returned, hexact'.returned, hexact.returnedMultipliers, hexact'.returnedMultipliers,
      hexact.reconstructionError⟩
  · exact fun graph probeId probeKinds provenance reduced full hgraph hreduced hfull =>
      probe_results_agree hbackend hgraph config hreduced hfull
  · exact (verifyCandidateWith_other hbackend config candidate).error herror rfl

end Verification

namespace ReductionSample

/-- A diagonal operator. -/
def operator : CsrMatrix ℚ :=
  ⟨2, [[(0, 2)], [(1, 3)]], by decide +kernel⟩

/-- A row that fixes the first coordinate. -/
def rows : List ConstraintRow :=
  [⟨"fixed", [("goal", 1)], 1⟩]

/-- The operator is positive definite. -/
theorem operator_positive : PositiveDefinite (operator.toMatrix 2 2) := by
  have hvalues : operator.toMatrix 2 2 = squares ![2, 3] [] := by
    ext i j
    rw [squares_apply, List.map_nil, List.sum_nil, add_zero]
    fin_cases i <;> fin_cases j <;> simp [operator, CsrMatrix.toMatrix, CsrMatrix.entry, List.lookup_cons]
  rw [hvalues]
  exact squares_positiveDefinite one_pos (by decide +kernel) fun _ hmem => absurd hmem List.not_mem_nil

/-- The row is over the coordinates. -/
theorem rows_plain : ∀ row ∈ rows, row.Plain ["goal", "note"] := by
  intro row hrow
  obtain rfl := List.mem_singleton.mp hrow
  exact .inl ⟨"goal", by decide, rfl, .inr rfl⟩

/-- The row compiles. -/
theorem rows_compile [CallStack] : ∃ constraints : CompiledConstraints ℚ,
    compileConstraints ["goal", "note"] rows = .ok constraints := by
  have hnamed : "" ∉ ["goal", "note"] := by decide
  rcases compileConstraints_cases (K := ℚ) hnamed (by decide) rows_plain with
    ⟨_, ⟨constraints, hconstraints, _⟩ | ⟨_, hnone⟩⟩ | ⟨hdeep, _⟩
  · exact ⟨constraints, hconstraints⟩
  · refine absurd ⟨fun _ => 1, fun row hrow => ?_⟩ hnone
    obtain rfl := List.mem_singleton.mp hrow
    simp [ConstraintRow.Satisfied]
  · have hcalls := compileCalls_le ["goal", "note"] (classifiedRows rows)
    have hnone : equations (classifiedRows rows) = 0 := by decide +kernel
    have hroom := CallStack.room
    omega

end ReductionSample

open ReductionSample in
/-- With Cramer's rule the reduction to the fixed coordinate preserves the solution. -/
theorem state_reduction_preserves_solution_sample :
    ∃ (constraints : CompiledConstraints ℚ) (reduction : StateReduction ℚ)
      (projected : ProjectedSolveResult ℚ) (full : ConstrainedSolveResult ℚ) (solution : List ℚ),
      @compileConstraints defaultStack ℚ _ _ ["goal", "note"] rows = .ok constraints ∧
      reduceState operator [5, 7] constraints [0] cramerBackend {} = .ok reduction ∧
      solveProjectedSystem reduction cramerBackend {} = .ok projected ∧
      solveConstrainedSystem operator [5, 7] constraints cramerBackend {} = .ok full ∧
      projected.solution = some solution ∧ full.solution = some solution := by
  let _ := defaultStack
  let _ : UnicodeTables := ⟨fun text => text, fun c => c.isAlphanum⟩
  let _ : JsonReader := ⟨fun _ => none, fun _ => none⟩
  obtain ⟨constraints, hconstraints⟩ := rows_compile
  have hadmissible : AdmissibleRetained constraints ["goal", "note"] [0] := by
    refine ⟨by decide, by decide, fun coordinateId hmem => ?_⟩
    obtain ⟨_, row, hrow, hid⟩ := (supportCoordinateIds_iff hconstraints).mp hmem
    obtain rfl := List.mem_singleton.mp hrow
    obtain rfl := List.mem_singleton.mp hid
    decide
  obtain ⟨reduction, projected, full, solution, _, hreduction, hprojected, hfull, hsolution, hsolution',
    _⟩ := state_reduction_preserves_solution.1 ℚ cramerBackend ["goal", "note"] rows constraints
    operator [5, 7] [0] {} cramerBackend_exact hconstraints rfl rfl operator_positive rfl hadmissible
  exact ⟨constraints, reduction, projected, full, solution, hconstraints, hreduction, hprojected, hfull,
    hsolution, hsolution'⟩

end AstrContinuum
