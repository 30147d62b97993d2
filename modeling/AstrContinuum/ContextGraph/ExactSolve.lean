import AstrContinuum.ContextGraph.ExactReduction

/-!
# Exact projected solves

With an exact backend, the solution that is reconstructed from a reduction solves the whole system.
-/

namespace AstrContinuum

open Checked ConstrainedSystems Matrix

/-! ## Writing a vector -/

/-- Values written at distinct indices stand there, and the rest of the vector is unchanged. -/
theorem scatter_spec {K : Type} {indices : List Nat} (hnodup : indices.Nodup) :
    ∀ (vector : List K) {values : List K}, values.length = indices.length →
      (∀ index ∈ indices, index < vector.length) →
      (scatter vector indices values).length = vector.length ∧
        (∀ i, (hi : i < indices.length) →
          (scatter vector indices values)[indices[i]]? = values[i]?) ∧
        ∀ index, index ∉ indices → (scatter vector indices values)[index]? = vector[index]? := by
  unfold scatter
  induction indices with
  | nil => exact fun _ _ _ _ => ⟨rfl, fun _ hi => absurd hi (Nat.not_lt_zero _), fun _ _ => rfl⟩
  | cons index indices ih =>
      intro vector values hlength hwithin
      obtain ⟨hfresh, hrest⟩ := List.nodup_cons.mp hnodup
      cases values with
      | nil => cases hlength
      | cons value values =>
          have hindex := hwithin index List.mem_cons_self
          rw [List.length_cons, List.length_cons] at hlength
          obtain ⟨hcount, hat, hother⟩ := ih hrest (vector.set index value)
            (Nat.succ.inj hlength) fun other hmem => by
              rw [List.length_set]
              exact hwithin other (List.mem_cons_of_mem _ hmem)
          rw [List.zip_cons_cons, List.foldl_cons]
          refine ⟨hcount.trans List.length_set, fun i hi => ?_, fun other hne => ?_⟩
          · cases i with
            | zero =>
                rw [List.getElem_cons_zero, hother index hfresh, List.getElem?_set_self hindex,
                  List.getElem?_cons_zero]
            | succ i =>
                rw [List.getElem_cons_succ, List.getElem?_cons_succ]
                exact hat i (Nat.lt_of_succ_lt_succ hi)
          · rw [List.mem_cons, not_or] at hne
            rw [hother other hne.2, List.getElem?_set_ne fun heq => hne.1 heq.symm]

variable {K : Type} [Field K]

/-- The values written at distinct indices, as a part of the vector. -/
theorem toVector_scatter {size : Nat} {indices : List Nat} (hnodup : indices.Nodup)
    (h : ∀ index ∈ indices, index < size) {vector values : List K} (hvector : vector.length = size)
    (hvalues : values.length = indices.length) :
    toVector size (scatter vector indices values) ∘ position indices h =
      toVector indices.length values := by
  obtain ⟨_, hat, _⟩ := scatter_spec hnodup vector hvalues fun index hmem => hvector ▸ h index hmem
  funext i
  have hi := hat i i.isLt
  unfold toVector
  rw [Function.comp_apply, List.getD_eq_getElem?_getD, List.getD_eq_getElem?_getD, ← hi]
  rfl

/-- A part of the vector without the indices is unchanged. -/
theorem toVector_scatter_other {size : Nat} {indices others : List Nat} (hnodup : indices.Nodup)
    (h : ∀ index ∈ indices, index < size) (hothers : ∀ index ∈ others, index < size)
    (hdisjoint : ∀ index ∈ others, index ∉ indices) {vector values : List K}
    (hvector : vector.length = size) (hvalues : values.length = indices.length) :
    toVector size (scatter vector indices values) ∘ position others hothers =
      toVector size vector ∘ position others hothers := by
  obtain ⟨_, _, hother⟩ := scatter_spec hnodup vector hvalues fun index hmem => hvector ▸ h index hmem
  funext i
  have hi := hother others[i] (hdisjoint _ (List.getElem_mem i.isLt))
  unfold toVector
  rw [Function.comp_apply, Function.comp_apply, List.getD_eq_getElem?_getD,
    List.getD_eq_getElem?_getD]
  exact congrArg (fun value => value.getD 0) hi

/-! ## Norms -/

section Norms

variable [LinearOrder K] [IsStrictOrderedRing K]

omit [Field K] [IsStrictOrderedRing K] in
/-- A running maximum is not below its start. -/
theorem le_foldl_max {α : Type} (f : α → K) (items : List α) (start : K) :
    start ≤ items.foldl (fun maximum item => max maximum (f item)) start := by
  induction items generalizing start with
  | nil => exact le_refl _
  | cons item items ih => exact (le_max_left _ _).trans (ih _)

omit [IsStrictOrderedRing K] in
/-- The norm of a matrix is not negative. -/
theorem infinityNorm_nonneg (matrix : CsrMatrix K) : 0 ≤ matrix.infinityNorm :=
  le_foldl_max _ _ _

omit [IsStrictOrderedRing K] in
/-- The norm of a vector is not negative. -/
theorem vectorInfinityNorm_nonneg (vector : List K) : 0 ≤ vectorInfinityNorm vector :=
  le_foldl_max id _ _

/-- The difference of a vector with itself has no norm. -/
theorem vectorInfinityNorm_subtract_self (vector : List K) :
    vectorInfinityNorm (subtract vector vector) = 0 := by
  unfold vectorInfinityNorm subtract
  induction vector with
  | nil => rfl
  | cons value vector ih =>
      rw [List.zipWith_cons_cons, List.map_cons, List.foldl_cons, sub_self, abs_zero, max_self]
      exact ih

omit [IsStrictOrderedRing K] in
/-- Nothing is no error in relation to a scale that is not negative. -/
theorem relativeError_zero {denominator : K} (h : 0 ≤ denominator) :
    relativeError 0 denominator = 0 := by
  unfold relativeError
  by_cases hzero : denominator = 0
  · rw [if_pos ⟨rfl, hzero⟩]
  · rw [if_neg fun hboth => hzero hboth.2, if_pos (lt_of_le_of_ne h fun heq => hzero heq.symm),
      zero_div, WithTop.coe_zero]

end Norms

/-! ## The projected solve -/

section Projected

variable [LinearOrder K] [IsStrictOrderedRing K] {matrix : CsrMatrix K} {rhs : List K}
  {constraints : CompiledConstraints K} {retained : List Nat} {size count : Nat}

/-- What an exact solve of a reduced system returns. -/
structure ProjectedSolveResult.Exact (result : ProjectedSolveResult K) (matrix : CsrMatrix K)
    (constraints : CompiledConstraints K) (rhs : List K) (size count : Nat)
    (solution multipliers : List K) : Prop where
  status : result.status = .converged
  returned : result.solution = some solution
  returnedMultipliers : result.multipliers = some multipliers
  solutionLength : solution.length = size
  multipliersLength : multipliers.length = count
  solves : Solves (matrix.toMatrix size size) (constraints.matrix.toMatrix count size)
    (toVector size rhs) (toVector count constraints.rhs) (toVector size solution)
    (toVector count multipliers)
  reconstructionError : result.reconstructionError = 0

omit [IsStrictOrderedRing K] in
/-- The rows of the eliminated coordinates leave no residual. -/
theorem eliminated_rows_exact (hrows : matrix.rowCount = size) (hcolumns : matrix.columns = size)
    {eliminated : List Nat} (hnodup : eliminated.Nodup) (h : ∀ index ∈ eliminated, index < size)
    {solution : List K} (hlength : solution.length = size)
    (hsolution : (matrix.toMatrix size size *ᵥ toVector size solution) ∘ position eliminated h =
      toVector size rhs ∘ position eliminated h) :
    ∃ part, matrix.submatrix eliminated (List.range matrix.columns) = .ok part ∧
      part.matvec solution = .ok (gather rhs eliminated) := by
  obtain ⟨part, hpart, hpartRows, hpartColumns, hentry⟩ := submatrix_returns matrix hnodup
    List.nodup_range (hrows.symm ▸ h) fun _ => List.mem_range.mp
  rw [List.length_range, hcolumns] at hpartColumns
  have hproduct : part.matvec solution = .ok (part.rows.map (CsrMatrix.rowProduct solution)) :=
    require_bind_pos (hlength.trans hpartColumns.symm)
  have hproductLength : (part.rows.map (CsrMatrix.rowProduct solution)).length =
      eliminated.length := (List.length_map _).trans hpartRows
  have hgather : (gather rhs eliminated).length = eliminated.length := List.length_map _
  refine ⟨part, hpart, hproduct.trans (congrArg Except.ok ?_)⟩
  refine toVector_injective hproductLength hgather ?_
  have hvalues : part.toMatrix eliminated.length size =
      (matrix.toMatrix size size).submatrix (position eliminated h) id := by
    ext i j
    have hj : (j : Nat) < (List.range matrix.columns).length := by
      rw [List.length_range, hcolumns]
      exact j.isLt
    have hvalue := hentry i j i.isLt hj
    rwa [List.getElem_range] at hvalue
  rw [toVector_rowProducts hpartRows hpartColumns hlength, toVector_gather rhs h, ← hsolution,
    hvalues]
  rfl

/-- With an exact backend the reduced system is solved, and its reconstruction solves the whole
system. -/
theorem solveProjectedSystem_exact {backend : LinearAlgebraBackend K} (hbackend : backend.Exact)
    (hmatrix : PositiveDefinite (matrix.toMatrix size size)) (hrows : matrix.rowCount = size)
    (hcolumns : matrix.columns = size)
    (hindependent : RowsIndependent (constraints.matrix.toMatrix count size))
    (hnodup : retained.Nodup) (h : ∀ index ∈ retained, index < size)
    (hnone : ∀ k j, constraints.matrix.toMatrix count size k
      (position (unretainedIndices size retained) unretainedIndices_lt j) = 0)
    {reduction : StateReduction K}
    {z : Matrix (Fin (unretainedIndices size retained).length) (Fin retained.length) K}
    {o : Fin (unretainedIndices size retained).length → K}
    (hreduction : reduction.Exact matrix rhs constraints retained size count h z o)
    (policy : SolvePolicy) :
    ∃ result solution multipliers, solveProjectedSystem reduction backend policy = .ok result ∧
      result.Exact matrix constraints rhs size count solution multipliers := by
  have hsplit := splits_positions hnodup h
  have hprojected := hreduction.projected
  have hunique : ∀ x y, Solves (reduction.reducedMatrix.toMatrix retained.length retained.length)
      (reduction.projectedConstraints.matrix.toMatrix count retained.length) 0 0 x y →
      x = 0 ∧ y = 0 := by
    rw [hreduction.values, hprojected.values]
    exact fun _ _ hsolves =>
      hreduction.elimination.reduced_eq_zero hsplit hmatrix hindependent hnone hsolves
  obtain ⟨inner, part, multipliers, hinner, hinnerExact⟩ := solveConstrainedSystem_exact hbackend
    hreduction.rows hreduction.columns hprojected.columns hprojected.rows hreduction.rhsLength
    hunique policy
  obtain ⟨hcount, hvalues⟩ := hreduction.reconstructs part hinnerExact.solutionLength
  have hoperator : ∀ row ∈ reduction.reconstructionOperator, row.length ≤ part.length :=
    fun row hrow => by rw [hreduction.operatorRows row hrow, hinnerExact.solutionLength]
  generalize heliminated : List.zipWith (reconstruct part) reduction.reconstructionOffset
    reduction.reconstructionOperator = eliminatedSolution at hcount hvalues
  generalize hwritten : scatter (List.replicate size 0) retained part = written
  generalize hfull : scatter written (unretainedIndices size retained) eliminatedSolution = full
  have hzeros : (List.replicate size (0 : K)).length = size := List.length_replicate
  have hwrittenLength : written.length = size := by
    rw [← hwritten]
    exact (scatter_spec hnodup _ hinnerExact.solutionLength fun index hmem =>
      hzeros.symm ▸ h index hmem).1.trans hzeros
  have hfullLength : full.length = size := by
    rw [← hfull]
    exact (scatter_spec (unretainedIndices_nodup size retained) _ hcount fun index hmem =>
      hwrittenLength.symm ▸ unretainedIndices_lt index hmem).1.trans hwrittenLength
  have hretainedPart : toVector size full ∘ position retained h = toVector retained.length part := by
    rw [← hfull, toVector_scatter_other (unretainedIndices_nodup size retained)
      unretainedIndices_lt h (fun index hmem hother => (mem_unretainedIndices.mp hother).2 hmem)
      hwrittenLength hcount, ← hwritten]
    exact toVector_scatter hnodup h hzeros hinnerExact.solutionLength
  have heliminatedPart : toVector size full ∘ position _ unretainedIndices_lt =
      o - z *ᵥ (toVector size full ∘ position retained h) := by
    rw [hretainedPart, ← hvalues, ← hfull]
    exact toVector_scatter (unretainedIndices_nodup size retained) unretainedIndices_lt
      hwrittenLength hcount
  have hsolves : Solves (matrix.toMatrix size size) (constraints.matrix.toMatrix count size)
      (toVector size rhs) (toVector count constraints.rhs) (toVector size full)
      (toVector count multipliers) := by
    refine (hreduction.elimination.solves_iff hsplit hnone heliminatedPart).mp ?_
    have hreduced := hinnerExact.solves
    rw [hreduction.values, hprojected.values, hreduction.rhsValues, hprojected.rhs,
      ← hretainedPart] at hreduced
    exact hreduced
  have hstationary : (matrix.toMatrix size size *ᵥ toVector size full) ∘
      position (unretainedIndices size retained) unretainedIndices_lt =
        toVector size rhs ∘ position (unretainedIndices size retained) unretainedIndices_lt := by
    have hdual : (toVector count multipliers ᵥ* constraints.matrix.toMatrix count size) ∘
        position (unretainedIndices size retained) unretainedIndices_lt = 0 := by
      funext j
      show ∑ k, toVector count multipliers k * constraints.matrix.toMatrix count size k
        (position (unretainedIndices size retained) unretainedIndices_lt j) = 0
      exact Finset.sum_eq_zero fun k _ => mul_eq_zero_of_right _ (hnone k j)
    have hat := congrArg
      (fun v => v ∘ position (unretainedIndices size retained) unretainedIndices_lt)
      hsolves.stationary
    simp only [Pi.add_comp, hdual, add_zero] at hat
    exact hat
  obtain ⟨rows, hrowsPart, hproduct⟩ := eliminated_rows_exact hrows hcolumns
    (unretainedIndices_nodup size retained) unretainedIndices_lt hfullLength hstationary
  refine ⟨⟨inner.status, some full, inner.multipliers, inner.backendName, inner.backwardError,
    inner.conditionEstimate, 0⟩, full, multipliers, bind_ok.mpr ⟨inner, hinner, ?_⟩,
    hinnerExact.status, rfl, hinnerExact.returnedMultipliers, hfullLength,
    hinnerExact.multipliersLength, hsolves, rfl⟩
  rw [hinnerExact.returned]
  dsimp only
  rw [require_bind_pos hoperator, hreduction.originalMatrix, hreduction.originalRhs,
    hreduction.retainedIndices, hreduction.eliminatedIndices, hrows, heliminated, hwritten, hfull,
    orValueError_ok.mpr hrowsPart]
  refine bind_ok.mpr ⟨rows, rfl, bind_ok.mpr ⟨_, orValueError_ok.mpr hproduct, ?_⟩⟩
  rw [vectorInfinityNorm_subtract_self, relativeError_zero]
  · rfl
  · exact add_nonneg (mul_nonneg (infinityNorm_nonneg _) (vectorInfinityNorm_nonneg _))
      (vectorInfinityNorm_nonneg _)

end Projected

end AstrContinuum
