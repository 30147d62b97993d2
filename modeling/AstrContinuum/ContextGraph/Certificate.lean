import AstrContinuum.ContextGraph.CompiledSolutions
import AstrContinuum.ContextGraph.ExactEngine

/-!
# Exact certificates

The errors that the engine computes of a solution: both are zero where the solution solves the system
and satisfies the rows.
-/

namespace AstrContinuum

open Checked ConstrainedSystems Matrix

/-! ## The rows -/

section Rows

variable {K : Type} [Field K] [LinearOrder K] {coordinates : List String}
  {rows : List ConstraintRow} {constraints : CompiledConstraints K}

omit [LinearOrder K] in
/-- The entries of a row at a column. -/
theorem totalAt_terms (terms : List (String × Rat)) (k j : Nat) :
    totalAt (terms.map fun term => (k, coordinates.idxOf term.1, (term.2 : K))) k j =
      (terms.map fun term => if coordinates.idxOf term.1 = j then (term.2 : K) else 0).sum := by
  induction terms with
  | nil => rfl
  | cons term terms ih =>
      rw [List.map_cons, totalAt_cons, ih, List.map_cons, List.sum_cons]
      simp only [true_and]

omit [LinearOrder K] in
/-- The values of a row give its left side. -/
theorem sum_terms {terms : List (String × Rat)} (hnodup : coordinates.Nodup)
    (hterms : ∀ term ∈ terms, term.1 ∈ coordinates) (vector : List K) :
    ∑ j : Fin coordinates.length,
        (terms.map fun term => if coordinates.idxOf term.1 = j then (term.2 : K) else 0).sum *
          toVector coordinates.length vector j =
      (terms.map fun term => (term.2 : K) * assignment coordinates vector term.1).sum := by
  induction terms with
  | nil => simp
  | cons term terms ih =>
      have hmem := hterms term List.mem_cons_self
      have hplace (j : Fin coordinates.length) :
          coordinates.idxOf term.1 = j ↔ term.1 = coordinates.get j := by
        constructor
        · intro heq
          have hget := List.getElem_idxOf (List.idxOf_lt_length_iff.mpr hmem)
          simp only [heq] at hget
          exact hget.symm
        · intro heq
          rw [heq]
          exact hnodup.idxOf_getElem j j.isLt
      have hfirst := sum_column hnodup hmem (term.2 : K) vector
      simp only [List.map_cons, List.sum_cons, add_mul, Finset.sum_add_distrib, hplace]
      rw [hfirst, ih fun other hother => hterms other (List.mem_cons_of_mem _ hother)]

/-- The certificate matrix gives the left sides of the rows. -/
theorem certificate_product [CallStack] (hcompiled :
    compileConstraints coordinates rows = .ok constraints)
    {vector : List K} (hlength : vector.length = coordinates.length)
    (hsatisfied : ∀ row ∈ rows, row.Satisfied (assignment coordinates vector)) :
    constraints.certificateMatrix.matvec vector = .ok constraints.certificateRhs := by
  have hdistinct := (compileConstraints_sound hcompiled).distinct
  obtain ⟨_, _, h⟩ := bind_ok.mp hcompiled
  obtain ⟨parsed, hparsed, h⟩ := bind_ok.mp h
  obtain ⟨solved, _, h⟩ := bind_ok.mp h
  obtain ⟨matrix, _, h⟩ := bind_ok.mp h
  obtain ⟨certificateMatrix, hcertificate, h⟩ := bind_ok.mp h
  unfold compiledConstraints at h
  split_ifs at h with hvalid
  obtain rfl := Except.ok.inj h
  have hterms := parseRows_known hparsed
  obtain ⟨certificate, hreturned, hrowCount, hcolumnCount, hentries⟩ :=
    fromEntries_returns (certificateEntries_within (K := K) hterms)
  obtain rfl : certificate = certificateMatrix :=
    Except.ok.inj (hreturned.symm.trans (orValueError_ok.mp hcertificate))
  have hproduct : certificate.matvec vector =
      .ok (certificate.rows.map (CsrMatrix.rowProduct vector)) :=
    require_bind_pos (hlength.trans hcolumnCount.symm)
  have hvalues := toVector_rowProducts hrowCount hcolumnCount hlength
  show certificate.matvec vector = .ok (rows.map fun row => (row.rhs : K))
  rw [hproduct, toVector_injective ((List.length_map _).trans hrowCount) (List.length_map _) ?_]
  rw [hvalues]
  funext k
  have hrow (j : Fin coordinates.length) : certificate.entry k j =
      (rows[(k : Nat)].terms.map fun term =>
        if coordinates.idxOf term.1 = j then (term.2 : K) else 0).sum := by
    have htotal := totalAt_zipIdx (fun (row : ConstraintRow) index =>
      row.terms.map fun term => (index, coordinates.idxOf term.1, (term.2 : K)))
      (fun _ _ entry hentry => by obtain ⟨_, _, rfl⟩ := List.mem_map.mp hentry; rfl) rows k j
    rw [List.getElem?_eq_getElem k.isLt, Option.elim_some, totalAt_terms] at htotal
    exact (hentries k j).trans htotal
  have hleft := sum_terms (K := K) hdistinct (hterms _ (List.getElem_mem k.isLt)) vector
  have hright : toVector rows.length (rows.map fun row => (row.rhs : K)) k =
      (rows[(k : Nat)].rhs : K) := by
    unfold toVector
    rw [List.getD_eq_getElem _ _ (by rw [List.length_map]; exact k.isLt), List.getElem_map]
  rw [hright, ← hsatisfied _ (List.getElem_mem k.isLt), ← hleft]
  show ∑ j : Fin coordinates.length, certificate.entry k j *
    toVector coordinates.length vector j = _
  exact Finset.sum_congr rfl fun j _ => congrArg (· * toVector coordinates.length vector j) (hrow j)

end Rows

/-! ## Errors -/

/-- A residual of zeros is no error. -/
theorem normalizedResidual_zero {residual : List Rat} (h : vectorInfinityNorm residual = 0)
    (denominator : Rat) : normalizedResidual residual denominator = 0 := by
  unfold normalizedResidual
  dsimp only
  rw [h, if_pos rfl]
  split_ifs
  · rfl
  · rw [zero_div, WithTop.coe_zero]

/-- A vector of zeros has no norm. -/
theorem vectorInfinityNorm_replicate (size : Nat) :
    vectorInfinityNorm (List.replicate size (0 : Rat)) = 0 := by
  unfold vectorInfinityNorm
  induction size with
  | zero => rfl
  | succ size ih =>
      rw [List.replicate_succ, List.map_cons, List.foldl_cons, abs_zero, max_self]
      exact ih

section Errors

variable {coordinates : List String} {constraints : CompiledConstraints Rat}
  {operator : CsrMatrix Rat} {query solution multipliers : List Rat}

/-- A solution of the system has no stationarity error. -/
theorem stationarityError_zero (hsound : constraints.Sound coordinates)
    (hrows : operator.rowCount = coordinates.length)
    (hcolumns : operator.columns = coordinates.length) (hquery : query.length = coordinates.length)
    (hsolution : solution.length = coordinates.length)
    (hmultipliers : multipliers.length = constraints.matrix.rowCount)
    (hstationary : operator.toMatrix coordinates.length coordinates.length *ᵥ
        toVector coordinates.length solution +
      toVector constraints.matrix.rowCount multipliers ᵥ*
        constraints.matrix.toMatrix constraints.matrix.rowCount coordinates.length =
      toVector coordinates.length query) :
    stationarityError operator query constraints solution multipliers = .ok 0 := by
  obtain ⟨product, hproduct, hproductLength, hproductValues⟩ :=
    matvec_returns operator (hsolution.trans hcolumns.symm)
  obtain ⟨dual, hdual, hdualLength, hdualValues⟩ :=
    transposeMatvec_returns constraints.matrix hmultipliers
  rw [hrows, hcolumns] at hproductValues
  rw [hsound.columns] at hdualLength hdualValues
  rw [hrows] at hproductLength
  generalize hresidual : List.zipWith (fun difference constraintValue => difference + constraintValue)
    (subtract product query) dual = residual
  have hdifferenceLength : (subtract product query).length = coordinates.length := by
    unfold subtract
    rw [List.length_zipWith, hproductLength, hquery, Nat.min_self]
  have hresidualLength : residual.length = coordinates.length := by
    rw [← hresidual, List.length_zipWith, hdifferenceLength, hdualLength, Nat.min_self]
  have hzero : residual = List.replicate coordinates.length 0 := by
    refine toVector_injective hresidualLength List.length_replicate ?_
    rw [toVector_replicate, ← hresidual]
    funext k
    have hk := congrFun hstationary k
    rw [toVector_zipWith _ hdifferenceLength hdualLength, toVector_subtract hproductLength hquery,
      hdualValues, hproductValues, Pi.sub_apply, ← hk, Pi.add_apply, Pi.zero_apply]
    ring
  unfold stationarityError
  refine bind_ok.mpr ⟨product, orValueError_ok.mpr hproduct,
    bind_ok.mpr ⟨dual, orValueError_ok.mpr hdual, ?_⟩⟩
  dsimp only
  rw [hresidual, hzero, normalizedResidual_zero (vectorInfinityNorm_replicate _)]
  rfl

/-- A solution of the rows has no constraint error. -/
theorem constraintError_zero
    (hproduct : constraints.certificateMatrix.matvec solution = .ok constraints.certificateRhs) :
    constraintError constraints solution = .ok 0 := by
  unfold constraintError
  refine bind_ok.mpr ⟨_, orValueError_ok.mpr hproduct, ?_⟩
  dsimp only
  rw [normalizedResidual_zero (vectorInfinityNorm_subtract_self _)]
  rfl

/-- A solution of the system that satisfies the rows is certified without an error. -/
theorem finishSolve_exact [CallStack] {graph : ContextGraph} {rows : List ConstraintRow}
    (hcompiled : compileConstraints graph.coordinateIds rows = .ok constraints)
    (hrows : operator.rowCount = graph.coordinateIds.length)
    (hcolumns : operator.columns = graph.coordinateIds.length)
    (hquery : query.length = graph.coordinateIds.length) {solved : EngineSolve}
    (hsolved : solved.Exact operator query constraints graph.coordinateIds.length solution
      multipliers)
    (hsatisfied : ∀ row ∈ rows, row.Satisfied (assignment graph.coordinateIds solution))
    (config : SparseEngineConfig) (activation : QueryActivation) (mode : ContextEngineMode) :
    finishSolve config graph activation mode operator query constraints solved =
      certify config graph activation mode (graph.coordinateIds.zip solution) 0 0 0 := by
  have hstationarity := stationarityError_zero (compileConstraints_sound hcompiled) hrows hcolumns
    hquery hsolved.solutionLength hsolved.multipliersLength hsolved.solves.stationary
  have hconstraint := constraintError_zero
    (certificate_product hcompiled hsolved.solutionLength hsatisfied)
  have haccepted : SolveStatus.converged.accepted ⟨config.allowLeastSquares⟩ = true :=
    decide_eq_true (.inl rfl)
  have herrors : solutionErrors operator query constraints solution multipliers = .ok (0, 0) := by
    unfold solutionErrors
    exact bind_ok.mpr ⟨0, hstationarity, bind_ok.mpr ⟨0, hconstraint, rfl⟩⟩
  rw [hsolved.result]
  unfold finishSolve
  dsimp only
  rw [if_neg (not_not.mpr haccepted), herrors]

end Errors

end AstrContinuum
