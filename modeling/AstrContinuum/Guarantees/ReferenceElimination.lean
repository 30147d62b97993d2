import AstrContinuum.ContextGraph.ReferenceBackend
import AstrContinuum.Guarantees.SparseMatrix

/-!
# The reference backend is exact

`reference_elimination` is about `PythonReferenceBackend.solve` over exact numbers: what it returns as a
solution solves the system without an error, a singular matrix is reported as one, and the pivots that the
elimination leaves all pass the test of the back substitution.
-/

namespace AstrContinuum

open Checked Matrix

variable {K : Type} [Field K]

/-- The matrix maps a vector other than zero to zero. -/
def CsrArrays.Singular (matrix : CsrArrays K) : Prop :=
  ∃ x : Fin matrix.columns → K, x ≠ 0 ∧ matrix.denoted *ᵥ x = 0

/-- The equations of a square matrix. -/
theorem CsrArrays.solves_iff (matrix : CsrArrays K) (hsquare : matrix.rows = matrix.columns)
    {rhs x : List K} (hrhs : rhs.length = matrix.rows) (hx : x.length = matrix.columns) :
    Elimination.Solves matrix.rows matrix.entry (fun i => rhs.getD i 0) (fun j => x.getD j 0) ↔
      matrix.matvec x = .ok rhs := by
  obtain ⟨y, hy, hlength, hvalues⟩ := matrix.matvec_agrees hx
  have hrow (i : Nat) (hi : i < matrix.rows) : y.getD i 0 =
      ∑ j ∈ Finset.range matrix.rows, matrix.entry i j * x.getD j 0 := by
    rw [hsquare, Finset.sum_range]
    exact congrFun hvalues ⟨i, hi⟩
  rw [hy, Except.ok.injEq]
  constructor
  · intro h
    refine toVector_injective hlength hrhs (funext fun i => ?_)
    exact (hrow i i.isLt).trans (h i i.isLt)
  · rintro rfl i hi
    exact (hrow i hi).symm

variable [LinearOrder K] [IsStrictOrderedRing K] {matrix : CsrArrays K} {rhs : List K}

omit [IsStrictOrderedRing K] in
/-- The norm of a matrix is not negative. -/
theorem CsrArrays.infinityNorm_nonneg (matrix : CsrArrays K) : 0 ≤ matrix.infinityNorm :=
  le_foldl_max _ _ _

/-- The pivot tolerance is not negative. -/
theorem pivotTolerance_nonneg (matrix : CsrArrays K) : 0 ≤ pivotTolerance matrix := by
  unfold pivotTolerance
  have hnorm := matrix.infinityNorm_nonneg
  positivity

/-- A solution has no backward error. -/
theorem backwardError_zero {solution : List K} (h : matrix.matvec solution = .ok rhs) :
    backwardError matrix solution rhs = .ok 0 := by
  unfold backwardError
  rw [h]
  refine (require_bind_pos rfl).trans ?_
  simp only [vectorInfinityNorm_subtract_self, zero_div, if_true, WithTop.coe_zero, ite_self]
  rfl

/-- A system that is eliminated has a solution, and no other. -/
theorem Eliminated.solution (hsquare : matrix.rows = matrix.columns) (hrhs : rhs.length = matrix.rows)
    {dense : List (List K)} (hvalues : ∀ i j, denseAt dense i j = matrix.entry i j) {tolerance : K}
    {working : Working K}
    (h : Eliminated tolerance matrix.rows matrix.rows ⟨dense, rhs, []⟩ working) :
    ¬ matrix.Singular ∧ ∃ solution, backSubstitute tolerance matrix.rows working = .ok solution ∧
      matrix.matvec solution = .ok rhs := by
  obtain ⟨solution, hsolution, hlength, hsolves⟩ := backSubstitute_returns h
  have hdense : denseAt dense = matrix.entry := funext fun i => funext fun j => hvalues i j
  have hstart := (h.solves _).mp hsolves
  unfold Working.Solves at hstart
  rw [hdense] at hstart
  refine ⟨?_, solution, hsolution, (matrix.solves_iff hsquare hrhs (hlength.trans hsquare)).mp hstart⟩
  rintro ⟨x, hne, hzero⟩
  -- A vector that is mapped to zero can be added to the solution.
  let shifted (j : Nat) : K := solution.getD j 0 + if hj : j < matrix.columns then x ⟨j, hj⟩ else 0
  have hshifted : working.Solves matrix.rows shifted := by
    refine (h.solves shifted).mpr fun i hi => ?_
    have hrow : ∑ j ∈ Finset.range matrix.rows, matrix.entry i j *
        (if hj : j < matrix.columns then x ⟨j, hj⟩ else 0) = 0 := by
      rw [hsquare, Finset.sum_range]
      have hzero := congrFun hzero ⟨i, hi⟩
      simpa [CsrArrays.denoted, mulVec, dotProduct] using hzero
    simp only [hdense, shifted, mul_add, Finset.sum_add_distrib, hrow, add_zero]
    exact hstart i hi
  refine hne (funext fun j => ?_)
  have hj : (j : Nat) < matrix.rows := j.isLt.trans_eq hsquare.symm
  have hsame := h.reduced.unique hsolves hshifted j hj
  simpa [shifted] using hsame

/-- A solution that the backend returns solves the system without an error, a singular matrix is reported as
singular, and the back substitution never fails after the elimination. -/
theorem reference_elimination (policy : ReferencePolicy K) (hsquare : matrix.rows = matrix.columns)
    (hrhs : rhs.length = matrix.rows)
    (hcapacity : matrix.rows ≤ policy.pythonMaxN ∧ matrix.data.length ≤ policy.pythonMaxNnz) :
    (∃ result, referenceSolve matrix rhs policy = .ok result ∧
      (∀ solution, result.solution = some solution →
        matrix.matvec solution = .ok rhs ∧ result.backwardError = 0) ∧
      (matrix.Singular → result.status = .singular)) ∧
    ∀ dense working, matrix.toDense 64 (64 * 64 * 8) = .ok dense →
      eliminateColumns (pivotTolerance matrix) matrix.rows ⟨dense, rhs, []⟩ = .ok working →
      ∃ solution, backSubstitute (pivotTolerance matrix) matrix.rows working = .ok solution := by
  obtain ⟨_, _, _, _, hmaxN, _, _⟩ := policy.valid
  have hrows : matrix.rows ≤ 64 := hcapacity.1.trans hmaxN
  have hbytes : matrix.rows * matrix.columns * 8 ≤ 64 * 64 * 8 := by
    rw [← hsquare]
    exact Nat.mul_le_mul_right 8 (Nat.mul_le_mul hrows hrows)
  obtain ⟨dense, hdense, hshape, hvalues⟩ := matrix.toDense_ok (show 0 < 64 ∧ 0 < 64 * 64 * 8 by decide)
    ⟨by rw [← hsquare, max_self]; exact hrows, hbytes⟩
  have heliminated {working : Working K}
      (h : eliminateColumns (pivotTolerance matrix) matrix.rows ⟨dense, rhs, []⟩ = .ok working) :=
    (eliminateColumns_ok (pivotTolerance_nonneg matrix) (hsquare ▸ hshape) hrhs h).solution hsquare hrhs
      hvalues
  refine ⟨?_, fun other working hother h => ?_⟩
  · have hinput : ¬ (matrix.rows ≠ matrix.columns ∨ rhs.length ≠ matrix.rows) :=
      not_or.mpr ⟨not_not.mpr hsquare, not_not.mpr hrhs⟩
    have hwithin : ¬ (policy.pythonMaxN < matrix.rows ∨ policy.pythonMaxNnz < matrix.data.length) := by
      omega
    unfold referenceSolve
    dsimp only
    rw [if_neg hinput, if_neg hwithin]
    by_cases hempty : matrix.rows = 0
    · rw [if_pos hempty]
      refine ⟨_, rfl, fun solution hsolution => ⟨?_, rfl⟩, fun ⟨x, hne, _⟩ => absurd ?_ hne⟩
      · obtain rfl := Option.some.inj hsolution
        exact (matrix.solves_iff (x := []) hsquare hrhs (hempty.symm.trans hsquare)).mp fun i hi =>
          absurd hi (by omega)
      · exact funext fun j => absurd (j.isLt.trans_eq hsquare.symm) (by omega)
    · rw [if_neg hempty, hdense]
      change ∃ result, (if matrix.infinityNorm = 0 then _ else _) = _ ∧ _
      split
      · exact ⟨_, rfl, (fun _ hnone => nomatch hnone), fun _ => rfl⟩
      · cases hrun : eliminateColumns (pivotTolerance matrix) matrix.rows ⟨dense, rhs, []⟩ with
        | error status =>
            exact ⟨_, rfl, (fun _ hnone => nomatch hnone), fun _ => eliminateColumns_error hrun⟩
        | ok working =>
            obtain ⟨hregular, solution, hsolution, hproduct⟩ := heliminated hrun
            dsimp only
            rw [hsolution]
            dsimp only
            rw [backwardError_zero hproduct]
            change ∃ result, (if conditionFailed _ _ then _ else _) = _ ∧ _
            split
            · exact ⟨_, rfl, (fun _ hnone => nomatch hnone), fun hsingular => absurd hsingular hregular⟩
            · refine ⟨_, rfl, fun other hother => ⟨?_, rfl⟩, fun hsingular => absurd hsingular hregular⟩
              obtain rfl := Option.some.inj hother
              exact hproduct
  · obtain rfl := Except.ok.inj (hdense.symm.trans hother)
    obtain ⟨_, solution, hsolution, _⟩ := heliminated h
    exact ⟨solution, hsolution⟩

/-- A matrix whose rows have to be exchanged. -/
def exchangeMatrix : CsrArrays ℚ :=
  ⟨⟨2, 2, [0, 1, 2], [1, 0], [1, 2]⟩, CsrData.postInit_ok.mp (by decide)⟩

/-- The default thresholds. -/
def defaultReferencePolicy : ReferencePolicy ℚ :=
  ⟨1 / 10 ^ 10, 10 ^ 12, 10 ^ 14, 64, 4096, by norm_num⟩

/-- A system that is solved with an exchange of its rows. -/
theorem reference_elimination_exchange :
    ∃ result, referenceSolve exchangeMatrix [3, 4] defaultReferencePolicy = .ok result ∧
      (∀ solution, result.solution = some solution →
        exchangeMatrix.matvec solution = .ok [3, 4] ∧ result.backwardError = 0) ∧
      (exchangeMatrix.Singular → result.status = .singular) :=
  (reference_elimination defaultReferencePolicy rfl rfl (by decide)).1

end AstrContinuum
