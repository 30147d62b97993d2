import Mathlib.LinearAlgebra.Matrix.ToLinearEquiv
import AstrContinuum.ContextGraph.Solver

/-!
# A backend that is exact

Cramer's rule, as a backend: every nonsingular system is solved without an error.
-/

namespace AstrContinuum

open Checked Matrix

variable {K : Type} [Field K] [DecidableEq K]

/-- The backend that solves by Cramer's rule. -/
def cramerBackend : LinearAlgebraBackend K where
  solve matrix rhs _ :=
    let size := matrix.rowCount
    let values := matrix.toMatrix size size
    if values.det = 0 ∨ matrix.columns ≠ size then ⟨.singular, none, "cramer", ⊤, none⟩
    else ⟨.converged, some (List.ofFn (values.det⁻¹ • values.cramer (toVector size rhs))), "cramer",
      0, none⟩

omit [DecidableEq K] in
/-- The values of a nonsingular matrix have a determinant. -/
theorem CsrMatrix.Nonsingular.det_ne_zero {matrix : CsrMatrix K} (h : matrix.Nonsingular) :
    (matrix.toMatrix matrix.rowCount matrix.rowCount).det ≠ 0 := by
  intro hdet
  obtain ⟨x, hne, hx⟩ := Matrix.exists_mulVec_eq_zero_iff.mpr hdet
  have hcolumns : (List.ofFn x).length = matrix.columns := List.length_ofFn.trans h.square
  obtain ⟨product, hproduct, hlength, hvalues⟩ := matvec_returns matrix hcolumns
  rw [← h.square, toVector_ofFn, hx] at hvalues
  have hzero : product = List.replicate matrix.rowCount 0 :=
    toVector_injective hlength List.length_replicate (hvalues.trans (toVector_replicate _).symm)
  have hlist := h.injective _ (hzero ▸ hproduct)
  refine hne ?_
  rw [← toVector_ofFn x, hlist, ← h.square, toVector_replicate]

/-- Cramer's rule is exact. -/
theorem cramerBackend_exact : (cramerBackend (K := K)).Exact := by
  refine ⟨fun matrix rhs policy h hrhs => ?_⟩
  have hdet := h.det_ne_zero
  have hsolve : (cramerBackend (K := K)).solve matrix rhs policy = ⟨.converged,
      some (List.ofFn ((matrix.toMatrix matrix.rowCount matrix.rowCount).det⁻¹ •
        (matrix.toMatrix matrix.rowCount matrix.rowCount).cramer
          (toVector matrix.rowCount rhs))), "cramer", 0, none⟩ :=
    if_neg fun hor => hor.elim hdet fun hne => hne h.square.symm
  rw [hsolve]
  refine ⟨rfl, _, rfl, ?_⟩
  generalize hx : (matrix.toMatrix matrix.rowCount matrix.rowCount).det⁻¹ •
    (matrix.toMatrix matrix.rowCount matrix.rowCount).cramer (toVector matrix.rowCount rhs) = x
  have hcolumns : (List.ofFn x).length = matrix.columns := List.length_ofFn.trans h.square
  obtain ⟨product, hproduct, hlength, hvalues⟩ := matvec_returns matrix hcolumns
  rw [← h.square, toVector_ofFn, ← hx, mulVec_smul, mulVec_cramer, smul_smul,
    inv_mul_cancel₀ hdet, one_smul] at hvalues
  rw [hproduct, toVector_injective hlength hrhs hvalues]

end AstrContinuum
