import Mathlib.Algebra.Order.Field.Basic
import Mathlib.LinearAlgebra.Matrix.DotProduct
import Mathlib.LinearAlgebra.Matrix.Symmetric
import Mathlib.Tactic.Abel
import Mathlib.Tactic.Linarith

/-!
# Constrained linear systems and elimination

The stationarity system of a quadratic form under linear constraints, over a linearly ordered field: an
operator `a` with a right-hand side `b`, and rows `c` with the values `d`. Where `a` is positive definite
and the rows are independent, the solution and its multipliers are unique. Eliminating coordinates that
no row touches leaves a smaller system, and its solutions are exactly the solutions of the whole one.
-/

namespace ConstrainedSystems

open Matrix

variable {K ν κ ρ η : Type*} [Field K] [LinearOrder K] [Fintype ν] [Fintype κ] [Fintype ρ]
  [Fintype η]

/-- A symmetric matrix whose form is positive. -/
structure PositiveDefinite (a : Matrix ν ν K) : Prop where
  symmetric : a.IsSymm
  positive : ∀ x, x ≠ 0 → 0 < x ⬝ᵥ a *ᵥ x

/-- Only the zero combination of the rows is zero. -/
def RowsIndependent (c : Matrix κ ν K) : Prop :=
  ∀ y, y ᵥ* c = 0 → y = 0

/-- `x` is stationary with the multipliers `y`, and satisfies the constraints. -/
structure Solves (a : Matrix ν ν K) (c : Matrix κ ν K) (b : ν → K) (d : κ → K) (x : ν → K)
    (y : κ → K) : Prop where
  stationary : a *ᵥ x + y ᵥ* c = b
  feasible : c *ᵥ x = d

variable {a : Matrix ν ν K} {c : Matrix κ ν K} {b : ν → K} {d : κ → K}

/-- A positive form is zero at zero only. -/
theorem PositiveDefinite.eq_zero (ha : PositiveDefinite a) {x : ν → K} (h : x ⬝ᵥ a *ᵥ x = 0) :
    x = 0 := by
  by_contra hne
  exact (ha.positive x hne).ne' h

/-- A positive definite matrix is injective. -/
theorem PositiveDefinite.injective (ha : PositiveDefinite a) {x : ν → K} (h : a *ᵥ x = 0) :
    x = 0 := by
  refine ha.eq_zero ?_
  rw [h, dotProduct_zero]

/-- The homogeneous system has only the zero solution. -/
theorem Solves.eq_zero (ha : PositiveDefinite a) (hc : RowsIndependent c) {x : ν → K} {y : κ → K}
    (h : Solves a c 0 0 x y) : x = 0 ∧ y = 0 := by
  have hform : x ⬝ᵥ a *ᵥ x = 0 := by
    have hdual : x ⬝ᵥ y ᵥ* c = 0 := by
      rw [dotProduct_comm, ← dotProduct_mulVec, h.feasible, dotProduct_zero]
    have hsum := congrArg (fun v => x ⬝ᵥ v) h.stationary
    simpa only [dotProduct_add, hdual, add_zero, dotProduct_zero] using hsum
  have hx : x = 0 := ha.eq_zero hform
  have hy := h.stationary
  rw [hx, mulVec_zero, zero_add] at hy
  exact ⟨hx, hc y hy⟩

/-- A system has one solution at most. -/
theorem Solves.unique (ha : PositiveDefinite a) (hc : RowsIndependent c) {x x' : ν → K}
    {y y' : κ → K} (h : Solves a c b d x y) (h' : Solves a c b d x' y') : x = x' ∧ y = y' := by
  have hdifference : Solves a c 0 0 (x - x') (y - y') := by
    constructor
    · calc a *ᵥ (x - x') + (y - y') ᵥ* c
          = (a *ᵥ x + y ᵥ* c) - (a *ᵥ x' + y' ᵥ* c) := by
            rw [mulVec_sub, sub_vecMul]
            abel
        _ = 0 := by rw [h.stationary, h'.stationary, sub_self]
    · rw [mulVec_sub, h.feasible, h'.feasible, sub_self]
  obtain ⟨hx, hy⟩ := hdifference.eq_zero ha hc
  exact ⟨sub_eq_zero.mp hx, sub_eq_zero.mp hy⟩

/-! ## Elimination -/

/-- The coordinates are those of `r` and those of `e`, each once. -/
def Splits (r : ρ → ν) (e : η → ν) : Prop :=
  Function.Bijective (Sum.elim r e)

variable {r : ρ → ν} {e : η → ν}

omit [LinearOrder K] in
/-- A sum over all coordinates is that over both parts. -/
theorem Splits.sum (h : Splits r e) (f : ν → K) :
    ∑ i, f i = ∑ i, f (r i) + ∑ k, f (e k) := by
  have hparts := h.sum_comp f
  rw [← hparts, Fintype.sum_sum_type]
  rfl

omit [LinearOrder K] [Fintype ν] [Fintype ρ] [Fintype η] [Field K] in
/-- A vector may be given on both parts. -/
theorem Splits.exists_vector (h : Splits r e) (y : ρ → K) (w : η → K) :
    ∃ x : ν → K, x ∘ r = y ∧ x ∘ e = w := by
  let parts := Equiv.ofBijective _ h
  refine ⟨Sum.elim y w ∘ parts.symm, ?_, ?_⟩
  · funext i
    have hi : parts.symm (r i) = .inl i := parts.symm_apply_eq.mpr rfl
    simp [hi]
  · funext k
    have hk : parts.symm (e k) = .inr k := parts.symm_apply_eq.mpr rfl
    simp [hk]

omit [LinearOrder K] [Fintype ν] [Fintype ρ] [Fintype η] [Field K] in
/-- Two vectors that agree on both parts are equal. -/
theorem Splits.ext (h : Splits r e) {x x' : ν → K} (hr : x ∘ r = x' ∘ r) (he : x ∘ e = x' ∘ e) :
    x = x' := by
  funext i
  obtain ⟨part, rfl⟩ := h.surjective i
  cases part with
  | inl i => exact congrFun hr i
  | inr k => exact congrFun he k

omit [LinearOrder K] in
/-- A product over all coordinates, some rows of it. -/
theorem Splits.mulVec {ι τ : Type*} (h : Splits r e) (m : Matrix ι ν K) (rows : τ → ι) (x : ν → K) :
    (m *ᵥ x) ∘ rows =
      m.submatrix rows r *ᵥ (x ∘ r) + m.submatrix rows e *ᵥ (x ∘ e) := by
  funext i
  exact h.sum fun j => m (rows i) j * x j

/-- A principal part of a positive definite matrix is positive definite. -/
theorem PositiveDefinite.eliminated (ha : PositiveDefinite a) (h : Splits r e) :
    PositiveDefinite (a.submatrix e e) := by
  refine ⟨ha.symmetric.submatrix e, fun w hw => ?_⟩
  obtain ⟨x, hr, he⟩ := h.exists_vector (0 : ρ → K) w
  have hx : x ≠ 0 := by
    rintro rfl
    exact hw (he ▸ rfl)
  have hform : x ⬝ᵥ a *ᵥ x = w ⬝ᵥ a.submatrix e e *ᵥ w := by
    have hrows := h.mulVec a e x
    have hsum := h.sum fun i => x i * (a *ᵥ x) i
    have hzero : ∑ i, x (r i) * (a *ᵥ x) (r i) = 0 :=
      Finset.sum_eq_zero fun i _ => by rw [← Function.comp_apply (f := x), hr]; simp
    rw [hzero, zero_add] at hsum
    rw [hr, mulVec_zero, zero_add, he] at hrows
    calc x ⬝ᵥ a *ᵥ x = ∑ k, x (e k) * (a *ᵥ x) (e k) := hsum
      _ = (x ∘ e) ⬝ᵥ ((a *ᵥ x) ∘ e) := rfl
      _ = w ⬝ᵥ a.submatrix e e *ᵥ w := by rw [he, hrows]
  exact hform ▸ ha.positive x hx

/-- What the elimination of `e` computes: the columns of the eliminated coordinates and their offset. -/
structure Elimination (a : Matrix ν ν K) (b : ν → K) (r : ρ → ν) (e : η → ν) (z : Matrix η ρ K)
    (o : η → K) : Prop where
  columns : a.submatrix e e * z = a.submatrix e r
  offset : a.submatrix e e *ᵥ o = b ∘ e

/-- The operator of the reduced system. -/
def schur (a : Matrix ν ν K) (r : ρ → ν) (e : η → ν) (z : Matrix η ρ K) : Matrix ρ ρ K :=
  a.submatrix r r - a.submatrix r e * z

variable {z : Matrix η ρ K} {o : η → K}

omit [LinearOrder K] in
/-- A reconstructed vector solves the whole system exactly when its retained part solves the reduced
one. -/
theorem Elimination.solves_iff (h : Elimination a b r e z o) (hsplit : Splits r e)
    (hc : ∀ k j, c k (e j) = 0) {x : ν → K} {y : κ → K} (hx : x ∘ e = o - z *ᵥ (x ∘ r)) :
    Solves (schur a r e z) (c.submatrix id r) (b ∘ r - a.submatrix r e *ᵥ o) d (x ∘ r) y ↔
      Solves a c b d x y := by
  have hnone : c.submatrix id e = 0 := by
    ext k j
    exact hc k j
  have hfeasible : c.submatrix id r *ᵥ (x ∘ r) = c *ᵥ x := by
    have hrows := hsplit.mulVec c id x
    rw [hnone, zero_mulVec, add_zero] at hrows
    exact hrows.symm
  have heliminated : (a *ᵥ x + y ᵥ* c) ∘ e = b ∘ e := by
    have hdual : (y ᵥ* c) ∘ e = 0 := by
      funext j
      exact Finset.sum_eq_zero fun k _ => mul_eq_zero_of_right (y k) (hc k j)
    have hrows := hsplit.mulVec a e x
    rw [hx, mulVec_sub, mulVec_mulVec, h.columns, h.offset] at hrows
    rw [Pi.add_comp, hdual, add_zero, hrows]
    abel
  have hretained : schur a r e z *ᵥ (x ∘ r) + y ᵥ* c.submatrix id r =
      b ∘ r - a.submatrix r e *ᵥ o ↔ (a *ᵥ x + y ᵥ* c) ∘ r = b ∘ r := by
    have hdual : (y ᵥ* c) ∘ r = y ᵥ* c.submatrix id r := rfl
    have hrows := hsplit.mulVec a r x
    rw [hx, mulVec_sub, mulVec_mulVec] at hrows
    rw [Pi.add_comp, hdual, hrows, eq_sub_iff_add_eq, schur, sub_mulVec]
    constructor
    · intro heq
      rw [← heq]
      abel
    · intro heq
      rw [← heq]
      abel
  constructor
  · intro hsolves
    refine ⟨hsplit.ext (hretained.mp hsolves.stationary) heliminated, ?_⟩
    rw [← hfeasible]
    exact hsolves.feasible
  · intro hsolves
    refine ⟨hretained.mpr (congrArg (fun v => v ∘ r) hsolves.stationary), ?_⟩
    rw [hfeasible]
    exact hsolves.feasible

/-- The homogeneous reduced system has only the zero solution. -/
theorem Elimination.reduced_eq_zero (h : Elimination a b r e z o) (hsplit : Splits r e)
    (ha : PositiveDefinite a) (hrows : RowsIndependent c) (hc : ∀ k j, c k (e j) = 0) {w : ρ → K}
    {y : κ → K} (hsolves : Solves (schur a r e z) (c.submatrix id r) 0 0 w y) : w = 0 ∧ y = 0 := by
  obtain ⟨x, rfl, he⟩ := hsplit.exists_vector w (0 - z *ᵥ w)
  have hhomogeneous : Elimination a 0 r e z 0 := ⟨h.columns, mulVec_zero _⟩
  have hreduced : Solves (schur a r e z) (c.submatrix id r)
      ((0 : ν → K) ∘ r - a.submatrix r e *ᵥ 0) 0 (x ∘ r) y := by
    rw [mulVec_zero, sub_zero]
    exact hsolves
  obtain ⟨rfl, hy⟩ := ((hhomogeneous.solves_iff hsplit hc he).mp hreduced).eq_zero ha hrows
  exact ⟨rfl, hy⟩

/-! ## Sums of squares -/

section Squares

variable [DecidableEq ν]

/-- A diagonal with weighted squares of linear forms. -/
def squares (diagonal : ν → K) (terms : List (K × (ν → K))) : Matrix ν ν K :=
  Matrix.diagonal diagonal + (terms.map fun term => term.1 • vecMulVec term.2 term.2).sum

omit [LinearOrder K] [Fintype ν] in
/-- The values of a sum of squares. -/
theorem squares_apply (diagonal : ν → K) (terms : List (K × (ν → K))) (i j : ν) :
    squares diagonal terms i j = (if i = j then diagonal i else 0) +
      (terms.map fun term => term.1 * term.2 i * term.2 j).sum := by
  unfold squares
  rw [Matrix.add_apply, Matrix.diagonal_apply]
  congr 1
  induction terms with
  | nil => rfl
  | cons term terms ih =>
      rw [List.map_cons, List.sum_cons, Matrix.add_apply, ih, List.map_cons, List.sum_cons,
        Matrix.smul_apply, vecMulVec_apply, smul_eq_mul, mul_assoc]

omit [LinearOrder K] [Fintype ν] in
/-- A sum of squares is symmetric. -/
theorem squares_symmetric (diagonal : ν → K) (terms : List (K × (ν → K))) :
    (squares diagonal terms).IsSymm := by
  ext i j
  rw [Matrix.transpose_apply, squares_apply, squares_apply]
  congr 1
  · by_cases h : i = j
    · rw [if_pos h, if_pos h.symm, h]
    · rw [if_neg h, if_neg fun heq => h heq.symm]
  · congr 1
    exact List.map_congr_left fun term _ => by ring

omit [LinearOrder K] in
/-- The form of a sum of squares. -/
theorem squares_form (diagonal : ν → K) (terms : List (K × (ν → K))) (x : ν → K) :
    x ⬝ᵥ squares diagonal terms *ᵥ x =
      ∑ i, diagonal i * x i ^ 2 + (terms.map fun term => term.1 * (term.2 ⬝ᵥ x) ^ 2).sum := by
  unfold squares
  rw [add_mulVec, dotProduct_add]
  congr 1
  · refine Finset.sum_congr rfl fun i _ => ?_
    rw [mulVec_diagonal]
    ring
  · induction terms with
    | nil => rw [List.map_nil, List.sum_nil, zero_mulVec, dotProduct_zero, List.map_nil, List.sum_nil]
    | cons term terms ih =>
        rw [List.map_cons, List.sum_cons, add_mulVec, dotProduct_add, ih, List.map_cons,
          List.sum_cons, smul_mulVec, vecMulVec_mulVec, dotProduct_smul, dotProduct_smul,
          dotProduct_comm x]
        congr 1
        simp only [smul_eq_mul, op_smul_eq_smul]
        ring

variable [IsStrictOrderedRing K]

/-- A sum of squares is at least its diagonal. -/
theorem squares_bound {diagonal : ν → K} {terms : List (K × (ν → K))} {bound : K}
    (hdiagonal : ∀ i, bound ≤ diagonal i) (hterms : ∀ term ∈ terms, 0 ≤ term.1) (x : ν → K) :
    bound * (x ⬝ᵥ x) ≤ x ⬝ᵥ squares diagonal terms *ᵥ x := by
  have hsquares : 0 ≤ (terms.map fun term => term.1 * (term.2 ⬝ᵥ x) ^ 2).sum := by
    refine List.sum_nonneg fun value hvalue => ?_
    obtain ⟨term, hterm, rfl⟩ := List.mem_map.mp hvalue
    exact mul_nonneg (hterms term hterm) (sq_nonneg _)
  have hdiagonalSum : bound * (x ⬝ᵥ x) ≤ ∑ i, diagonal i * x i ^ 2 := by
    unfold dotProduct
    rw [Finset.mul_sum]
    refine Finset.sum_le_sum fun i _ => ?_
    rw [← sq]
    exact mul_le_mul_of_nonneg_right (hdiagonal i) (sq_nonneg _)
  rw [squares_form]
  linarith

/-- A sum of squares with a positive diagonal is positive definite. -/
theorem squares_positiveDefinite {diagonal : ν → K} {terms : List (K × (ν → K))} {bound : K}
    (hbound : 0 < bound) (hdiagonal : ∀ i, bound ≤ diagonal i)
    (hterms : ∀ term ∈ terms, 0 ≤ term.1) : PositiveDefinite (squares diagonal terms) := by
  refine ⟨squares_symmetric diagonal terms, fun x hx => ?_⟩
  have hform := squares_bound hdiagonal hterms x
  have hpositive : 0 < x ⬝ᵥ x := by
    have hnonneg : 0 ≤ x ⬝ᵥ x := Finset.sum_nonneg fun i _ => mul_self_nonneg (x i)
    refine lt_of_le_of_ne hnonneg fun heq => hx ?_
    exact dotProduct_self_eq_zero.mp heq.symm
  exact (mul_pos hbound hpositive).trans_le hform

omit [LinearOrder K] [IsStrictOrderedRing K] in
/-- The product with a sum of squares. -/
theorem squares_mulVec (diagonal : ν → K) (terms : List (K × (ν → K))) (x : ν → K) (i : ν) :
    (squares diagonal terms *ᵥ x) i =
      diagonal i * x i + (terms.map fun term => term.1 * (term.2 i * (term.2 ⬝ᵥ x))).sum := by
  unfold squares
  rw [add_mulVec, Pi.add_apply, mulVec_diagonal]
  congr 1
  induction terms with
  | nil => rw [List.map_nil, List.sum_nil, zero_mulVec, Pi.zero_apply, List.map_nil, List.sum_nil]
  | cons term terms ih =>
      rw [List.map_cons, List.sum_cons, add_mulVec, Pi.add_apply, ih, List.map_cons, List.sum_cons,
        smul_mulVec, vecMulVec_mulVec]
      congr 1

/-- A linear form that compares two coordinates. -/
def IsDifference (form : ν → K) : Prop :=
  ∃ l r, form = Pi.single l 1 - Pi.single r 1

/-- At a maximum of the vector no comparison is negative. -/
theorem IsDifference.maximum {form : ν → K} (h : IsDifference form) {x : ν → K} {i : ν}
    (hmax : ∀ j, x j ≤ x i) : 0 ≤ form i * (form ⬝ᵥ x) := by
  obtain ⟨l, r, rfl⟩ := h
  rw [sub_dotProduct, single_one_dotProduct, single_one_dotProduct, Pi.sub_apply]
  by_cases hl : i = l
  · by_cases hr : i = r
    · rw [← hl, ← hr, sub_self, zero_mul]
    · rw [hl, Pi.single_eq_same, Pi.single_eq_of_ne (hl ▸ hr), sub_zero, one_mul]
      exact sub_nonneg.mpr (hl ▸ hmax r)
  · by_cases hr : i = r
    · rw [hr, Pi.single_eq_same, Pi.single_eq_of_ne (hr ▸ hl), zero_sub, neg_one_mul, neg_sub]
      exact sub_nonneg.mpr (hr ▸ hmax l)
    · rw [Pi.single_eq_of_ne hl, Pi.single_eq_of_ne hr, sub_self, zero_mul]

variable {diagonal : ν → K} {terms : List (K × (ν → K))}

/-- The discrete maximum principle: a bound that holds of the values at some coordinates and of the
products at the others holds of all values. -/
theorem squares_upper (hdiagonal : ∀ i, 1 ≤ diagonal i)
    (hterms : ∀ term ∈ terms, 0 ≤ term.1 ∧ IsDifference term.2) {x : ν → K} {bound : K}
    (hbound : 0 ≤ bound) (h : ∀ i, x i ≤ bound ∨ (squares diagonal terms *ᵥ x) i ≤ bound) (i : ν) :
    x i ≤ bound := by
  obtain ⟨top, _, hmax⟩ := Finset.exists_max_image Finset.univ x ⟨i, Finset.mem_univ i⟩
  have hmax := fun j => hmax j (Finset.mem_univ j)
  refine (hmax i).trans ?_
  rcases h top with hvalue | hproduct
  · exact hvalue
  · have hsum : 0 ≤ (terms.map fun term => term.1 * (term.2 top * (term.2 ⬝ᵥ x))).sum := by
      refine List.sum_nonneg fun value hvalue => ?_
      obtain ⟨term, hterm, rfl⟩ := List.mem_map.mp hvalue
      exact mul_nonneg (hterms term hterm).1 ((hterms term hterm).2.maximum hmax)
    rw [squares_mulVec] at hproduct
    by_contra hgreater
    have hpositive : 0 < x top := hbound.trans_lt (not_le.mp hgreater)
    have hgrows : x top ≤ diagonal top * x top := le_mul_of_one_le_left hpositive.le (hdiagonal top)
    linarith

/-- The minimum principle, with zero as the bound. -/
theorem squares_lower (hdiagonal : ∀ i, 1 ≤ diagonal i)
    (hterms : ∀ term ∈ terms, 0 ≤ term.1 ∧ IsDifference term.2) {x : ν → K}
    (h : ∀ i, 0 ≤ x i ∨ 0 ≤ (squares diagonal terms *ᵥ x) i) (i : ν) : 0 ≤ x i := by
  refine neg_nonpos.mp (squares_upper hdiagonal hterms le_rfl (x := -x) (fun j => ?_) i)
  rw [mulVec_neg, Pi.neg_apply, Pi.neg_apply, neg_nonpos, neg_nonpos]
  exact h j

end Squares

end ConstrainedSystems
