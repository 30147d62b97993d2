import AstrContinuum.ContextGraph.DenseMatrix

/-!
# Sparse matrices represent matrices

`csr_matrix_represents` says that `CsrMatrix.from_entries` makes valid arrays of the sums of its entries, and
that everything that is read from valid arrays agrees with the matrix they denote.
-/

namespace AstrContinuum

open Checked Matrix

variable {K : Type} [Field K]

/-- The matrix that arrays denote. -/
def CsrArrays.denoted (matrix : CsrArrays K) : Matrix (Fin matrix.rows) (Fin matrix.columns) K :=
  Matrix.of fun i j => matrix.entry i j

/-- What is read from arrays agrees with the matrix they denote. -/
structure CsrArrays.Agrees [LinearOrder K] (matrix : CsrArrays K) : Prop where
  entries : (∀ i j, totalAt matrix.iterEntries i j = matrix.entry i j) ∧
    matrix.iterEntries.Pairwise PlaceLt
  product : ∀ x, x.length = matrix.columns → ∃ y, matrix.matvec x = .ok y ∧ y.length = matrix.rows ∧
    toVector matrix.rows y = matrix.denoted *ᵥ toVector matrix.columns x
  transposed : ∀ y, y.length = matrix.rows → ∃ x, matrix.transposeMatvec y = .ok x ∧
    x.length = matrix.columns ∧ toVector matrix.columns x = toVector matrix.rows y ᵥ* matrix.denoted
  adjoint : ∀ x y x' y', matrix.matvec x = .ok y' → matrix.transposeMatvec y = .ok x' →
    toVector matrix.rows y ⬝ᵥ toVector matrix.rows y' =
      toVector matrix.columns x' ⬝ᵥ toVector matrix.columns x
  part : ∀ rows columns, rows.Nodup → columns.Nodup → (∀ row ∈ rows, row < matrix.rows) →
    (∀ column ∈ columns, column < matrix.columns) →
    ∃ part, matrix.submatrix rows columns = .ok part ∧ part.rows = rows.length ∧
      part.columns = columns.length ∧ ∀ i j, (hi : i < rows.length) → (hj : j < columns.length) →
        part.entry i j = matrix.entry rows[i] columns[j]
  dense : ∀ maxN maxBytes, 0 < maxN ∧ 0 < maxBytes →
    max matrix.rows matrix.columns ≤ maxN ∧ matrix.rows * matrix.columns * 8 ≤ maxBytes →
    ∃ dense, matrix.toDense maxN maxBytes = .ok dense ∧ DenseShape matrix.rows matrix.columns dense ∧
      (∀ i j, denseAt dense i j = matrix.entry i j) ∧
      (matrix.NoZeros → 0 < matrix.rows → CsrArrays.fromDense dense = .ok matrix)

/-- The rows denote the same matrix. -/
theorem CsrArrays.toMatrix_toRows (matrix : CsrArrays K) :
    matrix.toRows.toMatrix matrix.rows matrix.columns = matrix.denoted := by
  ext i j
  exact (matrix.entry_eq i j).symm

/-- A product that returns had a vector of the right length. -/
theorem CsrArrays.matvec_agrees (matrix : CsrArrays K) {x : List K} (h : x.length = matrix.columns) :
    ∃ y, matrix.matvec x = .ok y ∧ y.length = matrix.rows ∧
      toVector matrix.rows y = matrix.denoted *ᵥ toVector matrix.columns x := by
  obtain ⟨y, hy, hlength, hvalues⟩ := matvec_returns matrix.toRows h
  rw [toRows_rowCount] at hlength hvalues
  rw [← toMatrix_toRows]
  exact ⟨y, (matvec_eq matrix x).trans hy, hlength, hvalues⟩

/-- The product with the transposed matrix. -/
theorem CsrArrays.transposeMatvec_agrees (matrix : CsrArrays K) {y : List K}
    (h : y.length = matrix.rows) :
    ∃ x, matrix.transposeMatvec y = .ok x ∧ x.length = matrix.columns ∧
      toVector matrix.columns x = toVector matrix.rows y ᵥ* matrix.denoted := by
  obtain ⟨x, hx, hlength, hvalues⟩ :=
    transposeMatvec_returns matrix.toRows (h.trans matrix.toRows_rowCount.symm)
  rw [toRows_rowCount] at hvalues
  rw [← toMatrix_toRows]
  exact ⟨x, (transposeMatvec_eq matrix y).trans hx, hlength, hvalues⟩

variable [LinearOrder K]

/-- What is read from any valid arrays agrees with the matrix they denote. -/
theorem CsrArrays.agrees (matrix : CsrArrays K) : matrix.Agrees := by
  constructor
  case entries =>
    refine ⟨fun i j => ?_, ?_⟩
    · rw [iterEntries_eq, totalAt_iterEntries, entry_eq]
    · rw [iterEntries_eq]
      exact pairwise_iterEntries matrix.toRows
  case product => exact fun x => matvec_agrees matrix
  case transposed => exact fun y => transposeMatvec_agrees matrix
  case adjoint =>
    intro x y x' y' hx hy
    obtain ⟨_, hxlength, -⟩ := bind_ok.mp hx
    obtain ⟨_, hylength, -⟩ := bind_ok.mp hy
    obtain ⟨product, hproduct, -, hvalues⟩ := matvec_agrees matrix (require_ok.mp hxlength)
    obtain ⟨transposed, htransposed, -, hvalues'⟩ :=
      transposeMatvec_agrees matrix (require_ok.mp hylength)
    obtain rfl := Except.ok.inj (hx.symm.trans hproduct)
    obtain rfl := Except.ok.inj (hy.symm.trans htransposed)
    rw [hvalues, hvalues', dotProduct_mulVec]
  case part =>
    intro rows columns hrows hcolumns hrowsWithin hcolumnsWithin
    obtain ⟨part, hpart, hpartRows, hpartColumns, hentry⟩ := submatrix_returns matrix.toRows hrows hcolumns
      (fun row hrow => matrix.toRows_rowCount.symm ▸ hrowsWithin row hrow) hcolumnsWithin
    refine ⟨part.toArrays, submatrix_ok hpart, ?_, hpartColumns, fun i j hi hj => ?_⟩
    · rw [← toRows_rowCount, CsrMatrix.toRows_toArrays, hpartRows]
    · rw [entry_eq, CsrMatrix.toRows_toArrays, hentry i j hi hj, entry_eq]
  case dense =>
    intro maxN maxBytes hpositive hcapacity
    obtain ⟨dense, hdense, hshape, hvalues⟩ := toDense_ok matrix hpositive hcapacity
    exact ⟨dense, hdense, hshape, hvalues, fun hzeros hrows => fromDense_toDense hzeros hrows hshape hvalues⟩

/-- Entries in range make valid arrays of their sums, and everything that is read from valid arrays agrees
with the matrix they denote. -/
theorem csr_matrix_represents :
    (∀ (rows columns : Nat) (entries : List (Nat × Nat × K)),
      (∀ entry ∈ entries, entry.1 < rows ∧ entry.2.1 < columns) →
      ∃ matrix, CsrArrays.fromEntries rows columns entries = .ok matrix ∧ matrix.postInit = .ok () ∧
        matrix.rows = rows ∧ matrix.columns = columns ∧
        ∀ i j, matrix.entry i j = totalAt entries i j) ∧
    ∀ matrix : CsrArrays K, matrix.Agrees := by
  refine ⟨fun rows columns entries hwithin => ?_, CsrArrays.agrees⟩
  obtain ⟨matrix, hmatrix, hrows, hcolumns, hentry⟩ := fromEntries_returns hwithin
  refine ⟨matrix.toArrays, CsrArrays.fromEntries_ok hmatrix, ?_, ?_, hcolumns, fun i j => ?_⟩
  · exact CsrData.postInit_ok.mpr matrix.toArrays.valid
  · rw [← CsrArrays.toRows_rowCount, CsrMatrix.toRows_toArrays, hrows]
  · rw [CsrArrays.entry_eq, CsrMatrix.toRows_toArrays, hentry]

/-- A matrix with an empty row, a repeated place and a cancelled one. -/
theorem csr_matrix_represents_cancelled :
    ∃ matrix : CsrArrays ℚ, CsrArrays.fromEntries 3 2 [(2, 1, 1), (0, 0, 5), (2, 1, 2), (0, 0, -5)] =
        .ok matrix ∧ matrix.entry 2 1 = 3 ∧ matrix.entry 0 0 = 0 ∧ matrix.Agrees := by
  obtain ⟨matrix, hmatrix, _, _, _, hentry⟩ := csr_matrix_represents.1 3 2
    [(2, 1, 1), (0, 0, 5), (2, 1, 2), (0, 0, (-5 : ℚ))] (by decide)
  refine ⟨matrix, hmatrix, ?_, ?_, csr_matrix_represents.2 matrix⟩
  · rw [hentry]
    norm_num [totalAt]
  · rw [hentry]
    norm_num [totalAt]

end AstrContinuum
