import AstrContinuum.ContextGraph.CsrArrays

/-!
# Dense matrices

`to_dense` and `from_dense` of `context_graph/matrix.py`: the rows of a dense matrix hold the values of the
arrays, and dense rows are turned back into the arrays they come from.
-/

namespace AstrContinuum

open Checked

variable {K : Type} [Field K]

/-- The value of dense rows at a row and a column. -/
def denseAt (dense : List (List K)) (row column : Nat) : K :=
  (dense.getD row []).getD column 0

/-- Dense rows of one shape. -/
structure DenseShape (rows columns : Nat) (dense : List (List K)) : Prop where
  length : dense.length = rows
  width : ∀ row ∈ dense, row.length = columns

/-! ## To dense rows -/

omit [Field K] in
/-- Writing a value keeps the shape. -/
theorem DenseShape.write {rows columns : Nat} {dense : List (List K)} (h : DenseShape rows columns dense)
    (row column : Nat) (value : K) :
    DenseShape rows columns (dense.modify row fun cells => cells.set column value) := by
  refine ⟨(List.length_modify _ _ _).trans h.length, fun cells hcells => ?_⟩
  obtain ⟨index, hindex, rfl⟩ := List.getElem_of_mem hcells
  rw [List.getElem_modify]
  rw [List.length_modify] at hindex
  split
  · rw [List.length_set]
    exact h.width _ (List.getElem_mem hindex)
  · exact h.width _ (List.getElem_mem hindex)

/-- What dense rows hold after a value is written. -/
theorem denseAt_write {rows columns : Nat} {dense : List (List K)} (h : DenseShape rows columns dense)
    {row column : Nat} (hrow : row < rows) (hcolumn : column < columns) (value : K) (i j : Nat) :
    denseAt (dense.modify row fun cells => cells.set column value) i j =
      if row = i ∧ column = j then value else denseAt dense i j := by
  have hlength : row < dense.length := h.length ▸ hrow
  unfold denseAt
  simp only [List.getD_eq_getElem?_getD, List.getElem?_modify]
  by_cases hi : row = i
  · subst hi
    have hwidth : column < dense[row].length := by
      rw [h.width _ (List.getElem_mem hlength)]
      exact hcolumn
    by_cases hj : column = j
    · subst hj
      simp [hlength, hwidth]
    · simp [hlength, hj]
  · simp [hi]

/-- Rows of zeros. -/
theorem denseAt_zeros (rows columns i j : Nat) :
    denseAt (List.replicate rows (List.replicate columns (0 : K))) i j = 0 := by
  unfold denseAt
  simp only [List.getD_eq_getElem?_getD, List.getElem?_replicate]
  by_cases hi : i < rows
  · by_cases hj : j < columns <;> simp [hi, hj]
  · simp [hi]

/-- Entries at different places are written, and the others stay. -/
theorem denseAt_foldl {rows columns : Nat} (entries : List (Nat × Nat × K)) (dense : List (List K))
    (h : DenseShape rows columns dense)
    (hwithin : ∀ entry ∈ entries, entry.1 < rows ∧ entry.2.1 < columns)
    (hplaces : entries.Pairwise fun entry other => ¬ (entry.1 = other.1 ∧ entry.2.1 = other.2.1)) :
    let written := entries.foldl
      (fun dense entry => dense.modify entry.1 fun row => row.set entry.2.1 entry.2.2) dense
    DenseShape rows columns written ∧
      ∀ i j, denseAt written i j =
        if ∃ entry ∈ entries, entry.1 = i ∧ entry.2.1 = j then totalAt entries i j
        else denseAt dense i j := by
  induction entries generalizing dense with
  | nil => exact ⟨h, fun i j => by simp⟩
  | cons entry entries ih =>
      obtain ⟨hfirst, hrest⟩ := List.pairwise_cons.mp hplaces
      obtain ⟨hshape, hvalues⟩ := ih _ (h.write entry.1 entry.2.1 entry.2.2)
        (fun other hother => hwithin other (List.mem_cons_of_mem _ hother)) hrest
      refine ⟨hshape, fun i j => ?_⟩
      obtain ⟨hrow, hcolumn⟩ := hwithin entry List.mem_cons_self
      rw [List.foldl_cons, hvalues, denseAt_write h hrow hcolumn, totalAt_cons]
      by_cases hplace : entry.1 = i ∧ entry.2.1 = j
      · have hnone : ¬ ∃ other ∈ entries, other.1 = i ∧ other.2.1 = j := by
          rintro ⟨other, hother, hrow', hcolumn'⟩
          exact hfirst other hother ⟨hplace.1.trans hrow'.symm, hplace.2.trans hcolumn'.symm⟩
        have hzero : totalAt entries i j = 0 :=
          totalAt_eq_zero fun other hother hat => hnone ⟨other, hother, hat⟩
        rw [if_neg hnone, if_pos hplace, if_pos ⟨entry, List.mem_cons_self, hplace⟩, if_pos hplace, hzero,
          add_zero]
      · have hiff : (∃ other ∈ entry :: entries, other.1 = i ∧ other.2.1 = j) ↔
            ∃ other ∈ entries, other.1 = i ∧ other.2.1 = j := by
          simp [hplace]
        rw [if_neg hplace, if_neg hplace, zero_add, if_congr hiff rfl rfl]

/-- The order of places, row by row. -/
def PlaceLt (entry other : Nat × Nat × K) : Prop :=
  entry.1 < other.1 ∨ (entry.1 = other.1 ∧ entry.2.1 < other.2.1)

namespace CsrArrays

omit [Field K] in
/-- A matrix gives its entries row by row, each place at most once. -/
theorem pairwise_iterEntries (matrix : CsrMatrix K) : matrix.iterEntries.Pairwise PlaceLt := by
  unfold CsrMatrix.iterEntries
  rw [List.pairwise_flatMap]
  constructor
  · rintro ⟨cells, row⟩ hcells
    have hmem : cells ∈ matrix.rows := by
      have hindex := List.mem_zipIdx hcells
      rw [hindex.2.2]
      exact List.getElem_mem _
    rw [List.pairwise_map]
    exact (List.pairwise_map.mp (matrix.valid cells hmem).1).imp fun hlt => .inr ⟨rfl, hlt⟩
  · have hindices : matrix.rows.zipIdx.Pairwise fun row other => row.2 < other.2 := by
      have hrange := List.pairwise_lt_range' (s := 0) (n := matrix.rows.length)
      rw [← List.zipIdx_map_snd 0 matrix.rows, List.pairwise_map] at hrange
      exact hrange
    refine hindices.imp fun {row other} hlt entry hentry entry' hentry' => ?_
    obtain ⟨_, _, rfl⟩ := List.mem_map.mp hentry
    obtain ⟨_, _, rfl⟩ := List.mem_map.mp hentry'
    exact .inl hlt

/-- Dense rows hold the values of the arrays. -/
theorem toDense_ok (matrix : CsrArrays K) {maxN maxBytes : Nat} (hpositive : 0 < maxN ∧ 0 < maxBytes)
    (hcapacity : max matrix.rows matrix.columns ≤ maxN ∧ matrix.rows * matrix.columns * 8 ≤ maxBytes) :
    ∃ dense, matrix.toDense maxN maxBytes = .ok dense ∧ DenseShape matrix.rows matrix.columns dense ∧
      ∀ i j, denseAt dense i j = matrix.entry i j := by
  have hzeros : DenseShape matrix.rows matrix.columns
      (List.replicate matrix.rows (List.replicate matrix.columns (0 : K))) :=
    ⟨List.length_replicate, fun row hrow => by
      rw [List.eq_of_mem_replicate hrow, List.length_replicate]⟩
  have hwithin : ∀ entry ∈ matrix.iterEntries, entry.1 < matrix.rows ∧ entry.2.1 < matrix.columns := by
    intro entry hentry
    rw [iterEntries_eq] at hentry
    simpa using iterEntries_within _ hentry
  have hplaces : matrix.iterEntries.Pairwise
      fun entry other => ¬ (entry.1 = other.1 ∧ entry.2.1 = other.2.1) := by
    rw [iterEntries_eq]
    refine (pairwise_iterEntries matrix.toRows).imp fun {entry other} hlt => ?_
    unfold PlaceLt at hlt
    omega
  obtain ⟨hshape, hvalues⟩ := denseAt_foldl matrix.iterEntries _ hzeros hwithin hplaces
  refine ⟨_, ?_, hshape, fun i j => ?_⟩
  · unfold toDense
    rw [require_bind_pos hpositive, require_bind_pos hcapacity]
    rfl
  · have htotal : totalAt matrix.iterEntries i j = matrix.entry i j := by
      rw [iterEntries_eq, totalAt_iterEntries, entry_eq]
    rw [hvalues, htotal, denseAt_zeros]
    split
    · rfl
    · next hnone =>
        rw [← htotal]
        exact (totalAt_eq_zero fun entry hentry hat => hnone ⟨entry, hentry, hat⟩).symm

/-! ## From dense rows -/

variable [LinearOrder K]

/-- The values of a dense row that are kept sum to those of the row. -/
theorem totalAt_denseRow (cells : List K) (row column : Nat) :
    totalAt ((cells.zipIdx.filter fun cell => cell.1 ≠ 0).map fun cell => (row, cell.2, cell.1)) row
      column = cells.getD column 0 := by
  suffices h : ∀ (cells : List K) (first : Nat),
      totalAt (((cells.zipIdx first).filter fun cell => cell.1 ≠ 0).map
        fun cell => (row, cell.2, cell.1)) row column =
        if first ≤ column then cells.getD (column - first) 0 else 0 by
    have hcells := h cells 0
    rwa [if_pos (Nat.zero_le column), Nat.sub_zero] at hcells
  intro cells
  induction cells with
  | nil => simp
  | cons cell cells ih =>
      intro first
      have hfirst : totalAt ((((cell :: cells).zipIdx first).filter fun cell => cell.1 ≠ 0).map
          fun cell => (row, cell.2, cell.1)) row column =
          (if first = column then cell else 0) + totalAt (((cells.zipIdx (first + 1)).filter
            fun cell => cell.1 ≠ 0).map fun cell => (row, cell.2, cell.1)) row column := by
        rw [List.zipIdx_cons, List.filter_cons]
        by_cases hzero : cell = 0
        · simp [hzero]
        · simp [hzero]
      rw [hfirst, ih]
      by_cases hcolumn : first = column
      · subst hcolumn
        rw [if_pos rfl, if_neg (by omega), if_pos le_rfl, Nat.sub_self, List.getD_cons_zero, add_zero]
      · rw [if_neg hcolumn, zero_add]
        by_cases hle : first ≤ column
        · have hsub : column - first = (column - (first + 1)) + 1 := by omega
          rw [if_pos (by omega), if_pos hle, hsub, List.getD_cons_succ]
        · rw [if_neg (by omega), if_neg hle]

/-- Dense rows of one width are turned into arrays without zeros that hold their values. -/
theorem fromDense_ok {rows columns : Nat} {dense : List (List K)} (hrows : 0 < rows)
    (h : DenseShape rows columns dense) :
    ∃ matrix, fromDense dense = .ok matrix ∧ matrix.rows = rows ∧ matrix.columns = columns ∧
      matrix.NoZeros ∧ ∀ i j, matrix.entry i j = denseAt dense i j := by
  obtain ⟨hlength, hwidth⟩ := h
  have hcolumns : ((dense.head?.map List.length).getD 0) = columns := by
    obtain ⟨first, rest, rfl⟩ := List.exists_cons_of_length_pos (hlength.symm ▸ hrows)
    exact hwidth first List.mem_cons_self
  let cells (row : List K) (index : Nat) : List (Nat × Nat × K) :=
    (row.zipIdx.filter fun cell => cell.1 ≠ 0).map fun cell => (index, cell.2, cell.1)
  have hwithin : ∀ entry ∈ dense.zipIdx.flatMap (fun row => cells row.1 row.2),
      entry.1 < dense.length ∧ entry.2.1 < columns := by
    intro entry hentry
    obtain ⟨⟨row, index⟩, hrow, hcell⟩ := List.mem_flatMap.mp hentry
    obtain ⟨⟨value, column⟩, hvalue, rfl⟩ := List.mem_map.mp hcell
    have hindex := List.mem_zipIdx hrow
    have hcolumn := List.mem_zipIdx (List.mem_filter.mp hvalue).1
    have hmem : row ∈ dense := by
      rw [hindex.2.2]
      exact List.getElem_mem _
    have hbound := hwidth row hmem
    exact ⟨by simpa using hindex.2.1, by simpa [hbound] using hcolumn.2.1⟩
  obtain ⟨matrix, hmatrix, hmatrixRows, hmatrixColumns, hentry⟩ := fromEntries_returns hwithin
  have harrays := fromEntries_ok hmatrix
  refine ⟨matrix.toArrays, ?_, ?_, hmatrixColumns, ?_, fun i j => ?_⟩
  · unfold fromDense
    simp only [hcolumns]
    rw [require_bind_pos hwidth]
    exact harrays
  · rw [← toRows_rowCount, CsrMatrix.toRows_toArrays, hmatrixRows, hlength]
  · rw [noZeros_iff, CsrMatrix.toRows_toArrays]
    exact CsrMatrix.fromEntries_noZeros hmatrix
  · rw [entry_eq, CsrMatrix.toRows_toArrays, hentry, totalAt_zipIdx cells (fun row index entry hmem => by
      obtain ⟨_, _, rfl⟩ := List.mem_map.mp hmem
      rfl)]
    have hrow : dense.getD i [] = dense[i]?.getD [] := List.getD_eq_getElem?_getD
    rw [denseAt, hrow]
    cases dense[i]? with
    | none => rfl
    | some row => exact totalAt_denseRow row i j

/-- Arrays without zeros that have a row come back from their dense rows. -/
theorem fromDense_toDense {matrix : CsrArrays K} (hzeros : matrix.NoZeros) (hrows : 0 < matrix.rows)
    {dense : List (List K)} (hshape : DenseShape matrix.rows matrix.columns dense)
    (hvalues : ∀ i j, denseAt dense i j = matrix.entry i j) : fromDense dense = .ok matrix := by
  obtain ⟨other, hother, hotherRows, hotherColumns, hotherZeros, hentry⟩ := fromDense_ok hrows hshape
  rw [hother]
  refine congrArg Except.ok (toRows_injective (CsrMatrix.eq_of_entry ?_ hotherColumns
    ((noZeros_iff other).mp hotherZeros) ((noZeros_iff matrix).mp hzeros) fun i j => ?_))
  · rw [toRows_rowCount, toRows_rowCount, hotherRows]
  · rw [← entry_eq, ← entry_eq, hentry, hvalues]

end CsrArrays

end AstrContinuum
