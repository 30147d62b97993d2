import AstrContinuum.ContextGraph.CompiledSystem
import AstrContinuum.ContextGraph.Reduction

/-!
# Exact state reduction

The index maps of `reduce_state` in terms of matrices: with an exact backend the reduced matrix is the
Schur complement, and the reconstruction is that of the elimination.
-/

namespace AstrContinuum

open Checked ConstrainedSystems Matrix

variable {K : Type} [Field K]

/-! ## Index maps -/

section Positions

variable {size : Nat} {indices : List Nat}

/-- The index at a position. -/
def position (indices : List Nat) (h : ∀ index ∈ indices, index < size) :
    Fin indices.length → Fin size :=
  fun k => ⟨indices[k], h _ (List.getElem_mem k.isLt)⟩

/-- The indices that are not retained. -/
def unretainedIndices (size : Nat) (retained : List Nat) : List Nat :=
  (List.range size).filter (· ∉ retained)

/-- An eliminated index is one of the others. -/
theorem mem_unretainedIndices {retained : List Nat} {index : Nat} :
    index ∈ unretainedIndices size retained ↔ index < size ∧ index ∉ retained := by
  unfold unretainedIndices
  rw [List.mem_filter, List.mem_range, decide_eq_true_eq]

/-- Eliminated indices are within the size. -/
theorem unretainedIndices_lt {retained : List Nat} :
    ∀ index ∈ unretainedIndices size retained, index < size :=
  fun _ h => (mem_unretainedIndices.mp h).1

/-- Eliminated indices are distinct. -/
theorem unretainedIndices_nodup (size : Nat) (retained : List Nat) :
    (unretainedIndices size retained).Nodup :=
  List.nodup_range.filter _

/-- Distinct indices are at different positions. -/
theorem position_injective (hnodup : indices.Nodup) (h : ∀ index ∈ indices, index < size) :
    Function.Injective (position indices h) :=
  fun _ _ heq => Fin.ext ((List.Nodup.getElem_inj_iff hnodup).mp (Fin.mk.inj heq))

/-- The retained and the eliminated indices are all of them. -/
theorem splits_positions {retained : List Nat} (hnodup : retained.Nodup)
    (hretained : ∀ index ∈ retained, index < size) :
    Splits (position retained hretained)
      (position (unretainedIndices size retained) unretainedIndices_lt) := by
  constructor
  · refine (position_injective hnodup _).sumElim
      (position_injective (unretainedIndices_nodup size retained) _) fun i k heq => ?_
    have hmem : (unretainedIndices size retained)[k] ∈ retained := by
      rw [← Fin.mk.inj heq]
      exact List.getElem_mem i.isLt
    exact (mem_unretainedIndices.mp (List.getElem_mem k.isLt)).2 hmem
  · intro index
    by_cases hmem : (index : Nat) ∈ retained
    · obtain ⟨i, hi, heq⟩ := List.getElem_of_mem hmem
      exact ⟨.inl ⟨i, hi⟩, Fin.ext heq⟩
    · obtain ⟨k, hk, heq⟩ := List.getElem_of_mem (mem_unretainedIndices.mpr ⟨index.isLt, hmem⟩)
      exact ⟨.inr ⟨k, hk⟩, Fin.ext heq⟩

/-- The elements of a vector at some indices. -/
theorem toVector_gather (vector : List K) (h : ∀ index ∈ indices, index < size) :
    toVector indices.length (gather vector indices) =
      toVector size vector ∘ position indices h := by
  funext k
  unfold toVector gather
  rw [List.getD_eq_getElem _ _ (by simp), List.getElem_map]
  rfl

/-- Lists that are combined, as vectors. -/
theorem toVector_zipWith (f : K → K → K) {left right : List K} (hleft : left.length = size)
    (hright : right.length = size) (k : Fin size) :
    toVector size (List.zipWith f left right) k = f (toVector size left k) (toVector size right k) := by
  have hk := k.isLt
  unfold toVector
  rw [List.getD_eq_getElem _ _ (by rw [List.length_zipWith]; omega), List.getElem_zipWith,
    List.getD_eq_getElem _ _ (by omega), List.getD_eq_getElem _ _ (by omega)]

/-- A difference of lists is that of the vectors. -/
theorem toVector_subtract {left right : List K} (hleft : left.length = size)
    (hright : right.length = size) :
    toVector size (subtract left right) = toVector size left - toVector size right :=
  funext fun k => toVector_zipWith _ hleft hright k

/-- A part of a matrix in terms of the index maps. -/
theorem submatrix_toMatrix [LinearOrder K] (matrix : CsrMatrix K) {rowSize columnSize : Nat}
    {rows columns : List Nat} (hrowCount : matrix.rowCount = rowSize)
    (hcolumnCount : matrix.columns = columnSize) (hrows : rows.Nodup) (hcolumns : columns.Nodup)
    (hrowsWithin : ∀ row ∈ rows, row < rowSize)
    (hcolumnsWithin : ∀ column ∈ columns, column < columnSize) :
    ∃ part, matrix.submatrix rows columns = .ok part ∧ part.rowCount = rows.length ∧
      part.columns = columns.length ∧
      part.toMatrix rows.length columns.length =
        (matrix.toMatrix rowSize columnSize).submatrix (position rows hrowsWithin)
          (position columns hcolumnsWithin) := by
  subst hrowCount
  subst hcolumnCount
  obtain ⟨part, hpart, hpartRows, hpartColumns, hentry⟩ :=
    submatrix_returns matrix hrows hcolumns hrowsWithin hcolumnsWithin
  refine ⟨part, hpart, hpartRows, hpartColumns, ?_⟩
  ext i j
  exact hentry i j i.isLt j.isLt

end Positions

/-! ## The columns to solve -/

/-- An entry of a matrix is its value there. -/
theorem entry_of_mem {matrix : CsrMatrix K} {entry : Nat × Nat × K}
    (h : entry ∈ matrix.iterEntries) : matrix.entry entry.1 entry.2.1 = entry.2.2 := by
  obtain ⟨⟨cells, index⟩, hcells, hentry⟩ := List.mem_flatMap.mp h
  obtain ⟨cell, hcell, rfl⟩ := List.mem_map.mp hentry
  obtain ⟨_, hindex, hat⟩ := List.mem_zipIdx hcells
  have hrow : index < matrix.rows.length := by simpa using hindex
  have hcells : cells = matrix.rows[index] := hat
  have hkeys := (matrix.valid _ (List.getElem_mem hrow)).1.imp fun hlt => hlt.ne
  unfold CsrMatrix.entry
  rw [List.getD_eq_getElem _ _ hrow, lookup_of_mem hkeys (hcells ▸ hcell), Option.getD_some]

/-- One write into the columns. -/
def writeColumn (columns : List (List K)) (entry : Nat × Nat × K) : List (List K) :=
  columns.modify entry.2.1 fun column => column.set entry.1 entry.2.2

/-- The value of the columns at a place. -/
def columnValue (columns : List (List K)) (row column : Nat) : K :=
  (columns.getD column []).getD row 0

/-- A write changes one value, and no length. -/
theorem writeColumn_spec {columns : List (List K)} {rows : Nat}
    (hlengths : ∀ column ∈ columns, column.length = rows) (entry : Nat × Nat × K)
    (hrow : entry.1 < rows) (hcolumn : entry.2.1 < columns.length) :
    (writeColumn columns entry).length = columns.length ∧
      (∀ column ∈ writeColumn columns entry, column.length = rows) ∧
      ∀ row column, columnValue (writeColumn columns entry) row column =
        if entry.1 = row ∧ entry.2.1 = column then entry.2.2 else columnValue columns row column := by
  unfold writeColumn
  refine ⟨List.length_modify _ _ _, fun column hmem => ?_, fun row column => ?_⟩
  · obtain ⟨k, hk, rfl⟩ := List.getElem_of_mem hmem
    have hlength := hlengths _ (List.getElem_mem (List.length_modify _ _ _ ▸ hk))
    rw [List.getElem_modify]
    split
    · rw [List.length_set, hlength]
    · exact hlength
  · unfold columnValue
    by_cases hk : column < columns.length
    · have hlength := hlengths _ (List.getElem_mem hk)
      have hmodified : (columns.modify entry.2.1 fun column => column.set entry.1 entry.2.2).getD
          column [] = if entry.2.1 = column then columns[column].set entry.1 entry.2.2
            else columns[column] := by
        rw [List.getD_eq_getElem _ _ (by rwa [List.length_modify]), List.getElem_modify]
      rw [hmodified, List.getD_eq_getElem columns _ hk]
      by_cases hsame : entry.2.1 = column
      · rw [if_pos hsame]
        by_cases hat : entry.1 = row
        · subst hat
          rw [if_pos ⟨rfl, hsame⟩, List.getD_eq_getElem _ _ (by rw [List.length_set]; omega),
            List.getElem_set_self]
        · rw [if_neg fun heq => hat heq.1, List.getD_eq_getElem?_getD, List.getElem?_set_ne hat,
            List.getD_eq_getElem?_getD]
      · rw [if_neg hsame, if_neg fun heq => hsame heq.2]
    · have hne : entry.2.1 ≠ column := by omega
      have hmodified : (columns.modify entry.2.1 fun column => column.set entry.1 entry.2.2).getD
          column [] = [] := by
        rw [List.getD_eq_default _ _ (by rw [List.length_modify]; omega)]
      rw [hmodified, List.getD_eq_default columns _ (by omega), if_neg fun heq => hne heq.2]

/-- The columns hold the values of the matrix, transposed. -/
theorem columnRhs_spec {part : CsrMatrix K} {rows columns : Nat} (hrows : part.rowCount = rows)
    (hcolumns : part.columns = columns) :
    (columnRhs part).length = columns ∧ (∀ column ∈ columnRhs part, column.length = rows) ∧
      ∀ k, (hk : k < (columnRhs part).length) →
        toVector rows (columnRhs part)[k] = fun j : Fin rows => part.entry j k := by
  have hfold : ∀ (entries : List (Nat × Nat × K)) (start : List (List K)),
      (∀ entry ∈ entries, entry ∈ part.iterEntries) → start.length = columns →
      (∀ column ∈ start, column.length = rows) →
      (entries.foldl writeColumn start).length = columns ∧
        (∀ column ∈ entries.foldl writeColumn start, column.length = rows) ∧
        ∀ row column, columnValue (entries.foldl writeColumn start) row column =
          if ∃ entry ∈ entries, entry.1 = row ∧ entry.2.1 = column then part.entry row column
          else columnValue start row column := by
    intro entries
    induction entries with
    | nil =>
        intro start _ hlength hlengths
        exact ⟨hlength, hlengths, fun row column => by simp⟩
    | cons entry entries ih =>
        intro start hmem hlength hlengths
        have hwithin := iterEntries_within part (hmem entry List.mem_cons_self)
        obtain ⟨hlength', hlengths', hvalue⟩ := writeColumn_spec hlengths entry
          (by omega) (by omega)
        obtain ⟨hfinal, hfinals, hvalues⟩ := ih (writeColumn start entry)
          (fun other hother => hmem other (List.mem_cons_of_mem _ hother))
          (hlength'.trans hlength) hlengths'
        refine ⟨hfinal, hfinals, fun row column => ?_⟩
        rw [List.foldl_cons, hvalues, hvalue]
        by_cases hlater : ∃ other ∈ entries, other.1 = row ∧ other.2.1 = column
        · obtain ⟨other, hother, hat⟩ := hlater
          rw [if_pos ⟨other, hother, hat⟩, if_pos ⟨other, List.mem_cons_of_mem _ hother, hat⟩]
        · rw [if_neg hlater]
          by_cases hat : entry.1 = row ∧ entry.2.1 = column
          · obtain ⟨rfl, rfl⟩ := hat
            rw [if_pos ⟨rfl, rfl⟩, if_pos ⟨entry, List.mem_cons_self, rfl, rfl⟩,
              entry_of_mem (hmem entry List.mem_cons_self)]
          · rw [if_neg hat, if_neg]
            rintro ⟨other, hother, hplace⟩
            rcases List.mem_cons.mp hother with rfl | hother
            · exact hat hplace
            · exact hlater ⟨other, hother, hplace⟩
  obtain ⟨hlength, hlengths, hvalues⟩ := hfold part.iterEntries
    (List.replicate part.columns (List.replicate part.rowCount 0)) (fun _ hentry => hentry)
    (by rw [List.length_replicate, hcolumns])
    (fun column hcolumn => by rw [List.eq_of_mem_replicate hcolumn, List.length_replicate, hrows])
  have hcount : (columnRhs part).length = columns := hlength
  refine ⟨hcount, hlengths, fun k hk => ?_⟩
  funext j
  have hvalue := hvalues j k
  have hzero : columnValue (List.replicate part.columns
      (List.replicate part.rowCount (0 : K))) j k = 0 := by
    unfold columnValue
    rw [List.getD_replicate _ (by omega), List.getD_replicate _ (by omega)]
  have hnone : ¬ (∃ entry ∈ part.iterEntries, entry.1 = (j : Nat) ∧ entry.2.1 = k) →
      part.entry j k = 0 := by
    intro hnone
    rw [← totalAt_iterEntries]
    exact totalAt_eq_zero fun entry hentry hat => hnone ⟨entry, hentry, hat⟩
  have hcolumn : columnValue (columnRhs part) j k = toVector rows (columnRhs part)[k] j := by
    unfold columnValue toVector
    rw [List.getD_eq_getElem _ _ hk]
  rw [← hcolumn]
  refine hvalue.trans ?_
  by_cases hentry : ∃ entry ∈ part.iterEntries, entry.1 = (j : Nat) ∧ entry.2.1 = k
  · rw [if_pos hentry]
  · rw [if_neg hentry, hzero, hnone hentry]

/-- An exact backend solves the systems of the elimination. -/
theorem eliminationSolve_exact {backend : LinearAlgebraBackend K} (hbackend : backend.Exact)
    {matrix : CsrMatrix K} {size : Nat} (hrows : matrix.rowCount = size)
    (hcolumns : matrix.columns = size)
    (hinjective : ∀ x, matrix.toMatrix size size *ᵥ x = 0 → x = 0) {rhs : List K}
    (hrhs : rhs.length = size) (policy : SolvePolicy) :
    ∃ result, eliminationSolve backend policy matrix rhs = .ok result ∧ result.1.length = size ∧
      matrix.toMatrix size size *ᵥ toVector size result.1 = toVector size rhs := by
  obtain ⟨solution, hstatus, hsolution, hlength, hsolves⟩ :=
    hbackend.solution hrows hcolumns hinjective hrhs policy
  have haccepted : (backend.solve matrix rhs policy).status.accepted policy = true := by
    rw [hstatus]
    exact decide_eq_true (.inl rfl)
  refine ⟨(solution, (backend.solve matrix rhs policy).backwardError,
    (backend.solve matrix rhs policy).backendName), ?_, hlength, hsolves⟩
  unfold eliminationSolve
  dsimp only
  rw [hsolution]
  exact if_pos haccepted

/-- The loop solves every column. -/
theorem solveColumns_exact [LinearOrder K] {backend : LinearAlgebraBackend K}
    (hbackend : backend.Exact) {matrix : CsrMatrix K} {size : Nat} (hrows : matrix.rowCount = size)
    (hcolumns : matrix.columns = size)
    (hinjective : ∀ x, matrix.toMatrix size size *ᵥ x = 0 → x = 0) (policy : SolvePolicy)
    {columns : List (List K)} (hlengths : ∀ column ∈ columns, column.length = size) :
    ∀ state : ColumnSolves K, ∃ solves solved,
      forEach (solveColumn backend policy matrix) state columns = .ok solves ∧
        solves.solveColumns = state.solveColumns ++ solved ∧
        List.Forall₂ (fun column solution => solution.length = size ∧
          matrix.toMatrix size size *ᵥ toVector size solution = toVector size column)
          columns solved := by
  induction columns with
  | nil => exact fun state => ⟨state, [], rfl, (List.append_nil _).symm, .nil⟩
  | cons column columns ih =>
      intro state
      obtain ⟨result, hresult, hlength, hsolves⟩ := eliminationSolve_exact hbackend hrows hcolumns
        hinjective (hlengths column List.mem_cons_self) policy
      obtain ⟨solves, solved, hrest, happend, hall⟩ :=
        ih (fun other hother => hlengths other (List.mem_cons_of_mem _ hother))
          ⟨state.solveColumns ++ [result.1], max state.maximumError result.2.1, result.2.2⟩
      refine ⟨solves, result.1 :: solved, ?_, ?_, .cons ⟨hlength, hsolves⟩ hall⟩
      · exact bind_ok.mpr ⟨_, bind_ok.mpr ⟨result, hresult, rfl⟩, hrest⟩
      · rw [happend, List.append_assoc, List.singleton_append]

/-! ## The reduced matrix -/

/-- Entries with rows and columns exchanged. -/
theorem totalAt_swap (entries : List (Nat × Nat × K)) (row column : Nat) :
    totalAt (entries.map fun entry => (entry.2.1, entry.1, entry.2.2)) column row =
      totalAt entries row column := by
  unfold totalAt
  rw [List.map_map]
  congr 1
  refine List.map_congr_left fun entry _ => ?_
  simp only [Function.comp_apply, and_comm]

variable [LinearOrder K]

/-- The entries of a correction. -/
def correctionOf (correction : List K) (column : Nat) : List (Nat × Nat × K) :=
  (correction.zipIdx.filter fun value => value.1 ≠ 0).map fun value => (value.2, column, -value.1)

/-- A correction without its zeros sums to its negated values. -/
theorem totalAt_correctionOf (correction : List K) (column row : Nat) :
    totalAt (correctionOf correction column) row column = -correction.getD row 0 := by
  have hfilter (items : List (K × Nat)) :
      totalAt ((items.filter fun value => value.1 ≠ 0).map fun value => (value.2, column, -value.1))
        row column = totalAt (items.flatMap fun value => [(value.2, column, -value.1)]) row column := by
    induction items with
    | nil => rfl
    | cons item items ih =>
        rw [List.flatMap_cons, totalAt_append, ← ih]
        by_cases hzero : item.1 = 0
        · simp [hzero]
        · rw [List.filter_cons, if_pos (decide_eq_true hzero), List.map_cons, totalAt_cons,
            totalAt_cons, totalAt_nil, add_zero]
  refine (hfilter correction.zipIdx).trans ?_
  have hentries := totalAt_zipIdx (fun (value : K) index => [(index, column, -value)])
    (fun _ _ entry hentry => by rw [List.mem_singleton.mp hentry]) correction row column
  refine hentries.trans ?_
  rw [List.getD_eq_getElem?_getD]
  cases correction[row]? with
  | none => simp
  | some value => simp [totalAt]

/-- The corrections of solved columns of the right length. -/
theorem corrections_return (part : CsrMatrix K) {solved : List (List K)}
    (h : ∀ column ∈ solved, column.length = part.columns) :
    solved.zipIdx.mapM (correctionEntries part) = .ok (solved.zipIdx.map fun column =>
      correctionOf (part.rows.map (CsrMatrix.rowProduct column.1)) column.2) := by
  refine mapM_ok.mpr (List.forall₂_map_right_iff.mpr (List.forall₂_same.mpr fun column hmem => ?_))
  have hlength := h column.1 (List.fst_mem_of_mem_zipIdx hmem)
  have hproduct : part.matvec column.1 = .ok (part.rows.map (CsrMatrix.rowProduct column.1)) :=
    require_bind_pos hlength
  exact bind_ok.mpr ⟨_, orValueError_ok.mpr hproduct, rfl⟩

/-- The corrections of a column sum to the negated product with it. -/
theorem totalAt_corrections (part : CsrMatrix K) (solved : List (List K)) (row : Nat) {column : Nat}
    (hcolumn : column < solved.length) :
    totalAt (solved.zipIdx.map fun column =>
      correctionOf (part.rows.map (CsrMatrix.rowProduct column.1)) column.2).flatten row column =
      -(part.rows.map (CsrMatrix.rowProduct solved[column])).getD row 0 := by
  have hentries := totalAt_zipIdx (fun (values : List K) index =>
    (correctionOf (part.rows.map (CsrMatrix.rowProduct values)) index).map
      fun entry => (entry.2.1, entry.1, entry.2.2)) (fun values index entry hentry => by
        obtain ⟨source, hsource, rfl⟩ := List.mem_map.mp hentry
        obtain ⟨_, _, rfl⟩ := List.mem_map.mp hsource
        rfl) solved column row
  rw [List.getElem?_eq_getElem hcolumn, Option.elim_some, totalAt_swap, totalAt_correctionOf]
    at hentries
  rw [← hentries, ← totalAt_swap, ← List.flatMap_def, List.map_flatMap]

omit [LinearOrder K] in
/-- A sum over the numbered coefficients of a row. -/
theorem sum_zipIdx (values others : List K) {size : Nat} (h : values.length = size) :
    (values.zipIdx.map fun value => value.1 * others.getD value.2 0).sum =
      ∑ k, toVector size values k * toVector size others k := by
  have hlist : (values.zipIdx.map fun value => value.1 * others.getD value.2 0) =
      List.ofFn fun k => toVector size values k * toVector size others k := by
    refine List.ext_getElem (by simp [h]) fun k hk hk' => ?_
    have hvalue : k < values.length := by simpa using hk
    simp only [List.getElem_map, List.getElem_zipIdx, List.getElem_ofFn, toVector, Nat.zero_add,
      List.getD_eq_getElem _ _ hvalue]
  rw [hlist, List.sum_ofFn]

/-! ## What a reduction holds -/

/-- The projected constraints: the same rows over the retained coordinates. -/
structure ProjectedConstraints (constraints projected : CompiledConstraints K) (retained : List Nat)
    (size count : Nat) (h : ∀ index ∈ retained, index < size) : Prop where
  rows : projected.matrix.rowCount = count
  columns : projected.matrix.columns = retained.length
  values : projected.matrix.toMatrix count retained.length =
    (constraints.matrix.toMatrix count size).submatrix id (position retained h)
  rhs : projected.rhs = constraints.rhs

/-- A reduction in terms of the columns and the offset of the elimination. -/
structure StateReduction.Exact (reduction : StateReduction K) (matrix : CsrMatrix K) (rhs : List K)
    (constraints : CompiledConstraints K) (retained : List Nat) (size count : Nat)
    (h : ∀ index ∈ retained, index < size)
    (z : Matrix (Fin (unretainedIndices size retained).length) (Fin retained.length) K)
    (o : Fin (unretainedIndices size retained).length → K) : Prop where
  originalMatrix : reduction.originalMatrix = matrix
  originalRhs : reduction.originalRhs = rhs
  retainedIndices : reduction.retainedIndices = retained
  eliminatedIndices : reduction.eliminatedIndices = unretainedIndices size retained
  elimination : Elimination (matrix.toMatrix size size) (toVector size rhs) (position retained h)
    (position _ unretainedIndices_lt) z o
  rows : reduction.reducedMatrix.rowCount = retained.length
  columns : reduction.reducedMatrix.columns = retained.length
  values : reduction.reducedMatrix.toMatrix retained.length retained.length =
    schur (matrix.toMatrix size size) (position retained h) (position _ unretainedIndices_lt) z
  rhsLength : reduction.reducedRhs.length = retained.length
  rhsValues : toVector retained.length reduction.reducedRhs =
    toVector size rhs ∘ position retained h -
      (matrix.toMatrix size size).submatrix (position retained h)
        (position _ unretainedIndices_lt) *ᵥ o
  projected : ProjectedConstraints constraints reduction.projectedConstraints retained size count h
  operatorRows : ∀ row ∈ reduction.reconstructionOperator, row.length = retained.length
  reconstructs : ∀ x : List K, x.length = retained.length →
    (List.zipWith (reconstruct x) reduction.reconstructionOffset
      reduction.reconstructionOperator).length = (unretainedIndices size retained).length ∧
    toVector _ (List.zipWith (reconstruct x) reduction.reconstructionOffset
      reduction.reconstructionOperator) = o - z *ᵥ toVector retained.length x

variable {matrix : CsrMatrix K} {rhs : List K} {constraints : CompiledConstraints K}
  {retained : List Nat} {size count : Nat}

/-- The constraints are projected. -/
theorem projectConstraints_exact (hwidth : constraints.matrix.columns = size)
    (hcount : constraints.matrix.rowCount = count) (hnodup : retained.Nodup)
    (h : ∀ index ∈ retained, index < size) :
    ∃ projected, projectConstraints constraints retained = .ok projected ∧
      ProjectedConstraints constraints projected retained size count h := by
  obtain ⟨hids, hcolumns, hrhs, hcertificateColumns, hcertificateRhs, hsupports⟩ := constraints.valid
  have hrange (bound : Nat) : ∀ row ∈ List.range bound, row < bound := fun _ => List.mem_range.mp
  obtain ⟨solve, hsolve, hsolveRows, hsolveColumns, hvalues⟩ := submatrix_toMatrix
    constraints.matrix hcount hwidth List.nodup_range hnodup (hrange count) h
  rw [List.length_range] at hsolveRows
  obtain ⟨certificate, hcertificate, hcertificateRows, hcertificateWidth, _⟩ := submatrix_toMatrix
    constraints.certificateMatrix rfl (hcertificateColumns.trans (hcolumns.symm.trans hwidth))
    List.nodup_range hnodup (hrange _) h
  rw [List.length_range] at hcertificateRows
  have hnames : (retained.map fun index => constraints.coordinateIds.getD index "").Nodup := by
    refine hnodup.map_on fun left hleft right hright heq => ?_
    have hleft := h left hleft
    have hright := h right hright
    rw [List.getD_eq_getElem _ _ (by omega), List.getD_eq_getElem _ _ (by omega)] at heq
    exact (List.Nodup.getElem_inj_iff hids).mp heq
  have hlength : (retained.map fun index => constraints.coordinateIds.getD index "").length =
      retained.length := List.length_map _
  have hvalid := And.intro hnames (And.intro (hsolveColumns.trans hlength.symm) (And.intro
    (hsolveRows.trans (hcount.symm.trans hrhs)) (And.intro
      (hcertificateWidth.trans hlength.symm) (And.intro
        (hcertificateRows.trans hcertificateRhs) (hsupports.trans hcertificateRows.symm)))))
  refine ⟨⟨_, solve, constraints.rhs, certificate, constraints.certificateRhs,
    constraints.supports, hvalid⟩, ?_, hsolveRows, hsolveColumns, ?_, rfl⟩
  · subst hcount
    exact bind_ok.mpr ⟨solve, orValueError_ok.mpr hsolve,
      bind_ok.mpr ⟨certificate, orValueError_ok.mpr hcertificate, dif_pos hvalid⟩⟩
  · ext i j
    have hat := congrFun (congrFun hvalues (i.cast List.length_range.symm)) j
    refine hat.trans ?_
    have hi : position (List.range count) (hrange count) (i.cast List.length_range.symm) = i :=
      Fin.ext (List.getElem_range _)
    exact congrArg (fun row => constraints.matrix.toMatrix count size row (position retained h j)) hi

/-! ## The elimination -/

/-- Some lists as the columns of a matrix. -/
def columnMatrix (rows columns : Nat) (solved : List (List K)) : Matrix (Fin rows) (Fin columns) K :=
  Matrix.of fun j k => columnValue solved j k

omit [LinearOrder K] in
/-- A column of the matrix. -/
theorem columnMatrix_column {rows width : Nat} {solved : List (List K)} (k : Fin width)
    (hk : (k : Nat) < solved.length) :
    (fun j => columnMatrix rows width solved j k) = toVector rows solved[(k : Nat)] := by
  funext j
  exact congrArg (fun values : List K => values.getD j 0) (List.getD_eq_getElem _ _ hk)

omit [LinearOrder K] in
/-- Solved columns of a matrix are the columns of the solution. -/
theorem mul_columnMatrix {rows width : Nat} {a : Matrix (Fin rows) (Fin rows) K}
    {part : CsrMatrix K} {columns solved : List (List K)} (hlength : columns.length = width)
    (hvalues : ∀ k, (hk : k < columns.length) →
      toVector rows columns[k] = fun j : Fin rows => part.entry j k)
    (hsolved : List.Forall₂ (fun column solution => solution.length = rows ∧
      a *ᵥ toVector rows solution = toVector rows column) columns solved) :
    a * columnMatrix rows width solved = part.toMatrix rows width := by
  ext j k
  have hcolumn : (k : Nat) < columns.length := by omega
  have hsolution : (k : Nat) < solved.length := hsolved.length_eq ▸ hcolumn
  have hpair := (hsolved.get hcolumn hsolution).2
  rw [List.get_eq_getElem, List.get_eq_getElem] at hpair
  calc (a * columnMatrix rows width solved) j k
      = (a *ᵥ fun i => columnMatrix rows width solved i k) j := rfl
    _ = toVector rows columns[(k : Nat)] j := by
        rw [columnMatrix_column k hsolution, hpair]
    _ = part.toMatrix rows width j k := congrFun (hvalues k hcolumn) j

/-- The matrix that the elimination builds is the Schur complement. -/
theorem reducedMatrix_exact {reduced part : CsrMatrix K} {rows width : Nat} {solved : List (List K)}
    (hreducedRows : reduced.rowCount = rows) (hreducedColumns : reduced.columns = rows)
    (hpartRows : part.rowCount = rows) (hpartColumns : part.columns = width)
    (hlength : solved.length = rows) (hlengths : ∀ column ∈ solved, column.length = width) :
    ∃ result, CsrMatrix.fromEntries rows rows (reduced.iterEntries ++
        (solved.zipIdx.map fun column =>
          correctionOf (part.rows.map (CsrMatrix.rowProduct column.1)) column.2).flatten) =
        .ok result ∧
      result.rowCount = rows ∧ result.columns = rows ∧
      result.toMatrix rows rows = reduced.toMatrix rows rows -
        part.toMatrix rows width * columnMatrix width rows solved := by
  have hwithin : ∀ entry ∈ reduced.iterEntries ++ (solved.zipIdx.map fun column =>
      correctionOf (part.rows.map (CsrMatrix.rowProduct column.1)) column.2).flatten,
      entry.1 < rows ∧ entry.2.1 < rows := by
    intro entry hentry
    rcases List.mem_append.mp hentry with hold | hcorrection
    · have hat := iterEntries_within reduced hold
      omega
    · obtain ⟨entries, hentries, hentry⟩ := List.mem_flatten.mp hcorrection
      obtain ⟨⟨column, index⟩, hcolumn, rfl⟩ := List.mem_map.mp hentries
      obtain ⟨⟨value, row⟩, hvalue, rfl⟩ := List.mem_map.mp hentry
      have hindex := (List.mem_zipIdx hcolumn).2.1
      have hrow := (List.mem_zipIdx (List.mem_of_mem_filter hvalue)).2.1
      rw [List.length_map] at hrow
      unfold CsrMatrix.rowCount at hpartRows
      dsimp only
      omega
  obtain ⟨result, hresult, hresultRows, hresultColumns, hentry⟩ := fromEntries_returns hwithin
  refine ⟨result, hresult, hresultRows, hresultColumns, ?_⟩
  ext i k
  have hk : (k : Nat) < solved.length := by omega
  have hproduct := congrFun (toVector_rowProducts hpartRows hpartColumns
    (hlengths _ (List.getElem_mem hk))) i
  have hmul : (part.toMatrix rows width * columnMatrix width rows solved) i k =
      (part.toMatrix rows width *ᵥ toVector width solved[(k : Nat)]) i := by
    rw [← columnMatrix_column k hk]
    rfl
  rw [Matrix.sub_apply, hmul, ← hproduct]
  refine (hentry i k).trans ?_
  rw [totalAt_append, totalAt_iterEntries, totalAt_corrections part solved i hk, sub_eq_add_neg]
  rfl

omit [LinearOrder K] in
/-- The reconstruction of the eliminated coordinates. -/
theorem reconstruct_exact {rows width : Nat} {solved : List (List K)} {offset x : List K}
    (hoffset : offset.length = rows) (hlength : solved.length = width) :
    (List.zipWith (reconstruct x) offset ((List.range rows).map fun row =>
        solved.map fun column => -column.getD row 0)).length = rows ∧
      toVector rows (List.zipWith (reconstruct x) offset ((List.range rows).map fun row =>
        solved.map fun column => -column.getD row 0)) =
        toVector rows offset - columnMatrix rows width solved *ᵥ toVector width x := by
  have hrows : (List.zipWith (reconstruct x) offset ((List.range rows).map fun row =>
      solved.map fun column => -column.getD row 0)).length = rows := by
    rw [List.length_zipWith, List.length_map, List.length_range, hoffset, Nat.min_self]
  refine ⟨hrows, ?_⟩
  funext j
  have hj : (j : Nat) < offset.length := by omega
  have hsum := sum_zipIdx (solved.map fun column => -column.getD (j : Nat) 0) x
    ((List.length_map _).trans hlength)
  have hvalue (k : Fin width) : toVector width (solved.map fun column => -column.getD (j : Nat) 0) k =
      -columnMatrix rows width solved j k := by
    have hk : (k : Nat) < solved.length := by omega
    unfold toVector columnMatrix columnValue
    rw [List.getD_eq_getElem _ _ (by rwa [List.length_map]), List.getElem_map, Matrix.of_apply,
      List.getD_eq_getElem solved _ hk]
  simp only [hvalue, neg_mul, Finset.sum_neg_distrib] at hsum
  unfold toVector
  rw [List.getD_eq_getElem _ _ (by omega), List.getElem_zipWith, List.getElem_map,
    List.getElem_range]
  unfold reconstruct
  rw [hsum, ← sub_eq_add_neg, Pi.sub_apply, List.getD_eq_getElem _ _ hj]
  rfl

/-- A matrix without some coordinates, before anything is eliminated. -/
structure Restricted (matrix reduced : CsrMatrix K) (retained : List Nat) (size : Nat)
    (h : ∀ index ∈ retained, index < size) : Prop where
  rows : reduced.rowCount = retained.length
  columns : reduced.columns = retained.length
  values : reduced.toMatrix retained.length retained.length =
    (matrix.toMatrix size size).submatrix (position retained h) (position retained h)

/-- With an exact backend the elimination returns, and holds what the reduction is. -/
theorem eliminate_exact (rhs : List K) {backend : LinearAlgebraBackend K} (hbackend : backend.Exact)
    (hmatrix : PositiveDefinite (matrix.toMatrix size size)) (hrows : matrix.rowCount = size)
    (hcolumns : matrix.columns = size) (hnodup : retained.Nodup)
    (h : ∀ index ∈ retained, index < size) {projected : CompiledConstraints K}
    (hprojected : ProjectedConstraints constraints projected retained size count h) {reduced : CsrMatrix K}
    (hreduced : Restricted matrix reduced retained size h) (policy : SolvePolicy) :
    ∃ reduction z o, eliminate matrix rhs constraints projected reduced retained
        (unretainedIndices size retained) backend policy = .ok reduction ∧
      reduction.Exact matrix rhs constraints retained size count h z o := by
  have hothers := unretainedIndices_nodup size retained
  obtain ⟨inner, hinner, hinnerRows, hinnerColumns, hinnerValues⟩ := submatrix_toMatrix matrix hrows
    hcolumns hothers hothers unretainedIndices_lt unretainedIndices_lt
  obtain ⟨lower, hlower, hlowerRows, hlowerColumns, hlowerValues⟩ := submatrix_toMatrix matrix hrows
    hcolumns hothers hnodup unretainedIndices_lt h
  obtain ⟨upper, hupper, hupperRows, hupperColumns, hupperValues⟩ := submatrix_toMatrix matrix hrows
    hcolumns hnodup hothers h unretainedIndices_lt
  have hinjective : ∀ x, inner.toMatrix (unretainedIndices size retained).length
      (unretainedIndices size retained).length *ᵥ x = 0 → x = 0 := by
    rw [hinnerValues]
    exact fun _ hx => (hmatrix.eliminated (splits_positions hnodup h)).injective hx
  obtain ⟨offset, hoffset, hoffsetLength, hoffsetSolves⟩ := eliminationSolve_exact hbackend
    hinnerRows hinnerColumns hinjective
    (List.length_map _ : (gather rhs (unretainedIndices size retained)).length = _) policy
  obtain ⟨hcount, hlengths, hvalues⟩ := columnRhs_spec hlowerRows hlowerColumns
  obtain ⟨solves, solved, hsolves, happend, hsolved⟩ := solveColumns_exact hbackend hinnerRows
    hinnerColumns hinjective policy hlengths ⟨[], offset.2.1, offset.2.2⟩
  rw [List.nil_append] at happend
  have hsolvedCount : solved.length = retained.length := hsolved.length_eq.symm.trans hcount
  have hsolvedLengths : ∀ column ∈ solved,
      column.length = (unretainedIndices size retained).length := by
    intro column hcolumn
    obtain ⟨_, _, hlength, _⟩ := exists_of_forall₂ hsolved hcolumn
    exact hlength
  have hcorrections := corrections_return upper fun column hcolumn =>
    (hsolvedLengths column hcolumn).trans hupperColumns.symm
  obtain ⟨result, hresult, hresultRows, hresultColumns, hresultValues⟩ := reducedMatrix_exact
    hreduced.rows hreduced.columns hupperRows hupperColumns hsolvedCount hsolvedLengths
  have hcorrection : upper.matvec offset.1 = .ok (upper.rows.map (CsrMatrix.rowProduct offset.1)) :=
    require_bind_pos (hoffsetLength.trans hupperColumns.symm)
  have hcorrectionLength : (upper.rows.map (CsrMatrix.rowProduct offset.1)).length =
      retained.length := (List.length_map _).trans hupperRows
  have hgather : (gather rhs retained).length = retained.length := List.length_map _
  refine ⟨_, columnMatrix _ _ solved, toVector _ offset.1,
    bind_ok.mpr ⟨inner, orValueError_ok.mpr hinner, bind_ok.mpr ⟨lower, orValueError_ok.mpr hlower,
      bind_ok.mpr ⟨upper, orValueError_ok.mpr hupper, bind_ok.mpr ⟨offset, hoffset,
        bind_ok.mpr ⟨solves, hsolves, bind_ok.mpr ⟨_, happend ▸ hcorrections,
          bind_ok.mpr ⟨result, orValueError_ok.mpr hresult,
            bind_ok.mpr ⟨_, orValueError_ok.mpr hcorrection, rfl⟩⟩⟩⟩⟩⟩⟩⟩, ?_⟩
  refine ⟨rfl, rfl, rfl, rfl, ⟨?_, ?_⟩, hresultRows, hresultColumns, ?_, ?_, ?_, hprojected, ?_, ?_⟩
  · rw [← hinnerValues, ← hlowerValues]
    exact mul_columnMatrix hcount hvalues hsolved
  · rw [← hinnerValues, ← toVector_gather]
    exact hoffsetSolves
  · rw [hresultValues, hreduced.values, hupperValues]
    rfl
  · unfold subtract
    rw [List.length_zipWith, hgather, hcorrectionLength, Nat.min_self]
  · rw [toVector_subtract hgather hcorrectionLength, toVector_gather _ h,
      toVector_rowProducts hupperRows hupperColumns hoffsetLength, hupperValues]
  · intro row hrow
    obtain ⟨_, _, rfl⟩ := List.mem_map.mp hrow
    rw [List.length_map, happend, hsolvedCount]
  · intro x _
    dsimp only
    rw [happend]
    exact reconstruct_exact hoffsetLength hsolvedCount

/-- With an exact backend the reduction of a positive definite system returns. -/
theorem reduceState_exact {backend : LinearAlgebraBackend K} (hbackend : backend.Exact)
    (hmatrix : PositiveDefinite (matrix.toMatrix size size)) (hrows : matrix.rowCount = size)
    (hcolumns : matrix.columns = size) (hrhs : rhs.length = size)
    (hwidth : constraints.matrix.columns = size) (hcount : constraints.matrix.rowCount = count)
    (hnodup : retained.Nodup) (h : ∀ index ∈ retained, index < size)
    (hsupport : ∀ coordinateId ∈ constraints.supportCoordinateIds,
      constraints.coordinateIds.idxOf coordinateId ∈ retained) (policy : SolvePolicy) :
    ∃ reduction z o, reduceState matrix rhs constraints retained backend policy = .ok reduction ∧
      reduction.Exact matrix rhs constraints retained size count h z o := by
  obtain ⟨projected, hproject, hprojected⟩ := projectConstraints_exact hwidth hcount hnodup h
  obtain ⟨reduced, hreduced, hreducedRows, hreducedColumns, hreducedValues⟩ :=
    submatrix_toMatrix matrix hrows hcolumns hnodup hnodup h h
  have hindices : ∀ index ∈ constraints.supportCoordinateIds.map
      (fun coordinateId => constraints.coordinateIds.idxOf coordinateId), index ∈ retained := by
    intro index hindex
    obtain ⟨coordinateId, hmem, rfl⟩ := List.mem_map.mp hindex
    exact hsupport coordinateId hmem
  unfold reduceState
  dsimp only
  rw [hrows, require_bind_pos ⟨hcolumns, hrhs⟩, require_bind_pos hwidth, require_bind_pos h,
    require_bind_pos hnodup, require_bind_pos hindices, hproject]
  by_cases hnone : unretainedIndices size retained = []
  · have hempty : IsEmpty (Fin (unretainedIndices size retained).length) := by
      rw [hnone]
      exact inferInstanceAs (IsEmpty (Fin 0))
    refine ⟨_, 0, 0, bind_ok.mpr ⟨projected, rfl, bind_ok.mpr ⟨reduced,
      orValueError_ok.mpr hreduced, if_pos hnone⟩⟩, ?_⟩
    refine ⟨rfl, rfl, rfl, hnone.symm, ⟨?_, ?_⟩, hreducedRows, hreducedColumns, ?_,
      List.length_map _, ?_, hprojected, ?_, ?_⟩
    · exact Subsingleton.elim _ _
    · exact Subsingleton.elim _ _
    · rw [hreducedValues, schur, Matrix.mul_zero, sub_zero]
    · rw [toVector_gather _ h, mulVec_zero, sub_zero]
    · exact fun _ hrow => absurd hrow List.not_mem_nil
    · intro x _
      exact ⟨by rw [hnone]; rfl, Subsingleton.elim _ _⟩
  · obtain ⟨reduction, z, o, helim, hexact⟩ := eliminate_exact rhs hbackend hmatrix hrows
      hcolumns hnodup h hprojected ⟨hreducedRows, hreducedColumns, hreducedValues⟩ policy
    exact ⟨reduction, z, o, bind_ok.mpr ⟨projected, rfl, bind_ok.mpr ⟨reduced,
      orValueError_ok.mpr hreduced, (if_neg hnone).trans helim⟩⟩, hexact⟩

end AstrContinuum
