import AstrContinuum.ContextGraph.Matrix

/-!
# Compressed rows

`CsrMatrix` of `context_graph/matrix.py` with the arrays that the class holds: the entries of a row are
those between two values of `indptr`. Exact numbers, so no value and no sum is infinite. Every operation is
that of the matrix that is held row by row, and valid arrays are one form of such a matrix.
-/

namespace AstrContinuum

open Checked

variable {K : Type}

/-! ## The arrays -/

/-- The fields of `CsrMatrix` before they are checked. -/
structure CsrData (K : Type) where
  rows : Nat
  columns : Nat
  indptr : List Nat
  indices : List Nat
  data : List K
deriving DecidableEq

namespace CsrData

/-- `indptr[row]`. -/
def start (arrays : CsrData K) (row : Nat) : Nat :=
  arrays.indptr.getD row 0

/-- `range(indptr[row], indptr[row + 1])`. -/
def offsets (arrays : CsrData K) (row : Nat) : List Nat :=
  List.range' (arrays.start row) (arrays.start (row + 1) - arrays.start row)

/-- `indices[indptr[row] : indptr[row + 1]]`. -/
def rowIndices (arrays : CsrData K) (row : Nat) : List Nat :=
  (arrays.indices.take (arrays.start (row + 1))).drop (arrays.start row)

/-- `__post_init__`. -/
def postInit (arrays : CsrData K) : Except String Unit := do
  require (arrays.indptr.length = arrays.rows + 1) "indptr length does not match shape"
  require (arrays.indptr.head? = some 0) "indptr must start at zero"
  require (arrays.indptr.IsChain (· ≤ ·)) "indptr must be nondecreasing"
  require (arrays.indptr.getLast? = some arrays.indices.length ∧
      arrays.indices.length = arrays.data.length) "CSR arrays have inconsistent lengths"
  forEach (fun _ row => do
    require (∀ index ∈ arrays.rowIndices row, index < arrays.columns) "matrix index is out of bounds"
    require ((arrays.rowIndices row).IsChain (· < ·)) "matrix row indices must be strictly increasing") ()
    (List.range arrays.rows)

/-- What `__post_init__` checks. -/
structure Valid (arrays : CsrData K) : Prop where
  length : arrays.indptr.length = arrays.rows + 1
  head : arrays.indptr.head? = some 0
  chain : arrays.indptr.IsChain (· ≤ ·)
  last : arrays.indptr.getLast? = some arrays.indices.length
  data : arrays.indices.length = arrays.data.length
  bound : ∀ row < arrays.rows, ∀ index ∈ arrays.rowIndices row, index < arrays.columns
  increasing : ∀ row < arrays.rows, (arrays.rowIndices row).IsChain (· < ·)

/-- A loop of checks passes where every check does. -/
theorem forEach_check {ε α : Type} {check : α → Except ε Unit} {items : List α} :
    forEach (fun _ item => check item) () items = .ok () ↔ ∀ item ∈ items, check item = .ok () := by
  induction items with
  | nil => simp
  | cons item items ih =>
      rw [forEach_cons, bind_ok, List.forall_mem_cons, ← ih]
      constructor
      · rintro ⟨_, hitem, hitems⟩
        exact ⟨hitem, hitems⟩
      · rintro ⟨hitem, hitems⟩
        exact ⟨(), hitem, hitems⟩

/-- The checks are those of `__post_init__`. -/
theorem postInit_ok {arrays : CsrData K} : arrays.postInit = .ok () ↔ arrays.Valid := by
  unfold postInit
  simp only [bind_ok, require_ok, forEach_check, List.mem_range]
  constructor
  · rintro ⟨_, hlength, _, hhead, _, hchain, _, ⟨hlast, hdata⟩, hrows⟩
    exact ⟨hlength, hhead, hchain, hlast, hdata, fun row hrow => (hrows row hrow).elim fun _ h => h.1,
      fun row hrow => (hrows row hrow).elim fun _ h => h.2⟩
  · intro h
    exact ⟨(), h.length, (), h.head, (), h.chain, (), ⟨h.last, h.data⟩,
      fun row hrow => ⟨(), h.bound row hrow, h.increasing row hrow⟩⟩

end CsrData

/-- `CsrMatrix`. -/
structure CsrArrays (K : Type) extends CsrData K where
  valid : toCsrData.Valid

/-- Arrays with valid fields are those fields. -/
theorem CsrArrays.toCsrData_injective {matrix other : CsrArrays K}
    (h : matrix.toCsrData = other.toCsrData) : matrix = other := by
  cases matrix
  cases other
  cases h
  rfl

/-- The constructor `CsrMatrix(...)`. -/
def CsrArrays.ofData (arrays : CsrData K) : Except String (CsrArrays K) :=
  match h : arrays.postInit with
  | .ok () => .ok ⟨arrays, CsrData.postInit_ok.mp h⟩
  | .error e => .error e

/-- Valid fields are accepted. -/
theorem CsrArrays.ofData_valid {arrays : CsrData K} (h : arrays.Valid) :
    CsrArrays.ofData arrays = .ok ⟨arrays, h⟩ := by
  have hok := CsrData.postInit_ok.mpr h
  unfold CsrArrays.ofData
  split
  · rfl
  · next herror =>
      rw [hok] at herror
      cases herror

/-! ## Building -/

section Building

variable [Field K] [LinearOrder K]

/-- What the loop of `from_entries` has built. -/
structure CsrBuilder (K : Type) where
  indptr : List Nat := [0]
  indices : List Nat := []
  data : List K := []
  cursor : Nat := 0

/-- The inner loop: it takes the entries of a row; every round moves the cursor. -/
def takeRow (ordered : List ((Nat × Nat) × K)) (row : Nat) : Nat → CsrBuilder K → CsrBuilder K
  | 0, built => built
  | rounds + 1, built =>
      match ordered[built.cursor]? with
      | some entry =>
          if entry.1.1 = row then
            takeRow ordered row rounds
              { built with
                indices := built.indices ++ [entry.1.2]
                data := built.data ++ [entry.2]
                cursor := built.cursor + 1 }
          else built
      | none => built

/-- The loop over the rows. -/
def buildRows (ordered : List ((Nat × Nat) × K)) (rows : List Nat) (built : CsrBuilder K) :
    CsrBuilder K :=
  rows.foldl (fun built row =>
    let built := takeRow ordered row ordered.length built
    { built with indptr := built.indptr ++ [built.indices.length] }) built

namespace CsrArrays

/-- `from_entries`. -/
def fromEntries (rows columns : Nat) (entries : List (Nat × Nat × K)) :
    Except String (CsrArrays K) := do
  require (∀ entry ∈ entries, entry.1 < rows ∧ entry.2.1 < columns)
    "matrix coordinate is out of bounds"
  let built := buildRows (orderedEntries entries) (List.range rows) {}
  ofData ⟨rows, columns, built.indptr, built.indices, built.data⟩

omit [LinearOrder K] in
/-- `zeros`. -/
def zeros (rows columns : Nat) : Except String (CsrArrays K) :=
  ofData ⟨rows, columns, List.replicate (rows + 1) 0, [], []⟩

/-- `from_dense`. -/
def fromDense (values : List (List K)) : Except String (CsrArrays K) := do
  let columns := (values.head?.map List.length).getD 0
  require (∀ row ∈ values, row.length = columns) "dense rows must have equal lengths"
  fromEntries values.length columns
    (values.zipIdx.flatMap fun row =>
      (row.1.zipIdx.filter fun cell => cell.1 ≠ 0).map fun cell => (row.2, cell.2, cell.1))

/-! ## Reading -/

/-- `iter_entries`. -/
def iterEntries (matrix : CsrArrays K) : List (Nat × Nat × K) :=
  (List.range matrix.rows).flatMap fun row =>
    (matrix.offsets row).map fun offset =>
      (row, matrix.indices.getD offset 0, matrix.data.getD offset 0)

/-- `matvec`. -/
def matvec (matrix : CsrArrays K) (vector : List K) : Except String (List K) := do
  require (vector.length = matrix.columns) "vector length does not match matrix shape"
  pure ((List.range matrix.rows).map fun row =>
    (matrix.offsets row).foldl
      (fun total offset =>
        total + matrix.data.getD offset 0 * vector.getD (matrix.indices.getD offset 0) 0) 0)

/-- `transpose_matvec`. -/
def transposeMatvec (matrix : CsrArrays K) (vector : List K) : Except String (List K) := do
  require (vector.length = matrix.rows) "vector length does not match matrix shape"
  pure ((List.range matrix.rows).foldl
    (fun result row => (matrix.offsets row).foldl
      (fun result offset => result.modify (matrix.indices.getD offset 0)
        (· + matrix.data.getD offset 0 * vector.getD row 0)) result)
    (List.replicate matrix.columns 0))

/-- `submatrix`. -/
def submatrix (matrix : CsrArrays K) (rows columns : List Nat) : Except String (CsrArrays K) := do
  require (rows.Nodup ∧ columns.Nodup) "submatrix indices must be unique"
  require (∀ row ∈ rows, row < matrix.rows) "submatrix row index is out of bounds"
  require (∀ column ∈ columns, column < matrix.columns) "submatrix column index is out of bounds"
  fromEntries rows.length columns.length
    (matrix.iterEntries.filterMap (CsrMatrix.project rows columns))

/-- `to_dense`. -/
def toDense (matrix : CsrArrays K) (maxN maxBytes : Nat) : Except String (List (List K)) := do
  require (0 < maxN ∧ 0 < maxBytes) "dense capacity values must be positive"
  require (max matrix.rows matrix.columns ≤ maxN ∧ matrix.rows * matrix.columns * 8 ≤ maxBytes)
    "dense conversion capacity exceeded"
  pure (matrix.iterEntries.foldl
    (fun dense entry => dense.modify entry.1 fun row => row.set entry.2.1 entry.2.2)
    (List.replicate matrix.rows (List.replicate matrix.columns 0)))

end CsrArrays

end Building

/-! ## Row pointers -/

/-- The columns of a row that lies within the entries are those at its offsets. -/
theorem CsrData.rowIndices_of_le {arrays : CsrData K} {row : Nat}
    (hle : arrays.start row ≤ arrays.start (row + 1))
    (hend : arrays.start (row + 1) ≤ arrays.indices.length) :
    arrays.rowIndices row = (arrays.offsets row).map fun offset => arrays.indices.getD offset 0 := by
  refine List.ext_getElem ?_ fun index hindex hindex' => ?_
  · simp only [rowIndices, offsets, List.length_drop, List.length_take, List.length_map,
      List.length_range']
    omega
  · have hoffset : arrays.start row + index < arrays.indices.length := by
      simp only [rowIndices, List.length_drop, List.length_take] at hindex
      omega
    simp only [rowIndices, offsets, List.getElem_drop, List.getElem_take, List.getElem_map,
      List.getElem_range', Nat.one_mul]
    rw [List.getD_eq_getElem _ _ hoffset]

namespace CsrData.Valid

variable {arrays : CsrData K} (h : arrays.Valid)

include h

/-- The first row starts at the first entry. -/
theorem start_zero : arrays.start 0 = 0 := by
  rw [start, List.getD_eq_getElem?_getD, ← List.head?_eq_getElem?, h.head]
  rfl

/-- The rows end with the last entry. -/
theorem start_rows : arrays.start arrays.rows = arrays.indices.length := by
  have hlast := h.last
  rw [List.getLast?_eq_getElem?, h.length, Nat.add_sub_cancel] at hlast
  rw [start, List.getD_eq_getElem?_getD, hlast]
  rfl

/-- A row does not end before it starts. -/
theorem start_le {row : Nat} (hrow : row < arrays.rows) : arrays.start row ≤ arrays.start (row + 1) := by
  have hlength := h.length
  rw [start, start, List.getD_eq_getElem _ _ (by omega), List.getD_eq_getElem _ _ (by omega)]
  exact List.isChain_iff_getElem.mp h.chain row (by omega)

/-- The offsets of the first rows are those before the next row. -/
theorem flatMap_offsets {count : Nat} (hcount : count ≤ arrays.rows) :
    (List.range count).flatMap arrays.offsets = List.range (arrays.start count) := by
  induction count with
  | zero => rw [h.start_zero]; rfl
  | succ count ih =>
      have hle := h.start_le hcount
      have hjoin := List.range'_append_1 (s := 0) (m := arrays.start count)
        (n := arrays.start (count + 1) - arrays.start count)
      rw [Nat.zero_add, Nat.add_sub_cancel' hle, ← List.range_eq_range', ← List.range_eq_range'] at hjoin
      rw [List.range_succ, List.flatMap_append, ih (by omega), List.flatMap_singleton]
      exact hjoin

/-- A row ends within the entries. -/
theorem start_le_length {row : Nat} (hrow : row ≤ arrays.rows) :
    arrays.start row ≤ arrays.indices.length := by
  have hmono : ∀ count, row ≤ count → count ≤ arrays.rows → arrays.start row ≤ arrays.start count := by
    intro count hle
    induction count, hle using Nat.le_induction with
    | base => exact fun _ => le_rfl
    | succ count _ ih => exact fun hcount => (ih (by omega)).trans (h.start_le hcount)
  exact (hmono arrays.rows hrow le_rfl).trans h.start_rows.le

/-- The columns of a row are those at its offsets. -/
theorem rowIndices_eq {row : Nat} (hrow : row < arrays.rows) :
    arrays.rowIndices row = (arrays.offsets row).map fun offset => arrays.indices.getD offset 0 :=
  rowIndices_of_le (h.start_le hrow) (h.start_le_length hrow)

end CsrData.Valid

/-! ## Held row by row -/

section Rows

variable [Zero K]

/-- The cells of a row. -/
def CsrData.cells (arrays : CsrData K) (row : Nat) : List (Nat × K) :=
  (arrays.offsets row).map fun offset => (arrays.indices.getD offset 0, arrays.data.getD offset 0)

/-- The columns of the cells of a row. -/
theorem CsrData.Valid.map_cells {arrays : CsrData K} (h : arrays.Valid) {row : Nat}
    (hrow : row < arrays.rows) : (arrays.cells row).map Prod.fst = arrays.rowIndices row := by
  rw [h.rowIndices_eq hrow, CsrData.cells, List.map_map]
  rfl

/-- The matrix held row by row. -/
def CsrArrays.toRows (matrix : CsrArrays K) : CsrMatrix K where
  columns := matrix.columns
  rows := (List.range matrix.rows).map matrix.cells
  valid := by
    intro row hrow
    obtain ⟨index, hindex, rfl⟩ := List.mem_map.mp hrow
    have hindex := List.mem_range.mp hindex
    have hcells := matrix.valid.map_cells hindex
    refine ⟨?_, fun cell hcell => ?_⟩
    · rw [hcells]
      exact List.isChain_iff_pairwise.mp (matrix.valid.increasing index hindex)
    · refine matrix.valid.bound index hindex cell.1 ?_
      rw [← hcells]
      exact List.mem_map_of_mem hcell

@[simp] theorem CsrArrays.toRows_columns (matrix : CsrArrays K) :
    matrix.toRows.columns = matrix.columns := rfl

@[simp] theorem CsrArrays.toRows_rowCount (matrix : CsrArrays K) :
    matrix.toRows.rowCount = matrix.rows := by
  simp [CsrMatrix.rowCount, toRows]

/-- Where each row begins. -/
def rowPointers (start : Nat) : List (List (Nat × K)) → List Nat
  | [] => [start]
  | row :: rest => start :: rowPointers (start + row.length) rest

/-- The arrays of some rows. -/
def CsrData.ofRows (columns : Nat) (rows : List (List (Nat × K))) : CsrData K :=
  ⟨rows.length, columns, rowPointers 0 rows, rows.flatten.map Prod.fst, rows.flatten.map Prod.snd⟩

omit [Zero K] in
/-- There is one pointer more than rows. -/
theorem length_rowPointers (start : Nat) (rows : List (List (Nat × K))) :
    (rowPointers start rows).length = rows.length + 1 := by
  induction rows generalizing start with
  | nil => rfl
  | cons row rest ih => rw [rowPointers, List.length_cons, ih, List.length_cons]

omit [Zero K] in
/-- A row begins after the cells of the rows before it. -/
theorem getElem_rowPointers (start : Nat) (rows : List (List (Nat × K))) (index : Nat)
    (h : index < (rowPointers start rows).length) :
    (rowPointers start rows)[index] = start + (rows.take index).flatten.length := by
  induction rows generalizing start index with
  | nil =>
      obtain rfl : index = 0 := Nat.lt_one_iff.mp h
      rfl
  | cons row rest ih =>
      cases index with
      | zero => rfl
      | succ index =>
          simp only [rowPointers, List.getElem_cons_succ]
          rw [ih, List.take_succ_cons, List.flatten_cons, List.length_append, Nat.add_assoc]

omit [Zero K] in
/-- Where a row of the arrays of some rows begins. -/
theorem CsrData.start_ofRows (columns : Nat) (rows : List (List (Nat × K))) {index : Nat}
    (h : index ≤ rows.length) :
    (ofRows columns rows).start index = (rows.take index).flatten.length := by
  have hindex : index < (rowPointers 0 rows).length := by
    rw [length_rowPointers]
    omega
  rw [start]
  change (rowPointers 0 rows).getD index 0 = _
  rw [List.getD_eq_getElem _ _ hindex, getElem_rowPointers, Nat.zero_add]

omit [Zero K] in
/-- What stands between two parts of a list is found at its offsets. -/
theorem map_offsets {α : Type} (before part after : List α) (default : α) :
    (List.range' before.length part.length).map
      (fun offset => (before ++ (part ++ after)).getD offset default) = part := by
  refine List.ext_getElem (by simp) fun index hindex hindex' => ?_
  have hoffset : before.length + index < (before ++ (part ++ after)).length := by
    simp only [List.length_append]
    omega
  rw [List.getElem_map, List.getElem_range', Nat.one_mul, List.getD_eq_getElem _ _ hoffset,
    List.getElem_append_right (by omega), List.getElem_append_left (by omega)]
  simp

/-- The cells of the arrays of some rows are those of the rows. -/
theorem CsrData.cells_ofRows (columns : Nat) (rows : List (List (Nat × K))) {index : Nat}
    (h : index < rows.length) : (ofRows columns rows).cells index = rows[index] := by
  have hsplit : rows.flatten =
      (rows.take index).flatten ++ (rows[index] ++ (rows.drop (index + 1)).flatten) := by
    rw [← List.flatten_cons, ← List.drop_eq_getElem_cons h, ← List.flatten_append,
      List.take_append_drop]
  have hnext : (rows.take (index + 1)).flatten.length =
      (rows.take index).flatten.length + rows[index].length := by
    rw [List.take_add_one, List.getElem?_eq_getElem h, List.flatten_append, List.length_append]
    simp
  have hoffsets : (ofRows columns rows).offsets index =
      List.range' (rows.take index).flatten.length rows[index].length := by
    rw [offsets, start_ofRows _ _ h, start_ofRows _ _ h.le, hnext, Nat.add_sub_cancel_left]
  have hcell (offset : Nat) : ((ofRows columns rows).indices.getD offset 0,
      (ofRows columns rows).data.getD offset 0) = rows.flatten.getD offset (0, 0) := by
    simp only [ofRows, List.getD_eq_getElem?_getD, List.getElem?_map]
    cases rows.flatten[offset]? <;> rfl
  unfold cells
  simp only [hcell]
  rw [hoffsets, hsplit]
  exact map_offsets _ _ _ _

/-- The arrays of the rows of a matrix are valid. -/
theorem CsrData.valid_ofRows (matrix : CsrMatrix K) : (ofRows matrix.columns matrix.rows).Valid := by
  have hstart {index : Nat} (h : index < matrix.rows.length) :
      (ofRows matrix.columns matrix.rows).start index ≤
        (ofRows matrix.columns matrix.rows).start (index + 1) := by
    rw [start_ofRows _ _ h, start_ofRows _ _ h.le, List.take_add_one, List.flatten_append,
      List.length_append]
    exact Nat.le_add_right _ _
  have hend {index : Nat} (h : index ≤ matrix.rows.length) :
      (ofRows matrix.columns matrix.rows).start index ≤
        (ofRows matrix.columns matrix.rows).indices.length := by
    rw [start_ofRows _ _ h]
    simp only [ofRows, List.length_map]
    conv_rhs => rw [← List.take_append_drop index matrix.rows, List.flatten_append, List.length_append]
    exact Nat.le_add_right _ _
  have hindices {index : Nat} (h : index < matrix.rows.length) :
      (ofRows matrix.columns matrix.rows).rowIndices index = matrix.rows[index].map Prod.fst := by
    rw [rowIndices_of_le (hstart h) (hend h), ← cells_ofRows matrix.columns matrix.rows h, cells,
      List.map_map]
    rfl
  constructor
  case length => exact length_rowPointers 0 matrix.rows
  case head =>
    simp only [ofRows]
    cases matrix.rows <;> rfl
  case chain =>
    refine List.isChain_iff_getElem.mpr fun index hindex => ?_
    have hrow : index < matrix.rows.length := by
      simp only [ofRows, length_rowPointers] at hindex
      omega
    have hle := hstart hrow
    rwa [start, start, List.getD_eq_getElem _ _ (by omega), List.getD_eq_getElem _ _ hindex] at hle
  case last =>
    have hlength : (rowPointers 0 matrix.rows).length - 1 = matrix.rows.length := by
      rw [length_rowPointers, Nat.add_sub_cancel]
    have hindex : matrix.rows.length < (rowPointers 0 matrix.rows).length := by
      rw [length_rowPointers]
      omega
    simp only [ofRows, List.getLast?_eq_getElem?, hlength, List.length_map]
    rw [List.getElem?_eq_getElem hindex, getElem_rowPointers, List.take_length, Nat.zero_add]
  case data => simp only [ofRows, List.length_map]
  case bound =>
    intro row hrow index hindex
    rw [hindices hrow] at hindex
    obtain ⟨cell, hcell, rfl⟩ := List.mem_map.mp hindex
    exact (matrix.valid _ (List.getElem_mem hrow)).2 cell hcell
  case increasing =>
    intro row hrow
    rw [hindices hrow]
    exact (matrix.valid _ (List.getElem_mem hrow)).1.isChain

/-- A matrix that is held row by row, in arrays. -/
def CsrMatrix.toArrays (matrix : CsrMatrix K) : CsrArrays K :=
  ⟨CsrData.ofRows matrix.columns matrix.rows, CsrData.valid_ofRows matrix⟩

omit [Zero K] in
/-- A matrix is its width and its rows. -/
theorem CsrMatrix.eq_of_rows {matrix other : CsrMatrix K} (hcolumns : matrix.columns = other.columns)
    (hrows : matrix.rows = other.rows) : matrix = other := by
  cases matrix
  cases other
  cases hcolumns
  cases hrows
  rfl

/-- The arrays hold the rows. -/
@[simp] theorem CsrMatrix.toRows_toArrays (matrix : CsrMatrix K) : matrix.toArrays.toRows = matrix := by
  refine CsrMatrix.eq_of_rows rfl (List.ext_getElem (by simp [CsrArrays.toRows, toArrays, CsrData.ofRows])
    fun index hindex hindex' => ?_)
  simp only [CsrArrays.toRows, List.getElem_map, List.getElem_range]
  exact CsrData.cells_ofRows matrix.columns matrix.rows hindex'

/-- The rows of arrays give back the arrays. -/
@[simp] theorem CsrArrays.toArrays_toRows (matrix : CsrArrays K) : matrix.toRows.toArrays = matrix := by
  have hflatten {count : Nat} (hcount : count ≤ matrix.rows) :
      (matrix.toRows.rows.take count).flatten = (List.range (matrix.start count)).map fun offset =>
        (matrix.indices.getD offset 0, matrix.data.getD offset 0) := by
    rw [← matrix.valid.flatMap_offsets hcount, List.map_flatMap, toRows, ← List.map_take,
      List.take_range, Nat.min_eq_left hcount]
    rfl
  have hlength : matrix.toRows.rows.length = matrix.rows := by simp [toRows]
  have hall := hflatten le_rfl
  rw [← hlength, List.take_length, hlength, matrix.valid.start_rows] at hall
  have hvalues {α : Type} (values : List α) (default : α) :
      (List.range values.length).map (fun offset => values.getD offset default) = values := by
    refine List.ext_getElem (by simp) fun index hindex hindex' => ?_
    rw [List.getElem_map, List.getElem_range, List.getD_eq_getElem _ _ hindex']
  have hindptr : rowPointers 0 matrix.toRows.rows = matrix.indptr := by
    refine List.ext_getElem ?_ fun index hindex hindex' => ?_
    · rw [length_rowPointers, hlength, matrix.valid.length]
    · have hrow : index ≤ matrix.rows := by
        rw [length_rowPointers, hlength] at hindex
        omega
      rw [getElem_rowPointers, hflatten hrow, Nat.zero_add, List.length_map, List.length_range,
        CsrData.start, List.getD_eq_getElem _ _ hindex']
  have hindices : matrix.toRows.rows.flatten.map Prod.fst = matrix.indices := by
    rw [hall, List.map_map]
    exact hvalues matrix.indices 0
  have hdata : matrix.toRows.rows.flatten.map Prod.snd = matrix.data := by
    rw [hall, List.map_map, matrix.valid.data]
    exact hvalues matrix.data 0
  refine CsrArrays.toCsrData_injective ?_
  change CsrData.ofRows matrix.columns matrix.toRows.rows = matrix.toCsrData
  rw [CsrData.ofRows, hlength, hindptr, hindices, hdata]

/-- Arrays are determined by their rows. -/
theorem CsrArrays.toRows_injective {matrix other : CsrArrays K} (h : matrix.toRows = other.toRows) :
    matrix = other := by
  rw [← matrix.toArrays_toRows, h, other.toArrays_toRows]

end Rows

/-! ## The operations -/

section Operations

variable [Field K] [LinearOrder K]

omit [Field K] [LinearOrder K] in
/-- The inner loop takes the entries of the row from the cursor on. -/
theorem takeRow_eq (ordered : List ((Nat × Nat) × K)) (row : Nat) (rounds : Nat) (built : CsrBuilder K)
    (h : ordered.length ≤ built.cursor + rounds) :
    let taken := (ordered.drop built.cursor).takeWhile fun entry => entry.1.1 = row
    takeRow ordered row rounds built =
      { indptr := built.indptr
        indices := built.indices ++ taken.map fun entry => entry.1.2
        data := built.data ++ taken.map Prod.snd
        cursor := built.cursor + taken.length } := by
  induction rounds generalizing built with
  | zero =>
      have hdrop : ordered.drop built.cursor = [] := List.drop_eq_nil_of_le h
      simp [takeRow, hdrop]
  | succ rounds ih =>
      by_cases hcursor : built.cursor < ordered.length
      · have hdrop := List.drop_eq_getElem_cons hcursor
        rw [takeRow, List.getElem?_eq_getElem hcursor, hdrop]
        by_cases hrow : ordered[built.cursor].1.1 = row
        · dsimp only
          rw [if_pos hrow, ih _ (by dsimp only; omega), List.takeWhile_cons_of_pos (by simpa using hrow)]
          simp only [List.map_cons, List.length_cons, List.append_assoc, List.singleton_append,
            CsrBuilder.mk.injEq, true_and]
          omega
        · dsimp only
          rw [if_neg hrow, List.takeWhile_cons_of_neg (by simpa using hrow)]
          simp
      · have hnone : ordered[built.cursor]? = none := List.getElem?_eq_none (by omega)
        have hdrop : ordered.drop built.cursor = [] := List.drop_eq_nil_of_le (by omega)
        simp [takeRow, hnone, hdrop]

omit [Field K] [LinearOrder K] in
/-- The loop over the rows lays out the rows that the entries are cut into. -/
theorem buildRows_eq (ordered : List ((Nat × Nat) × K)) (rows : List Nat) (built : CsrBuilder K) :
    let cut := cutRows (ordered.drop built.cursor) rows
    buildRows ordered rows built =
      { indptr := built.indptr ++ (rowPointers built.indices.length cut).tail
        indices := built.indices ++ cut.flatten.map Prod.fst
        data := built.data ++ cut.flatten.map Prod.snd
        cursor := built.cursor + cut.flatten.length } := by
  induction rows generalizing built with
  | nil => simp [buildRows, cutRows, rowPointers]
  | cons row rows ih =>
      have htaken := takeRow_eq ordered row ordered.length built (by omega)
      have hrest : ordered.drop (built.cursor +
          ((ordered.drop built.cursor).takeWhile fun entry => entry.1.1 = row).length) =
          (ordered.drop built.cursor).dropWhile fun entry => entry.1.1 = row := by
        have hsplit := List.takeWhile_append_dropWhile (p := fun entry => entry.1.1 = row)
          (l := ordered.drop built.cursor)
        rw [← List.drop_drop]
        have hdropped := congrArg (List.drop ((ordered.drop built.cursor).takeWhile
          fun entry => entry.1.1 = row).length) hsplit
        rw [List.drop_left] at hdropped
        exact hdropped.symm
      rw [buildRows, List.foldl_cons]
      dsimp only at htaken ⊢
      rw [htaken]
      refine (ih _).trans ?_
      rw [hrest, cutRows]
      simp only [List.flatten_cons, List.map_append, List.map_map, List.append_assoc, List.length_append,
        List.length_map, rowPointers, List.tail_cons, CsrBuilder.mk.injEq]
      have hpointers (start : Nat) (rows : List (List (Nat × K))) :
          start :: (rowPointers start rows).tail = rowPointers start rows := by
        cases rows <;> rfl
      exact ⟨congrArg (built.indptr ++ ·) (hpointers _ _), rfl, rfl, Nat.add_assoc _ _ _⟩

omit [Field K] [LinearOrder K] in
/-- The entries are cut into as many rows as there are. -/
theorem length_cutRows (cursor : List ((Nat × Nat) × K)) (rows : List Nat) :
    (cutRows cursor rows).length = rows.length := by
  induction rows generalizing cursor with
  | nil => rfl
  | cons row rows ih => rw [cutRows, List.length_cons, ih, List.length_cons]

namespace CsrArrays

/-- `from_entries` makes the arrays of the matrix of the entries. -/
theorem fromEntries_ok {rows columns : Nat} {entries : List (Nat × Nat × K)} {matrix : CsrMatrix K}
    (h : CsrMatrix.fromEntries rows columns entries = .ok matrix) :
    fromEntries rows columns entries = .ok matrix.toArrays := by
  unfold CsrMatrix.fromEntries csrMatrix at h
  obtain ⟨_, hwithin, hmatrix⟩ := bind_ok.mp h
  split at hmatrix
  case isFalse => cases hmatrix
  case isTrue hvalid =>
    obtain rfl := Except.ok.inj hmatrix
    have hbuilt := buildRows_eq (orderedEntries entries) (List.range rows) {}
    have hrows := length_cutRows (orderedEntries entries) (List.range rows)
    rw [List.length_range] at hrows
    unfold fromEntries
    rw [require_bind_pos (require_ok.mp hwithin)]
    dsimp only at hbuilt ⊢
    rw [hbuilt]
    simp only [List.drop_zero, List.nil_append, List.length_nil]
    have hpointers (rows : List (List (Nat × K))) :
        [0] ++ (rowPointers 0 rows).tail = rowPointers 0 rows := by
      cases rows <;> rfl
    rw [hpointers]
    have hdata : (⟨rows, columns, rowPointers 0 (cutRows (orderedEntries entries) (List.range rows)),
        (cutRows (orderedEntries entries) (List.range rows)).flatten.map Prod.fst,
        (cutRows (orderedEntries entries) (List.range rows)).flatten.map Prod.snd⟩ : CsrData K) =
        CsrData.ofRows columns (cutRows (orderedEntries entries) (List.range rows)) := by
      rw [CsrData.ofRows, hrows]
    rw [hdata]
    exact ofData_valid (CsrData.valid_ofRows ⟨columns, _, hvalid⟩)

omit [LinearOrder K] in
/-- The entries are those of the rows. -/
theorem iterEntries_eq (matrix : CsrArrays K) : matrix.iterEntries = matrix.toRows.iterEntries := by
  have hzip (cells : Nat → List (Nat × K)) (count : Nat) :
      ((List.range count).map cells).zipIdx = (List.range count).map fun row => (cells row, row) := by
    refine List.ext_getElem (by simp) fun index hindex hindex' => ?_
    simp
  unfold iterEntries CsrMatrix.iterEntries toRows
  rw [hzip, List.flatMap_map]
  refine List.flatMap_congr fun row _ => ?_
  rw [CsrData.cells, List.map_map]
  rfl

omit [LinearOrder K] in
/-- The product is that of the rows. -/
theorem matvec_eq (matrix : CsrArrays K) (vector : List K) :
    matrix.matvec vector = matrix.toRows.matvec vector := by
  have hrow (row : Nat) : CsrMatrix.rowProduct vector (matrix.cells row) =
      (matrix.offsets row).foldl (fun total offset =>
        total + matrix.data.getD offset 0 * vector.getD (matrix.indices.getD offset 0) 0) 0 := by
    rw [CsrMatrix.rowProduct, CsrData.cells, List.foldl_map]
  unfold matvec CsrMatrix.matvec toRows
  simp only [List.map_map, Function.comp_def, hrow]

omit [LinearOrder K] in
/-- The product with the transposed matrix is that of the rows. -/
theorem transposeMatvec_eq (matrix : CsrArrays K) (vector : List K) :
    matrix.transposeMatvec vector = matrix.toRows.transposeMatvec vector := by
  unfold transposeMatvec CsrMatrix.transposeMatvec
  rw [← iterEntries_eq, toRows_rowCount, toRows_columns, iterEntries, List.foldl_flatMap]
  simp only [List.foldl_map]

/-- A part is that of the rows. -/
theorem submatrix_ok {matrix : CsrArrays K} {rows columns : List Nat} {part : CsrMatrix K}
    (h : matrix.toRows.submatrix rows columns = .ok part) :
    matrix.submatrix rows columns = .ok part.toArrays := by
  unfold CsrMatrix.submatrix at h
  rw [← iterEntries_eq, toRows_rowCount, toRows_columns] at h
  obtain ⟨_, hunique, h⟩ := bind_ok.mp h
  obtain ⟨_, hrows, h⟩ := bind_ok.mp h
  obtain ⟨_, hcolumns, hpart⟩ := bind_ok.mp h
  unfold submatrix
  rw [require_bind_pos (require_ok.mp hunique), require_bind_pos (require_ok.mp hrows),
    require_bind_pos (require_ok.mp hcolumns)]
  exact fromEntries_ok hpart

/-! ## What the arrays hold -/

/-- The value of the arrays at a row and a column. -/
def entry (matrix : CsrArrays K) (row column : Nat) : K :=
  ((matrix.offsets row).map fun offset =>
    if matrix.indices.getD offset 0 = column then matrix.data.getD offset 0 else 0).sum

omit [LinearOrder K] in
/-- The value of the arrays is that of the rows. -/
theorem entry_eq (matrix : CsrArrays K) (row column : Nat) :
    matrix.entry row column = matrix.toRows.entry row column := by
  have hsum : matrix.entry row column =
      totalAt ((matrix.cells row).map fun cell => (row, cell.1, cell.2)) row column := by
    simp only [entry, totalAt, CsrData.cells, List.map_map, Function.comp_def, true_and]
  by_cases hrow : row < matrix.rows
  · have hmem : matrix.cells row ∈ matrix.toRows.rows :=
      List.mem_map_of_mem (List.mem_range.mpr hrow)
    have hkeys := (matrix.toRows.valid _ hmem).1.imp fun {a b} (hlt : a < b) => hlt.ne
    rw [hsum, totalAt_cells hkeys, CsrMatrix.entry, toRows,
      List.getD_eq_getElem _ _ (by simpa using hrow), List.getElem_map, List.getElem_range]
  · have hnone : matrix.offsets row = [] := by
      have hend : matrix.start (row + 1) = 0 := by
        rw [CsrData.start, List.getD_eq_default]
        rw [matrix.valid.length]
        omega
      rw [CsrData.offsets, hend, Nat.zero_sub]
      rfl
    rw [CsrMatrix.entry, toRows, List.getD_eq_default _ _ (by simpa using hrow), entry, hnone]
    rfl

/-- No value of the arrays is zero. -/
def NoZeros (matrix : CsrArrays K) : Prop :=
  ∀ value ∈ matrix.data, value ≠ 0

end CsrArrays

/-- No value of a matrix is zero. -/
def CsrMatrix.NoZeros (matrix : CsrMatrix K) : Prop :=
  ∀ row ∈ matrix.rows, ∀ cell ∈ row, cell.2 ≠ 0

omit [LinearOrder K] in
/-- The values of the arrays of a matrix are its values. -/
theorem CsrArrays.noZeros_iff (matrix : CsrArrays K) : matrix.NoZeros ↔ matrix.toRows.NoZeros := by
  have hdata : matrix.data = matrix.toRows.rows.flatten.map Prod.snd := by
    conv_lhs => rw [← matrix.toArrays_toRows]
    rfl
  unfold NoZeros CsrMatrix.NoZeros
  rw [hdata]
  simp only [List.mem_map, List.mem_flatten]
  constructor
  · intro h row hrow cell hcell
    exact h cell.2 ⟨cell, ⟨row, hrow, hcell⟩, rfl⟩
  · rintro h _ ⟨cell, ⟨row, hrow, hcell⟩, rfl⟩
    exact h row hrow cell hcell

omit [LinearOrder K] in
/-- Two rows without zeros in which the same values are found are equal. -/
theorem row_eq_of_lookup {row other : List (Nat × K)} (hrow : (row.map Prod.fst).Pairwise (· < ·))
    (hother : (other.map Prod.fst).Pairwise (· < ·)) (hzeros : ∀ cell ∈ row, cell.2 ≠ 0)
    (hzeros' : ∀ cell ∈ other, cell.2 ≠ 0)
    (h : ∀ column, (row.lookup column).getD 0 = (other.lookup column).getD 0) : row = other := by
  have hsubset {row other : List (Nat × K)} (hrow : (row.map Prod.fst).Pairwise (· < ·))
      (hzeros : ∀ cell ∈ row, cell.2 ≠ 0)
      (h : ∀ column, (row.lookup column).getD 0 = (other.lookup column).getD 0) :
      ∀ cell ∈ row, cell ∈ other := by
    intro cell hcell
    have hfound : row.lookup cell.1 = some cell.2 :=
      lookup_of_mem (hrow.imp fun hlt => hlt.ne) hcell
    have hvalue := h cell.1
    rw [hfound, Option.getD_some] at hvalue
    cases hlookup : other.lookup cell.1 with
    | none =>
        rw [hlookup, Option.getD_none] at hvalue
        exact absurd hvalue (hzeros cell hcell)
    | some value =>
        rw [hlookup, Option.getD_some] at hvalue
        rw [← hvalue] at hlookup
        exact mem_of_lookup hlookup
  have hsorted : row.Pairwise fun cell next => cell.1 < next.1 := List.pairwise_map.mp hrow
  have hsorted' : other.Pairwise fun cell next => cell.1 < next.1 := List.pairwise_map.mp hother
  have hnodup {cells : List (Nat × K)} (h : cells.Pairwise fun cell next => cell.1 < next.1) :
      cells.Nodup := h.imp fun {cell next} hlt heq => absurd (heq ▸ hlt) (Nat.lt_irrefl _)
  have hperm : row.Perm other := (List.perm_ext_iff_of_nodup (hnodup hsorted) (hnodup hsorted')).mpr
    fun cell => ⟨hsubset hrow hzeros h cell, hsubset hother hzeros' (fun column => (h column).symm) cell⟩
  exact List.Perm.eq_of_pairwise (fun _ _ _ _ hlt hgt => absurd hgt (Nat.lt_asymm hlt)) hsorted hsorted'
    hperm

omit [LinearOrder K] in
/-- A matrix without zeros is determined by its shape and its values. -/
theorem CsrMatrix.eq_of_entry {matrix other : CsrMatrix K} (hrows : matrix.rowCount = other.rowCount)
    (hcolumns : matrix.columns = other.columns) (hzeros : matrix.NoZeros) (hzeros' : other.NoZeros)
    (h : ∀ row column, matrix.entry row column = other.entry row column) : matrix = other := by
  refine CsrMatrix.eq_of_rows hcolumns (List.ext_getElem hrows fun index hindex hindex' => ?_)
  have hrow := List.getElem_mem hindex
  have hrow' := List.getElem_mem hindex'
  refine row_eq_of_lookup (matrix.valid _ hrow).1 (other.valid _ hrow').1 (hzeros _ hrow)
    (hzeros' _ hrow') fun column => ?_
  have hentry := h index column
  unfold CsrMatrix.entry at hentry
  rwa [List.getD_eq_getElem _ _ hindex, List.getD_eq_getElem _ _ hindex'] at hentry

/-- The matrix of some entries has no zeros. -/
theorem CsrMatrix.fromEntries_noZeros {rows columns : Nat} {entries : List (Nat × Nat × K)}
    {matrix : CsrMatrix K} (h : CsrMatrix.fromEntries rows columns entries = .ok matrix) :
    matrix.NoZeros := by
  have hcut (ordered : List ((Nat × Nat) × K)) (hordered : ∀ entry ∈ ordered, entry.2 ≠ 0)
      (rows : List Nat) : ∀ row ∈ cutRows ordered rows, ∀ cell ∈ row, cell.2 ≠ 0 := by
    induction rows generalizing ordered with
    | nil => exact fun row hrow => absurd hrow List.not_mem_nil
    | cons index rows ih =>
        intro row hrow cell hcell
        rw [cutRows] at hrow
        rcases List.mem_cons.mp hrow with rfl | hrest
        · obtain ⟨entry, hentry, rfl⟩ := List.mem_map.mp hcell
          exact hordered entry ((List.takeWhile_sublist _).subset hentry)
        · exact ih _ (fun entry hentry => hordered entry ((List.dropWhile_sublist _).subset hentry)) row
            hrest cell hcell
  unfold CsrMatrix.fromEntries csrMatrix at h
  obtain ⟨_, _, hmatrix⟩ := bind_ok.mp h
  split at hmatrix
  · obtain rfl := Except.ok.inj hmatrix
    refine hcut (orderedEntries entries) (fun entry hentry => ?_) (List.range rows)
    unfold orderedEntries at hentry
    rw [List.mem_insertionSort, List.mem_filter, decide_eq_true_eq] at hentry
    exact hentry.2
  · cases hmatrix

end Operations

end AstrContinuum
