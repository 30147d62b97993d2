import Mathlib.Algebra.Order.Group.Unbundled.Abs
import Mathlib.Data.List.GetD
import Mathlib.Data.List.Sort
import AstrContinuum.Algebra.ConstrainedSystems
import AstrContinuum.Control.Checked

/-!
# Sparse matrices

`context_graph/matrix.py` over exact numbers, where no value is infinite and no sum is rounded. A matrix
is held row by row: the cells of a row are what `indices` and `data` hold between two values of
`indptr`.
-/

namespace AstrContinuum

open Checked

variable {K : Type}

/-- `CsrMatrix`, with the checks of its constructor: in a row the columns increase and are within the
shape. -/
structure CsrMatrix (K : Type) where
  columns : Nat
  rows : List (List (Nat × K))
  valid : ∀ row ∈ rows, (row.map Prod.fst).Pairwise (· < ·) ∧ ∀ cell ∈ row, cell.1 < columns

namespace CsrMatrix

/-- `shape[0]`. -/
def rowCount (matrix : CsrMatrix K) : Nat :=
  matrix.rows.length

/-- `iter_entries`. -/
def iterEntries (matrix : CsrMatrix K) : List (Nat × Nat × K) :=
  matrix.rows.zipIdx.flatMap fun row => row.1.map fun cell => (row.2, cell.1, cell.2)

end CsrMatrix

/-! ## Building a matrix from entries -/

section Entries

variable [Field K] [LinearOrder K]

/-- `accumulated[key] = accumulated.get(key, 0.0) + value`. -/
def accumulate : List ((Nat × Nat) × K) → Nat × Nat × K → List ((Nat × Nat) × K)
  | [], (row, column, value) => [((row, column), value)]
  | (key, total) :: rest, (row, column, value) =>
      if key = (row, column) then (key, total + value) :: rest
      else (key, total) :: accumulate rest (row, column, value)

/-- The order of the keys. -/
def keyLe (left right : (Nat × Nat) × K) : Prop :=
  left.1.1 < right.1.1 ∨ (left.1.1 = right.1.1 ∧ left.1.2 ≤ right.1.2)

instance (left right : (Nat × Nat) × K) : Decidable (keyLe left right) :=
  inferInstanceAs (Decidable (_ ∨ _))

/-- The loop that cuts the ordered entries into rows; `cursor` is what is left of them. -/
def cutRows (cursor : List ((Nat × Nat) × K)) : List Nat → List (List (Nat × K))
  | [] => []
  | row :: rest =>
      ((cursor.takeWhile fun entry => entry.1.1 = row).map fun entry => (entry.1.2, entry.2)) ::
        cutRows (cursor.dropWhile fun entry => entry.1.1 = row) rest

/-- `ordered`. -/
def orderedEntries (entries : List (Nat × Nat × K)) : List ((Nat × Nat) × K) :=
  ((entries.foldl accumulate []).filter fun entry => entry.2 ≠ 0).insertionSort keyLe

/-- The constructor `CsrMatrix(...)`. -/
def csrMatrix (columns : Nat) (rows : List (List (Nat × K))) : Except String (CsrMatrix K) :=
  if h : ∀ row ∈ rows, (row.map Prod.fst).Pairwise (· < ·) ∧ ∀ cell ∈ row, cell.1 < columns then
    .ok ⟨columns, rows, h⟩
  else .error "matrix row indices must be strictly increasing"

namespace CsrMatrix

/-- `from_entries`. -/
def fromEntries (rows columns : Nat) (entries : List (Nat × Nat × K)) :
    Except String (CsrMatrix K) := do
  require (∀ entry ∈ entries, entry.1 < rows ∧ entry.2.1 < columns)
    "matrix coordinate is out of bounds"
  csrMatrix columns (cutRows (orderedEntries entries) (List.range rows))

/-- The sum over a row of `matvec`. -/
def rowProduct (vector : List K) (row : List (Nat × K)) : K :=
  row.foldl (fun total cell => total + cell.2 * vector.getD cell.1 0) 0

/-- `matvec`. -/
def matvec (matrix : CsrMatrix K) (vector : List K) : Except String (List K) := do
  require (vector.length = matrix.columns) "vector length does not match matrix shape"
  pure (matrix.rows.map (rowProduct vector))

/-- `transpose_matvec`. -/
def transposeMatvec (matrix : CsrMatrix K) (vector : List K) : Except String (List K) := do
  require (vector.length = matrix.rowCount) "vector length does not match matrix shape"
  pure (matrix.iterEntries.foldl
    (fun result entry => result.modify entry.2.1 (· + entry.2.2 * vector.getD entry.1 0))
    (List.replicate matrix.columns 0))

/-- An entry under the positions of its row and its column, where both are chosen. -/
def project (rows columns : List Nat) (entry : Nat × Nat × K) : Option (Nat × Nat × K) :=
  if entry.1 ∈ rows ∧ entry.2.1 ∈ columns then
    some (rows.idxOf entry.1, columns.idxOf entry.2.1, entry.2.2)
  else none

/-- `submatrix`. -/
def submatrix (matrix : CsrMatrix K) (rows columns : List Nat) : Except String (CsrMatrix K) := do
  require (rows.Nodup ∧ columns.Nodup) "submatrix indices must be unique"
  require (∀ row ∈ rows, row < matrix.rowCount) "submatrix row index is out of bounds"
  require (∀ column ∈ columns, column < matrix.columns) "submatrix column index is out of bounds"
  fromEntries rows.length columns.length (matrix.iterEntries.filterMap (project rows columns))

/-- `matrix_infinity_norm`. -/
def infinityNorm (matrix : CsrMatrix K) : K :=
  matrix.rows.foldl (fun maximum row => max maximum (row.map fun cell => |cell.2|).sum) 0

end CsrMatrix

/-- `vector_infinity_norm`. -/
def vectorInfinityNorm (vector : List K) : K :=
  (vector.map fun value => |value|).foldl max 0

end Entries

/-! ## What a matrix holds -/

section Entry

variable [Field K]

/-- The value of a matrix at a row and a column. -/
def CsrMatrix.entry (matrix : CsrMatrix K) (row column : Nat) : K :=
  ((matrix.rows.getD row []).lookup column).getD 0

/-- The sum of the entries at a row and a column. -/
def totalAt (entries : List (Nat × Nat × K)) (row column : Nat) : K :=
  (entries.map fun entry => if entry.1 = row ∧ entry.2.1 = column then entry.2.2 else 0).sum

@[simp] theorem totalAt_nil (row column : Nat) :
    totalAt ([] : List (Nat × Nat × K)) row column = 0 := rfl

@[simp] theorem totalAt_cons (entry : Nat × Nat × K) (entries : List (Nat × Nat × K))
    (row column : Nat) : totalAt (entry :: entries) row column =
      (if entry.1 = row ∧ entry.2.1 = column then entry.2.2 else 0) +
        totalAt entries row column := by
  simp [totalAt]

@[simp] theorem totalAt_append (entries others : List (Nat × Nat × K)) (row column : Nat) :
    totalAt (entries ++ others) row column =
      totalAt entries row column + totalAt others row column := by
  simp [totalAt]

/-- Where no entry is, the sum is zero. -/
theorem totalAt_eq_zero {entries : List (Nat × Nat × K)} {row column : Nat}
    (h : ∀ entry ∈ entries, ¬ (entry.1 = row ∧ entry.2.1 = column)) :
    totalAt entries row column = 0 := by
  refine List.sum_eq_zero fun value hvalue => ?_
  obtain ⟨entry, hentry, rfl⟩ := List.mem_map.mp hvalue
  exact if_neg (h entry hentry)

/-- In an association with distinct keys, a pair is found under its key. -/
theorem lookup_of_mem {α β : Type} [BEq α] [LawfulBEq α] {pairs : List (α × β)} {key : α} {value : β}
    (hkeys : (pairs.map Prod.fst).Nodup) (h : (key, value) ∈ pairs) :
    pairs.lookup key = some value := by
  induction pairs with
  | nil => cases h
  | cons pair pairs ih =>
      rw [List.map_cons, List.nodup_cons] at hkeys
      rcases List.mem_cons.mp h with rfl | hrest
      · rw [List.lookup_cons_self]
      · have hne : key ≠ pair.1 := by
          rintro rfl
          exact hkeys.1 (List.mem_map.mpr ⟨_, hrest, rfl⟩)
        rw [List.lookup_cons, beq_false_of_ne hne]
        exact ih hkeys.2 hrest

/-- A key that no pair has is not found. -/
theorem lookup_of_not_mem {α β : Type} [BEq α] [LawfulBEq α] {pairs : List (α × β)} {key : α}
    (h : key ∉ pairs.map Prod.fst) : pairs.lookup key = none := by
  rw [List.lookup_eq_none_iff]
  intro pair hpair
  simpa using fun heq : key = pair.1 => h (heq ▸ List.mem_map.mpr ⟨pair, hpair, rfl⟩)

/-- What is found is in the association. -/
theorem mem_of_lookup {α β : Type} [BEq α] [LawfulBEq α] {pairs : List (α × β)} {key : α} {value : β}
    (h : pairs.lookup key = some value) : (key, value) ∈ pairs := by
  obtain ⟨before, after, rfl, -⟩ := List.lookup_eq_some_iff.mp h
  exact List.mem_append_right _ List.mem_cons_self

end Entry

/-! ## The matrix of some entries -/

section FromEntries

variable [Field K] [LinearOrder K]

omit [LinearOrder K] in
/-- The keys after another entry. -/
theorem keys_accumulate (pairs : List ((Nat × Nat) × K)) (entry : Nat × Nat × K) :
    (accumulate pairs entry).map Prod.fst =
      if (entry.1, entry.2.1) ∈ pairs.map Prod.fst then pairs.map Prod.fst
      else pairs.map Prod.fst ++ [(entry.1, entry.2.1)] := by
  obtain ⟨row, column, value⟩ := entry
  induction pairs with
  | nil => rfl
  | cons pair pairs ih =>
      obtain ⟨key, total⟩ := pair
      unfold accumulate
      by_cases hkey : key = (row, column)
      · simp [hkey]
      · have hne : (row, column) ≠ key := fun heq => hkey heq.symm
        rw [if_neg hkey, List.map_cons, ih]
        by_cases hmem : (row, column) ∈ pairs.map Prod.fst <;> simp [hmem, hne]

omit [LinearOrder K] in
/-- The value under a key after another entry. -/
theorem lookup_accumulate (pairs : List ((Nat × Nat) × K)) (entry : Nat × Nat × K)
    (row column : Nat) :
    ((accumulate pairs entry).lookup (row, column)).getD 0 =
      (pairs.lookup (row, column)).getD 0 +
        if entry.1 = row ∧ entry.2.1 = column then entry.2.2 else 0 := by
  obtain ⟨row', column', value⟩ := entry
  induction pairs with
  | nil =>
      by_cases hkey : row' = row ∧ column' = column
      · obtain ⟨rfl, rfl⟩ := hkey
        simp [accumulate]
      · have hne : ((row, column) == (row', column')) = false := by
          refine beq_false_of_ne fun heq => hkey ?_
          exact ⟨(Prod.mk.inj heq).1.symm, (Prod.mk.inj heq).2.symm⟩
        simp [accumulate, List.lookup_cons, hne, hkey]
  | cons pair pairs ih =>
      obtain ⟨key, total⟩ := pair
      unfold accumulate
      by_cases hsame : key = (row', column')
      · subst hsame
        rw [if_pos rfl, List.lookup_cons, List.lookup_cons]
        by_cases hkey : row' = row ∧ column' = column
        · obtain ⟨rfl, rfl⟩ := hkey
          simp
        · have hne : ((row, column) == (row', column')) = false := by
            refine beq_false_of_ne fun heq => hkey ?_
            exact ⟨(Prod.mk.inj heq).1.symm, (Prod.mk.inj heq).2.symm⟩
          simp [hne, hkey]
      · rw [if_neg hsame, List.lookup_cons, List.lookup_cons]
        by_cases hkey : (row, column) = key
        · subst hkey
          have hne : ¬ (row' = row ∧ column' = column) := fun heq =>
            hsame (by rw [heq.1, heq.2])
          simp [hne]
        · rw [beq_false_of_ne hkey]
          exact ih

omit [LinearOrder K] in
/-- The accumulated values: one for every key, the sum of its entries. -/
theorem accumulated (entries : List (Nat × Nat × K)) :
    ((entries.foldl accumulate []).map Prod.fst).Nodup ∧
      (∀ row column, ((entries.foldl accumulate []).lookup (row, column)).getD 0 =
        totalAt entries row column) ∧
      ∀ pair ∈ entries.foldl accumulate [], ∃ entry ∈ entries, pair.1 = (entry.1, entry.2.1) := by
  induction entries using List.reverseRecOn with
  | nil => simp
  | append_singleton entries entry ih =>
      obtain ⟨hkeys, hlookup, horigin⟩ := ih
      rw [List.foldl_append, List.foldl_cons, List.foldl_nil]
      refine ⟨?_, fun row column => ?_, fun pair hpair => ?_⟩
      · rw [keys_accumulate]
        by_cases hmem : (entry.1, entry.2.1) ∈ (entries.foldl accumulate []).map Prod.fst
        · rwa [if_pos hmem]
        · rw [if_neg hmem]
          exact List.Nodup.append hkeys (List.nodup_singleton _)
            (List.disjoint_singleton.mpr hmem)
      · rw [lookup_accumulate, hlookup]
        simp
      · have hkey : pair.1 ∈ (accumulate (entries.foldl accumulate []) entry).map Prod.fst :=
          List.mem_map.mpr ⟨pair, hpair, rfl⟩
        rw [keys_accumulate] at hkey
        have hcases : pair.1 ∈ (entries.foldl accumulate []).map Prod.fst ∨
            pair.1 = (entry.1, entry.2.1) := by
          by_cases hmem : (entry.1, entry.2.1) ∈ (entries.foldl accumulate []).map Prod.fst
          · rw [if_pos hmem] at hkey
            exact .inl hkey
          · rw [if_neg hmem, List.mem_append, List.mem_singleton] at hkey
            exact hkey
        rcases hcases with hold | hnew
        · obtain ⟨old, hold, heq⟩ := List.mem_map.mp hold
          obtain ⟨source, hsource, hsourcekey⟩ := horigin old hold
          exact ⟨source, List.mem_append_left _ hsource, heq ▸ hsourcekey⟩
        · exact ⟨entry, List.mem_append_right _ List.mem_cons_self, hnew⟩

omit [Field K] [LinearOrder K] in
/-- Any two keys are ordered. -/
instance : Std.Total (keyLe : (Nat × Nat) × K → (Nat × Nat) × K → Prop) where
  total left right := by
    unfold keyLe
    omega

omit [Field K] [LinearOrder K] in
/-- The order of the keys is transitive. -/
instance : IsTrans ((Nat × Nat) × K) keyLe where
  trans left middle right := by
    unfold keyLe
    omega

/-- The strict order of the keys. -/
def keyLt (left right : (Nat × Nat) × K) : Prop :=
  left.1.1 < right.1.1 ∨ (left.1.1 = right.1.1 ∧ left.1.2 < right.1.2)

/-- The ordered entries: strictly ordered keys, and under each the sum of its entries. -/
theorem orderedEntries_spec (entries : List (Nat × Nat × K)) :
    (orderedEntries entries).Pairwise keyLt ∧
      ((orderedEntries entries).map Prod.fst).Nodup ∧
      (∀ row column, ((orderedEntries entries).lookup (row, column)).getD 0 =
        totalAt entries row column) ∧
      ∀ pair ∈ orderedEntries entries, ∃ entry ∈ entries, pair.1 = (entry.1, entry.2.1) := by
  obtain ⟨hkeys, hlookup, horigin⟩ := accumulated entries
  have hmem (pair : (Nat × Nat) × K) : pair ∈ orderedEntries entries ↔
      pair ∈ entries.foldl accumulate [] ∧ pair.2 ≠ 0 := by
    unfold orderedEntries
    rw [List.mem_insertionSort, List.mem_filter, decide_eq_true_eq]
  have hnodup : ((orderedEntries entries).map Prod.fst).Nodup := by
    have hfiltered := hkeys.sublist (List.Sublist.map Prod.fst
      (List.filter_sublist (p := fun entry => decide (entry.2 ≠ 0))))
    exact ((List.perm_insertionSort _ _).map _).nodup_iff.mpr hfiltered
  refine ⟨?_, hnodup, fun row column => ?_, fun pair hpair => horigin pair ((hmem pair).mp hpair).1⟩
  · have hsorted : (orderedEntries entries).Pairwise keyLe := List.pairwise_insertionSort _ _
    refine (hsorted.and (List.pairwise_map.mp hnodup)).imp fun {left right} hpair => ?_
    obtain ⟨hle, hne⟩ := hpair
    have hparts : left.1.1 ≠ right.1.1 ∨ left.1.2 ≠ right.1.2 := by
      by_contra hsame
      rw [not_or, not_ne_iff, not_ne_iff] at hsame
      exact hne (Prod.ext hsame.1 hsame.2)
    unfold keyLe at hle
    unfold keyLt
    omega
  · rw [← hlookup]
    cases hfound : (orderedEntries entries).lookup (row, column) with
    | some value =>
        have hvalue := ((hmem _).mp (mem_of_lookup hfound)).1
        rw [lookup_of_mem hkeys hvalue]
    | none =>
        cases haccumulated : (entries.foldl accumulate []).lookup (row, column) with
        | none => rfl
        | some value =>
            by_cases hzero : value = 0
            · simp [hzero]
            · have hvalue := (hmem _).mpr ⟨mem_of_lookup haccumulated, hzero⟩
              rw [lookup_of_mem hnodup hvalue] at hfound
              cases hfound

omit [Field K] [LinearOrder K] in
/-- In ordered entries that start at a row, the entries of the row are the first ones. -/
theorem takeWhile_row {cursor : List ((Nat × Nat) × K)} {row : Nat} (hsorted : cursor.Pairwise keyLt)
    (hrow : ∀ entry ∈ cursor, row ≤ entry.1.1) :
    (cursor.takeWhile fun entry => entry.1.1 = row) = cursor.filter (fun entry => entry.1.1 = row) ∧
      (cursor.dropWhile fun entry => entry.1.1 = row) =
        cursor.filter fun entry => entry.1.1 ≠ row := by
  induction cursor with
  | nil => exact ⟨rfl, rfl⟩
  | cons entry cursor ih =>
      obtain ⟨hfirst, hrest⟩ := List.pairwise_cons.mp hsorted
      by_cases hentry : entry.1.1 = row
      · obtain ⟨htake, hdrop⟩ := ih hrest fun other hother =>
          hrow other (List.mem_cons_of_mem _ hother)
        simp [hentry, htake, hdrop]
      · have hlater : ∀ other ∈ cursor, other.1.1 ≠ row := by
          intro other hother
          have hlt := hfirst other hother
          have hle := hrow entry List.mem_cons_self
          unfold keyLt at hlt
          omega
        have hnone : cursor.filter (fun entry => entry.1.1 = row) = [] :=
          List.filter_eq_nil_iff.mpr fun other hother => by simpa using hlater other hother
        have hall : cursor.filter (fun entry => entry.1.1 ≠ row) = cursor :=
          List.filter_eq_self.mpr fun other hother => by simpa using hlater other hother
        simpa [hentry, hnone] using hall.symm

omit [Field K] [LinearOrder K] in
/-- The loop gives every row the entries of the row. -/
theorem cutRows_eq (count : Nat) : ∀ {cursor : List ((Nat × Nat) × K)} {first : Nat},
    cursor.Pairwise keyLt → (∀ entry ∈ cursor, first ≤ entry.1.1) →
    cutRows cursor (List.range' first count) = (List.range' first count).map fun row =>
      (cursor.filter fun entry => entry.1.1 = row).map fun entry => (entry.1.2, entry.2) := by
  induction count with
  | zero => exact fun _ _ => rfl
  | succ count ih =>
      intro cursor first hsorted hrow
      obtain ⟨htake, hdrop⟩ := takeWhile_row hsorted hrow
      rw [List.range'_succ, cutRows, List.map_cons, htake, hdrop, ih (hsorted.filter _)]
      · congr 1
        refine List.map_congr_left fun row hlater => ?_
        have hne : first < row := by
          have := (List.mem_range'_1.mp hlater).1
          omega
        rw [List.filter_filter]
        congr 1
        refine List.filter_congr fun entry _ => ?_
        by_cases hentry : entry.1.1 = row
        · simp [hentry, hne.ne']
        · simp [hentry]
      · intro entry hentry
        obtain ⟨hmem, hne⟩ := List.mem_filter.mp hentry
        have hle := hrow entry hmem
        have hne := of_decide_eq_true hne
        omega

omit [Field K] [LinearOrder K] in
/-- A column is looked up in the cells of a row as the key in all entries. -/
theorem lookup_row (pairs : List ((Nat × Nat) × K)) (row column : Nat) :
    ((pairs.filter fun entry => entry.1.1 = row).map fun entry => (entry.1.2, entry.2)).lookup
      column = pairs.lookup (row, column) := by
  induction pairs with
  | nil => rfl
  | cons pair pairs ih =>
      obtain ⟨⟨row', column'⟩, value⟩ := pair
      by_cases hrow : row' = row
      · subst hrow
        by_cases hcolumn : column = column'
        · subst hcolumn
          simp
        · have hkey : ((row', column) == (row', column')) = false :=
            beq_false_of_ne fun heq => hcolumn (Prod.mk.inj heq).2
          simp only [List.filter_cons, decide_true, if_true, List.map_cons, List.lookup_cons,
            beq_false_of_ne hcolumn, hkey]
          exact ih
      · have hkey : ((row, column) == (row', column')) = false :=
          beq_false_of_ne fun heq => hrow (Prod.mk.inj heq).1.symm
        simp only [List.filter_cons, hrow, decide_false, Bool.false_eq_true, if_false,
          List.lookup_cons, hkey]
        exact ih

/-- A matrix of entries within the shape: the value at a place is the sum of its entries. -/
theorem fromEntries_returns {rows columns : Nat} {entries : List (Nat × Nat × K)}
    (h : ∀ entry ∈ entries, entry.1 < rows ∧ entry.2.1 < columns) :
    ∃ matrix, CsrMatrix.fromEntries rows columns entries = .ok matrix ∧
      matrix.rowCount = rows ∧ matrix.columns = columns ∧
      ∀ row column, matrix.entry row column = totalAt entries row column := by
  obtain ⟨hsorted, hkeys, hlookup, horigin⟩ := orderedEntries_spec entries
  have hcut := cutRows_eq rows hsorted fun _ _ => Nat.zero_le _
  rw [← List.range_eq_range'] at hcut
  have hvalid : ∀ row ∈ cutRows (orderedEntries entries) (List.range rows),
      (row.map Prod.fst).Pairwise (· < ·) ∧ ∀ cell ∈ row, cell.1 < columns := by
    rw [hcut]
    intro row hrow
    obtain ⟨index, _, rfl⟩ := List.mem_map.mp hrow
    constructor
    · rw [List.map_map, List.pairwise_map]
      refine (hsorted.filter _).imp_of_mem fun {left right} hleft hright hlt => ?_
      have hleft := of_decide_eq_true (List.mem_filter.mp hleft).2
      have hright := of_decide_eq_true (List.mem_filter.mp hright).2
      unfold keyLt at hlt
      simp only [Function.comp_apply]
      omega
    · intro cell hcell
      obtain ⟨pair, hpair, rfl⟩ := List.mem_map.mp hcell
      obtain ⟨entry, hentry, hkey⟩ := horigin pair (List.mem_filter.mp hpair).1
      rw [hkey]
      exact (h entry hentry).2
  refine ⟨⟨columns, _, hvalid⟩, ?_, ?_, rfl, fun row column => ?_⟩
  · unfold CsrMatrix.fromEntries csrMatrix
    rw [require_bind_pos h]
    exact dif_pos hvalid
  · have hlength := congrArg List.length hcut
    rwa [List.length_map, List.length_range] at hlength
  · unfold CsrMatrix.entry
    simp only [hcut]
    by_cases hrow : row < rows
    · rw [List.getD_eq_getElem _ _ (by simpa using hrow), List.getElem_map, List.getElem_range,
        lookup_row, hlookup]
    · rw [List.getD_eq_default _ _ (by simpa using hrow)]
      refine (totalAt_eq_zero fun entry hentry hat => hrow ?_).symm
      rw [← hat.1]
      exact (h entry hentry).1

omit [LinearOrder K] in
/-- Where every item gives the entries of its own row, the entries of a row sum to those of its item. -/
theorem totalAt_zipIdx {α : Type} (entries : α → Nat → List (Nat × Nat × K))
    (hrow : ∀ item index, ∀ entry ∈ entries item index, entry.1 = index) (items : List α)
    (row column : Nat) :
    totalAt (items.zipIdx.flatMap fun item => entries item.1 item.2) row column =
      (items[row]?).elim 0 fun item => totalAt (entries item row) row column := by
  suffices h : ∀ (items : List α) (first : Nat),
      totalAt ((items.zipIdx first).flatMap fun item => entries item.1 item.2) row column =
        if first ≤ row then
          (items[row - first]?).elim 0 fun item => totalAt (entries item row) row column
        else 0 by
    have hitems := h items 0
    rwa [if_pos (Nat.zero_le row), Nat.sub_zero] at hitems
  intro items
  induction items with
  | nil => simp
  | cons item items ih =>
      intro first
      rw [List.zipIdx_cons, List.flatMap_cons, totalAt_append, ih]
      by_cases hfirst : first = row
      · subst hfirst
        rw [if_neg (by omega), if_pos le_rfl, Nat.sub_self, List.getElem?_cons_zero, add_zero]
        rfl
      · have hnone : totalAt (entries item first) row column = 0 :=
          totalAt_eq_zero fun entry hentry hat =>
            hfirst ((hrow item first entry hentry).symm.trans hat.1)
        rw [hnone, zero_add]
        by_cases hle : first ≤ row
        · have hsub : row - first = (row - (first + 1)) + 1 := by omega
          rw [if_pos (by omega), if_pos hle, hsub, List.getElem?_cons_succ]
        · rw [if_neg (by omega), if_neg hle]

omit [LinearOrder K] in
/-- The cells of a row sum to what is looked up. -/
theorem totalAt_cells {cells : List (Nat × K)} (hkeys : (cells.map Prod.fst).Nodup)
    (row column : Nat) :
    totalAt (cells.map fun cell => (row, cell.1, cell.2)) row column =
      (cells.lookup column).getD 0 := by
  induction cells with
  | nil => rfl
  | cons cell cells ih =>
      obtain ⟨column', value⟩ := cell
      rw [List.map_cons, List.nodup_cons] at hkeys
      rw [List.map_cons, totalAt_cons, ih hkeys.2, List.lookup_cons]
      by_cases hcolumn : column' = column
      · have hnone : cells.lookup column = none := lookup_of_not_mem (hcolumn ▸ hkeys.1)
        simp [hcolumn, hnone]
      · have hne : (column == column') = false := beq_false_of_ne fun heq => hcolumn heq.symm
        simp [hcolumn, hne]

omit [LinearOrder K] in
/-- The entries of a matrix sum to its values. -/
theorem totalAt_iterEntries (matrix : CsrMatrix K) (row column : Nat) :
    totalAt matrix.iterEntries row column = matrix.entry row column := by
  have hentries := totalAt_zipIdx (fun (cells : List (Nat × K)) index =>
    cells.map fun cell => (index, cell.1, cell.2)) (fun cells index entry hentry => by
      obtain ⟨cell, _, rfl⟩ := List.mem_map.mp hentry
      rfl) matrix.rows row column
  refine hentries.trans ?_
  unfold CsrMatrix.entry
  by_cases hrow : row < matrix.rows.length
  · have hcells := matrix.valid _ (List.getElem_mem hrow)
    rw [List.getElem?_eq_getElem hrow, List.getD_eq_getElem _ _ hrow, Option.elim_some,
      totalAt_cells (hcells.1.imp fun hlt => hlt.ne)]
  · rw [List.getElem?_eq_none (Nat.le_of_not_lt hrow),
      List.getD_eq_default _ _ (Nat.le_of_not_lt hrow)]
    rfl

omit [LinearOrder K] in
/-- The chosen entries under their positions sum to the values at the chosen places. -/
theorem totalAt_project {rows columns : List Nat} (hrows : rows.Nodup) (hcolumns : columns.Nodup)
    (entries : List (Nat × Nat × K)) {i j : Nat} (hi : i < rows.length) (hj : j < columns.length) :
    totalAt (entries.filterMap (CsrMatrix.project rows columns)) i j =
      totalAt entries rows[i] columns[j] := by
  induction entries with
  | nil => rfl
  | cons entry entries ih =>
      obtain ⟨row, column, value⟩ := entry
      have hplace : (row = rows[i] ∧ column = columns[j]) ↔
          (row ∈ rows ∧ column ∈ columns) ∧ rows.idxOf row = i ∧ columns.idxOf column = j := by
        constructor
        · rintro ⟨rfl, rfl⟩
          exact ⟨⟨List.getElem_mem hi, List.getElem_mem hj⟩, hrows.idxOf_getElem i hi,
            hcolumns.idxOf_getElem j hj⟩
        · rintro ⟨⟨hrow, hcolumn⟩, rfl, rfl⟩
          exact ⟨(List.getElem_idxOf _).symm, (List.getElem_idxOf _).symm⟩
      rw [totalAt_cons, ← ih]
      by_cases hchosen : row ∈ rows ∧ column ∈ columns
      · have hproject : CsrMatrix.project rows columns (row, column, value) =
            some (rows.idxOf row, columns.idxOf column, value) := if_pos hchosen
        rw [List.filterMap_cons_some hproject, totalAt_cons]
        simp only [hplace, hchosen, true_and]
      · have hproject : CsrMatrix.project rows columns (row, column, value) = none :=
          if_neg hchosen
        rw [List.filterMap_cons_none hproject]
        simp only [hplace, hchosen, false_and, if_false, zero_add]

omit [Field K] [LinearOrder K] in
/-- The entries of a matrix lie within its shape. -/
theorem iterEntries_within (matrix : CsrMatrix K) {entry : Nat × Nat × K}
    (h : entry ∈ matrix.iterEntries) :
    entry.1 < matrix.rowCount ∧ entry.2.1 < matrix.columns := by
  unfold CsrMatrix.iterEntries at h
  obtain ⟨⟨cells, index⟩, hcells, hentry⟩ := List.mem_flatMap.mp h
  obtain ⟨cell, hcell, rfl⟩ := List.mem_map.mp hentry
  have hindex := List.mem_zipIdx hcells
  have hrow : index < matrix.rows.length := by simpa using hindex.2.1
  refine ⟨hrow, ?_⟩
  refine (matrix.valid cells ?_).2 cell hcell
  rw [hindex.2.2]
  exact List.getElem_mem _

/-- A part of a matrix: its values are those of the chosen rows and columns, in the given order. -/
theorem submatrix_returns (matrix : CsrMatrix K) {rows columns : List Nat} (hrows : rows.Nodup)
    (hcolumns : columns.Nodup) (hrowsWithin : ∀ row ∈ rows, row < matrix.rowCount)
    (hcolumnsWithin : ∀ column ∈ columns, column < matrix.columns) :
    ∃ part, matrix.submatrix rows columns = .ok part ∧ part.rowCount = rows.length ∧
      part.columns = columns.length ∧
      ∀ i j, (hi : i < rows.length) → (hj : j < columns.length) →
        part.entry i j = matrix.entry rows[i] columns[j] := by
  have hwithin : ∀ entry ∈ matrix.iterEntries.filterMap (CsrMatrix.project rows columns),
      entry.1 < rows.length ∧ entry.2.1 < columns.length := by
    intro entry hentry
    obtain ⟨source, _, hsource⟩ := List.mem_filterMap.mp hentry
    unfold CsrMatrix.project at hsource
    obtain ⟨hchosen, heq⟩ := Option.ite_none_right_eq_some.mp hsource
    rw [← Option.some.inj heq]
    exact ⟨List.idxOf_lt_length_iff.mpr hchosen.1, List.idxOf_lt_length_iff.mpr hchosen.2⟩
  obtain ⟨part, hpart, hpartRows, hpartColumns, hentry⟩ := fromEntries_returns hwithin
  refine ⟨part, ?_, hpartRows, hpartColumns, fun i j hi hj => ?_⟩
  · unfold CsrMatrix.submatrix
    rw [require_bind_pos ⟨hrows, hcolumns⟩, require_bind_pos hrowsWithin,
      require_bind_pos hcolumnsWithin]
    exact hpart
  · rw [hentry, totalAt_project hrows hcolumns _ hi hj, totalAt_iterEntries]

end FromEntries

/-! ## Matrices and vectors -/

section Vectors

open Matrix

variable [Field K]

/-- The values of a sparse matrix as a matrix. -/
def CsrMatrix.toMatrix (matrix : CsrMatrix K) (rows columns : Nat) :
    Matrix (Fin rows) (Fin columns) K :=
  Matrix.of fun i j => matrix.entry i j

/-- The values of a list as a vector. -/
def toVector (size : Nat) (values : List K) : Fin size → K :=
  fun i => values.getD i 0

/-- Two lists of one length with one vector are equal. -/
theorem toVector_injective {size : Nat} {values others : List K} (hvalues : values.length = size)
    (hothers : others.length = size) (h : toVector size values = toVector size others) :
    values = others := by
  refine List.ext_getElem (hvalues.trans hothers.symm) fun i hi hi' => ?_
  have hat := congrFun h ⟨i, hvalues ▸ hi⟩
  unfold toVector at hat
  rwa [List.getD_eq_getElem _ _ hi, List.getD_eq_getElem _ _ hi'] at hat

/-- Every vector is that of a list. -/
theorem toVector_ofFn {size : Nat} (vector : Fin size → K) :
    toVector size (List.ofFn vector) = vector := by
  funext i
  unfold toVector
  rw [List.getD_eq_getElem _ _ (by simp), List.getElem_ofFn]

/-- The product of a row is the sum over all columns. -/
theorem rowProduct_eq {row : List (Nat × K)} {size : Nat} (hkeys : (row.map Prod.fst).Nodup)
    (hwithin : ∀ cell ∈ row, cell.1 < size) (vector : List K) :
    CsrMatrix.rowProduct vector row =
      ∑ j : Fin size, (row.lookup (j : Nat)).getD 0 * toVector size vector j := by
  have hsum (start : K) : row.foldl (fun total cell => total + cell.2 * vector.getD cell.1 0) start =
      start + ∑ j : Fin size, (row.lookup (j : Nat)).getD 0 * toVector size vector j := by
    induction row generalizing start with
    | nil => simp
    | cons cell row ih =>
        obtain ⟨column, value⟩ := cell
        rw [List.map_cons, List.nodup_cons] at hkeys
        have hcolumn : column < size := hwithin _ List.mem_cons_self
        have hfirst (j : Fin size) : (((column, value) :: row).lookup (j : Nat)).getD 0 =
            (if j = ⟨column, hcolumn⟩ then value else 0) + (row.lookup (j : Nat)).getD 0 := by
          rw [List.lookup_cons]
          by_cases hj : (j : Nat) = column
          · have hnone : row.lookup (j : Nat) = none := lookup_of_not_mem (hj ▸ hkeys.1)
            have heq : j = ⟨column, hcolumn⟩ := Fin.ext hj
            simp [heq, hj ▸ hnone]
          · have hne : j ≠ ⟨column, hcolumn⟩ := fun heq => hj (congrArg Fin.val heq)
            rw [beq_false_of_ne hj, if_neg hne, zero_add]
        rw [List.foldl_cons, ih hkeys.2 fun other hother => hwithin other
          (List.mem_cons_of_mem _ hother)]
        simp only [hfirst, add_mul, Finset.sum_add_distrib, ite_mul, zero_mul,
          Finset.sum_ite_eq', Finset.mem_univ, if_true]
        unfold toVector
        rw [add_assoc]
  unfold CsrMatrix.rowProduct
  rw [hsum, zero_add]

/-- A product with a vector of the right length. -/
theorem matvec_returns (matrix : CsrMatrix K) {vector : List K}
    (h : vector.length = matrix.columns) :
    ∃ product, matrix.matvec vector = .ok product ∧ product.length = matrix.rowCount ∧
      toVector matrix.rowCount product =
        matrix.toMatrix matrix.rowCount matrix.columns *ᵥ toVector matrix.columns vector := by
  refine ⟨_, require_bind_pos h, List.length_map _, ?_⟩
  funext i
  have hi : (i : Nat) < matrix.rows.length := i.isLt
  have hrow := matrix.valid _ (List.getElem_mem hi)
  unfold toVector
  rw [List.getD_eq_getElem _ _ (by simpa using hi), List.getElem_map,
    rowProduct_eq (hrow.1.imp fun hlt => hlt.ne) hrow.2]
  refine Finset.sum_congr rfl fun j _ => ?_
  have hentry : matrix.entry i j = (matrix.rows[(i : Nat)].lookup (j : Nat)).getD 0 := by
    unfold CsrMatrix.entry
    rw [List.getD_eq_getElem _ _ hi]
  exact congrArg (fun value => value * toVector matrix.columns vector j) hentry.symm

/-- The products of the rows with a vector. -/
theorem toVector_rowProducts {part : CsrMatrix K} {rows width : Nat} (hrows : part.rowCount = rows)
    (hwidth : part.columns = width) {vector : List K} (h : vector.length = width) :
    toVector rows (part.rows.map (CsrMatrix.rowProduct vector)) =
      part.toMatrix rows width *ᵥ toVector width vector := by
  subst hrows
  subst hwidth
  obtain ⟨product, hproduct, _, hspec⟩ := matvec_returns part h
  obtain rfl : part.rows.map (CsrMatrix.rowProduct vector) = product :=
    Except.ok.inj ((require_bind_pos h).symm.trans hproduct)
  exact hspec

/-- A list of zeros is the zero vector. -/
theorem toVector_replicate (size : Nat) : toVector size (List.replicate size (0 : K)) = 0 := by
  funext i
  exact List.getD_replicate _ i.isLt

/-- A vector with one value changed. -/
theorem toVector_modify {values : List K} {size : Nat} (hlength : values.length = size)
    (index : Nat) (change : K → K) (j : Fin size) :
    toVector size (values.modify index change) j =
      if index = j then change (toVector size values j) else toVector size values j := by
  have hj : (j : Nat) < values.length := hlength ▸ j.isLt
  have hmodified : (j : Nat) < (values.modify index change).length := by
    rwa [List.length_modify]
  unfold toVector
  rw [List.getD_eq_getElem _ _ hmodified, List.getElem_modify, List.getD_eq_getElem _ _ hj]

/-- The entries of a column, each times the value of its row. -/
theorem foldl_transpose (vector : List K) {rows columns : Nat} :
    ∀ (entries : List (Nat × Nat × K)) (start : List K),
      (∀ entry ∈ entries, entry.1 < rows) → start.length = columns →
      let result := entries.foldl (fun result entry =>
        result.modify entry.2.1 (· + entry.2.2 * vector.getD entry.1 0)) start
      result.length = columns ∧ ∀ j : Fin columns, toVector columns result j =
        toVector columns start j + ∑ i : Fin rows, toVector rows vector i * totalAt entries i j := by
  intro entries
  induction entries with
  | nil =>
      intro start _ hstart
      exact ⟨hstart, fun j => by simp⟩
  | cons entry entries ih =>
      intro start hwithin hstart
      obtain ⟨hlength, hvalues⟩ := ih
        (start.modify entry.2.1 (· + entry.2.2 * vector.getD entry.1 0))
        (fun other hmem => hwithin other (List.mem_cons_of_mem _ hmem))
        ((List.length_modify _ _ _).trans hstart)
      refine ⟨hlength, fun j => ?_⟩
      have hentry : toVector columns
          (start.modify entry.2.1 (· + entry.2.2 * vector.getD entry.1 0)) j =
          toVector columns start j +
            if entry.2.1 = j then entry.2.2 * vector.getD entry.1 0 else 0 := by
        rw [toVector_modify hstart]
        by_cases hcolumn : entry.2.1 = j
        · rw [if_pos hcolumn, if_pos hcolumn]
        · rw [if_neg hcolumn, if_neg hcolumn, add_zero]
      have hsum : ∑ i : Fin rows, toVector rows vector i *
          (if entry.1 = i ∧ entry.2.1 = j then entry.2.2 else 0) =
          if entry.2.1 = j then entry.2.2 * vector.getD entry.1 0 else 0 := by
        have hrow := hwithin entry List.mem_cons_self
        rw [Finset.sum_eq_single (⟨entry.1, hrow⟩ : Fin rows)]
        · by_cases hcolumn : entry.2.1 = j
          · rw [if_pos ⟨rfl, hcolumn⟩, if_pos hcolumn, mul_comm]
            rfl
          · rw [if_neg fun h => hcolumn h.2, if_neg hcolumn, mul_zero]
        · intro i _ hne
          rw [if_neg fun h => hne (Fin.ext h.1.symm), mul_zero]
        · exact fun hnot => absurd (Finset.mem_univ _) hnot
      have hsplit : ∑ i : Fin rows, toVector rows vector i * totalAt (entry :: entries) i j =
          (if entry.2.1 = j then entry.2.2 * vector.getD entry.1 0 else 0) +
            ∑ i : Fin rows, toVector rows vector i * totalAt entries i j := by
        rw [← hsum, ← Finset.sum_add_distrib]
        refine Finset.sum_congr rfl fun i _ => ?_
        rw [totalAt_cons, mul_add]
      rw [List.foldl_cons, hvalues j, hentry, hsplit, add_assoc]

/-- The product with the transposed matrix. -/
theorem transposeMatvec_returns (matrix : CsrMatrix K) {vector : List K}
    (h : vector.length = matrix.rowCount) :
    ∃ product, matrix.transposeMatvec vector = .ok product ∧ product.length = matrix.columns ∧
      toVector matrix.columns product = toVector matrix.rowCount vector ᵥ*
        matrix.toMatrix matrix.rowCount matrix.columns := by
  obtain ⟨hlength, hvalues⟩ := foldl_transpose vector matrix.iterEntries
    (List.replicate matrix.columns 0) (fun _ hentry => (iterEntries_within matrix hentry).1)
    List.length_replicate
  refine ⟨_, require_bind_pos h, hlength, funext fun j => (hvalues j).trans ?_⟩
  rw [toVector_replicate, Pi.zero_apply, zero_add]
  exact Finset.sum_congr rfl fun i _ => by rw [totalAt_iterEntries]; rfl

end Vectors

end AstrContinuum
