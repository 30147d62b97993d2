import AstrContinuum.Algebra.Elimination
import AstrContinuum.ContextGraph.DenseMatrix
import AstrContinuum.ContextGraph.ExactSolve

/-!
# The reference backend

`PythonReferenceBackend.solve` of `context_graph/backends.py` and `backward_error` of
`context_graph/matrix.py`, over exact numbers: elimination with row exchanges on dense rows, and back
substitution. Values that are not finite do not occur.
-/

namespace AstrContinuum

open Checked Elimination

variable {K : Type} [Field K] [LinearOrder K]

/-- The part of `SolvePolicy` that the reference backend reads. -/
structure ReferencePolicy (K : Type) [Field K] [LinearOrder K] where
  directBackwardErrorLimit : K
  conditionWarning : K
  conditionFailure : K
  pythonMaxN : Nat
  pythonMaxNnz : Nat
  valid : 0 < directBackwardErrorLimit ∧ 0 < conditionWarning ∧ conditionWarning < conditionFailure ∧
    0 < pythonMaxN ∧ pythonMaxN ≤ 64 ∧ 0 < pythonMaxNnz ∧ pythonMaxNnz ≤ 4096

/-! ## Errors -/

/-- `matrix_infinity_norm`. -/
def CsrArrays.infinityNorm (matrix : CsrArrays K) : K :=
  (List.range matrix.rows).foldl (fun maximum row => max maximum
    ((matrix.offsets row).map fun offset => |matrix.data.getD offset 0|).sum) 0

/-- `backward_error`. -/
def backwardError (matrix : CsrArrays K) (solution rhs : List K) : Except String (WithTop K) := do
  let product ← matrix.matvec solution
  require (product.length = rhs.length) "rhs length does not match matrix shape"
  let numerator := vectorInfinityNorm (subtract product rhs)
  let denominator := matrix.infinityNorm * vectorInfinityNorm solution + vectorInfinityNorm rhs
  pure (if denominator = 0 then if numerator = 0 then 0 else ⊤
    else ((numerator / denominator : K) : WithTop K))

/-- `_condition_failed`. -/
def conditionFailed (condition : WithTop K) (policy : ReferencePolicy K) : Prop :=
  condition = ⊤ ∨ (policy.conditionFailure : WithTop K) ≤ condition

instance (condition : WithTop K) (policy : ReferencePolicy K) :
    Decidable (conditionFailed condition policy) :=
  inferInstanceAs (Decidable (_ ∨ _))

/-- `_classified_status` of a direct solve. -/
def classifiedStatus (error condition : WithTop K) (policy : ReferencePolicy K) : SolveStatus :=
  if error = ⊤ then .nonfiniteOutput
  else if (policy.directBackwardErrorLimit : WithTop K) < error then .illConditioned
  else if conditionFailed condition policy then .illConditioned
  else if (policy.conditionWarning : WithTop K) ≤ condition then .illConditioned
  else .converged

/-! ## Elimination -/

/-- The values that the loops of `solve` change. -/
structure Working (K : Type) where
  dense : List (List K)
  rhs : List K
  magnitudes : List K

/-- The first row from the column on whose value in the column is the largest. -/
def pivotRow (dense : List (List K)) (column size : Nat) : Nat :=
  (List.range' (column + 1) (size - (column + 1))).foldl
    (fun best row => if |denseAt dense best column| < |denseAt dense row column| then row else best)
    column

omit [Field K] [LinearOrder K] in
/-- `values[i], values[j] = values[j], values[i]`. -/
def exchange {α : Type} (values : List α) (i j : Nat) (default : α) : List α :=
  (values.set i (values.getD j default)).set j (values.getD i default)

omit [LinearOrder K] in
/-- The inner loops: a multiple of the row of the pivot is subtracted from every row below. -/
def eliminateBelow (column : Nat) (working : Working K) : Working K :=
  let factor (row : Nat) := denseAt working.dense row column / denseAt working.dense column column
  { working with
    dense := working.dense.mapIdx fun row cells =>
      if column < row then
        cells.mapIdx fun offset value =>
          if offset = column then 0
          else if column < offset then value - factor row * denseAt working.dense column offset
          else value
      else cells
    rhs := working.rhs.mapIdx fun row value =>
      if column < row then value - factor row * working.rhs.getD column 0 else value }

/-- The body of the loop over the columns. -/
def eliminateColumn (tolerance : K) (size : Nat) (working : Working K) (column : Nat) :
    Except SolveStatus (Working K) := do
  let row := pivotRow working.dense column size
  require (¬ |denseAt working.dense row column| ≤ tolerance) .singular
  let dense := if row ≠ column then exchange working.dense column row [] else working.dense
  let rhs := if row ≠ column then exchange working.rhs column row 0 else working.rhs
  let magnitudes := working.magnitudes ++ [|denseAt dense column column|]
  pure (eliminateBelow column ⟨dense, rhs, magnitudes⟩)

/-- The loop over the columns. -/
def eliminateColumns (tolerance : K) (size : Nat) (working : Working K) : Except SolveStatus (Working K) :=
  forEach (eliminateColumn tolerance size) working (List.range size)

/-- The body of the loop of the back substitution. -/
def substituteRow (tolerance : K) (size : Nat) (working : Working K) (solution : List K) (row : Nat) :
    Except SolveStatus (List K) := do
  let pivot := denseAt working.dense row row
  require (¬ |pivot| ≤ tolerance) .singular
  let known := ((List.range' (row + 1) (size - (row + 1))).map fun column =>
    denseAt working.dense row column * solution.getD column 0).sum
  pure (solution.set row ((working.rhs.getD row 0 - known) / pivot))

/-- The back substitution. -/
def backSubstitute (tolerance : K) (size : Nat) (working : Working K) : Except SolveStatus (List K) :=
  forEach (substituteRow tolerance size working) (List.replicate size 0) (List.range size).reverse

/-- The pivot tolerance; the first factor is `sys.float_info.epsilon`. -/
def pivotTolerance (matrix : CsrArrays K) : K :=
  1 / 2 ^ 52 * matrix.infinityNorm * (max matrix.rows 1 : Nat)

/-- The condition that is estimated from the pivots. -/
def estimatedCondition (magnitudes : List K) : WithTop K :=
  let minimum := magnitudes.min?.getD 0
  if 0 < minimum then ((magnitudes.max?.getD 0 / minimum : K) : WithTop K) else ⊤

/-- `PythonReferenceBackend.solve`. -/
def referenceSolve (matrix : CsrArrays K) (rhs : List K) (policy : ReferencePolicy K) :
    Except String (LinearSolveResult K) := do
  let stable (status : SolveStatus) : LinearSolveResult K := ⟨status, none, "python-reference", ⊤, none⟩
  let size := matrix.rows
  if matrix.rows ≠ matrix.columns ∨ rhs.length ≠ size then pure (stable .invalidInput)
  else if policy.pythonMaxN < size ∨ policy.pythonMaxNnz < matrix.data.length then
    pure (stable .backendCapacityExceeded)
  else if size = 0 then pure ⟨.converged, some [], "python-reference", 0, some 1⟩
  else do
    let dense ← matrix.toDense 64 (64 * 64 * 8)
    if matrix.infinityNorm = 0 then pure (stable .singular)
    else
      match eliminateColumns (pivotTolerance matrix) size ⟨dense, rhs, []⟩ with
      | .error status => pure (stable status)
      | .ok working =>
          match backSubstitute (pivotTolerance matrix) size working with
          | .error status => pure (stable status)
          | .ok solution => do
              let error ← backwardError matrix solution rhs
              let condition := estimatedCondition working.magnitudes
              let status := classifiedStatus error condition policy
              if conditionFailed condition policy then
                pure ⟨status, none, "python-reference", error, some condition⟩
              else pure ⟨status, some solution, "python-reference", error, some condition⟩

/-! ## What the loops keep -/

/-- The system that the loops hold. -/
def Working.Solves (size : Nat) (working : Working K) (x : Nat → K) : Prop :=
  Elimination.Solves size (denseAt working.dense) (fun i => working.rhs.getD i 0) x

/-- What the loop over the columns keeps of the system it started from. -/
structure Eliminated (tolerance : K) (size column : Nat) (start working : Working K) : Prop where
  shape : DenseShape size size working.dense
  length : working.rhs.length = size
  reduced : Reduced size column (denseAt working.dense)
  pivots : ∀ j < column, ¬ |denseAt working.dense j j| ≤ tolerance
  solves : ∀ x, working.Solves size x ↔ start.Solves size x

omit [Field K] [LinearOrder K] in
/-- Values after an exchange. -/
theorem getD_exchange {α : Type} {values : List α} {i j : Nat} (hi : i < values.length)
    (hj : j < values.length) (default : α) (index : Nat) :
    (if j ≠ i then exchange values i j default else values).getD index default =
      values.getD (Equiv.swap i j index) default := by
  by_cases hij : j = i
  · subst hij
    simp
  · rw [if_pos hij, exchange]
    rcases eq_or_ne index j with rfl | hindexj
    · rw [Equiv.swap_apply_right]
      simp [List.getD_eq_getElem?_getD, hi, hj]
    · rcases eq_or_ne index i with rfl | hindexi
      · rw [Equiv.swap_apply_left]
        simp [List.getD_eq_getElem?_getD, hi, hj, hindexj.symm]
      · rw [Equiv.swap_apply_of_ne_of_ne hindexi hindexj]
        simp [List.getD_eq_getElem?_getD, hindexi.symm, hindexj.symm]

omit [Field K] [LinearOrder K] in
/-- An exchange keeps the number of values. -/
theorem length_exchange {α : Type} (values : List α) (i j : Nat) (default : α) :
    (if j ≠ i then exchange values i j default else values).length = values.length := by
  split
  · rw [exchange, List.length_set, List.length_set]
  · rfl

omit [Field K] [LinearOrder K] in
/-- An exchange keeps the shape of dense rows. -/
theorem DenseShape.exchange {size width i j : Nat} {dense : List (List K)}
    (h : DenseShape size width dense) (hi : i < size) (hj : j < size) :
    DenseShape size width (if j ≠ i then AstrContinuum.exchange dense i j [] else dense) := by
  refine ⟨(length_exchange dense i j []).trans h.length, fun cells hcells => ?_⟩
  split at hcells
  · rcases List.mem_or_eq_of_mem_set hcells with hcells | rfl
    · rcases List.mem_or_eq_of_mem_set hcells with hcells | rfl
      · exact h.width cells hcells
      · rw [List.getD_eq_getElem _ _ (h.length ▸ hj)]
        exact h.width _ (List.getElem_mem _)
    · rw [List.getD_eq_getElem _ _ (h.length ▸ hi)]
      exact h.width _ (List.getElem_mem _)
  · exact h.width cells hcells

/-- The row of the pivot is one from the column on. -/
theorem pivotRow_mem (dense : List (List K)) {column size : Nat} (h : column < size) :
    column ≤ pivotRow dense column size ∧ pivotRow dense column size < size := by
  have hfold : ∀ (rows : List Nat) (best : Nat), (∀ row ∈ rows, column ≤ row ∧ row < size) →
      column ≤ best ∧ best < size →
      let found := rows.foldl (fun best row =>
        if |denseAt dense best column| < |denseAt dense row column| then row else best) best
      column ≤ found ∧ found < size := by
    intro rows
    induction rows with
    | nil => exact fun _ _ hbest => hbest
    | cons row rows ih =>
        intro best hrows hbest
        refine ih _ (fun other hother => hrows other (List.mem_cons_of_mem _ hother)) ?_
        dsimp only
        split
        · exact hrows row List.mem_cons_self
        · exact hbest
  refine hfold _ column (fun row hrow => ?_) ⟨le_rfl, h⟩
  have hbounds := List.mem_range'_1.mp hrow
  omega

omit [LinearOrder K] in
/-- The inner loops subtract multiples of the row of the pivot. -/
theorem denseAt_eliminateBelow {size column : Nat} {working : Working K}
    (hshape : DenseShape size size working.dense) (hreduced : Reduced size column (denseAt working.dense))
    (hcolumn : column < size) (hpivot : denseAt working.dense column column ≠ 0) {i j : Nat}
    (hi : i < size) (hj : j < size) :
    denseAt (eliminateBelow column working).dense i j =
      subtractBelow column
        (fun row => denseAt working.dense row column / denseAt working.dense column column)
        (denseAt working.dense) i j := by
  have hlength : i < working.dense.length := hshape.length.symm ▸ hi
  have hwidth : j < working.dense[i].length := by
    rw [hshape.width _ (List.getElem_mem hlength)]
    exact hj
  have hcell : denseAt working.dense i j = working.dense[i][j] := by
    rw [denseAt, List.getD_eq_getElem _ _ hlength, List.getD_eq_getElem _ _ hwidth]
  have hwritten : denseAt (eliminateBelow column working).dense i j =
      if column < i then
        if j = column then 0
        else if column < j then denseAt working.dense i j -
          denseAt working.dense i column / denseAt working.dense column column *
            denseAt working.dense column j
        else denseAt working.dense i j
      else denseAt working.dense i j := by
    rw [hcell]
    unfold denseAt eliminateBelow
    simp only [List.getD_eq_getElem?_getD, List.getElem?_mapIdx]
    rw [List.getElem?_eq_getElem hlength]
    by_cases hbelow : column < i
    · simp [denseAt, hbelow, List.getElem?_mapIdx, List.getElem?_eq_getElem hwidth,
        List.getElem?_eq_getElem hlength]
    · simp [hbelow, List.getElem?_eq_getElem hwidth]
  rw [hwritten, subtractBelow]
  by_cases hbelow : column < i
  · rw [if_pos hbelow, if_pos hbelow]
    rcases Nat.lt_trichotomy j column with hlt | rfl | hgt
    · rw [if_neg hlt.ne, if_neg hlt.not_gt, (hreduced j hlt).2 column hlt hcolumn, mul_zero, sub_zero]
    · rw [if_pos rfl, div_mul_cancel₀ _ hpivot, sub_self]
    · rw [if_neg hgt.ne', if_pos hgt]
  · rw [if_neg hbelow, if_neg hbelow]

omit [LinearOrder K] in
/-- The right-hand side after the inner loops. -/
theorem rhs_eliminateBelow {size column : Nat} {working : Working K} (hlength : working.rhs.length = size)
    {i : Nat} (hi : i < size) :
    (eliminateBelow column working).rhs.getD i 0 =
      subtractBelowRhs column
        (fun row => denseAt working.dense row column / denseAt working.dense column column)
        (fun row => working.rhs.getD row 0) i := by
  have hindex : i < working.rhs.length := hlength.symm ▸ hi
  unfold eliminateBelow subtractBelowRhs
  simp [List.getD_eq_getElem?_getD, List.getElem?_eq_getElem hindex]

omit [LinearOrder K] in
/-- The inner loops keep the shape. -/
theorem shape_eliminateBelow {size width : Nat} {working : Working K}
    (h : DenseShape size width working.dense) (column : Nat) :
    DenseShape size width (eliminateBelow column working).dense := by
  refine ⟨(List.length_mapIdx).trans h.length, fun cells hcells => ?_⟩
  obtain ⟨index, hindex, rfl⟩ := List.mem_mapIdx.mp hcells
  have hwidth := h.width _ (List.getElem_mem hindex)
  split
  · rw [List.length_mapIdx, hwidth]
  · exact hwidth

section Ordered

variable [IsStrictOrderedRing K] {tolerance : K} {size : Nat} {start working : Working K}

/-- A pivot above the tolerance is not zero. -/
theorem pivot_ne_zero (h : 0 ≤ tolerance) {pivot : K} (hpivot : ¬ |pivot| ≤ tolerance) : pivot ≠ 0 := by
  rintro rfl
  rw [abs_zero] at hpivot
  exact hpivot h

/-- One column is eliminated: the system keeps its solutions. -/
theorem eliminateColumn_ok (htolerance : 0 ≤ tolerance) {column : Nat} (hcolumn : column < size)
    (h : Eliminated tolerance size column start working) {next : Working K}
    (hnext : eliminateColumn tolerance size working column = .ok next) :
    Eliminated tolerance size (column + 1) start next := by
  obtain ⟨_, hpivot, hnext⟩ := bind_ok.mp hnext
  obtain ⟨hle, hlt⟩ := pivotRow_mem working.dense hcolumn
  generalize pivotRow working.dense column size = row at hpivot hnext hle hlt
  obtain rfl := pure_ok.mp hnext
  have hpivot := require_ok.mp hpivot
  -- The rows are exchanged first.
  let exchanged : Working K :=
    ⟨if row ≠ column then exchange working.dense column row [] else working.dense,
      if row ≠ column then exchange working.rhs column row 0 else working.rhs,
      working.magnitudes ++ [|denseAt
        (if row ≠ column then exchange working.dense column row [] else working.dense) column column|]⟩
  have hdense (i : Nat) : denseAt exchanged.dense i = denseAt working.dense (Equiv.swap column row i) := by
    funext j
    rw [denseAt, denseAt, getD_exchange (h.shape.length.symm ▸ hcolumn) (h.shape.length.symm ▸ hlt)]
  have hrhs (i : Nat) : exchanged.rhs.getD i 0 = working.rhs.getD (Equiv.swap column row i) 0 :=
    getD_exchange (h.length.symm ▸ hcolumn) (h.length.symm ▸ hlt) 0 i
  have hshape : DenseShape size size exchanged.dense := h.shape.exchange hcolumn hlt
  have hlength : exchanged.rhs.length = size := (length_exchange _ _ _ _).trans h.length
  have hreduced : Reduced size column (denseAt exchanged.dense) := by
    rw [funext hdense]
    exact reduced_swap h.reduced hle hlt
  have hdiagonal : denseAt exchanged.dense column column = denseAt working.dense row column := by
    rw [hdense, Equiv.swap_apply_left]
  have hnonzero : denseAt exchanged.dense column column ≠ 0 := by
    rw [hdiagonal]
    exact pivot_ne_zero htolerance hpivot
  -- Then the multiples of the row of the pivot are subtracted.
  have hvalues {i j : Nat} (hi : i < size) (hj : j < size) :=
    denseAt_eliminateBelow hshape hreduced hcolumn hnonzero hi hj
  constructor
  case shape => exact shape_eliminateBelow hshape column
  case length => exact List.length_mapIdx.trans hlength
  case reduced =>
    exact (reduced_subtractBelow hreduced hcolumn hnonzero).congr hcolumn fun i hi j hj =>
      (hvalues hi hj).symm
  case pivots =>
    intro j hj
    have hjn : j < size := by omega
    have hkept : denseAt (eliminateBelow column exchanged).dense j j = denseAt exchanged.dense j j := by
      rw [hvalues hjn hjn, subtractBelow, if_neg (by omega)]
    change ¬ |denseAt (eliminateBelow column exchanged).dense j j| ≤ tolerance
    rw [hkept]
    rcases Nat.lt_succ_iff_lt_or_eq.mp hj with hlt' | rfl
    · rw [hdense, Equiv.swap_apply_of_ne_of_ne hlt'.ne (by omega)]
      exact h.pivots j hlt'
    · rwa [hdiagonal]
  case solves =>
    intro x
    have hsubtract : (eliminateBelow column exchanged).Solves size x ↔ exchanged.Solves size x :=
      (solves_congr (fun i hi j hj => hvalues hi hj) fun i hi => rhs_eliminateBelow hlength hi).trans
        (solves_subtractBelow hcolumn _)
    have hswap : exchanged.Solves size x ↔ working.Solves size x := by
      unfold Working.Solves
      rw [funext hdense, funext hrhs]
      exact solves_swap (a := denseAt working.dense) (b := fun i => working.rhs.getD i 0) hcolumn hlt
    exact hsubtract.trans (hswap.trans (h.solves x))

/-- The loop over the columns leaves a reduced system with the same solutions. -/
theorem eliminateColumns_ok (htolerance : 0 ≤ tolerance) (hshape : DenseShape size size start.dense)
    (hlength : start.rhs.length = size) (h : eliminateColumns tolerance size start = .ok working) :
    Eliminated tolerance size size start working := by
  have hloop : ∀ (count column : Nat) (before : Working K), column + count = size →
      Eliminated tolerance size column start before →
      forEach (eliminateColumn tolerance size) before (List.range' column count) = .ok working →
      Eliminated tolerance size size start working := by
    intro count
    induction count with
    | zero =>
        rintro column before rfl hbefore hdone
        obtain rfl : before = working := by simpa using hdone
        exact hbefore
    | succ count ih =>
        intro column before hcount hbefore hrest
        rw [List.range'_succ, forEach_cons] at hrest
        obtain ⟨next, hnext, hrest⟩ := bind_ok.mp hrest
        exact ih (column + 1) next (by omega)
          (eliminateColumn_ok htolerance (by omega) hbefore hnext) hrest
  unfold eliminateColumns at h
  rw [List.range_eq_range'] at h
  refine hloop size 0 start (Nat.zero_add size) ⟨hshape, hlength, ?_, ?_, fun x => Iff.rfl⟩ h
  · exact fun j hj => absurd hj (Nat.not_lt_zero j)
  · exact fun j hj => absurd hj (Nat.not_lt_zero j)

omit [IsStrictOrderedRing K] in
/-- Back substitution: from a reduced system it always returns the solution. -/
theorem backSubstitute_returns (h : Eliminated tolerance size size start working) :
    ∃ solution, backSubstitute tolerance size working = .ok solution ∧ solution.length = size ∧
      working.Solves size fun i => solution.getD i 0 := by
  let Solved (row : Nat) (solution : List K) : Prop := ∀ i < size, row ≤ i → solution.getD i 0 =
    (working.rhs.getD i 0 - ∑ j ∈ Finset.Ico (i + 1) size, denseAt working.dense i j *
      solution.getD j 0) / denseAt working.dense i i
  have hloop : ∀ (row : Nat) (solution : List K), row ≤ size → solution.length = size →
      Solved row solution → ∃ final, forEach (substituteRow tolerance size working) solution
        (List.range row).reverse = .ok final ∧ final.length = size ∧ Solved 0 final := by
    intro row
    induction row with
    | zero => exact fun solution _ hlength hsolved => ⟨solution, rfl, hlength, hsolved⟩
    | succ row ih =>
        intro solution hrow hlength hsolved
        let value := (working.rhs.getD row 0 - ∑ j ∈ Finset.Ico (row + 1) size,
          denseAt working.dense row j * solution.getD j 0) / denseAt working.dense row row
        have hindex : row < solution.length := hlength.symm ▸ hrow
        have hkept (j : Nat) (hj : row < j) : (solution.set row value).getD j 0 = solution.getD j 0 := by
          rw [List.getD_eq_getElem?_getD, List.getElem?_set_ne hj.ne, List.getD_eq_getElem?_getD]
        have hstep : substituteRow tolerance size working solution row = .ok (solution.set row value) := by
          unfold substituteRow
          exact require_bind_pos (h.pivots row hrow)
        have hnext : Solved row (solution.set row value) := by
          intro i hi hle
          have hsum : ∑ j ∈ Finset.Ico (i + 1) size, denseAt working.dense i j *
              (solution.set row value).getD j 0 =
              ∑ j ∈ Finset.Ico (i + 1) size, denseAt working.dense i j * solution.getD j 0 := by
            refine Finset.sum_congr rfl fun j hj => ?_
            rw [hkept j (by have := (Finset.mem_Ico.mp hj).1; omega)]
          rw [hsum]
          rcases Nat.lt_or_eq_of_le hle with hlt | rfl
          · rw [hkept i hlt]
            exact hsolved i hi hlt
          · rw [List.getD_eq_getElem?_getD, List.getElem?_set_self hindex, Option.getD_some]
        obtain ⟨final, hfinal, hdone⟩ := ih (solution.set row value) (by omega)
          ((List.length_set ..).trans hlength) hnext
        refine ⟨final, ?_, hdone⟩
        rw [List.range_succ, List.reverse_append, List.reverse_singleton, List.singleton_append,
          forEach_cons, hstep]
        exact hfinal
  obtain ⟨final, hfinal, hlength, hsolved⟩ := hloop size (List.replicate size 0) le_rfl
    List.length_replicate fun i hi hle => absurd hi (by omega)
  exact ⟨final, hfinal, hlength, h.reduced.solves fun i hi => hsolved i hi (Nat.zero_le i)⟩

omit [IsStrictOrderedRing K] in
/-- The loop over the columns raises nothing but a singular status. -/
theorem eliminateColumns_error {status : SolveStatus}
    (h : eliminateColumns tolerance size start = .error status) : status = .singular := by
  have hcolumn (working : Working K) (column : Nat) :
      Ensures (fun status => status = SolveStatus.singular) (fun _ => True)
        (eliminateColumn tolerance size working column) := by
    unfold eliminateColumn
    exact Ensures.bind (Ensures.require fun _ => rfl) fun _ _ => Ensures.pure trivial
  have hloop : Ensures (fun status => status = SolveStatus.singular) (fun _ => True)
      (eliminateColumns tolerance size start) :=
    Ensures.forEach (fun _ _ => True) (fun column _ working _ => hcolumn working column) trivial
  exact hloop.error h

end Ordered

end AstrContinuum
