import AstrContinuum.ContextGraph.Solver

/-!
# State reduction

`reduce_state` eliminates the coordinates that are not retained, and `solve_projected_system` solves the
reduced system and reconstructs the eliminated coordinates.
-/

namespace AstrContinuum

open Checked

/-- `StateReduction`. -/
structure StateReduction (K : Type) where
  originalMatrix : CsrMatrix K
  originalRhs : List K
  originalConstraints : CompiledConstraints K
  retainedIndices : List Nat
  eliminatedIndices : List Nat
  reducedMatrix : CsrMatrix K
  reducedRhs : List K
  projectedConstraints : CompiledConstraints K
  reconstructionOperator : List (List K)
  reconstructionOffset : List K
  eliminationBackendName : String
  eliminationBackwardError : WithTop K

/-- `ProjectedSolveResult`. -/
structure ProjectedSolveResult (K : Type) where
  status : SolveStatus
  solution : Option (List K)
  multipliers : Option (List K)
  backendName : String
  backwardError : WithTop K
  conditionEstimate : Option (WithTop K)
  reconstructionError : WithTop K

/-- `_accepted`. -/
def SolveStatus.accepted (status : SolveStatus) (policy : SolvePolicy) : Bool :=
  status = .converged ∨ (status = .leastSquares ∧ policy.allowLeastSquares)

variable {K : Type} [Field K] [LinearOrder K]

/-- `_project_constraints`. -/
def projectConstraints (constraints : CompiledConstraints K) (retainedIndices : List Nat) :
    Except NumericFailure (CompiledConstraints K) := do
  let solveRows := List.range constraints.matrix.rowCount
  let certificateRows := List.range constraints.certificateMatrix.rowCount
  let matrix ← orValueError (constraints.matrix.submatrix solveRows retainedIndices)
  let certificateMatrix ←
    orValueError (constraints.certificateMatrix.submatrix certificateRows retainedIndices)
  compiledConstraints (retainedIndices.map fun index => constraints.coordinateIds.getD index "")
    matrix constraints.rhs certificateMatrix constraints.certificateRhs constraints.supports

/-- The elements of a vector at some indices. -/
def gather (vector : List K) (indices : List Nat) : List K :=
  indices.map fun index => vector.getD index 0

/-- `left - right for left, right in zip(...)`. -/
def subtract (left right : List K) : List K :=
  List.zipWith (fun value correction => value - correction) left right

/-- A solve of the elimination: its solution, its error and its backend. -/
def eliminationSolve (backend : LinearAlgebraBackend K) (policy : SolvePolicy)
    (matrix : CsrMatrix K) (rhs : List K) :
    Except NumericFailure (List K × WithTop K × String) :=
  let result := backend.solve matrix rhs policy
  match result.solution with
  | some solution =>
      if result.status.accepted policy then
        .ok (solution, result.backwardError, result.backendName)
      else .error (.reduction .solveFailed)
  | none => .error (.reduction .solveFailed)

/-- `column_rhs`: the columns of the matrix, one for every retained coordinate. -/
def columnRhs (eliminatedRetained : CsrMatrix K) : List (List K) :=
  eliminatedRetained.iterEntries.foldl
    (fun columns entry => columns.modify entry.2.1 fun column => column.set entry.1 entry.2.2)
    (List.replicate eliminatedRetained.columns (List.replicate eliminatedRetained.rowCount 0))

/-- What the loop over the columns holds. -/
structure ColumnSolves (K : Type) where
  solveColumns : List (List K)
  maximumError : WithTop K
  backendName : String

/-- One iteration of the loop over the columns. -/
def solveColumn (backend : LinearAlgebraBackend K) (policy : SolvePolicy) (matrix : CsrMatrix K)
    (state : ColumnSolves K) (values : List K) : Except NumericFailure (ColumnSolves K) := do
  let (solution, backwardError, backendName) ← eliminationSolve backend policy matrix values
  pure ⟨state.solveColumns ++ [solution], max state.maximumError backwardError, backendName⟩

/-- The entries that a solved column adds to the reduced matrix. -/
def correctionEntries (retainedEliminated : CsrMatrix K) (column : List K × Nat) :
    Except NumericFailure (List (Nat × Nat × K)) := do
  let correction ← orValueError (retainedEliminated.matvec column.1)
  pure ((correction.zipIdx.filter fun value => value.1 ≠ 0).map
    fun value => (value.2, column.2, -value.1))

/-- The part of `reduce_state` after its checks, where some coordinates are eliminated. -/
def eliminate (matrix : CsrMatrix K) (rhs : List K) (constraints projected : CompiledConstraints K)
    (reducedMatrix : CsrMatrix K) (retained eliminated : List Nat)
    (backend : LinearAlgebraBackend K) (policy : SolvePolicy) :
    Except NumericFailure (StateReduction K) := do
  let eliminatedMatrix ← orValueError (matrix.submatrix eliminated eliminated)
  let eliminatedRetained ← orValueError (matrix.submatrix eliminated retained)
  let retainedEliminated ← orValueError (matrix.submatrix retained eliminated)
  let (offset, offsetError, offsetName) ←
    eliminationSolve backend policy eliminatedMatrix (gather rhs eliminated)
  let solves ← forEach (solveColumn backend policy eliminatedMatrix) ⟨[], offsetError, offsetName⟩
    (columnRhs eliminatedRetained)
  let corrections ← solves.solveColumns.zipIdx.mapM (correctionEntries retainedEliminated)
  let reducedMatrix ← orValueError (CsrMatrix.fromEntries retained.length retained.length
    (reducedMatrix.iterEntries ++ corrections.flatten))
  let rhsCorrection ← orValueError (retainedEliminated.matvec offset)
  pure
    { originalMatrix := matrix
      originalRhs := rhs
      originalConstraints := constraints
      retainedIndices := retained
      eliminatedIndices := eliminated
      reducedMatrix := reducedMatrix
      reducedRhs := subtract (gather rhs retained) rhsCorrection
      projectedConstraints := projected
      reconstructionOperator := (List.range eliminated.length).map fun row =>
        solves.solveColumns.map fun column => -column.getD row 0
      reconstructionOffset := offset
      eliminationBackendName := solves.backendName
      eliminationBackwardError := solves.maximumError }

/-- `reduce_state`. -/
def reduceState (matrix : CsrMatrix K) (rhs : List K) (constraints : CompiledConstraints K)
    (retained : List Nat) (backend : LinearAlgebraBackend K) (policy : SolvePolicy) :
    Except NumericFailure (StateReduction K) := do
  let size := matrix.rowCount
  require (matrix.columns = size ∧ rhs.length = size) (.reduction .invalidInput)
  require (constraints.matrix.columns = size) (.reduction .invalidInput)
  require (∀ index ∈ retained, index < size) (.reduction .invalidInput)
  require retained.Nodup (.reduction .invalidInput)
  let supportIndices :=
    constraints.supportCoordinateIds.map fun coordinateId =>
      constraints.coordinateIds.idxOf coordinateId
  require (∀ index ∈ supportIndices, index ∈ retained) (.reduction .constraintSupportEliminated)
  let eliminated := (List.range size).filter (· ∉ retained)
  let projected ← projectConstraints constraints retained
  let reducedMatrix ← orValueError (matrix.submatrix retained retained)
  if eliminated = [] then
    pure
      { originalMatrix := matrix
        originalRhs := rhs
        originalConstraints := constraints
        retainedIndices := retained
        eliminatedIndices := []
        reducedMatrix := reducedMatrix
        reducedRhs := gather rhs retained
        projectedConstraints := projected
        reconstructionOperator := []
        reconstructionOffset := []
        eliminationBackendName := "none"
        eliminationBackwardError := 0 }
  else eliminate matrix rhs constraints projected reducedMatrix retained eliminated backend policy

/-- The loop that writes values at some indices. -/
def scatter (vector : List K) (indices : List Nat) (values : List K) : List K :=
  (indices.zip values).foldl (fun result pair => result.set pair.1 pair.2) vector

/-- An eliminated coordinate from the retained ones. -/
def reconstruct (retainedSolution : List K) (offset : K) (row : List K) : K :=
  offset + (row.zipIdx.map fun coefficient =>
    coefficient.1 * retainedSolution.getD coefficient.2 0).sum

/-- A residual in relation to a scale. -/
def relativeError (numerator denominator : K) : WithTop K :=
  if numerator = 0 ∧ denominator = 0 then 0
  else if 0 < denominator then ((numerator / denominator : K) : WithTop K)
  else ⊤

/-- `solve_projected_system`. -/
def solveProjectedSystem (reduction : StateReduction K) (backend : LinearAlgebraBackend K)
    (policy : SolvePolicy) : Except NumericFailure (ProjectedSolveResult K) := do
  let result ← solveConstrainedSystem reduction.reducedMatrix reduction.reducedRhs
    reduction.projectedConstraints backend policy
  match result.solution with
  | none =>
      pure ⟨result.status, none, result.multipliers, result.backendName, result.backwardError,
        result.conditionEstimate, ⊤⟩
  | some retainedSolution =>
      require (∀ row ∈ reduction.reconstructionOperator, row.length ≤ retainedSolution.length)
        .indexError
      let eliminatedSolution := List.zipWith (reconstruct retainedSolution)
        reduction.reconstructionOffset reduction.reconstructionOperator
      let fullSolution := scatter
        (scatter (List.replicate reduction.originalMatrix.rowCount 0) reduction.retainedIndices
          retainedSolution)
        reduction.eliminatedIndices eliminatedSolution
      let eliminatedRows ← orValueError (reduction.originalMatrix.submatrix
        reduction.eliminatedIndices (List.range reduction.originalMatrix.columns))
      let eliminatedRhs := gather reduction.originalRhs reduction.eliminatedIndices
      let product ← orValueError (eliminatedRows.matvec fullSolution)
      let denominator := eliminatedRows.infinityNorm * vectorInfinityNorm fullSolution +
        vectorInfinityNorm eliminatedRhs
      let numerator := vectorInfinityNorm (subtract product eliminatedRhs)
      pure ⟨result.status, some fullSolution, result.multipliers, result.backendName,
        result.backwardError, result.conditionEstimate, relativeError numerator denominator⟩

end AstrContinuum
