import Mathlib.Algebra.BigOperators.Fin
import Mathlib.Algebra.Order.Monoid.Unbundled.WithTop
import AstrContinuum.ContextGraph.Constraints

/-!
# Solving constrained systems

`solve_constrained_system` and what it asks of a backend. A backend is a parameter; where it is exact,
the result solves the stationarity system.
-/

namespace AstrContinuum

open Checked

/-! ## Backends -/

/-- `SolveStatus`. -/
inductive SolveStatus
  | converged
  | leastSquares
  | illConditioned
  | singular
  | nonfiniteInput
  | nonfiniteOutput
  | iterationLimit
  | backendUnavailable
  | backendCapacityExceeded
  | invalidInput
deriving DecidableEq

/-- `SolveStatus.value`. -/
def SolveStatus.value : SolveStatus → String
  | .converged => "CONVERGED"
  | .leastSquares => "LEAST_SQUARES"
  | .illConditioned => "ILL_CONDITIONED"
  | .singular => "SINGULAR"
  | .nonfiniteInput => "NONFINITE_INPUT"
  | .nonfiniteOutput => "NONFINITE_OUTPUT"
  | .iterationLimit => "ITERATION_LIMIT"
  | .backendUnavailable => "BACKEND_UNAVAILABLE"
  | .backendCapacityExceeded => "BACKEND_CAPACITY_EXCEEDED"
  | .invalidInput => "INVALID_INPUT"

/-- The part of `SolvePolicy` that is read outside the backends. -/
structure SolvePolicy where
  allowLeastSquares : Bool := false

/-- `LinearSolveResult`; the top element is `math.inf`. -/
structure LinearSolveResult (K : Type) where
  status : SolveStatus
  solution : Option (List K)
  backendName : String
  backwardError : WithTop K := ⊤
  conditionEstimate : Option (WithTop K) := none

/-- `LinearAlgebraBackend`. -/
structure LinearAlgebraBackend (K : Type) where
  solve : CsrMatrix K → List K → SolvePolicy → LinearSolveResult K

/-! ## The constrained system -/

/-- `ConstrainedSolveResult`. -/
structure ConstrainedSolveResult (K : Type) where
  status : SolveStatus
  solution : Option (List K)
  multipliers : Option (List K)
  backendName : String
  backwardError : WithTop K
  conditionEstimate : Option (WithTop K)

variable {K : Type} [Field K]

/-- The entries that a row of constraints adds, above and below the diagonal. -/
def borderEntries (size : Nat) (entry : Nat × Nat × K) : List (Nat × Nat × K) :=
  [(entry.2.1, size + entry.1, entry.2.2), (size + entry.1, entry.2.1, entry.2.2)]

variable [LinearOrder K]

/-- `kkt`: the operator, bordered by the constraints. -/
def kktMatrix (matrix : CsrMatrix K) (constraints : CompiledConstraints K) :
    Except String (CsrMatrix K) :=
  let size := matrix.rowCount
  let systemSize := size + constraints.matrix.rowCount
  CsrMatrix.fromEntries systemSize systemSize
    (matrix.iterEntries ++ constraints.matrix.iterEntries.flatMap (borderEntries size))

/-- `solve_constrained_system`. -/
def solveConstrainedSystem (matrix : CsrMatrix K) (rhs : List K)
    (constraints : CompiledConstraints K) (backend : LinearAlgebraBackend K) (policy : SolvePolicy) :
    Except NumericFailure (ConstrainedSolveResult K) := do
  let size := matrix.rowCount
  require (size = matrix.columns) (.valueError "operator must be square")
  require (rhs.length = size) (.valueError "rhs length does not match operator")
  require (constraints.matrix.columns = size)
    (.valueError "constraint width does not match operator")
  let constraintCount := constraints.matrix.rowCount
  if constraintCount = 0 then
    let result := backend.solve matrix rhs policy
    pure ⟨result.status, result.solution, result.solution.map fun _ => [], result.backendName,
      result.backwardError, result.conditionEstimate⟩
  else
    let kkt ← orValueError (kktMatrix matrix constraints)
    let result := backend.solve kkt (rhs ++ constraints.rhs) policy
    pure ⟨result.status, result.solution.map (List.take size), result.solution.map (List.drop size),
      result.backendName, result.backwardError, result.conditionEstimate⟩

/-! ## Exact backends -/

section Exact

open Matrix ConstrainedSystems

omit [LinearOrder K]

/-- A square matrix that maps only the zero vector to zero. -/
structure CsrMatrix.Nonsingular (matrix : CsrMatrix K) : Prop where
  square : matrix.rowCount = matrix.columns
  injective : ∀ vector, matrix.matvec vector = .ok (List.replicate matrix.rowCount 0) →
    vector = List.replicate matrix.columns 0

/-- A backend that solves every nonsingular system without an error. -/
structure LinearAlgebraBackend.Exact (backend : LinearAlgebraBackend K) : Prop where
  solves : ∀ (matrix : CsrMatrix K) (rhs : List K) (policy : SolvePolicy), matrix.Nonsingular →
    rhs.length = matrix.rowCount →
    (backend.solve matrix rhs policy).status = .converged ∧
      ∃ solution, (backend.solve matrix rhs policy).solution = some solution ∧
        matrix.matvec solution = .ok rhs

/-- What a product that returns says about the vectors. -/
theorem matvec_ok {matrix : CsrMatrix K} {vector product : List K}
    (h : matrix.matvec vector = .ok product) :
    vector.length = matrix.columns ∧ product.length = matrix.rowCount ∧
      toVector matrix.rowCount product =
        matrix.toMatrix matrix.rowCount matrix.columns *ᵥ toVector matrix.columns vector := by
  obtain ⟨_, hlength, _⟩ := bind_ok.mp h
  have hlength := require_ok.mp hlength
  obtain ⟨product', hproduct, hspec⟩ := matvec_returns matrix hlength
  obtain rfl : product' = product := Except.ok.inj (hproduct.symm.trans h)
  exact ⟨hlength, hspec⟩

/-- A square matrix whose values are injective is nonsingular. -/
theorem CsrMatrix.nonsingular_of_injective {matrix : CsrMatrix K} {size : Nat}
    (hrows : matrix.rowCount = size) (hcolumns : matrix.columns = size)
    (hinjective : ∀ x, matrix.toMatrix size size *ᵥ x = 0 → x = 0) : matrix.Nonsingular := by
  refine ⟨hrows.trans hcolumns.symm, fun vector hvector => ?_⟩
  obtain ⟨hlength, _, hproduct⟩ := matvec_ok hvector
  rw [hrows, hcolumns, toVector_replicate] at hproduct
  rw [hcolumns] at hlength ⊢
  refine toVector_injective hlength List.length_replicate ?_
  rw [toVector_replicate]
  exact hinjective _ hproduct.symm

/-- An exact backend solves a system whose matrix is injective. -/
theorem LinearAlgebraBackend.Exact.solution {backend : LinearAlgebraBackend K}
    (h : backend.Exact) {matrix : CsrMatrix K} {size : Nat} (hrows : matrix.rowCount = size)
    (hcolumns : matrix.columns = size)
    (hinjective : ∀ x, matrix.toMatrix size size *ᵥ x = 0 → x = 0) {rhs : List K}
    (hrhs : rhs.length = size) (policy : SolvePolicy) :
    ∃ solution, (backend.solve matrix rhs policy).status = .converged ∧
      (backend.solve matrix rhs policy).solution = some solution ∧ solution.length = size ∧
      matrix.toMatrix size size *ᵥ toVector size solution = toVector size rhs := by
  have hnonsingular := CsrMatrix.nonsingular_of_injective hrows hcolumns hinjective
  obtain ⟨hstatus, solution, hsolution, hsolves⟩ :=
    h.solves matrix rhs policy hnonsingular (hrhs.trans hrows.symm)
  obtain ⟨hlength, _, hproduct⟩ := matvec_ok hsolves
  rw [hrows, hcolumns] at hproduct
  exact ⟨solution, hstatus, hsolution, hlength.trans hcolumns, hproduct.symm⟩

/-! ## The bordered matrix -/

/-- The values of the border: the constraints below, and transposed on the right. -/
theorem totalAt_borderEntries (size : Nat) (entries : List (Nat × Nat × K)) (row column : Nat) :
    totalAt (entries.flatMap (borderEntries size)) row column =
      (if size ≤ column then totalAt entries (column - size) row else 0) +
        if size ≤ row then totalAt entries (row - size) column else 0 := by
  induction entries with
  | nil => simp
  | cons entry entries ih =>
      obtain ⟨entryRow, entryColumn, value⟩ := entry
      have hright : (entryColumn = row ∧ size + entryRow = column) ↔
          size ≤ column ∧ entryRow = column - size ∧ entryColumn = row := by omega
      have hbelow : (size + entryRow = row ∧ entryColumn = column) ↔
          size ≤ row ∧ entryRow = row - size ∧ entryColumn = column := by omega
      rw [List.flatMap_cons, totalAt_append, ih]
      simp only [borderEntries, totalAt_cons, totalAt_nil, hright, hbelow, ite_and]
      by_cases hcolumn : size ≤ column <;> by_cases hrow : size ≤ row <;>
        simp only [hcolumn, hrow, if_true, if_false] <;> ring

/-- Outside the shape all values are zero. -/
theorem entry_outside {matrix : CsrMatrix K} {row column : Nat}
    (h : ¬ (row < matrix.rowCount ∧ column < matrix.columns)) : matrix.entry row column = 0 := by
  rw [← totalAt_iterEntries]
  refine totalAt_eq_zero fun entry hentry hat => h ?_
  have hwithin := iterEntries_within matrix hentry
  rwa [hat.1, hat.2] at hwithin

/-- A matrix that holds an operator with its constraints below and on the right. -/
structure Bordered (matrix kkt : CsrMatrix K) (constraints : CsrMatrix K) (size count : Nat) :
    Prop where
  operator : ∀ i j, i < size → j < size → kkt.entry i j = matrix.entry i j
  right : ∀ i k, i < size → k < count → kkt.entry i (size + k) = constraints.entry k i
  below : ∀ k j, k < count → j < size → kkt.entry (size + k) j = constraints.entry k j
  corner : ∀ k l, k < count → l < count → kkt.entry (size + k) (size + l) = 0

variable {matrix kkt constraints : CsrMatrix K} {size count : Nat}

/-- The product with a bordered matrix, above. -/
theorem Bordered.mulVec_above (h : Bordered matrix kkt constraints size count)
    (x : Fin (size + count) → K) :
    (kkt.toMatrix (size + count) (size + count) *ᵥ x) ∘ Fin.castAdd count =
      matrix.toMatrix size size *ᵥ (x ∘ Fin.castAdd count) +
        (x ∘ Fin.natAdd size) ᵥ* constraints.toMatrix count size := by
  funext i
  have hsum := Fin.sum_univ_add fun j : Fin (size + count) => kkt.entry i j * x j
  refine hsum.trans (congrArg₂ (· + ·) ?_ ?_)
  · exact Finset.sum_congr rfl fun j _ => congrArg (· * _) (h.operator i j i.isLt j.isLt)
  · refine Finset.sum_congr rfl fun k _ => ?_
    rw [mul_comm]
    exact congrArg (_ * ·) (h.right i k i.isLt k.isLt)

/-- The product with a bordered matrix, below. -/
theorem Bordered.mulVec_below (h : Bordered matrix kkt constraints size count)
    (x : Fin (size + count) → K) :
    (kkt.toMatrix (size + count) (size + count) *ᵥ x) ∘ Fin.natAdd size =
      constraints.toMatrix count size *ᵥ (x ∘ Fin.castAdd count) := by
  funext k
  have hsum := Fin.sum_univ_add fun j : Fin (size + count) => kkt.entry (size + k) j * x j
  have hcorner : ∑ l : Fin count, kkt.entry (size + k) (size + l) * x (Fin.natAdd size l) = 0 :=
    Finset.sum_eq_zero fun l _ => by rw [h.corner k l k.isLt l.isLt, zero_mul]
  refine hsum.trans ?_
  refine (congrArg₂ (· + ·) (Finset.sum_congr rfl fun j _ => ?_) hcorner).trans (add_zero _)
  exact congrArg (· * _) (h.below k j k.isLt j.isLt)

/-- A vector on the left of another. -/
theorem toVector_append_left {values others : List K} (hvalues : values.length = size) :
    toVector (size + count) (values ++ others) ∘ Fin.castAdd count = toVector size values := by
  funext i
  exact List.getD_append _ _ _ _ (hvalues ▸ i.isLt)

/-- A vector on the right of another. -/
theorem toVector_append_right {values others : List K} (hvalues : values.length = size) :
    toVector (size + count) (values ++ others) ∘ Fin.natAdd size = toVector count others := by
  funext k
  have hle : values.length ≤ size + (k : Nat) := by omega
  have hat := List.getD_append_right values others 0 _ hle
  rw [hvalues, Nat.add_sub_cancel_left] at hat
  exact hat

/-- The matrix that the solver builds is bordered. -/
theorem bordered_of_entries [LinearOrder K] (hrows : matrix.rowCount = size)
    (hcolumns : matrix.columns = size) (hcount : constraints.rowCount = count)
    (hwidth : constraints.columns = size) :
    ∃ kkt, CsrMatrix.fromEntries (size + count) (size + count)
        (matrix.iterEntries ++ constraints.iterEntries.flatMap (borderEntries size)) = .ok kkt ∧
      kkt.rowCount = size + count ∧ kkt.columns = size + count ∧
      Bordered matrix kkt constraints size count := by
  have hwithin : ∀ entry ∈ matrix.iterEntries ++
      constraints.iterEntries.flatMap (borderEntries size),
      entry.1 < size + count ∧ entry.2.1 < size + count := by
    intro entry hentry
    rcases List.mem_append.mp hentry with hoperator | hborder
    · have hat := iterEntries_within matrix hoperator
      omega
    · obtain ⟨source, hsource, hentry⟩ := List.mem_flatMap.mp hborder
      have hat := iterEntries_within constraints hsource
      rcases List.mem_cons.mp hentry with rfl | hbelow
      · dsimp only
        omega
      · obtain rfl := List.mem_singleton.mp hbelow
        dsimp only
        omega
  obtain ⟨kkt, hkkt, hkktRows, hkktColumns, hentry⟩ := fromEntries_returns hwithin
  have hvalue (row column : Nat) : kkt.entry row column = matrix.entry row column +
      ((if size ≤ column then constraints.entry (column - size) row else 0) +
        if size ≤ row then constraints.entry (row - size) column else 0) := by
    rw [hentry, totalAt_append, totalAt_borderEntries, totalAt_iterEntries, totalAt_iterEntries,
      totalAt_iterEntries]
  refine ⟨kkt, hkkt, hkktRows, hkktColumns, ?_, ?_, ?_, ?_⟩
  · intro i j hi hj
    rw [hvalue, if_neg (by omega), if_neg (by omega), add_zero, add_zero]
  · intro i k hi hk
    rw [hvalue, entry_outside (by omega), if_pos (by omega), if_neg (by omega), zero_add, add_zero,
      Nat.add_sub_cancel_left]
  · intro k j hk hj
    rw [hvalue, entry_outside (by omega), if_neg (by omega), if_pos (by omega), zero_add, zero_add,
      Nat.add_sub_cancel_left]
  · intro k l hk hl
    rw [hvalue, entry_outside (by omega), if_pos (by omega), if_pos (by omega),
      Nat.add_sub_cancel_left, Nat.add_sub_cancel_left, entry_outside (by omega),
      entry_outside (by omega), add_zero, add_zero]

/-- The system that the solver builds is injective where its homogeneous form has only the zero
solution. -/
theorem kktMatrix_injective [LinearOrder K] {system : CompiledConstraints K}
    (hrows : matrix.rowCount = size) (hcolumns : matrix.columns = size)
    (hwidth : system.matrix.columns = size) (hcount : system.matrix.rowCount = count)
    (hunique : ∀ x y, Solves (matrix.toMatrix size size) (system.matrix.toMatrix count size) 0 0 x y →
      x = 0 ∧ y = 0) :
    ∃ kkt, kktMatrix matrix system = .ok kkt ∧ kkt.rowCount = size + count ∧
      kkt.columns = size + count ∧ Bordered matrix kkt system.matrix size count ∧
      ∀ x, kkt.toMatrix (size + count) (size + count) *ᵥ x = 0 → x = 0 := by
  obtain ⟨kkt, hkkt, hkktRows, hkktColumns, hbordered⟩ :=
    bordered_of_entries hrows hcolumns hcount hwidth
  refine ⟨kkt, ?_, hkktRows, hkktColumns, hbordered, fun x hx => ?_⟩
  · unfold kktMatrix
    rw [hrows, hcount]
    exact hkkt
  · have habove := hbordered.mulVec_above x
    have hbelow := hbordered.mulVec_below x
    rw [hx] at habove hbelow
    obtain ⟨hleft, hright⟩ := hunique _ _ ⟨habove.symm, hbelow.symm⟩
    funext i
    refine Fin.addCases (fun j => ?_) (fun k => ?_) i
    · exact congrFun hleft j
    · exact congrFun hright k

/-- What an exact solve of a constrained system returns. -/
structure ConstrainedSolveResult.Exact (result : ConstrainedSolveResult K) (matrix : CsrMatrix K)
    (constraints : CsrMatrix K) (rhs constraintRhs : List K) (size count : Nat)
    (solution multipliers : List K) : Prop where
  status : result.status = .converged
  returned : result.solution = some solution
  returnedMultipliers : result.multipliers = some multipliers
  solutionLength : solution.length = size
  multipliersLength : multipliers.length = count
  solves : Solves (matrix.toMatrix size size) (constraints.toMatrix count size)
    (toVector size rhs) (toVector count constraintRhs) (toVector size solution)
    (toVector count multipliers)

/-- With an exact backend, a system whose homogeneous form has only the zero solution is solved. -/
theorem solveConstrainedSystem_exact [LinearOrder K] {backend : LinearAlgebraBackend K}
    (hbackend : backend.Exact) {system : CompiledConstraints K} {rhs : List K}
    (hrows : matrix.rowCount = size) (hcolumns : matrix.columns = size)
    (hwidth : system.matrix.columns = size) (hcount : system.matrix.rowCount = count)
    (hrhs : rhs.length = size)
    (hunique : ∀ x y, Solves (matrix.toMatrix size size) (system.matrix.toMatrix count size) 0 0 x y →
      x = 0 ∧ y = 0) (policy : SolvePolicy) :
    ∃ result solution multipliers,
      solveConstrainedSystem matrix rhs system backend policy = .ok result ∧
        result.Exact matrix system.matrix rhs system.rhs size count solution multipliers := by
  have hconstraintRhs : system.rhs.length = count := system.valid.2.2.1.symm.trans hcount
  unfold solveConstrainedSystem
  dsimp only
  rw [require_bind_pos (hrows.trans hcolumns.symm), require_bind_pos (hrhs.trans hrows.symm),
    require_bind_pos (hwidth.trans hrows.symm), hrows, hcount]
  by_cases hzero : count = 0
  · subst hzero
    rw [if_pos rfl]
    have hinjective : ∀ x, matrix.toMatrix size size *ᵥ x = 0 → x = 0 := by
      intro x hx
      refine (hunique x 0 ⟨?_, Subsingleton.elim _ _⟩).1
      rw [hx, zero_vecMul, add_zero]
    obtain ⟨solution, hstatus, hsolution, hlength, hsolves⟩ :=
      hbackend.solution hrows hcolumns hinjective hrhs policy
    refine ⟨_, solution, [], rfl, hstatus, hsolution, ?_, hlength, rfl, ?_, Subsingleton.elim _ _⟩
    · rw [hsolution]
      rfl
    · have hnone : toVector 0 ([] : List K) = 0 := Subsingleton.elim _ _
      rw [hnone, zero_vecMul, add_zero, hsolves]
  · rw [if_neg hzero]
    obtain ⟨kkt, hkkt, hkktRows, hkktColumns, hbordered, hinjective⟩ :=
      kktMatrix_injective hrows hcolumns hwidth hcount hunique
    have hsystemRhs : (rhs ++ system.rhs).length = size + count := by
      rw [List.length_append, hrhs, hconstraintRhs]
    obtain ⟨values, hstatus, hvalues, hlength, hsolves⟩ :=
      hbackend.solution hkktRows hkktColumns hinjective hsystemRhs policy
    have hsplit : values.take size ++ values.drop size = values := List.take_append_drop _ _
    have htake : (values.take size).length = size := by
      rw [List.length_take]
      omega
    have hdrop : (values.drop size).length = count := by
      rw [List.length_drop]
      omega
    have hleft : toVector (size + count) values ∘ Fin.castAdd count =
        toVector size (values.take size) := by
      rw [← hsplit]
      exact (toVector_append_left htake).trans (by rw [hsplit])
    have hright : toVector (size + count) values ∘ Fin.natAdd size =
        toVector count (values.drop size) := by
      rw [← hsplit]
      exact (toVector_append_right htake).trans (by rw [hsplit])
    have habove := hbordered.mulVec_above (toVector (size + count) values)
    have hbelow := hbordered.mulVec_below (toVector (size + count) values)
    rw [hsolves, hleft, hright, toVector_append_left hrhs] at habove
    rw [hsolves, hleft, toVector_append_right hrhs] at hbelow
    refine ⟨_, values.take size, values.drop size,
      bind_ok.mpr ⟨kkt, orValueError_ok.mpr hkkt, rfl⟩, hstatus, ?_, ?_, htake, hdrop,
      habove.symm, hbelow.symm⟩
    · exact congrArg (Option.map (List.take size)) hvalues
    · exact congrArg (Option.map (List.drop size)) hvalues

end Exact

end AstrContinuum
