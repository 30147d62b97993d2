import Mathlib.Data.Rat.Cast.Defs
import AstrContinuum.ContextGraph.Matrix
import AstrContinuum.ContextGraph.Types

/-!
# Compiled constraints

`compile_constraints`: rows that fix a coordinate to zero or one and rows that equate two coordinates
become rows that are independent. The coordinates are grouped by the equations with a disjoint set;
every member of a group is equated to its first one, and the first one is fixed where the group is.

`_DisjointSet.find` calls itself for every link on the way to a root, so a long way can exceed the
recursion limit. The functions that call it take the number of calls that may be nested.
-/

namespace AstrContinuum

open Checked

/-! ## Failures -/

/-- `ConstraintErrorCode`. -/
inductive ConstraintErrorCode
  | unsupported
  | contradictory
  | unknownCoordinate
  | invalidCoordinates
deriving DecidableEq

/-- `ConstraintErrorCode.value`. -/
def ConstraintErrorCode.value : ConstraintErrorCode → String
  | .unsupported => "UNSUPPORTED"
  | .contradictory => "CONTRADICTORY"
  | .unknownCoordinate => "UNKNOWN_COORDINATE"
  | .invalidCoordinates => "INVALID_COORDINATES"

/-- `ReductionErrorCode`, without the code of an infinite output. -/
inductive ReductionErrorCode
  | constraintSupportEliminated
  | solveFailed
  | invalidInput
deriving DecidableEq

/-- `ReductionErrorCode.value`. -/
def ReductionErrorCode.value : ReductionErrorCode → String
  | .constraintSupportEliminated => "CONSTRAINT_SUPPORT_ELIMINATED"
  | .solveFailed => "SOLVE_FAILED"
  | .invalidInput => "INVALID_INPUT"

/-- What the numerical functions raise. -/
inductive NumericFailure
  | constraint (code : ConstraintErrorCode)
  | reduction (code : ReductionErrorCode)
  | valueError (message : String)
  | indexError
  | recursionError
deriving DecidableEq

/-- A failure of a matrix. -/
def orValueError {α : Type} (x : Except String α) : Except NumericFailure α :=
  x.mapError .valueError

/-- A matrix function that returns. -/
@[simp] theorem orValueError_ok {α : Type} {x : Except String α} {a : α} :
    orValueError x = .ok a ↔ x = .ok a :=
  mapError_ok

/-! ## The disjoint set -/

/-- How many calls `compile_constraints` can nest: what the recursion limit leaves of the stack. -/
class CallStack where
  frames : Nat
  room : 1 ≤ frames

/-- `_DisjointSet._parent`. -/
abbrev Parents := String → String

namespace Parents

/-- `_DisjointSet.find`, with the paths that it shortens. Every link of a path is a call. -/
def find : Nat → Parents → String → Except NumericFailure (String × Parents)
  | 0, _, _ => .error .recursionError
  | frames + 1, parents, value =>
      if parents value ≠ value then do
        let (root, parents) ← find frames parents (parents value)
        pure (root, Function.update parents value root)
      else pure (value, parents)

/-- `_DisjointSet.union`. -/
def union : Nat → Parents → String → String → Except NumericFailure Parents
  | 0, _, _, _ => .error .recursionError
  | frames + 1, parents, left, right => do
      let (leftRoot, parents) ← find frames parents left
      let (rightRoot, parents) ← find frames parents right
      if leftRoot ≠ rightRoot then pure (Function.update parents rightRoot leftRoot)
      else pure parents

end Parents

/-! ## Compiled constraints -/

/-- `CompiledConstraints`, with the checks of its constructor. -/
structure CompiledConstraints (K : Type) where
  coordinateIds : List String
  matrix : CsrMatrix K
  rhs : List K
  certificateMatrix : CsrMatrix K
  certificateRhs : List K
  supports : List (String × List String)
  valid : coordinateIds.Nodup ∧ matrix.columns = coordinateIds.length ∧
    matrix.rowCount = rhs.length ∧ certificateMatrix.columns = coordinateIds.length ∧
    certificateMatrix.rowCount = certificateRhs.length ∧
    supports.length = certificateMatrix.rowCount

/-- The constructor `CompiledConstraints(...)`. -/
def compiledConstraints {K : Type} (coordinateIds : List String) (matrix : CsrMatrix K)
    (rhs : List K) (certificateMatrix : CsrMatrix K) (certificateRhs : List K)
    (supports : List (String × List String)) : Except NumericFailure (CompiledConstraints K) :=
  if h : coordinateIds.Nodup ∧ matrix.columns = coordinateIds.length ∧
      matrix.rowCount = rhs.length ∧ certificateMatrix.columns = coordinateIds.length ∧
      certificateMatrix.rowCount = certificateRhs.length ∧
      supports.length = certificateMatrix.rowCount then
    .ok ⟨coordinateIds, matrix, rhs, certificateMatrix, certificateRhs, supports, h⟩
  else .error (.valueError "constraint shapes do not match coordinates")

/-- `support_coordinate_ids`. -/
def CompiledConstraints.supportCoordinateIds {K : Type} (constraints : CompiledConstraints K) :
    List String :=
  constraints.coordinateIds.filter fun coordinateId =>
    constraints.supports.any fun support => coordinateId ∈ support.2

/-! ## Compiling -/

/-- What `_classify_constraint` returns. -/
inductive ClassifiedConstraint
  | fix (coordinateId : String) (value : Rat)
  | equality (left right : String)
deriving DecidableEq

/-- `_classify_constraint`. -/
def classifyConstraint (row : ConstraintRow) : Except NumericFailure ClassifiedConstraint :=
  match row.terms with
  | [(coordinateId, coefficient)] =>
      if coefficient = 1 ∧ (row.rhs = 0 ∨ row.rhs = 1) then .ok (.fix coordinateId row.rhs)
      else .error (.constraint .unsupported)
  | [(left, leftCoefficient), (right, rightCoefficient)] =>
      if row.rhs = 0 ∧ (leftCoefficient = -1 ∨ leftCoefficient = 1) ∧
          rightCoefficient = -leftCoefficient then .ok (.equality left right)
      else .error (.constraint .unsupported)
  | _ => .error (.constraint .unsupported)

/-- The support of a row. -/
def ConstraintRow.support (row : ConstraintRow) : String × List String :=
  (row.constraintId, row.terms.map Prod.fst)

/-- One iteration of the loop over the rows. -/
def parseRow (coordinates : List String) (parsed : List ClassifiedConstraint) (row : ConstraintRow) :
    Except NumericFailure (List ClassifiedConstraint) := do
  require (∀ term ∈ row.terms, term.1 ∈ coordinates) (.constraint .unknownCoordinate)
  let classified ← classifyConstraint row
  pure (parsed ++ [classified])

/-- The loop over the equations. -/
def uniteAll (frames : Nat) : Parents → List ClassifiedConstraint → Except NumericFailure Parents
  | parents, [] => .ok parents
  | parents, .equality left right :: rest => do
      let parents ← parents.union frames left right
      uniteAll frames parents rest
  | parents, .fix _ _ :: rest => uniteAll frames parents rest

/-- `fixed_by_root`. -/
abbrev FixedByRoot := List (String × Rat)

/-- The loop over the fixed coordinates. -/
def fixRoots (frames : Nat) : Parents → FixedByRoot → List ClassifiedConstraint →
    Except NumericFailure (Parents × FixedByRoot)
  | parents, fixed, [] => .ok (parents, fixed)
  | parents, fixed, .equality _ _ :: rest => fixRoots frames parents fixed rest
  | parents, fixed, .fix coordinateId value :: rest => do
      let (root, parents) ← parents.find frames coordinateId
      match fixed.lookup root with
      | some existing =>
          if existing ≠ value then .error (.constraint .contradictory)
          else fixRoots frames parents fixed rest
      | none => fixRoots frames parents (fixed ++ [(root, value)]) rest

/-- `groups.setdefault(root, []).append(member)`. -/
def addMember (root member : String) : List (String × List String) → List (String × List String)
  | [] => [(root, [member])]
  | group :: rest =>
      if group.1 = root then (group.1, group.2 ++ [member]) :: rest
      else group :: addMember root member rest

/-- The loop that groups the coordinates. -/
def groupCoordinates (frames : Nat) : Parents → List (String × List String) → List String →
    Except NumericFailure (Parents × List (String × List String))
  | parents, groups, [] => .ok (parents, groups)
  | parents, groups, coordinateId :: rest => do
      let (root, parents) ← parents.find frames coordinateId
      groupCoordinates frames parents (addMember root coordinateId groups) rest

/-- A row of the compiled matrix; its place in the list is `solve_row`. -/
inductive SolveRow
  | equality (anchor member : String)
  | fix (anchor : String) (value : Rat)
deriving DecidableEq

/-- The loop over the groups. -/
def solveRows (frames : Nat) (fixed : FixedByRoot) : Parents → List (List String) →
    Except NumericFailure (List SolveRow)
  | _, [] => .ok []
  | parents, [] :: rest => solveRows frames fixed parents rest
  | parents, (anchor :: members) :: rest => do
      let (root, parents) ← parents.find frames anchor
      let rows ← solveRows frames fixed parents rest
      pure (members.map (.equality anchor) ++
        ((fixed.lookup root).map (.fix anchor)).toList ++ rows)

variable [CallStack]

/-- The rows that the groups of some constraints give. -/
def compileRows (coordinates : List String) (parsed : List ClassifiedConstraint) :
    Except NumericFailure (List SolveRow) := do
  let parents ← uniteAll CallStack.frames id parsed
  let (parents, fixed) ← fixRoots CallStack.frames parents [] parsed
  let (parents, groups) ← groupCoordinates CallStack.frames parents [] coordinates
  solveRows CallStack.frames fixed parents (groups.map Prod.snd)

section Compile

variable {K : Type} [Field K]

/-- The entries of a row. -/
def SolveRow.entries (coordinates : List String) (index : Nat) : SolveRow → List (Nat × Nat × K)
  | .equality anchor member =>
      [(index, coordinates.idxOf anchor, 1), (index, coordinates.idxOf member, -1)]
  | .fix anchor _ => [(index, coordinates.idxOf anchor, 1)]

/-- The right-hand side of a row. -/
def SolveRow.rhs : SolveRow → K
  | .equality _ _ => 0
  | .fix _ value => value

/-- `solve_entries`. -/
def solveEntries (coordinates : List String) (rows : List SolveRow) : List (Nat × Nat × K) :=
  rows.zipIdx.flatMap fun row => row.1.entries coordinates row.2

/-- `certificate_entries`. -/
def certificateEntries (coordinates : List String) (rows : List ConstraintRow) :
    List (Nat × Nat × K) :=
  rows.zipIdx.flatMap fun row =>
    row.1.terms.map fun term => (row.2, coordinates.idxOf term.1, (term.2 : K))

variable [LinearOrder K]

/-- `compile_constraints`. -/
def compileConstraints (coordinateIds : List String) (rows : List ConstraintRow) :
    Except NumericFailure (CompiledConstraints K) := do
  require ("" ∉ coordinateIds ∧ coordinateIds.Nodup) (.constraint .invalidCoordinates)
  let parsed ← forEach (parseRow coordinateIds) [] rows
  let solved ← compileRows coordinateIds parsed
  let matrix ← orValueError (CsrMatrix.fromEntries solved.length coordinateIds.length
    (solveEntries coordinateIds solved))
  let certificateMatrix ← orValueError (CsrMatrix.fromEntries rows.length coordinateIds.length
    (certificateEntries coordinateIds rows))
  compiledConstraints coordinateIds matrix (solved.map SolveRow.rhs) certificateMatrix
    (rows.map fun row => (row.rhs : K)) (rows.map ConstraintRow.support)

end Compile

end AstrContinuum
