import AstrContinuum.Runtime.Types

/-!
# Dependency groups and closures

`context_graph/closure.py`. Blocks are companions when one of them is a dependency and they share a
capsule or a source event. `dependencyGroups` splits a list of blocks into the connected components
of that relation, and `closeDependencyClosure` extends a selection to the components it touches.
The loops run on a bound that no run of the code reaches: a block is visited once, and every push
of the worklist belongs to a visit.
-/

namespace AstrContinuum

open Checked

/-- `_companions`. -/
def companions (left right : CandidateBlock) : Bool :=
  decide (left.kind = .dependency ∨ right.kind = .dependency) &&
    (decide (left.capsuleId ≠ none ∧ left.capsuleId = right.capsuleId) ||
      left.sourceEventIds.any (· ∈ right.sourceEventIds))

/-- `_companions(candidates[left], candidates[right])`. -/
def companionsAt (candidates : List CandidateBlock) (left right : Nat) : Bool :=
  match candidates[left]?, candidates[right]? with
  | some first, some second => companions first second
  | _, _ => false

/-- The inner loop of `dependency_groups`: the worklist `pending` is a stack, and the result is the
component with the indexes that remain. -/
def collectComponent (candidates : List CandidateBlock) :
    Nat → List Nat → List Nat → List Nat → List Nat × List Nat
  | 0, _, component, remaining => (component, remaining)
  | _ + 1, [], component, remaining => (component, remaining)
  | fuel + 1, index :: pending, component, remaining =>
      if index ∈ component then collectComponent candidates fuel pending component remaining
      else
        let remaining := remaining.erase index
        let found := remaining.filter (companionsAt candidates index)
        collectComponent candidates fuel (found.reverse ++ pending) (component ++ [index]) remaining

/-- The blocks at the given indexes, in the order of the list. -/
def blocksAt (candidates : List CandidateBlock) (indexes : List Nat) : List CandidateBlock :=
  (candidates.zipIdx.filter fun entry => entry.2 ∈ indexes).map Prod.fst

/-- The outer loop of `dependency_groups`; `remaining` is ascending, so its head is its minimum. -/
def groupsFrom (candidates : List CandidateBlock) : Nat → List Nat → List (List CandidateBlock)
  | 0, _ => []
  | _ + 1, [] => []
  | fuel + 1, first :: rest =>
      let found := collectComponent candidates (candidates.length * candidates.length + 2) [first]
        [] (first :: rest)
      blocksAt candidates found.1 :: groupsFrom candidates fuel found.2

/-- The ids of the blocks of a list. -/
def blockIds (candidates : List CandidateBlock) : List String :=
  candidates.map fun candidate => candidate.blockId

/-- `dependency_groups`. -/
def dependencyGroups (candidates : List CandidateBlock) :
    Except RuntimeFailure (List (List CandidateBlock)) := do
  require (blockIds candidates).Nodup (.closureError "DEPENDENCY_GROUP_DUPLICATE_BLOCK")
  pure (groupsFrom candidates (candidates.length + 1) (List.range candidates.length))

/-- `removable_dependency_groups`. -/
def removableDependencyGroups (candidates : List CandidateBlock) :
    Except RuntimeFailure (List (List CandidateBlock)) := do
  let groups ← dependencyGroups candidates
  pure (groups.filter fun group => !group.any fun block => block.required)

/-- The innermost statement of the closure loop: take `right` in when it accompanies `left`. -/
def takeCompanion (maxBlocks : Nat) (left : CandidateBlock) (selectedIds : List String)
    (right : CandidateBlock) : Except RuntimeFailure (List String) := do
  if right.blockId ∈ selectedIds ∨ companions left right = false then pure selectedIds
  else
    require (selectedIds.length < maxBlocks)
      (.closureError "DEPENDENCY_CLOSURE_CAPACITY_EXCEEDED")
    pure (selectedIds.insert right.blockId)

/-- One pass of the `while changed` loop. -/
def closurePass (maxBlocks : Nat) (available : List CandidateBlock) (selectedIds : List String) :
    Except RuntimeFailure (List String) :=
  let active := available.filter fun block => block.blockId ∈ selectedIds
  forEach (fun ids left => forEach (takeCompanion maxBlocks left) ids available) selectedIds active

/-- The `while changed` loop; every pass but the last takes a block in. -/
def closureLoop (maxBlocks : Nat) (available : List CandidateBlock) :
    Nat → List String → Except RuntimeFailure (List String)
  | 0, selectedIds => .ok selectedIds
  | fuel + 1, selectedIds => do
      let next ← closurePass maxBlocks available selectedIds
      if next.length = selectedIds.length then pure next
      else closureLoop maxBlocks available fuel next

/-- `close_dependency_closure`, the blocks of the closure in the order of the universe. -/
def closeDependencyClosure (selectedBlocks available : List CandidateBlock) (maxBlocks : Nat) :
    Except RuntimeFailure (List CandidateBlock) := do
  require (1 ≤ maxBlocks) (.valueError "max_blocks must be a positive integer")
  require (blockIds available).Nodup (.closureError "DEPENDENCY_CLOSURE_DUPLICATE_BLOCK")
  require (∀ block ∈ selectedBlocks, block.blockId ∈ blockIds available)
    (.closureError "DEPENDENCY_CLOSURE_UNKNOWN_BLOCK")
  let required := available.filter fun block => block.required
  let selectedIds := (blockIds selectedBlocks ++ blockIds required).foldl
    (fun ids blockId => ids.insert blockId) []
  require (selectedIds.length ≤ maxBlocks)
    (.closureError "DEPENDENCY_CLOSURE_CAPACITY_EXCEEDED")
  let closed ← closureLoop maxBlocks available (available.length + 1) selectedIds
  pure (available.filter fun block => block.blockId ∈ closed)

/-- `validate_dependency_closure`. -/
def validateDependencyClosure (packedBlocks available : List CandidateBlock) (maxBlocks : Nat) :
    Bool :=
  match closeDependencyClosure packedBlocks available maxBlocks with
  | .error _ => false
  | .ok closure => blockIds packedBlocks = blockIds closure

end AstrContinuum
