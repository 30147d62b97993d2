import Mathlib.Algebra.GroupWithZero.Nat
import AstrContinuum.Control.Effects
import AstrContinuum.ContextGraph.Closure

/-!
# Assembly within the input budget

`runtime/budget.py`: `assemble` orders and deduplicates the candidate blocks, selects whole dependency
groups by their counts, falls back to an emergency pass when a required block did not fit, and then
removes optional groups until the exact count of the joined text fits. A counter keeps a state of its
own, so the functions that count are `EStateM` computations.

A count table is an association list. Every block that is looked up was counted, so a missing entry,
where the code has a `KeyError`, is never met.
-/

namespace AstrContinuum

open Checked Effects

variable {σ : Type}

/-! ## Counting -/

/-- `_SEPARATOR`. -/
def separator : String := "\n\n"

/-- `_count_text`. -/
def countText (counter : TokenCounter σ) (text : String) : EStateM RuntimeFailure σ Nat := fun s =>
  match counter.countText text s with
  | (.integer value, s') =>
      if 0 ≤ value then .ok value.toNat s'
      else .error (.budgetInvariantError .tokenCounterInvalid) s'
  | (.malformed, s') => .error (.budgetInvariantError .tokenCounterInvalid) s'
  | (.tokenizerError code, s') => .error (.tokenizerError code) s'
  | (.otherError, s') => .error (.budgetInvariantError .tokenCounterFailure) s'

/-- `_non_negative_cost`. -/
def nonNegativeCost (value : Int) (code : BudgetErrorCode) : Except RuntimeFailure Nat :=
  if 0 ≤ value then .ok value.toNat else .error (.budgetInvariantError code)

/-- The counts of blocks by their ids. -/
abbrev TokenCounts := List (String × Nat)

/-- `block_token_counts[block_id]`. -/
def TokenCounts.cost (counts : TokenCounts) (candidate : CandidateBlock) : Nat :=
  ((counts.find? fun entry => entry.1 = candidate.blockId).map Prod.snd).getD 0

/-- The sum of the counts of some blocks. -/
def TokenCounts.total (counts : TokenCounts) (candidates : List CandidateBlock) : Nat :=
  (candidates.map counts.cost).sum

/-- `_estimated_projection_cost`. -/
def estimatedProjectionCost (counts : TokenCounts) (separatorCost : Nat)
    (candidates : List CandidateBlock) : Nat :=
  if candidates = [] then 0
  else counts.total candidates + separatorCost * (candidates.length - 1)

/-! ## The canonical order -/

/-- The slots whose blocks are ordered by their events. -/
def RuntimeSlot.isRaw (slot : RuntimeSlot) : Bool :=
  decide (slot = .rawDelta ∨ slot = .recentRaw)

/-- `_candidate_sort_key`, as a comparison. -/
def candidateOrder (left right : CandidateBlock) : Ordering :=
  let rawOrder (block : CandidateBlock) :=
    if block.slot.isRaw then block.eventSequence.getD 0 else 0
  let scoreOrder (block : CandidateBlock) := if block.slot.isRaw then 0 else -block.score
  (compare left.slot.rank right.slot.rank).then
    ((compare (rawOrder left) (rawOrder right)).then
      ((compare (scoreOrder left) (scoreOrder right)).then
        ((compare left.blockId right.blockId).then
          ((compare left.kind.value right.kind.value).then
            ((compare left.text right.text).then
              ((compare left.sourceEventIds right.sourceEventIds).then
                ((compare left.reason right.reason).then
                  ((compare left.required right.required).then
                    (compare (left.capsuleId.getD "") (right.capsuleId.getD ""))))))))))

/-- `_ordered`. -/
def orderedCandidates (candidates : List CandidateBlock) : List CandidateBlock :=
  candidates.insertionSort fun left right => (candidateOrder left right).isLE = true

/-- `_projection_text`. -/
def projectionText (candidates : List CandidateBlock) : String :=
  String.intercalate separator (candidates.map fun candidate => candidate.text)

/-- `BlockSelection` and `BlockRejection` of a candidate. -/
def CandidateBlock.record (candidate : CandidateBlock) (tokenCost : Nat) (reason : String) :
    BlockRecord where
  blockId := candidate.blockId
  slot := candidate.slot
  sourceEventIds := candidate.sourceEventIds
  tokenCost := tokenCost
  score := candidate.score
  reason := reason

/-- `_rejection`. -/
def rejection (counts : TokenCounts) (reason : String) (candidate : CandidateBlock) : BlockRecord :=
  candidate.record (counts.cost candidate) reason

/-- One iteration of `_deduplicate`: the unique candidates and the duplicates. -/
def deduplicateStep (found : List CandidateBlock × List CandidateBlock)
    (candidate : CandidateBlock) : List CandidateBlock × List CandidateBlock :=
  if candidate.blockId ∈ blockIds found.1 then (found.1, found.2 ++ [candidate])
  else (found.1 ++ [candidate], found.2)

/-- `_deduplicate`. -/
def deduplicate (candidates : List CandidateBlock) : List CandidateBlock × List CandidateBlock :=
  (orderedCandidates candidates).foldl deduplicateStep ([], [])

/-- `canonical_candidates`. -/
def canonicalCandidates (candidates : List CandidateBlock) : List CandidateBlock :=
  (deduplicate candidates).1

/-- The loop of `count_candidate_blocks`. -/
def countBlocksFrom (counter : TokenCounter σ) :
    TokenCounts → List CandidateBlock → EStateM RuntimeFailure σ TokenCounts
  | counts, [] => pure counts
  | counts, candidate :: rest => do
      if candidate.blockId ∈ counts.map Prod.fst then
        throw (.budgetInvariantError .internalBudgetInvariant)
      else
        let tokenCost ← countText counter candidate.text
        countBlocksFrom counter (counts ++ [(candidate.blockId, tokenCost)]) rest

/-- `count_candidate_blocks`. -/
def countCandidateBlocks (candidates : List CandidateBlock) (counter : TokenCounter σ) :
    EStateM RuntimeFailure σ TokenCounts :=
  countBlocksFrom counter [] candidates

/-- The counts that a caller provides, checked block by block. -/
def providedCounts (provided : String → Option Int) (candidates : List CandidateBlock) :
    Except RuntimeFailure TokenCounts :=
  candidates.mapM fun candidate => do
    let value ← orMissing (provided candidate.blockId) (.budgetInvariantError .tokenCounterInvalid)
    let tokenCost ← nonNegativeCost value .tokenCounterInvalid
    pure (candidate.blockId, tokenCost)

/-- `_validated_block_token_counts`. -/
def validatedBlockTokenCounts (candidates : List CandidateBlock) (counter : TokenCounter σ) :
    Option (String → Option Int) → EStateM RuntimeFailure σ TokenCounts
  | none => countCandidateBlocks candidates counter
  | some provided => perform (providedCounts provided candidates)

/-! ## Selection by counts -/

/-- The dictionary `group_by_id`: the group of a candidate. -/
def groupOf (groups : List (List CandidateBlock)) (candidate : CandidateBlock) :
    List CandidateBlock :=
  (groups.find? fun group => candidate.blockId ∈ blockIds group).getD [candidate]

/-- What does not change during a pass. -/
structure SelectionContext where
  groups : List (List CandidateBlock)
  counts : TokenCounts
  separatorCost : Nat
  bAc : Nat

/-- The variables of a pass. -/
structure SelectionState where
  selectedIds : List String := []
  selectedCost : Nat := 0
  selectedCount : Nat := 0
  rejected : List BlockRecord := []
  handledIds : List String := []
  requiredMissing : Bool := false

namespace SelectionState

variable (context : SelectionContext) (state : SelectionState)

/-- `handled_ids.update(...)`. -/
def handle (group : List CandidateBlock) : SelectionState :=
  { state with handledIds := state.handledIds ++ blockIds group }

/-- The cost of a further group, its separators included. -/
def additionalCost (group : List CandidateBlock) : Nat :=
  context.counts.total group + context.separatorCost * (group.length - 1) +
    if state.selectedCount ≠ 0 then context.separatorCost else 0

/-- The group fits into the budget. -/
def fits (group : List CandidateBlock) : Bool :=
  decide (state.selectedCost + state.additionalCost context group ≤ context.bAc)

/-- Select a whole group. -/
def select (group : List CandidateBlock) : SelectionState :=
  { state with
    selectedIds := state.selectedIds ++ blockIds group
    selectedCost := state.selectedCost + state.additionalCost context group
    selectedCount := state.selectedCount + group.length }

/-- Reject a whole group. -/
def reject (group : List CandidateBlock) (reason : String) : SelectionState :=
  { state with rejected := state.rejected ++ group.map (rejection context.counts reason) }

/-- The blocks selected so far, in the order of the candidates. -/
def selected (candidates : List CandidateBlock) : List CandidateBlock :=
  candidates.filter fun candidate => candidate.blockId ∈ state.selectedIds

/-- One iteration of `_normal_selection`. -/
def normalStep (candidate : CandidateBlock) : SelectionState :=
  if candidate.blockId ∈ state.handledIds then state
  else
    let group := groupOf context.groups candidate
    let state := state.handle group
    if state.fits context group then state.select context group
    else
      { state.reject context group "INSUFFICIENT_AC_BUDGET" with
        requiredMissing := state.requiredMissing || group.any fun block => block.required }

/-- The treatment of one group in the emergency pass. -/
def emergencyGroup (group : List CandidateBlock) : SelectionState :=
  let state := state.handle group
  if !group.any (fun block => block.required) then
    state.reject context group "EMERGENCY_OPTIONAL_OMITTED"
  else if state.fits context group then state.select context group
  else state.reject context group "EMERGENCY_REQUIRED_NOT_FIT"

end SelectionState

/-- `_normal_selection`. -/
def normalSelection (context : SelectionContext) (candidates : List CandidateBlock) :
    SelectionState :=
  candidates.foldl (fun state candidate => state.normalStep context candidate) {}

/-- The loop of `_contiguous_raw_tail`, from the end: extend the tail while events are adjacent. -/
def contiguousFrom (tail : List CandidateBlock) : List CandidateBlock → List CandidateBlock
  | [] => tail
  | previous :: older =>
      match tail with
      | [] => contiguousFrom [previous] older
      | current :: _ =>
          if previous.eventSequence.map (· + previous.sourceEventIds.length) = current.eventSequence
          then contiguousFrom (previous :: tail) older
          else tail

/-- `_contiguous_raw_tail`. -/
def contiguousRawTail (candidates : List CandidateBlock) : List CandidateBlock :=
  contiguousFrom [] (candidates.filter fun candidate => candidate.eventSequence ≠ none).reverse

/-- The estimate of the critical blocks with a suffix of the raw tail. -/
def suffixEstimate (context : SelectionContext) (critical suffix : List CandidateBlock) : Nat :=
  let totalCount := critical.length + suffix.length
  context.counts.total critical + context.counts.total suffix +
    if totalCount ≠ 0 then context.separatorCost * (totalCount - 1) else 0

/-- `_longest_raw_suffix`: the first suffix that fits, from the whole tail on. -/
def longestRawSuffix (context : SelectionContext) (critical rawTail : List CandidateBlock) :
    List CandidateBlock :=
  (rawTail.tails.find? fun suffix =>
    suffixEstimate context critical suffix ≤ context.bAc).getD []

namespace SelectionState

variable (context : SelectionContext) (state : SelectionState)

/-- The groups of more than one block among the candidates of a raw slot, each once. -/
def atomicGroups (slotCandidates : List CandidateBlock) : List (List CandidateBlock) :=
  slotCandidates.foldl (fun found candidate =>
    let group := groupOf context.groups candidate
    if group.length = 1 ∨ candidate.blockId ∈ found.flatMap blockIds then found
    else found ++ [group]) []

/-- Select one raw block. -/
def selectRaw (candidate : CandidateBlock) : SelectionState :=
  { state with
    selectedIds := state.selectedIds ++ [candidate.blockId]
    selectedCost := state.selectedCost +
      (if state.selectedCount ≠ 0 then context.separatorCost else 0) + context.counts.cost candidate
    selectedCount := state.selectedCount + 1 }

/-- The candidates of a slot that are not handled yet. -/
def slotCandidates (candidates : List CandidateBlock) (slot : RuntimeSlot) : List CandidateBlock :=
  candidates.filter fun candidate =>
    decide (candidate.slot = slot) && decide (candidate.blockId ∉ state.handledIds)

/-- The candidates of a list that are not handled yet. -/
def unhandled (candidates : List CandidateBlock) : List CandidateBlock :=
  candidates.filter fun candidate => candidate.blockId ∉ state.handledIds

/-- The emergency pass over a raw slot: its groups of several blocks first, then the longest suffix of
its contiguous tail that fits. -/
def emergencyRawSlot (candidates : List CandidateBlock) (slot : RuntimeSlot) : SelectionState :=
  let slotBlocks := state.slotCandidates candidates slot
  let state := (atomicGroups context slotBlocks).foldl
    (fun state group => state.emergencyGroup context group) state
  let single := state.unhandled slotBlocks
  let selectedRaw := longestRawSuffix context (state.selected candidates) (contiguousRawTail single)
  let state := selectedRaw.foldl (fun state candidate => state.selectRaw context candidate) state
  let state := state.handle single
  let omitted := single.filter fun candidate => candidate.blockId ∉ blockIds selectedRaw
  state.reject context omitted "EMERGENCY_RAW_PREFIX_OMITTED"

/-- The emergency pass over one of the other slots. -/
def emergencySlot (candidates : List CandidateBlock) (slot : RuntimeSlot) : SelectionState :=
  (state.slotCandidates candidates slot).foldl (fun state candidate =>
    if candidate.blockId ∈ state.handledIds then state
    else state.emergencyGroup context (groupOf context.groups candidate)) state

end SelectionState

/-- `_emergency_selection`. -/
def emergencySelection (context : SelectionContext) (candidates : List CandidateBlock) :
    SelectionState :=
  runtimeSlotPriority.foldl (fun state slot =>
    if slot.isRaw then state.emergencyRawSlot context candidates slot
    else state.emergencySlot context candidates slot) {}

/-! ## The exact selection -/

/-- The key of `max` in `_lowest_priority_optional_group`: the first position of a group, then its
ids. -/
def groupKey (selected group : List CandidateBlock) : Nat × List String :=
  (((group.map fun block => (blockIds selected).idxOf block.blockId).min?).getD 0, blockIds group)

/-- `left < right` for two such keys. -/
def keyBelow (left right : Nat × List String) : Bool :=
  decide (left.1 < right.1) || (decide (left.1 = right.1) && (compare left.2 right.2).isLT)

/-- `max(groups, key=...)`: the first of the greatest. -/
def greatestGroup (selected : List CandidateBlock) :
    List (List CandidateBlock) → Option (List CandidateBlock)
  | [] => none
  | group :: groups => some (groups.foldl (fun best other =>
      if keyBelow (groupKey selected best) (groupKey selected other) then other else best) group)

/-- `_lowest_priority_optional_group`. -/
def lowestPriorityOptionalGroup (selected : List CandidateBlock) :
    Except RuntimeFailure (Option (List CandidateBlock)) := do
  let groups ← removableDependencyGroups selected
  pure (greatestGroup selected groups)

/-- What `_exact_final_selection` returns. -/
structure ExactSelection where
  selected : List CandidateBlock
  projectedText : String
  exactCost : Nat
  removed : List BlockRecord

/-- `_exact_final_selection`; every iteration that continues removes a block. -/
def exactFinalSelection (counter : TokenCounter σ) (counts : TokenCounts) (bAc : Nat) :
    Nat → List CandidateBlock → List BlockRecord → EStateM RuntimeFailure σ ExactSelection
  | 0, _, _ => throw .endlessLoop
  | fuel + 1, selected, removed => do
      let exactCost ← countText counter (projectionText selected)
      if exactCost ≤ bAc then pure ⟨selected, projectionText selected, exactCost, removed⟩
      else
        match ← perform (lowestPriorityOptionalGroup selected) with
        | none => throw (.budgetInvariantError .requiredInputExceedsBudget)
        | some group =>
            exactFinalSelection counter counts bAc fuel
              (selected.filter fun block => block.blockId ∉ blockIds group)
              (removed ++ group.map (rejection counts "EXACT_BUDGET_COMPONENT_REMOVED"))

/-! ## Assembly -/

/-- `_rejection_sort_key`, as a comparison. -/
def rejectionOrder (left right : BlockRecord) : Ordering :=
  (compare left.slot.rank right.slot.rank).then
    ((compare left.blockId right.blockId).then
      ((compare left.reason right.reason).then (compare (-left.score) (-right.score))))

/-- The costs that `assemble` computes before it looks at the candidates. -/
structure BudgetCosts where
  bInput : Nat
  currentInputCost : Nat
  fixedRequiredCost : Nat
  safetyMargin : Nat
  opaqueTokenCost : Nat
deriving DecidableEq

/-- `b_required`. -/
def BudgetCosts.bRequired (costs : BudgetCosts) : Nat :=
  costs.currentInputCost + costs.fixedRequiredCost + costs.safetyMargin

/-- `b_ac`. -/
def BudgetCosts.bAc (costs : BudgetCosts) : Nat :=
  costs.bInput - costs.opaqueTokenCost - costs.bRequired

/-- `b_input`. -/
def BudgetConfig.inputBudget (config : BudgetConfig) : Nat :=
  min config.targetInputBudget
    (min config.hardInputCeiling (config.modelContextLimit - config.reservedOutputAndTools))

/-- The reason of a selection. -/
def AssemblyMode.selectionReason : AssemblyMode → String
  | .normal => "SELECTED_NORMAL"
  | .emergencyAssembly => "SELECTED_EMERGENCY"

/-- The non-zero costs of the slots, in the order of the slots. -/
def slotTokenCosts (selections : List BlockRecord) : List (RuntimeSlot × Nat) :=
  (runtimeSlotPriority.map fun slot =>
    (slot, ((selections.filter fun item => item.slot = slot).map BlockRecord.tokenCost).sum)).filter
      fun entry => entry.2 ≠ 0

/-- `_trace`. -/
def assemblyTrace (view : RequestView) (selected : List CandidateBlock)
    (rejections : List BlockRecord) (mode : AssemblyMode) (counts : TokenCounts)
    (exactProjectionCost : Nat) (costs : BudgetCosts) : Except RuntimeFailure AssemblyTrace := do
  let selections := selected.map fun candidate =>
    candidate.record (counts.cost candidate) mode.selectionReason
  let totalInputCost := costs.opaqueTokenCost + costs.bRequired + exactProjectionCost
  require (totalInputCost ≤ costs.bInput) (.budgetInvariantError .internalBudgetInvariant)
  pure
    { mode := mode
      snapshotId := view.snapshot.map fun snapshot => snapshot.snapshotId
      pointerVersion := view.pointerVersion
      coveredEventEnd := view.coveredEventEnd
      highWaterMark := view.highWaterMark
      bInput := costs.bInput
      currentInputCost := costs.currentInputCost
      fixedRequiredCost := costs.fixedRequiredCost
      safetyMargin := costs.safetyMargin
      bRequired := costs.bRequired
      opaqueTokenCost := costs.opaqueTokenCost
      bAc := costs.bAc
      acSelectedCost := exactProjectionCost
      projectionOverheadCost :=
        (exactProjectionCost : Int) - ((selections.map BlockRecord.tokenCost).sum : Nat)
      totalInputCost := totalInputCost
      slotTokenCosts := slotTokenCosts selections
      selections := selections
      rejections := rejections.insertionSort fun left right =>
        (rejectionOrder left right).isLE = true }

/-- The arguments of `assemble` besides the view, the candidates and the counter. -/
structure AssemblyInput where
  currentInput : String
  opaqueTokenCost : Int
  fixedRequiredCost : Int
  config : BudgetConfig
  blockTokenCounts : Option (String → Option Int) := none

/-- The rejections of the duplicates, each counted on its own. -/
def duplicateRejections (counter : TokenCounter σ) :
    List CandidateBlock → EStateM RuntimeFailure σ (List BlockRecord)
  | [] => pure []
  | candidate :: rest => do
      let tokenCost ← countText counter candidate.text
      let records ← duplicateRejections counter rest
      pure (candidate.record tokenCost "DUPLICATE_BLOCK_ID" :: records)

/-- The first part of `assemble`: the costs that are due before any block is selected. -/
def requiredCosts (counter : TokenCounter σ) (input : AssemblyInput) :
    EStateM RuntimeFailure σ BudgetCosts := do
  let opaqueCost ← perform (nonNegativeCost input.opaqueTokenCost .opaqueTokenCostInvalid)
  let fixedCost ← perform (nonNegativeCost input.fixedRequiredCost .fixedRequiredCostInvalid)
  let currentInputCost ← countText counter input.currentInput
  let costs : BudgetCosts :=
    ⟨input.config.inputBudget, currentInputCost, fixedCost, input.config.safetyMargin, opaqueCost⟩
  perform (require (costs.opaqueTokenCost + costs.bRequired ≤ costs.bInput)
    (.budgetInvariantError .requiredInputExceedsBudget))
  pure costs

/-- The mode, the selection and the rejections before the exact count: the normal pass, or the
emergency pass when the normal one left a required block out. -/
def selectByCounts (context : SelectionContext) (unique : List CandidateBlock) :
    AssemblyMode × List CandidateBlock × List BlockRecord :=
  let normal := normalSelection context unique
  if normal.requiredMissing then
    let emergency := emergencySelection context unique
    (.emergencyAssembly, emergency.selected unique, emergency.rejected)
  else (.normal, normal.selected unique, normal.rejected)

/-- `assemble`. -/
def assemble (view : RequestView) (candidates : List CandidateBlock) (counter : TokenCounter σ)
    (input : AssemblyInput) : EStateM RuntimeFailure σ AssemblyResult := do
  let costs ← requiredCosts counter input
  let (unique, duplicates) := deduplicate candidates
  let counts ← validatedBlockTokenCounts unique counter input.blockTokenCounts
  let separatorCost ← countText counter separator
  let duplicateRecords ← duplicateRejections counter duplicates
  let groups ← perform (dependencyGroups unique)
  let (mode, selected, rejections) :=
    selectByCounts ⟨groups, counts, separatorCost, costs.bAc⟩ unique
  perform (require (∀ block ∈ unique, block.required = true → block.blockId ∈ blockIds selected)
    (.budgetInvariantError .requiredInputExceedsBudget))
  let exact ← exactFinalSelection counter counts costs.bAc (selected.length + 1) selected []
  let trace ← perform (assemblyTrace view exact.selected
    (duplicateRecords ++ rejections ++ exact.removed) mode counts exact.exactCost costs)
  pure ⟨exact.projectedText, exact.selected, trace⟩

end AstrContinuum
