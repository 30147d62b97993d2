import AstrContinuum.Storage.Views

/-!
# Values of the request runtime

The slots, kinds and candidate blocks of `runtime/types.py`, the configurations of retrieval and of
the input budget, and the content-free trace of one assembly. A block and a configuration carry the
checks of their `__post_init__`; `candidateBlock` raises exactly where the block's own constructor
does. Scores are exact rational numbers where the code has floats.
-/

namespace AstrContinuum

/-! ## Failures -/

/-- `BudgetErrorCode`. -/
inductive BudgetErrorCode
  | currentInputInvalid
  | opaqueTokenCostInvalid
  | fixedRequiredCostInvalid
  | tokenCounterInvalid
  | tokenCounterFailure
  | requiredInputExceedsBudget
  | internalBudgetInvariant
deriving DecidableEq

/-- `TokenizerErrorCode`. -/
inductive TokenizerErrorCode
  | tokenizerImportFailed
  | tokenizerAssetMissing
  | tokenizerAssetInvalid
  | tokenizerConstructionFailed
  | tokenizerCountFailed
  | tokenizerCountInvalid
deriving DecidableEq

/-- `RequestBudgetErrorCode`. -/
inductive RequestBudgetErrorCode
  | duplicateBlockId
  | blockIdTextConflict
  | blockIdInvalid
  | blockTextInvalid
  | workloadInvalid
deriving DecidableEq

/-- The errors the request runtime raises, by exception class. A loop that ran longer than its bound is
one more, and no run raises it. -/
inductive RuntimeFailure
  | endlessLoop
  | overflowError
  | valueError (message : String)
  | typeError (message : String)
  | closureError (message : String)
  | budgetInvariantError (code : BudgetErrorCode)
  | requestBudgetInvariantError (code : RequestBudgetErrorCode)
  | tokenizerError (code : TokenizerErrorCode)
deriving DecidableEq

/-! ## Candidate blocks -/

/-- `RuntimeSlot`. -/
inductive RuntimeSlot
  | activeGoal
  | hardConstraint
  | rawDelta
  | exactAnchor
  | recentRaw
  | activeTask
  | relevantEvidence
  | episodeBackground
  | globalBackground
deriving DecidableEq

/-- `RUNTIME_SLOT_PRIORITY`. -/
def runtimeSlotPriority : List RuntimeSlot :=
  [.activeGoal, .hardConstraint, .rawDelta, .exactAnchor, .recentRaw, .activeTask,
    .relevantEvidence, .episodeBackground, .globalBackground]

/-- `_SLOT_RANK`: the position of a slot in the priority order. -/
def RuntimeSlot.rank (slot : RuntimeSlot) : Nat :=
  runtimeSlotPriority.idxOf slot

/-- `CandidateKind`. -/
inductive CandidateKind
  | goal
  | constraint
  | rawEvent
  | exactAnchor
  | taskContext
  | decision
  | entity
  | dependency
  | episodeBackground
  | globalBackground
deriving DecidableEq

/-- `CandidateKind.value`. -/
def CandidateKind.value : CandidateKind → String
  | .goal => "goal"
  | .constraint => "constraint"
  | .rawEvent => "raw_event"
  | .exactAnchor => "exact_anchor"
  | .taskContext => "task_context"
  | .decision => "decision"
  | .entity => "entity"
  | .dependency => "dependency"
  | .episodeBackground => "episode_background"
  | .globalBackground => "global_background"

/-- The fields of a candidate block before validation. -/
structure CandidateBlockData where
  blockId : String
  slot : RuntimeSlot
  kind : CandidateKind
  text : String
  sourceEventIds : List String
  score : Rat
  reason : String
  required : Bool
  capsuleId : Option String
  eventSequence : Option Nat
  eventType : Option EventType := none
  toolName : Option String := none
  requiredSelectionComplete : Bool := true
deriving DecidableEq

/-- The check of a block's tool name: a name needs a raw tool event. -/
def CandidateBlockData.ValidToolName (block : CandidateBlockData) : Prop :=
  block.toolName ≠ none →
    block.toolName ≠ some "" ∧
      (block.eventType = some .toolCall ∨ block.eventType = some .toolResult)

instance CandidateBlockData.decidableValidToolName (block : CandidateBlockData) :
    Decidable block.ValidToolName :=
  inferInstanceAs (Decidable (_ → _))

/-- The checks of `CandidateBlock.__post_init__`. -/
def CandidateBlockData.Valid (block : CandidateBlockData) : Prop :=
  block.blockId ≠ "" ∧ block.sourceEventIds ≠ [] ∧ block.sourceEventIds.Nodup ∧
    0 ≤ block.score ∧ block.reason ≠ "" ∧ block.eventSequence ≠ some 0 ∧
    (block.eventType ≠ none → block.kind = .rawEvent) ∧ block.ValidToolName

instance CandidateBlockData.decidableValid (block : CandidateBlockData) : Decidable block.Valid :=
  inferInstanceAs (Decidable (_ ∧ _))

/-- The message of the first failing check of `CandidateBlock.__post_init__`. -/
def CandidateBlockData.postInitMessage (block : CandidateBlockData) : String :=
  if block.blockId = "" then "block_id must be non-empty"
  else if block.sourceEventIds = [] then "source_event_ids must be non-empty"
  else if ¬ block.sourceEventIds.Nodup then "source_event_ids must be unique"
  else if block.score < 0 then "score must be finite and non-negative"
  else if block.reason = "" then "reason must be non-empty"
  else if block.eventSequence = some 0 then "event_sequence must be positive"
  else if ¬ (block.eventType ≠ none → block.kind = .rawEvent) then
    "event_type is valid only for raw event candidates"
  else "tool_name requires a tool raw event"

/-- `CandidateBlock`. -/
structure CandidateBlock extends CandidateBlockData where
  valid : toCandidateBlockData.Valid
deriving DecidableEq

/-- The constructor `CandidateBlock(...)`. -/
def candidateBlock (block : CandidateBlockData) : Except RuntimeFailure CandidateBlock :=
  if h : block.Valid then .ok ⟨block, h⟩ else .error (.valueError block.postInitMessage)

/-- `replace(block, required_selection_complete=False)`. -/
def CandidateBlock.markIncomplete (block : CandidateBlock) : CandidateBlock :=
  ⟨{ block.toCandidateBlockData with requiredSelectionComplete := false }, block.valid⟩

/-! ## Configurations -/

/-- `RetrievalConfig`, with the limits and weights that `__post_init__` accepts. -/
structure RetrievalConfig where
  maxQueryCharacters : Nat := 2048
  maxCapsules : Nat := 64
  maxDeltaEvents : Nat := 128
  maxCandidates : Nat := 256
  maxItemsPerField : Nat := 64
  maxLexicalCharactersPerCandidate : Nat := 4096
  goalWeight : Rat := 100
  constraintWeight : Rat := 100
  rawDeltaWeight : Rat := 90
  exactAnchorWeight : Rat := 80
  taskWeight : Rat := 50
  decisionWeight : Rat := 40
  entityWeight : Rat := 30
  dependencyWeight : Rat := 30
  backgroundWeight : Rat := 10
  lexicalWeight : Rat := 10
  positiveLimits : 1 ≤ maxCandidates ∧ 1 ≤ maxItemsPerField ∧
    1 ≤ maxLexicalCharactersPerCandidate := by decide
  nonNegativeWeights : 0 ≤ goalWeight ∧ 0 ≤ constraintWeight ∧ 0 ≤ rawDeltaWeight ∧
    0 ≤ exactAnchorWeight ∧ 0 ≤ taskWeight ∧ 0 ≤ decisionWeight ∧ 0 ≤ entityWeight ∧
    0 ≤ dependencyWeight ∧ 0 ≤ backgroundWeight ∧ 0 ≤ lexicalWeight := by decide

/-- `BudgetConfig`, with the values that `__post_init__` accepts. -/
structure BudgetConfig where
  targetInputBudget : Nat := 130000
  hardInputCeiling : Nat := 150000
  modelContextLimit : Nat := 200000
  reservedOutputAndTools : Nat := 32000
  safetyMargin : Nat := 2000
  positive : 1 ≤ targetInputBudget ∧ 1 ≤ hardInputCeiling ∧ 1 ≤ modelContextLimit := by decide
  reserved_le : reservedOutputAndTools ≤ modelContextLimit := by decide

/-- The default reserve fits into the default limit of the model. -/
theorem BudgetConfig.defaultReserve_le : 32000 ≤ 200000 := by decide

/-! ## Token counters -/

/-- What one call of `count_text` does: return an integer, return something else (a boolean
included), raise a `TokenizerError`, or raise anything else. -/
inductive CountAttempt
  | integer (value : Int)
  | malformed
  | tokenizerError (code : TokenizerErrorCode)
  | otherError
deriving DecidableEq

/-- `TokenCounter`: a counter with a state of its own. -/
structure TokenCounter (σ : Type) where
  countText : String → σ → CountAttempt × σ

/-! ## The trace of an assembly -/

/-- `AssemblyMode`. -/
inductive AssemblyMode
  | normal
  | emergencyAssembly
deriving DecidableEq

/-- `BlockSelection` and `BlockRejection`, two records with the same fields. -/
structure BlockRecord where
  blockId : String
  slot : RuntimeSlot
  sourceEventIds : List String
  tokenCost : Nat
  score : Rat
  reason : String
deriving DecidableEq

/-- `AssemblyTrace`. -/
structure AssemblyTrace where
  mode : AssemblyMode
  snapshotId : Option String
  pointerVersion : Nat
  coveredEventEnd : Nat
  highWaterMark : Nat
  bInput : Nat
  currentInputCost : Nat
  fixedRequiredCost : Nat
  safetyMargin : Nat
  bRequired : Nat
  opaqueTokenCost : Nat
  bAc : Nat
  acSelectedCost : Nat
  projectionOverheadCost : Int
  totalInputCost : Nat
  slotTokenCosts : List (RuntimeSlot × Nat)
  selections : List BlockRecord
  rejections : List BlockRecord
deriving DecidableEq

/-- `AssemblyResult`. -/
structure AssemblyResult where
  projectedText : String
  selectedBlocks : List CandidateBlock
  trace : AssemblyTrace
deriving DecidableEq

end AstrContinuum
