import AstrContinuum.Runtime.ToolLoop
import AstrContinuum.Runtime.Types

/-!
# Bounded retrieval

`runtime/retrieval.py`: the candidate blocks of one request view. Retrieval lists the required
blocks first (goals and constraints capsule by capsule, then the newest durable units of the delta,
then anchors) and the optional ones after them, and stops at `max_candidates`; it marks all blocks
when a required source of the view has no block.
-/

namespace AstrContinuum

open Checked

variable [UnicodeTables] [JsonReader]

/-! ## Scores and texts -/

/-- `_normalized_query`. -/
def normalizedQuery (config : RetrievalConfig) (query : String) : String :=
  let bounded := sliceTo config.maxQueryCharacters query
  String.intercalate " " (splitText (UnicodeTables.casefold bounded))

/-- `_lexical_fraction`. -/
def lexicalFraction (config : RetrievalConfig) (query text : String) : Rat :=
  if query = "" then 0
  else
    let candidate :=
      UnicodeTables.casefold (sliceTo config.maxLexicalCharactersPerCandidate text)
    if containsText query candidate then 1
    else
      let terms := uniqueValues (splitText query)
      if terms = [] then 0
      else (terms.countP fun term => containsText term candidate : Nat) / (terms.length : Nat)

/-- `_score`. -/
def retrievalScore (config : RetrievalConfig) (baseWeight : Rat) (query text : String) : Rat :=
  baseWeight + config.lexicalWeight * lexicalFraction config query text

/-- `_reason`. -/
def retrievalReason (config : RetrievalConfig) (query text : String) : String :=
  if 0 < lexicalFraction config query text then "LEXICAL_MATCH" else "STRUCTURED_FALLBACK"

/-- `" | ".join(...)`. -/
def joinBar (texts : List String) : String :=
  String.intercalate " | " texts

/-- `_decision_text`. -/
def decisionText (config : RetrievalConfig) (capsule : ContextCapsuleEnvelope)
    (decision : Decision) : String :=
  let dependencies := capsule.dependencies.take config.maxItemsPerField
  let dependencyText := joinBar (dependencies.map fun item =>
    item.dependencyId ++ ":" ++ item.kind ++ "->" ++ item.targetId)
  String.intercalate "\n"
    ["Decision: " ++ decision.text,
      "Rationale: " ++ decision.rationale,
      "Alternatives: " ++ joinBar (decision.alternatives.take config.maxItemsPerField),
      "Supersedes: " ++ joinBar (decision.supersedes.take config.maxItemsPerField),
      "Rejected because: " ++ decision.rejectedBecause,
      "Dependencies: " ++ dependencyText]

/-- `_task_text`. -/
def taskText (config : RetrievalConfig) (capsule : ContextCapsuleEnvelope) : String :=
  let sections := [("Progress", capsule.progress), ("Open loops", capsule.openLoops),
    ("Preferences", capsule.preferences), ("Emotional context", capsule.emotionalContext)]
  let present := sections.filter fun entry => entry.2.take config.maxItemsPerField ≠ []
  String.intercalate "\n" (present.map fun entry =>
    entry.1 ++ ": " ++ joinBar ((entry.2.take config.maxItemsPerField).map CapsuleClaim.text))

/-- `EventType.value`. -/
def EventType.value : EventType → String
  | .userMessage => "USER_MESSAGE"
  | .assistantMessage => "ASSISTANT_MESSAGE"
  | .toolCall => "TOOL_CALL"
  | .toolResult => "TOOL_RESULT"

/-- `EventRole.value`. -/
def EventRole.value : EventRole → String
  | .user => "USER"
  | .assistant => "ASSISTANT"
  | .tool => "TOOL"

/-- `_raw_event_text`. -/
def rawEventText (event : EventEnvelope) : String :=
  "[" ++ event.eventType.value ++ "/" ++ event.role.value ++ " " ++ event.eventId ++ "]\n" ++
    event.content

/-- `_raw_tool_name`. -/
def rawToolName (event : EventEnvelope) : Option String :=
  if event.eventType = .toolCall ∨ event.eventType = .toolResult then
    match JsonReader.parse event.content with
    | some (.object members) =>
        if lookupString members "kind" = some (expectedKind event.eventType) then
          (lookupString members "tool").filter (· ≠ "")
        else none
    | _ => none
  else none

/-! ## Blocks of one capsule and of the delta -/

/-- The parts that the goal and the constraint loop fill in differently. -/
structure ClaimField where
  label : String
  slot : RuntimeSlot
  kind : CandidateKind
  weight : Rat

/-- The goals. -/
def goalField (config : RetrievalConfig) : ClaimField :=
  ⟨"goal", .activeGoal, .goal, config.goalWeight⟩

/-- The constraints. -/
def constraintField (config : RetrievalConfig) : ClaimField :=
  ⟨"constraint", .hardConstraint, .constraint, config.constraintWeight⟩

/-- The block of an active claim. -/
def claimBlock (config : RetrievalConfig) (query : String) (field : ClaimField)
    (capsule : ContextCapsuleEnvelope) (claim : CapsuleClaim) : CandidateBlockData where
  blockId := field.label ++ ":" ++ capsule.capsuleId ++ ":" ++ claim.claimId
  slot := field.slot
  kind := field.kind
  text := claim.text
  sourceEventIds := claim.sourceEventIds
  score := retrievalScore config field.weight query claim.text
  reason := "ACTIVE_REQUIRED"
  required := true
  capsuleId := some capsule.capsuleId
  eventSequence := none

/-- The blocks of the active claims among the first `max_items_per_field`. -/
def claimBlocks (config : RetrievalConfig) (query : String) (field : ClaimField)
    (capsule : ContextCapsuleEnvelope) (claims : List CapsuleClaim) : List CandidateBlockData :=
  ((claims.take config.maxItemsPerField).filter fun claim => claim.status = .active).map
    (claimBlock config query field capsule)

/-- The goal blocks of a capsule. -/
def goalBlocks (config : RetrievalConfig) (query : String) (capsule : ContextCapsuleEnvelope) :
    List CandidateBlockData :=
  claimBlocks config query (goalField config) capsule capsule.goals

/-- The constraint blocks of a capsule. -/
def constraintBlocks (config : RetrievalConfig) (query : String)
    (capsule : ContextCapsuleEnvelope) : List CandidateBlockData :=
  claimBlocks config query (constraintField config) capsule capsule.constraints

/-- The text of a raw unit. -/
def rawUnitText (unit : List EventEnvelope) : String :=
  String.intercalate "\n\n" (unit.map rawEventText)

/-- The block of a durable unit that starts with `item`. -/
def rawUnitBlock (config : RetrievalConfig) (query : String) (item : EventEnvelope)
    (rest : List EventEnvelope) : CandidateBlockData where
  blockId := "event:" ++ item.eventId
  slot := .rawDelta
  kind := .rawEvent
  text := rawUnitText (item :: rest)
  sourceEventIds := (item :: rest).map fun event => event.eventId
  score := retrievalScore config config.rawDeltaWeight query (rawUnitText (item :: rest))
  reason := "UNCOMPACTED_DELTA"
  required := true
  capsuleId := none
  eventSequence := some item.sequence
  eventType := if rest = [] then some item.eventType else none
  toolName := if rest = [] then rawToolName item else none

/-- The blocks of durable units; a unit is never empty. -/
def rawUnitBlocks (config : RetrievalConfig) (query : String) :
    List (List EventEnvelope) → List CandidateBlockData
  | [] => []
  | [] :: units => rawUnitBlocks config query units
  | (item :: rest) :: units =>
      rawUnitBlock config query item rest :: rawUnitBlocks config query units

/-- The block of an active anchor. -/
def anchorBlock (config : RetrievalConfig) (query : String) (capsule : ContextCapsuleEnvelope)
    (anchor : CapsuleAnchor) : CandidateBlockData where
  blockId := "anchor:" ++ capsule.capsuleId ++ ":" ++ anchor.anchorId
  slot := .exactAnchor
  kind := .exactAnchor
  text := anchor.exactText
  sourceEventIds := anchor.sourceEventIds
  score := retrievalScore config (config.exactAnchorWeight * anchor.importance.val) query
    anchor.exactText
  reason := "ACTIVE_EXACT_ANCHOR"
  required := true
  capsuleId := some capsule.capsuleId
  eventSequence := none

/-- The anchor blocks of a capsule. -/
def anchorBlocks (config : RetrievalConfig) (query : String) (capsule : ContextCapsuleEnvelope) :
    List CandidateBlockData :=
  ((capsule.exactAnchors.take config.maxItemsPerField).filter fun anchor =>
    anchor.status = .active).map (anchorBlock config query capsule)

/-- The parts that the loops over optional content fill in differently. -/
def optionalBlock (config : RetrievalConfig) (query : String) (blockId : String)
    (slot : RuntimeSlot) (kind : CandidateKind) (weight : Rat) (text : String)
    (sourceEventIds : List String) (capsule : ContextCapsuleEnvelope) : CandidateBlockData where
  blockId := blockId
  slot := slot
  kind := kind
  text := text
  sourceEventIds := sourceEventIds
  score := retrievalScore config weight query text
  reason := retrievalReason config query text
  required := false
  capsuleId := some capsule.capsuleId
  eventSequence := none

/-- The task block of a capsule, when it is a task capsule with something to say. -/
def taskBlocks (config : RetrievalConfig) (query : String) (capsule : ContextCapsuleEnvelope) :
    List CandidateBlockData :=
  let text := taskText config capsule
  if capsule.level = .task ∧ text ≠ "" then
    [optionalBlock config query ("task:" ++ capsule.capsuleId) .activeTask .taskContext
      config.taskWeight text capsule.sourceEventIds capsule]
  else []

/-- The decision blocks of a capsule; each cites the capsule's dependencies too. -/
def decisionBlocks (config : RetrievalConfig) (query : String)
    (capsule : ContextCapsuleEnvelope) : List CandidateBlockData :=
  let dependencies := capsule.dependencies.take config.maxItemsPerField
  (capsule.decisions.take config.maxItemsPerField).map fun decision =>
    let sources := decision.sourceEventIds ++ dependencies.flatMap Dependency.sourceEventIds
    optionalBlock config query
      ("decision:" ++ capsule.capsuleId ++ ":" ++ decision.decisionId) .relevantEvidence .decision
      config.decisionWeight (decisionText config capsule decision) (uniqueValues sources)
      capsule

/-- The text of an entity block. -/
def entityText (config : RetrievalConfig) (entity : Entity) : String :=
  String.intercalate "\n"
    ["Entity: " ++ entity.canonicalName, "Kind: " ++ entity.kind,
      "Aliases: " ++ joinBar (entity.aliases.take config.maxItemsPerField)]

/-- The entity blocks of a capsule. -/
def entityBlocks (config : RetrievalConfig) (query : String) (capsule : ContextCapsuleEnvelope) :
    List CandidateBlockData :=
  (capsule.entities.take config.maxItemsPerField).map fun entity =>
    optionalBlock config query ("entity:" ++ capsule.capsuleId ++ ":" ++ entity.entityId)
      .relevantEvidence .entity config.entityWeight (entityText config entity)
      entity.sourceEventIds capsule

/-- The dependency blocks of a capsule. -/
def dependencyBlocks (config : RetrievalConfig) (query : String)
    (capsule : ContextCapsuleEnvelope) : List CandidateBlockData :=
  (capsule.dependencies.take config.maxItemsPerField).map fun dependency =>
    optionalBlock config query
      ("dependency:" ++ capsule.capsuleId ++ ":" ++ dependency.dependencyId) .relevantEvidence
      .dependency config.dependencyWeight
      ("Dependency: " ++ dependency.dependencyId ++ "\nKind: " ++ dependency.kind ++
        "\nTarget: " ++ dependency.targetId)
      dependency.sourceEventIds capsule

/-- The background block of an episode or global capsule. -/
def backgroundBlocks (config : RetrievalConfig) (query : String)
    (capsule : ContextCapsuleEnvelope) : List CandidateBlockData :=
  let block (slot : RuntimeSlot) (kind : CandidateKind) :=
    [optionalBlock config query ("background:" ++ capsule.capsuleId) slot kind
      config.backgroundWeight capsule.narrativeSummary capsule.sourceEventIds capsule]
  match capsule.level with
  | .episode => block .episodeBackground .episodeBackground
  | .global => block .globalBackground .globalBackground
  | _ => []

/-! ## The bounded list -/

/-- One loop of `select_candidates` over `add`: build the next block, and leave the loop when the
list is full. -/
def addUntilFull (limit : Nat) (selected : List CandidateBlock) :
    List CandidateBlockData → Except RuntimeFailure (List CandidateBlock)
  | [] => .ok selected
  | block :: rest => do
      let candidate ← candidateBlock block
      if limit ≤ selected.length then pure selected
      else addUntilFull limit (selected ++ [candidate]) rest

/-- The loop of `_bounded_raw_units` over the reversed units; `selected` is in the order of the
delta. -/
def boundedRawUnits.go (maxDeltaEvents : Nat) (selected : List (List EventEnvelope))
    (selectedEvents : Nat) : List (List EventEnvelope) → List (List EventEnvelope)
  | [] => selected
  | unit :: older =>
      if selected ≠ [] ∧ maxDeltaEvents < selectedEvents + unit.length then selected
      else go maxDeltaEvents (unit :: selected) (selectedEvents + unit.length) older

/-- `_bounded_raw_units`. -/
def boundedRawUnits (maxDeltaEvents : Nat) (units : List (List EventEnvelope)) :
    List (List EventEnvelope) :=
  if maxDeltaEvents < 1 then [] else boundedRawUnits.go maxDeltaEvents [] 0 units.reverse

/-- The durable units that retrieval keeps of a delta. -/
def retainedUnits (config : RetrievalConfig) (delta : List EventEnvelope) :
    List (List EventEnvelope) :=
  match durableEventUnits delta with
  | none => []
  | some units => boundedRawUnits config.maxDeltaEvents units

/-- The block ids that the active claims and anchors of a capsule must have. -/
def expectedBlockIds (capsule : ContextCapsuleEnvelope) : List String :=
  let claims (label : String) (items : List CapsuleClaim) :=
    (items.filter fun claim => claim.status = .active).map fun claim =>
      label ++ ":" ++ capsule.capsuleId ++ ":" ++ claim.claimId
  claims "goal" capsule.goals ++ claims "constraint" capsule.constraints ++
    (capsule.exactAnchors.filter fun anchor => anchor.status = .active).map fun anchor =>
      "anchor:" ++ capsule.capsuleId ++ ":" ++ anchor.anchorId

/-- `required_candidates_complete`. -/
def requiredCandidatesComplete (view : RequestView) (candidates : List CandidateBlock)
    (satisfiedEventIds : List String) : Bool :=
  let present := candidates.map fun candidate => candidate.blockId
  let rawEventIds := (candidates.filter fun candidate => candidate.kind = .rawEvent).flatMap
    fun candidate => candidate.sourceEventIds
  let expectedEventIds := (view.delta.map fun event => event.eventId).filter
    (· ∉ satisfiedEventIds)
  (view.capsules.flatMap expectedBlockIds).all (· ∈ present) &&
    expectedEventIds.all (· ∈ rawEventIds)

/-- `_candidate_sort_key` of retrieval, as a comparison: slots by rank, raw events by sequence,
the others by falling score, then by id. -/
def retrievalOrder (left right : CandidateBlock) : Ordering :=
  let score (block : CandidateBlock) := if block.slot = .rawDelta then 0 else -block.score
  let sequence (block : CandidateBlock) :=
    if block.slot = .rawDelta then block.eventSequence.getD 0 else 0
  (compare left.slot.rank right.slot.rank).then
    ((compare (score left) (score right)).then
      ((compare (sequence left) (sequence right)).then (compare left.blockId right.blockId)))

/-- The capsules that retrieval reads. -/
def retrievedCapsules (config : RetrievalConfig) (view : RequestView) :
    List ContextCapsuleEnvelope :=
  (view.memberships.take config.maxCapsules).map SnapshotCapsuleMembership.capsule

/-- `select_candidates`. -/
def selectCandidates (view : RequestView) (query : String) (config : RetrievalConfig) :
    Except RuntimeFailure (List CandidateBlock) := do
  let query := normalizedQuery config query
  let capsules := retrievedCapsules config view
  let add := addUntilFull config.maxCandidates
  let selected ← forEach (fun selected capsule => do
    let selected ← add selected (goalBlocks config query capsule)
    add selected (constraintBlocks config query capsule)) [] capsules
  let selected ← add selected (rawUnitBlocks config query (retainedUnits config view.delta))
  let selected ← forEach (fun selected capsule =>
    add selected (anchorBlocks config query capsule)) selected capsules
  let selected ← add selected (capsules.flatMap (taskBlocks config query))
  let selected ← forEach (fun selected capsule => do
    let selected ← add selected (decisionBlocks config query capsule)
    let selected ← add selected (entityBlocks config query capsule)
    add selected (dependencyBlocks config query capsule)) selected capsules
  let selected ← add selected (capsules.flatMap (backgroundBlocks config query))
  let ordered := selected.insertionSort fun left right => (retrievalOrder left right).isLE = true
  if requiredCandidatesComplete view ordered [] then pure ordered
  else pure (ordered.map CandidateBlock.markIncomplete)

end AstrContinuum
