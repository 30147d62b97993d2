import AstrContinuum.Control.Binary64
import AstrContinuum.Control.Effects
import AstrContinuum.Reorganization.Records
import AstrContinuum.Reorganization.Surface
import AstrContinuum.Runtime.Types

/-!
# Reorganizing capsules

`reorganize_capsules`: the items of some capsules of one session are folded into one capsule within a
token budget. Anchors and dependencies come first and are kept in full. Every other item is kept in full,
or as the longest shortened copy that a binary search finds, or released, as the count of the capsule
that would result allows. A counter keeps a state of its own, so the functions that count are `EStateM`
computations.
-/

namespace AstrContinuum

open Checked Effects

/-- What `reorganize_capsules` raises. -/
inductive ReorganizationFailure
  | valueError (message : String)
  | validationError
  | budgetError (requiredTokens budget : Nat)
  | invariantError (message : String)
deriving DecidableEq

/-- `ReorganizationStatus.value`. -/
def ReorganizationStatus.value : ReorganizationStatus → String
  | .retained => "retained"
  | .approximate => "approximate"
  | .released => "released"

namespace ItemField

/-- The fields, in the order in which `selected` has them. -/
def all : List ItemField :=
  [.goals, .constraints, .decisions, .progress, .openLoops, .preferences, .entities,
    .emotionalContext, .exactAnchors, .dependencies]

/-- Every field is listed. -/
theorem mem_all (field : ItemField) : field ∈ all := by
  cases field <;> decide

/-- The name of a field. -/
def name : ItemField → String
  | .goals => "goals"
  | .constraints => "constraints"
  | .decisions => "decisions"
  | .progress => "progress"
  | .openLoops => "open_loops"
  | .preferences => "preferences"
  | .entities => "entities"
  | .emotionalContext => "emotional_context"
  | .exactAnchors => "exact_anchors"
  | .dependencies => "dependencies"

/-- The kind of the items of a field. -/
def kind : ItemField → String
  | .goals => "goal"
  | .constraints => "constraint"
  | .decisions => "decision"
  | .progress => "progress"
  | .openLoops => "open_loop"
  | .preferences => "preference"
  | .entities => "entity"
  | .emotionalContext => "emotional_context"
  | .exactAnchors => "exact_anchor"
  | .dependencies => "dependency"

/-- The fields whose items are always kept in full. -/
def core : List ItemField := [.exactAnchors, .dependencies]

/-- `optional_fields`. -/
def optional : List ItemField :=
  [.goals, .constraints, .decisions, .progress, .openLoops, .preferences, .entities,
    .emotionalContext]

end ItemField

/-! ## Shortened copies -/

/-- `_MIN_APPROXIMATE_CHARS`. -/
def minApproximateChars : Nat := 8

/-- `_truncate`. -/
def truncateText (maxChars : Nat) (text : String) : String :=
  if text.length ≤ maxChars then text
  else if maxChars ≤ 1 then sliceTo 1 text
  else sliceTo (maxChars - 1) text ++ "\u2026"

namespace CapsuleItem

/-- The copy that `_approximate_item` makes of an item. -/
def truncated (maxChars : Nat) : CapsuleItem → CapsuleItem
  | .claim item => .claim { item with text := truncateText maxChars item.text }
  | .decision item => .decision
      { item with
        text := truncateText maxChars item.text
        rationale := truncateText maxChars item.rationale
        alternatives := item.alternatives.map (truncateText maxChars)
        supersedes := item.supersedes.map (truncateText maxChars)
        rejectedBecause := truncateText maxChars item.rejectedBecause }
  | .entity item => .entity
      { item with
        kind := truncateText maxChars item.kind
        canonicalName := truncateText maxChars item.canonicalName
        aliases := item.aliases.map (truncateText maxChars) }
  | .anchor item => .anchor item
  | .dependency item => .dependency item

/-- `_approximate_item`; an anchor or a dependency has no copy. -/
def approximate (maxChars : Nat) (item : CapsuleItem) : Option CapsuleItem :=
  if maxChars < minApproximateChars then none
  else
    match item with
    | .anchor _ | .dependency _ => none
    | _ => some (item.truncated maxChars)

/-- The longest of the texts that bound the search of `_fit_approximate_item`. -/
def maxChars : CapsuleItem → Nat
  | .claim item => item.text.length
  | .decision item => max item.text.length item.rationale.length
  | .entity item => item.canonicalName.length
  | .anchor _ | .dependency _ => 0

end CapsuleItem

/-! ## The capsule that a selection makes -/

/-- `selected`. -/
abbrev Selection := ItemField → List CapsuleItem

/-- `selected[field_name].append(item)`. -/
def Selection.append (selected : Selection) (field : ItemField) (item : CapsuleItem) : Selection :=
  Function.update selected field (selected field ++ [item])

/-- `_LEVEL_ORDER`. -/
def CapsuleLevel.order : CapsuleLevel → Nat
  | .micro => 0
  | .episode => 1
  | .task => 2
  | .global => 3

/-- `max(values, key=key)`: the first of the greatest. -/
def firstMaximum {α : Type} (key : α → Nat) (first : α) (rest : List α) : α :=
  rest.foldl (fun best value => if key best < key value then value else best) first

/-- `tuple(sorted({...}))`. -/
def sortedTexts (texts : List String) : List String :=
  texts.dedup.insertionSort fun left right => left ≤ right

/-- The checks that pydantic makes of a capsule whose items it takes as they are. -/
def CapsuleFields.Checks (fields : CapsuleFields) : Prop :=
  (fields.capsuleId ≠ "" ∧ fields.schemaVersion ≠ "" ∧ fields.narrativeSummary ≠ "") ∧
    (1 ≤ fields.coveredEventStart ∧ fields.coveredEventStart ≤ fields.coveredEventEnd) ∧
    ValidSources fields.sourceEventIds ∧ ∀ field ∈ ItemField.all, (fields.items field).Nodup

instance (fields : CapsuleFields) : Decidable fields.Checks :=
  inferInstanceAs (Decidable (_ ∧ _))

/-- `source_coverage` of `_build_capsule`. -/
def sourceCoverage (selected : Selection) (allSourceEventIds : List String) : Rat :=
  let represented := (ItemField.all.flatMap fun field =>
    (selected field).flatMap CapsuleItem.sourceEventIds).dedup
  if allSourceEventIds = [] then 1
  else min 1 (Binary64.nearest (represented.length / allSourceEventIds.length))

section Building

variable [Hashlib] [WireText]

/-- What `_new_capsule_id` hashes of a record. -/
def ReorganizationRecord.digestText (record : ReorganizationRecord) : String :=
  record.kind ++ ":" ++ record.itemId ++ ":" ++ record.status.value ++ ":" ++
    toString record.afterTokens

/-- `_new_capsule_id`. -/
def newCapsuleId (capsules : List ContextCapsuleEnvelope) (tokenBudget : Nat)
    (records : List ReorganizationRecord) : String :=
  let payload := String.intercalate "|"
    (toString tokenBudget :: jsonArray (capsules.map fun capsule => capsule.fields.dump) ::
      records.map ReorganizationRecord.digestText)
  "reorg-" ++ sliceTo 24 (Hashlib.sha256Hexdigest payload)

/-- `_build_capsule` of the capsules `first :: rest`. -/
def buildCapsule (first : ContextCapsuleEnvelope) (rest : List ContextCapsuleEnvelope)
    (selected : Selection) (records : List ReorganizationRecord) (tokenBudget : Nat) :
    Except ReorganizationFailure CapsuleFields := do
  let capsules := first :: rest
  let allSourceEventIds := sortedTexts (capsules.flatMap fun capsule => capsule.sourceEventIds)
  let coverage := sourceCoverage selected allSourceEventIds
  let fields (coverage : UnitFloat) : CapsuleFields :=
    { capsuleId := newCapsuleId capsules tokenBudget records
      schemaVersion := "2.1.0"
      level := firstMaximum CapsuleLevel.order first.level (rest.map fun item => item.level)
      sessionKey := first.sessionKey
      coveredEventStart :=
        (rest.map fun item => item.coveredEventStart).foldl min first.coveredEventStart
      coveredEventEnd := (rest.map fun item => item.coveredEventEnd).foldl max first.coveredEventEnd
      sourceEventIds := allSourceEventIds
      items := selected
      narrativeSummary := "reorganized capsule"
      tokenCost := 0
      quality :=
        { mechanicalPassed := true
          sourceCoverage := coverage
          anchorRecall := UnitFloat.one
          unsupportedCriticalClaims := 0
          coverageGap := nonSummaryReleaseCount records }
      createdAt :=
        firstMaximum AwareDatetime.instant first.createdAt (rest.map fun item => item.createdAt) }
  if h : 0 ≤ coverage ∧ coverage ≤ 1 then
    require (fields ⟨coverage, h⟩).Checks .validationError
    pure (fields ⟨coverage, h⟩)
  else throw .validationError

end Building

/-! ## Counting -/

/-- `_count_text` of a reorganization. -/
def countSurface {σ : Type} (counter : TokenCounter σ) (text : String) :
    EStateM ReorganizationFailure σ Nat := fun s =>
  match counter.countText text s with
  | (.integer value, s') =>
      if 0 ≤ value then .ok value.toNat s'
      else .error (.valueError "token counter must return a non-negative integer") s'
  | (.malformed, s') =>
      .error (.valueError "token counter must return a non-negative integer") s'
  | (.tokenizerError _, s') | (.otherError, s') => .error (.valueError "token counter failed") s'

/-- The variables of the loops. -/
structure Reorganization where
  selected : Selection := fun _ => []
  records : List ReorganizationRecord := []
  seen : List ((String × String) × CapsuleItem) := []

/-- An item with the capsule and the field it is from. -/
structure SourceItem where
  capsule : ContextCapsuleEnvelope
  field : ItemField
  item : CapsuleItem

/-- The items of some fields, capsule by capsule. -/
def sourceItems (fields : List ItemField) (capsules : List ContextCapsuleEnvelope) :
    List SourceItem :=
  capsules.flatMap fun capsule => fields.flatMap fun field =>
    (capsule.items field).map fun item => ⟨capsule, field, item⟩

namespace SourceItem

/-- `(kind, item_id)`. -/
def identity (source : SourceItem) : String × String :=
  (source.field.kind, source.item.itemId)

/-- The record of an item. -/
def record (source : SourceItem) (status : ReorganizationStatus) (beforeTokens afterTokens : Nat)
    (required : Bool) : ReorganizationRecord where
  kind := source.field.kind
  itemId := source.item.itemId
  sourceCapsuleId := source.capsule.capsuleId
  status := status
  beforeTokens := beforeTokens
  afterTokens := afterTokens
  required := required

end SourceItem

/-- The check of `seen`: nothing for an item that was met before, and an error for another item under its
identity. -/
def Reorganization.remember (state : Reorganization) (source : SourceItem) :
    Except ReorganizationFailure (Option Reorganization) :=
  match state.seen.lookup source.identity with
  | some item =>
      if item = source.item then .ok none
      else .error (.invariantError
        ("conflicting " ++ source.field.kind ++ " identity: " ++ source.item.itemId))
  | none => .ok (some { state with seen := state.seen ++ [(source.identity, source.item)] })

/-- An item enters the selection with its record. -/
def Reorganization.enter (state : Reorganization) (source : SourceItem) (item : CapsuleItem)
    (record : ReorganizationRecord) : Reorganization :=
  { state with
    selected := state.selected.append source.field item
    records := state.records ++ [record] }

/-- What becomes of an item. -/
inductive Placement
  | retained
  | approximate (copy : CapsuleItem) (tokens : Nat)
  | released

/-- An item enters the selection as it is placed. -/
def Reorganization.settle (state : Reorganization) (source : SourceItem) (beforeTokens : Nat) :
    Placement → Reorganization
  | .retained =>
      state.enter source source.item (source.record .retained beforeTokens beforeTokens false)
  | .approximate copy tokens =>
      state.enter source copy (source.record .approximate beforeTokens tokens false)
  | .released =>
      { state with
        records := state.records ++ [source.record .released beforeTokens 0 false] }

section Loops

variable {σ : Type} [Hashlib] [WireText] (counter : TokenCounter σ)

/-- `_item_tokens`. -/
def itemTokens (item : CapsuleItem) : EStateM ReorganizationFailure σ Nat :=
  countSurface counter item.surface

/-- One iteration of the loop over anchors and dependencies. -/
def coreStep (state : Reorganization) (source : SourceItem) :
    EStateM ReorganizationFailure σ Reorganization := do
  match ← perform (state.remember source) with
  | none => pure state
  | some state => do
      let tokens ← itemTokens counter source.item
      pure (state.enter source source.item (source.record .retained tokens tokens true))

/-- One iteration of the loop over the summaries. -/
def summaryStep (records : List ReorganizationRecord) (capsule : ContextCapsuleEnvelope) :
    EStateM ReorganizationFailure σ (List ReorganizationRecord) := do
  let beforeTokens ← countSurface counter
    (writeMembers [("narrative_summary", jsonString capsule.narrativeSummary)])
  pure (records ++
    [{ kind := "narrative_summary"
       itemId := capsule.capsuleId ++ ":narrative_summary"
       sourceCapsuleId := capsule.capsuleId
       status := .released
       beforeTokens := beforeTokens
       afterTokens := 0
       required := false }])

variable (first : ContextCapsuleEnvelope) (rest : List ContextCapsuleEnvelope) (tokenBudget : Nat)

/-- `_provisional_after_tokens`. -/
def provisionalAfterTokens (selected : Selection) (records : List ReorganizationRecord) :
    EStateM ReorganizationFailure σ Nat := do
  let provisional ← perform (buildCapsule first rest selected records tokenBudget)
  countSurface counter provisional.surface

/-- The loop of `_fit_approximate_item`; every pass narrows the range, so `passes` does not run out. -/
def searchCopy (state : Reorganization) (source : SourceItem) :
    Nat → Nat → Nat → Option (CapsuleItem × Nat) →
      EStateM ReorganizationFailure σ (Option (CapsuleItem × Nat))
  | 0, _, _, best => pure best
  | passes + 1, low, high, best =>
      if high < low then pure best
      else
        let chars := (low + high) / 2
        match source.item.approximate chars with
        | none => searchCopy state source passes low (chars - 1) best
        | some candidate =>
            if candidate = source.item then searchCopy state source passes low (chars - 1) best
            else do
              let afterTokens ← itemTokens counter candidate
              let beforeTokens ← itemTokens counter source.item
              let candidateTokens ← provisionalAfterTokens counter first rest tokenBudget
                (state.selected.append source.field candidate)
                (state.records ++ [source.record .approximate beforeTokens afterTokens false])
              if candidateTokens ≤ tokenBudget then
                searchCopy state source passes (chars + 1) high (some (candidate, afterTokens))
              else searchCopy state source passes low (chars - 1) best

/-- `_fit_approximate_item`. -/
def fitApproximateItem (state : Reorganization) (source : SourceItem) :
    EStateM ReorganizationFailure σ (Option (CapsuleItem × Nat)) :=
  searchCopy counter first rest tokenBudget state source source.item.maxChars minApproximateChars
    (source.item.maxChars - 1) none

/-- What the loop over the other items does with an item that it has not met before. -/
def place (state : Reorganization) (source : SourceItem) (beforeTokens : Nat) :
    EStateM ReorganizationFailure σ Placement := do
  let candidateTokens ← provisionalAfterTokens counter first rest tokenBudget
    (state.selected.append source.field source.item)
    (state.records ++ [source.record .retained beforeTokens beforeTokens false])
  if candidateTokens ≤ tokenBudget then pure .retained
  else do
    match ← fitApproximateItem counter first rest tokenBudget state source with
    | some (copy, tokens) => pure (.approximate copy tokens)
    | none => pure .released

/-- One iteration of the loop over the other items. -/
def optionalStep (state : Reorganization) (source : SourceItem) :
    EStateM ReorganizationFailure σ Reorganization := do
  match ← perform (state.remember source) with
  | none => pure state
  | some state => do
      let beforeTokens ← itemTokens counter source.item
      let placement ← place counter first rest tokenBudget state source beforeTokens
      pure (state.settle source beforeTokens placement)

end Loops

/-! ## The whole -/

/-- `ReorganizationResult`. -/
structure ReorganizationResult where
  capsule : CapsuleFields
  records : List ReorganizationRecord
  beforeTokens : Nat
  afterTokens : Nat
  lossCount : Nat
  releaseCount : Nat

/-- `_validate_inputs`. -/
def validateReorganizationInputs (capsules : List ContextCapsuleEnvelope) (tokenBudget : Int) :
    Except ReorganizationFailure Unit := do
  require (0 ≤ tokenBudget) (.valueError "token_budget must be a non-negative integer")
  require (capsules ≠ []) (.valueError "capsules must not be empty")
  for capsule in capsules do
    for field in ItemField.all do
      require (∀ item ∈ capsule.items field, ∀ eventId ∈ item.sourceEventIds,
          eventId ∈ capsule.sourceEventIds)
        (.valueError (field.name ++ " item source_event_ids must be contained in " ++
          "capsule source_event_ids"))

/-- `ordered`. -/
def orderedCapsules (capsules : List ContextCapsuleEnvelope) : List ContextCapsuleEnvelope :=
  capsules.insertionSort fun left right => left.capsuleId ≤ right.capsuleId

section Reorganize

variable {σ : Type} [Hashlib] [WireText] (counter : TokenCounter σ)

/-- The sum of the counts of the capsules. -/
def countCapsules (capsules : List ContextCapsuleEnvelope) : EStateM ReorganizationFailure σ Nat :=
  capsules.foldlM (fun total capsule => do
    let tokens ← countSurface counter capsule.fields.surface
    pure (total + tokens)) 0

/-- What is always kept: the anchors and dependencies of `first :: rest`, and the released summaries. -/
def selectMandatory (first : ContextCapsuleEnvelope) (rest : List ContextCapsuleEnvelope)
    (tokenBudget : Nat) : EStateM ReorganizationFailure σ Reorganization := do
  let state ← (sourceItems ItemField.core (first :: rest)).foldlM (coreStep counter) {}
  let records ← (first :: rest).foldlM (summaryStep counter) state.records
  let state := { state with records := records }
  let mandatoryTokens ← provisionalAfterTokens counter first rest tokenBudget state.selected
    state.records
  if tokenBudget < mandatoryTokens then throw (.budgetError mandatoryTokens tokenBudget)
  else pure state

/-- The loop over the other items. -/
def selectOptional (first : ContextCapsuleEnvelope) (rest : List ContextCapsuleEnvelope)
    (tokenBudget : Nat) (state : Reorganization) : EStateM ReorganizationFailure σ Reorganization :=
  (sourceItems ItemField.optional (first :: rest)).foldlM
    (optionalStep counter first rest tokenBudget) state

/-- The capsule of a selection with its count, and the figures. -/
def finishReorganization (first : ContextCapsuleEnvelope) (rest : List ContextCapsuleEnvelope)
    (tokenBudget beforeTokens : Nat) (state : Reorganization) :
    EStateM ReorganizationFailure σ ReorganizationResult := do
  let capsule ← perform (buildCapsule first rest state.selected state.records tokenBudget)
  let usedTokens ← countSurface counter capsule.surface
  if tokenBudget < usedTokens then throw (.budgetError usedTokens tokenBudget)
  else
    pure
      { capsule := { capsule with tokenCost := usedTokens }
        records := state.records
        beforeTokens := beforeTokens
        afterTokens := usedTokens
        lossCount := state.records.countP fun record => record.status ≠ .retained
        releaseCount := state.records.countP fun record => record.status = .released }

/-- `reorganize_capsules`. -/
def reorganizeCapsules (capsules : List ContextCapsuleEnvelope) (tokenBudget : Int) :
    EStateM ReorganizationFailure σ ReorganizationResult := do
  perform (validateReorganizationInputs capsules tokenBudget)
  match orderedCapsules capsules with
  | [] => throw (.valueError "capsules must not be empty")
  | first :: rest => do
      perform (require (∀ item ∈ rest, item.sessionKey = first.sessionKey)
        (.valueError "all capsules must use one session key"))
      let beforeTokens ← countCapsules counter (first :: rest)
      let state ← selectMandatory counter first rest tokenBudget.toNat
      let state ← selectOptional counter first rest tokenBudget.toNat state
      finishReorganization counter first rest tokenBudget.toNat beforeTokens state

end Reorganize

end AstrContinuum
