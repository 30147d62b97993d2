import AstrContinuum.Compaction.Rendering
import AstrContinuum.Compaction.Segmenter
import AstrContinuum.Control.Effects
import AstrContinuum.Reorganization.Surface
import AstrContinuum.Runtime.Types

/-!
# Extraction

`compaction/astrbot_backend.py`, what becomes of the answer of a provider: `_parse_output` reads the
selections out of it, `_validate_extraction` compares them with the events of the segment, and `_capsule`
makes items of them whose ids are digests of what was selected. A JSON reader and the number that pydantic
reads from a JSON value are parameters.
-/

namespace AstrContinuum

open Checked Effects

/-- What an extraction raises: an `ExtractiveCompilerError`, a pydantic error, or an `IndexError`. -/
inductive ExtractionFailure
  | invalid (code : String)
  | validationError
  | indexError
deriving DecidableEq

/-! ## Selections -/

/-- `_Span`. -/
structure Span where
  eventId : String
  quote : String
  confidence : UnitFloat
  valid : eventId ≠ "" ∧ quote ≠ "" := by decide
deriving DecidableEq

/-- `_DecisionSelection`. -/
structure DecisionSelection extends Span where
  rationale : String
  alternatives : List String
  rejectedBecause : String
deriving DecidableEq

/-- `_EntitySelection`. -/
structure EntitySelection where
  eventId : String
  quote : String
  kind : String
  aliases : List String
  valid : eventId ≠ "" ∧ quote ≠ "" ∧ kind ≠ "" := by decide
deriving DecidableEq

/-- `_AnchorSelection`. -/
structure AnchorSelection where
  eventId : String
  quote : String
  anchorType : AnchorType
  importance : UnitFloat
  valid : eventId ≠ "" ∧ quote ≠ "" := by decide
deriving DecidableEq

/-- `_SegmentExtraction`. -/
structure SegmentExtraction where
  acknowledgedEventIds : List String
  goals : List Span
  constraints : List Span
  decisions : List DecisionSelection
  progress : List Span
  openLoops : List Span
  preferences : List Span
  entities : List EntitySelection
  emotionalContext : List Span
  anchors : List AnchorSelection
deriving DecidableEq

/-! ## Reading an answer -/

/-- The finite number that pydantic reads from a JSON value where a float is declared, if any. No result
depends on which function this is. -/
class PydanticFloat where
  lax : JsonValue → Option Rat

/-- A string. -/
def readText : JsonValue → Option String
  | .string value => some value
  | _ => none

/-- A string that is not empty. -/
def readNonEmpty (value : JsonValue) : Option {text : String // text ≠ ""} :=
  (readText value).bind fun text => if h : text ≠ "" then some ⟨text, h⟩ else none

/-- The items of an array. -/
def readTuple {α : Type} (read : JsonValue → Option α) : JsonValue → Option (List α)
  | .array items => items.mapM read
  | _ => none

/-- The members of an object that has no others than those that are declared. -/
def readClosed (fields : List String) : JsonValue → Option (String → Option JsonValue)
  | .object members =>
      if ∀ member ∈ members, member.1 ∈ fields then some (lookupMember members) else none
  | _ => none

/-- `AnchorType(value)`. -/
def readAnchorType (value : JsonValue) : Option AnchorType :=
  (readText value).bind fun text =>
    [AnchorType.name, .number, .date, .path, .url, .code, .formula, .prompt, .constraint, .commitment,
      .manual, .other].find? fun anchorType => anchorType.value = text

section Reading

variable [PydanticFloat]

/-- A number between zero and one. -/
def readUnit (value : JsonValue) : Option UnitFloat :=
  (PydanticFloat.lax value).bind fun number =>
    if h : 0 ≤ number ∧ number ≤ 1 then some ⟨number, h⟩ else none

/-- `_Span.model_validate`. -/
def Span.modelValidate (value : JsonValue) : Option Span := do
  let field ← readClosed ["event_id", "quote", "confidence"] value
  let eventId ← (field "event_id").bind readNonEmpty
  let quote ← (field "quote").bind readNonEmpty
  let confidence ← (field "confidence").bind readUnit
  pure ⟨eventId.1, quote.1, confidence, eventId.2, quote.2⟩

/-- `_DecisionSelection.model_validate`. -/
def DecisionSelection.modelValidate (value : JsonValue) : Option DecisionSelection := do
  let field ← readClosed
    ["event_id", "quote", "confidence", "rationale", "alternatives", "rejected_because"] value
  let eventId ← (field "event_id").bind readNonEmpty
  let quote ← (field "quote").bind readNonEmpty
  let confidence ← (field "confidence").bind readUnit
  let rationale ← (field "rationale").bind readText
  let alternatives ← (field "alternatives").bind (readTuple readText)
  let rejectedBecause ← (field "rejected_because").bind readText
  pure
    { toSpan := ⟨eventId.1, quote.1, confidence, eventId.2, quote.2⟩
      rationale, alternatives, rejectedBecause }

/-- `_EntitySelection.model_validate`. -/
def EntitySelection.modelValidate (value : JsonValue) : Option EntitySelection := do
  let field ← readClosed ["event_id", "quote", "kind", "aliases"] value
  let eventId ← (field "event_id").bind readNonEmpty
  let quote ← (field "quote").bind readNonEmpty
  let kind ← (field "kind").bind readNonEmpty
  let aliases ← (field "aliases").bind (readTuple readText)
  pure ⟨eventId.1, quote.1, kind.1, aliases, eventId.2, quote.2, kind.2⟩

/-- `_AnchorSelection.model_validate`. -/
def AnchorSelection.modelValidate (value : JsonValue) : Option AnchorSelection := do
  let field ← readClosed ["event_id", "quote", "anchor_type", "importance"] value
  let eventId ← (field "event_id").bind readNonEmpty
  let quote ← (field "quote").bind readNonEmpty
  let anchorType ← (field "anchor_type").bind readAnchorType
  let importance ← (field "importance").bind readUnit
  pure ⟨eventId.1, quote.1, anchorType, importance, eventId.2, quote.2⟩

/-- `_SegmentExtraction.model_validate`. -/
def SegmentExtraction.modelValidate (value : JsonValue) : Option SegmentExtraction := do
  let field ← readClosed
    ["acknowledged_event_ids", "goals", "constraints", "decisions", "progress", "open_loops",
      "preferences", "entities", "emotional_context", "anchors"] value
  let spans (name : String) := (field name).bind (readTuple Span.modelValidate)
  let acknowledgedEventIds ← (field "acknowledged_event_ids").bind (readTuple readText)
  let goals ← spans "goals"
  let constraints ← spans "constraints"
  let decisions ← (field "decisions").bind (readTuple DecisionSelection.modelValidate)
  let progress ← spans "progress"
  let openLoops ← spans "open_loops"
  let preferences ← spans "preferences"
  let entities ← (field "entities").bind (readTuple EntitySelection.modelValidate)
  let emotionalContext ← spans "emotional_context"
  let anchors ← (field "anchors").bind (readTuple AnchorSelection.modelValidate)
  pure
    { acknowledgedEventIds, goals, constraints, decisions, progress, openLoops, preferences, entities,
      emotionalContext, anchors }

end Reading

/-- `text.strip()`. -/
def stripText (text : String) : String :=
  String.ofList
    ((text.toList.dropWhile isPythonSpace).reverse.dropWhile isPythonSpace).reverse

/-- The characters that end a line in `str.splitlines`; a carriage return takes a line feed with it. -/
def isLineBreak (c : Char) : Bool :=
  let n := c.toNat
  (0x0a ≤ n && n ≤ 0x0d) || (0x1c ≤ n && n ≤ 0x1e) || n == 0x85 || n == 0x2028 || n == 0x2029

/-- `text.splitlines()`; `line` is the reversed line being read. -/
def splitLines (line : List Char) : List Char → List (List Char)
  | [] => if line = [] then [] else [line.reverse]
  | '\r' :: '\n' :: rest => line.reverse :: splitLines [] rest
  | c :: rest =>
      if isLineBreak c then line.reverse :: splitLines [] rest else splitLines (c :: line) rest

/-- `text.startswith("```")`. -/
def isFenced (text : String) : Bool :=
  "```".toList.isPrefixOf text.toList

/-- The text inside the fences of a Markdown code block. -/
def unfenced (text : String) : Except ExtractionFailure String :=
  if isFenced text then do
    let lines := (splitLines [] text.toList).map String.ofList
    require (3 ≤ lines.length ∧ (lines.getLast?.any fun line => isFenced (stripText line)) = true)
      (.invalid "EXTRACTIVE_OUTPUT_INVALID")
    pure (stripText ("\n".intercalate (lines.drop 1).dropLast))
  else pure text

/-- `_parse_output` of an answer, which need not be a string. -/
def parseOutput [JsonReader] [PydanticFloat] (raw : Option String) :
    Except ExtractionFailure SegmentExtraction := do
  let raw ← orMissing raw (.invalid "EXTRACTIVE_OUTPUT_INVALID")
  let text ← unfenced (stripText raw)
  orMissing ((JsonReader.parse text).bind SegmentExtraction.modelValidate)
    (.invalid "EXTRACTIVE_OUTPUT_INVALID")

/-! ## Comparing with the segment -/

/-- `event_contents`: the last content under an id counts. -/
abbrev EventContents := List (String × String)

/-- `event_contents.get(event_id)`. -/
def EventContents.get (contents : EventContents) (eventId : String) : Option String :=
  (contents.reverse.find? fun entry => entry.1 = eventId).map Prod.snd

/-- `{item.event_id: item.content for item in segment.events}`. -/
def EventSegment.contents (segment : EventSegment) : EventContents :=
  segment.events.map fun event => (event.eventId, event.content)

/-- `_exact_text` without `allow_empty`. -/
def exactText (contents : EventContents) (eventId quote : String) :
    Except ExtractionFailure String := do
  let content ← orMissing (contents.get eventId) (.invalid "EXTRACTIVE_SOURCE_EVENT_UNKNOWN")
  require (quote ≠ "" ∧ containsText quote content = true) (.invalid "EXTRACTIVE_QUOTE_NOT_FOUND")
  pure quote

/-- `_exact_text` with `allow_empty`. -/
def exactOrEmpty (contents : EventContents) (eventId quote : String) :
    Except ExtractionFailure String :=
  if quote = "" then pure "" else exactText contents eventId quote

/-- The loop over a group of selections: `check` compares one with its event, and the ids of the events are
collected. -/
def selectEach {α : Type} (check : α → Except ExtractionFailure Unit) (eventId : α → String)
    (selected : List String) (group : List α) : Except ExtractionFailure (List String) :=
  forEach (fun selected item => do
    check item
    pure (selected ++ [eventId item])) selected group

section Checks

variable (contents : EventContents)

/-- The check of a span. -/
def checkSpan (span : Span) : Except ExtractionFailure Unit := do
  let _ ← exactText contents span.eventId span.quote
  pure ()

/-- The check of a decision. -/
def checkDecision (decision : DecisionSelection) : Except ExtractionFailure Unit := do
  let _ ← exactText contents decision.eventId decision.quote
  let _ ← exactOrEmpty contents decision.eventId decision.rationale
  let _ ← exactOrEmpty contents decision.eventId decision.rejectedBecause
  let _ ← decision.alternatives.mapM (exactText contents decision.eventId)
  pure ()

/-- The check of an entity. -/
def checkEntity (entity : EntitySelection) : Except ExtractionFailure Unit := do
  let _ ← exactText contents entity.eventId entity.quote
  let _ ← entity.aliases.mapM (exactText contents entity.eventId)
  pure ()

/-- The check of an anchor. -/
def checkAnchor (anchor : AnchorSelection) : Except ExtractionFailure Unit := do
  let _ ← exactText contents anchor.eventId anchor.quote
  pure ()

end Checks

/-- `_validate_extraction`. -/
def validateExtraction (extraction : SegmentExtraction) (segment : EventSegment) :
    Except ExtractionFailure EventContents := do
  let contents := segment.contents
  require (extraction.acknowledgedEventIds = segment.events.map fun event => event.eventId)
    (.invalid "EXTRACTIVE_EVENT_COVERAGE_MISMATCH")
  let spans (selected : List String) (group : List Span) :=
    selectEach (checkSpan contents) (fun span => span.eventId) selected group
  let selected ← spans [] extraction.goals
  let selected ← spans selected extraction.constraints
  let selected ← spans selected extraction.progress
  let selected ← spans selected extraction.openLoops
  let selected ← spans selected extraction.preferences
  let selected ← spans selected extraction.emotionalContext
  let selected ← selectEach (checkDecision contents) (fun decision => decision.eventId) selected
    extraction.decisions
  let selected ← selectEach (checkEntity contents) (fun entity => entity.eventId) selected
    extraction.entities
  let selected ← selectEach (checkAnchor contents) (fun anchor => anchor.eventId) selected
    extraction.anchors
  require (∀ entry ∈ contents, contents.get entry.1 ≠ some "" → entry.1 ∈ selected)
    (.invalid "EXTRACTIVE_EVENT_SELECTION_MISSING")
  pure contents

/-! ## The capsule -/

section Capsule

variable [Hashlib]

/-- `_stable_id` of a payload that is written already. -/
def stableId (label encoded : String) : String :=
  label ++ ":" ++ Hashlib.sha256Hexdigest encoded

/-- An id has a colon. -/
theorem stableId_ne_empty (label encoded : String) : stableId label encoded ≠ "" := by
  intro h
  have hlength := congrArg String.length h
  have hcolon : ":".length = 1 := by decide
  have hnone : "".length = 0 := by decide
  rw [stableId, String.length_append, String.length_append] at hlength
  omega

/-- What the id of a claim is a digest of. -/
def Span.idText (item : Span) : String :=
  writeMembers [("event_id", jsonString item.eventId), ("quote", jsonString item.quote)]

/-- What the id of a decision is a digest of. -/
def DecisionSelection.idText (item : DecisionSelection) : String :=
  writeMembers
    [("event_id", jsonString item.eventId), ("quote", jsonString item.quote),
      ("rationale", jsonString item.rationale), ("alternatives", textsSurface item.alternatives),
      ("rejected_because", jsonString item.rejectedBecause)]

/-- What the id of an entity is a digest of. -/
def EntitySelection.idText (item : EntitySelection) : String :=
  writeMembers
    [("event_id", jsonString item.eventId), ("quote", jsonString item.quote),
      ("kind", jsonString item.kind), ("aliases", textsSurface item.aliases)]

/-- What the id of an anchor is a digest of. -/
def anchorIdText (eventId quote : String) (anchorType : AnchorType) : String :=
  writeMembers
    [("event_id", jsonString eventId), ("quote", jsonString quote),
      ("type", jsonString anchorType.value)]

omit [Hashlib] in
/-- One event is a valid list of sources. -/
theorem validSources_singleton {eventId : String} (h : eventId ≠ "") : ValidSources [eventId] :=
  ⟨List.cons_ne_nil _ _, fun hmem => h (List.mem_singleton.mp hmem).symm, List.nodup_singleton _⟩

/-- `_claim`. -/
def claimOfSpan (category : String) (item : Span) : CapsuleClaim where
  claimId := stableId category item.idText
  text := item.quote
  status := .active
  confidence := item.confidence
  sourceEventIds := [item.eventId]
  valid := ⟨stableId_ne_empty _ _, item.valid.2, validSources_singleton item.valid.1⟩

/-- `_decision`. -/
def decisionOfSelection (item : DecisionSelection) : Except ExtractionFailure Decision :=
  if h : item.alternatives.Nodup then
    .ok
      { decisionId := stableId "decision" item.idText
        text := item.quote
        status := .active
        confidence := item.confidence
        sourceEventIds := [item.eventId]
        rationale := item.rationale
        alternatives := item.alternatives
        supersedes := []
        rejectedBecause := item.rejectedBecause
        valid := ⟨stableId_ne_empty _ _, item.valid.2, validSources_singleton item.valid.1, h,
          List.nodup_nil⟩ }
  else .error .validationError

/-- `_entity`. -/
def entityOfSelection (item : EntitySelection) : Except ExtractionFailure Entity :=
  if h : item.aliases.Nodup then
    .ok
      { entityId := stableId "entity" item.idText
        kind := item.kind
        canonicalName := item.quote
        aliases := item.aliases
        sourceEventIds := [item.eventId]
        valid := ⟨stableId_ne_empty _ _, item.valid.2.2, item.valid.2.1, h,
          validSources_singleton item.valid.1⟩ }
  else .error .validationError

/-- `_anchor`. -/
def anchorOfSelection (item : AnchorSelection) : CapsuleAnchor where
  anchorId := stableId "anchor" (anchorIdText item.eventId item.quote item.anchorType)
  anchorType := item.anchorType
  exactText := item.quote
  sourceEventIds := [item.eventId]
  status := .active
  importance := item.importance
  valid := ⟨stableId_ne_empty _ _, item.valid.2, validSources_singleton item.valid.1⟩

/-- The unit value one half. -/
def UnitFloat.half : UnitFloat := ⟨1 / 2, by decide +kernel⟩

/-- `_fallback_anchor` of the last event of a segment. -/
def fallbackAnchor (event : EventEnvelope) (contents : EventContents) :
    Except ExtractionFailure (Option CapsuleAnchor) := do
  let content ← orMissing (contents.get event.eventId) .indexError
  let quote := String.ofList (content.toList.drop (content.length - 512))
  if h : quote ≠ "" then
    pure (some
      { anchorId := stableId "anchor" (anchorIdText event.eventId quote .manual)
        anchorType := .manual
        exactText := quote
        sourceEventIds := [event.eventId]
        status := .active
        importance := .half
        valid := ⟨stableId_ne_empty _ _, h, validSources_singleton event.valid.1⟩ })
  else pure none

/-- Whether nothing is selected. -/
def SegmentExtraction.Empty (extraction : SegmentExtraction) : Prop :=
  extraction.goals = [] ∧ extraction.constraints = [] ∧ extraction.decisions = [] ∧
    extraction.progress = [] ∧ extraction.openLoops = [] ∧ extraction.preferences = [] ∧
    extraction.entities = [] ∧ extraction.emotionalContext = [] ∧ extraction.anchors = []

instance (extraction : SegmentExtraction) : Decidable extraction.Empty :=
  inferInstanceAs (Decidable (_ ∧ _))

/-- The anchors of a capsule: the selected ones, or the fallback where nothing is selected. -/
def capsuleAnchors (extraction : SegmentExtraction) (last : EventEnvelope) (contents : EventContents) :
    Except ExtractionFailure (List CapsuleAnchor) :=
  if extraction.Empty then do
    let fallback ← fallbackAnchor last contents
    pure fallback.toList
  else pure (extraction.anchors.map anchorOfSelection)

variable [WireText]

/-- The dump of a span. -/
def Span.surface (item : Span) : String :=
  writeMembers
    [("event_id", jsonString item.eventId), ("quote", jsonString item.quote),
      ("confidence", WireText.floatRepr item.confidence)]

/-- The dump of a decision. -/
def DecisionSelection.surface (item : DecisionSelection) : String :=
  writeMembers
    [("event_id", jsonString item.eventId), ("quote", jsonString item.quote),
      ("confidence", WireText.floatRepr item.confidence), ("rationale", jsonString item.rationale),
      ("alternatives", textsSurface item.alternatives),
      ("rejected_because", jsonString item.rejectedBecause)]

/-- The dump of an entity. -/
def EntitySelection.surface (item : EntitySelection) : String :=
  writeMembers
    [("event_id", jsonString item.eventId), ("quote", jsonString item.quote),
      ("kind", jsonString item.kind), ("aliases", textsSurface item.aliases)]

/-- The dump of an anchor. -/
def AnchorSelection.surface (item : AnchorSelection) : String :=
  writeMembers
    [("event_id", jsonString item.eventId), ("quote", jsonString item.quote),
      ("anchor_type", jsonString item.anchorType.value),
      ("importance", WireText.floatRepr item.importance)]

/-- `extraction.model_dump(mode="json")`. -/
def SegmentExtraction.surface (extraction : SegmentExtraction) : String :=
  let spans (group : List Span) := jsonArray (group.map Span.surface)
  writeMembers
    [("acknowledged_event_ids", textsSurface extraction.acknowledgedEventIds),
      ("goals", spans extraction.goals), ("constraints", spans extraction.constraints),
      ("decisions", jsonArray (extraction.decisions.map DecisionSelection.surface)),
      ("progress", spans extraction.progress), ("open_loops", spans extraction.openLoops),
      ("preferences", spans extraction.preferences),
      ("entities", jsonArray (extraction.entities.map EntitySelection.surface)),
      ("emotional_context", spans extraction.emotionalContext),
      ("anchors", jsonArray (extraction.anchors.map AnchorSelection.surface))]

/-- The envelope that `_capsule` makes, before its tokens are counted. -/
def extractedCapsule (segment : EventSegment) (extraction : SegmentExtraction)
    (contents : EventContents) : Except ExtractionFailure ContextCapsuleEnvelope := do
  let first ← orMissing segment.events.head? .indexError
  let last ← orMissing segment.events.getLast? .indexError
  let anchors ← capsuleAnchors extraction last contents
  let identity := writeMembers
    [("session", jsonString first.sessionKey.sessionKeyHash),
      ("start", toString segment.startSequence), ("end", toString segment.endSequence),
      ("extraction", extraction.surface)]
  let decisions ← extraction.decisions.mapM decisionOfSelection
  let entities ← extraction.entities.mapM entityOfSelection
  let data : CapsuleData :=
    { capsuleId := stableId "capsule" identity
      schemaVersion := "1.0.0"
      level := .task
      sessionKey := first.sessionKey
      coveredEventStart := segment.startSequence
      coveredEventEnd := segment.endSequence
      sourceEventIds := segment.events.map fun event => event.eventId
      goals := extraction.goals.map (claimOfSpan "goal")
      constraints := extraction.constraints.map (claimOfSpan "constraint")
      decisions := decisions
      progress := extraction.progress.map (claimOfSpan "progress")
      openLoops := extraction.openLoops.map (claimOfSpan "open_loop")
      preferences := extraction.preferences.map (claimOfSpan "preference")
      entities := entities
      emotionalContext := extraction.emotionalContext.map (claimOfSpan "emotional")
      exactAnchors := anchors
      dependencies := []
      narrativeSummary := "Structured source map for events " ++ toString segment.startSequence ++
        "-" ++ toString segment.endSequence ++ "."
      tokenCost := 0
      quality := ⟨true, .one, .one, 0, 0⟩
      createdAt := ⟨last.createdAt, 0⟩ }
  if h : data.Valid then pure ⟨data, h⟩ else throw .validationError

variable {σ : Type} (counter : TokenCounter σ)

/-- The count of a rendered capsule. -/
def countCapsule (text : String) : EStateM ExtractionFailure σ Nat := fun s =>
  match counter.countText text s with
  | (.integer value, s') =>
      if 0 ≤ value then .ok value.toNat s'
      else .error (.invalid "EXTRACTIVE_TOKEN_COUNTER_INVALID") s'
  | (.malformed, s') => .error (.invalid "EXTRACTIVE_TOKEN_COUNTER_INVALID") s'
  | (.tokenizerError _, s') | (.otherError, s') =>
      .error (.invalid "EXTRACTIVE_TOKEN_COUNTER_FAILURE") s'

/-- `_capsule`. -/
def capsuleOfExtraction (segment : EventSegment) (extraction : SegmentExtraction)
    (contents : EventContents) : EStateM ExtractionFailure σ ContextCapsuleEnvelope := do
  let capsule ← perform (extractedCapsule segment extraction contents)
  let tokenCost ← countCapsule counter (renderCapsule capsule)
  pure ⟨{ capsule.toCapsuleData with tokenCost := tokenCost }, capsule.valid⟩

/-- What `compile` does with the answer for one segment. -/
def compileSegment [JsonReader] [PydanticFloat] (segment : EventSegment) (raw : Option String) :
    EStateM ExtractionFailure σ ContextCapsuleEnvelope := do
  let extraction ← perform (parseOutput raw)
  let contents ← perform (validateExtraction extraction segment)
  capsuleOfExtraction counter segment extraction contents

end Capsule

end AstrContinuum
