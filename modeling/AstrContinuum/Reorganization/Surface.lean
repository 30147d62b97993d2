import AstrContinuum.Domain.Json
import AstrContinuum.Reorganization.Items

/-!
# The counted surface

`_canonical_json(value.model_dump(mode="json"))` of the values that a reorganization counts and hashes:
every field under its name, the names sorted. How a float and an instant are written is a parameter.
-/

namespace AstrContinuum

/-- `repr` of a float between zero and one, and the text of an instant in a JSON dump. A result that depends
on more than that these are functions says what it asks for. -/
class WireText where
  floatRepr : UnitFloat → String
  isoformat : AwareDatetime → String

/-- `CapsuleLevel.value`. -/
def CapsuleLevel.value : CapsuleLevel → String
  | .micro => "micro"
  | .episode => "episode"
  | .task => "task"
  | .global => "global"

/-- `SemanticStatus.value`. -/
def SemanticStatus.value : SemanticStatus → String
  | .active => "active"
  | .superseded => "superseded"
  | .retracted => "retracted"
  | .uncertain => "uncertain"

/-- `AnchorStatus.value`. -/
def AnchorStatus.value : AnchorStatus → String
  | .active => "active"
  | .superseded => "superseded"
  | .retracted => "retracted"

/-- `AnchorType.value`. -/
def AnchorType.value : AnchorType → String
  | .name => "name"
  | .number => "number"
  | .date => "date"
  | .path => "path"
  | .url => "url"
  | .code => "code"
  | .formula => "formula"
  | .prompt => "prompt"
  | .constraint => "constraint"
  | .commitment => "commitment"
  | .manual => "manual"
  | .other => "other"

/-- The dump of a tuple of strings. -/
def textsSurface (texts : List String) : String :=
  jsonArray (texts.map jsonString)

section Surface

variable [WireText]

/-- `_item_surface`. -/
def CapsuleItem.surface : CapsuleItem → String
  | .claim item => writeMembers
      [("claim_id", jsonString item.claimId), ("confidence", WireText.floatRepr item.confidence),
        ("source_event_ids", textsSurface item.sourceEventIds),
        ("status", jsonString item.status.value), ("text", jsonString item.text)]
  | .decision item => writeMembers
      [("alternatives", textsSurface item.alternatives),
        ("confidence", WireText.floatRepr item.confidence),
        ("decision_id", jsonString item.decisionId), ("rationale", jsonString item.rationale),
        ("rejected_because", jsonString item.rejectedBecause),
        ("source_event_ids", textsSurface item.sourceEventIds),
        ("status", jsonString item.status.value), ("supersedes", textsSurface item.supersedes),
        ("text", jsonString item.text)]
  | .entity item => writeMembers
      [("aliases", textsSurface item.aliases), ("canonical_name", jsonString item.canonicalName),
        ("entity_id", jsonString item.entityId), ("kind", jsonString item.kind),
        ("source_event_ids", textsSurface item.sourceEventIds)]
  | .anchor item => writeMembers
      [("anchor_id", jsonString item.anchorId), ("anchor_type", jsonString item.anchorType.value),
        ("exact_text", jsonString item.exactText),
        ("importance", WireText.floatRepr item.importance),
        ("source_event_ids", textsSurface item.sourceEventIds),
        ("status", jsonString item.status.value)]
  | .dependency item => writeMembers
      [("dependency_id", jsonString item.dependencyId), ("kind", jsonString item.kind),
        ("source_event_ids", textsSurface item.sourceEventIds),
        ("target_id", jsonString item.targetId)]

/-- The dump of a session key. -/
def SessionKey.surface (key : SessionKey) : String :=
  writeMembers
    [("conversation_id", jsonString key.conversationId),
      ("group_id", jsonOptionalString key.groupId), ("message_type", jsonString key.messageType),
      ("persona_id", jsonOptionalString key.personaId),
      ("platform_instance_id", jsonString key.platformInstanceId),
      ("session_id", jsonString key.sessionId), ("user_id", jsonString key.userId)]

/-- The dump of the quality of a capsule. -/
def CapsuleQuality.surface (quality : CapsuleQuality) : String :=
  writeMembers
    [("anchor_recall", WireText.floatRepr quality.anchorRecall),
      ("coverage_gap", toString quality.coverageGap),
      ("mechanical_passed", if quality.mechanicalPassed then "true" else "false"),
      ("source_coverage", WireText.floatRepr quality.sourceCoverage),
      ("unsupported_critical_claims", toString quality.unsupportedCriticalClaims)]

/-- The members of the dump of a capsule without `token_cost`. -/
def CapsuleFields.members (fields : CapsuleFields) : List (String × String) :=
  let itemsSurface (field : ItemField) := jsonArray ((fields.items field).map CapsuleItem.surface)
  [("capsule_id", jsonString fields.capsuleId), ("constraints", itemsSurface .constraints),
    ("covered_event_end", toString fields.coveredEventEnd),
    ("covered_event_start", toString fields.coveredEventStart),
    ("created_at", jsonString (WireText.isoformat fields.createdAt)),
    ("decisions", itemsSurface .decisions), ("dependencies", itemsSurface .dependencies),
    ("emotional_context", itemsSurface .emotionalContext), ("entities", itemsSurface .entities),
    ("exact_anchors", itemsSurface .exactAnchors), ("goals", itemsSurface .goals),
    ("level", jsonString fields.level.value),
    ("narrative_summary", jsonString fields.narrativeSummary),
    ("open_loops", itemsSurface .openLoops), ("preferences", itemsSurface .preferences),
    ("progress", itemsSurface .progress), ("quality", fields.quality.surface),
    ("schema_version", jsonString fields.schemaVersion),
    ("session_key", fields.sessionKey.surface),
    ("source_event_ids", textsSurface fields.sourceEventIds)]

/-- `_capsule_surface`. -/
def CapsuleFields.surface (fields : CapsuleFields) : String :=
  writeMembers fields.members

/-- The whole dump of a capsule. -/
def CapsuleFields.dump (fields : CapsuleFields) : String :=
  writeMembers (fields.members ++ [("token_cost", toString fields.tokenCost)])

end Surface

end AstrContinuum
