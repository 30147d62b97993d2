import Mathlib.Algebra.Order.Ring.Unbundled.Rat
import Mathlib.Data.List.Nodup
import AstrContinuum.Domain.Text

/-!
# Canonical envelopes

The immutable values of `domain/identity.py`, `domain/events.py`, `domain/capsules.py` and
`domain/snapshots.py`. Each envelope carries the checks of its pydantic model as a field, so an
envelope that the code would reject cannot be built. Where the code builds an envelope from
values it has not checked, the unchecked fields are a structure of their own and
`modelValidate` raises exactly when the model does.

A timestamp is an instant in microseconds: the storage writes every instant as UTC text of fixed
width, whose order is the order of the instants. Only the creation time of a capsule keeps the
offset it was written with, because the canonical JSON of the capsule does.
-/

namespace AstrContinuum

/-- An instant, in microseconds. -/
abbrev Timestamp := Nat

/-- `AwareDatetime`: an instant and the UTC offset, in seconds, it is written with. -/
structure AwareDatetime where
  instant : Timestamp
  utcOffset : Int := 0
deriving DecidableEq

/-- `UnitFloat`: a number between zero and one. -/
def UnitFloat := {value : Rat // 0 ≤ value ∧ value ≤ 1}
deriving DecidableEq

/-- The unit value one. -/
def UnitFloat.one : UnitFloat := ⟨1, by decide⟩

/-! ## Identity -/

/-- `SessionKey`: the seven-field host identity. -/
structure SessionKey where
  platformInstanceId : String
  messageType : String
  sessionId : String
  groupId : Option String
  userId : String
  conversationId : String
  personaId : Option String
  nonEmpty : platformInstanceId ≠ "" ∧ messageType ≠ "" ∧ sessionId ≠ "" ∧ groupId ≠ some "" ∧
    userId ≠ "" ∧ conversationId ≠ "" ∧ personaId ≠ some "" := by decide
deriving DecidableEq

/-- The identity of the samples has no empty text. -/
theorem SessionKey.sample_nonEmpty : "p" ≠ "" ∧ "m" ≠ "" ∧ "s" ≠ "" ∧ none ≠ some "" ∧
    "u" ≠ "" ∧ "c" ≠ "" ∧ none ≠ some "" := by decide

/-- `SessionKey.canonical_json`: the fields in declaration order. -/
def SessionKey.canonicalJson (key : SessionKey) : String :=
  let member (name value : String) := jsonString name ++ ":" ++ value
  "\x7b" ++ String.intercalate ","
    [member "platform_instance_id" (jsonString key.platformInstanceId),
      member "message_type" (jsonString key.messageType),
      member "session_id" (jsonString key.sessionId),
      member "group_id" (jsonOptionalString key.groupId),
      member "user_id" (jsonString key.userId),
      member "conversation_id" (jsonString key.conversationId),
      member "persona_id" (jsonOptionalString key.personaId)] ++ "\x7d"

/-- `SessionKey.session_key_hash`. -/
def SessionKey.sessionKeyHash [Hashlib] (key : SessionKey) : String :=
  Hashlib.sha256Hexdigest key.canonicalJson

/-! ## Events -/

/-- `EventType`. -/
inductive EventType
  | userMessage
  | assistantMessage
  | toolCall
  | toolResult
deriving DecidableEq

/-- `EventRole`. -/
inductive EventRole
  | user
  | assistant
  | tool
deriving DecidableEq

/-- `SourceHook`. -/
inductive SourceHook
  | onLlmRequest
  | onAgentDone
  | onUsingLlmTool
  | onLlmToolRespond
deriving DecidableEq

/-- `EventEnvelope._MAPPINGS`. -/
def EventType.mapping : EventType → EventRole × SourceHook
  | .userMessage => (.user, .onLlmRequest)
  | .assistantMessage => (.assistant, .onAgentDone)
  | .toolCall => (.tool, .onUsingLlmTool)
  | .toolResult => (.tool, .onLlmToolRespond)

/-- The fields of an event before validation. -/
structure EventData where
  eventId : String
  sessionKey : SessionKey
  sequence : Nat
  eventType : EventType
  role : EventRole
  content : String
  sourceHook : SourceHook
  idempotencyKey : String
  tokenCount : Nat
  createdAt : Timestamp
deriving DecidableEq

/-- The checks of `EventEnvelope`, `validate_authoritative_mapping` included. -/
def EventData.Valid (event : EventData) : Prop :=
  event.eventId ≠ "" ∧ 1 ≤ event.sequence ∧ event.idempotencyKey ≠ "" ∧
    (event.role, event.sourceHook) = event.eventType.mapping

instance (event : EventData) : Decidable event.Valid :=
  inferInstanceAs (Decidable (_ ∧ _))

/-- `EventEnvelope`. -/
structure EventEnvelope extends EventData where
  valid : toEventData.Valid := by decide
deriving DecidableEq

/-! ## Capsules -/

/-- `CapsuleLevel`. -/
inductive CapsuleLevel
  | micro
  | episode
  | task
  | global
deriving DecidableEq

/-- `SemanticStatus`. -/
inductive SemanticStatus
  | active
  | superseded
  | retracted
  | uncertain
deriving DecidableEq

/-- `AnchorStatus`. -/
inductive AnchorStatus
  | active
  | superseded
  | retracted
deriving DecidableEq

/-- `AnchorType`. -/
inductive AnchorType
  | name
  | number
  | date
  | path
  | url
  | code
  | formula
  | prompt
  | constraint
  | commitment
  | manual
  | other
deriving DecidableEq

/-- The checks of a `source_event_ids` field: at least one id, none empty, none repeated. -/
def ValidSources (sources : List String) : Prop :=
  sources ≠ [] ∧ "" ∉ sources ∧ sources.Nodup

instance (sources : List String) : Decidable (ValidSources sources) :=
  inferInstanceAs (Decidable (_ ∧ _))

/-- `CapsuleClaim`. -/
structure CapsuleClaim where
  claimId : String
  text : String
  status : SemanticStatus
  confidence : UnitFloat
  sourceEventIds : List String
  valid : claimId ≠ "" ∧ text ≠ "" ∧ ValidSources sourceEventIds := by decide
deriving DecidableEq

/-- `Decision`. -/
structure Decision where
  decisionId : String
  text : String
  status : SemanticStatus
  confidence : UnitFloat
  sourceEventIds : List String
  rationale : String
  alternatives : List String
  supersedes : List String
  rejectedBecause : String
  valid : decisionId ≠ "" ∧ text ≠ "" ∧ ValidSources sourceEventIds ∧ alternatives.Nodup ∧
    supersedes.Nodup := by decide
deriving DecidableEq

/-- `Entity`. -/
structure Entity where
  entityId : String
  kind : String
  canonicalName : String
  aliases : List String
  sourceEventIds : List String
  valid : entityId ≠ "" ∧ kind ≠ "" ∧ canonicalName ≠ "" ∧ aliases.Nodup ∧
    ValidSources sourceEventIds := by decide
deriving DecidableEq

/-- `CapsuleAnchor`. -/
structure CapsuleAnchor where
  anchorId : String
  anchorType : AnchorType
  exactText : String
  sourceEventIds : List String
  status : AnchorStatus
  importance : UnitFloat
  valid : anchorId ≠ "" ∧ exactText ≠ "" ∧ ValidSources sourceEventIds := by decide
deriving DecidableEq

/-- `Dependency`. -/
structure Dependency where
  dependencyId : String
  kind : String
  targetId : String
  sourceEventIds : List String
  valid : dependencyId ≠ "" ∧ kind ≠ "" ∧ targetId ≠ "" ∧ ValidSources sourceEventIds := by decide
deriving DecidableEq

/-- `CapsuleQuality`. -/
structure CapsuleQuality where
  mechanicalPassed : Bool
  sourceCoverage : UnitFloat
  anchorRecall : UnitFloat
  unsupportedCriticalClaims : Nat
  coverageGap : Nat
deriving DecidableEq

/-- The fields of a capsule before validation. -/
structure CapsuleData where
  capsuleId : String
  schemaVersion : String
  level : CapsuleLevel
  sessionKey : SessionKey
  coveredEventStart : Nat
  coveredEventEnd : Nat
  sourceEventIds : List String
  goals : List CapsuleClaim
  constraints : List CapsuleClaim
  decisions : List Decision
  progress : List CapsuleClaim
  openLoops : List CapsuleClaim
  preferences : List CapsuleClaim
  entities : List Entity
  emotionalContext : List CapsuleClaim
  exactAnchors : List CapsuleAnchor
  dependencies : List Dependency
  narrativeSummary : String
  tokenCost : Nat
  quality : CapsuleQuality
  createdAt : AwareDatetime
deriving DecidableEq

/-- The checks of `ContextCapsuleEnvelope`, `validate_unique_items` and `validate_coverage_order`
included. -/
def CapsuleData.Valid (capsule : CapsuleData) : Prop :=
  (capsule.capsuleId ≠ "" ∧ capsule.schemaVersion ≠ "" ∧ capsule.narrativeSummary ≠ "") ∧
    (1 ≤ capsule.coveredEventStart ∧ capsule.coveredEventStart ≤ capsule.coveredEventEnd) ∧
    ValidSources capsule.sourceEventIds ∧
    (capsule.goals.Nodup ∧ capsule.constraints.Nodup ∧ capsule.decisions.Nodup ∧
      capsule.progress.Nodup ∧ capsule.openLoops.Nodup ∧ capsule.preferences.Nodup ∧
      capsule.entities.Nodup ∧ capsule.emotionalContext.Nodup ∧ capsule.exactAnchors.Nodup ∧
      capsule.dependencies.Nodup)

instance (capsule : CapsuleData) : Decidable capsule.Valid :=
  inferInstanceAs (Decidable (_ ∧ _))

/-- `ContextCapsuleEnvelope`. -/
structure ContextCapsuleEnvelope extends CapsuleData where
  valid : toCapsuleData.Valid := by decide
deriving DecidableEq

/-! ## Snapshots -/

/-- `SemanticAuditStatus`. -/
inductive SemanticAuditStatus
  | notRun
  | passed
  | failed
deriving DecidableEq

/-- `SnapshotState`. -/
inductive SnapshotState
  | candidate
  | committed
deriving DecidableEq

/-- `SnapshotAuditOutcome`. -/
structure SnapshotAuditOutcome where
  mechanicalPassed : Bool
  semanticStatus : SemanticAuditStatus
  failureCodes : List String
  valid : "" ∉ failureCodes ∧ failureCodes.Nodup := by decide
deriving DecidableEq

/-- No failure code is empty or repeated where there is none. -/
theorem SnapshotAuditOutcome.noFailure : "" ∉ ([] : List String) ∧ ([] : List String).Nodup := by decide

/-- The fields of a snapshot before validation. -/
structure SnapshotData where
  snapshotId : String
  sessionKey : SessionKey
  baseSnapshotId : Option String
  coveredEventEnd : Nat
  sourceHighWaterMark : Nat
  capsuleIds : List String
  exactAnchorIds : List String
  renderedContext : String
  tokenCost : Nat
  auditOutcome : SnapshotAuditOutcome
  state : SnapshotState
  createdAt : Timestamp
  committedAt : Option Timestamp
deriving DecidableEq

/-- `SnapshotEnvelope.validate_state`: a committed snapshot has a commit time and a clean audit, a
candidate has no commit time. -/
def SnapshotData.ValidState (snapshot : SnapshotData) : Prop :=
  (snapshot.state = .committed →
      snapshot.committedAt ≠ none ∧ snapshot.auditOutcome.mechanicalPassed = true ∧
        snapshot.auditOutcome.semanticStatus ≠ .failed ∧
        snapshot.auditOutcome.failureCodes = []) ∧
    (snapshot.state = .candidate → snapshot.committedAt = none)

instance (snapshot : SnapshotData) : Decidable snapshot.ValidState :=
  inferInstanceAs (Decidable (_ ∧ _))

/-- The checks of `SnapshotEnvelope`. -/
def SnapshotData.Valid (snapshot : SnapshotData) : Prop :=
  (snapshot.snapshotId ≠ "" ∧ snapshot.baseSnapshotId ≠ some "" ∧
      snapshot.renderedContext ≠ "") ∧
    (1 ≤ snapshot.coveredEventEnd ∧ 1 ≤ snapshot.sourceHighWaterMark) ∧
    ValidSources snapshot.capsuleIds ∧
    ("" ∉ snapshot.exactAnchorIds ∧ snapshot.exactAnchorIds.Nodup) ∧ snapshot.ValidState

instance (snapshot : SnapshotData) : Decidable snapshot.Valid :=
  inferInstanceAs (Decidable (_ ∧ _))

/-- `SnapshotEnvelope`. -/
structure SnapshotEnvelope extends SnapshotData where
  valid : toSnapshotData.Valid := by decide
deriving DecidableEq

end AstrContinuum
