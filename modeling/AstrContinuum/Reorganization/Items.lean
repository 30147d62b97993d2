import AstrContinuum.Domain.Envelopes

/-!
# Capsules without their checks

`model_copy(update=...)` copies a pydantic value without running its validators, and a model takes an
instance of another model as it is. So a capsule that a reorganization builds may hold decisions and
entities that no validator has seen. `CapsuleItem` and `CapsuleFields` are these values, the items of all
ten fields in one type, as the dictionary `selected` has them, and `readBack` is
`ContextCapsuleEnvelope.model_validate_json` of the JSON dump, which runs every validator again.
-/

namespace AstrContinuum

/-! ## Items -/

/-- The fields of a `CapsuleClaim`. -/
structure ClaimFields where
  claimId : String
  text : String
  status : SemanticStatus
  confidence : UnitFloat
  sourceEventIds : List String
deriving DecidableEq

/-- The fields of a `Decision`. -/
structure DecisionFields where
  decisionId : String
  text : String
  status : SemanticStatus
  confidence : UnitFloat
  sourceEventIds : List String
  rationale : String
  alternatives : List String
  supersedes : List String
  rejectedBecause : String
deriving DecidableEq

/-- The fields of an `Entity`. -/
structure EntityFields where
  entityId : String
  kind : String
  canonicalName : String
  aliases : List String
  sourceEventIds : List String
deriving DecidableEq

/-- An item of a capsule. Anchors and dependencies are never copied with other values. -/
inductive CapsuleItem
  | claim (item : ClaimFields)
  | decision (item : DecisionFields)
  | entity (item : EntityFields)
  | anchor (item : CapsuleAnchor)
  | dependency (item : Dependency)
deriving DecidableEq

namespace CapsuleItem

/-- A validated claim as an item. -/
def ofClaim (claim : CapsuleClaim) : CapsuleItem :=
  .claim ⟨claim.claimId, claim.text, claim.status, claim.confidence, claim.sourceEventIds⟩

/-- A validated decision as an item. -/
def ofDecision (decision : Decision) : CapsuleItem :=
  .decision ⟨decision.decisionId, decision.text, decision.status, decision.confidence,
    decision.sourceEventIds, decision.rationale, decision.alternatives, decision.supersedes,
    decision.rejectedBecause⟩

/-- A validated entity as an item. -/
def ofEntity (entity : Entity) : CapsuleItem :=
  .entity ⟨entity.entityId, entity.kind, entity.canonicalName, entity.aliases,
    entity.sourceEventIds⟩

/-- The validators of `CapsuleClaim`. -/
def toClaim : CapsuleItem → Option CapsuleClaim
  | .claim item =>
      if h : item.claimId ≠ "" ∧ item.text ≠ "" ∧ ValidSources item.sourceEventIds then
        some ⟨item.claimId, item.text, item.status, item.confidence, item.sourceEventIds, h⟩
      else none
  | _ => none

/-- The validators of `Decision`. -/
def toDecision : CapsuleItem → Option Decision
  | .decision item =>
      if h : item.decisionId ≠ "" ∧ item.text ≠ "" ∧ ValidSources item.sourceEventIds ∧
          item.alternatives.Nodup ∧ item.supersedes.Nodup then
        some ⟨item.decisionId, item.text, item.status, item.confidence, item.sourceEventIds,
          item.rationale, item.alternatives, item.supersedes, item.rejectedBecause, h⟩
      else none
  | _ => none

/-- The validators of `Entity`. -/
def toEntity : CapsuleItem → Option Entity
  | .entity item =>
      if h : item.entityId ≠ "" ∧ item.kind ≠ "" ∧ item.canonicalName ≠ "" ∧ item.aliases.Nodup ∧
          ValidSources item.sourceEventIds then
        some ⟨item.entityId, item.kind, item.canonicalName, item.aliases, item.sourceEventIds, h⟩
      else none
  | _ => none

/-- An anchor is read as it is. -/
def toAnchor : CapsuleItem → Option CapsuleAnchor
  | .anchor item => some item
  | _ => none

/-- A dependency is read as it is. -/
def toDependency : CapsuleItem → Option Dependency
  | .dependency item => some item
  | _ => none

/-- Reading a claim back gives the claim that was written. -/
theorem toClaim_eq_some {item : CapsuleItem} {claim : CapsuleClaim} :
    item.toClaim = some claim ↔ ofClaim claim = item := by
  cases item with
  | claim item =>
      constructor
      · intro h
        obtain ⟨_, hsome⟩ := Option.dite_none_right_eq_some.mp h
        obtain rfl := Option.some.inj hsome
        rfl
      · intro h
        obtain rfl := CapsuleItem.claim.inj h
        exact dif_pos claim.valid
  | _ => simp [toClaim, ofClaim]

/-- Reading a decision back gives the decision that was written. -/
theorem toDecision_eq_some {item : CapsuleItem} {decision : Decision} :
    item.toDecision = some decision ↔ ofDecision decision = item := by
  cases item with
  | decision item =>
      constructor
      · intro h
        obtain ⟨_, hsome⟩ := Option.dite_none_right_eq_some.mp h
        obtain rfl := Option.some.inj hsome
        rfl
      · intro h
        obtain rfl := CapsuleItem.decision.inj h
        exact dif_pos decision.valid
  | _ => simp [toDecision, ofDecision]

/-- Reading an entity back gives the entity that was written. -/
theorem toEntity_eq_some {item : CapsuleItem} {entity : Entity} :
    item.toEntity = some entity ↔ ofEntity entity = item := by
  cases item with
  | entity item =>
      constructor
      · intro h
        obtain ⟨_, hsome⟩ := Option.dite_none_right_eq_some.mp h
        obtain rfl := Option.some.inj hsome
        rfl
      · intro h
        obtain rfl := CapsuleItem.entity.inj h
        exact dif_pos entity.valid
  | _ => simp [toEntity, ofEntity]

/-- Reading an anchor back gives the anchor that was written. -/
theorem toAnchor_eq_some {item : CapsuleItem} {anchor : CapsuleAnchor} :
    item.toAnchor = some anchor ↔ .anchor anchor = item := by
  cases item <;> simp [toAnchor, eq_comm]

/-- Reading a dependency back gives the dependency that was written. -/
theorem toDependency_eq_some {item : CapsuleItem} {dependency : Dependency} :
    item.toDependency = some dependency ↔ .dependency dependency = item := by
  cases item <;> simp [toDependency, eq_comm]

/-- `_item_id`. -/
def itemId : CapsuleItem → String
  | .claim item => item.claimId
  | .decision item => item.decisionId
  | .entity item => item.entityId
  | .anchor item => item.anchorId
  | .dependency item => item.dependencyId

/-- `item.source_event_ids`. -/
def sourceEventIds : CapsuleItem → List String
  | .claim item => item.sourceEventIds
  | .decision item => item.sourceEventIds
  | .entity item => item.sourceEventIds
  | .anchor item => item.sourceEventIds
  | .dependency item => item.sourceEventIds

end CapsuleItem

/-! ## Capsules -/

/-- The ten lists of items of a capsule. -/
inductive ItemField
  | goals
  | constraints
  | decisions
  | progress
  | openLoops
  | preferences
  | entities
  | emotionalContext
  | exactAnchors
  | dependencies
deriving DecidableEq

/-- The fields of a capsule, as an instance of the model holds them. -/
structure CapsuleFields where
  capsuleId : String
  schemaVersion : String
  level : CapsuleLevel
  sessionKey : SessionKey
  coveredEventStart : Nat
  coveredEventEnd : Nat
  sourceEventIds : List String
  items : ItemField → List CapsuleItem
  narrativeSummary : String
  tokenCost : Nat
  quality : CapsuleQuality
  createdAt : AwareDatetime

/-- The items of a validated capsule. -/
def ContextCapsuleEnvelope.items (capsule : ContextCapsuleEnvelope) : ItemField → List CapsuleItem
  | .goals => capsule.goals.map .ofClaim
  | .constraints => capsule.constraints.map .ofClaim
  | .decisions => capsule.decisions.map .ofDecision
  | .progress => capsule.progress.map .ofClaim
  | .openLoops => capsule.openLoops.map .ofClaim
  | .preferences => capsule.preferences.map .ofClaim
  | .entities => capsule.entities.map .ofEntity
  | .emotionalContext => capsule.emotionalContext.map .ofClaim
  | .exactAnchors => capsule.exactAnchors.map .anchor
  | .dependencies => capsule.dependencies.map .dependency

/-- The fields of a validated capsule. -/
def ContextCapsuleEnvelope.fields (capsule : ContextCapsuleEnvelope) : CapsuleFields where
  capsuleId := capsule.capsuleId
  schemaVersion := capsule.schemaVersion
  level := capsule.level
  sessionKey := capsule.sessionKey
  coveredEventStart := capsule.coveredEventStart
  coveredEventEnd := capsule.coveredEventEnd
  sourceEventIds := capsule.sourceEventIds
  items := capsule.items
  narrativeSummary := capsule.narrativeSummary
  tokenCost := capsule.tokenCost
  quality := capsule.quality
  createdAt := capsule.createdAt

/-- `ContextCapsuleEnvelope.model_validate_json(capsule.model_dump_json())`: the dump writes every field
of every item, so what is read back is these fields, through all validators. -/
def CapsuleFields.readBack (fields : CapsuleFields) : Option ContextCapsuleEnvelope := do
  let goals ← (fields.items .goals).mapM CapsuleItem.toClaim
  let constraints ← (fields.items .constraints).mapM CapsuleItem.toClaim
  let decisions ← (fields.items .decisions).mapM CapsuleItem.toDecision
  let progress ← (fields.items .progress).mapM CapsuleItem.toClaim
  let openLoops ← (fields.items .openLoops).mapM CapsuleItem.toClaim
  let preferences ← (fields.items .preferences).mapM CapsuleItem.toClaim
  let entities ← (fields.items .entities).mapM CapsuleItem.toEntity
  let emotionalContext ← (fields.items .emotionalContext).mapM CapsuleItem.toClaim
  let exactAnchors ← (fields.items .exactAnchors).mapM CapsuleItem.toAnchor
  let dependencies ← (fields.items .dependencies).mapM CapsuleItem.toDependency
  let data : CapsuleData :=
    { capsuleId := fields.capsuleId
      schemaVersion := fields.schemaVersion
      level := fields.level
      sessionKey := fields.sessionKey
      coveredEventStart := fields.coveredEventStart
      coveredEventEnd := fields.coveredEventEnd
      sourceEventIds := fields.sourceEventIds
      goals, constraints, decisions, progress, openLoops, preferences, entities, emotionalContext,
      exactAnchors, dependencies
      narrativeSummary := fields.narrativeSummary
      tokenCost := fields.tokenCost
      quality := fields.quality
      createdAt := fields.createdAt }
  if h : data.Valid then some ⟨data, h⟩ else none

/-- A list is read back when every item is. -/
theorem mapM_eq_some_iff_map {α β : Type} {read : β → Option α} {write : α → β}
    (h : ∀ b a, read b = some a ↔ write a = b) {items : List β} {values : List α} :
    items.mapM read = some values ↔ values.map write = items := by
  induction items generalizing values with
  | nil => cases values <;> simp
  | cons item rest ih =>
      simp only [List.mapM_cons, Option.bind_eq_bind, Option.bind_eq_some_iff, h]
      constructor
      · rintro ⟨value, rfl, others, hothers, hvalues⟩
        obtain rfl := Option.some.inj hvalues
        rw [List.map_cons, ih.mp hothers]
      · intro hmap
        cases values with
        | nil => cases hmap
        | cons value others =>
            obtain ⟨hvalue, hothers⟩ := List.cons.inj hmap
            exact ⟨value, hvalue, others, ih.mpr hothers, rfl⟩

/-- What is read back equals what was written. -/
theorem CapsuleFields.readBack_eq_some {fields : CapsuleFields} {capsule : ContextCapsuleEnvelope} :
    fields.readBack = some capsule ↔ capsule.fields = fields := by
  have hclaims {items : List CapsuleItem} {values : List CapsuleClaim} :
      items.mapM CapsuleItem.toClaim = some values ↔ values.map .ofClaim = items :=
    mapM_eq_some_iff_map fun _ _ => CapsuleItem.toClaim_eq_some
  have hdecisions {items : List CapsuleItem} {values : List Decision} :
      items.mapM CapsuleItem.toDecision = some values ↔ values.map .ofDecision = items :=
    mapM_eq_some_iff_map fun _ _ => CapsuleItem.toDecision_eq_some
  have hentities {items : List CapsuleItem} {values : List Entity} :
      items.mapM CapsuleItem.toEntity = some values ↔ values.map .ofEntity = items :=
    mapM_eq_some_iff_map fun _ _ => CapsuleItem.toEntity_eq_some
  have hanchors {items : List CapsuleItem} {values : List CapsuleAnchor} :
      items.mapM CapsuleItem.toAnchor = some values ↔ values.map .anchor = items :=
    mapM_eq_some_iff_map fun _ _ => CapsuleItem.toAnchor_eq_some
  have hdependencies {items : List CapsuleItem} {values : List Dependency} :
      items.mapM CapsuleItem.toDependency = some values ↔ values.map .dependency = items :=
    mapM_eq_some_iff_map fun _ _ => CapsuleItem.toDependency_eq_some
  unfold CapsuleFields.readBack
  simp only [Option.bind_eq_bind, Option.bind_eq_some_iff, hclaims, hdecisions, hentities, hanchors,
    hdependencies]
  constructor
  · rintro ⟨goals, hgoals, constraints, hconstraints, decisions, hdecisions, progress, hprogress,
      openLoops, hopen, preferences, hpreferences, entities, hentities, emotional, hemotional,
      anchors, hanchors, dependencies, hdependencies, h⟩
    obtain ⟨_, hsome⟩ := Option.dite_none_right_eq_some.mp h
    have hitems : capsule.items = fields.items := by
      rw [← Option.some.inj hsome]
      funext field
      cases field <;> assumption
    rw [← Option.some.inj hsome] at hitems ⊢
    exact congrArg (fun items => { fields with items := items }) hitems
  · rintro rfl
    exact ⟨_, rfl, _, rfl, _, rfl, _, rfl, _, rfl, _, rfl, _, rfl, _, rfl, _, rfl, _, rfl,
      dif_pos capsule.valid⟩

end AstrContinuum
