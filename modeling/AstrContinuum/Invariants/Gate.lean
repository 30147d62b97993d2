import Mathlib.Algebra.Order.Field.Rat
import Mathlib.Tactic.Linarith
import AstrContinuum.Invariants.Chain

/-!
# What the gate guarantees about a link

The set-level consequences of `validate_permanent` for a snapshot and its successor: the sources of
the successor are old sources or events of its own delta, the active semantics of the predecessor
are kept or retired by the delta, and its active anchors are kept.
-/

namespace AstrContinuum

open Checked Relational

/-! ## The passed checks -/

namespace PermanentInput

variable {input : PermanentInput}

/-- Capsules and provenance records cite only valid sources. -/
theorem sources_valid (h : ¬ input.Fails .unsupportedActiveSemantic) :
    (∀ capsule ∈ input.candidateCapsules, ∀ source ∈ capsule.sourceEventIds,
        source ∈ input.validSourceIds) ∧
      ∀ sources ∈ input.provenanceRecords, ∀ source ∈ sources, source ∈ input.validSourceIds := by
  simp only [Fails, not_or, not_not, Bool.not_eq_true] at h
  obtain ⟨hcount, hmismatch⟩ := h
  constructor
  · intro capsule hcapsule source hsource
    simp only [capsuleSourceMismatch, List.any_eq_false, List.any_eq_true, decide_eq_true_eq,
      not_exists, not_and, not_not] at hmismatch
    exact hmismatch capsule hcapsule source hsource
  · intro sources hsources source hsource
    have hnil := List.length_eq_zero_iff.mp hcount
    have hsupported := List.filter_eq_nil_iff.mp hnil sources hsources
    simp only [unsupported, Bool.or_eq_true, List.any_eq_true, decide_eq_true_eq, not_or,
      not_exists, not_and, not_not] at hsupported
    exact hsupported.2 source hsource

/-- Every active anchor of the predecessor is an active anchor of the candidate. -/
theorem anchors_kept (h : ¬ input.Fails .missingRequiredAnchor) :
    ∀ anchor ∈ activeAnchors input.previousCapsules,
      anchor ∈ activeAnchors input.candidateCapsules := by
  simp only [Fails, not_lt, computedAnchorRecall] at h
  cases hanchors : activeAnchors input.previousCapsules with
  | nil => simp
  | cons first rest =>
      -- A recall of one means that the filter of the preserved anchors drops none.
      simp only [hanchors] at h
      have hpos : (0 : Rat) < ((first :: rest).length : Rat) := by
        simp only [List.length_cons]
        exact_mod_cast Nat.succ_pos _
      rw [le_div_iff₀ hpos, one_mul] at h
      have hlength : (first :: rest).length ≤ input.preservedAnchorCount := by exact_mod_cast h
      simp only [preservedAnchorCount, hanchors] at hlength
      have hall := List.filter_eq_self.mp
        (List.filter_sublist.eq_of_length_le hlength)
      intro anchor hanchor
      exact of_decide_eq_true (hall anchor hanchor)

end PermanentInput

/-! ## Stable ids -/

/-- The records of the claims and decisions of some capsules. -/
def statements (capsules : List ContextCapsuleEnvelope) : List SemanticRecord :=
  capsules.flatMap fun capsule =>
    capsule.claims.map CapsuleClaim.semanticRecord ++
      capsule.decisions.map Decision.semanticRecord

/-- The records of the entities and dependencies of some capsules. -/
def structuralRecords (capsules : List ContextCapsuleEnvelope) : List SemanticRecord :=
  capsules.flatMap fun capsule =>
    capsule.entities.map Entity.semanticRecord ++
      capsule.dependencies.map Dependency.semanticRecord

/-- The stable ids that are active in some capsules. -/
def activeIds (capsules : List ContextCapsuleEnvelope) : List String :=
  ((semanticRecords capsules).filter fun item => item.status = .active).map
    SemanticRecord.stableId

/-- The records that support a transition are those of claims and decisions. -/
theorem mem_statements {capsules : List ContextCapsuleEnvelope} {record : SemanticRecord} :
    record ∈ statements capsules ↔
      record ∈ semanticRecords capsules ∧ record.supportsTransition = true := by
  simp only [statements, semanticRecords, CapsuleData.semanticRecords, List.mem_flatMap,
    List.mem_append, List.mem_map]
  constructor
  · rintro ⟨capsule, hcapsule, ⟨item, hitem, rfl⟩ | ⟨item, hitem, rfl⟩⟩
    · exact ⟨⟨capsule, hcapsule, .inl (.inl (.inl ⟨item, hitem, rfl⟩))⟩, rfl⟩
    · exact ⟨⟨capsule, hcapsule, .inl (.inl (.inr ⟨item, hitem, rfl⟩))⟩, rfl⟩
  · rintro ⟨⟨capsule, hcapsule,
      ((⟨item, hitem, rfl⟩ | ⟨item, hitem, rfl⟩) | ⟨item, hitem, rfl⟩) | ⟨item, hitem, rfl⟩⟩, hs⟩
    · exact ⟨capsule, hcapsule, .inl ⟨item, hitem, rfl⟩⟩
    · exact ⟨capsule, hcapsule, .inr ⟨item, hitem, rfl⟩⟩
    · cases hs
    · cases hs

/-- Entities and dependencies are always active. -/
theorem mem_structuralRecords {capsules : List ContextCapsuleEnvelope} {record : SemanticRecord}
    (h : record ∈ structuralRecords capsules) :
    record ∈ semanticRecords capsules ∧ record.status = .active := by
  simp only [structuralRecords, List.mem_flatMap, List.mem_append, List.mem_map] at h
  simp only [semanticRecords, CapsuleData.semanticRecords, List.mem_flatMap, List.mem_append,
    List.mem_map]
  obtain ⟨capsule, hcapsule, ⟨item, hitem, rfl⟩ | ⟨item, hitem, rfl⟩⟩ := h
  · exact ⟨⟨capsule, hcapsule, .inl (.inr ⟨item, hitem, rfl⟩)⟩, rfl⟩
  · exact ⟨⟨capsule, hcapsule, .inr ⟨item, hitem, rfl⟩⟩, rfl⟩

/-- The ids of entities and dependencies are active. -/
theorem structuralRecords_active {capsules : List ContextCapsuleEnvelope} {record : SemanticRecord}
    (h : record ∈ structuralRecords capsules) : record.stableId ∈ activeIds capsules := by
  obtain ⟨hmem, hactive⟩ := mem_structuralRecords h
  exact List.mem_map_of_mem (List.mem_filter.mpr ⟨hmem, by simpa using hactive⟩)

/-! ## Links -/

/-- The ids of the events between the coverage of `previous` and that of `next`. -/
def Database.deltaIds (db : Database) (previous : Option SnapshotRow) (next : SnapshotRow) :
    List String :=
  (db.eventRowsBetween next.sessionKeyHash (coverageOf previous) next.coveredEventEnd).map
    EventRow.eventId

/-- `next` retires a stable id: a claim or decision with this id is superseded or retracted there,
cites an event of the delta of `next`, and the id is not active there. -/
def Retires (db : Database) (previous : Option SnapshotRow) (next : SnapshotRow)
    (id : String) : Prop :=
  id ∉ activeIds (db.capsulesOf next.snapshotId) ∧
    ∃ record ∈ statements (db.capsulesOf next.snapshotId), record.stableId = id ∧
      record.status.isApprovedTransition = true ∧
      ∃ source ∈ record.sourceEventIds, source ∈ db.deltaIds previous next

variable [Hashlib]

namespace AdmittedBy

variable {db : Database} {previous : Option SnapshotRow} {next : SnapshotRow}
  {input : PermanentInput} (h : AdmittedBy db previous next input)
include h

/-- The gate's current sources are the delta of the link. -/
theorem currentSourceIds_eq : input.currentSourceIds = db.deltaIds previous next := by
  have hids := congrArg (List.map EventData.eventId) h.sourceEvents
  simpa [List.map_map, Function.comp_def, EventRow.data, PermanentInput.currentSourceIds,
    Database.deltaIds] using hids

/-- A valid source of the gate is a source of the predecessor or an event of the delta. -/
theorem mem_validSourceIds {source : String} : source ∈ input.validSourceIds ↔
    (∃ capsule ∈ db.capsulesOf? previous, source ∈ capsule.sourceEventIds) ∨
      source ∈ db.deltaIds previous next := by
  rw [PermanentInput.validSourceIds, List.mem_append, h.currentSourceIds_eq,
    PermanentInput.previousSourceIds, h.previousCapsules, List.mem_flatMap]

/-- Every active id of the predecessor stays active or is retired by the successor. -/
theorem active_or_retires {id : String} (hid : id ∈ activeIds (db.capsulesOf? previous)) :
    id ∈ activeIds (db.capsulesOf next.snapshotId) ∨
      (Retires db previous next id ∧
        id ∈ (statements (db.capsulesOf? previous)).map SemanticRecord.stableId) := by
  have hkept := h.not_fails .missingPriorSemantic
  simp only [PermanentInput.Fails, not_exists, not_and, not_not] at hkept
  obtain ⟨item, hitem, rfl⟩ := List.mem_map.mp hid
  have hretained := hkept item (by
    rw [PermanentInput.previousActiveSemantics, h.previousCapsules]
    exact hitem)
  by_cases hactive : item.stableId ∈ activeIds (db.capsulesOf next.snapshotId)
  · exact .inl hactive
  · rcases List.mem_append.mp hretained with hretained | hretained
    · rw [PermanentInput.candidateActiveSemantics, h.candidateCapsules] at hretained
      exact absurd hretained hactive
    · refine .inr ?_
      obtain ⟨record, hrecord, hid⟩ := List.mem_map.mp hretained
      simp only [List.mem_filter, PermanentInput.candidateTransitionRecords, Bool.and_eq_true,
        decide_eq_true_eq, List.any_eq_true, h.candidateCapsules] at hrecord
      obtain ⟨⟨hmem, ⟨hsupports, hprevious⟩, hstatus⟩, -, source, hsource, hcurrent⟩ := hrecord
      refine ⟨⟨hactive, record, mem_statements.mpr ⟨hmem, hsupports⟩, hid, hstatus, source, hsource,
        h.currentSourceIds_eq ▸ hcurrent⟩, ?_⟩
      rw [← hid]
      obtain ⟨old, hold, holdId⟩ := List.mem_map.mp hprevious
      obtain ⟨hold, holdSupports⟩ := List.mem_filter.mp hold
      rw [PermanentInput.previousActiveSemantics, h.previousCapsules] at hold
      rw [← holdId]
      exact List.mem_map_of_mem
        (mem_statements.mpr ⟨(List.mem_filter.mp hold).1, by simpa using holdSupports⟩)

/-- Every active anchor of the predecessor is an active anchor of the successor. -/
theorem anchors_kept {anchor : CapsuleAnchor}
    (hanchor : anchor ∈ activeAnchors (db.capsulesOf? previous)) :
    anchor ∈ activeAnchors (db.capsulesOf next.snapshotId) := by
  rw [← h.candidateCapsules]
  refine PermanentInput.anchors_kept (h.not_fails .missingRequiredAnchor) anchor ?_
  rwa [h.previousCapsules]

/-- The capsules of the successor cite sources of the predecessor and events of the delta. -/
theorem capsule_sources {capsule : ContextCapsuleEnvelope}
    (hcapsule : capsule ∈ db.capsulesOf next.snapshotId) {source : String}
    (hsource : source ∈ capsule.sourceEventIds) :
    (∃ old ∈ db.capsulesOf? previous, source ∈ old.sourceEventIds) ∨
      source ∈ db.deltaIds previous next := by
  refine h.mem_validSourceIds.mp ?_
  refine (PermanentInput.sources_valid (h.not_fails .unsupportedActiveSemantic)).1 capsule ?_
    source hsource
  rwa [h.candidateCapsules]

/-- The active records of the successor cite sources of the predecessor and events of the delta. -/
theorem record_sources {record : SemanticRecord}
    (hrecord : record ∈ semanticRecords (db.capsulesOf next.snapshotId))
    (hactive : record.status = .active) {source : String}
    (hsource : source ∈ record.sourceEventIds) :
    (∃ old ∈ db.capsulesOf? previous, source ∈ old.sourceEventIds) ∨
      source ∈ db.deltaIds previous next := by
  refine h.mem_validSourceIds.mp ?_
  refine (PermanentInput.sources_valid (h.not_fails .unsupportedActiveSemantic)).2
    record.sourceEventIds ?_ source hsource
  refine List.mem_append_left _ (List.mem_map.mpr ⟨record, List.mem_append_left _ ?_, rfl⟩)
  rw [PermanentInput.candidateActiveSemantics, h.candidateCapsules]
  exact List.mem_filter.mpr ⟨hrecord, by simpa using hactive⟩

/-- The active anchors of the successor cite sources of the predecessor and events of the delta. -/
theorem anchor_sources {anchor : CapsuleAnchor}
    (hanchor : anchor ∈ activeAnchors (db.capsulesOf next.snapshotId)) {source : String}
    (hsource : source ∈ anchor.sourceEventIds) :
    (∃ old ∈ db.capsulesOf? previous, source ∈ old.sourceEventIds) ∨
      source ∈ db.deltaIds previous next := by
  refine h.mem_validSourceIds.mp ?_
  refine (PermanentInput.sources_valid (h.not_fails .unsupportedActiveSemantic)).2
    anchor.sourceEventIds ?_ source hsource
  refine List.mem_append_right _ (List.mem_map.mpr ⟨anchor, ?_, rfl⟩)
  rwa [h.candidateCapsules]

end AdmittedBy

end AstrContinuum
