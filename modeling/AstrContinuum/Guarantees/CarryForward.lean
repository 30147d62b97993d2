import AstrContinuum.Guarantees.Provenance

/-!
# Carrying a snapshot forward

The successor that keeps every capsule of a published snapshot and adds one capsule for the new
events should pass the gate. The gate checks the sources of single items against the sources that
the previous capsules list as a whole, but never checks that an item cites only what its capsule
lists. `carry_forward_publishable_iff` says exactly which published snapshots can be carried
forward.
-/

namespace AstrContinuum

open Checked Relational Transactional

/-! ## Quality -/

/-- Full quality: the mechanical audit passed and nothing is missing. -/
@[mk_iff]
structure CapsuleQuality.Full (quality : CapsuleQuality) : Prop where
  mechanical : quality.mechanicalPassed = true
  sources : 1 ≤ quality.sourceCoverage.val
  anchors : 1 ≤ quality.anchorRecall.val
  claims : quality.unsupportedCriticalClaims = 0
  coverage : quality.coverageGap = 0

instance (quality : CapsuleQuality) : Decidable quality.Full :=
  decidable_of_iff _ (CapsuleQuality.full_iff quality).symm

/-- A bound of a minimum is a bound of every value. -/
theorem le_foldl_min {bound value : Rat} {rest : List Rat} :
    bound ≤ rest.foldl min value ↔ ∀ other ∈ value :: rest, bound ≤ other := by
  induction rest generalizing value with
  | nil => simp
  | cons next rest ih =>
      rw [List.foldl_cons, ih]
      simp [and_assoc]

/-- The minimum of some values is at least one exactly when there is a value and each is. -/
theorem one_le_minOrZero {values : List Rat} :
    1 ≤ minOrZero values ↔ values ≠ [] ∧ ∀ value ∈ values, 1 ≤ value := by
  cases values with
  | nil => simp [minOrZero]
  | cons value rest =>
      rw [minOrZero, le_foldl_min]
      simp

namespace PermanentInput

variable {input : PermanentInput}

/-- The quality checks of the gate pass exactly when every capsule has full quality, the audit
passed and the gate itself found every source supported and every anchor kept. -/
theorem quality_checks (hnonempty : input.candidateCapsules ≠ []) :
    (¬ input.Fails .mechanicalNotPassed ∧ ¬ input.Fails .sourceCoverageNotFull ∧
        ¬ input.Fails .anchorRecallNotFull ∧ ¬ input.Fails .unsupportedCriticalClaims ∧
        ¬ input.Fails .qualityCoverageGap) ↔
      input.candidateSnapshot.auditOutcome.mechanicalPassed = true ∧
        (∀ capsule ∈ input.candidateCapsules, capsule.quality.Full) ∧
        1 ≤ input.computedSourceCoverage ∧ 1 ≤ input.computedAnchorRecall ∧
        input.unsupportedCount = 0 := by
  have hsources : 1 ≤ input.sourceCoverage ↔ 1 ≤ input.computedSourceCoverage ∧
      ∀ capsule ∈ input.candidateCapsules, 1 ≤ capsule.quality.sourceCoverage.val := by
    simp [sourceCoverage, declaredSourceCoverage, one_le_minOrZero, hnonempty]
  have hanchors : 1 ≤ input.anchorRecall ↔ 1 ≤ input.computedAnchorRecall ∧
      ∀ capsule ∈ input.candidateCapsules, 1 ≤ capsule.quality.anchorRecall.val := by
    simp [anchorRecall, declaredAnchorRecall, one_le_minOrZero, hnonempty]
  have hclaims : input.unsupportedCriticalClaims = 0 ↔ input.unsupportedCount = 0 ∧
      ∀ capsule ∈ input.candidateCapsules, capsule.quality.unsupportedCriticalClaims = 0 := by
    simp [unsupportedCriticalClaims, declaredUnsupported, List.sum_eq_zero_iff_forall_eq_nat]
  have hgap : input.declaredCoverageGap = 0 ↔
      ∀ capsule ∈ input.candidateCapsules, capsule.quality.coverageGap = 0 := by
    simp [declaredCoverageGap, List.sum_eq_zero_iff_forall_eq_nat]
  simp only [Fails, not_or, not_exists, not_and, not_lt, not_not, Bool.not_eq_false, hsources,
    hanchors, hclaims, hgap]
  constructor
  · rintro ⟨⟨haudit, hmechanical⟩, ⟨hcomputed, hs⟩, ⟨hrecall, ha⟩, ⟨hcount, hc⟩, hg⟩
    exact ⟨haudit, fun capsule hcapsule => ⟨hmechanical capsule hcapsule, hs capsule hcapsule,
      ha capsule hcapsule, hc capsule hcapsule, hg capsule hcapsule⟩, hcomputed, hrecall, hcount⟩
  · rintro ⟨haudit, hfull, hcomputed, hrecall, hcount⟩
    exact ⟨⟨haudit, fun capsule hcapsule => (hfull capsule hcapsule).mechanical⟩,
      ⟨hcomputed, fun capsule hcapsule => (hfull capsule hcapsule).sources⟩,
      ⟨hrecall, fun capsule hcapsule => (hfull capsule hcapsule).anchors⟩,
      ⟨hcount, fun capsule hcapsule => (hfull capsule hcapsule).claims⟩,
      fun capsule hcapsule => (hfull capsule hcapsule).coverage⟩

/-- The gate finds no unsupported record exactly when every record cites valid sources, and then its
own coverage is full. -/
theorem unsupportedCount_eq_zero :
    input.unsupportedCount = 0 ↔
      ∀ sources ∈ input.provenanceRecords, sources ≠ [] ∧
        ∀ source ∈ sources, source ∈ input.validSourceIds := by
  simp [unsupportedCount, List.filter_eq_nil_iff, unsupported]

/-- The computed coverage is full when no record is unsupported. -/
theorem one_le_computedSourceCoverage (h : input.unsupportedCount = 0) :
    1 ≤ input.computedSourceCoverage := by
  unfold computedSourceCoverage
  split
  · exact le_rfl
  · next records hrecords =>
      have hpos : (0 : Rat) < (input.provenanceRecords.length : Rat) := by
        exact_mod_cast List.length_pos_iff.mpr hrecords
      rw [h, le_div_iff₀ hpos]
      simp

/-- The computed recall is full when every anchor is kept. -/
theorem one_le_computedAnchorRecall
    (h : ∀ anchor ∈ activeAnchors input.previousCapsules,
      anchor ∈ activeAnchors input.candidateCapsules) : 1 ≤ input.computedAnchorRecall := by
  have hkept : input.preservedAnchorCount = (activeAnchors input.previousCapsules).length := by
    unfold preservedAnchorCount
    rw [List.filter_eq_self.mpr fun anchor hanchor => by simpa using h anchor hanchor]
  unfold computedAnchorRecall
  split
  · exact le_rfl
  · next anchors hanchors =>
      have hpos : (0 : Rat) < ((activeAnchors input.previousCapsules).length : Rat) := by
        exact_mod_cast List.length_pos_iff.mpr hanchors
      rw [hkept, le_div_iff₀ hpos, one_mul]

end PermanentInput

/-! ## Carrying forward -/

/-- What the gate has established about the capsules of a published snapshot. -/
structure Accepted (snapshot : SnapshotEnvelope) (capsules : List ContextCapsuleEnvelope) :
    Prop where
  session : ∀ capsule ∈ capsules, capsule.sessionKey = snapshot.sessionKey
  coverage : ∀ capsule ∈ capsules, capsule.coveredEventEnd ≤ snapshot.coveredEventEnd
  quality : ∀ capsule ∈ capsules, capsule.quality.Full

/-- The candidate keeps `capsules` unchanged and adds `new`, which has full quality, covers exactly
the delta and cites only the delta. The delta is not empty and continues the coverage of the
snapshot, and the fields of the candidate match. -/
@[mk_iff]
structure CarriesForward (snapshot : SnapshotEnvelope) (capsules : List ContextCapsuleEnvelope)
    (new : ContextCapsuleEnvelope) (input : PermanentInput) : Prop where
  previousSnapshot : input.previousSnapshot = some snapshot
  previousCapsules : input.previousCapsules = capsules
  candidateCapsules : input.candidateCapsules = capsules ++ [new]
  delta : input.sourceEvents ≠ []
  sequences : input.actualSequences =
    List.range' (snapshot.coveredEventEnd + 1) input.sourceEvents.length
  eventIds : input.currentSourceIds.Nodup
  eventSession : ∀ event ∈ input.sourceEvents, event.sessionKey = snapshot.sessionKey
  target : input.targetHighWaterMark = snapshot.coveredEventEnd + input.sourceEvents.length
  newSession : new.sessionKey = snapshot.sessionKey
  newStart : new.coveredEventStart = snapshot.coveredEventEnd + 1
  newEnd : new.coveredEventEnd = input.targetHighWaterMark
  newQuality : new.quality.Full
  newSources : ∀ source ∈ new.sourceEventIds, source ∈ input.currentSourceIds
  newRecords : ∀ record ∈ new.semanticRecords, ∀ source ∈ record.sourceEventIds,
    source ∈ input.currentSourceIds
  newAnchors : ∀ anchor ∈ new.exactAnchors, ∀ source ∈ anchor.sourceEventIds,
    source ∈ input.currentSourceIds
  session : input.candidateSnapshot.sessionKey = snapshot.sessionKey
  base : input.candidateSnapshot.baseSnapshotId = some snapshot.snapshotId
  covered : input.candidateSnapshot.coveredEventEnd = input.targetHighWaterMark
  mark : input.candidateSnapshot.sourceHighWaterMark = input.targetHighWaterMark
  capsuleIds : input.candidateSnapshot.capsuleIds =
    (capsules ++ [new]).map fun capsule => capsule.capsuleId
  anchorIds : input.candidateSnapshot.exactAnchorIds =
    (activeAnchors (capsules ++ [new])).map fun anchor => anchor.anchorId
  audit : input.candidateSnapshot.auditOutcome.mechanicalPassed = true
  tokenCost : input.candidateSnapshot.tokenCost ≤ input.tokenCeiling
  capsuleCost : (input.capsuleTokenCost : Int) ≤ input.tokenCeiling

instance (snapshot : SnapshotEnvelope) (capsules : List ContextCapsuleEnvelope)
    (new : ContextCapsuleEnvelope) (input : PermanentInput) :
    Decidable (CarriesForward snapshot capsules new input) :=
  decidable_of_iff _ (carriesForward_iff snapshot capsules new input).symm

/-- The sources that the gate will ask about when `capsules` are carried forward: those of active
records, of ended claims and decisions whose id is still active as one, and of active anchors. -/
def carriedProvenance (capsules : List ContextCapsuleEnvelope) : List (List String) :=
  ((semanticRecords capsules).filter fun item => item.status = .active).map
      SemanticRecord.sourceEventIds ++
    ((statements capsules).filter fun item =>
        item.status.isApprovedTransition &&
          decide (item.stableId ∈ ((statements capsules).filter
            fun other => other.status = .active).map SemanticRecord.stableId)).map
      SemanticRecord.sourceEventIds ++
    (activeAnchors capsules).map fun anchor => anchor.sourceEventIds

/-- Everything that is carried forward cites what the capsules list, or the delta. -/
def SelfSupported (capsules : List ContextCapsuleEnvelope) (delta : List String) : Prop :=
  ∀ sources ∈ carriedProvenance capsules, ∀ source ∈ sources,
    (∃ capsule ∈ capsules, source ∈ capsule.sourceEventIds) ∨ source ∈ delta

instance (capsules : List ContextCapsuleEnvelope) (delta : List String) :
    Decidable (SelfSupported capsules delta) :=
  inferInstanceAs (Decidable (∀ sources ∈ _, _))

/-- Every record of a capsule cites something. -/
theorem semanticRecords_sources_ne_nil {capsules : List ContextCapsuleEnvelope}
    {record : SemanticRecord} (h : record ∈ semanticRecords capsules) :
    record.sourceEventIds ≠ [] := by
  simp only [semanticRecords, CapsuleData.semanticRecords, List.mem_flatMap, List.mem_append,
    List.mem_map] at h
  obtain ⟨capsule, -, ((⟨item, -, rfl⟩ | ⟨item, -, rfl⟩) | ⟨item, -, rfl⟩) | ⟨item, -, rfl⟩⟩ := h
  · exact item.valid.2.2.1
  · exact item.valid.2.2.1.1
  · exact item.valid.2.2.2.2.1
  · exact item.valid.2.2.2.1

namespace CarriesForward

variable {snapshot : SnapshotEnvelope} {capsules : List ContextCapsuleEnvelope}
  {new : ContextCapsuleEnvelope} {input : PermanentInput}
  (h : CarriesForward snapshot capsules new input)
include h

/-- The valid sources are what the carried capsules list, and the delta. -/
theorem mem_validSourceIds {source : String} : source ∈ input.validSourceIds ↔
    (∃ capsule ∈ capsules, source ∈ capsule.sourceEventIds) ∨
      source ∈ input.currentSourceIds := by
  rw [PermanentInput.validSourceIds, List.mem_append, PermanentInput.previousSourceIds,
    h.previousCapsules, List.mem_flatMap]

/-- An id supports a transition when it is that of an active carried claim or decision. -/
theorem mem_previousTransitionableIds {id : String} : id ∈ input.previousTransitionableIds ↔
    id ∈ ((statements capsules).filter fun other => other.status = .active).map
      SemanticRecord.stableId := by
  simp only [PermanentInput.previousTransitionableIds, PermanentInput.previousActiveSemantics,
    h.previousCapsules, List.mem_map, List.mem_filter, mem_statements]
  constructor
  · rintro ⟨item, ⟨⟨hmem, hactive⟩, hsupports⟩, rfl⟩
    exact ⟨item, ⟨⟨hmem, hsupports⟩, hactive⟩, rfl⟩
  · rintro ⟨item, ⟨⟨hmem, hsupports⟩, hactive⟩, rfl⟩
    exact ⟨item, ⟨⟨hmem, hactive⟩, hsupports⟩, rfl⟩

/-- The records of the candidate are the carried ones and those of the new capsule. -/
theorem mem_semanticRecords {record : SemanticRecord} :
    record ∈ semanticRecords input.candidateCapsules ↔
      record ∈ semanticRecords capsules ∨ record ∈ new.semanticRecords := by
  simp [h.candidateCapsules, semanticRecords]

/-- The active anchors of the candidate are the carried ones and those of the new capsule. -/
theorem mem_activeAnchors {anchor : CapsuleAnchor} :
    anchor ∈ activeAnchors input.candidateCapsules ↔
      anchor ∈ activeAnchors capsules ∨ anchor ∈ new.exactAnchors ∧ anchor.status = .active := by
  simp [h.candidateCapsules, activeAnchors]

/-- A record that the gate asks about is carried forward or belongs to the new capsule. -/
theorem mem_provenanceRecords {sources : List String}
    (hsources : sources ∈ input.provenanceRecords) :
    sources ∈ carriedProvenance capsules ∨
      (∃ record ∈ new.semanticRecords, record.sourceEventIds = sources) ∨
      ∃ anchor ∈ new.exactAnchors, anchor.sourceEventIds = sources := by
  rcases List.mem_append.mp hsources with hrecord | hanchor
  · obtain ⟨record, hitem, rfl⟩ := List.mem_map.mp hrecord
    rcases List.mem_append.mp hitem with hactive | htransition
    · obtain ⟨hmem, hactive⟩ := List.mem_filter.mp hactive
      rcases h.mem_semanticRecords.mp hmem with hmem | hmem
      · refine .inl (List.mem_append_left _ (List.mem_append_left _ ?_))
        exact List.mem_map_of_mem (List.mem_filter.mpr ⟨hmem, hactive⟩)
      · exact .inr (.inl ⟨record, hmem, rfl⟩)
    · obtain ⟨hmem, hended⟩ := List.mem_filter.mp htransition
      simp only [Bool.and_eq_true, decide_eq_true_eq] at hended
      obtain ⟨⟨hsupports, hid⟩, hstatus⟩ := hended
      rcases h.mem_semanticRecords.mp hmem with hmem | hmem
      · refine .inl (List.mem_append_left _ (List.mem_append_right _ ?_))
        refine List.mem_map_of_mem (List.mem_filter.mpr
          ⟨mem_statements.mpr ⟨hmem, hsupports⟩, ?_⟩)
        rw [hstatus, Bool.true_and]
        exact decide_eq_true (h.mem_previousTransitionableIds.mp hid)
      · exact .inr (.inl ⟨record, hmem, rfl⟩)
  · obtain ⟨anchor, hitem, rfl⟩ := List.mem_map.mp hanchor
    rcases h.mem_activeAnchors.mp hitem with hold | ⟨hnew, -⟩
    · exact .inl (List.mem_append_right _ (List.mem_map_of_mem hold))
    · exact .inr (.inr ⟨anchor, hnew, rfl⟩)

/-- The gate asks about everything that is carried forward. -/
theorem carried_mem_provenanceRecords {sources : List String}
    (hsources : sources ∈ carriedProvenance capsules) : sources ∈ input.provenanceRecords := by
  rcases List.mem_append.mp hsources with hrecord | hanchor
  · refine List.mem_append_left _ ?_
    rcases List.mem_append.mp hrecord with hactive | hended
    · obtain ⟨record, hitem, rfl⟩ := List.mem_map.mp hactive
      obtain ⟨hmem, hstatus⟩ := List.mem_filter.mp hitem
      exact List.mem_map_of_mem (List.mem_append_left _
        (List.mem_filter.mpr ⟨h.mem_semanticRecords.mpr (.inl hmem), hstatus⟩))
    · obtain ⟨record, hitem, rfl⟩ := List.mem_map.mp hended
      obtain ⟨hstatement, htransition⟩ := List.mem_filter.mp hitem
      obtain ⟨hmem, hsupports⟩ := mem_statements.mp hstatement
      obtain ⟨hstatus, hid⟩ := Bool.and_eq_true_iff.mp htransition
      refine List.mem_map_of_mem (List.mem_append_right _
        (List.mem_filter.mpr ⟨h.mem_semanticRecords.mpr (.inl hmem), ?_⟩))
      rw [hsupports, hstatus, Bool.true_and, Bool.and_true]
      exact decide_eq_true (h.mem_previousTransitionableIds.mpr (of_decide_eq_true hid))
  · obtain ⟨anchor, hitem, rfl⟩ := List.mem_map.mp hanchor
    exact List.mem_append_right _ (List.mem_map_of_mem (h.mem_activeAnchors.mpr (.inl hitem)))

/-- No record is unsupported exactly when the carried capsules support themselves. -/
theorem unsupportedCount_iff :
    input.unsupportedCount = 0 ↔ SelfSupported capsules input.currentSourceIds := by
  rw [PermanentInput.unsupportedCount_eq_zero]
  constructor
  · intro hsupported sources hsources source hsource
    exact h.mem_validSourceIds.mp
      ((hsupported sources (h.carried_mem_provenanceRecords hsources)).2 source hsource)
  · intro hself sources hsources
    constructor
    · rcases List.mem_append.mp hsources with hrecord | hanchor
      · obtain ⟨record, hitem, rfl⟩ := List.mem_map.mp hrecord
        rcases List.mem_append.mp hitem with hactive | htransition
        · exact semanticRecords_sources_ne_nil (List.mem_filter.mp hactive).1
        · exact semanticRecords_sources_ne_nil (List.mem_filter.mp htransition).1
      · obtain ⟨anchor, -, rfl⟩ := List.mem_map.mp hanchor
        exact anchor.valid.2.2.1
    · intro source hsource
      refine h.mem_validSourceIds.mpr ?_
      rcases h.mem_provenanceRecords hsources with hcarried | ⟨record, hrecord, rfl⟩ |
        ⟨anchor, hanchor, rfl⟩
      · exact hself sources hcarried source hsource
      · exact .inr (h.newRecords record hrecord source hsource)
      · exact .inr (h.newAnchors anchor hanchor source hsource)

/-- The gate passes exactly when the carried capsules support themselves. -/
theorem passed_iff (haccepted : Accepted snapshot capsules) :
    (validatePermanent input).passed = true ↔ SelfSupported capsules input.currentSourceIds := by
  rw [← h.unsupportedCount_iff, validate_permanent_passed]
  constructor
  · intro hpassed
    have hsupported := hpassed .unsupportedActiveSemantic
    simp only [PermanentInput.Fails, not_or, not_not] at hsupported
    exact hsupported.1
  · intro hcount
    have hnonempty : input.candidateCapsules ≠ [] := by simp [h.candidateCapsules]
    have hmember : ∀ {P : ContextCapsuleEnvelope → Prop}, (∀ capsule ∈ capsules, P capsule) →
        P new → ∀ capsule ∈ input.candidateCapsules, P capsule := by
      intro P hold hnew
      rw [h.candidateCapsules]
      exact forall_append_singleton hold hnew
    have hanchors : ∀ anchor ∈ activeAnchors input.previousCapsules,
        anchor ∈ activeAnchors input.candidateCapsules := by
      intro anchor hanchor
      rw [h.previousCapsules] at hanchor
      exact h.mem_activeAnchors.mpr (.inl hanchor)
    have hrecall := PermanentInput.one_le_computedAnchorRecall hanchors
    have hquality := (PermanentInput.quality_checks hnonempty).mpr ⟨h.audit,
      hmember haccepted.quality h.newQuality,
      PermanentInput.one_le_computedSourceCoverage hcount, hrecall, hcount⟩
    have hbaseCoverage : input.baseCoverage = snapshot.coveredEventEnd := by
      simp [PermanentInput.baseCoverage, h.previousSnapshot]
    have hlength : 0 < input.sourceEvents.length := List.length_pos_iff.mpr h.delta
    intro code
    cases code with
    | emptyCompilerOutput => exact hnonempty
    | sessionKeyMismatch =>
        simp only [PermanentInput.Fails, h.session, h.previousSnapshot, h.previousCapsules,
          not_or, not_exists, not_and, not_not]
        refine ⟨hmember haccepted.session h.newSession, h.eventSession, ?_, haccepted.session⟩
        simp
    | baseSnapshotMismatch =>
        simp [PermanentInput.Fails, PermanentInput.expectedBaseId, h.base, h.previousSnapshot]
    | targetMismatch => simp [PermanentInput.Fails, h.covered, h.mark]
    | coverageGap =>
        have hexpected : input.expectedSequences = input.actualSequences := by
          rw [h.sequences, PermanentInput.expectedSequences, hbaseCoverage, h.target,
            Nat.add_sub_cancel_left]
        simp only [PermanentInput.Fails, not_or, not_le, not_not, hexpected, hbaseCoverage,
          h.target]
        exact ⟨by omega, trivial, h.eventIds⟩
    | capsuleMembershipMismatch =>
        simp [PermanentInput.Fails, h.capsuleIds, h.candidateCapsules]
    | snapshotAnchorMismatch => simp [PermanentInput.Fails, h.anchorIds, h.candidateCapsules]
    | invalidCapsuleCoverage =>
        simp only [PermanentInput.Fails, not_exists, not_and, not_or, not_lt]
        refine hmember (fun capsule hcapsule => ⟨?_, capsule.valid.2.1.2⟩)
          ⟨h.newEnd.le, new.valid.2.1.2⟩
        have hcovered := haccepted.coverage capsule hcapsule
        rw [h.target]
        omega
    | unsupportedActiveSemantic =>
        simp only [PermanentInput.Fails, not_or, not_not, hcount, true_and,
          PermanentInput.capsuleSourceMismatch, List.any_eq_true, decide_eq_true_eq, not_exists,
          not_and]
        refine hmember (fun capsule hcapsule source hsource => ?_) fun source hsource => ?_
        · exact h.mem_validSourceIds.mpr (.inl ⟨capsule, hcapsule, hsource⟩)
        · exact h.mem_validSourceIds.mpr (.inr (h.newSources source hsource))
    | missingPriorSemantic =>
        simp only [PermanentInput.Fails, not_exists, not_and, not_not]
        intro item hitem
        rw [PermanentInput.previousActiveSemantics, h.previousCapsules] at hitem
        obtain ⟨hmem, hactive⟩ := List.mem_filter.mp hitem
        exact List.mem_append_left _ (List.mem_map_of_mem
          (List.mem_filter.mpr ⟨h.mem_semanticRecords.mpr (.inl hmem), hactive⟩))
    | missingRequiredAnchor => exact not_lt.mpr hrecall
    | mechanicalNotPassed => exact hquality.1
    | sourceCoverageNotFull => exact hquality.2.1
    | anchorRecallNotFull => exact hquality.2.2.1
    | unsupportedCriticalClaims => exact hquality.2.2.2.1
    | qualityCoverageGap => exact hquality.2.2.2.2
    | tokenCeilingExceeded =>
        have hcost := h.tokenCost
        simp only [PermanentInput.Fails, not_or, not_lt]
        exact ⟨by omega, hcost, h.capsuleCost⟩

end CarriesForward

/-! ## Published snapshots -/

section Published

variable [Hashlib]

/-- The capsules of a published snapshot were accepted by the gate. -/
theorem AdmittedBy.accepted {db : Database} {previous : Option SnapshotRow} {next : SnapshotRow}
    {input : PermanentInput} (h : AdmittedBy db previous next input) :
    ∀ capsule ∈ db.capsulesOf next.snapshotId,
      capsule.coveredEventEnd ≤ next.coveredEventEnd ∧ capsule.quality.Full := by
  have hcoverage := h.not_fails .invalidCapsuleCoverage
  simp only [PermanentInput.Fails, not_exists, not_and, not_or, not_lt] at hcoverage
  have hquality := (PermanentInput.quality_checks (h.not_fails .emptyCompilerOutput)).mp
    ⟨h.not_fails .mechanicalNotPassed, h.not_fails .sourceCoverageNotFull,
      h.not_fails .anchorRecallNotFull, h.not_fails .unsupportedCriticalClaims,
      h.not_fails .qualityCoverageGap⟩
  intro capsule hcapsule
  rw [← h.candidateCapsules] at hcapsule
  exact ⟨h.target ▸ (hcoverage capsule hcapsule).1, hquality.2.1 capsule hcapsule⟩

variable [SecureCodec]

/-- In every reachable state the successor that carries a published snapshot forward passes the gate
exactly when everything it carries cites what the capsules list, or the new events. -/
theorem carry_forward_publishable_iff {db : Database} (h : repository.Reachable db)
    {snapshotId : String} {sessionKey : SessionKey} {snapshot : SnapshotEnvelope}
    {memberships : List SnapshotCapsuleMembership}
    (hread : snapshotBundleById db snapshotId sessionKey = .ok (snapshot, memberships))
    {new : ContextCapsuleEnvelope} {input : PermanentInput}
    (hcarries : CarriesForward snapshot (memberships.map SnapshotCapsuleMembership.capsule) new
      input) :
    (validatePermanent input).passed = true ↔
      SelfSupported (memberships.map SnapshotCapsuleMembership.capsule) input.currentSourceIds := by
  obtain ⟨row, hrow, -, hfields, hcapsules⟩ := snapshotBundleById_ok hread
  obtain ⟨hmem, hid⟩ := Database.snapshotRow_eq_some.mp hrow
  have hlinked := (sound_of_reachable h).chain.linked row.sessionKeyHash
  have hlink : ∃ previous, Follows db previous row := by
    have hchain : row ∈ db.chain row.sessionKeyHash := List.mem_filter.mpr ⟨hmem, by simp⟩
    obtain ⟨i, hi, hget⟩ := List.getElem_of_mem hchain
    exact ⟨_, hget ▸ hlinked.follows_getElem hi⟩
  obtain ⟨previous, admitted, hadmitted⟩ := hlink
  have haccepted := hadmitted.accepted
  have hcoverage : snapshot.coveredEventEnd = row.coveredEventEnd := by
    rw [hfields]
    rfl
  have hsession : snapshot.sessionKey = sessionKey := by
    rw [hfields]
    rfl
  refine hcarries.passed_iff ⟨?_, ?_, ?_⟩
  · intro capsule hcapsule
    obtain ⟨membership, hmembership, rfl⟩ := List.mem_map.mp hcapsule
    rw [hsession]
    exact snapshotBundleById_session hread membership hmembership
  · intro capsule hcapsule
    rw [hcapsules, ← hid] at hcapsule
    rw [hcoverage]
    exact (haccepted capsule hcapsule).1
  · intro capsule hcapsule
    rw [hcapsules, ← hid] at hcapsule
    exact (haccepted capsule hcapsule).2

end Published

/-! ## Samples -/

namespace Sample

/-- An event of the sample session. -/
def eventData (eventId : String) (sequence : Nat) : EventData where
  eventId := eventId
  sessionKey := session
  sequence := sequence
  eventType := .userMessage
  role := .user
  content := "text"
  sourceHook := .onLlmRequest
  idempotencyKey := eventId
  tokenCount := 1
  createdAt := 1

/-- The second event. -/
def eventTwo : EventEnvelope where
  toEventData := eventData "e2" 2

/-- The third event. -/
def eventThree : EventEnvelope where
  toEventData := eventData "e3" 3

/-- The first snapshot of the samples as it is stored. -/
def committedOne : SnapshotEnvelope where
  toSnapshotData := { snapshotData "one" none 1 [first] with
    state := .committed, committedAt := some 2 }

/-- The first snapshot of the samples is carried forward over the second event. -/
def carriedOne : PermanentInput where
  previousSnapshot := some committedOne
  previousCapsules := [first]
  candidateSnapshot := snapshotTwo
  candidateCapsules := [first, second]
  sourceEvents := [eventTwo]
  targetHighWaterMark := 2
  tokenCeiling := 10

/-- A capsule of two events that lists only the first one, with a goal that cites the second. -/
def loose : ContextCapsuleEnvelope where
  toCapsuleData := { capsuleData "loose" 1 2 ["e1"] with
    goals := [{ goal with sourceEventIds := ["e2"], valid := by decide }] }

/-- The candidate of the loose capsule. -/
def looseOne : SnapshotEnvelope where
  toSnapshotData := snapshotData "one" none 2 [loose]

/-- The loose capsule is published. -/
def looseCompaction : List Call :=
  message "e1" :: message "e2" :: preparation "job1" 2 "one" ++
    [{ operation := .publishSnapshot (publication "job1" looseOne [loose]) }]

/-- The snapshot of the loose capsule as it is stored. -/
def committedLoose : SnapshotEnvelope where
  toSnapshotData := { snapshotData "one" none 2 [loose] with
    state := .committed, committedAt := some 2 }

/-- The capsule of the third event. -/
def third : ContextCapsuleEnvelope where
  toCapsuleData := capsuleData "third" 3 3 ["e3"]

/-- The successor that keeps the loose capsule. -/
def looseTwo : SnapshotEnvelope where
  toSnapshotData := snapshotData "two" (some "one") 3 [loose, third]

/-- The loose capsule is carried forward over the third event. -/
def carriedLoose : PermanentInput where
  previousSnapshot := some committedLoose
  previousCapsules := [loose]
  candidateSnapshot := looseTwo
  candidateCapsules := [loose, third]
  sourceEvents := [eventThree]
  targetHighWaterMark := 3
  tokenCeiling := 10

end Sample

open Sample in
/-- The first snapshot of the samples can be carried forward. -/
theorem carry_forward_publishable_iff_sample :
    SelfSupported [first] ["e2"] ∧ (validatePermanent carriedOne).passed = true := by
  have hread : snapshotBundleById (repository.execute firstCompaction) "one" session =
      .ok (committedOne, [⟨0, "slot", first⟩]) := by decide +kernel
  have hcarries : CarriesForward committedOne [first] second carriedOne := by decide +kernel
  have hself : SelfSupported [first] ["e2"] := by decide +kernel
  exact ⟨hself, (carry_forward_publishable_iff (repository.reachable_execute firstCompaction)
    hread hcarries).mpr hself⟩

open Sample in
/-- A published snapshot whose goal cites an event that its capsule does not list cannot be carried
forward. -/
theorem loose_snapshot_stuck :
    repository.Reachable (repository.execute looseCompaction) ∧
      snapshotBundleById (repository.execute looseCompaction) "one" session =
        .ok (committedLoose, [⟨0, "slot", loose⟩]) ∧
      CarriesForward committedLoose [loose] third carriedLoose ∧
      (validatePermanent carriedLoose).passed = false :=
  ⟨repository.reachable_execute looseCompaction, by decide +kernel, by decide +kernel,
    by decide +kernel⟩

end AstrContinuum
