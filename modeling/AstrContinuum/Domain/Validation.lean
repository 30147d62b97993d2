import Mathlib.Data.List.Range
import AstrContinuum.Domain.Envelopes

/-!
# The permanent publication gate

`domain/validation.py`. `validatePermanent` reports every failure code of a candidate in the order
of the enumeration, together with the figures it computed. The gate's floats are exact rationals
here: the only comparison the code makes with them is with one.

`validate_permanent_passed` is what the rest of the development uses of the gate: a candidate passes
exactly when no code fails.
-/

namespace AstrContinuum

/-- `PermanentFailureCode`. -/
inductive PermanentFailureCode
  | emptyCompilerOutput
  | sessionKeyMismatch
  | baseSnapshotMismatch
  | targetMismatch
  | coverageGap
  | capsuleMembershipMismatch
  | snapshotAnchorMismatch
  | invalidCapsuleCoverage
  | unsupportedActiveSemantic
  | missingPriorSemantic
  | missingRequiredAnchor
  | mechanicalNotPassed
  | sourceCoverageNotFull
  | anchorRecallNotFull
  | unsupportedCriticalClaims
  | qualityCoverageGap
  | tokenCeilingExceeded
deriving DecidableEq

/-- The codes in the order `tuple(code for code in PermanentFailureCode ...)` lists them. -/
def PermanentFailureCode.all : List PermanentFailureCode :=
  [.emptyCompilerOutput, .sessionKeyMismatch, .baseSnapshotMismatch, .targetMismatch, .coverageGap,
    .capsuleMembershipMismatch, .snapshotAnchorMismatch, .invalidCapsuleCoverage,
    .unsupportedActiveSemantic, .missingPriorSemantic, .missingRequiredAnchor,
    .mechanicalNotPassed, .sourceCoverageNotFull, .anchorRecallNotFull,
    .unsupportedCriticalClaims, .qualityCoverageGap, .tokenCeilingExceeded]

/-- Every code is listed. -/
theorem PermanentFailureCode.mem_all (code : PermanentFailureCode) : code ∈ all := by
  cases code <;> decide

/-- `PermanentValidationReport`. -/
structure PermanentValidationReport where
  passed : Bool
  failureCodes : List PermanentFailureCode
  sourceCoverage : Rat
  anchorRecall : Rat
  coverageGap : Nat
  unsupportedCriticalClaims : Nat
deriving DecidableEq

/-- `_SemanticRecord`. -/
structure SemanticRecord where
  stableId : String
  sourceEventIds : List String
  status : SemanticStatus
  supportsTransition : Bool
deriving DecidableEq

/-- The record of a claim. -/
def CapsuleClaim.semanticRecord (item : CapsuleClaim) : SemanticRecord :=
  ⟨item.claimId, item.sourceEventIds, item.status, true⟩

/-- The record of a decision. -/
def Decision.semanticRecord (item : Decision) : SemanticRecord :=
  ⟨item.decisionId, item.sourceEventIds, item.status, true⟩

/-- The record of an entity: always active, and no transition can end it. -/
def Entity.semanticRecord (item : Entity) : SemanticRecord :=
  ⟨item.entityId, item.sourceEventIds, .active, false⟩

/-- The record of a dependency: always active, and no transition can end it. -/
def Dependency.semanticRecord (item : Dependency) : SemanticRecord :=
  ⟨item.dependencyId, item.sourceEventIds, .active, false⟩

/-- The claims of a capsule, in the order of `claim_groups`. -/
def CapsuleData.claims (capsule : CapsuleData) : List CapsuleClaim :=
  capsule.goals ++ capsule.constraints ++ capsule.progress ++ capsule.openLoops ++
    capsule.preferences ++ capsule.emotionalContext

/-- The records of one capsule. -/
def CapsuleData.semanticRecords (capsule : CapsuleData) : List SemanticRecord :=
  capsule.claims.map CapsuleClaim.semanticRecord ++
    capsule.decisions.map Decision.semanticRecord ++
    capsule.entities.map Entity.semanticRecord ++
    capsule.dependencies.map Dependency.semanticRecord

/-- `_semantic_records`. -/
def semanticRecords (capsules : List ContextCapsuleEnvelope) : List SemanticRecord :=
  capsules.flatMap fun capsule => capsule.semanticRecords

/-- `_active_anchors`. -/
def activeAnchors (capsules : List ContextCapsuleEnvelope) : List CapsuleAnchor :=
  capsules.flatMap fun capsule =>
    capsule.exactAnchors.filter fun anchor => anchor.status = .active

/-- `min(values, default=0.0)`. -/
def minOrZero : List Rat → Rat
  | [] => 0
  | value :: rest => rest.foldl min value

/-- `_APPROVED_TRANSITION_STATUSES`. -/
def SemanticStatus.isApprovedTransition : SemanticStatus → Bool
  | superseded | retracted => true
  | active | uncertain => false

/-- The arguments of `validate_permanent`. -/
structure PermanentInput where
  previousSnapshot : Option SnapshotEnvelope
  previousCapsules : List ContextCapsuleEnvelope
  candidateSnapshot : SnapshotEnvelope
  candidateCapsules : List ContextCapsuleEnvelope
  sourceEvents : List EventEnvelope
  targetHighWaterMark : Nat
  tokenCeiling : Int

namespace PermanentInput

variable (input : PermanentInput)

/-- `expected_base_id`. -/
def expectedBaseId : Option String :=
  input.previousSnapshot.map fun snapshot => snapshot.snapshotId

/-- `base_coverage`. -/
def baseCoverage : Nat :=
  match input.previousSnapshot with
  | some snapshot => snapshot.coveredEventEnd
  | none => 0

/-- `expected_sequences`: the delta after the base, up to the target. -/
def expectedSequences : List Nat :=
  List.range' (input.baseCoverage + 1) (input.targetHighWaterMark - input.baseCoverage)

/-- `actual_sequences`. -/
def actualSequences : List Nat :=
  input.sourceEvents.map fun event => event.sequence

/-- `len(missing_sequences)`. -/
def missingSequenceCount : Nat :=
  (input.expectedSequences.filter fun sequence => sequence ∉ input.actualSequences).length

/-- `previous_source_ids`. -/
def previousSourceIds : List String :=
  input.previousCapsules.flatMap fun capsule => capsule.sourceEventIds

/-- `current_source_ids`. -/
def currentSourceIds : List String :=
  input.sourceEvents.map fun event => event.eventId

/-- `valid_source_ids`. -/
def validSourceIds : List String :=
  input.previousSourceIds ++ input.currentSourceIds

/-- `previous_active_semantics`. -/
def previousActiveSemantics : List SemanticRecord :=
  (semanticRecords input.previousCapsules).filter fun item => item.status = .active

/-- `candidate_active_semantics`. -/
def candidateActiveSemantics : List SemanticRecord :=
  (semanticRecords input.candidateCapsules).filter fun item => item.status = .active

/-- `previous_transitionable_ids`. -/
def previousTransitionableIds : List String :=
  (input.previousActiveSemantics.filter fun item => item.supportsTransition).map
    fun item => item.stableId

/-- `candidate_transition_records`. -/
def candidateTransitionRecords : List SemanticRecord :=
  (semanticRecords input.candidateCapsules).filter fun item =>
    item.supportsTransition && decide (item.stableId ∈ input.previousTransitionableIds) &&
      item.status.isApprovedTransition

/-- `provenance_records`, with only the sources that the gate reads of them. -/
def provenanceRecords : List (List String) :=
  (input.candidateActiveSemantics ++ input.candidateTransitionRecords).map
      (fun item => item.sourceEventIds) ++
    (activeAnchors input.candidateCapsules).map fun anchor => anchor.sourceEventIds

/-- The test that puts a record among `unsupported_records`. -/
def unsupported (sources : List String) : Bool :=
  sources.isEmpty || sources.any fun source => decide (source ∉ input.validSourceIds)

/-- `len(unsupported_records)`. -/
def unsupportedCount : Nat :=
  (input.provenanceRecords.filter input.unsupported).length

/-- `capsule_source_mismatch`. -/
def capsuleSourceMismatch : Bool :=
  input.candidateCapsules.any fun capsule =>
    capsule.sourceEventIds.any fun source => decide (source ∉ input.validSourceIds)

/-- `approved_transition_ids`. -/
def approvedTransitionIds : List String :=
  (input.candidateTransitionRecords.filter fun item =>
      item.sourceEventIds.all (fun source => decide (source ∈ input.validSourceIds)) &&
        item.sourceEventIds.any fun source => decide (source ∈ input.currentSourceIds)).map
    fun item => item.stableId

/-- `retained_semantic_ids`. -/
def retainedSemanticIds : List String :=
  input.candidateActiveSemantics.map (fun item => item.stableId) ++ input.approvedTransitionIds

/-- `preserved_anchor_count`. -/
def preservedAnchorCount : Nat :=
  ((activeAnchors input.previousCapsules).filter fun anchor =>
    decide (anchor ∈ activeAnchors input.candidateCapsules)).length

/-- `computed_anchor_recall`. -/
def computedAnchorRecall : Rat :=
  match activeAnchors input.previousCapsules with
  | [] => 1
  | anchors => (input.preservedAnchorCount : Rat) / (anchors.length : Rat)

/-- `computed_source_coverage`. -/
def computedSourceCoverage : Rat :=
  match input.provenanceRecords with
  | [] => 1
  | records =>
      ((records.length : Rat) - (input.unsupportedCount : Rat)) / (records.length : Rat)

/-- `declared_source_coverage`. -/
def declaredSourceCoverage : Rat :=
  minOrZero (input.candidateCapsules.map fun capsule => capsule.quality.sourceCoverage.val)

/-- `declared_anchor_recall`. -/
def declaredAnchorRecall : Rat :=
  minOrZero (input.candidateCapsules.map fun capsule => capsule.quality.anchorRecall.val)

/-- `declared_unsupported`. -/
def declaredUnsupported : Nat :=
  (input.candidateCapsules.map fun capsule => capsule.quality.unsupportedCriticalClaims).sum

/-- `declared_coverage_gap`. -/
def declaredCoverageGap : Nat :=
  (input.candidateCapsules.map fun capsule => capsule.quality.coverageGap).sum

/-- `source_coverage`. -/
def sourceCoverage : Rat :=
  min input.computedSourceCoverage input.declaredSourceCoverage

/-- `anchor_recall`. -/
def anchorRecall : Rat :=
  min input.computedAnchorRecall input.declaredAnchorRecall

/-- `unsupported_critical_claims`. -/
def unsupportedCriticalClaims : Nat :=
  max input.unsupportedCount input.declaredUnsupported

/-- `coverage_gap`. -/
def coverageGap : Nat :=
  max input.missingSequenceCount input.declaredCoverageGap

/-- `sum(capsule.token_cost for capsule in candidate_capsules)`. -/
def capsuleTokenCost : Nat :=
  (input.candidateCapsules.map fun capsule => capsule.tokenCost).sum

/-- The condition under which `validate_permanent` adds a code to `failures`. -/
def Fails : PermanentFailureCode → Prop
  | .emptyCompilerOutput => input.candidateCapsules = []
  | .sessionKeyMismatch =>
      (∃ capsule ∈ input.candidateCapsules,
          capsule.sessionKey ≠ input.candidateSnapshot.sessionKey) ∨
        (∃ event ∈ input.sourceEvents, event.sessionKey ≠ input.candidateSnapshot.sessionKey) ∨
        (∃ snapshot ∈ input.previousSnapshot.toList,
          snapshot.sessionKey ≠ input.candidateSnapshot.sessionKey) ∨
        (∃ capsule ∈ input.previousCapsules,
          capsule.sessionKey ≠ input.candidateSnapshot.sessionKey)
  | .baseSnapshotMismatch => input.candidateSnapshot.baseSnapshotId ≠ input.expectedBaseId
  | .targetMismatch =>
      input.candidateSnapshot.coveredEventEnd ≠ input.targetHighWaterMark ∨
        input.candidateSnapshot.sourceHighWaterMark ≠ input.targetHighWaterMark
  | .coverageGap =>
      input.targetHighWaterMark ≤ input.baseCoverage ∨
        input.actualSequences ≠ input.expectedSequences ∨ ¬ input.currentSourceIds.Nodup
  | .capsuleMembershipMismatch =>
      input.candidateSnapshot.capsuleIds ≠
        input.candidateCapsules.map fun capsule => capsule.capsuleId
  | .snapshotAnchorMismatch =>
      input.candidateSnapshot.exactAnchorIds ≠
        (activeAnchors input.candidateCapsules).map fun anchor => anchor.anchorId
  | .invalidCapsuleCoverage =>
      ∃ capsule ∈ input.candidateCapsules,
        input.targetHighWaterMark < capsule.coveredEventEnd ∨
          capsule.coveredEventEnd < capsule.coveredEventStart
  | .unsupportedActiveSemantic =>
      input.unsupportedCount ≠ 0 ∨ input.capsuleSourceMismatch = true
  | .missingPriorSemantic =>
      ∃ item ∈ input.previousActiveSemantics, item.stableId ∉ input.retainedSemanticIds
  | .missingRequiredAnchor => input.computedAnchorRecall < 1
  | .mechanicalNotPassed =>
      input.candidateSnapshot.auditOutcome.mechanicalPassed = false ∨
        ∃ capsule ∈ input.candidateCapsules, capsule.quality.mechanicalPassed = false
  | .sourceCoverageNotFull => input.sourceCoverage < 1
  | .anchorRecallNotFull => input.anchorRecall < 1
  | .unsupportedCriticalClaims => input.unsupportedCriticalClaims ≠ 0
  | .qualityCoverageGap => input.declaredCoverageGap ≠ 0
  | .tokenCeilingExceeded =>
      input.tokenCeiling < 0 ∨ input.tokenCeiling < input.candidateSnapshot.tokenCost ∨
        input.tokenCeiling < (input.capsuleTokenCost : Nat)

instance : ∀ code, Decidable (input.Fails code)
  | .emptyCompilerOutput => inferInstanceAs (Decidable (_ = _))
  | .sessionKeyMismatch => inferInstanceAs (Decidable (_ ∨ _ ∨ _ ∨ _))
  | .baseSnapshotMismatch => inferInstanceAs (Decidable (_ ≠ _))
  | .targetMismatch => inferInstanceAs (Decidable (_ ∨ _))
  | .coverageGap => inferInstanceAs (Decidable (_ ∨ _ ∨ _))
  | .capsuleMembershipMismatch => inferInstanceAs (Decidable (_ ≠ _))
  | .snapshotAnchorMismatch => inferInstanceAs (Decidable (_ ≠ _))
  | .invalidCapsuleCoverage =>
      inferInstanceAs (Decidable (∃ capsule ∈ input.candidateCapsules, _))
  | .unsupportedActiveSemantic => inferInstanceAs (Decidable (_ ∨ _))
  | .missingPriorSemantic => inferInstanceAs (Decidable (∃ item ∈ input.previousActiveSemantics, _))
  | .missingRequiredAnchor => inferInstanceAs (Decidable (_ < _))
  | .mechanicalNotPassed => inferInstanceAs (Decidable (_ ∨ _))
  | .sourceCoverageNotFull => inferInstanceAs (Decidable (_ < _))
  | .anchorRecallNotFull => inferInstanceAs (Decidable (_ < _))
  | .unsupportedCriticalClaims => inferInstanceAs (Decidable (_ ≠ _))
  | .qualityCoverageGap => inferInstanceAs (Decidable (_ ≠ _))
  | .tokenCeilingExceeded => inferInstanceAs (Decidable (_ ∨ _ ∨ _))

end PermanentInput

/-- `validate_permanent`. -/
def validatePermanent (input : PermanentInput) : PermanentValidationReport :=
  let orderedFailures := PermanentFailureCode.all.filter fun code => decide (input.Fails code)
  { passed := orderedFailures.isEmpty
    failureCodes := orderedFailures
    sourceCoverage := input.sourceCoverage
    anchorRecall := input.anchorRecall
    coverageGap := input.coverageGap
    unsupportedCriticalClaims := input.unsupportedCriticalClaims }

/-- A candidate passes exactly when no code fails. -/
theorem validate_permanent_passed {input : PermanentInput} :
    (validatePermanent input).passed = true ↔ ∀ code, ¬ input.Fails code := by
  simp only [validatePermanent, List.isEmpty_iff, List.filter_eq_nil_iff, decide_eq_true_eq]
  exact ⟨fun h code => h code code.mem_all, fun h code _ => h code⟩

end AstrContinuum
