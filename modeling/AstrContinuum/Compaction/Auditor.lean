import AstrContinuum.Compaction.Compiler

/-!
# The semantic audit

`compaction/auditor.py`. A compiled candidate is eligible for the audit when its gate report is
clean; in strict mode a backend then judges it, and its verdict is recorded in the candidate.
`auditSemantic_ok` says that the audit changes nothing but this record.
-/

namespace AstrContinuum

open Checked

/-- `SemanticAuditReport`. -/
structure SemanticAuditReport where
  passed : Bool
  failureCodes : List String
deriving DecidableEq

/-- `SemanticAuditRequest`. -/
structure SemanticAuditRequest where
  snapshot : SnapshotEnvelope
  capsules : List ContextCapsuleEnvelope
  segments : List EventSegment
  permanentReport : PermanentValidationReport

/-- `SemanticAuditBackend`: a report, or an exception. -/
abbrev SemanticAuditBackend := SemanticAuditRequest → Option SemanticAuditReport

/-- `AuditedCandidate`. -/
structure AuditedCandidate where
  snapshot : SnapshotEnvelope
  memberships : List SnapshotCapsuleMembership
  segments : List EventSegment
  permanentReport : PermanentValidationReport
  semanticReport : Option SemanticAuditReport
deriving DecidableEq

/-- `SemanticAuditErrorCode`, with the candidate that a rejection carries. -/
inductive SemanticAuditFailure
  | mechanicalInvalid
  | backendRequired
  | backendFailure
  | backendOutputInvalid
  | semanticRejected (failedCandidate : AuditedCandidate)
deriving DecidableEq

/-- `_is_mechanically_eligible`. -/
def CompilationCandidate.MechanicallyEligible (candidate : CompilationCandidate) : Prop :=
  (candidate.permanentReport.passed = true ∧ candidate.permanentReport.failureCodes = [] ∧
      candidate.permanentReport.sourceCoverage = 1 ∧ candidate.permanentReport.anchorRecall = 1 ∧
      candidate.permanentReport.coverageGap = 0 ∧
      candidate.permanentReport.unsupportedCriticalClaims = 0) ∧
    candidate.snapshot.state = .candidate ∧
    candidate.snapshot.auditOutcome.mechanicalPassed = true ∧
    candidate.snapshot.auditOutcome.semanticStatus = .notRun ∧
    candidate.snapshot.auditOutcome.failureCodes = []

instance (candidate : CompilationCandidate) : Decidable candidate.MechanicallyEligible :=
  inferInstanceAs (Decidable (_ ∧ _))

/-- `_FAILURE_CODE_PATTERN.fullmatch(code)`. -/
def isFailureCode (code : String) : Bool :=
  match code.toList with
  | [] => false
  | first :: rest =>
      decide ('A' ≤ first ∧ first ≤ 'Z') && decide (rest.length ≤ 63) &&
        rest.all fun c => decide (('A' ≤ c ∧ c ≤ 'Z') ∨ ('0' ≤ c ∧ c ≤ '9') ∨ c = '_')

/-- `_is_valid_backend_report`. -/
def SemanticAuditReport.Valid (report : SemanticAuditReport) : Prop :=
  report.failureCodes.length ≤ 32 ∧ (report.passed = report.failureCodes.isEmpty) ∧
    report.failureCodes.Nodup ∧ ∀ code ∈ report.failureCodes, isFailureCode code = true

instance SemanticAuditReport.decidableValid (report : SemanticAuditReport) :
    Decidable report.Valid :=
  inferInstanceAs (Decidable (_ ∧ _))

/-- The codes of a valid report make an audit outcome. -/
theorem SemanticAuditReport.Valid.outcome {report : SemanticAuditReport} (h : report.Valid) :
    "" ∉ report.failureCodes ∧ report.failureCodes.Nodup := by
  obtain ⟨-, -, hdistinct, hcodes⟩ := h
  exact ⟨fun hmem => absurd (hcodes "" hmem) (by decide), hdistinct⟩

/-- `_snapshot_with_semantic_result`. The copy is not validated again; a snapshot that is still a
candidate may record any outcome. -/
def SnapshotEnvelope.withSemanticResult (snapshot : SnapshotEnvelope)
    (outcome : SnapshotAuditOutcome) (hstate : snapshot.state = .candidate) :
    SnapshotEnvelope where
  toSnapshotData := { snapshot.toSnapshotData with auditOutcome := outcome }
  valid := by
    obtain ⟨hids, hpositive, hcapsules, hanchors, -, hcandidate⟩ := snapshot.valid
    exact ⟨hids, hpositive, hcapsules, hanchors,
      fun hcommitted => absurd (hstate.symm.trans hcommitted) (by decide), hcandidate⟩

/-- `_build_audited_candidate`. -/
def CompilationCandidate.audited (candidate : CompilationCandidate) (snapshot : SnapshotEnvelope)
    (semanticReport : Option SemanticAuditReport) : AuditedCandidate :=
  ⟨snapshot, candidate.memberships, candidate.segments, candidate.permanentReport, semanticReport⟩

/-- The strict audit of an eligible candidate by a backend. -/
def auditByBackend (backend : SemanticAuditBackend) (candidate : CompilationCandidate)
    (hstate : candidate.snapshot.state = .candidate) :
    Except SemanticAuditFailure AuditedCandidate :=
  match backend ⟨candidate.snapshot,
      candidate.memberships.map SnapshotCapsuleMembership.capsule, candidate.segments,
      candidate.permanentReport⟩ with
  | none => .error .backendFailure
  | some report =>
      if hvalid : report.Valid then
        if report.passed then
          .ok (candidate.audited (candidate.snapshot.withSemanticResult
            ⟨true, .passed, [], SnapshotAuditOutcome.noFailure⟩ hstate) (some report))
        else
          .error (.semanticRejected (candidate.audited (candidate.snapshot.withSemanticResult
            ⟨true, .failed, report.failureCodes, hvalid.outcome⟩ hstate) (some report)))
      else .error .backendOutputInvalid

/-- `audit_semantic`. -/
def auditSemantic (candidate : CompilationCandidate) (strictAudit : Bool)
    (backend : Option SemanticAuditBackend) : Except SemanticAuditFailure AuditedCandidate :=
  if heligible : candidate.MechanicallyEligible then
    if strictAudit then
      match backend with
      | none => .error .backendRequired
      | some backend => auditByBackend backend candidate heligible.2.1
    else .ok (candidate.audited candidate.snapshot none)
  else .error .mechanicalInvalid

/-- An audit that passed a candidate kept its memberships and all of its snapshot but the outcome,
which is clean. -/
structure Audited (candidate : CompilationCandidate) (audited : AuditedCandidate) : Prop where
  memberships : audited.memberships = candidate.memberships
  snapshot : audited.snapshot.toSnapshotData = { candidate.snapshot.toSnapshotData with
    auditOutcome := audited.snapshot.auditOutcome }
  mechanical : audited.snapshot.auditOutcome.mechanicalPassed = true
  semantic : audited.snapshot.auditOutcome.semanticStatus ≠ .failed
  codes : audited.snapshot.auditOutcome.failureCodes = []

/-- The strict audit returns only candidates that the backend passed. -/
theorem auditByBackend_ok {backend : SemanticAuditBackend} {candidate : CompilationCandidate}
    {hstate : candidate.snapshot.state = .candidate} {audited : AuditedCandidate}
    (h : auditByBackend backend candidate hstate = .ok audited) : Audited candidate audited := by
  unfold auditByBackend at h
  split at h
  · cases h
  · split_ifs at h
    cases h
    exact ⟨rfl, rfl, rfl, nofun, rfl⟩

/-- Every candidate that `audit_semantic` returns is audited in this sense. -/
theorem auditSemantic_ok {candidate : CompilationCandidate} {strictAudit : Bool}
    {backend : Option SemanticAuditBackend} {audited : AuditedCandidate}
    (h : auditSemantic candidate strictAudit backend = .ok audited) :
    Audited candidate audited := by
  unfold auditSemantic at h
  split_ifs at h with heligible hstrict
  · cases backend with
    | none => cases h
    | some backend => exact auditByBackend_ok h
  · cases h
    obtain ⟨-, -, hmechanical, hsemantic, hcodes⟩ := heligible
    refine ⟨rfl, rfl, hmechanical, ?_, hcodes⟩
    show candidate.snapshot.auditOutcome.semanticStatus ≠ .failed
    rw [hsemantic]
    exact nofun

end AstrContinuum
