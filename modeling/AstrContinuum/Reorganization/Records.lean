import AstrContinuum.Control.Checked
import AstrContinuum.Domain.Validation

/-!
# Reorganization records

The closed audit rows of `reorganization.py` and the quality floor that `storage/repository.py`
derives from them. The floor can only add a failure: a candidate that still passes after it has
passed the permanent gate itself.
-/

namespace AstrContinuum

open Checked

/-- `ReorganizationStatus`. -/
inductive ReorganizationStatus
  | retained
  | approximate
  | released
deriving DecidableEq

/-- `ReorganizationRecord`. -/
structure ReorganizationRecord where
  kind : String
  itemId : String
  sourceCapsuleId : String
  status : ReorganizationStatus
  beforeTokens : Int
  afterTokens : Int
  required : Bool
deriving DecidableEq

/-- `(source_capsule_id, kind, item_id)`. -/
def ReorganizationRecord.sourceItemKey (record : ReorganizationRecord) :
    String × String × String :=
  (record.sourceCapsuleId, record.kind, record.itemId)

/-- `_require_nonempty_record_identity`. -/
def requireNonemptyRecordIdentity (value fieldName : String) : Except String Unit :=
  require (stripNonEmpty value = true)
    ("reorganization record " ++ fieldName ++ " must be a non-empty string")

/-- `_require_nonnegative_record_tokens`. -/
def requireNonnegativeRecordTokens (value : Int) (fieldName : String) : Except String Unit :=
  require (0 ≤ value)
    ("reorganization record " ++ fieldName ++ " must be a non-negative integer")

/-- One iteration of `canonicalize_reorganization_records`: `seen` are the records before it. -/
def canonicalizeRecord (seen : List ReorganizationRecord) (record : ReorganizationRecord) :
    Except String (List ReorganizationRecord) := do
  requireNonemptyRecordIdentity record.kind "kind"
  requireNonemptyRecordIdentity record.itemId "item_id"
  requireNonemptyRecordIdentity record.sourceCapsuleId "source_capsule_id"
  requireNonnegativeRecordTokens record.beforeTokens "before_tokens"
  requireNonnegativeRecordTokens record.afterTokens "after_tokens"
  require (record.required = true → record.status = .retained)
    "required reorganization record must be retained"
  require (record.sourceItemKey ∉ seen.map ReorganizationRecord.sourceItemKey)
    "duplicate reorganization record source item"
  pure (seen ++ [record])

/-- `canonicalize_reorganization_records`. -/
def canonicalizeReorganizationRecords (records : List ReorganizationRecord) :
    Except String (List ReorganizationRecord) :=
  forEach canonicalizeRecord [] records

/-- `non_summary_release_count`. -/
def nonSummaryReleaseCount (records : List ReorganizationRecord) : Nat :=
  (records.filter fun record =>
    decide (record.status = .released) && decide (record.kind ≠ "narrative_summary")).length

/-- `_apply_reorganization_record_quality_floor`. -/
def applyReorganizationRecordQualityFloor (report : PermanentValidationReport)
    (records : List ReorganizationRecord) : PermanentValidationReport :=
  if nonSummaryReleaseCount records = 0 then report
  else
    { passed := false
      failureCodes := PermanentFailureCode.all.filter fun code =>
        decide (code ∈ report.failureCodes) || decide (code = .qualityCoverageGap)
      sourceCoverage := report.sourceCoverage
      anchorRecall := report.anchorRecall
      coverageGap := max report.coverageGap (nonSummaryReleaseCount records)
      unsupportedCriticalClaims := report.unsupportedCriticalClaims }

/-- A report passes the floor exactly when it passed and no source item but a summary was
released. -/
theorem quality_floor_passed {report : PermanentValidationReport}
    {records : List ReorganizationRecord} :
    (applyReorganizationRecordQualityFloor report records).passed = true ↔
      report.passed = true ∧ nonSummaryReleaseCount records = 0 := by
  unfold applyReorganizationRecordQualityFloor
  by_cases h : nonSummaryReleaseCount records = 0 <;> simp [h]

end AstrContinuum
