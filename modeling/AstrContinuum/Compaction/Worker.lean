import AstrContinuum.Compaction.Auditor
import AstrContinuum.Compaction.Rendering
import AstrContinuum.Storage.Publication
import AstrContinuum.Storage.Views

/-!
# The compaction worker

The steps of `_RuntimeCompactionWorker.run_iteration` between the view of a claim and its
publication, in `compaction/worker.py`: what the worker compiles, what it counts and what it hands
to `publish_snapshot`. `candidateCanonicalMetrics_ok` says that the metrics are the counter's counts
of exactly the artifacts of the candidate.
-/

namespace AstrContinuum

open Checked

/-- `_count_canonical`. -/
def countCanonical (counter : Option PlainCounter) (text : String) :
    Except CompilerFailure Nat := do
  let counter ← orMissing counter (.backendDeferred "TOKEN_METRIC_UNAVAILABLE")
  let count ← orMissing (counter text) (.backendDeferred "TOKEN_METRIC_UNAVAILABLE")
  require (0 ≤ count) (.backendDeferred "TOKEN_METRIC_UNAVAILABLE")
  pure count.toNat

/-- `TokenMetric(...)`. -/
def TokenMetric.create (key : MetricKey) (tokenCount : Nat) : Except CompilerFailure TokenMetric :=
  if hartifact : stripNonEmpty key.artifactId = true then
    if hprofile : stripNonEmpty key.tokenizerProfileId = true then
      .ok ⟨key, tokenCount, hartifact, hprofile⟩
    else .error (.valueError "tokenizer_profile_id must be non-empty")
  else .error (.valueError "artifact_id must be non-empty")

/-- The metric of one artifact: its text, counted under the canonical profile. -/
def canonicalMetric (counter : Option PlainCounter) (key : MetricKey) (text : String) :
    Except CompilerFailure TokenMetric := do
  let tokenCount ← countCanonical counter text
  TokenMetric.create key tokenCount

/-- `_candidate_canonical_metrics`. -/
def candidateCanonicalMetrics (counter : Option PlainCounter) (profileId : String)
    (candidate : AuditedCandidate) : Except CompilerFailure (List TokenMetric) := do
  let capsules ← candidate.memberships.mapM fun membership =>
    canonicalMetric counter ⟨.capsule, membership.capsuleId, profileId⟩
      (renderCapsule membership.capsule)
  let snapshot ← canonicalMetric counter ⟨.snapshot, candidate.snapshot.snapshotId, profileId⟩
    candidate.snapshot.renderedContext
  pure (capsules ++ [snapshot])

/-- The arguments that the worker hands to `compile_candidate`: the view of its claim, and the target
of the envelope that its transition to `COMPILING` returned. -/
def RequestView.compilationInput (view : RequestView) (compiling : CompactionJobEnvelope)
    (eventTokenCounts : EventTokenCounts) (tokenCeiling : Int) (now : Timestamp)
    (segmenterConfig : SegmenterConfig) : CompilationInput where
  baseSnapshot := view.snapshot
  baseCapsules := view.capsules
  sourceEvents := view.delta
  eventTokenCounts := eventTokenCounts
  targetHighWaterMark := compiling.targetHighWaterMark
  tokenCeiling := tokenCeiling
  now := now
  segmenterConfig := segmenterConfig

/-- The arguments that the worker hands to `publish_snapshot` for an audited candidate. -/
def AuditedCandidate.publishRequest (candidate : AuditedCandidate) (fence : Fence)
    (canonicalMetrics : List TokenMetric) (tokenCeiling : Int) : PublishRequest where
  fence := fence
  candidateSnapshot := candidate.snapshot
  memberships := candidate.memberships
  canonicalMetrics := some canonicalMetrics
  tokenCeiling := tokenCeiling

/-! ## The metrics of a candidate -/

/-- A metric is the count of its text under its key. -/
def Counted (counter : Option PlainCounter) (key : MetricKey) (text : String)
    (metric : TokenMetric) : Prop :=
  metric.key = key ∧ countCanonical counter text = .ok metric.tokenCount

/-- Every metric that the worker makes counts its text. -/
theorem canonicalMetric_ok {counter : Option PlainCounter} {key : MetricKey} {text : String}
    {metric : TokenMetric} (h : canonicalMetric counter key text = .ok metric) :
    Counted counter key text metric := by
  obtain ⟨tokenCount, hcount, h⟩ := bind_ok.mp h
  unfold TokenMetric.create at h
  split_ifs at h
  cases h
  exact ⟨rfl, hcount⟩

/-- The metrics of a candidate count its capsules in order, and then its snapshot. -/
theorem candidateCanonicalMetrics_ok {counter : Option PlainCounter} {profileId : String}
    {candidate : AuditedCandidate} {metrics : List TokenMetric}
    (h : candidateCanonicalMetrics counter profileId candidate = .ok metrics) :
    ∃ capsules snapshot, metrics = capsules ++ [snapshot] ∧
      List.Forall₂ (fun (membership : SnapshotCapsuleMembership) metric =>
        Counted counter ⟨.capsule, membership.capsuleId, profileId⟩
          (renderCapsule membership.capsule) metric) candidate.memberships capsules ∧
      Counted counter ⟨.snapshot, candidate.snapshot.snapshotId, profileId⟩
        candidate.snapshot.renderedContext snapshot := by
  obtain ⟨capsules, hcapsules, h⟩ := bind_ok.mp h
  obtain ⟨snapshot, hsnapshot, h⟩ := bind_ok.mp h
  refine ⟨capsules, snapshot, (pure_ok.mp h).symm, ?_, canonicalMetric_ok hsnapshot⟩
  exact (mapM_ok.mp hcapsules).imp fun _ _ hmetric => canonicalMetric_ok hmetric

/-- The metrics of a candidate have its artifacts as keys, under one profile. -/
theorem candidateCanonicalMetrics_keys {counter : Option PlainCounter} {profileId : String}
    {candidate : AuditedCandidate} {metrics : List TokenMetric}
    (h : candidateCanonicalMetrics counter profileId candidate = .ok metrics) :
    metrics.map TokenMetric.key =
      (expectedArtifacts candidate.snapshot candidate.memberships).map
        fun artifact => ⟨artifact.1, artifact.2, profileId⟩ := by
  obtain ⟨capsules, snapshot, rfl, hcapsules, hsnapshot⟩ := candidateCanonicalMetrics_ok h
  have hkeys : capsules.map TokenMetric.key = candidate.memberships.map
      fun membership => ⟨.capsule, membership.capsuleId, profileId⟩ := by
    rw [← List.forall₂_eq_eq_eq, List.forall₂_map_left_iff, List.forall₂_map_right_iff]
    exact hcapsules.flip.imp fun _ _ hmetric => hmetric.1
  simp [expectedArtifacts, hkeys, hsnapshot.1]

end AstrContinuum
