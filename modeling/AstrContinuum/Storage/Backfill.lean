import AstrContinuum.Compaction.Rendering
import AstrContinuum.Storage.Repository

/-!
# Metric backfill

`read_metric_backfill_batch` and the worker's use of it. The artifacts of a session without a metric
are ordered by kind, events first, and the first `limit` of them are read with their texts.
`backfillMetrics` is `_backfill_metrics`: read one batch, count its texts, write the counts.
-/

namespace AstrContinuum

open Checked Relational

/-- A row of the common table expression `missing`. -/
structure MissingRow where
  kindRank : Nat
  sortMajor : Nat
  sortMinor : Nat
  artifactKind : ArtifactKind
  artifactId : String
deriving DecidableEq

namespace MissingRow

/-- `ORDER BY kind_rank, sort_major, sort_minor, artifact_id`. -/
def sortKey (row : MissingRow) : Nat ×ₗ Nat ×ₗ Nat ×ₗ String :=
  toLex (row.kindRank, toLex (row.sortMajor, toLex (row.sortMinor, row.artifactId)))

/-- The metric key of a missing row. -/
def key (row : MissingRow) (profileId : String) : MetricKey :=
  ⟨row.artifactKind, row.artifactId, profileId⟩

/-- The row of an event. -/
def ofEvent (row : EventRow) : MissingRow :=
  ⟨0, row.sequence, 0, .event, row.eventId⟩

/-- The row of a capsule. -/
def ofCapsule (row : CapsuleRow) : MissingRow :=
  ⟨1, row.coveredEventEnd, row.coveredEventStart, .capsule, row.capsuleId⟩

/-- The row of a snapshot. -/
def ofSnapshot (row : SnapshotRow) : MissingRow :=
  ⟨2, row.coveredEventEnd, row.sourceHighWaterMark, .snapshot, row.snapshotId⟩

end MissingRow

/-- The artifacts of a session, as rows of `missing`. -/
def Database.artifacts (db : Database) (hash : String) : List MissingRow :=
  (db.journalEvents.filter fun row => row.sessionKeyHash = hash).map MissingRow.ofEvent ++
    (db.capsules.filter fun row => row.sessionKeyHash = hash).map MissingRow.ofCapsule ++
    (db.snapshots.filter fun row => row.sessionKeyHash = hash).map MissingRow.ofSnapshot

/-- `missing`: the artifacts of a session without a metric under the profile. -/
def missingMetrics (db : Database) (hash profileId : String) : List MissingRow :=
  (db.artifacts hash).filter fun row => (db.metricRow (row.key profileId)).isNone

/-- `MetricBackfillArtifact`. -/
structure MetricBackfillArtifact where
  artifactKind : ArtifactKind
  artifactId : String
  tokenizerProfileId : String
  sortKey : Nat ×ₗ Nat ×ₗ Nat ×ₗ String
  text : String

variable [Hashlib]

/-- `_capsule_from_row`. -/
def capsuleFromRow (row : CapsuleRow) (sessionKey : SessionKey) :
    Except StorageFailure ContextCapsuleEnvelope := do
  require (row.RoundTrips sessionKey)
    (.repositoryInvariantError "durable Capsule row is not canonical")
  pure row.canonicalCapsule

/-- The text of an artifact, as `_metric_backfill_artifact` reads it. -/
def artifactText (db : Database) (sessionKey : SessionKey) (row : MissingRow) :
    Except StorageFailure String :=
  match row.artifactKind with
  | .event => do
      let event ← orMissing
        (db.journalEvents.find? fun event => decide (event.eventId = row.artifactId) &&
          decide (event.sessionKeyHash = sessionKey.sessionKeyHash))
        (.repositoryInvariantError "metric backfill Event disappeared")
      let envelope ← eventFromRow sessionKey event
      pure envelope.content
  | .capsule => do
      let capsule ← orMissing
        (db.capsules.find? fun capsule => decide (capsule.capsuleId = row.artifactId) &&
          decide (capsule.sessionKeyHash = sessionKey.sessionKeyHash))
        (.repositoryInvariantError "metric backfill Capsule disappeared")
      let envelope ← capsuleFromRow capsule sessionKey
      pure (renderCapsule envelope)
  | .snapshot => do
      let (snapshot, _) ← snapshotBundleById db row.artifactId sessionKey
      pure snapshot.renderedContext

/-- `_metric_backfill_artifact`. -/
def metricBackfillArtifact (db : Database) (sessionKey : SessionKey) (profileId : String)
    (row : MissingRow) : Except StorageFailure MetricBackfillArtifact := do
  let text ← artifactText db sessionKey row
  pure ⟨row.artifactKind, row.artifactId, profileId, row.sortKey, text⟩

/-- `read_metric_backfill_batch`. -/
def readMetricBackfillBatch (db : Database) (sessionKey : SessionKey) (profileId : String)
    (limit : Int) : Except StorageFailure (List MetricBackfillArtifact) := do
  require (stripNonEmpty profileId = true) (.valueError "profile_id must be non-empty")
  require (1 ≤ limit ∧ limit ≤ maxMetricBackfillBatch)
    (.valueError "limit must be a bounded positive integer")
  requireSessionIdentity db sessionKey
  ((orderBy MissingRow.sortKey
    (missingMetrics db sessionKey.sessionKeyHash profileId)).take limit.toNat).mapM
      (metricBackfillArtifact db sessionKey profileId)

/-- `TokenMetric(...)` of a counted artifact. -/
def countedMetric (count : String → Nat) (artifact : MetricBackfillArtifact) :
    Except StorageFailure TokenMetric :=
  if hid : stripNonEmpty artifact.artifactId = true then
    if hprofile : stripNonEmpty artifact.tokenizerProfileId = true then
      .ok ⟨⟨artifact.artifactKind, artifact.artifactId, artifact.tokenizerProfileId⟩,
        count artifact.text, ⟨hid, hprofile⟩⟩
    else .error (.valueError "tokenizer_profile_id must be non-empty")
  else .error (.valueError "artifact_id must be non-empty")

variable [SecureCodec]

/-- One round of backfilling: the time of the write, the calls that other clients make between the
read and the write, and those they make before the next round. -/
structure BackfillRound where
  now : Timestamp
  between : List Call
  after : List Call

/-- `_backfill_metrics` with the canonical counter `count`: a batch is read and counted, and the
counts are written unless the batch is empty. -/
def backfillMetrics (count : String → Nat) (sessionKey : SessionKey) (profileId : String)
    (limit : Int) (db : Database) (round : BackfillRound) : Except StorageFailure Database := do
  let batch ← readMetricBackfillBatch db sessionKey profileId limit
  let metrics ← batch.mapM (countedMetric count)
  let db := round.between.foldl repository.next db
  if metrics = [] then pure (round.after.foldl repository.next db)
  else do
    let (db, _) ← writeMetricBackfillBatch .none db sessionKey metrics round.now
    pure (round.after.foldl repository.next db)

end AstrContinuum
