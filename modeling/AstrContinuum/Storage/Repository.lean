import AstrContinuum.Control.System
import AstrContinuum.Storage.Publication
import AstrContinuum.Storage.Views

/-!
# The repository as a transactional system

`SQLiteRepository` serves one transaction at a time: every write runs under `BEGIN IMMEDIATE`, and
a transaction that raises is rolled back. Any interleaving of any number of clients is therefore a
run of the system below, whose calls are the repository's operations with their arguments, the
clients' clock readings and an arbitrary fault injector.
-/

namespace AstrContinuum

open Checked Transactional

variable [Hashlib] [SecureCodec]

/-- `_MAX_METRIC_BACKFILL_BATCH`. -/
def maxMetricBackfillBatch : Nat := 1024

/-- The session that owns an artifact. -/
def artifactOwner (db : Database) (key : MetricKey) : Option String :=
  match key.artifactKind with
  | .event =>
      (db.journalEvents.find? fun row => row.eventId = key.artifactId).map
        EventRow.sessionKeyHash
  | .capsule => (db.capsuleRow key.artifactId).map CapsuleRow.sessionKeyHash
  | .snapshot => (db.snapshotRow key.artifactId).map SnapshotRow.sessionKeyHash

/-- One iteration of `write_metric_backfill_batch`. -/
def backfillMetric (faults : FaultInjector) (hash : String) (now : Timestamp) (db : Database)
    (entry : TokenMetric × Nat) : Except StorageFailure Database := do
  require (artifactOwner db entry.1.key = some hash)
    (.repositoryInvariantError "metric backfill artifact does not belong to the requested session")
  let db ← writeMetric db entry.1 now
  inject faults .backfillAfterMetric entry.2
  pure db

/-- `write_metric_backfill_batch`. -/
def writeMetricBackfillBatch (faults : FaultInjector) (db : Database) (sessionKey : SessionKey)
    (metrics : List TokenMetric) (now : Timestamp) :
    Except StorageFailure (Database × List TokenMetric) := do
  require (metrics.length ≤ maxMetricBackfillBatch)
    (.valueError "metrics exceed the bounded backfill batch limit")
  requireSessionIdentity db sessionKey
  let db ← forEach (backfillMetric faults sessionKey.sessionKeyHash now) db metrics.zipIdx
  pure (db, metrics)

/-- An operation of the repository with its arguments. -/
inductive Operation
  | captureUserEvent (request : CaptureRequest)
  | captureAssistantEvent (request : CaptureRequest)
  | captureToolEvent (eventType : EventType) (request : CaptureRequest)
  | raiseCompactionIntent (jobId : String) (sessionKey : SessionKey) (target : Nat)
      (now : Timestamp)
  | claimJob (worker : String) (now leaseExpiresAt : Timestamp)
  | transitionJob (fence : Fence) (toState : CompactionJobState)
      (candidateSnapshotId : Option String)
  | renewJobLease (fence : Fence) (leaseExpiresAt : Timestamp)
  | failJob (fence : Fence) (failure : JobFailure)
  | recoverExpiredLeases (now : Timestamp)
  | publishSnapshot (request : PublishRequest)
  | writeMetricBackfillBatch (sessionKey : SessionKey) (metrics : List TokenMetric)
      (now : Timestamp)
  | readRequestView (sessionKey : SessionKey)
  | readCompactionView (fence : Fence)

/-- A call: an operation and the faults injected into it. -/
structure Call where
  operation : Operation
  faults : FaultInjector := .none

/-- What a committed operation returns. -/
inductive Response
  | event (event : EventEnvelope)
  | job (job : Option CompactionJobEnvelope)
  | recovered (jobs : List CompactionJobEnvelope)
  | published (result : PublishResult)
  | metrics (metrics : List TokenMetric)
  | view (view : RequestView)

/-- Run one call: the database it commits and its response, or what it raises. -/
def step (db : Database) (call : Call) : Except StorageFailure (Database × Response) :=
  match call.operation with
  | .captureUserEvent request =>
      (captureUserEvent call.faults db request).map fun (db, event) => (db, .event event)
  | .captureAssistantEvent request =>
      (captureAssistantEvent call.faults db request).map fun (db, event) => (db, .event event)
  | .captureToolEvent eventType request =>
      (captureToolEvent call.faults db eventType request).map
        fun (db, event) => (db, .event event)
  | .raiseCompactionIntent jobId sessionKey target now =>
      (raiseCompactionIntent call.faults db jobId sessionKey target now).map
        fun (db, job) => (db, .job job)
  | .claimJob worker now leaseExpiresAt =>
      (claimJob call.faults db worker now leaseExpiresAt).map fun (db, job) => (db, .job job)
  | .transitionJob fence toState candidateSnapshotId =>
      (transitionJob call.faults db fence toState candidateSnapshotId).map
        fun (db, job) => (db, .job (some job))
  | .renewJobLease fence leaseExpiresAt =>
      (renewJobLease call.faults db fence leaseExpiresAt).map
        fun (db, job) => (db, .job (some job))
  | .failJob fence failure =>
      (failJob call.faults db fence failure).map fun (db, job) => (db, .job (some job))
  | .recoverExpiredLeases now =>
      (recoverExpiredLeases call.faults db now).map fun (db, jobs) => (db, .recovered jobs)
  | .publishSnapshot request =>
      (publishSnapshot call.faults db request).map fun (db, result) => (db, .published result)
  | .writeMetricBackfillBatch sessionKey metrics now =>
      (writeMetricBackfillBatch call.faults db sessionKey metrics now).map
        fun (db, metrics) => (db, .metrics metrics)
  | .readRequestView sessionKey =>
      (readRequestView call.faults db sessionKey).map fun view => (db, .view view)
  | .readCompactionView fence =>
      (readCompactionView db fence).map fun view => (db, .view view)

/-- The repository, started on a freshly migrated database. -/
def repository : System Database Call Response StorageFailure where
  initial := .empty
  step := step

end AstrContinuum
