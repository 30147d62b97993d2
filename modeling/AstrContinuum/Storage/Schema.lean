import Mathlib.Tactic.MkIffOfInductiveProp
import AstrContinuum.Control.Checked
import AstrContinuum.Domain.Jobs
import AstrContinuum.Relational.Table
import AstrContinuum.Reorganization.Records

/-!
# The durable schema

The tables of `storage/migrations.py` in the secure format, with their `CHECK`, key and foreign-key
constraints. A protected cell holds its plaintext: the codec is authenticated encryption, so what a
row decrypts to is what was encrypted into it. What the codec may refuse, given the column and the record
key of a cell, is `SecureCodec.encrypts`.

A `Database` carries its consistency, so a table that violates a constraint cannot be built.
`Database.execute` is the effect of one SQL statement: it raises `IntegrityError` exactly when the
tables it would leave violate a constraint.
-/

namespace AstrContinuum

open Checked Relational

/-! ## Failures -/

/-- The boundaries at which a fault injector is called. -/
inductive Boundary
  | captureAfterSession
  | captureAfterAllocate
  | captureBeforeInsert
  | captureAfterInsert
  | captureAfterMetric
  | readAfterHighWater
  | readAfterPointer
  | intentAfterFold
  | intentAfterInsert
  | claimAfterUpdate
  | transitionAfterUpdate
  | leaseAfterRenew
  | failureAfterUpdate
  | recoveryAfterUpdate
  | publishBeforeSavepoint
  | publishAfterCapsule
  | publishAfterSnapshot
  | publishAfterMembership
  | publishAfterLedger
  | publishAfterMetric
  | publishAfterPointer
  | publishAfterTerminal
  | publishAfterFollowUp
  | backfillAfterMetric
deriving DecidableEq

/-- What a repository transaction raises. -/
inductive StorageFailure
  | valueError (message : String)
  | validationError
  | repositoryConflict (message : String)
  | sessionIdentityConflict (message : String)
  | idempotencyConflict (message : String)
  | eventIdentityConflict (message : String)
  | repositoryInvariantError (message : String)
  | jobTransitionError (message : String)
  | staleLeaseError (message : String)
  | publicationRejected (report : PermanentValidationReport)
  | tokenMetricConflict
  | storageSecurityError
  | integrityError
  | overflowError
  | injectedFault (boundary : Boundary)
  | endlessLoop
deriving DecidableEq

/-- A fault injector: whether it raises at the given call of a boundary within one transaction. -/
abbrev FaultInjector := Boundary → Nat → Bool

/-- No fault is injected. -/
def FaultInjector.none : FaultInjector := fun _ _ => false

/-- `_inject`. -/
def inject (faults : FaultInjector) (boundary : Boundary) (call : Nat := 0) :
    Except StorageFailure Unit :=
  require (faults boundary call = false) (.injectedFault boundary)

/-- A boundary is passed exactly when no fault is injected there. -/
@[simp] theorem inject_ok {faults : FaultInjector} {boundary : Boundary} {call : Nat} {u : Unit} :
    inject faults boundary call = .ok u ↔ faults boundary call = false := by
  simp [inject]

/-! ## Protected cells -/

/-- What a write hands to the codec. -/
inductive Plaintext
  | text (value : String)
  | integer (value : Nat)
  | sessionKey (key : SessionKey)
  | capsule (capsule : ContextCapsuleEnvelope)
  | anchorIds (ids : List String)
  | auditOutcome (outcome : SnapshotAuditOutcome)
  | metric (tokenCount : Nat)

/-- A protected cell: its column, the key of its record, and what it says. -/
structure ProtectedCell where
  table : String
  column : String
  recordKey : String
  plaintext : Plaintext

/-- `SecureCodec`: which cells fit its limits. The table, the column and the record key are authenticated
with the plaintext and have limits of their own. -/
class SecureCodec where
  encrypts (table column recordKey : String) (plaintext : Plaintext) : Bool

/-- The codec takes a cell. -/
def ProtectedCell.fits [SecureCodec] (cell : ProtectedCell) : Bool :=
  SecureCodec.encrypts cell.table cell.column cell.recordKey cell.plaintext

/-- Encrypt the protected cells of one row, in order. -/
def encryptCells [SecureCodec] (cells : List ProtectedCell) : Except StorageFailure Unit :=
  require (∀ cell ∈ cells, cell.fits = true) .storageSecurityError

/-- The cells are encrypted exactly when the codec takes each of them. -/
@[simp] theorem encryptCells_ok [SecureCodec] {cells : List ProtectedCell} {u : Unit} :
    encryptCells cells = .ok u ↔ ∀ cell ∈ cells, cell.fits = true := by
  simp [encryptCells]

/-! ## Rows -/

/-- `ArtifactKind`. -/
inductive ArtifactKind
  | event
  | capsule
  | snapshot
deriving DecidableEq

/-- A row of `sessions`. -/
structure SessionRow where
  sessionKeyHash : String
  sessionKey : SessionKey
  nextEventSequence : Nat
  createdAt : Timestamp
  updatedAt : Timestamp
deriving DecidableEq

/-- A row of `journal_events`. -/
structure EventRow where
  eventId : String
  sessionKeyHash : String
  sequence : Nat
  eventType : EventType
  role : EventRole
  content : String
  sourceHook : SourceHook
  idempotencyKey : String
  tokenCount : Nat
  createdAt : Timestamp
deriving DecidableEq

/-- A row of `capsules`. -/
structure CapsuleRow where
  capsuleId : String
  sessionKeyHash : String
  level : CapsuleLevel
  coveredEventStart : Nat
  coveredEventEnd : Nat
  canonicalCapsule : ContextCapsuleEnvelope
  tokenCost : Nat
  sourceCoverage : UnitFloat
  createdAt : Timestamp
deriving DecidableEq

/-- A row of `snapshots`. -/
structure SnapshotRow where
  snapshotId : String
  sessionKeyHash : String
  baseSnapshotId : Option String
  coveredEventEnd : Nat
  sourceHighWaterMark : Nat
  exactAnchorIds : List String
  renderedContext : String
  tokenCost : Nat
  auditOutcome : SnapshotAuditOutcome
  lifecycleState : SnapshotState
  createdAt : Timestamp
  committedAt : Timestamp
deriving DecidableEq

/-- A row of `snapshot_capsules`. -/
structure MembershipRow where
  snapshotId : String
  ordinal : Nat
  capsuleId : String
  slot : String
deriving DecidableEq

/-- A row of `active_snapshots`. -/
structure ActiveRow where
  sessionKeyHash : String
  snapshotId : String
  pointerVersion : Nat
  updatedAt : Timestamp
deriving DecidableEq

/-- A row of `compaction_jobs`. -/
structure JobRow where
  jobId : String
  sessionKeyHash : String
  state : CompactionJobState
  targetHighWaterMark : Nat
  intentTargetHighWaterMark : Nat
  baseSnapshotId : Option String
  basePointerVersion : Nat
  candidateSnapshotId : Option String
  leaseOwner : Option String
  leaseEpoch : Nat
  leaseExpiresAt : Option Timestamp
  attemptCount : Nat
  nextRetryAt : Option Timestamp
  errorStage : Option String
  errorCode : Option String
  errorMessage : Option String
  createdAt : Timestamp
  updatedAt : Timestamp
  committedAt : Option Timestamp
deriving DecidableEq

/-- A row of `snapshot_reorganization_records`. -/
structure LedgerRow where
  snapshotId : String
  ordinal : Nat
  sourceCapsuleId : String
  kind : String
  itemId : String
  status : ReorganizationStatus
  beforeTokens : Int
  afterTokens : Int
  required : Bool
deriving DecidableEq

/-- `(artifact_kind, artifact_id, tokenizer_profile_id)`. -/
structure MetricKey where
  artifactKind : ArtifactKind
  artifactId : String
  tokenizerProfileId : String
deriving DecidableEq

/-- A row of `token_metrics`. -/
structure MetricRow where
  key : MetricKey
  tokenCount : Nat
  createdAt : Timestamp
deriving DecidableEq

/-- A row of `token_metric_backfill_intents`. -/
structure BackfillRow where
  sessionKeyHash : String
  key : MetricKey
  createdAt : Timestamp
deriving DecidableEq

/-! ## Row constraints -/

/-- The `CHECK` of `session_key_hash`: 64 lowercase hexadecimal digits. -/
def isSha256Hexdigest (hash : String) : Bool :=
  decide (hash.toList.length = 64) &&
    hash.toList.all fun c => ('0' ≤ c && c ≤ '9') || ('a' ≤ c && c ≤ 'f')

/-- The `CHECK`s of `journal_events`. -/
def EventRow.Check (row : EventRow) : Prop :=
  trimNonEmpty row.eventId = true ∧ 1 ≤ row.sequence ∧ trimNonEmpty row.idempotencyKey = true ∧
    (row.role, row.sourceHook) = row.eventType.mapping

/-- The `CHECK`s of `capsules`. -/
def CapsuleRow.Check (row : CapsuleRow) : Prop :=
  trimNonEmpty row.capsuleId = true ∧ 1 ≤ row.coveredEventStart ∧
    row.coveredEventStart ≤ row.coveredEventEnd

/-- The `CHECK`s of `snapshots`. -/
def SnapshotRow.Check (row : SnapshotRow) : Prop :=
  trimNonEmpty row.snapshotId = true ∧ trimNonEmptyOrNull row.baseSnapshotId = true ∧
    1 ≤ row.coveredEventEnd ∧ row.coveredEventEnd ≤ row.sourceHighWaterMark ∧
    row.lifecycleState = .committed

/-- The `CHECK`s of `compaction_jobs`. -/
@[mk_iff]
structure JobRow.Check (row : JobRow) : Prop where
  jobId : trimNonEmpty row.jobId = true
  target : 1 ≤ row.targetHighWaterMark
  intent : row.targetHighWaterMark ≤ row.intentTargetHighWaterMark
  texts : trimNonEmptyOrNull row.baseSnapshotId = true ∧
    trimNonEmptyOrNull row.candidateSnapshotId = true ∧
    trimNonEmptyOrNull row.leaseOwner = true ∧ trimNonEmptyOrNull row.errorStage = true ∧
    trimNonEmptyOrNull row.errorCode = true ∧ trimNonEmptyOrNull row.errorMessage = true
  base : (row.baseSnapshotId = none ∧ row.basePointerVersion = 0) ∨
    (row.baseSnapshotId ≠ none ∧ 1 ≤ row.basePointerVersion)
  lease : (row.state.isWorking = true ∧ row.leaseOwner ≠ none ∧ 1 ≤ row.leaseEpoch ∧
      row.leaseExpiresAt ≠ none) ∨
    (row.state.isWorking = false ∧ row.leaseOwner = none ∧ row.leaseExpiresAt = none)
  candidate : (row.state.isCandidate = true ∧ row.candidateSnapshotId ≠ none) ∨
    (row.state.isCandidate = false ∧ row.candidateSnapshotId = none)
  errorTuple : ErrorTuple row.errorStage row.errorCode row.errorMessage
  failed : (row.state ≠ .retryWait ∧ row.state ≠ .failed) ∨
    (row.errorStage ≠ none ∧ row.errorCode ≠ none ∧ row.errorMessage ≠ none)
  retry : (row.state = .retryWait ∧ row.nextRetryAt ≠ none) ∨
    (row.state ≠ .retryWait ∧ row.nextRetryAt = none)
  committed : (row.state = .committed ∧ row.committedAt ≠ none) ∨
    (row.state ≠ .committed ∧ row.committedAt = none)

/-- The `CHECK`s of `snapshot_reorganization_records`. -/
def LedgerRow.Check (row : LedgerRow) : Prop :=
  trimNonEmpty row.snapshotId = true ∧ trimNonEmpty row.sourceCapsuleId = true ∧
    trimNonEmpty row.kind = true ∧ trimNonEmpty row.itemId = true ∧ 0 ≤ row.beforeTokens ∧
    0 ≤ row.afterTokens

/-- The `CHECK`s of a metric key. -/
def MetricKey.Check (key : MetricKey) : Prop :=
  trimNonEmpty key.artifactId = true ∧ trimNonEmpty key.tokenizerProfileId = true

instance (row : EventRow) : Decidable row.Check := inferInstanceAs (Decidable (_ ∧ _))
instance (row : CapsuleRow) : Decidable row.Check := inferInstanceAs (Decidable (_ ∧ _))
instance (row : SnapshotRow) : Decidable row.Check := inferInstanceAs (Decidable (_ ∧ _))
instance (row : JobRow) : Decidable row.Check := decidable_of_iff _ (JobRow.check_iff row).symm
instance (row : LedgerRow) : Decidable row.Check := inferInstanceAs (Decidable (_ ∧ _))
instance (key : MetricKey) : Decidable key.Check := inferInstanceAs (Decidable (_ ∧ _))

/-! ## Table constraints -/

/-- The constraints of `sessions`. -/
@[mk_iff]
structure SessionsTable (rows : List SessionRow) : Prop where
  hash : ∀ row ∈ rows, isSha256Hexdigest row.sessionKeyHash = true
  next : ∀ row ∈ rows, 1 ≤ row.nextEventSequence
  primaryKey : UniqueKey SessionRow.sessionKeyHash rows

/-- The constraints of `journal_events`. -/
@[mk_iff]
structure JournalEventsTable (sessionKeys : List String) (rows : List EventRow) : Prop where
  check : ∀ row ∈ rows, row.Check
  primaryKey : UniqueKey EventRow.eventId rows
  sequence : UniqueKey (fun row => (row.sessionKeyHash, row.sequence)) rows
  idempotency : UniqueKey (fun row => (row.sessionKeyHash, row.sourceHook, row.idempotencyKey)) rows
  session : References (fun row => some row.sessionKeyHash) rows sessionKeys

/-- The constraints of `capsules`. -/
@[mk_iff]
structure CapsulesTable (sessionKeys : List String) (rows : List CapsuleRow) : Prop where
  check : ∀ row ∈ rows, row.Check
  primaryKey : UniqueKey CapsuleRow.capsuleId rows
  session : References (fun row => some row.sessionKeyHash) rows sessionKeys

/-- The constraints of `snapshots`. -/
@[mk_iff]
structure SnapshotsTable (sessionKeys : List String) (rows : List SnapshotRow) : Prop where
  check : ∀ row ∈ rows, row.Check
  primaryKey : UniqueKey SnapshotRow.snapshotId rows
  coverage : UniqueKey (fun row => (row.sessionKeyHash, row.coveredEventEnd)) rows
  session : References (fun row => some row.sessionKeyHash) rows sessionKeys
  base : References SnapshotRow.baseSnapshotId rows (rows.map SnapshotRow.snapshotId)

/-- The constraints of `snapshot_capsules`. -/
@[mk_iff]
structure SnapshotCapsulesTable (snapshotIds capsuleIds : List String)
    (rows : List MembershipRow) : Prop where
  slot : ∀ row ∈ rows, trimNonEmpty row.slot = true
  primaryKey : UniqueKey (fun row => (row.snapshotId, row.ordinal)) rows
  member : UniqueKey (fun row => (row.snapshotId, row.capsuleId)) rows
  snapshot : References (fun row => some row.snapshotId) rows snapshotIds
  capsule : References (fun row => some row.capsuleId) rows capsuleIds

/-- The constraints of `active_snapshots`. -/
@[mk_iff]
structure ActiveSnapshotsTable (sessionKeys snapshotIds : List String)
    (rows : List ActiveRow) : Prop where
  version : ∀ row ∈ rows, 1 ≤ row.pointerVersion
  primaryKey : UniqueKey ActiveRow.sessionKeyHash rows
  snapshotId : UniqueKey ActiveRow.snapshotId rows
  session : References (fun row => some row.sessionKeyHash) rows sessionKeys
  snapshot : References (fun row => some row.snapshotId) rows snapshotIds

/-- The constraints of `compaction_jobs`, its partial unique index included. -/
@[mk_iff]
structure CompactionJobsTable (sessionKeys snapshotIds : List String)
    (rows : List JobRow) : Prop where
  check : ∀ row ∈ rows, row.Check
  primaryKey : UniqueKey JobRow.jobId rows
  nonterminal : UniqueKey JobRow.sessionKeyHash (rows.filter fun row => row.state.isNonterminal)
  session : References (fun row => some row.sessionKeyHash) rows sessionKeys
  base : References JobRow.baseSnapshotId rows snapshotIds

/-- The constraints of `snapshot_reorganization_records`. -/
@[mk_iff]
structure ReorganizationRecordsTable (snapshotIds : List String)
    (rows : List LedgerRow) : Prop where
  check : ∀ row ∈ rows, row.Check
  primaryKey : UniqueKey (fun row => (row.snapshotId, row.ordinal)) rows
  item : UniqueKey (fun row => (row.snapshotId, row.sourceCapsuleId, row.kind, row.itemId)) rows
  snapshot : References (fun row => some row.snapshotId) rows snapshotIds

/-- The constraints of `token_metrics`. -/
@[mk_iff]
structure TokenMetricsTable (rows : List MetricRow) : Prop where
  check : ∀ row ∈ rows, row.key.Check
  primaryKey : UniqueKey MetricRow.key rows

/-- The constraints of `token_metric_backfill_intents`. -/
@[mk_iff]
structure BackfillIntentsTable (sessionKeys : List String) (rows : List BackfillRow) : Prop where
  check : ∀ row ∈ rows, row.key.Check
  primaryKey : UniqueKey BackfillRow.key rows
  session : References (fun row => some row.sessionKeyHash) rows sessionKeys

/-! ## Databases -/

/-- The contents of the tables. -/
structure Tables where
  sessions : List SessionRow
  journalEvents : List EventRow
  capsules : List CapsuleRow
  snapshots : List SnapshotRow
  snapshotCapsules : List MembershipRow
  activeSnapshots : List ActiveRow
  compactionJobs : List JobRow
  reorganizationRecords : List LedgerRow
  tokenMetrics : List MetricRow
  backfillIntents : List BackfillRow
deriving DecidableEq

namespace Tables

/-- The primary keys of `sessions`. -/
def sessionKeys (tables : Tables) : List String :=
  tables.sessions.map SessionRow.sessionKeyHash

/-- The primary keys of `snapshots`. -/
def snapshotIds (tables : Tables) : List String :=
  tables.snapshots.map SnapshotRow.snapshotId

/-- The primary keys of `capsules`. -/
def capsuleIds (tables : Tables) : List String :=
  tables.capsules.map CapsuleRow.capsuleId

/-- The tables with other job rows. -/
def withJobs (tables : Tables) (rows : List JobRow) : Tables :=
  { tables with compactionJobs := rows }

@[simp] theorem withJobs_withJobs (tables : Tables) (rows rows' : List JobRow) :
    (tables.withJobs rows).withJobs rows' = tables.withJobs rows' := rfl

/-- Every constraint of the schema holds. -/
@[mk_iff]
structure Consistent (tables : Tables) : Prop where
  sessions : SessionsTable tables.sessions
  journalEvents : JournalEventsTable tables.sessionKeys tables.journalEvents
  capsules : CapsulesTable tables.sessionKeys tables.capsules
  snapshots : SnapshotsTable tables.sessionKeys tables.snapshots
  snapshotCapsules :
    SnapshotCapsulesTable tables.snapshotIds tables.capsuleIds tables.snapshotCapsules
  activeSnapshots :
    ActiveSnapshotsTable tables.sessionKeys tables.snapshotIds tables.activeSnapshots
  compactionJobs :
    CompactionJobsTable tables.sessionKeys tables.snapshotIds tables.compactionJobs
  reorganizationRecords :
    ReorganizationRecordsTable tables.snapshotIds tables.reorganizationRecords
  tokenMetrics : TokenMetricsTable tables.tokenMetrics
  backfillIntents : BackfillIntentsTable tables.sessionKeys tables.backfillIntents

end Tables

instance (rows : List SessionRow) : Decidable (SessionsTable rows) :=
  decidable_of_iff _ (sessionsTable_iff rows).symm
instance (keys : List String) (rows : List EventRow) : Decidable (JournalEventsTable keys rows) :=
  decidable_of_iff _ (journalEventsTable_iff keys rows).symm
instance (keys : List String) (rows : List CapsuleRow) : Decidable (CapsulesTable keys rows) :=
  decidable_of_iff _ (capsulesTable_iff keys rows).symm
instance (keys : List String) (rows : List SnapshotRow) : Decidable (SnapshotsTable keys rows) :=
  decidable_of_iff _ (snapshotsTable_iff keys rows).symm
instance (ids ids' : List String) (rows : List MembershipRow) :
    Decidable (SnapshotCapsulesTable ids ids' rows) :=
  decidable_of_iff _ (snapshotCapsulesTable_iff ids ids' rows).symm
instance (keys ids : List String) (rows : List ActiveRow) :
    Decidable (ActiveSnapshotsTable keys ids rows) :=
  decidable_of_iff _ (activeSnapshotsTable_iff keys ids rows).symm
instance (keys ids : List String) (rows : List JobRow) :
    Decidable (CompactionJobsTable keys ids rows) :=
  decidable_of_iff _ (compactionJobsTable_iff keys ids rows).symm
instance (ids : List String) (rows : List LedgerRow) :
    Decidable (ReorganizationRecordsTable ids rows) :=
  decidable_of_iff _ (reorganizationRecordsTable_iff ids rows).symm
instance (rows : List MetricRow) : Decidable (TokenMetricsTable rows) :=
  decidable_of_iff _ (tokenMetricsTable_iff rows).symm
instance (keys : List String) (rows : List BackfillRow) :
    Decidable (BackfillIntentsTable keys rows) :=
  decidable_of_iff _ (backfillIntentsTable_iff keys rows).symm
instance (tables : Tables) : Decidable tables.Consistent :=
  decidable_of_iff _ tables.consistent_iff.symm

/-- The durable state: tables that satisfy every constraint. -/
structure Database extends Tables where
  consistent : toTables.Consistent
deriving DecidableEq

namespace Database

/-- A freshly migrated database. -/
def empty : Database where
  sessions := []
  journalEvents := []
  capsules := []
  snapshots := []
  snapshotCapsules := []
  activeSnapshots := []
  compactionJobs := []
  reorganizationRecords := []
  tokenMetrics := []
  backfillIntents := []
  consistent := by decide

/-- One SQL statement that would leave `tables`: it raises `IntegrityError` when they violate a
constraint. -/
def execute (tables : Tables) : Except StorageFailure Database :=
  if h : tables.Consistent then .ok ⟨tables, h⟩ else .error .integrityError

/-- A statement succeeds exactly when it leaves consistent tables, and leaves just these. -/
theorem execute_ok {tables : Tables} {db : Database} :
    execute tables = .ok db ↔ db.toTables = tables := by
  unfold execute
  split
  · next h =>
      constructor
      · intro heq
        cases heq
        rfl
      · rintro rfl
        rfl
  · next h =>
      constructor
      · intro heq
        cases heq
      · rintro rfl
        exact absurd db.consistent h

/-- A statement that leaves consistent tables succeeds. -/
theorem execute_of_consistent {tables : Tables} (h : tables.Consistent) :
    execute tables = .ok ⟨tables, h⟩ := by
  simp [execute, h]

/-- A statement that would leave inconsistent tables raises `IntegrityError`. -/
theorem execute_of_inconsistent {tables : Tables} (h : ¬ tables.Consistent) :
    execute tables = .error .integrityError := by
  simp [execute, h]

/-- The database has the given tables, up to the metric sidecar. -/
structure Holds (db : Database) (tables : Tables) : Prop where
  sessions : db.sessions = tables.sessions
  journalEvents : db.journalEvents = tables.journalEvents
  capsules : db.capsules = tables.capsules
  snapshots : db.snapshots = tables.snapshots
  snapshotCapsules : db.snapshotCapsules = tables.snapshotCapsules
  activeSnapshots : db.activeSnapshots = tables.activeSnapshots
  compactionJobs : db.compactionJobs = tables.compactionJobs
  reorganizationRecords : db.reorganizationRecords = tables.reorganizationRecords

/-- A database holds its own tables. -/
theorem Holds.of_eq {db : Database} {tables : Tables} (h : db.toTables = tables) :
    db.Holds tables := by
  subst h
  exact ⟨rfl, rfl, rfl, rfl, rfl, rfl, rfl, rfl⟩

/-- Sidecar writes compose. -/
theorem Holds.trans {db db' : Database} {tables : Tables} (h : db'.Holds db.toTables)
    (h' : db.Holds tables) : db'.Holds tables where
  sessions := h.sessions.trans h'.sessions
  journalEvents := h.journalEvents.trans h'.journalEvents
  capsules := h.capsules.trans h'.capsules
  snapshots := h.snapshots.trans h'.snapshots
  snapshotCapsules := h.snapshotCapsules.trans h'.snapshotCapsules
  activeSnapshots := h.activeSnapshots.trans h'.activeSnapshots
  compactionJobs := h.compactionJobs.trans h'.compactionJobs
  reorganizationRecords := h.reorganizationRecords.trans h'.reorganizationRecords

end Database

end AstrContinuum
