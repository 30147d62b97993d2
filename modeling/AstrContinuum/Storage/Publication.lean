import Mathlib.Data.List.Dedup
import AstrContinuum.Storage.Capture
import AstrContinuum.Storage.JobQueue

/-!
# Publication

`TX_PUBLISH_SNAPSHOT`. Everything after the gate runs under a savepoint: `stageCandidate` inserts
the capsules, the snapshot, its memberships, ledger and metrics and moves the active pointer, and
answers `none` when one of these hits durable state. Then the transaction goes on from the database
at the savepoint and supersedes the job instead.
-/

namespace AstrContinuum

open Checked Relational

variable [Hashlib] [SecureCodec]

/-- `PublishOutcome`. -/
inductive PublishOutcome
  | committed
  | superseded
deriving DecidableEq

/-- The job state of an outcome. -/
def PublishOutcome.state : PublishOutcome → CompactionJobState
  | committed => .committed
  | superseded => .superseded

/-- `PublishResult`. -/
structure PublishResult where
  outcome : PublishOutcome
  job : CompactionJobEnvelope
  winner : SnapshotEnvelope
  pointerVersion : Nat
deriving DecidableEq

/-- The arguments of `publish_snapshot`. -/
structure PublishRequest where
  fence : Fence
  candidateSnapshot : SnapshotEnvelope
  memberships : List SnapshotCapsuleMembership
  canonicalMetrics : Option (List TokenMetric) := none
  reorganizationRecords : List ReorganizationRecord := []
  tokenCeiling : Int
deriving DecidableEq

/-- `candidate_capsules`. -/
def PublishRequest.candidateCapsules (request : PublishRequest) : List ContextCapsuleEnvelope :=
  request.memberships.map SnapshotCapsuleMembership.capsule

/-! ## Candidate checks -/

/-- `_validate_candidate_memberships`. -/
def validateCandidateMemberships (snapshot : SnapshotEnvelope)
    (memberships : List SnapshotCapsuleMembership) : Except StorageFailure Unit := do
  require (memberships ≠ [])
    (.repositoryInvariantError "publication requires at least one Capsule membership")
  require (memberships.map SnapshotCapsuleMembership.ordinal = List.range memberships.length)
    (.repositoryInvariantError "candidate Capsule ordinals must be contiguous from zero")
  require (∀ item ∈ memberships, stripNonEmpty item.slot = true)
    (.repositoryInvariantError "candidate Capsule membership slot must be non-empty")
  require (memberships.map SnapshotCapsuleMembership.capsuleId).Nodup
    (.repositoryInvariantError "candidate Capsule membership ids must be unique")
  require (snapshot.capsuleIds = memberships.map SnapshotCapsuleMembership.capsuleId)
    (.repositoryInvariantError "candidate Snapshot ids disagree with ordered membership")

/-- The memberships of a candidate number its distinct capsules from zero. -/
structure ValidMemberships (snapshot : SnapshotEnvelope)
    (memberships : List SnapshotCapsuleMembership) : Prop where
  nonempty : memberships ≠ []
  ordinals : memberships.map SnapshotCapsuleMembership.ordinal = List.range memberships.length
  slots : ∀ item ∈ memberships, stripNonEmpty item.slot = true
  distinct : (memberships.map SnapshotCapsuleMembership.capsuleId).Nodup
  ids : snapshot.capsuleIds = memberships.map SnapshotCapsuleMembership.capsuleId

omit [Hashlib] [SecureCodec] in
/-- The membership guard passes exactly on valid memberships. -/
theorem validateCandidateMemberships_ok {snapshot : SnapshotEnvelope}
    {memberships : List SnapshotCapsuleMembership} {u : Unit} :
    validateCandidateMemberships snapshot memberships = .ok u ↔
      ValidMemberships snapshot memberships := by
  simp only [validateCandidateMemberships, bind_ok, require_ok, exists_const]
  exact ⟨fun ⟨h₁, h₂, h₃, h₄, h₅⟩ => ⟨h₁, h₂, h₃, h₄, h₅⟩,
    fun ⟨h₁, h₂, h₃, h₄, h₅⟩ => ⟨h₁, h₂, h₃, h₄, h₅⟩⟩

/-- `expected_artifacts`. -/
def expectedArtifacts (snapshot : SnapshotEnvelope)
    (memberships : List SnapshotCapsuleMembership) : List (ArtifactKind × String) :=
  memberships.map (fun membership => (.capsule, membership.capsuleId)) ++
    [(.snapshot, snapshot.snapshotId)]

/-- `_validate_candidate_metrics`. -/
def validateCandidateMetrics (snapshot : SnapshotEnvelope)
    (memberships : List SnapshotCapsuleMembership) (metrics : List TokenMetric) :
    Except StorageFailure Unit := do
  let expected := (expectedArtifacts snapshot memberships).dedup
  let actual := metrics.map fun metric => (metric.key.artifactKind, metric.key.artifactId)
  require (metrics.length = expected.length ∧ (∀ artifact ∈ actual, artifact ∈ expected) ∧
      (∀ artifact ∈ expected, artifact ∈ actual) ∧
      (metrics.map fun metric => metric.key.tokenizerProfileId).dedup.length = 1)
    (.repositoryInvariantError
      "publication requires one canonical metric for every candidate artifact")

/-- `if canonical_metric_tuple is not None: self._validate_candidate_metrics(...)`. -/
def validateOptionalMetrics (snapshot : SnapshotEnvelope)
    (memberships : List SnapshotCapsuleMembership) :
    Option (List TokenMetric) → Except StorageFailure Unit
  | none => .ok ()
  | some metrics => validateCandidateMetrics snapshot memberships metrics

/-! ## Staged writes -/

/-- The row that stores a capsule. -/
def ContextCapsuleEnvelope.row (capsule : ContextCapsuleEnvelope) : CapsuleRow where
  capsuleId := capsule.capsuleId
  sessionKeyHash := capsule.sessionKey.sessionKeyHash
  level := capsule.level
  coveredEventStart := capsule.coveredEventStart
  coveredEventEnd := capsule.coveredEventEnd
  canonicalCapsule := capsule
  tokenCost := capsule.tokenCost
  sourceCoverage := capsule.quality.sourceCoverage
  createdAt := capsule.createdAt.instant

/-- The protected cells of a capsule. -/
def capsuleCells (capsule : ContextCapsuleEnvelope) : List ProtectedCell :=
  [⟨"capsules", "canonical_capsule_json", capsule.capsuleId, .capsule capsule⟩,
    ⟨"capsules", "token_cost", capsule.capsuleId, .integer capsule.tokenCost⟩]

/-- `_insert_or_verify_capsule`. -/
def insertOrVerifyCapsule (db : Database) (capsule : ContextCapsuleEnvelope) :
    Except StorageFailure Database :=
  match db.capsuleRow capsule.capsuleId with
  | some row => do
      require (row.sessionKeyHash = capsule.sessionKey.sessionKeyHash ∧ row.level = capsule.level ∧
          row.coveredEventStart = capsule.coveredEventStart ∧
          row.coveredEventEnd = capsule.coveredEventEnd ∧ row.canonicalCapsule = capsule ∧
          row.tokenCost = capsule.tokenCost ∧
          row.sourceCoverage = capsule.quality.sourceCoverage ∧
          row.createdAt = capsule.createdAt.instant)
        .integrityError
      pure db
  | none => do
      encryptCells (capsuleCells capsule)
      Database.execute { db.toTables with capsules := db.capsules ++ [capsule.row] }

omit [SecureCodec] in
/-- A row with the id of a capsule is the capsule's row when the other columns agree. -/
theorem ContextCapsuleEnvelope.eq_row_iff {capsule : ContextCapsuleEnvelope} {row : CapsuleRow}
    (hid : row.capsuleId = capsule.capsuleId) :
    row = capsule.row ↔ row.sessionKeyHash = capsule.sessionKey.sessionKeyHash ∧
      row.level = capsule.level ∧ row.coveredEventStart = capsule.coveredEventStart ∧
      row.coveredEventEnd = capsule.coveredEventEnd ∧ row.canonicalCapsule = capsule ∧
      row.tokenCost = capsule.tokenCost ∧ row.sourceCoverage = capsule.quality.sourceCoverage ∧
      row.createdAt = capsule.createdAt.instant := by
  constructor
  · intro heq
    subst heq
    exact ⟨rfl, rfl, rfl, rfl, rfl, rfl, rfl, rfl⟩
  · intro hfields
    cases row
    simp_all [ContextCapsuleEnvelope.row]

/-- A capsule is stored when its row is, or by inserting its row. -/
theorem insertOrVerifyCapsule_ok {db db' : Database} {capsule : ContextCapsuleEnvelope}
    (h : insertOrVerifyCapsule db capsule = .ok db') :
    (capsule.row ∈ db.capsules ∧ db' = db) ∨
      db'.toTables = { db.toTables with capsules := db.capsules ++ [capsule.row] } := by
  unfold insertOrVerifyCapsule at h
  cases hrow : db.capsuleRow capsule.capsuleId with
  | some row =>
      rw [hrow] at h
      obtain ⟨_, hsame, h⟩ := bind_ok.mp h
      obtain rfl := pure_ok.mp h
      obtain ⟨hmem, hid⟩ := Database.capsuleRow_eq_some.mp hrow
      have heq := (ContextCapsuleEnvelope.eq_row_iff hid).mpr (require_ok.mp hsame)
      exact .inl ⟨heq ▸ hmem, rfl⟩
  | none =>
      rw [hrow] at h
      obtain ⟨_, -, h⟩ := bind_ok.mp h
      exact .inr (Database.execute_ok.mp h)

/-- The row that stores a committed snapshot. -/
def SnapshotEnvelope.row (snapshot : SnapshotEnvelope) (committedAt : Timestamp) :
    SnapshotRow where
  snapshotId := snapshot.snapshotId
  sessionKeyHash := snapshot.sessionKey.sessionKeyHash
  baseSnapshotId := snapshot.baseSnapshotId
  coveredEventEnd := snapshot.coveredEventEnd
  sourceHighWaterMark := snapshot.sourceHighWaterMark
  exactAnchorIds := snapshot.exactAnchorIds
  renderedContext := snapshot.renderedContext
  tokenCost := snapshot.tokenCost
  auditOutcome := snapshot.auditOutcome
  lifecycleState := .committed
  createdAt := snapshot.createdAt
  committedAt := committedAt

/-- The protected cells of a snapshot. -/
def snapshotCells (snapshot : SnapshotEnvelope) : List ProtectedCell :=
  [⟨"snapshots", "exact_anchor_ids_json", snapshot.snapshotId, .anchorIds snapshot.exactAnchorIds⟩,
    ⟨"snapshots", "rendered_context", snapshot.snapshotId, .text snapshot.renderedContext⟩,
    ⟨"snapshots", "token_cost", snapshot.snapshotId, .integer snapshot.tokenCost⟩,
    ⟨"snapshots", "audit_outcome", snapshot.snapshotId, .auditOutcome snapshot.auditOutcome⟩]

/-- `_insert_committed_snapshot`. -/
def insertCommittedSnapshot (db : Database) (snapshot : SnapshotEnvelope) :
    Except StorageFailure Database := do
  let committedAt ← orMissing snapshot.committedAt
    (.repositoryInvariantError "committed Snapshot insert requires committed_at")
  encryptCells (snapshotCells snapshot)
  Database.execute { db.toTables with
    snapshots := db.snapshots ++ [snapshot.row committedAt] }

/-- The row that stores a membership. -/
def SnapshotCapsuleMembership.row (membership : SnapshotCapsuleMembership) (snapshotId : String) :
    MembershipRow where
  snapshotId := snapshotId
  ordinal := membership.ordinal
  capsuleId := membership.capsuleId
  slot := membership.slot

/-- `INSERT INTO snapshot_capsules`. -/
def insertMembership (snapshotId : String) (db : Database)
    (membership : SnapshotCapsuleMembership) : Except StorageFailure Database :=
  Database.execute { db.toTables with
    snapshotCapsules := db.snapshotCapsules ++ [membership.row snapshotId] }

/-- The largest integer a SQLite column takes. -/
def sqliteMaxInteger : Int := 9223372036854775807

/-- The row that stores a reorganization record. -/
def ReorganizationRecord.row (record : ReorganizationRecord) (snapshotId : String)
    (ordinal : Nat) : LedgerRow where
  snapshotId := snapshotId
  ordinal := ordinal
  sourceCapsuleId := record.sourceCapsuleId
  kind := record.kind
  itemId := record.itemId
  status := record.status
  beforeTokens := record.beforeTokens
  afterTokens := record.afterTokens
  required := record.required

/-- `INSERT INTO snapshot_reorganization_records`. -/
def insertReorganizationRecord (faults : FaultInjector) (snapshotId : String) (db : Database)
    (entry : ReorganizationRecord × Nat) : Except StorageFailure Database := do
  let (record, ordinal) := entry
  require (record.beforeTokens ≤ sqliteMaxInteger ∧ record.afterTokens ≤ sqliteMaxInteger)
    .overflowError
  let db ← Database.execute { db.toTables with
    reorganizationRecords := db.reorganizationRecords ++ [record.row snapshotId ordinal] }
  inject faults .publishAfterLedger ordinal
  pure db

/-- One iteration of the metric loop of `publish_snapshot`. -/
def publishMetric (faults : FaultInjector) (now : Timestamp) (db : Database)
    (entry : TokenMetric × Nat) : Except StorageFailure Database := do
  let db ← writeMetric db entry.1 now
  inject faults .publishAfterMetric entry.2
  pure db

/-- `_cas_active_pointer`, and whether it moved the pointer. -/
def casActivePointer (db : Database) (job : CompactionJobEnvelope) (snapshotId : String)
    (now : Timestamp) : Except StorageFailure (Database × Bool) :=
  let hash := job.sessionKey.sessionKeyHash
  match job.baseSnapshotId with
  | none =>
      if (db.activeRow hash).isSome then .ok (db, false)
      else do
        let db ← Database.execute { db.toTables with
          activeSnapshots := db.activeSnapshots ++ [⟨hash, snapshotId, 1, now⟩] }
        pure (db, true)
  | some baseSnapshotId => do
      let selected := fun row : ActiveRow =>
        decide (row.sessionKeyHash = hash) && decide (row.snapshotId = baseSnapshotId) &&
          decide (row.pointerVersion = job.basePointerVersion)
      let db' ← Database.execute { db.toTables with
        activeSnapshots := update selected
          (fun row => { row with
            snapshotId := snapshotId, pointerVersion := row.pointerVersion + 1, updatedAt := now })
          db.activeSnapshots }
      pure (db', db.activeSnapshots.countP selected == 1)

omit [SecureCodec] in
/-- The compare-and-swap moves the pointer only from the base of the job, and moves no other
session's pointer. -/
theorem casActivePointer_ok {db db' : Database} {job : CompactionJobEnvelope}
    {snapshotId : String} {now : Timestamp}
    (h : casActivePointer db job snapshotId now = .ok (db', true)) :
    db'.toTables = { db.toTables with activeSnapshots := db'.activeSnapshots } ∧
      db.pointer job.sessionKey.sessionKeyHash = (job.baseSnapshotId, job.basePointerVersion) ∧
      db'.pointer job.sessionKey.sessionKeyHash = (some snapshotId, job.basePointerVersion + 1) ∧
      ∀ hash, hash ≠ job.sessionKey.sessionKeyHash → db'.activeRow hash = db.activeRow hash := by
  unfold casActivePointer at h
  cases hbase : job.baseSnapshotId with
  | none =>
      simp only [hbase] at h
      split at h
      · cases h
      · next hactive =>
          obtain ⟨db₁, hinsert, h⟩ := bind_ok.mp h
          obtain rfl : db₁ = db' := by simpa using h
          have htables := Database.execute_ok.mp hinsert
          have hrows : db₁.activeSnapshots = db.activeSnapshots ++ _ :=
            congrArg Tables.activeSnapshots htables
          have hnone : db.activeRow job.sessionKey.sessionKeyHash = none := by simpa using hactive
          have hversion : job.basePointerVersion = 0 := job.valid.2.2.1.1 hbase
          refine ⟨by rw [htables], ?_, ?_, ?_⟩
          · simp [Database.pointer, hnone, hversion]
          · have hfound : db₁.activeRow job.sessionKey.sessionKeyHash =
                some ⟨job.sessionKey.sessionKeyHash, snapshotId, 1, now⟩ :=
              Database.activeRow_eq_some.mpr ⟨by simp [hrows], rfl⟩
            simp [Database.pointer, hfound, hversion]
          · intro hash hne
            simp [Database.activeRow, hrows, List.find?_append, Ne.symm hne]
  | some baseSnapshotId =>
      simp only [hbase] at h
      obtain ⟨db₁, hupdate, h⟩ := bind_ok.mp h
      obtain ⟨rfl, hcount⟩ : db₁ = db' ∧ _ = 1 := by simpa using h
      have htables := Database.execute_ok.mp hupdate
      have hrows := congrArg Tables.activeSnapshots htables
      obtain ⟨row, hmem, hselected⟩ := List.countP_pos_iff.mp (by rw [hcount]; exact Nat.one_pos)
      simp only [Bool.and_eq_true, decide_eq_true_eq] at hselected
      obtain ⟨⟨hhash, hid⟩, hversion⟩ := hselected
      have hrow := Database.activeRow_eq_some.mpr ⟨hmem, hhash⟩
      refine ⟨by rw [htables], ?_, ?_, ?_⟩
      · simp [Database.pointer, hrow, hid, hversion]
      · have hfound : db₁.activeRow job.sessionKey.sessionKeyHash =
            some { row with
              snapshotId := snapshotId, pointerVersion := row.pointerVersion + 1,
              updatedAt := now } := by
          refine Database.activeRow_eq_some.mpr ⟨?_, hhash⟩
          rw [hrows]
          exact mem_update.mpr (.inl ⟨row, hmem, by simp [hhash, hid, hversion], rfl⟩)
        simp [Database.pointer, hfound, hversion]
      · intro hash hne
        simp only [Database.activeRow, hrows]
        apply find_update_of_ne
        intro other hother
        simp only [Bool.and_eq_true, decide_eq_true_eq] at hother
        simp [hother.1.1, Ne.symm hne]

/-- `try: ... except sqlite3.IntegrityError: conflict = True`. -/
def orConflict {α : Type} (x : Except StorageFailure α) : Except StorageFailure (Option α) :=
  match x with
  | .ok a => .ok (some a)
  | .error .integrityError => .ok none
  | .error failure => .error failure

/-- A loop of inserts that stops at the first conflict. -/
def insertUntilConflict {α : Type} (insert : Database → α → Except StorageFailure Database)
    (faults : FaultInjector) (boundary : Boundary) :
    Nat → Database → List α → Except StorageFailure (Option Database)
  | _, db, [] => .ok (some db)
  | call, db, item :: rest => do
      match ← orConflict (insert db item) with
      | none => pure none
      | some db => do
          inject faults boundary call
          insertUntilConflict insert faults boundary (call + 1) db rest

/-- The inserts between `SAVEPOINT publish_candidate` and the pointer move. -/
def stageRows (faults : FaultInjector) (db : Database) (request : PublishRequest)
    (committed : SnapshotEnvelope) (records : List ReorganizationRecord) :
    Except StorageFailure (Option Database) := do
  match ← insertUntilConflict (fun db membership => insertOrVerifyCapsule db membership.capsule)
      faults .publishAfterCapsule 0 db request.memberships with
  | none => pure none
  | some db => do
      match ← orConflict (insertCommittedSnapshot db committed) with
      | none => pure none
      | some db => do
          inject faults .publishAfterSnapshot
          match ← insertUntilConflict (insertMembership committed.snapshotId)
              faults .publishAfterMembership 0 db request.memberships with
          | none => pure none
          | some db => do
              let db ← forEach (insertReorganizationRecord faults committed.snapshotId) db
                records.zipIdx
              let db ← forEach (publishMetric faults request.fence.now) db
                (request.canonicalMetrics.getD []).zipIdx
              pure (some db)

/-- The writes between `SAVEPOINT publish_candidate` and the branch on `conflict`. -/
def stageCandidate (faults : FaultInjector) (db : Database) (request : PublishRequest)
    (job : CompactionJobEnvelope) (committed : SnapshotEnvelope)
    (records : List ReorganizationRecord) : Except StorageFailure (Option Database) := do
  match ← stageRows faults db request committed records with
  | none => pure none
  | some db => do
      let (db, moved) ← casActivePointer db job committed.snapshotId request.fence.now
      pure (if moved then some db else none)

omit [Hashlib] [SecureCodec] in
/-- A loop that met no conflict performed every insert. -/
theorem insertUntilConflict_some {α : Type}
    {insert : Database → α → Except StorageFailure Database} {faults : FaultInjector}
    {boundary : Boundary} {call : Nat} {db db' : Database} {items : List α}
    (h : insertUntilConflict insert faults boundary call db items = .ok (some db')) :
    forEach insert db items = .ok db' := by
  induction items generalizing call db with
  | nil => simpa [insertUntilConflict] using h
  | cons item rest ih =>
      obtain ⟨staged, hstaged, h⟩ := bind_ok.mp h
      cases staged with
      | none => simp at h
      | some db₁ =>
          have hinsert : insert db item = .ok db₁ := by
            unfold orConflict at hstaged
            split at hstaged <;> simp_all
          obtain ⟨_, -, h⟩ := bind_ok.mp h
          exact bind_ok.mpr ⟨db₁, hinsert, ih h⟩

/-- After the capsule loop every candidate capsule is stored, and nothing else was added. -/
theorem insertCapsules_ok {db db' : Database} {memberships : List SnapshotCapsuleMembership}
    (h : forEach (fun db (membership : SnapshotCapsuleMembership) =>
      insertOrVerifyCapsule db membership.capsule) db memberships = .ok db') :
    ∃ added : List ContextCapsuleEnvelope, db'.toTables = { db.toTables with
        capsules := db.capsules ++ added.map ContextCapsuleEnvelope.row } ∧
      (∀ capsule ∈ added, capsule ∈ memberships.map SnapshotCapsuleMembership.capsule) ∧
      ∀ membership ∈ memberships, membership.capsule.row ∈ db'.capsules := by
  induction memberships generalizing db with
  | nil =>
      obtain rfl : db = db' := by simpa using h
      exact ⟨[], by simp, by simp, by simp⟩
  | cons membership rest ih =>
      obtain ⟨db₁, hinsert, hrest⟩ := bind_ok.mp h
      obtain ⟨added, htables, hadded, hstored⟩ := ih hrest
      have hcapsules : db'.capsules = db₁.capsules ++ _ := congrArg Tables.capsules htables
      rcases insertOrVerifyCapsule_ok hinsert with ⟨hpresent, rfl⟩ | hinserted
      · refine ⟨added, htables, ?_, ?_⟩
        · intro capsule hcapsule
          exact List.mem_cons_of_mem _ (hadded capsule hcapsule)
        · intro other hother
          rcases List.mem_cons.mp hother with rfl | hother
          · rw [hcapsules]
            exact List.mem_append_left _ hpresent
          · exact hstored other hother
      · have hcapsules₁ : db₁.capsules = db.capsules ++ _ := congrArg Tables.capsules hinserted
        refine ⟨membership.capsule :: added, ?_, ?_, ?_⟩
        · rw [htables, hcapsules₁, hinserted]
          simp
        · intro capsule hcapsule
          rcases List.mem_cons.mp hcapsule with rfl | hcapsule
          · simp
          · exact List.mem_cons_of_mem _ (hadded capsule hcapsule)
        · intro other hother
          rcases List.mem_cons.mp hother with rfl | hother
          · rw [hcapsules, hcapsules₁]
            simp
          · exact hstored other hother

omit [Hashlib] [SecureCodec] in
/-- The membership loop appends the membership rows in order. -/
theorem insertMemberships_ok {snapshotId : String} {db db' : Database}
    {memberships : List SnapshotCapsuleMembership}
    (h : forEach (insertMembership snapshotId) db memberships = .ok db') :
    db'.toTables = { db.toTables with
      snapshotCapsules := db.snapshotCapsules ++
        memberships.map fun membership => membership.row snapshotId } := by
  induction memberships generalizing db with
  | nil =>
      obtain rfl : db = db' := by simpa using h
      simp
  | cons membership rest ih =>
      obtain ⟨db₁, hinsert, hrest⟩ := bind_ok.mp h
      have hinserted := Database.execute_ok.mp hinsert
      have hrows : db₁.snapshotCapsules = db.snapshotCapsules ++ _ :=
        congrArg Tables.snapshotCapsules hinserted
      rw [ih hrest, hrows, hinserted]
      simp

omit [Hashlib] [SecureCodec] in
/-- The ledger loop touches only the ledger. -/
theorem insertReorganizationRecords_ok {faults : FaultInjector} {snapshotId : String}
    {db db' : Database} {entries : List (ReorganizationRecord × Nat)}
    (h : forEach (insertReorganizationRecord faults snapshotId) db entries = .ok db') :
    db'.toTables = { db.toTables with reorganizationRecords := db'.reorganizationRecords } := by
  refine forEach_invariant (fun state : Database => state.toTables = { db.toTables with
    reorganizationRecords := state.reorganizationRecords }) ?_ rfl h
  intro state entry state' _ hstate hbody
  obtain ⟨_, -, hbody⟩ := bind_ok.mp hbody
  obtain ⟨state₁, hinsert, hbody⟩ := bind_ok.mp hbody
  obtain ⟨_, -, hbody⟩ := bind_ok.mp hbody
  obtain rfl := pure_ok.mp hbody
  rw [Database.execute_ok] at hinsert
  rw [hinsert, hstate]

omit [Hashlib] in
/-- The metric loop touches only the sidecar. -/
theorem publishMetrics_ok {faults : FaultInjector} {now : Timestamp} {db db' : Database}
    {entries : List (TokenMetric × Nat)}
    (h : forEach (publishMetric faults now) db entries = .ok db') : db'.Holds db.toTables := by
  refine forEach_invariant (fun state : Database => state.Holds db.toTables) ?_ (.of_eq rfl) h
  intro state entry state' _ hstate hbody
  obtain ⟨state₁, hwrite, hbody⟩ := bind_ok.mp hbody
  obtain ⟨_, -, hbody⟩ := bind_ok.mp hbody
  obtain rfl := pure_ok.mp hbody
  exact (writeMetric_holds hwrite).trans hstate

/-- The rows of a staged candidate: its capsules, its snapshot and its memberships were added. -/
structure CandidateRows (db : Database) (request : PublishRequest) (committed : SnapshotEnvelope)
    (db' : Database) : Prop where
  sessions : db'.sessions = db.sessions
  journalEvents : db'.journalEvents = db.journalEvents
  compactionJobs : db'.compactionJobs = db.compactionJobs
  capsules : ∃ added : List ContextCapsuleEnvelope,
    db'.capsules = db.capsules ++ added.map ContextCapsuleEnvelope.row ∧
    ∀ capsule ∈ added, capsule ∈ request.candidateCapsules
  stored : ∀ membership ∈ request.memberships, membership.capsule.row ∈ db'.capsules
  snapshots : ∃ committedAt ∈ committed.committedAt,
    db'.snapshots = db.snapshots ++ [committed.row committedAt]
  snapshotCapsules : db'.snapshotCapsules = db.snapshotCapsules ++
    request.memberships.map fun membership => membership.row committed.snapshotId

/-- What the inserts of a candidate have written: its rows, and no pointer yet. -/
structure StagedRows (db : Database) (request : PublishRequest) (committed : SnapshotEnvelope)
    (db' : Database) : Prop extends CandidateRows db request committed db' where
  activeSnapshots : db'.activeSnapshots = db.activeSnapshots

/-- Inserts that met no conflict have stored the whole candidate. -/
theorem stageRows_some {faults : FaultInjector} {db db' : Database} {request : PublishRequest}
    {committed : SnapshotEnvelope} {records : List ReorganizationRecord}
    (h : stageRows faults db request committed records = .ok (some db')) :
    StagedRows db request committed db' := by
  obtain ⟨capsules, hcapsules, h⟩ := bind_ok.mp h
  cases capsules with
  | none => simp at h
  | some db₁ =>
  obtain ⟨snapshot, hsnapshot, h⟩ := bind_ok.mp h
  cases snapshot with
  | none => simp at h
  | some db₂ =>
  obtain ⟨_, -, h⟩ := bind_ok.mp h
  obtain ⟨memberships, hmemberships, h⟩ := bind_ok.mp h
  cases memberships with
  | none => simp at h
  | some db₃ =>
  obtain ⟨db₄, hledger, h⟩ := bind_ok.mp h
  obtain ⟨db₅, hmetrics, h⟩ := bind_ok.mp h
  obtain rfl : db₅ = db' := by simpa using h
  obtain ⟨added, h₁, hadded, hstored⟩ := insertCapsules_ok (insertUntilConflict_some hcapsules)
  have hsnapshot : insertCommittedSnapshot db₁ committed = .ok db₂ := by
    unfold orConflict at hsnapshot
    split at hsnapshot <;> simp_all
  obtain ⟨committedAt, hcommittedAt, hsnapshot⟩ := bind_ok.mp hsnapshot
  obtain ⟨_, -, hsnapshot⟩ := bind_ok.mp hsnapshot
  have h₂ := Database.execute_ok.mp hsnapshot
  have h₃ := insertMemberships_ok (insertUntilConflict_some hmemberships)
  have h₄ := insertReorganizationRecords_ok hledger
  have h₅ := publishMetrics_ok hmetrics
  refine ⟨⟨?_, ?_, ?_, ⟨added, ?_, hadded⟩, ?_,
    ⟨committedAt, orMissing_ok.mp hcommittedAt, ?_⟩, ?_⟩, ?_⟩
  · rw [h₅.sessions, h₄, h₃, h₂, h₁]
  · rw [h₅.journalEvents, h₄, h₃, h₂, h₁]
  · rw [h₅.compactionJobs, h₄, h₃, h₂, h₁]
  · rw [h₅.capsules, h₄, h₃, h₂, h₁]
  · intro membership hmembership
    rw [h₅.capsules, h₄, h₃, h₂]
    exact hstored membership hmembership
  · rw [h₅.snapshots, h₄, h₃, h₂, h₁]
  · rw [h₅.snapshotCapsules, h₄, h₃, h₂, h₁]
  · rw [h₅.activeSnapshots, h₄, h₃, h₂, h₁]

/-- What a staged candidate has written: its rows, and the pointer moved from the base of its
job. -/
structure Staged (db : Database) (request : PublishRequest) (job : CompactionJobEnvelope)
    (committed : SnapshotEnvelope) (db' : Database) : Prop
    extends CandidateRows db request committed db' where
  base : db.pointer job.sessionKey.sessionKeyHash = (job.baseSnapshotId, job.basePointerVersion)
  pointer : db'.pointer job.sessionKey.sessionKeyHash =
    (some committed.snapshotId, job.basePointerVersion + 1)
  others : ∀ hash, hash ≠ job.sessionKey.sessionKeyHash → db'.activeRow hash = db.activeRow hash

/-- A candidate that met no conflict is staged completely. -/
theorem stageCandidate_some {faults : FaultInjector} {db db' : Database}
    {request : PublishRequest} {job : CompactionJobEnvelope} {committed : SnapshotEnvelope}
    {records : List ReorganizationRecord}
    (h : stageCandidate faults db request job committed records = .ok (some db')) :
    Staged db request job committed db' := by
  obtain ⟨rows, hrows, h⟩ := bind_ok.mp h
  cases rows with
  | none => simp at h
  | some db₁ =>
  obtain ⟨⟨db₂, moved⟩, hmove, h⟩ := bind_ok.mp h
  obtain ⟨rfl, rfl⟩ : moved = true ∧ db₂ = db' := by simpa using h
  have hstaged := stageRows_some hrows
  obtain ⟨htables, hbase, hpointer, hothers⟩ := casActivePointer_ok hmove
  have hactiveRow : ∀ hash, db₁.activeRow hash = db.activeRow hash := by
    intro hash
    rw [Database.activeRow, hstaged.activeSnapshots]
    rfl
  have hcandidate := hstaged.toCandidateRows
  refine ⟨⟨?_, ?_, ?_, ?_, ?_, ?_, ?_⟩, ?_, hpointer, ?_⟩
  · rw [htables, hcandidate.sessions]
  · rw [htables, hcandidate.journalEvents]
  · rw [htables, hcandidate.compactionJobs]
  · rw [htables]
    exact hcandidate.capsules
  · rw [htables]
    exact hcandidate.stored
  · rw [htables]
    exact hcandidate.snapshots
  · rw [htables, hcandidate.snapshotCapsules]
  · rw [← hbase, Database.pointer, Database.pointer, hactiveRow]
  · intro hash hne
    rw [hothers hash hne, hactiveRow]

/-! ## Settlement -/

/-- The `SET` clause of `_finish_publish_job`. -/
def JobRow.finish (outcome : PublishOutcome) (now : Timestamp) (row : JobRow) : JobRow :=
  { row with
    state := outcome.state
    leaseOwner := none
    leaseExpiresAt := none
    nextRetryAt := none
    updatedAt := now
    committedAt := if outcome = .committed then some now else none }

/-- The `WHERE` clause of `_finish_publish_job`. -/
def JobRow.finishFence (job : CompactionJobEnvelope) (fence : Fence) (row : JobRow) : Bool :=
  decide (row.jobId = job.jobId) && decide (row.state = .readyToCommit) &&
    (decide (row.candidateSnapshotId ≠ none) &&
      decide (row.candidateSnapshotId = job.candidateSnapshotId)) &&
    decide (row.leaseOwner = some fence.owner) && decide (row.leaseEpoch = fence.leaseEpoch) &&
    row.leaseExpiresAt.any fun expiresAt => decide (fence.now < expiresAt)

/-- `_finish_publish_job`. -/
def finishPublishJob (db : Database) (job : CompactionJobEnvelope) (fence : Fence)
    (outcome : PublishOutcome) : Except StorageFailure (Database × CompactionJobEnvelope) := do
  let (db, rowcount) ← updateJobs db (JobRow.finishFence job fence)
    (JobRow.finish outcome fence.now)
  require (rowcount = 1) (.staleLeaseError "publication lost its fenced terminal transition")
  let finished ← jobById db job.jobId
  pure (db, finished)

/-- The id of a follow-up job. -/
def followUpId (terminalJobId winnerId : String) (pointerVersion intent : Nat) : String :=
  let digest := Hashlib.sha256Hexdigest
    (terminalJobId ++ "\x00" ++ winnerId ++ "\x00" ++ toString pointerVersion ++ "\x00" ++
      toString intent)
  "followup-" ++ String.ofList (digest.toList.take 32)

/-- `_preserve_follow_up`. -/
def preserveFollowUp (db : Database) (terminalJob : CompactionJobEnvelope)
    (winner : SnapshotEnvelope) (pointerVersion : Nat) (now : Timestamp) :
    Except StorageFailure Database :=
  let intent := terminalJob.intentTargetHighWaterMark
  let hash := terminalJob.sessionKey.sessionKeyHash
  if intent ≤ winner.coveredEventEnd then .ok db
  else
    match db.nonterminalJob hash with
    | some existing =>
        if existing.intentTargetHighWaterMark < intent then do
          let (db, _) ← updateJobs db (fun row => row.jobId = existing.jobId)
            (JobRow.foldIntent intent now)
          pure db
        else .ok db
    | none =>
        insertJob db
          (.pending (followUpId terminalJob.jobId winner.snapshotId pointerVersion intent) hash
            intent (some winner.snapshotId) pointerVersion now)

/-- The follow-up job that a settled row leaves behind: one when its intent reaches past the
coverage of the winner. -/
def followUpJobs (row : JobRow) (winnerId : String) (coverage pointerVersion : Nat)
    (now : Timestamp) : List JobRow :=
  if row.intentTargetHighWaterMark ≤ coverage then []
  else
    [.pending (followUpId row.jobId winnerId pointerVersion row.intentTargetHighWaterMark)
      row.sessionKeyHash row.intentTargetHighWaterMark (some winnerId) pointerVersion now]

/-- The job rows after a publication has settled `row`. -/
def settledJobs (outcome : PublishOutcome) (row : JobRow) (winnerId : String)
    (coverage pointerVersion : Nat) (now : Timestamp) (rows : List JobRow) : List JobRow :=
  update (fun other => other.jobId = row.jobId) (JobRow.finish outcome now) rows ++
    followUpJobs row winnerId coverage pointerVersion now

omit [SecureCodec] in
/-- `_finish_publish_job` finishes exactly the fenced row. -/
theorem finishPublishJob_ok {db db' : Database} {job finished : CompactionJobEnvelope}
    {fence : Fence} {outcome : PublishOutcome} {row : JobRow} (hrow : row ∈ db.compactionJobs)
    (hselected : row.finishFence job fence = true) (hid : row.jobId = job.jobId)
    (h : finishPublishJob db job fence outcome = .ok (db', finished)) :
    db'.toTables = db.withJobs (update (fun other => other.jobId = row.jobId)
        (JobRow.finish outcome fence.now) db.compactionJobs) ∧
      (row.finish outcome fence.now).Represents finished := by
  obtain ⟨⟨db₁, rowcount⟩, hupdate, h⟩ := bind_ok.mp h
  obtain ⟨_, -, h⟩ := bind_ok.mp h
  obtain ⟨finished', hfinished, h⟩ := bind_ok.mp h
  obtain ⟨rfl, rfl⟩ : db₁ = db' ∧ finished' = finished := by simpa using h
  obtain ⟨htables, -⟩ := updateJobs_one hrow hselected (fun other hother => by
    simp only [JobRow.finishFence, Bool.and_eq_true, decide_eq_true_eq] at hother
    exact hother.1.1.1.1.1.trans hid.symm) hupdate
  refine ⟨htables, ?_⟩
  obtain ⟨stored, hstored, hrepresents, -⟩ := jobById_ok hfinished
  have hfound : db₁.jobRow job.jobId = some (row.finish outcome fence.now) := by
    refine Database.jobRow_eq_some.mpr ⟨?_, hid⟩
    rw [congrArg Tables.compactionJobs htables]
    exact mem_update.mpr (.inl ⟨row, hrow, by simp, rfl⟩)
  rw [hfound] at hstored
  obtain rfl := Option.some.inj hstored
  exact hrepresents

omit [SecureCodec] in
/-- When the session has no other nonterminal job, the follow-up is inserted. -/
theorem preserveFollowUp_ok {db db' : Database} {terminalJob : CompactionJobEnvelope}
    {winner : SnapshotEnvelope} {pointerVersion : Nat} {now : Timestamp} (row : JobRow)
    (hid : terminalJob.jobId = row.jobId)
    (hintent : terminalJob.intentTargetHighWaterMark = row.intentTargetHighWaterMark)
    (hsession : terminalJob.sessionKey.sessionKeyHash = row.sessionKeyHash)
    (hterminal : db.nonterminalJob row.sessionKeyHash = none)
    (h : preserveFollowUp db terminalJob winner pointerVersion now = .ok db') :
    db'.toTables = db.withJobs (db.compactionJobs ++
      followUpJobs row winner.snapshotId winner.coveredEventEnd pointerVersion now) := by
  unfold preserveFollowUp at h
  simp only [hid, hintent, hsession, hterminal] at h
  unfold followUpJobs
  split at h
  · next hcovered =>
      obtain rfl : db = db' := by simpa using h
      rw [if_pos hcovered, List.append_nil]
      rfl
  · next hopen =>
      rw [if_neg hopen]
      exact Database.execute_ok.mp h

/-! ## The transaction -/

/-- What `publish_snapshot` has established when it opens its savepoint. -/
structure Admission where
  job : CompactionJobEnvelope
  committed : SnapshotEnvelope
  records : List ReorganizationRecord

/-- The arguments that `publish_snapshot` hands to the gate. -/
def PublishRequest.permanentInput (request : PublishRequest) (job : CompactionJobEnvelope)
    (previous : Option (SnapshotEnvelope × List SnapshotCapsuleMembership))
    (sourceEvents : List EventEnvelope) : PermanentInput where
  previousSnapshot := previous.map Prod.fst
  previousCapsules :=
    (previous.map Prod.snd).getD [] |>.map SnapshotCapsuleMembership.capsule
  candidateSnapshot := request.candidateSnapshot
  candidateCapsules := request.candidateCapsules
  sourceEvents := sourceEvents
  targetHighWaterMark := job.targetHighWaterMark
  tokenCeiling := request.tokenCeiling

/-- The previous bundle of a job: none when it has no base. -/
def previousBundle (db : Database) (job : CompactionJobEnvelope) :
    Except StorageFailure (Option (SnapshotEnvelope × List SnapshotCapsuleMembership)) :=
  match job.baseSnapshotId with
  | none => .ok none
  | some baseSnapshotId => do
      let bundle ← snapshotBundleById db baseSnapshotId job.sessionKey
      pure (some bundle)

/-- The part of `publish_snapshot` before the savepoint: fence, guards and gate. -/
def admitCandidate (db : Database) (request : PublishRequest) :
    Except StorageFailure Admission := do
  let fence := request.fence
  let candidate := request.candidateSnapshot
  require (0 ≤ request.tokenCeiling) (.valueError "token_ceiling must be non-negative")
  let fenceRow ← requireLiveFence db fence.jobId fence.owner fence.leaseEpoch fence.now
  require (fenceRow.state = .readyToCommit)
    (.jobTransitionError "publication requires a READY_TO_COMMIT Job")
  require (fenceRow.candidateSnapshotId = some candidate.snapshotId)
    (.jobTransitionError "candidate Snapshot id does not match the fenced Job")
  require (candidate.state = .candidate)
    (.jobTransitionError "publication accepts only a worker-local CANDIDATE envelope")
  let job ← jobById db fence.jobId
  require (candidate.sessionKey = job.sessionKey)
    (.jobTransitionError "candidate Snapshot belongs to a different Job session")
  validateCandidateMemberships candidate request.memberships
  let records ← (canonicalizeReorganizationRecords request.reorganizationRecords).mapError
    fun _ => .repositoryInvariantError "candidate reorganization records are invalid"
  validateOptionalMetrics candidate request.memberships request.canonicalMetrics
  let previous ← previousBundle db job
  let baseCoverage := (previous.map fun bundle => bundle.1.coveredEventEnd).getD 0
  let sourceEvents ← eventsBetween db job.sessionKey baseCoverage job.targetHighWaterMark
  let report := applyReorganizationRecordQualityFloor
    (validatePermanent (request.permanentInput job previous sourceEvents)) records
  require (report.passed = true) (.publicationRejected report)
  let committed ← SnapshotEnvelope.modelValidate
    { candidate.toSnapshotData with state := .committed, committedAt := some fence.now }
    .validationError
  pure ⟨job, committed, records⟩

/-- What the part before the savepoint has established about the stored job. -/
structure Admits (db : Database) (request : PublishRequest) (admission : Admission)
    (row : JobRow) : Prop where
  stored : db.jobRow request.fence.jobId = some row
  fenced : row.Fenced request.fence.owner request.fence.leaseEpoch request.fence.now
  ready : row.state = .readyToCommit
  candidateId : row.candidateSnapshotId = some request.candidateSnapshot.snapshotId
  represents : row.Represents admission.job
  session : request.candidateSnapshot.sessionKey = admission.job.sessionKey
  sessionRow : ∃ session ∈ db.sessions, session.sessionKeyHash = row.sessionKeyHash ∧
    session.sessionKey = admission.job.sessionKey
  memberships : ValidMemberships request.candidateSnapshot request.memberships
  records : canonicalizeReorganizationRecords request.reorganizationRecords = .ok admission.records
  metrics : validateOptionalMetrics request.candidateSnapshot request.memberships
    request.canonicalMetrics = .ok ()
  committed : admission.committed.toSnapshotData =
    { request.candidateSnapshot.toSnapshotData with
      state := .committed, committedAt := some request.fence.now }
  gate : ∃ previous sourceEvents, previousBundle db admission.job = .ok previous ∧
    eventsBetween db admission.job.sessionKey
      ((previous.map fun bundle => bundle.1.coveredEventEnd).getD 0)
      admission.job.targetHighWaterMark = .ok sourceEvents ∧
    (validatePermanent (request.permanentInput admission.job previous sourceEvents)).passed = true

omit [SecureCodec] in
/-- A publication that reaches its savepoint has passed the fence, its guards and the gate. -/
theorem admitCandidate_ok {db : Database} {request : PublishRequest} {admission : Admission}
    (h : admitCandidate db request = .ok admission) : ∃ row, Admits db request admission row := by
  obtain ⟨_, -, h⟩ := bind_ok.mp h
  obtain ⟨row, hfence, h⟩ := bind_ok.mp h
  obtain ⟨_, hready, h⟩ := bind_ok.mp h
  obtain ⟨_, hcandidateId, h⟩ := bind_ok.mp h
  obtain ⟨_, -, h⟩ := bind_ok.mp h
  obtain ⟨job, hjob, h⟩ := bind_ok.mp h
  obtain ⟨_, hsession, h⟩ := bind_ok.mp h
  obtain ⟨_, hmemberships, h⟩ := bind_ok.mp h
  obtain ⟨records, hrecords, h⟩ := bind_ok.mp h
  obtain ⟨_, hmetrics, h⟩ := bind_ok.mp h
  obtain ⟨previous, hprevious, h⟩ := bind_ok.mp h
  obtain ⟨sourceEvents, hevents, h⟩ := bind_ok.mp h
  obtain ⟨_, hpassed, h⟩ := bind_ok.mp h
  obtain ⟨committed, hcommitted, h⟩ := bind_ok.mp h
  obtain rfl := pure_ok.mp h
  obtain ⟨hstored, hfenced⟩ := requireLiveFence_ok.mp hfence
  obtain ⟨row', hrow', hrepresents, hsessionRow⟩ := jobById_ok hjob
  obtain rfl : row = row' := Option.some.inj (hstored.symm.trans hrow')
  refine ⟨row, hstored, hfenced, require_ok.mp hready, require_ok.mp hcandidateId, hrepresents,
    require_ok.mp hsession, hsessionRow, validateCandidateMemberships_ok.mp hmemberships,
    mapError_ok.mp hrecords, hmetrics, SnapshotEnvelope.modelValidate_ok hcommitted, previous, sourceEvents, hprevious, hevents, ?_⟩
  exact (quality_floor_passed.mp (require_ok.mp hpassed)).1

/-- `publish_snapshot`. -/
def publishSnapshot (faults : FaultInjector) (db : Database) (request : PublishRequest) :
    Except StorageFailure (Database × PublishResult) := do
  let fence := request.fence
  let admission ← admitCandidate db request
  let job := admission.job
  inject faults .publishBeforeSavepoint
  match ← stageCandidate faults db request job admission.committed admission.records with
  | none => do
      let (db, superseded) ← finishPublishJob db job fence .superseded
      inject faults .publishAfterTerminal
      let (winner, pointerVersion, _) ← activeSnapshotBundle db job.sessionKey
      let db ← preserveFollowUp db superseded winner pointerVersion fence.now
      inject faults .publishAfterFollowUp
      pure (db, ⟨.superseded, superseded, winner, pointerVersion⟩)
  | some db => do
      let pointerVersion := job.basePointerVersion + 1
      inject faults .publishAfterPointer
      let (db, committedJob) ← finishPublishJob db job fence .committed
      inject faults .publishAfterTerminal
      let db ← preserveFollowUp db committedJob admission.committed pointerVersion fence.now
      inject faults .publishAfterFollowUp
      pure (db, ⟨.committed, committedJob, admission.committed, pointerVersion⟩)

end AstrContinuum
