import AstrContinuum.Storage.Schema

/-!
# Reading rows back

The private readers of `SQLiteRepository`: how stored rows become canonical envelopes, and the
fence that every worker operation must pass. Each reader raises `RepositoryInvariantError` when the
rows do not form a canonical value.
-/

namespace AstrContinuum

open Checked Relational

/-! ## Sessions and jobs -/

namespace Database

/-- The row of a session. -/
def sessionRow (db : Database) (hash : String) : Option SessionRow :=
  db.sessions.find? fun row => row.sessionKeyHash = hash

/-- The row of a job. -/
def jobRow (db : Database) (jobId : String) : Option JobRow :=
  db.compactionJobs.find? fun row => row.jobId = jobId

/-- The row of a snapshot. -/
def snapshotRow (db : Database) (snapshotId : String) : Option SnapshotRow :=
  db.snapshots.find? fun row => row.snapshotId = snapshotId

/-- The row of a capsule. -/
def capsuleRow (db : Database) (capsuleId : String) : Option CapsuleRow :=
  db.capsules.find? fun row => row.capsuleId = capsuleId

/-- The active pointer of a session. -/
def activeRow (db : Database) (hash : String) : Option ActiveRow :=
  db.activeSnapshots.find? fun row => row.sessionKeyHash = hash

/-- The nonterminal job of a session. -/
def nonterminalJob (db : Database) (hash : String) : Option JobRow :=
  db.compactionJobs.find? fun row =>
    decide (row.sessionKeyHash = hash) && row.state.isNonterminal

/-- The active pointer of a session as `(snapshot_id, pointer_version)`; `(null, 0)` when there is
none. -/
def pointer (db : Database) (hash : String) : Option String × Nat :=
  match db.activeRow hash with
  | none => (none, 0)
  | some active => (some active.snapshotId, active.pointerVersion)

/-- `covered_event_end` of the active snapshot of a session; zero when there is none. -/
def coverage (db : Database) (hash : String) : Nat :=
  match (db.activeRow hash).bind fun active => db.snapshotRow active.snapshotId with
  | none => 0
  | some snapshot => snapshot.coveredEventEnd

/-- `next_event_sequence - 1` of a session; zero when the session is not stored. -/
def highWaterMark (db : Database) (hash : String) : Nat :=
  match db.sessionRow hash with
  | none => 0
  | some session => session.nextEventSequence - 1

theorem sessionRow_eq_some {db : Database} {hash : String} {row : SessionRow} :
    db.sessionRow hash = some row ↔ row ∈ db.sessions ∧ row.sessionKeyHash = hash :=
  db.consistent.sessions.primaryKey.find_eq_some

theorem jobRow_eq_some {db : Database} {jobId : String} {row : JobRow} :
    db.jobRow jobId = some row ↔ row ∈ db.compactionJobs ∧ row.jobId = jobId :=
  db.consistent.compactionJobs.primaryKey.find_eq_some

theorem snapshotRow_eq_some {db : Database} {snapshotId : String} {row : SnapshotRow} :
    db.snapshotRow snapshotId = some row ↔ row ∈ db.snapshots ∧ row.snapshotId = snapshotId :=
  db.consistent.snapshots.primaryKey.find_eq_some

theorem capsuleRow_eq_some {db : Database} {capsuleId : String} {row : CapsuleRow} :
    db.capsuleRow capsuleId = some row ↔ row ∈ db.capsules ∧ row.capsuleId = capsuleId :=
  db.consistent.capsules.primaryKey.find_eq_some

theorem activeRow_eq_some {db : Database} {hash : String} {row : ActiveRow} :
    db.activeRow hash = some row ↔ row ∈ db.activeSnapshots ∧ row.sessionKeyHash = hash :=
  db.consistent.activeSnapshots.primaryKey.find_eq_some

/-- A database that holds the tables of another one has its pointers. -/
theorem Holds.activeRow_eq {db db' : Database} {rows : List JobRow} {hash : String}
    (h : db'.Holds (db.withJobs rows)) : db'.activeRow hash = db.activeRow hash := by
  rw [activeRow, h.activeSnapshots]
  rfl

/-- A database that holds the tables of another one has its snapshots. -/
theorem Holds.snapshotRow_eq {db db' : Database} {rows : List JobRow} {snapshotId : String}
    (h : db'.Holds (db.withJobs rows)) :
    db'.snapshotRow snapshotId = db.snapshotRow snapshotId := by
  rw [snapshotRow, h.snapshots]
  rfl

/-- The active pointer always resolves to a stored snapshot. -/
theorem exists_snapshotRow_of_active {db : Database} {active : ActiveRow}
    (h : active ∈ db.activeSnapshots) :
    ∃ snapshot, db.snapshotRow active.snapshotId = some snapshot := by
  have href := db.consistent.activeSnapshots.snapshot active h active.snapshotId rfl
  obtain ⟨snapshot, hmem, hid⟩ := List.mem_map.mp href
  exact ⟨snapshot, snapshotRow_eq_some.mpr ⟨hmem, hid⟩⟩

/-- The coverage of a session is that of the snapshot its pointer names. -/
theorem coverage_of_active {db : Database} {hash : String} {active : ActiveRow}
    {snapshot : SnapshotRow} (hactive : db.activeRow hash = some active)
    (hsnapshot : db.snapshotRow active.snapshotId = some snapshot) :
    db.coverage hash = snapshot.coveredEventEnd := by
  simp [coverage, hactive, hsnapshot]

/-- The partial unique index: a session has at most one nonterminal job. -/
theorem nonterminal_unique {db : Database} {row row' : JobRow} (h : row ∈ db.compactionJobs)
    (h' : row' ∈ db.compactionJobs) (hstate : row.state.isNonterminal = true)
    (hstate' : row'.state.isNonterminal = true) (hsession : row.sessionKeyHash = row'.sessionKeyHash) :
    row = row' :=
  db.consistent.compactionJobs.nonterminal.eq_of_key
    (List.mem_filter.mpr ⟨h, hstate⟩) (List.mem_filter.mpr ⟨h', hstate'⟩) hsession

/-- A found nonterminal job is a nonterminal job of the session. -/
theorem nonterminalJob_mem {db : Database} {hash : String} {row : JobRow}
    (h : db.nonterminalJob hash = some row) :
    row ∈ db.compactionJobs ∧ row.sessionKeyHash = hash ∧ row.state.isNonterminal = true := by
  have hfound := List.find?_some h
  simp only [Bool.and_eq_true, decide_eq_true_eq] at hfound
  exact ⟨List.mem_of_find?_eq_some h, hfound⟩

/-- No nonterminal job is found exactly when every job of the session is terminal. -/
theorem nonterminalJob_eq_none {db : Database} {hash : String} :
    db.nonterminalJob hash = none ↔
      ∀ row ∈ db.compactionJobs, row.sessionKeyHash = hash → row.state.isNonterminal = false := by
  simp [nonterminalJob]

end Database

/-- The lease of a row matches `(owner, lease_epoch)` in a working state and expires after `now`. -/
def JobRow.Fenced (row : JobRow) (owner : String) (leaseEpoch : Nat) (now : Timestamp) : Prop :=
  row.state.isWorking = true ∧ row.leaseOwner = some owner ∧ row.leaseEpoch = leaseEpoch ∧
    ∃ expiresAt ∈ row.leaseExpiresAt, now < expiresAt

instance (row : JobRow) (owner : String) (leaseEpoch : Nat) (now : Timestamp) :
    Decidable (row.Fenced owner leaseEpoch now) :=
  inferInstanceAs (Decidable (_ ∧ _ ∧ _ ∧ ∃ expiresAt ∈ row.leaseExpiresAt, _))

/-- `_require_live_fence`. -/
def requireLiveFence (db : Database) (jobId owner : String) (leaseEpoch : Nat) (now : Timestamp) :
    Except StorageFailure JobRow := do
  let stale := StorageFailure.staleLeaseError "worker does not own a matching unexpired lease"
  let row ← orMissing (db.jobRow jobId) stale
  require (row.Fenced owner leaseEpoch now) stale
  pure row

/-- The fence passes exactly on the stored row of the job, and only when its lease matches. -/
theorem requireLiveFence_ok {db : Database} {jobId owner : String} {leaseEpoch : Nat}
    {now : Timestamp} {row : JobRow} :
    requireLiveFence db jobId owner leaseEpoch now = .ok row ↔
      db.jobRow jobId = some row ∧ row.Fenced owner leaseEpoch now := by
  simp only [requireLiveFence, bind_ok, orMissing_ok, require_ok, pure_ok, exists_const]
  constructor
  · rintro ⟨row', hrow, hfenced, rfl⟩
    exact ⟨hrow, hfenced⟩
  · rintro ⟨hrow, hfenced⟩
    exact ⟨row, hrow, hfenced, rfl⟩

/-- The result of `_active_base`. -/
structure ActiveBase where
  snapshotId : Option String
  pointerVersion : Nat
  coverage : Nat
deriving DecidableEq

/-- `_active_base`. -/
def activeBase (db : Database) (hash : String) : Except StorageFailure ActiveBase :=
  match db.activeRow hash with
  | none => .ok ⟨none, 0, 0⟩
  | some active =>
      match db.snapshotRow active.snapshotId with
      | none => .ok ⟨none, 0, 0⟩
      | some snapshot => do
          require (snapshot.sessionKeyHash = hash)
            (.repositoryInvariantError "active pointer resolves to a Snapshot from another session")
          pure ⟨some active.snapshotId, active.pointerVersion, snapshot.coveredEventEnd⟩

/-- `_active_base` returns the pointer of the session with the coverage of its snapshot. -/
theorem activeBase_ok {db : Database} {hash : String} {base : ActiveBase}
    (h : activeBase db hash = .ok base) :
    (base.snapshotId, base.pointerVersion) = db.pointer hash ∧
      base.coverage = db.coverage hash := by
  unfold activeBase at h
  cases hactive : db.activeRow hash with
  | none =>
      obtain rfl : ⟨none, 0, 0⟩ = base := by simpa [hactive] using h
      simp [Database.pointer, Database.coverage, hactive]
  | some active =>
      obtain ⟨snapshot, hsnapshot⟩ := Database.exists_snapshotRow_of_active
        (Database.activeRow_eq_some.mp hactive).1
      simp only [hactive, hsnapshot] at h
      obtain ⟨-, -, h⟩ := bind_ok.mp h
      obtain rfl := pure_ok.mp h
      simp [Database.pointer, Database.coverage, hactive, hsnapshot]

variable [Hashlib]

/-- `_session_key_from_storage`. -/
def sessionKeyFromStorage (row : SessionRow) : Except StorageFailure SessionKey := do
  require (row.sessionKey.sessionKeyHash = row.sessionKeyHash)
    (.repositoryInvariantError "durable SessionKey hash does not match canonical identity")
  pure row.sessionKey

/-- A session row is read back exactly when its key hashes to its primary key. -/
@[simp] theorem sessionKeyFromStorage_ok {row : SessionRow} {sessionKey : SessionKey} :
    sessionKeyFromStorage row = .ok sessionKey ↔
      row.sessionKey = sessionKey ∧ sessionKey.sessionKeyHash = row.sessionKeyHash := by
  simp only [sessionKeyFromStorage, bind_ok, require_ok, pure_ok, exists_const]
  constructor
  · rintro ⟨hhash, rfl⟩
    exact ⟨rfl, hhash⟩
  · rintro ⟨rfl, hhash⟩
    exact ⟨hhash, rfl⟩

/-- `CompactionJobEnvelope(...)`: the envelope of valid job fields. -/
def CompactionJobEnvelope.modelValidate (job : JobData) :
    Except StorageFailure CompactionJobEnvelope :=
  if h : job.Valid then .ok ⟨job, h⟩
  else .error (.repositoryInvariantError "compaction Job row does not form a canonical envelope")

/-- The fields that `_job_from_row` reads. -/
def JobRow.data (row : JobRow) (sessionKey : SessionKey) : JobData where
  jobId := row.jobId
  sessionKey := sessionKey
  state := row.state
  targetHighWaterMark := row.targetHighWaterMark
  intentTargetHighWaterMark := row.intentTargetHighWaterMark
  baseSnapshotId := row.baseSnapshotId
  basePointerVersion := row.basePointerVersion
  candidateSnapshotId := row.candidateSnapshotId
  attemptCount := row.attemptCount
  leaseOwner := row.leaseOwner
  leaseEpoch := row.leaseEpoch
  leaseExpiresAt := row.leaseExpiresAt
  nextRetryAt := row.nextRetryAt
  errorStage := row.errorStage
  errorCode := row.errorCode
  errorMessage := row.errorMessage
  createdAt := row.createdAt
  updatedAt := row.updatedAt
  committedAt := row.committedAt

/-- `_job_from_row`. -/
def jobFromRow (row : JobRow) (session : SessionRow) :
    Except StorageFailure CompactionJobEnvelope := do
  let sessionKey ← sessionKeyFromStorage session
  let job ← CompactionJobEnvelope.modelValidate (row.data sessionKey)
  require (row.sessionKeyHash = sessionKey.sessionKeyHash)
    (.repositoryInvariantError "compaction Job physical session identity does not round-trip")
  pure job

/-- `_job_by_id`. -/
def jobById (db : Database) (jobId : String) : Except StorageFailure CompactionJobEnvelope := do
  let row ← orMissing (db.jobRow jobId)
    (.repositoryInvariantError "durable compaction Job is missing")
  let session ← orMissing (db.sessionRow row.sessionKeyHash)
    (.repositoryInvariantError "durable compaction Job is missing")
  jobFromRow row session

/-- An envelope represents the stored row of its job. -/
structure JobRow.Represents (row : JobRow) (job : CompactionJobEnvelope) : Prop where
  fields : job.toJobData = row.data job.sessionKey
  session : job.sessionKey.sessionKeyHash = row.sessionKeyHash

/-- `_job_by_id` returns the envelope of the stored row. -/
theorem jobById_ok {db : Database} {jobId : String} {job : CompactionJobEnvelope}
    (h : jobById db jobId = .ok job) :
    ∃ row, db.jobRow jobId = some row ∧ row.Represents job ∧
      ∃ session ∈ db.sessions, session.sessionKeyHash = row.sessionKeyHash ∧
        session.sessionKey = job.sessionKey := by
  obtain ⟨row, hrow, h⟩ := bind_ok.mp h
  obtain ⟨session, hsession, h⟩ := bind_ok.mp h
  obtain ⟨sessionKey, hkey, h⟩ := bind_ok.mp h
  obtain ⟨job', hjob, h⟩ := bind_ok.mp h
  obtain ⟨_, hhash, h⟩ := bind_ok.mp h
  obtain rfl : job' = job := by simpa using h
  obtain ⟨rfl, -⟩ := sessionKeyFromStorage_ok.mp hkey
  obtain ⟨hmem, hsessionHash⟩ := Database.sessionRow_eq_some.mp (orMissing_ok.mp hsession)
  have hfields : job'.toJobData = row.data session.sessionKey := by
    unfold CompactionJobEnvelope.modelValidate at hjob
    split at hjob
    · cases hjob
      rfl
    · cases hjob
  have hsessionKey : job'.sessionKey = session.sessionKey := by rw [hfields]; rfl
  refine ⟨row, orMissing_ok.mp hrow, ⟨?_, ?_⟩, session, hmem, hsessionHash, hsessionKey.symm⟩
  · rw [hsessionKey, hfields]
  · rw [hsessionKey]
    exact (require_ok.mp hhash).symm

/-! ## Events -/

/-- `EventEnvelope(...)`: the envelope of valid event fields. -/
def EventEnvelope.modelValidate (event : EventData) (failure : StorageFailure) :
    Except StorageFailure EventEnvelope :=
  if h : event.Valid then .ok ⟨event, h⟩ else .error failure

omit [Hashlib] in
/-- A validated event has the given fields. -/
theorem EventEnvelope.modelValidate_ok {data : EventData} {failure : StorageFailure}
    {event : EventEnvelope} (h : EventEnvelope.modelValidate data failure = .ok event) :
    event.toEventData = data := by
  unfold EventEnvelope.modelValidate at h
  split at h
  · cases h
    rfl
  · cases h

/-- The fields that `_event_from_row` reads. -/
def EventRow.data (row : EventRow) (sessionKey : SessionKey) : EventData where
  eventId := row.eventId
  sessionKey := sessionKey
  sequence := row.sequence
  eventType := row.eventType
  role := row.role
  content := row.content
  sourceHook := row.sourceHook
  idempotencyKey := row.idempotencyKey
  tokenCount := row.tokenCount
  createdAt := row.createdAt

/-- `_event_from_row`. -/
def eventFromRow (sessionKey : SessionKey) (row : EventRow) :
    Except StorageFailure EventEnvelope := do
  require (row.sessionKeyHash = sessionKey.sessionKeyHash)
    (.repositoryInvariantError "Journal event belongs to a different durable session")
  EventEnvelope.modelValidate (row.data sessionKey)
    (.repositoryInvariantError "Journal event row does not form a canonical envelope")

/-- The journal rows of a session with sequences in `(startExclusive, endInclusive]`, in order. -/
def Database.eventRowsBetween (db : Database) (hash : String)
    (startExclusive endInclusive : Nat) : List EventRow :=
  orderBy EventRow.sequence (db.journalEvents.filter fun row =>
    decide (row.sessionKeyHash = hash) && decide (startExclusive < row.sequence) &&
      decide (row.sequence ≤ endInclusive))

/-- `_events_between`. -/
def eventsBetween (db : Database) (sessionKey : SessionKey) (startExclusive endInclusive : Nat) :
    Except StorageFailure (List EventEnvelope) :=
  (db.eventRowsBetween sessionKey.sessionKeyHash startExclusive endInclusive).mapM
    (eventFromRow sessionKey)

/-- An event that is read back has the fields of its row. -/
theorem eventFromRow_ok {sessionKey : SessionKey} {row : EventRow} {event : EventEnvelope}
    (h : eventFromRow sessionKey row = .ok event) : event.toEventData = row.data sessionKey := by
  obtain ⟨-, -, h⟩ := bind_ok.mp h
  exact EventEnvelope.modelValidate_ok h

/-- `_events_between` returns the envelopes of the journal rows in the range. -/
theorem eventsBetween_ok {db : Database} {sessionKey : SessionKey} {start stop : Nat}
    {events : List EventEnvelope} (h : eventsBetween db sessionKey start stop = .ok events) :
    events.map EventEnvelope.toEventData =
      (db.eventRowsBetween sessionKey.sessionKeyHash start stop).map
        fun row => row.data sessionKey := by
  have hall := mapM_ok.mp h
  rw [← List.forall₂_eq_eq_eq, List.forall₂_map_left_iff, List.forall₂_map_right_iff]
  exact hall.flip.imp fun event row hevent => eventFromRow_ok hevent

/-! ## Snapshots -/

/-- `SnapshotCapsuleMembership`. -/
structure SnapshotCapsuleMembership where
  ordinal : Nat
  slot : String
  capsule : ContextCapsuleEnvelope
deriving DecidableEq

/-- `SnapshotCapsuleMembership.capsule_id`. -/
def SnapshotCapsuleMembership.capsuleId (membership : SnapshotCapsuleMembership) : String :=
  membership.capsule.capsuleId

/-- The columns of a capsule row are those of the capsule it stores. -/
def CapsuleRow.RoundTrips (row : CapsuleRow) (sessionKey : SessionKey) : Prop :=
  row.capsuleId = row.canonicalCapsule.capsuleId ∧
    row.sessionKeyHash = sessionKey.sessionKeyHash ∧
    row.canonicalCapsule.sessionKey = sessionKey ∧ row.level = row.canonicalCapsule.level ∧
    row.coveredEventStart = row.canonicalCapsule.coveredEventStart ∧
    row.coveredEventEnd = row.canonicalCapsule.coveredEventEnd ∧
    row.tokenCost = row.canonicalCapsule.tokenCost ∧
    row.sourceCoverage = row.canonicalCapsule.quality.sourceCoverage ∧
    row.createdAt = row.canonicalCapsule.createdAt.instant

instance (row : CapsuleRow) (sessionKey : SessionKey) : Decidable (row.RoundTrips sessionKey) :=
  inferInstanceAs (Decidable (_ ∧ _))

/-- The joined rows of a snapshot's memberships, in ordinal order. -/
def Database.membershipRows (db : Database) (snapshotId : String) :
    List (MembershipRow × CapsuleRow) :=
  orderBy (fun row => row.1.ordinal)
    ((db.snapshotCapsules.filter fun row => row.snapshotId = snapshotId).flatMap fun membership =>
      (db.capsules.filter fun capsule => capsule.capsuleId = membership.capsuleId).map
        fun capsule => (membership, capsule))

/-- The loop of `_memberships_for_snapshot` from a given ordinal on. -/
def membershipsFrom (sessionKey : SessionKey) :
    Nat → List (MembershipRow × CapsuleRow) →
      Except StorageFailure (List SnapshotCapsuleMembership)
  | _, [] => .ok []
  | expectedOrdinal, (membership, capsule) :: rest => do
      require (membership.ordinal = expectedOrdinal ∧ capsule.RoundTrips sessionKey)
        (.repositoryInvariantError
          "Snapshot membership does not round-trip its canonical Capsule")
      let memberships ← membershipsFrom sessionKey (expectedOrdinal + 1) rest
      pure (⟨expectedOrdinal, membership.slot, capsule.canonicalCapsule⟩ :: memberships)

/-- `_memberships_for_snapshot`. -/
def membershipsForSnapshot (db : Database) (snapshotId : String) (sessionKey : SessionKey) :
    Except StorageFailure (List SnapshotCapsuleMembership) :=
  membershipsFrom sessionKey 0 (db.membershipRows snapshotId)

/-- The capsules of a snapshot, in ordinal order. -/
def Database.capsulesOf (db : Database) (snapshotId : String) : List ContextCapsuleEnvelope :=
  (db.membershipRows snapshotId).map fun row => row.2.canonicalCapsule

/-- The loop reads back the stored capsules. -/
theorem membershipsFrom_ok {sessionKey : SessionKey} {ordinal : Nat}
    {rows : List (MembershipRow × CapsuleRow)} {memberships : List SnapshotCapsuleMembership}
    (h : membershipsFrom sessionKey ordinal rows = .ok memberships) :
    memberships.map SnapshotCapsuleMembership.capsule =
      rows.map fun row => row.2.canonicalCapsule := by
  induction rows generalizing ordinal memberships with
  | nil =>
      obtain rfl : [] = memberships := by simpa [membershipsFrom] using h
      rfl
  | cons row rest ih =>
      obtain ⟨membership, capsule⟩ := row
      obtain ⟨-, -, h⟩ := bind_ok.mp h
      obtain ⟨tail, htail, h⟩ := bind_ok.mp h
      obtain rfl := pure_ok.mp h
      simp [ih htail]

/-- The loop accepts only capsules of the session. -/
theorem membershipsFrom_session {sessionKey : SessionKey} {ordinal : Nat}
    {rows : List (MembershipRow × CapsuleRow)} {memberships : List SnapshotCapsuleMembership}
    (h : membershipsFrom sessionKey ordinal rows = .ok memberships) :
    ∀ membership ∈ memberships, membership.capsule.sessionKey = sessionKey := by
  induction rows generalizing ordinal memberships with
  | nil =>
      obtain rfl : [] = memberships := by simpa [membershipsFrom] using h
      simp
  | cons row rest ih =>
      obtain ⟨membership, capsule⟩ := row
      obtain ⟨_, hround, h⟩ := bind_ok.mp h
      obtain ⟨tail, htail, h⟩ := bind_ok.mp h
      obtain rfl := pure_ok.mp h
      intro other hother
      rcases List.mem_cons.mp hother with rfl | hother
      · exact (require_ok.mp hround).2.2.2.1
      · exact ih htail other hother

/-- The fields that `_snapshot_from_row` reads. -/
def SnapshotRow.data (row : SnapshotRow) (sessionKey : SessionKey) (capsuleIds : List String) :
    SnapshotData where
  snapshotId := row.snapshotId
  sessionKey := sessionKey
  baseSnapshotId := row.baseSnapshotId
  coveredEventEnd := row.coveredEventEnd
  sourceHighWaterMark := row.sourceHighWaterMark
  capsuleIds := capsuleIds
  exactAnchorIds := row.exactAnchorIds
  renderedContext := row.renderedContext
  tokenCost := row.tokenCost
  auditOutcome := row.auditOutcome
  state := row.lifecycleState
  createdAt := row.createdAt
  committedAt := some row.committedAt

/-- `SnapshotEnvelope(...)`: the envelope of valid snapshot fields. -/
def SnapshotEnvelope.modelValidate (snapshot : SnapshotData) (failure : StorageFailure) :
    Except StorageFailure SnapshotEnvelope :=
  if h : snapshot.Valid then .ok ⟨snapshot, h⟩ else .error failure

omit [Hashlib] in
/-- A validated snapshot has the given fields. -/
theorem SnapshotEnvelope.modelValidate_ok {data : SnapshotData} {failure : StorageFailure}
    {snapshot : SnapshotEnvelope}
    (h : SnapshotEnvelope.modelValidate data failure = .ok snapshot) :
    snapshot.toSnapshotData = data := by
  unfold SnapshotEnvelope.modelValidate at h
  split at h
  · cases h
    rfl
  · cases h

/-- `_snapshot_from_row`. -/
def snapshotFromRow (row : SnapshotRow) (sessionKey : SessionKey) (capsuleIds : List String) :
    Except StorageFailure SnapshotEnvelope := do
  let snapshot ← SnapshotEnvelope.modelValidate (row.data sessionKey capsuleIds)
    (.repositoryInvariantError "committed Snapshot row does not form a canonical envelope")
  require (row.sessionKeyHash = sessionKey.sessionKeyHash)
    (.repositoryInvariantError "active Snapshot belongs to a different durable session")
  pure snapshot

/-- `_validate_snapshot_memberships`. -/
def validateSnapshotMemberships (snapshot : SnapshotEnvelope)
    (memberships : List SnapshotCapsuleMembership) : Except StorageFailure Unit := do
  require (memberships ≠ [] ∧
      snapshot.capsuleIds = memberships.map SnapshotCapsuleMembership.capsuleId)
    (.repositoryInvariantError "committed Snapshot has invalid ordered Capsule membership")
  require (snapshot.exactAnchorIds =
      (activeAnchors (memberships.map SnapshotCapsuleMembership.capsule)).map
        fun anchor => anchor.anchorId)
    (.repositoryInvariantError "committed Snapshot exact anchors disagree with Capsule membership")

/-- `_snapshot_bundle_by_id`. -/
def snapshotBundleById (db : Database) (snapshotId : String) (sessionKey : SessionKey) :
    Except StorageFailure (SnapshotEnvelope × List SnapshotCapsuleMembership) := do
  let row ← orMissing (db.snapshotRow snapshotId)
    (.repositoryInvariantError "Job base Snapshot is missing")
  let session ← orMissing (db.sessionRow row.sessionKeyHash)
    (.repositoryInvariantError "Job base Snapshot is missing")
  let storedSessionKey ← sessionKeyFromStorage session
  require (storedSessionKey = sessionKey)
    (.repositoryInvariantError "Snapshot belongs to a different durable session")
  let memberships ← membershipsForSnapshot db snapshotId sessionKey
  let snapshot ← snapshotFromRow row sessionKey
    (memberships.map SnapshotCapsuleMembership.capsuleId)
  validateSnapshotMemberships snapshot memberships
  pure (snapshot, memberships)

/-- `_snapshot_bundle_by_id` returns the stored snapshot with its stored capsules. -/
theorem snapshotBundleById_ok {db : Database} {snapshotId : String} {sessionKey : SessionKey}
    {snapshot : SnapshotEnvelope} {memberships : List SnapshotCapsuleMembership}
    (h : snapshotBundleById db snapshotId sessionKey = .ok (snapshot, memberships)) :
    ∃ row, db.snapshotRow snapshotId = some row ∧
      row.sessionKeyHash = sessionKey.sessionKeyHash ∧
      snapshot.toSnapshotData =
        row.data sessionKey (memberships.map SnapshotCapsuleMembership.capsuleId) ∧
      memberships.map SnapshotCapsuleMembership.capsule = db.capsulesOf snapshotId := by
  obtain ⟨row, hrow, h⟩ := bind_ok.mp h
  obtain ⟨session, -, h⟩ := bind_ok.mp h
  obtain ⟨stored, -, h⟩ := bind_ok.mp h
  obtain ⟨-, -, h⟩ := bind_ok.mp h
  obtain ⟨memberships', hmemberships, h⟩ := bind_ok.mp h
  obtain ⟨snapshot', hsnapshot, h⟩ := bind_ok.mp h
  obtain ⟨-, -, h⟩ := bind_ok.mp h
  obtain ⟨rfl, rfl⟩ : snapshot' = snapshot ∧ memberships' = memberships := by simpa using h
  obtain ⟨envelope, henvelope, hsnapshot⟩ := bind_ok.mp hsnapshot
  obtain ⟨_, hhash, hsnapshot⟩ := bind_ok.mp hsnapshot
  obtain rfl := pure_ok.mp hsnapshot
  exact ⟨row, orMissing_ok.mp hrow, require_ok.mp hhash,
    SnapshotEnvelope.modelValidate_ok henvelope, membershipsFrom_ok hmemberships⟩

/-- `_snapshot_bundle_by_id` returns capsules of the session only. -/
theorem snapshotBundleById_session {db : Database} {snapshotId : String} {sessionKey : SessionKey}
    {snapshot : SnapshotEnvelope} {memberships : List SnapshotCapsuleMembership}
    (h : snapshotBundleById db snapshotId sessionKey = .ok (snapshot, memberships)) :
    ∀ membership ∈ memberships, membership.capsule.sessionKey = sessionKey := by
  obtain ⟨_, -, h⟩ := bind_ok.mp h
  obtain ⟨_, -, h⟩ := bind_ok.mp h
  obtain ⟨_, -, h⟩ := bind_ok.mp h
  obtain ⟨-, -, h⟩ := bind_ok.mp h
  obtain ⟨memberships', hmemberships, h⟩ := bind_ok.mp h
  obtain ⟨_, -, h⟩ := bind_ok.mp h
  obtain ⟨-, -, h⟩ := bind_ok.mp h
  obtain ⟨-, rfl⟩ : _ = snapshot ∧ memberships' = memberships := by simpa using h
  exact membershipsFrom_session hmemberships

/-- `_active_snapshot_bundle`. -/
def activeSnapshotBundle (db : Database) (sessionKey : SessionKey) :
    Except StorageFailure (SnapshotEnvelope × Nat × List SnapshotCapsuleMembership) := do
  let row ← orMissing (db.activeRow sessionKey.sessionKeyHash)
    (.repositoryInvariantError "publish conflict has no durable active winner")
  let (snapshot, memberships) ← snapshotBundleById db row.snapshotId sessionKey
  require (snapshot.sessionKey = sessionKey)
    (.repositoryInvariantError "publish winner belongs to another durable session")
  pure (snapshot, row.pointerVersion, memberships)

end AstrContinuum
