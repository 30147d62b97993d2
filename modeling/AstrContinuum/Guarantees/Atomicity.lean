import AstrContinuum.Storage.Transaction
import AstrContinuum.Invariants.Sidecar

/-!
# Publication is atomic

`publish_snapshot` writes eight tables inside a savepoint inside a transaction, and a fault can be
raised between or by any of its statements. `publish_snapshot_atomic` says what the database file
holds afterwards: the database from before, the complete committed publication, or the complete
superseded one.
-/

namespace AstrContinuum

open Checked Relational Connections

variable [Hashlib] [SecureCodec]

/-- The job that a publication settles has a nonterminal successor exactly when its intent reaches
past the coverage of the winner. -/
def FollowUpIff (row : JobRow) (coverage : Nat) (after : Database) : Prop :=
  (∃ job ∈ after.compactionJobs, job.sessionKeyHash = row.sessionKeyHash ∧
    job.state.isNonterminal = true) ↔ coverage < row.intentTargetHighWaterMark

/-- The complete result of a committed publication: the candidate with its memberships, ledger and
metrics is stored, the pointer has moved by one, the job is committed and followed up, and nothing
else has changed. -/
structure CommittedPublication (db : Database) (request : PublishRequest) (row : JobRow)
    (after : Database) : Prop where
  sessions : after.sessions = db.sessions
  journalEvents : after.journalEvents = db.journalEvents
  capsules : ∃ added : List ContextCapsuleEnvelope,
    after.capsules = db.capsules ++ added.map ContextCapsuleEnvelope.row ∧
    ∀ capsule ∈ added, capsule ∈ request.candidateCapsules
  stored : ∀ capsule ∈ request.candidateCapsules, capsule.row ∈ after.capsules
  snapshots : after.snapshots =
    db.snapshots ++ [request.candidateSnapshot.row request.fence.now]
  memberships : after.snapshotCapsules = db.snapshotCapsules ++
    request.memberships.map fun membership => membership.row request.candidateSnapshot.snapshotId
  ledger : ∃ records,
    canonicalizeReorganizationRecords request.reorganizationRecords = .ok records ∧
    after.reorganizationRecords = db.reorganizationRecords ++
      records.zipIdx.map fun entry => entry.1.row request.candidateSnapshot.snapshotId entry.2
  metrics : ∃ added, after.tokenMetrics = db.tokenMetrics ++ added ∧
    ∀ metric ∈ added, metric.key ∈ (request.canonicalMetrics.getD []).map TokenMetric.key
  counted : ∀ metric ∈ request.canonicalMetrics.getD [], ∃ stored ∈ after.tokenMetrics,
    stored.key = metric.key ∧ stored.tokenCount = metric.tokenCount
  intents : after.backfillIntents = db.backfillIntents.filter fun intent =>
    intent.key ∉ (request.canonicalMetrics.getD []).map TokenMetric.key
  base : db.pointer row.sessionKeyHash = (row.baseSnapshotId, row.basePointerVersion)
  pointer : after.pointer row.sessionKeyHash =
    (some request.candidateSnapshot.snapshotId, row.basePointerVersion + 1)
  otherPointers : ∀ hash, hash ≠ row.sessionKeyHash → after.activeRow hash = db.activeRow hash
  jobs : after.compactionJobs = settledJobs .committed row request.candidateSnapshot.snapshotId
    request.candidateSnapshot.coveredEventEnd (row.basePointerVersion + 1) request.fence.now
    db.compactionJobs
  followUp : FollowUpIff row request.candidateSnapshot.coveredEventEnd after

/-- The complete result of a superseded publication: the job is superseded and followed up from the
active snapshot, and every other table is as before. -/
def SupersededPublication (db : Database) (request : PublishRequest) (row : JobRow)
    (after : Database) : Prop :=
  ∃ active winner, db.activeRow row.sessionKeyHash = some active ∧
    db.snapshotRow active.snapshotId = some winner ∧
    after.toTables = db.withJobs (settledJobs .superseded row winner.snapshotId
      winner.coveredEventEnd active.pointerVersion request.fence.now db.compactionJobs) ∧
    FollowUpIff row winner.coveredEventEnd after

omit [SecureCodec] in
/-- The settled rows hold a nonterminal job of the session exactly when the job is followed up. -/
theorem Admits.followUpIff {db after : Database} {request : PublishRequest} {admission : Admission}
    {row : JobRow} (h : Admits db request admission row) {outcome : PublishOutcome}
    {winnerId : String} {coverage pointerVersion : Nat}
    (hjobs : after.compactionJobs = settledJobs outcome row winnerId coverage pointerVersion
      request.fence.now db.compactionJobs) : FollowUpIff row coverage after := by
  unfold FollowUpIff
  rw [hjobs, settledJobs]
  constructor
  · rintro ⟨job, hjob, hsession, hstate⟩
    rcases List.mem_append.mp hjob with hold | hfollow
    · rw [h.finished_terminal hold hsession] at hstate
      cases hstate
    · by_contra hcovered
      rw [followUpJobs, if_pos (Nat.le_of_not_lt hcovered)] at hfollow
      cases hfollow
  · intro hopen
    have hfollow : followUpJobs row winnerId coverage pointerVersion request.fence.now = [_] :=
      if_neg (Nat.not_le.mpr hopen)
    rw [hfollow]
    exact ⟨_, List.mem_append_right _ (List.mem_singleton_self _), rfl, rfl⟩

/-- A staged and settled candidate is a complete publication. -/
theorem Admits.committedPublication {faults : FaultInjector} {db staged after : Database}
    {request : PublishRequest} {admission : Admission} {row : JobRow}
    (h : Admits db request admission row)
    (hstage : stageCandidate faults db request admission.job admission.committed
      admission.records = .ok (some staged))
    (htables : after.toTables = staged.withJobs (settledJobs .committed row
      request.candidateSnapshot.snapshotId request.candidateSnapshot.coveredEventEnd
      (row.basePointerVersion + 1) request.fence.now db.compactionJobs)) :
    CommittedPublication db request row after := by
  have hstaged := stageCandidate_some hstage
  obtain ⟨rows, hrows, hmoved⟩ := stageCandidate_sidecar hstage
  have hsidecar := stageRows_sidecar hrows
  obtain ⟨before, hmetrics, hintents, hwritten⟩ := hsidecar.written
  obtain ⟨added, hadded, hkeys⟩ := hwritten.added
  obtain ⟨committedAt, hcommittedAt, hsnapshots⟩ := hstaged.snapshots
  have hcommitted := h.committed
  obtain rfl : committedAt = request.fence.now := by
    rw [hcommitted] at hcommittedAt
    exact (Option.some.inj hcommittedAt).symm
  have hid : admission.committed.snapshotId = request.candidateSnapshot.snapshotId := by
    rw [hcommitted]
  have hrow : admission.committed.row request.fence.now =
      request.candidateSnapshot.row request.fence.now := by
    simp only [SnapshotEnvelope.row, hcommitted]
  have hhash : admission.job.sessionKey.sessionKeyHash = row.sessionKeyHash :=
    h.represents.session
  have hbase : admission.job.baseSnapshotId = row.baseSnapshotId ∧
      admission.job.basePointerVersion = row.basePointerVersion := by
    rw [h.represents.fields]
    exact ⟨rfl, rfl⟩
  have hpointer : ∀ hash, after.activeRow hash = staged.activeRow hash := by
    intro hash
    rw [Database.activeRow, htables]
    rfl
  refine
    { sessions := by rw [htables]; exact hstaged.sessions
      journalEvents := by rw [htables]; exact hstaged.journalEvents
      capsules := by rw [htables]; exact hstaged.capsules
      stored := ?_
      snapshots := by rw [htables, ← hrow]; exact hsnapshots
      memberships := by rw [htables, ← hid]; exact hstaged.snapshotCapsules
      ledger := ⟨admission.records, h.records, ?_⟩
      metrics := ⟨added, ?_, hkeys⟩
      counted := ?_
      intents := ?_
      base := by rw [← hhash, hstaged.base, hbase.1, hbase.2]
      pointer := ?_
      otherPointers := ?_
      jobs := by rw [htables]; rfl
      followUp := h.followUpIff (congrArg Tables.compactionJobs htables) }
  · intro capsule hcapsule
    obtain ⟨membership, hmembership, rfl⟩ := List.mem_map.mp hcapsule
    rw [htables]
    exact hstaged.stored membership hmembership
  · rw [htables, ← hid]
    show staged.reorganizationRecords = _
    rw [hmoved]
    exact hsidecar.ledger
  · rw [htables, ← hmetrics]
    show staged.tokenMetrics = _
    rw [hmoved]
    exact hadded
  · intro metric hmetric
    rw [htables]
    show ∃ stored ∈ staged.tokenMetrics, _
    rw [hmoved]
    exact hwritten.stored metric hmetric
  · rw [htables, ← hintents]
    show staged.backfillIntents = _
    rw [hmoved]
    exact hwritten.intents
  · rw [Database.pointer, hpointer, ← hhash, ← hid, ← hbase.2]
    exact hstaged.pointer
  · intro hash hne
    rw [hpointer]
    exact hstaged.others hash (by rwa [hhash])

/-- Publication is atomic. Whatever faults are raised at the boundaries and whatever outages meet
the statements, the database file holds afterwards the database from before when the call raised,
and the complete committed or superseded publication of the fenced job when it returned. -/
theorem publish_snapshot_atomic (outages : Outages) (faults : FaultInjector) (db : Database)
    (request : PublishRequest) :
    match publishTransaction outages faults request (.idle db) with
    | .ok result c => ∃ row, db.jobRow request.fence.jobId = some row ∧
        ((result.outcome = .committed ∧ CommittedPublication db request row c.durable) ∨
          (result.outcome = .superseded ∧ SupersededPublication db request row c.durable))
    | .error _ c => c.durable = db := by
  have hatomic := publishTransaction_atomic outages faults db request
  cases hrun : publishTransaction outages faults request (.idle db) with
  | ok result c =>
      rw [hrun] at hatomic
      obtain ⟨t, ⟨db', published⟩, hpublish, ⟨rfl, rfl⟩, hdurable⟩ := hatomic
      obtain ⟨admission, row, hadmits, -, hcases⟩ := publishSnapshot_cases hpublish
      refine ⟨row, hadmits.stored, ?_⟩
      rw [hdurable]
      rcases hcases with ⟨staged, hstage, houtcome, htables⟩ |
        ⟨active, winner, hactive, hwinner, houtcome, htables⟩
      · exact .inl ⟨houtcome, hadmits.committedPublication hstage htables⟩
      · exact .inr ⟨houtcome, active, winner, hactive, hwinner, htables,
          hadmits.followUpIff (congrArg Tables.compactionJobs htables)⟩
  | error e c =>
      rw [hrun] at hatomic
      exact hatomic.durable

end AstrContinuum
