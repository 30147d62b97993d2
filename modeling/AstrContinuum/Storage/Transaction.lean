import AstrContinuum.Control.Connection
import AstrContinuum.Storage.Publication

/-!
# The publication transaction, statement by statement

`publish_snapshot` as it talks to its connection: `BEGIN IMMEDIATE`, the fence and gate queries, the
savepoint, the inserts with their `try` blocks, `ROLLBACK TO` and `RELEASE`, and the commit. Each
helper that executes at most one write is one statement here. The read model `publishSnapshot` is
the same transaction as one step, and `publishBody_follows` says so.
-/

namespace AstrContinuum

open Checked Connections

variable [Hashlib] [SecureCodec]

/-- A session of the repository. -/
abbrev RepositorySession := Session StorageFailure Database

/-- `except sqlite3.IntegrityError`. -/
def StorageFailure.isIntegrityError : StorageFailure → Bool
  | .integrityError => true
  | _ => false

/-- A loop of caught inserts, and whether it met a conflict. -/
def insertItems (outages : Outages) {α : Type}
    (insert : Database → α → Except StorageFailure Database) (faults : FaultInjector)
    (boundary : Boundary) : Nat → List α → RepositorySession Bool
  | _, [] => pure false
  | call, item :: rest => do
      match ← catching StorageFailure.isIntegrityError (write outages fun db => insert db item) with
      | none => pure true
      | some () => do
          lift (inject faults boundary call)
          insertItems outages insert faults boundary (call + 1) rest

/-- `INSERT INTO snapshot_reorganization_records`, without the boundary that follows it. -/
def insertRecordRow (snapshotId : String) (db : Database) (entry : ReorganizationRecord × Nat) :
    Except StorageFailure Database := do
  let (record, ordinal) := entry
  require (record.beforeTokens ≤ sqliteMaxInteger ∧ record.afterTokens ≤ sqliteMaxInteger)
    .overflowError
  Database.execute { db.toTables with
    reorganizationRecords := db.reorganizationRecords ++ [record.row snapshotId ordinal] }

/-- The ledger loop. -/
def insertRecords (outages : Outages) (faults : FaultInjector) (snapshotId : String) :
    List (ReorganizationRecord × Nat) → RepositorySession Unit
  | [] => pure ()
  | entry :: rest => do
      write outages fun db => insertRecordRow snapshotId db entry
      lift (inject faults .publishAfterLedger entry.2)
      insertRecords outages faults snapshotId rest

/-- The metric loop. -/
def putMetrics (outages : Outages) (faults : FaultInjector) (now : Timestamp) :
    List (TokenMetric × Nat) → RepositorySession Unit
  | [] => pure ()
  | entry :: rest => do
      write outages fun db => putInTransaction db entry.1 now
      write outages fun db => deleteBackfillIntent db entry.1.key
      lift (inject faults .publishAfterMetric entry.2)
      putMetrics outages faults now rest

/-- The inserts under the savepoint, and whether one met a conflict. -/
def insertCandidate (outages : Outages) (faults : FaultInjector) (request : PublishRequest)
    (committed : SnapshotEnvelope) (records : List ReorganizationRecord) :
    RepositorySession Bool := do
  let conflict ← insertItems outages
    (fun db (membership : SnapshotCapsuleMembership) => insertOrVerifyCapsule db membership.capsule)
    faults .publishAfterCapsule 0 request.memberships
  if conflict then pure true
  else
    match ← catching StorageFailure.isIntegrityError
        (write outages fun db => insertCommittedSnapshot db committed) with
    | none => pure true
    | some () => do
        lift (inject faults .publishAfterSnapshot)
        let conflict ← insertItems outages (insertMembership committed.snapshotId) faults
          .publishAfterMembership 0 request.memberships
        if conflict then pure true
        else do
          insertRecords outages faults committed.snapshotId records.zipIdx
          putMetrics outages faults request.fence.now (request.canonicalMetrics.getD []).zipIdx
          pure false

/-- The writes under the savepoint, and whether one met a conflict. -/
def stageInSavepoint (outages : Outages) (faults : FaultInjector) (request : PublishRequest)
    (job : CompactionJobEnvelope) (committed : SnapshotEnvelope)
    (records : List ReorganizationRecord) : RepositorySession Bool := do
  let conflict ← insertCandidate outages faults request committed records
  if conflict then pure true
  else do
    let moved ← execute outages fun db =>
      casActivePointer db job committed.snapshotId request.fence.now
    pure (!moved)

/-- `_finish_publish_job`: the update, its row count and the job read back. -/
def finishJob (outages : Outages) (job : CompactionJobEnvelope) (fence : Fence)
    (outcome : PublishOutcome) : RepositorySession CompactionJobEnvelope := do
  let rowcount ← execute outages fun db =>
    updateJobs db (JobRow.finishFence job fence) (JobRow.finish outcome fence.now)
  lift (require (rowcount = 1)
    (.staleLeaseError "publication lost its fenced terminal transition"))
  read outages fun db => jobById db job.jobId

/-- The branch of a conflict: back to the savepoint, and supersede the job. -/
def supersede (outages : Outages) (faults : FaultInjector) (request : PublishRequest)
    (job : CompactionJobEnvelope) : RepositorySession PublishResult := do
  let fence := request.fence
  rollbackTo outages "publish_candidate"
  release outages "publish_candidate"
  let superseded ← finishJob outages job fence .superseded
  lift (inject faults .publishAfterTerminal)
  let (winner, pointerVersion, _) ← read outages fun db => activeSnapshotBundle db job.sessionKey
  write outages fun db => preserveFollowUp db superseded winner pointerVersion fence.now
  lift (inject faults .publishAfterFollowUp)
  pure ⟨.superseded, superseded, winner, pointerVersion⟩

/-- The branch without a conflict: the job is committed inside the savepoint. -/
def commitJob (outages : Outages) (faults : FaultInjector) (request : PublishRequest)
    (job : CompactionJobEnvelope) (committed : SnapshotEnvelope) :
    RepositorySession PublishResult := do
  let fence := request.fence
  let pointerVersion := job.basePointerVersion + 1
  lift (inject faults .publishAfterPointer)
  let committedJob ← finishJob outages job fence .committed
  lift (inject faults .publishAfterTerminal)
  write outages fun db => preserveFollowUp db committedJob committed pointerVersion fence.now
  lift (inject faults .publishAfterFollowUp)
  release outages "publish_candidate"
  pure ⟨.committed, committedJob, committed, pointerVersion⟩

/-- The body of `publish_snapshot` inside its transaction. -/
def publishBody (outages : Outages) (faults : FaultInjector) (request : PublishRequest) :
    RepositorySession PublishResult := do
  let admission ← read outages fun db => admitCandidate db request
  lift (inject faults .publishBeforeSavepoint)
  savepoint outages "publish_candidate"
  let conflict ← stageInSavepoint outages faults request admission.job admission.committed
    admission.records
  if conflict then supersede outages faults request admission.job
  else commitJob outages faults request admission.job admission.committed

/-- `publish_snapshot` on a connection. -/
def publishTransaction (outages : Outages) (faults : FaultInjector) (request : PublishRequest) :
    RepositorySession PublishResult :=
  transaction outages (publishBody outages faults request)

/-! ## Refinement -/

section Refinement

variable {outages : Outages} {faults : FaultInjector} {db : Database}
  {savepoints : List (String × Database)}

/-- A caught insert met a conflict, or its result is the working copy. -/
inductive Caught (db : Database) (savepoints : List (String × Database)) :
    Option Unit → Transaction Database → Option Database → Prop
  | conflict : Caught db savepoints none ⟨db, savepoints, true⟩ none
  | inserted (db' : Database) :
      Caught db savepoints (some ()) ⟨db', savepoints, true⟩ (some db')

/-- Staged writes met a conflict, or their result is the working copy. -/
inductive StagedIn (savepoints : List (String × Database)) :
    Bool → Transaction Database → Option Database → Prop
  | conflict (db : Database) : StagedIn savepoints true ⟨db, savepoints, true⟩ none
  | staged (db : Database) : StagedIn savepoints false ⟨db, savepoints, true⟩ (some db)

/-- The working copy is the result of the writes. -/
def Writes (savepoints : List (String × Database)) (_ : Unit) (t : Transaction Database)
    (db : Database) : Prop :=
  t = ⟨db, savepoints, true⟩

omit [Hashlib] [SecureCodec] in
/-- A caught write is the write up to conflicts. -/
theorem catching_follows {f : Database → Except StorageFailure Database} :
    Follows outages (Caught db savepoints)
      (catching StorageFailure.isIntegrityError (write outages f)) ⟨db, savepoints, true⟩
      (orConflict (f db)) := by
  refine Follows.catching_write ?_ ?_ ?_
  · intro db' h
    simp only at h
    exact ⟨some db', by rw [h]; rfl, .inserted db'⟩
  · intro e h hcaught
    simp only at h
    cases e with
    | integrityError => exact ⟨none, by rw [h]; rfl, .conflict⟩
    | _ => cases hcaught
  · intro e h hcaught
    simp only at h
    rw [h]
    cases e with
    | integrityError => cases hcaught
    | _ => rfl

omit [Hashlib] [SecureCodec] in
/-- The insert loops stop at the first conflict. -/
theorem insertItems_follows {α : Type} {insert : Database → α → Except StorageFailure Database}
    {boundary : Boundary} {call : Nat} {items : List α} :
    Follows outages (StagedIn savepoints) (insertItems outages insert faults boundary call items)
      ⟨db, savepoints, true⟩ (insertUntilConflict insert faults boundary call db items) := by
  induction items generalizing call db with
  | nil => exact .pure (.staged db)
  | cons item rest ih =>
      refine catching_follows.bind fun caught t staged h => ?_
      cases h with
      | conflict => exact .pure (.conflict db)
      | inserted db' =>
          refine Follows.lift.bind fun _ t _ h => ?_
          obtain ⟨rfl, -⟩ := h
          exact ih

omit [Hashlib] [SecureCodec] in
/-- The ledger loop. -/
theorem insertRecords_follows {snapshotId : String}
    {entries : List (ReorganizationRecord × Nat)} :
    Follows outages (Writes savepoints) (insertRecords outages faults snapshotId entries)
      ⟨db, savepoints, true⟩
      (forEach (insertReorganizationRecord faults snapshotId) db entries) := by
  induction entries generalizing db with
  | nil => exact .pure rfl
  | cons entry rest ih =>
      have hbody : insertReorganizationRecord faults snapshotId db entry =
          (insertRecordRow snapshotId db entry >>= fun db' =>
            inject faults .publishAfterLedger entry.2 >>= fun _ => pure db') := by
        simp only [insertReorganizationRecord, insertRecordRow, bind_assoc]
      rw [forEach_cons, hbody, bind_assoc]
      refine Follows.write.bind fun _ t db' h => ?_
      subst h
      rw [bind_assoc]
      refine Follows.lift.bind fun _ t _ h => ?_
      obtain ⟨rfl, -⟩ := h
      exact ih

omit [Hashlib] in
/-- The metric loop. -/
theorem putMetrics_follows {now : Timestamp} {entries : List (TokenMetric × Nat)} :
    Follows outages (Writes savepoints) (putMetrics outages faults now entries)
      ⟨db, savepoints, true⟩ (forEach (publishMetric faults now) db entries) := by
  induction entries generalizing db with
  | nil => exact .pure rfl
  | cons entry rest ih =>
      rw [forEach_cons, publishMetric, writeMetric, bind_assoc, bind_assoc]
      refine Follows.write.bind fun _ t db₁ h => ?_
      subst h
      refine Follows.write.bind fun _ t db₂ h => ?_
      subst h
      rw [bind_assoc]
      refine Follows.lift.bind fun _ t _ h => ?_
      obtain ⟨rfl, -⟩ := h
      exact ih

/-- The inserts of a candidate. -/
theorem insertCandidate_follows {request : PublishRequest} {committed : SnapshotEnvelope}
    {records : List ReorganizationRecord} :
    Follows outages (StagedIn savepoints)
      (insertCandidate outages faults request committed records) ⟨db, savepoints, true⟩
      (stageRows faults db request committed records) := by
  refine insertItems_follows.bind fun conflict t staged h => ?_
  cases h with
  | conflict db => exact .pure (.conflict db)
  | staged db =>
  refine catching_follows.bind fun caught t staged h => ?_
  cases h with
  | conflict => exact .pure (.conflict db)
  | inserted db =>
  refine Follows.lift.bind fun _ t _ h => ?_
  obtain ⟨rfl, -⟩ := h
  refine insertItems_follows.bind fun conflict t staged h => ?_
  cases h with
  | conflict db => exact .pure (.conflict db)
  | staged db =>
  refine insertRecords_follows.bind fun _ t db' h => ?_
  subst h
  refine putMetrics_follows.bind fun _ t db' h => ?_
  subst h
  exact .pure (.staged _)

/-- The writes under the savepoint. -/
theorem stageInSavepoint_follows {request : PublishRequest} {job : CompactionJobEnvelope}
    {committed : SnapshotEnvelope} {records : List ReorganizationRecord} :
    Follows outages (StagedIn savepoints)
      (stageInSavepoint outages faults request job committed records) ⟨db, savepoints, true⟩
      (stageCandidate faults db request job committed records) := by
  refine insertCandidate_follows.bind fun conflict t staged h => ?_
  cases h with
  | conflict db => exact .pure (.conflict db)
  | staged db =>
  refine Follows.execute.bind fun moved t result h => ?_
  obtain ⟨db', moved'⟩ := result
  obtain ⟨rfl, rfl⟩ := h
  cases moved with
  | true => exact .pure (.staged db')
  | false => exact .pure (.conflict db')

omit [SecureCodec] in
/-- `_finish_publish_job`. -/
theorem finishJob_follows {job : CompactionJobEnvelope} {fence : Fence}
    {outcome : PublishOutcome} :
    Follows outages (fun finished t result => t = ⟨result.1, savepoints, true⟩ ∧
        finished = result.2) (finishJob outages job fence outcome) ⟨db, savepoints, true⟩
      (finishPublishJob db job fence outcome) := by
  refine Follows.execute.bind fun rowcount t result h => ?_
  obtain ⟨db', rowcount'⟩ := result
  obtain ⟨rfl, rfl⟩ := h
  refine Follows.lift.bind fun _ t _ h => ?_
  obtain ⟨rfl, -⟩ := h
  refine Follows.read.rearrange fun finished t finished' h => ?_
  obtain ⟨rfl, rfl⟩ := h
  exact ⟨rfl, rfl⟩

/-- The result of a publication is returned, and its database is the working copy. -/
def Publishes (result : PublishResult) (t : Transaction Database)
    (published : Database × PublishResult) : Prop :=
  t = ⟨published.1, [], true⟩ ∧ result = published.2

omit [SecureCodec] in
/-- Whatever was staged, the branch of a conflict starts again from the savepoint. -/
theorem supersede_follows {staged : Database} {request : PublishRequest}
    {job : CompactionJobEnvelope} :
    Follows outages Publishes (supersede outages faults request job)
      ⟨staged, [("publish_candidate", db)], true⟩ (do
        let (db, superseded) ← finishPublishJob db job request.fence .superseded
        inject faults .publishAfterTerminal
        let (winner, pointerVersion, _) ← activeSnapshotBundle db job.sessionKey
        let db ← preserveFollowUp db superseded winner pointerVersion request.fence.now
        inject faults .publishAfterFollowUp
        pure (db, ⟨.superseded, superseded, winner, pointerVersion⟩)) := by
  refine (Follows.rollbackTo rfl).step fun _ t h => ?_
  subst h
  refine (Follows.release rfl rfl).step fun _ t h => ?_
  subst h
  refine finishJob_follows.bind fun superseded t result h => ?_
  obtain ⟨db₁, superseded'⟩ := result
  obtain ⟨rfl, rfl⟩ := h
  refine Follows.lift.bind fun _ t _ h => ?_
  obtain ⟨rfl, -⟩ := h
  refine Follows.read.bind fun bundle t bundle' h => ?_
  obtain ⟨rfl, rfl⟩ := h
  obtain ⟨winner, pointerVersion, memberships⟩ := bundle
  refine Follows.write.bind fun _ t db₂ h => ?_
  subst h
  refine Follows.lift.bind fun _ t _ h => ?_
  obtain ⟨rfl, -⟩ := h
  exact .pure ⟨rfl, rfl⟩

omit [SecureCodec] in
/-- Without a conflict the job is settled on top of the staged candidate. -/
theorem commitJob_follows {staged : Database} {request : PublishRequest}
    {job : CompactionJobEnvelope} {committed : SnapshotEnvelope} :
    Follows outages Publishes (commitJob outages faults request job committed)
      ⟨staged, [("publish_candidate", db)], true⟩ (do
        let pointerVersion := job.basePointerVersion + 1
        inject faults .publishAfterPointer
        let (db, committedJob) ← finishPublishJob staged job request.fence .committed
        inject faults .publishAfterTerminal
        let db ← preserveFollowUp db committedJob committed pointerVersion request.fence.now
        inject faults .publishAfterFollowUp
        pure (db, ⟨.committed, committedJob, committed, pointerVersion⟩)) := by
  refine Follows.lift.bind fun _ t _ h => ?_
  obtain ⟨rfl, -⟩ := h
  refine finishJob_follows.bind fun committedJob t result h => ?_
  obtain ⟨db₁, committedJob'⟩ := result
  obtain ⟨rfl, rfl⟩ := h
  refine Follows.lift.bind fun _ t _ h => ?_
  obtain ⟨rfl, -⟩ := h
  refine Follows.write.bind fun _ t db₂ h => ?_
  subst h
  refine Follows.lift.bind fun _ t _ h => ?_
  obtain ⟨rfl, -⟩ := h
  refine (Follows.release rfl rfl).step fun _ t h => ?_
  subst h
  exact .pure ⟨rfl, rfl⟩

/-- Inside its transaction `publish_snapshot` follows the one-step model, whatever the outages. -/
theorem publishBody_follows {request : PublishRequest} :
    Follows outages Publishes (publishBody outages faults request) ⟨db, [], true⟩
      (publishSnapshot faults db request) := by
  refine Follows.read.bind fun admission t admission' h => ?_
  obtain ⟨rfl, rfl⟩ := h
  refine Follows.lift.bind fun _ t _ h => ?_
  obtain ⟨rfl, -⟩ := h
  refine Follows.savepoint.step fun _ t h => ?_
  subst h
  refine stageInSavepoint_follows.bind fun conflict t staged h => ?_
  cases h with
  | conflict partial' => exact supersede_follows
  | staged staged => exact commitJob_follows

/-- The transaction is atomic, and its result is that of the one-step model. -/
theorem publishTransaction_atomic (outages : Outages) (faults : FaultInjector) (db : Database)
    (request : PublishRequest) :
    Atomic outages Publishes db (publishSnapshot faults db request)
      (publishTransaction outages faults request (.idle db)) :=
  run_transaction publishBody_follows

/-- Without outages the transaction is the one-step model: it returns what that returns and makes
its database durable, or raises what that raises and leaves the database. -/
theorem publishTransaction_exact (faults : FaultInjector) (db : Database)
    (request : PublishRequest) :
    match publishTransaction (fun _ => none) faults request (.idle db) with
    | .ok result c => publishSnapshot faults db request = .ok (c.durable, result)
    | .error e c => c.durable = db ∧
        ∃ failure, e = .failure failure ∧ publishSnapshot faults db request = .error failure := by
  have hatomic := publishTransaction_atomic (fun _ => none) faults db request
  cases hrun : publishTransaction (fun _ => none) faults request (.idle db) with
  | ok result c =>
      rw [hrun] at hatomic
      obtain ⟨t, published, hpublish, ⟨rfl, rfl⟩, hdurable⟩ := hatomic
      simp only [hpublish, hdurable]
  | error e c =>
      rw [hrun] at hatomic
      cases e with
      | failure failure => exact ⟨hatomic.1, failure, rfl, hatomic.2⟩
      | outage o =>
          obtain ⟨-, n, hn⟩ := hatomic
          cases hn
      | operational => exact hatomic.elim

end Refinement

end AstrContinuum
