import Mathlib.Data.Prod.Lex
import Mathlib.Data.String.Basic
import AstrContinuum.Storage.Rows

/-!
# The job queue

The transactions that move compaction jobs: `raise_compaction_intent`, `claim_job`,
`transition_job`, `renew_job_lease`, `fail_job` and `recover_expired_leases`. Each `SET` clause is
a function of the row, so that what a transaction can do to a job is read off one definition.
-/

namespace AstrContinuum

open Checked Relational

variable [Hashlib]

/-! ## What the statements write -/

namespace JobRow

/-- The row of a new `PENDING` job. -/
def pending (jobId hash : String) (target : Nat) (baseSnapshotId : Option String)
    (basePointerVersion : Nat) (now : Timestamp) : JobRow where
  jobId := jobId
  sessionKeyHash := hash
  state := .pending
  targetHighWaterMark := target
  intentTargetHighWaterMark := target
  baseSnapshotId := baseSnapshotId
  basePointerVersion := basePointerVersion
  candidateSnapshotId := none
  leaseOwner := none
  leaseEpoch := 0
  leaseExpiresAt := none
  attemptCount := 0
  nextRetryAt := none
  errorStage := none
  errorCode := none
  errorMessage := none
  createdAt := now
  updatedAt := now
  committedAt := none

/-- Fold a larger intent into a job. -/
def foldIntent (target : Nat) (now : Timestamp) (row : JobRow) : JobRow :=
  { row with intentTargetHighWaterMark := target, updatedAt := now }

/-- `claim_job` on a job whose intent is already covered. -/
def cancel (now : Timestamp) (row : JobRow) : JobRow :=
  { row with state := .cancelled, nextRetryAt := none, updatedAt := now }

/-- `claim_job` on a job it leases. -/
def lease (base : ActiveBase) (worker : String) (leaseExpiresAt now : Timestamp)
    (row : JobRow) : JobRow :=
  { row with
    state := .leased
    targetHighWaterMark := row.intentTargetHighWaterMark
    baseSnapshotId := base.snapshotId
    basePointerVersion := base.pointerVersion
    candidateSnapshotId := none
    leaseOwner := some worker
    leaseEpoch := row.leaseEpoch + 1
    leaseExpiresAt := some leaseExpiresAt
    attemptCount := row.attemptCount + 1
    nextRetryAt := none
    errorStage := none
    errorCode := none
    errorMessage := none
    updatedAt := now
    committedAt := none }

/-- `transition_job`. -/
def transition (toState : CompactionJobState) (candidateSnapshotId : Option String)
    (now : Timestamp) (row : JobRow) : JobRow :=
  { row with state := toState, candidateSnapshotId := candidateSnapshotId, updatedAt := now }

/-- `renew_job_lease`. -/
def renew (leaseExpiresAt now : Timestamp) (row : JobRow) : JobRow :=
  { row with leaseExpiresAt := some leaseExpiresAt, updatedAt := now }

/-- `recover_expired_leases`. -/
def recover (now : Timestamp) (row : JobRow) : JobRow :=
  { row with
    state := .pending
    candidateSnapshotId := none
    leaseOwner := none
    leaseExpiresAt := none
    nextRetryAt := none
    updatedAt := now
    committedAt := none }

/-- `claim_job` considers the row: it is pending, or its retry time has come. -/
def isEligible (now : Timestamp) (row : JobRow) : Bool :=
  decide (row.state = .pending) ||
    (decide (row.state = .retryWait) && row.nextRetryAt.any fun retryAt => decide (retryAt ≤ now))

/-- `recover_expired_leases` considers the row: it holds a lease that has expired. -/
def isExpired (now : Timestamp) (row : JobRow) : Bool :=
  row.state.isWorking && row.leaseExpiresAt.any fun expiresAt => decide (expiresAt ≤ now)

/-- `ORDER BY created_at, job_id`. -/
def queueKey (row : JobRow) : Timestamp ×ₗ String :=
  toLex (row.createdAt, row.jobId)

end JobRow

/-- The fencing predicate that every worker `UPDATE` repeats in its `WHERE` clause. -/
def JobRow.updateFence (jobId owner : String) (leaseEpoch : Nat) (now : Timestamp)
    (row : JobRow) : Bool :=
  decide (row.jobId = jobId) && decide (row.leaseOwner = some owner) &&
    decide (row.leaseEpoch = leaseEpoch) &&
    row.leaseExpiresAt.any fun expiresAt => decide (now < expiresAt)

/-- `UPDATE compaction_jobs`, and `cursor.rowcount`. -/
def updateJobs (db : Database) (selected : JobRow → Bool) (change : JobRow → JobRow) :
    Except StorageFailure (Database × Nat) := do
  let db' ← Database.execute (db.withJobs (update selected change db.compactionJobs))
  pure (db', db.compactionJobs.countP selected)

/-- `INSERT INTO compaction_jobs`. -/
def insertJob (db : Database) (row : JobRow) : Except StorageFailure Database :=
  Database.execute (db.withJobs (db.compactionJobs ++ [row]))

omit [Hashlib] in
/-- An update of the job table leaves exactly the updated rows and reports how many it selected. -/
theorem updateJobs_ok {db db' : Database} {selected : JobRow → Bool} {change : JobRow → JobRow}
    {rowcount : Nat} :
    updateJobs db selected change = .ok (db', rowcount) ↔
      db'.toTables = db.withJobs (update selected change db.compactionJobs) ∧
      rowcount = db.compactionJobs.countP selected := by
  simp only [updateJobs, bind_ok, Database.execute_ok, pure_ok, Prod.mk.injEq]
  constructor
  · rintro ⟨_, htables, rfl, rfl⟩
    exact ⟨htables, rfl⟩
  · rintro ⟨htables, rfl⟩
    exact ⟨_, htables, rfl, rfl⟩

omit [Hashlib] in
/-- An update whose `WHERE` clause fixes the id of a row that it selects changes exactly this row. -/
theorem updateJobs_one {db db' : Database} {selected : JobRow → Bool} {change : JobRow → JobRow}
    {rowcount : Nat} {row : JobRow} (hrow : row ∈ db.compactionJobs)
    (hselected : selected row = true)
    (hkey : ∀ other, selected other = true → other.jobId = row.jobId)
    (h : updateJobs db selected change = .ok (db', rowcount)) :
    db'.toTables =
        db.withJobs (update (fun other => other.jobId = row.jobId) change db.compactionJobs) ∧
      rowcount = 1 := by
  have hunique := db.consistent.compactionJobs.primaryKey
  have hselect := hunique.select_eq hrow hselected hkey
  obtain ⟨htables, rfl⟩ := updateJobs_ok.mp h
  refine ⟨by rw [htables, update_congr hselect], ?_⟩
  rw [List.countP_congr fun other hother => by rw [hselect other hother]]
  exact hunique.countP_eq_one hrow

/-! ## Intents -/

/-- `raise_compaction_intent`. -/
def raiseCompactionIntent (faults : FaultInjector) (db : Database) (jobId : String)
    (sessionKey : SessionKey) (target : Nat) (now : Timestamp) :
    Except StorageFailure (Database × Option CompactionJobEnvelope) := do
  let hash := sessionKey.sessionKeyHash
  require (stripNonEmpty jobId = true) (.valueError "job_id must be non-empty")
  require (1 ≤ target) (.valueError "target_high_water_mark must be positive")
  let session ← orMissing (db.sessionRow hash)
    (.repositoryInvariantError "compaction intent requires a durable session with Journal events")
  let stored ← sessionKeyFromStorage session
  require (stored = sessionKey)
    (.sessionIdentityConflict "session hash does not resolve to the exact canonical SessionKey")
  require (target ≤ session.nextEventSequence - 1)
    (.repositoryInvariantError "compaction intent exceeds the durable Journal high-water mark")
  let base ← activeBase db hash
  if target ≤ base.coverage then pure (db, none)
  else
    match db.nonterminalJob hash with
    | some existing =>
        if existing.intentTargetHighWaterMark < target then do
          let (db, _) ← updateJobs db (fun row => row.jobId = existing.jobId)
            (JobRow.foldIntent target now)
          inject faults .intentAfterFold
          let job ← jobById db existing.jobId
          pure (db, some job)
        else do
          let job ← jobById db existing.jobId
          pure (db, some job)
    | none => do
        let db ← orRaise
          (insertJob db (.pending jobId hash target base.snapshotId base.pointerVersion now))
          (.repositoryConflict "compaction Job identity conflicts with durable state")
        inject faults .intentAfterInsert
        let job ← jobById db jobId
        pure (db, some job)

/-! ## Claims -/

omit [Hashlib] in
/-- An eligible job is nonterminal. -/
theorem JobRow.isNonterminal_of_isEligible {row : JobRow} {now : Timestamp}
    (h : row.isEligible now = true) : row.state.isNonterminal = true := by
  simp only [JobRow.isEligible, Bool.or_eq_true, Bool.and_eq_true, decide_eq_true_eq] at h
  rcases h with h | ⟨h, -⟩ <;> rw [h] <;> rfl

/-- The first eligible job in queue order. -/
def firstEligible (db : Database) (now : Timestamp) : Option JobRow :=
  (orderBy JobRow.queueKey (db.compactionJobs.filter (JobRow.isEligible now))).head?

/-- The `while True` loop of `claim_job`, for a bounded number of iterations. -/
def claimLoop (faults : FaultInjector) (worker : String) (now leaseExpiresAt : Timestamp) :
    Nat → Database → Except StorageFailure (Database × Option CompactionJobEnvelope)
  | 0, _ => .error .endlessLoop
  | fuel + 1, db =>
      match firstEligible db now with
      | none => .ok (db, none)
      | some row => do
          let base ← activeBase db row.sessionKeyHash
          if row.intentTargetHighWaterMark ≤ base.coverage then do
            let (db, _) ← updateJobs db (fun other => other.jobId = row.jobId) (JobRow.cancel now)
            claimLoop faults worker now leaseExpiresAt fuel db
          else do
            let (db, rowcount) ← updateJobs db
              (fun other => decide (other.jobId = row.jobId) && other.isEligible now)
              (JobRow.lease base worker leaseExpiresAt now)
            if rowcount ≠ 1 then claimLoop faults worker now leaseExpiresAt fuel db
            else do
              inject faults .claimAfterUpdate
              let job ← jobById db row.jobId
              pure (db, some job)

/-- `claim_job`. Every iteration that continues has cancelled an eligible job, so one more
iteration than there are jobs is enough. -/
def claimJob (faults : FaultInjector) (db : Database) (worker : String)
    (now leaseExpiresAt : Timestamp) :
    Except StorageFailure (Database × Option CompactionJobEnvelope) := do
  require (stripNonEmpty worker = true) (.valueError "worker_id must be non-empty")
  require (now < leaseExpiresAt) (.valueError "lease_expires_at must be later than now")
  claimLoop faults worker now leaseExpiresAt (db.compactionJobs.length + 1) db

/-! ## Worker transitions -/

/-- The value of a state, as the error texts print it. -/
def CompactionJobState.value : CompactionJobState → String
  | .pending => "PENDING"
  | .leased => "LEASED"
  | .compiling => "COMPILING"
  | .auditing => "AUDITING"
  | .readyToCommit => "READY_TO_COMMIT"
  | .retryWait => "RETRY_WAIT"
  | .committed => "COMMITTED"
  | .superseded => "SUPERSEDED"
  | .failed => "FAILED"
  | .cancelled => "CANCELLED"

/-- The arguments of the live fence. -/
structure Fence where
  jobId : String
  owner : String
  leaseEpoch : Nat
  now : Timestamp
deriving DecidableEq

/-- A fenced `UPDATE` of one job: `StaleLeaseError` unless exactly one row was changed. -/
def fencedUpdate (db : Database) (fence : Fence) (change : JobRow → JobRow) (lost : String) :
    Except StorageFailure Database := do
  let (db, rowcount) ← updateJobs db
    (JobRow.updateFence fence.jobId fence.owner fence.leaseEpoch fence.now) change
  require (rowcount = 1) (.staleLeaseError lost)
  pure db

omit [Hashlib] in
/-- A fenced update changes exactly the row that holds the fence. -/
theorem fencedUpdate_ok {db db' : Database} {fence : Fence} {change : JobRow → JobRow}
    {lost : String} {row : JobRow} (hrow : db.jobRow fence.jobId = some row)
    (hfenced : row.Fenced fence.owner fence.leaseEpoch fence.now)
    (h : fencedUpdate db fence change lost = .ok db') :
    db'.toTables =
      db.withJobs (update (fun other => other.jobId = row.jobId) change db.compactionJobs) := by
  obtain ⟨⟨db₁, rowcount⟩, hupdate, h⟩ := bind_ok.mp h
  obtain ⟨_, -, h⟩ := bind_ok.mp h
  obtain rfl := pure_ok.mp h
  obtain ⟨hmem, hid⟩ := Database.jobRow_eq_some.mp hrow
  obtain ⟨-, howner, hepoch, expiresAt, hexpires, hlive⟩ := hfenced
  refine (updateJobs_one hmem ?_ ?_ hupdate).1
  · simp only [JobRow.updateFence, hid, howner, hepoch, decide_true, Bool.true_and]
    rw [Option.mem_def.mp hexpires]
    simpa using hlive
  · intro other hother
    simp only [JobRow.updateFence, Bool.and_eq_true, decide_eq_true_eq] at hother
    exact hother.1.1.1.trans hid.symm

/-- The check of `transition_job` on `candidate_snapshot_id`. -/
def requireTransitionCandidate (toState : CompactionJobState)
    (candidateSnapshotId : Option String) : Except StorageFailure Unit :=
  if toState = .readyToCommit then
    require (candidateSnapshotId.any stripNonEmpty = true)
      (.jobTransitionError "READY_TO_COMMIT requires a non-empty candidate_snapshot_id")
  else
    require (candidateSnapshotId = none)
      (.jobTransitionError "candidate_snapshot_id is allowed only for READY_TO_COMMIT")

/-- `transition_job`. -/
def transitionJob (faults : FaultInjector) (db : Database) (fence : Fence)
    (toState : CompactionJobState) (candidateSnapshotId : Option String) :
    Except StorageFailure (Database × CompactionJobEnvelope) := do
  let row ← requireLiveFence db fence.jobId fence.owner fence.leaseEpoch fence.now
  require (row.state.allowedWorkerTransition toState = true)
    (.jobTransitionError
      ("transition " ++ row.state.value ++ " -> " ++ toState.value ++ " is not allowed"))
  requireTransitionCandidate toState candidateSnapshotId
  let db ← fencedUpdate db fence (JobRow.transition toState candidateSnapshotId fence.now)
    "worker transition lost its lease fence"
  inject faults .transitionAfterUpdate
  let job ← jobById db fence.jobId
  pure (db, job)

/-- `renew_job_lease`. -/
def renewJobLease (faults : FaultInjector) (db : Database) (fence : Fence)
    (leaseExpiresAt : Timestamp) : Except StorageFailure (Database × CompactionJobEnvelope) := do
  require (fence.now < leaseExpiresAt) (.valueError "lease_expires_at must be later than now")
  let row ← requireLiveFence db fence.jobId fence.owner fence.leaseEpoch fence.now
  require (row.leaseExpiresAt.all fun expiresAt => decide (expiresAt < leaseExpiresAt))
    (.jobTransitionError "lease renewal must strictly extend the lease")
  let db ← fencedUpdate db fence (JobRow.renew leaseExpiresAt fence.now)
    "lease renewal lost its fencing predicate"
  inject faults .leaseAfterRenew
  let job ← jobById db fence.jobId
  pure (db, job)

/-- The failure that `fail_job` records. -/
structure JobFailure where
  errorStage : String
  errorCode : String
  errorMessage : String
  retryAt : Option Timestamp
  preserveAttempt : Bool := false
deriving DecidableEq

/-- `fail_job`: `RETRY_WAIT` with a retry time, `FAILED` without one. -/
def JobRow.fail (failure : JobFailure) (now : Timestamp) (row : JobRow) : JobRow :=
  { row with
    state := if failure.retryAt = none then .failed else .retryWait
    candidateSnapshotId := none
    leaseOwner := none
    leaseExpiresAt := none
    attemptCount := if failure.preserveAttempt then row.attemptCount - 1 else row.attemptCount
    nextRetryAt := failure.retryAt
    errorStage := some failure.errorStage
    errorCode := some failure.errorCode
    errorMessage := some failure.errorMessage
    updatedAt := now
    committedAt := none }

/-- The argument checks of `fail_job`. -/
def JobFailure.validate (failure : JobFailure) (now : Timestamp) : Except StorageFailure Unit := do
  require (stripNonEmpty failure.errorStage = true ∧ stripNonEmpty failure.errorCode = true ∧
      stripNonEmpty failure.errorMessage = true)
    (.valueError "failure error tuple must contain non-empty strings")
  require (failure.errorMessage.toList.length ≤ 512 ∧
      ∀ c ∈ failure.errorMessage.toList, c ≠ '\r' ∧ c ≠ '\n' ∧ c.toNat ≠ 0)
    (.valueError "error_message must be one bounded redacted line")
  require (failure.preserveAttempt = true → failure.retryAt ≠ none ∧
      failure.errorStage = "COMPILING" ∧
      failure.errorCode ∈ ["EXTRACTIVE_PROVIDER_UNAVAILABLE", "TOKEN_METRIC_MISSING",
        "TOKEN_METRIC_UNAVAILABLE"])
    (.valueError "attempt preservation is limited to retryable transient deferrals")
  require (failure.retryAt.all fun retryAt => decide (now < retryAt))
    (.valueError "retry_at must be later than now")

/-- `fail_job`. -/
def failJob (faults : FaultInjector) (db : Database) (fence : Fence) (failure : JobFailure) :
    Except StorageFailure (Database × CompactionJobEnvelope) := do
  failure.validate fence.now
  let _ ← requireLiveFence db fence.jobId fence.owner fence.leaseEpoch fence.now
  let db ← fencedUpdate db fence (JobRow.fail failure fence.now)
    "failure transition lost its fencing predicate"
  inject faults .failureAfterUpdate
  let job ← jobById db fence.jobId
  pure (db, job)

/-! ## Recovery -/

/-- The loop of `recover_expired_leases`, with the ids recovered so far. -/
def recoverLoop (faults : FaultInjector) (now : Timestamp) :
    Database × List String → JobRow → Except StorageFailure (Database × List String)
  | (db, recovered), row => do
      let (db, rowcount) ← updateJobs db
        (fun other => decide (other.jobId = row.jobId) && other.isExpired now) (JobRow.recover now)
      if rowcount ≠ 1 then pure (db, recovered)
      else do
        inject faults .recoveryAfterUpdate recovered.length
        pure (db, recovered ++ [row.jobId])

omit [Hashlib] in
/-- The recovery loop recovers every row it is given. -/
theorem recoverLoop_ok {faults : FaultInjector} {now : Timestamp} {rows : List JobRow}
    {db db' : Database} {recovered recovered' : List String}
    (hmem : ∀ row ∈ rows, row ∈ db.compactionJobs ∧ row.isExpired now = true)
    (hnodup : (rows.map JobRow.jobId).Nodup)
    (h : forEach (recoverLoop faults now) (db, recovered) rows = .ok (db', recovered')) :
    db'.toTables = db.withJobs (update (fun row => decide (row.jobId ∈ rows.map JobRow.jobId))
        (JobRow.recover now) db.compactionJobs) ∧
      recovered' = recovered ++ rows.map JobRow.jobId := by
  induction rows generalizing db recovered with
  | nil =>
      obtain ⟨rfl, rfl⟩ : db = db' ∧ recovered = recovered' := by simpa using h
      rw [update_eq_self (by simp)]
      exact ⟨rfl, by simp⟩
  | cons row rest ih =>
      obtain ⟨⟨db₁, recovered₁⟩, hstep, hrest⟩ := bind_ok.mp h
      obtain ⟨⟨db₂, rowcount⟩, hupdate, hstep⟩ := bind_ok.mp hstep
      obtain ⟨hrow, hexpired⟩ := hmem row List.mem_cons_self
      obtain ⟨hnew, hnodup⟩ := List.nodup_cons.mp hnodup
      obtain ⟨htables, rfl⟩ := updateJobs_one hrow (by simp [hexpired])
        (by simp +contextual) hupdate
      simp only [ne_eq, not_true_eq_false, if_false] at hstep
      obtain ⟨_, -, hstep⟩ := bind_ok.mp hstep
      obtain ⟨rfl, rfl⟩ : db₂ = db₁ ∧ recovered ++ [row.jobId] = recovered₁ := by
        simpa using hstep
      have hjobs : db₂.compactionJobs =
          update (fun other => other.jobId = row.jobId) (JobRow.recover now) db.compactionJobs :=
        congrArg Tables.compactionJobs htables
      have hrestMem : ∀ other ∈ rest, other ∈ db₂.compactionJobs ∧ other.isExpired now = true := by
        intro other hother
        obtain ⟨hin, hexp⟩ := hmem other (List.mem_cons_of_mem _ hother)
        refine ⟨?_, hexp⟩
        rw [hjobs]
        refine mem_update.mpr (.inr ⟨hin, ?_⟩)
        simp only [decide_eq_false_iff_not]
        intro heq
        exact hnew (heq ▸ List.mem_map_of_mem hother)
      obtain ⟨hfinal, hrecovered⟩ := ih hrestMem hnodup hrest
      refine ⟨?_, by simp [hrecovered]⟩
      rw [hfinal, hjobs, htables, update_update]
      · simp
      · intro other _ hother
        simp only [decide_eq_true_eq] at hother
        simp only [JobRow.recover, decide_eq_false_iff_not, hother]
        exact hnew

/-- `recover_expired_leases`. -/
def recoverExpiredLeases (faults : FaultInjector) (db : Database) (now : Timestamp) :
    Except StorageFailure (Database × List CompactionJobEnvelope) := do
  let rows := orderBy JobRow.queueKey (db.compactionJobs.filter (JobRow.isExpired now))
  let (db, recovered) ← forEach (recoverLoop faults now) (db, []) rows
  let jobs ← recovered.mapM (jobById db)
  pure (db, jobs)

end AstrContinuum
