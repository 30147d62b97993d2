import AstrContinuum.Domain.Envelopes

/-!
# Compaction jobs

The job states of `domain/jobs.py` with their groups, the worker transitions the repository
allows, and the job envelope with the checks of `validate_conditionals`.
-/

namespace AstrContinuum

/-- `CompactionJobState`. -/
inductive CompactionJobState
  | pending
  | leased
  | compiling
  | auditing
  | readyToCommit
  | retryWait
  | committed
  | superseded
  | failed
  | cancelled
deriving DecidableEq

namespace CompactionJobState

/-- `_NONTERMINAL_JOB_STATES`, and the state list of the partial unique index. -/
def isNonterminal : CompactionJobState → Bool
  | pending | leased | compiling | auditing | readyToCommit | retryWait => true
  | committed | superseded | failed | cancelled => false

/-- `WORKING_STATES`: the states that hold a lease. -/
def isWorking : CompactionJobState → Bool
  | leased | compiling | auditing | readyToCommit => true
  | _ => false

/-- `CANDIDATE_STATES`: the states that name a candidate snapshot. -/
def isCandidate : CompactionJobState → Bool
  | readyToCommit | committed | superseded => true
  | _ => false

/-- `_ALLOWED_WORKER_TRANSITIONS`. -/
def allowedWorkerTransition : CompactionJobState → CompactionJobState → Bool
  | leased, compiling => true
  | compiling, auditing => true
  | compiling, readyToCommit => true
  | auditing, readyToCommit => true
  | _, _ => false

/-- A working job is nonterminal. -/
theorem isNonterminal_of_isWorking {state : CompactionJobState} (h : state.isWorking = true) :
    state.isNonterminal = true := by
  cases state <;> first | rfl | cases h

/-- A worker transition leads to a working state other than `LEASED`. -/
theorem allowed_worker_transition_working {source target : CompactionJobState}
    (h : allowedWorkerTransition source target = true) : target.isWorking = true := by
  cases source <;> cases target <;> first | rfl | cases h

end CompactionJobState

/-- The fields of a job before validation. -/
structure JobData where
  jobId : String
  sessionKey : SessionKey
  state : CompactionJobState
  targetHighWaterMark : Nat
  intentTargetHighWaterMark : Nat
  baseSnapshotId : Option String
  basePointerVersion : Nat
  candidateSnapshotId : Option String
  attemptCount : Nat
  leaseOwner : Option String
  leaseEpoch : Nat
  leaseExpiresAt : Option Timestamp
  nextRetryAt : Option Timestamp
  errorStage : Option String
  errorCode : Option String
  errorMessage : Option String
  createdAt : Timestamp
  updatedAt : Timestamp
  committedAt : Option Timestamp
deriving DecidableEq

/-- The error tuple is all null or all set. -/
def ErrorTuple (stage code message : Option String) : Prop :=
  (stage = none ∧ code = none ∧ message = none) ∨
    (stage ≠ none ∧ code ≠ none ∧ message ≠ none)

instance (stage code message : Option String) : Decidable (ErrorTuple stage code message) :=
  inferInstanceAs (Decidable (_ ∨ _))

/-- The checks of `CompactionJobEnvelope`, `validate_conditionals` included. -/
def JobData.Valid (job : JobData) : Prop :=
  (job.jobId ≠ "" ∧ 1 ≤ job.targetHighWaterMark ∧ 1 ≤ job.intentTargetHighWaterMark ∧
      job.baseSnapshotId ≠ some "" ∧ job.candidateSnapshotId ≠ some "" ∧
      job.leaseOwner ≠ some "" ∧ job.errorStage ≠ some "" ∧ job.errorCode ≠ some "" ∧
      job.errorMessage ≠ some "") ∧
    ErrorTuple job.errorStage job.errorCode job.errorMessage ∧
    ((job.baseSnapshotId = none → job.basePointerVersion = 0) ∧
      (job.baseSnapshotId ≠ none → 1 ≤ job.basePointerVersion)) ∧
    ((job.state.isWorking = true →
        job.leaseOwner ≠ none ∧ 1 ≤ job.leaseEpoch ∧ job.leaseExpiresAt ≠ none) ∧
      (job.state.isWorking = false → job.leaseOwner = none ∧ job.leaseExpiresAt = none)) ∧
    ((job.state.isCandidate = true → job.candidateSnapshotId ≠ none) ∧
      (job.state.isCandidate = false → job.candidateSnapshotId = none)) ∧
    (job.state = .retryWait ∨ job.state = .failed →
      job.errorStage ≠ none ∧ job.errorCode ≠ none ∧ job.errorMessage ≠ none) ∧
    (job.state = .retryWait ↔ job.nextRetryAt ≠ none) ∧
    (job.state = .committed ↔ job.committedAt ≠ none)

instance (job : JobData) : Decidable job.Valid :=
  inferInstanceAs (Decidable (_ ∧ _))

/-- `CompactionJobEnvelope`. -/
structure CompactionJobEnvelope extends JobData where
  valid : toJobData.Valid := by decide
deriving DecidableEq

end AstrContinuum
