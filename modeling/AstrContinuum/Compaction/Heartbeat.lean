import AstrContinuum.Storage.JobQueue

/-!
# How the workers keep their leases

The claims and renewals of the two workers in `compaction/worker.py`. The runtime worker computes every
expiry from its clock alone; `_FencedCompactionWorker._renew` falls back on the expiry that it knows when
the clock does not reach past it. Durations and clock readings are counted in microseconds, the
resolution of `timedelta` and of the stored timestamps.
-/

namespace AstrContinuum

open Checked

variable [Hashlib]

/-! ## The runtime worker -/

/-- `_MIN_SQLITE_LEASE_HORIZON_SECONDS`. -/
def minSqliteLeaseHorizon : Nat := 1000000

/-- The part of `_RuntimeCompactionWorkerConfig` that the leases read. -/
structure RuntimeLeaseConfig where
  workerId : String
  lease : Nat

namespace RuntimeLeaseConfig

variable (config : RuntimeLeaseConfig)

/-- `_lease_horizon_seconds`, as the `timedelta` that it becomes. -/
def leaseHorizon : Nat :=
  max config.lease minSqliteLeaseHorizon

/-- `_claim_job`, at a reading of the clock. -/
def claimJob (db : Database) (now : Timestamp) :
    Except StorageFailure (Database × Option CompactionJobEnvelope) :=
  AstrContinuum.claimJob .none db config.workerId now (now + config.leaseHorizon)

/-- `_renew_job_lease`, at a reading of the clock. -/
def renewJobLease (db : Database) (leased : CompactionJobEnvelope) (now : Timestamp) :
    Except StorageFailure (Database × CompactionJobEnvelope) :=
  AstrContinuum.renewJobLease .none db ⟨leased.jobId, config.workerId, leased.leaseEpoch, now⟩
    (now + config.leaseHorizon)

end RuntimeLeaseConfig

/-! ## The fenced worker -/

/-- The part of `_FencedCompactionWorkerConfig` that the leases read, with its checks. -/
structure FencedLeaseConfig where
  workerId : String
  leaseDuration : Nat
  heartbeatInterval : Option Nat := none
  leaseDuration_pos : 0 < leaseDuration
  heartbeatInterval_valid :
    ∀ interval ∈ heartbeatInterval, 0 < interval ∧ interval < leaseDuration
  default_pos : heartbeatInterval = none → 0 < (leaseDuration + 1) / 3

namespace FencedLeaseConfig

variable (config : FencedLeaseConfig)

/-- `effective_heartbeat_interval`; a third of a duration is rounded to the nearest microsecond. -/
def effectiveHeartbeatInterval : Nat :=
  config.heartbeatInterval.getD ((config.leaseDuration + 1) / 3)

/-- The claim of `run_once`, at a reading of the clock. -/
def claimJob (db : Database) (now : Timestamp) :
    Except StorageFailure (Database × Option CompactionJobEnvelope) :=
  AstrContinuum.claimJob .none db config.workerId now (now + config.leaseDuration)

/-- The expiry that `_renew` asks for. -/
def renewedExpiry (current now : Timestamp) : Timestamp :=
  if now + config.leaseDuration ≤ current then current + config.effectiveHeartbeatInterval
  else now + config.leaseDuration

/-- `_FencedCompactionWorker._renew`. -/
def renew (db : Database) (job : CompactionJobEnvelope) (now : Timestamp) :
    Except StorageFailure (Database × CompactionJobEnvelope) := do
  let current ← orMissing job.leaseExpiresAt
    (.repositoryInvariantError "working Job has no lease expiration")
  AstrContinuum.renewJobLease .none db ⟨job.jobId, config.workerId, job.leaseEpoch, now⟩
    (config.renewedExpiry current now)

omit [Hashlib] in
/-- The interval is positive, as the configuration checks. -/
theorem effectiveHeartbeatInterval_pos : 0 < config.effectiveHeartbeatInterval := by
  unfold effectiveHeartbeatInterval
  cases hinterval : config.heartbeatInterval with
  | none => exact config.default_pos hinterval
  | some interval => exact (config.heartbeatInterval_valid interval hinterval).1

omit [Hashlib] in
/-- The fenced worker asks for a later expiry than the one it knows, and one after its clock. -/
theorem renewedExpiry_later {current now : Timestamp} (hlive : now < current) :
    current < config.renewedExpiry current now ∧ now < config.renewedExpiry current now := by
  have hinterval := config.effectiveHeartbeatInterval_pos
  unfold renewedExpiry
  split_ifs with hbehind
  · have hlater : current < current + config.effectiveHeartbeatInterval :=
      Nat.lt_add_of_pos_right hinterval
    exact ⟨hlater, hlive.trans hlater⟩
  · exact ⟨not_le.mp hbehind, hlive.trans (not_le.mp hbehind)⟩

end FencedLeaseConfig

end AstrContinuum
