import AstrContinuum.Compaction.Compiler
import AstrContinuum.Domain.Durations
import AstrContinuum.Storage.JobQueue

/-!
# How the worker settles an iteration that raised

`_persist_deferred` and `_persist_failure` of `_RuntimeCompactionWorker`, in
`compaction/worker.py`. Whatever the body of `run_iteration` raised, the worker records a failure of
its job through `fail_job`, and swallows only the loss of its lease. The delay before a retry and the
choice between `RETRY_WAIT` and `FAILED` are made here, from the envelope that the claim returned. What
the arithmetic of the delay raises is caught nowhere.
-/

namespace AstrContinuum

open Checked

/-- The value of `stage` in `run_iteration` when its body raises. -/
inductive WorkerStage
  | leased
  | compiling
  | auditing
  | verifying
  | readyToCommit
  | publishing
deriving DecidableEq

/-- The text of a stage. -/
def WorkerStage.value : WorkerStage → String
  | .leased => "LEASED"
  | .compiling => "COMPILING"
  | .auditing => "AUDITING"
  | .verifying => "VERIFYING"
  | .readyToCommit => "READY_TO_COMMIT"
  | .publishing => "PUBLISHING"

/-- The value of a `CompilerErrorCode`. -/
def CompilerErrorCode.value : CompilerErrorCode → String
  | .baseInvalid => "COMPILER_BASE_INVALID"
  | .baseCapsuleMismatch => "COMPILER_BASE_CAPSULE_MISMATCH"
  | .sourceEventsEmpty => "COMPILER_SOURCE_EVENTS_EMPTY"
  | .sourceEventsInvalid => "COMPILER_SOURCE_EVENTS_INVALID"
  | .sourceSessionMismatch => "COMPILER_SOURCE_SESSION_MISMATCH"
  | .sourceCoverageMismatch => "COMPILER_SOURCE_COVERAGE_MISMATCH"
  | .targetInvalid => "COMPILER_TARGET_INVALID"
  | .tokenCeilingInvalid => "COMPILER_TOKEN_CEILING_INVALID"
  | .nowInvalid => "COMPILER_NOW_INVALID"
  | .segmenterConfigInvalid => "COMPILER_SEGMENTER_CONFIG_INVALID"
  | .backendFailure => "COMPILER_BACKEND_FAILURE"
  | .backendOutputInvalid => "COMPILER_BACKEND_OUTPUT_INVALID"
  | .backendOutputEmpty => "COMPILER_BACKEND_OUTPUT_EMPTY"
  | .tokenCounterFailure => "COMPILER_TOKEN_COUNTER_FAILURE"
  | .tokenCounterInvalid => "COMPILER_TOKEN_COUNTER_INVALID"
  | .permanentValidatorFailure => "COMPILER_PERMANENT_VALIDATOR_FAILURE"
  | .permanentValidationFailed => "COMPILER_PERMANENT_VALIDATION_FAILED"

/-- `SemanticAuditErrorCode`. -/
inductive SemanticAuditErrorCode
  | mechanicalInvalid
  | strictAuditInvalid
  | backendRequired
  | backendFailure
  | backendOutputInvalid
  | semanticRejected
deriving DecidableEq

/-- The value of a `SemanticAuditErrorCode`. -/
def SemanticAuditErrorCode.value : SemanticAuditErrorCode → String
  | .mechanicalInvalid => "SEMANTIC_AUDIT_MECHANICAL_INVALID"
  | .strictAuditInvalid => "SEMANTIC_AUDIT_STRICT_AUDIT_INVALID"
  | .backendRequired => "SEMANTIC_AUDIT_BACKEND_REQUIRED"
  | .backendFailure => "SEMANTIC_AUDIT_BACKEND_FAILURE"
  | .backendOutputInvalid => "SEMANTIC_AUDIT_BACKEND_OUTPUT_INVALID"
  | .semanticRejected => "SEMANTIC_AUDIT_SEMANTIC_REJECTED"

/-- The exceptions that `_error_code` tells apart. -/
inductive WorkerError
  | compilerInvariantError (code : CompilerErrorCode)
  | semanticAuditInvariantError (code : SemanticAuditErrorCode)
  | candidateVerificationError
  | other
deriving DecidableEq

/-- `_error_code`. -/
def WorkerError.errorCode : WorkerError → String
  | .compilerInvariantError code => code.value
  | .semanticAuditInvariantError code => code.value
  | .candidateVerificationError => "CANDIDATE_GRAPH_VERIFICATION_FAILED"
  | .other => "COMPACTION_WORKER_FAILURE"

/-- What the body of `run_iteration` raised, and at which stage: a `CompilerBackendDeferred` with its
code, or any other exception that the iteration boundary persists. -/
inductive IterationEnd
  | deferred (stage : WorkerStage) (code : String)
  | failed (stage : WorkerStage) (error : WorkerError)
deriving DecidableEq

/-- The part of `_RuntimeCompactionWorkerConfig` that the retries read, with its checks. -/
structure RetryConfig where
  workerId : String
  retryBase : Seconds
  retryMax : Seconds
  maxAttempts : Nat
  workerId_nonempty : stripNonEmpty workerId = true := by decide
  retryBase_pos : retryBase.isNonpositive = false := by decide
  retryMax_pos : retryMax.isNonpositive = false := by decide
  retryBase_le : retryMax.isBelow retryBase = false := by decide
  maxAttempts_pos : 1 ≤ maxAttempts := by decide

/-- What the arithmetic of times raises, as it escapes from the worker. -/
def TimestampFailure.raised : TimestampFailure → StorageFailure
  | .valueError message => .valueError message
  | .overflowError => .overflowError

namespace RetryConfig

variable (config : RetryConfig)

/-- The codes for which `_persist_deferred` asks `fail_job` to give the attempt back. -/
def preservedCodes : List String :=
  ["EXTRACTIVE_PROVIDER_UNAVAILABLE", "TOKEN_METRIC_MISSING", "TOKEN_METRIC_UNAVAILABLE"]

/-- What `_persist_deferred` records. -/
def deferral (stage : WorkerStage) (code : String) (clock : Timestamp) :
    Except TimestampFailure JobFailure := do
  let retryAt ← config.retryBase.after clock
  pure
    { errorStage := stage.value
      errorCode := code
      errorMessage := code
      retryAt := some retryAt
      preserveAttempt := decide (code ∈ preservedCodes) }

/-- The retry time of `_persist_failure`: the delay doubles with every attempt, up to a maximum, and
the last attempt has none. -/
def retryAt (attemptCount : Nat) (clock : Timestamp) : Except TimestampFailure (Option Timestamp) :=
  if attemptCount < config.maxAttempts then do
    let product ← config.retryBase.timesPower (attemptCount - 1)
    let retryAt ← (product.atMost config.retryMax).after clock
    pure (some retryAt)
  else pure none

/-- What `_persist_failure` records. -/
def failure (attemptCount : Nat) (stage : WorkerStage) (error : WorkerError) (clock : Timestamp) :
    Except TimestampFailure JobFailure := do
  let retryAt ← config.retryAt attemptCount clock
  pure
    { errorStage := stage.value
      errorCode := error.errorCode
      errorMessage := error.errorCode
      retryAt := retryAt }

/-- What the worker records for an iteration that raised. -/
def record (leased : CompactionJobEnvelope) (clock : Timestamp) :
    IterationEnd → Except TimestampFailure JobFailure
  | .deferred stage code => config.deferral stage code clock
  | .failed stage error => config.failure leased.attemptCount stage error clock

/-- The delay of `_persist_failure`, where the power of two is in the range of what it is multiplied
with. -/
def delay (attemptCount : Nat) : Seconds :=
  (config.retryBase.scaled (attemptCount - 1)).atMost config.retryMax

/-- The retry time of `_persist_failure` is computed, and is after `now`, exactly when the attempt was the
last one or its delay is in range and leads there. -/
theorem retryAt_ok {attemptCount : Nat} {clock now : Timestamp} :
    (∃ retryAt, config.retryAt attemptCount clock = .ok retryAt ∧ ∀ time ∈ retryAt, now < time) ↔
      (attemptCount < config.maxAttempts →
        (config.retryBase.isInteger = true ∨ attemptCount ≤ 1024) ∧
          (config.delay attemptCount).LeadsAhead clock now) := by
  unfold retryAt
  by_cases hleft : attemptCount < config.maxAttempts
  · have hpower : attemptCount - 1 < 1024 ↔ attemptCount ≤ 1024 := by omega
    rw [if_pos hleft, ← Seconds.after_ok, ← hpower]
    constructor
    · rintro ⟨retryAt, hretry, hnow⟩ -
      obtain ⟨product, hproduct, hretry⟩ := bind_ok.mp hretry
      obtain ⟨time, htime, hretry⟩ := bind_ok.mp hretry
      obtain rfl := pure_ok.mp hretry
      obtain ⟨hrange, rfl⟩ := Seconds.timesPower_ok.mp hproduct
      exact ⟨hrange, time, htime, hnow time rfl⟩
    · intro hdelay
      obtain ⟨hrange, time, htime, hnow⟩ := hdelay hleft
      refine ⟨some time, ?_, by simpa using hnow⟩
      exact bind_ok.mpr ⟨_, Seconds.timesPower_ok.mpr ⟨hrange, rfl⟩, bind_ok.mpr ⟨time, htime, rfl⟩⟩
  · rw [if_neg hleft]
    exact ⟨fun _ h => absurd h hleft, fun _ => ⟨none, rfl, by simp⟩⟩

/-- From the 1025th attempt on, unless it is the last one, the delay of a base that is a float
overflows. -/
theorem retryAt_overflow {attemptCount : Nat} {clock : Timestamp}
    (hfloat : config.retryBase.isInteger = false) (hrange : 1024 < attemptCount)
    (hleft : attemptCount < config.maxAttempts) :
    config.retryAt attemptCount clock = .error .overflowError := by
  unfold retryAt
  rw [if_pos hleft, Seconds.timesPower_overflow hfloat (by omega)]
  rfl

variable [Hashlib]

/-- `_persist_deferred` and `_persist_failure`: the database that they leave, or what escapes from
`run_iteration`. `clock` is the reading for the retry time, `now` the one for the fence. -/
def persist (db : Database) (leased : CompactionJobEnvelope) (now clock : Timestamp)
    (ending : IterationEnd) : Except StorageFailure Database :=
  let fence : Fence := ⟨leased.jobId, config.workerId, leased.leaseEpoch, now⟩
  match config.record leased clock ending with
  | .error error => .error error.raised
  | .ok failure =>
      match failJob .none db fence failure with
      | .ok (db', _) => .ok db'
      | .error (.staleLeaseError _) => .ok db
      | .error error => .error error

end RetryConfig

/-! ## The recorded texts -/

/-- Every stage is a text that the storage accepts. -/
theorem WorkerStage.value_accepted (stage : WorkerStage) :
    stripNonEmpty stage.value = true ∧ trimNonEmpty stage.value = true := by
  cases stage <;> decide

/-- A text that `fail_job` accepts as a code and as a message. -/
structure RecordableCode (code : String) : Prop where
  strip : stripNonEmpty code = true
  trim : trimNonEmpty code = true
  bounded : code.toList.length ≤ 512
  line : ∀ c ∈ code.toList, c ≠ '\r' ∧ c ≠ '\n' ∧ c.toNat ≠ 0

/-- Every code of a genuine failure is recordable. -/
theorem WorkerError.errorCode_recordable (error : WorkerError) : RecordableCode error.errorCode := by
  cases error with
  | compilerInvariantError code => cases code <;> constructor <;> decide
  | semanticAuditInvariantError code => cases code <;> constructor <;> decide
  | candidateVerificationError | other => constructor <;> decide

/-- Every preserved code is recordable. -/
theorem RetryConfig.recordable_of_preserved {code : String} (h : code ∈ preservedCodes) :
    RecordableCode code := by
  simp only [preservedCodes, List.mem_cons, List.not_mem_nil, or_false] at h
  rcases h with rfl | rfl | rfl <;> constructor <;> decide

/-- Only the stage `COMPILING` has the text that `fail_job` asks for. -/
theorem WorkerStage.value_eq_compiling {stage : WorkerStage} :
    stage.value = "COMPILING" ↔ stage = .compiling := by
  cases stage <;> decide

end AstrContinuum
