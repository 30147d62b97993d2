import AstrContinuum.Guarantees.Linearity
import AstrContinuum.Settlement.Queue

/-!
# The job table stays well formed

`job_table_well_formed`: in every reachable state every row of `compaction_jobs` satisfies the
`CHECK`s and forms an envelope, targets and intents stay within the journal, and no session has two
open jobs. A call that supplies no text that is blank to SQLite and whose new job id is free never fails
on the job table, and a publication never fails in the terminal transition or in its follow-up.

The condition is on the texts supplied, whether or not the call comes to write them. The guards strip a
text as Python does, the `CHECK`s measure `length(trim(text))`, and SQLite ends a text at its first NUL.
Only the message of a failure is checked for NUL. `claim_rejected_by_check` is a worker name that passes
the guard and not the `CHECK`.
-/

namespace AstrContinuum

open Checked Relational Transactional

section Runs

variable [Hashlib] [SecureCodec]

/-- The job table in one state, and what calls can make of it. -/
structure JobTableWellFormed (db : Database) : Prop where
  /-- Every row satisfies the `CHECK`s of the table. -/
  checks : ∀ row ∈ db.compactionJobs, row.Check
  /-- Every row satisfies `validate_conditionals`, whatever its session. -/
  envelopes : ∀ row ∈ db.compactionJobs, ∀ sessionKey, (row.data sessionKey).Valid
  /-- Every row reads back. -/
  reads : ∀ row ∈ db.compactionJobs, ∃ job, jobById db row.jobId = .ok job ∧ row.Represents job
  /-- Target and intent are within the journal of the session. -/
  marks : ∀ row ∈ db.compactionJobs, row.targetHighWaterMark ≤ row.intentTargetHighWaterMark ∧
    row.intentTargetHighWaterMark ≤ db.highWaterMark row.sessionKeyHash
  /-- A job that is worked on has an attempt to give back. -/
  attempts : ∀ row ∈ db.compactionJobs, row.state.isWorking = true → 1 ≤ row.attemptCount
  /-- No session has two open jobs. -/
  single : ∀ row ∈ db.compactionJobs, ∀ row' ∈ db.compactionJobs,
    row.state.isNonterminal = true → row'.state.isNonterminal = true →
    row.sessionKeyHash = row'.sessionKeyHash → row = row'
  /-- No job operation whose supplied texts are not blank to SQLite fails on the table. -/
  calls : ∀ call : Call, call.operation.movesJobs = true →
    (∀ text ∈ call.operation.suppliedTexts, trimNonEmpty text = true) →
    call.operation.NewIdFree db →
    ∀ failure, step db call = .error failure → ¬ JobTableFailure failure
  /-- No publication fails on the table. -/
  publications : ∀ faults request, (Operation.publishSnapshot request).NewIdFree db →
    ∀ failure, publishSnapshot faults db request = .error failure →
    PublishFailure faults db request failure

/-- In every reachable state the job table is well formed and calls keep to its constraints. -/
theorem job_table_well_formed {db : Database} (h : repository.Reachable db) :
    JobTableWellFormed db := by
  have hsound := sound_of_reachable h
  have hrows := jobRowsSound_of_reachable h
  have hcheck := db.consistent.compactionJobs.check
  constructor
  · exact hcheck
  · exact fun row hrow => (hcheck row hrow).valid
  · intro row hrow
    obtain ⟨job, hjob⟩ := jobById_sound hsound.journal rfl hrow
    obtain ⟨stored, hstored, hrepresents, -⟩ := jobById_ok hjob
    have hfound : db.jobRow row.jobId = some row := Database.jobRow_eq_some.mpr ⟨hrow, rfl⟩
    obtain rfl := Option.some.inj (hfound.symm.trans hstored)
    exact ⟨job, hjob, hrepresents⟩
  · exact fun row hrow => ⟨(hcheck row hrow).intent, (hrows row hrow).mark⟩
  · exact fun row hrow => (hrows row hrow).attempts
  · intro row hrow row' hrow' hstate hstate' hsession
    exact Database.nonterminal_unique hrow hrow' hstate hstate' hsession
  · intro call hmoves htexts hfree failure hfailure
    exact (step_spares hsound hmoves htexts hfree).error hfailure
  · intro faults request hfree failure hfailure
    exact (publishSnapshot_ensures hsound hfree).error hfailure

end Runs

namespace Sample

/-- One event is captured and a job is queued for it. -/
def queued : List Call :=
  [message "e1", { operation := .raiseCompactionIntent "job1" session 1 1 }]

end Sample

open Sample in
/-- The job table after two compactions is well formed. -/
theorem job_table_well_formed_sample :
    ((repository.execute twoCompactions).compactionJobs.map fun row => (row.jobId, row.state)) =
        [("job1", .committed), ("job2", .committed)] ∧
      JobTableWellFormed (repository.execute twoCompactions) :=
  ⟨by decide +kernel, job_table_well_formed (repository.reachable_execute twoCompactions)⟩

open Sample in
/-- A worker name that starts with NUL passes the guard of `claim_job` and then violates a `CHECK`:
the claim that no operation fails on the job table once its guards pass is false. -/
theorem claim_rejected_by_check :
    ¬ ∀ (calls : List Call) (worker : String) (now leaseExpiresAt : Timestamp),
      stripNonEmpty worker = true → now < leaseExpiresAt →
      ∀ failure, step (repository.execute calls)
        { operation := .claimJob worker now leaseExpiresAt } = .error failure →
      ¬ JobTableFailure failure := by
  intro h
  have hraises : claimJob .none (repository.execute queued) "\x00w" 1 9 =
      .error .integrityError := by
    decide +kernel
  refine h queued "\x00w" 1 9 (by decide) (by decide) .integrityError ?_ trivial
  simp only [step, hraises]
  rfl

end AstrContinuum
