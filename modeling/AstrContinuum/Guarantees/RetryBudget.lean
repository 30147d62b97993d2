import AstrContinuum.Compaction.Retry
import AstrContinuum.Guarantees.JobTable

/-!
# The retry budget

A run of the worker on one job is a sequence of attempts. Between them and during them any clients
may call the repository. `retry_budget_iff`: an attempt keeps the budget exactly when its retry time
can be computed and lies ahead and, if it ended in a deferral, the deferral was raised while compiling
with one of the codes that `fail_job` lists. A deferral raised later makes `fail_job` raise out of the
iteration, a deferral with another code consumes an attempt, and the delay after the 1025th attempt is
no float any more.

The claim increments the attempt counter. `LeaseLater` says that only the end of the same lease can
move it back, so the count that the worker sees at the end of an attempt is the count it claimed.
-/

namespace AstrContinuum

open Checked Relational Transactional

/-! ## Job rows under one lease -/

/-- A later row of the same job. While its epoch stays, no lease starts, and the attempts move only
when the lease ends. -/
structure LeaseLater (row row' : JobRow) : Prop where
  jobId : row'.jobId = row.jobId
  epoch : row.leaseEpoch ≤ row'.leaseEpoch
  nonterminal : row'.state.isNonterminal = true → row.state.isNonterminal = true
  working : row'.leaseEpoch = row.leaseEpoch →
    row'.state.isWorking = true → row.state.isWorking = true
  attempts : row'.leaseEpoch = row.leaseEpoch →
    (row'.state.isWorking = true ∨ row.state.isWorking = false) →
    row'.attemptCount = row.attemptCount

namespace LeaseLater

/-- Every row is a later row of itself. -/
theorem refl (row : JobRow) : LeaseLater row row :=
  ⟨rfl, le_rfl, id, fun _ => id, fun _ _ => rfl⟩

/-- Later rows compose. -/
theorem trans {row row' row'' : JobRow} (h : LeaseLater row row') (h' : LeaseLater row' row'') :
    LeaseLater row row'' := by
  have hepochs : row''.leaseEpoch = row.leaseEpoch →
      row''.leaseEpoch = row'.leaseEpoch ∧ row'.leaseEpoch = row.leaseEpoch := by
    have := h.epoch
    have := h'.epoch
    omega
  refine ⟨h'.jobId.trans h.jobId, h.epoch.trans h'.epoch, h.nonterminal ∘ h'.nonterminal, ?_, ?_⟩
  · intro hepoch hworking
    obtain ⟨hlast, hfirst⟩ := hepochs hepoch
    exact h.working hfirst (h'.working hlast hworking)
  · intro hepoch hends
    obtain ⟨hlast, hfirst⟩ := hepochs hepoch
    rcases hends with hworking | hidle
    · rw [h'.attempts hlast (.inl hworking), h.attempts hfirst (.inl (h'.working hlast hworking))]
    · -- No lease starts under the same epoch, so the row in the middle is idle as well.
      have hmiddle : row'.state.isWorking = false := by
        by_contra hworking
        have := h.working hfirst (by simpa using hworking)
        simp [hidle] at this
      rw [h'.attempts hlast (.inr hmiddle), h.attempts hfirst (.inr hidle)]

end LeaseLater

/-- A committed call leads to a later row. -/
theorem JobChange.leaseLater {db : Database} {row row' : JobRow} (h : JobChange db row row') :
    LeaseLater row row' := by
  refine ⟨h.identity.1, ?_, h.nonterminal, ?_, ?_⟩
  · rcases h.frozen with hlt | ⟨hepoch, -⟩
    · exact hlt.le
    · exact hepoch.ge
  · intro hepoch hworking
    rcases h.attempts hworking with ⟨hbefore, -⟩ | _
    · exact hbefore
    · cases h with
      | leased => simp [JobRow.lease] at hepoch
      | kept | folded => exact hworking
      | transitioned _ _ hbefore | renewed _ _ hbefore | failed _ _ hbefore
      | recovered _ hbefore => exact hbefore
      | finished _ _ hready => rw [hready]; rfl
  · intro hepoch hends
    cases h with
    | leased => simp [JobRow.lease] at hepoch
    | failed failure now hbefore =>
        rcases hends with hworking | hidle
        · cases hretry : failure.retryAt <;> simp only [JobRow.fail, hretry] at hworking <;>
            cases hworking
        · simp [hbefore] at hidle
    | _ => rfl

section Runs

variable [Hashlib] [SecureCodec]

/-- Any calls leave a later row of every job. -/
theorem foldl_leaseLater {db : Database} (h : repository.Reachable db) (calls : List Call)
    {jobId : String} {row : JobRow} (hrow : db.jobRow jobId = some row) :
    ∃ row', (calls.foldl repository.next db).jobRow jobId = some row' ∧ LeaseLater row row' := by
  obtain ⟨-, hlater⟩ := System.Reachable.foldl repository (P := fun _ => True)
    (R := fun db db' => ∀ row ∈ db.compactionJobs, ∃ row' ∈ db'.compactionJobs, LeaseLater row row')
    (fun _ row hrow => ⟨row, hrow, .refl row⟩)
    (by
      intro db₁ db₂ db₃ hfirst hsecond row hrow
      obtain ⟨row₁, hrow₁, hlater⟩ := hfirst row hrow
      obtain ⟨row₂, hrow₂, hlater'⟩ := hsecond row₁ hrow₁
      exact ⟨row₂, hrow₂, hlater.trans hlater'⟩)
    (by
      intro db call db' response h _ hok row hrow
      have hsound := sound_of_reachable h
      obtain ⟨row', hrow', hchange⟩ :=
        ((hsound.effect hok).jobChanges hsound.jobs).forward row hrow
      exact ⟨row', hrow', hchange.leaseLater⟩)
    h (fun call (_ : call ∈ calls) => trivial)
  obtain ⟨hmem, hid⟩ := Database.jobRow_eq_some.mp hrow
  obtain ⟨row', hrow', hlater⟩ := hlater row hmem
  exact ⟨row', Database.jobRow_eq_some.mpr ⟨hrow', hlater.jobId.trans hid⟩, hlater⟩

/-! ## Attempts -/

/-- One iteration of the worker that raises: what the clients call before it claims, the clock of the
claim, what they and the iteration call before it raises, the clock readings at its end, and what it
raised. -/
structure WorkerAttempt where
  idle : List Call
  claimNow : Timestamp
  leaseExpiresAt : Timestamp
  during : List Call
  now : Timestamp
  clock : Timestamp
  ending : IterationEnd

namespace WorkerAttempt

variable (attempt : WorkerAttempt) (config : RetryConfig) (db : Database)

/-- The state in which the worker claims. -/
def waiting : Database :=
  attempt.idle.foldl repository.next db

/-- The claim of the worker. -/
def claim : Call where
  operation := .claimJob config.workerId attempt.claimNow attempt.leaseExpiresAt

/-- The state in which the iteration has raised. -/
def held : Database :=
  attempt.during.foldl repository.next (repository.next (attempt.waiting db) (attempt.claim config))

end WorkerAttempt

/-- An attempt runs on a job: its claim leases the job, nobody leased the job since the last attempt,
and the lease is still live when the iteration has raised. -/
structure AttemptRuns (config : RetryConfig) (jobId : String) (db : Database) (attempt : WorkerAttempt)
    (leased : CompactionJobEnvelope) : Prop where
  claims : (repository.entry (attempt.waiting db) (attempt.claim config)).result =
    .ok (.job (some leased))
  job : leased.jobId = jobId
  alone : ((attempt.waiting db).jobRow jobId).map JobRow.leaseEpoch =
    (db.jobRow jobId).map JobRow.leaseEpoch
  live : ∃ row ∈ (attempt.held config db).jobRow jobId,
    row.Fenced config.workerId leased.leaseEpoch attempt.now

/-- The attempt ended in a genuine failure. -/
def IterationEnd.isGenuine : IterationEnd → Bool
  | .deferred .. => false
  | .failed .. => true

/-- What the end of an attempt has to meet. A genuine failure, unless it is the last one, has a delay that
is in range and leads from the clock to a time that lies ahead; so does the shortest delay for a deferral,
which was raised while compiling with a code that keeps the attempt. -/
def WorkerAttempt.Transient (attempt : WorkerAttempt) (config : RetryConfig) (leased : CompactionJobEnvelope) :
    Prop :=
  match attempt.ending with
  | .deferred stage code =>
      config.retryBase.LeadsAhead attempt.clock attempt.now ∧
        stage = .compiling ∧ code ∈ RetryConfig.preservedCodes
  | .failed .. =>
      leased.attemptCount < config.maxAttempts →
        (config.retryBase.isInteger = true ∨ leased.attemptCount ≤ 1024) ∧
          (config.delay leased.attemptCount).LeadsAhead attempt.clock attempt.now

/-- The end of an attempt keeps the budget: the worker persists it without raising; after a deferral
the job waits for its retry and has as many attempts as genuine failures; after a genuine failure it
has one more, and it is `FAILED` exactly when that is the last one. -/
def BudgetKept (config : RetryConfig) (jobId : String) (db : Database) (genuine : Nat)
    (attempt : WorkerAttempt) (leased : CompactionJobEnvelope) : Prop :=
  ∃ db' row, config.persist (attempt.held config db) leased attempt.now attempt.clock
      attempt.ending = .ok db' ∧ db'.jobRow jobId = some row ∧
    match attempt.ending with
    | .deferred .. => row.state = .retryWait ∧ row.attemptCount = genuine
    | .failed .. => row.attemptCount = genuine + 1 ∧
        row.state = if genuine + 1 = config.maxAttempts then .failed else .retryWait

/-- A run of the worker on one job, from a job that was never claimed, with the number of its genuine
failures. -/
inductive JobRun (config : RetryConfig) (jobId : String) : Database → Nat → Prop
  | queued {db : Database} {row : JobRow} (hreachable : repository.Reachable db)
      (hrow : db.jobRow jobId = some row) (hpending : row.state = .pending)
      (hattempts : row.attemptCount = 0) : JobRun config jobId db 0
  | attempted {db db' : Database} {genuine : Nat} {attempt : WorkerAttempt}
      {leased : CompactionJobEnvelope} (hrun : JobRun config jobId db genuine)
      (hattempt : AttemptRuns config jobId db attempt leased)
      (htransient : attempt.Transient config leased)
      (hpersist : config.persist (attempt.held config db) leased attempt.now attempt.clock
        attempt.ending = .ok db') :
      JobRun config jobId db' (genuine + attempt.ending.isGenuine.toNat)

/-! ## One attempt -/

/-- Between two attempts the job is idle, has as many attempts as genuine failures, and has some left
unless it is terminal. -/
structure Budgeted (config : RetryConfig) (row : JobRow) (genuine : Nat) : Prop where
  idle : row.state.isWorking = false
  attempts : row.attemptCount = genuine
  left : row.state.isNonterminal = true → genuine < config.maxAttempts

/-- An attempt ends on a live row that counts it, and some genuine failure is left. -/
theorem AttemptRuns.held {config : RetryConfig} {jobId : String} {db : Database} {attempt : WorkerAttempt}
    {leased : CompactionJobEnvelope} {row : JobRow} {genuine : Nat}
    (h : AttemptRuns config jobId db attempt leased) (hreachable : repository.Reachable db)
    (hrow : db.jobRow jobId = some row) (hbudget : Budgeted config row genuine) :
    repository.Reachable (attempt.held config db) ∧ leased.attemptCount = genuine + 1 ∧
      genuine < config.maxAttempts ∧
      ∃ held, (attempt.held config db).jobRow jobId = some held ∧
        held.Fenced config.workerId leased.leaseEpoch attempt.now ∧
        held.attemptCount = genuine + 1 := by
  -- Until the claim the row stays idle under its epoch.
  obtain ⟨waiting, hwaiting, hlater⟩ := foldl_leaseLater hreachable attempt.idle hrow
  have hclaimable : repository.Reachable (attempt.waiting db) :=
    (foldl_later hreachable attempt.idle).1
  have hepoch : waiting.leaseEpoch = row.leaseEpoch := by
    have halone := h.alone
    rw [WorkerAttempt.waiting, hwaiting, hrow] at halone
    simpa using halone
  have hattempts := hlater.attempts hepoch (.inr hbudget.idle)
  -- The claim leases this row.
  rcases repository.next_cases (attempt.waiting db) (attempt.claim config) with
    ⟨claimed, response, hok, hnext, hresult⟩ | ⟨failure, -, -, hresult⟩
  swap
  · rw [h.claims] at hresult
    cases hresult
  rw [h.claims] at hresult
  cases hresult
  have hstep : step (attempt.waiting db) (attempt.claim config) =
      .ok (claimed, .job (some leased)) := hok
  cases (sound_of_reachable hclaimable).effect hstep with
  | sidecar hoperation => cases hoperation
  | @claimed _ _ _ old base job _ hold heligible hbase htables hjob =>
      have hfields := hjob.fields
      have hid : old.jobId = jobId := by
        rw [← h.job, hfields]
        rfl
      obtain rfl : old = waiting :=
        Option.some.inj ((Database.jobRow_eq_some.mpr ⟨hold, hid⟩).symm.trans hwaiting)
      have hleased : claimed.jobRow jobId =
          some (old.lease base config.workerId attempt.leaseExpiresAt attempt.claimNow) := by
        refine Database.jobRow_eq_some.mpr ⟨?_, hid⟩
        rw [congrArg Tables.compactionJobs htables]
        exact mem_update.mpr (.inl ⟨old, hold, by simp, rfl⟩)
      have hclaimed : repository.Reachable claimed := by
        rw [← hnext]
        exact hclaimable.next _ _
      have hcount : leased.attemptCount = genuine + 1 := by
        rw [← hbudget.attempts, ← hattempts, hfields]
        rfl
      -- The lease is still live at the end, so the attempts are those of the claim.
      obtain ⟨held, hheld, hlater'⟩ := foldl_leaseLater hclaimed attempt.during hleased
      have hstate : attempt.held config db = attempt.during.foldl repository.next claimed := by
        rw [WorkerAttempt.held, hnext]
      obtain ⟨live, hlive, hfenced⟩ := h.live
      rw [hstate, hheld] at hlive
      obtain rfl := Option.some.inj hlive
      have hsame : held.leaseEpoch = (old.lease base config.workerId attempt.leaseExpiresAt
          attempt.claimNow).leaseEpoch := by
        rw [hfenced.2.2.1, hfields]
        rfl
      refine ⟨?_, hcount, ?_, held, ?_, hfenced, ?_⟩
      · rw [hstate]
        exact (foldl_later hclaimed attempt.during).1
      · exact hbudget.left (hlater.nonterminal (JobRow.isNonterminal_of_isEligible heligible))
      · rw [hstate]
        exact hheld
      · rw [hlater'.attempts hsame (.inl hfenced.1), ← hbudget.attempts, ← hattempts]
        rfl

/-! ## The end of an attempt -/

omit [SecureCodec] in
/-- What `fail_job` accepts it records: the row of the job fails. -/
theorem failJob_row {db db' : Database} {fence : Fence} {failure : JobFailure}
    {job : CompactionJobEnvelope} {row : JobRow} (hrow : db.jobRow fence.jobId = some row)
    (h : failJob .none db fence failure = .ok (db', job)) :
    db'.jobRow fence.jobId = some (row.fail failure fence.now) := by
  obtain ⟨hmem, hid⟩ := Database.jobRow_eq_some.mp hrow
  cases failJob_effect h with
  | sidecar hoperation => cases hoperation
  | @failed _ _ stored _ _ hstored _ htables =>
      obtain rfl := Option.some.inj (hrow.symm.trans hstored)
      refine Database.jobRow_eq_some.mpr ⟨?_, hid⟩
      rw [congrArg Tables.compactionJobs htables]
      exact mem_update.mpr (.inl ⟨row, hmem, by simp, rfl⟩)

/-- Under a live lease `fail_job` records every failure that passes its argument checks and whose
texts the table takes. -/
theorem failJob_of_fenced {db : Database} (h : repository.Reachable db) {fence : Fence}
    {failure : JobFailure} {row : JobRow} (hrow : db.jobRow fence.jobId = some row)
    (hfenced : row.Fenced fence.owner fence.leaseEpoch fence.now)
    (hvalid : failure.validate fence.now = .ok ())
    (htexts : trimNonEmpty failure.errorStage = true ∧ trimNonEmpty failure.errorCode = true ∧
      trimNonEmpty failure.errorMessage = true) :
    ∃ db' job, failJob .none db fence failure = .ok (db', job) := by
  have hcheck := db.consistent.compactionJobs.check row (Database.jobRow_eq_some.mp hrow).1
  obtain ⟨db', job, hupdate, hread⟩ : ∃ db' job,
      fencedUpdate db fence (JobRow.fail failure fence.now)
        "failure transition lost its fencing predicate" = .ok db' ∧
      jobById db' fence.jobId = .ok job :=
    fencedUpdate_job_table (sound_of_reachable h).journal hrow hfenced (fun _ => ⟨rfl, rfl, rfl⟩)
      (hcheck.fail htexts.1 htexts.2.1 htexts.2.2 fence.now)
  refine ⟨db', job, ?_⟩
  refine bind_ok.mpr ⟨_, hvalid, bind_ok.mpr ⟨_, requireLiveFence_ok.mpr ⟨hrow, hfenced⟩, ?_⟩⟩
  refine bind_ok.mpr ⟨_, hupdate, bind_ok.mpr ⟨(), ?_, bind_ok.mpr ⟨_, hread, rfl⟩⟩⟩
  rfl

omit [Hashlib] [SecureCodec] in
/-- What the argument checks of `fail_job` accept. -/
theorem JobFailure.validate_ok {failure : JobFailure} {now : Timestamp} :
    failure.validate now = .ok () ↔
      (stripNonEmpty failure.errorStage = true ∧ stripNonEmpty failure.errorCode = true ∧
        stripNonEmpty failure.errorMessage = true) ∧
      (failure.errorMessage.toList.length ≤ 512 ∧
        ∀ c ∈ failure.errorMessage.toList, c ≠ '\r' ∧ c ≠ '\n' ∧ c.toNat ≠ 0) ∧
      (failure.preserveAttempt = true → failure.retryAt ≠ none ∧
        failure.errorStage = "COMPILING" ∧ failure.errorCode ∈ RetryConfig.preservedCodes) ∧
      ∀ retryAt ∈ failure.retryAt, now < retryAt := by
  simp only [JobFailure.validate, bind_ok, require_ok, exists_const, RetryConfig.preservedCodes]
  refine and_congr_right fun _ => and_congr_right fun _ => and_congr_right fun _ => ?_
  cases failure.retryAt <;> simp

omit [Hashlib] [SecureCodec] in
/-- An attempt is transient exactly when the worker has a failure to record, its retry time lies ahead,
and a deferral is one that keeps the attempt. -/
theorem WorkerAttempt.transient_iff {attempt : WorkerAttempt} {config : RetryConfig}
    {leased : CompactionJobEnvelope} :
    attempt.Transient config leased ↔
      ∃ failure, config.record leased attempt.clock attempt.ending = .ok failure ∧
        (∀ retryAt ∈ failure.retryAt, attempt.now < retryAt) ∧
        ∀ stage code, attempt.ending = .deferred stage code →
          stage = .compiling ∧ code ∈ RetryConfig.preservedCodes := by
  unfold WorkerAttempt.Transient
  cases attempt.ending with
  | deferred stage code =>
      simp only [← Seconds.after_ok]
      constructor
      · rintro ⟨⟨time, htime, hnow⟩, hkept⟩
        refine ⟨_, bind_ok.mpr ⟨time, htime, rfl⟩, by simpa using hnow, ?_⟩
        intro stage' code' hsame
        cases hsame
        exact hkept
      · rintro ⟨failure, hrecord, hretry, hdeferral⟩
        obtain ⟨time, htime, hrecord⟩ := bind_ok.mp hrecord
        obtain rfl := pure_ok.mp hrecord
        exact ⟨⟨time, htime, hretry time rfl⟩, hdeferral stage code rfl⟩
  | failed stage error =>
      simp only [← config.retryAt_ok]
      constructor
      · rintro ⟨retryAt, hretry, hnow⟩
        exact ⟨_, bind_ok.mpr ⟨retryAt, hretry, rfl⟩, hnow, by simp⟩
      · rintro ⟨failure, hrecord, hnow, -⟩
        obtain ⟨retryAt, hretry, hrecord⟩ := bind_ok.mp hrecord
        obtain rfl := pure_ok.mp hrecord
        exact ⟨retryAt, hretry, hnow⟩

omit [Hashlib] [SecureCodec] in
/-- What the worker records of a deferral: the stage, the code twice, a retry time, and whether the
attempt is given back. -/
theorem RetryConfig.deferral_fields {config : RetryConfig} {stage : WorkerStage} {code : String}
    {clock : Timestamp} {failure : JobFailure} (h : config.deferral stage code clock = .ok failure) :
    failure.errorStage = stage.value ∧ failure.errorCode = code ∧ failure.errorMessage = code ∧
      failure.preserveAttempt = decide (code ∈ preservedCodes) ∧ failure.retryAt ≠ none := by
  obtain ⟨time, -, h⟩ := bind_ok.mp h
  obtain rfl := pure_ok.mp h
  exact ⟨rfl, rfl, rfl, rfl, Option.some_ne_none time⟩

omit [Hashlib] [SecureCodec] in
/-- What the worker records of a genuine failure: the stage, its code twice, and no retry time exactly
after the last attempt. -/
theorem RetryConfig.failure_fields {config : RetryConfig} {attemptCount : Nat} {stage : WorkerStage}
    {error : WorkerError} {clock : Timestamp} {failure : JobFailure}
    (h : config.failure attemptCount stage error clock = .ok failure) :
    failure.errorStage = stage.value ∧ failure.errorCode = error.errorCode ∧
      failure.errorMessage = error.errorCode ∧ failure.preserveAttempt = false ∧
      (failure.retryAt = none ↔ ¬ attemptCount < config.maxAttempts) := by
  obtain ⟨retryAt, hretry, h⟩ := bind_ok.mp h
  obtain rfl := pure_ok.mp h
  refine ⟨rfl, rfl, rfl, rfl, ?_⟩
  unfold RetryConfig.retryAt at hretry
  split at hretry
  · next hleft =>
      obtain ⟨_, -, hretry⟩ := bind_ok.mp hretry
      obtain ⟨time, -, hretry⟩ := bind_ok.mp hretry
      obtain rfl := pure_ok.mp hretry
      simp [hleft]
  · next hlast =>
      obtain rfl := pure_ok.mp hretry
      simp [hlast]

omit [Hashlib] [SecureCodec] in
/-- What a transient attempt records passes the argument checks of `fail_job`, and the table takes its
texts. -/
theorem WorkerAttempt.Transient.validate {attempt : WorkerAttempt} {config : RetryConfig}
    {leased : CompactionJobEnvelope} (h : attempt.Transient config leased) {failure : JobFailure}
    (hrecord : config.record leased attempt.clock attempt.ending = .ok failure) :
    failure.validate attempt.now = .ok () ∧ trimNonEmpty failure.errorStage = true ∧
      trimNonEmpty failure.errorCode = true ∧ trimNonEmpty failure.errorMessage = true := by
  obtain ⟨_, hsame, hretry, hdeferral⟩ := transient_iff.mp h
  obtain rfl := Except.ok.inj (hsame.symm.trans hrecord)
  rw [JobFailure.validate_ok]
  cases hending : attempt.ending with
  | deferred stage code =>
      obtain ⟨rfl, hcode⟩ := hdeferral _ _ hending
      rw [hending] at hrecord
      obtain ⟨hstage, hsameCode, hmessage, -, htime⟩ := RetryConfig.deferral_fields hrecord
      have hrecordable := RetryConfig.recordable_of_preserved hcode
      obtain ⟨hstrip, htrim⟩ := WorkerStage.value_accepted .compiling
      rw [hstage, hsameCode, hmessage]
      exact ⟨⟨⟨hstrip, hrecordable.strip, hrecordable.strip⟩, ⟨hrecordable.bounded, hrecordable.line⟩,
        fun _ => ⟨htime, rfl, hcode⟩, hretry⟩, htrim, hrecordable.trim, hrecordable.trim⟩
  | failed stage error =>
      rw [hending] at hrecord
      obtain ⟨hstage, hcode, hmessage, hpreserve, -⟩ := RetryConfig.failure_fields hrecord
      have hrecordable := error.errorCode_recordable
      obtain ⟨hstrip, htrim⟩ := stage.value_accepted
      rw [hstage, hcode, hmessage, hpreserve]
      exact ⟨⟨⟨hstrip, hrecordable.strip, hrecordable.strip⟩, ⟨hrecordable.bounded, hrecordable.line⟩,
        by simp, hretry⟩, htrim, hrecordable.trim, hrecordable.trim⟩

/-- A budget that is kept shows in the row that `fail_job` leaves: after a transient attempt the worker
persists the end, and the row counts it as it should. -/
theorem AttemptRuns.persist {config : RetryConfig} {jobId : String} {db : Database}
    {attempt : WorkerAttempt} {leased : CompactionJobEnvelope} {held : JobRow}
    (h : AttemptRuns config jobId db attempt leased)
    (hreachable : repository.Reachable (attempt.held config db))
    (hheld : (attempt.held config db).jobRow jobId = some held)
    (hfenced : held.Fenced config.workerId leased.leaseEpoch attempt.now)
    (htransient : attempt.Transient config leased) :
    ∃ db' failure, config.record leased attempt.clock attempt.ending = .ok failure ∧
      config.persist (attempt.held config db) leased attempt.now attempt.clock
        attempt.ending = .ok db' ∧ repository.Reachable db' ∧
      db'.jobRow jobId = some (held.fail failure attempt.now) := by
  obtain ⟨failure, hrecord, -, -⟩ := WorkerAttempt.transient_iff.mp htransient
  obtain ⟨hvalid, htexts⟩ := htransient.validate hrecord
  have hrow : (attempt.held config db).jobRow leased.jobId = some held := by
    rw [h.job]
    exact hheld
  obtain ⟨db', job, hfail⟩ : ∃ db' job, failJob .none (attempt.held config db)
      ⟨leased.jobId, config.workerId, leased.leaseEpoch, attempt.now⟩ failure = .ok (db', job) :=
    failJob_of_fenced hreachable hrow hfenced hvalid htexts
  have hstep : repository.step (attempt.held config db)
      { operation := .failJob ⟨leased.jobId, config.workerId, leased.leaseEpoch, attempt.now⟩
          failure } =
        .ok (db', .job (some job)) := by
    simp [repository, step, hfail, Except.map]
  refine ⟨db', failure, hrecord, by simp only [RetryConfig.persist, hrecord, hfail], ?_, ?_⟩
  · rw [← repository.next_of_ok hstep]
    exact hreachable.next _ _
  · rw [← h.job]
    exact failJob_row hrow hfail

/-- An attempt that keeps the budget is transient. -/
theorem BudgetKept.transient {config : RetryConfig} {jobId : String} {db : Database} {genuine : Nat}
    {attempt : WorkerAttempt} {leased : CompactionJobEnvelope} {held : JobRow}
    (h : BudgetKept config jobId db genuine attempt leased)
    (hattempt : AttemptRuns config jobId db attempt leased)
    (hheld : (attempt.held config db).jobRow jobId = some held)
    (hfenced : held.Fenced config.workerId leased.leaseEpoch attempt.now)
    (hcount : held.attemptCount = genuine + 1) : attempt.Transient config leased := by
  obtain ⟨db', row, hpersist, hrow, hkept⟩ := h
  have hleased : (attempt.held config db).jobRow leased.jobId = some held := by
    rw [hattempt.job]
    exact hheld
  simp only [RetryConfig.persist] at hpersist
  split at hpersist
  · cases hpersist
  next failure hrecord =>
  split at hpersist
  · next after job hfail =>
      cases hpersist
      obtain ⟨_, hvalid, -⟩ := bind_ok.mp hfail
      obtain ⟨-, -, hpreserve, hretry⟩ := JobFailure.validate_ok.mp hvalid
      have hafter := failJob_row hleased hfail
      simp only [hattempt.job] at hafter
      obtain rfl := Option.some.inj (hafter.symm.trans hrow)
      refine WorkerAttempt.transient_iff.mpr ⟨failure, hrecord, hretry, fun stage code hending => ?_⟩
      rw [hending] at hkept hrecord
      obtain ⟨hstage, -, -, hgives, -⟩ := RetryConfig.deferral_fields hrecord
      -- The attempt was given back, so the worker asked for it and the checks let it.
      have hgiven : code ∈ RetryConfig.preservedCodes := by
        by_contra hother
        have hsame : held.attemptCount = genuine := by
          simpa [JobRow.fail, hgives, hother] using hkept.2
        omega
      obtain ⟨-, hcompiling, -⟩ := hpreserve (by simp [hgives, hgiven])
      exact ⟨WorkerStage.value_eq_compiling.mp (hstage.symm.trans hcompiling), hgiven⟩
  · -- A lost lease would have left the row as it was, and the row is still worked on.
    cases hpersist
    obtain rfl := Option.some.inj (hheld.symm.trans hrow)
    have hworking := hfenced.1
    cases hending : attempt.ending with
    | deferred stage code =>
        rw [hending] at hkept
        rw [hkept.1] at hworking
        cases hworking
    | failed stage error =>
        rw [hending] at hkept
        rw [hkept.2] at hworking
        split at hworking <;> cases hworking
  · cases hpersist

omit [Hashlib] [SecureCodec] in
/-- A transient attempt leaves the row that the budget asks for. -/
theorem WorkerAttempt.Transient.settles {config : RetryConfig} {attempt : WorkerAttempt}
    {leased : CompactionJobEnvelope} {held : JobRow} {genuine : Nat} {failure : JobFailure}
    (h : attempt.Transient config leased)
    (hrecord : config.record leased attempt.clock attempt.ending = .ok failure)
    (hcount : held.attemptCount = genuine + 1)
    (hleased : leased.attemptCount = genuine + 1) (hleft : genuine < config.maxAttempts) :
    match attempt.ending with
    | .deferred .. =>
        (held.fail failure attempt.now).state = .retryWait ∧
        (held.fail failure attempt.now).attemptCount = genuine
    | .failed .. =>
        (held.fail failure attempt.now).attemptCount = genuine + 1 ∧
        (held.fail failure attempt.now).state =
          if genuine + 1 = config.maxAttempts then .failed else .retryWait := by
  unfold WorkerAttempt.Transient at h
  cases hending : attempt.ending with
  | deferred stage code =>
      rw [hending] at hrecord h
      obtain ⟨-, -, -, hgives, htime⟩ := RetryConfig.deferral_fields hrecord
      simp [JobRow.fail, hgives, h.2.2, htime, hcount]
  | failed stage error =>
      rw [hending] at hrecord
      obtain ⟨-, -, -, hgives, htime⟩ := RetryConfig.failure_fields hrecord
      have hlast : failure.retryAt = none ↔ genuine + 1 = config.maxAttempts := by
        rw [htime, hleased]
        omega
      simp [JobRow.fail, hgives, hlast, hcount]

/-- Along a run the budget is kept. -/
theorem JobRun.budgeted {config : RetryConfig} {jobId : String} {db : Database} {genuine : Nat}
    (h : JobRun config jobId db genuine) :
    repository.Reachable db ∧ ∃ row, db.jobRow jobId = some row ∧ Budgeted config row genuine := by
  induction h with
  | queued hreachable hrow hpending hattempts =>
      exact ⟨hreachable, _, hrow, by rw [hpending]; rfl, hattempts,
        fun _ => config.maxAttempts_pos⟩
  | @attempted db db' genuine attempt leased _ hattempt htransient hpersist ih =>
      obtain ⟨hreachable, row, hrow, hbudget⟩ := ih
      obtain ⟨hheld, hcount, hleft, held, hrow', hfenced, hattempts⟩ :=
        hattempt.held hreachable hrow hbudget
      obtain ⟨after, failure, hrecord, hafter, hreached, hfailed⟩ :=
        hattempt.persist hheld hrow' hfenced htransient
      obtain rfl := Except.ok.inj (hafter.symm.trans hpersist)
      refine ⟨hreached, _, hfailed, ?_⟩
      have hsettles := htransient.settles hrecord hattempts hcount hleft
      cases hending : attempt.ending with
      | deferred stage code =>
          simp only [hending] at hsettles
          obtain ⟨hstate, hsame⟩ := hsettles
          exact ⟨by rw [hstate]; rfl, hsame, fun _ => hleft⟩
      | failed stage error =>
          simp only [hending] at hsettles
          obtain ⟨hmore, hstate⟩ := hsettles
          refine ⟨?_, hmore, fun hopen => ?_⟩
          · rw [hstate]
            split <;> rfl
          · rw [hstate] at hopen
            split at hopen
            · cases hopen
            · show genuine + 1 < config.maxAttempts
              omega

/-- In every run of the worker on a job, an attempt keeps the retry budget exactly when it is
transient. -/
theorem retry_budget_iff {config : RetryConfig} {jobId : String} {db : Database} {genuine : Nat}
    (hrun : JobRun config jobId db genuine) {attempt : WorkerAttempt}
    {leased : CompactionJobEnvelope} (hattempt : AttemptRuns config jobId db attempt leased) :
    BudgetKept config jobId db genuine attempt leased ↔ attempt.Transient config leased := by
  obtain ⟨hreachable, row, hrow, hbudget⟩ := hrun.budgeted
  obtain ⟨hheld, hcount, hleft, held, hrow', hfenced, hattempts⟩ :=
    hattempt.held hreachable hrow hbudget
  constructor
  · intro hkept
    exact hkept.transient hattempt hrow' hfenced hattempts
  · intro htransient
    obtain ⟨after, failure, hrecord, hafter, -, hfailed⟩ :=
      hattempt.persist hheld hrow' hfenced htransient
    exact ⟨after, _, hafter, hfailed, htransient.settles hrecord hattempts hcount hleft⟩

/-- The history entry of a claim that commits. -/
theorem entry_claimJob {db : Database} {worker : String} {now leaseExpiresAt : Timestamp}
    {result : Database × Option CompactionJobEnvelope}
    (h : claimJob .none db worker now leaseExpiresAt = .ok result) :
    (repository.entry db { operation := .claimJob worker now leaseExpiresAt }).result =
      .ok (.job result.2) := by
  simp [System.entry, repository, step, h, Except.map]

end Runs

/-! ## A job that waits for its token metrics -/

namespace Sample

/-- Three attempts are some. -/
theorem attempts_pos : 1 ≤ 3 := by decide

/-- A worker that gives a job three attempts. -/
def retryConfig : RetryConfig where
  workerId := "w"
  retryBase := .float 5
  retryMax := .float 300
  maxAttempts := 3
  maxAttempts_pos := attempts_pos

/-- The envelope that the first claim of the queued job returns. -/
def leasedJob : CompactionJobEnvelope where
  jobId := "job1"
  sessionKey := session
  state := .leased
  targetHighWaterMark := 1
  intentTargetHighWaterMark := 1
  baseSnapshotId := none
  basePointerVersion := 0
  candidateSnapshotId := none
  attemptCount := 1
  leaseOwner := some "w"
  leaseEpoch := 1
  leaseExpiresAt := some 20
  nextRetryAt := none
  errorStage := none
  errorCode := none
  errorMessage := none
  createdAt := 1
  updatedAt := 2
  committedAt := none

/-- The first attempt on the queued job: its counter is unavailable at some stage. -/
def unavailable (stage : WorkerStage) : WorkerAttempt where
  idle := []
  claimNow := 2
  leaseExpiresAt := 20
  during := [{ operation := .transitionJob ⟨"job1", "w", 1, 3⟩ .compiling none }]
  now := 4
  clock := 4
  ending := .deferred stage "TOKEN_METRIC_UNAVAILABLE"

/-- The queued job starts a run. -/
theorem jobRun_queued : JobRun retryConfig "job1" (repository.execute queued) 0 := by
  have hrow : ((repository.execute queued).jobRow "job1").map
      (fun row => (row.state, row.attemptCount)) = some (.pending, 0) := by
    decide +kernel
  obtain ⟨row, hrow, hfields⟩ := Option.map_eq_some_iff.mp hrow
  obtain ⟨hstate, hattempts⟩ := Prod.mk.inj hfields
  exact .queued (repository.reachable_execute queued) hrow hstate hattempts

/-- The first attempt runs, whatever its last stage. -/
theorem attemptRuns_unavailable (stage : WorkerStage) :
    AttemptRuns retryConfig "job1" (repository.execute queued) (unavailable stage) leasedJob where
  claims := by
    have hclaim : (claimJob .none (repository.execute queued) "w" 2 20).map Prod.snd =
        .ok (some leasedJob) := by
      decide +kernel
    obtain ⟨result, hresult, hjob⟩ := map_ok.mp hclaim
    rw [← hjob]
    exact entry_claimJob hresult
  job := rfl
  alone := rfl
  live := by
    have hlive : ((((unavailable .compiling).held retryConfig (repository.execute queued)).jobRow
        "job1").any fun row => decide (row.Fenced "w" 1 4)) = true := by
      decide +kernel
    obtain ⟨row, hrow, hfenced⟩ := (Option.any_eq_true _ _).mp hlive
    exact ⟨row, hrow, of_decide_eq_true hfenced⟩

end Sample

namespace Sample

/-- The retry time of the first attempt. -/
theorem retryBase_after : retryConfig.retryBase.after 4 = .ok 5000004 := by
  have hdelta : retryConfig.retryBase.timedelta = .ok 5000000 := by
    decide +kernel
  exact bind_ok.mpr ⟨_, hdelta, by decide⟩

end Sample

open Sample in
/-- A counter that is unavailable while compiling gives the attempt back. -/
theorem retry_budget_kept_while_compiling :
    BudgetKept retryConfig "job1" (repository.execute queued) 0 (unavailable .compiling)
      leasedJob := by
  refine (retry_budget_iff jobRun_queued (attemptRuns_unavailable .compiling)).mpr ⟨?_, rfl, by decide⟩
  exact Seconds.after_ok.mp ⟨_, retryBase_after, by decide⟩

open Sample in
/-- A counter that is unavailable while the metrics of the candidate are counted makes `fail_job` raise
out of the iteration: the claim that every deferral is persisted is false. -/
theorem deferral_escapes_while_verifying :
    ¬ ∀ (config : RetryConfig) (jobId : String) (db : Database) (genuine : Nat)
      (attempt : WorkerAttempt) (leased : CompactionJobEnvelope), JobRun config jobId db genuine →
      AttemptRuns config jobId db attempt leased →
      BudgetKept config jobId db genuine attempt leased := by
  intro h
  obtain ⟨db', row, hpersist, -⟩ := h retryConfig "job1" _ 0 (unavailable .verifying) leasedJob
    jobRun_queued (attemptRuns_unavailable .verifying)
  have hrecord : retryConfig.record leasedJob 4 (.deferred .verifying "TOKEN_METRIC_UNAVAILABLE") =
      .ok ⟨"VERIFYING", "TOKEN_METRIC_UNAVAILABLE", "TOKEN_METRIC_UNAVAILABLE", some 5000004, true⟩ :=
    bind_ok.mpr ⟨_, retryBase_after, rfl⟩
  have hraises : failJob .none
      ((unavailable .verifying).held retryConfig (repository.execute queued)) ⟨"job1", "w", 1, 4⟩
      ⟨"VERIFYING", "TOKEN_METRIC_UNAVAILABLE", "TOKEN_METRIC_UNAVAILABLE", some 5000004, true⟩ =
        .error (.valueError "attempt preservation is limited to retryable transient deferrals") := by
    rfl
  have hescapes : retryConfig.persist
      ((unavailable .verifying).held retryConfig (repository.execute queued)) leasedJob 4 4
      (.deferred .verifying "TOKEN_METRIC_UNAVAILABLE") =
        .error (.valueError "attempt preservation is limited to retryable transient deferrals") := by
    unfold RetryConfig.persist
    rw [hrecord]
    rfl
  cases hescapes.symm.trans hpersist

end AstrContinuum
