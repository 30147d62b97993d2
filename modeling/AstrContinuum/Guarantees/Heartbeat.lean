import AstrContinuum.Compaction.Heartbeat
import AstrContinuum.Guarantees.Agreement
import AstrContinuum.Guarantees.RetryBudget

/-!
# Heartbeats

`heartbeat_renews_iff`: while its claim is current, a renewal of the runtime worker is accepted exactly
when the clock has moved on since the claim or the renewal before it, and every renewal of the fenced
worker is accepted. Meanwhile nobody else can take the lease.

A run is a claim followed by renewals, with any calls of any clients in between. `HoldsLease` is the
stored lease, and `Effect.holdsLease` says that no call moves it but a renewal, an end or a recovery.
-/

namespace AstrContinuum

open Checked Relational Transactional

/-! ## The stored lease -/

/-- The row is worked on by this owner under this epoch, until this time. -/
structure JobRow.HoldsLease (row : JobRow) (owner : String) (leaseEpoch : Nat)
    (expiry : Timestamp) : Prop where
  working : row.state.isWorking = true
  owner : row.leaseOwner = some owner
  epoch : row.leaseEpoch = leaseEpoch
  expiry : row.leaseExpiresAt = some expiry

/-- The stored job is worked on by this owner under this epoch, until this time. -/
def Database.HoldsLease (db : Database) (jobId owner : String) (leaseEpoch : Nat)
    (expiry : Timestamp) : Prop :=
  ∃ row, db.jobRow jobId = some row ∧ row.HoldsLease owner leaseEpoch expiry

/-- Before it expires, the lease passes the fence. -/
theorem JobRow.HoldsLease.fenced {row : JobRow} {owner : String} {leaseEpoch : Nat}
    {expiry now : Timestamp} (h : row.HoldsLease owner leaseEpoch expiry) (hlive : now < expiry) :
    row.Fenced owner leaseEpoch now :=
  ⟨h.working, h.owner, h.epoch, expiry, h.expiry, hlive⟩

/-- Before it expires, the lease is not recovered. -/
theorem JobRow.HoldsLease.not_expired {row : JobRow} {owner : String} {leaseEpoch : Nat}
    {expiry now : Timestamp} (h : row.HoldsLease owner leaseEpoch expiry) (hlive : now < expiry) :
    row.isExpired now = false := by
  simp [JobRow.isExpired, h.working, h.expiry, hlive]

/-- An operation that leaves the lease of a claim to its holder: it recovers nothing at a later time
than the expiry, and does not present the fence of the claim to renew or end it. -/
def Operation.Leaves (operation : Operation) (jobId owner : String) (leaseEpoch : Nat)
    (expiry : Timestamp) : Prop :=
  match operation with
  | .recoverExpiredLeases now => now < expiry
  | .renewJobLease fence _ | .failJob fence _ =>
      (fence.jobId, fence.owner, fence.leaseEpoch) ≠ (jobId, owner, leaseEpoch)
  | .publishSnapshot request =>
      (request.fence.jobId, request.fence.owner, request.fence.leaseEpoch) ≠
        (jobId, owner, leaseEpoch)
  | _ => True

section Runs

variable [Hashlib]

omit [Hashlib] in
/-- A row that holds a lease keeps it through an update that does not touch it. -/
theorem holdsLease_update {db : Database} {row : JobRow} {owner : String} {leaseEpoch : Nat}
    {expiry : Timestamp} (hrow : row ∈ db.compactionJobs)
    (h : row.HoldsLease owner leaseEpoch expiry) {selected : JobRow → Bool}
    {change : JobRow → JobRow} (hid : (change row).jobId = row.jobId)
    (hkeep : selected row = true → (change row).HoldsLease owner leaseEpoch expiry) :
    ∃ row' ∈ update selected change db.compactionJobs, row'.jobId = row.jobId ∧
      row'.HoldsLease owner leaseEpoch expiry := by
  cases hselected : selected row with
  | true => exact ⟨_, mem_update.mpr (.inl ⟨row, hrow, hselected, rfl⟩), hid, hkeep hselected⟩
  | false => exact ⟨row, mem_update.mpr (.inr ⟨hrow, hselected⟩), rfl, h⟩

/-- A row that holds a lease keeps it when another job is settled. -/
theorem holdsLease_settled {db : Database} {row stored : JobRow} {owner : String} {leaseEpoch : Nat}
    {expiry : Timestamp} (hrow : row ∈ db.compactionJobs)
    (h : row.HoldsLease owner leaseEpoch expiry)
    (hother : ¬ (decide (row.jobId = stored.jobId) = true)) (outcome : PublishOutcome)
    (winnerId : String) (coverage version : Nat) (now : Timestamp) :
    ∃ row' ∈ settledJobs outcome stored winnerId coverage version now db.compactionJobs,
      row'.jobId = row.jobId ∧ row'.HoldsLease owner leaseEpoch expiry :=
  ⟨row, List.mem_append_left _ (mem_update.mpr (.inr ⟨hrow, by simpa using hother⟩)), rfl, h⟩

/-- A committed call that leaves the lease to its holder keeps it. -/
theorem Effect.holdsLease {db db' : Database} {operation : Operation} {response : Response}
    (h : Effect db operation db' response) {jobId owner : String} {leaseEpoch : Nat}
    {expiry : Timestamp} (hlease : db.HoldsLease jobId owner leaseEpoch expiry)
    (hleaves : operation.Leaves jobId owner leaseEpoch expiry) :
    db'.HoldsLease jobId owner leaseEpoch expiry := by
  obtain ⟨row, hrow, hholds⟩ := hlease
  obtain ⟨hmem, rfl⟩ := Database.jobRow_eq_some.mp hrow
  suffices hfound : ∃ row' ∈ db'.compactionJobs, row'.jobId = row.jobId ∧
      row'.HoldsLease owner leaseEpoch expiry by
    obtain ⟨row', hrow', hid, hholds'⟩ := hfound
    exact ⟨row', Database.jobRow_eq_some.mpr ⟨hrow', hid⟩, hholds'⟩
  -- A fenced operation with another fence is about another row.
  have hother : ∀ {fence : Fence} {stored : JobRow}, db.jobRow fence.jobId = some stored →
      stored.Fenced fence.owner fence.leaseEpoch fence.now →
      (fence.jobId, fence.owner, fence.leaseEpoch) ≠ (row.jobId, owner, leaseEpoch) →
      ¬ (decide (row.jobId = stored.jobId) = true) := by
    intro fence stored hstored hfenced hne hsame
    obtain ⟨hin, hid⟩ := Database.jobRow_eq_some.mp hstored
    obtain rfl := db.consistent.compactionJobs.primaryKey.eq_of_key hmem hin
      (of_decide_eq_true hsame)
    refine hne ?_
    rw [← hid, ← hholds.epoch, ← hfenced.2.2.1]
    have howner := hholds.owner.symm.trans hfenced.2.1
    rw [Option.some.inj howner]
  cases h with
  | captured _ heffect =>
      cases heffect with
      | replayed _ hold | appended _ _ _ _ _ _ hold =>
          rw [hold.compactionJobs]
          exact ⟨row, hmem, rfl, hholds⟩
  | sidecar _ hsame =>
      rw [hsame.compactionJobs]
      exact ⟨row, hmem, rfl, hholds⟩
  | intentCovered | intentCarried | claimedNone | viewed => exact ⟨row, hmem, rfl, hholds⟩
  | intentFolded _ _ _ _ _ htables =>
      rw [congrArg Tables.compactionJobs htables]
      exact holdsLease_update hmem hholds rfl fun _ =>
        ⟨hholds.working, hholds.owner, hholds.epoch, hholds.expiry⟩
  | intentQueued _ _ _ htables =>
      rw [congrArg Tables.compactionJobs htables]
      exact ⟨row, List.mem_append_left _ hmem, rfl, hholds⟩
  | claimed hclaimed heligible _ htables =>
      rw [congrArg Tables.compactionJobs htables]
      refine holdsLease_update hmem hholds rfl fun hsame => ?_
      obtain rfl := db.consistent.compactionJobs.primaryKey.eq_of_key hmem hclaimed
        (of_decide_eq_true hsame)
      have hworking := hholds.working
      simp only [JobRow.isEligible, Bool.or_eq_true, Bool.and_eq_true, decide_eq_true_eq]
        at heligible
      rcases heligible with hstate | ⟨hstate, -⟩ <;> rw [hstate] at hworking <;> cases hworking
  | transitioned hstored _ hallowed htables =>
      rw [congrArg Tables.compactionJobs htables]
      refine holdsLease_update hmem hholds rfl fun hsame => ?_
      obtain rfl := db.consistent.compactionJobs.primaryKey.eq_of_key hmem
        (Database.jobRow_eq_some.mp hstored).1 (of_decide_eq_true hsame)
      exact ⟨CompactionJobState.allowed_worker_transition_working hallowed, hholds.owner,
        hholds.epoch, hholds.expiry⟩
  | renewed hstored hfenced htables =>
      rw [congrArg Tables.compactionJobs htables]
      exact holdsLease_update hmem hholds rfl fun hsame =>
        absurd hsame (hother hstored hfenced hleaves)
  | failed hstored hfenced htables =>
      rw [congrArg Tables.compactionJobs htables]
      exact holdsLease_update hmem hholds rfl fun hsame =>
        absurd hsame (hother hstored hfenced hleaves)
  | recovered htables =>
      rw [congrArg Tables.compactionJobs htables]
      refine holdsLease_update hmem hholds rfl fun hexpired => ?_
      have hlive := hholds.not_expired hleaves
      rw [hexpired] at hlive
      cases hlive
  | committed hadmits _ _ _ htables | superseded hadmits _ _ _ _ htables =>
      rw [congrArg Tables.compactionJobs htables]
      exact holdsLease_settled hmem hholds (hother hadmits.stored hadmits.fenced hleaves) _ _ _ _ _

/-! ## A renewal -/

/-- A renewal under a live lease is accepted exactly when it extends the lease. -/
theorem renewJobLease_iff [SecureCodec] {db : Database} (hreachable : repository.Reachable db)
    (fence : Fence) {expiry leaseExpiresAt : Timestamp}
    (h : db.HoldsLease fence.jobId fence.owner fence.leaseEpoch expiry)
    (hlive : fence.now < expiry) (hlater : fence.now < leaseExpiresAt) :
    (∃ db' job, renewJobLease .none db fence leaseExpiresAt = .ok (db', job)) ↔
      expiry < leaseExpiresAt := by
  obtain ⟨row, hrow, hholds⟩ := h
  have hfenced := hholds.fenced hlive
  constructor
  · rintro ⟨db', job, h⟩
    obtain ⟨_, -, h⟩ := bind_ok.mp h
    obtain ⟨stored, hfence, h⟩ := bind_ok.mp h
    obtain ⟨_, hextends, -⟩ := bind_ok.mp h
    obtain rfl := Option.some.inj ((requireLiveFence_ok.mp hfence).1.symm.trans hrow)
    simpa [hholds.expiry] using require_ok.mp hextends
  · intro hextends
    have hcheck := db.consistent.compactionJobs.check row (Database.jobRow_eq_some.mp hrow).1
    obtain ⟨db', job, hupdate, hread⟩ : ∃ db' job,
        fencedUpdate db fence (JobRow.renew leaseExpiresAt fence.now)
          "lease renewal lost its fencing predicate" = .ok db' ∧
        jobById db' fence.jobId = .ok job :=
      fencedUpdate_job_table (sound_of_reachable hreachable).journal hrow hfenced
        (fun _ => ⟨rfl, rfl, rfl⟩) (hcheck.renew hholds.working _ _)
    refine ⟨db', job, bind_ok.mpr ⟨(), require_ok.mpr hlater, ?_⟩⟩
    refine bind_ok.mpr ⟨row, requireLiveFence_ok.mpr ⟨hrow, hfenced⟩, ?_⟩
    refine bind_ok.mpr ⟨(), require_ok.mpr (by simpa [hholds.expiry] using hextends), ?_⟩
    refine bind_ok.mpr ⟨_, hupdate, bind_ok.mpr ⟨(), ?_, bind_ok.mpr ⟨_, hread, rfl⟩⟩⟩
    rfl

/-- A renewal that is accepted extends the stored lease, and returns it. -/
theorem renewJobLease_holds {db db' : Database} {fence : Fence} {expiry leaseExpiresAt : Timestamp}
    {job : CompactionJobEnvelope}
    (h : db.HoldsLease fence.jobId fence.owner fence.leaseEpoch expiry)
    (hrenew : renewJobLease .none db fence leaseExpiresAt = .ok (db', job)) :
    db'.HoldsLease fence.jobId fence.owner fence.leaseEpoch leaseExpiresAt ∧
      job.jobId = fence.jobId ∧ job.leaseEpoch = fence.leaseEpoch ∧
      job.leaseExpiresAt = some leaseExpiresAt := by
  obtain ⟨row, hrow, hholds⟩ := h
  obtain ⟨_, -, hrenew⟩ := bind_ok.mp hrenew
  obtain ⟨stored, hfence, hrenew⟩ := bind_ok.mp hrenew
  obtain ⟨_, -, hrenew⟩ := bind_ok.mp hrenew
  obtain ⟨db₁, hupdate, hrenew⟩ := bind_ok.mp hrenew
  obtain ⟨_, -, hrenew⟩ := bind_ok.mp hrenew
  obtain ⟨job', hread, hrenew⟩ := bind_ok.mp hrenew
  obtain ⟨rfl, rfl⟩ : db₁ = db' ∧ job' = job := by simpa using hrenew
  obtain ⟨hstored, hfenced⟩ := requireLiveFence_ok.mp hfence
  obtain rfl := Option.some.inj (hstored.symm.trans hrow)
  obtain ⟨hmem, hid⟩ := Database.jobRow_eq_some.mp hrow
  have hrenewed : db₁.jobRow fence.jobId = some (stored.renew leaseExpiresAt fence.now) := by
    refine Database.jobRow_eq_some.mpr ⟨?_, hid⟩
    rw [congrArg Tables.compactionJobs (fencedUpdate_ok hrow hfenced hupdate)]
    exact mem_update.mpr (.inl ⟨stored, hmem, by simp, rfl⟩)
  obtain ⟨found, hfound, hrepresents, -⟩ := jobById_ok hread
  obtain rfl := Option.some.inj (hrenewed.symm.trans hfound)
  refine ⟨⟨_, hrenewed, hholds.working, hholds.owner, hholds.epoch, rfl⟩, ?_⟩
  have hfields := hrepresents.fields
  exact ⟨(congrArg JobData.jobId hfields).trans hid,
    (congrArg JobData.leaseEpoch hfields).trans hholds.epoch,
    congrArg JobData.leaseExpiresAt hfields⟩

/-! ## Runs -/

variable [SecureCodec]

/-- The lease is the holder's: no recovery before the expiry takes it. -/
structure LeaseGuarded (db : Database) (jobId owner : String) (leaseEpoch : Nat)
    (expiry : Timestamp) : Prop where
  holds : db.HoldsLease jobId owner leaseEpoch expiry
  kept : ∀ faults now db' jobs, now < expiry → recoverExpiredLeases faults db now = .ok (db', jobs) →
    ∀ job ∈ jobs, job.jobId ≠ jobId

omit [SecureCodec] in
/-- A stored lease is guarded. -/
theorem Database.HoldsLease.guarded {db : Database} {jobId owner : String} {leaseEpoch : Nat}
    {expiry : Timestamp} (h : db.HoldsLease jobId owner leaseEpoch expiry) :
    LeaseGuarded db jobId owner leaseEpoch expiry := by
  refine ⟨h, fun faults now db' jobs hlive hrecover job hjob hid => ?_⟩
  obtain ⟨row, hrow, hholds⟩ := h
  obtain ⟨hmem, hrowId⟩ := Database.jobRow_eq_some.mp hrow
  cases recoverExpiredLeases_effect hrecover with
  | sidecar hoperation => cases hoperation
  | recovered _ _ hids =>
      obtain ⟨other, hother, hotherId, hexpired⟩ := hids job hjob
      obtain rfl := db.consistent.compactionJobs.primaryKey.eq_of_key hother hmem
        (hotherId.trans (hid.trans hrowId.symm))
      rw [hholds.not_expired hlive] at hexpired
      cases hexpired

/-- A renewal is accepted: it extends the lease, in the table and in the envelope. -/
def RenewalAccepted (result : Except StorageFailure (Database × CompactionJobEnvelope))
    (jobId owner : String) (leaseEpoch : Nat) (expiry : Timestamp) : Prop :=
  ∃ db' job later, result = .ok (db', job) ∧ job.leaseExpiresAt = some later ∧ expiry < later ∧
    db'.HoldsLease jobId owner leaseEpoch later

/-- A claim that returns a job has stored its lease. -/
theorem claimJob_holds {db db' : Database} (hreachable : repository.Reachable db) {worker : String}
    {now leaseExpiresAt : Timestamp} {leased : CompactionJobEnvelope}
    (h : claimJob .none db worker now leaseExpiresAt = .ok (db', some leased)) :
    repository.Reachable db' ∧ db'.HoldsLease leased.jobId worker leased.leaseEpoch leaseExpiresAt ∧
      leased.leaseExpiresAt = some leaseExpiresAt := by
  have hstep : step db { operation := .claimJob worker now leaseExpiresAt } =
      .ok (db', .job (some leased)) := by
    simp [step, h, Except.map]
  have hnext : repository.next db { operation := .claimJob worker now leaseExpiresAt } = db' :=
    repository.next_of_ok hstep
  refine ⟨hnext ▸ hreachable.next _ _, ?_⟩
  cases (sound_of_reachable hreachable).effect hstep with
  | sidecar hoperation => cases hoperation
  | @claimed _ _ _ row base _ _ hrow _ _ htables hjob =>
      have hfields := hjob.fields
      refine ⟨⟨row.lease base worker leaseExpiresAt now, Database.jobRow_eq_some.mpr ⟨?_, ?_⟩, ?_⟩, ?_⟩
      · rw [congrArg Tables.compactionJobs htables]
        exact mem_update.mpr (.inl ⟨row, hrow, by simp, rfl⟩)
      · exact (congrArg JobData.jobId hfields).symm
      · exact ⟨rfl, rfl, (congrArg JobData.leaseEpoch hfields).symm, rfl⟩
      · exact congrArg JobData.leaseExpiresAt hfields

/-- Any call that leaves the lease to its holder keeps it. -/
theorem next_holds {db : Database} (hreachable : repository.Reachable db) (call : Call)
    {jobId owner : String} {leaseEpoch : Nat} {expiry : Timestamp}
    (h : db.HoldsLease jobId owner leaseEpoch expiry)
    (hleaves : call.operation.Leaves jobId owner leaseEpoch expiry) :
    repository.Reachable (repository.next db call) ∧
      (repository.next db call).HoldsLease jobId owner leaseEpoch expiry := by
  refine ⟨hreachable.next _ _, ?_⟩
  rcases repository.next_cases db call with ⟨db', response, hok, hnext, -⟩ | ⟨-, -, hnext, -⟩
  · rw [hnext]
    exact ((sound_of_reachable hreachable).effect hok).holdsLease h hleaves
  · rw [hnext]
    exact h

/-- A run of a claim of the runtime worker: its renewals, with any calls of anybody in between that leave
the lease to it. The clock does not fall, and every renewal reads it before the lease expires. The
reading is the one of the latest accepted renewal, or of the claim. -/
inductive RuntimeHeartbeat (config : RuntimeLeaseConfig) (leased : CompactionJobEnvelope) :
    Database → Timestamp → Prop
  | claimed {db db' : Database} {now : Timestamp} (hreachable : repository.Reachable db)
      (hclaim : config.claimJob db now = .ok (db', some leased)) :
      RuntimeHeartbeat config leased db' now
  | called {db : Database} {last : Timestamp} {call : Call}
      (hrun : RuntimeHeartbeat config leased db last)
      (hleaves : call.operation.Leaves leased.jobId config.workerId leased.leaseEpoch
        (last + config.leaseHorizon)) :
      RuntimeHeartbeat config leased (repository.next db call) last
  | renewed {db db' : Database} {last now : Timestamp} {job : CompactionJobEnvelope}
      (hrun : RuntimeHeartbeat config leased db last) (hclock : last ≤ now)
      (hlive : now < last + config.leaseHorizon)
      (hrenew : config.renewJobLease db leased now = .ok (db', job)) :
      RuntimeHeartbeat config leased db' now

/-- A run of a claim of the fenced worker, with the envelope that its next renewal starts from. -/
inductive FencedHeartbeat (config : FencedLeaseConfig) : CompactionJobEnvelope → Database → Prop
  | claimed {db db' : Database} {now : Timestamp} {job : CompactionJobEnvelope}
      (hreachable : repository.Reachable db)
      (hclaim : config.claimJob db now = .ok (db', some job)) : FencedHeartbeat config job db'
  | called {db : Database} {call : Call} {job : CompactionJobEnvelope}
      (hrun : FencedHeartbeat config job db)
      (hleaves : ∀ expiry ∈ job.leaseExpiresAt,
        call.operation.Leaves job.jobId config.workerId job.leaseEpoch expiry) :
      FencedHeartbeat config job (repository.next db call)
  | transitioned {db db' : Database} {now : Timestamp} {job job' : CompactionJobEnvelope}
      {toState : CompactionJobState} {candidateSnapshotId : Option String}
      (hrun : FencedHeartbeat config job db)
      (htransition : transitionJob .none db ⟨job.jobId, config.workerId, job.leaseEpoch, now⟩ toState
        candidateSnapshotId = .ok (db', job')) : FencedHeartbeat config job' db'
  | renewed {db db' : Database} {now : Timestamp} {job job' : CompactionJobEnvelope}
      (hrun : FencedHeartbeat config job db) (hlive : ∀ expiry ∈ job.leaseExpiresAt, now < expiry)
      (hrenew : config.renew db job now = .ok (db', job')) : FencedHeartbeat config job' db'

/-- Along a run of the runtime worker the lease is the one of the latest reading. -/
theorem RuntimeHeartbeat.holds {config : RuntimeLeaseConfig} {leased : CompactionJobEnvelope}
    {db : Database} {last : Timestamp} (h : RuntimeHeartbeat config leased db last) :
    repository.Reachable db ∧
      db.HoldsLease leased.jobId config.workerId leased.leaseEpoch (last + config.leaseHorizon) := by
  induction h with
  | claimed hreachable hclaim =>
      obtain ⟨hreached, hholds, -⟩ := claimJob_holds hreachable hclaim
      exact ⟨hreached, hholds⟩
  | called _ hleaves ih => exact next_holds ih.1 _ ih.2 hleaves
  | @renewed db db' last now job _ _ _ hrenew ih =>
      have hstep : repository.step db
          { operation := .renewJobLease ⟨leased.jobId, config.workerId, leased.leaseEpoch, now⟩
              (now + config.leaseHorizon) } = .ok (db', .job (some job)) := by
        have hrenew : AstrContinuum.renewJobLease _ _ _ _ = _ := hrenew
        simp [repository, step, hrenew, Except.map]
      refine ⟨repository.next_of_ok hstep ▸ ih.1.next _ _, ?_⟩
      exact (renewJobLease_holds ih.2 hrenew).1

/-- Along a run of the fenced worker the lease is the one of the envelope. -/
theorem FencedHeartbeat.holds {config : FencedLeaseConfig} {job : CompactionJobEnvelope}
    {db : Database} (h : FencedHeartbeat config job db) :
    repository.Reachable db ∧ ∃ expiry, job.leaseExpiresAt = some expiry ∧
      db.HoldsLease job.jobId config.workerId job.leaseEpoch expiry := by
  induction h with
  | claimed hreachable hclaim =>
      obtain ⟨hreached, hholds, hexpiry⟩ := claimJob_holds hreachable hclaim
      exact ⟨hreached, _, hexpiry, hholds⟩
  | called _ hleaves ih =>
      obtain ⟨hreachable, expiry, hexpiry, hholds⟩ := ih
      obtain ⟨hreached, hkept⟩ := next_holds hreachable _ hholds (hleaves expiry hexpiry)
      exact ⟨hreached, expiry, hexpiry, hkept⟩
  | @transitioned db db' now job job' toState candidateSnapshotId _ htransition ih =>
      obtain ⟨hreachable, expiry, hexpiry, row, hrow, hholds⟩ := ih
      have hstep : repository.step db
          { operation := .transitionJob ⟨job.jobId, config.workerId, job.leaseEpoch, now⟩ toState
              candidateSnapshotId } = .ok (db', .job (some job')) := by
        simp [repository, step, htransition, Except.map]
      have hnext := repository.next_of_ok hstep
      have hkept := (next_holds hreachable
        { operation := .transitionJob ⟨job.jobId, config.workerId, job.leaseEpoch, now⟩ toState
            candidateSnapshotId } ⟨row, hrow, hholds⟩ trivial).2
      rw [hnext] at hkept
      obtain ⟨stored, hstored, -, hmoved, hrepresents⟩ := transitionJob_ok htransition
      obtain rfl := Option.some.inj (hstored.symm.trans hrow)
      have hfields := hrepresents.fields
      have hid : job'.jobId = job.jobId :=
        (congrArg JobData.jobId hfields).trans (Database.jobRow_eq_some.mp hrow).2
      have hepoch : job'.leaseEpoch = job.leaseEpoch :=
        (congrArg JobData.leaseEpoch hfields).trans hholds.epoch
      refine ⟨hnext ▸ hreachable.next _ _, expiry,
        (congrArg JobData.leaseExpiresAt hfields).trans hholds.expiry, ?_⟩
      rw [hid, hepoch]
      exact hkept
  | @renewed db db' now job job' _ _ hrenew ih =>
      obtain ⟨hreachable, expiry, hexpiry, hholds⟩ := ih
      simp only [FencedLeaseConfig.renew, hexpiry, orMissing] at hrenew
      have hstep : repository.step db
          { operation := .renewJobLease ⟨job.jobId, config.workerId, job.leaseEpoch, now⟩
              (config.renewedExpiry expiry now) } = .ok (db', .job (some job')) := by
        have hrenew : AstrContinuum.renewJobLease _ _ _ _ = _ := hrenew
        simp [repository, step, hrenew, Except.map]
      obtain ⟨hkept, hid, hepoch, hlater⟩ := renewJobLease_holds hholds hrenew
      refine ⟨repository.next_of_ok hstep ▸ hreachable.next _ _, _, hlater, ?_⟩
      rw [hid, hepoch]
      exact hkept

/-- While a claim is current, its lease is guarded; a renewal of the runtime worker is accepted exactly
when the clock has moved on, and every renewal of the fenced worker is accepted. -/
theorem heartbeat_renews_iff :
    (∀ (config : RuntimeLeaseConfig) (leased : CompactionJobEnvelope) (db : Database)
        (last : Timestamp), RuntimeHeartbeat config leased db last →
      LeaseGuarded db leased.jobId config.workerId leased.leaseEpoch (last + config.leaseHorizon) ∧
      ∀ now, last ≤ now → now < last + config.leaseHorizon →
        (RenewalAccepted (config.renewJobLease db leased now) leased.jobId config.workerId
          leased.leaseEpoch (last + config.leaseHorizon) ↔ last < now)) ∧
    ∀ (config : FencedLeaseConfig) (job : CompactionJobEnvelope) (db : Database),
      FencedHeartbeat config job db → ∃ expiry, job.leaseExpiresAt = some expiry ∧
        LeaseGuarded db job.jobId config.workerId job.leaseEpoch expiry ∧
        ∀ now, now < expiry → RenewalAccepted (config.renew db job now) job.jobId config.workerId
          job.leaseEpoch expiry := by
  constructor
  · intro config leased db last hrun
    obtain ⟨hreachable, hholds⟩ := hrun.holds
    refine ⟨hholds.guarded, fun now hclock hlive => ?_⟩
    have hhorizon : 0 < config.leaseHorizon := lt_max_of_lt_right (by decide)
    have hiff := (renewJobLease_iff hreachable ⟨leased.jobId, config.workerId, leased.leaseEpoch, now⟩
      hholds hlive (Nat.lt_add_of_pos_right hhorizon)).trans Nat.add_lt_add_iff_right
    rw [← hiff]
    constructor
    · rintro ⟨db', job, -, hrenew, -⟩
      exact ⟨db', job, hrenew⟩
    · rintro ⟨db', job, hrenew⟩
      obtain ⟨hkept, -, -, hlater⟩ := renewJobLease_holds hholds hrenew
      exact ⟨db', job, _, hrenew, hlater,
        Nat.add_lt_add_right (hiff.mp ⟨db', job, hrenew⟩) _, hkept⟩
  · intro config job db hrun
    obtain ⟨hreachable, expiry, hexpiry, hholds⟩ := hrun.holds
    refine ⟨expiry, hexpiry, hholds.guarded, fun now hlive => ?_⟩
    obtain ⟨hextends, hlater⟩ := config.renewedExpiry_later hlive
    obtain ⟨db', job', hrenew⟩ := (renewJobLease_iff hreachable ⟨job.jobId, config.workerId,
      job.leaseEpoch, now⟩ hholds hlive hlater).mpr hextends
    obtain ⟨hkept, -, -, hexpiry'⟩ := renewJobLease_holds hholds hrenew
    refine ⟨db', job', _, ?_, hexpiry', hextends, hkept⟩
    simp only [FencedLeaseConfig.renew, hexpiry, orMissing]
    exact hrenew

end Runs

namespace Sample

/-- A runtime worker with the default lease of five minutes. -/
def runtimeLease : RuntimeLeaseConfig := ⟨"w", 300000000⟩

/-- A fenced worker with the same lease. -/
def fencedLease : FencedLeaseConfig where
  workerId := "w"
  leaseDuration := 300000000
  leaseDuration_pos := by decide
  heartbeatInterval_valid := by simp
  default_pos := by decide

/-- Another worker asks for a job in between. -/
def otherClaim : Call := { operation := .claimJob "v" 4 10 }

/-- The claim of the queued job returns it. -/
theorem exists_claim : ∃ leased db,
    claimJob .none (repository.execute queued) "w" 2 300000002 = .ok (db, some leased) := by
  have hclaimed : ((claimJob .none (repository.execute queued) "w" 2 300000002).map
      fun result => result.2.isSome) = .ok true := by
    decide +kernel
  obtain ⟨⟨db, job⟩, hclaim, hsome⟩ := map_ok.mp hclaimed
  obtain ⟨leased, rfl⟩ := Option.isSome_iff_exists.mp hsome
  exact ⟨leased, db, hclaim⟩

/-- It starts a run of the runtime worker. -/
theorem exists_runtimeHeartbeat : ∃ leased db, RuntimeHeartbeat runtimeLease leased db 2 := by
  obtain ⟨leased, db, hclaim⟩ := exists_claim
  exact ⟨leased, db, .claimed (repository.reachable_execute queued) hclaim⟩

/-- And one of the fenced worker. -/
theorem exists_fencedHeartbeat : ∃ job db, FencedHeartbeat fencedLease job db ∧
    job.leaseExpiresAt = some 300000002 := by
  obtain ⟨job, db, hclaim⟩ := exists_claim
  exact ⟨job, db, .claimed (repository.reachable_execute queued) hclaim,
    (claimJob_holds (repository.reachable_execute queued) hclaim).2.2⟩

end Sample

open Sample in
/-- One microsecond after its claim the runtime worker renews its lease, and behind the call of another
worker it renews it again; the fenced worker renews its lease twice at the time of its claim. -/
theorem heartbeat_renews_after_claim :
    (∃ leased db db' job, RuntimeHeartbeat runtimeLease leased db 2 ∧
      runtimeLease.renewJobLease db leased 3 = .ok (db', job) ∧
      RenewalAccepted (runtimeLease.renewJobLease (repository.next db' otherClaim) leased 5)
        leased.jobId "w" leased.leaseEpoch (3 + runtimeLease.leaseHorizon)) ∧
    ∃ job db job' db' expiry, FencedHeartbeat fencedLease job db ∧
      fencedLease.renew db job 2 = .ok (db', job') ∧ job'.leaseExpiresAt = some expiry ∧
      RenewalAccepted (fencedLease.renew db' job' 2) job'.jobId "w" job'.leaseEpoch expiry := by
  constructor
  · obtain ⟨leased, db, hrun⟩ := exists_runtimeHeartbeat
    obtain ⟨db', job, _, hrenew, -⟩ := ((heartbeat_renews_iff.1 runtimeLease leased db 2 hrun).2 3
      (by decide) (by decide)).mpr (by decide)
    have hnext : RuntimeHeartbeat runtimeLease leased (repository.next db' otherClaim) 3 :=
      .called (.renewed hrun (by decide) (by decide) hrenew) trivial
    exact ⟨leased, db, db', job, hrun, hrenew,
      ((heartbeat_renews_iff.1 runtimeLease leased _ 3 hnext).2 5 (by decide) (by decide)).mpr
        (by decide)⟩
  · obtain ⟨job, db, hrun, hclaimed⟩ := exists_fencedHeartbeat
    obtain ⟨first, hfirst, -, haccepts⟩ := heartbeat_renews_iff.2 fencedLease job db hrun
    obtain rfl := Option.some.inj (hfirst.symm.trans hclaimed)
    obtain ⟨db', job', later, hrenew, hlater, hextends, -⟩ := haccepts 2 (by decide)
    have hlive : ∀ expiry ∈ job.leaseExpiresAt, 2 < expiry := by
      intro expiry hexpiry
      obtain rfl := Option.some.inj (hclaimed.symm.trans hexpiry)
      decide
    obtain ⟨expiry, hexpiry, -, hagain⟩ :=
      heartbeat_renews_iff.2 fencedLease job' db' (.renewed hrun hlive hrenew)
    obtain rfl := Option.some.inj (hexpiry.symm.trans hlater)
    exact ⟨job, db, job', db', expiry, hrun, hrenew, hexpiry,
      hagain 2 (lt_trans (by decide) hextends)⟩

open Sample in
/-- The first renewal reads the clock at the time of the claim and is rejected: the claim that a clock
that does not fall is enough is false. -/
theorem renewal_rejected_at_claim_time :
    ¬ ∀ (config : RuntimeLeaseConfig) (leased : CompactionJobEnvelope) (db : Database)
      (last now : Timestamp), RuntimeHeartbeat config leased db last → last ≤ now →
      now < last + config.leaseHorizon →
      RenewalAccepted (config.renewJobLease db leased now) leased.jobId config.workerId
        leased.leaseEpoch (last + config.leaseHorizon) := by
  intro h
  obtain ⟨leased, db, hrun⟩ := exists_runtimeHeartbeat
  obtain ⟨hreachable, hholds⟩ := hrun.holds
  have hlive : 2 < 2 + runtimeLease.leaseHorizon := by decide
  obtain ⟨db', job, -, hrenew, -⟩ := h runtimeLease leased db 2 2 hrun le_rfl hlive
  -- The renewal asks for the expiry that the claim has stored.
  have hextends := (renewJobLease_iff hreachable ⟨leased.jobId, "w", leased.leaseEpoch, 2⟩ hholds
    hlive hlive).mp ⟨db', job, hrenew⟩
  exact lt_irrefl _ hextends

end AstrContinuum
