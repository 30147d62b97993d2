import AstrContinuum.Storage.Repository

/-!
# What a committed call can do

`Effect` lists everything that a committed call of the repository can do to the durable state, with
the guards it has passed. `step_effect` proves the list complete; every invariant of the repository
is derived from it. The cancelling branch of `claim_job` is not listed: it needs a claimable job
whose intent is already covered, and `IntentsOpen` excludes that.
-/

namespace AstrContinuum

open Checked Relational Transactional

variable [Hashlib]

/-- Every nonterminal job still has events to compact: its intent reaches past the coverage of the
active snapshot. -/
def IntentsOpen (db : Database) : Prop :=
  ∀ row ∈ db.compactionJobs, row.state.isNonterminal = true →
    db.coverage row.sessionKeyHash < row.intentTargetHighWaterMark

/-- The session an operation captures an event for. -/
def Operation.captures : Operation → Option SessionKey
  | .captureUserEvent request | .captureAssistantEvent request | .captureToolEvent _ request =>
      some request.sessionKey
  | _ => none

/-- Operations that write nothing but the metric sidecar. -/
def Operation.isSidecar : Operation → Bool
  | .writeMetricBackfillBatch .. | .readRequestView .. => true
  | _ => false

/-- What a committed call did to the database, and what it returned. -/
inductive Effect (db : Database) : Operation → Database → Response → Prop
  /-- A capture appended an event or replayed one. -/
  | captured {operation : Operation} {sessionKey : SessionKey} {event : EventEnvelope}
      {db' : Database} (hoperation : operation.captures = some sessionKey)
      (heffect : CaptureEffect db sessionKey event db') : Effect db operation db' (.event event)
  /-- Only the metric sidecar was written. -/
  | sidecar {operation : Operation} {db' : Database} {response : Response}
      (hoperation : operation.isSidecar = true) (hholds : db'.Holds db.toTables) :
      Effect db operation db' response
  /-- An intent that the active snapshot already covers. -/
  | intentCovered {jobId : String} {sessionKey : SessionKey} {target : Nat} {now : Timestamp}
      (hcovered : target ≤ db.coverage sessionKey.sessionKeyHash) :
      Effect db (.raiseCompactionIntent jobId sessionKey target now) db (.job none)
  /-- An intent that the nonterminal job of the session already carries. -/
  | intentCarried {jobId : String} {sessionKey : SessionKey} {target : Nat} {now : Timestamp}
      {row : JobRow} {job : CompactionJobEnvelope} (hrow : row ∈ db.compactionJobs)
      (hsession : row.sessionKeyHash = sessionKey.sessionKeyHash)
      (hstate : row.state.isNonterminal = true)
      (htarget : target ≤ row.intentTargetHighWaterMark) :
      Effect db (.raiseCompactionIntent jobId sessionKey target now) db (.job (some job))
  /-- An intent folded into the nonterminal job of the session. -/
  | intentFolded {jobId : String} {sessionKey : SessionKey} {target : Nat} {now : Timestamp}
      {row : JobRow} {job : CompactionJobEnvelope} {db' : Database}
      (hrow : row ∈ db.compactionJobs)
      (hsession : row.sessionKeyHash = sessionKey.sessionKeyHash)
      (hstate : row.state.isNonterminal = true)
      (hintent : row.intentTargetHighWaterMark < target)
      (hmark : target ≤ db.highWaterMark sessionKey.sessionKeyHash)
      (htables : db'.toTables = db.withJobs (update (fun other => other.jobId = row.jobId)
        (JobRow.foldIntent target now) db.compactionJobs)) :
      Effect db (.raiseCompactionIntent jobId sessionKey target now) db' (.job (some job))
  /-- An intent that started a job on the active snapshot. -/
  | intentQueued {jobId : String} {sessionKey : SessionKey} {target : Nat} {now : Timestamp}
      {job : CompactionJobEnvelope} {db' : Database}
      (hnone : db.nonterminalJob sessionKey.sessionKeyHash = none)
      (hcoverage : db.coverage sessionKey.sessionKeyHash < target)
      (hmark : target ≤ db.highWaterMark sessionKey.sessionKeyHash)
      (htables : db'.toTables = db.withJobs (db.compactionJobs ++
        [.pending jobId sessionKey.sessionKeyHash target
          (db.pointer sessionKey.sessionKeyHash).1 (db.pointer sessionKey.sessionKeyHash).2
          now])) :
      Effect db (.raiseCompactionIntent jobId sessionKey target now) db' (.job (some job))
  /-- No job was eligible. -/
  | claimedNone {worker : String} {now leaseExpiresAt : Timestamp} :
      Effect db (.claimJob worker now leaseExpiresAt) db (.job none)
  /-- A job was leased on the active snapshot. -/
  | claimed {worker : String} {now leaseExpiresAt : Timestamp} {row : JobRow} {base : ActiveBase}
      {job : CompactionJobEnvelope} {db' : Database} (hrow : row ∈ db.compactionJobs)
      (heligible : row.isEligible now = true)
      (hbase : (base.snapshotId, base.pointerVersion) = db.pointer row.sessionKeyHash)
      (htables : db'.toTables = db.withJobs (update (fun other => other.jobId = row.jobId)
        (JobRow.lease base worker leaseExpiresAt now) db.compactionJobs))
      (hjob : (row.lease base worker leaseExpiresAt now).Represents job) :
      Effect db (.claimJob worker now leaseExpiresAt) db' (.job (some job))
  /-- A worker advanced its job. -/
  | transitioned {fence : Fence} {toState : CompactionJobState}
      {candidateSnapshotId : Option String} {row : JobRow} {job : CompactionJobEnvelope}
      {db' : Database} (hrow : db.jobRow fence.jobId = some row)
      (hfenced : row.Fenced fence.owner fence.leaseEpoch fence.now)
      (hallowed : row.state.allowedWorkerTransition toState = true)
      (htables : db'.toTables = db.withJobs (update (fun other => other.jobId = row.jobId)
        (JobRow.transition toState candidateSnapshotId fence.now) db.compactionJobs)) :
      Effect db (.transitionJob fence toState candidateSnapshotId) db' (.job (some job))
  /-- A worker extended its lease. -/
  | renewed {fence : Fence} {leaseExpiresAt : Timestamp} {row : JobRow}
      {job : CompactionJobEnvelope} {db' : Database} (hrow : db.jobRow fence.jobId = some row)
      (hfenced : row.Fenced fence.owner fence.leaseEpoch fence.now)
      (htables : db'.toTables = db.withJobs (update (fun other => other.jobId = row.jobId)
        (JobRow.renew leaseExpiresAt fence.now) db.compactionJobs)) :
      Effect db (.renewJobLease fence leaseExpiresAt) db' (.job (some job))
  /-- A worker gave its job up. -/
  | failed {fence : Fence} {failure : JobFailure} {row : JobRow} {job : CompactionJobEnvelope}
      {db' : Database} (hrow : db.jobRow fence.jobId = some row)
      (hfenced : row.Fenced fence.owner fence.leaseEpoch fence.now)
      (htables : db'.toTables = db.withJobs (update (fun other => other.jobId = row.jobId)
        (JobRow.fail failure fence.now) db.compactionJobs)) :
      Effect db (.failJob fence failure) db' (.job (some job))
  /-- Every expired lease was recovered. -/
  | recovered {now : Timestamp} {jobs : List CompactionJobEnvelope} {db' : Database}
      (htables : db'.toTables = db.withJobs (update (JobRow.isExpired now) (JobRow.recover now)
        db.compactionJobs))
      (hjobs : ∀ row ∈ db.compactionJobs, row.isExpired now = true →
        ∃ job ∈ jobs, job.jobId = row.jobId)
      (hids : ∀ job ∈ jobs, ∃ row ∈ db.compactionJobs, row.jobId = job.jobId ∧
        row.isExpired now = true) :
      Effect db (.recoverExpiredLeases now) db' (.recovered jobs)
  /-- A candidate was committed as the new active snapshot. -/
  | committed {request : PublishRequest} {admission : Admission} {row : JobRow}
      {staged db' : Database} {result : PublishResult} (hadmits : Admits db request admission row)
      (hstaged : Staged db request admission.job admission.committed staged)
      (houtcome : result.outcome = .committed) (hjob : result.job.jobId = row.jobId)
      (htables : db'.toTables = staged.withJobs (settledJobs .committed row
        request.candidateSnapshot.snapshotId request.candidateSnapshot.coveredEventEnd
        (row.basePointerVersion + 1) request.fence.now db.compactionJobs)) :
      Effect db (.publishSnapshot request) db' (.published result)
  /-- A candidate lost to durable state, and its job was superseded. -/
  | superseded {request : PublishRequest} {admission : Admission} {row : JobRow}
      {active : ActiveRow} {winner : SnapshotRow} {db' : Database} {result : PublishResult}
      (hadmits : Admits db request admission row)
      (hactive : db.activeRow row.sessionKeyHash = some active)
      (hwinner : db.snapshotRow active.snapshotId = some winner)
      (houtcome : result.outcome = .superseded) (hjob : result.job.jobId = row.jobId)
      (htables : db'.toTables = db.withJobs (settledJobs .superseded row winner.snapshotId
        winner.coveredEventEnd active.pointerVersion request.fence.now db.compactionJobs)) :
      Effect db (.publishSnapshot request) db' (.published result)
  /-- A worker read the input of its job. -/
  | viewed {fence : Fence} {row : JobRow} {view : RequestView}
      (hrow : db.jobRow fence.jobId = some row)
      (hfenced : row.Fenced fence.owner fence.leaseEpoch fence.now) :
      Effect db (.readCompactionView fence) db (.view view)

/-! ## Intents and claims -/

/-- The effect of `raise_compaction_intent`. -/
theorem raiseCompactionIntent_effect {faults : FaultInjector} {db db' : Database}
    {jobId : String} {sessionKey : SessionKey} {target : Nat} {now : Timestamp}
    {job : Option CompactionJobEnvelope}
    (h : raiseCompactionIntent faults db jobId sessionKey target now = .ok (db', job)) :
    Effect db (.raiseCompactionIntent jobId sessionKey target now) db' (.job job) := by
  obtain ⟨_, -, h⟩ := bind_ok.mp h
  obtain ⟨_, -, h⟩ := bind_ok.mp h
  obtain ⟨session, hsession, h⟩ := bind_ok.mp h
  obtain ⟨stored, -, h⟩ := bind_ok.mp h
  obtain ⟨_, -, h⟩ := bind_ok.mp h
  obtain ⟨_, hmark, h⟩ := bind_ok.mp h
  obtain ⟨base, hbase, h⟩ := bind_ok.mp h
  obtain ⟨hpointer, hcoverage⟩ := activeBase_ok hbase
  have hmark : target ≤ db.highWaterMark sessionKey.sessionKeyHash := by
    simp only [Database.highWaterMark, orMissing_ok.mp hsession]
    exact require_ok.mp hmark
  split at h
  · next hcovered =>
      obtain ⟨rfl, rfl⟩ : db = db' ∧ none = job := by simpa using h
      exact .intentCovered (hcoverage ▸ hcovered)
  · next hopen =>
      split at h
      · next existing hexisting =>
          obtain ⟨hmem, hexistingSession, hstate⟩ := Database.nonterminalJob_mem hexisting
          split at h
          · next hlt =>
              obtain ⟨⟨db₁, rowcount⟩, hupdate, h⟩ := bind_ok.mp h
              obtain ⟨_, -, h⟩ := bind_ok.mp h
              obtain ⟨job', -, h⟩ := bind_ok.mp h
              obtain ⟨rfl, rfl⟩ : db₁ = db' ∧ some job' = job := by simpa using h
              exact .intentFolded hmem hexistingSession hstate hlt hmark
                (updateJobs_ok.mp hupdate).1
          · next hge =>
              obtain ⟨job', -, h⟩ := bind_ok.mp h
              obtain ⟨rfl, rfl⟩ : db = db' ∧ some job' = job := by simpa using h
              exact .intentCarried hmem hexistingSession hstate (Nat.le_of_not_lt hge)
      · next hnone =>
          obtain ⟨db₁, hinsert, h⟩ := bind_ok.mp h
          obtain ⟨_, -, h⟩ := bind_ok.mp h
          obtain ⟨job', -, h⟩ := bind_ok.mp h
          obtain ⟨rfl, rfl⟩ : db₁ = db' ∧ some job' = job := by simpa using h
          refine .intentQueued hnone (by omega) hmark ?_
          rw [← hpointer]
          exact Database.execute_ok.mp (orRaise_ok.mp hinsert)

/-- The effect of `claim_job`. -/
theorem claimJob_effect {faults : FaultInjector} {db db' : Database} {worker : String}
    {now leaseExpiresAt : Timestamp} {job : Option CompactionJobEnvelope} (hopen : IntentsOpen db)
    (h : claimJob faults db worker now leaseExpiresAt = .ok (db', job)) :
    Effect db (.claimJob worker now leaseExpiresAt) db' (.job job) := by
  obtain ⟨_, -, h⟩ := bind_ok.mp h
  obtain ⟨_, -, h⟩ := bind_ok.mp h
  unfold claimLoop at h
  split at h
  · obtain ⟨rfl, rfl⟩ : db = db' ∧ none = job := by simpa using h
    exact .claimedNone
  · next row hfirst =>
      have hfiltered := mem_orderBy.mp (List.mem_of_mem_head? hfirst)
      obtain ⟨hrow, heligible⟩ := List.mem_filter.mp hfiltered
      obtain ⟨base, hbase, h⟩ := bind_ok.mp h
      obtain ⟨hpointer, hcoverage⟩ := activeBase_ok hbase
      have hintent := hopen row hrow (JobRow.isNonterminal_of_isEligible heligible)
      rw [if_neg (by omega)] at h
      obtain ⟨⟨db₁, rowcount⟩, hupdate, h⟩ := bind_ok.mp h
      obtain ⟨htables, rfl⟩ := updateJobs_one hrow (by simp [heligible])
        (by simp +contextual) hupdate
      simp only [ne_eq, not_true_eq_false, if_false] at h
      obtain ⟨_, -, h⟩ := bind_ok.mp h
      obtain ⟨job', hjob, h⟩ := bind_ok.mp h
      obtain ⟨rfl, rfl⟩ : db₁ = db' ∧ some job' = job := by simpa using h
      obtain ⟨stored, hstored, hrepresents, -⟩ := jobById_ok hjob
      have hleased : db₁.jobRow row.jobId = some (row.lease base worker leaseExpiresAt now) := by
        refine Database.jobRow_eq_some.mpr ⟨?_, rfl⟩
        rw [congrArg Tables.compactionJobs htables]
        exact mem_update.mpr (.inl ⟨row, hrow, by simp, rfl⟩)
      obtain rfl := Option.some.inj (hleased.symm.trans hstored)
      exact .claimed hrow heligible hpointer htables hrepresents

/-! ## Worker operations -/

/-- The effect of `transition_job`. -/
theorem transitionJob_effect {faults : FaultInjector} {db db' : Database} {fence : Fence}
    {toState : CompactionJobState} {candidateSnapshotId : Option String}
    {job : CompactionJobEnvelope}
    (h : transitionJob faults db fence toState candidateSnapshotId = .ok (db', job)) :
    Effect db (.transitionJob fence toState candidateSnapshotId) db' (.job (some job)) := by
  obtain ⟨row, hfence, h⟩ := bind_ok.mp h
  obtain ⟨_, hallowed, h⟩ := bind_ok.mp h
  obtain ⟨_, -, h⟩ := bind_ok.mp h
  obtain ⟨db₁, hupdate, h⟩ := bind_ok.mp h
  obtain ⟨_, -, h⟩ := bind_ok.mp h
  obtain ⟨job', -, h⟩ := bind_ok.mp h
  obtain ⟨rfl, rfl⟩ : db₁ = db' ∧ job' = job := by simpa using h
  obtain ⟨hrow, hfenced⟩ := requireLiveFence_ok.mp hfence
  exact .transitioned hrow hfenced (require_ok.mp hallowed) (fencedUpdate_ok hrow hfenced hupdate)

/-- The effect of `renew_job_lease`. -/
theorem renewJobLease_effect {faults : FaultInjector} {db db' : Database} {fence : Fence}
    {leaseExpiresAt : Timestamp} {job : CompactionJobEnvelope}
    (h : renewJobLease faults db fence leaseExpiresAt = .ok (db', job)) :
    Effect db (.renewJobLease fence leaseExpiresAt) db' (.job (some job)) := by
  obtain ⟨_, -, h⟩ := bind_ok.mp h
  obtain ⟨row, hfence, h⟩ := bind_ok.mp h
  obtain ⟨_, -, h⟩ := bind_ok.mp h
  obtain ⟨db₁, hupdate, h⟩ := bind_ok.mp h
  obtain ⟨_, -, h⟩ := bind_ok.mp h
  obtain ⟨job', -, h⟩ := bind_ok.mp h
  obtain ⟨rfl, rfl⟩ : db₁ = db' ∧ job' = job := by simpa using h
  obtain ⟨hrow, hfenced⟩ := requireLiveFence_ok.mp hfence
  exact .renewed hrow hfenced (fencedUpdate_ok hrow hfenced hupdate)

/-- The effect of `fail_job`. -/
theorem failJob_effect {faults : FaultInjector} {db db' : Database} {fence : Fence}
    {failure : JobFailure} {job : CompactionJobEnvelope}
    (h : failJob faults db fence failure = .ok (db', job)) :
    Effect db (.failJob fence failure) db' (.job (some job)) := by
  obtain ⟨_, -, h⟩ := bind_ok.mp h
  obtain ⟨row, hfence, h⟩ := bind_ok.mp h
  obtain ⟨db₁, hupdate, h⟩ := bind_ok.mp h
  obtain ⟨_, -, h⟩ := bind_ok.mp h
  obtain ⟨job', -, h⟩ := bind_ok.mp h
  obtain ⟨rfl, rfl⟩ : db₁ = db' ∧ job' = job := by simpa using h
  obtain ⟨hrow, hfenced⟩ := requireLiveFence_ok.mp hfence
  exact .failed hrow hfenced (fencedUpdate_ok hrow hfenced hupdate)

/-- The effect of `recover_expired_leases`. -/
theorem recoverExpiredLeases_effect {faults : FaultInjector} {db db' : Database}
    {now : Timestamp} {jobs : List CompactionJobEnvelope}
    (h : recoverExpiredLeases faults db now = .ok (db', jobs)) :
    Effect db (.recoverExpiredLeases now) db' (.recovered jobs) := by
  obtain ⟨⟨db₁, recovered⟩, hloop, h⟩ := bind_ok.mp h
  obtain ⟨jobs', hjobs, h⟩ := bind_ok.mp h
  obtain ⟨rfl, rfl⟩ : db₁ = db' ∧ jobs' = jobs := by simpa using h
  have hmem : ∀ row, row ∈ orderBy JobRow.queueKey
      (db.compactionJobs.filter (JobRow.isExpired now)) ↔
        row ∈ db.compactionJobs ∧ row.isExpired now = true := by
    intro row
    rw [mem_orderBy, List.mem_filter]
  have hnodup : ((orderBy JobRow.queueKey
      (db.compactionJobs.filter (JobRow.isExpired now))).map JobRow.jobId).Nodup := by
    refine ((List.perm_insertionSort _ _).map _).nodup_iff.mpr ?_
    exact db.consistent.compactionJobs.primaryKey.sublist (List.filter_sublist.map _)
  obtain ⟨htables, hrecovered⟩ := recoverLoop_ok (fun row hrow => (hmem row).mp hrow) hnodup hloop
  have hids : ∀ row ∈ db.compactionJobs, row.jobId ∈ recovered ↔ row.isExpired now = true := by
    intro row hrow
    rw [hrecovered, List.nil_append, List.mem_map]
    constructor
    · rintro ⟨other, hother, hid⟩
      obtain ⟨hother, hexpired⟩ := (hmem other).mp hother
      rwa [db.consistent.compactionJobs.primaryKey.eq_of_key hrow hother hid.symm]
    · intro hexpired
      exact ⟨row, (hmem row).mpr ⟨hrow, hexpired⟩, rfl⟩
  refine .recovered ?_ ?_ ?_
  · rw [htables, update_congr]
    intro row hrow
    rw [Bool.eq_iff_iff, decide_eq_true_eq, ← hids row hrow, hrecovered, List.nil_append]
  · intro row hrow hexpired
    obtain ⟨job, hjob, hread⟩ := exists_result_of_mapM hjobs ((hids row hrow).mpr hexpired)
    obtain ⟨stored, hstored, hrepresents, -⟩ := jobById_ok hread
    refine ⟨job, hjob, ?_⟩
    rw [hrepresents.fields]
    exact (Database.jobRow_eq_some.mp hstored).2
  · intro job hjob
    obtain ⟨jobId, hjobId, hread⟩ := exists_item_of_mapM hjobs hjob
    obtain ⟨stored, hstored, hrepresents, -⟩ := jobById_ok hread
    rw [hrecovered, List.nil_append] at hjobId
    obtain ⟨row, hrow, rfl⟩ := List.mem_map.mp hjobId
    obtain ⟨hrow, hexpired⟩ := (hmem row).mp hrow
    refine ⟨row, hrow, ?_, hexpired⟩
    rw [hrepresents.fields]
    exact (Database.jobRow_eq_some.mp hstored).2.symm

/-! ## Publication -/

section Publication

variable [SecureCodec]

omit [SecureCodec] in
/-- The admitted row passes the fence of `_finish_publish_job`. -/
theorem Admits.finishFence {db : Database} {request : PublishRequest} {admission : Admission}
    {row : JobRow} (h : Admits db request admission row) :
    row.finishFence admission.job request.fence = true := by
  obtain ⟨-, howner, hepoch, expiresAt, hexpires, hlive⟩ := h.fenced
  have hid : admission.job.jobId = row.jobId := by rw [h.represents.fields]; rfl
  have hcandidate : admission.job.candidateSnapshotId = row.candidateSnapshotId := by
    rw [h.represents.fields]
    rfl
  simp only [JobRow.finishFence, hid, h.ready, hcandidate, h.candidateId, howner, hepoch,
    Option.mem_def.mp hexpires, ne_eq, reduceCtorEq, not_false_eq_true, decide_true,
    Option.any_some, Bool.and_true]
  simpa using hlive

omit [SecureCodec] in
/-- Once its job is finished, every job of the session of an admitted candidate is terminal. -/
theorem Admits.finished_terminal {db : Database} {request : PublishRequest} {admission : Admission}
    {row : JobRow} {outcome : PublishOutcome} (h : Admits db request admission row) {other : JobRow}
    (hother : other ∈ update (fun other => other.jobId = row.jobId)
      (JobRow.finish outcome request.fence.now) db.compactionJobs)
    (hsession : other.sessionKeyHash = row.sessionKeyHash) :
    other.state.isNonterminal = false := by
  obtain ⟨hrow, -⟩ := Database.jobRow_eq_some.mp h.stored
  rcases mem_update.mp hother with ⟨old, -, -, rfl⟩ | ⟨hold, hid⟩
  · cases outcome <;> rfl
  · by_contra hstate
    have hsame := Database.nonterminal_unique hold hrow (by simpa using hstate)
      (by rw [h.ready]; rfl) hsession
    simp [hsame] at hid

omit [SecureCodec] in
/-- Once its job is finished, the session of an admitted candidate has no nonterminal job. -/
theorem Admits.nonterminalJob_finished {db finished : Database} {request : PublishRequest}
    {admission : Admission} {row : JobRow} {outcome : PublishOutcome}
    (h : Admits db request admission row)
    (hjobs : finished.compactionJobs = update (fun other => other.jobId = row.jobId)
      (JobRow.finish outcome request.fence.now) db.compactionJobs) :
    finished.nonterminalJob row.sessionKeyHash = none := by
  refine Database.nonterminalJob_eq_none.mpr fun other hother hsession => ?_
  rw [hjobs] at hother
  exact h.finished_terminal hother hsession

/-- A publication that commits has staged its whole candidate and committed its job, or it has met a
conflict and superseded its job. -/
theorem publishSnapshot_cases {faults : FaultInjector} {db db' : Database}
    {request : PublishRequest} {result : PublishResult}
    (h : publishSnapshot faults db request = .ok (db', result)) :
    ∃ admission row, Admits db request admission row ∧ result.job.jobId = row.jobId ∧
      ((∃ staged, stageCandidate faults db request admission.job admission.committed
            admission.records = .ok (some staged) ∧
          result.outcome = .committed ∧
          db'.toTables = staged.withJobs (settledJobs .committed row
            request.candidateSnapshot.snapshotId request.candidateSnapshot.coveredEventEnd
            (row.basePointerVersion + 1) request.fence.now db.compactionJobs)) ∨
        ∃ active winner, db.activeRow row.sessionKeyHash = some active ∧
          db.snapshotRow active.snapshotId = some winner ∧ result.outcome = .superseded ∧
          db'.toTables = db.withJobs (settledJobs .superseded row winner.snapshotId
            winner.coveredEventEnd active.pointerVersion request.fence.now
            db.compactionJobs)) := by
  obtain ⟨admission, hadmission, h⟩ := bind_ok.mp h
  obtain ⟨row, hadmits⟩ := admitCandidate_ok hadmission
  obtain ⟨hrow, -⟩ := Database.jobRow_eq_some.mp hadmits.stored
  have hjobId : row.jobId = admission.job.jobId := by rw [hadmits.represents.fields]; rfl
  obtain ⟨_, -, h⟩ := bind_ok.mp h
  obtain ⟨stage, hstage, h⟩ := bind_ok.mp h
  cases stage with
  | none =>
      obtain ⟨⟨db₁, superseded⟩, hfinish, h⟩ := bind_ok.mp h
      obtain ⟨_, -, h⟩ := bind_ok.mp h
      obtain ⟨⟨winner, pointerVersion, memberships⟩, hbundle, h⟩ := bind_ok.mp h
      obtain ⟨db₂, hfollow, h⟩ := bind_ok.mp h
      obtain ⟨_, -, h⟩ := bind_ok.mp h
      obtain ⟨rfl, rfl⟩ : db₂ = db' ∧ _ = result := by simpa using h
      obtain ⟨hfinished, hrepresents⟩ :=
        finishPublishJob_ok hrow hadmits.finishFence hjobId hfinish
      have hjobs := congrArg Tables.compactionJobs hfinished
      have hfollowed := preserveFollowUp_ok row (by rw [hrepresents.fields]; rfl)
        (by rw [hrepresents.fields]; rfl) hrepresents.session
        (hadmits.nonterminalJob_finished hjobs) hfollow
      obtain ⟨active, hactive, hbundle⟩ := bind_ok.mp hbundle
      obtain ⟨⟨winner', memberships'⟩, hread, hbundle⟩ := bind_ok.mp hbundle
      obtain ⟨_, -, hbundle⟩ := bind_ok.mp hbundle
      obtain ⟨rfl, rfl, rfl⟩ : winner' = winner ∧ active.pointerVersion = pointerVersion ∧
          memberships' = memberships := by simpa using hbundle
      obtain ⟨snapshot, hsnapshot, -, hfields, -⟩ := snapshotBundleById_ok hread
      rw [hadmits.represents.session] at hactive
      have hactive : db.activeRow row.sessionKeyHash = some active := by
        have hfound := orMissing_ok.mp hactive
        rwa [Database.activeRow, congrArg Tables.activeSnapshots hfinished] at hfound
      rw [Database.snapshotRow, congrArg Tables.snapshots hfinished] at hsnapshot
      refine ⟨admission, row, hadmits, ?_, .inr ⟨active, snapshot, hactive, hsnapshot, rfl, ?_⟩⟩
      · simp only
        rw [hrepresents.fields]
        rfl
      · rw [hfollowed, hjobs, hfinished, hfields]
        rfl
  | some staged =>
      obtain ⟨_, -, h⟩ := bind_ok.mp h
      obtain ⟨⟨db₁, committedJob⟩, hfinish, h⟩ := bind_ok.mp h
      obtain ⟨_, -, h⟩ := bind_ok.mp h
      obtain ⟨db₂, hfollow, h⟩ := bind_ok.mp h
      obtain ⟨_, -, h⟩ := bind_ok.mp h
      obtain ⟨rfl, rfl⟩ : db₂ = db' ∧ _ = result := by simpa using h
      have hstaged := stageCandidate_some hstage
      obtain ⟨hfinished, hrepresents⟩ := finishPublishJob_ok
        (by rw [hstaged.compactionJobs]; exact hrow) hadmits.finishFence hjobId hfinish
      have hjobs := congrArg Tables.compactionJobs hfinished
      simp only [Tables.withJobs, hstaged.compactionJobs] at hjobs
      have hfollowed := preserveFollowUp_ok row (by rw [hrepresents.fields]; rfl)
        (by rw [hrepresents.fields]; rfl) hrepresents.session
        (hadmits.nonterminalJob_finished hjobs) hfollow
      refine ⟨admission, row, hadmits, ?_, .inl ⟨staged, hstage, rfl, ?_⟩⟩
      · simp only
        rw [hrepresents.fields]
        rfl
      · rw [hfollowed, hjobs, hfinished, hadmits.committed, hadmits.represents.fields]
        rfl

/-- The effect of `publish_snapshot`. -/
theorem publishSnapshot_effect {faults : FaultInjector} {db db' : Database}
    {request : PublishRequest} {result : PublishResult}
    (h : publishSnapshot faults db request = .ok (db', result)) :
    Effect db (.publishSnapshot request) db' (.published result) := by
  obtain ⟨admission, row, hadmits, hjob, hcases⟩ := publishSnapshot_cases h
  rcases hcases with ⟨staged, hstage, houtcome, htables⟩ |
    ⟨active, winner, hactive, hwinner, houtcome, htables⟩
  · exact .committed hadmits (stageCandidate_some hstage) houtcome hjob htables
  · exact .superseded hadmits hactive hwinner houtcome hjob htables

/-- A backfill batch touches only the sidecar. -/
theorem writeMetricBackfillBatch_holds {faults : FaultInjector} {db db' : Database}
    {sessionKey : SessionKey} {metrics metrics' : List TokenMetric} {now : Timestamp}
    (h : writeMetricBackfillBatch faults db sessionKey metrics now = .ok (db', metrics')) :
    db'.Holds db.toTables := by
  obtain ⟨_, -, h⟩ := bind_ok.mp h
  obtain ⟨_, -, h⟩ := bind_ok.mp h
  obtain ⟨db₁, hloop, h⟩ := bind_ok.mp h
  obtain ⟨rfl, rfl⟩ : db₁ = db' ∧ metrics = metrics' := by simpa using h
  refine forEach_invariant (fun state : Database => state.Holds db.toTables) ?_ (.of_eq rfl) hloop
  intro state entry state' _ hstate hbody
  obtain ⟨_, -, hbody⟩ := bind_ok.mp hbody
  obtain ⟨state₁, hwrite, hbody⟩ := bind_ok.mp hbody
  obtain ⟨_, -, hbody⟩ := bind_ok.mp hbody
  obtain rfl := pure_ok.mp hbody
  exact (writeMetric_holds hwrite).trans hstate

/-- A committed call did something that `Effect` lists. -/
theorem step_effect {db db' : Database} {call : Call} {response : Response}
    (hopen : IntentsOpen db) (h : step db call = .ok (db', response)) :
    Effect db call.operation db' response := by
  obtain ⟨operation, faults⟩ := call
  cases operation with
  | captureUserEvent request =>
      obtain ⟨_, hresult, rfl, rfl⟩ := map_ok.mp h
      exact .captured rfl (captureEvent_effect hresult)
  | captureAssistantEvent request =>
      obtain ⟨_, hresult, rfl, rfl⟩ := map_ok.mp h
      exact .captured rfl (captureEvent_effect hresult)
  | captureToolEvent eventType request =>
      obtain ⟨_, hresult, rfl, rfl⟩ := map_ok.mp h
      obtain ⟨_, -, hresult⟩ := bind_ok.mp hresult
      exact .captured rfl (captureEvent_effect hresult)
  | raiseCompactionIntent jobId sessionKey target now =>
      obtain ⟨_, hresult, rfl, rfl⟩ := map_ok.mp h
      exact raiseCompactionIntent_effect hresult
  | claimJob worker now leaseExpiresAt =>
      obtain ⟨_, hresult, rfl, rfl⟩ := map_ok.mp h
      exact claimJob_effect hopen hresult
  | transitionJob fence toState candidateSnapshotId =>
      obtain ⟨_, hresult, rfl, rfl⟩ := map_ok.mp h
      exact transitionJob_effect hresult
  | renewJobLease fence leaseExpiresAt =>
      obtain ⟨_, hresult, rfl, rfl⟩ := map_ok.mp h
      exact renewJobLease_effect hresult
  | failJob fence failure =>
      obtain ⟨_, hresult, rfl, rfl⟩ := map_ok.mp h
      exact failJob_effect hresult
  | recoverExpiredLeases now =>
      obtain ⟨_, hresult, rfl, rfl⟩ := map_ok.mp h
      exact recoverExpiredLeases_effect hresult
  | publishSnapshot request =>
      obtain ⟨_, hresult, rfl, rfl⟩ := map_ok.mp h
      exact publishSnapshot_effect hresult
  | writeMetricBackfillBatch sessionKey metrics now =>
      obtain ⟨_, hresult, rfl, rfl⟩ := map_ok.mp h
      exact .sidecar rfl (writeMetricBackfillBatch_holds hresult)
  | readRequestView sessionKey =>
      obtain ⟨_, -, rfl, rfl⟩ := map_ok.mp h
      exact .sidecar rfl (.of_eq rfl)
  | readCompactionView fence =>
      obtain ⟨_, hresult, rfl, rfl⟩ := map_ok.mp h
      obtain ⟨row, hfence, -⟩ := bind_ok.mp hresult
      obtain ⟨hrow, hfenced⟩ := requireLiveFence_ok.mp hfence
      exact .viewed hrow hfenced

end Publication

end AstrContinuum
