import Mathlib.Data.List.TakeWhile
import AstrContinuum.Invariants.JobRows
import AstrContinuum.Settlement.Terminal

/-!
# Job operations and the job table

What each `SET` clause needs to keep the `CHECK`s of `compaction_jobs`, and that the guards of the
operations provide it. `step_job_table` collects the operations of the queue: in a sound state none
of them fails on a constraint of the job table or on reading a job back, as long as the texts they
are given are not blank to SQLite and new job ids are free.
-/

namespace AstrContinuum

open Checked Relational Transactional

/-! ## `CHECK`s -/

namespace JobRow.Check

variable {row : JobRow}

/-- A new pending job satisfies the `CHECK`s. -/
theorem pending {jobId hash : String} {target : Nat} {baseSnapshotId : Option String}
    {basePointerVersion : Nat} {now : Timestamp} (hid : trimNonEmpty jobId = true)
    (htarget : 1 ≤ target) (hbaseText : trimNonEmptyOrNull baseSnapshotId = true)
    (hbase : (baseSnapshotId = none ∧ basePointerVersion = 0) ∨
      (baseSnapshotId ≠ none ∧ 1 ≤ basePointerVersion)) :
    (JobRow.pending jobId hash target baseSnapshotId basePointerVersion now).Check :=
  ⟨hid, htarget, le_rfl, ⟨hbaseText, rfl, rfl, rfl, rfl, rfl⟩, hbase, .inr ⟨rfl, rfl, rfl⟩,
    .inr ⟨rfl, rfl⟩, .inl ⟨rfl, rfl, rfl⟩, .inl ⟨nofun, nofun⟩, .inr ⟨nofun, rfl⟩,
    .inr ⟨nofun, rfl⟩⟩

variable (h : row.Check)
include h

/-- A larger intent keeps the `CHECK`s. -/
theorem foldIntent {target : Nat} (hle : row.intentTargetHighWaterMark ≤ target)
    (now : Timestamp) : (row.foldIntent target now).Check :=
  { h with intent := h.intent.trans hle }

/-- A lease on a stored base keeps the `CHECK`s. -/
theorem leased {base : ActiveBase} {worker : String} (hworker : trimNonEmpty worker = true)
    (hbaseText : trimNonEmptyOrNull base.snapshotId = true)
    (hbase : (base.snapshotId = none ∧ base.pointerVersion = 0) ∨
      (base.snapshotId ≠ none ∧ 1 ≤ base.pointerVersion)) (leaseExpiresAt now : Timestamp) :
    (row.lease base worker leaseExpiresAt now).Check :=
  ⟨h.jobId, h.target.trans h.intent, le_rfl, ⟨hbaseText, rfl, hworker, rfl, rfl, rfl⟩, hbase,
    .inl ⟨rfl, nofun, Nat.succ_le_succ (Nat.zero_le _), nofun⟩, .inr ⟨rfl, rfl⟩,
    .inl ⟨rfl, rfl, rfl⟩, .inl ⟨nofun, nofun⟩, .inr ⟨nofun, rfl⟩, .inr ⟨nofun, rfl⟩⟩

/-- A working job has no retry time and no commit time, and holds a lease. -/
theorem working (hworking : row.state.isWorking = true) :
    row.nextRetryAt = none ∧ row.committedAt = none ∧ row.leaseOwner ≠ none ∧
      1 ≤ row.leaseEpoch ∧ row.leaseExpiresAt ≠ none := by
  have hretry : row.state ≠ .retryWait := by
    rintro heq
    rw [heq] at hworking
    cases hworking
  have hcommitted : row.state ≠ .committed := by
    rintro heq
    rw [heq] at hworking
    cases hworking
  refine ⟨?_, ?_, ?_⟩
  · exact (h.retry.resolve_left fun hstate => hretry hstate.1).2
  · exact (h.committed.resolve_left fun hstate => hcommitted hstate.1).2
  · rcases h.lease with ⟨-, hlease⟩ | ⟨hidle, -⟩
    · exact hlease
    · rw [hworking] at hidle
      cases hidle

/-- A worker transition keeps the `CHECK`s when it names a candidate exactly for
`READY_TO_COMMIT`. -/
theorem transition {toState : CompactionJobState} {candidateSnapshotId : Option String}
    (hworking : row.state.isWorking = true)
    (hallowed : row.state.allowedWorkerTransition toState = true)
    (hcandidate : if toState = .readyToCommit then
        ∃ id, candidateSnapshotId = some id ∧ trimNonEmpty id = true
      else candidateSnapshotId = none) (now : Timestamp) :
    (row.transition toState candidateSnapshotId now).Check := by
  obtain ⟨hretry, hcommitted, hlease⟩ := h.working hworking
  obtain ⟨hbaseText, -, hrest⟩ := h.texts
  have hstate : toState.isWorking = true :=
    CompactionJobState.allowed_worker_transition_working hallowed
  have hother : toState ≠ .retryWait ∧ toState ≠ .failed ∧ toState ≠ .committed := by
    refine ⟨?_, ?_, ?_⟩ <;> rintro rfl <;> cases hstate
  have hid : trimNonEmptyOrNull candidateSnapshotId = true ∧
      ((toState.isCandidate = true ∧ candidateSnapshotId ≠ none) ∨
        (toState.isCandidate = false ∧ candidateSnapshotId = none)) := by
    split at hcandidate
    · next hready =>
        obtain ⟨id, rfl, htext⟩ := hcandidate
        exact ⟨htext, .inl ⟨by rw [hready]; rfl, nofun⟩⟩
    · next hnot =>
        subst hcandidate
        refine ⟨rfl, .inr ⟨?_, rfl⟩⟩
        cases toState <;> first | rfl | exact absurd rfl hnot | cases hstate
  exact ⟨h.jobId, h.target, h.intent, ⟨hbaseText, hid.1, hrest⟩, h.base, .inl ⟨hstate, hlease⟩,
    hid.2, h.errorTuple, .inl ⟨hother.1, hother.2.1⟩, .inr ⟨hother.1, hretry⟩,
    .inr ⟨hother.2.2, hcommitted⟩⟩

/-- A renewed lease keeps the `CHECK`s. -/
theorem renew (hworking : row.state.isWorking = true) (leaseExpiresAt now : Timestamp) :
    (row.renew leaseExpiresAt now).Check := by
  obtain ⟨-, -, howner, hepoch, -⟩ := h.working hworking
  exact { h with lease := .inl ⟨hworking, howner, hepoch, nofun⟩ }

/-- A recorded failure keeps the `CHECK`s. -/
theorem fail {failure : JobFailure} (hstage : trimNonEmpty failure.errorStage = true)
    (hcode : trimNonEmpty failure.errorCode = true)
    (hmessage : trimNonEmpty failure.errorMessage = true) (now : Timestamp) :
    (row.fail failure now).Check := by
  obtain ⟨hbaseText, -, -, -⟩ := h.texts
  refine ⟨h.jobId, h.target, h.intent, ⟨hbaseText, rfl, rfl, hstage, hcode, hmessage⟩, h.base,
    .inr ⟨?_, rfl, rfl⟩, .inr ⟨?_, rfl⟩, .inr ⟨nofun, nofun, nofun⟩, .inr ⟨nofun, nofun, nofun⟩,
    ?_, .inr ⟨?_, rfl⟩⟩
  · cases hretry : failure.retryAt <;> simp only [JobRow.fail, hretry] <;> rfl
  · cases hretry : failure.retryAt <;> simp only [JobRow.fail, hretry] <;> rfl
  · cases hretry : failure.retryAt with
    | none => exact .inr ⟨by simp [JobRow.fail, hretry], hretry⟩
    | some retryAt => exact .inl ⟨by simp [JobRow.fail, hretry], by simp [JobRow.fail, hretry]⟩
  · cases hretry : failure.retryAt <;> simp [JobRow.fail, hretry]

/-- A recovered job satisfies the `CHECK`s. -/
theorem recover (now : Timestamp) : (row.recover now).Check := by
  obtain ⟨hbaseText, -, -, herrors⟩ := h.texts
  exact ⟨h.jobId, h.target, h.intent, ⟨hbaseText, rfl, rfl, herrors⟩, h.base,
    .inr ⟨rfl, rfl, rfl⟩, .inr ⟨rfl, rfl⟩, h.errorTuple, .inl ⟨nofun, nofun⟩, .inr ⟨nofun, rfl⟩,
    .inr ⟨nofun, rfl⟩⟩

end JobRow.Check

/-- A text that is not blank to Python and has no NUL is not blank to SQLite. -/
theorem trimNonEmpty_of_strip {text : String} (h : stripNonEmpty text = true)
    (hnul : ∀ c ∈ text.toList, c.toNat ≠ 0) : trimNonEmpty text = true := by
  obtain ⟨c, hc, hspace⟩ := List.any_eq_true.mp h
  unfold trimNonEmpty
  cases hdrop : text.toList.dropWhile (· == ' ') with
  | nil =>
      have hall := List.dropWhile_eq_nil_iff.mp hdrop c hc
      obtain rfl : c = ' ' := by simpa using hall
      exact absurd hspace (by decide)
  | cons d rest =>
      have hd : d ∈ text.toList :=
        (List.dropWhile_sublist _).subset (by rw [hdrop]; exact List.mem_cons_self)
      simpa using hnul d hd

/-! ## Reads and updates -/

section Operations

variable [Hashlib]

/-- The failures of a job table: a constraint, a taken identity, or a row that does not read back. -/
def JobTableFailure : StorageFailure → Prop
  | .integrityError => True
  | .repositoryConflict message =>
      message = "compaction Job identity conflicts with durable state"
  | .repositoryInvariantError message => message ∈
      ["durable compaction Job is missing",
        "durable SessionKey hash does not match canonical identity",
        "compaction Job row does not form a canonical envelope",
        "compaction Job physical session identity does not round-trip"]
  | _ => False

instance : DecidablePred JobTableFailure := fun failure => by
  cases failure <;> unfold JobTableFailure <;> infer_instance

/-- A stored job is read back where the sessions are those of a sound state. -/
theorem jobById_sound {db db' : Database} (hsound : JournalSound db)
    (hsessions : db'.sessions = db.sessions) {row : JobRow} (hrow : row ∈ db'.compactionJobs) :
    ∃ job, jobById db' row.jobId = .ok job := by
  obtain ⟨session, hsession, hhash⟩ := List.mem_map.mp
    (db'.consistent.compactionJobs.session row hrow row.sessionKeyHash rfl)
  exact jobById_total hrow hsession hhash (hsound.hash session (hsessions ▸ hsession))

omit [Hashlib] in
/-- An update of the job table that keeps it consistent succeeds. -/
theorem updateJobs_total {db : Database} {selected : JobRow → Bool} {change : JobRow → JobRow}
    (h : Tables.Consistent (db.withJobs (update selected change db.compactionJobs))) :
    ∃ db', updateJobs db selected change = .ok (db', db.compactionJobs.countP selected) ∧
      db'.toTables = db.withJobs (update selected change db.compactionJobs) :=
  ⟨⟨_, h⟩, updateJobs_ok.mpr ⟨rfl, rfl⟩, rfl⟩

omit [Hashlib] in
/-- An update of one job that keeps its id, session and base and its `CHECK`s keeps the table. -/
theorem Database.consistent_changeJob {db : Database} {row : JobRow} {selected : JobRow → Bool}
    (change : JobRow → JobRow) (hrow : row ∈ db.compactionJobs)
    (hselected : ∀ other, selected other = true → other.jobId = row.jobId)
    (hkeep : ∀ other, (change other).jobId = other.jobId ∧
      (change other).sessionKeyHash = other.sessionKeyHash)
    (hcheck : (change row).Check)
    (hbase : ∀ id ∈ (change row).baseSnapshotId, id ∈ db.snapshotIds)
    (hstate : (change row).state.isNonterminal = true → row.state.isNonterminal = true) :
    Tables.Consistent (db.withJobs (update selected change db.compactionJobs)) := by
  have hone : ∀ other ∈ db.compactionJobs, selected other = true → other = row :=
    fun other hother hsel =>
      db.consistent.compactionJobs.primaryKey.eq_of_key hother hrow (hselected other hsel)
  refine Database.consistent_updateJobs ?_ hkeep ?_ ?_
  · intro other hother hsel
    rwa [hone other hother hsel]
  · intro other hother hsel
    rwa [hone other hother hsel]
  · intro other hother hsel
    rwa [hone other hother hsel]

/-- A fenced update that keeps the `CHECK`s of its row, and the read of the job after it. -/
theorem fencedUpdate_job_table {db : Database} (hsound : JournalSound db) {fence : Fence}
    {row : JobRow} {change : JobRow → JobRow} {lost : String}
    (hrow : db.jobRow fence.jobId = some row)
    (hfenced : row.Fenced fence.owner fence.leaseEpoch fence.now)
    (hkeep : ∀ other, (change other).jobId = other.jobId ∧
      (change other).sessionKeyHash = other.sessionKeyHash ∧
      (change other).baseSnapshotId = other.baseSnapshotId) (hcheck : (change row).Check) :
    ∃ db' job, fencedUpdate db fence change lost = .ok db' ∧
      jobById db' fence.jobId = .ok job := by
  obtain ⟨hmem, hid⟩ := Database.jobRow_eq_some.mp hrow
  obtain ⟨hworking, howner, hepoch, expiresAt, hexpires, hlive⟩ := hfenced
  have hselected : JobRow.updateFence fence.jobId fence.owner fence.leaseEpoch fence.now row =
      true := by
    simp only [JobRow.updateFence, hid, howner, hepoch, decide_true, Bool.true_and]
    rw [Option.mem_def.mp hexpires]
    simpa using hlive
  have hone : ∀ other, JobRow.updateFence fence.jobId fence.owner fence.leaseEpoch fence.now
      other = true → other.jobId = row.jobId := by
    intro other hother
    simp only [JobRow.updateFence, Bool.and_eq_true, decide_eq_true_eq] at hother
    exact hother.1.1.1.trans hid.symm
  obtain ⟨db', hupdate, htables⟩ := updateJobs_total (db.consistent_changeJob change hmem hone
    (fun other => ⟨(hkeep other).1, (hkeep other).2.1⟩) hcheck
    (fun id hbase => db.consistent.compactionJobs.base row hmem id ((hkeep row).2.2 ▸ hbase))
    fun _ => CompactionJobState.isNonterminal_of_isWorking hworking)
  obtain ⟨-, hcount⟩ := updateJobs_one hmem hselected hone hupdate
  have hchanged : change row ∈ db'.compactionJobs := by
    rw [htables]
    exact mem_update.mpr (.inl ⟨row, hmem, hselected, rfl⟩)
  obtain ⟨job, hjob⟩ := jobById_sound hsound (by rw [htables]; rfl) hchanged
  rw [(hkeep row).1, hid] at hjob
  exact ⟨db', job, bind_ok.mpr ⟨_, hupdate, bind_ok.mpr ⟨(), require_ok.mpr hcount, rfl⟩⟩, hjob⟩

/-- The active base of a session in a sound state, with what a job needs to be based on it. -/
theorem activeBase_total {db : Database} (h : Sound db) (hash : String) :
    ∃ base, activeBase db hash = .ok base ∧ trimNonEmptyOrNull base.snapshotId = true ∧
      ((base.snapshotId = none ∧ base.pointerVersion = 0) ∨
        (base.snapshotId ≠ none ∧ 1 ≤ base.pointerVersion)) ∧
      ∀ id ∈ base.snapshotId, id ∈ db.snapshotIds := by
  unfold activeBase
  cases hactive : db.activeRow hash with
  | none => exact ⟨⟨none, 0, 0⟩, rfl, rfl, .inl ⟨rfl, rfl⟩, fun id hid => absurd hid (Option.not_mem_none id)⟩
  | some active =>
      obtain ⟨hmem, hhash⟩ := Database.activeRow_eq_some.mp hactive
      obtain ⟨snapshot, hsnapshot⟩ := Database.exists_snapshotRow_of_active hmem
      obtain ⟨hstored, hid⟩ := Database.snapshotRow_eq_some.mp hsnapshot
      have hpointer : db.pointer hash = (some active.snapshotId, active.pointerVersion) := by
        simp [Database.pointer, hactive]
      have hlast := List.mem_of_mem_getLast? (h.chain.getLast?_of_pointer hpointer hsnapshot)
      have hsession : snapshot.sessionKeyHash = hash :=
        of_decide_eq_true (List.mem_filter.mp hlast).2
      refine ⟨⟨some active.snapshotId, active.pointerVersion, snapshot.coveredEventEnd⟩, ?_, ?_,
        .inr ⟨Option.some_ne_none _, db.consistent.activeSnapshots.version active hmem⟩, ?_⟩
      · simp only [hsnapshot]
        exact bind_ok.mpr ⟨(), require_ok.mpr hsession, rfl⟩
      · rw [← hid]
        exact (db.consistent.snapshots.check snapshot hstored).1
      · rintro id hmem'
        obtain rfl := Option.some.inj hmem'
        exact db.consistent.activeSnapshots.snapshot active hmem _ rfl

/-! ## The operations of the queue -/

/-- A computation that does not fail on the job table. -/
def SparesJobTable {α : Type} (x : Except StorageFailure α) : Prop :=
  Ensures (fun failure => ¬ JobTableFailure failure) (fun _ => True) x

omit [Hashlib] in
/-- An injected fault is no failure of the job table. -/
theorem inject_spares (faults : FaultInjector) (boundary : Boundary) (call : Nat) :
    SparesJobTable (inject faults boundary call) :=
  (Ensures.require fun _ => id).mono fun _ _ => trivial

/-- The end of every job operation: an injection point, and the job read back. -/
theorem inject_jobById_spares {db db' : Database} (row : JobRow) (hsound : JournalSound db)
    (hsessions : db'.sessions = db.sessions) (hrow : row ∈ db'.compactionJobs)
    {faults : FaultInjector} {boundary : Boundary} {α : Type} (f : CompactionJobEnvelope → α) :
    SparesJobTable (do
      inject faults boundary
      let job ← jobById db' row.jobId
      pure (f job)) := by
  obtain ⟨job, hjob⟩ := jobById_sound hsound hsessions hrow
  refine (inject_spares faults boundary 0).bind fun _ _ => ?_
  rw [hjob]
  exact trivial

/-- `raise_compaction_intent` with a free job id that is not blank to SQLite. -/
theorem raiseCompactionIntent_spares {db : Database} (h : Sound db) {jobId : String}
    (hid : trimNonEmpty jobId = true) (hfree : db.jobRow jobId = none) (faults : FaultInjector)
    (sessionKey : SessionKey) (target : Nat) (now : Timestamp) :
    SparesJobTable (raiseCompactionIntent faults db jobId sessionKey target now) := by
  refine (Ensures.require fun _ => id).bind fun _ _ => ?_
  refine (Ensures.require fun _ => id).bind fun _ htarget => ?_
  refine (Ensures.orMissing fun _ => by decide).bind fun session hsession => ?_
  obtain ⟨hstored, hhash⟩ := Database.sessionRow_eq_some.mp hsession
  rw [show sessionKeyFromStorage session = .ok session.sessionKey from
    sessionKeyFromStorage_ok.mpr ⟨rfl, h.journal.hash session hstored⟩]
  refine (Ensures.require fun _ => id).bind fun _ _ => ?_
  refine (Ensures.require fun _ => by decide).bind fun _ _ => ?_
  obtain ⟨base, hbase, hbaseText, hbaseVersion, hbaseStored⟩ :=
    activeBase_total h sessionKey.sessionKeyHash
  rw [hbase]
  show SparesJobTable (if _ then _ else _)
  split
  · exact trivial
  · cases hexisting : db.nonterminalJob sessionKey.sessionKeyHash with
    | some existing =>
        obtain ⟨hmem, -, hstate⟩ := Database.nonterminalJob_mem hexisting
        have hcheck := db.consistent.compactionJobs.check existing hmem
        show SparesJobTable (if _ then _ else _)
        split
        · next hlt =>
            have hone : ∀ other : JobRow, decide (other.jobId = existing.jobId) = true →
                other.jobId = existing.jobId := fun other hother => of_decide_eq_true hother
            obtain ⟨db', hupdate, htables⟩ := updateJobs_total (db.consistent_changeJob
              (JobRow.foldIntent target now) hmem hone (fun _ => ⟨rfl, rfl⟩)
              (hcheck.foldIntent hlt.le now)
              (db.consistent.compactionJobs.base existing hmem) fun _ => hstate)
            rw [hupdate]
            refine inject_jobById_spares (existing.foldIntent target now) h.journal
              (by rw [htables]; rfl) ?_ _
            rw [htables]
            exact mem_update.mpr (.inl ⟨existing, hmem, by simp, rfl⟩)
        · obtain ⟨job, hjob⟩ := jobById_sound h.journal rfl hmem
          rw [hjob]
          exact trivial
    | none =>
        have hconsistent : Tables.Consistent (db.withJobs (db.compactionJobs ++
            [.pending jobId sessionKey.sessionKeyHash target base.snapshotId base.pointerVersion
              now])) := by
          refine Database.consistent_addJob (.pending hid htarget hbaseText hbaseVersion) hfree
            (fun _ => hexisting) ?_ hbaseStored
          exact List.mem_map.mpr ⟨session, hstored, hhash⟩
        rw [show insertJob db _ = _ from Database.execute_of_consistent hconsistent]
        refine inject_jobById_spares (.pending jobId sessionKey.sessionKeyHash target
          base.snapshotId base.pointerVersion now) h.journal ?_ ?_ _
        · rfl
        · exact List.mem_append_right _ List.mem_cons_self

/-- `claim_job` by a worker whose name is not blank to SQLite. -/
theorem claimJob_spares {db : Database} (h : Sound db) {worker : String}
    (hworker : trimNonEmpty worker = true) (faults : FaultInjector)
    (now leaseExpiresAt : Timestamp) :
    SparesJobTable (claimJob faults db worker now leaseExpiresAt) := by
  refine (Ensures.require fun _ => id).bind fun _ _ => ?_
  refine (Ensures.require fun _ => id).bind fun _ _ => ?_
  unfold claimLoop
  split
  · exact trivial
  · next row hfirst =>
      have hfiltered := mem_orderBy.mp (List.mem_of_mem_head? hfirst)
      obtain ⟨hrow, heligible⟩ := List.mem_filter.mp hfiltered
      have hstate := JobRow.isNonterminal_of_isEligible heligible
      obtain ⟨base, hbase, hbaseText, hbaseVersion, hbaseStored⟩ :=
        activeBase_total h row.sessionKeyHash
      obtain ⟨-, hcoverage⟩ := activeBase_ok hbase
      -- Nothing to cancel: in a sound state every open job has an intent past the coverage.
      have hopen := (h.jobs row hrow hstate).intent
      rw [hbase]
      show SparesJobTable (if _ then _ else _)
      rw [if_neg (by omega)]
      have hone : ∀ other : JobRow,
          (decide (other.jobId = row.jobId) && other.isEligible now) = true →
            other.jobId = row.jobId := by
        intro other hother
        exact of_decide_eq_true (Bool.and_eq_true_iff.mp hother).1
      obtain ⟨db', hupdate, htables⟩ := updateJobs_total (db.consistent_changeJob
        (JobRow.lease base worker leaseExpiresAt now) hrow hone (fun _ => ⟨rfl, rfl⟩)
        ((db.consistent.compactionJobs.check row hrow).leased hworker hbaseText hbaseVersion _ _)
        hbaseStored fun _ => hstate)
      obtain ⟨-, hcount⟩ := updateJobs_one hrow (by simp [heligible]) hone hupdate
      rw [hupdate]
      show SparesJobTable (if _ then _ else _)
      rw [if_neg (by simpa using hcount)]
      refine inject_jobById_spares (row.lease base worker leaseExpiresAt now) h.journal
        (by rw [htables]; rfl) ?_ _
      rw [htables]
      exact mem_update.mpr (.inl ⟨row, hrow, by simp [heligible], rfl⟩)

/-- A fenced update that keeps the `CHECK`s of the row it finds, and what follows it. -/
theorem fencedUpdate_spares {db : Database} (hsound : JournalSound db) {fence : Fence}
    {row : JobRow} (change : JobRow → JobRow) (lost : String)
    (hrow : db.jobRow fence.jobId = some row)
    (hfenced : row.Fenced fence.owner fence.leaseEpoch fence.now)
    (hkeep : ∀ other, (change other).jobId = other.jobId ∧
      (change other).sessionKeyHash = other.sessionKeyHash ∧
      (change other).baseSnapshotId = other.baseSnapshotId) (hcheck : (change row).Check)
    (faults : FaultInjector) (boundary : Boundary) :
    SparesJobTable (do
      let db ← fencedUpdate db fence change lost
      inject faults boundary
      let job ← jobById db fence.jobId
      pure (db, job)) := by
  obtain ⟨db', job, hupdate, hjob⟩ := fencedUpdate_job_table hsound hrow hfenced hkeep hcheck
  rw [hupdate]
  refine (inject_spares faults boundary 0).bind fun _ _ => ?_
  rw [hjob]
  exact trivial

omit [Hashlib] in
/-- The live fence answers a stored row that holds it, or `StaleLeaseError`. -/
theorem requireLiveFence_ensures (db : Database) (fence : Fence) :
    Ensures (fun failure => ¬ JobTableFailure failure)
      (fun row => db.jobRow fence.jobId = some row ∧
        row.Fenced fence.owner fence.leaseEpoch fence.now)
      (requireLiveFence db fence.jobId fence.owner fence.leaseEpoch fence.now) := by
  refine (Ensures.orMissing fun _ => id).bind fun row hrow => ?_
  exact (Ensures.require fun _ => id).bind fun _ hfenced => ⟨hrow, hfenced⟩

omit [Hashlib] in
/-- The candidate check of a transition, with what it says of a candidate id that is not blank to
SQLite. -/
theorem requireTransitionCandidate_ensures {toState : CompactionJobState}
    {candidateSnapshotId : Option String}
    (hid : ∀ id ∈ candidateSnapshotId, trimNonEmpty id = true) :
    Ensures (fun failure => ¬ JobTableFailure failure)
      (fun _ => if toState = .readyToCommit then
          ∃ id, candidateSnapshotId = some id ∧ trimNonEmpty id = true
        else candidateSnapshotId = none)
      (requireTransitionCandidate toState candidateSnapshotId) := by
  unfold requireTransitionCandidate
  split
  · refine (Ensures.require fun _ => id).mono fun _ hany => ?_
    cases candidateSnapshotId with
    | none => cases hany
    | some id => exact ⟨id, rfl, hid id rfl⟩
  · exact (Ensures.require fun _ => id).mono fun _ hnone => hnone

/-- `transition_job` with a candidate id that is not blank to SQLite. -/
theorem transitionJob_spares {db : Database} (h : Sound db) {candidateSnapshotId : Option String}
    (hid : ∀ id ∈ candidateSnapshotId, trimNonEmpty id = true) (faults : FaultInjector)
    (fence : Fence) (toState : CompactionJobState) :
    SparesJobTable (transitionJob faults db fence toState candidateSnapshotId) := by
  refine (requireLiveFence_ensures db fence).bind fun row hrow => ?_
  refine (Ensures.require fun _ => id).bind fun _ hallowed => ?_
  refine (requireTransitionCandidate_ensures hid).bind fun _ hcandidate => ?_
  have hcheck := db.consistent.compactionJobs.check row (Database.jobRow_eq_some.mp hrow.1).1
  exact fencedUpdate_spares h.journal (JobRow.transition toState candidateSnapshotId fence.now) _
    hrow.1 hrow.2 (fun _ => ⟨rfl, rfl, rfl⟩)
    (hcheck.transition hrow.2.1 hallowed hcandidate _) _ _

/-- `renew_job_lease`. -/
theorem renewJobLease_spares {db : Database} (h : Sound db) (faults : FaultInjector)
    (fence : Fence) (leaseExpiresAt : Timestamp) :
    SparesJobTable (renewJobLease faults db fence leaseExpiresAt) := by
  refine (Ensures.require fun _ => id).bind fun _ _ => ?_
  refine (requireLiveFence_ensures db fence).bind fun row hrow => ?_
  refine (Ensures.require fun _ => id).bind fun _ _ => ?_
  have hcheck := db.consistent.compactionJobs.check row (Database.jobRow_eq_some.mp hrow.1).1
  exact fencedUpdate_spares h.journal (JobRow.renew leaseExpiresAt fence.now) _
    hrow.1 hrow.2 (fun _ => ⟨rfl, rfl, rfl⟩)
    (hcheck.renew hrow.2.1 _ _) _ _

omit [Hashlib] in
/-- The argument checks of `fail_job` leave an error message that is not blank to SQLite. -/
theorem JobFailure.validate_ensures (failure : JobFailure) (now : Timestamp) :
    Ensures (fun failure => ¬ JobTableFailure failure)
      (fun _ => trimNonEmpty failure.errorMessage = true) (failure.validate now) := by
  refine (Ensures.require fun _ => id).bind fun _ hstrip => ?_
  refine (Ensures.require fun _ => id).bind fun _ hline => ?_
  refine (Ensures.require fun _ => id).bind fun _ _ => ?_
  refine (Ensures.require fun _ => id).mono fun _ _ => ?_
  exact trimNonEmpty_of_strip hstrip.2.2 fun c hc => (hline.2 c hc).2.2

/-- `fail_job` with an error stage and an error code that are not blank to SQLite. -/
theorem failJob_spares {db : Database} (h : Sound db) {failure : JobFailure}
    (hstage : trimNonEmpty failure.errorStage = true)
    (hcode : trimNonEmpty failure.errorCode = true) (faults : FaultInjector) (fence : Fence) :
    SparesJobTable (failJob faults db fence failure) := by
  refine (failure.validate_ensures fence.now).bind fun _ hmessage => ?_
  refine (requireLiveFence_ensures db fence).bind fun row hrow => ?_
  have hcheck := db.consistent.compactionJobs.check row (Database.jobRow_eq_some.mp hrow.1).1
  exact fencedUpdate_spares h.journal (JobRow.fail failure fence.now) _
    hrow.1 hrow.2 (fun _ => ⟨rfl, rfl, rfl⟩)
    (hcheck.fail hstage hcode hmessage _) _ _

omit [Hashlib] in
/-- One iteration of the recovery loop: the sessions stay, and every recovered id is stored. -/
theorem recoverLoop_ensures {db : Database} {recovered : List String} {sessions : List SessionRow}
    (hsessions : db.sessions = sessions)
    (hstored : ∀ id ∈ recovered, id ∈ db.compactionJobs.map JobRow.jobId)
    {row : JobRow} (hrow : row.jobId ∈ db.compactionJobs.map JobRow.jobId)
    (faults : FaultInjector) (now : Timestamp) :
    Ensures (fun failure => ¬ JobTableFailure failure)
      (fun state => state.1.sessions = sessions ∧
        state.1.compactionJobs.map JobRow.jobId = db.compactionJobs.map JobRow.jobId ∧
        ∀ id ∈ state.2, id ∈ state.1.compactionJobs.map JobRow.jobId)
      (recoverLoop faults now (db, recovered) row) := by
  have hworking : ∀ other : JobRow,
      (decide (other.jobId = row.jobId) && other.isExpired now) = true →
        other.state.isWorking = true := by
    intro other hother
    exact (Bool.and_eq_true_iff.mp (Bool.and_eq_true_iff.mp hother).2).1
  have hconsistent : Tables.Consistent (db.withJobs (update
      (fun other => decide (other.jobId = row.jobId) && other.isExpired now) (JobRow.recover now)
      db.compactionJobs)) := by
    refine Database.consistent_updateJobs ?_ (fun _ => ⟨rfl, rfl⟩) ?_ ?_
    · exact fun other hother _ => (db.consistent.compactionJobs.check other hother).recover now
    · exact fun other hother _ => db.consistent.compactionJobs.base other hother
    · exact fun other _ hselected _ =>
        CompactionJobState.isNonterminal_of_isWorking (hworking other hselected)
  obtain ⟨db', hupdate, htables⟩ := updateJobs_total hconsistent
  have hids : db'.compactionJobs.map JobRow.jobId = db.compactionJobs.map JobRow.jobId := by
    rw [htables]
    exact map_update JobRow.jobId _ fun _ _ => rfl
  have hsame : db'.sessions = sessions := by
    rw [htables]
    exact hsessions
  show Ensures _ _ (updateJobs db _ _ >>= _)
  rw [hupdate]
  show Ensures _ _ (if _ then _ else _)
  split
  · exact ⟨hsame, hids, by rw [hids]; exact hstored⟩
  · refine (inject_spares faults _ _).bind fun _ _ => ⟨hsame, hids, ?_⟩
    intro id hid
    rw [hids]
    rcases List.mem_append.mp hid with hid | hid
    · exact hstored id hid
    · rw [List.mem_singleton.mp hid]
      exact hrow

/-- `recover_expired_leases`. -/
theorem recoverExpiredLeases_spares {db : Database} (h : Sound db) (faults : FaultInjector)
    (now : Timestamp) : SparesJobTable (recoverExpiredLeases faults db now) := by
  have hloop : Ensures (fun failure => ¬ JobTableFailure failure)
      (fun state : Database × List String => state.1.sessions = db.sessions ∧
        (∀ row ∈ ([] : List JobRow), row.jobId ∈ state.1.compactionJobs.map JobRow.jobId) ∧
        ∀ id ∈ state.2, id ∈ state.1.compactionJobs.map JobRow.jobId)
      (forEach (recoverLoop faults now) (db, [])
        (orderBy JobRow.queueKey (db.compactionJobs.filter (JobRow.isExpired now)))) := by
    refine Ensures.forEach (fun (rest : List JobRow) (state : Database × List String) =>
      state.1.sessions = db.sessions ∧
      (∀ row ∈ rest, row.jobId ∈ state.1.compactionJobs.map JobRow.jobId) ∧
      ∀ id ∈ state.2, id ∈ state.1.compactionJobs.map JobRow.jobId) ?_ ?_
    · rintro row rest ⟨state, recovered⟩ ⟨hsessions, hrest, hids⟩
      have hiteration :=
        recoverLoop_ensures hsessions hids (hrest row List.mem_cons_self) faults now
      refine hiteration.mono ?_
      rintro ⟨state', recovered'⟩ ⟨hsessions', hsame, hids'⟩
      refine ⟨hsessions', fun other hother => ?_, hids'⟩
      rw [hsame]
      exact hrest other (List.mem_cons_of_mem _ hother)
    · refine ⟨rfl, fun row hrow => ?_, by simp⟩
      exact List.mem_map_of_mem (List.mem_filter.mp (mem_orderBy.mp hrow)).1
  refine hloop.bind fun state hstate => ?_
  obtain ⟨hsessions, -, hids⟩ := hstate
  have hread : ∀ id ∈ state.2, Ensures (fun failure => ¬ JobTableFailure failure)
      (fun _ => True) (jobById state.1 id) := by
    intro id hid
    obtain ⟨row, hrow, rfl⟩ := List.mem_map.mp (hids id hid)
    obtain ⟨job, hjob⟩ := jobById_sound h.journal hsessions hrow
    rw [hjob]
    exact trivial
  exact (Ensures.mapM hread).bind fun _ _ => trivial

/-! ## Calls -/

variable [SecureCodec]

/-- The operations that move jobs, publication apart. -/
def Operation.movesJobs : Operation → Bool
  | .raiseCompactionIntent .. | .claimJob .. | .transitionJob .. | .renewJobLease .. | .failJob ..
  | .recoverExpiredLeases .. => true
  | _ => false

/-- The texts that a call supplies for the job table. The message of a failure is not among them: its
own check leaves nothing that is blank to SQLite. -/
def Operation.suppliedTexts : Operation → List String
  | .raiseCompactionIntent jobId .. => [jobId]
  | .claimJob worker .. => [worker]
  | .transitionJob _ _ candidateSnapshotId => candidateSnapshotId.toList
  | .failJob _ failure => [failure.errorStage, failure.errorCode]
  | _ => []

/-- The id of a job that the call may add is free. -/
def Operation.NewIdFree (db : Database) : Operation → Prop
  | .raiseCompactionIntent jobId .. => jobId ∉ db.compactionJobs.map JobRow.jobId
  | .publishSnapshot request => ∀ row ∈ db.jobRow request.fence.jobId, ∀ winnerId pointerVersion,
      followUpId row.jobId winnerId pointerVersion row.intentTargetHighWaterMark ∉
        db.compactionJobs.map JobRow.jobId
  | _ => True

/-- In a sound state no job operation fails on the job table when its texts are not blank to SQLite
and its new job id is free. -/
theorem step_spares {db : Database} (h : Sound db) {call : Call}
    (hmoves : call.operation.movesJobs = true)
    (htexts : ∀ text ∈ call.operation.suppliedTexts, trimNonEmpty text = true)
    (hfree : call.operation.NewIdFree db) : SparesJobTable (step db call) := by
  unfold step
  match hoperation : call.operation with
  | .raiseCompactionIntent jobId sessionKey target now =>
      rw [hoperation] at htexts hfree
      have hnone : db.jobRow jobId = none := find_eq_none.mpr fun row hrow hid =>
        hfree (List.mem_map.mpr ⟨row, hrow, hid⟩)
      exact (raiseCompactionIntent_spares h (htexts jobId List.mem_cons_self) hnone _ _ _ _).map
        fun _ _ => trivial
  | .claimJob worker now leaseExpiresAt =>
      rw [hoperation] at htexts
      exact (claimJob_spares h (htexts worker List.mem_cons_self) _ _ _).map fun _ _ => trivial
  | .transitionJob fence toState candidateSnapshotId =>
      rw [hoperation] at htexts
      exact (transitionJob_spares h (fun id hid => htexts id (Option.mem_toList.mpr hid))
        _ _ _).map fun _ _ => trivial
  | .renewJobLease fence leaseExpiresAt =>
      exact (renewJobLease_spares h _ _ _).map fun _ _ => trivial
  | .failJob fence failure =>
      rw [hoperation] at htexts
      exact (failJob_spares h (htexts failure.errorStage List.mem_cons_self)
        (htexts failure.errorCode (List.mem_cons_of_mem _ List.mem_cons_self)) _ _).map
        fun _ _ => trivial
  | .recoverExpiredLeases now =>
      exact (recoverExpiredLeases_spares h _ _).map fun _ _ => trivial
  | .captureUserEvent _ | .captureAssistantEvent _ | .captureToolEvent _ _ | .publishSnapshot _
  | .writeMetricBackfillBatch _ _ _ | .readRequestView _ | .readCompactionView _ =>
      rw [hoperation] at hmoves
      cases hmoves

/-- Why a publication raised, other than by a write to the job table. -/
inductive PublishFailure (faults : FaultInjector) (db : Database) (request : PublishRequest)
    (failure : StorageFailure) : Prop
  | refused (h : admitCandidate db request = .error failure)
  | injected (boundary : Boundary) (h : failure = .injectedFault boundary)
  | staging {admission : Admission} (hadmission : admitCandidate db request = .ok admission)
      (h : stageCandidate faults db request admission.job admission.committed
        admission.records = .error failure)
  | winner {admission : Admission} (hadmission : admitCandidate db request = .ok admission)
      (hconflict : stageCandidate faults db request admission.job admission.committed
        admission.records = .ok none)
      (h : db.activeRow admission.job.sessionKey.sessionKeyHash = none)

omit [Hashlib] [SecureCodec] in
/-- A statement raises only `IntegrityError`. -/
theorem execute_ensures (tables : Tables) :
    Ensures (fun failure => failure = .integrityError) (fun _ => True)
      (Database.execute tables) := by
  unfold Database.execute
  split
  · exact trivial
  · exact rfl

omit [SecureCodec] in
/-- `_preserve_follow_up` raises only what a statement raises. -/
theorem preserveFollowUp_ensures (db : Database) (terminalJob : CompactionJobEnvelope)
    (winner : SnapshotEnvelope) (pointerVersion : Nat) (now : Timestamp) :
    Ensures (fun failure => failure = .integrityError) (fun _ => True)
      (preserveFollowUp db terminalJob winner pointerVersion now) := by
  have hupdate : ∀ selected change, Ensures (fun failure => failure = .integrityError)
      (fun _ => True) (updateJobs db selected change) :=
    fun _ _ => (execute_ensures _).bind fun _ _ => trivial
  unfold preserveFollowUp
  dsimp only
  split
  · exact trivial
  · split
    · split
      · exact (hupdate _ _).bind fun _ _ => trivial
      · exact trivial
    · exact execute_ensures _

/-- Where a publication in a sound state can raise: before its savepoint, at an injection point,
while it stages the candidate, at a conflict without a winner, and at a follow-up whose id is
taken. -/
theorem publishSnapshot_raises {faults : FaultInjector} {db : Database} (hsound : Sound db)
    {request : PublishRequest} {allowed : StorageFailure → Prop}
    (hrefused : ∀ failure, admitCandidate db request = .error failure → allowed failure)
    (hinjected : ∀ boundary, allowed (.injectedFault boundary))
    (hstaging : ∀ admission failure, admitCandidate db request = .ok admission →
      stageCandidate faults db request admission.job admission.committed admission.records =
        .error failure → allowed failure)
    (hwinner : ∀ admission, admitCandidate db request = .ok admission →
      stageCandidate faults db request admission.job admission.committed admission.records =
        .ok none →
      db.activeRow admission.job.sessionKey.sessionKeyHash = none →
      allowed (.repositoryInvariantError "publish conflict has no durable active winner"))
    (htaken : ¬ (Operation.publishSnapshot request).NewIdFree db → allowed .integrityError) :
    Ensures allowed (fun _ => True) (publishSnapshot faults db request) := by
  have hinject : ∀ boundary, Ensures allowed (fun _ => True) (inject faults boundary) :=
    fun boundary => (Ensures.require fun _ => hinjected boundary).mono fun _ _ => trivial
  unfold publishSnapshot
  cases hadmission : admitCandidate db request with
  | error refused => exact hrefused refused hadmission
  | ok admission =>
  obtain ⟨row, hadmits⟩ := admitCandidate_ok hadmission
  -- The follow-up finds its id free whenever the ids of the transaction are new.
  have hpreserve : ∀ (after : Database) (finished : CompactionJobEnvelope)
      (winner : SnapshotEnvelope) (version : Nat),
      ((∃ db', preserveFollowUp after finished winner version request.fence.now = .ok db') ↔
        FollowUpFree db row winner.snapshotId winner.coveredEventEnd version) →
      Ensures allowed (fun _ => True)
        (preserveFollowUp after finished winner version request.fence.now) := by
    intro after finished winner version hiff
    cases hresult : preserveFollowUp after finished winner version request.fence.now with
    | ok db' => exact trivial
    | error failure =>
        obtain rfl := (preserveFollowUp_ensures after finished winner version
          request.fence.now).error hresult
        refine htaken fun hfree => ?_
        obtain ⟨db', hok⟩ := hiff.mpr (.inr (hfree row hadmits.stored _ _))
        rw [hresult] at hok
        cases hok
  refine (hinject .publishBeforeSavepoint).bind fun _ _ => ?_
  cases hstage : stageCandidate faults db request admission.job admission.committed
    admission.records with
  | error refused => exact hstaging admission refused hadmission hstage
  | ok staged =>
  cases staged with
  | none =>
      obtain ⟨after, finished, hfinish, ⟨rows, htables⟩, hfollow⟩ :=
        hadmits.finish rfl rfl .superseded
      show Ensures _ _ (finishPublishJob db admission.job request.fence .superseded >>= _)
      rw [hfinish]
      refine (hinject .publishAfterTerminal).bind fun _ _ => ?_
      cases hactive : db.activeRow row.sessionKeyHash with
      | none =>
          rw [← hadmits.represents.session] at hactive
          have hmissing : after.activeRow admission.job.sessionKey.sessionKeyHash = none :=
            (Database.Holds.of_eq htables).activeRow_eq.trans hactive
          show Ensures _ _ (activeSnapshotBundle after admission.job.sessionKey >>= _)
          unfold activeSnapshotBundle
          rw [hmissing]
          exact hwinner admission hadmission hstage hactive
      | some active =>
          obtain ⟨winner, memberships, snapshot, hbundle, hsnapshot, hid, -⟩ :=
            hsound.activeBundle hadmits htables hactive
          have hstored : winner.snapshotId ∈ db.snapshotIds :=
            hid ▸ List.mem_map_of_mem (Database.snapshotRow_eq_some.mp hsnapshot).1
          have hversion : 1 ≤ active.pointerVersion :=
            db.consistent.activeSnapshots.version active (Database.activeRow_eq_some.mp hactive).1
          show Ensures _ _ (activeSnapshotBundle after admission.job.sessionKey >>= _)
          rw [hbundle]
          refine (hpreserve after finished winner active.pointerVersion
            (hfollow winner active.pointerVersion hstored hversion)).bind fun _ _ => ?_
          exact (hinject .publishAfterFollowUp).bind fun _ _ => trivial
  | some staged =>
      have hstaged := stageCandidate_some hstage
      obtain ⟨after, finished, hfinish, -, hfollow⟩ :=
        hadmits.finish hstaged.compactionJobs hstaged.sessions .committed
      have hstored : admission.committed.snapshotId ∈ staged.snapshotIds := by
        rw [Tables.snapshotIds, hadmits.snapshots_eq hstaged, List.map_append, hadmits.committed]
        exact List.mem_append_right _ List.mem_cons_self
      refine (hinject .publishAfterPointer).bind fun _ _ => ?_
      show Ensures _ _ (finishPublishJob staged admission.job request.fence .committed >>= _)
      rw [hfinish]
      refine (hinject .publishAfterTerminal).bind fun _ _ => ?_
      refine (hpreserve after finished admission.committed (admission.job.basePointerVersion + 1)
        (hfollow admission.committed (admission.job.basePointerVersion + 1) hstored
          (Nat.le_add_left 1 _))).bind fun _ _ => ?_
      exact (hinject .publishAfterFollowUp).bind fun _ _ => trivial

/-- A publication in a sound state never raises in the terminal transition or in the follow-up. -/
theorem publishSnapshot_ensures {faults : FaultInjector} {db : Database} (hsound : Sound db)
    {request : PublishRequest} (hfree : (Operation.publishSnapshot request).NewIdFree db) :
    Ensures (PublishFailure faults db request) (fun _ => True)
      (publishSnapshot faults db request) :=
  publishSnapshot_raises hsound (fun _ hrefused => .refused hrefused)
    (fun boundary => .injected boundary rfl)
    (fun _ _ hadmission hstage => .staging hadmission hstage)
    (fun _ hadmission hconflict hactive => .winner hadmission hconflict hactive)
    fun htaken => absurd hfree htaken

end Operations

end AstrContinuum
