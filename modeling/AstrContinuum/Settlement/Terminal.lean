import AstrContinuum.Settlement.Staging

/-!
# How a publication ends

After its staging a publication finishes the job, looks up the winner and preserves what is left of
the intent. `publishSnapshot_settles_iff` says when all of this goes through: the first obstacle of
the candidate must not be a refusal, a conflict needs an active snapshot to lose to, and the
follow-up job needs a free id.
-/

namespace AstrContinuum

open Checked Relational

/-! ## Reading jobs back -/

/-- A text that is not blank to SQLite is not empty. -/
theorem ne_empty_of_trimNonEmpty {text : String} (h : trimNonEmpty text = true) : text ≠ "" := by
  rintro rfl
  exact absurd h (by decide)

/-- A nullable text that is not blank to SQLite is not empty. -/
theorem ne_some_empty_of_trimNonEmptyOrNull {text : Option String}
    (h : trimNonEmptyOrNull text = true) : text ≠ some "" := by
  rintro rfl
  exact absurd h (by decide)

/-- The table `CHECK`s of a job are enough for its envelope. -/
theorem JobRow.Check.valid {row : JobRow} (h : row.Check) (sessionKey : SessionKey) :
    (row.data sessionKey).Valid := by
  obtain ⟨hbaseText, hcandidateText, hownerText, hstageText, hcodeText, hmessageText⟩ := h.texts
  refine ⟨⟨ne_empty_of_trimNonEmpty h.jobId, h.target, h.target.trans h.intent,
    ne_some_empty_of_trimNonEmptyOrNull hbaseText,
    ne_some_empty_of_trimNonEmptyOrNull hcandidateText,
    ne_some_empty_of_trimNonEmptyOrNull hownerText,
    ne_some_empty_of_trimNonEmptyOrNull hstageText,
    ne_some_empty_of_trimNonEmptyOrNull hcodeText,
    ne_some_empty_of_trimNonEmptyOrNull hmessageText⟩, h.errorTuple, ?_, ?_, ?_, ?_, ?_, ?_⟩
  · show (row.baseSnapshotId = none → _) ∧ (row.baseSnapshotId ≠ none → _)
    rcases h.base with ⟨hnone, hversion⟩ | ⟨hsome, hversion⟩
    · exact ⟨fun _ => hversion, fun hne => absurd hnone hne⟩
    · exact ⟨fun hnone => absurd hnone hsome, fun _ => hversion⟩
  · show (row.state.isWorking = true → _) ∧ (row.state.isWorking = false → _)
    rcases h.lease with ⟨hworking, hlease⟩ | ⟨hworking, hlease⟩
    · exact ⟨fun _ => hlease, fun hidle => absurd (hworking.symm.trans hidle) (by decide)⟩
    · exact ⟨fun hbusy => absurd (hworking.symm.trans hbusy) (by decide), fun _ => hlease⟩
  · show (row.state.isCandidate = true → _) ∧ (row.state.isCandidate = false → _)
    rcases h.candidate with ⟨hcandidate, hid⟩ | ⟨hcandidate, hid⟩
    · exact ⟨fun _ => hid, fun hother => absurd (hcandidate.symm.trans hother) (by decide)⟩
    · exact ⟨fun hother => absurd (hcandidate.symm.trans hother) (by decide), fun _ => hid⟩
  · show row.state = .retryWait ∨ row.state = .failed → _
    intro hstate
    rcases h.failed with ⟨hretry, hfailed⟩ | herror
    · exact absurd hstate (by simp [hretry, hfailed])
    · exact herror
  · show row.state = .retryWait ↔ row.nextRetryAt ≠ none
    rcases h.retry with ⟨hretry, hat⟩ | ⟨hretry, hat⟩ <;> simp [hretry, hat]
  · show row.state = .committed ↔ row.committedAt ≠ none
    rcases h.committed with ⟨hcommitted, hat⟩ | ⟨hcommitted, hat⟩ <;> simp [hcommitted, hat]

section Terminal

variable [Hashlib]

/-- A stored job whose session is stored under its own hash can be read back. -/
theorem jobById_total {db : Database} {row : JobRow} {session : SessionRow}
    (hrow : row ∈ db.compactionJobs) (hsession : session ∈ db.sessions)
    (hhash : session.sessionKeyHash = row.sessionKeyHash)
    (hkey : session.sessionKey.sessionKeyHash = session.sessionKeyHash) :
    ∃ job, jobById db row.jobId = .ok job := by
  have hvalid := (db.consistent.compactionJobs.check row hrow).valid session.sessionKey
  refine ⟨⟨row.data session.sessionKey, hvalid⟩, ?_⟩
  refine bind_ok.mpr ⟨row, orMissing_ok.mpr (Database.jobRow_eq_some.mpr ⟨hrow, rfl⟩), ?_⟩
  refine bind_ok.mpr ⟨session, orMissing_ok.mpr
    (Database.sessionRow_eq_some.mpr ⟨hsession, hhash⟩), ?_⟩
  refine bind_ok.mpr ⟨session.sessionKey, sessionKeyFromStorage_ok.mpr ⟨rfl, hkey⟩, ?_⟩
  refine bind_ok.mpr ⟨_, dif_pos hvalid, ?_⟩
  exact require_bind_pos (hhash.symm.trans hkey.symm)

omit [Hashlib] in
/-- A finished job satisfies the `CHECK`s of the table. -/
theorem JobRow.Check.finish {row : JobRow} (h : row.Check) (hready : row.state = .readyToCommit)
    (outcome : PublishOutcome) (now : Timestamp) : (row.finish outcome now).Check := by
  have hcandidate : row.candidateSnapshotId ≠ none := by
    rcases h.candidate with ⟨-, hid⟩ | ⟨hother, -⟩
    · exact hid
    · rw [hready] at hother
      cases hother
  obtain ⟨hbaseText, hcandidateText, -, herrors⟩ := h.texts
  refine ⟨h.jobId, h.target, h.intent, ⟨hbaseText, hcandidateText, rfl, herrors⟩, h.base,
    .inr ⟨?_, rfl, rfl⟩, .inl ⟨?_, hcandidate⟩, h.errorTuple, .inl ?_, .inr ⟨?_, rfl⟩, ?_⟩
  · cases outcome <;> rfl
  · cases outcome <;> rfl
  · cases outcome <;> exact ⟨nofun, nofun⟩
  · cases outcome <;> exact nofun
  · cases outcome
    · exact .inl ⟨rfl, nofun⟩
    · exact .inr ⟨nofun, rfl⟩

/-! ## The terminal transition -/

/-- `_finish_publish_job` succeeds on a stored row that passes its fence. -/
theorem finishPublishJob_total {db : Database} {job : CompactionJobEnvelope} {fence : Fence}
    {row : JobRow} {session : SessionRow} (hrow : row ∈ db.compactionJobs)
    (hselected : row.finishFence job fence = true) (hid : row.jobId = job.jobId)
    (hsession : session ∈ db.sessions)
    (hhash : session.sessionKeyHash = row.sessionKeyHash)
    (hkey : session.sessionKey.sessionKeyHash = session.sessionKeyHash)
    (outcome : PublishOutcome) :
    ∃ result, finishPublishJob db job fence outcome = .ok result := by
  have hstate : ∀ other, JobRow.finishFence job fence other = true →
      other.jobId = job.jobId ∧ other.state = .readyToCommit := by
    intro other hother
    simp only [JobRow.finishFence, Bool.and_eq_true, decide_eq_true_eq] at hother
    exact ⟨hother.1.1.1.1.1, hother.1.1.1.1.2⟩
  have hconsistent : Tables.Consistent (db.withJobs (update (JobRow.finishFence job fence)
      (JobRow.finish outcome fence.now) db.compactionJobs)) := by
    refine Database.consistent_updateJobs ?_ (fun _ => ⟨rfl, rfl⟩) ?_ ?_
    · intro other hother hfence
      exact (db.consistent.compactionJobs.check other hother).finish (hstate other hfence).2 _ _
    · exact fun other hother _ => db.consistent.compactionJobs.base other hother
    · intro other hother hfence _
      rw [(hstate other hfence).2]
      rfl
  have hupdate : updateJobs db (JobRow.finishFence job fence) (JobRow.finish outcome fence.now) =
      .ok (⟨_, hconsistent⟩, db.compactionJobs.countP (JobRow.finishFence job fence)) :=
    updateJobs_ok.mpr ⟨rfl, rfl⟩
  obtain ⟨htables, hcount⟩ := updateJobs_one hrow hselected
    (fun other hother => (hstate other hother).1.trans hid.symm) hupdate
  have hfinished : row.finish outcome fence.now ∈
      update (JobRow.finishFence job fence) (JobRow.finish outcome fence.now) db.compactionJobs :=
    mem_update.mpr (.inl ⟨row, hrow, hselected, rfl⟩)
  let finishedDb : Database := ⟨_, hconsistent⟩
  obtain ⟨finished, hread⟩ : ∃ finished,
      jobById finishedDb (row.finish outcome fence.now).jobId = .ok finished :=
    jobById_total hfinished hsession hhash hkey
  refine ⟨(finishedDb, finished), ?_⟩
  unfold finishPublishJob
  rw [hupdate]
  refine bind_ok.mpr ⟨_, rfl, ?_⟩
  refine bind_ok.mpr ⟨(), require_ok.mpr hcount, ?_⟩
  refine bind_ok.mpr ⟨finished, ?_, rfl⟩
  rw [← hid]
  exact hread

/-! ## The follow-up -/

/-- The follow-up of a job finds its id free, or is not needed. -/
def FollowUpFree (db : Database) (row : JobRow) (winnerId : String)
    (coverage pointerVersion : Nat) : Prop :=
  row.intentTargetHighWaterMark ≤ coverage ∨
    followUpId row.jobId winnerId pointerVersion row.intentTargetHighWaterMark ∉
      db.compactionJobs.map JobRow.jobId

instance (db : Database) (row : JobRow) (winnerId : String) (coverage pointerVersion : Nat) :
    Decidable (FollowUpFree db row winnerId coverage pointerVersion) :=
  inferInstanceAs (Decidable (_ ∨ _))

/-- The id of a follow-up is not blank. -/
theorem trimNonEmpty_followUpId (terminalJobId winnerId : String) (pointerVersion intent : Nat) :
    trimNonEmpty (followUpId terminalJobId winnerId pointerVersion intent) = true := by
  simp [followUpId, trimNonEmpty]

/-- `_preserve_follow_up` succeeds exactly when the follow-up finds its id free. -/
theorem preserveFollowUp_iff {db : Database} {terminalJob : CompactionJobEnvelope}
    {winner : SnapshotEnvelope} {pointerVersion : Nat} {now : Timestamp} (row : JobRow)
    (hid : terminalJob.jobId = row.jobId)
    (hintent : terminalJob.intentTargetHighWaterMark = row.intentTargetHighWaterMark)
    (hsession : terminalJob.sessionKey.sessionKeyHash = row.sessionKeyHash)
    (hterminal : db.nonterminalJob row.sessionKeyHash = none)
    (htarget : 1 ≤ row.intentTargetHighWaterMark) (hkey : row.sessionKeyHash ∈ db.sessionKeys)
    (hwinner : winner.snapshotId ∈ db.snapshotIds) (hversion : 1 ≤ pointerVersion) :
    (∃ db', preserveFollowUp db terminalJob winner pointerVersion now = .ok db') ↔
      FollowUpFree db row winner.snapshotId winner.coveredEventEnd pointerVersion := by
  unfold preserveFollowUp FollowUpFree
  simp only [hid, hintent, hsession, hterminal]
  by_cases hcovered : row.intentTargetHighWaterMark ≤ winner.coveredEventEnd
  · simp [hcovered]
  · rw [if_neg hcovered]
    constructor
    · rintro ⟨db', h⟩
      right
      have hrows := congrArg Tables.compactionJobs (Database.execute_ok.mp h)
      have hunique := db'.consistent.compactionJobs.primaryKey
      rw [hrows] at hunique
      intro hmem
      obtain ⟨old, hold, holdId⟩ := List.mem_map.mp hmem
      exact (uniqueKey_append_singleton.mp hunique).2 old hold holdId
    · intro hfree
      have hnew := hfree.resolve_left hcovered
      obtain ⟨snapshot, hsnapshot, hsnapshotId⟩ := List.mem_map.mp hwinner
      have hconsistent : Tables.Consistent (db.withJobs (db.compactionJobs ++
          [.pending (followUpId row.jobId winner.snapshotId pointerVersion
            row.intentTargetHighWaterMark) row.sessionKeyHash row.intentTargetHighWaterMark
            (some winner.snapshotId) pointerVersion now])) := by
        refine Database.consistent_addJob ?_ ?_ (fun _ => hterminal) hkey ?_
        · have htext : trimNonEmptyOrNull (some winner.snapshotId) = true :=
            hsnapshotId ▸ (db.consistent.snapshots.check snapshot hsnapshot).1
          exact ⟨trimNonEmpty_followUpId _ _ _ _, htarget, le_rfl,
            ⟨htext, rfl, rfl, rfl, rfl, rfl⟩, .inr ⟨nofun, hversion⟩, .inr ⟨rfl, rfl, rfl⟩,
            .inr ⟨rfl, rfl⟩, .inl ⟨rfl, rfl, rfl⟩, .inl ⟨nofun, nofun⟩, .inr ⟨nofun, rfl⟩,
            .inr ⟨nofun, rfl⟩⟩
        · exact find_eq_none.mpr fun old hold holdId =>
            hnew (List.mem_map.mpr ⟨old, hold, holdId⟩)
        · intro id hmem
          obtain rfl := Option.some.inj hmem
          exact hwinner
      exact ⟨_, Database.execute_of_consistent hconsistent⟩

/-- The terminal transition of an admitted candidate succeeds on every database that has its job and
session rows, and then the follow-up succeeds exactly when it finds its id free. -/
theorem Admits.finish {db before : Database} {request : PublishRequest} {admission : Admission}
    {row : JobRow} (h : Admits db request admission row)
    (hjobs : before.compactionJobs = db.compactionJobs) (hsessions : before.sessions = db.sessions)
    (outcome : PublishOutcome) :
    ∃ after finished, finishPublishJob before admission.job request.fence outcome =
        .ok (after, finished) ∧
      (∃ rows, after.toTables = before.withJobs rows) ∧
      ∀ (winner : SnapshotEnvelope) (version : Nat), winner.snapshotId ∈ before.snapshotIds →
        1 ≤ version →
        ((∃ db', preserveFollowUp after finished winner version request.fence.now = .ok db') ↔
          FollowUpFree db row winner.snapshotId winner.coveredEventEnd version) := by
  obtain ⟨hrow, -⟩ := Database.jobRow_eq_some.mp h.stored
  obtain ⟨session, hsession, hhash, hkey⟩ := h.sessionRow
  have hkeyHash : session.sessionKey.sessionKeyHash = session.sessionKeyHash := by
    rw [hkey, h.represents.session, hhash]
  have hid : row.jobId = admission.job.jobId := by rw [h.represents.fields]; rfl
  have hstored : row ∈ before.compactionJobs := hjobs ▸ hrow
  obtain ⟨⟨after, finished⟩, hfinish⟩ := finishPublishJob_total hstored h.finishFence hid
    (hsessions ▸ hsession) hhash hkeyHash outcome
  obtain ⟨htables, hrepresents⟩ := finishPublishJob_ok hstored h.finishFence hid hfinish
  refine ⟨after, finished, hfinish, ⟨_, htables⟩, fun winner version hwinner hversion => ?_⟩
  have hafter : after.compactionJobs = update (fun other => other.jobId = row.jobId)
      (JobRow.finish outcome request.fence.now) db.compactionJobs := by
    rw [congrArg Tables.compactionJobs htables, ← hjobs]
    rfl
  have hids : after.compactionJobs.map JobRow.jobId = db.compactionJobs.map JobRow.jobId := by
    rw [hafter]
    exact map_update JobRow.jobId _ fun _ _ => rfl
  have hcheck := db.consistent.compactionJobs.check row hrow
  have hkeys : row.sessionKeyHash ∈ after.sessionKeys := by
    rw [Tables.sessionKeys, htables]
    show row.sessionKeyHash ∈ before.sessions.map SessionRow.sessionKeyHash
    rw [hsessions]
    exact List.mem_map.mpr ⟨session, hsession, hhash⟩
  have hsnapshots : winner.snapshotId ∈ after.snapshotIds := by
    rw [Tables.snapshotIds, htables]
    exact hwinner
  rw [preserveFollowUp_iff row (by rw [hrepresents.fields]; rfl)
    (by rw [hrepresents.fields]; rfl) hrepresents.session (h.nonterminalJob_finished hafter) (hcheck.target.trans hcheck.intent)
    hkeys hsnapshots hversion, FollowUpFree, FollowUpFree, hids]

/-! ## Settlement -/

variable [SecureCodec]

/-- A publication without faults returns, and leaves its job in the terminal state it returns. -/
def Settles (db : Database) (request : PublishRequest) : Prop :=
  ∃ db' result row, publishSnapshot .none db request = .ok (db', result) ∧
    db'.jobRow request.fence.jobId = some row ∧ row.state = result.outcome.state

/-- The session has an active snapshot to lose to, and the follow-up on it finds its id free. -/
def HasWinner (db : Database) (row : JobRow) : Prop :=
  ∃ active winner, db.activeRow row.sessionKeyHash = some active ∧
    db.snapshotRow active.snapshotId = some winner ∧
    FollowUpFree db row winner.snapshotId winner.coveredEventEnd active.pointerVersion

/-- What the settlement of an admitted candidate needs, from the request and the database before
the transaction. -/
def CanSettle (db : Database) (request : PublishRequest) (row : JobRow) : Prop :=
  match stagingObstacle db request with
  | none => FollowUpFree db row request.candidateSnapshot.snapshotId
      request.candidateSnapshot.coveredEventEnd (row.basePointerVersion + 1)
  | some .conflict => HasWinner db row
  | some .refusal => False

/-- A publication that returns has settled its job. -/
theorem settles_of_publishSnapshot {db db' : Database} {request : PublishRequest}
    {result : PublishResult} (h : publishSnapshot .none db request = .ok (db', result)) :
    Settles db request := by
  have hstored : ∀ {outcome row winnerId coverage version},
      db.jobRow request.fence.jobId = some row →
      db'.compactionJobs = settledJobs outcome row winnerId coverage version request.fence.now
        db.compactionJobs →
      db'.jobRow request.fence.jobId = some (row.finish outcome request.fence.now) := by
    intro outcome row winnerId coverage version hrow hjobs
    obtain ⟨hmem, hid⟩ := Database.jobRow_eq_some.mp hrow
    refine Database.jobRow_eq_some.mpr ⟨?_, hid⟩
    rw [hjobs]
    exact List.mem_append_left _ (mem_update.mpr (.inl ⟨row, hmem, by simp, rfl⟩))
  cases publishSnapshot_effect h with
  | committed hadmits _ houtcome _ htables =>
      have hjobs := congrArg Tables.compactionJobs htables
      exact ⟨db', result, _, h, hstored hadmits.stored hjobs, by rw [houtcome]; rfl⟩
  | superseded hadmits _ _ houtcome _ htables =>
      have hjobs := congrArg Tables.compactionJobs htables
      exact ⟨db', result, _, h, hstored hadmits.stored hjobs, by rw [houtcome]; rfl⟩
  | sidecar hoperation _ => cases hoperation

omit [SecureCodec] in
/-- A bundle does not depend on the job rows. -/
theorem snapshotBundleById_withJobs {db db' : Database} {rows : List JobRow}
    (h : db'.toTables = db.withJobs rows) (snapshotId : String) (sessionKey : SessionKey) :
    snapshotBundleById db' snapshotId sessionKey = snapshotBundleById db snapshotId sessionKey := by
  have hholds := Database.Holds.of_eq h
  have hsessions : db'.sessions = db.sessions := hholds.sessions
  have hcapsules : db'.capsules = db.capsules := hholds.capsules
  have hsnapshots : db'.snapshots = db.snapshots := hholds.snapshots
  have hmemberships : db'.snapshotCapsules = db.snapshotCapsules := hholds.snapshotCapsules
  simp only [snapshotBundleById, membershipsForSnapshot, Database.snapshotRow,
    Database.sessionRow, Database.membershipRows, hsessions, hcapsules, hsnapshots, hmemberships]

omit [SecureCodec] in
/-- In a sound state the active snapshot of an admitted job can be read back. -/
theorem Sound.activeBundle {db after : Database} (h : Sound db) {request : PublishRequest}
    {admission : Admission} {row : JobRow} (hadmits : Admits db request admission row)
    {rows : List JobRow} (htables : after.toTables = db.withJobs rows) {active : ActiveRow}
    (hactive : db.activeRow row.sessionKeyHash = some active) :
    ∃ winner memberships snapshot,
      activeSnapshotBundle after admission.job.sessionKey =
        .ok (winner, active.pointerVersion, memberships) ∧
      db.snapshotRow active.snapshotId = some snapshot ∧
      winner.snapshotId = snapshot.snapshotId ∧
      winner.coveredEventEnd = snapshot.coveredEventEnd := by
  have hpointer := h.pointer_eq hadmits
  rw [hadmits.represents.session, Database.pointer, hactive] at hpointer
  have hbase : admission.job.baseSnapshotId = some active.snapshotId :=
    (congrArg Prod.fst hpointer).symm
  obtain ⟨previous, -, hprevious, -, -⟩ := hadmits.gate
  unfold previousBundle at hprevious
  rw [hbase] at hprevious
  obtain ⟨⟨winner, memberships⟩, hread, -⟩ := bind_ok.mp hprevious
  obtain ⟨snapshot, hsnapshot, -, hfields, -⟩ := snapshotBundleById_ok hread
  have hfound : after.activeRow admission.job.sessionKey.sessionKeyHash = some active := by
    rw [hadmits.represents.session, ← hactive]
    exact (Database.Holds.of_eq htables).activeRow_eq
  refine ⟨winner, memberships, snapshot, ?_, hsnapshot, ?_, ?_⟩
  · refine bind_ok.mpr ⟨active, orMissing_ok.mpr hfound, ?_⟩
    refine bind_ok.mpr ⟨(winner, memberships), ?_, ?_⟩
    · rw [snapshotBundleById_withJobs htables]
      exact hread
    · exact require_bind_pos (by rw [hfields]; rfl)
  · rw [hfields]
    rfl
  · rw [hfields]
    rfl

/-- A staged candidate is published exactly when its follow-up finds its id free. -/
theorem Admits.publishes_committed {db staged : Database} {request : PublishRequest}
    {admission : Admission} {row : JobRow} (h : Admits db request admission row)
    (hadmission : admitCandidate db request = .ok admission)
    (hstage : stageCandidate .none db request admission.job admission.committed admission.records =
      .ok (some staged)) :
    (∃ result, publishSnapshot .none db request = .ok result) ↔
      FollowUpFree db row request.candidateSnapshot.snapshotId
        request.candidateSnapshot.coveredEventEnd (row.basePointerVersion + 1) := by
  have hstaged := stageCandidate_some hstage
  obtain ⟨after, finished, hfinish, -, hfollow⟩ :=
    h.finish hstaged.compactionJobs hstaged.sessions .committed
  have hpublish : publishSnapshot .none db request =
      preserveFollowUp after finished admission.committed (admission.job.basePointerVersion + 1)
        request.fence.now >>= fun db => pure (db, ⟨.committed, finished, admission.committed,
          admission.job.basePointerVersion + 1⟩) := by
    unfold publishSnapshot
    rw [hadmission]
    show (stageCandidate .none db request admission.job admission.committed admission.records >>=
      _) = _
    rw [hstage]
    show (finishPublishJob staged admission.job request.fence .committed >>= _) = _
    rw [hfinish]
    rfl
  have hstored : admission.committed.snapshotId ∈ staged.snapshotIds := by
    rw [Tables.snapshotIds, h.snapshots_eq hstaged, List.map_append, h.committed]
    exact List.mem_append_right _ List.mem_cons_self
  have hid : admission.committed.snapshotId = request.candidateSnapshot.snapshotId := by
    rw [h.committed]
  have hcoverage : admission.committed.coveredEventEnd =
      request.candidateSnapshot.coveredEventEnd := by
    rw [h.committed]
  have hversion : admission.job.basePointerVersion = row.basePointerVersion := by
    rw [h.represents.fields]
    rfl
  rw [hpublish, exists_bind_pure_ok, hfollow _ _ hstored (Nat.le_add_left 1 _), hid, hcoverage,
    hversion]

/-- In a sound state a candidate that met a conflict is superseded exactly when it has a winner. -/
theorem Admits.publishes_superseded {db : Database} (hsound : Sound db) {request : PublishRequest}
    {admission : Admission} {row : JobRow} (h : Admits db request admission row)
    (hadmission : admitCandidate db request = .ok admission)
    (hstage : stageCandidate .none db request admission.job admission.committed admission.records =
      .ok none) :
    (∃ result, publishSnapshot .none db request = .ok result) ↔ HasWinner db row := by
  obtain ⟨after, finished, hfinish, ⟨rows, htables⟩, hfollow⟩ := h.finish rfl rfl .superseded
  have hpublish : publishSnapshot .none db request =
      activeSnapshotBundle after admission.job.sessionKey >>= fun bundle =>
        preserveFollowUp after finished bundle.1 bundle.2.1 request.fence.now >>= fun db =>
          pure (db, ⟨.superseded, finished, bundle.1, bundle.2.1⟩) := by
    unfold publishSnapshot
    rw [hadmission]
    show (stageCandidate .none db request admission.job admission.committed admission.records >>=
      _) = _
    rw [hstage]
    show (finishPublishJob db admission.job request.fence .superseded >>= _) = _
    rw [hfinish]
    rfl
  rw [hpublish]
  cases hactive : db.activeRow row.sessionKeyHash with
  | none =>
      have hmissing : after.activeRow admission.job.sessionKey.sessionKeyHash = none := by
        rw [h.represents.session, ← hactive]
        exact (Database.Holds.of_eq htables).activeRow_eq
      constructor
      · rintro ⟨result, hresult⟩
        obtain ⟨bundle, hbundle, -⟩ := bind_ok.mp hresult
        obtain ⟨active, hfound, -⟩ := bind_ok.mp hbundle
        rw [hmissing] at hfound
        cases hfound
      · rintro ⟨active, winner, hfound, -⟩
        rw [hactive] at hfound
        cases hfound
  | some active =>
      obtain ⟨winner, memberships, snapshot, hbundle, hsnapshot, hid, hcoverage⟩ :=
        hsound.activeBundle h htables hactive
      have hwinner : winner.snapshotId ∈ db.snapshotIds :=
        hid ▸ List.mem_map_of_mem (Database.snapshotRow_eq_some.mp hsnapshot).1
      have hversion : 1 ≤ active.pointerVersion :=
        db.consistent.activeSnapshots.version active (Database.activeRow_eq_some.mp hactive).1
      rw [hbundle]
      show (∃ result, (preserveFollowUp after finished winner active.pointerVersion
        request.fence.now >>= _) = .ok result) ↔ _
      rw [exists_bind_pure_ok, hfollow _ _ hwinner hversion, hid, hcoverage]
      constructor
      · intro hfree
        exact ⟨active, snapshot, hactive, hsnapshot, hfree⟩
      · rintro ⟨active', snapshot', hactive', hsnapshot', hfree⟩
        obtain rfl := Option.some.inj (hactive.symm.trans hactive')
        obtain rfl := Option.some.inj (hsnapshot.symm.trans hsnapshot')
        exact hfree

/-- In a sound state the publication of an admitted candidate settles its job exactly when the
request and the database allow it. -/
theorem publishSnapshot_settles_iff {db : Database} (h : Sound db) {request : PublishRequest}
    {admission : Admission} {row : JobRow} (hadmission : admitCandidate db request = .ok admission)
    (hadmits : Admits db request admission row) :
    Settles db request ↔ CanSettle db request row := by
  have hsettles : Settles db request ↔
      ∃ result, publishSnapshot .none db request = .ok result := by
    constructor
    · rintro ⟨db', result, -, hpublished, -⟩
      exact ⟨_, hpublished⟩
    · rintro ⟨⟨db', result⟩, hpublished⟩
      exact settles_of_publishSnapshot hpublished
  have houtcome := stageCandidate_outcome h hadmits
  rw [hsettles]
  unfold CanSettle
  match stagingObstacle db request, houtcome with
  | none, houtcome =>
      obtain ⟨staged, hstage, -⟩ := houtcome
      exact hadmits.publishes_committed hadmission hstage
  | some .conflict, houtcome => exact hadmits.publishes_superseded h hadmission houtcome
  | some .refusal, houtcome =>
      obtain ⟨failure, hfailure⟩ := houtcome
      refine ⟨?_, False.elim⟩
      rintro ⟨result, hresult⟩
      obtain ⟨admission', hadmission', hresult⟩ := bind_ok.mp hresult
      obtain rfl := Except.ok.inj (hadmission.symm.trans hadmission')
      obtain ⟨-, -, hresult⟩ := bind_ok.mp hresult
      obtain ⟨staged, hstage, -⟩ := bind_ok.mp hresult
      rw [hfailure] at hstage
      cases hstage

end Terminal

end AstrContinuum
