import AstrContinuum.Guarantees.Linearity
import AstrContinuum.Invariants.Readable
import AstrContinuum.Settlement.Terminal

/-!
# Read views are complete and frozen

`read_views_consistent` says what a client may rely on when it reads. A request view never fails an
invariant check, and its snapshot and delta divide the journal up to the high-water mark between
them. The view of a claimed job is the same at every read of the claim, whatever runs in between:
`frozen_of_calls` follows the base and the target of the job through the calls.
-/

namespace AstrContinuum

open Checked Relational Transactional

section Reads

variable [Hashlib]

/-- A request view is the journal up to the high-water mark: a committed snapshot for the events up
to its coverage, and every later event. -/
structure ViewComplete (db : Database) (sessionKey : SessionKey) (view : RequestView) : Prop where
  session : view.sessionKey = sessionKey
  mark : view.highWaterMark = db.highWaterMark sessionKey.sessionKeyHash
  coverage : view.coveredEventEnd =
    (view.snapshot.map fun snapshot => snapshot.coveredEventEnd).getD 0
  delta : view.delta.map EventEnvelope.row =
    (db.journal sessionKey.sessionKeyHash).filter fun row =>
      decide (view.coveredEventEnd < row.sequence)
  sequences : (view.delta.map fun event => event.sequence) =
    List.range' (view.coveredEventEnd + 1) (view.highWaterMark - view.coveredEventEnd)
  partition : List.range' 1 view.coveredEventEnd ++ (view.delta.map fun event => event.sequence) =
    List.range' 1 view.highWaterMark

/-- The sequences of read events are those of their rows. -/
theorem sequences_of_rows (events : List EventEnvelope) :
    (events.map fun event => event.sequence) =
      (events.map EventEnvelope.row).map EventRow.sequence := by
  simp [EventEnvelope.row]

omit [Hashlib] in
/-- No event of a session lies past its high-water mark. -/
theorem filter_journal_mark {rows : List EventRow} {start count : Nat}
    (hsequences : rows.map EventRow.sequence = List.range' 1 count) :
    (rows.filter fun row => decide (start < row.sequence) && decide (row.sequence ≤ count)) =
      rows.filter fun row => decide (start < row.sequence) := by
  refine List.filter_congr fun row hrow => ?_
  have hmem : row.sequence ∈ List.range' 1 count := by
    rw [← hsequences]
    exact List.mem_map_of_mem hrow
  rw [List.mem_range'_1] at hmem
  have hle : row.sequence ≤ count := by omega
  simp [hle]

/-- The active snapshot of a stored session is read back. -/
theorem readActiveSnapshot_total {db : Database} (hsound : Sound db) (hread : ReadSound db)
    {session : SessionRow} (hsession : session ∈ db.sessions) :
    ∃ active, readActiveSnapshot db session.sessionKey = .ok active ∧
      (active.map fun bundle => bundle.1.coveredEventEnd).getD 0 =
        db.coverage session.sessionKeyHash := by
  have hkey := hsound.journal.hash session hsession
  cases hactive : db.activeRow session.sessionKeyHash with
  | none =>
      refine ⟨none, ?_, by simp [Database.coverage, hactive]⟩
      unfold readActiveSnapshot
      rw [hkey, hactive]
  | some active =>
      obtain ⟨row, hrow⟩ := Database.exists_snapshotRow_of_active
        (Database.activeRow_eq_some.mp hactive).1
      obtain ⟨hmem, -⟩ := Database.snapshotRow_eq_some.mp hrow
      have hpointer : db.pointer session.sessionKeyHash =
          (some active.snapshotId, active.pointerVersion) := by
        simp [Database.pointer, hactive]
      have hchain := List.mem_of_mem_getLast? (hsound.chain.getLast?_of_pointer hpointer hrow)
      have hhash : row.sessionKeyHash = session.sessionKeyHash :=
        of_decide_eq_true (List.mem_filter.mp hchain).2
      obtain ⟨⟨snapshot, memberships⟩, hbundle⟩ :=
        hread.snapshots row hmem session hsession hhash.symm
      refine ⟨some (snapshot, memberships, active.pointerVersion), ?_, ?_⟩
      · rw [readActiveSnapshot_eq (by rw [hkey]; exact hactive) hrow, hbundle]
        rfl
      · rw [Database.coverage_of_active hactive hrow]
        simp only [Option.map_some, Option.getD_some]
        rw [bundleOf_ok hbundle]
        rfl

/-- The coverage of a stored session lies within its journal. -/
theorem Sound.coverage_le {db : Database} (h : Sound db) (hash : String) :
    db.coverage hash ≤ db.highWaterMark hash := by
  rw [h.chain.coverage_eq]
  cases hlast : (db.chain hash).getLast? with
  | none => simp [coverageOf]
  | some row =>
      have hmem := List.mem_of_mem_getLast? hlast
      have hhash : row.sessionKeyHash = hash := of_decide_eq_true (List.mem_filter.mp hmem).2
      obtain ⟨i, hi, rfl⟩ := List.getElem_of_mem hmem
      obtain ⟨input, hadmitted⟩ := (h.chain.linked hash).follows_getElem hi
      have hmark := hadmitted.mark
      rw [hhash] at hmark
      simpa [coverageOf] using hmark

/-- The request view of a stored session: it raises only what is injected, and is complete. -/
theorem readRequestView_stored {db : Database} (hsound : Sound db) (hread : ReadSound db)
    {session : SessionRow} (hsession : session ∈ db.sessions) (faults : FaultInjector) :
    (∃ view, ViewComplete db session.sessionKey view ∧
        readRequestView faults db session.sessionKey = .ok view) ∨
      ∃ boundary, faults boundary 0 = true ∧
        readRequestView faults db session.sessionKey = .error (.injectedFault boundary) := by
  have hkey := hsound.journal.hash session hsession
  have hrow := Database.sessionRow_eq_some.mpr ⟨hsession, rfl⟩
  have hstored : sessionKeyFromStorage session = .ok session.sessionKey :=
    sessionKeyFromStorage_ok.mpr ⟨rfl, hkey⟩
  obtain ⟨active, hactive, hcovered⟩ := readActiveSnapshot_total hsound hread hsession
  have hmark := Database.highWaterMark_of_mem hsession
  have hle := hsound.coverage_le session.sessionKeyHash
  rw [hmark] at hle
  obtain ⟨delta, hdelta, hrows⟩ := eventsBetween_total db session.sessionKey
    (db.coverage session.sessionKeyHash) (session.nextEventSequence - 1)
  rw [hkey] at hrows
  have hsequences : (delta.map fun event => event.sequence) =
      deltaSequences (db.coverage session.sessionKeyHash) (session.nextEventSequence - 1) := by
    rw [sequences_of_rows, hrows, hsound.journal.sequencesBetween hsession le_rfl]
  unfold readRequestView
  rw [hkey, hrow]
  simp only [hstored, bind, Except.bind, require, if_true]
  cases hfirst : faults .readAfterHighWater 0 with
  | true => exact .inr ⟨.readAfterHighWater, hfirst, by simp [inject, require, hfirst]⟩
  | false =>
  cases hsecond : faults .readAfterPointer 0 with
  | true =>
      exact .inr ⟨.readAfterPointer, hsecond, by simp [inject, require, hfirst, hsecond]⟩
  | false =>
      let view : RequestView :=
        { sessionKey := session.sessionKey
          snapshot := active.map fun bundle => bundle.1
          memberships := (active.map fun bundle => bundle.2.1).getD []
          pointerVersion := (active.map fun bundle => bundle.2.2).getD 0
          coveredEventEnd := db.coverage session.sessionKeyHash
          highWaterMark := session.nextEventSequence - 1
          delta := delta }
      have hcomplete : ViewComplete db session.sessionKey view := by
        refine ⟨rfl, by rw [hkey]; exact hmark.symm, ?_, ?_, hsequences, ?_⟩
        · show db.coverage session.sessionKeyHash = _
          rw [← hcovered]
          cases active <;> rfl
        · show delta.map EventEnvelope.row = _
          rw [hrows, hkey, hsound.journal.eventRowsBetween_eq hsession]
          exact filter_journal_mark (hsound.journal.sequences session hsession)
        · show List.range' 1 (db.coverage session.sessionKeyHash) ++ _ =
            List.range' 1 (session.nextEventSequence - 1)
          rw [hsequences, deltaSequences, Nat.add_comm _ 1, List.range'_append_1,
            Nat.add_sub_cancel' hle]
      refine .inl ⟨view, hcomplete, ?_⟩
      simp only [inject, require, hfirst, hsecond, if_true, hactive, hcovered, hle, hdelta,
        hsequences]
      rfl

/-- What a request view comes to: a complete view, an injected fault, or the conflict of a session
hash that belongs to another key. -/
theorem readRequestView_cases {db : Database} (hsound : Sound db) (hread : ReadSound db)
    (faults : FaultInjector) (sessionKey : SessionKey) :
    (∃ view, ViewComplete db sessionKey view ∧ readRequestView faults db sessionKey = .ok view) ∨
      (∃ boundary, faults boundary 0 = true ∧
        readRequestView faults db sessionKey = .error (.injectedFault boundary)) ∨
      ∃ message, readRequestView faults db sessionKey =
          .error (.sessionIdentityConflict message) ∧
        ∃ session ∈ db.sessions, session.sessionKeyHash = sessionKey.sessionKeyHash ∧
          session.sessionKey ≠ sessionKey := by
  cases hrow : db.sessionRow sessionKey.sessionKeyHash with
  | none =>
      have hnone := find_eq_none.mp hrow
      refine .inl ⟨⟨sessionKey, none, [], 0, 0, 0, []⟩,
        ⟨rfl, (Database.highWaterMark_eq_zero hnone).symm, rfl, ?_, rfl, rfl⟩,
        by simp [readRequestView, hrow]⟩
      rw [Database.journal_eq_nil hnone]
      rfl
  | some session =>
      obtain ⟨hsession, hhash⟩ := Database.sessionRow_eq_some.mp hrow
      by_cases hkey : session.sessionKey = sessionKey
      · subst hkey
        rcases readRequestView_stored hsound hread hsession faults with hok | hfault
        · exact .inl hok
        · exact .inr (.inl hfault)
      · have hstored : sessionKeyFromStorage session = .ok session.sessionKey :=
          sessionKeyFromStorage_ok.mpr ⟨rfl, hsound.journal.hash session hsession⟩
        refine .inr (.inr ⟨"session hash does not resolve to the exact canonical SessionKey", ?_,
          session, hsession, hhash, hkey⟩)
        simp only [readRequestView, hrow, hstored, bind, Except.bind]
        exact require_bind_neg hkey

/-! ## The view of a claim -/

/-- The base that `read_compaction_view` reads once it knows the session and the base of the claimed
job. -/
def claimBase (db : Database) (sessionKey : SessionKey) (baseSnapshotId : Option String)
    (basePointerVersion : Nat) :
    Except StorageFailure (Option SnapshotEnvelope × List SnapshotCapsuleMembership) :=
  match baseSnapshotId with
  | none => do
      require (basePointerVersion = 0)
        (.repositoryInvariantError "empty Job base must have pointer version zero")
      pure (none, [])
  | some baseSnapshotId => do
      let (snapshot, memberships) ← snapshotBundleById db baseSnapshotId sessionKey
      require (snapshot.state = .committed)
        (.repositoryInvariantError "Job base Snapshot is not committed")
      pure (some snapshot, memberships)

/-- The base of a job is read by its fields. -/
theorem readJobBase_eq (db : Database) (job : CompactionJobEnvelope) :
    readJobBase db job = claimBase db job.sessionKey job.baseSnapshotId job.basePointerVersion :=
  rfl

/-- What `read_compaction_view` reads once it knows the session, the base and the target of the
claimed job. -/
def claimView (db : Database) (sessionKey : SessionKey) (baseSnapshotId : Option String)
    (basePointerVersion target : Nat) : Except StorageFailure RequestView := do
  let (snapshot, memberships) ← claimBase db sessionKey baseSnapshotId basePointerVersion
  let coveredEventEnd := (snapshot.map fun base => base.coveredEventEnd).getD 0
  require (coveredEventEnd ≤ target)
    (.repositoryInvariantError "Job base Snapshot coverage exceeds its frozen target")
  let delta ← eventsBetween db sessionKey coveredEventEnd target
  require (delta.map (fun event => event.sequence) = deltaSequences coveredEventEnd target)
    (.repositoryInvariantError
      "claimed request Delta is not contiguous through the frozen target")
  pure
    { sessionKey := sessionKey
      snapshot := snapshot
      memberships := memberships
      pointerVersion := basePointerVersion
      coveredEventEnd := coveredEventEnd
      highWaterMark := target
      delta := delta }

/-- A job that the worker is compiling or auditing under its lease. -/
structure Claimed (db : Database) (fence : Fence) (row : JobRow) : Prop where
  stored : db.jobRow fence.jobId = some row
  fenced : row.Fenced fence.owner fence.leaseEpoch fence.now
  state : row.state = .compiling ∨ row.state = .auditing

omit [Hashlib] in
/-- The stored session of a stored job. -/
theorem Database.exists_session_of_job {db : Database} {row : JobRow}
    (hrow : row ∈ db.compactionJobs) :
    ∃ session ∈ db.sessions, session.sessionKeyHash = row.sessionKeyHash := by
  obtain ⟨session, hsession, hhash⟩ := List.mem_map.mp
    (db.consistent.compactionJobs.session row hrow row.sessionKeyHash rfl)
  exact ⟨session, hsession, hhash⟩

/-- `read_compaction_view` under a live claim. -/
theorem Claimed.readCompactionView_eq {db : Database} {fence : Fence} {row : JobRow}
    {session : SessionRow} (h : Claimed db fence row) (hsession : session ∈ db.sessions)
    (hhash : session.sessionKeyHash = row.sessionKeyHash)
    (hkey : session.sessionKey.sessionKeyHash = session.sessionKeyHash) :
    readCompactionView db fence = claimView db session.sessionKey row.baseSnapshotId
      row.basePointerVersion row.targetHighWaterMark := by
  obtain ⟨hrow, hid⟩ := Database.jobRow_eq_some.mp h.stored
  obtain ⟨job, hjob⟩ := jobById_total hrow hsession hhash hkey
  rw [hid] at hjob
  obtain ⟨stored, hstored, hrepresents, session', hsession', hhash', hkey'⟩ := jobById_ok hjob
  obtain rfl := Option.some.inj (h.stored.symm.trans hstored)
  obtain rfl := Database.session_eq hsession hsession' (hhash.trans hhash'.symm)
  have hbase : job.baseSnapshotId = row.baseSnapshotId := by rw [hrepresents.fields]; rfl
  have hversion : job.basePointerVersion = row.basePointerVersion := by
    rw [hrepresents.fields]
    rfl
  have htarget : job.targetHighWaterMark = row.targetHighWaterMark := by
    rw [hrepresents.fields]
    rfl
  unfold readCompactionView
  rw [requireLiveFence_ok.mpr ⟨h.stored, h.fenced⟩]
  simp only [bind, Except.bind, require, h.state, if_true, hjob, readJobBase_eq, claimView, hbase,
    hversion, htarget, ← hkey']

/-- The view of a claim depends only on stored snapshots and events below the high-water mark. -/
theorem Grows.claimView_eq {db db' : Database} (h : Grows db db') (hsound : JournalSound db)
    (hsound' : JournalSound db') {session : SessionRow} (hsession : session ∈ db.sessions)
    {baseSnapshotId : Option String} {basePointerVersion target : Nat}
    (hbase : ∀ id ∈ baseSnapshotId, ∃ row ∈ db.snapshots, row.snapshotId = id ∧
      row.sessionKeyHash = session.sessionKeyHash)
    (htarget : target ≤ db.highWaterMark session.sessionKeyHash) :
    claimView db' session.sessionKey baseSnapshotId basePointerVersion target =
      claimView db session.sessionKey baseSnapshotId basePointerVersion target := by
  obtain ⟨session', hsession', hhash', hkey', -⟩ := h.sessions session hsession
  have hbundle : ∀ id ∈ baseSnapshotId, snapshotBundleById db' id session.sessionKey =
      snapshotBundleById db id session.sessionKey := by
    intro id hid
    obtain ⟨row, hrow, rfl, hhash⟩ := hbase id hid
    obtain ⟨added, hadded⟩ := h.snapshots
    have hrow' : row ∈ db'.snapshots := by
      rw [hadded]
      exact List.mem_append_left _ hrow
    rw [snapshotBundleById_eq hrow hsession hhash.symm (hsound.hash session hsession), ← hkey',
      snapshotBundleById_eq hrow' hsession' (hhash'.trans hhash.symm)
        (hsound'.hash session' hsession'), h.bundleOf_eq hrow]
  have hevents : ∀ start, eventsBetween db' session.sessionKey start target =
      eventsBetween db session.sessionKey start target := by
    intro start
    unfold eventsBetween
    rw [h.eventRowsBetween_eq]
    rw [hsound.hash session hsession]
    exact htarget
  unfold claimView claimBase
  cases baseSnapshotId with
  | none => simp only [hevents]
  | some id => simp only [hevents, hbundle id rfl]

/-- The base of a nonterminal job is a stored snapshot of its session. -/
theorem Sound.base_stored {db : Database} (h : Sound db) {row : JobRow}
    (hrow : row ∈ db.compactionJobs) (hstate : row.state.isNonterminal = true)
    {hash : String} (hhash : hash = row.sessionKeyHash) :
    ∀ id ∈ row.baseSnapshotId, ∃ base ∈ db.snapshots, base.snapshotId = id ∧
      base.sessionKeyHash = hash := by
  intro id hid
  obtain ⟨base, hbase, rfl⟩ := List.mem_map.mp
    (db.consistent.compactionJobs.base row hrow id hid)
  have hpointer := (h.jobs row hrow hstate).pointer
  rw [Option.mem_def.mp hid] at hpointer
  have hlast := h.chain.getLast?_of_pointer hpointer.symm
    (Database.snapshotRow_eq_some.mpr ⟨hbase, rfl⟩)
  have hsession := of_decide_eq_true (List.mem_filter.mp (List.mem_of_mem_getLast? hlast)).2
  exact ⟨base, hbase, rfl, hsession.trans hhash.symm⟩

/-- The base of a sound job is the active snapshot of its session, and is read back. -/
theorem claimBase_total {db : Database} (hsound : Sound db) (hread : ReadSound db) {row : JobRow}
    (hrow : row ∈ db.compactionJobs) (hstate : row.state.isNonterminal = true)
    {session : SessionRow} (hsession : session ∈ db.sessions)
    (hhash : session.sessionKeyHash = row.sessionKeyHash) :
    ∃ snapshot memberships,
      claimBase db session.sessionKey row.baseSnapshotId row.basePointerVersion =
        .ok (snapshot, memberships) ∧
      (snapshot.map fun base => base.coveredEventEnd).getD 0 =
        db.coverage row.sessionKeyHash := by
  have hpointer := (hsound.jobs row hrow hstate).pointer
  unfold claimBase
  cases hid : row.baseSnapshotId with
  | none =>
      rcases (db.consistent.compactionJobs.check row hrow).base with ⟨-, hversion⟩ | ⟨hsome, -⟩
      · refine ⟨none, [], bind_ok.mpr ⟨(), require_ok.mpr hversion, rfl⟩, ?_⟩
        rw [hid] at hpointer
        have hlast := congrArg Prod.fst (hpointer.trans (hsound.chain.pointer _))
        have hnone : (db.chain row.sessionKeyHash).getLast? = none := by simpa using hlast.symm
        simp [hsound.chain.coverage_eq, hnone, coverageOf]
      · exact absurd hid hsome
  | some id =>
      rw [hid] at hpointer
      obtain ⟨base, hbaseRow, rfl⟩ := List.mem_map.mp
        (db.consistent.compactionJobs.base row hrow id hid)
      have hfound := Database.snapshotRow_eq_some.mpr ⟨hbaseRow, rfl⟩
      have hlast := hsound.chain.getLast?_of_pointer hpointer.symm hfound
      have hbaseHash : base.sessionKeyHash = row.sessionKeyHash :=
        of_decide_eq_true (List.mem_filter.mp (List.mem_of_mem_getLast? hlast)).2
      obtain ⟨⟨snapshot, memberships⟩, hbundle⟩ :=
        hread.snapshots base hbaseRow session hsession (hhash.trans hbaseHash.symm)
      have hfields := bundleOf_ok hbundle
      have hcommitted : snapshot.state = .committed := by
        rw [hfields]
        exact (db.consistent.snapshots.check base hbaseRow).2.2.2.2
      refine ⟨some snapshot, memberships, ?_, ?_⟩
      · refine bind_ok.mpr ⟨(snapshot, memberships), ?_, ?_⟩
        · rw [snapshotBundleById_eq hbaseRow hsession (hhash.trans hbaseHash.symm)
            (hsound.journal.hash session hsession)]
          exact hbundle
        · exact bind_ok.mpr ⟨(), require_ok.mpr hcommitted, rfl⟩
      · rw [hsound.chain.coverage_eq, hlast]
        simp only [Option.map_some, Option.getD_some, coverageOf]
        rw [hfields]
        rfl

/-- The view of a sound job of a stored session is read without an invariant error. -/
theorem claimView_total {db : Database} (hsound : Sound db) (hread : ReadSound db) {row : JobRow}
    (hrow : row ∈ db.compactionJobs) (hstate : row.state.isNonterminal = true)
    (hrowSound : row.Sound db) {session : SessionRow} (hsession : session ∈ db.sessions)
    (hhash : session.sessionKeyHash = row.sessionKeyHash) :
    ∃ snapshot memberships delta,
      claimBase db session.sessionKey row.baseSnapshotId row.basePointerVersion =
        .ok (snapshot, memberships) ∧
      eventsBetween db session.sessionKey (db.coverage row.sessionKeyHash)
        row.targetHighWaterMark = .ok delta ∧
      claimView db session.sessionKey row.baseSnapshotId row.basePointerVersion
        row.targetHighWaterMark = .ok
          { sessionKey := session.sessionKey
            snapshot := snapshot
            memberships := memberships
            pointerVersion := row.basePointerVersion
            coveredEventEnd := db.coverage row.sessionKeyHash
            highWaterMark := row.targetHighWaterMark
            delta := delta } := by
  have hkey := hsound.journal.hash session hsession
  have hcheck := db.consistent.compactionJobs.check row hrow
  obtain ⟨snapshot, memberships, hbase, hcovered⟩ :=
    claimBase_total hsound hread hrow hstate hsession hhash
  have htarget : row.targetHighWaterMark ≤ session.nextEventSequence - 1 := by
    rw [← Database.highWaterMark_of_mem hsession, hhash]
    exact hcheck.intent.trans hrowSound.mark
  obtain ⟨delta, hdelta, hrows⟩ := eventsBetween_total db session.sessionKey
    (db.coverage row.sessionKeyHash) row.targetHighWaterMark
  have hsequences : (delta.map fun event => event.sequence) =
      deltaSequences (db.coverage row.sessionKeyHash) row.targetHighWaterMark := by
    rw [sequences_of_rows, hrows, hkey, hsound.journal.sequencesBetween hsession htarget]
  refine ⟨snapshot, memberships, delta, hbase, hdelta, bind_ok.mpr ⟨_, hbase, ?_⟩⟩
  simp only [hcovered]
  refine bind_ok.mpr ⟨(), require_ok.mpr (hrowSound.target hstate).le, ?_⟩
  exact bind_ok.mpr ⟨delta, hdelta, bind_ok.mpr ⟨(), require_ok.mpr hsequences, rfl⟩⟩

end Reads

/-! ## Along a run -/

section Runs

variable [Hashlib] [SecureCodec]

/-- The view of a live claim is read, and is the same at every later read of the claim. -/
theorem Claimed.view_frozen {db : Database} (h : repository.Reachable db) {fence : Fence}
    {row : JobRow} (hclaimed : Claimed db fence row) :
    ∃ view, readCompactionView db fence = .ok view ∧
      ∀ (calls : List Call) fence' row', Claimed (calls.foldl repository.next db) fence' row' →
        fence'.jobId = fence.jobId → fence'.leaseEpoch = fence.leaseEpoch →
        readCompactionView (calls.foldl repository.next db) fence' = .ok view := by
  have hsound := sound_of_reachable h
  have hread := readSound_of_reachable h
  obtain ⟨hrow, hid⟩ := Database.jobRow_eq_some.mp hclaimed.stored
  have hstate : row.state.isNonterminal = true :=
    CompactionJobState.isNonterminal_of_isWorking hclaimed.fenced.1
  have hrowSound := jobRowsSound_of_reachable h row hrow
  obtain ⟨session, hsession, hhash⟩ := Database.exists_session_of_job hrow
  obtain ⟨snapshot, memberships, delta, hbase, -, hview⟩ :=
    claimView_total hsound hread hrow hstate hrowSound hsession hhash
  refine ⟨_, (hclaimed.readCompactionView_eq hsession hhash
    (hsound.journal.hash session hsession)).trans hview, ?_⟩
  intro calls fence' row' hclaimed' hsameJob hsameEpoch
  obtain ⟨hreachable', hgrows, hlater⟩ := foldl_later h calls
  have hsound' := sound_of_reachable hreachable'
  -- The claimed row is the later row of the job, and its epoch has not moved.
  obtain ⟨later, hmem, hlater⟩ := hlater row hrow
  obtain ⟨hrow', hid'⟩ := Database.jobRow_eq_some.mp hclaimed'.stored
  obtain rfl : row' = later :=
    (calls.foldl repository.next db).consistent.compactionJobs.primaryKey.eq_of_key hrow' hmem
      (by rw [hid', hsameJob, hlater.jobId, hid])
  obtain ⟨-, -, hepoch, -⟩ := hclaimed.fenced
  obtain ⟨-, -, hepoch', -⟩ := hclaimed'.fenced
  rcases hlater.frozen with hlt | ⟨-, htarget, hbaseId, hversion⟩
  · omega
  · obtain ⟨session', hsession', hhash', hkey', -⟩ := hgrows.sessions session hsession
    rw [hclaimed'.readCompactionView_eq hsession'
      (hhash'.trans (hhash.trans hlater.session.symm)) (hsound'.journal.hash session' hsession'),
      hkey', htarget, hbaseId, hversion, hgrows.claimView_eq hsound.journal hsound'.journal
        hsession (hsound.base_stored hrow hstate hhash) ?_]
    · exact hview
    · rw [hhash]
      exact (db.consistent.compactionJobs.check row hrow).intent.trans hrowSound.mark

omit [SecureCodec] in
/-- Without a live claim in `COMPILING` or `AUDITING`, `read_compaction_view` raises because of the
claim. -/
theorem readCompactionView_unclaimed {db : Database} {fence : Fence}
    (h : ¬ ∃ row, Claimed db fence row) :
    ∃ message, readCompactionView db fence = .error (.staleLeaseError message) ∨
      readCompactionView db fence = .error (.jobTransitionError message) := by
  unfold readCompactionView requireLiveFence
  cases hrow : db.jobRow fence.jobId with
  | none => exact ⟨_, .inl rfl⟩
  | some row =>
      by_cases hfenced : row.Fenced fence.owner fence.leaseEpoch fence.now
      · by_cases hstate : row.state = .compiling ∨ row.state = .auditing
        · exact absurd ⟨row, hrow, hfenced, hstate⟩ h
        · refine ⟨"compaction input requires a COMPILING or AUDITING Job", .inr ?_⟩
          simp [orMissing, require, hfenced, hstate, bind, Except.bind, pure, Except.pure]
      · refine ⟨"worker does not own a matching unexpired lease", .inl ?_⟩
        simp [orMissing, require, hfenced, bind, Except.bind]

/-- In every reachable state a request view raises no invariant error and is complete, and so is
read whenever nothing is injected and the session hash is its own; and the view of a live
`COMPILING` or `AUDITING` claim raises no invariant error either, and is the same at every read of
the claim, whatever is called in between. -/
theorem read_views_consistent {db : Database} (h : repository.Reachable db) :
    (∀ faults sessionKey message, readRequestView faults db sessionKey ≠
        .error (.repositoryInvariantError message)) ∧
      (∀ faults sessionKey view, readRequestView faults db sessionKey = .ok view →
        ViewComplete db sessionKey view) ∧
      (∀ sessionKey,
        (∀ session ∈ db.sessions, session.sessionKeyHash = sessionKey.sessionKeyHash →
          session.sessionKey = sessionKey) →
        ∃ view, readRequestView .none db sessionKey = .ok view) ∧
      (∀ fence message, readCompactionView db fence ≠
        .error (.repositoryInvariantError message)) ∧
      ∀ fence row, Claimed db fence row →
        ∃ view, readCompactionView db fence = .ok view ∧
          ∀ (calls : List Call) fence' row',
            Claimed (calls.foldl repository.next db) fence' row' →
            fence'.jobId = fence.jobId → fence'.leaseEpoch = fence.leaseEpoch →
            readCompactionView (calls.foldl repository.next db) fence' = .ok view := by
  have hsound := sound_of_reachable h
  have hread := readSound_of_reachable h
  refine ⟨?_, ?_, ?_, ?_, ?_⟩
  · intro faults sessionKey message heq
    rcases readRequestView_cases hsound hread faults sessionKey with
      ⟨_, -, hresult⟩ | ⟨_, -, hresult⟩ | ⟨_, hresult, -⟩ <;>
    · rw [hresult] at heq
      cases heq
  · intro faults sessionKey view heq
    rcases readRequestView_cases hsound hread faults sessionKey with
      ⟨view', hcomplete, hresult⟩ | ⟨_, -, hresult⟩ | ⟨_, hresult, -⟩ <;> rw [hresult] at heq
    · obtain rfl := Except.ok.inj heq
      exact hcomplete
    · cases heq
    · cases heq
  · intro sessionKey hidentity
    rcases readRequestView_cases hsound hread .none sessionKey with
      ⟨view, -, hok⟩ | ⟨_, hfault, -⟩ | ⟨_, -, session, hsession, hhash, hother⟩
    · exact ⟨view, hok⟩
    · cases hfault
    · exact absurd (hidentity session hsession hhash) hother
  · intro fence message heq
    by_cases hclaimed : ∃ row, Claimed db fence row
    · obtain ⟨row, hclaimed⟩ := hclaimed
      obtain ⟨view, hok, -⟩ := hclaimed.view_frozen h
      rw [hok] at heq
      cases heq
    · obtain ⟨_, hstale | htransition⟩ := readCompactionView_unclaimed hclaimed
      · rw [hstale] at heq
        cases heq
      · rw [htransition] at heq
        cases heq
  · exact fun fence row hclaimed => hclaimed.view_frozen h

end Runs

namespace Sample

/-- An event is captured, a worker compiles the job for it, and another event arrives. -/
def compiling : List Call :=
  message "e1" :: (preparation "job1" 1 "one").take 3 ++ [message "e2"]

end Sample

open Sample in
/-- The worker of the sample reads the first event, and a request view reads both. -/
theorem read_views_consistent_sample :
    ((readCompactionView (repository.execute compiling) ⟨"job1", "worker", 1, 3⟩).toOption.map
        fun view => view.delta.map fun event => event.eventId) = some ["e1"] ∧
      ∃ view, readRequestView .none (repository.execute compiling) session = .ok view ∧
        ViewComplete (repository.execute compiling) session view := by
  obtain ⟨-, hcomplete, htotal, -, -⟩ :=
    read_views_consistent (repository.reachable_execute compiling)
  have hidentity : ∀ row ∈ (repository.execute compiling).sessions,
      row.sessionKeyHash = session.sessionKeyHash → row.sessionKey = session := by
    decide +kernel
  obtain ⟨view, hview⟩ := htotal session hidentity
  exact ⟨by decide +kernel, view, hview, hcomplete .none session view hview⟩

end AstrContinuum
