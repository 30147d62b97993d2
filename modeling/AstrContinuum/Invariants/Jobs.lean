import AstrContinuum.Invariants.Chain

/-!
# Compaction jobs

Every nonterminal job is based on the active snapshot of its session, and its intent lies between
the coverage of that snapshot and the end of the journal. `Effect.jobSound` shows that every
committed call keeps this, and `sound_of_reachable` collects the three invariants of the repository
for every reachable state.
-/

namespace AstrContinuum

open Checked Relational Transactional

variable [Hashlib]

/-- A job is based on the active snapshot of its session and still has events to compact. -/
structure JobRow.Based (row : JobRow) (db : Database) : Prop where
  pointer : (row.baseSnapshotId, row.basePointerVersion) = db.pointer row.sessionKeyHash
  intent : db.coverage row.sessionKeyHash < row.intentTargetHighWaterMark
  mark : row.intentTargetHighWaterMark ≤ db.highWaterMark row.sessionKeyHash

/-- The job invariant. -/
def JobSound (db : Database) : Prop :=
  ∀ row ∈ db.compactionJobs, row.state.isNonterminal = true → row.Based db

omit [Hashlib] in
/-- A based job has an open intent. -/
theorem JobSound.intentsOpen {db : Database} (h : JobSound db) : IntentsOpen db :=
  fun row hrow hstate => (h row hrow hstate).intent

omit [Hashlib] in
/-- A call that moves no pointer keeps based jobs based. -/
theorem JobRow.Based.of_grows {db db' : Database} {row : JobRow} (h : row.Based db)
    (hgrows : Grows db db') (hsnapshots : db'.snapshots = db.snapshots)
    (hactive : db'.activeSnapshots = db.activeSnapshots) : row.Based db' where
  pointer := by
    simpa only [Database.pointer, Database.activeRow, hactive] using h.pointer
  intent := by
    simpa only [Database.coverage, Database.activeRow, Database.snapshotRow, hactive, hsnapshots]
      using h.intent
  mark := h.mark.trans (hgrows.highWaterMark_le _)

omit [Hashlib] in
/-- A call that moves no pointer and leaves only based jobs keeps the job invariant. -/
theorem JobSound.of_rows {db db' : Database} (hgrows : Grows db db')
    (hsnapshots : db'.snapshots = db.snapshots)
    (hactive : db'.activeSnapshots = db.activeSnapshots) {rows : List JobRow}
    (hjobs : db'.compactionJobs = rows)
    (hrows : ∀ row ∈ rows, row.state.isNonterminal = true → row.Based db) : JobSound db' := by
  intro row hrow hstate
  rw [hjobs] at hrow
  exact (hrows row hrow hstate).of_grows hgrows hsnapshots hactive

omit [Hashlib] in
/-- An update of nonterminal jobs that keeps them based leaves only based jobs. -/
theorem JobSound.update {db : Database} (h : JobSound db) {selected : JobRow → Bool}
    {change : JobRow → JobRow}
    (hchange : ∀ row ∈ db.compactionJobs, selected row = true →
      (change row).state.isNonterminal = true → (change row).Based db) :
    ∀ row ∈ update selected change db.compactionJobs,
      row.state.isNonterminal = true → row.Based db := by
  intro row hrow hstate
  rcases mem_update.mp hrow with ⟨old, hold, hselected, rfl⟩ | ⟨hold, -⟩
  · exact hchange old hold hselected hstate
  · exact h row hold hstate

omit [Hashlib] in
/-- An update of one nonterminal job that keeps it based leaves only based jobs. -/
theorem JobSound.update_one {db : Database} (h : JobSound db) {row : JobRow}
    (hrow : row ∈ db.compactionJobs) (hstate : row.state.isNonterminal = true)
    {change : JobRow → JobRow} (hchange : row.Based db → (change row).Based db) :
    ∀ other ∈ Relational.update (fun other => other.jobId = row.jobId) change db.compactionJobs,
      other.state.isNonterminal = true → other.Based db := by
  refine h.update fun other hother hselected _ => ?_
  have hid : other.jobId = row.jobId := by simpa using hselected
  obtain rfl := db.consistent.compactionJobs.primaryKey.eq_of_key hother hrow hid
  exact hchange (h other hother hstate)

/-- The job invariant after a settlement: the settled job is terminal, and its follow-up is based on
the winner. -/
theorem JobSound.settled {db db' : Database} {request : PublishRequest} {admission : Admission}
    {row : JobRow} {outcome : PublishOutcome} {winnerId : String} {coverage version : Nat}
    (h : JobSound db) (hadmits : Admits db request admission row)
    (hjobs : db'.compactionJobs =
      settledJobs outcome row winnerId coverage version request.fence.now db.compactionJobs)
    (hothers : ∀ other : JobRow, other.sessionKeyHash ≠ row.sessionKeyHash →
      other.Based db → other.Based db')
    (hpointer : db'.pointer row.sessionKeyHash = (some winnerId, version))
    (hcoverage : db'.coverage row.sessionKeyHash = coverage)
    (hmark : db.highWaterMark row.sessionKeyHash ≤ db'.highWaterMark row.sessionKeyHash) :
    JobSound db' := by
  have hrow : row ∈ db.compactionJobs := (Database.jobRow_eq_some.mp hadmits.stored).1
  have hready : row.state.isNonterminal = true := by rw [hadmits.ready]; rfl
  intro other hother hstate
  rw [hjobs] at hother
  rcases List.mem_append.mp hother with hother | hother
  · rcases mem_update.mp hother with ⟨old, -, -, rfl⟩ | ⟨hold, hid⟩
    · cases outcome <;> cases hstate
    · -- Any other nonterminal job belongs to another session.
      refine hothers other ?_ (h other hold hstate)
      intro hsession
      have hsame := Database.nonterminal_unique hold hrow hstate hready hsession
      simp [hsame] at hid
  · unfold followUpJobs at hother
    split at hother
    · cases hother
    · next hopen =>
        obtain rfl := List.mem_singleton.mp hother
        refine ⟨hpointer.symm, ?_, (h row hrow hready).mark.trans hmark⟩
        show db'.coverage row.sessionKeyHash < row.intentTargetHighWaterMark
        omega

/-- A commit moves the coverage of its session to that of the candidate. -/
theorem ChainSound.coverage_committed {db db' : Database} {request : PublishRequest}
    {admission : Admission} {row : JobRow} (h : ChainSound db')
    (hadmits : Admits db request admission row)
    (hsnapshots : db'.snapshots = db.snapshots ++ [request.snapshotRow]) :
    db'.coverage row.sessionKeyHash = request.candidateSnapshot.coveredEventEnd := by
  rw [h.coverage_eq, hadmits.chain_eq hsnapshots, if_pos rfl, List.getLast?_concat]
  rfl

/-- Every committed call keeps the job invariant. -/
theorem Effect.jobSound {db db' : Database} {operation : Operation} {response : Response}
    (h : Effect db operation db' response) (hchain : ChainSound db) (hsound : JobSound db) :
    JobSound db' := by
  have hgrows := h.grows
  have hchain' := h.chainSound hchain fun row hrow hstate => (hsound row hrow hstate).mark
  cases h with
  | captured _ heffect =>
      cases heffect with
      | replayed _ hold | appended _ _ _ _ _ _ hold =>
          exact .of_rows hgrows hold.snapshots hold.activeSnapshots hold.compactionJobs hsound
  | sidecar _ hholds =>
      exact .of_rows hgrows hholds.snapshots hholds.activeSnapshots hholds.compactionJobs hsound
  | intentCovered | intentCarried | claimedNone | viewed => exact hsound
  | intentFolded hrow hsession hstate hintent hmark htables =>
      have hholds := Database.Holds.of_eq htables
      refine .of_rows hgrows hholds.snapshots hholds.activeSnapshots hholds.compactionJobs
        (hsound.update_one hrow hstate fun hbased => ⟨hbased.pointer, ?_, ?_⟩)
      · exact hbased.intent.trans hintent
      · exact hsession ▸ hmark
  | intentQueued hnone hcoverage hmark htables =>
      have hholds := Database.Holds.of_eq htables
      refine .of_rows hgrows hholds.snapshots hholds.activeSnapshots hholds.compactionJobs ?_
      intro row hrow hstate
      rcases List.mem_append.mp hrow with hrow | hrow
      · exact hsound row hrow hstate
      · obtain rfl := List.mem_singleton.mp hrow
        exact ⟨rfl, hcoverage, hmark⟩
  | claimed hrow heligible hbase htables =>
      have hholds := Database.Holds.of_eq htables
      refine .of_rows hgrows hholds.snapshots hholds.activeSnapshots hholds.compactionJobs
        (hsound.update_one hrow (JobRow.isNonterminal_of_isEligible heligible) ?_)
      exact fun hbased => ⟨hbase, hbased.intent, hbased.mark⟩
  | transitioned hrow hfenced _ htables | renewed hrow hfenced htables
  | failed hrow hfenced htables =>
      have hholds := Database.Holds.of_eq htables
      refine .of_rows hgrows hholds.snapshots hholds.activeSnapshots hholds.compactionJobs
        (hsound.update_one (Database.jobRow_eq_some.mp hrow).1
          (CompactionJobState.isNonterminal_of_isWorking hfenced.1) ?_)
      exact fun hbased => ⟨hbased.pointer, hbased.intent, hbased.mark⟩
  | recovered htables =>
      have hholds := Database.Holds.of_eq htables
      refine .of_rows hgrows hholds.snapshots hholds.activeSnapshots hholds.compactionJobs
        (hsound.update ?_)
      intro row hrow hexpired _
      have hworking : row.state.isWorking = true := (Bool.and_eq_true_iff.mp hexpired).1
      have hbased := hsound row hrow (CompactionJobState.isNonterminal_of_isWorking hworking)
      exact ⟨hbased.pointer, hbased.intent, hbased.mark⟩
  | superseded hadmits hactive hwinner _ _ htables =>
      have hholds := Database.Holds.of_eq htables
      have hid := (Database.snapshotRow_eq_some.mp hwinner).2
      have hactive' := hholds.activeRow_eq.trans hactive
      have hwinner' := hholds.snapshotRow_eq.trans hwinner
      refine hsound.settled hadmits hholds.compactionJobs
        (fun other _ hbased => hbased.of_grows hgrows hholds.snapshots hholds.activeSnapshots)
        ?_ ?_ (hgrows.highWaterMark_le _)
      · simp [Database.pointer, hactive', hid]
      · exact Database.coverage_of_active hactive' hwinner'
  | @committed request admission row staged _ _ hadmits hstaged _ _ htables =>
      have hholds := Database.Holds.of_eq htables
      have hsnapshots : db'.snapshots = db.snapshots ++ [request.snapshotRow] :=
        hholds.snapshots.trans (hadmits.snapshots_eq hstaged)
      have hchains := hadmits.chain_eq hsnapshots
      have hjobSession := hadmits.represents.session
      have hversion : admission.job.basePointerVersion = row.basePointerVersion := by
        rw [hadmits.represents.fields]
        rfl
      have hactive : ∀ hash, db'.activeRow hash = staged.activeRow hash :=
        fun hash => hholds.activeRow_eq
      refine hsound.settled hadmits hholds.compactionJobs ?_ ?_ ?_ (hgrows.highWaterMark_le _)
      · intro other hne hbased
        refine ⟨?_, ?_, hbased.mark.trans (hgrows.highWaterMark_le _)⟩
        · rw [hbased.pointer, Database.pointer, Database.pointer, hactive,
            hstaged.others _ (hjobSession.symm ▸ hne)]
        · rw [hchain'.coverage_eq, hchains, if_neg (Ne.symm hne), List.append_nil,
            ← hchain.coverage_eq]
          exact hbased.intent
      · have hpointer := hstaged.pointer
        rw [hjobSession, hversion, hadmits.committed] at hpointer
        rw [Database.pointer, hactive]
        exact hpointer
      · exact hchain'.coverage_committed hadmits hsnapshots

/-! ## Reachable states -/

/-- The invariants of the repository. -/
structure Sound (db : Database) : Prop where
  journal : JournalSound db
  chain : ChainSound db
  jobs : JobSound db

/-- A freshly migrated database satisfies the invariants. -/
theorem sound_empty : Sound .empty where
  journal := ⟨by simp [Database.empty], by simp [Database.empty]⟩
  chain := ⟨fun _ => trivial, fun _ => rfl⟩
  jobs := by simp [JobSound, Database.empty]

variable [SecureCodec]

/-- A committed call in a sound state did something that `Effect` lists. -/
theorem Sound.effect {db db' : Database} (h : Sound db) {call : Call} {response : Response}
    (hstep : step db call = .ok (db', response)) : Effect db call.operation db' response :=
  step_effect h.jobs.intentsOpen hstep

/-- Every committed call keeps the invariants. -/
theorem Sound.step {db db' : Database} (h : Sound db) {call : Call} {response : Response}
    (hstep : step db call = .ok (db', response)) : Sound db' := by
  have heffect := h.effect hstep
  exact ⟨heffect.journalSound h.journal,
    heffect.chainSound h.chain fun row hrow hstate => (h.jobs row hrow hstate).mark,
    heffect.jobSound h.chain h.jobs⟩

/-- Every reachable state satisfies the invariants. -/
theorem sound_of_reachable {db : Database} (h : repository.Reachable db) : Sound db :=
  System.reachable_invariant repository sound_empty
    (fun _ _ _ _ hsound hstep => hsound.step hstep) h

end AstrContinuum
