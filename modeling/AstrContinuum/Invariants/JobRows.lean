import AstrContinuum.Invariants.Jobs

/-!
# What happens to a job row

`JobChange` lists what a committed call can do to one row of `compaction_jobs`, and
`Effect.jobChanges` proves the list complete: every row after a call is an old row changed this way,
or a new pending job. The remaining invariants of job rows are read off it. Only a lease moves the
base and the target of a job, and a lease takes a new epoch; so both are frozen while a claim lasts.
-/

namespace AstrContinuum

open Checked Relational Transactional

variable [Hashlib]

/-- What a committed call did to one job row. -/
inductive JobChange (db : Database) : JobRow → JobRow → Prop
  | kept (row : JobRow) : JobChange db row row
  | folded {row : JobRow} {target : Nat} (now : Timestamp)
      (hintent : row.intentTargetHighWaterMark < target)
      (hmark : target ≤ db.highWaterMark row.sessionKeyHash) :
      JobChange db row (row.foldIntent target now)
  | leased {row : JobRow} {base : ActiveBase} {now : Timestamp} (worker : String)
      (leaseExpiresAt : Timestamp) (heligible : row.isEligible now = true)
      (hbase : (base.snapshotId, base.pointerVersion) = db.pointer row.sessionKeyHash) :
      JobChange db row (row.lease base worker leaseExpiresAt now)
  | transitioned {row : JobRow} {toState : CompactionJobState}
      (candidateSnapshotId : Option String) (now : Timestamp)
      (hworking : row.state.isWorking = true)
      (hallowed : row.state.allowedWorkerTransition toState = true) :
      JobChange db row (row.transition toState candidateSnapshotId now)
  | renewed {row : JobRow} (leaseExpiresAt now : Timestamp)
      (hworking : row.state.isWorking = true) : JobChange db row (row.renew leaseExpiresAt now)
  | failed {row : JobRow} (failure : JobFailure) (now : Timestamp)
      (hworking : row.state.isWorking = true) : JobChange db row (row.fail failure now)
  | recovered {row : JobRow} (now : Timestamp) (hworking : row.state.isWorking = true) :
      JobChange db row (row.recover now)
  | finished {row : JobRow} (outcome : PublishOutcome) (now : Timestamp)
      (hready : row.state = .readyToCommit) : JobChange db row (row.finish outcome now)

/-- A new job: pending, for events that are stored. -/
def NewJob (db : Database) (row : JobRow) : Prop :=
  ∃ jobId hash target baseSnapshotId basePointerVersion now,
    row = .pending jobId hash target baseSnapshotId basePointerVersion now ∧
      target ≤ db.highWaterMark hash

/-- The job rows after a call: the old ones, each changed in one of the listed ways, and new jobs. -/
structure JobsChanged (db : Database) (rows : List JobRow) : Prop where
  forward : ∀ row ∈ db.compactionJobs, ∃ row' ∈ rows, JobChange db row row'
  backward : ∀ row' ∈ rows, (∃ row ∈ db.compactionJobs, JobChange db row row') ∨ NewJob db row'

namespace JobsChanged

variable {db : Database}

omit [Hashlib] in
/-- No job changed. -/
theorem refl : JobsChanged db db.compactionJobs where
  forward row hrow := ⟨row, hrow, .kept row⟩
  backward row hrow := .inl ⟨row, hrow, .kept row⟩

omit [Hashlib] in
/-- Some jobs were updated. -/
theorem update {selected : JobRow → Bool} {change : JobRow → JobRow}
    (h : ∀ row ∈ db.compactionJobs, selected row = true → JobChange db row (change row)) :
    JobsChanged db (update selected change db.compactionJobs) where
  forward row hrow := by
    cases hselected : selected row with
    | true => exact ⟨_, mem_update.mpr (.inl ⟨row, hrow, hselected, rfl⟩), h row hrow hselected⟩
    | false => exact ⟨row, mem_update.mpr (.inr ⟨hrow, hselected⟩), .kept row⟩
  backward row' hrow' := by
    rcases mem_update.mp hrow' with ⟨row, hrow, hselected, rfl⟩ | ⟨hrow, -⟩
    · exact .inl ⟨row, hrow, h row hrow hselected⟩
    · exact .inl ⟨row', hrow, .kept row'⟩

omit [Hashlib] in
/-- One job was updated. -/
theorem update_one {row : JobRow} (hrow : row ∈ db.compactionJobs) {change : JobRow → JobRow}
    (h : JobChange db row (change row)) :
    JobsChanged db
      (Relational.update (fun other => other.jobId = row.jobId) change db.compactionJobs) := by
  refine .update fun other hother hselected => ?_
  obtain rfl := db.consistent.compactionJobs.primaryKey.eq_of_key hother hrow
    (by simpa using hselected)
  exact h

omit [Hashlib] in
/-- Jobs were added. -/
theorem append {rows added : List JobRow} (h : JobsChanged db rows)
    (hadded : ∀ row ∈ added, NewJob db row) : JobsChanged db (rows ++ added) where
  forward row hrow := by
    obtain ⟨row', hrow', hchange⟩ := h.forward row hrow
    exact ⟨row', List.mem_append_left _ hrow', hchange⟩
  backward row' hrow' := by
    rcases List.mem_append.mp hrow' with hrow' | hrow'
    · exact h.backward row' hrow'
    · exact .inr (hadded row' hrow')

/-- An admitted publication settled its job. -/
theorem settled (hsound : JobSound db) {request : PublishRequest} {admission : Admission}
    {row : JobRow} (hadmits : Admits db request admission row) (outcome : PublishOutcome)
    (winnerId : String) (coverage version : Nat) (now : Timestamp) :
    JobsChanged db
      (settledJobs outcome row winnerId coverage version now db.compactionJobs) := by
  obtain ⟨hrow, -⟩ := Database.jobRow_eq_some.mp hadmits.stored
  refine (update_one hrow (.finished outcome now hadmits.ready)).append ?_
  intro other hother
  unfold followUpJobs at hother
  split at hother
  · cases hother
  · obtain rfl := List.mem_singleton.mp hother
    exact ⟨_, _, _, _, _, _, rfl, (hsound row hrow (by rw [hadmits.ready]; rfl)).mark⟩

end JobsChanged

/-- A committed call changed the job rows only in the listed ways. -/
theorem Effect.jobChanges {db db' : Database} {operation : Operation} {response : Response}
    (h : Effect db operation db' response) (hsound : JobSound db) :
    JobsChanged db db'.compactionJobs := by
  cases h with
  | captured _ heffect =>
      cases heffect with
      | replayed _ hold | appended _ _ _ _ _ _ hold =>
          rw [hold.compactionJobs]
          exact .refl
  | sidecar _ hholds =>
      rw [hholds.compactionJobs]
      exact .refl
  | intentCovered | intentCarried | claimedNone | viewed => exact .refl
  | intentFolded hrow hsession _ hintent hmark htables =>
      rw [(Database.Holds.of_eq htables).compactionJobs]
      exact .update_one hrow (.folded _ hintent (hsession ▸ hmark))
  | intentQueued _ _ hmark htables =>
      rw [(Database.Holds.of_eq htables).compactionJobs]
      refine JobsChanged.refl.append fun row hrow => ?_
      obtain rfl := List.mem_singleton.mp hrow
      exact ⟨_, _, _, _, _, _, rfl, hmark⟩
  | claimed hrow heligible hbase htables =>
      rw [(Database.Holds.of_eq htables).compactionJobs]
      exact .update_one hrow (.leased _ _ heligible hbase)
  | transitioned hrow hfenced hallowed htables =>
      rw [(Database.Holds.of_eq htables).compactionJobs]
      exact .update_one (Database.jobRow_eq_some.mp hrow).1
        (.transitioned _ _ hfenced.1 hallowed)
  | renewed hrow hfenced htables =>
      rw [(Database.Holds.of_eq htables).compactionJobs]
      exact .update_one (Database.jobRow_eq_some.mp hrow).1 (.renewed _ _ hfenced.1)
  | failed hrow hfenced htables =>
      rw [(Database.Holds.of_eq htables).compactionJobs]
      exact .update_one (Database.jobRow_eq_some.mp hrow).1 (.failed _ _ hfenced.1)
  | recovered htables =>
      rw [(Database.Holds.of_eq htables).compactionJobs]
      exact .update fun row _ hexpired => .recovered _ (Bool.and_eq_true_iff.mp hexpired).1
  | superseded hadmits _ _ _ _ htables | committed hadmits _ _ _ htables =>
      rw [(Database.Holds.of_eq htables).compactionJobs]
      exact .settled hsound hadmits _ _ _ _ _

/-! ## What a change keeps -/

namespace JobChange

variable {db : Database} {row row' : JobRow} (h : JobChange db row row')
include h

omit [Hashlib] in
/-- No job changes its id or its session. -/
theorem identity : row'.jobId = row.jobId ∧ row'.sessionKeyHash = row.sessionKeyHash := by
  cases h <;> exact ⟨rfl, rfl⟩

omit [Hashlib] in
/-- Base and target are frozen until the next lease, and every lease takes a new epoch. -/
theorem frozen : row.leaseEpoch < row'.leaseEpoch ∨
    (row'.leaseEpoch = row.leaseEpoch ∧ row'.targetHighWaterMark = row.targetHighWaterMark ∧
      row'.baseSnapshotId = row.baseSnapshotId ∧
      row'.basePointerVersion = row.basePointerVersion) := by
  cases h with
  | leased => exact .inl (Nat.lt_succ_self _)
  | _ => exact .inr ⟨rfl, rfl, rfl, rfl⟩

omit [Hashlib] in
/-- No intent goes back, and none passes the end of the journal. -/
theorem intent : row.intentTargetHighWaterMark ≤ row'.intentTargetHighWaterMark ∧
    (row'.intentTargetHighWaterMark = row.intentTargetHighWaterMark ∨
      row'.intentTargetHighWaterMark ≤ db.highWaterMark row.sessionKeyHash) := by
  cases h with
  | folded now hintent hmark => exact ⟨hintent.le, .inr hmark⟩
  | _ => exact ⟨le_rfl, .inl rfl⟩

omit [Hashlib] in
/-- The target is kept, or a lease set it to the intent. -/
theorem target : (row'.targetHighWaterMark = row.targetHighWaterMark ∧
      row'.baseSnapshotId = row.baseSnapshotId ∧
      row'.basePointerVersion = row.basePointerVersion) ∨
    row'.targetHighWaterMark = row'.intentTargetHighWaterMark := by
  cases h with
  | leased => exact .inr rfl
  | _ => exact .inl ⟨rfl, rfl, rfl⟩

omit [Hashlib] in
/-- A job that is worked on was worked on before, or was just leased. -/
theorem attempts (hworking : row'.state.isWorking = true) :
    (row.state.isWorking = true ∧ row'.attemptCount = row.attemptCount) ∨
      row'.attemptCount = row.attemptCount + 1 := by
  cases h with
  | kept | folded => exact .inl ⟨hworking, rfl⟩
  | leased => exact .inr rfl
  | transitioned _ _ hbefore | renewed _ _ hbefore => exact .inl ⟨hbefore, rfl⟩
  | failed failure =>
      cases hretry : failure.retryAt <;> simp only [JobRow.fail, hretry] at hworking <;>
        cases hworking
  | recovered => cases hworking
  | finished outcome => cases outcome <;> cases hworking

omit [Hashlib] in
/-- No terminal job comes back. -/
theorem nonterminal (hstate : row'.state.isNonterminal = true) :
    row.state.isNonterminal = true := by
  cases h with
  | kept | folded => exact hstate
  | leased _ _ heligible => exact JobRow.isNonterminal_of_isEligible heligible
  | transitioned _ _ hbefore | renewed _ _ hbefore | failed _ _ hbefore | recovered _ hbefore =>
      exact CompactionJobState.isNonterminal_of_isWorking hbefore
  | finished _ _ hready => exact by rw [hready]; rfl

end JobChange

/-- A later row of the same job: it has a larger epoch, or the same claim with its frozen base and
target. -/
structure JobLater (row row' : JobRow) : Prop where
  jobId : row'.jobId = row.jobId
  session : row'.sessionKeyHash = row.sessionKeyHash
  frozen : row.leaseEpoch < row'.leaseEpoch ∨
    (row'.leaseEpoch = row.leaseEpoch ∧ row'.targetHighWaterMark = row.targetHighWaterMark ∧
      row'.baseSnapshotId = row.baseSnapshotId ∧
      row'.basePointerVersion = row.basePointerVersion)

omit [Hashlib] in
/-- A change leads to a later row. -/
theorem JobChange.later {db : Database} {row row' : JobRow} (h : JobChange db row row') :
    JobLater row row' :=
  ⟨h.identity.1, h.identity.2, h.frozen⟩

omit [Hashlib] in
/-- Later rows compose. -/
theorem JobLater.trans {row row' row'' : JobRow} (h : JobLater row row')
    (h' : JobLater row' row'') : JobLater row row'' := by
  refine ⟨h'.jobId.trans h.jobId, h'.session.trans h.session, ?_⟩
  rcases h.frozen with hlt | ⟨hepoch, htarget, hbase, hversion⟩
  · rcases h'.frozen with hlt' | ⟨hepoch', -⟩ <;> exact .inl (by omega)
  · rcases h'.frozen with hlt' | ⟨hepoch', htarget', hbase', hversion'⟩
    · exact .inl (by omega)
    · exact .inr ⟨hepoch'.trans hepoch, htarget'.trans htarget, hbase'.trans hbase,
        hversion'.trans hversion⟩

/-! ## The invariant -/

/-- What every job row satisfies besides the constraints of its table. -/
structure JobRow.Sound (row : JobRow) (db : Database) : Prop where
  mark : row.intentTargetHighWaterMark ≤ db.highWaterMark row.sessionKeyHash
  target : row.state.isNonterminal = true →
    db.coverage row.sessionKeyHash < row.targetHighWaterMark
  attempts : row.state.isWorking = true → 1 ≤ row.attemptCount

omit [Hashlib] in
/-- The coverage of a session moves only with its pointer. -/
theorem Grows.coverage_eq {db db' : Database} (h : Grows db db') {hash : String}
    (hpointer : db'.pointer hash = db.pointer hash) : db'.coverage hash = db.coverage hash := by
  obtain ⟨added, hadded⟩ := h.snapshots
  unfold Database.pointer at hpointer
  unfold Database.coverage
  cases hactive : db.activeRow hash with
  | none =>
      cases hactive' : db'.activeRow hash with
      | none => rfl
      | some active' => simp [hactive, hactive'] at hpointer
  | some active =>
      cases hactive' : db'.activeRow hash with
      | none => simp [hactive, hactive'] at hpointer
      | some active' =>
          simp only [hactive, hactive', Prod.mk.injEq, Option.some.injEq] at hpointer
          obtain ⟨snapshot, hsnapshot⟩ := Database.exists_snapshotRow_of_active
            (Database.activeRow_eq_some.mp hactive).1
          have hsnapshot' : db'.snapshotRow active'.snapshotId = some snapshot := by
            rw [hpointer.1]
            obtain ⟨hmem, hid⟩ := Database.snapshotRow_eq_some.mp hsnapshot
            exact Database.snapshotRow_eq_some.mpr
              ⟨by rw [hadded]; exact List.mem_append_left _ hmem, hid⟩
          simp [hsnapshot, hsnapshot']

/-- Every job row is sound. -/
def JobRowsSound (db : Database) : Prop :=
  ∀ row ∈ db.compactionJobs, row.Sound db

/-- Every committed call keeps job rows sound. -/
theorem Effect.jobRowsSound {db db' : Database} {operation : Operation} {response : Response}
    (h : Effect db operation db' response) (hsound : AstrContinuum.Sound db)
    (hrows : JobRowsSound db) : JobRowsSound db' := by
  have hgrows := h.grows
  have hjobs := h.jobSound hsound.chain hsound.jobs
  intro row' hrow'
  rcases (h.jobChanges hsound.jobs).backward row' hrow' with
    ⟨row, hrow, hchange⟩ | ⟨jobId, hash, target, baseSnapshotId, version, now, rfl, hmark⟩
  · have hold := hrows row hrow
    obtain ⟨-, hsession⟩ := hchange.identity
    refine ⟨?_, ?_, ?_⟩
    · rw [hsession]
      rcases hchange.intent.2 with hsame | hmark
      · rw [hsame]
        exact hold.mark.trans (hgrows.highWaterMark_le _)
      · exact hmark.trans (hgrows.highWaterMark_le _)
    · intro hstate
      have hbased := hjobs row' hrow' hstate
      rcases hchange.target with ⟨htarget, hbase, hversion⟩ | htarget
      · -- The base is kept, so the pointer of the session is still where it was.
        have hbefore := hchange.nonterminal hstate
        have hpointer := (hsound.jobs row hrow hbefore).pointer
        have hpointer' := hbased.pointer
        rw [hbase, hversion, hsession, hpointer] at hpointer'
        rw [hsession, htarget, hgrows.coverage_eq hpointer'.symm]
        exact hold.target hbefore
      · rw [htarget]
        exact hbased.intent
    · intro hworking
      rcases hchange.attempts hworking with ⟨hbefore, hsame⟩ | hone
      · rw [hsame]
        exact hold.attempts hbefore
      · omega
  · refine ⟨hmark.trans (hgrows.highWaterMark_le _), ?_, fun hworking => by cases hworking⟩
    intro hstate
    exact (hjobs _ hrow' hstate).intent

variable [SecureCodec]

/-- Any calls: the history grows, and every job keeps a later row. -/
theorem foldl_later {db : Database} (h : repository.Reachable db) (calls : List Call) :
    repository.Reachable (calls.foldl repository.next db) ∧
      Grows db (calls.foldl repository.next db) ∧
      ∀ row ∈ db.compactionJobs, ∃ row' ∈ (calls.foldl repository.next db).compactionJobs,
        JobLater row row' := by
  refine System.Reachable.foldl repository (P := fun _ => True)
    (R := fun db db' => Grows db db' ∧
      ∀ row ∈ db.compactionJobs, ∃ row' ∈ db'.compactionJobs, JobLater row row')
    ?_ ?_ ?_ h fun _ _ => trivial
  · exact fun db => ⟨.refl db, fun row hrow =>
      ⟨row, hrow, ⟨rfl, rfl, .inr ⟨rfl, rfl, rfl, rfl⟩⟩⟩⟩
  · rintro db₁ db₂ db₃ ⟨hgrows, hrows⟩ ⟨hgrows', hrows'⟩
    refine ⟨hgrows.trans hgrows', fun row hrow => ?_⟩
    obtain ⟨row₁, hrow₁, hlater⟩ := hrows row hrow
    obtain ⟨row₂, hrow₂, hlater'⟩ := hrows' row₁ hrow₁
    exact ⟨row₂, hrow₂, hlater.trans hlater'⟩
  · intro db call db' response h _ hok
    have hsound := sound_of_reachable h
    have heffect := hsound.effect hok
    refine ⟨heffect.grows, fun row hrow => ?_⟩
    obtain ⟨row', hrow', hchange⟩ := (heffect.jobChanges hsound.jobs).forward row hrow
    exact ⟨row', hrow', hchange.later⟩

/-- In every reachable state every job row is sound. -/
theorem jobRowsSound_of_reachable {db : Database} (h : repository.Reachable db) :
    JobRowsSound db := by
  suffices hboth : Sound db ∧ JobRowsSound db from hboth.2
  refine System.reachable_invariant repository (P := fun db => Sound db ∧ JobRowsSound db)
    ⟨sound_empty, by simp [JobRowsSound, repository, Database.empty]⟩ ?_ h
  intro db call db' response hsound hstep
  exact ⟨hsound.1.step hstep, (hsound.1.effect hstep).jobRowsSound hsound.1 hsound.2⟩

end AstrContinuum
