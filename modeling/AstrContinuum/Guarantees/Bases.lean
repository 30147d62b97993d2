import AstrContinuum.Guarantees.Linearity
import AstrContinuum.Settlement.Faults
import AstrContinuum.Settlement.Staging

/-!
# Jobs stay on the active snapshot

Every nonterminal job of a session carries the current pointer of the session as its base. Three
things follow: the compare-and-swap of a publication never fails, `claim_job` never meets a job
that is already covered, and a candidate is superseded only by what is stored under its ids, or by
a text that a table `CHECK` refuses. The main theorem is `jobs_track_pointer`.
-/

namespace AstrContinuum

open Checked Relational Transactional

section Tracking

variable [Hashlib] [SecureCodec]

/-- What can make a candidate lose: a capsule id is stored with other content, the snapshot id is
stored, or a capsule id or a slot is blank to SQLite. -/
def Superseding (db : Database) (request : PublishRequest) : Prop :=
  (∃ membership ∈ request.memberships, ∃ row ∈ db.capsules,
      row.capsuleId = membership.capsuleId ∧ row ≠ membership.capsule.row) ∨
    request.candidateSnapshot.snapshotId ∈ db.snapshotIds ∨
    ∃ membership ∈ request.memberships,
      trimNonEmpty membership.capsuleId = false ∨ trimNonEmpty membership.slot = false

/-- What holds when every nonterminal job is based on the active snapshot of its session. -/
structure TracksPointer (db : Database) : Prop where
  /-- The base of a nonterminal job is the pointer of its session. -/
  base : ∀ row ∈ db.compactionJobs, row.state.isNonterminal = true →
    (row.baseSnapshotId, row.basePointerVersion) = db.pointer row.sessionKeyHash
  /-- A publication that reaches the compare-and-swap moves the pointer. -/
  swap : ∀ faults request admission staged, admitCandidate db request = .ok admission →
    stageRows faults db request admission.committed admission.records = .ok (some staged) →
    ∃ moved, casActivePointer staged admission.job admission.committed.snapshotId
      request.fence.now = .ok (moved, true)
  /-- The job that `claim_job` considers is not covered by the active snapshot. -/
  intent : ∀ now row base, firstEligible db now = some row →
    activeBase db row.sessionKeyHash = .ok base → base.coverage < row.intentTargetHighWaterMark
  /-- The loop of `claim_job` does not go round a second time. -/
  claim : ∀ faults worker now leaseExpiresAt fuel,
    claimLoop faults worker now leaseExpiresAt (fuel + 1) db =
      claimLoop faults worker now leaseExpiresAt 1 db
  /-- No job was ever cancelled. -/
  cancelled : ∀ row ∈ db.compactionJobs, row.state ≠ .cancelled
  /-- A candidate loses only to stored ids or to a `CHECK`. -/
  superseded : ∀ faults request db' result, publishSnapshot faults db request = .ok (db', result) →
    result.outcome = .superseded → Superseding db request

/-! ## Claims -/

omit [Hashlib] [SecureCodec] in
/-- The first eligible job is a stored eligible job. -/
theorem firstEligible_mem {db : Database} {now : Timestamp} {row : JobRow}
    (h : firstEligible db now = some row) :
    row ∈ db.compactionJobs ∧ row.isEligible now = true :=
  List.mem_filter.mp (mem_orderBy.mp (List.mem_of_mem_head? h))

omit [Hashlib] [SecureCodec] in
/-- Under open intents the first eligible job is not covered. -/
theorem IntentsOpen.not_covered {db : Database} (h : IntentsOpen db) {now : Timestamp}
    {row : JobRow} {base : ActiveBase} (hfirst : firstEligible db now = some row)
    (hbase : activeBase db row.sessionKeyHash = .ok base) :
    base.coverage < row.intentTargetHighWaterMark := by
  obtain ⟨hrow, heligible⟩ := firstEligible_mem hfirst
  rw [(activeBase_ok hbase).2]
  exact h row hrow (JobRow.isNonterminal_of_isEligible heligible)

omit [SecureCodec] in
/-- Under open intents one iteration of `claim_job` decides. -/
theorem IntentsOpen.claimLoop_eq {db : Database} (h : IntentsOpen db) (faults : FaultInjector)
    (worker : String) (now leaseExpiresAt : Timestamp) (fuel : Nat) :
    claimLoop faults worker now leaseExpiresAt (fuel + 1) db =
      claimLoop faults worker now leaseExpiresAt 1 db := by
  unfold claimLoop
  cases hfirst : firstEligible db now with
  | none => rfl
  | some row =>
      obtain ⟨hrow, heligible⟩ := firstEligible_mem hfirst
      dsimp only
      cases hbase : activeBase db row.sessionKeyHash with
      | error failure => rfl
      | ok base =>
          have hopen := h.not_covered hfirst hbase
          simp only [bind, Except.bind, if_neg (Nat.not_le.mpr hopen)]
          cases hupdate : updateJobs db
              (fun other => decide (other.jobId = row.jobId) && other.isEligible now)
              (JobRow.lease base worker leaseExpiresAt now) with
          | error failure => rfl
          | ok result =>
              obtain ⟨db', rowcount⟩ := result
              -- The `WHERE` clause selects the row that was just read, so the lease is taken.
              obtain ⟨-, rfl⟩ := updateJobs_one hrow (by simp [heligible])
                (by simp +contextual) hupdate
              rfl

/-! ## Cancellation -/

omit [SecureCodec] in
/-- No committed call cancels a job. -/
theorem Effect.not_cancelled {db db' : Database} {operation : Operation} {response : Response}
    (h : Effect db operation db' response)
    (hold : ∀ row ∈ db.compactionJobs, row.state ≠ .cancelled) :
    ∀ row ∈ db'.compactionJobs, row.state ≠ .cancelled := by
  have hsettled : ∀ (outcome : PublishOutcome) (row : JobRow) (winnerId : String)
      (coverage version : Nat) (now : Timestamp),
      ∀ other ∈ settledJobs outcome row winnerId coverage version now db.compactionJobs,
        other.state ≠ .cancelled := by
    intro outcome row winnerId coverage version now other hother
    rcases List.mem_append.mp hother with hother | hother
    · refine forall_update hold (fun old _ _ => ?_) other hother
      cases outcome <;> exact nofun
    · unfold followUpJobs at hother
      split at hother
      · cases hother
      · obtain rfl := List.mem_singleton.mp hother
        exact nofun
  cases h with
  | captured _ heffect =>
      cases heffect with
      | replayed _ hholds | appended _ _ _ _ _ _ hholds =>
          rw [hholds.compactionJobs]
          exact hold
  | sidecar _ hholds =>
      rw [hholds.compactionJobs]
      exact hold
  | intentCovered | intentCarried | claimedNone | viewed => exact hold
  | intentFolded _ _ _ _ _ htables | renewed _ _ htables =>
      rw [congrArg Tables.compactionJobs htables]
      exact forall_update hold fun _ _ hstate => hstate
  | intentQueued _ _ _ htables =>
      rw [congrArg Tables.compactionJobs htables]
      exact forall_append_singleton hold nofun
  | claimed _ _ _ htables | recovered htables =>
      rw [congrArg Tables.compactionJobs htables]
      exact forall_update hold fun _ _ _ => nofun
  | @transitioned _ toState _ _ _ _ _ _ hallowed htables =>
      rw [congrArg Tables.compactionJobs htables]
      refine forall_update hold fun row _ _ hstate => ?_
      have hworking := CompactionJobState.allowed_worker_transition_working hallowed
      have hcancelled : toState = .cancelled := hstate
      rw [hcancelled] at hworking
      cases hworking
  | failed _ _ htables =>
      rw [congrArg Tables.compactionJobs htables]
      refine forall_update hold fun row _ _ => ?_
      unfold JobRow.fail
      dsimp only
      split <;> exact nofun
  | committed _ _ _ _ htables | superseded _ _ _ _ _ htables =>
      rw [congrArg Tables.compactionJobs htables]
      exact hsettled _ _ _ _ _ _

/-- No reachable state holds a cancelled job. -/
theorem not_cancelled_of_reachable {db : Database} (h : repository.Reachable db) :
    ∀ row ∈ db.compactionJobs, row.state ≠ .cancelled := by
  have hboth : Sound db ∧ ∀ row ∈ db.compactionJobs, row.state ≠ .cancelled := by
    refine System.reachable_invariant repository (P := fun db => Sound db ∧
      ∀ row ∈ db.compactionJobs, row.state ≠ .cancelled) ⟨sound_empty, by simp [repository,
        Database.empty]⟩ ?_ h
    intro state call state' response hstate hstep
    exact ⟨hstate.1.step hstep, (hstate.1.effect hstep).not_cancelled hstate.2⟩
  exact hboth.2

/-! ## Conflicts -/

/-- A conflict of the candidate comes from a stored id or from a blank text. -/
theorem superseding_of_conflict {db : Database} {request : PublishRequest}
    (h : stagingObstacle db request = some .conflict) : Superseding db request := by
  unfold stagingObstacle at h
  rcases Option.or_eq_some_iff.mp h with hcapsule | ⟨-, h⟩
  · obtain ⟨membership, hmembership, hobstacle⟩ := List.exists_of_findSome?_eq_some hcapsule
    unfold capsuleObstacle at hobstacle
    split at hobstacle
    · next row hrow =>
        obtain ⟨hmem, hid⟩ := Database.capsuleRow_eq_some.mp hrow
        split at hobstacle
        · cases hobstacle
        · next hother => exact .inl ⟨membership, hmembership, row, hmem, hid, hother⟩
    · split at hobstacle
      · split at hobstacle
        · cases hobstacle
        · next hblank =>
            exact .inr (.inr ⟨membership, hmembership, .inl (by simpa using hblank)⟩)
      · cases hobstacle
  rcases Option.or_eq_some_iff.mp h with hsnapshot | ⟨-, h⟩
  · unfold snapshotObstacle at hsnapshot
    split at hsnapshot
    · split at hsnapshot
      · next hstored => exact .inr (.inl hstored)
      · cases hsnapshot
    · cases hsnapshot
  rcases Option.or_eq_some_iff.mp h with hmembership | ⟨-, h⟩
  · obtain ⟨membership, hmem, hobstacle⟩ := List.exists_of_findSome?_eq_some hmembership
    unfold membershipObstacle at hobstacle
    split at hobstacle
    · cases hobstacle
    · next hblank => exact .inr (.inr ⟨membership, hmem, .inr (by simpa using hblank)⟩)
  · split at h
    · cases h
    · split at h <;> cases h

/-- A publication that supersedes its job met a conflict. -/
theorem Sound.superseding {db db' : Database} (h : Sound db) {faults : FaultInjector}
    {request : PublishRequest} {result : PublishResult}
    (hpublished : publishSnapshot faults db request = .ok (db', result))
    (houtcome : result.outcome = .superseded) : Superseding db request := by
  have hfaultless := publishSnapshot_approximates _ hpublished
  obtain ⟨admission, hadmission, hrest⟩ := bind_ok.mp hfaultless
  obtain ⟨row, hadmits⟩ := admitCandidate_ok hadmission
  obtain ⟨-, -, hrest⟩ := bind_ok.mp hrest
  obtain ⟨staged, hstage, hrest⟩ := bind_ok.mp hrest
  have hstaging := stageCandidate_outcome h hadmits
  match hobstacle : stagingObstacle db request, hstaging with
  | some .conflict, _ => exact superseding_of_conflict hobstacle
  | some .refusal, ⟨failure, hfailure⟩ =>
      rw [hfailure] at hstage
      cases hstage
  | none, ⟨candidate, hcandidate, _⟩ =>
      -- Without an obstacle the publication commits.
      obtain rfl := Except.ok.inj (hcandidate.symm.trans hstage)
      obtain ⟨-, -, hrest⟩ := bind_ok.mp hrest
      obtain ⟨⟨_, _⟩, -, hrest⟩ := bind_ok.mp hrest
      obtain ⟨-, -, hrest⟩ := bind_ok.mp hrest
      obtain ⟨_, -, hrest⟩ := bind_ok.mp hrest
      obtain ⟨-, -, hrest⟩ := bind_ok.mp hrest
      obtain ⟨-, rfl⟩ : _ = db' ∧ _ = result := by simpa using hrest
      cases houtcome

/-- In every reachable state every nonterminal job is based on the active snapshot of its session.
So the compare-and-swap of a publication never fails, `claim_job` never cancels a job, and a
candidate is superseded only by stored ids or by a `CHECK`. -/
theorem jobs_track_pointer {db : Database} (h : repository.Reachable db) : TracksPointer db := by
  have hsound := sound_of_reachable h
  have hopen := hsound.jobs.intentsOpen
  constructor
  · exact fun row hrow hstate => (hsound.jobs row hrow hstate).pointer
  · intro faults request admission staged hadmission hstaged
    obtain ⟨row, hadmits⟩ := admitCandidate_ok hadmission
    exact hsound.cas_moves hadmits (stageRows_some hstaged)
  · exact fun now row base hfirst hbase => hopen.not_covered hfirst hbase
  · exact hopen.claimLoop_eq
  · exact not_cancelled_of_reachable h
  · exact fun faults request db' result hpublished houtcome =>
      hsound.superseding hpublished houtcome

end Tracking

/-! ## Samples -/

namespace Sample

/-- A capsule of both events that takes over the items of the first one, under an id that SQLite
trims to nothing. -/
def blank : ContextCapsuleEnvelope where
  toCapsuleData := { capsuleData " " 1 2 ["e1", "e2"] with
    goals := [goal], entities := [entity], exactAnchors := [anchor] }

/-- The snapshot of the blank capsule. -/
def blankTwo : SnapshotEnvelope where
  toSnapshotData := snapshotData "two" (some "one") 2 [blank]

/-- A second job is about to be published on top of the first compaction. -/
def secondReady : List Call :=
  firstCompaction ++ message "e2" :: preparation "job2" 2 "two"

end Sample

open Sample in
/-- After one compaction the second job of the session is based on its snapshot. -/
theorem jobs_track_pointer_sample :
    (repository.execute secondReady).pointer sessionHash = (some "one", 1) ∧
      TracksPointer (repository.execute secondReady) :=
  ⟨by decide +kernel, jobs_track_pointer (repository.reachable_execute secondReady)⟩

open Sample in
/-- A candidate is superseded although neither its capsule id nor its snapshot id is stored: the
`CHECK` of `capsules` refuses the blank id. -/
theorem blank_capsule_superseded :
    repository.Reachable (repository.execute secondReady) ∧
      (publishSnapshot .none (repository.execute secondReady)
          (publication "job2" blankTwo [blank])).toOption.map (fun result => result.2.outcome) =
        some .superseded ∧
      (∀ membership ∈ (publication "job2" blankTwo [blank]).memberships,
        membership.capsuleId ∉ (repository.execute secondReady).capsuleIds) ∧
      blankTwo.snapshotId ∉ (repository.execute secondReady).snapshotIds :=
  ⟨repository.reachable_execute secondReady, by decide +kernel, by decide +kernel,
    by decide +kernel⟩

end AstrContinuum
