import AstrContinuum.Compaction.Worker
import AstrContinuum.Guarantees.Views
import AstrContinuum.Invariants.Sidecar
import AstrContinuum.Settlement.Queue

/-!
# A claim on its way to publication

Two facts about the time between a worker's last transition and its publication. Nobody but the
worker moves the state of a claimed job (`stands_of_calls`), and staging the candidate of a worker
raises only what the codec, the profile id or an earlier metric brings about
(`stageCandidate_tolerates`).
-/

namespace AstrContinuum

open Checked Relational Transactional

variable [Hashlib]

/-! ## The state of a claimed job -/

/-- What has become of a job row: it was claimed again, its claim has ended, or it is in the same
state with the same candidate. -/
structure JobRow.Stands (row row' : JobRow) : Prop where
  jobId : row'.jobId = row.jobId
  claim : row.leaseEpoch < row'.leaseEpoch ∨
    (row'.leaseEpoch = row.leaseEpoch ∧
      (row'.state.isWorking = false ∨
        (row'.state = row.state ∧ row'.candidateSnapshotId = row.candidateSnapshotId)))

omit [Hashlib] in
/-- A row stands where it is. -/
theorem JobRow.Stands.refl (row : JobRow) : row.Stands row :=
  ⟨rfl, .inr ⟨rfl, .inr ⟨rfl, rfl⟩⟩⟩

omit [Hashlib] in
/-- A claim that has ended or was taken over does not come back. -/
theorem JobRow.Stands.trans {row row' row'' : JobRow} (h : row.Stands row')
    (h' : row'.Stands row'') : row.Stands row'' := by
  refine ⟨h'.jobId.trans h.jobId, ?_⟩
  rcases h'.claim with hlater' | ⟨hepoch', hstate'⟩
  · rcases h.claim with hlater | ⟨hepoch, -⟩ <;> exact .inl (by omega)
  · rcases h.claim with hlater | ⟨hepoch, hstate⟩
    · exact .inl (by omega)
    · refine .inr ⟨hepoch'.trans hepoch, ?_⟩
      rcases hstate' with hended' | ⟨hsame', hcandidate'⟩
      · exact .inl hended'
      · rcases hstate with hended | ⟨hsame, hcandidate⟩
        · exact .inl (by rw [hsame', hended])
        · exact .inr ⟨hsame'.trans hsame, hcandidate'.trans hcandidate⟩

/-- The call is a `transition_job` of the job. -/
def Operation.transitions (jobId : String) : Operation → Prop
  | .transitionJob fence .. => fence.jobId = jobId
  | _ => False

omit [Hashlib] in
/-- An update whose changes stand. -/
theorem stands_update {rows : List JobRow} {selected : JobRow → Bool} {change : JobRow → JobRow}
    {row : JobRow} (hrow : row ∈ rows) (h : selected row = true → row.Stands (change row)) :
    ∃ row' ∈ update selected change rows, row.Stands row' := by
  cases hselected : selected row with
  | true => exact ⟨_, mem_update.mpr (.inl ⟨row, hrow, hselected, rfl⟩), h hselected⟩
  | false => exact ⟨row, mem_update.mpr (.inr ⟨hrow, hselected⟩), .refl row⟩

/-- A committed call that does not transition the job leaves it standing. -/
theorem Effect.stands {db db' : Database} {operation : Operation} {response : Response}
    (h : Effect db operation db' response) {row : JobRow} (hrow : row ∈ db.compactionJobs)
    (hother : ¬ operation.transitions row.jobId) :
    ∃ row' ∈ db'.compactionJobs, row.Stands row' := by
  -- Settling a job ends its claim; the follow-up is another row.
  have hsettled : ∀ (outcome : PublishOutcome) (settled : JobRow) (winnerId : String)
      (coverage version : Nat) (now : Timestamp),
      ∃ row' ∈ settledJobs outcome settled winnerId coverage version now db.compactionJobs,
        row.Stands row' := by
    intro outcome settled winnerId coverage version now
    have hfinish : row.Stands (row.finish outcome now) :=
      ⟨rfl, .inr ⟨rfl, .inl (by cases outcome <;> rfl)⟩⟩
    obtain ⟨row', hmem, hstands⟩ := stands_update hrow fun _ => hfinish
    exact ⟨row', List.mem_append_left _ hmem, hstands⟩
  cases h with
  | captured _ heffect =>
      cases heffect with
      | replayed _ hold | appended _ _ _ _ _ _ hold =>
          rw [hold.compactionJobs]
          exact ⟨row, hrow, .refl row⟩
  | sidecar _ hholds =>
      rw [hholds.compactionJobs]
      exact ⟨row, hrow, .refl row⟩
  | intentCovered | intentCarried | claimedNone | viewed => exact ⟨row, hrow, .refl row⟩
  | intentFolded _ _ _ _ _ htables =>
      rw [(Database.Holds.of_eq htables).compactionJobs]
      exact stands_update hrow fun _ => ⟨rfl, .inr ⟨rfl, .inr ⟨rfl, rfl⟩⟩⟩
  | intentQueued _ _ _ htables =>
      rw [(Database.Holds.of_eq htables).compactionJobs]
      exact ⟨row, List.mem_append_left _ hrow, .refl row⟩
  | claimed _ _ _ htables =>
      rw [(Database.Holds.of_eq htables).compactionJobs]
      exact stands_update hrow fun _ => ⟨rfl, .inl (Nat.lt_succ_self _)⟩
  | transitioned hfound _ _ htables =>
      rw [(Database.Holds.of_eq htables).compactionJobs]
      refine stands_update hrow fun hselected => ?_
      have hsame : row.jobId = _ := of_decide_eq_true hselected
      exact absurd (hsame.trans (Database.jobRow_eq_some.mp hfound).2).symm hother
  | renewed _ _ htables =>
      rw [(Database.Holds.of_eq htables).compactionJobs]
      exact stands_update hrow fun _ => ⟨rfl, .inr ⟨rfl, .inr ⟨rfl, rfl⟩⟩⟩
  | @failed _ failure _ _ _ _ _ htables =>
      rw [(Database.Holds.of_eq htables).compactionJobs]
      refine stands_update hrow fun _ => ⟨rfl, .inr ⟨rfl, .inl ?_⟩⟩
      cases hretry : failure.retryAt <;> simp [JobRow.fail, hretry, CompactionJobState.isWorking]
  | recovered htables =>
      rw [(Database.Holds.of_eq htables).compactionJobs]
      exact stands_update hrow fun _ => ⟨rfl, .inr ⟨rfl, .inl rfl⟩⟩
  | superseded hadmits _ _ _ _ htables | committed hadmits _ _ _ htables =>
      rw [(Database.Holds.of_eq htables).compactionJobs]
      exact hsettled _ _ _ _ _ _

variable [SecureCodec]

/-- Calls that do not transition the job leave it standing. -/
theorem stands_of_calls {db : Database} (h : repository.Reachable db) {calls : List Call}
    {row : JobRow} (hrow : row ∈ db.compactionJobs)
    (hcalls : ∀ call ∈ calls, ¬ call.operation.transitions row.jobId) :
    ∃ row' ∈ (calls.foldl repository.next db).compactionJobs, row.Stands row' := by
  have hfold := System.Reachable.foldl repository
    (P := fun call => ¬ call.operation.transitions row.jobId)
    (R := fun db db' => ∀ old ∈ db.compactionJobs, old.jobId = row.jobId →
      ∃ new ∈ db'.compactionJobs, old.Stands new) ?_ ?_ ?_ h hcalls
  · exact hfold.2 row hrow rfl
  · exact fun _ old hold _ => ⟨old, hold, .refl old⟩
  · intro a b c hab hbc old hold hid
    obtain ⟨middle, hmiddle, hstands⟩ := hab old hold hid
    obtain ⟨new, hnew, hstands'⟩ := hbc middle hmiddle (hstands.jobId.trans hid)
    exact ⟨new, hnew, hstands.trans hstands'⟩
  · intro state call state' response hreachable hcall hstep old hold hid
    exact ((sound_of_reachable hreachable).effect hstep).stands hold (by rwa [hid])

/-! ## Staging -/

/-- What an insert under `except sqlite3.IntegrityError` raises: something that is allowed, or what
is caught. -/
abbrev CaughtOr (allowed : StorageFailure → Prop) (failure : StorageFailure) : Prop :=
  failure = .integrityError ∨ allowed failure

omit [Hashlib] [SecureCodec] in
/-- The handler lets through only what is allowed. -/
theorem orConflict_ensures {α : Type} {allowed : StorageFailure → Prop}
    {x : Except StorageFailure α} (h : Ensures (CaughtOr allowed) (fun _ => True) x) :
    Ensures allowed (fun _ => True) (orConflict x) := by
  unfold orConflict
  split
  · exact trivial
  · exact trivial
  · next failure hne =>
      exact h.resolve_left fun heq => hne heq

omit [Hashlib] [SecureCodec] in
/-- A loop of caught inserts raises only what is allowed. -/
theorem insertUntilConflict_ensures {α : Type}
    {insert : Database → α → Except StorageFailure Database} {faults : FaultInjector}
    {boundary : Boundary} {allowed : StorageFailure → Prop}
    (hinsert : ∀ db item, Ensures (CaughtOr allowed) (fun _ => True) (insert db item))
    (hinjected : allowed (.injectedFault boundary)) (call : Nat) (db : Database)
    (items : List α) :
    Ensures allowed (fun _ => True)
      (insertUntilConflict insert faults boundary call db items) := by
  induction items generalizing call db with
  | nil => exact trivial
  | cons item rest ih =>
      refine (orConflict_ensures (hinsert db item)).bind fun staged _ => ?_
      cases staged with
      | none => exact trivial
      | some staged => exact (Ensures.require fun _ => hinjected).bind fun _ _ => ih _ _

omit [Hashlib] in
/-- The protected cells of a row are refused only by the codec. -/
theorem encryptCells_ensures {allowed : StorageFailure → Prop}
    (hsecurity : allowed .storageSecurityError) (cells : List ProtectedCell) :
    Ensures (CaughtOr allowed) (fun _ => True) (encryptCells cells) :=
  (Ensures.require fun _ => .inr hsecurity).mono fun _ _ => trivial

omit [Hashlib] [SecureCodec] in
/-- What a statement raises is caught. -/
theorem execute_caught {allowed : StorageFailure → Prop} (tables : Tables) :
    Ensures (CaughtOr allowed) (fun _ => True) (Database.execute tables) := by
  cases h : Database.execute tables with
  | ok db => exact trivial
  | error failure => exact .inl ((execute_ensures tables).error h)

/-- Storing a capsule raises only `IntegrityError` or a refusal of the codec. -/
theorem insertOrVerifyCapsule_ensures {allowed : StorageFailure → Prop}
    (hsecurity : allowed .storageSecurityError) (db : Database)
    (capsule : ContextCapsuleEnvelope) :
    Ensures (CaughtOr allowed) (fun _ => True) (insertOrVerifyCapsule db capsule) := by
  unfold insertOrVerifyCapsule
  split
  · exact (Ensures.require fun _ => .inl rfl).bind fun _ _ => trivial
  · exact (encryptCells_ensures hsecurity _).bind fun _ _ => execute_caught _

/-- Storing a snapshot with a commit time raises only `IntegrityError` or a refusal of the codec. -/
theorem insertCommittedSnapshot_ensures {allowed : StorageFailure → Prop}
    (hsecurity : allowed .storageSecurityError) (db : Database) {snapshot : SnapshotEnvelope}
    {committedAt : Timestamp} (hcommitted : snapshot.committedAt = some committedAt) :
    Ensures (CaughtOr allowed) (fun _ => True) (insertCommittedSnapshot db snapshot) := by
  unfold insertCommittedSnapshot
  rw [hcommitted]
  exact (encryptCells_ensures hsecurity _).bind fun _ _ => execute_caught _

omit [Hashlib] in
/-- Writing a metric raises only on a stored count that differs, on a refusal of the codec and on a
key that is blank to SQLite. -/
theorem writeMetric_ensures {allowed : StorageFailure → Prop} {db staged : Database}
    (now : Timestamp) {rest : List (TokenMetric × Nat)} {entry : TokenMetric × Nat}
    (h : MetricsLeft db (entry :: rest) staged)
    (hconflict : ∀ existing, db.metricRow entry.1.key = some existing →
      existing.tokenCount ≠ entry.1.tokenCount → allowed .tokenMetricConflict)
    (hsecurity : allowed .storageSecurityError)
    (hcheck : ¬ entry.1.key.Check → allowed .integrityError) :
    Ensures allowed (MetricsLeft db rest) (writeMetric staged entry.1 now) := by
  have hcases := writeMetric_cases now h
  have hread := h.unread entry List.mem_cons_self
  split at hcases
  · next hrefused =>
      unfold writeMetric putInTransaction
      unfold metricRefused at hrefused
      rw [hread]
      cases hrow : db.metricRow entry.1.key with
      | some existing =>
          rw [hrow] at hrefused
          have hcount := of_decide_eq_true hrefused
          show Ensures _ _ ((require _ _ >>= _) >>= _)
          rw [require_bind_neg hcount]
          exact hconflict existing hrow hcount
      | none =>
          rw [hrow] at hrefused
          have hreason := not_and_or.mp (of_decide_eq_true hrefused)
          by_cases hencrypts : (metricCell entry.1.key entry.1.tokenCount).fits = true
          · have hblank := hreason.resolve_left (not_not.mpr hencrypts)
            show Ensures _ _ ((require _ _ >>= _) >>= _)
            rw [require_bind_pos (by simpa using hencrypts), Database.execute_of_inconsistent]
            · exact hcheck hblank
            · intro hconsistent
              exact hblank (hconsistent.tokenMetrics.check
                ⟨entry.1.key, entry.1.tokenCount, now⟩ (by simp))
          · show Ensures _ _ ((require _ _ >>= _) >>= _)
            rw [require_bind_neg (by simpa using hencrypts)]
            exact hsecurity
  · obtain ⟨staged', hstaged', hleft⟩ := hcases
    exact .of_ok hstaged' hleft

/-! ## The metrics of a worker -/

/-- Every stored count of a capsule under the profile is the counter's count of the capsule. -/
def CountedBy (db : Database) (counter : Option PlainCounter) (profileId : String) : Prop :=
  ∀ metric ∈ db.tokenMetrics, metric.key.artifactKind = .capsule →
    metric.key.tokenizerProfileId = profileId →
    ∀ row ∈ db.capsules, row.capsuleId = metric.key.artifactId →
      countCanonical counter (renderCapsule row.canonicalCapsule) = .ok metric.tokenCount

/-- What staging the candidate of a worker can raise. -/
inductive StagingFailure (db : Database) (counter : Option PlainCounter) (profileId : String) :
    StorageFailure → Prop
  | injected (boundary : Boundary) : StagingFailure db counter profileId (.injectedFault boundary)
  | security : StagingFailure db counter profileId .storageSecurityError
  | conflict (h : ¬ CountedBy db counter profileId) :
      StagingFailure db counter profileId .tokenMetricConflict
  | blankProfile (h : trimNonEmpty profileId = false) :
      StagingFailure db counter profileId .integrityError

/-- The artifacts of a candidate are stored, its snapshot as a new one. -/
structure CandidateStored (db : Database) (candidate : AuditedCandidate) (staged : Database) :
    Prop where
  kept : ∀ row ∈ db.capsules, row ∈ staged.capsules
  capsules : ∀ membership ∈ candidate.memberships, membership.capsule.row ∈ staged.capsules
  snapshot : ∃ row ∈ staged.snapshots, row.snapshotId = candidate.snapshot.snapshotId
  fresh : ∀ row ∈ db.snapshots, row.snapshotId ≠ candidate.snapshot.snapshotId

namespace CandidateStored

variable {db staged : Database} {candidate : AuditedCandidate} {counter : Option PlainCounter}
  {profileId : String} {metrics : List TokenMetric}

omit [Hashlib] [SecureCodec] in
/-- A metric of the candidate counts one of its capsules or its snapshot. -/
theorem metric_cases
    (hmetrics : candidateCanonicalMetrics counter profileId candidate = .ok metrics)
    {metric : TokenMetric} (hmetric : metric ∈ metrics) :
    (∃ membership ∈ candidate.memberships,
        Counted counter ⟨.capsule, membership.capsuleId, profileId⟩
          (renderCapsule membership.capsule) metric) ∨
      metric.key = ⟨.snapshot, candidate.snapshot.snapshotId, profileId⟩ := by
  obtain ⟨capsules, snapshot, rfl, hcapsules, hsnapshot⟩ := candidateCanonicalMetrics_ok hmetrics
  rcases List.mem_append.mp hmetric with hmem | hmem
  · obtain ⟨membership, hmembership, hcounted⟩ := exists_of_forall₂ hcapsules hmem
    exact .inl ⟨membership, hmembership, hcounted⟩
  · obtain rfl := List.mem_singleton.mp hmem
    exact .inr hsnapshot.1

omit [SecureCodec] in
/-- A stored count that differs from the worker's is not the counter's. -/
theorem not_countedBy (h : CandidateStored db candidate staged) (hsidecar : SidecarSound db)
    (hmetrics : candidateCanonicalMetrics counter profileId candidate = .ok metrics)
    {metric : TokenMetric} (hmetric : metric ∈ metrics) {existing : MetricRow}
    (hexisting : db.metricRow metric.key = some existing)
    (hcount : existing.tokenCount ≠ metric.tokenCount) : ¬ CountedBy db counter profileId := by
  obtain ⟨hmem, hkey⟩ := db.consistent.tokenMetrics.primaryKey.find_eq_some.mp hexisting
  obtain ⟨hash, howner⟩ := hsidecar.stored existing hmem
  rw [hkey] at howner
  intro hcounted
  rcases metric_cases hmetrics hmetric with ⟨membership, hmembership, hmetricKey, hcounts⟩ | hsnapshot
  · -- The stored capsule of this id is the candidate's, so both counts are of one text.
    rw [hmetricKey] at howner hkey
    obtain ⟨row, hrow, -⟩ := Option.map_eq_some_iff.mp howner
    obtain ⟨hrowMem, hid⟩ := Database.capsuleRow_eq_some.mp hrow
    have hsame : row = membership.capsule.row :=
      staged.consistent.capsules.primaryKey.eq_of_key (h.kept row hrowMem)
        (h.capsules membership hmembership) hid
    have hstored := hcounted existing hmem (by rw [hkey]) (by rw [hkey]) row hrowMem
      (by rw [hkey]; exact hid)
    have hcapsule : row.canonicalCapsule = membership.capsule := by rw [hsame]; rfl
    rw [hcapsule, hcounts] at hstored
    exact hcount (Except.ok.inj hstored).symm
  · rw [hsnapshot] at howner
    obtain ⟨row, hrow, -⟩ := Option.map_eq_some_iff.mp howner
    obtain ⟨hrowMem, hid⟩ := Database.snapshotRow_eq_some.mp hrow
    exact h.fresh row hrowMem hid

omit [SecureCodec] in
/-- The keys of the metrics are blank to SQLite only when the profile is. -/
theorem blankProfile (h : CandidateStored db candidate staged)
    (hmetrics : candidateCanonicalMetrics counter profileId candidate = .ok metrics)
    {metric : TokenMetric} (hmetric : metric ∈ metrics) (hblank : ¬ metric.key.Check) :
    trimNonEmpty profileId = false := by
  have hartifact : trimNonEmpty metric.key.artifactId = true ∧
      metric.key.tokenizerProfileId = profileId := by
    rcases metric_cases hmetrics hmetric with ⟨membership, hmembership, hkey, -⟩ | hkey
    · rw [hkey]
      exact ⟨(staged.consistent.capsules.check _ (h.capsules membership hmembership)).1, rfl⟩
    · obtain ⟨row, hrow, hid⟩ := h.snapshot
      rw [hkey, ← hid]
      exact ⟨(staged.consistent.snapshots.check row hrow).1, rfl⟩
  by_contra hprofile
  exact hblank ⟨hartifact.1, by rw [hartifact.2]; simpa using hprofile⟩

end CandidateStored

/-- Staging the candidate of a worker raises only a staging failure. -/
theorem stageRows_tolerates {db : Database} (hsidecar : SidecarSound db) {fence : Fence}
    {tokenCeiling : Int} {candidate : AuditedCandidate} {counter : Option PlainCounter}
    {profileId : String} {metrics : List TokenMetric}
    (hmetrics : candidateCanonicalMetrics counter profileId candidate = .ok metrics)
    {admission : Admission} {row : JobRow}
    (hadmits : Admits db (candidate.publishRequest fence metrics tokenCeiling) admission row)
    (faults : FaultInjector) :
    Ensures (StagingFailure db counter profileId) (fun _ => True)
      (stageRows faults db (candidate.publishRequest fence metrics tokenCeiling)
        admission.committed admission.records) := by
  have hid : admission.committed.snapshotId = candidate.snapshot.snapshotId := by
    rw [hadmits.committed]
    rfl
  have hcommittedAt : admission.committed.committedAt = some fence.now := by
    rw [hadmits.committed]
    rfl
  have hrecords : admission.records = [] := (Except.ok.inj hadmits.records).symm
  unfold stageRows
  -- The capsules, the snapshot and the memberships are inserted under the handler.
  cases hcapsules : insertUntilConflict _ faults .publishAfterCapsule 0 db
    (candidate.publishRequest fence metrics tokenCeiling).memberships with
  | error failure =>
      exact (insertUntilConflict_ensures (fun db item => insertOrVerifyCapsule_ensures
        StagingFailure.security db _) (.injected _) 0 db _).error hcapsules
  | ok staged =>
  cases staged with
  | none => exact trivial
  | some db₁ =>
  obtain ⟨added, h₁, -, hstored⟩ := insertCapsules_ok (insertUntilConflict_some hcapsules)
  show Ensures _ _ (orConflict (insertCommittedSnapshot db₁ admission.committed) >>= _)
  cases hsnapshot : orConflict (insertCommittedSnapshot db₁ admission.committed) with
  | error failure =>
      exact (orConflict_ensures (insertCommittedSnapshot_ensures StagingFailure.security db₁
        hcommittedAt)).error hsnapshot
  | ok staged =>
  cases staged with
  | none => exact trivial
  | some db₂ =>
  have hsnapshot : insertCommittedSnapshot db₁ admission.committed = .ok db₂ := by
    unfold orConflict at hsnapshot
    split at hsnapshot <;> simp_all
  obtain ⟨committedAt, -, hsnapshot⟩ := bind_ok.mp hsnapshot
  obtain ⟨_, -, hsnapshot⟩ := bind_ok.mp hsnapshot
  have h₂ := Database.execute_ok.mp hsnapshot
  refine (Ensures.require fun _ => StagingFailure.injected _).bind fun _ _ => ?_
  cases hmemberships : insertUntilConflict (insertMembership admission.committed.snapshotId)
    faults .publishAfterMembership 0 db₂
    (candidate.publishRequest fence metrics tokenCeiling).memberships with
  | error failure =>
      exact (insertUntilConflict_ensures (fun _ _ => execute_caught _)
        (StagingFailure.injected _) 0 db₂ _).error hmemberships
  | ok staged =>
  cases staged with
  | none => exact trivial
  | some db₃ =>
  have h₃ := insertMemberships_ok (insertUntilConflict_some hmemberships)
  rw [hrecords]
  -- There is no ledger, and every artifact that the metrics name is stored by now.
  have hcandidate : CandidateStored db candidate db₃ := by
    have hcapsules₃ : db₃.capsules = db₁.capsules := by rw [h₃, h₂]
    have hsnapshots₃ : db₃.snapshots = db.snapshots ++ [admission.committed.row committedAt] := by
      rw [h₃, h₂, h₁]
    refine ⟨?_, ?_, ⟨admission.committed.row committedAt, ?_, hid⟩, ?_⟩
    · intro old hold
      rw [hcapsules₃, h₁]
      exact List.mem_append_left _ hold
    · intro membership hmembership
      rw [hcapsules₃]
      exact hstored membership hmembership
    · rw [hsnapshots₃]
      exact List.mem_append_right _ List.mem_cons_self
    · have hunique := db₃.consistent.snapshots.primaryKey
      rw [hsnapshots₃] at hunique
      rw [← hid]
      exact (uniqueKey_append_singleton.mp hunique).2
  have hleft : MetricsLeft db metrics.zipIdx db₃ := hadmits.metricsLeft (by rw [h₃, h₂, h₁])
  show Ensures _ _ (forEach (publishMetric faults fence.now) db₃ metrics.zipIdx >>= _)
  refine Ensures.bind (Ensures.forEach (fun rest staged => MetricsLeft db rest staged ∧
    ∀ entry ∈ rest, entry.1 ∈ metrics) ?_ ⟨hleft, ?_⟩) fun _ _ => trivial
  · rintro entry rest staged ⟨hleft, hrest⟩
    have hmetric := hrest entry List.mem_cons_self
    refine (writeMetric_ensures fence.now hleft
      (fun existing hexisting hcount => .conflict
        (hcandidate.not_countedBy hsidecar hmetrics hmetric hexisting hcount)) .security
      fun hblank => .blankProfile (hcandidate.blankProfile hmetrics hmetric hblank)).bind
      fun staged' hleft' => ?_
    refine (Ensures.require fun _ => StagingFailure.injected _).bind fun _ _ => ?_
    exact ⟨hleft', fun other hother => hrest other (List.mem_cons_of_mem _ hother)⟩
  · intro entry hentry
    have hfst := List.mem_map_of_mem (f := Prod.fst) hentry
    rwa [List.zipIdx_map_fst] at hfst

/-- A staging that reaches its pointer move makes it, and otherwise raises only a staging failure. -/
theorem stageCandidate_tolerates {db : Database} (hsound : Sound db) (hsidecar : SidecarSound db)
    {fence : Fence} {tokenCeiling : Int} {candidate : AuditedCandidate}
    {counter : Option PlainCounter} {profileId : String} {metrics : List TokenMetric}
    (hmetrics : candidateCanonicalMetrics counter profileId candidate = .ok metrics)
    {admission : Admission} {row : JobRow}
    (hadmits : Admits db (candidate.publishRequest fence metrics tokenCeiling) admission row)
    (faults : FaultInjector) :
    Ensures (StagingFailure db counter profileId) (fun _ => True)
      (stageCandidate faults db (candidate.publishRequest fence metrics tokenCeiling)
        admission.job admission.committed admission.records) := by
  unfold stageCandidate
  cases hrows : stageRows faults db (candidate.publishRequest fence metrics tokenCeiling)
    admission.committed admission.records with
  | error failure =>
      exact (stageRows_tolerates hsidecar hmetrics hadmits faults).error hrows
  | ok staged =>
  cases staged with
  | none => exact trivial
  | some staged =>
      obtain ⟨moved, hmoved⟩ := hsound.cas_moves hadmits (stageRows_some hrows)
      show Ensures _ _ (casActivePointer staged admission.job admission.committed.snapshotId
        fence.now >>= _)
      rw [show casActivePointer staged admission.job admission.committed.snapshotId fence.now =
        .ok (moved, true) from hmoved]
      exact trivial

end AstrContinuum
