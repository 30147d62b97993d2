import AstrContinuum.Settlement.Claim

/-!
# The worker and the repository agree on a candidate

A worker compiles a candidate from the view of its claim, which may be long out of date when it
publishes. `compiled_candidate_publishes` says that `publish_snapshot` never contradicts the
compiler and the audit: whatever ran in between, the guards and the gate of the repository accept
what they accepted. What can still go wrong is listed by `Tolerated`.
-/

namespace AstrContinuum

open Checked Relational Transactional

/-! ## The gate -/

/-- The audit outcome matters to the gate only by its mechanical flag. -/
theorem validatePermanent_audited {input : PermanentInput} {snapshot : SnapshotEnvelope}
    {outcome : SnapshotAuditOutcome}
    (hdata : snapshot.toSnapshotData =
      { input.candidateSnapshot.toSnapshotData with auditOutcome := outcome })
    (hmechanical : outcome.mechanicalPassed = true)
    (h : (validatePermanent input).passed = true) :
    (validatePermanent { input with candidateSnapshot := snapshot }).passed = true := by
  rw [validate_permanent_passed] at h ⊢
  have hsession : snapshot.sessionKey = input.candidateSnapshot.sessionKey := by rw [hdata]
  intro code
  have hcode := h code
  cases code with
  | sessionKeyMismatch =>
      unfold PermanentInput.Fails at hcode ⊢
      rw [hsession]
      exact hcode
  | baseSnapshotMismatch | targetMismatch | capsuleMembershipMismatch | snapshotAnchorMismatch
  | tokenCeilingExceeded =>
      unfold PermanentInput.Fails at hcode ⊢
      rw [hdata]
      exact hcode
  | mechanicalNotPassed =>
      unfold PermanentInput.Fails at hcode ⊢
      rw [hdata]
      rintro (hfailed | hcapsule)
      · exact absurd hmechanical (by simpa using hfailed)
      · exact hcode (.inr hcapsule)
  | _ => exact hcode

/-- The memberships of a compiled and audited candidate pass the guard of the repository. -/
theorem Compiled.validMemberships {input : CompilationInput} {candidate : CompilationCandidate}
    {audited : AuditedCandidate} (h : Compiled input candidate)
    (haudited : Audited candidate audited) :
    ValidMemberships audited.snapshot audited.memberships := by
  have hids : audited.snapshot.capsuleIds =
      audited.memberships.map SnapshotCapsuleMembership.capsuleId := by
    rw [haudited.snapshot, haudited.memberships]
    exact h.capsuleIds
  refine ⟨?_, ?_, ?_, ?_, hids⟩
  · rw [haudited.memberships]
    exact h.nonempty
  · rw [haudited.memberships, h.numbered, ordinals_candidateMemberships]
    simp [candidateMemberships]
  · rw [haudited.memberships, h.numbered]
    intro item hitem
    obtain ⟨entry, -, rfl⟩ := List.mem_map.mp hitem
    show stripNonEmpty "memory" = true
    decide
  · rw [← hids]
    exact audited.snapshot.valid.2.2.1.2.2

/-- The metrics of the worker pass the guard of the repository. -/
theorem candidateCanonicalMetrics_valid {counter : Option PlainCounter} {profileId : String}
    {candidate : AuditedCandidate} {metrics : List TokenMetric}
    (hmemberships : ValidMemberships candidate.snapshot candidate.memberships)
    (h : candidateCanonicalMetrics counter profileId candidate = .ok metrics) :
    validateCandidateMetrics candidate.snapshot candidate.memberships metrics = .ok () := by
  have hkeys := candidateCanonicalMetrics_keys h
  have hartifacts : (metrics.map fun metric => (metric.key.artifactKind, metric.key.artifactId)) =
      expectedArtifacts candidate.snapshot candidate.memberships := by
    have hmap := congrArg (List.map fun key => (key.artifactKind, key.artifactId)) hkeys
    simpa [List.map_map, Function.comp_def] using hmap
  have hprofiles : (metrics.map fun metric => metric.key.tokenizerProfileId) =
      List.replicate metrics.length profileId := by
    have hmap := congrArg (List.map MetricKey.tokenizerProfileId) hkeys
    have hlength := congrArg List.length hkeys
    simp only [List.length_map] at hlength
    rw [List.map_map, List.map_map] at hmap
    rw [hlength]
    exact hmap.trans (List.map_const' ..)
  have hdistinct : (expectedArtifacts candidate.snapshot candidate.memberships).Nodup := by
    refine List.nodup_append.mpr ⟨?_, List.nodup_singleton _, ?_⟩
    · refine List.Nodup.of_map Prod.snd ?_
      rw [List.map_map]
      exact hmemberships.distinct
    · intro artifact hartifact other hother
      obtain ⟨membership, -, rfl⟩ := List.mem_map.mp hartifact
      obtain rfl := List.mem_singleton.mp hother
      exact nofun
  have hpositive : metrics.length ≠ 0 := by
    rw [← List.length_map (f := TokenMetric.key), hkeys]
    simp [expectedArtifacts]
  refine require_ok.mpr ⟨?_, ?_, ?_, ?_⟩
  · rw [List.Nodup.dedup hdistinct, ← hartifacts, List.length_map]
  · rw [hartifacts]
    exact fun artifact hartifact => List.mem_dedup.mpr hartifact
  · rw [hartifacts]
    exact fun artifact hartifact => List.mem_dedup.mp hartifact
  · rw [hprofiles, List.replicate_dedup hpositive]
    rfl

/-! ## One iteration of a worker -/

section Iteration

variable [Hashlib]

/-- A committed transition: the fenced row before it and the row it returned. -/
theorem transitionJob_ok {faults : FaultInjector} {db db' : Database} {fence : Fence}
    {toState : CompactionJobState} {candidateSnapshotId : Option String}
    {job : CompactionJobEnvelope}
    (h : transitionJob faults db fence toState candidateSnapshotId = .ok (db', job)) :
    ∃ row, db.jobRow fence.jobId = some row ∧
      row.Fenced fence.owner fence.leaseEpoch fence.now ∧
      db'.jobRow fence.jobId = some (row.transition toState candidateSnapshotId fence.now) ∧
      (row.transition toState candidateSnapshotId fence.now).Represents job := by
  obtain ⟨row, hfence, h⟩ := bind_ok.mp h
  obtain ⟨_, -, h⟩ := bind_ok.mp h
  obtain ⟨_, -, h⟩ := bind_ok.mp h
  obtain ⟨db₁, hupdate, h⟩ := bind_ok.mp h
  obtain ⟨_, -, h⟩ := bind_ok.mp h
  obtain ⟨job', hjob, h⟩ := bind_ok.mp h
  obtain ⟨rfl, rfl⟩ : db₁ = db' ∧ job' = job := by simpa using h
  obtain ⟨hrow, hfenced⟩ := requireLiveFence_ok.mp hfence
  obtain ⟨hmem, hid⟩ := Database.jobRow_eq_some.mp hrow
  have htables := fencedUpdate_ok hrow hfenced hupdate
  have hmoved : db₁.jobRow fence.jobId =
      some (row.transition toState candidateSnapshotId fence.now) := by
    refine Database.jobRow_eq_some.mpr ⟨?_, hid⟩
    rw [(Database.Holds.of_eq htables).compactionJobs]
    exact mem_update.mpr (.inl ⟨row, hmem, by simp, rfl⟩)
  obtain ⟨stored, hstored, hrepresents, -⟩ := jobById_ok hjob
  obtain rfl := Option.some.inj (hmoved.symm.trans hstored)
  exact ⟨row, hrow, hfenced, hmoved, hrepresents⟩

omit [Hashlib] in
/-- A fence that is not live raises `StaleLeaseError`. -/
theorem requireLiveFence_stale (db : Database) (fence : Fence) :
    Ensures (fun failure => ∃ message, failure = .staleLeaseError message)
      (fun row => db.jobRow fence.jobId = some row ∧
        row.Fenced fence.owner fence.leaseEpoch fence.now)
      (requireLiveFence db fence.jobId fence.owner fence.leaseEpoch fence.now) := by
  refine (Ensures.orMissing fun _ => ⟨_, rfl⟩).bind fun row hrow => ?_
  exact (Ensures.require fun _ => ⟨_, rfl⟩).bind fun _ hfenced => ⟨hrow, hfenced⟩

omit [Hashlib] in
/-- The committed copy of an audited candidate is a valid snapshot. -/
theorem Audited.committed_valid {candidate : CompilationCandidate} {audited : AuditedCandidate}
    (h : Audited candidate audited) (now : Timestamp) :
    ({ audited.snapshot.toSnapshotData with
      state := .committed, committedAt := some now } : SnapshotData).Valid := by
  obtain ⟨hids, hpositive, hcapsules, hanchors, -⟩ := audited.snapshot.valid
  exact ⟨hids, hpositive, hcapsules, hanchors,
    fun _ => ⟨nofun, h.mechanical, h.semantic, h.codes⟩, nofun⟩

/-- The base that the repository reads again is the base of the view. -/
theorem previousBundle_of_claimBase {db : Database} {job : CompactionJobEnvelope}
    {snapshot : Option SnapshotEnvelope} {memberships : List SnapshotCapsuleMembership}
    (h : claimBase db job.sessionKey job.baseSnapshotId job.basePointerVersion =
      .ok (snapshot, memberships)) :
    ∃ previous, previousBundle db job = .ok previous ∧ previous.map Prod.fst = snapshot ∧
      (previous.map Prod.snd).getD [] = memberships := by
  unfold claimBase at h
  unfold previousBundle
  cases hbase : job.baseSnapshotId with
  | none =>
      rw [hbase] at h
      obtain ⟨_, -, h⟩ := bind_ok.mp h
      obtain ⟨rfl, rfl⟩ : none = snapshot ∧ [] = memberships := by simpa using h
      exact ⟨none, rfl, rfl, rfl⟩
  | some baseSnapshotId =>
      rw [hbase] at h
      obtain ⟨⟨snapshot', memberships'⟩, hbundle, h⟩ := bind_ok.mp h
      obtain ⟨_, -, h⟩ := bind_ok.mp h
      obtain ⟨rfl, rfl⟩ : some snapshot' = snapshot ∧ memberships' = memberships := by simpa using h
      exact ⟨some (snapshot', memberships'), bind_ok.mpr ⟨_, hbundle, rfl⟩, rfl, rfl⟩

/-- A ready job whose view is still the one that was compiled admits the audited candidate. -/
theorem admitCandidate_of_view {db : Database} {fence : Fence} {row : JobRow}
    {job compiling : CompactionJobEnvelope} {view : RequestView}
    {eventTokenCounts : EventTokenCounts} {tokenCeiling : Int} {compileNow : Timestamp}
    {segmenterConfig : SegmenterConfig} {candidate : CompilationCandidate}
    {audited : AuditedCandidate} {counter : Option PlainCounter} {profileId : String}
    {metrics : List TokenMetric} (hstored : db.jobRow fence.jobId = some row)
    (hfenced : row.Fenced fence.owner fence.leaseEpoch fence.now)
    (hready : row.state = .readyToCommit)
    (hcandidate : row.candidateSnapshotId = some audited.snapshot.snapshotId)
    (hjob : jobById db fence.jobId = .ok job)
    (htarget : job.targetHighWaterMark = compiling.targetHighWaterMark)
    (hview : claimView db job.sessionKey job.baseSnapshotId job.basePointerVersion
      job.targetHighWaterMark = .ok view)
    (hcompiled : Compiled (view.compilationInput compiling eventTokenCounts tokenCeiling compileNow
      segmenterConfig) candidate)
    (haudited : Audited candidate audited)
    (hmetrics : candidateCanonicalMetrics counter profileId audited = .ok metrics) :
    ∃ admission, admitCandidate db (audited.publishRequest fence metrics tokenCeiling) =
      .ok admission := by
  obtain ⟨⟨snapshot, memberships⟩, hbase, hview⟩ := bind_ok.mp hview
  obtain ⟨_, -, hview⟩ := bind_ok.mp hview
  obtain ⟨delta, hdelta, hview⟩ := bind_ok.mp hview
  obtain ⟨_, -, hview⟩ := bind_ok.mp hview
  obtain rfl := pure_ok.mp hview
  obtain ⟨previous, hprevious, hsnapshot, hprior⟩ := previousBundle_of_claimBase hbase
  have hmemberships := hcompiled.validMemberships haudited
  -- The gate of the repository reads the same input, up to the outcome of the audit.
  have hgate : (validatePermanent ((audited.publishRequest fence metrics
      tokenCeiling).permanentInput job previous delta)).passed = true := by
    have haudit := validatePermanent_audited haudited.snapshot haudited.mechanical hcompiled.gate
    have hcapsules : (audited.publishRequest fence metrics tokenCeiling).candidateCapsules =
        candidate.memberships.map SnapshotCapsuleMembership.capsule := by
      rw [← haudited.memberships]
      rfl
    unfold PublishRequest.permanentInput
    rw [hcapsules, hsnapshot, hprior, htarget]
    exact haudit
  have hsession : audited.snapshot.sessionKey = job.sessionKey := by
    obtain ⟨event, hevent⟩ := List.exists_mem_of_ne_nil _ hcompiled.events
    have hfails := validate_permanent_passed.mp hcompiled.gate .sessionKeyMismatch
    simp only [PermanentInput.Fails, not_or, not_exists, not_and, not_not] at hfails
    obtain ⟨stored, -, hread⟩ := exists_item_of_mapM hdelta hevent
    have hkey : event.sessionKey = job.sessionKey := by rw [eventFromRow_ok hread]; rfl
    have hcandidateKey : event.sessionKey = candidate.snapshot.sessionKey :=
      hfails.2.1 event hevent
    rw [haudited.snapshot]
    exact hcandidateKey.symm.trans hkey
  have hcovered : (previous.map fun bundle => bundle.1.coveredEventEnd).getD 0 =
      (snapshot.map fun base => base.coveredEventEnd).getD 0 := by
    rw [← hsnapshot, Option.map_map]
    rfl
  refine ⟨⟨job, ⟨_, haudited.committed_valid fence.now⟩, []⟩,
    bind_ok.mpr ⟨(), require_ok.mpr hcompiled.ceiling, ?_⟩⟩
  refine bind_ok.mpr ⟨row, requireLiveFence_ok.mpr ⟨hstored, hfenced⟩, ?_⟩
  refine bind_ok.mpr ⟨(), require_ok.mpr hready, ?_⟩
  refine bind_ok.mpr ⟨(), require_ok.mpr hcandidate, ?_⟩
  refine bind_ok.mpr ⟨(), require_ok.mpr ?_, ?_⟩
  · show audited.snapshot.state = .candidate
    rw [haudited.snapshot]
    exact hcompiled.state
  refine bind_ok.mpr ⟨job, hjob, bind_ok.mpr ⟨(), require_ok.mpr hsession, ?_⟩⟩
  refine bind_ok.mpr ⟨(), validateCandidateMemberships_ok.mpr hmemberships, ?_⟩
  refine bind_ok.mpr ⟨[], rfl, ?_⟩
  refine bind_ok.mpr ⟨(), candidateCanonicalMetrics_valid hmemberships hmetrics, ?_⟩
  refine bind_ok.mpr ⟨previous, hprevious, ?_⟩
  rw [hcovered]
  refine bind_ok.mpr ⟨delta, hdelta, ?_⟩
  refine bind_ok.mpr ⟨(), require_ok.mpr (quality_floor_passed.mpr ⟨hgate, rfl⟩), ?_⟩
  exact bind_ok.mpr ⟨_, dif_pos (haudited.committed_valid fence.now), rfl⟩

variable [UnicodeTables] [JsonReader] [CapsuleDump] [SecureCodec]

omit [UnicodeTables] [JsonReader] [CapsuleDump] in
/-- A transition that returns an envelope commits the next state of the repository. -/
theorem transitionJob_next {faults : FaultInjector} {db : Database} {fence : Fence}
    {toState : CompactionJobState} {candidateSnapshotId : Option String}
    {job : CompactionJobEnvelope}
    (h : (transitionJob faults db fence toState candidateSnapshotId).map Prod.snd = .ok job) :
    transitionJob faults db fence toState candidateSnapshotId =
      .ok (repository.next db ⟨.transitionJob fence toState candidateSnapshotId, faults⟩, job) := by
  obtain ⟨⟨db', job'⟩, hresult, rfl⟩ := map_ok.mp h
  have hstep : repository.step db ⟨.transitionJob fence toState candidateSnapshotId, faults⟩ =
      .ok (db', .job (some job')) := by
    show (transitionJob faults db fence toState candidateSnapshotId).map _ = _
    rw [hresult]
    rfl
  rw [repository.next_of_ok hstep]
  exact hresult

/-- One iteration of a worker up to its publication, from the state before its transition to
`COMPILING`. `early` and `middle` are what everybody calls in between, the worker included. -/
structure Iteration (db : Database) where
  /-- The transition to `COMPILING`. -/
  fence : Fence
  compilingFaults : FaultInjector
  compilingState : Database
  compiling : CompactionJobEnvelope
  compilingStep : transitionJob compilingFaults db fence .compiling none =
    .ok (compilingState, compiling)
  /-- The view of the claim. -/
  early : List Call
  viewNow : Timestamp
  view : RequestView
  viewRead : readCompactionView (early.foldl repository.next compilingState)
    ⟨compiling.jobId, fence.owner, compiling.leaseEpoch, viewNow⟩ = .ok view
  /-- The candidate. -/
  backend : CompilerBackend
  compatibilityCounter : PlainCounter
  eventTokenCounts : EventTokenCounts
  tokenCeiling : Int
  compileNow : Timestamp
  segmenterConfig : SegmenterConfig
  candidate : CompilationCandidate
  compiled : compileCandidate backend compatibilityCounter
    (view.compilationInput compiling eventTokenCounts tokenCeiling compileNow segmenterConfig) =
      .ok candidate
  /-- The audit. -/
  strictAudit : Bool
  semanticBackend : Option SemanticAuditBackend
  audited : AuditedCandidate
  audit : auditSemantic candidate strictAudit semanticBackend = .ok audited
  /-- The metrics. -/
  canonicalCounter : Option PlainCounter
  canonicalProfileId : String
  metrics : List TokenMetric
  counted : candidateCanonicalMetrics canonicalCounter canonicalProfileId audited = .ok metrics
  /-- The transition to `READY_TO_COMMIT`. -/
  middle : List Call
  readyNow : Timestamp
  readyFaults : FaultInjector
  readyState : Database
  ready : CompactionJobEnvelope
  readyStep : transitionJob readyFaults
    (middle.foldl repository.next (early.foldl repository.next compilingState))
    ⟨compiling.jobId, fence.owner, compiling.leaseEpoch, readyNow⟩ .readyToCommit
    (some audited.snapshot.snapshotId) = .ok (readyState, ready)

namespace Iteration

variable {db : Database} (run : Iteration db)

/-- The arguments of the publication. -/
def request (now : Timestamp) : PublishRequest :=
  run.audited.publishRequest ⟨run.ready.jobId, run.fence.owner, run.ready.leaseEpoch, now⟩
    run.metrics run.tokenCeiling

/-- The state in which the worker reads its view. -/
def viewState : Database :=
  run.early.foldl repository.next run.compilingState

/-- The call that makes the job ready. -/
def readyCall : Call where
  operation := .transitionJob ⟨run.compiling.jobId, run.fence.owner, run.compiling.leaseEpoch,
    run.readyNow⟩ .readyToCommit (some run.audited.snapshot.snapshotId)
  faults := run.readyFaults

/-- The transition to `COMPILING` leads to a reachable state. -/
theorem reachable_compilingState (h : repository.Reachable db) :
    repository.Reachable run.compilingState := by
  have hstep : repository.step db ⟨.transitionJob run.fence .compiling none,
      run.compilingFaults⟩ = .ok (run.compilingState, .job (some run.compiling)) := by
    show (transitionJob run.compilingFaults db run.fence .compiling none).map _ = _
    rw [run.compilingStep]
    rfl
  rw [← repository.next_of_ok hstep]
  exact h.next _ _

/-- The view is read in a reachable state. -/
theorem reachable_viewState (h : repository.Reachable db) : repository.Reachable run.viewState :=
  (foldl_later (run.reachable_compilingState h) run.early).1

/-- The transition to `READY_TO_COMMIT` is one more call. -/
theorem readyState_eq : run.readyState =
    repository.next (run.middle.foldl repository.next run.viewState) run.readyCall := by
  have hstep : repository.step (run.middle.foldl repository.next run.viewState) run.readyCall =
      .ok (run.readyState, .job (some run.ready)) := by
    show (transitionJob run.readyFaults (run.middle.foldl repository.next run.viewState) _ _ _).map
      _ = _
    rw [show transitionJob run.readyFaults (run.middle.foldl repository.next run.viewState) _ _ _ =
      _ from run.readyStep]
    rfl
  exact (repository.next_of_ok hstep).symm

/-- The claimed row that the view belongs to: it has the target that was compiled, and the view is
read by its fields. -/
theorem exists_claimed (h : repository.Reachable db) :
    ∃ row session, row ∈ run.viewState.compactionJobs ∧ row.jobId = run.compiling.jobId ∧
      row.leaseEpoch = run.compiling.leaseEpoch ∧
      row.targetHighWaterMark = run.compiling.targetHighWaterMark ∧
      row.state.isNonterminal = true ∧ session ∈ run.viewState.sessions ∧
      session.sessionKeyHash = row.sessionKeyHash ∧
      claimView run.viewState session.sessionKey row.baseSnapshotId row.basePointerVersion
        row.targetHighWaterMark = .ok run.view := by
  have hsound := sound_of_reachable (run.reachable_viewState h)
  obtain ⟨row, hclaimed⟩ : ∃ row, Claimed run.viewState
      ⟨run.compiling.jobId, run.fence.owner, run.compiling.leaseEpoch, run.viewNow⟩ row := by
    by_contra hnone
    obtain ⟨message, hstale | htransition⟩ := readCompactionView_unclaimed hnone
    · exact absurd (hstale.symm.trans run.viewRead) nofun
    · exact absurd (htransition.symm.trans run.viewRead) nofun
  obtain ⟨hrow, hid⟩ := Database.jobRow_eq_some.mp hclaimed.stored
  obtain ⟨session, hsession, hhash⟩ := Database.exists_session_of_job hrow
  have hview := (hclaimed.readCompactionView_eq hsession hhash
    (hsound.journal.hash session hsession)).symm.trans run.viewRead
  have hepoch : row.leaseEpoch = run.compiling.leaseEpoch := hclaimed.fenced.2.2.1
  refine ⟨row, session, hrow, hid, hepoch, ?_,
    CompactionJobState.isNonterminal_of_isWorking hclaimed.fenced.1, hsession, hhash, hview⟩
  -- The target is that of the row which the transition to `COMPILING` returned.
  obtain ⟨before, -, -, hstarted, hrepresents⟩ := transitionJob_ok run.compilingStep
  obtain ⟨hmem, hstartedId⟩ := Database.jobRow_eq_some.mp hstarted
  obtain ⟨-, -, hrows⟩ := foldl_later (run.reachable_compilingState h) run.early
  obtain ⟨later, hlaterMem, hlater⟩ := hrows _ hmem
  have hfields := hrepresents.fields
  have hjobId : run.compiling.jobId = (before.transition .compiling none run.fence.now).jobId := by
    rw [hfields]
    rfl
  obtain rfl : later = row :=
    run.viewState.consistent.compactionJobs.primaryKey.eq_of_key hlaterMem hrow
      (by rw [hlater.jobId, ← hjobId]; exact hid.symm)
  have hstartedEpoch : run.compiling.leaseEpoch = before.leaseEpoch := by
    rw [hfields]
    rfl
  rcases hlater.frozen with hlt | ⟨-, htarget, -⟩
  · have hlt : before.leaseEpoch < later.leaseEpoch := hlt
    omega
  · rw [htarget, hfields]
    rfl

/-- Whatever runs between the two transitions and the publication, the repository admits the
candidate or finds the lease lost. -/
theorem admitCandidate_ensures (h : repository.Reachable db) {late : List Call}
    (hlate : ∀ call ∈ late, ¬ call.operation.transitions run.ready.jobId) (now : Timestamp) :
    Ensures (fun failure => ∃ message, failure = .staleLeaseError message) (fun _ => True)
      (admitCandidate (late.foldl repository.next run.readyState) (run.request now)) := by
  obtain ⟨row, session, hrow, hid, hepoch, htarget, hstate, hsession, hhash, hview⟩ :=
    run.exists_claimed h
  have hreachable := run.reachable_viewState h
  have hsound := sound_of_reachable hreachable
  -- The row that the transition to `READY_TO_COMMIT` left.
  obtain ⟨before, hbefore, hbeforeFenced, hreadyRow, hrepresents⟩ := transitionJob_ok run.readyStep
  obtain ⟨hreadyMem, hreadyId⟩ := Database.jobRow_eq_some.mp hreadyRow
  have hjobId : run.ready.jobId = run.compiling.jobId := by
    rw [hrepresents.fields]
    exact hreadyId
  have hbeforeEpoch : before.leaseEpoch = run.compiling.leaseEpoch := hbeforeFenced.2.2.1
  have hreadyEpoch : run.ready.leaseEpoch = run.compiling.leaseEpoch := by
    rw [hrepresents.fields]
    exact hbeforeEpoch
  have hreadyReachable : repository.Reachable run.readyState := by
    rw [run.readyState_eq]
    exact (foldl_later hreachable run.middle).1.next _ _
  obtain ⟨standing, hstandingMem, hstands⟩ := stands_of_calls hreadyReachable hreadyMem
    (fun call hcall => by rw [hreadyId, ← hjobId]; exact hlate call hcall)
  obtain ⟨hfinal, hgrows, hrows⟩ := foldl_later hreachable
    (run.middle ++ run.readyCall :: late)
  rw [List.foldl_append, List.foldl_cons, ← run.readyState_eq] at hfinal hgrows hrows
  generalize hdb : late.foldl repository.next run.readyState = final at *
  obtain ⟨later, hlaterMem, hlater⟩ := hrows row hrow
  have hcompiled := compileCandidate_ok run.compiled
  by_cases hlive : ∃ current, final.jobRow run.ready.jobId = some current ∧
      current.Fenced run.fence.owner run.ready.leaseEpoch now
  · obtain ⟨current, hstored, hfenced⟩ := hlive
    obtain ⟨hcurrentMem, hcurrentId⟩ := Database.jobRow_eq_some.mp hstored
    have hunique := final.consistent.compactionJobs.primaryKey
    obtain rfl : standing = current :=
      hunique.eq_of_key hstandingMem hcurrentMem
        (by rw [hstands.jobId, hcurrentId, hjobId]; exact hreadyId)
    obtain rfl : later = standing :=
      hunique.eq_of_key hlaterMem hstandingMem (by rw [hlater.jobId, hcurrentId, hjobId, hid])
    have hcurrentEpoch := hfenced.2.2.1
    -- The claim is the same, so the job is still ready and its base and target are frozen.
    obtain ⟨hready, hcandidate⟩ : later.state = .readyToCommit ∧
        later.candidateSnapshotId = some run.audited.snapshot.snapshotId := by
      rcases hstands.claim with hlt | ⟨-, hended | hsame⟩
      · have hlt : before.leaseEpoch < later.leaseEpoch := hlt
        omega
      · exact absurd hfenced.1 (by simp [hended])
      · exact hsame
    rcases hlater.frozen with hlt | ⟨-, hfrozen, hbaseId, hversion⟩
    · omega
    obtain ⟨session', hsession', hhash', hkey', -⟩ := hgrows.sessions session hsession
    have hsound' := sound_of_reachable hfinal
    obtain ⟨job, hjob⟩ := jobById_total hcurrentMem hsession'
      (by rw [hhash', hhash, hlater.session]) (hsound'.journal.hash session' hsession')
    rw [hcurrentId] at hjob
    obtain ⟨stored, hstoredRow, hjobRow, session'', hsession'', hhash'', hkey''⟩ := jobById_ok hjob
    obtain rfl := Option.some.inj (hstored.symm.trans hstoredRow)
    obtain rfl := Database.session_eq hsession' hsession''
      (by rw [hhash', hhash, hhash'', hlater.session])
    have hfields := hjobRow.fields
    have hjobTarget : job.targetHighWaterMark = row.targetHighWaterMark := by
      rw [hfields, ← hfrozen]
      rfl
    have hjobBase : job.baseSnapshotId = row.baseSnapshotId := by
      rw [hfields, ← hbaseId]
      rfl
    have hjobVersion : job.basePointerVersion = row.basePointerVersion := by
      rw [hfields, ← hversion]
      rfl
    have hmark : row.targetHighWaterMark ≤
        run.viewState.highWaterMark session.sessionKeyHash := by
      rw [hhash]
      exact (run.viewState.consistent.compactionJobs.check row hrow).intent.trans
        (jobRowsSound_of_reachable hreachable row hrow).mark
    have hview' : claimView final job.sessionKey job.baseSnapshotId job.basePointerVersion
        job.targetHighWaterMark = .ok run.view := by
      rw [← hkey'', hkey', hjobTarget, hjobBase, hjobVersion, hgrows.claimView_eq hsound.journal
        hsound'.journal hsession (hsound.base_stored hrow hstate hhash) hmark]
      exact hview
    have hadmits : ∃ admission, admitCandidate final (run.request now) = .ok admission :=
      admitCandidate_of_view hstored hfenced hready hcandidate hjob (hjobTarget.trans htarget)
        hview' hcompiled (auditSemantic_ok run.audit) run.counted
    obtain ⟨admission, hadmission⟩ := hadmits
    exact .of_ok hadmission trivial
  · refine (Ensures.require fun hneg => absurd hcompiled.ceiling hneg).bind fun _ _ => ?_
    refine (requireLiveFence_stale final (run.request now).fence).bind fun current hcurrent => ?_
    exact absurd ⟨current, hcurrent⟩ hlive

end Iteration

/-- What can still go wrong for the candidate of a worker: the lease was lost, staging failed for a
reason that is not the candidate's, a conflict of a first publication left no winner, or the
follow-up job found its id taken. -/
inductive Tolerated {start : Database} (run : Iteration start) (db : Database) (now : Timestamp) :
    StorageFailure → Prop
  | staleLease (message : String) : Tolerated run db now (.staleLeaseError message)
  | staging {failure : StorageFailure}
      (h : StagingFailure db run.canonicalCounter run.canonicalProfileId failure) :
      Tolerated run db now failure
  | noWinner : Tolerated run db now
      (.repositoryInvariantError "publish conflict has no durable active winner")
  | followUpTaken (h : ¬ (Operation.publishSnapshot (run.request now)).NewIdFree db) :
      Tolerated run db now .integrityError

/-- A candidate that the compiler accepted and the audit passed is published under the same claim
without a rejection of the gate, a transition error or an error about its memberships or metrics,
whatever ran in between. -/
theorem compiled_candidate_publishes {db : Database} (h : repository.Reachable db)
    (run : Iteration db) {late : List Call}
    (hlate : ∀ call ∈ late, ¬ call.operation.transitions run.ready.jobId)
    (faults : FaultInjector) (now : Timestamp) :
    Ensures (Tolerated run (late.foldl repository.next run.readyState) now) (fun _ => True)
      (publishSnapshot faults (late.foldl repository.next run.readyState) (run.request now)) := by
  have hready : repository.Reachable run.readyState := by
    rw [run.readyState_eq]
    exact (foldl_later (run.reachable_viewState h) run.middle).1.next _ _
  have hreachable := (foldl_later hready late).1
  have hsound := sound_of_reachable hreachable
  have hsidecar := sidecarSound_of_reachable hreachable
  refine publishSnapshot_raises hsound ?_ (fun boundary => .staging (.injected boundary)) ?_
    (fun _ _ _ _ => .noWinner) .followUpTaken
  · intro failure hfailure
    obtain ⟨message, rfl⟩ := (run.admitCandidate_ensures h hlate now).error hfailure
    exact .staleLease message
  · intro admission failure hadmission hstage
    obtain ⟨row, hadmits⟩ := admitCandidate_ok hadmission
    exact .staging ((stageCandidate_tolerates hsound hsidecar run.counted hadmits faults).error
      hstage)

end Iteration

namespace WorkerSample

/-- The capsule that the backend of the sample returns. -/
def single : ContextCapsuleEnvelope where
  toCapsuleData := Sample.capsuleData "single" 1 1 ["e1"]

/-- The JSON text of the capsule. -/
def singleDump : String :=
  "\x7b\"capsule_id\":\"single\",\"constraints\":[],\"covered_event_end\":1," ++
    "\"covered_event_start\":1,\"created_at\":\"1970-01-01T00:00:00.000001Z\"," ++
    "\"decisions\":[],\"dependencies\":[],\"emotional_context\":[],\"entities\":[]," ++
    "\"exact_anchors\":[],\"goals\":[],\"level\":\"micro\"," ++
    "\"narrative_summary\":\"summary\",\"open_loops\":[],\"preferences\":[]," ++
    "\"progress\":[],\"quality\":\x7b\"anchor_recall\":1.0,\"coverage_gap\":0," ++
    "\"mechanical_passed\":true,\"source_coverage\":1.0," ++
    "\"unsupported_critical_claims\":0\x7d,\"schema_version\":\"1\"," ++
    "\"session_key\":\x7b\"conversation_id\":\"c\",\"group_id\":null," ++
    "\"message_type\":\"m\",\"persona_id\":null,\"platform_instance_id\":\"p\"," ++
    "\"session_id\":\"s\",\"user_id\":\"u\"\x7d,\"source_event_ids\":[\"e1\"]," ++
    "\"token_cost\":1\x7d"

/-- SHA-256 of the identity payload of the candidate. -/
def candidateHash : String := "eb88ac87b042c5284bcd8408aed15e5e7e6b632bed9124d0161b062e3682141a"

/-- The digests of the texts that the sample hashes. -/
scoped instance : Hashlib where
  sha256Hexdigest text :=
    if text = Sample.session.canonicalJson then Sample.sessionHash else candidateHash

/-- The sample stays within the limits of the codec. -/
scoped instance : SecureCodec := ⟨fun _ _ recordKey _ => decide (recordKey.utf8ByteSize ≤ 4096)⟩

/-- The sample dumps one capsule. -/
scoped instance : CapsuleDump := ⟨fun _ => singleDump⟩

/-- No text of the sample depends on the Unicode tables. -/
scoped instance : UnicodeTables := ⟨fun text => text, fun c => c.isAlphanum⟩

/-- The events of the sample are not JSON. -/
scoped instance : JsonReader := ⟨fun _ => none, fun _ => none⟩

/-- An event is captured and a worker claims the job for it. -/
def claimed : Database :=
  repository.execute (Sample.message "e1" :: (Sample.preparation "job1" 1 "").take 2)

/-- The job of the sample is claimed in a reachable state. -/
theorem reachable_claimed : repository.Reachable claimed :=
  repository.reachable_execute _

/-- The claimed job, as its transitions return it. -/
def job (state : CompactionJobState) (candidateSnapshotId : Option String) : JobData where
  jobId := "job1"
  sessionKey := Sample.session
  state := state
  targetHighWaterMark := 1
  intentTargetHighWaterMark := 1
  baseSnapshotId := none
  basePointerVersion := 0
  candidateSnapshotId := candidateSnapshotId
  attemptCount := 1
  leaseOwner := some "worker"
  leaseEpoch := 1
  leaseExpiresAt := some 9
  nextRetryAt := none
  errorStage := none
  errorCode := none
  errorMessage := none
  createdAt := 1
  updatedAt := 2
  committedAt := none

/-- The job of the sample while it compiles. -/
def compilingJob : CompactionJobEnvelope := ⟨job .compiling none, by decide⟩

/-- The job of the sample when it is ready. -/
def readyJob : CompactionJobEnvelope :=
  ⟨job .readyToCommit (some candidateHash), by decide⟩

/-- The event of the sample. -/
def event : EventEnvelope where
  eventId := "e1"
  sessionKey := Sample.session
  sequence := 1
  eventType := .userMessage
  role := .user
  content := "text"
  sourceHook := .onLlmRequest
  idempotencyKey := "e1"
  tokenCount := 1
  createdAt := 1

/-- The view that the worker compiles. -/
def view : RequestView := ⟨Sample.session, none, [], 0, 0, 1, [event]⟩

/-- The candidate that the worker compiles: one capsule for the event. -/
def snapshot : SnapshotEnvelope where
  toSnapshotData := { Sample.snapshotData candidateHash none 1 [single] with
    tokenCost := 7
    auditOutcome := ⟨true, .notRun, [], SnapshotAuditOutcome.noFailure⟩
    createdAt := 2 }

/-- The job compiles. -/
def started : Database :=
  repository.next claimed ⟨.transitionJob ⟨"job1", "worker", 1, 2⟩ .compiling none, .none⟩

/-- Another event has arrived. -/
def arrived : Database :=
  [Sample.message "e2"].foldl repository.next ([].foldl repository.next started)

/-- The job is ready. -/
def prepared : Database :=
  repository.next arrived
    ⟨.transitionJob ⟨"job1", "worker", 1, 2⟩ .readyToCommit (some candidateHash), .none⟩

/-- The transition to `READY_TO_COMMIT` of the sample. -/
theorem prepared_step : transitionJob .none arrived ⟨"job1", "worker", 1, 2⟩ .readyToCommit
    (some candidateHash) = .ok (prepared, readyJob) :=
  transitionJob_next (by decide +kernel)

/-- The worker compiles and audits the candidate while another event arrives. -/
def iteration : Iteration claimed where
  fence := ⟨"job1", "worker", 1, 2⟩
  compilingFaults := .none
  compilingState := started
  compiling := compilingJob
  compilingStep := transitionJob_next (by decide +kernel)
  early := []
  viewNow := 2
  view := view
  viewRead := by decide +kernel
  backend _ := .output ⟨[single], "context", none, none⟩
  compatibilityCounter text := some text.length
  eventTokenCounts := [("e1", 1)]
  tokenCeiling := 10
  compileNow := 2
  segmenterConfig := {}
  candidate := ⟨snapshot, [⟨0, "memory", single⟩],
    [⟨1, 1, [event], 1, .endOfInput⟩], ⟨true, [], 1, 1, 0, 0⟩, none⟩
  compiled := by decide +kernel
  strictAudit := false
  semanticBackend := none
  audited := ⟨snapshot, [⟨0, "memory", single⟩],
    [⟨1, 1, [event], 1, .endOfInput⟩], ⟨true, [], 1, 1, 0, 0⟩, none⟩
  audit := by decide +kernel
  canonicalCounter := some fun text => some text.length
  canonicalProfileId := "profile"
  metrics := [⟨⟨.capsule, "single", "profile"⟩, 27, by decide⟩,
    ⟨⟨.snapshot, candidateHash, "profile"⟩, 7, by decide⟩]
  counted := by decide +kernel
  middle := [Sample.message "e2"]
  readyNow := 2
  readyFaults := .none
  readyState := prepared
  ready := readyJob
  readyStep := prepared_step

end WorkerSample

open WorkerSample in
/-- The worker of the sample publishes although a third event arrives after its candidate is
ready. -/
theorem compiled_candidate_publishes_sample :
    ∃ run : Iteration claimed, run.audited.snapshot.snapshotId = candidateHash ∧
      ∀ faults now, Ensures
        (Tolerated run ([Sample.message "e3"].foldl repository.next run.readyState) now)
        (fun _ => True) (publishSnapshot faults
          ([Sample.message "e3"].foldl repository.next run.readyState) (run.request now)) := by
  obtain ⟨run, hcandidate⟩ : ∃ run : Iteration claimed,
      run.audited.snapshot.snapshotId = candidateHash := ⟨iteration, rfl⟩
  refine ⟨run, hcandidate, fun faults now => compiled_candidate_publishes reachable_claimed run ?_
    faults now⟩
  intro call hcall
  obtain rfl := List.mem_singleton.mp hcall
  exact id

end AstrContinuum
