import AstrContinuum.Invariants.JobRows

/-!
# Stored values can be read back

The readers check again what the writers have stored: that events form envelopes, that capsules
round-trip, that memberships are numbered from zero and agree with the anchors of their snapshot.
`ReadSound` says that every stored row passes these checks for the session it belongs to, and
`readSound_of_reachable` that no run leads to a row that does not.
-/

namespace AstrContinuum

open Checked Relational Transactional

variable [Hashlib]

/-! ## Bundles -/

/-- What `_snapshot_bundle_by_id` and `_read_request_view` do with a snapshot row they have found. -/
def bundleOf (db : Database) (row : SnapshotRow) (sessionKey : SessionKey) :
    Except StorageFailure (SnapshotEnvelope × List SnapshotCapsuleMembership) := do
  let memberships ← membershipsForSnapshot db row.snapshotId sessionKey
  let snapshot ← snapshotFromRow row sessionKey
    (memberships.map SnapshotCapsuleMembership.capsuleId)
  validateSnapshotMemberships snapshot memberships
  pure (snapshot, memberships)

/-- `_snapshot_bundle_by_id` on a stored snapshot of the session. -/
theorem snapshotBundleById_eq {db : Database} {row : SnapshotRow} {session : SessionRow}
    (hrow : row ∈ db.snapshots) (hsession : session ∈ db.sessions)
    (hhash : session.sessionKeyHash = row.sessionKeyHash)
    (hkey : session.sessionKey.sessionKeyHash = session.sessionKeyHash) :
    snapshotBundleById db row.snapshotId session.sessionKey =
      bundleOf db row session.sessionKey := by
  unfold snapshotBundleById
  rw [Database.snapshotRow_eq_some.mpr ⟨hrow, rfl⟩]
  simp only [orMissing, bind, Except.bind]
  rw [Database.sessionRow_eq_some.mpr ⟨hsession, hhash⟩]
  simp only [sessionKeyFromStorage, require, hkey, if_true, bind, Except.bind, pure, Except.pure]
  rfl

/-- `_read_request_view` on the active snapshot of the session. -/
theorem readActiveSnapshot_eq {db : Database} {sessionKey : SessionKey} {active : ActiveRow}
    {row : SnapshotRow} (hactive : db.activeRow sessionKey.sessionKeyHash = some active)
    (hrow : db.snapshotRow active.snapshotId = some row) :
    readActiveSnapshot db sessionKey = (bundleOf db row sessionKey).map fun bundle =>
      some (bundle.1, bundle.2, active.pointerVersion) := by
  unfold readActiveSnapshot bundleOf
  simp only [hactive, hrow, bind, Except.bind, pure, Except.pure, Except.map]
  cases membershipsForSnapshot db row.snapshotId sessionKey with
  | error e => rfl
  | ok memberships =>
      simp only
      cases snapshotFromRow row sessionKey
          (memberships.map SnapshotCapsuleMembership.capsuleId) with
      | error e => rfl
      | ok snapshot =>
          simp only
          cases validateSnapshotMemberships snapshot memberships <;> rfl

/-- A stored bundle reads the same for ever. -/
theorem Grows.bundleOf_eq {db db' : Database} (h : Grows db db') {row : SnapshotRow}
    (hrow : row ∈ db.snapshots) (sessionKey : SessionKey) :
    bundleOf db' row sessionKey = bundleOf db row sessionKey := by
  unfold bundleOf membershipsForSnapshot
  rw [h.membershipRows_eq (List.mem_map_of_mem hrow : row.snapshotId ∈ db.snapshotIds)]

/-- A bundle that is read has the fields of its row. -/
theorem bundleOf_ok {db : Database} {row : SnapshotRow} {sessionKey : SessionKey}
    {snapshot : SnapshotEnvelope} {memberships : List SnapshotCapsuleMembership}
    (h : bundleOf db row sessionKey = .ok (snapshot, memberships)) :
    snapshot.toSnapshotData =
      row.data sessionKey (memberships.map SnapshotCapsuleMembership.capsuleId) := by
  obtain ⟨memberships', -, h⟩ := bind_ok.mp h
  obtain ⟨snapshot', hsnapshot, h⟩ := bind_ok.mp h
  obtain ⟨_, -, h⟩ := bind_ok.mp h
  obtain ⟨rfl, rfl⟩ : snapshot' = snapshot ∧ memberships' = memberships := by simpa using h
  obtain ⟨envelope, henvelope, hsnapshot⟩ := bind_ok.mp hsnapshot
  obtain ⟨_, -, hsnapshot⟩ := bind_ok.mp hsnapshot
  obtain rfl := pure_ok.mp hsnapshot
  exact SnapshotEnvelope.modelValidate_ok henvelope

/-! ## The invariant -/

/-- Every stored snapshot and capsule is read back for its session. -/
structure ReadSound (db : Database) : Prop where
  snapshots : ∀ row ∈ db.snapshots, ∀ session ∈ db.sessions,
    session.sessionKeyHash = row.sessionKeyHash →
    ∃ bundle, bundleOf db row session.sessionKey = .ok bundle
  capsules : ∀ row ∈ db.capsules, ∀ session ∈ db.sessions,
    session.sessionKeyHash = row.sessionKeyHash → row.RoundTrips session.sessionKey

/-- The row of a capsule round-trips for its session. -/
theorem ContextCapsuleEnvelope.row_roundTrips {capsule : ContextCapsuleEnvelope}
    {sessionKey : SessionKey} (h : capsule.sessionKey = sessionKey) :
    capsule.row.RoundTrips sessionKey := by
  subst h
  exact ⟨rfl, rfl, rfl, rfl, rfl, rfl, rfl, rfl, rfl⟩

/-- Memberships that are numbered from an ordinal on are read back from it on. -/
theorem membershipsFrom_rows {sessionKey : SessionKey} {snapshotId : String} {ordinal : Nat}
    {memberships : List SnapshotCapsuleMembership}
    (hordinals : memberships.map SnapshotCapsuleMembership.ordinal =
      List.range' ordinal memberships.length)
    (hsession : ∀ item ∈ memberships, item.capsule.sessionKey = sessionKey) :
    membershipsFrom sessionKey ordinal
      (memberships.map fun item => (item.row snapshotId, item.capsule.row)) = .ok memberships := by
  induction memberships generalizing ordinal with
  | nil => rfl
  | cons item rest ih =>
      obtain ⟨hfirst, hrest⟩ := List.cons.inj hordinals
      have htail := ih hrest fun other hother => hsession other (List.mem_cons_of_mem _ hother)
      have hround : (item.row snapshotId).ordinal = ordinal ∧
          item.capsule.row.RoundTrips sessionKey :=
        ⟨hfirst, item.capsule.row_roundTrips (hsession item List.mem_cons_self)⟩
      refine bind_ok.mpr ⟨(), require_ok.mpr hround, bind_ok.mpr ⟨rest, htail, ?_⟩⟩
      rw [← hfirst]
      rfl

/-- The capsules of an admitted candidate belong to the session of its job. -/
theorem Admits.capsule_sessionKey {db : Database} {request : PublishRequest} {admission : Admission}
    {row : JobRow} (h : Admits db request admission row) :
    ∀ capsule ∈ request.candidateCapsules, capsule.sessionKey = admission.job.sessionKey := by
  obtain ⟨previous, sourceEvents, -, -, hpassed⟩ := h.gate
  have hfails := validate_permanent_passed.mp hpassed .sessionKeyMismatch
  simp only [PermanentInput.Fails, not_or, not_exists, not_and, not_not] at hfails
  intro capsule hcapsule
  rw [← h.session]
  exact hfails.1 capsule hcapsule

/-- A committed candidate is read back. -/
theorem Admits.bundleOf_committed {db staged db' : Database} {request : PublishRequest}
    {admission : Admission} {row : JobRow} (h : Admits db request admission row)
    (hstaged : Staged db request admission.job admission.committed staged)
    {jobs : List JobRow} (htables : db'.toTables = staged.withJobs jobs) :
    bundleOf db' request.snapshotRow admission.job.sessionKey =
      .ok (admission.committed, request.memberships) := by
  have hholds := Database.Holds.of_eq htables
  have hid : admission.committed.snapshotId = request.snapshotRow.snapshotId := by
    rw [h.committed]
    rfl
  have hrows : db'.membershipRows request.snapshotRow.snapshotId = request.memberships.map
      fun item => (item.row request.snapshotRow.snapshotId, item.capsule.row) := by
    have hsame : db'.membershipRows request.snapshotRow.snapshotId =
        staged.membershipRows request.snapshotRow.snapshotId := by
      simp only [Database.membershipRows, hholds.snapshotCapsules, hholds.capsules]
      rfl
    rw [hsame, ← hid, hstaged.membershipRows_eq h.memberships]
  have hmemberships : membershipsForSnapshot db' request.snapshotRow.snapshotId
      admission.job.sessionKey = .ok request.memberships := by
    unfold membershipsForSnapshot
    rw [hrows]
    refine membershipsFrom_rows ?_ fun item hitem =>
      h.capsule_sessionKey item.capsule (List.mem_map_of_mem hitem)
    rw [h.memberships.ordinals, List.range_eq_range']
  have hdata : request.snapshotRow.data admission.job.sessionKey
      (request.memberships.map SnapshotCapsuleMembership.capsuleId) =
        admission.committed.toSnapshotData := by
    rw [← h.memberships.ids, ← h.session, h.committed]
    rfl
  have hhash : request.snapshotRow.sessionKeyHash =
      admission.job.sessionKey.sessionKeyHash := by
    rw [← h.session]
    rfl
  have hsnapshot : snapshotFromRow request.snapshotRow admission.job.sessionKey
      (request.memberships.map SnapshotCapsuleMembership.capsuleId) =
        .ok admission.committed := by
    refine bind_ok.mpr ⟨admission.committed, ?_, bind_ok.mpr ⟨(), require_ok.mpr hhash, rfl⟩⟩
    rw [hdata]
    exact dif_pos admission.committed.valid
  obtain ⟨previous, sourceEvents, -, -, hpassed⟩ := h.gate
  have hanchors := validate_permanent_passed.mp hpassed .snapshotAnchorMismatch
  simp only [PermanentInput.Fails, not_not] at hanchors
  have hvalid : validateSnapshotMemberships admission.committed request.memberships = .ok () := by
    refine bind_ok.mpr ⟨(), require_ok.mpr ⟨h.memberships.nonempty, ?_⟩, require_ok.mpr ?_⟩
    · rw [h.committed]
      exact h.memberships.ids
    · rw [h.committed]
      exact hanchors
  exact bind_ok.mpr ⟨_, hmemberships, bind_ok.mpr ⟨_, hsnapshot, bind_ok.mpr ⟨_, hvalid, rfl⟩⟩⟩

omit [Hashlib] in
/-- Two stored sessions of one hash are the same. -/
theorem Database.session_eq {db : Database} {session session' : SessionRow}
    (h : session ∈ db.sessions) (h' : session' ∈ db.sessions)
    (hhash : session.sessionKeyHash = session'.sessionKeyHash) : session = session' :=
  db.consistent.sessions.primaryKey.eq_of_key h h' hhash

omit [Hashlib] in
/-- A session that is stored after a call was stored before under the same key, if its hash was. -/
theorem Grows.session_before {db db' : Database} (h : Grows db db') {session' : SessionRow}
    (hsession' : session' ∈ db'.sessions) (hhash : session'.sessionKeyHash ∈ db.sessionKeys) :
    ∃ session ∈ db.sessions, session.sessionKeyHash = session'.sessionKeyHash ∧
      session.sessionKey = session'.sessionKey := by
  obtain ⟨session, hsession, hsame⟩ := List.mem_map.mp hhash
  obtain ⟨later, hlater, hhash', hkey, -⟩ := h.sessions session hsession
  obtain rfl := Database.session_eq hlater hsession' (hhash'.trans hsame)
  exact ⟨session, hsession, hsame, hkey.symm⟩

/-- Rows that were stored before a call are read back after it. -/
theorem ReadSound.grows {db db' : Database} (h : ReadSound db) (hgrows : Grows db db') :
    (∀ row ∈ db.snapshots, ∀ session ∈ db'.sessions,
      session.sessionKeyHash = row.sessionKeyHash →
        ∃ bundle, bundleOf db' row session.sessionKey = .ok bundle) ∧
    ∀ row ∈ db.capsules, ∀ session ∈ db'.sessions,
      session.sessionKeyHash = row.sessionKeyHash → row.RoundTrips session.sessionKey := by
  constructor
  · intro row hrow session hsession hhash
    obtain ⟨before, hbefore, hhash', hkey⟩ := hgrows.session_before hsession
      (hhash ▸ db.consistent.snapshots.session row hrow _ rfl)
    rw [hgrows.bundleOf_eq hrow, ← hkey]
    exact h.snapshots row hrow before hbefore (hhash'.trans hhash)
  · intro row hrow session hsession hhash
    obtain ⟨before, hbefore, hhash', hkey⟩ := hgrows.session_before hsession
      (hhash ▸ db.consistent.capsules.session row hrow _ rfl)
    rw [← hkey]
    exact h.capsules row hrow before hbefore (hhash'.trans hhash)

/-- Every committed call keeps stored rows readable. -/
theorem Effect.readSound {db db' : Database} {operation : Operation} {response : Response}
    (h : Effect db operation db' response) (hread : ReadSound db) : ReadSound db' := by
  obtain ⟨hsnapshotRows, hcapsuleRows⟩ := hread.grows h.grows
  have hkeep : db'.snapshots = db.snapshots → db'.capsules = db.capsules → ReadSound db' := by
    intro hsnapshots hcapsules
    exact ⟨by rw [hsnapshots]; exact hsnapshotRows, by rw [hcapsules]; exact hcapsuleRows⟩
  cases h with
  | captured _ heffect =>
      cases heffect with
      | replayed _ hold | appended _ _ _ _ _ _ hold => exact hkeep hold.snapshots hold.capsules
  | sidecar _ hholds => exact hkeep hholds.snapshots hholds.capsules
  | intentCovered | intentCarried | claimedNone | viewed => exact hread
  | intentFolded _ _ _ _ _ htables | intentQueued _ _ _ htables | claimed _ _ _ htables
  | transitioned _ _ _ htables | renewed _ _ htables | failed _ _ htables
  | recovered htables | superseded _ _ _ _ _ htables =>
      have hholds := Database.Holds.of_eq htables
      exact hkeep hholds.snapshots hholds.capsules
  | @committed request admission row staged _ _ hadmits hstaged _ _ htables =>
      have hholds := Database.Holds.of_eq htables
      have hsessions : db'.sessions = db.sessions := hholds.sessions.trans hstaged.sessions
      obtain ⟨owner, howner, hownerHash, hownerKey⟩ := hadmits.sessionRow
      -- The only stored session with the hash of the job is that of the job.
      have hjobSession : ∀ session ∈ db'.sessions,
          session.sessionKeyHash = row.sessionKeyHash →
          session.sessionKey = admission.job.sessionKey := by
        intro session hsession hhash
        rw [hsessions] at hsession
        rw [Database.session_eq hsession howner (hhash.trans hownerHash.symm), hownerKey]
      constructor
      · intro snapshot hsnapshot session hsession hhash
        rw [hholds.snapshots.trans (hadmits.snapshots_eq hstaged)] at hsnapshot
        rcases List.mem_append.mp hsnapshot with hsnapshot | hsnapshot
        · exact hsnapshotRows snapshot hsnapshot session hsession hhash
        · obtain rfl := List.mem_singleton.mp hsnapshot
          rw [hjobSession session hsession (hhash.trans hadmits.snapshotRow_session)]
          exact ⟨_, hadmits.bundleOf_committed hstaged htables⟩
      · intro capsuleRow hcapsuleRow session hsession hhash
        obtain ⟨added, hcapsules, hadded⟩ := hstaged.capsules
        rw [hholds.capsules.trans hcapsules] at hcapsuleRow
        rcases List.mem_append.mp hcapsuleRow with hold | hnew
        · exact hcapsuleRows capsuleRow hold session hsession hhash
        · obtain ⟨capsule, hcapsule, rfl⟩ := List.mem_map.mp hnew
          have hkey := hadmits.capsule_sessionKey capsule (hadded capsule hcapsule)
          have hcapsuleHash : capsule.row.sessionKeyHash = row.sessionKeyHash := by
            rw [← hadmits.represents.session, ← hkey]
            rfl
          rw [hjobSession session hsession (hhash.trans hcapsuleHash)]
          exact capsule.row_roundTrips hkey

/-! ## Events -/

omit [Hashlib] in
/-- The `CHECK`s of an event row are enough for its envelope. -/
theorem EventRow.Check.valid {row : EventRow} (h : row.Check) (sessionKey : SessionKey) :
    (row.data sessionKey).Valid := by
  obtain ⟨hid, hsequence, hkey, hmapping⟩ := h
  refine ⟨?_, hsequence, ?_, hmapping⟩
  · rintro hempty
    rw [show row.eventId = "" from hempty] at hid
    exact absurd hid (by decide)
  · rintro hempty
    rw [show row.idempotencyKey = "" from hempty] at hkey
    exact absurd hkey (by decide)

/-- A stored event is read back as the event that its row stores. -/
theorem eventFromRow_total {db : Database} {row : EventRow} (hrow : row ∈ db.journalEvents)
    {sessionKey : SessionKey} (hhash : row.sessionKeyHash = sessionKey.sessionKeyHash) :
    ∃ event, eventFromRow sessionKey row = .ok event ∧ event.row = row := by
  have hvalid := (db.consistent.journalEvents.check row hrow).valid sessionKey
  refine ⟨⟨row.data sessionKey, hvalid⟩, ?_, ?_⟩
  · exact bind_ok.mpr ⟨(), require_ok.mpr hhash, dif_pos hvalid⟩
  · simp only [EventEnvelope.row, EventRow.data, ← hhash]

/-- Every range of the journal is read back. -/
theorem eventsBetween_total (db : Database) (sessionKey : SessionKey) (start stop : Nat) :
    ∃ events, eventsBetween db sessionKey start stop = .ok events ∧
      events.map EventEnvelope.row =
        db.eventRowsBetween sessionKey.sessionKeyHash start stop := by
  unfold eventsBetween
  have hrows : ∀ row ∈ db.eventRowsBetween sessionKey.sessionKeyHash start stop,
      ∃ event, eventFromRow sessionKey row = .ok event ∧ event.row = row := by
    intro row hrow
    obtain ⟨hmem, hselected⟩ := List.mem_filter.mp (mem_orderBy.mp hrow)
    simp only [Bool.and_eq_true, decide_eq_true_eq] at hselected
    exact eventFromRow_total hmem hselected.1.1
  obtain ⟨events, hevents, hall⟩ := mapM_total hrows
  refine ⟨events, hevents, ?_⟩
  rw [← List.forall₂_eq_eq_eq, List.forall₂_map_left_iff]
  exact hall.flip

/-- A range of the journal is that range of the session's events, in the order they were appended. -/
theorem JournalSound.eventRowsBetween_eq {db : Database} (h : JournalSound db)
    {session : SessionRow} (hsession : session ∈ db.sessions) (start stop : Nat) :
    db.eventRowsBetween session.sessionKeyHash start stop =
      (db.journal session.sessionKeyHash).filter fun row =>
        decide (start < row.sequence) && decide (row.sequence ≤ stop) := by
  have hsame : db.journalEvents.filter (fun row =>
      decide (row.sessionKeyHash = session.sessionKeyHash) && decide (start < row.sequence) &&
        decide (row.sequence ≤ stop)) =
      (db.journal session.sessionKeyHash).filter fun row =>
        decide (start < row.sequence) && decide (row.sequence ≤ stop) := by
    rw [Database.journal, List.filter_filter]
    refine List.filter_congr fun row _ => ?_
    rw [Bool.and_assoc, Bool.and_comm]
  unfold Database.eventRowsBetween
  rw [hsame]
  refine orderBy_eq_self (List.Pairwise.filter _ ?_)
  have hsorted : ((db.journal session.sessionKeyHash).map EventRow.sequence).Pairwise
      fun a b => a ≤ b := by
    rw [h.sequences session hsession]
    exact List.pairwise_le_range'
  exact List.pairwise_map.mp hsorted

/-- A range below the high-water mark has every sequence once, in order. -/
theorem JournalSound.sequencesBetween {db : Database} (h : JournalSound db)
    {session : SessionRow} (hsession : session ∈ db.sessions) {start stop : Nat}
    (hstop : stop ≤ session.nextEventSequence - 1) :
    (db.eventRowsBetween session.sessionKeyHash start stop).map EventRow.sequence =
      deltaSequences start stop := by
  have hmapped := List.filter_map (f := EventRow.sequence)
    (p := fun i => decide (start < i) && decide (i ≤ stop))
    (l := db.journal session.sessionKeyHash)
  rw [h.eventRowsBetween_eq hsession]
  refine Eq.trans hmapped.symm ?_
  rw [h.sequences session hsession]
  exact filter_range' (by omega) (by omega)

variable [SecureCodec]

/-- In every reachable state every stored row is read back. -/
theorem readSound_of_reachable {db : Database} (h : repository.Reachable db) : ReadSound db := by
  suffices hboth : Sound db ∧ ReadSound db from hboth.2
  refine System.reachable_invariant repository (P := fun db => Sound db ∧ ReadSound db)
    ⟨sound_empty, ?_⟩ ?_ h
  · exact ⟨by simp [repository, Database.empty], by simp [repository, Database.empty]⟩
  · intro db call db' response hsound hstep
    exact ⟨hsound.1.step hstep, (hsound.1.effect hstep).readSound hsound.2⟩

end AstrContinuum
