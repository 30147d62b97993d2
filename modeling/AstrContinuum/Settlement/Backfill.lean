import AstrContinuum.Invariants.Readable
import AstrContinuum.Invariants.Sidecar
import AstrContinuum.Settlement.Staging
import AstrContinuum.Storage.Backfill

/-!
# Backfill rounds

A round reads the first artifacts without a metric, counts them and writes the counts, while other
clients keep capturing events. `readMetricBackfillBatch_total` and `writeMetricBackfillBatch_total`
say that both halves succeed, and `missingMetrics_written` that the write removes exactly the batch.
-/

namespace AstrContinuum

open Checked Relational Transactional

/-! ## Artifacts -/

/-- The artifacts of a session are its events, its capsules and its snapshots. -/
theorem Database.mem_artifacts {db : Database} {hash : String} {row : MissingRow} :
    row ∈ db.artifacts hash ↔
      (∃ event ∈ db.journalEvents, event.sessionKeyHash = hash ∧ row = .ofEvent event) ∨
      (∃ capsule ∈ db.capsules, capsule.sessionKeyHash = hash ∧ row = .ofCapsule capsule) ∨
      ∃ snapshot ∈ db.snapshots, snapshot.sessionKeyHash = hash ∧ row = .ofSnapshot snapshot := by
  simp only [Database.artifacts, List.mem_append, List.mem_map, List.mem_filter,
    decide_eq_true_eq, or_assoc, and_assoc, eq_comm (a := row)]

/-- The artifacts of a session stay while the history grows. -/
theorem Grows.artifacts {db db' : Database} (h : Grows db db') {hash : String} {row : MissingRow}
    (hrow : row ∈ db.artifacts hash) : row ∈ db'.artifacts hash := by
  obtain ⟨events, hevents, -⟩ := h.journalEvents
  obtain ⟨capsules, hcapsules⟩ := h.capsules
  obtain ⟨snapshots, hsnapshots⟩ := h.snapshots
  rw [Database.mem_artifacts, hevents, hcapsules, hsnapshots]
  rcases Database.mem_artifacts.mp hrow with ⟨event, hevent, hsame⟩ | ⟨capsule, hcapsule, hsame⟩ |
    ⟨snapshot, hsnapshot, hsame⟩
  · exact .inl ⟨event, List.mem_append_left _ hevent, hsame⟩
  · exact .inr (.inl ⟨capsule, List.mem_append_left _ hcapsule, hsame⟩)
  · exact .inr (.inr ⟨snapshot, List.mem_append_left _ hsnapshot, hsame⟩)

/-- A sidecar write keeps the artifacts. -/
theorem Database.Holds.artifacts_eq {db db' : Database} (h : db'.Holds db.toTables)
    (hash : String) : db'.artifacts hash = db.artifacts hash := by
  unfold Database.artifacts
  rw [h.journalEvents, h.capsules, h.snapshots]

/-- An artifact has no metric exactly when no stored metric has its key. -/
theorem mem_missingMetrics {db : Database} {hash profileId : String} {row : MissingRow} :
    row ∈ missingMetrics db hash profileId ↔
      row ∈ db.artifacts hash ∧ ∀ metric ∈ db.tokenMetrics, metric.key ≠ row.key profileId := by
  unfold missingMetrics Database.metricRow
  rw [List.mem_filter, Option.isNone_iff_eq_none, find_eq_none]

/-- No artifact is listed twice: ids are unique within their kind. -/
theorem Database.artifacts_nodup (db : Database) (hash : String) : (db.artifacts hash).Nodup := by
  have hevents : ((db.journalEvents.filter fun row => row.sessionKeyHash = hash).map
      MissingRow.ofEvent).Nodup := by
    refine List.Nodup.of_map MissingRow.artifactId ?_
    rw [List.map_map]
    exact db.consistent.journalEvents.primaryKey.sublist (List.filter_sublist.map _)
  have hcapsules : ((db.capsules.filter fun row => row.sessionKeyHash = hash).map
      MissingRow.ofCapsule).Nodup := by
    refine List.Nodup.of_map MissingRow.artifactId ?_
    rw [List.map_map]
    exact db.consistent.capsules.primaryKey.sublist (List.filter_sublist.map _)
  have hsnapshots : ((db.snapshots.filter fun row => row.sessionKeyHash = hash).map
      MissingRow.ofSnapshot).Nodup := by
    refine List.Nodup.of_map MissingRow.artifactId ?_
    rw [List.map_map]
    exact db.consistent.snapshots.primaryKey.sublist (List.filter_sublist.map _)
  refine List.nodup_append.mpr ⟨List.nodup_append.mpr ⟨hevents, hcapsules, ?_⟩, hsnapshots, ?_⟩
  · intro row hrow other hother heq
    obtain ⟨event, -, rfl⟩ := List.mem_map.mp hrow
    obtain ⟨capsule, -, rfl⟩ := List.mem_map.mp hother
    cases congrArg MissingRow.kindRank heq
  · intro row hrow other hother heq
    obtain ⟨snapshot, -, rfl⟩ := List.mem_map.mp hother
    rcases List.mem_append.mp hrow with hrow | hrow
    · obtain ⟨event, -, rfl⟩ := List.mem_map.mp hrow
      cases congrArg MissingRow.kindRank heq
    · obtain ⟨capsule, -, rfl⟩ := List.mem_map.mp hrow
      cases congrArg MissingRow.kindRank heq

/-- Two artifacts of a session with the same metric key are one. -/
theorem Database.artifact_eq (db : Database) {hash profileId : String} {row other : MissingRow}
    (hrow : row ∈ db.artifacts hash) (hother : other ∈ db.artifacts hash)
    (hkey : row.key profileId = other.key profileId) : row = other := by
  have hkind : row.artifactKind = other.artifactKind := congrArg MetricKey.artifactKind hkey
  have hid : row.artifactId = other.artifactId := congrArg MetricKey.artifactId hkey
  rcases Database.mem_artifacts.mp hrow with ⟨event, hmem, -, rfl⟩ | ⟨capsule, hmem, -, rfl⟩ |
      ⟨snapshot, hmem, -, rfl⟩ <;>
    rcases Database.mem_artifacts.mp hother with ⟨event', hmem', -, rfl⟩ |
      ⟨capsule', hmem', -, rfl⟩ | ⟨snapshot', hmem', -, rfl⟩ <;> try cases hkind
  · rw [db.consistent.journalEvents.primaryKey.eq_of_key hmem hmem' hid]
  · rw [db.consistent.capsules.primaryKey.eq_of_key hmem hmem' hid]
  · rw [db.consistent.snapshots.primaryKey.eq_of_key hmem hmem' hid]

/-- The owner of an artifact of a session is the session. -/
theorem artifactOwner_of_mem {db : Database} {hash : String} {row : MissingRow}
    (hrow : row ∈ db.artifacts hash) (profileId : String) :
    artifactOwner db (row.key profileId) = some hash := by
  rcases Database.mem_artifacts.mp hrow with ⟨event, hmem, hhash, rfl⟩ |
    ⟨capsule, hmem, hhash, rfl⟩ | ⟨snapshot, hmem, hhash, rfl⟩
  · have hfound := db.consistent.journalEvents.primaryKey.find_eq_some.mpr ⟨hmem, rfl⟩
    exact Option.map_eq_some_iff.mpr ⟨event, hfound, hhash⟩
  · have hfound := Database.capsuleRow_eq_some.mpr ⟨hmem, rfl⟩
    exact Option.map_eq_some_iff.mpr ⟨capsule, hfound, hhash⟩
  · have hfound := Database.snapshotRow_eq_some.mpr ⟨hmem, rfl⟩
    exact Option.map_eq_some_iff.mpr ⟨snapshot, hfound, hhash⟩

/-- The id of an artifact is not blank to SQLite. -/
theorem trimNonEmpty_artifactId {db : Database} {hash : String} {row : MissingRow}
    (hrow : row ∈ db.artifacts hash) : trimNonEmpty row.artifactId = true := by
  rcases Database.mem_artifacts.mp hrow with ⟨event, hmem, -, rfl⟩ | ⟨capsule, hmem, -, rfl⟩ |
    ⟨snapshot, hmem, -, rfl⟩
  · exact (db.consistent.journalEvents.check event hmem).1
  · exact (db.consistent.capsules.check capsule hmem).1
  · exact (db.consistent.snapshots.check snapshot hmem).1

/-! ## Reading -/

section Reading

variable [Hashlib]

/-- The text of an artifact, from the stored rows. -/
def IsText (db : Database) (row : MissingRow) (text : String) : Prop :=
  ∀ event ∈ db.journalEvents, row = .ofEvent event → text = event.content

/-- The text of every artifact of a stored session can be read. -/
theorem artifactText_total {db : Database} (hsound : JournalSound db) (hread : ReadSound db)
    {session : SessionRow} (hsession : session ∈ db.sessions) {row : MissingRow}
    (hrow : row ∈ db.artifacts session.sessionKeyHash) :
    ∃ text, artifactText db session.sessionKey row = .ok text ∧ IsText db row text := by
  have hkey := hsound.hash session hsession
  rcases Database.mem_artifacts.mp hrow with ⟨event, hmem, hhash, rfl⟩ |
    ⟨capsule, hmem, hhash, rfl⟩ | ⟨snapshot, hmem, hhash, rfl⟩
  · have hown : event.sessionKeyHash = session.sessionKey.sessionKeyHash := hhash.trans hkey.symm
    have hfound : db.journalEvents.find? (fun other => decide (other.eventId = event.eventId) &&
        decide (other.sessionKeyHash = session.sessionKey.sessionKeyHash)) = some event :=
      db.consistent.journalEvents.primaryKey.find_select hmem (by simp [hown])
        (by simp +contextual)
    obtain ⟨envelope, henvelope, hsame⟩ := eventFromRow_total hmem hown
    refine ⟨envelope.content, ?_, ?_⟩
    · refine bind_ok.mpr ⟨event, orMissing_ok.mpr hfound, ?_⟩
      exact bind_ok.mpr ⟨envelope, henvelope, rfl⟩
    · intro other hother heq
      have hid : event.eventId = other.eventId := congrArg MissingRow.artifactId heq
      obtain rfl := db.consistent.journalEvents.primaryKey.eq_of_key hmem hother hid
      exact congrArg EventRow.content hsame
  · have hown : capsule.sessionKeyHash = session.sessionKey.sessionKeyHash :=
      hhash.trans hkey.symm
    have hfound : db.capsules.find? (fun other => decide (other.capsuleId = capsule.capsuleId) &&
        decide (other.sessionKeyHash = session.sessionKey.sessionKeyHash)) = some capsule :=
      db.consistent.capsules.primaryKey.find_select hmem (by simp [hown]) (by simp +contextual)
    refine ⟨renderCapsule capsule.canonicalCapsule, ?_, fun event _ heq => ?_⟩
    · refine bind_ok.mpr ⟨capsule, orMissing_ok.mpr hfound, ?_⟩
      refine bind_ok.mpr ⟨capsule.canonicalCapsule, ?_, rfl⟩
      exact require_bind_pos (hread.capsules capsule hmem session hsession hhash.symm)
    · cases congrArg MissingRow.kindRank heq
  · obtain ⟨⟨envelope, memberships⟩, hbundle⟩ :=
      hread.snapshots snapshot hmem session hsession hhash.symm
    refine ⟨envelope.renderedContext, ?_, fun event _ heq => ?_⟩
    · refine bind_ok.mpr ⟨(envelope, memberships), ?_, rfl⟩
      show snapshotBundleById db snapshot.snapshotId session.sessionKey = _
      rw [snapshotBundleById_eq hmem hsession hhash.symm hkey, hbundle]
    · cases congrArg MissingRow.kindRank heq

/-- The artifacts that a batch reads: the first ones without a metric. -/
def backfillBatch (db : Database) (hash profileId : String) (limit : Int) : List MissingRow :=
  (orderBy MissingRow.sortKey (missingMetrics db hash profileId)).take limit.toNat

omit [Hashlib] in
/-- A batch reads artifacts without a metric only. -/
theorem mem_backfillBatch {db : Database} {hash profileId : String} {limit : Int}
    {row : MissingRow} (h : row ∈ backfillBatch db hash profileId limit) :
    row ∈ missingMetrics db hash profileId :=
  mem_orderBy.mp (List.mem_of_mem_take h)

omit [Hashlib] in
/-- A batch reads as many artifacts as there are, up to the limit. -/
theorem length_backfillBatch (db : Database) (hash profileId : String) (limit : Int) :
    (backfillBatch db hash profileId limit).length =
      min limit.toNat (missingMetrics db hash profileId).length := by
  rw [backfillBatch, List.length_take, orderBy, List.length_insertionSort]

omit [Hashlib] in
/-- A batch reads no artifact twice. -/
theorem backfillBatch_nodup (db : Database) (hash profileId : String) (limit : Int) :
    (backfillBatch db hash profileId limit).Nodup := by
  refine List.Nodup.sublist (List.take_sublist _ _) ?_
  exact (List.perm_insertionSort _ _).nodup_iff.mpr
    ((db.artifacts_nodup hash).sublist List.filter_sublist)

/-- `requireSessionIdentity` accepts a stored session. -/
theorem requireSessionIdentity_total {db : Database} (hsound : JournalSound db)
    {session : SessionRow} (hsession : session ∈ db.sessions) :
    requireSessionIdentity db session.sessionKey = .ok () := by
  have hkey := hsound.hash session hsession
  refine bind_ok.mpr ⟨session, orMissing_ok.mpr ?_, ?_⟩
  · exact Database.sessionRow_eq_some.mpr ⟨hsession, hkey.symm⟩
  · exact bind_ok.mpr ⟨session.sessionKey, sessionKeyFromStorage_ok.mpr ⟨rfl, hkey⟩,
      require_ok.mpr rfl⟩

/-- A metric counts an artifact: it has the key of the artifact and the count of its text. -/
def Counts (db : Database) (count : String → Nat) (profileId : String) (row : MissingRow)
    (metric : TokenMetric) : Prop :=
  metric.key = row.key profileId ∧ ∃ text, IsText db row text ∧ metric.tokenCount = count text

/-- A batch of a stored session is read and counted when its ids are not blank to Python. -/
theorem readMetricBackfillBatch_total {db : Database} (hsound : JournalSound db)
    (hread : ReadSound db) {session : SessionRow} (hsession : session ∈ db.sessions)
    {profileId : String} (hprofile : stripNonEmpty profileId = true) {limit : Int}
    (hlimit : 1 ≤ limit ∧ limit ≤ maxMetricBackfillBatch)
    (hids : ∀ row ∈ backfillBatch db session.sessionKeyHash profileId limit,
      stripNonEmpty row.artifactId = true) (count : String → Nat) :
    ∃ artifacts metrics,
      readMetricBackfillBatch db session.sessionKey profileId limit = .ok artifacts ∧
      artifacts.mapM (countedMetric count) = .ok metrics ∧
      artifacts.map (fun artifact => (artifact.artifactKind, artifact.artifactId)) =
        (backfillBatch db session.sessionKeyHash profileId limit).map
          (fun row => (row.artifactKind, row.artifactId)) ∧
      List.Forall₂ (Counts db count profileId)
        (backfillBatch db session.sessionKeyHash profileId limit) metrics := by
  have hkey := hsound.hash session hsession
  have hrows : ∀ row ∈ backfillBatch db session.sessionKeyHash profileId limit,
      ∃ artifact, metricBackfillArtifact db session.sessionKey profileId row = .ok artifact ∧
        ((row.artifactKind, row.artifactId) = (artifact.artifactKind, artifact.artifactId) ∧
          ∃ metric, countedMetric count artifact = .ok metric ∧
            Counts db count profileId row metric) := by
    intro row hrow
    have hartifact := (mem_missingMetrics.mp (mem_backfillBatch hrow)).1
    obtain ⟨text, htext, his⟩ := artifactText_total hsound hread hsession hartifact
    refine ⟨⟨row.artifactKind, row.artifactId, profileId, row.sortKey, text⟩, ?_, rfl,
      ⟨row.key profileId, count text, hids row hrow, hprofile⟩, ?_, rfl, text, his, rfl⟩
    · exact bind_ok.mpr ⟨text, htext, rfl⟩
    · exact (dif_pos (hids row hrow)).trans (dif_pos hprofile)
  obtain ⟨artifacts, hartifacts, hall⟩ := mapM_total hrows
  obtain ⟨metrics, hmetrics, hcounts⟩ := mapM_forall₂ (hall.imp fun _ _ h => h.2)
  refine ⟨artifacts, metrics, ?_, hmetrics, ?_, hcounts⟩
  · refine bind_ok.mpr ⟨(), require_ok.mpr hprofile, ?_⟩
    refine bind_ok.mpr ⟨(), require_ok.mpr hlimit, ?_⟩
    refine bind_ok.mpr ⟨(), requireSessionIdentity_total hsound hsession, ?_⟩
    rw [hkey]
    exact hartifacts
  · rw [← List.forall₂_eq_eq_eq, List.forall₂_map_left_iff, List.forall₂_map_right_iff]
    exact hall.flip.imp fun _ _ h => h.1.symm

end Reading

/-! ## Writing -/

section Writing

variable [Hashlib] [SecureCodec]

/-- A batch is written when none of its metrics is refused. -/
theorem writeMetricBackfillBatch_total {db : Database} (hsound : JournalSound db)
    {session : SessionRow} (hsession : session ∈ db.sessions) {metrics : List TokenMetric}
    (hlength : metrics.length ≤ maxMetricBackfillBatch)
    (hdistinct : (metrics.map TokenMetric.key).Nodup)
    (howner : ∀ metric ∈ metrics, artifactOwner db metric.key = some session.sessionKeyHash)
    (haccepted : ∀ metric ∈ metrics, metricRefused db metric = false) (now : Timestamp) :
    ∃ db', writeMetricBackfillBatch .none db session.sessionKey metrics now =
      .ok (db', metrics) := by
  have hkey := hsound.hash session hsession
  have hmem : ∀ entry ∈ metrics.zipIdx, entry.1 ∈ metrics := fun entry hentry =>
    (List.fst_mem_of_mem_zipIdx hentry)
  have hloop : Ensures (fun _ => False) (fun _ => True)
      (forEach (backfillMetric .none session.sessionKey.sessionKeyHash now) db
        metrics.zipIdx) := by
    refine (Ensures.forEach (fun (rest : List (TokenMetric × Nat)) (state : Database) =>
      state.Holds db.toTables ∧ MetricsLeft db rest state ∧
        ∀ entry ∈ rest, entry.1 ∈ metrics) ?_ ?_).mono fun _ _ => trivial
    · rintro entry rest state ⟨hholds, hleft, hrest⟩
      have hentry := hrest entry List.mem_cons_self
      have hwrite := writeMetric_cases now hleft
      rw [haccepted entry.1 hentry] at hwrite
      obtain ⟨state', hstate, hleft'⟩ := hwrite
      refine (Ensures.require fun hne => hne ?_).bind fun _ _ => ?_
      · rw [hholds.artifactOwner_eq, hkey]
        exact howner entry.1 hentry
      · rw [hstate]
        exact ⟨(writeMetric_holds hstate).trans hholds, hleft',
          fun other hother => hrest other (List.mem_cons_of_mem _ hother)⟩
    · refine ⟨.of_eq rfl, ⟨?_, fun _ _ => rfl⟩, hmem⟩
      rw [show (fun entry : TokenMetric × Nat => entry.1.key) = TokenMetric.key ∘ Prod.fst from
        rfl, ← List.map_map, List.zipIdx_map_fst]
      exact hdistinct
  obtain ⟨db', hwritten, -⟩ := hloop.returns
  refine ⟨db', ?_⟩
  refine bind_ok.mpr ⟨(), require_ok.mpr hlength, ?_⟩
  refine bind_ok.mpr ⟨(), requireSessionIdentity_total hsound hsession, ?_⟩
  exact bind_ok.mpr ⟨db', hwritten, rfl⟩

omit [Hashlib] [SecureCodec] in
/-- A written batch removes exactly its keys from the artifacts without a metric. -/
theorem MetricsWritten.mem_missingMetrics {db db' : Database} {metrics : List TokenMetric}
    (h : MetricsWritten db metrics db') {hash profileId : String} {row : MissingRow} :
    row ∈ missingMetrics db' hash profileId ↔
      row ∈ missingMetrics db hash profileId ∧
        row.key profileId ∉ metrics.map TokenMetric.key := by
  rw [AstrContinuum.mem_missingMetrics, AstrContinuum.mem_missingMetrics, h.holds.artifacts_eq]
  obtain ⟨added, hadded, hkeys⟩ := h.added
  constructor
  · rintro ⟨hartifact, hnone⟩
    refine ⟨⟨hartifact, fun metric hmetric => ?_⟩, fun hkey => ?_⟩
    · exact hnone metric (by rw [hadded]; exact List.mem_append_left _ hmetric)
    · obtain ⟨metric, hmetric, hsame⟩ := List.mem_map.mp hkey
      obtain ⟨stored, hstored, hstoredKey, -⟩ := h.stored metric hmetric
      exact hnone stored hstored (hstoredKey.trans hsame)
  · rintro ⟨⟨hartifact, hnone⟩, hkey⟩
    refine ⟨hartifact, fun metric hmetric heq => ?_⟩
    rw [hadded] at hmetric
    rcases List.mem_append.mp hmetric with hmetric | hmetric
    · exact hnone metric hmetric heq
    · exact hkey (heq ▸ hkeys metric hmetric)

end Writing

/-! ## Captures in between -/

section Captures

variable [Hashlib] [SecureCodec]

/-- What captures and metric writes keep: every artifact, and every metric. -/
structure KeepsArtifacts (db db' : Database) : Prop where
  grows : Grows db db'
  capsules : db'.capsules = db.capsules
  snapshots : db'.snapshots = db.snapshots
  metrics : db.tokenMetrics <+: db'.tokenMetrics

namespace KeepsArtifacts

variable {db db' db'' : Database}

omit [Hashlib] [SecureCodec] in
/-- Nothing happened. -/
theorem refl (db : Database) : KeepsArtifacts db db :=
  ⟨.refl db, rfl, rfl, List.prefix_refl _⟩

omit [Hashlib] [SecureCodec] in
/-- One thing happened after another. -/
theorem trans (h : KeepsArtifacts db db') (h' : KeepsArtifacts db' db'') :
    KeepsArtifacts db db'' :=
  ⟨h.grows.trans h'.grows, h'.capsules.trans h.capsules, h'.snapshots.trans h.snapshots,
    h.metrics.trans h'.metrics⟩

omit [Hashlib] [SecureCodec] in
/-- An artifact that has no metric had none before. -/
theorem missing (h : KeepsArtifacts db db') {hash profileId : String} {row : MissingRow}
    (hrow : row ∈ db.artifacts hash) (hmissing : row ∈ missingMetrics db' hash profileId) :
    row ∈ missingMetrics db hash profileId :=
  mem_missingMetrics.mpr ⟨hrow, fun metric hmetric =>
    (mem_missingMetrics.mp hmissing).2 metric (h.metrics.subset hmetric)⟩

omit [Hashlib] [SecureCodec] in
/-- A written batch keeps every artifact. -/
theorem of_written {metrics : List TokenMetric} (h : MetricsWritten db metrics db') :
    KeepsArtifacts db db' := by
  obtain ⟨added, hadded, -⟩ := h.added
  exact ⟨.of_eq h.holds.sessions h.holds.journalEvents h.holds.capsules h.holds.snapshots
    h.holds.snapshotCapsules, h.holds.capsules, h.holds.snapshots, ⟨added, hadded.symm⟩⟩

omit [Hashlib] [SecureCodec] in
/-- Only the event that is appended can be a new artifact. -/
theorem artifact_new (h : KeepsArtifacts db db') {event : EventRow}
    (hjournal : db'.journalEvents = db.journalEvents ∨
      db'.journalEvents = db.journalEvents ++ [event]) {hash : String} {row : MissingRow}
    (hrow : row ∈ db'.artifacts hash) :
    row ∈ db.artifacts hash ∨ (row = .ofEvent event ∧ event.sessionKeyHash = hash) := by
  rw [Database.mem_artifacts]
  rcases Database.mem_artifacts.mp hrow with ⟨added, hadded, hhash, rfl⟩ | hcapsule | hsnapshot
  · rcases hjournal with hsame | happended
    · exact .inl (.inl ⟨added, hsame ▸ hadded, hhash, rfl⟩)
    · rw [happended] at hadded
      rcases List.mem_append.mp hadded with hadded | hadded
      · exact .inl (.inl ⟨added, hadded, hhash, rfl⟩)
      · obtain rfl := List.mem_singleton.mp hadded
        exact .inr ⟨rfl, hhash⟩
  · exact .inl (.inr (.inl (h.capsules ▸ hcapsule)))
  · exact .inl (.inr (.inr (h.snapshots ▸ hsnapshot)))

end KeepsArtifacts

/-- A committed capture keeps every artifact. -/
theorem captureEvent_keeps {db db' : Database} {call : Call} {response : Response}
    (h : Sound db) (hstep : step db call = .ok (db', response)) {eventType : EventType}
    {request : CaptureRequest}
    (hcapture : call.operation.captureOf = some (eventType, request)) :
    KeepsArtifacts db db' := by
  have heffect := h.effect hstep
  obtain ⟨added, hadded, -⟩ := (step_sidecar h hstep).metrics
  have hrows : db'.capsules = db.capsules ∧ db'.snapshots = db.snapshots := by
    generalize hoperation : call.operation = operation at heffect hcapture
    cases heffect with
    | captured _ hcaptured =>
        cases hcaptured with
        | replayed _ hold | appended _ _ _ _ _ _ hold => exact ⟨hold.capsules, hold.snapshots⟩
    | sidecar _ hholds => exact ⟨hholds.capsules, hholds.snapshots⟩
    | _ => cases hcapture
  exact ⟨heffect.grows, hrows.1, hrows.2, ⟨added, hadded.symm⟩⟩

/-- The call is a capture. -/
def Call.IsCapture (call : Call) : Prop :=
  ∃ eventType request, call.operation.captureOf = some (eventType, request)

/-- Captures keep every artifact. -/
theorem captures_keep {db : Database} (h : repository.Reachable db) {calls : List Call}
    (hcalls : ∀ call ∈ calls, call.IsCapture) :
    repository.Reachable (calls.foldl repository.next db) ∧
      KeepsArtifacts db (calls.foldl repository.next db) := by
  refine System.Reachable.foldl repository (R := KeepsArtifacts) .refl (fun _ _ _ => .trans) ?_ h
    hcalls
  rintro db call db' response h ⟨eventType, request, hcapture⟩ hok
  exact captureEvent_keeps (sound_of_reachable h) hok hcapture

/-- A capture whose count, if it has one under the profile, is that of the counter. -/
def Call.Agrees (call : Call) (count : String → Nat) (profileId : String) : Prop :=
  ∀ eventType request, call.operation.captureOf = some (eventType, request) →
    request.canonical.tokenizerProfileId = profileId →
    ∀ tokenCount ∈ request.canonical.tokenCount, tokenCount = count request.content

/-- Every metric of the profile that was added is the count of a stored event. -/
def CountsAgree (db : Database) (count : String → Nat) (profileId : String) (db' : Database) :
    Prop :=
  ∀ metric ∈ db'.tokenMetrics, metric.key.tokenizerProfileId = profileId →
    metric ∈ db.tokenMetrics ∨ ∃ event ∈ db'.journalEvents,
      metric.key = ⟨.event, event.eventId, profileId⟩ ∧ metric.tokenCount = count event.content

/-- A committed capture that agrees with the counter adds its count only. -/
theorem captureEvent_countsAgree {db db' : Database} {call : Call} {response : Response}
    {count : String → Nat} {profileId : String} (hstep : step db call = .ok (db', response))
    (hcapture : call.IsCapture) (hagrees : call.Agrees count profileId) :
    CountsAgree db count profileId db' := by
  obtain ⟨eventType, request, hcapture⟩ := hcapture
  obtain ⟨event, -, hcommitted⟩ := step_capture hcapture hstep
  obtain ⟨before, hmetrics, -, -, hrow, hmem, hrecord⟩ := captureEvent_recorded hcommitted
  intro metric hmetric hprofile
  rcases recordCanonicalObservation_metrics hrecord hmetric with hold | ⟨hkey, hcount⟩
  · exact .inl (hmetrics ▸ hold)
  · rw [hkey] at hprofile
    have hsame := hagrees eventType request hcapture hprofile metric.tokenCount hcount
    refine .inr ⟨event.row, ?_, ?_, ?_⟩
    · rw [(recordCanonicalObservation_holds hrecord).journalEvents]
      exact hmem
    · rw [hkey, hrow, ← hprofile]
      rfl
    · rw [hsame, hrow]
      rfl

/-- Captures that agree with the counter add its counts only. -/
theorem captures_countsAgree {db : Database} (h : repository.Reachable db) {calls : List Call}
    {count : String → Nat} {profileId : String} (hcalls : ∀ call ∈ calls, call.IsCapture)
    (hagrees : ∀ call ∈ calls, call.Agrees count profileId) :
    CountsAgree db count profileId (calls.foldl repository.next db) := by
  induction calls generalizing db with
  | nil => exact fun _ hmetric _ => .inl hmetric
  | cons call rest ih =>
      have hrest := fun other hother => hcalls other (List.mem_cons_of_mem call hother)
      have hlater := ih (h.next _ call) hrest
        fun other hother => hagrees other (List.mem_cons_of_mem _ hother)
      have hkeeps := (captures_keep (h.next _ call) hrest).2
      intro metric hmetric hprofile
      rcases hlater metric hmetric hprofile with hold | hnew
      · rcases repository.next_cases db call with ⟨db', response, hok, hnext, -⟩ | ⟨_, -, hnext, -⟩
        · rw [hnext] at hold
          rcases captureEvent_countsAgree hok (hcalls call List.mem_cons_self)
            (hagrees call List.mem_cons_self) metric hold hprofile with hfirst | ⟨event, hevent, hcount⟩
          · exact .inl hfirst
          · obtain ⟨added, hadded, -⟩ := hkeeps.grows.journalEvents
            refine .inr ⟨event, ?_, hcount⟩
            rw [List.foldl_cons, hadded, hnext]
            exact List.mem_append_left _ hevent
        · exact .inl (by rwa [hnext] at hold)
      · exact .inr hnew

/-- A committed capture returns a stored event with the data of its request, holds its observation,
and appends no other event. -/
theorem capture_journal {db db' : Database} {call : Call} {response : Response} (h : Sound db)
    (hstep : step db call = .ok (db', response)) {eventType : EventType}
    {request : CaptureRequest}
    (hcapture : call.operation.captureOf = some (eventType, request)) :
    ∃ event, Returned request eventType event db' ∧ Observed db' request ∧
      (db'.journalEvents = db.journalEvents ∨
        db'.journalEvents = db.journalEvents ++ [event.row]) := by
  have heffect := h.effect hstep
  obtain ⟨event, rfl, hcommitted⟩ := step_capture hcapture hstep
  obtain ⟨hreturned, -, hobserved⟩ := captureEvent_returned hcommitted
  refine ⟨event, hreturned, hobserved, ?_⟩
  generalize call.operation = operation at heffect
  cases heffect with
  | captured _ hcaptured =>
      cases hcaptured with
      | replayed _ hold => exact .inl hold.journalEvents
      | appended _ _ _ _ _ _ hold => exact .inr hold.journalEvents
  | sidecar _ hholds => exact .inl hholds.journalEvents

/-- Every stored event has an id that is not blank to Python: its capture has recorded an
observation of it. -/
theorem eventIds_of_reachable {db : Database} (h : repository.Reachable db) :
    ∀ row ∈ db.journalEvents, stripNonEmpty row.eventId = true := by
  suffices hboth : Sound db ∧ ∀ row ∈ db.journalEvents, stripNonEmpty row.eventId = true from
    hboth.2
  refine System.reachable_invariant repository
    (P := fun db => Sound db ∧ ∀ row ∈ db.journalEvents, stripNonEmpty row.eventId = true)
    ⟨sound_empty, by simp [repository, Database.empty]⟩ ?_ h
  rintro db call db' response ⟨hsound, hids⟩ hstep
  refine ⟨hsound.step hstep, ?_⟩
  have heffect := hsound.effect hstep
  cases hcapture : call.operation.captureOf with
  | none =>
      have hother : call.operation.captures = none := by
        revert hcapture
        cases call.operation <;> simp [Operation.captureOf, Operation.captures]
      rw [(heffect.journal_eq hother).2]
      exact hids
  | some capture =>
      obtain ⟨eventType, request⟩ := capture
      obtain ⟨event, hreturned, hobserved, hjournal⟩ := capture_journal hsound hstep hcapture
      have hnew : stripNonEmpty event.row.eventId = true := by
        rw [hreturned.row]
        exact hobserved.1
      rcases hjournal with hsame | happended
      · rw [hsame]
        exact hids
      · rw [happended]
        exact forall_append_singleton hids hnew

end Captures

/-! ## Rounds -/

section Rounds

variable [Hashlib] [SecureCodec]

/-- The codec takes every count of the artifact under its record key. -/
def CountsFit (key : MetricKey) (count : String → Nat) : Prop :=
  ∀ text, (metricCell key (count text)).fits = true

/-- What backfilling a session relies on: the profile is blank neither to Python nor to SQLite, no
capsule or snapshot of the session has an id that is blank to Python, and the codec takes the counts
of the artifacts without a metric. -/
structure Countable (db : Database) (hash profileId : String) (count : String → Nat)
    (limit : Int) : Prop where
  profile : stripNonEmpty profileId = true ∧ trimNonEmpty profileId = true
  limit : 1 ≤ limit ∧ limit ≤ maxMetricBackfillBatch
  capsules : ∀ row ∈ db.capsules, row.sessionKeyHash = hash → stripNonEmpty row.capsuleId = true
  snapshots : ∀ row ∈ db.snapshots, row.sessionKeyHash = hash →
    stripNonEmpty row.snapshotId = true
  counts : ∀ row ∈ missingMetrics db hash profileId, CountsFit (row.key profileId) count

/-- A capture for the session whose event the codec can count. -/
def Call.Fits (call : Call) (count : String → Nat) (hash profileId : String) : Prop :=
  ∀ eventType request, call.operation.captureOf = some (eventType, request) →
    request.sessionKey.sessionKeyHash = hash →
    CountsFit ⟨.event, request.eventId, profileId⟩ count

omit [Hashlib] in
/-- A session stays countable when the artifacts that are added can be counted. -/
theorem Countable.keeps {db db' : Database} {hash profileId : String} {count : String → Nat}
    {limit : Int} (h : Countable db hash profileId count limit) (hkeeps : KeepsArtifacts db db')
    (hadded : ∀ row ∈ db'.artifacts hash, row ∉ db.artifacts hash →
      CountsFit (row.key profileId) count) :
    Countable db' hash profileId count limit := by
  refine ⟨h.profile, h.limit, by rw [hkeeps.capsules]; exact h.capsules,
    by rw [hkeeps.snapshots]; exact h.snapshots, fun row hrow => ?_⟩
  by_cases hold : row ∈ db.artifacts hash
  · exact h.counts row (hkeeps.missing hold hrow)
  · exact hadded row (mem_missingMetrics.mp hrow).1 hold

/-- A capture whose event can be counted keeps a session countable. -/
theorem Countable.capture {db db' : Database} {hash profileId : String} {count : String → Nat}
    {limit : Int} (h : Countable db hash profileId count limit) (hsound : Sound db) {call : Call}
    {response : Response} (hok : step db call = .ok (db', response))
    (hcapture : call.IsCapture) (hfits : call.Fits count hash profileId) :
    Countable db' hash profileId count limit := by
  obtain ⟨eventType, request, hcapture⟩ := hcapture
  obtain ⟨event, hreturned, -, hjournal⟩ := capture_journal hsound hok hcapture
  have hkeeps := captureEvent_keeps hsound hok hcapture
  refine h.keeps hkeeps fun row hrow hold => ?_
  obtain ⟨rfl, hhash⟩ := (hkeeps.artifact_new hjournal hrow).resolve_left hold
  rw [hreturned.row] at hhash ⊢
  exact hfits eventType request hcapture hhash

/-- Captures whose events can be counted keep a session countable. -/
theorem Countable.captures {db : Database} {hash profileId : String} {count : String → Nat}
    {limit : Int} (h : Countable db hash profileId count limit)
    (hreachable : repository.Reachable db) {calls : List Call}
    (hcalls : ∀ call ∈ calls, call.IsCapture ∧ call.Fits count hash profileId) :
    Countable (calls.foldl repository.next db) hash profileId count limit := by
  obtain ⟨-, hkept⟩ := System.Reachable.foldl repository
    (P := fun call => call.IsCapture ∧ call.Fits count hash profileId)
    (R := fun db db' => Countable db hash profileId count limit →
      Countable db' hash profileId count limit)
    (fun _ => id) (fun _ _ _ hfirst hsecond => hsecond ∘ hfirst)
    (fun db call db' response hdb hcall hok hcountable =>
      hcountable.capture (sound_of_reachable hdb) hok hcall.1 hcall.2) hreachable hcalls
  exact hkept h

omit [Hashlib] in
/-- A written batch keeps a session countable. -/
theorem Countable.written {db db' : Database} {hash profileId : String} {count : String → Nat}
    {limit : Int} (h : Countable db hash profileId count limit) {metrics : List TokenMetric}
    (hwritten : MetricsWritten db metrics db') : Countable db' hash profileId count limit := by
  refine h.keeps (.of_written hwritten) fun row hrow hold => absurd ?_ hold
  rwa [hwritten.holds.artifacts_eq] at hrow

/-- The ids of the artifacts of a countable session are not blank to Python. -/
theorem Countable.ids {db : Database} {hash profileId : String} {count : String → Nat}
    {limit : Int} (h : Countable db hash profileId count limit)
    (hreachable : repository.Reachable db) {row : MissingRow} (hrow : row ∈ db.artifacts hash) :
    stripNonEmpty row.artifactId = true := by
  rcases Database.mem_artifacts.mp hrow with ⟨event, hmem, -, rfl⟩ |
    ⟨capsule, hmem, hhash, rfl⟩ | ⟨snapshot, hmem, hhash, rfl⟩
  · exact eventIds_of_reachable hreachable event hmem
  · exact h.capsules capsule hmem hhash
  · exact h.snapshots snapshot hmem hhash

omit [Hashlib] in
/-- A metric that counts an artifact without a metric is not refused after captures that agree with
the counter. -/
theorem metricRefused_eq_false {db db' : Database} {hash profileId : String}
    {count : String → Nat} {limit : Int} (h : Countable db hash profileId count limit)
    (hkeeps : KeepsArtifacts db db') (hagree : CountsAgree db count profileId db')
    {row : MissingRow} (hrow : row ∈ missingMetrics db hash profileId) {metric : TokenMetric}
    (hcounts : Counts db count profileId row metric) : metricRefused db' metric = false := by
  obtain ⟨hkey, text, htext, hcount⟩ := hcounts
  obtain ⟨hartifact, hnone⟩ := mem_missingMetrics.mp hrow
  unfold metricRefused
  cases hfound : db'.metricRow metric.key with
  | none =>
      have hcheck : metric.key.Check := by
        rw [hkey]
        exact ⟨trimNonEmpty_artifactId hartifact, h.profile.2⟩
      have hfits := h.counts row hrow text
      rw [← hkey, ← hcount] at hfits
      simp only [hfits, hcheck, and_self, not_true_eq_false, decide_false]
  | some existing =>
      have hmem := List.mem_of_find?_eq_some hfound
      have hsame : existing.key = metric.key := by simpa using List.find?_some hfound
      simp only [decide_eq_false_iff_not, not_not]
      rcases hagree existing hmem (by rw [hsame, hkey]; rfl) with hold | ⟨event, hevent, heq, hnew⟩
      · exact absurd (hsame.trans hkey) (hnone existing hold)
      · -- The artifact is a stored event, and its text is the content that the capture had.
        have hartifactKey : row.key profileId = ⟨.event, event.eventId, profileId⟩ :=
          (hsame.trans hkey).symm.trans heq
        have hkind : row.artifactKind = .event := congrArg MetricKey.artifactKind hartifactKey
        have hid : row.artifactId = event.eventId := congrArg MetricKey.artifactId hartifactKey
        rcases Database.mem_artifacts.mp hartifact with ⟨stored, hstored, -, rfl⟩ |
          ⟨_, -, -, rfl⟩ | ⟨_, -, -, rfl⟩
        · obtain ⟨added, hadded, -⟩ := hkeeps.grows.journalEvents
          obtain rfl : stored = event := db'.consistent.journalEvents.primaryKey.eq_of_key
            (by rw [hadded]; exact List.mem_append_left _ hstored) hevent hid
          rw [hnew, hcount, htext stored hstored rfl]
        · cases hkind
        · cases hkind

omit [Hashlib] [SecureCodec] in
/-- The session of a reachable state is still stored later. -/
theorem KeepsArtifacts.session {db db' : Database} (h : KeepsArtifacts db db')
    {session : SessionRow} (hsession : session ∈ db.sessions) :
    ∃ session' ∈ db'.sessions, session'.sessionKeyHash = session.sessionKeyHash ∧
      session'.sessionKey = session.sessionKey := by
  obtain ⟨session', hmem, hhash, hkey, -⟩ := h.grows.sessions session hsession
  exact ⟨session', hmem, hhash, hkey⟩

/-- One pair of a read and a write, with captures in between that agree with the counter: both
succeed, and exactly the batch gets its metrics. -/
theorem backfill_pair {db : Database} (h : repository.Reachable db) {session : SessionRow}
    (hsession : session ∈ db.sessions) {profileId : String} {count : String → Nat} {limit : Int}
    (hcountable : Countable db session.sessionKeyHash profileId count limit)
    {between : List Call} (hcalls : ∀ call ∈ between, call.IsCapture)
    (hagrees : ∀ call ∈ between, call.Agrees count profileId) (now : Timestamp) :
    ∃ artifacts metrics db',
      readMetricBackfillBatch db session.sessionKey profileId limit = .ok artifacts ∧
      artifacts.map (fun artifact => (artifact.artifactKind, artifact.artifactId)) =
        (backfillBatch db session.sessionKeyHash profileId limit).map
          (fun row => (row.artifactKind, row.artifactId)) ∧
      artifacts.mapM (countedMetric count) = .ok metrics ∧
      writeMetricBackfillBatch .none (between.foldl repository.next db) session.sessionKey metrics
        now = .ok (db', metrics) ∧
      MetricsWritten (between.foldl repository.next db) metrics db' ∧
      ∀ row, row ∈ missingMetrics db' session.sessionKeyHash profileId ↔
        row ∈ missingMetrics (between.foldl repository.next db) session.sessionKeyHash profileId ∧
          row.key profileId ∉ (backfillBatch db session.sessionKeyHash profileId limit).map
            fun row => row.key profileId := by
  have hsound := sound_of_reachable h
  obtain ⟨hreachable, hkeeps⟩ := captures_keep h hcalls
  have hagree := captures_countsAgree h hcalls hagrees
  generalize between.foldl repository.next db = middle at hreachable hkeeps hagree ⊢
  obtain ⟨artifacts, metrics, hread, hmetrics, hids, hcounts⟩ :=
    readMetricBackfillBatch_total hsound.journal (readSound_of_reachable h) hsession
      hcountable.profile.1 hcountable.limit
      (fun row hrow => hcountable.ids h (mem_missingMetrics.mp (mem_backfillBatch hrow)).1) count
  have hkeys : metrics.map TokenMetric.key =
      (backfillBatch db session.sessionKeyHash profileId limit).map
        fun row => row.key profileId := by
    rw [← List.forall₂_eq_eq_eq, List.forall₂_map_left_iff, List.forall₂_map_right_iff]
    exact hcounts.flip.imp fun _ _ hcount => hcount.1
  have hcounted : ∀ metric ∈ metrics, ∃ row ∈ backfillBatch db session.sessionKeyHash profileId
      limit, Counts db count profileId row metric := by
    intro metric hmetric
    exact exists_of_forall₂ hcounts hmetric
  obtain ⟨session', hsession', hhash, hkey⟩ := hkeeps.session hsession
  obtain ⟨db', hwrite⟩ : ∃ db', writeMetricBackfillBatch .none middle session'.sessionKey metrics
      now = .ok (db', metrics) := by
    refine writeMetricBackfillBatch_total (sound_of_reachable hreachable).journal hsession'
      ?_ ?_ ?_ ?_ now
    · rw [← hcounts.length_eq, length_backfillBatch]
      have := hcountable.limit
      omega
    · rw [hkeys]
      refine (backfillBatch_nodup db _ _ _).map_on fun row hrow other hother heq => ?_
      exact db.artifact_eq (mem_missingMetrics.mp (mem_backfillBatch hrow)).1
        (mem_missingMetrics.mp (mem_backfillBatch hother)).1 heq
    · intro metric hmetric
      obtain ⟨row, hrow, hsame, -⟩ := hcounted metric hmetric
      rw [hsame, hhash]
      exact artifactOwner_of_mem
        (hkeeps.grows.artifacts (mem_missingMetrics.mp (mem_backfillBatch hrow)).1) profileId
    · intro metric hmetric
      obtain ⟨row, hrow, hcount⟩ := hcounted metric hmetric
      exact metricRefused_eq_false hcountable hkeeps hagree (mem_backfillBatch hrow) hcount
  rw [hkey] at hwrite
  have hwritten := (writeMetricBackfillBatch_written hwrite).1
  refine ⟨artifacts, metrics, db', hread, hids, hmetrics, hwrite, hwritten, ?_⟩
  intro row
  rw [hwritten.mem_missingMetrics, hkeys]

end Rounds

end AstrContinuum
