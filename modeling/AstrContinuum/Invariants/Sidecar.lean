import AstrContinuum.Invariants.Jobs

/-!
# The token metric sidecar

A metric is written once, for an artifact that is stored, and removes the backfill intent of its
key. `step_sidecar` says what every committed call does to the sidecar, and
`sidecarSound_of_reachable` collects the invariant: no key has both a metric and an intent, and every
metric belongs to a stored artifact.
-/

namespace AstrContinuum

open Checked Relational Transactional

/-- The artifact of a metric key is stored. -/
def ArtifactStored (db : Database) (key : MetricKey) : Prop :=
  ∃ hash, artifactOwner db key = some hash

/-- The sidecar invariant. -/
structure SidecarSound (db : Database) : Prop where
  disjoint : ∀ metric ∈ db.tokenMetrics, ∀ intent ∈ db.backfillIntents, metric.key ≠ intent.key
  stored : ∀ metric ∈ db.tokenMetrics, ArtifactStored db metric.key

/-- What a call may do to the sidecar: metrics are only added, for stored artifacts, and an intent
that is left has no new metric and is new only when its key has no metric. -/
structure SidecarGrows (db db' : Database) : Prop where
  metrics : ∃ added, db'.tokenMetrics = db.tokenMetrics ++ added ∧
    (∀ metric ∈ added, ArtifactStored db' metric.key) ∧
    ∀ metric ∈ added, ∀ intent ∈ db'.backfillIntents, metric.key ≠ intent.key
  intents : ∀ intent ∈ db'.backfillIntents, intent ∈ db.backfillIntents ∨
    ∀ metric ∈ db.tokenMetrics, metric.key ≠ intent.key

namespace SidecarGrows

variable {db db' db'' : Database}

/-- A call that leaves the sidecar alone. -/
theorem of_eq (hmetrics : db'.tokenMetrics = db.tokenMetrics)
    (hintents : db'.backfillIntents = db.backfillIntents) : SidecarGrows db db' where
  metrics := ⟨[], by simp [hmetrics], by simp, by simp⟩
  intents := fun intent hintent => .inl (by rwa [hintents] at hintent)

/-- Sidecar writes compose when the artifacts stay stored. -/
theorem trans (h : SidecarGrows db db') (h' : SidecarGrows db' db'')
    (hstored : ∀ key, ArtifactStored db' key → ArtifactStored db'' key) : SidecarGrows db db'' := by
  obtain ⟨added, hadded, hown, hfree⟩ := h.metrics
  obtain ⟨added', hadded', hown', hfree'⟩ := h'.metrics
  refine ⟨⟨added ++ added', by rw [hadded', hadded, List.append_assoc], ?_, ?_⟩, ?_⟩
  · intro metric hmetric
    rcases List.mem_append.mp hmetric with hmetric | hmetric
    · exact hstored _ (hown metric hmetric)
    · exact hown' metric hmetric
  · intro metric hmetric intent hintent
    rcases List.mem_append.mp hmetric with hmetric | hmetric
    · rcases h'.intents intent hintent with hold | hnew
      · exact hfree metric hmetric intent hold
      · exact hnew metric (by rw [hadded]; exact List.mem_append_right _ hmetric)
    · exact hfree' metric hmetric intent hintent
  · intro intent hintent
    rcases h'.intents intent hintent with hold | hnew
    · exact h.intents intent hold
    · exact .inr fun metric hmetric =>
        hnew metric (by rw [hadded]; exact List.mem_append_left _ hmetric)

/-- The sidecar invariant survives. -/
theorem sound (h : SidecarGrows db db') (hsound : SidecarSound db)
    (hstored : ∀ key, ArtifactStored db key → ArtifactStored db' key) : SidecarSound db' := by
  obtain ⟨added, hadded, hown, hfree⟩ := h.metrics
  constructor
  · intro metric hmetric intent hintent
    rw [hadded] at hmetric
    rcases List.mem_append.mp hmetric with hmetric | hmetric
    · rcases h.intents intent hintent with hold | hnew
      · exact hsound.disjoint metric hmetric intent hold
      · exact hnew metric hmetric
    · exact hfree metric hmetric intent hintent
  · intro metric hmetric
    rw [hadded] at hmetric
    rcases List.mem_append.mp hmetric with hmetric | hmetric
    · exact hstored _ (hsound.stored metric hmetric)
    · exact hown metric hmetric

end SidecarGrows

/-! ## Stored artifacts -/

/-- A sidecar write keeps every artifact. -/
theorem Database.Holds.artifactOwner_eq {db db' : Database} (h : db'.Holds db.toTables)
    (key : MetricKey) : artifactOwner db' key = artifactOwner db key := by
  unfold artifactOwner Database.capsuleRow Database.snapshotRow
  rw [h.journalEvents, h.capsules, h.snapshots]

/-- Artifacts stay stored, under the same session, while the history grows. -/
theorem Grows.artifactOwner {db db' : Database} (h : Grows db db') {key : MetricKey}
    {hash : String} (howner : artifactOwner db key = some hash) :
    AstrContinuum.artifactOwner db' key = some hash := by
  obtain ⟨events, hevents, -⟩ := h.journalEvents
  obtain ⟨capsules, hcapsules⟩ := h.capsules
  obtain ⟨snapshots, hsnapshots⟩ := h.snapshots
  unfold AstrContinuum.artifactOwner Database.capsuleRow Database.snapshotRow at howner ⊢
  split at howner <;> obtain ⟨row, hrow, rfl⟩ := Option.map_eq_some_iff.mp howner
  · rw [hevents, List.find?_append, hrow]
    rfl
  · rw [hcapsules, List.find?_append, hrow]
    rfl
  · rw [hsnapshots, List.find?_append, hrow]
    rfl

/-- Artifacts stay stored while the history grows. -/
theorem Grows.artifactStored {db db' : Database} (h : Grows db db') (key : MetricKey)
    (hstored : ArtifactStored db key) : ArtifactStored db' key :=
  hstored.imp fun _ howner => h.artifactOwner howner

/-! ## Writes -/

section Writes

variable [SecureCodec]

/-- What a batch of metric writes leaves: its metrics, added or replayed, and no intent of their
keys. -/
structure MetricsWritten (db : Database) (metrics : List TokenMetric) (db' : Database) : Prop where
  added : ∃ added, db'.tokenMetrics = db.tokenMetrics ++ added ∧
    ∀ row ∈ added, row.key ∈ metrics.map TokenMetric.key
  intents : db'.backfillIntents =
    db.backfillIntents.filter fun row => row.key ∉ metrics.map TokenMetric.key
  stored : ∀ metric ∈ metrics, ∃ row ∈ db'.tokenMetrics,
    row.key = metric.key ∧ row.tokenCount = metric.tokenCount
  holds : db'.Holds db.toTables

omit [SecureCodec] in
/-- The empty batch writes nothing. -/
theorem MetricsWritten.nil (db : Database) : MetricsWritten db [] db where
  added := ⟨[], by simp, by simp⟩
  intents := by simp
  stored := by simp
  holds := .of_eq rfl

omit [SecureCodec] in
/-- Batches compose. -/
theorem MetricsWritten.append {db db' db'' : Database} {metrics metrics' : List TokenMetric}
    (h : MetricsWritten db metrics db') (h' : MetricsWritten db' metrics' db'') :
    MetricsWritten db (metrics ++ metrics') db'' := by
  obtain ⟨added, hadded, hkeys⟩ := h.added
  obtain ⟨added', hadded', hkeys'⟩ := h'.added
  refine ⟨⟨added ++ added', by rw [hadded', hadded, List.append_assoc], ?_⟩, ?_, ?_,
    h'.holds.trans h.holds⟩
  · intro row hrow
    rw [List.map_append]
    rcases List.mem_append.mp hrow with hrow | hrow
    · exact List.mem_append_left _ (hkeys row hrow)
    · exact List.mem_append_right _ (hkeys' row hrow)
  · rw [h'.intents, h.intents, List.filter_filter]
    congr 1
    funext row
    rw [List.map_append, Bool.eq_iff_iff]
    simp only [Bool.and_eq_true, decide_eq_true_eq, List.mem_append, not_or, and_comm]
  · intro metric hmetric
    rcases List.mem_append.mp hmetric with hmetric | hmetric
    · obtain ⟨row, hrow, hsame⟩ := h.stored metric hmetric
      exact ⟨row, by rw [hadded']; exact List.mem_append_left _ hrow, hsame⟩
    · exact h'.stored metric hmetric

/-- A metric write leaves its metric. -/
theorem writeMetric_written {db db' : Database} {metric : TokenMetric} {createdAt : Timestamp}
    (h : writeMetric db metric createdAt = .ok db') : MetricsWritten db [metric] db' := by
  have hholds := writeMetric_holds h
  obtain ⟨stored, hput, hdelete⟩ := bind_ok.mp h
  rw [deleteBackfillIntent, Database.execute_ok] at hdelete
  unfold putInTransaction at hput
  split at hput
  · next existing hexisting =>
      obtain ⟨_, hsame, hput⟩ := bind_ok.mp hput
      obtain rfl := pure_ok.mp hput
      have hmem := List.mem_of_find?_eq_some hexisting
      have hkey : existing.key = metric.key := by simpa using List.find?_some hexisting
      refine ⟨⟨[], by simp [hdelete], by simp⟩, by simp [hdelete], ?_, hholds⟩
      intro other hother
      obtain rfl := List.mem_singleton.mp hother
      exact ⟨existing, by rw [hdelete]; exact hmem, hkey, require_ok.mp hsame⟩
  · obtain ⟨_, -, hput⟩ := bind_ok.mp hput
    rw [Database.execute_ok] at hput
    refine ⟨⟨[⟨metric.key, metric.tokenCount, createdAt⟩], by rw [hdelete, hput], by simp⟩,
      by simp [hdelete, hput], ?_, hholds⟩
    intro other hother
    obtain rfl := List.mem_singleton.mp hother
    exact ⟨⟨other.key, other.tokenCount, createdAt⟩, by rw [hdelete, hput]; simp, rfl, rfl⟩

omit [SecureCodec] in
/-- A loop whose every iteration writes one metric writes the whole batch. -/
theorem forEach_written {body : Database → TokenMetric × Nat → Except StorageFailure Database}
    (hbody : ∀ db entry db', body db entry = .ok db' → MetricsWritten db [entry.1] db')
    {entries : List (TokenMetric × Nat)} {db db' : Database}
    (h : forEach body db entries = .ok db') : MetricsWritten db (entries.map Prod.fst) db' := by
  induction entries generalizing db with
  | nil =>
      obtain rfl : db = db' := by simpa using h
      exact .nil db
  | cons entry rest ih =>
      obtain ⟨db₁, hentry, hrest⟩ := bind_ok.mp h
      exact (hbody db entry db₁ hentry).append (ih hrest)

omit [SecureCodec] in
/-- Metrics written for stored artifacts grow the sidecar. -/
theorem MetricsWritten.grows {db db' : Database} {metrics : List TokenMetric}
    (h : MetricsWritten db metrics db')
    (hstored : ∀ metric ∈ metrics, ArtifactStored db metric.key) : SidecarGrows db db' := by
  obtain ⟨added, hadded, hkeys⟩ := h.added
  have hsub : ∀ intent ∈ db'.backfillIntents,
      intent ∈ db.backfillIntents ∧ intent.key ∉ metrics.map TokenMetric.key := by
    intro intent hintent
    rw [h.intents] at hintent
    obtain ⟨hold, hne⟩ := List.mem_filter.mp hintent
    exact ⟨hold, of_decide_eq_true hne⟩
  refine ⟨⟨added, hadded, ?_, ?_⟩, fun intent hintent => .inl (hsub intent hintent).1⟩
  · intro row hrow
    obtain ⟨metric, hmetric, hkey⟩ := List.mem_map.mp (hkeys row hrow)
    rw [← hkey]
    exact (hstored metric hmetric).imp fun _ howner => (h.holds.artifactOwner_eq _).trans howner
  · intro row hrow intent hintent heq
    exact (hsub intent hintent).2 (heq ▸ hkeys row hrow)

/-- Recording an observation of a stored event grows the sidecar. -/
theorem recordCanonicalObservation_grows {db db' : Database} {hash artifactId : String}
    {canonical : CanonicalMetricObservation} {createdAt : Timestamp}
    (hstored : ArtifactStored db ⟨.event, artifactId, canonical.tokenizerProfileId⟩)
    (h : recordCanonicalObservation db hash artifactId canonical createdAt = .ok db') :
    SidecarGrows db db' := by
  obtain ⟨artifact, -, h⟩ := bind_ok.mp h
  split at h
  · refine (writeMetric_written h).grows fun metric hmetric => ?_
    rw [List.mem_singleton.mp hmetric]
    exact hstored
  · split at h
    · obtain rfl := pure_ok.mp h
      exact .of_eq rfl rfl
    · next hfree =>
        rw [Database.execute_ok] at h
        simp only [Bool.or_eq_true, not_or, Bool.not_eq_true] at hfree
        refine ⟨⟨[], by simp [h], by simp, by simp⟩, ?_⟩
        intro intent hintent
        rw [h] at hintent
        rcases List.mem_append.mp hintent with hintent | hintent
        · exact .inl hintent
        · obtain rfl := List.mem_singleton.mp hintent
          have hnone := Option.isSome_eq_false_iff.mp hfree.1
          exact .inr (find_eq_none.mp (Option.isNone_iff_eq_none.mp hnone))

end Writes

/-! ## Captures -/

section Captures

variable [Hashlib]

/-- The row that a capture stores under a sequence. -/
def CaptureRequest.eventRow (request : CaptureRequest) (eventType : EventType) (sequence : Nat) :
    EventRow where
  eventId := request.eventId
  sessionKeyHash := request.sessionKey.sessionKeyHash
  sequence := sequence
  eventType := eventType
  role := eventType.mapping.1
  content := request.content
  sourceHook := eventType.mapping.2
  idempotencyKey := request.idempotencyKey
  tokenCount := request.tokenCount
  createdAt := request.createdAt

/-- The sidecar holds what a capture observed: the count it was given, or a key that can be
counted later. -/
def Observed (db : Database) (request : CaptureRequest) : Prop :=
  let key : MetricKey := ⟨.event, request.eventId, request.canonical.tokenizerProfileId⟩
  stripNonEmpty request.eventId = true ∧ key.Check ∧
    ∀ count ∈ request.canonical.tokenCount, ∃ row ∈ db.tokenMetrics,
      row.key = key ∧ row.tokenCount = count

/-- What a capture returns: an event with the data of the request, stored in the journal. -/
structure Returned (request : CaptureRequest) (eventType : EventType) (event : EventEnvelope)
    (db' : Database) : Prop where
  session : event.sessionKey = request.sessionKey
  row : event.row = request.eventRow eventType event.sequence
  stored : event.row ∈ db'.journalEvents

/-- A created event has the data of the request. -/
theorem CaptureRequest.create_row {request : CaptureRequest} {eventType : EventType}
    {sequence : Nat} {event : EventEnvelope} (h : request.create eventType sequence = .ok event) :
    event.sessionKey = request.sessionKey ∧ event.row = request.eventRow eventType sequence ∧
      event.sequence = sequence := by
  have hdata := EventEnvelope.modelValidate_ok h
  refine ⟨by rw [hdata], ?_, by rw [hdata]⟩
  simp only [EventEnvelope.row, CaptureRequest.eventRow, hdata]

/-- An exact replay has the data of the request. -/
theorem isExactReplay_row {existing requested : EventEnvelope} {request : CaptureRequest}
    {eventType : EventType} (h : isExactReplay existing requested)
    (hrow : requested.row = request.eventRow eventType requested.sequence) :
    existing.sessionKey = requested.sessionKey ∧
      existing.row = request.eventRow eventType existing.sequence := by
  have hsession := congrArg EventData.sessionKey h
  have hrows := congrArg (fun data : EventData => (⟨data.eventId, data.sessionKey.sessionKeyHash,
    data.sequence, data.eventType, data.role, data.content, data.sourceHook, data.idempotencyKey,
    data.tokenCount, data.createdAt⟩ : EventRow)) h
  refine ⟨hsession, ?_⟩
  simp only [EventRow.mk.injEq] at hrows
  simp only [EventEnvelope.row, CaptureRequest.eventRow, EventRow.mk.injEq] at hrow ⊢
  obtain ⟨h₁, h₂, -, h₄, h₅, h₆, h₇, h₈, h₉, h₁₀⟩ := hrows
  obtain ⟨r₁, r₂, -, r₄, r₅, r₆, r₇, r₈, r₉, r₁₀⟩ := hrow
  exact ⟨h₁.trans r₁, h₂.trans r₂, trivial, h₄.trans r₄, h₅.trans r₅, h₆.trans r₆, h₇.trans r₇,
    h₈.trans r₈, h₉.trans r₉, h₁₀.trans r₁₀⟩

/-- A found event is the envelope of a stored row of the tuple. -/
theorem findIdempotentEvent_some {db : Database} {sessionKey : SessionKey}
    {sourceHook : SourceHook} {idempotencyKey : String} {event : EventEnvelope}
    (h : findIdempotentEvent db sessionKey sourceHook idempotencyKey = .ok (some event)) :
    event.sessionKey = sessionKey ∧ event.row ∈ db.journalEvents := by
  unfold findIdempotentEvent at h
  split at h
  · cases h
  · next row hfound =>
      obtain ⟨event', hevent, h⟩ := bind_ok.mp h
      obtain rfl : event' = event := by simpa using h
      obtain ⟨_, hhash, hvalid⟩ := bind_ok.mp hevent
      have hdata := EventEnvelope.modelValidate_ok hvalid
      have hrow : event'.row = row := by
        simp only [EventEnvelope.row, hdata, EventRow.data, ← require_ok.mp hhash]
      exact ⟨by rw [hdata]; rfl, by rw [hrow]; exact List.mem_of_find?_eq_some hfound⟩

omit [Hashlib] in
/-- A stored event is a stored artifact. -/
theorem artifactStored_of_event {db : Database} {row : EventRow} (h : row ∈ db.journalEvents)
    (profile : String) : ArtifactStored db ⟨.event, row.eventId, profile⟩ := by
  refine ⟨row.sessionKeyHash, ?_⟩
  have hfound := db.consistent.journalEvents.primaryKey.find_eq_some.mpr ⟨h, rfl⟩
  simp [artifactOwner, hfound]

variable [SecureCodec]

omit [Hashlib] in
/-- A recorded observation is held by the sidecar. -/
theorem recordCanonicalObservation_observed {db db' : Database} {hash : String}
    {request : CaptureRequest} {createdAt : Timestamp}
    (h : recordCanonicalObservation db hash request.eventId request.canonical createdAt =
      .ok db') : Observed db' request := by
  obtain ⟨artifact, -, h⟩ := bind_ok.mp h
  have hcheck : ∀ row ∈ db'.tokenMetrics, row.key.Check := db'.consistent.tokenMetrics.check
  have hintents : ∀ row ∈ db'.backfillIntents, row.key.Check :=
    db'.consistent.backfillIntents.check
  refine ⟨artifact.down, ?_⟩
  split at h
  · next count hcount =>
      obtain ⟨row, hrow, hkey, hsame⟩ :=
        (writeMetric_written h).stored _ (List.mem_singleton.mpr rfl)
      have hstored := hcheck row hrow
      rw [hkey] at hstored
      refine ⟨hstored, ?_⟩
      intro other hother
      rw [hcount] at hother
      obtain rfl := Option.some.inj hother
      exact ⟨row, hrow, hkey, hsame⟩
  · next hnone =>
      refine ⟨?_, by simp [hnone]⟩
      split at h
      · next hknown =>
          obtain rfl := pure_ok.mp h
          rcases Bool.or_eq_true_iff.mp hknown with hmetric | hintent
          · obtain ⟨row, hrow⟩ := Option.isSome_iff_exists.mp hmetric
            rw [Database.metricRow] at hrow
            have hstored := hcheck row (List.mem_of_find?_eq_some hrow)
            have hkey := List.find?_some hrow
            simp only [decide_eq_true_eq] at hkey
            rwa [hkey] at hstored
          · obtain ⟨row, hrow, hkey⟩ := List.any_eq_true.mp hintent
            have hstored := hintents row hrow
            rwa [of_decide_eq_true hkey] at hstored
      · rw [Database.execute_ok] at h
        exact hintents ⟨hash, _, createdAt⟩ (by rw [h]; simp)

/-- A capture stores its event and then records its observation. -/
theorem captureEvent_recorded {faults : FaultInjector} {db db' : Database}
    {eventType : EventType} {request : CaptureRequest} {event : EventEnvelope}
    (h : captureEvent faults db eventType request = .ok (db', event)) :
    ∃ before : Database, before.tokenMetrics = db.tokenMetrics ∧
      before.backfillIntents = db.backfillIntents ∧ event.sessionKey = request.sessionKey ∧
      event.row = request.eventRow eventType event.sequence ∧ event.row ∈ before.journalEvents ∧
      recordCanonicalObservation before request.sessionKey.sessionKeyHash request.eventId
        request.canonical request.createdAt = .ok db' := by
  obtain ⟨requested, hrequested, h⟩ := bind_ok.mp h
  obtain ⟨hsession, hrequestedRow, hsequence⟩ := CaptureRequest.create_row hrequested
  obtain ⟨db₁, hensure, h⟩ := bind_ok.mp h
  obtain ⟨-, htables⟩ := ensureSession_ok hensure
  obtain ⟨_, -, h⟩ := bind_ok.mp h
  obtain ⟨found, hfound, h⟩ := bind_ok.mp h
  cases found with
  | some existing =>
      obtain ⟨_, hreplay, h⟩ := bind_ok.mp h
      obtain ⟨db₂, hrecord, h⟩ := bind_ok.mp h
      obtain ⟨_, -, h⟩ := bind_ok.mp h
      obtain ⟨rfl, rfl⟩ : db₂ = db' ∧ existing = event := by simpa using h
      obtain ⟨hkey, hmem⟩ := findIdempotentEvent_some hfound
      have hrow := (isExactReplay_row (require_ok.mp hreplay)
        (hrequestedRow.trans (by rw [hsequence]))).2
      have hid : existing.eventId = request.eventId := congrArg EventRow.eventId hrow
      rw [hid] at hrecord
      exact ⟨db₁, by rw [htables], by rw [htables], hkey, hrow, hmem, hrecord⟩
  | none =>
      obtain ⟨row, -, h⟩ := bind_ok.mp h
      obtain ⟨db₂, hallocate, h⟩ := bind_ok.mp h
      obtain ⟨_, -, h⟩ := bind_ok.mp h
      obtain ⟨event', hevent, h⟩ := bind_ok.mp h
      obtain ⟨_, -, h⟩ := bind_ok.mp h
      obtain ⟨_, -, h⟩ := bind_ok.mp h
      obtain ⟨db₃, hinsert, h⟩ := bind_ok.mp h
      obtain ⟨_, -, h⟩ := bind_ok.mp h
      obtain ⟨db₄, hrecord, h⟩ := bind_ok.mp h
      obtain ⟨_, -, h⟩ := bind_ok.mp h
      obtain ⟨rfl, rfl⟩ : db₄ = db' ∧ event' = event := by simpa using h
      obtain ⟨hkey, hrow, hnext⟩ := CaptureRequest.create_row hevent
      have hallocated := Database.execute_ok.mp hallocate
      have hinserted := Database.execute_ok.mp (orRaise_ok.mp hinsert)
      have hid : event'.eventId = request.eventId := congrArg EventRow.eventId hrow
      rw [hid] at hrecord
      refine ⟨db₃, by rw [hinserted, hallocated, htables],
        by rw [hinserted, hallocated, htables], hkey, by rw [hrow, hnext], ?_, hrecord⟩
      rw [hinserted]
      simp

/-- A capture returns a stored event with the data of its request, and grows the sidecar. -/
theorem captureEvent_returned {faults : FaultInjector} {db db' : Database}
    {eventType : EventType} {request : CaptureRequest} {event : EventEnvelope}
    (h : captureEvent faults db eventType request = .ok (db', event)) :
    Returned request eventType event db' ∧ SidecarGrows db db' ∧ Observed db' request := by
  obtain ⟨before, hmetrics, hintents, hkey, hrow, hmem, hrecord⟩ := captureEvent_recorded h
  have hholds := recordCanonicalObservation_holds hrecord
  have hid : event.row.eventId = request.eventId := congrArg EventRow.eventId hrow
  have hstored := artifactStored_of_event hmem request.canonical.tokenizerProfileId
  rw [hid] at hstored
  have hgrows : SidecarGrows db before := .of_eq hmetrics hintents
  refine ⟨⟨hkey, hrow, by rw [hholds.journalEvents]; exact hmem⟩, ?_,
    recordCanonicalObservation_observed hrecord⟩
  exact hgrows.trans (recordCanonicalObservation_grows hstored hrecord) fun key hkept =>
    hkept.imp fun _ howner => (hholds.artifactOwner_eq key).trans howner

omit [Hashlib] in
/-- The metric that an observation adds is the count it was given. -/
theorem recordCanonicalObservation_metrics {db db' : Database} {hash artifactId : String}
    {canonical : CanonicalMetricObservation} {createdAt : Timestamp}
    (h : recordCanonicalObservation db hash artifactId canonical createdAt = .ok db')
    {metric : MetricRow} (hmetric : metric ∈ db'.tokenMetrics) :
    metric ∈ db.tokenMetrics ∨
      (metric.key = ⟨.event, artifactId, canonical.tokenizerProfileId⟩ ∧
        canonical.tokenCount = some metric.tokenCount) := by
  obtain ⟨artifact, -, h⟩ := bind_ok.mp h
  split at h
  · next count hcount =>
      have hwritten := writeMetric_written h
      obtain ⟨added, hadded, hkeys⟩ := hwritten.added
      obtain ⟨stored, hstored, hkey, hsame⟩ := hwritten.stored _ (List.mem_singleton.mpr rfl)
      have hcases := hmetric
      rw [hadded] at hcases
      rcases List.mem_append.mp hcases with hold | hnew
      · exact .inl hold
      · have hnewKey := List.mem_singleton.mp (hkeys metric hnew)
        obtain rfl := db'.consistent.tokenMetrics.primaryKey.eq_of_key hmetric hstored
          (hnewKey.trans hkey.symm)
        exact .inr ⟨hkey, by rw [hcount, hsame]⟩
  · split at h
    · obtain rfl := pure_ok.mp h
      exact .inl hmetric
    · rw [Database.execute_ok] at h
      rw [h] at hmetric
      exact .inl hmetric

/-- The event type and the request of a capture. -/
def Operation.captureOf : Operation → Option (EventType × CaptureRequest)
  | .captureUserEvent request => some (.userMessage, request)
  | .captureAssistantEvent request => some (.assistantMessage, request)
  | .captureToolEvent eventType request => some (eventType, request)
  | _ => none

/-- A committed capture ran `_capture_event`. -/
theorem step_capture {db db' : Database} {call : Call} {response : Response}
    {eventType : EventType} {request : CaptureRequest}
    (hcapture : call.operation.captureOf = some (eventType, request))
    (h : step db call = .ok (db', response)) :
    ∃ event, response = .event event ∧
      captureEvent call.faults db eventType request = .ok (db', event) := by
  obtain ⟨operation, faults⟩ := call
  cases operation with
  | captureUserEvent request | captureAssistantEvent request =>
      obtain ⟨rfl, rfl⟩ := Prod.mk.inj (Option.some.inj hcapture)
      obtain ⟨_, hresult, rfl, rfl⟩ := map_ok.mp h
      exact ⟨_, rfl, hresult⟩
  | captureToolEvent eventType request =>
      obtain ⟨rfl, rfl⟩ := Prod.mk.inj (Option.some.inj hcapture)
      obtain ⟨_, hresult, rfl, rfl⟩ := map_ok.mp h
      obtain ⟨_, -, hresult⟩ := bind_ok.mp hresult
      exact ⟨_, rfl, hresult⟩
  | _ => cases hcapture

end Captures

/-! ## Batches -/

section Batches

variable [Hashlib] [SecureCodec]

omit [Hashlib] [SecureCodec] in
/-- The ledger loop appends the records in order. -/
theorem insertReorganizationRecords_rows {faults : FaultInjector} {snapshotId : String}
    {db db' : Database} {entries : List (ReorganizationRecord × Nat)}
    (h : forEach (insertReorganizationRecord faults snapshotId) db entries = .ok db') :
    db'.reorganizationRecords = db.reorganizationRecords ++
      entries.map fun entry => entry.1.row snapshotId entry.2 := by
  induction entries generalizing db with
  | nil =>
      obtain rfl : db = db' := by simpa using h
      simp
  | cons entry rest ih =>
      obtain ⟨db₁, hentry, hrest⟩ := bind_ok.mp h
      obtain ⟨_, -, hentry⟩ := bind_ok.mp hentry
      obtain ⟨db₂, hinsert, hentry⟩ := bind_ok.mp hentry
      obtain ⟨_, -, hentry⟩ := bind_ok.mp hentry
      obtain rfl : db₂ = db₁ := by simpa using hentry
      have hrows := congrArg Tables.reorganizationRecords (Database.execute_ok.mp hinsert)
      rw [ih hrest, hrows]
      simp

/-- What the ledger and the sidecar hold once a candidate is staged: every record, and every metric
in place of its intent. -/
structure StagedSidecar (db : Database) (request : PublishRequest) (committed : SnapshotEnvelope)
    (records : List ReorganizationRecord) (db' : Database) : Prop where
  ledger : db'.reorganizationRecords = db.reorganizationRecords ++
    records.zipIdx.map fun entry => entry.1.row committed.snapshotId entry.2
  written : ∃ rows : Database, rows.tokenMetrics = db.tokenMetrics ∧
    rows.backfillIntents = db.backfillIntents ∧
    MetricsWritten rows (request.canonicalMetrics.getD []) db'

/-- Inserts that met no conflict have written the ledger and the metrics. -/
theorem stageRows_sidecar {faults : FaultInjector} {db db' : Database} {request : PublishRequest}
    {committed : SnapshotEnvelope} {records : List ReorganizationRecord}
    (h : stageRows faults db request committed records = .ok (some db')) :
    StagedSidecar db request committed records db' := by
  obtain ⟨capsules, hcapsules, h⟩ := bind_ok.mp h
  cases capsules with
  | none => simp at h
  | some db₁ =>
  obtain ⟨snapshot, hsnapshot, h⟩ := bind_ok.mp h
  cases snapshot with
  | none => simp at h
  | some db₂ =>
  obtain ⟨_, -, h⟩ := bind_ok.mp h
  obtain ⟨memberships, hmemberships, h⟩ := bind_ok.mp h
  cases memberships with
  | none => simp at h
  | some db₃ =>
  obtain ⟨db₄, hledger, h⟩ := bind_ok.mp h
  obtain ⟨db₅, hmetrics, h⟩ := bind_ok.mp h
  obtain rfl : db₅ = db' := by simpa using h
  obtain ⟨added, h₁, -, -⟩ := insertCapsules_ok (insertUntilConflict_some hcapsules)
  have hsnapshot : insertCommittedSnapshot db₁ committed = .ok db₂ := by
    unfold orConflict at hsnapshot
    split at hsnapshot <;> simp_all
  obtain ⟨committedAt, hcommittedAt, hsnapshot⟩ := bind_ok.mp hsnapshot
  obtain ⟨_, -, hsnapshot⟩ := bind_ok.mp hsnapshot
  have h₂ := Database.execute_ok.mp hsnapshot
  have h₃ := insertMemberships_ok (insertUntilConflict_some hmemberships)
  have h₄ := insertReorganizationRecords_ok hledger
  have hwritten := forEach_written (fun db entry db' hbody => by
    obtain ⟨db₁, hwrite, hbody⟩ := bind_ok.mp hbody
    obtain ⟨_, -, hbody⟩ := bind_ok.mp hbody
    obtain rfl : db₁ = db' := by simpa using hbody
    exact writeMetric_written hwrite) hmetrics
  rw [List.zipIdx_map_fst] at hwritten
  refine ⟨?_, db₄, by rw [h₄, h₃, h₂, h₁], by rw [h₄, h₃, h₂, h₁], hwritten⟩
  rw [hwritten.holds.reorganizationRecords, insertReorganizationRecords_rows hledger, h₃, h₂, h₁]

/-- A staged candidate has written the ledger and the metrics. -/
theorem stageCandidate_sidecar {faults : FaultInjector} {db db' : Database}
    {request : PublishRequest} {job : CompactionJobEnvelope} {committed : SnapshotEnvelope}
    {records : List ReorganizationRecord}
    (h : stageCandidate faults db request job committed records = .ok (some db')) :
    ∃ rows, stageRows faults db request committed records = .ok (some rows) ∧
      db'.toTables = { rows.toTables with activeSnapshots := db'.activeSnapshots } := by
  obtain ⟨rows, hrows, h⟩ := bind_ok.mp h
  cases rows with
  | none => simp at h
  | some db₁ =>
  obtain ⟨⟨db₂, moved⟩, hmove, h⟩ := bind_ok.mp h
  obtain ⟨rfl, rfl⟩ : moved = true ∧ db₂ = db' := by simpa using h
  exact ⟨db₁, hrows, (casActivePointer_ok hmove).1⟩

omit [Hashlib] [SecureCodec] in
/-- The metrics of a valid candidate are for its capsules and its snapshot. -/
theorem validateOptionalMetrics_ok {snapshot : SnapshotEnvelope}
    {memberships : List SnapshotCapsuleMembership} {metrics : Option (List TokenMetric)} {u : Unit}
    (h : validateOptionalMetrics snapshot memberships metrics = .ok u) :
    ∀ metric ∈ metrics.getD [],
      (metric.key.artifactKind, metric.key.artifactId) ∈ expectedArtifacts snapshot memberships := by
  cases metrics with
  | none => simp
  | some metrics =>
      intro metric hmetric
      have hexpected := (require_ok.mp h).2.1 _ (List.mem_map_of_mem hmetric)
      exact List.mem_dedup.mp hexpected

omit [SecureCodec] in
/-- The metrics of a staged candidate are for stored artifacts. -/
theorem CandidateRows.artifactStored {db db' : Database} {request : PublishRequest}
    {committed : SnapshotEnvelope} (h : CandidateRows db request committed db')
    (hid : committed.snapshotId = request.candidateSnapshot.snapshotId) {key : MetricKey}
    (hkey : (key.artifactKind, key.artifactId) ∈
      expectedArtifacts request.candidateSnapshot request.memberships) :
    ArtifactStored db' key := by
  rcases List.mem_append.mp hkey with hmember | hsnapshot
  · obtain ⟨membership, hmembership, hsame⟩ := List.mem_map.mp hmember
    obtain ⟨hkind, hartifact⟩ := Prod.mk.inj hsame
    have hrow := Database.capsuleRow_eq_some.mpr ⟨h.stored membership hmembership, rfl⟩
    refine ⟨membership.capsule.row.sessionKeyHash, ?_⟩
    unfold artifactOwner
    rw [← hkind, ← hartifact]
    exact Option.map_eq_some_iff.mpr ⟨_, hrow, rfl⟩
  · obtain ⟨hkind, hartifact⟩ := Prod.mk.inj (List.mem_singleton.mp hsnapshot)
    obtain ⟨committedAt, -, hsnapshots⟩ := h.snapshots
    have hrow := Database.snapshotRow_eq_some.mpr
      (⟨by rw [hsnapshots]; simp, hid⟩ :
        committed.row committedAt ∈ db'.snapshots ∧
          (committed.row committedAt).snapshotId = request.candidateSnapshot.snapshotId)
    refine ⟨(committed.row committedAt).sessionKeyHash, ?_⟩
    unfold artifactOwner
    rw [hkind, hartifact]
    exact Option.map_eq_some_iff.mpr ⟨_, hrow, rfl⟩

/-- A committed publication grows the sidecar. -/
theorem publishSnapshot_sidecar {faults : FaultInjector} {db db' : Database}
    {request : PublishRequest} {result : PublishResult}
    (h : publishSnapshot faults db request = .ok (db', result)) : SidecarGrows db db' := by
  obtain ⟨admission, row, hadmits, -, hcases⟩ := publishSnapshot_cases h
  rcases hcases with ⟨staged, hstage, -, htables⟩ | ⟨active, winner, -, -, -, htables⟩
  · obtain ⟨rows, hrows, hmoved⟩ := stageCandidate_sidecar hstage
    obtain ⟨before, hmetrics, hintents, hwritten⟩ := (stageRows_sidecar hrows).written
    have hid : admission.committed.snapshotId = request.candidateSnapshot.snapshotId := by
      rw [hadmits.committed]
    have hstored : ∀ metric ∈ request.canonicalMetrics.getD [],
        ArtifactStored before metric.key := by
      intro metric hmetric
      have hkey := validateOptionalMetrics_ok hadmits.metrics metric hmetric
      exact ((stageRows_some hrows).artifactStored hid hkey).imp fun _ howner =>
        (hwritten.holds.artifactOwner_eq metric.key).symm.trans howner
    have hlast : db'.toTables =
        { rows.toTables with
          activeSnapshots := db'.activeSnapshots, compactionJobs := db'.compactionJobs } := by
      rw [htables, hmoved]
      rfl
    have hgrows : SidecarGrows before db' := by
      refine (hwritten.grows hstored).trans (.of_eq (by rw [hlast]) (by rw [hlast])) ?_
      intro key hkey
      exact hkey.imp fun _ howner => by
        rw [← howner]
        unfold artifactOwner Database.capsuleRow Database.snapshotRow
        rw [hlast]
    refine ⟨?_, ?_⟩
    · rw [← hmetrics]
      exact hgrows.metrics
    · rw [← hmetrics, ← hintents]
      exact hgrows.intents
  · exact .of_eq (by rw [htables]; rfl) (by rw [htables]; rfl)

omit [Hashlib] in
/-- The backfill loop writes metrics for artifacts of its session only. -/
theorem backfillMetrics_owners {faults : FaultInjector} {hash : String} {now : Timestamp}
    {entries : List (TokenMetric × Nat)} {db db' : Database}
    (h : forEach (backfillMetric faults hash now) db entries = .ok db') :
    ∀ entry ∈ entries, artifactOwner db entry.1.key = some hash := by
  induction entries generalizing db with
  | nil => simp
  | cons entry rest ih =>
      obtain ⟨db₁, hbody, hrest⟩ := bind_ok.mp h
      obtain ⟨_, howner, hbody⟩ := bind_ok.mp hbody
      obtain ⟨db₂, hwrite, hbody⟩ := bind_ok.mp hbody
      obtain ⟨_, -, hbody⟩ := bind_ok.mp hbody
      obtain rfl : db₂ = db₁ := by simpa using hbody
      intro other hother
      rcases List.mem_cons.mp hother with rfl | hother
      · exact require_ok.mp howner
      · rw [← (writeMetric_holds hwrite).artifactOwner_eq]
        exact ih hrest other hother

/-- A committed backfill batch writes its metrics, all for artifacts of the session. -/
theorem writeMetricBackfillBatch_written {faults : FaultInjector} {db db' : Database}
    {sessionKey : SessionKey} {metrics metrics' : List TokenMetric} {now : Timestamp}
    (h : writeMetricBackfillBatch faults db sessionKey metrics now = .ok (db', metrics')) :
    MetricsWritten db metrics db' ∧
      ∀ metric ∈ metrics, artifactOwner db metric.key = some sessionKey.sessionKeyHash := by
  obtain ⟨_, -, h⟩ := bind_ok.mp h
  obtain ⟨_, -, h⟩ := bind_ok.mp h
  obtain ⟨db₁, hloop, h⟩ := bind_ok.mp h
  obtain ⟨rfl, rfl⟩ : db₁ = db' ∧ metrics = metrics' := by simpa using h
  have hwritten := forEach_written (fun db entry db' hbody => by
    obtain ⟨_, -, hbody⟩ := bind_ok.mp hbody
    obtain ⟨db₁, hwrite, hbody⟩ := bind_ok.mp hbody
    obtain ⟨_, -, hbody⟩ := bind_ok.mp hbody
    obtain rfl : db₁ = db' := by simpa using hbody
    exact writeMetric_written hwrite) hloop
  rw [List.zipIdx_map_fst] at hwritten
  refine ⟨hwritten, ?_⟩
  intro metric hmetric
  rw [← List.zipIdx_map_fst 0 metrics] at hmetric
  obtain ⟨entry, hentry, rfl⟩ := List.mem_map.mp hmetric
  exact backfillMetrics_owners hloop entry hentry

/-! ## Every call -/

/-- Operations that may write the sidecar. -/
def Operation.writesSidecar : Operation → Bool
  | .captureUserEvent .. | .captureAssistantEvent .. | .captureToolEvent .. | .publishSnapshot ..
  | .writeMetricBackfillBatch .. => true
  | _ => false

omit [SecureCodec] in
/-- Any other operation leaves the sidecar alone. -/
theorem Effect.sidecar_eq {db db' : Database} {operation : Operation} {response : Response}
    (h : Effect db operation db' response) (hother : operation.writesSidecar = false)
    (hread : ∀ sessionKey, operation ≠ .readRequestView sessionKey) :
    db'.tokenMetrics = db.tokenMetrics ∧ db'.backfillIntents = db.backfillIntents := by
  cases h with
  | @captured operation _ _ _ hoperation _ =>
      cases operation <;> simp [Operation.captures, Operation.writesSidecar] at hoperation hother
  | @sidecar operation _ _ hoperation _ =>
      cases operation with
      | readRequestView sessionKey => exact absurd rfl (hread sessionKey)
      | _ => simp [Operation.isSidecar, Operation.writesSidecar] at hoperation hother
  | intentCovered | intentCarried | claimedNone | viewed => exact ⟨rfl, rfl⟩
  | intentFolded _ _ _ _ _ htables | intentQueued _ _ _ htables | claimed _ _ _ htables
  | transitioned _ _ _ htables | renewed _ _ htables | failed _ _ htables
  | recovered htables =>
      exact ⟨by rw [htables]; rfl, by rw [htables]; rfl⟩
  | committed | superseded => cases hother

/-- Every committed call grows the sidecar. -/
theorem step_sidecar {db db' : Database} {call : Call} {response : Response} (h : Sound db)
    (hstep : step db call = .ok (db', response)) : SidecarGrows db db' := by
  have heffect := h.effect hstep
  obtain ⟨operation, faults⟩ := call
  cases operation with
  | captureUserEvent request | captureAssistantEvent request =>
      obtain ⟨_, hresult, rfl, rfl⟩ := map_ok.mp hstep
      exact (captureEvent_returned hresult).2.1
  | captureToolEvent eventType request =>
      obtain ⟨_, hresult, rfl, rfl⟩ := map_ok.mp hstep
      obtain ⟨_, -, hresult⟩ := bind_ok.mp hresult
      exact (captureEvent_returned hresult).2.1
  | publishSnapshot request =>
      obtain ⟨_, hresult, rfl, rfl⟩ := map_ok.mp hstep
      exact publishSnapshot_sidecar hresult
  | writeMetricBackfillBatch sessionKey metrics now =>
      obtain ⟨_, hresult, rfl, rfl⟩ := map_ok.mp hstep
      obtain ⟨hwritten, howners⟩ := writeMetricBackfillBatch_written hresult
      exact hwritten.grows fun metric hmetric => ⟨_, howners metric hmetric⟩
  | readRequestView sessionKey =>
      obtain ⟨_, -, rfl, rfl⟩ := map_ok.mp hstep
      exact .of_eq rfl rfl
  | _ =>
      obtain ⟨hmetrics, hintents⟩ := heffect.sidecar_eq rfl (by simp)
      exact .of_eq hmetrics hintents

/-- Every reachable state satisfies the sidecar invariant. -/
theorem sidecarSound_of_reachable {db : Database} (h : repository.Reachable db) :
    SidecarSound db := by
  suffices hboth : Sound db ∧ SidecarSound db from hboth.2
  refine System.reachable_invariant repository (P := fun db => Sound db ∧ SidecarSound db)
    ⟨sound_empty, ?_⟩ ?_ h
  · exact ⟨by simp [repository, Database.empty], by simp [repository, Database.empty]⟩
  · intro db call db' response hsound hstep
    exact ⟨hsound.1.step hstep, (step_sidecar hsound.1 hstep).sound hsound.2
      (hsound.1.effect hstep).grows.artifactStored⟩

end Batches

end AstrContinuum
