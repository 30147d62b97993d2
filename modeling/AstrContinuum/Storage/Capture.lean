import AstrContinuum.Storage.Crypto
import AstrContinuum.Storage.Rows

/-!
# Capturing events

`TX_CAPTURE_USER_EVENT`, `TX_CAPTURE_ASSISTANT_EVENT` and `TX_CAPTURE_TOOL_EVENT`, with the token
metric sidecar of `storage/token_metrics.py` that they and publication write. A transaction is a
computation that returns the database it commits; when it raises, everything is rolled back.
-/

namespace AstrContinuum

open Checked Relational

/-! ## Token metrics -/

/-- `TokenMetric`. -/
structure TokenMetric where
  key : MetricKey
  tokenCount : Nat
  valid : stripNonEmpty key.artifactId = true ∧ stripNonEmpty key.tokenizerProfileId = true := by
    decide
deriving DecidableEq

/-- `CanonicalMetricObservation`. -/
structure CanonicalMetricObservation where
  tokenizerProfileId : String
  tokenCount : Option Nat
  valid : stripNonEmpty tokenizerProfileId = true := by decide
deriving DecidableEq

/-- The protected cell of a metric. -/
def metricCell (key : MetricKey) (tokenCount : Nat) : ProtectedCell where
  table := "token_metrics"
  column := "metric_envelope"
  recordKey := Crypto.metricRecordKeyText key.artifactKind key.artifactId key.tokenizerProfileId
  plaintext := .metric tokenCount

/-- The row of a metric. -/
def Database.metricRow (db : Database) (key : MetricKey) : Option MetricRow :=
  db.tokenMetrics.find? fun row => row.key = key

/-- `TokenMetricStore.put_in_transaction`: insert a metric, or accept an exact replay. -/
def putInTransaction [SecureCodec] (db : Database) (metric : TokenMetric) (createdAt : Timestamp) :
    Except StorageFailure Database :=
  match db.metricRow metric.key with
  | some existing => do
      require (existing.tokenCount = metric.tokenCount) .tokenMetricConflict
      pure db
  | none => do
      encryptCells [metricCell metric.key metric.tokenCount]
      Database.execute { db.toTables with
        tokenMetrics := db.tokenMetrics ++ [⟨metric.key, metric.tokenCount, createdAt⟩] }

/-- `DELETE FROM token_metric_backfill_intents` for one key. -/
def deleteBackfillIntent (db : Database) (key : MetricKey) : Except StorageFailure Database :=
  Database.execute { db.toTables with
    backfillIntents := db.backfillIntents.filter fun row => row.key ≠ key }

/-- A write of one metric: `put_in_transaction` and the removal of its backfill intent. -/
def writeMetric [SecureCodec] (db : Database) (metric : TokenMetric) (createdAt : Timestamp) :
    Except StorageFailure Database := do
  let db ← putInTransaction db metric createdAt
  deleteBackfillIntent db metric.key

/-- `TokenMetric(...)` or the identifier checks of `get_in_transaction`, for an event. -/
def requireArtifactId (artifactId : String) :
    Except StorageFailure (PLift (stripNonEmpty artifactId = true)) :=
  if h : stripNonEmpty artifactId = true then .ok ⟨h⟩
  else .error (.valueError "artifact_id must be non-empty")

/-- `_record_canonical_observation`. -/
def recordCanonicalObservation [SecureCodec] (db : Database) (hash artifactId : String)
    (canonical : CanonicalMetricObservation) (createdAt : Timestamp) :
    Except StorageFailure Database := do
  let key : MetricKey := ⟨.event, artifactId, canonical.tokenizerProfileId⟩
  let artifact ← requireArtifactId artifactId
  match canonical.tokenCount with
  | some tokenCount => writeMetric db ⟨key, tokenCount, artifact.down, canonical.valid⟩ createdAt
  | none =>
      if (db.metricRow key).isSome || (db.backfillIntents.any fun row => row.key = key) then pure db
      else
        Database.execute { db.toTables with
          backfillIntents := db.backfillIntents ++ [⟨hash, key, createdAt⟩] }

section Sidecar

variable [SecureCodec]

/-- A metric write touches only the sidecar. -/
theorem writeMetric_holds {db db' : Database} {metric : TokenMetric} {createdAt : Timestamp}
    (h : writeMetric db metric createdAt = .ok db') : db'.Holds db.toTables := by
  obtain ⟨stored, hput, hdelete⟩ := bind_ok.mp h
  have hstored : stored.Holds db.toTables := by
    unfold putInTransaction at hput
    split at hput
    · obtain ⟨_, -, hput⟩ := bind_ok.mp hput
      obtain rfl := pure_ok.mp hput
      exact .of_eq rfl
    · obtain ⟨_, -, hput⟩ := bind_ok.mp hput
      rw [Database.execute_ok] at hput
      constructor <;> rw [hput]
  rw [deleteBackfillIntent, Database.execute_ok] at hdelete
  have hdeleted : db'.Holds stored.toTables := by constructor <;> rw [hdelete]
  exact hdeleted.trans hstored

/-- Recording an observation touches only the sidecar. -/
theorem recordCanonicalObservation_holds {db db' : Database} {hash artifactId : String}
    {canonical : CanonicalMetricObservation} {createdAt : Timestamp}
    (h : recordCanonicalObservation db hash artifactId canonical createdAt = .ok db') :
    db'.Holds db.toTables := by
  obtain ⟨artifact, -, h⟩ := bind_ok.mp h
  split at h
  · exact writeMetric_holds h
  · split at h
    · obtain rfl := pure_ok.mp h
      exact .of_eq rfl
    · rw [Database.execute_ok] at h
      constructor <;> rw [h]

end Sidecar

/-! ## Sessions -/

variable [Hashlib]

/-- The protected cells of a session; what is `NULL` is not encrypted. -/
def sessionCells (sessionKey : SessionKey) : List ProtectedCell :=
  let cell (column : String) (plaintext : Plaintext) : ProtectedCell :=
    ⟨"sessions", column, sessionKey.sessionKeyHash, plaintext⟩
  [cell "canonical_session_key_json" (.sessionKey sessionKey),
      cell "platform_instance_id" (.text sessionKey.platformInstanceId),
      cell "message_type" (.text sessionKey.messageType),
      cell "session_id" (.text sessionKey.sessionId)] ++
    sessionKey.groupId.toList.map (fun groupId => cell "group_id" (.text groupId)) ++
    [cell "user_id" (.text sessionKey.userId), cell "conversation_id"
      (.text sessionKey.conversationId)] ++
    sessionKey.personaId.toList.map (fun personaId => cell "persona_id" (.text personaId))

/-- `_ensure_session`. -/
def ensureSession [SecureCodec] (db : Database) (sessionKey : SessionKey) (timestamp : Timestamp) :
    Except StorageFailure Database := do
  let inexact := StorageFailure.sessionIdentityConflict
    "session hash does not resolve to the exact canonical SessionKey"
  match db.sessionRow sessionKey.sessionKeyHash with
  | some existing => do
      let stored ← sessionKeyFromStorage existing
      require (stored = sessionKey) inexact
      pure db
  | none => do
      encryptCells (sessionCells sessionKey)
      let db ← orRaise
        (Database.execute { db.toTables with
          sessions := db.sessions ++
            [⟨sessionKey.sessionKeyHash, sessionKey, 1, timestamp, timestamp⟩] })
        (.sessionIdentityConflict "canonical SessionKey conflicts with durable session identity")
      let row ← orMissing (db.sessionRow sessionKey.sessionKeyHash) inexact
      let stored ← sessionKeyFromStorage row
      require (stored = sessionKey) inexact
      pure db

/-- The `sessions` table after `_ensure_session`: the session was there, or it was appended. -/
inductive Opened (db : Database) (sessionKey : SessionKey) : List SessionRow → Prop
  | existing {row : SessionRow} (hmem : row ∈ db.sessions)
      (hhash : row.sessionKeyHash = sessionKey.sessionKeyHash)
      (hkey : row.sessionKey = sessionKey) : Opened db sessionKey db.sessions
  | created (timestamp : Timestamp)
      (hnew : ∀ row ∈ db.sessions, row.sessionKeyHash ≠ sessionKey.sessionKeyHash) :
      Opened db sessionKey
        (db.sessions ++ [⟨sessionKey.sessionKeyHash, sessionKey, 1, timestamp, timestamp⟩])

/-- `_ensure_session` leaves the session stored and every other table alone. -/
theorem ensureSession_ok [SecureCodec] {db db' : Database} {sessionKey : SessionKey}
    {timestamp : Timestamp} (h : ensureSession db sessionKey timestamp = .ok db') :
    Opened db sessionKey db'.sessions ∧
      db'.toTables = { db.toTables with sessions := db'.sessions } := by
  unfold ensureSession at h
  simp only at h
  split at h
  · next existing hexisting =>
      obtain ⟨stored, hstored, h⟩ := bind_ok.mp h
      obtain ⟨_, hsame, h⟩ := bind_ok.mp h
      obtain rfl := pure_ok.mp h
      obtain rfl := require_ok.mp hsame
      obtain ⟨hmem, hhash⟩ := Database.sessionRow_eq_some.mp hexisting
      exact ⟨.existing hmem hhash (sessionKeyFromStorage_ok.mp hstored).1, rfl⟩
  · next hnone =>
      obtain ⟨_, -, h⟩ := bind_ok.mp h
      obtain ⟨db₁, hinsert, h⟩ := bind_ok.mp h
      obtain ⟨row, -, h⟩ := bind_ok.mp h
      obtain ⟨stored, -, h⟩ := bind_ok.mp h
      obtain ⟨_, -, h⟩ := bind_ok.mp h
      obtain rfl := pure_ok.mp h
      have htables := Database.execute_ok.mp (orRaise_ok.mp hinsert)
      rw [htables]
      exact ⟨.created timestamp (find_eq_none.mp hnone), rfl⟩

/-- `_require_session_identity`. -/
def requireSessionIdentity (db : Database) (sessionKey : SessionKey) :
    Except StorageFailure Unit := do
  let row ← orMissing (db.sessionRow sessionKey.sessionKeyHash)
    (.sessionIdentityConflict "session is missing from durable storage")
  let stored ← sessionKeyFromStorage row
  require (stored = sessionKey)
    (.sessionIdentityConflict "session hash resolves to a different SessionKey")

/-! ## Capture -/

/-- The arguments that every capture shares. -/
structure CaptureRequest where
  eventId : String
  sessionKey : SessionKey
  content : String
  idempotencyKey : String
  tokenCount : Nat
  canonical : CanonicalMetricObservation
  createdAt : Timestamp

/-- `EventEnvelope.create`. -/
def CaptureRequest.create (request : CaptureRequest) (eventType : EventType) (sequence : Nat) :
    Except StorageFailure EventEnvelope :=
  EventEnvelope.modelValidate
    { eventId := request.eventId
      sessionKey := request.sessionKey
      sequence := sequence
      eventType := eventType
      role := eventType.mapping.1
      content := request.content
      sourceHook := eventType.mapping.2
      idempotencyKey := request.idempotencyKey
      tokenCount := request.tokenCount
      createdAt := request.createdAt }
    .validationError

/-- `_find_idempotent_event`. -/
def findIdempotentEvent (db : Database) (sessionKey : SessionKey) (sourceHook : SourceHook)
    (idempotencyKey : String) : Except StorageFailure (Option EventEnvelope) :=
  match db.journalEvents.find? fun row =>
      decide (row.sessionKeyHash = sessionKey.sessionKeyHash) &&
        decide (row.sourceHook = sourceHook) && decide (row.idempotencyKey = idempotencyKey) with
  | none => .ok none
  | some row => do
      let event ← eventFromRow sessionKey row
      pure (some event)

/-- `_is_exact_replay`: equal in every field but the sequence. -/
def isExactReplay (existing requested : EventEnvelope) : Prop :=
  { existing.toEventData with sequence := 0 } = { requested.toEventData with sequence := 0 }

instance (existing requested : EventEnvelope) : Decidable (isExactReplay existing requested) :=
  inferInstanceAs (Decidable (_ = _))

/-- The row that stores an event. -/
def EventEnvelope.row (event : EventEnvelope) : EventRow where
  eventId := event.eventId
  sessionKeyHash := event.sessionKey.sessionKeyHash
  sequence := event.sequence
  eventType := event.eventType
  role := event.role
  content := event.content
  sourceHook := event.sourceHook
  idempotencyKey := event.idempotencyKey
  tokenCount := event.tokenCount
  createdAt := event.createdAt

/-- The sequence allocation of `_capture_event`. -/
def SessionRow.allocate (row : SessionRow) (now : Timestamp) : SessionRow :=
  { row with nextEventSequence := row.nextEventSequence + 1, updatedAt := now }

/-- The protected cells of an event. -/
def eventCells (event : EventEnvelope) : List ProtectedCell :=
  [⟨"journal_events", "content", event.eventId, .text event.content⟩,
    ⟨"journal_events", "token_count", event.eventId, .integer event.tokenCount⟩]

/-- `_capture_event`. -/
def captureEvent [SecureCodec] (faults : FaultInjector) (db : Database) (eventType : EventType)
    (request : CaptureRequest) : Except StorageFailure (Database × EventEnvelope) := do
  let hash := request.sessionKey.sessionKeyHash
  let requested ← request.create eventType 1
  let db ← ensureSession db request.sessionKey request.createdAt
  inject faults .captureAfterSession
  match ← findIdempotentEvent db request.sessionKey requested.sourceHook
      request.idempotencyKey with
  | some existing => do
      require (isExactReplay existing requested)
        (.idempotencyConflict "event idempotency tuple was reused with different immutable data")
      let db ← recordCanonicalObservation db hash existing.eventId request.canonical
        request.createdAt
      inject faults .captureAfterMetric
      pure (db, existing)
  | none => do
      let row ← orMissing (db.sessionRow hash)
        (.sessionIdentityConflict "session disappeared during event capture")
      let db ← Database.execute { db.toTables with
        sessions := update
          (fun other => decide (other.sessionKeyHash = hash) &&
            decide (other.nextEventSequence = row.nextEventSequence))
          (fun other => other.allocate request.createdAt) db.sessions }
      inject faults .captureAfterAllocate
      let event ← request.create eventType row.nextEventSequence
      inject faults .captureBeforeInsert
      encryptCells (eventCells event)
      let db ← orRaise
        (Database.execute { db.toTables with journalEvents := db.journalEvents ++ [event.row] })
        (.eventIdentityConflict "event identity or sequence conflicts with durable state")
      inject faults .captureAfterInsert
      let db ← recordCanonicalObservation db hash event.eventId request.canonical
        request.createdAt
      inject faults .captureAfterMetric
      pure (db, event)

/-- What a capture does to the durable tables: an exact replay stores nothing new, and any other
capture appends one event under the next sequence of its session. -/
inductive CaptureEffect (db : Database) (sessionKey : SessionKey) (event : EventEnvelope) :
    Database → Prop
  | replayed {sessions : List SessionRow} {db' : Database} (hopen : Opened db sessionKey sessions)
      (hold : db'.Holds { db.toTables with sessions := sessions }) :
      CaptureEffect db sessionKey event db'
  | appended {sessions : List SessionRow} {row : SessionRow} {db' : Database} (now : Timestamp)
      (hopen : Opened db sessionKey sessions) (hrow : row ∈ sessions)
      (hhash : row.sessionKeyHash = sessionKey.sessionKeyHash)
      (hkey : event.sessionKey = sessionKey)
      (hsequence : event.sequence = row.nextEventSequence)
      (hold : db'.Holds { db.toTables with
        sessions := update
          (fun other => decide (other.sessionKeyHash = sessionKey.sessionKeyHash) &&
            decide (other.nextEventSequence = row.nextEventSequence))
          (fun other => other.allocate now) sessions
        journalEvents := db.journalEvents ++ [event.row] }) :
      CaptureEffect db sessionKey event db'

/-- The effect of `_capture_event`. -/
theorem captureEvent_effect [SecureCodec] {faults : FaultInjector} {db db' : Database}
    {eventType : EventType} {request : CaptureRequest} {event : EventEnvelope}
    (h : captureEvent faults db eventType request = .ok (db', event)) :
    CaptureEffect db request.sessionKey event db' := by
  obtain ⟨requested, -, h⟩ := bind_ok.mp h
  obtain ⟨db₁, hensure, h⟩ := bind_ok.mp h
  obtain ⟨hopen, htables⟩ := ensureSession_ok hensure
  obtain ⟨_, -, h⟩ := bind_ok.mp h
  obtain ⟨found, -, h⟩ := bind_ok.mp h
  cases found with
  | some existing =>
      obtain ⟨_, -, h⟩ := bind_ok.mp h
      obtain ⟨db₂, hrecord, h⟩ := bind_ok.mp h
      obtain ⟨_, -, h⟩ := bind_ok.mp h
      obtain ⟨rfl, rfl⟩ : db₂ = db' ∧ existing = event := by simpa using h
      have hsidecar := recordCanonicalObservation_holds hrecord
      exact .replayed hopen (by rw [← htables]; exact hsidecar)
  | none =>
      obtain ⟨row, hrow, h⟩ := bind_ok.mp h
      obtain ⟨db₂, hallocate, h⟩ := bind_ok.mp h
      obtain ⟨_, -, h⟩ := bind_ok.mp h
      obtain ⟨event', hevent, h⟩ := bind_ok.mp h
      obtain ⟨_, -, h⟩ := bind_ok.mp h
      obtain ⟨_, -, h⟩ := bind_ok.mp h
      obtain ⟨db₃, hinsert, h⟩ := bind_ok.mp h
      obtain ⟨_, -, h⟩ := bind_ok.mp h
      obtain ⟨db₄, hrecord, h⟩ := bind_ok.mp h
      obtain ⟨_, -, h⟩ := bind_ok.mp h
      obtain ⟨rfl, rfl⟩ : db₄ = db' ∧ event' = event := by simpa using h
      obtain ⟨hmem, hhash⟩ := Database.sessionRow_eq_some.mp (orMissing_ok.mp hrow)
      have hdata := EventEnvelope.modelValidate_ok hevent
      have hallocated := Database.execute_ok.mp hallocate
      have hinserted := Database.execute_ok.mp (orRaise_ok.mp hinsert)
      have hsidecar := recordCanonicalObservation_holds hrecord
      refine .appended request.createdAt hopen hmem hhash (by rw [hdata]) (by rw [hdata]) ?_
      refine hsidecar.trans (.of_eq ?_)
      rw [hinserted, hallocated, htables]

/-- `capture_user_event`. -/
def captureUserEvent [SecureCodec] (faults : FaultInjector) (db : Database)
    (request : CaptureRequest) : Except StorageFailure (Database × EventEnvelope) :=
  captureEvent faults db .userMessage request

/-- `capture_assistant_event`. -/
def captureAssistantEvent [SecureCodec] (faults : FaultInjector) (db : Database)
    (request : CaptureRequest) : Except StorageFailure (Database × EventEnvelope) :=
  captureEvent faults db .assistantMessage request

/-- `capture_tool_event`. -/
def captureToolEvent [SecureCodec] (faults : FaultInjector) (db : Database)
    (eventType : EventType) (request : CaptureRequest) :
    Except StorageFailure (Database × EventEnvelope) := do
  require (eventType = .toolCall ∨ eventType = .toolResult)
    (.valueError "tool capture accepts only TOOL_CALL or TOOL_RESULT")
  captureEvent faults db eventType request

end AstrContinuum
