import AstrContinuum.Storage.Records

/-!
# Re-encrypting the records

What an activation does with the protected records: the first encryption of a store in clear text
(`transformLegacyRecords`), the move to the second format (`copyFormatTwo`) and a change of keys (`rekeyRecords`).
Each pages through the protected tables, encrypts the protected cells of a row under the target key, updates
the row or inserts it into a new table, and decrypts what is stored to compare it. A conversion is given by
its table, its cells and, for a copy, the other columns.
-/

namespace AstrContinuum

namespace Records

open Checked Relational Migrations Crypto

/-! ## Cells -/

/-- How a cell is protected. -/
inductive Protection
  | text
  | optionalText
  | object
  | array
  | count
deriving DecidableEq

/-- A protected cell: the column it is authenticated with, and the one that holds it where it is encrypted. -/
structure Cell where
  column : String
  stored : String
  protection : Protection
deriving DecidableEq

/-- What a protected cell says. -/
inductive Plaintext
  | null
  | text (value : String)
  | count (value : Nat)
deriving DecidableEq

/-- How the cells of a store are encrypted: not at all, in the first format, whose counts are in clear text, or
in the second. -/
inductive Encryption
  | none
  | formatOne (codec : Crypto.SecureCodec)
  | formatTwo (codec : Crypto.SecureCodec)

/-- `_format_one_count`. -/
def formatOneCount : SqlValue → Except Failure Plaintext
  | .integer value =>
      if 0 ≤ value then .ok (.count value.toNat) else .error (.security .storageMigrationFailed)
  | _ => .error (.security .storageMigrationFailed)

/-- A cell in clear text. -/
def clearCell (cell : Cell) (row : Row) : Except Failure Plaintext :=
  match cell.protection, row cell.column with
  | .optionalText, .null => .ok .null
  | .optionalText, .text value => .ok (.text value)
  | .optionalText, _ => .error .value
  | .count, value => formatOneCount value
  | _, value => .ok (.text value.str)

section Codec

variable [Primitives]

/-- A cell is decrypted. What is no text is no envelope. -/
def openCell (codec : Crypto.SecureCodec) (table recordKey : String) (cell : Cell) (value : SqlValue) :
    Except Failure Plaintext :=
  match cell.protection, value with
  | .optionalText, .null => .ok .null
  | .text, value | .optionalText, value =>
      ((codec.decryptText table cell.column recordKey value.str).map .text).mapError codecFailure
  | .object, value =>
      ((codec.decryptObjectJson table cell.column recordKey value.str).map .text).mapError codecFailure
  | .array, value =>
      ((codec.decryptArrayJson table cell.column recordKey value.str).map .text).mapError codecFailure
  | .count, value =>
      ((codec.decryptNonNegativeInt table cell.column recordKey value.str).map .count).mapError codecFailure

/-- A cell is encrypted. -/
def sealCell (codec : Crypto.SecureCodec) (nonce : Nonce) (table recordKey : String) (cell : Cell) :
    Plaintext → Except Failure SqlValue
  | .null => if cell.protection = .optionalText then .ok .null else .error .value
  | .count value =>
      if cell.protection = .count then
        ((codec.encryptNonNegativeInt nonce table cell.column recordKey value).map .text).mapError codecFailure
      else .error .value
  | .text value =>
      match cell.protection with
      | .text | .optionalText =>
          ((codec.encryptText nonce table cell.column recordKey value).map .text).mapError codecFailure
      | .object =>
          ((codec.encryptObjectJson nonce table cell.column recordKey value).map .text).mapError codecFailure
      | .array =>
          ((codec.encryptArrayJson nonce table cell.column recordKey value).map .text).mapError codecFailure
      | .count => .error .value

/-- What a cell of a row says. -/
def readCell (encryption : Encryption) (table recordKey : String) (cell : Cell) (row : Row) :
    Except Failure Plaintext :=
  match encryption with
  | .none => clearCell cell row
  | .formatOne codec =>
      if cell.protection = .count then formatOneCount (row cell.column)
      else openCell codec table recordKey cell (row cell.stored)
  | .formatTwo codec => openCell codec table recordKey cell (row cell.stored)

/-! ## Rows -/

/-- How the rows of a table are converted: what is raised where a stored row is missing or says something else. -/
structure Conversion where
  table : String
  primaryKey : String
  cells : List Cell
  missing : Failure
  mismatch : SecurityErrorCode
  key_ok : ∀ cell ∈ cells, cell.stored ≠ primaryKey

/-- A conversion into a new table, with the columns that are copied. -/
structure Copy extends Conversion where
  destination : String
  columns : List String
  columns_ok : ∀ column ∈ columns, column ≠ primaryKey ∧ ∀ cell ∈ cells, cell.stored ≠ column
  destination_ok : destination ≠ table

/-- A cell, what it says, and what is stored for it. -/
structure Sealed where
  cell : Cell
  plaintext : Plaintext
  value : SqlValue

/-- What is stored in a column. -/
def storedValue (cells : List Sealed) (column : String) : Option SqlValue :=
  (cells.find? fun s => s.cell.stored = column).map Sealed.value

/-- A row with other cells. -/
def setCells (cells : List Sealed) (row : Row) : Row := fun column =>
  (storedValue cells column).getD (row column)

/-- The row that is inserted by a copy. -/
def copiedRow (copy : Copy) (recordKey : String) (cells : List Sealed) (row : Row) : Row := fun column =>
  match storedValue cells column with
  | some value => value
  | none =>
      if column = copy.primaryKey then .text recordKey
      else if column ∈ copy.columns then row column
      else .null

/-- The rows with a primary key. -/
def hasKey (primaryKey recordKey : String) (row : Row) : Bool :=
  row primaryKey = .text recordKey

/-- `_assert_wire`, or the comparison of a count or of a null. -/
def verifyCell (conversion : Conversion) (target : Crypto.SecureCodec) (recordKey : String) (stored : Row)
    (s : Sealed) : Except Failure Unit := do
  let plaintext ← openCell target conversion.table recordKey s.cell (stored s.cell.stored)
  require (plaintext = s.plaintext) (.security conversion.mismatch)

variable [SqlEngine] (settings : Settings)

/-- The cells of a row are read and encrypted. -/
def sealCells (conversion : Conversion) (before : Encryption) (target : Crypto.SecureCodec) (row : Row) :
    Except Failure (List Sealed) :=
  let recordKey := textKey conversion.primaryKey row
  conversion.cells.mapM fun cell => do
    let plaintext ← readCell before conversion.table recordKey cell row
    let value ← sealCell target (SqlEngine.nonce settings conversion.table cell.column recordKey)
      conversion.table recordKey cell plaintext
    pure ⟨cell, plaintext, value⟩

/-- A row is encrypted in place, and what is stored is verified. -/
def rewriteRow (conversion : Conversion) (before : Encryption) (target : Crypto.SecureCodec) (store : Store)
    (row : Row) : Except Failure Store := do
  let recordKey := textKey conversion.primaryKey row
  let cells ← sealCells settings conversion before target row
  let store ← updateWhere conversion.table (hasKey conversion.primaryKey recordKey) (setCells cells) store
  let stored ← selectOne conversion.table (hasKey conversion.primaryKey recordKey) conversion.missing store
  forEach (fun _ s => verifyCell conversion target recordKey stored s) () cells
  pure store

/-- A row is encrypted into a new table, and what is stored is verified. -/
def copyRow (copy : Copy) (before : Encryption) (target : Crypto.SecureCodec) (store : Store) (row : Row) :
    Except Failure Store := do
  let recordKey := textKey copy.primaryKey row
  let cells ← sealCells settings copy.toConversion before target row
  let store ← insertInto copy.destination copy.primaryKey (copiedRow copy recordKey cells row) store
  let stored ← selectOne copy.destination (hasKey copy.primaryKey recordKey) copy.missing store
  forEach (fun _ s => verifyCell copy.toConversion target recordKey stored s) () cells
  pure store

/-- The loop that rewrites a table. -/
def rewriteTable (conversion : Conversion) (before : Encryption) (target : Crypto.SecureCodec) (store : Store) :
    Except Failure Store :=
  returned (batchedRows conversion.table conversion.primaryKey
    (rewriteRow settings conversion before target) store)

/-- The loop that copies a table. -/
def copyTable (copy : Copy) (before : Encryption) (target : Crypto.SecureCodec) (store : Store) :
    Except Failure Store :=
  returned (batchedRows copy.table copy.primaryKey (copyRow settings copy before target) store)

end Codec

/-! ## The protected tables -/

/-- `_SESSION_IDENTITY_COLUMNS`. -/
def sessionIdentityColumns : List String :=
  ["platform_instance_id", "message_type", "session_id", "group_id", "user_id", "conversation_id",
    "persona_id"]

/-- The identity of a session. -/
def identityCells : List Cell :=
  sessionIdentityColumns.map fun column => ⟨column, column, .optionalText⟩

/-- The canonical key of a session. -/
def canonicalSessionCell : Cell :=
  ⟨"canonical_session_key_json", "canonical_session_key_json", .object⟩

/-- The content of an event. -/
def contentCell : Cell := ⟨"content", "content", .text⟩

/-- The count of an event. -/
def tokenCountCell : Cell := ⟨"token_count", "token_count_envelope", .count⟩

/-- The text of a capsule. -/
def canonicalCapsuleCell : Cell := ⟨"canonical_capsule_json", "canonical_capsule_json", .object⟩

/-- The count of a capsule or a snapshot. -/
def tokenCostCell : Cell := ⟨"token_cost", "token_cost_envelope", .count⟩

/-- The anchors of a snapshot. -/
def exactAnchorsCell : Cell := ⟨"exact_anchor_ids_json", "exact_anchor_ids_json", .array⟩

/-- The text of a snapshot. -/
def renderedContextCell : Cell := ⟨"rendered_context", "rendered_context", .text⟩

/-- The audit of a snapshot. -/
def auditOutcomeCell : Cell := ⟨"audit_outcome", "audit_outcome", .object⟩

/-- `_COUNTED_TABLES`. -/
def countedTables : List String :=
  ["sessions", "journal_events", "capsules", "snapshots", "snapshot_capsules", "active_snapshots",
    "compaction_jobs"]

/-! ## The first encryption -/

/-- The sessions of `_transform_legacy`. -/
def legacySessions : Copy where
  table := "sessions"
  primaryKey := "session_key_hash"
  cells := identityCells ++ [canonicalSessionCell]
  missing := .value
  mismatch := .storageMigrationFailed
  key_ok := by decide
  destination := "_astrcontinuum_secure_sessions"
  columns := ["next_event_sequence", "created_at", "updated_at"]
  columns_ok := by decide
  destination_ok := by decide

/-- Its events. -/
def legacyJournalEvents : Conversion where
  table := "journal_events"
  primaryKey := "event_id"
  cells := [contentCell]
  missing := .value
  mismatch := .storageMigrationFailed
  key_ok := by decide

/-- Its capsules. -/
def legacyCapsules : Conversion where
  table := "capsules"
  primaryKey := "capsule_id"
  cells := [canonicalCapsuleCell]
  missing := .value
  mismatch := .storageMigrationFailed
  key_ok := by decide

/-- Its snapshots. -/
def legacySnapshots : Copy where
  table := "snapshots"
  primaryKey := "snapshot_id"
  cells := [exactAnchorsCell, renderedContextCell, auditOutcomeCell]
  missing := .value
  mismatch := .storageMigrationFailed
  key_ok := by decide
  destination := "_astrcontinuum_secure_snapshots"
  columns := ["session_key_hash", "base_snapshot_id", "covered_event_end", "source_high_water_mark",
    "token_cost", "lifecycle_state", "created_at", "committed_at"]
  columns_ok := by decide
  destination_ok := by decide

/-! ## The second format -/

/-- `_rewrite_format_two_sessions`. -/
def formatTwoSessions : Conversion where
  table := "sessions"
  primaryKey := "session_key_hash"
  cells := canonicalSessionCell :: identityCells
  missing := .security .storageMigrationFailed
  mismatch := .storageMigrationFailed
  key_ok := by decide

/-- `_copy_format_two_journal_events`. -/
def formatTwoJournalEvents : Copy where
  table := "journal_events"
  primaryKey := "event_id"
  cells := [contentCell, tokenCountCell]
  missing := .security .storageMigrationFailed
  mismatch := .storageMigrationFailed
  key_ok := by decide
  destination := "_astrcontinuum_v2_journal_events"
  columns := ["session_key_hash", "sequence", "event_type", "role", "source_hook", "idempotency_key",
    "created_at"]
  columns_ok := by decide
  destination_ok := by decide

/-- `_copy_format_two_capsules`. -/
def formatTwoCapsules : Copy where
  table := "capsules"
  primaryKey := "capsule_id"
  cells := [canonicalCapsuleCell, tokenCostCell]
  missing := .security .storageMigrationFailed
  mismatch := .storageMigrationFailed
  key_ok := by decide
  destination := "_astrcontinuum_v2_capsules"
  columns := ["session_key_hash", "level", "covered_event_start", "covered_event_end", "source_coverage",
    "created_at"]
  columns_ok := by decide
  destination_ok := by decide

/-- `_copy_format_two_snapshots`. -/
def formatTwoSnapshots : Copy where
  table := "snapshots"
  primaryKey := "snapshot_id"
  cells := [exactAnchorsCell, renderedContextCell, tokenCostCell, auditOutcomeCell]
  missing := .security .storageMigrationFailed
  mismatch := .storageMigrationFailed
  key_ok := by decide
  destination := "_astrcontinuum_v2_snapshots"
  columns := ["session_key_hash", "base_snapshot_id", "covered_event_end", "source_high_water_mark",
    "lifecycle_state", "created_at", "committed_at"]
  columns_ok := by decide
  destination_ok := by decide

/-! ## A change of keys -/

/-- The sessions of `_rekey_storage`. -/
def rekeyedSessions : Conversion :=
  { formatTwoSessions with missing := .value, mismatch := .storageRekeyFailed }

/-- Its events. -/
def rekeyedJournalEvents : Conversion :=
  { formatTwoJournalEvents.toConversion with missing := .value, mismatch := .storageRekeyFailed }

/-- Its capsules. -/
def rekeyedCapsules : Conversion :=
  { formatTwoCapsules.toConversion with missing := .value, mismatch := .storageRekeyFailed }

/-- Its snapshots. -/
def rekeyedSnapshots : Conversion :=
  { formatTwoSnapshots.toConversion with missing := .value, mismatch := .storageRekeyFailed }

/-- `ArtifactKind(text)`. -/
def artifactKindOf (text : String) : Option ArtifactKind :=
  [.event, .capsule, .snapshot].find? fun kind => artifactKindValue kind = text

/-- The identity of a metric. -/
def metricIdentity (row : Row) : SqlValue × SqlValue × SqlValue :=
  (row "artifact_kind", row "artifact_id", row "tokenizer_profile_id")

/-- The record key and the envelope of a metric. -/
structure MetricEnvelope where
  recordKey : String
  envelope : String

/-- A metric whose columns are texts, of a kind of artifact. -/
def metricEnvelope (row : Row) : Except Failure MetricEnvelope :=
  match metricIdentity row, row "metric_envelope" with
  | (.text kind, .text artifactId, .text profileId), .text envelope => do
      require (stripNonEmpty artifactId = true ∧ stripNonEmpty profileId = true)
        (.security .storageRekeyFailed)
      let kind ← orMissing (artifactKindOf kind) (.security .storageRekeyFailed)
      let recordKey ← (metricRecordKey kind artifactId profileId).mapError
        fun _ => .security .storageRekeyFailed
      pure ⟨recordKey, envelope⟩
  | _, _ => .error (.security .storageRekeyFailed)

section Transformations

variable [Primitives] [SqlEngine] (settings : Settings)

/-- The body of the loop of `_rekey_storage` over the metrics. -/
def rekeyTokenMetric (previous active : Crypto.SecureCodec) (store : Store) (row : Row) : Except Failure Store := do
  let metric ← metricEnvelope row
  let recordKey := metric.recordKey
  let plaintext ← (previous.decryptText "token_metrics" "metric_envelope" recordKey metric.envelope).mapError
    codecFailure
  let encrypted ← (active.encryptText (SqlEngine.nonce settings "token_metrics" "metric_envelope" recordKey)
    "token_metrics" "metric_envelope" recordKey plaintext).mapError codecFailure
  let same (other : Row) : Bool := metricIdentity other = metricIdentity row
  let store ← updateWhere "token_metrics" same
    (fun other => Function.update other "metric_envelope" (.text encrypted)) store
  let stored ← selectOne "token_metrics" same (.security .storageRekeyFailed) store
  let rekeyed ← (active.decryptText "token_metrics" "metric_envelope" recordKey
    (stored "metric_envelope").str).mapError codecFailure
  require (rekeyed = plaintext) (.security .storageMigrationFailed)
  pure store

/-- `_transform_legacy`, up to the key. -/
def transformLegacyRecords (codec : Crypto.SecureCodec) (store : Store) : Except Failure Store := do
  let counts ← countRows countedTables store
  let store ← createTable legacySessions.destination "_SECURE_SESSIONS_SQL" store
  let store ← createTable legacySnapshots.destination "_SECURE_SNAPSHOTS_SQL" store
  injectStage settings "security.after_secure_schema"
  let store ← copyTable settings legacySessions .none codec store
  let store ← dropUpdateTrigger "journal_events_immutable_update" store
  let store ← dropUpdateTrigger "capsules_immutable_update" store
  let store ← rewriteTable settings legacyJournalEvents .none codec store
  let store ← rewriteTable settings legacyCapsules .none codec store
  let store ← copyTable settings legacySnapshots .none codec store
  injectStage settings "security.after_encrypt"
  let store ← dropTable "snapshots" store
  let store ← dropTable "sessions" store
  let store ← renameTable legacySessions.destination "sessions" store
  let store ← renameTable legacySnapshots.destination "snapshots" store
  let store ← createUpdateTrigger "journal_events_immutable_update" "journal_events" store
  let store ← createUpdateTrigger "capsules_immutable_update" "capsules" store
  let store ← createUpdateTrigger "snapshots_immutable_update" "snapshots" store
  let store ← forEach (fun store statement => executeOther statement store) store
    ["snapshots_immutable_delete", "journal_events_secure_insert", "capsules_secure_insert"]
  verifyCounts .storageMigrationFailed counts store
  checkForeignKeys .storageMigrationFailed store
  pure store

/-- `_apply_secure_format_two`, as far as the records are concerned and up to the check of foreign keys. -/
def copyFormatTwo (source target : Crypto.SecureCodec) (store : Store) : Except Failure Store := do
  let counts ← countRows countedTables store
  let store ← createTable formatTwoJournalEvents.destination "create_journal_events" store
  let store ← createTable formatTwoCapsules.destination "create_capsules" store
  let store ← createTable formatTwoSnapshots.destination "create_snapshots" store
  let store ← rewriteTable settings formatTwoSessions (.formatOne source) target store
  let store ← copyTable settings formatTwoJournalEvents (.formatOne source) target store
  injectStage settings "security_v2.after_journal_copy"
  let store ← copyTable settings formatTwoCapsules (.formatOne source) target store
  injectStage settings "security_v2.after_capsule_copy"
  let store ← copyTable settings formatTwoSnapshots (.formatOne source) target store
  injectStage settings "security_v2.after_snapshot_copy"
  let store ← dropTable "journal_events" store
  let store ← dropTable "capsules" store
  let store ← dropTable "snapshots" store
  let store ← renameTable formatTwoJournalEvents.destination "journal_events" store
  let store ← renameTable formatTwoCapsules.destination "capsules" store
  let store ← renameTable formatTwoSnapshots.destination "snapshots" store
  let store ← createUpdateTrigger "journal_events_immutable_update" "journal_events" store
  let store ← createUpdateTrigger "capsules_immutable_update" "capsules" store
  let store ← createUpdateTrigger "snapshots_immutable_update" "snapshots" store
  let store ← forEach (fun store statement => executeOther statement store) store
    ["index_journal_events", "index_capsules", "journal_events_immutable_delete",
      "capsules_immutable_delete", "snapshots_immutable_delete", "journal_events_secure_insert",
      "capsules_secure_insert"]
  let store ← createTable "token_metrics" "token_metrics" store
  let store ← createTable "token_metric_backfill_intents" "token_metric_backfill_intents" store
  let store ← executeOther "idx_token_metric_backfill_session" store
  verifyCounts .storageMigrationFailed counts store
  pure store

omit [Primitives] in
/-- The check of foreign keys of `_apply_secure_format_two`. -/
def verifyFormatTwo (store : Store) : Except Failure Store := do
  checkForeignKeys .storageMigrationFailed store
  pure store

/-- `_rekey_storage`, as far as the records are concerned. -/
def rekeyRecords (previous active : Crypto.SecureCodec) (store : Store) : Except Failure Store := do
  let counts ← countRows (countedTables ++ ["token_metrics", "token_metric_backfill_intents"]) store
  let store ← dropUpdateTrigger "journal_events_immutable_update" store
  let store ← dropUpdateTrigger "capsules_immutable_update" store
  let store ← dropUpdateTrigger "snapshots_immutable_update" store
  let store ← rewriteTable settings rekeyedSessions (.formatTwo previous) active store
  let store ← rewriteTable settings rekeyedJournalEvents (.formatTwo previous) active store
  let store ← rewriteTable settings rekeyedCapsules (.formatTwo previous) active store
  let store ← rewriteTable settings rekeyedSnapshots (.formatTwo previous) active store
  let store ← returned (batchedTokenMetrics (rekeyTokenMetric settings previous active) store)
  let store ← createUpdateTrigger "journal_events_immutable_update" "journal_events" store
  let store ← createUpdateTrigger "capsules_immutable_update" "capsules" store
  let store ← createUpdateTrigger "snapshots_immutable_update" "snapshots" store
  verifyCounts .storageRekeyFailed counts store
  checkForeignKeys .storageRekeyFailed store
  pure store

/-- The records of an activation. -/
instance : RecordStore Store where
  validateLegacyRows := SqlEngine.validateLegacyRows
  transformLegacy := transformLegacyRecords
  copyFormatTwo := copyFormatTwo
  verifyFormatTwo := verifyFormatTwo
  rekey := rekeyRecords

end Transformations

end Records

end AstrContinuum
