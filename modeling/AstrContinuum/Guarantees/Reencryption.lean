import AstrContinuum.Guarantees.EnvelopeCodec
import AstrContinuum.Invariants.ReencryptedStore

/-!
# Re-encryption preserves meaning

The transactions in which an activation re-encrypts a store, on any connection and whatever outages it meets:
those that return leave the rows that were there, every protected cell decrypted under the target key as it
was before, and every other column as it was (`reencryption`). The loops inside them end and visit every row
once, though their bodies rewrite or copy the rows that are paged.
-/

namespace AstrContinuum

namespace Records

open Checked Relational Migrations Connections Crypto

section Reencryption

variable [Primitives] [SqlEngine] [Hashlib] [PackagedSql]

/-- What the re-encryption of a store guarantees. -/
structure Reencryption (settings : Settings) (outages : Outages) : Prop where
  /-- The first encryption. -/
  legacy : ∀ (codec : Crypto.SecureCodec) {db : Migrations.Database (Secured Store)},
    db.rest.records.Keyed →
      Inside (fun _ db' => LegacyTransacted settings codec db db' ∧ db'.rest.records.Keyed)
        (transformLegacy settings outages codec) db
  /-- The move to the second format. -/
  formatTwo : ∀ (source target : Crypto.SecureCodec) {db : Migrations.Database (Secured Store)},
    db.rest.records.Keyed →
      Inside (fun _ db' => FormatTwoTransacted settings source target db db' ∧ db'.rest.records.Keyed)
        (applySecureFormatTwo settings outages source target) db
  /-- A change of keys. -/
  rekey : ∀ (durableKeyId : String) (previous active : Crypto.SecureCodec)
    {db : Migrations.Database (Secured Store)}, db.rest.records.Keyed →
      Inside (fun _ db' => RekeyTransacted previous active db db' ∧ db'.rest.records.Keyed)
        (rotateBody settings outages durableKeyId previous active) db
  /-- A loop that rewrites a table ends, after one pass over its rows. -/
  rewrites : ∀ {conversion : Conversion} {before after : Encryption} {target : Crypto.SecureCodec},
    conversion.StoredAs after target → ∀ {store : Store} {table : Table},
      store.tables conversion.table = some table → KeyedRows conversion.primaryKey table.rows →
        batchedRows conversion.table conversion.primaryKey
            (rewriteRow settings conversion before target) store =
          some (forEach (rewriteRow settings conversion before target) store
            (orderBy (textKey conversion.primaryKey) table.rows))
  /-- So does one that copies it. -/
  copies : ∀ {copy : Copy} {before : Encryption} {target : Crypto.SecureCodec} {store : Store} {table : Table},
    store.tables copy.table = some table → KeyedRows copy.primaryKey table.rows →
      batchedRows copy.table copy.primaryKey (copyRow settings copy before target) store =
        some (forEach (copyRow settings copy before target) store
          (orderBy (textKey copy.primaryKey) table.rows))
  /-- And so does the one over the metrics. -/
  metrics : ∀ {previous active : Crypto.SecureCodec} {store : Store} {table : Table},
    store.tables "token_metrics" = some table → KeyedMetrics table.rows →
      batchedTokenMetrics (rekeyTokenMetric settings previous active) store =
        some (forEach (rekeyTokenMetric settings previous active) store (orderBy rowId table.rows))

/-- Re-encryption preserves what the cells say and reaches every row. -/
theorem reencryption (settings : Settings) (outages : Outages) : Reencryption settings outages where
  legacy codec _ hkeyed := (transformLegacy_inside settings outages codec hkeyed).mono fun _ _ h =>
    ⟨h, h.records.keyed hkeyed⟩
  formatTwo source target _ hkeyed :=
    (applySecureFormatTwo_inside settings outages source target hkeyed).mono fun _ _ h =>
      ⟨h, h.records.keyed hkeyed⟩
  rekey durableKeyId previous active _ hkeyed :=
    (rotateBody_inside settings outages durableKeyId previous active hkeyed).mono fun _ _ h =>
      ⟨h, h.records.keyed hkeyed⟩
  rewrites hstored _ _ htable hkeyed :=
    batchedRows_eq htable hkeyed (rewriteRow_rowWise _ settings hstored _)
  copies {copy before _ store _} htable hkeyed :=
    @batchedRows_eq copy.toConversion _ _ _ _ htable hkeyed (copyRow_rowWise before settings store)
  metrics htable hkeyed := batchedTokenMetrics_eq settings _ _ htable hkeyed

end Reencryption

namespace ReencryptionSample

scoped instance : Primitives := samplePrimitives

/-- SHA-256 of the one text of the migrations. -/
scoped instance : Hashlib := .sha256

/-- The texts of the migrations do not matter. -/
scoped instance : PackagedSql where
  initialSchemaSql := "SELECT 2;"
  secureFormatV2ContractSql := "SELECT 2;"
  snapshotReorganizationLedgerV3Sql := "SELECT 2;"
  initialSchemaSql_ok := by decide
  secureFormatV2ContractSql_ok := by decide
  snapshotReorganizationLedgerV3Sql_ok := by decide

/-- A nonce of zeros. -/
def nonce : Nonce := ⟨List.replicate nonceBytes 0, List.length_replicate⟩

/-- An engine that accepts every statement. -/
scoped instance : SqlEngine where
  accepts _ _ := true
  executes _ _ := true
  foreignKeysHold _ := true
  validateLegacyRows _ := .ok ()
  nonce _ _ _ _ := nonce

/-- An event with a content. -/
def event (eventId content : String) : Row := fun column =>
  if column = "event_id" then .text eventId
  else if column = "content" then .text content
  else .integer 1

/-- A capsule that costs some tokens. -/
def capsule (capsuleId : String) (tokenCost : Int) : Row := fun column =>
  if column = "capsule_id" then .text capsuleId
  else if column = "canonical_capsule_json" then .text "\x7b\x7d"
  else .integer tokenCost

/-- Two events, in the order in which they were inserted. -/
def events : List Row := [event "e2" "8", event "e1" "7"]

/-- Two capsules. -/
def capsules : List Row := [capsule "c1" 5, capsule "c2" 6]

/-- A store in clear text with these rows. -/
def store : Store where
  tables name :=
    if name = "journal_events" then some ⟨"journal_events", events⟩
    else if name = "capsules" then some ⟨"capsules", capsules⟩
    else if name ∈ countedTables then some ⟨name, []⟩
    else none
  updateTriggers := [("journal_events_immutable_update", "journal_events"),
    ("capsules_immutable_update", "capsules"), ("snapshots_immutable_update", "snapshots")]

/-- The database of the store, without a ledger. -/
def database : Migrations.Database (Secured Store) where
  ledger := none
  userVersion := 1
  rest := ⟨none, store⟩
  executed := []

/-- No fault is injected. -/
def settings : Settings := ⟨fun _ => false, "now", nonce⟩

/-- A connection with an open transaction. -/
def connection : Connection (Migrations.Database (Secured Store)) where
  durable := database
  transaction := some ⟨database, [], true⟩
  executed := 0

/-- The store is keyed. -/
theorem store_keyed : store.Keyed := by
  have hevents : KeyedRows "event_id" events :=
    ⟨List.forall_mem_cons.mpr ⟨rfl, List.forall_mem_singleton.mpr rfl⟩,
      List.forall_mem_cons.mpr ⟨by decide, List.forall_mem_singleton.mpr (by decide)⟩, by decide⟩
  have hcapsules : KeyedRows "capsule_id" capsules :=
    ⟨List.forall_mem_cons.mpr ⟨rfl, List.forall_mem_singleton.mpr rfl⟩,
      List.forall_mem_cons.mpr ⟨by decide, List.forall_mem_singleton.mpr (by decide)⟩, by decide⟩
  have hnone (primaryKey : String) : KeyedRows primaryKey [] :=
    ⟨fun _ hrow => absurd hrow List.not_mem_nil, fun _ hrow => absurd hrow List.not_mem_nil, List.nodup_nil⟩
  exact ⟨forall_primaryKeys (hnone _) hevents hcapsules (hnone _),
    fun _ hrow => absurd hrow List.not_mem_nil, List.nodup_nil, List.nodup_nil⟩

end ReencryptionSample

open ReencryptionSample in
/-- The rows are encrypted, and decrypted as they were. -/
theorem reencryption_event : ∃ after, transformLegacy settings (fun _ => none) sampleCodec connection =
      .ok () after ∧
    ∃ transaction, after.transaction = some transaction ∧
      LegacyTransacted settings sampleCodec database transaction.working := by
  have hreturns : (Effects.outcome (transformLegacy settings (fun _ => none) sampleCodec connection)).toOption.any
      (fun _ => true) = true := by
    decide +kernel
  obtain ⟨result, after, hrun, -⟩ := Effects.exists_ok_of_any hreturns
  have hguarantee := (reencryption settings fun _ => none).legacy sampleCodec
    (show database.rest.records.Keyed from store_keyed)
  obtain ⟨-, transaction, htransaction, hlegacy, -⟩ := hguarantee.of_ok
    (show connection.transaction = some ⟨database, [], true⟩ from rfl) rfl hrun
  exact ⟨after, hrun, transaction, htransaction, hlegacy⟩

end Records

end AstrContinuum
