import AstrContinuum.Storage.Migrations

/-!
# Storage security

`activate_storage_security` migrates the packaged plan, encrypts what is stored in clear text, brings an
encrypted store to its second format, which the plan keeps as a migration that needs a codec, and changes
keys. What these steps do with the protected records is a parameter (`RecordStore`); here are the
connections and transactions around them, `storage_security`, and what is written into the ledger.
-/

namespace AstrContinuum

namespace Migrations

open Checked Connections Crypto

/-! ## The packaged plan -/

/-- The texts of the packaged migrations. -/
class PackagedSql where
  initialSchemaSql : String
  secureFormatV2ContractSql : String
  snapshotReorganizationLedgerV3Sql : String
  initialSchemaSql_ok : stripNonEmpty initialSchemaSql = true
  secureFormatV2ContractSql_ok : stripNonEmpty secureFormatV2ContractSql = true
  snapshotReorganizationLedgerV3Sql_ok : stripNonEmpty snapshotReorganizationLedgerV3Sql = true

section Packaged

variable [PackagedSql]

/-- `MIGRATIONS[0]`. -/
def initialSchema : Migration where
  version := 1
  name := "initial_schema"
  sql := PackagedSql.initialSchemaSql
  requiresCodec := false
  version_ok := Nat.le_refl 1
  name_ok := by decide
  sql_ok := PackagedSql.initialSchemaSql_ok

/-- `MIGRATIONS[1]`. -/
def encryptedTokenMetrics : Migration where
  version := 2
  name := "encrypted_token_metrics"
  sql := PackagedSql.secureFormatV2ContractSql
  requiresCodec := true
  version_ok := by decide
  name_ok := by decide
  sql_ok := PackagedSql.secureFormatV2ContractSql_ok

/-- `MIGRATIONS[2]`. -/
def snapshotReorganizationLedger : Migration where
  version := 3
  name := "snapshot_reorganization_ledger"
  sql := PackagedSql.snapshotReorganizationLedgerV3Sql
  requiresCodec := false
  version_ok := by decide
  name_ok := by decide
  sql_ok := PackagedSql.snapshotReorganizationLedgerV3Sql_ok

/-- `MIGRATIONS`. -/
def packagedPlan : Plan where
  migrations := [initialSchema, encryptedTokenMetrics, snapshotReorganizationLedger]
  versions_ok := rfl
  names_ok := by
    show ["initial_schema", "encrypted_token_metrics", "snapshot_reorganization_ledger"].Nodup
    decide

end Packaged

/-! ## Metadata -/

/-- A row of `storage_security`. -/
structure SecurityRow where
  singletonId : Int
  formatVersion : Int
  activeKeyId : String
  state : String
  keyVerifier : String
  createdAt : String
  updatedAt : String

/-- What a database holds beside its ledger: `storage_security`, where it exists, and the records. -/
structure Secured (Rest : Type) where
  security : Option (List SecurityRow)
  records : Rest

/-- `_SECURITY_SINGLETON_ID`. -/
def securitySingletonId : Int := 1

/-- `STORAGE_FORMAT_VERSION`. -/
def storageFormatVersion : Nat := 2

/-- `_LEGACY_STORAGE_FORMAT_VERSION`. -/
def legacyStorageFormatVersion : Int := 1

/-- `_VERIFIER_PLAINTEXT`. -/
def verifierPlaintext : String := "astrcontinuum-storage-verifier:v1"

/-- `StorageMaintenanceState`. -/
inductive StorageMaintenanceState
  | needsMigration
  | needsRekey
  | needsScrub
  | active
deriving DecidableEq

/-- `StorageMaintenanceState.value`. -/
def StorageMaintenanceState.value : StorageMaintenanceState → String
  | .needsMigration => "NEEDS_MIGRATION"
  | .needsRekey => "NEEDS_REKEY"
  | .needsScrub => "NEEDS_SCRUB"
  | .active => "ACTIVE"

/-- `StorageMaintenanceState(text)`. -/
def maintenanceState (text : String) : Option StorageMaintenanceState :=
  [.needsMigration, .needsRekey, .needsScrub, .active].find? fun state =>
    StorageMaintenanceState.value state = text

/-- `KeyMaterial`. -/
structure KeyMaterial where
  rawKey : Bytes
  keyId : String
  rawKey_ok : rawKey.length = keyBytes

/-- `ResolvedKeyMaterial`, without where the keys come from. -/
structure ResolvedKeyMaterial where
  active : KeyMaterial
  previous : Option KeyMaterial

/-- `SecureCodec(raw_key)`, with the limits that are set by default. -/
def KeyMaterial.codec (material : KeyMaterial) : Crypto.SecureCodec where
  key := material.rawKey
  maxPlaintextBytes := 8 * 1024 * 1024
  maxEnvelopeChars := 12 * 1024 * 1024
  key_ok := material.rawKey_ok
  envelopeChars_ok := Crypto.envelopeChars_ok

/-- What the environment gives to an activation: the stages at which a fault is injected, the time and the
nonce of the verifier. -/
structure Settings where
  injected : String → Bool
  utcNow : String
  nonce : Nonce

/-- `StorageSecurityActivation`, without the codec of its key. -/
structure StorageSecurityActivation where
  keyId : String
  state : StorageMaintenanceState
  migrated : Bool
  rekeyed : Bool
  scrubbed : Bool
deriving DecidableEq

/-- What the activation does with the protected records: `_validate_legacy_rows`, `_transform_legacy`, the
rewriting and the checks of `_apply_secure_format_two`, and `_rekey_storage`. -/
class RecordStore (Rest : Type) where
  validateLegacyRows : Rest → Except Failure Unit
  transformLegacy : Settings → Crypto.SecureCodec → Rest → Except Failure Rest
  copyFormatTwo : Settings → Crypto.SecureCodec → Crypto.SecureCodec → Rest → Except Failure Rest
  verifyFormatTwo : Rest → Except Failure Rest
  rekey : Settings → Crypto.SecureCodec → Crypto.SecureCodec → Rest → Except Failure Rest

variable {Rest : Type}

/-- `_inject`. -/
def injectStage (settings : Settings) (stage : String) : Except Failure Unit :=
  require (settings.injected stage = false) .injected

/-- What the codec raises. -/
def codecFailure : CodecFailure → Failure
  | .storageSecurityError code => .security code
  | .valueError _ => .value
  | .integerDigits => .value

/-- Any error becomes a `StorageSecurityError` with the code. -/
def failWith {α : Type} (code : SecurityErrorCode) (x : Process Failure (Database (Secured Rest)) α) :
    Process Failure (Database (Secured Rest)) α := fun host =>
  match x host with
  | .ok a host' => .ok a host'
  | .error _ host' => .error (.failure (.security code)) host'

/-- `_raise`. -/
def raise {α : Type} (code : SecurityErrorCode) : Process Failure (Database (Secured Rest)) α :=
  fun host => .error (.failure (.security code)) host

/-- A computation without connections. -/
def compute {α : Type} (x : Except Failure α) : Process Failure (Database (Secured Rest)) α :=
  Effects.perform (x.mapError Raised.failure)

/-- `SELECT ... FROM storage_security ORDER BY singleton_id`. -/
def securityRows (db : Database (Secured Rest)) : Except Failure (List SecurityRow) :=
  match db.rest.security with
  | some rows => .ok rows
  | none => .error .sqlite

/-- `SELECT ... FROM storage_security WHERE singleton_id = 1`, or an error where there is no row. -/
def securityRow (code : SecurityErrorCode) (db : Database (Secured Rest)) :
    Except Failure SecurityRow := do
  let rows ← securityRows db
  orMissing (rows.find? fun row => row.singletonId = securitySingletonId) (.security code)

/-- A change of the records. -/
def writeRecords (change : Rest → Except Failure Rest) (db : Database (Secured Rest)) :
    Except Failure (Database (Secured Rest)) := do
  let records ← change db.rest.records
  pure { db with rest := { db.rest with records } }

/-- `storage_security` with other rows. -/
def writeSecurity (rows : List SecurityRow) (db : Database (Secured Rest)) :
    Except Failure (Database (Secured Rest)) :=
  .ok { db with rest := { db.rest with security := some rows } }

/-! ## Verifiers -/

section Verifiers

variable [Primitives]

/-- The verifier of a key. -/
def encryptVerifier (settings : Settings) (codec : Crypto.SecureCodec) : Except Failure String :=
  (codec.encryptText settings.nonce "storage_security" "key_verifier" "1" verifierPlaintext).mapError
    codecFailure

/-- `_authenticate_verifier`. `hmac.compare_digest` refuses texts that are not ASCII. -/
def authenticateVerifier (codec : Crypto.SecureCodec) (verifier : String) : Except Failure Unit := do
  let plaintext ← (codec.decryptText "storage_security" "key_verifier" "1" verifier).mapError
    codecFailure
  require (∀ c ∈ plaintext.toList, c.toNat < 0x80) .value
  require (plaintext = verifierPlaintext) (.security .storageAuthenticationFailed)

/-! ## The steps of an activation -/

variable [Hashlib] [PackagedSql] [RecordStore Rest]
variable (world : Nat → Circumstances Failure) (settings : Settings)

omit [Primitives] [Hashlib] [PackagedSql] [RecordStore Rest] in
/-- `_security_table_exists`. -/
def securityTableExists : Process Failure (Database (Secured Rest)) Bool :=
  failWith .storageMigrationFailed <| connect world fun outages =>
    connection outages (read outages fun db => .ok db.rest.security.isSome)

/-- `_read_security_metadata`. -/
def readSecurityMetadata :
    Process Failure (Database (Secured Rest)) (Int × String × StorageMaintenanceState × String) :=
  failWith .storageMigrationFailed do
    let rows ← connect world fun outages => connection outages (read outages securityRows)
    match rows with
    | [row] =>
        match maintenanceState row.state with
        | some state =>
            if row.formatVersion = legacyStorageFormatVersion ∨
                row.formatVersion = storageFormatVersion then
              pure (row.formatVersion, row.activeKeyId, state, row.keyVerifier)
            else raise .storageMigrationFailed
        | none => raise .storageMigrationFailed
    | _ => raise .storageMigrationFailed

/-- The update of `_scrub_storage`. -/
def finishScrub (db : Database (Secured Rest)) : Except Failure (Database (Secured Rest)) := do
  let rows ← securityRows db
  let needsScrub (row : SecurityRow) : Bool :=
    row.singletonId = securitySingletonId ∧ row.state = StorageMaintenanceState.needsScrub.value
  require ((rows.filter needsScrub).length = 1) (.security .storageScrubFailed)
  writeSecurity (rows.map fun row =>
    if needsScrub row then
      { row with state := StorageMaintenanceState.active.value, updatedAt := settings.utcNow }
    else row) db

/-- `_scrub_storage`. -/
def scrubStorage : Process Failure (Database (Secured Rest)) Unit :=
  failWith .storageScrubFailed do
    connect world fun outages => connection outages do
      -- the checkpoint, and `secure_delete`
      pragma outages
      pragma outages
      lift (injectStage settings "security.before_vacuum")
      pragma outages
      lift (injectStage settings "security.after_vacuum")
      pragma outages
    connect world fun outages => transaction outages (write outages (finishScrub settings))

/-- The row that `_transform_legacy` and `_apply_secure_format_two` leave in `storage_security`. -/
def securityRowOf (formatVersion : Int) (codec : Crypto.SecureCodec) (verifier createdAt : String) :
    SecurityRow where
  singletonId := securitySingletonId
  formatVersion := formatVersion
  activeKeyId := codec.keyId
  state := StorageMaintenanceState.needsScrub.value
  keyVerifier := verifier
  createdAt := createdAt
  updatedAt := settings.utcNow

/-- `_transform_legacy` after `_validate_legacy_rows`. -/
def transformLegacy (outages : Outages) (codec : Crypto.SecureCodec) :
    Session Failure (Database (Secured Rest)) Unit := do
  read outages fun db => RecordStore.validateLegacyRows db.rest.records
  lift (injectStage settings "security.after_preflight")
  write outages (writeRecords (RecordStore.transformLegacy settings codec))
  let verifier ← lift (encryptVerifier settings codec)
  write outages (writeSecurity
    [securityRowOf settings legacyStorageFormatVersion codec verifier settings.utcNow])
  lift (authenticateVerifier codec verifier)
  lift (injectStage settings "security.after_verify")

/-- `_apply_secure_format_two`. -/
def applySecureFormatTwo (outages : Outages) (source target : Crypto.SecureCodec) :
    Session Failure (Database (Secured Rest)) Unit := do
  let metadata ← read outages (securityRow .storageMigrationFailed)
  lift (require (metadata.formatVersion = legacyStorageFormatVersion ∧
    metadata.activeKeyId = source.keyId ∧ metadata.state = StorageMaintenanceState.active.value)
    (.security .storageMigrationFailed))
  lift (authenticateVerifier source metadata.keyVerifier)
  write outages (writeRecords (RecordStore.copyFormatTwo settings source target))
  let verifier ← lift (encryptVerifier settings target)
  write outages (writeSecurity
    [securityRowOf settings storageFormatVersion target verifier metadata.createdAt])
  write outages (writeRecords RecordStore.verifyFormatTwo)
  lift (authenticateVerifier target verifier)
  lift (injectStage settings "security_v2.after_verify")
  write outages (insertRow (encryptedTokenMetrics.row settings.utcNow))
  write outages fun db => .ok (setUserVersion storageFormatVersion db)

/-- `_upgrade_secure_format_one`. -/
def upgradeSecureFormatOne (source target : Crypto.SecureCodec) (rekeyed : Bool) :
    Process Failure (Database (Secured Rest)) StorageSecurityActivation := do
  failWith .storageMigrationFailed (connect world fun outages =>
    startupExclusive outages false (applySecureFormatTwo settings outages source target))
  failWith .storageScrubFailed (compute (injectStage settings "security_v2.after_commit"))
  scrubStorage world settings
  let (formatVersion, keyId, state, verifier) ← readSecurityMetadata world
  if formatVersion ≠ storageFormatVersion ∨ keyId ≠ target.keyId ∨ state ≠ .active then
    raise .storageMigrationFailed
  else
    compute (authenticateVerifier target verifier)
    pure ⟨target.keyId, state, true, rekeyed, true⟩

/-- The transaction of `_rotate_storage`. -/
def rotateBody (outages : Outages) (durableKeyId : String) (previous active : Crypto.SecureCodec) :
    Session Failure (Database (Secured Rest)) Unit := do
  let durable ← read outages (securityRow .storageRekeyFailed)
  lift (require (durable.activeKeyId = durableKeyId ∧
    durable.state = StorageMaintenanceState.active.value) (.security .storageRekeyFailed))
  lift (authenticateVerifier previous durable.keyVerifier)
  write outages (writeRecords (RecordStore.rekey settings previous active))
  lift (injectStage settings "security.after_rekey_encrypt")
  let verifier ← lift (encryptVerifier settings active)
  let rows ← read outages securityRows
  let rotates (row : SecurityRow) : Bool :=
    row.singletonId = securitySingletonId ∧ row.activeKeyId = previous.keyId ∧
      row.state = StorageMaintenanceState.active.value
  lift (require ((rows.filter rotates).length = 1) (.security .storageRekeyFailed))
  write outages (writeSecurity (rows.map fun row =>
    if rotates row then
      { row with
        activeKeyId := active.keyId
        state := StorageMaintenanceState.needsScrub.value
        keyVerifier := verifier
        updatedAt := settings.utcNow }
    else row))
  lift (authenticateVerifier active verifier)
  lift (injectStage settings "security.after_rekey_verify")

/-- `_rotate_storage`. A missing previous key keeps its own code inside the transaction too. -/
def rotateStorage (keys : ResolvedKeyMaterial) (durableKeyId verifier : String) :
    Process Failure (Database (Secured Rest)) StorageSecurityActivation :=
  match keys.previous with
  | none => raise .storagePreviousKeyRequired
  | some material =>
      if material.keyId ≠ durableKeyId then raise .storagePreviousKeyRequired
      else do
        failWith .storagePreviousKeyRequired (compute (authenticateVerifier material.codec verifier))
        failWith .storageRekeyFailed (connect world fun outages =>
          startupExclusive outages true
            (rotateBody settings outages durableKeyId material.codec keys.active.codec))
        failWith .storageScrubFailed (compute (injectStage settings "security.after_rekey_commit"))
        scrubStorage world settings
        let (_, finalKeyId, finalState, finalVerifier) ← readSecurityMetadata world
        if finalKeyId ≠ keys.active.codec.keyId ∨ finalState ≠ .active then
          raise .storageRekeyFailed
        else
          compute (authenticateVerifier keys.active.codec finalVerifier)
          pure ⟨keys.active.codec.keyId, finalState, false, true, true⟩

/-- The codec that the durable key asks for: the active one, or the previous one of a change of keys. -/
def sourceCodec (keys : ResolvedKeyMaterial) (durableKeyId verifier : String) :
    Process Failure (Database (Secured Rest)) Crypto.SecureCodec :=
  if durableKeyId = keys.active.codec.keyId then do
    compute (authenticateVerifier keys.active.codec verifier)
    pure keys.active.codec
  else
    match keys.previous with
    | none => raise .storagePreviousKeyRequired
    | some material =>
        if material.keyId ≠ durableKeyId then raise .storagePreviousKeyRequired
        else do
          failWith .storagePreviousKeyRequired (compute (authenticateVerifier material.codec verifier))
          pure material.codec

/-- The scrub that an earlier activation has left; says whether there was one. -/
def pendingScrub (state : StorageMaintenanceState) : Process Failure (Database (Secured Rest)) Bool :=
  if state = .needsScrub then do
    scrubStorage world settings
    pure true
  else if state = .active then pure false
  else raise .storageMigrationFailed

/-- `_activate_existing`. -/
def activateExisting (keys : ResolvedKeyMaterial) :
    Process Failure (Database (Secured Rest)) StorageSecurityActivation := do
  let (formatVersion, durableKeyId, state, verifier) ← readSecurityMetadata world
  let target := keys.active.codec
  let source ← sourceCodec keys durableKeyId verifier
  let scrubbed ← pendingScrub world settings state
  let (currentFormat, currentKeyId, currentState, currentVerifier) ← readSecurityMetadata world
  if currentFormat ≠ formatVersion ∨ currentKeyId ≠ durableKeyId ∨ currentState ≠ .active then
    raise .storageMigrationFailed
  else
    compute (authenticateVerifier source currentVerifier)
    if formatVersion = legacyStorageFormatVersion then
      upgradeSecureFormatOne world settings source target (decide (durableKeyId ≠ target.keyId))
    else if durableKeyId ≠ target.keyId then
      rotateStorage world settings keys durableKeyId currentVerifier
    else pure ⟨target.keyId, currentState, false, false, scrubbed⟩

/-- The keys are consistent: their ids are those of their bytes, and a previous key is another one. -/
def ResolvedKeyMaterial.Consistent (keys : ResolvedKeyMaterial) : Prop :=
  keys.active.keyId = keys.active.codec.keyId ∧
    ∀ previous ∈ keys.previous, previous.keyId = previous.codec.keyId ∧
      previous.rawKey ≠ keys.active.rawKey

instance (keys : ResolvedKeyMaterial) : Decidable keys.Consistent :=
  inferInstanceAs (Decidable (_ ∧ _))

variable [Engine (Secured Rest)]

/-- What the first encryption of a store raises. -/
def legacyError : Raised Failure → Raised Failure
  | .failure (.security code) => .failure (.security code)
  | .failure .value => .failure (.security .storageLegacyValidationFailed)
  | _ => .failure (.security .storageMigrationFailed)

/-- `activate_storage_security`. -/
def activateStorageSecurity (keys : ResolvedKeyMaterial) :
    Process Failure (Database (Secured Rest)) StorageSecurityActivation :=
  if keys.Consistent then do
    let _ ← failWith .storageMigrationFailed
      (migrate world packagedPlan (fun _ => settings.utcNow) false)
    let existing ← securityTableExists world
    if existing then activateExisting world settings keys
    else do
      Effects.attempt (connect world fun outages => startupExclusive outages false
          (transformLegacy settings outages keys.active.codec))
        fun raised host => .error (legacyError raised) host
      failWith .storageScrubFailed (compute (injectStage settings "security.after_transform_commit"))
      scrubStorage world settings
      activateExisting world settings keys
  else raise .storageKeyInvalid

end Verifiers

end Migrations

end AstrContinuum
