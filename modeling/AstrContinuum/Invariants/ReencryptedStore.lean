import AstrContinuum.Invariants.Reencryption
import AstrContinuum.Invariants.SchemaLedger

/-!
# The transactions that re-encrypt a store

What the three transactions of an activation leave in the database around the records: `storage_security` names
the key of the target and holds a verifier of it, and the move to the second format is recorded in the ledger.
-/

namespace AstrContinuum

namespace Records

open Checked Migrations Connections Crypto

section Transactions

variable [Primitives]

/-- A verifier of the key of a codec. -/
def Authentic (codec : Crypto.SecureCodec) (verifier : String) : Prop :=
  codec.decryptText "storage_security" "key_verifier" "1" verifier = .ok verifierPlaintext

/-- What is authenticated is authentic. -/
theorem authenticateVerifier_ok {codec : Crypto.SecureCodec} {verifier : String} {result : Unit}
    (h : authenticateVerifier codec verifier = .ok result) : Authentic codec verifier := by
  obtain ⟨plaintext, hdecrypt, h⟩ := bind_ok.mp h
  obtain ⟨_, -, h⟩ := bind_ok.mp h
  obtain rfl := require_ok.mp h
  exact mapError_ok.mp hdecrypt

/-- The first encryption: `storage_security` is new. -/
structure LegacyTransacted (settings : Settings) (codec : Crypto.SecureCodec)
    (db db' : Migrations.Database (Secured Store)) : Prop where
  records : LegacyEncrypted codec db.rest.records db'.rest.records
  frame : ∃ verifier, Authentic codec verifier ∧ db' = { db with rest :=
    ⟨some [securityRowOf settings legacyStorageFormatVersion codec verifier settings.utcNow],
      db'.rest.records⟩ }

/-- A change of keys: `storage_security` names the active key. -/
structure RekeyTransacted (previous active : Crypto.SecureCodec)
    (db db' : Migrations.Database (Secured Store)) : Prop where
  records : Rekeyed previous active db.rest.records db'.rest.records
  frame : ∃ rows rows', db.rest.security = some rows ∧ db' = { db with rest := ⟨some rows', db'.rest.records⟩ } ∧
    List.Forall₂ (fun row row' => row' = row ∨ row.singletonId = securitySingletonId ∧
      row'.singletonId = securitySingletonId ∧ row'.formatVersion = row.formatVersion ∧
      row'.activeKeyId = active.keyId ∧ row'.state = StorageMaintenanceState.needsScrub.value ∧
      Authentic active row'.keyVerifier) rows rows' ∧
    ∃ row ∈ rows', row.singletonId = securitySingletonId ∧ row.activeKeyId = active.keyId ∧
      row.state = StorageMaintenanceState.needsScrub.value ∧ Authentic active row.keyVerifier

variable [Hashlib] [PackagedSql]

/-- The move to the second format: `storage_security` and the ledger record it. -/
structure FormatTwoTransacted (settings : Settings) (source target : Crypto.SecureCodec)
    (db db' : Migrations.Database (Secured Store)) : Prop where
  records : FormatTwoCopied source target db.rest.records db'.rest.records
  frame : ∃ verifier createdAt ledger, Authentic target verifier ∧ db.ledger = some ledger ∧
    ledger.Accepts (encryptedTokenMetrics.row settings.utcNow) ∧ db' = { db with
      ledger := some (ledger.insert (encryptedTokenMetrics.row settings.utcNow))
      userVersion := storageFormatVersion
      rest := ⟨some [securityRowOf settings storageFormatVersion target verifier createdAt],
        db'.rest.records⟩ }

omit [Primitives] [Hashlib] [PackagedSql] in
/-- A change of the records changes nothing else. -/
theorem writeRecords_ok {Rest : Type} {change : Rest → Except Failure Rest}
    {db db' : Migrations.Database (Secured Rest)} (h : writeRecords change db = .ok db') :
    ∃ records, change db.rest.records = .ok records ∧ db' = { db with rest := { db.rest with records } } := by
  obtain ⟨records, hchange, h⟩ := bind_ok.mp h
  exact ⟨records, hchange, (pure_ok.mp h).symm⟩

omit [Primitives] [Hashlib] [PackagedSql] in
/-- The rows of `storage_security`, where there are any. -/
theorem securityRows_ok {Rest : Type} {db : Migrations.Database (Secured Rest)} {rows : List SecurityRow}
    (h : securityRows db = .ok rows) : db.rest.security = some rows := by
  unfold securityRows at h
  split at h
  · rename_i found hfound
    rw [hfound, Except.ok.inj h]
  · cases h

variable [SqlEngine] (settings : Settings) (outages : Outages)

omit [Hashlib] [PackagedSql] in
/-- The transaction of the first encryption. -/
theorem transformLegacy_inside (codec : Crypto.SecureCodec) {db : Migrations.Database (Secured Store)}
    (hkeyed : db.rest.records.Keyed) :
    Inside (fun _ db' => LegacyTransacted settings codec db db') (transformLegacy settings outages codec) db := by
  unfold transformLegacy
  refine (Inside.read_ok _).bind fun _ _ hread => ?_
  obtain ⟨rfl, -⟩ := hread
  refine (Inside.lift_ok _).bind fun _ _ hinject => ?_
  obtain ⟨rfl, -⟩ := hinject
  refine (Inside.write_ok _).bind fun _ next hwrite => ?_
  obtain ⟨records, htransform, rfl⟩ := writeRecords_ok hwrite
  refine (Inside.lift_ok _).bind fun verifier _ hverifier => ?_
  obtain ⟨rfl, -⟩ := hverifier
  refine (Inside.write_ok _).bind fun _ next hwrite => ?_
  obtain rfl := Except.ok.inj hwrite
  refine (Inside.lift_ok _).bind fun _ _ hauthentic => ?_
  obtain ⟨rfl, hauthentic⟩ := hauthentic
  refine (Inside.lift_ok _).mono fun _ _ hinject => ?_
  obtain ⟨rfl, -⟩ := hinject
  exact ⟨transformLegacyRecords_ok hkeyed htransform, verifier, authenticateVerifier_ok hauthentic, rfl⟩

/-- The transaction of the move to the second format. -/
theorem applySecureFormatTwo_inside (source target : Crypto.SecureCodec)
    {db : Migrations.Database (Secured Store)} (hkeyed : db.rest.records.Keyed) :
    Inside (fun _ db' => FormatTwoTransacted settings source target db db')
      (applySecureFormatTwo settings outages source target) db := by
  unfold applySecureFormatTwo
  refine (Inside.read_ok _).bind fun metadata _ hmetadata => ?_
  obtain ⟨rfl, -⟩ := hmetadata
  refine (Inside.lift_ok _).bind fun _ _ hrequire => ?_
  obtain ⟨rfl, -⟩ := hrequire
  refine (Inside.lift_ok _).bind fun _ _ hsource => ?_
  obtain ⟨rfl, -⟩ := hsource
  refine (Inside.write_ok _).bind fun _ next hwrite => ?_
  obtain ⟨records, hcopy, rfl⟩ := writeRecords_ok hwrite
  refine (Inside.lift_ok _).bind fun verifier _ hverifier => ?_
  obtain ⟨rfl, -⟩ := hverifier
  refine (Inside.write_ok _).bind fun _ next hwrite => ?_
  obtain rfl := Except.ok.inj hwrite
  refine (Inside.write_ok _).bind fun _ next hwrite => ?_
  obtain ⟨verified, hverify, rfl⟩ := writeRecords_ok hwrite
  obtain ⟨_, -, hverify⟩ := bind_ok.mp hverify
  obtain rfl := pure_ok.mp hverify
  refine (Inside.lift_ok _).bind fun _ _ hauthentic => ?_
  obtain ⟨rfl, hauthentic⟩ := hauthentic
  refine (Inside.lift_ok _).bind fun _ _ hinject => ?_
  obtain ⟨rfl, -⟩ := hinject
  refine (Inside.write_ok _).bind fun _ next hinsert => ?_
  obtain ⟨ledger, hledger, haccepts, rfl⟩ := insertRow_ok.mp hinsert
  refine (Inside.write_ok _).mono fun _ next hversion => ?_
  obtain rfl := Except.ok.inj hversion
  exact ⟨copyFormatTwo_ok hkeyed hcopy, verifier, metadata.createdAt, ledger, authenticateVerifier_ok hauthentic,
    hledger, haccepts, rfl⟩

omit [Hashlib] [PackagedSql] in
/-- The transaction of a change of keys. -/
theorem rotateBody_inside (durableKeyId : String) (previous active : Crypto.SecureCodec)
    {db : Migrations.Database (Secured Store)} (hkeyed : db.rest.records.Keyed) :
    Inside (fun _ db' => RekeyTransacted previous active db db')
      (rotateBody settings outages durableKeyId previous active) db := by
  unfold rotateBody
  refine (Inside.read_ok _).bind fun durable _ hdurable => ?_
  obtain ⟨rfl, -⟩ := hdurable
  refine (Inside.lift_ok _).bind fun _ _ hrequire => ?_
  obtain ⟨rfl, -⟩ := hrequire
  refine (Inside.lift_ok _).bind fun _ _ hprevious => ?_
  obtain ⟨rfl, -⟩ := hprevious
  refine (Inside.write_ok _).bind fun _ next hwrite => ?_
  obtain ⟨records, hrekey, rfl⟩ := writeRecords_ok hwrite
  refine (Inside.lift_ok _).bind fun _ _ hinject => ?_
  obtain ⟨rfl, -⟩ := hinject
  refine (Inside.lift_ok _).bind fun verifier _ hverifier => ?_
  obtain ⟨rfl, -⟩ := hverifier
  refine (Inside.read_ok _).bind fun rows _ hrows => ?_
  obtain ⟨rfl, hrows⟩ := hrows
  refine (Inside.lift_ok _).bind fun _ _ hone => ?_
  obtain ⟨rfl, hone⟩ := hone
  refine (Inside.write_ok _).bind fun _ next hwrite => ?_
  obtain rfl := Except.ok.inj hwrite
  refine (Inside.lift_ok _).bind fun _ _ hauthentic => ?_
  obtain ⟨rfl, hauthentic⟩ := hauthentic
  refine (Inside.lift_ok _).mono fun _ _ hinject => ?_
  obtain ⟨rfl, -⟩ := hinject
  have hverifier := authenticateVerifier_ok hauthentic
  refine ⟨rekeyRecords_ok hkeyed hrekey, rows, _, securityRows_ok hrows, rfl, ?_, ?_⟩
  · refine List.forall₂_map_right_iff.mpr (List.forall₂_same.mpr fun row _ => ?_)
    split_ifs with hrotates
    · have hrow := of_decide_eq_true hrotates
      exact .inr ⟨hrow.1, hrow.1, rfl, rfl, rfl, hverifier⟩
    · exact .inl rfl
  · have hfound := List.length_pos_iff_exists_mem.mp (Nat.lt_of_lt_of_eq Nat.zero_lt_one (require_ok.mp hone).symm)
    obtain ⟨row, hrow⟩ := hfound
    obtain ⟨hmem, hrotates⟩ := List.mem_filter.mp hrow
    refine ⟨_, List.mem_map_of_mem hmem, ?_⟩
    rw [if_pos hrotates]
    exact ⟨(of_decide_eq_true hrotates).1, rfl, rfl, hverifier⟩

end Transactions

end Records

end AstrContinuum
