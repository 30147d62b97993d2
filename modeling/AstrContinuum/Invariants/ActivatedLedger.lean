import AstrContinuum.Invariants.SchemaLedger
import AstrContinuum.Storage.Activation

/-!
# The ledger of an activated store

An activation migrates the packaged plan and then changes the store in transactions of its own, one of which
writes the second row of the ledger. `Sound` says that the ledger records the packaged plan from its first
migration on, in a table that declares its keys. A migration makes it so, and every later step of an
activation keeps it: the second row extends a ledger of one row, and a longer ledger refuses it
(`applySecureFormatTwo_maintains`).
-/

namespace AstrContinuum

namespace Migrations

open Checked Connections

/-! ## What the migrator keeps -/

section Kept

variable {Rest : Type} [Engine Rest] {plan : Plan} {P : Tables Rest → Prop}

/-- What the migrator writes keeps a property of the tables, and so do the migrations that need no
codec. -/
structure MigrationsKeep (plan : Plan) (P : Tables Rest → Prop) : Prop where
  create : ∀ db : Database Rest, P db.toTables → P (createLedger db).toTables
  statement : ∀ migration ∈ plan.migrations, migration.requiresCodec = false →
    ∀ statement ∈ migration.statements Rest, ∀ tables tables' : Tables Rest, P tables →
      Engine.execute statement tables = some tables' → P tables'
  insert : ∀ (row : LedgerRow) (db db' : Database Rest), P db.toTables →
    insertRow row db = .ok db' → P db'.toTables
  version : ∀ (n : Nat) (tables : Tables Rest), P tables → P { tables with userVersion := n }

variable (outages : Outages)

/-- Statements that keep it keep it one after the other. -/
theorem executeStatements_maintains {statements : List String}
    (h : ∀ statement ∈ statements, ∀ tables tables' : Tables Rest, P tables →
      Engine.execute statement tables = some tables' → P tables') :
    Maintains (fun db => P db.toTables) (@executeStatements Rest _ outages statements) := by
  induction statements with
  | nil => exact fun db hdb => Inside.pure hdb
  | cons statement statements ih =>
      refine Maintains.bind (Maintains.write fun db db' hdb hrun => ?_) fun _ =>
        ih fun next hnext => h next (List.mem_cons_of_mem _ hnext)
      obtain ⟨tables, hexecute, rfl⟩ := executeStatement_ok.mp hrun
      exact h _ List.mem_cons_self _ _ hdb hexecute

variable [Hashlib]

/-- So do the pending migrations, which stop before the first that needs a codec. -/
theorem applyPending_maintains (hplan : MigrationsKeep plan P) (utcNow : Nat → String)
    (includeKeyed : Bool) {n : Nat} {pending : List Migration} (hpending : pending ⊆ plan.migrations) :
    Maintains (fun db : Database Rest => P db.toTables)
      (applyPending outages utcNow includeKeyed n pending) := by
  induction pending generalizing n with
  | nil => exact fun db hdb => Inside.pure hdb
  | cons migration pending ih =>
      unfold applyPending
      split
      · split
        · exact Maintains.lift
        · exact fun db hdb => Inside.pure hdb
      · rename_i hcodec
        have hstatements := executeStatements_maintains outages (hplan.statement migration
          (hpending List.mem_cons_self) (Bool.eq_false_of_not_eq_true hcodec))
        refine Maintains.bind (fun db hdb => Inside.reraise ?_) fun _ =>
          ih fun next hnext => hpending (List.mem_cons_of_mem _ hnext)
        refine Maintains.bind hstatements (fun _ => Maintains.bind Maintains.lift fun _ =>
          Maintains.bind (Maintains.write fun _ _ h hinsert => hplan.insert _ _ _ h hinsert) fun _ =>
            Maintains.write fun db db' h hrun => ?_) db hdb
        obtain rfl := Except.ok.inj hrun
        exact hplan.version _ _ h

/-- A run of the migrator keeps it, whatever meets its attempts. -/
theorem migrate_keeps (hplan : MigrationsKeep plan P) (world : Nat → Circumstances Failure)
    (utcNow : Nat → String) (includeKeyed : Bool) :
    Keeps (fun db : Database Rest => P db.toTables) (migrate world plan utcNow includeKeyed) := by
  have hbody (outages : Outages) : Maintains (fun db : Database Rest => P db.toTables)
      (migrateBody outages plan utcNow includeKeyed) := by
    unfold migrateBody
    refine Maintains.bind (fun db hdb => ?_) fun _ => Maintains.bind (Maintains.write ?_) fun _ =>
      Maintains.bind (fun db hdb => ?_) fun n => Maintains.bind
        (applyPending_maintains outages hplan utcNow includeKeyed (List.drop_subset n _)) fun _ =>
          fun db hdb => Inside.pure hdb
    · exact (checkSqliteCapabilities_inside outages db).mono fun _ _ hsame => hsame ▸ hdb
    · intro db db' hdb hrun
      obtain rfl := Except.ok.inj hrun
      exact hplan.create db hdb
    · exact (validateLedger_inside outages plan db).mono fun _ _ h => h.1 ▸ hdb
  have honce : Keeps (fun db : Database Rest => P db.toTables)
      (migrateOnce world plan utcNow includeKeyed) := Keeps.transaction hbody
  unfold migrate
  generalize busyRetryAttempts = attempts
  induction attempts with
  | zero => exact fun _ h => h
  | succ attempts ih =>
      intro host h
      have hkept := honce host h
      unfold migrateAttempts
      cases hrun : migrateOnce world plan utcNow includeKeyed host with
      | ok version host' =>
          rw [hrun] at hkept
          exact hkept
      | error raised host' =>
          rw [hrun] at hkept
          dsimp only
          split_ifs
          · exact ih host' hkept
          · exact hkept
          · exact hkept

end Kept

/-! ## Declared keys -/

section Declared

variable {Rest : Type}

/-- Where there is a ledger, it declares its keys. -/
def Tables.Declared (tables : Tables Rest) : Prop :=
  ∀ ledger ∈ tables.ledger, ledger.declared = true

/-- One more row keeps this. -/
theorem insertRow_declared {row : LedgerRow} {db db' : Database Rest} (h : db.toTables.Declared)
    (hinsert : insertRow row db = .ok db') : db'.toTables.Declared := by
  obtain ⟨ledger, hledger, -, rfl⟩ := insertRow_ok.mp hinsert
  intro other hother
  obtain rfl := Option.some.inj hother
  exact h ledger hledger

/-- So does a run of the migrator. -/
theorem migrate_declared [Hashlib] [Engine Rest] {plan : Plan} (hplan : plan.LeavesLedger Rest)
    (world : Nat → Circumstances Failure) (utcNow : Nat → String) (includeKeyed : Bool) :
    Keeps (fun db : Database Rest => db.toTables.Declared) (migrate world plan utcNow includeKeyed) := by
  refine migrate_keeps ⟨fun db hdb => ?_, fun migration hmigration _ statement hstatement _ _ h hexecute => ?_,
    fun _ _ _ h hinsert => insertRow_declared h hinsert, fun _ _ h => h⟩ world utcNow includeKeyed
  · unfold createLedger
    cases hledger : db.ledger with
    | none =>
        rintro ledger hmem
        obtain rfl := Option.some.inj hmem
        exact rfl
    | some ledger => exact hdb
  · have hledger := (hplan migration hmigration statement hstatement _ _ hexecute).1
    intro ledger hmem
    exact h ledger (hledger ▸ hmem)

end Declared

/-! ## Sound ledgers -/

section Sound

variable [Hashlib] [PackagedSql] {Rest : Type}

/-- The ledger records the packaged plan from its first migration on, and declares its keys. -/
structure Sound (db : Database (Secured Rest)) : Prop where
  recorded : ∃ n, 1 ≤ n ∧ Recorded packagedPlan n db.toTables
  declared : db.toTables.Declared

/-- Only the ledger and `user_version` matter. -/
theorem Sound.congr {db db' : Database (Secured Rest)} (h : Sound db) (hledger : db'.ledger = db.ledger)
    (hversion : db'.userVersion = db.userVersion) : Sound db' := by
  obtain ⟨⟨n, hn, hrecorded⟩, hdeclared⟩ := h
  have hrows : db'.toTables.rows = db.toTables.rows := by
    unfold Tables.rows
    rw [hledger]
  refine ⟨⟨n, hn, hrecorded.bound, hrows ▸ hrecorded.rows, hversion.trans hrecorded.userVersion, ?_⟩, ?_⟩
  · obtain ⟨ledger, htable, hcolumns⟩ := hrecorded.table
    exact ⟨ledger, hledger.trans htable, hcolumns⟩
  · intro ledger hmem
    exact hdeclared ledger (hledger ▸ hmem)

/-- A run of the migrator records at least the first migration, which needs no codec. -/
theorem Applies.sound [Engine (Secured Rest)] {applied : Nat} {newly : List Migration}
    {db db' : Database (Secured Rest)} (h : Applies packagedPlan applied newly db db')
    (hdeclared : db'.toTables.Declared) : Sound db' := by
  refine ⟨⟨_, ?_, h.recorded⟩, hdeclared⟩
  by_contra hnone
  obtain ⟨rfl, hlength⟩ : applied = 0 ∧ newly.length = 0 := by omega
  obtain rfl := List.length_eq_zero_iff.mp hlength
  obtain ⟨rest, hrest, hhead⟩ := h.pending
  have hfirst : rest = packagedPlan.migrations := hrest.symm
  have hcodec : initialSchema.requiresCodec = true := hhead _ (hfirst ▸ rfl)
  exact Bool.false_ne_true hcodec

/-- The records may change. -/
theorem writeRecords_sound {change : Rest → Except Failure Rest} {db db' : Database (Secured Rest)}
    (h : Sound db) (hrun : writeRecords change db = .ok db') : Sound db' := by
  obtain ⟨records, -, hdb⟩ := bind_ok.mp hrun
  obtain rfl := Except.ok.inj hdb
  exact h.congr rfl rfl

/-- So may `storage_security`. -/
theorem writeSecurity_sound {rows : List SecurityRow} {db db' : Database (Secured Rest)} (h : Sound db)
    (hrun : writeSecurity rows db = .ok db') : Sound db' := by
  obtain rfl := Except.ok.inj hrun
  exact h.congr rfl rfl

/-- A ledger that accepts the second row of the packaged plan has one row. -/
theorem Sound.one_of_accepts {db : Database (Secured Rest)} (h : Sound db) {ledger : Ledger}
    (hledger : db.ledger = some ledger) {utcNow : String}
    (haccepts : ledger.Accepts (encryptedTokenMetrics.row utcNow)) :
    Recorded packagedPlan 1 db.toTables := by
  obtain ⟨⟨n, hn, hrecorded⟩, hdeclared⟩ := h
  rcases Nat.lt_or_ge 1 n with hmore | hone
  · have hrows : db.toTables.rows = ledger.rows := by rw [Tables.rows, hledger]
    have hversions := versions_of_standsFor hrecorded.rows
    have hsecond : ((2 : Nat) : Int) ∈ db.toTables.rows.map LedgerRow.version := by
      rw [hversions]
      have hmem : (2 : Nat) ∈ (packagedPlan.migrations.take n).map Migration.version := by
        rw [packagedPlan.versions_take hrecorded.bound, List.mem_range'_1]
        omega
      obtain ⟨migration, hmigration, hversion⟩ := List.mem_map.mp hmem
      exact List.mem_map.mpr ⟨migration, hmigration, congrArg Nat.cast hversion⟩
    obtain ⟨row, hrow, hversion⟩ := List.mem_map.mp hsecond
    exact absurd hversion ((haccepts.2 (hdeclared ledger hledger)).2 row (hrows ▸ hrow)).1
  · obtain rfl : n = 1 := Nat.le_antisymm hone hn
    exact hrecorded

variable (outages : Outages)

/-- The row of the second migration and its number keep the ledger sound. -/
theorem recordFormatTwo_maintains (utcNow : String) :
    Maintains (@Sound _ _ Rest) (do
      write outages (insertRow (encryptedTokenMetrics.row utcNow))
      write outages fun db => .ok (setUserVersion storageFormatVersion db)) := by
  intro db h
  refine (Inside.write (fun _ db' => ∃ ledger, db.ledger = some ledger ∧
    ledger.Accepts (encryptedTokenMetrics.row utcNow) ∧
      db' = { db with ledger := some (ledger.insert (encryptedTokenMetrics.row utcNow)) })
    fun db' hinsert => ?_).bind ?_
  · obtain ⟨ledger, hledger, haccepts, hdb⟩ := insertRow_ok.mp hinsert
    exact ⟨ledger, hledger, haccepts, hdb.symm⟩
  · rintro _ _ ⟨ledger, hledger, haccepts, rfl⟩
    refine Inside.write _ fun db' hdb' => ?_
    obtain rfl := Except.ok.inj hdb'
    have hone := h.one_of_accepts hledger haccepts
    obtain ⟨-, hrecorded⟩ := hone.insert
      (setUserVersion storageFormatVersion
        { db with ledger := some (ledger.insert (encryptedTokenMetrics.row utcNow)) }).toTables
      (show packagedPlan.migrations.drop 1 = encryptedTokenMetrics :: [snapshotReorganizationLedger] from rfl)
      hledger (encryptedTokenMetrics.row utcNow) ⟨rfl, rfl, rfl⟩ rfl rfl
    refine ⟨⟨2, by decide, hrecorded⟩, ?_⟩
    intro other hother
    obtain rfl := Option.some.inj hother
    exact h.declared ledger hledger

variable [Crypto.Primitives] [RecordStore Rest]

/-- So does the transaction that brings the store to its second format. -/
theorem applySecureFormatTwo_maintains (settings : Settings) (source target : Crypto.SecureCodec) :
    Maintains (@Sound _ _ Rest) (applySecureFormatTwo settings outages source target) := by
  unfold applySecureFormatTwo
  refine Maintains.read.bind fun metadata => Maintains.lift.bind fun _ => Maintains.lift.bind fun _ => ?_
  refine (Maintains.write fun _ _ h hrun => writeRecords_sound h hrun).bind fun _ => ?_
  refine Maintains.lift.bind fun verifier => ?_
  refine (Maintains.write fun _ _ h hrun => writeSecurity_sound h hrun).bind fun _ => ?_
  refine (Maintains.write fun _ _ h hrun => writeRecords_sound h hrun).bind fun _ => ?_
  exact Maintains.lift.bind fun _ => Maintains.lift.bind fun _ =>
    recordFormatTwo_maintains outages settings.utcNow

/-- The encryption of a store leaves the ledger. -/
theorem transformLegacy_maintains (settings : Settings) (codec : Crypto.SecureCodec) :
    Maintains (@Sound _ _ Rest) (transformLegacy settings outages codec) := by
  unfold transformLegacy
  refine Maintains.read.bind fun _ => Maintains.lift.bind fun _ => ?_
  refine (Maintains.write fun _ _ h hrun => writeRecords_sound h hrun).bind fun _ => ?_
  refine Maintains.lift.bind fun verifier => ?_
  refine (Maintains.write fun _ _ h hrun => writeSecurity_sound h hrun).bind fun _ => ?_
  exact Maintains.lift.bind fun _ => Maintains.lift

/-- So does a change of keys. -/
theorem rotateBody_maintains (settings : Settings) (durableKeyId : String)
    (previous active : Crypto.SecureCodec) :
    Maintains (@Sound _ _ Rest) (rotateBody settings outages durableKeyId previous active) := by
  unfold rotateBody
  refine Maintains.read.bind fun durable => Maintains.lift.bind fun _ => Maintains.lift.bind fun _ => ?_
  refine (Maintains.write fun _ _ h hrun => writeRecords_sound h hrun).bind fun _ => ?_
  refine Maintains.lift.bind fun _ => Maintains.lift.bind fun verifier => Maintains.read.bind fun rows => ?_
  refine Maintains.lift.bind fun _ => ?_
  refine (Maintains.write fun _ _ h hrun => writeSecurity_sound h hrun).bind fun _ => ?_
  exact Maintains.lift.bind fun _ => Maintains.lift

omit [Crypto.Primitives] [RecordStore Rest] in
/-- So does the end of a scrub. -/
theorem finishScrub_maintains (settings : Settings) :
    Maintains (@Sound _ _ Rest) (write outages (finishScrub settings)) := by
  refine Maintains.write fun db db' h hrun => ?_
  obtain ⟨rows, -, hrest⟩ := bind_ok.mp hrun
  obtain ⟨_, -, hwrite⟩ := bind_ok.mp hrest
  exact writeSecurity_sound h hwrite

end Sound

/-! ## Activations -/

section Activations

variable {Rest α : Type} {P : Database (Secured Rest) → Prop}

/-- Another error changes nothing else. -/
theorem failWith_keeps {code : Crypto.SecurityErrorCode} {x : Process Failure (Database (Secured Rest)) α}
    (h : Keeps P x) : Keeps P (failWith code x) := by
  intro host hdb
  have hkept := h host hdb
  unfold failWith
  cases hrun : x host with
  | ok a host' =>
      rw [hrun] at hkept
      exact hkept
  | error e host' =>
      rw [hrun] at hkept
      exact hkept

/-- Raising changes nothing. -/
theorem raise_keeps {code : Crypto.SecurityErrorCode} :
    Keeps P (raise code : Process Failure (Database (Secured Rest)) α) :=
  fun _ h => h

/-- Nor does a handler that raises. -/
theorem attempt_keeps {x : Process Failure (Database (Secured Rest)) α}
    {replace : Raised Failure → Raised Failure} (h : Keeps P x) :
    Keeps P (Effects.attempt x fun raised host => .error (replace raised) host) := by
  intro host hdb
  have hkept := h host hdb
  unfold Effects.attempt
  cases hrun : x host with
  | ok a host' =>
      rw [hrun] at hkept
      exact hkept
  | error e host' =>
      rw [hrun] at hkept
      exact hkept

/-- Nor does a computation. -/
theorem compute_keeps {x : Except Failure α} :
    Keeps P (compute x : Process Failure (Database (Secured Rest)) α) := by
  intro host h
  cases x with
  | ok a => exact h
  | error e => exact h

variable (world : Nat → Circumstances Failure) (settings : Settings)

/-- Looking for `storage_security` changes nothing. -/
theorem securityTableExists_keeps : Keeps P (securityTableExists world) :=
  failWith_keeps (Keeps.connection fun outages => read_quiet outages _)

/-- Nor does reading it. -/
theorem readSecurityMetadata_keeps : Keeps P (readSecurityMetadata world) := by
  unfold readSecurityMetadata
  refine failWith_keeps ((Keeps.connection fun outages => read_quiet outages _).bind fun rows => ?_)
  split
  · split
    · split_ifs
      · exact Keeps.pure
      · exact raise_keeps
    · exact raise_keeps
  · exact raise_keeps

variable [Hashlib] [PackagedSql]

/-- A scrub keeps the ledger sound. -/
theorem scrubStorage_keeps : Keeps (@Sound _ _ Rest) (scrubStorage world settings) := by
  unfold scrubStorage
  refine failWith_keeps ((Keeps.connection fun outages => ?_).bind fun _ =>
    Keeps.transaction fun outages => finishScrub_maintains outages settings)
  refine (pragma_quiet outages).bind fun _ => (pragma_quiet outages).bind fun _ =>
    (lift_quiet _).bind fun _ => (pragma_quiet outages).bind fun _ => (lift_quiet _).bind fun _ => ?_
  exact pragma_quiet outages

variable [Crypto.Primitives] [RecordStore Rest]

/-- So does the upgrade of a store in the first format. -/
theorem upgradeSecureFormatOne_keeps (source target : Crypto.SecureCodec) (rekeyed : Bool) :
    Keeps (@Sound _ _ Rest) (upgradeSecureFormatOne world settings source target rekeyed) := by
  unfold upgradeSecureFormatOne
  refine (failWith_keeps (Keeps.startupExclusive fun outages =>
    applySecureFormatTwo_maintains outages settings source target)).bind fun _ =>
      (failWith_keeps compute_keeps).bind fun _ => (scrubStorage_keeps world settings).bind fun _ =>
        (readSecurityMetadata_keeps world).bind fun metadata => ?_
  dsimp only
  split_ifs
  · exact raise_keeps
  · exact compute_keeps.bind fun _ => Keeps.pure

/-- So does a change of keys. -/
theorem rotateStorage_keeps (keys : ResolvedKeyMaterial) (durableKeyId verifier : String) :
    Keeps (@Sound _ _ Rest) (rotateStorage world settings keys durableKeyId verifier) := by
  unfold rotateStorage
  split
  · exact raise_keeps
  · split_ifs
    · exact raise_keeps
    · refine (failWith_keeps compute_keeps).bind fun _ => (failWith_keeps (Keeps.startupExclusive
        fun outages => rotateBody_maintains outages settings _ _ _)).bind fun _ =>
          (failWith_keeps compute_keeps).bind fun _ => (scrubStorage_keeps world settings).bind fun _ =>
            (readSecurityMetadata_keeps world).bind fun metadata => ?_
      dsimp only
      split_ifs
      · exact raise_keeps
      · exact compute_keeps.bind fun _ => Keeps.pure

omit [Hashlib] [PackagedSql] [RecordStore Rest] in
/-- Choosing the codec changes nothing. -/
theorem sourceCodec_keeps (keys : ResolvedKeyMaterial) (durableKeyId verifier : String) :
    Keeps P (sourceCodec keys durableKeyId verifier) := by
  unfold sourceCodec
  split_ifs
  · exact compute_keeps.bind fun _ => Keeps.pure
  · split
    · exact raise_keeps
    · split_ifs
      · exact raise_keeps
      · exact (failWith_keeps compute_keeps).bind fun _ => Keeps.pure

omit [Crypto.Primitives] [RecordStore Rest] in
/-- A pending scrub keeps the ledger sound. -/
theorem pendingScrub_keeps (state : StorageMaintenanceState) :
    Keeps (@Sound _ _ Rest) (pendingScrub world settings state) := by
  unfold pendingScrub
  split_ifs
  · exact (scrubStorage_keeps world settings).bind fun _ => Keeps.pure
  · exact Keeps.pure
  · exact raise_keeps

/-- What follows on the migration keeps the ledger sound in a store that is encrypted. -/
theorem activateExisting_keeps (keys : ResolvedKeyMaterial) :
    Keeps (@Sound _ _ Rest) (activateExisting world settings keys) := by
  unfold activateExisting
  refine (readSecurityMetadata_keeps world).bind fun metadata =>
    (sourceCodec_keeps keys _ _).bind fun source => (pendingScrub_keeps world settings _).bind
      fun scrubbed => (readSecurityMetadata_keeps world).bind fun current => ?_
  dsimp only
  split_ifs
  · exact raise_keeps
  · exact compute_keeps.bind fun _ => upgradeSecureFormatOne_keeps world settings _ _ _
  · exact compute_keeps.bind fun _ => rotateStorage_keeps world settings keys _ _
  · exact compute_keeps.bind fun _ => Keeps.pure

/-- An activation leaves the database, or its ledger is sound; after an activation that returns, it is. -/
theorem activateStorageSecurity_ends [Engine (Secured Rest)] (keys : ResolvedKeyMaterial)
    (hplan : packagedPlan.LeavesLedger (Secured Rest)) (host : Host (Database (Secured Rest)))
    (hdeclared : host.database.toTables.Declared) :
    Effects.Ends (fun _ host' => host'.database = host.database ∨ Sound host'.database)
      (fun _ host' => Sound host'.database) (activateStorageSecurity world settings keys) host := by
  unfold activateStorageSecurity
  split_ifs
  · have hmigrate : Effects.Ends
        (fun _ host' => host'.database = host.database ∨ Sound host'.database)
        (fun _ host' => Sound host'.database)
        (failWith .storageMigrationFailed
          (migrate world packagedPlan (fun _ => settings.utcNow) false)) host := by
      have hends := migrate_ends hplan world (fun _ => settings.utcNow) false host
      have hkept := migrate_declared hplan world (fun _ => settings.utcNow) false host hdeclared
      unfold Effects.Ends at hends ⊢
      unfold failWith
      cases hrun : migrate world packagedPlan (fun _ => settings.utcNow) false host with
      | ok version host' =>
          rw [hrun] at hends hkept
          obtain ⟨newly, happlies⟩ := hends
          exact happlies.sound hkept
      | error e host' =>
          rw [hrun] at hends
          exact .inl hends
    refine hmigrate.bind fun _ host' hsound => Keeps.ends ?_ (fun _ _ h => .inr h) hsound
    refine (securityTableExists_keeps world).bind fun existing => ?_
    split_ifs
    · exact activateExisting_keeps world settings keys
    · exact (attempt_keeps (Keeps.startupExclusive fun outages =>
        transformLegacy_maintains outages settings _)).bind fun _ =>
          (failWith_keeps compute_keeps).bind fun _ => (scrubStorage_keeps world settings).bind fun _ =>
            activateExisting_keeps world settings keys
  · exact .inl rfl

end Activations

end Migrations

end AstrContinuum
