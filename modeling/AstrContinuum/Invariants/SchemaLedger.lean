import Mathlib.Data.List.Range
import AstrContinuum.Storage.Migrations

/-!
# The ledger is a prefix of the plan

`Recorded` says that the ledger holds the first migrations of a plan and that `user_version` counts them.
The checks of the migrator accept exactly such a ledger (`validateLedger_inside`); a migration whose
statements leave the ledger alone extends it by its own row (`applyOne_inside`); and a run of the migrator
records the pending migrations up to the first that needs a codec, or leaves the database (`migrate_ends`).
-/

namespace AstrContinuum

namespace Migrations

open Checked Connections

variable [Hashlib] {Rest : Type}

/-- The rows of the ledger, if there is one. -/
def Tables.rows (tables : Tables Rest) : List LedgerRow :=
  match tables.ledger with
  | some ledger => ledger.rows
  | none => []

/-- A row records a migration. -/
def Records (row : LedgerRow) (migration : Migration) : Prop :=
  row.version = migration.version ∧ row.name = migration.name ∧ row.checksum = migration.checksum

/-- A row stands for a migration: it records it, or the first migration under its earlier name. -/
def StandsFor (row : LedgerRow) (migration : Migration) : Prop :=
  row.version = migration.version ∧
    (row.name = migration.name ∨ migration.version = 1 ∧ row.name = legacyV1Name) ∧
    row.checksum = migration.checksum

/-- The ledger is exactly the first `n` migrations of the plan, and `user_version` is their number. -/
structure Recorded (plan : Plan) (n : Nat) (tables : Tables Rest) : Prop where
  bound : n ≤ plan.migrations.length
  rows : List.Forall₂ StandsFor tables.rows (plan.migrations.take n)
  userVersion : tables.userVersion = n
  table : ∃ ledger, tables.ledger = some ledger ∧ ledger.columns = true

/-- What is recorded stands for its migration. -/
theorem Records.standsFor {row : LedgerRow} {migration : Migration} (h : Records row migration) :
    StandsFor row migration :=
  ⟨h.1, .inl h.2.1, h.2.2⟩

/-- As many rows as migrations are recorded. -/
theorem Recorded.length {plan : Plan} {n : Nat} {tables : Tables Rest} (h : Recorded plan n tables) :
    tables.rows.length = n := by
  rw [h.rows.length_eq, List.length_take, Nat.min_eq_left h.bound]

omit [Hashlib] in
/-- The versions of the first migrations count from one. -/
theorem Plan.versions_take (plan : Plan) {n : Nat} (h : n ≤ plan.migrations.length) :
    (plan.migrations.take n).map Migration.version = List.range' 1 n := by
  rw [List.map_take, plan.versions_ok, List.take_range'_of_length_ge h]

/-- The rows of such a ledger have these versions. -/
theorem versions_of_standsFor {rows : List LedgerRow} {migrations : List Migration}
    (h : List.Forall₂ StandsFor rows migrations) :
    rows.map LedgerRow.version = migrations.map fun migration => (migration.version : Int) := by
  induction h with
  | nil => rfl
  | cons hhead _ ih => rw [List.map_cons, List.map_cons, ih, hhead.1]

/-- The last version is the number of the rows. -/
theorem durableVersion_eq {plan : Plan} {n : Nat} {rows : List LedgerRow}
    (hbound : n ≤ plan.migrations.length)
    (h : List.Forall₂ StandsFor rows (plan.migrations.take n)) : durableVersion rows = n := by
  have hversions : rows.map LedgerRow.version = (List.range' 1 n).map fun version : Nat => (version : Int) := by
    rw [versions_of_standsFor h, ← plan.versions_take hbound, List.map_map]
    rfl
  unfold durableVersion
  rw [← List.getLast?_map, hversions, List.getLast?_map, List.getLast?_range']
  cases n with
  | zero => rfl
  | succ n =>
      rw [if_neg (Nat.succ_ne_zero n)]
      show ((1 + (n + 1) - 1 : Nat) : Int) = _
      omega

/-- The checks on the rows pass exactly when each of them stands for its migration. -/
theorem validateRows_ok {migrations : List Migration} {rows : List LedgerRow} {u : Unit} :
    validateRows migrations rows = .ok u ↔
      rows.length ≤ migrations.length ∧
        List.Forall₂ StandsFor rows (migrations.take rows.length) := by
  induction migrations generalizing rows with
  | nil =>
      cases rows with
      | nil => exact ⟨fun _ => ⟨Nat.le_refl _, .nil⟩, fun _ => rfl⟩
      | cons row rows =>
          exact ⟨fun h => (nomatch h), fun h => absurd h.1 (Nat.not_succ_le_zero _)⟩
  | cons migration migrations ih =>
      cases rows with
      | nil => exact ⟨fun _ => ⟨Nat.zero_le _, .nil⟩, fun _ => rfl⟩
      | cons row rows =>
          simp only [validateRows, bind_ok, require_ok, ih, List.length_cons, List.take_succ_cons,
            List.forall₂_cons, Nat.succ_le_succ_iff]
          constructor
          · rintro ⟨_, hversion, _, hname, _, hchecksum, hlength, hrows⟩
            refine ⟨hlength, ⟨hversion, ?_, hchecksum⟩, hrows⟩
            exact hname.imp_right fun halias => ⟨halias.1, halias.2.1⟩
          · rintro ⟨hlength, ⟨hversion, hname, hchecksum⟩, hrows⟩
            refine ⟨(), hversion, (), ?_, (), hchecksum, hlength, hrows⟩
            exact hname.imp_right fun halias => ⟨halias.1, halias.2, hchecksum⟩

omit [Hashlib] in
/-- The rows of the ledger are read where its columns are there. -/
theorem ledgerRows_ok {db : Database Rest} {rows : List LedgerRow} :
    ledgerRows db = .ok rows ↔
      ∃ ledger, db.ledger = some ledger ∧ ledger.columns = true ∧ ledger.rows = rows := by
  unfold ledgerRows
  cases db.ledger with
  | none => exact ⟨fun h => (nomatch h), fun ⟨_, h, _⟩ => nomatch h⟩
  | some ledger =>
      dsimp only
      split
      · rename_i hcolumns
        exact ⟨fun h => ⟨ledger, rfl, hcolumns, Except.ok.inj h⟩,
          fun ⟨_, h, _, hrows⟩ => congrArg _ (by rw [Option.some.inj h, hrows])⟩
      · rename_i hcolumns
        refine ⟨fun h => (nomatch h), fun ⟨other, h, hother, _⟩ => absurd ?_ hcolumns⟩
        rw [Option.some.inj h, hother]

omit [Hashlib] in
/-- A row is inserted where the ledger accepts it. -/
theorem insertRow_ok {row : LedgerRow} {db db' : Database Rest} :
    insertRow row db = .ok db' ↔ ∃ ledger, db.ledger = some ledger ∧ ledger.Accepts row ∧
      { db with ledger := some (ledger.insert row) } = db' := by
  unfold insertRow
  cases db.ledger with
  | none => exact ⟨fun h => (nomatch h), fun ⟨_, h, _⟩ => nomatch h⟩
  | some ledger =>
      dsimp only
      split
      · rename_i haccepts
        exact ⟨fun h => ⟨ledger, rfl, haccepts, Except.ok.inj h⟩,
          fun ⟨_, h, _, hdb⟩ => congrArg _ (by rw [Option.some.inj h, hdb])⟩
      · rename_i haccepts
        refine ⟨fun h => (nomatch h), fun ⟨other, h, hother, _⟩ => absurd ?_ haccepts⟩
        rw [Option.some.inj h]
        exact hother

omit [Hashlib] in
/-- A statement is executed where SQLite does not refuse it. -/
theorem executeStatement_ok [Engine Rest] {statement : String} {db db' : Database Rest} :
    executeStatement statement db = .ok db' ↔ ∃ tables, Engine.execute statement db.toTables =
      some tables ∧ { tables with executed := db.executed ++ [statement] } = db' := by
  unfold executeStatement
  cases Engine.execute statement db.toTables with
  | none => exact ⟨fun h => (nomatch h), fun ⟨_, h, _⟩ => nomatch h⟩
  | some tables =>
      exact ⟨fun h => ⟨tables, rfl, Except.ok.inj h⟩,
        fun ⟨_, h, hdb⟩ => congrArg Except.ok (by rw [Option.some.inj h, hdb])⟩

variable (outages : Outages)

/-- The ledger is accepted where it is the first migrations of the plan. -/
theorem validateLedger_inside (plan : Plan) (db : Database Rest) :
    Inside (fun n db' => db' = db ∧ Recorded plan n db.toTables) (validateLedger outages plan) db := by
  unfold validateLedger
  refine (Inside.read (fun rows db' => db' = db ∧ ledgerRows db = .ok rows)
    fun rows hrows => ⟨rfl, hrows⟩).bind ?_
  rintro rows db' ⟨rfl, hledger⟩
  refine (Inside.lift (fun _ db'' => db'' = db' ∧ rows.length ≤ plan.migrations.length)
    fun _ h => ⟨rfl, require_ok.mp h⟩).bind ?_
  rintro _ db'' ⟨rfl, hlength⟩
  refine (Inside.lift (fun _ db' => db' = db'' ∧
    List.Forall₂ StandsFor rows (plan.migrations.take rows.length))
    fun _ h => ⟨rfl, (validateRows_ok.mp h).2⟩).bind ?_
  rintro _ db' ⟨rfl, hrows⟩
  refine (Inside.read (fun version db'' => db'' = db' ∧ version = db'.userVersion)
    fun version hversion => ⟨rfl, (Except.ok.inj hversion).symm⟩).bind ?_
  rintro version db'' ⟨rfl, rfl⟩
  refine (Inside.lift (fun _ db' => db' = db'' ∧ db''.userVersion = durableVersion rows)
    fun _ h => ⟨rfl, require_ok.mp h⟩).bind ?_
  rintro _ db' ⟨rfl, hversion⟩
  obtain ⟨ledger, htable, hcolumns, rfl⟩ := ledgerRows_ok.mp hledger
  have hsame : db'.toTables.rows = ledger.rows := by rw [Tables.rows, htable]
  refine Inside.pure ⟨rfl, hlength, hsame ▸ hrows, ?_, ledger, htable, hcolumns⟩
  rw [hversion, durableVersion_eq hlength hrows]

/-! ## One migration -/

/-- The statements of the plan leave the ledger and `user_version` alone. -/
def Plan.LeavesLedger (plan : Plan) (Rest : Type) [Engine Rest] : Prop :=
  ∀ migration ∈ plan.migrations, ∀ statement ∈ migration.statements Rest,
    ∀ (tables tables' : Tables Rest), Engine.execute statement tables = some tables' →
      tables'.ledger = tables.ledger ∧ tables'.userVersion = tables.userVersion

omit [Hashlib] in
/-- Statements that leave the ledger alone are executed, each once and in order. -/
theorem executeStatements_inside [Engine Rest] {statements : List String}
    (h : ∀ statement ∈ statements, ∀ (tables tables' : Tables Rest),
      Engine.execute statement tables = some tables' →
        tables'.ledger = tables.ledger ∧ tables'.userVersion = tables.userVersion)
    (db : Database Rest) :
    Inside (fun _ db' => db'.ledger = db.ledger ∧ db'.userVersion = db.userVersion ∧
        db'.executed = db.executed ++ statements)
      (executeStatements outages statements) db := by
  induction statements generalizing db with
  | nil => exact Inside.pure ⟨rfl, rfl, (List.append_nil _).symm⟩
  | cons statement statements ih =>
      refine (Inside.write (fun _ db' => db'.ledger = db.ledger ∧
        db'.userVersion = db.userVersion ∧ db'.executed = db.executed ++ [statement])
        fun db' hdb' => ?_).bind fun _ db' hfirst => ?_
      · obtain ⟨tables, hexecute, rfl⟩ := executeStatement_ok.mp hdb'
        obtain ⟨hledger, hversion⟩ := h _ List.mem_cons_self _ _ hexecute
        exact ⟨hledger, hversion, rfl⟩
      · refine (ih (fun next hnext => h next (List.mem_cons_of_mem _ hnext)) db').mono ?_
        rintro _ db'' ⟨hledger, hversion, hexecuted⟩
        refine ⟨hledger.trans hfirst.1, hversion.trans hfirst.2.1, ?_⟩
        rw [hexecuted, hfirst.2.2, List.append_assoc, List.singleton_append]

omit [Hashlib] in
/-- A row with a later version than all others comes last. -/
theorem insert_rows {ledger : Ledger} {row : LedgerRow}
    (h : ∀ other ∈ ledger.rows, other.version < row.version) :
    (ledger.insert row).rows = ledger.rows ++ [row] := by
  show ledger.rows.orderedInsert versionLe row = _
  generalize ledger.rows = rows at h
  induction rows with
  | nil => rfl
  | cons other rows ih =>
      have hlt := h other List.mem_cons_self
      rw [List.orderedInsert_cons, if_neg (show ¬ versionLe row other from Int.not_le.mpr hlt),
        ih fun next hnext => h next (List.mem_cons_of_mem _ hnext), List.cons_append]

/-- The rows of the first `n` migrations have versions up to `n`. -/
theorem Recorded.version_le {plan : Plan} {n : Nat} {tables : Tables Rest}
    (h : Recorded plan n tables) {row : LedgerRow} (hrow : row ∈ tables.rows) : row.version ≤ n := by
  have hversion : row.version ∈ tables.rows.map LedgerRow.version := List.mem_map_of_mem hrow
  rw [versions_of_standsFor h.rows] at hversion
  obtain ⟨migration, hmigration, hsame⟩ := List.mem_map.mp hversion
  have hrange : migration.version ∈ (plan.migrations.take n).map Migration.version :=
    List.mem_map_of_mem hmigration
  rw [plan.versions_take h.bound, List.mem_range'_1] at hrange
  rw [← hsame]
  exact Int.ofNat_le.mpr (by omega)

omit [Hashlib] in
/-- The next migration of a plan has the next version. -/
theorem Plan.version_of_drop (plan : Plan) {n : Nat} {migration : Migration}
    {pending : List Migration} (h : plan.migrations.drop n = migration :: pending) :
    migration.version = n + 1 := by
  have hlength : n < plan.migrations.length := by
    by_contra hle
    rw [List.drop_of_length_le (Nat.le_of_not_lt hle)] at h
    cases h
  have hget : plan.migrations[n] = migration := by
    have hhead := congrArg List.head? h
    rw [List.head?_drop, List.getElem?_eq_getElem hlength] at hhead
    exact Option.some.inj hhead
  have hversion : (plan.migrations.map Migration.version)[n]? = some migration.version := by
    rw [List.getElem?_map, List.getElem?_eq_getElem hlength, hget]
    rfl
  rw [plan.versions_ok, List.getElem?_range' hlength] at hversion
  have hsame := Option.some.inj hversion
  omega

/-- A migration that is recorded after the first `n` extends the ledger by its row. -/
theorem Recorded.insert {plan : Plan} {n : Nat} {tables : Tables Rest} (tables' : Tables Rest) {migration : Migration}
    {pending : List Migration} (h : Recorded plan n tables)
    (hpending : plan.migrations.drop n = migration :: pending) {ledger : Ledger}
    (hledger : tables.ledger = some ledger) (row : LedgerRow) (hrow : Records row migration)
    (htable : tables'.ledger = some (ledger.insert row))
    (hversion : tables'.userVersion = migration.version) :
    tables'.rows = tables.rows ++ [row] ∧ Recorded plan (n + 1) tables' := by
  have hnext := plan.version_of_drop hpending
  have hrows : tables.rows = ledger.rows := by rw [Tables.rows, hledger]
  have hinsert : tables'.rows = tables.rows ++ [row] := by
    rw [Tables.rows, htable, hrows]
    refine insert_rows fun other hother => ?_
    have hle := h.version_le (hrows ▸ hother)
    rw [hrow.1, hnext]
    omega
  have hlength : n < plan.migrations.length := by
    by_contra hle
    rw [List.drop_of_length_le (Nat.le_of_not_lt hle)] at hpending
    cases hpending
  have htake : plan.migrations.take (n + 1) = plan.migrations.take n ++ [migration] := by
    rw [List.take_add, hpending]
    rfl
  obtain ⟨other, hother, hcolumns⟩ := h.table
  obtain rfl : ledger = other := Option.some.inj (hledger.symm.trans hother)
  refine ⟨hinsert, hlength, ?_, ?_, _, htable, hcolumns⟩
  · rw [hinsert, htake]
    exact List.rel_append h.rows (.cons hrow.standsFor .nil)
  · rw [hversion, hnext]

/-- The next migration is executed and recorded. -/
theorem applyOne_inside [Engine Rest] {plan : Plan} (hplan : plan.LeavesLedger Rest)
    (utcNow : Nat → String) {n : Nat} {migration : Migration} {pending : List Migration}
    (hpending : plan.migrations.drop n = migration :: pending) {db : Database Rest}
    (h : Recorded plan n db.toTables) :
    Inside (fun _ db' => Recorded plan (n + 1) db'.toTables ∧
        db'.executed = db.executed ++ migration.statements Rest ∧
        ∃ row, Records row migration ∧ db'.toTables.rows = db.toTables.rows ++ [row])
      (applyOne outages utcNow migration) db := by
  have hmem : migration ∈ plan.migrations :=
    List.mem_of_mem_drop (hpending ▸ List.mem_cons_self : migration ∈ plan.migrations.drop n)
  unfold applyOne
  refine Inside.reraise ((executeStatements_inside outages (hplan migration hmem) db).bind ?_)
  rintro _ db₁ ⟨hledger₁, hversion₁, hexecuted₁⟩
  refine (Inside.lift (fun _ db' => db' = db₁) fun _ _ => rfl).bind ?_
  rintro _ db' rfl
  refine (Inside.write (fun _ db'' => db''.executed = db'.executed ∧
    ∃ ledger, db'.ledger = some ledger ∧
      db''.ledger = some (ledger.insert (migration.row (utcNow migration.version))))
    fun db'' hinsert => ?_).bind ?_
  · obtain ⟨ledger, hledger, -, rfl⟩ := insertRow_ok.mp hinsert
    exact ⟨rfl, ledger, hledger, rfl⟩
  · rintro _ db₂ ⟨hexecuted₂, ledger, hledger, hinsert⟩
    refine Inside.write _ fun db₃ hdb₃ => ?_
    obtain rfl := Except.ok.inj hdb₃
    obtain ⟨hrows, hrecorded⟩ := h.insert (setUserVersion migration.version db₂).toTables hpending
      (hledger₁.symm.trans hledger) (migration.row (utcNow migration.version)) ⟨rfl, rfl, rfl⟩ hinsert rfl
    exact ⟨hrecorded, hexecuted₂.trans hexecuted₁, _, ⟨rfl, rfl, rfl⟩, hrows⟩

/-! ## One run of the migrator -/

/-- What a run of the migrator does after `applied` migrations: it executes and records the `newly` applied
ones, which are the pending ones up to the first that needs a codec. -/
structure Applies [Engine Rest] (plan : Plan) (applied : Nat) (newly : List Migration)
    (db db' : Database Rest) : Prop where
  pending : ∃ rest, plan.migrations.drop applied = newly ++ rest ∧
    ∀ migration ∈ rest.head?, migration.requiresCodec = true
  plain : ∀ migration ∈ newly, migration.requiresCodec = false
  executed : db'.executed =
    db.executed ++ newly.flatMap fun migration => migration.statements Rest
  rows : ∃ added, db'.toTables.rows = db.toTables.rows ++ added ∧ List.Forall₂ Records added newly
  recorded : Recorded plan (applied + newly.length) db'.toTables
  unchanged : newly = [] → db' = createLedger db

omit [Hashlib] in
/-- A ledger that exists is not created. -/
theorem createLedger_eq {db : Database Rest} {ledger : Ledger} (h : db.ledger = some ledger) :
    createLedger db = db := by
  rw [createLedger, h]

/-- Where the next migration needs a codec, a run may do nothing. -/
theorem Recorded.applies_nil [Engine Rest] {plan : Plan} {n : Nat} {db : Database Rest}
    (h : Recorded plan n db.toTables)
    (hhead : ∀ migration ∈ (plan.migrations.drop n).head?, migration.requiresCodec = true) :
    Applies plan n [] db db := by
  obtain ⟨ledger, hledger, -⟩ := h.table
  exact ⟨⟨_, rfl, hhead⟩, fun _ hmem => (nomatch hmem), (List.append_nil _).symm,
    ⟨[], (List.append_nil _).symm, .nil⟩, h, fun _ => (createLedger_eq hledger).symm⟩

/-- A run that applies the next migration goes on after it. -/
theorem Applies.cons [Engine Rest] {plan : Plan} {n : Nat} {migration : Migration}
    {pending newly : List Migration} {db db₁ db' : Database Rest}
    (hpending : plan.migrations.drop n = migration :: pending) (hplain : migration.requiresCodec = false)
    (hexecuted : db₁.executed = db.executed ++ migration.statements Rest) {row : LedgerRow}
    (hrow : Records row migration) (hrows : db₁.toTables.rows = db.toTables.rows ++ [row])
    (h : Applies plan (n + 1) newly db₁ db') : Applies plan n (migration :: newly) db db' := by
  have hrest : plan.migrations.drop (n + 1) = pending := by
    rw [← List.drop_drop, hpending]
    rfl
  obtain ⟨rest, hdrop, hhead⟩ := h.pending
  obtain ⟨added, hadded, hrecords⟩ := h.rows
  refine ⟨⟨rest, ?_, hhead⟩, ?_, ?_, ⟨row :: added, ?_, .cons hrow hrecords⟩, ?_, fun hnil => nomatch hnil⟩
  · rw [hpending, ← hrest, hdrop]
    rfl
  · exact List.forall_mem_cons.mpr ⟨hplain, h.plain⟩
  · rw [h.executed, hexecuted, List.append_assoc, List.flatMap_cons]
  · rw [hadded, hrows, List.append_assoc, List.singleton_append]
  · have hcount : n + (migration :: newly).length = n + 1 + newly.length := by
      rw [List.length_cons]
      omega
    rw [hcount]
    exact h.recorded

/-- The pending migrations are applied up to the first that needs a codec. -/
theorem applyPending_inside [Engine Rest] {plan : Plan} (hplan : plan.LeavesLedger Rest)
    (utcNow : Nat → String) (includeKeyed : Bool) {n : Nat} {pending : List Migration}
    (hpending : plan.migrations.drop n = pending) {db : Database Rest}
    (h : Recorded plan n db.toTables) :
    Inside (fun _ db' => ∃ newly, Applies plan n newly db db')
      (applyPending outages utcNow includeKeyed n pending) db := by
  induction pending generalizing n db with
  | nil =>
      refine Inside.pure ⟨[], h.applies_nil ?_⟩
      rw [hpending]
      exact fun _ hmem => nomatch hmem
  | cons migration pending ih =>
      unfold applyPending
      split
      · rename_i hcodec
        split
        · exact Inside.lift _ fun _ hraise => nomatch hraise
        · refine Inside.pure ⟨[], h.applies_nil ?_⟩
          rw [hpending]
          rintro _ ⟨⟩
          exact hcodec
      · rename_i hplain
        refine (applyOne_inside outages hplan utcNow hpending h).bind ?_
        rintro _ db₁ ⟨hrecorded, hexecuted, row, hrow, hrows⟩
        have hrest : plan.migrations.drop (n + 1) = pending := by
          rw [← List.drop_drop, hpending]
          rfl
        refine (ih hrest hrecorded).mono ?_
        rintro _ db' ⟨newly, happlies⟩
        exact ⟨migration :: newly, .cons hpending (Bool.eq_false_iff.mpr hplain) hexecuted hrow hrows
          happlies⟩

omit [Hashlib] in
/-- Checking the capabilities leaves the database. -/
theorem checkSqliteCapabilities_inside [Engine Rest] (db : Database Rest) :
    Inside (fun _ db' => db' = db) (checkSqliteCapabilities outages) db := by
  unfold checkSqliteCapabilities
  refine (Inside.reraise (Inside.read (fun _ db' => db' = db) fun _ _ => rfl)).bind ?_
  rintro _ _ rfl
  exact Inside.lift _ fun _ _ => rfl

omit [Hashlib] in
/-- Creating the ledger leaves its rows. -/
theorem createLedger_rows (db : Database Rest) :
    (createLedger db).toTables.rows = db.toTables.rows ∧ (createLedger db).executed = db.executed := by
  unfold createLedger Tables.rows
  cases hledger : db.ledger with
  | none => exact ⟨rfl, rfl⟩
  | some ledger =>
      rw [hledger]
      exact ⟨rfl, rfl⟩

/-- The transaction of the migrator applies the pending migrations to the ledger it finds or creates. -/
theorem migrateBody_inside [Engine Rest] {plan : Plan} (hplan : plan.LeavesLedger Rest)
    (utcNow : Nat → String) (includeKeyed : Bool) (db : Database Rest) :
    Inside (fun _ db' => ∃ newly, Applies plan db.toTables.rows.length newly db db')
      (migrateBody outages plan utcNow includeKeyed) db := by
  obtain ⟨hrows, hexecuted⟩ := createLedger_rows db
  unfold migrateBody
  refine (checkSqliteCapabilities_inside outages db).bind ?_
  rintro _ db' hsame
  rw [hsame]
  refine (Inside.write (f := fun db => .ok (createLedger db)) (fun _ db' => db' = createLedger db)
    fun _ hdb => (Except.ok.inj hdb).symm).bind ?_
  rintro _ _ rfl
  refine (validateLedger_inside outages plan (createLedger db)).bind ?_
  rintro n _ ⟨rfl, hrecorded⟩
  obtain rfl : db.toTables.rows.length = n := hrows ▸ hrecorded.length
  refine (applyPending_inside outages hplan utcNow includeKeyed rfl hrecorded).bind ?_
  rintro _ db' ⟨newly, happlies⟩
  obtain ⟨ledger, hledger, -⟩ := hrecorded.table
  refine Inside.pure ⟨newly, happlies.pending, happlies.plain, ?_, hrows ▸ happlies.rows,
    happlies.recorded, fun hnil => ?_⟩
  · rw [happlies.executed, hexecuted]
  · rw [happlies.unchanged hnil, createLedger_eq hledger]

/-- Whatever meets its attempts, the migrator applies the pending migrations or leaves the database. -/
theorem migrate_ends [Engine Rest] {plan : Plan} (hplan : plan.LeavesLedger Rest)
    (world : Nat → Circumstances Failure) (utcNow : Nat → String) (includeKeyed : Bool)
    (host : Host (Database Rest)) :
    Effects.Ends (fun _ host' => host'.database = host.database)
      (fun _ host' => ∃ newly,
        Applies plan host.database.toTables.rows.length newly host.database host'.database)
      (migrate world plan utcNow includeKeyed) host := by
  unfold migrate
  generalize busyRetryAttempts = attempts
  induction attempts generalizing host with
  | zero => exact rfl
  | succ attempts ih =>
      have honce : Effects.Ends (fun _ host' => host'.database = host.database)
          (fun _ host' => ∃ newly,
            Applies plan host.database.toTables.rows.length newly host.database host'.database)
          (migrateOnce world plan utcNow includeKeyed) host :=
        connect_transaction fun outages => migrateBody_inside outages hplan utcNow includeKeyed _
      unfold Effects.Ends at honce ⊢
      unfold migrateAttempts
      cases hrun : migrateOnce world plan utcNow includeKeyed host with
      | ok version host' =>
          rw [hrun] at honce
          exact honce
      | error raised host' =>
          rw [hrun] at honce
          have hsame : host'.database = host.database := honce
          have hagain := ih host'
          unfold Effects.Ends at hagain
          rw [hsame] at hagain
          dsimp only
          split_ifs
          · exact hagain
          · exact honce
          · exact honce

end Migrations

end AstrContinuum
