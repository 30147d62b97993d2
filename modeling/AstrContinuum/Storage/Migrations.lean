import Mathlib.Data.List.Sort
import AstrContinuum.Control.Processes
import AstrContinuum.Storage.Crypto

/-!
# Schema migrations

`SQLiteMigrator` applies a plan of migrations under one transaction and records each of them in
`schema_migrations` and in `user_version`. What SQLite does with a statement of a migration is a parameter
(`Engine`), as is the rest of the database. `Recorded` says that the ledger is a prefix of the plan; `Applies`
is what one run of the migrator may do.
-/

namespace AstrContinuum

namespace Migrations

open Checked Connections Crypto

/-- What is raised: a `MigrationError`, a `StorageSecurityError`, an `sqlite3.Error` of a statement that
SQLite refuses, an injected fault, another `ValueError` or `TypeError`, an `OSError` or `RuntimeError`, or an
`AssertionError`. -/
inductive Failure
  | plan (message : String)
  | checksum (message : String)
  | apply (message : String)
  | security (code : SecurityErrorCode)
  | sqlite
  | injected
  | value
  | system
  | assertion
deriving DecidableEq

/-! ## Plans -/

/-- `Migration`. -/
structure Migration where
  version : Nat
  name : String
  sql : String
  requiresCodec : Bool
  version_ok : 1 ≤ version
  name_ok : stripNonEmpty name = true
  sql_ok : stripNonEmpty sql = true

/-- `Migration.checksum`. -/
def Migration.checksum [Hashlib] (migration : Migration) : String :=
  Hashlib.sha256Hexdigest migration.sql

/-- The plan of a migrator: `_validate_plan` has passed. -/
structure Plan where
  migrations : List Migration
  versions_ok : migrations.map Migration.version = List.range' 1 migrations.length
  names_ok : (migrations.map Migration.name).Nodup

/-- `SQLiteMigrator.__init__` with `_validate_plan`. -/
def Plan.validate (migrations : List Migration) : Except Failure Plan :=
  if hversions : migrations.map Migration.version = List.range' 1 migrations.length then
    if hnames : (migrations.map Migration.name).Nodup then .ok ⟨migrations, hversions, hnames⟩
    else .error (.plan "migration names must be unique")
  else .error (.plan "migration versions must be contiguous and start at one")

/-! ## The statements of a script -/

/-- `text.strip()` of the characters of a text. -/
def stripChars (chars : List Char) : List Char :=
  ((chars.dropWhile isPythonSpace).reverse.dropWhile isPythonSpace).reverse

/-- Where `_is_comment_only` reads. -/
inductive CommentState
  | code
  | line
  | block

/-- `_is_comment_only`. -/
def isCommentOnly : CommentState → List Char → Bool
  | .code, [] => true
  | .code, '-' :: '-' :: rest => isCommentOnly .line rest
  | .code, '/' :: '*' :: rest => isCommentOnly .block rest
  | .code, c :: rest => if isPythonSpace c then isCommentOnly .code rest else false
  | .line, [] => true
  | .line, c :: rest => if c = '\n' then isCommentOnly .code rest else isCommentOnly .line rest
  | .block, [] => false
  | .block, '*' :: '/' :: rest => isCommentOnly .code rest
  | .block, _ :: rest => isCommentOnly .block rest

/-- What `_iter_sql_statements` yields from a buffer on, and what is left in the buffer at the end;
`complete` is `sqlite3.complete_statement`. -/
def splitStatements (complete : String → Bool) (buffer : List Char) :
    List Char → List String × List Char
  | [] => ([], buffer)
  | c :: rest =>
      let candidate := buffer ++ [c]
      if c = ';' ∧ complete (String.ofList candidate) = true then
        let statement := String.ofList (stripChars candidate)
        let (statements, remainder) := splitStatements complete [] rest
        (if statement = "" then statements else statement :: statements, remainder)
      else splitStatements complete candidate rest

/-- `_iter_sql_statements` ends without an error. -/
def remainderOk (remainder : List Char) : Bool :=
  stripChars remainder = [] || isCommentOnly .code (stripChars remainder)

/-! ## Databases -/

/-- A row of `schema_migrations`. -/
structure LedgerRow where
  version : Int
  name : String
  checksum : String
  appliedAt : String

/-- The `CHECK`s of `schema_migrations`. -/
def LedgerRow.Check (row : LedgerRow) : Prop :=
  1 ≤ row.version ∧ trimNonEmpty row.name = true ∧ isSha256Hexdigest row.checksum = true ∧
    trimNonEmpty row.appliedAt = true

instance (row : LedgerRow) : Decidable row.Check :=
  inferInstanceAs (Decidable (_ ∧ _))

/-- Rows in the order of their versions. -/
def versionLe (row other : LedgerRow) : Prop :=
  row.version ≤ other.version

instance : DecidableRel versionLe :=
  fun row other => inferInstanceAs (Decidable (row.version ≤ other.version))

instance : Std.Total versionLe :=
  ⟨fun row other => Int.le_total row.version other.version⟩

instance : IsTrans LedgerRow versionLe :=
  ⟨fun _ _ _ h h' => Int.le_trans h h'⟩

/-- The table `schema_migrations`: its rows in the order of their versions, whether it has the columns that
are read and written, and whether it declares the keys and checks of `_MIGRATION_LEDGER_SQL`. -/
structure Ledger where
  rows : List LedgerRow
  columns : Bool
  declared : Bool
  sorted : rows.Pairwise versionLe

/-- What a statement sees and changes: the ledger, `user_version` and the rest. -/
structure Tables (Rest : Type) where
  ledger : Option Ledger
  userVersion : Int
  rest : Rest

/-- A database, with the statements of migrations that were executed on it. -/
structure Database (Rest : Type) extends Tables Rest where
  executed : List String

/-- `sqlite3.complete_statement`, whether the JSON functions work as expected, and what a statement does
unless SQLite refuses it. -/
class Engine (Rest : Type) where
  completeStatement : String → Bool
  jsonFunctions : Bool
  execute : String → Tables Rest → Option (Tables Rest)

variable {Rest : Type}

/-- `CREATE TABLE IF NOT EXISTS schema_migrations`. -/
def createLedger (db : Database Rest) : Database Rest :=
  match db.ledger with
  | some _ => db
  | none => { db with ledger := some ⟨[], true, true, .nil⟩ }

/-- The rows of the ledger. -/
def ledgerRows (db : Database Rest) : Except Failure (List LedgerRow) :=
  match db.ledger with
  | some ledger => if ledger.columns = true then .ok ledger.rows else .error .sqlite
  | none => .error .sqlite

/-- A ledger accepts a row that breaks none of the constraints that it declares. -/
def Ledger.Accepts (ledger : Ledger) (row : LedgerRow) : Prop :=
  ledger.columns = true ∧ (ledger.declared = true → row.Check ∧
    ∀ other ∈ ledger.rows, other.version ≠ row.version ∧ other.name ≠ row.name)

instance (ledger : Ledger) (row : LedgerRow) : Decidable (ledger.Accepts row) :=
  inferInstanceAs (Decidable (_ ∧ _))

/-- The ledger with one more row. -/
def Ledger.insert (ledger : Ledger) (row : LedgerRow) : Ledger :=
  { ledger with
    rows := ledger.rows.orderedInsert versionLe row
    sorted := ledger.sorted.orderedInsert row _ }

/-- `INSERT INTO schema_migrations`. -/
def insertRow (row : LedgerRow) (db : Database Rest) : Except Failure (Database Rest) :=
  match db.ledger with
  | some ledger =>
      if ledger.Accepts row then .ok { db with ledger := some (ledger.insert row) } else .error .sqlite
  | none => .error .sqlite

/-- `PRAGMA user_version = version`. -/
def setUserVersion (version : Nat) (db : Database Rest) : Database Rest :=
  { db with userVersion := version }

/-- One statement of a migration. -/
def executeStatement [Engine Rest] (statement : String) (db : Database Rest) :
    Except Failure (Database Rest) :=
  match Engine.execute statement db.toTables with
  | some tables => .ok { tables with executed := db.executed ++ [statement] }
  | none => .error .sqlite

/-! ## One transaction of the migrator -/

variable [Engine Rest]

/-- The statements of a migration. -/
def Migration.statements (Rest : Type) [Engine Rest] (migration : Migration) : List String :=
  (splitStatements (Engine.completeStatement Rest) [] migration.sql.toList).1

/-- The script of a migration ends with a statement or a comment. -/
def Migration.ends (Rest : Type) [Engine Rest] (migration : Migration) : Bool :=
  remainderOk (splitStatements (Engine.completeStatement Rest) [] migration.sql.toList).2

/-- An `sqlite3.Error`. -/
def isSqliteError : Raised Failure → Bool
  | .failure .sqlite => true
  | .failure _ => false
  | .outage _ => true
  | .operational => true

/-- `except sqlite3.Error as error: raise MigrationApplyError(message) from error`. -/
def asApplyError (message : String) (raised : Raised Failure) : Raised Failure :=
  if isSqliteError raised then .failure (.apply message) else raised

section Body

variable (outages : Outages)

/-- `_check_sqlite_capabilities`. -/
def checkSqliteCapabilities : Session Failure (Database Rest) Unit := do
  reraise (asApplyError "required SQLite JSON functions are unavailable")
    (read outages fun _ => .ok ())
  lift (require (Engine.jsonFunctions Rest = true)
    (.apply "required SQLite JSON functions returned incompatible results"))

/-- The name of the first migration in earlier releases. -/
def legacyV1Name : String := "initial_v1_schema"

/-- The checks of `_validate_ledger` on the rows, which are no more than the migrations. -/
def validateRows [Hashlib] : List Migration → List LedgerRow → Except Failure Unit
  | _, [] => .ok ()
  | [], _ :: _ => .error (.checksum "database contains migrations unknown to this package")
  | expected :: migrations, row :: rows => do
      require (row.version = expected.version)
        (.checksum "applied migration ledger is not a contiguous plan prefix")
      let legacyV1Alias := expected.version = 1 ∧ row.name = legacyV1Name ∧
        row.checksum = expected.checksum
      require (row.name = expected.name ∨ legacyV1Alias)
        (.checksum ("migration " ++ toString expected.version ++ " name does not match the ledger"))
      require (row.checksum = expected.checksum)
        (.checksum ("migration " ++ toString expected.version ++ " checksum does not match the ledger"))
      validateRows migrations rows

/-- `rows[-1]["version"] if rows else 0`. -/
def durableVersion (rows : List LedgerRow) : Int :=
  (rows.getLast?.map LedgerRow.version).getD 0

/-- `_validate_ledger`. -/
def validateLedger [Hashlib] (plan : Plan) : Session Failure (Database Rest) Nat := do
  let rows ← read outages ledgerRows
  lift (require (rows.length ≤ plan.migrations.length)
    (.checksum "database contains migrations unknown to this package"))
  lift (validateRows plan.migrations rows)
  let userVersion ← read outages fun db => .ok db.userVersion
  lift (require (userVersion = durableVersion rows)
    (.checksum "SQLite user_version does not match the migration ledger"))
  pure rows.length

/-- The loop over the statements of a script. -/
def executeStatements : List String → Session Failure (Database Rest) Unit
  | [] => pure ()
  | statement :: statements => do
      write outages (executeStatement statement)
      executeStatements statements

/-- The row that records a migration; `utcNow` is the time at which it is recorded. -/
def Migration.row [Hashlib] (migration : Migration) (utcNow : String) : LedgerRow where
  version := migration.version
  name := migration.name
  checksum := migration.checksum
  appliedAt := utcNow

/-- `_apply_one`. -/
def applyOne [Hashlib] (utcNow : Nat → String) (migration : Migration) :
    Session Failure (Database Rest) Unit :=
  reraise (asApplyError ("migration " ++ toString migration.version ++ " (" ++ migration.name ++
      ") failed")) do
    executeStatements outages (migration.statements Rest)
    lift (require (migration.ends Rest = true)
      (.plan "migration SQL contains an incomplete statement"))
    write outages (insertRow (migration.row (utcNow migration.version)))
    write outages fun db => .ok (setUserVersion migration.version db)

/-- The loop over the pending migrations, from the number of those that are applied on. -/
def applyPending [Hashlib] (utcNow : Nat → String) (includeKeyed : Bool) :
    Nat → List Migration → Session Failure (Database Rest) Nat
  | appliedCount, [] => pure appliedCount
  | appliedCount, migration :: pending =>
      if migration.requiresCodec = true then
        if includeKeyed = true then
          lift (.error (.plan "keyed migrations require the storage-security runner"))
        else pure appliedCount
      else do
        applyOne outages utcNow migration
        applyPending utcNow includeKeyed (appliedCount + 1) pending

/-- `self._migrations[applied_count - 1].version if applied_count else 0`. -/
def Plan.version (plan : Plan) (appliedCount : Nat) : Nat :=
  ((plan.migrations.take appliedCount).getLast?.map Migration.version).getD 0

/-- The body of the transaction of `_migrate_once`. -/
def migrateBody [Hashlib] (plan : Plan) (utcNow : Nat → String) (includeKeyed : Bool) :
    Session Failure (Database Rest) Nat := do
  checkSqliteCapabilities outages
  write outages fun db => .ok (createLedger db)
  let appliedCount ← validateLedger outages plan
  let appliedCount ← applyPending outages utcNow includeKeyed appliedCount
    (plan.migrations.drop appliedCount)
  pure (plan.version appliedCount)

end Body

/-! ## The migrator -/

/-- `_BUSY_RETRY_ATTEMPTS`. -/
def busyRetryAttempts : Nat := 4

/-- `_migrate_once`. -/
def migrateOnce [Hashlib] (world : Nat → Circumstances Failure) (plan : Plan) (utcNow : Nat → String)
    (includeKeyed : Bool) : Process Failure (Database Rest) Nat :=
  connect world fun outages => transaction outages (migrateBody outages plan utcNow includeKeyed)

/-- The attempts of `migrate` that are left. -/
def migrateAttempts [Hashlib] (world : Nat → Circumstances Failure) (plan : Plan)
    (utcNow : Nat → String) (includeKeyed : Bool) : Nat → Process Failure (Database Rest) Nat
  | 0 => fun host => .error (.failure .assertion) host
  | attempts + 1 => fun host =>
      match migrateOnce world plan utcNow includeKeyed host with
      | .ok version host' => .ok version host'
      | .error raised host' =>
          if isSqliteError raised = true then
            if (world host.opened).busy = true ∧ attempts ≠ 0 then
              migrateAttempts world plan utcNow includeKeyed attempts host'
            else .error (.failure (.apply "SQLite migration initialization failed")) host'
          else .error raised host'

/-- `SQLiteMigrator.migrate`. -/
def migrate [Hashlib] (world : Nat → Circumstances Failure) (plan : Plan) (utcNow : Nat → String)
    (includeKeyed : Bool) : Process Failure (Database Rest) Nat :=
  migrateAttempts world plan utcNow includeKeyed busyRetryAttempts

end Migrations

end AstrContinuum
