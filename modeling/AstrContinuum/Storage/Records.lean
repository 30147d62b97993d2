import Mathlib.Data.String.Basic
import AstrContinuum.Relational.Paging
import AstrContinuum.Storage.Activation

/-!
# The tables of a store

The records that an activation rewrites, as SQLite holds them: named tables of rows, a row as the values of
its columns, and the triggers that refuse updates. Whether SQLite accepts the rows of a table, executes any
other statement of a schema and finds the foreign keys in order is a parameter (`SqlEngine`). No column holds
a blob, and the hidden `rowid` is a column like others.
-/

namespace AstrContinuum

namespace Records

open Checked Relational Migrations Crypto

/-- A value of a column; a real number is known by its `repr`. -/
inductive SqlValue
  | null
  | integer (value : Int)
  | real (repr : String)
  | text (value : String)
deriving DecidableEq

/-- `str(value)`. -/
def SqlValue.str : SqlValue → String
  | .null => "None"
  | .integer value => toString value
  | .real repr => repr
  | .text value => value

/-- `sqlite3.Row`: the values of the columns. -/
abbrev Row := String → SqlValue

/-- A table, with the statement that created it and so declares its constraints. -/
structure Table where
  definition : String
  rows : List Row

/-- The tables by their names, and the triggers that refuse an update with their tables. -/
structure Store where
  tables : String → Option Table
  updateTriggers : List (String × String)

/-- What is left to SQLite and to the environment: whether the constraints of a table accept its rows, whether
another statement of the schema is executed, `PRAGMA foreign_key_check`, `_validate_legacy_rows`, and the nonce
that is drawn for a cell. -/
class SqlEngine where
  accepts (definition : String) (rows : List Row) : Bool
  executes (statement : String) (store : Store) : Bool
  foreignKeysHold (store : Store) : Bool
  validateLegacyRows (store : Store) : Except Failure Unit
  nonce (settings : Settings) (table column recordKey : String) : Nonce

/-- The rows of a table; none where there is no table. -/
def Store.rows (store : Store) (name : String) : List Row :=
  ((store.tables name).map Table.rows).getD []

/-- The store with another table under a name. -/
def Store.setTable (store : Store) (name : String) (table : Option Table) : Store :=
  { store with tables := Function.update store.tables name table }

/-! ## Statements -/

/-- The table of a statement, which must exist. -/
def lookup (name : String) (store : Store) : Except Failure Table :=
  orMissing (store.tables name) .sqlite

/-- `CREATE TABLE`. -/
def createTable (name definition : String) (store : Store) : Except Failure Store := do
  require (store.tables name = none) .sqlite
  pure (store.setTable name (some ⟨definition, []⟩))

/-- `DROP TABLE`, with the triggers of the table. -/
def dropTable (name : String) (store : Store) : Except Failure Store := do
  let _ ← lookup name store
  pure { store.setTable name none with
    updateTriggers := store.updateTriggers.filter fun trigger => trigger.2 ≠ name }

/-- `ALTER TABLE ... RENAME TO`, with the triggers of the table. -/
def renameTable (name newName : String) (store : Store) : Except Failure Store := do
  let table ← lookup name store
  require (store.tables newName = none) .sqlite
  pure { (store.setTable name none).setTable newName (some table) with
    updateTriggers := store.updateTriggers.map fun trigger =>
      (trigger.1, if trigger.2 = name then newName else trigger.2) }

/-- `CREATE TRIGGER ... BEFORE UPDATE` of a trigger that refuses the update. -/
def createUpdateTrigger (trigger table : String) (store : Store) : Except Failure Store := do
  let _ ← lookup table store
  require (trigger ∉ store.updateTriggers.map Prod.fst) .sqlite
  pure { store with updateTriggers := (trigger, table) :: store.updateTriggers }

/-- `DROP TRIGGER`. -/
def dropUpdateTrigger (trigger : String) (store : Store) : Except Failure Store := do
  require (trigger ∈ store.updateTriggers.map Prod.fst) .sqlite
  pure { store with updateTriggers := store.updateTriggers.filter fun other => other.1 ≠ trigger }

section Engine

variable [SqlEngine]

/-- A statement that creates an index, or a trigger that concerns no update. -/
def executeOther (statement : String) (store : Store) : Except Failure Store := do
  require (SqlEngine.executes statement store = true) .sqlite
  pure store

/-- `INSERT INTO`, into a table with a primary key. -/
def insertInto (name primaryKey : String) (row : Row) (store : Store) : Except Failure Store := do
  let table ← lookup name store
  require (∀ other ∈ table.rows, other primaryKey ≠ row primaryKey) .sqlite
  require (SqlEngine.accepts table.definition (table.rows ++ [row]) = true) .sqlite
  pure (store.setTable name (some { table with rows := table.rows ++ [row] }))

/-- `UPDATE ... SET ... WHERE`. -/
def updateWhere (name : String) (selected : Row → Bool) (change : Row → Row) (store : Store) :
    Except Failure Store := do
  let table ← lookup name store
  -- the trigger fires for each row that is updated
  require (∀ row ∈ table.rows, selected row = true → name ∉ store.updateTriggers.map Prod.snd) .sqlite
  let rows := update selected change table.rows
  require (SqlEngine.accepts table.definition rows = true) .sqlite
  pure (store.setTable name (some { table with rows }))

/-- `PRAGMA foreign_key_check` finds nothing. -/
def checkForeignKeys (code : SecurityErrorCode) (store : Store) : Except Failure Unit :=
  require (SqlEngine.foreignKeysHold store = true) (.security code)

end Engine

/-- `SELECT ... WHERE`, with `fetchone()`, whose result is used. -/
def selectOne (name : String) (selected : Row → Bool) (missing : Failure) (store : Store) :
    Except Failure Row := do
  let table ← lookup name store
  orMissing (table.rows.find? selected) missing

/-- `SELECT count(*)` of tables. -/
def countRows (names : List String) (store : Store) : Except Failure (List (String × Nat)) :=
  names.mapM fun name => do
    let table ← lookup name store
    pure (name, table.rows.length)

/-- The tables have as many rows as were counted. -/
def verifyCounts (code : SecurityErrorCode) (counts : List (String × Nat)) (store : Store) :
    Except Failure Unit :=
  forEach (fun _ count => do
    let table ← lookup count.1 store
    require (table.rows.length = count.2) (.security code)) () counts

/-! ## Batches -/

/-- The key of a row in a table whose key is a text. -/
def textKey (primaryKey : String) (row : Row) : String :=
  (row primaryKey).str

/-- The `rowid` of a row. -/
def rowId (row : Row) : Int :=
  match row "rowid" with
  | .integer value => value
  | _ => 0

/-- The loop over `_batched_rows`; without a result when it does not end. -/
def batchedRows (name primaryKey : String) (body : Store → Row → Except Failure Store) (store : Store) :
    Option (Except Failure Store) :=
  match store.tables name with
  | none => some (.error .sqlite)
  | some table =>
      paged (textKey primaryKey) 128 (fun s => s.rows name) body (table.rows.length + 1) "" store

/-- The loop over `_batched_token_metrics`; without a result when it does not end. -/
def batchedTokenMetrics (body : Store → Row → Except Failure Store) (store : Store) :
    Option (Except Failure Store) :=
  match store.tables "token_metrics" with
  | none => some (.error .sqlite)
  | some table =>
      paged rowId 128 (fun s => s.rows "token_metrics") body (table.rows.length + 1) 0 store

/-- A loop that does not end does not return. -/
def returned (loop : Option (Except Failure Store)) : Except Failure Store :=
  loop.getD (.error .system)

/-- The columns of a primary key, and the rows that differ in it. -/
structure KeyedRows (primaryKey : String) (rows : List Row) : Prop where
  texts : ∀ row ∈ rows, row primaryKey = .text (textKey primaryKey row)
  nonEmpty : ∀ row ∈ rows, textKey primaryKey row ≠ ""
  unique : UniqueKey (textKey primaryKey) rows

end Records

end AstrContinuum
