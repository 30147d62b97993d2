import AstrContinuum.Storage.Reencryption

/-!
# What a conversion does to a table

`Converts` compares a row before and after: the primary key and the columns that are kept are the same, and
every protected cell says after the conversion what it said before. A loop that rewrites a table converts its
rows in place (`rewriteTable_converts`); one that copies a table converts its rows into the new one
(`copyTable_converts`). Neither touches another table.
-/

namespace AstrContinuum

namespace Records

open Checked Relational Migrations Crypto

/-! ## Statements -/

/-- A table that is found. -/
theorem lookup_ok {name : String} {store : Store} {table : Table} :
    lookup name store = .ok table ↔ store.tables name = some table :=
  orMissing_ok

/-- The rows of a table that exists. -/
theorem rows_eq {store : Store} {name : String} {table : Table} (h : store.tables name = some table) :
    store.rows name = table.rows := by
  unfold Store.rows
  rw [h]
  rfl

/-- A table that is set is read back. -/
@[simp] theorem setTable_self (store : Store) (name : String) (table : Option Table) :
    (store.setTable name table).tables name = table := by
  unfold Store.setTable
  exact Function.update_self name table store.tables

/-- Other tables stay. -/
theorem setTable_of_ne {store : Store} {name other : String} {table : Option Table} (h : other ≠ name) :
    (store.setTable name table).tables other = store.tables other := by
  unfold Store.setTable
  exact Function.update_of_ne h table store.tables

/-- So do the triggers. -/
@[simp] theorem setTable_updateTriggers (store : Store) (name : String) (table : Option Table) :
    (store.setTable name table).updateTriggers = store.updateTriggers :=
  rfl

/-- Tables that agree but for one name. -/
theorem eq_update {tables tables' : String → Option Table} {name : String} {table : Option Table}
    (h : tables' name = table) (hothers : ∀ other, other ≠ name → tables' other = tables other) :
    tables' = Function.update tables name table := by
  funext other
  by_cases hname : other = name
  · rw [hname, Function.update_self, h]
  · rw [Function.update_of_ne hname, hothers other hname]

/-- What is selected is a row of the table. -/
theorem selectOne_ok {name : String} {selected : Row → Bool} {missing : Failure} {store : Store} {row : Row} :
    selectOne name selected missing store = .ok row ↔
      ∃ table, store.tables name = some table ∧ table.rows.find? selected = some row := by
  simp only [selectOne, bind_ok, lookup_ok, orMissing_ok]

/-- A loop over checks passes when all of them do. -/
theorem forEach_check {α : Type} {check : α → Except Failure Unit} {items : List α} {result : Unit}
    (h : forEach (fun _ item => check item) () items = .ok result) : ∀ item ∈ items, check item = .ok () := by
  induction items with
  | nil => exact fun item hitem => absurd hitem List.not_mem_nil
  | cons item rest ih =>
      obtain ⟨_, hfirst, hrest⟩ := bind_ok.mp h
      intro other hother
      rcases List.mem_cons.mp hother with rfl | hlater
      · exact hfirst
      · exact ih hrest other hlater

section Engine

variable [SqlEngine]

/-- What an update does. -/
theorem updateWhere_ok {name : String} {selected : Row → Bool} {change : Row → Row} {store store' : Store}
    (h : updateWhere name selected change store = .ok store') :
    ∃ table, store.tables name = some table ∧
      store' = store.setTable name (some { table with rows := update selected change table.rows }) := by
  obtain ⟨table, htable, h⟩ := bind_ok.mp h
  obtain ⟨_, -, h⟩ := bind_ok.mp h
  obtain ⟨_, -, h⟩ := bind_ok.mp h
  exact ⟨table, lookup_ok.mp htable, (pure_ok.mp h).symm⟩

/-- What an insert does. -/
theorem insertInto_ok {name primaryKey : String} {row : Row} {store store' : Store}
    (h : insertInto name primaryKey row store = .ok store') :
    ∃ table, store.tables name = some table ∧ (∀ other ∈ table.rows, other primaryKey ≠ row primaryKey) ∧
      store' = store.setTable name (some { table with rows := table.rows ++ [row] }) := by
  obtain ⟨table, htable, h⟩ := bind_ok.mp h
  obtain ⟨_, hkey, h⟩ := bind_ok.mp h
  obtain ⟨_, -, h⟩ := bind_ok.mp h
  exact ⟨table, lookup_ok.mp htable, require_ok.mp hkey, (pure_ok.mp h).symm⟩

end Engine

/-! ## Keys -/

/-- The rows with the key of a row have the same text as key. -/
theorem hasKey_iff {primaryKey : String} {row other : Row}
    (h : other primaryKey = .text (textKey primaryKey other)) :
    hasKey primaryKey (textKey primaryKey row) other = decide (textKey primaryKey other = textKey primaryKey row) := by
  unfold hasKey
  rw [h]
  by_cases hsame : textKey primaryKey other = textKey primaryKey row
  · rw [hsame]
    simp
  · simp [hsame]

/-- A table with the same keys is keyed as well. -/
theorem KeyedRows.of_keys {primaryKey : String} {rows rows' : List Row} (h : KeyedRows primaryKey rows)
    (hkeys : (rows'.map fun row => row primaryKey) = rows.map fun row => row primaryKey) :
    KeyedRows primaryKey rows' := by
  have hsame : ∀ row' ∈ rows', ∃ row ∈ rows, row primaryKey = row' primaryKey := fun row' hrow' =>
    List.mem_map.mp (hkeys ▸ List.mem_map_of_mem (f := fun row : Row => row primaryKey) hrow')
  have htexts : rows'.map (textKey primaryKey) = rows.map (textKey primaryKey) := by
    have h' := congrArg (List.map SqlValue.str) hkeys
    rw [List.map_map, List.map_map] at h'
    exact h'
  refine ⟨fun row' hrow' => ?_, fun row' hrow' => ?_, ?_⟩
  · obtain ⟨row, hrow, hkey⟩ := hsame row' hrow'
    unfold textKey
    rw [← hkey]
    exact h.texts row hrow
  · obtain ⟨row, hrow, hkey⟩ := hsame row' hrow'
    unfold textKey
    rw [← hkey]
    exact h.nonEmpty row hrow
  · unfold UniqueKey
    rw [htexts]
    exact h.unique

/-- The order of the rows does not matter. -/
theorem KeyedRows.perm {primaryKey : String} {rows rows' : List Row} (h : KeyedRows primaryKey rows)
    (hperm : rows'.Perm rows) : KeyedRows primaryKey rows' :=
  ⟨fun row hrow => h.texts row (hperm.mem_iff.mp hrow), fun row hrow => h.nonEmpty row (hperm.mem_iff.mp hrow),
    (hperm.map _).nodup_iff.mpr h.unique⟩

/-- The empty text is before every key. -/
theorem KeyedRows.behind_empty {primaryKey : String} {rows : List Row} (h : KeyedRows primaryKey rows) :
    ∀ row ∈ rows, "" < textKey primaryKey row := by
  intro row hrow
  refine lt_of_le_of_ne ?_ (h.nonEmpty row hrow).symm
  exact not_lt.mp fun hlt => absurd (String.lt_iff_toList_lt.mp hlt) (List.not_lt_nil _)

/-- The row that a lookup by its key finds. -/
theorem KeyedRows.find_eq {primaryKey : String} {rows : List Row} (h : KeyedRows primaryKey rows) {row : Row}
    (hrow : row ∈ rows) : rows.find? (hasKey primaryKey (textKey primaryKey row)) = some row := by
  refine h.unique.find_select hrow (decide_eq_true (h.texts row hrow)) fun other hother => ?_
  unfold textKey
  rw [of_decide_eq_true hother]
  rfl

/-! ## Conversions -/

/-- The columns that no protected cell is stored in. -/
def Conversion.Others (conversion : Conversion) (column : String) : Prop :=
  ∀ cell ∈ conversion.cells, cell.stored ≠ column

instance (conversion : Conversion) (column : String) : Decidable (conversion.Others column) :=
  inferInstanceAs (Decidable (∀ cell ∈ conversion.cells, cell.stored ≠ column))

section Conversions

variable [Primitives]

/-- A row is converted: its key and the kept columns stay, and every protected cell says what it said. -/
structure Converts (before after : Encryption) (conversion : Conversion) (kept : String → Prop)
    (row row' : Row) : Prop where
  key : row' conversion.primaryKey = row conversion.primaryKey
  cells : ∀ cell ∈ conversion.cells, ∃ plaintext,
    readCell before conversion.table (textKey conversion.primaryKey row) cell row = .ok plaintext ∧
      readCell after conversion.table (textKey conversion.primaryKey row') cell row' = .ok plaintext
  columns : ∀ column, kept column → row' column = row column

/-- A table is converted: its rows, in some order, are converted one by one. -/
def ConvertsTable (before after : Encryption) (conversion : Conversion) (kept : String → Prop)
    (table table' : Table) : Prop :=
  ∃ order : List Row, order.Perm table.rows ∧
    List.Forall₂ (Converts before after conversion kept) order table'.rows

/-- After a conversion the cells are read as they are decrypted. -/
def Conversion.StoredAs (conversion : Conversion) (after : Encryption) (target : Crypto.SecureCodec) : Prop :=
  ∀ cell ∈ conversion.cells, ∀ recordKey row,
    readCell after conversion.table recordKey cell row =
      openCell target conversion.table recordKey cell (row cell.stored)

variable {before after : Encryption} {target : Crypto.SecureCodec}

/-- A converted table is keyed as the table was. -/
theorem ConvertsTable.keyed {conversion : Conversion} {kept : String → Prop} {table table' : Table}
    (h : ConvertsTable before after conversion kept table table')
    (hkeyed : KeyedRows conversion.primaryKey table.rows) : KeyedRows conversion.primaryKey table'.rows := by
  obtain ⟨order, hperm, hrows⟩ := h
  have hkeys : List.Forall₂ Eq (table'.rows.map fun row => row conversion.primaryKey)
      (order.map fun row => row conversion.primaryKey) :=
    List.forall₂_map_left_iff.mpr (List.forall₂_map_right_iff.mpr (hrows.imp fun _ _ h => h.key).flip)
  exact (hkeyed.perm hperm).of_keys (List.forall₂_eq_eq_eq ▸ hkeys)

variable [SqlEngine] {settings : Settings}

/-- The cells of a row, as they are read. -/
theorem sealCells_ok {conversion : Conversion} {row : Row} {cells : List Sealed}
    (h : sealCells settings conversion before target row = .ok cells) :
    List.Forall₂ (fun cell s => s.cell = cell ∧
      readCell before conversion.table (textKey conversion.primaryKey row) cell row = .ok s.plaintext)
      conversion.cells cells := by
  refine (mapM_ok.mp h).imp fun cell s hs => ?_
  obtain ⟨plaintext, hread, hs⟩ := bind_ok.mp hs
  obtain ⟨value, -, hs⟩ := bind_ok.mp hs
  obtain rfl := pure_ok.mp hs
  exact ⟨rfl, hread⟩

/-- Nothing is stored in other columns. -/
theorem storedValue_others {conversion : Conversion} {row : Row} {cells : List Sealed}
    (h : sealCells settings conversion before target row = .ok cells) {column : String}
    (hcolumn : conversion.Others column) : storedValue cells column = none := by
  unfold storedValue
  rw [Option.map_eq_none_iff, List.find?_eq_none]
  intro s hs
  obtain ⟨cell, hcell, hsame, -⟩ := exists_of_forall₂ (sealCells_ok h) hs
  rw [decide_eq_true_eq, hsame]
  exact hcolumn cell hcell

/-- What is verified is what the cells said. -/
theorem converts_cells {conversion : Conversion} {row stored : Row} {cells : List Sealed} {result : Unit}
    (hstored : conversion.StoredAs after target)
    (hcells : sealCells settings conversion before target row = .ok cells)
    (hverify : forEach (fun _ s => verifyCell conversion target (textKey conversion.primaryKey row) stored s) ()
      cells = .ok result) :
    ∀ cell ∈ conversion.cells, ∃ plaintext,
      readCell before conversion.table (textKey conversion.primaryKey row) cell row = .ok plaintext ∧
        readCell after conversion.table (textKey conversion.primaryKey row) cell stored = .ok plaintext := by
  intro cell hcell
  obtain ⟨s, hs, hsame, hread⟩ := exists_of_forall₂ (sealCells_ok hcells).flip hcell
  refine ⟨s.plaintext, hread, ?_⟩
  obtain ⟨plaintext, hopen, hrequire⟩ := bind_ok.mp (forEach_check hverify s hs)
  obtain rfl := require_ok.mp hrequire
  rw [hstored cell hcell, ← hsame]
  exact hopen

/-! ## Rewriting in place -/

/-- What the rewriting of a row does. -/
theorem rewriteRow_ok {conversion : Conversion} {store store' : Store} {table : Table} {row : Row}
    (hstored : conversion.StoredAs after target) (htable : store.tables conversion.table = some table)
    (hkeyed : KeyedRows conversion.primaryKey table.rows) (hrow : row ∈ table.rows)
    (h : rewriteRow settings conversion before target store row = .ok store') :
    ∃ cells, sealCells settings conversion before target row = .ok cells ∧
      store' = store.setTable conversion.table (some { table with
        rows := update (hasKey conversion.primaryKey (textKey conversion.primaryKey row)) (setCells cells)
          table.rows }) ∧
      Converts before after conversion conversion.Others row (setCells cells row) := by
  obtain ⟨cells, hcells, h⟩ := bind_ok.mp h
  obtain ⟨next, hupdate, h⟩ := bind_ok.mp h
  obtain ⟨stored, hselect, h⟩ := bind_ok.mp h
  obtain ⟨_, hverify, h⟩ := bind_ok.mp h
  obtain rfl := pure_ok.mp h
  obtain ⟨found, hfound, rfl⟩ := updateWhere_ok hupdate
  obtain rfl := Option.some.inj (htable.symm.trans hfound)
  have hothers (column : String) (hcolumn : conversion.Others column) (other : Row) :
      setCells cells other column = other column := by
    unfold setCells
    rw [storedValue_others hcells hcolumn]
    rfl
  have hkey := hothers conversion.primaryKey conversion.key_ok
  refine ⟨cells, hcells, rfl, hkey row, ?_, fun column hcolumn => hothers column hcolumn row⟩
  -- the row that is read back is the changed row
  have hchanged : setCells cells row ∈
      update (hasKey conversion.primaryKey (textKey conversion.primaryKey row)) (setCells cells) table.rows :=
    mem_update.mpr (.inl ⟨row, hrow, decide_eq_true (hkeyed.texts row hrow), rfl⟩)
  have hkeyed' : KeyedRows conversion.primaryKey (update (hasKey conversion.primaryKey
      (textKey conversion.primaryKey row)) (setCells cells) table.rows) :=
    hkeyed.of_keys (map_update _ _ fun other _ => hkey other)
  have hsame : textKey conversion.primaryKey (setCells cells row) = textKey conversion.primaryKey row :=
    congrArg SqlValue.str (hkey row)
  obtain ⟨final, hfinal, hfind⟩ := selectOne_ok.mp hselect
  rw [setTable_self] at hfinal
  obtain rfl := Option.some.inj hfinal
  have hread := hkeyed'.find_eq hchanged
  rw [hsame] at hread
  obtain rfl := Option.some.inj (hread.symm.trans hfind)
  rw [hsame]
  exact converts_cells hstored hcells hverify

/-- The states of a loop over a table that writes a table. -/
structure Running (conversion : Conversion) (written : String) (base store : Store) : Prop where
  table : ∃ table, store.tables conversion.table = some table ∧ KeyedRows conversion.primaryKey table.rows
  others : ∀ name, name ≠ written → store.tables name = base.tables name
  updateTriggers : store.updateTriggers = base.updateTriggers

omit [Primitives] [SqlEngine] in
/-- In these states the keys are unique. -/
theorem Running.unique {conversion : Conversion} {written : String} {base store : Store}
    (h : Running conversion written base store) :
    UniqueKey (textKey conversion.primaryKey) (store.rows conversion.table) := by
  obtain ⟨⟨table, htable, hkeyed⟩, -, -⟩ := h
  rw [rows_eq htable]
  exact hkeyed.unique

omit [Primitives] [SqlEngine] in
/-- A loop that changes a table row by row ends, and is one pass over the rows in the order of their keys. -/
theorem batchedRows_eq {conversion : Conversion} {written : String} {body : Store → Row → Except Failure Store}
    {store : Store} {table : Table} (htable : store.tables conversion.table = some table)
    (hkeyed : KeyedRows conversion.primaryKey table.rows)
    (h : RowWise (textKey conversion.primaryKey) (fun s => s.rows conversion.table) body
      (Running conversion written store)) :
    batchedRows conversion.table conversion.primaryKey body store =
      some (forEach body store (orderBy (textKey conversion.primaryKey) table.rows)) := by
  have hall : table.rows.filter (fun row => decide ("" < textKey conversion.primaryKey row)) = table.rows :=
    List.filter_eq_self.mpr fun row hrow => decide_eq_true (hkeyed.behind_empty row hrow)
  have hbehind : Relational.behind (textKey conversion.primaryKey) "" (store.rows conversion.table) =
      orderBy (textKey conversion.primaryKey) table.rows := by
    rw [rows_eq htable, Relational.behind, hall]
  unfold batchedRows
  rw [htable]
  show paged _ _ _ _ _ _ _ = _
  rw [paged_eq h (Nat.succ_pos 127) ⟨⟨table, htable, hkeyed⟩, fun _ _ => rfl, rfl⟩, hbehind]
  show (Relational.behind _ _ (store.rows conversion.table)).length < _
  rw [hbehind, (orderBy_perm _ _).length_eq]
  exact Nat.lt_succ_self _

variable (before settings)

/-- The loop that rewrites a table changes it row by row. -/
theorem rewriteRow_rowWise {conversion : Conversion} (hstored : conversion.StoredAs after target) (base : Store) :
    RowWise (textKey conversion.primaryKey) (fun s => s.rows conversion.table)
      (rewriteRow settings conversion before target) (Running conversion conversion.table base) := by
  have hstep {store : Store} {row : Row} {store' : Store} (hrunning : Running conversion conversion.table base store)
      (hrow : row ∈ store.rows conversion.table)
      (h : rewriteRow settings conversion before target store row = .ok store') :
      Running conversion conversion.table base store' ∧ ChangesOne (textKey conversion.primaryKey) row
        (store.rows conversion.table) (store'.rows conversion.table) := by
    obtain ⟨⟨table, htable, hkeyed⟩, hothers, htriggers⟩ := hrunning
    rw [rows_eq htable] at hrow ⊢
    obtain ⟨cells, hcells, rfl, -⟩ := rewriteRow_ok hstored htable hkeyed hrow h
    have hkey (other : Row) : setCells cells other conversion.primaryKey = other conversion.primaryKey := by
      unfold setCells
      rw [storedValue_others hcells conversion.key_ok]
      rfl
    refine ⟨⟨⟨_, setTable_self _ _ _, hkeyed.of_keys (map_update _ _ fun other _ => hkey other)⟩, ?_,
      htriggers⟩, setCells cells, fun other => congrArg SqlValue.str (hkey other), ?_⟩
    · intro name hname
      rw [setTable_of_ne hname]
      exact hothers name hname
    · rw [rows_eq (setTable_self _ _ _)]
      exact update_congr fun other hother => hasKey_iff (hkeyed.texts other hother)
  exact ⟨fun store hrunning => hrunning.unique, fun _ _ _ hrunning hrow h => (hstep hrunning hrow h).1,
    fun _ _ _ hrunning hrow h => (hstep hrunning hrow h).2⟩

/-- A table that is rewritten is converted, and nothing else changes. -/
theorem rewriteTable_converts {conversion : Conversion} (hstored : conversion.StoredAs after target)
    {store store' : Store} {table : Table} (htable : store.tables conversion.table = some table)
    (hkeyed : KeyedRows conversion.primaryKey table.rows)
    (h : rewriteTable settings conversion before target store = .ok store') :
    ∃ table', store'.tables = Function.update store.tables conversion.table (some table') ∧
      ConvertsTable before after conversion conversion.Others table table' ∧
      store'.updateTriggers = store.updateTriggers := by
  have hstart : Running conversion conversion.table store store :=
    ⟨⟨table, htable, hkeyed⟩, fun _ _ => rfl, rfl⟩
  have hrowWise := rewriteRow_rowWise before settings hstored store
  have hrows := rows_eq htable
  unfold rewriteTable at h
  rw [batchedRows_eq htable hkeyed hrowWise] at h
  have hconverts (s : Store) (row : Row) (s' : Store) (hrunning : Running conversion conversion.table store s)
      (hrow : row ∈ s.rows conversion.table)
      (hrun : rewriteRow settings conversion before target s row = .ok s') :
      ∀ changed ∈ s'.rows conversion.table,
        textKey conversion.primaryKey changed = textKey conversion.primaryKey row →
          Converts before after conversion conversion.Others row changed := by
    intro changed hchanged hkey
    obtain ⟨⟨table, htable, hkeyed⟩, -, -⟩ := hrunning
    rw [rows_eq htable] at hrow
    obtain ⟨cells, hcells, rfl, hconverts⟩ := rewriteRow_ok hstored htable hkeyed hrow hrun
    rw [rows_eq (setTable_self _ _ _)] at hchanged
    rcases mem_update.mp hchanged with ⟨old, hold, hselected, rfl⟩ | ⟨hold, hselected⟩
    · rw [hasKey_iff (hkeyed.texts old hold), decide_eq_true_eq] at hselected
      rw [hkeyed.unique.eq_of_key hold hrow hselected]
      exact hconverts
    · rw [hasKey_iff (hkeyed.texts changed hold)] at hselected
      exact absurd hkey (of_decide_eq_false hselected)
  have hincreasing := orderBy_increasing hkeyed.unique
  obtain ⟨⟨⟨table', htable', -⟩, hothers, htriggers⟩, hconverted⟩ :=
    hrowWise.forall₂ hconverts hstart (fun row hrow => by rw [hrows]; exact mem_orderBy.mp hrow) hincreasing h
  rw [hrows, rows_eq htable'] at hconverted
  refine ⟨table', eq_update htable' hothers, ⟨table.rows, .refl _, ?_⟩, htriggers⟩
  exact forall₂_weaken hconverted fun row hrow changed hpair => hpair.1 (mem_orderBy.mpr hrow)

/-! ## Copying -/

variable {before settings}

/-- What the copying of a row does. -/
theorem copyRow_ok {copy : Copy} {store store' : Store} {row : Row}
    (hstored : copy.toConversion.StoredAs after target)
    (hkey : row copy.primaryKey = .text (textKey copy.primaryKey row))
    (h : copyRow settings copy before target store row = .ok store') :
    ∃ table added, store.tables copy.destination = some table ∧
      store' = store.setTable copy.destination (some { table with rows := table.rows ++ [added] }) ∧
      Converts before after copy.toConversion (· ∈ copy.columns) row added := by
  obtain ⟨cells, hcells, h⟩ := bind_ok.mp h
  obtain ⟨next, hinsert, h⟩ := bind_ok.mp h
  obtain ⟨stored, hselect, h⟩ := bind_ok.mp h
  obtain ⟨_, hverify, h⟩ := bind_ok.mp h
  obtain rfl := pure_ok.mp h
  obtain ⟨table, htable, hnew, rfl⟩ := insertInto_ok hinsert
  have hadded : copiedRow copy (textKey copy.primaryKey row) cells row copy.primaryKey =
      .text (textKey copy.primaryKey row) := by
    unfold copiedRow
    rw [storedValue_others hcells copy.key_ok]
    exact if_pos rfl
  refine ⟨table, copiedRow copy (textKey copy.primaryKey row) cells row, htable, rfl, hadded.trans hkey.symm,
    ?_, fun column hcolumn => ?_⟩
  · -- the row that is read back is the new row, as no other has its key
    obtain ⟨final, hfinal, hfind⟩ := selectOne_ok.mp hselect
    rw [setTable_self] at hfinal
    obtain rfl := Option.some.inj hfinal
    have hnone : table.rows.find? (hasKey copy.primaryKey (textKey copy.primaryKey row)) = none := by
      refine List.find?_eq_none.mpr fun other hother hselected => ?_
      exact hnew other hother ((of_decide_eq_true hselected).trans hadded.symm)
    rw [List.find?_append, hnone, Option.none_or, List.find?_singleton] at hfind
    unfold hasKey at hfind
    rw [hadded, if_pos (decide_eq_true rfl)] at hfind
    obtain rfl := Option.some.inj hfind
    have hsame : textKey copy.primaryKey (copiedRow copy (textKey copy.primaryKey row) cells row) =
        textKey copy.primaryKey row := congrArg SqlValue.str (hadded.trans hkey.symm)
    rw [hsame]
    exact converts_cells hstored hcells hverify
  · obtain ⟨hother, hcells'⟩ := copy.columns_ok column hcolumn
    unfold copiedRow
    rw [storedValue_others hcells hcells']
    dsimp only
    rw [if_neg hother, if_pos hcolumn]

variable (before settings)

/-- The loop that copies a table leaves it. -/
theorem copyRow_rowWise {copy : Copy} (base : Store) :
    RowWise (textKey copy.primaryKey) (fun s => s.rows copy.table) (copyRow settings copy before target)
      (Running copy.toConversion copy.destination base) := by
  have hstep {store : Store} {row : Row} {store' : Store}
      (hrunning : Running copy.toConversion copy.destination base store)
      (h : copyRow settings copy before target store row = .ok store') :
      Running copy.toConversion copy.destination base store' ∧
        store'.tables copy.table = store.tables copy.table := by
    obtain ⟨⟨table, htable, hkeyed⟩, hothers, htriggers⟩ := hrunning
    obtain ⟨cells, -, h⟩ := bind_ok.mp h
    obtain ⟨next, hinsert, h⟩ := bind_ok.mp h
    obtain ⟨stored, -, h⟩ := bind_ok.mp h
    obtain ⟨_, -, h⟩ := bind_ok.mp h
    obtain rfl := pure_ok.mp h
    obtain ⟨destination, -, -, rfl⟩ := insertInto_ok hinsert
    have hsource : copy.table ≠ copy.destination := copy.destination_ok.symm
    refine ⟨⟨⟨table, (setTable_of_ne hsource).trans htable, hkeyed⟩, fun name hname => ?_, htriggers⟩,
      setTable_of_ne hsource⟩
    rw [setTable_of_ne hname]
    exact hothers name hname
  refine ⟨fun store hrunning => hrunning.unique, fun _ _ _ hrunning _ h => (hstep hrunning h).1,
    fun store row store' hrunning _ h => ?_⟩
  show ChangesOne _ row (store.rows copy.table) (store'.rows copy.table)
  rw [Store.rows, Store.rows, (hstep hrunning h).2]
  exact .refl _ _

/-- A table that is copied into a new one is converted, and nothing else changes. -/
theorem copyTable_converts {copy : Copy} (hstored : copy.toConversion.StoredAs after target)
    {store store' : Store} {table : Table} {definition : String}
    (htable : store.tables copy.table = some table) (hkeyed : KeyedRows copy.primaryKey table.rows)
    (hnew : store.tables copy.destination = some ⟨definition, []⟩)
    (h : copyTable settings copy before target store = .ok store') :
    ∃ table', store'.tables = Function.update store.tables copy.destination (some table') ∧
      ConvertsTable before after copy.toConversion (· ∈ copy.columns) table table' ∧
      store'.updateTriggers = store.updateTriggers := by
  unfold copyTable at h
  rw [batchedRows_eq htable hkeyed (copyRow_rowWise before settings store)] at h
  have hpass : forEach (copyRow settings copy before target) store
      (orderBy (textKey copy.primaryKey) table.rows) = .ok store' := h
  have htext : ∀ row ∈ orderBy (textKey copy.primaryKey) table.rows,
      row copy.primaryKey = .text (textKey copy.primaryKey row) :=
    fun row hrow => hkeyed.texts row (mem_orderBy.mp hrow)
  have hbody (s : Store) (row : Row) (s' : Store) (hrow : row ∈ orderBy (textKey copy.primaryKey) table.rows)
      (hrun : copyRow settings copy before target s row = .ok s') :
      ∃ added, s'.rows copy.destination = s.rows copy.destination ++ [added] ∧
        Converts before after copy.toConversion (· ∈ copy.columns) row added := by
    obtain ⟨destination, added, hdestination, rfl, hadded⟩ := copyRow_ok hstored (htext row hrow) hrun
    refine ⟨added, ?_, hadded⟩
    rw [rows_eq hdestination, rows_eq (setTable_self _ _ _)]
  obtain ⟨added, hadded, hconverted⟩ := forEach_appends hbody hpass
  have hframe : (∃ table', store'.tables copy.destination = some table') ∧
      (∀ name, name ≠ copy.destination → store'.tables name = store.tables name) ∧
      store'.updateTriggers = store.updateTriggers := by
    refine forEach_invariant (fun s => (∃ table', s.tables copy.destination = some table') ∧
      (∀ name, name ≠ copy.destination → s.tables name = store.tables name) ∧
      s.updateTriggers = store.updateTriggers) (fun s row s' hrow hs hrun => ?_)
      ⟨⟨_, hnew⟩, fun _ _ => rfl, rfl⟩ hpass
    obtain ⟨-, hothers, htriggers⟩ := hs
    obtain ⟨destination, added, -, rfl, -⟩ := copyRow_ok hstored (htext row hrow) hrun
    exact ⟨⟨_, setTable_self _ _ _⟩, fun name hname => (setTable_of_ne hname).trans (hothers name hname),
      htriggers⟩
  obtain ⟨⟨table', htable'⟩, hothers, htriggers⟩ := hframe
  rw [rows_eq htable', rows_eq hnew, List.nil_append] at hadded
  exact ⟨table', eq_update htable' hothers, ⟨_, orderBy_perm _ _, hadded ▸ hconverted⟩, htriggers⟩

end Conversions

end Records

end AstrContinuum
