import AstrContinuum.Invariants.Records

/-!
# What the re-encryption of a store does

The three transformations of the records, each as what it leaves in the tables: `LegacyEncrypted` after the
first encryption, `FormatTwoCopied` after the move to the second format, and `Rekeyed` after a change of keys.
Each keeps the keys of the tables (`Keyed`), so that one can follow the other.
-/

namespace AstrContinuum

namespace Records

open Checked Relational Migrations Crypto

/-! ## Schemas -/

/-- What a `CREATE TABLE` does. -/
theorem createTable_ok {name definition : String} {store store' : Store}
    (h : createTable name definition store = .ok store') :
    store.tables name = none ∧
      store'.tables = Function.update store.tables name (some ⟨definition, []⟩) := by
  obtain ⟨_, hnone, h⟩ := bind_ok.mp h
  obtain rfl := pure_ok.mp h
  exact ⟨require_ok.mp hnone, rfl⟩

/-- What a `DROP TABLE` does. -/
theorem dropTable_ok {name : String} {store store' : Store} (h : dropTable name store = .ok store') :
    store'.tables = Function.update store.tables name none := by
  obtain ⟨_, -, h⟩ := bind_ok.mp h
  obtain rfl := pure_ok.mp h
  rfl

/-- What a renaming does. -/
theorem renameTable_ok {name newName : String} {store store' : Store}
    (h : renameTable name newName store = .ok store') :
    store.tables newName = none ∧ store'.tables =
      Function.update (Function.update store.tables name none) newName (store.tables name) := by
  obtain ⟨table, htable, h⟩ := bind_ok.mp h
  obtain ⟨_, hnone, h⟩ := bind_ok.mp h
  obtain rfl := pure_ok.mp h
  rw [lookup_ok.mp htable]
  exact ⟨require_ok.mp hnone, rfl⟩

/-- A new trigger changes no table. -/
theorem createUpdateTrigger_ok {trigger table : String} {store store' : Store}
    (h : createUpdateTrigger trigger table store = .ok store') : store'.tables = store.tables := by
  obtain ⟨_, -, h⟩ := bind_ok.mp h
  obtain ⟨_, -, h⟩ := bind_ok.mp h
  obtain rfl := pure_ok.mp h
  rfl

/-- Nor does one that is dropped. -/
theorem dropUpdateTrigger_ok {trigger : String} {store store' : Store}
    (h : dropUpdateTrigger trigger store = .ok store') : store'.tables = store.tables := by
  obtain ⟨_, -, h⟩ := bind_ok.mp h
  obtain rfl := pure_ok.mp h
  rfl

/-- Nor do other statements. -/
theorem executeOthers_ok [SqlEngine] {statements : List String} {store store' : Store}
    (h : forEach (fun store statement => executeOther statement store) store statements = .ok store') :
    store' = store := by
  refine forEach_invariant (fun s => s = store) (fun s statement s' _ hs hrun => ?_) rfl h
  obtain ⟨_, -, hrun⟩ := bind_ok.mp hrun
  exact (pure_ok.mp hrun).symm.trans hs

/-! ## Keys -/

/-- The metrics are found by their `rowid` and by their identity. -/
structure KeyedMetrics (rows : List Row) : Prop where
  positive : ∀ row ∈ rows, 0 < rowId row
  unique : UniqueKey rowId rows
  identity : UniqueKey metricIdentity rows

/-- The primary keys of the protected tables. -/
def primaryKeys : List (String × String) :=
  [("sessions", "session_key_hash"), ("journal_events", "event_id"), ("capsules", "capsule_id"),
    ("snapshots", "snapshot_id")]

/-- The rows of the protected tables have the keys that their schema asks for. -/
structure Store.Keyed (store : Store) : Prop where
  texts : ∀ entry ∈ primaryKeys, KeyedRows entry.2 (store.rows entry.1)
  metrics : KeyedMetrics (store.rows "token_metrics")

/-- A protected table of a keyed store. -/
theorem Store.Keyed.table {store : Store} (h : store.Keyed) (entry : String × String)
    (hentry : entry ∈ primaryKeys) (table : Table) (htable : store.tables entry.1 = some table) :
    KeyedRows entry.2 table.rows :=
  rows_eq htable ▸ h.texts entry hentry

/-- The metrics of a keyed store. -/
theorem Store.Keyed.metricsTable {store : Store} (h : store.Keyed) (table : Table)
    (htable : store.tables "token_metrics" = some table) : KeyedMetrics table.rows :=
  rows_eq htable ▸ h.metrics

/-- A property of all protected tables. -/
theorem forall_primaryKeys {P : String × String → Prop} (hsessions : P ("sessions", "session_key_hash"))
    (hevents : P ("journal_events", "event_id")) (hcapsules : P ("capsules", "capsule_id"))
    (hsnapshots : P ("snapshots", "snapshot_id")) : ∀ entry ∈ primaryKeys, P entry :=
  List.forall_mem_cons.mpr ⟨hsessions, List.forall_mem_cons.mpr ⟨hevents, List.forall_mem_cons.mpr
    ⟨hcapsules, List.forall_mem_singleton.mpr hsnapshots⟩⟩⟩

/-! ## The first encryption -/

section Transformations

variable [Primitives]

/-- A table of a store is converted into the table of the same name. -/
def ConvertsIn (before after : Encryption) (conversion : Conversion) (kept : String → Prop)
    (store store' : Store) : Prop :=
  ∃ table table', store.tables conversion.table = some table ∧ store'.tables conversion.table = some table' ∧
    ConvertsTable before after conversion kept table table'

/-- What the first encryption leaves: the protected cells are encrypted in the first format, and everything
else is as it was. -/
structure LegacyEncrypted (codec : Crypto.SecureCodec) (store store' : Store) : Prop where
  sessions : ConvertsIn .none (.formatOne codec) legacySessions.toConversion (· ∈ legacySessions.columns)
    store store'
  journalEvents : ConvertsIn .none (.formatOne codec) legacyJournalEvents legacyJournalEvents.Others
    store store'
  capsules : ConvertsIn .none (.formatOne codec) legacyCapsules legacyCapsules.Others store store'
  snapshots : ConvertsIn .none (.formatOne codec) legacySnapshots.toConversion (· ∈ legacySnapshots.columns)
    store store'
  others : ∀ name, name ∉ primaryKeys.map Prod.fst → store'.tables name = store.tables name

/-- What the move to the second format leaves: the cells are encrypted under the target, with their counts,
and there are tables for metrics. -/
structure FormatTwoCopied (source target : Crypto.SecureCodec) (store store' : Store) : Prop where
  sessions : ConvertsIn (.formatOne source) (.formatTwo target) formatTwoSessions formatTwoSessions.Others
    store store'
  journalEvents : ConvertsIn (.formatOne source) (.formatTwo target) formatTwoJournalEvents.toConversion
    (· ∈ formatTwoJournalEvents.columns) store store'
  capsules : ConvertsIn (.formatOne source) (.formatTwo target) formatTwoCapsules.toConversion
    (· ∈ formatTwoCapsules.columns) store store'
  snapshots : ConvertsIn (.formatOne source) (.formatTwo target) formatTwoSnapshots.toConversion
    (· ∈ formatTwoSnapshots.columns) store store'
  tokenMetrics : store.tables "token_metrics" = none ∧
    ∃ definition, store'.tables "token_metrics" = some ⟨definition, []⟩
  intents : store.tables "token_metric_backfill_intents" = none ∧
    ∃ definition, store'.tables "token_metric_backfill_intents" = some ⟨definition, []⟩
  others : ∀ name, name ∉ primaryKeys.map Prod.fst → name ≠ "token_metrics" →
    name ≠ "token_metric_backfill_intents" → store'.tables name = store.tables name

/-- A metric is converted: its envelope is decrypted under the active key as it was under the previous one. -/
structure ConvertsMetric (previous active : Crypto.SecureCodec) (row row' : Row) : Prop where
  envelope : ∃ metric metric' plaintext, metricEnvelope row = .ok metric ∧ metricEnvelope row' = .ok metric' ∧
    metric'.recordKey = metric.recordKey ∧
    previous.decryptText "token_metrics" "metric_envelope" metric.recordKey metric.envelope = .ok plaintext ∧
    active.decryptText "token_metrics" "metric_envelope" metric'.recordKey metric'.envelope = .ok plaintext
  columns : ∀ column, column ≠ "metric_envelope" → row' column = row column

/-- What a change of keys leaves: the cells are encrypted under the active key, and everything else is as it
was. -/
structure Rekeyed (previous active : Crypto.SecureCodec) (store store' : Store) : Prop where
  sessions : ConvertsIn (.formatTwo previous) (.formatTwo active) rekeyedSessions rekeyedSessions.Others
    store store'
  journalEvents : ConvertsIn (.formatTwo previous) (.formatTwo active) rekeyedJournalEvents
    rekeyedJournalEvents.Others store store'
  capsules : ConvertsIn (.formatTwo previous) (.formatTwo active) rekeyedCapsules rekeyedCapsules.Others
    store store'
  snapshots : ConvertsIn (.formatTwo previous) (.formatTwo active) rekeyedSnapshots rekeyedSnapshots.Others
    store store'
  tokenMetrics : ∃ table table', store.tables "token_metrics" = some table ∧
    store'.tables "token_metrics" = some table' ∧
    List.Forall₂ (ConvertsMetric previous active) table.rows table'.rows
  others : ∀ name, name ∉ primaryKeys.map Prod.fst → name ≠ "token_metrics" →
    store'.tables name = store.tables name

/-! ## What is read back -/

/-- Cells that are no counts are stored in the first format as they are decrypted. -/
theorem storedAs_formatOne {conversion : Conversion} {codec : Crypto.SecureCodec}
    (h : ∀ cell ∈ conversion.cells, cell.protection ≠ .count) :
    conversion.StoredAs (.formatOne codec) codec := by
  intro cell hcell recordKey row
  show (if cell.protection = .count then _ else _) = _
  exact if_neg (h cell hcell)

/-- All cells are stored so in the second format. -/
theorem storedAs_formatTwo (conversion : Conversion) (codec : Crypto.SecureCodec) :
    conversion.StoredAs (.formatTwo codec) codec :=
  fun _ _ _ _ => rfl

omit [Primitives] in
/-- A loop that returns has found its table. -/
theorem batchedRows_table {name primaryKey : String} {body : Store → Row → Except Failure Store}
    {store store' : Store} (h : returned (batchedRows name primaryKey body store) = .ok store') :
    ∃ table, store.tables name = some table := by
  cases htable : store.tables name with
  | some table => exact ⟨table, rfl⟩
  | none =>
      unfold batchedRows at h
      rw [htable] at h
      cases h

variable [SqlEngine] {settings : Settings} {store store' : Store}

/-- A copy converts a keyed table. -/
theorem copyTable_ok {copy : Copy} {before after : Encryption} {target : Crypto.SecureCodec}
    {definition : String} (hstored : copy.toConversion.StoredAs after target)
    (hkeyed : ∀ table, store.tables copy.table = some table → KeyedRows copy.primaryKey table.rows)
    (hnew : store.tables copy.destination = some ⟨definition, []⟩)
    (h : copyTable settings copy before target store = .ok store') :
    ∃ table table', store.tables copy.table = some table ∧
      store'.tables = Function.update store.tables copy.destination (some table') ∧
      ConvertsTable before after copy.toConversion (· ∈ copy.columns) table table' := by
  obtain ⟨table, htable⟩ := batchedRows_table h
  obtain ⟨table', htables, hconverts, -⟩ :=
    copyTable_converts before settings hstored htable (hkeyed table htable) hnew h
  exact ⟨table, table', htable, htables, hconverts⟩

/-- So does a loop in place. -/
theorem rewriteTable_ok {conversion : Conversion} {before after : Encryption} {target : Crypto.SecureCodec}
    (hstored : conversion.StoredAs after target)
    (hkeyed : ∀ table, store.tables conversion.table = some table → KeyedRows conversion.primaryKey table.rows)
    (h : rewriteTable settings conversion before target store = .ok store') :
    ∃ table table', store.tables conversion.table = some table ∧
      store'.tables = Function.update store.tables conversion.table (some table') ∧
      ConvertsTable before after conversion conversion.Others table table' := by
  obtain ⟨table, htable⟩ := batchedRows_table h
  obtain ⟨table', htables, hconverts, -⟩ :=
    rewriteTable_converts before settings hstored htable (hkeyed table htable) h
  exact ⟨table, table', htable, htables, hconverts⟩

/-! ## Metrics -/

omit [Primitives] [SqlEngine] in
/-- Another envelope changes nothing else of a metric. -/
theorem update_envelope (row : Row) (value : SqlValue) :
    rowId (Function.update row "metric_envelope" value) = rowId row ∧
      metricIdentity (Function.update row "metric_envelope" value) = metricIdentity row := by
  simp [rowId, metricIdentity]

omit [Primitives] [SqlEngine] in
/-- A metric with another envelope has the same record key. -/
theorem metricEnvelope_update {row : Row} {metric : MetricEnvelope} (h : metricEnvelope row = .ok metric)
    (envelope : String) :
    metricEnvelope (Function.update row "metric_envelope" (.text envelope)) = .ok { metric with envelope } := by
  unfold metricEnvelope at h ⊢
  rw [(update_envelope row _).2, Function.update_self]
  split at h
  · rename_i kind artifactId profileId _ hidentity _
    rw [hidentity]
    obtain ⟨_, hnonEmpty, h⟩ := bind_ok.mp h
    obtain ⟨artifactKind, hkind, h⟩ := bind_ok.mp h
    obtain ⟨recordKey, hrecord, h⟩ := bind_ok.mp h
    obtain rfl := pure_ok.mp h
    exact bind_ok.mpr ⟨(), hnonEmpty, bind_ok.mpr ⟨artifactKind, hkind, bind_ok.mpr ⟨recordKey, hrecord, rfl⟩⟩⟩
  · cases h

/-- What the rewriting of a metric does. -/
theorem rekeyTokenMetric_ok {previous active : Crypto.SecureCodec} {table : Table} {row : Row}
    (htable : store.tables "token_metrics" = some table) (hkeyed : KeyedMetrics table.rows)
    (hrow : row ∈ table.rows) (h : rekeyTokenMetric settings previous active store row = .ok store') :
    ∃ value, store' = store.setTable "token_metrics" (some { table with
        rows := update (fun other => metricIdentity other = metricIdentity row)
          (fun other => Function.update other "metric_envelope" value) table.rows }) ∧
      ConvertsMetric previous active row (Function.update row "metric_envelope" value) := by
  obtain ⟨metric, hmetric, h⟩ := bind_ok.mp h
  obtain ⟨plaintext, hdecrypt, h⟩ := bind_ok.mp h
  obtain ⟨encrypted, -, h⟩ := bind_ok.mp h
  obtain ⟨next, hupdate, h⟩ := bind_ok.mp h
  obtain ⟨stored, hselect, h⟩ := bind_ok.mp h
  obtain ⟨rekeyed, hrekeyed, h⟩ := bind_ok.mp h
  obtain ⟨_, hsame, h⟩ := bind_ok.mp h
  obtain rfl := pure_ok.mp h
  obtain rfl := require_ok.mp hsame
  obtain ⟨found, hfound, rfl⟩ := updateWhere_ok hupdate
  obtain rfl := Option.some.inj (htable.symm.trans hfound)
  obtain ⟨final, hfinal, hfind⟩ := selectOne_ok.mp hselect
  rw [setTable_self] at hfinal
  obtain rfl := Option.some.inj hfinal
  refine ⟨.text encrypted, rfl, ⟨metric, _, rekeyed, hmetric, metricEnvelope_update hmetric encrypted, rfl,
    mapError_ok.mp hdecrypt, ?_⟩, fun column hcolumn => Function.update_of_ne hcolumn _ _⟩
  -- the row that is read back is the changed row
  have hidentity (other : Row) := (update_envelope other (.text encrypted)).2
  have hunique : UniqueKey metricIdentity (update (fun other => metricIdentity other = metricIdentity row)
      (fun other => Function.update other "metric_envelope" (.text encrypted)) table.rows) := by
    unfold UniqueKey
    rw [map_update metricIdentity table.rows fun other _ => hidentity other]
    exact hkeyed.identity
  have hchanged := hunique.find_select (mem_update.mpr (.inl ⟨row, hrow, decide_eq_true rfl, rfl⟩))
    (decide_eq_true (hidentity row)) fun other hother => by
      rw [hidentity row]
      exact of_decide_eq_true hother
  obtain rfl := Option.some.inj (hchanged.symm.trans hfind)
  rw [Function.update_self] at hrekeyed
  exact mapError_ok.mp hrekeyed

/-- The states of the loop over the metrics. -/
structure RunningMetrics (base store : Store) : Prop where
  table : ∃ table, store.tables "token_metrics" = some table ∧ KeyedMetrics table.rows
  others : ∀ name, name ≠ "token_metrics" → store.tables name = base.tables name

omit [Primitives] [SqlEngine] in
/-- Another envelope keeps the keys. -/
theorem KeyedMetrics.update {rows : List Row} (h : KeyedMetrics rows) (selected : Row → Bool) (value : SqlValue) :
    KeyedMetrics (Relational.update selected (fun other => Function.update other "metric_envelope" value) rows) := by
  refine ⟨forall_update h.positive fun row _ hrow => ?_, ?_, ?_⟩
  · rw [(update_envelope row value).1]
    exact hrow
  · unfold UniqueKey
    rw [map_update rowId rows fun row _ => (update_envelope row value).1]
    exact h.unique
  · unfold UniqueKey
    rw [map_update metricIdentity rows fun row _ => (update_envelope row value).2]
    exact h.identity

omit [Primitives] [SqlEngine] in
/-- The metrics with the identity of a metric have its `rowid`. -/
theorem KeyedMetrics.identity_iff {rows : List Row} (h : KeyedMetrics rows) {row other : Row} (hrow : row ∈ rows)
    (hother : other ∈ rows) :
    decide (metricIdentity other = metricIdentity row) = decide (rowId other = rowId row) := by
  refine decide_eq_decide.mpr ⟨fun hsame => ?_, fun hsame => ?_⟩
  · rw [h.identity.eq_of_key hother hrow hsame]
  · rw [h.unique.eq_of_key hother hrow hsame]

variable (settings)

/-- The loop over the metrics changes them one by one. -/
theorem rekeyTokenMetric_rowWise (previous active : Crypto.SecureCodec) (base : Store) :
    RowWise rowId (fun s => s.rows "token_metrics") (rekeyTokenMetric settings previous active)
      (RunningMetrics base) := by
  have hstep {store : Store} {row : Row} {store' : Store} (hrunning : RunningMetrics base store)
      (hrow : row ∈ store.rows "token_metrics")
      (h : rekeyTokenMetric settings previous active store row = .ok store') :
      RunningMetrics base store' ∧
        ChangesOne rowId row (store.rows "token_metrics") (store'.rows "token_metrics") := by
    obtain ⟨⟨table, htable, hkeyed⟩, hothers⟩ := hrunning
    rw [rows_eq htable] at hrow ⊢
    obtain ⟨value, rfl, -⟩ := rekeyTokenMetric_ok htable hkeyed hrow h
    refine ⟨⟨⟨_, setTable_self _ _ _, hkeyed.update _ value⟩, fun name hname => ?_⟩,
      fun other => Function.update other "metric_envelope" value, fun other => (update_envelope other value).1, ?_⟩
    · rw [setTable_of_ne hname]
      exact hothers name hname
    · rw [rows_eq (setTable_self _ _ _)]
      exact update_congr fun other hother => hkeyed.identity_iff hrow hother
  refine ⟨fun store hrunning => ?_, fun _ _ _ hrunning hrow h => (hstep hrunning hrow h).1,
    fun _ _ _ hrunning hrow h => (hstep hrunning hrow h).2⟩
  obtain ⟨⟨table, htable, hkeyed⟩, -⟩ := hrunning
  rw [rows_eq htable]
  exact hkeyed.unique

/-- The loop over the metrics ends, and is one pass over them in the order of their `rowid`. -/
theorem batchedTokenMetrics_eq (previous active : Crypto.SecureCodec) {store : Store} {table : Table}
    (htable : store.tables "token_metrics" = some table) (hkeyed : KeyedMetrics table.rows) :
    batchedTokenMetrics (rekeyTokenMetric settings previous active) store =
      some (forEach (rekeyTokenMetric settings previous active) store (orderBy rowId table.rows)) := by
  have hall : table.rows.filter (fun row => decide (0 < rowId row)) = table.rows :=
    List.filter_eq_self.mpr fun row hrow => decide_eq_true (hkeyed.positive row hrow)
  have hbehind : Relational.behind rowId 0 (store.rows "token_metrics") = orderBy rowId table.rows := by
    rw [rows_eq htable, Relational.behind, hall]
  unfold batchedTokenMetrics
  rw [htable]
  show paged _ _ _ _ _ _ _ = _
  rw [paged_eq (rekeyTokenMetric_rowWise settings previous active store) (Nat.succ_pos 127)
    ⟨⟨table, htable, hkeyed⟩, fun _ _ => rfl⟩, hbehind]
  show (Relational.behind _ _ (store.rows "token_metrics")).length < _
  rw [hbehind, (orderBy_perm _ _).length_eq]
  exact Nat.lt_succ_self _

variable {settings}

/-- The metrics are converted, and nothing else changes. -/
theorem batchedTokenMetrics_converts {previous active : Crypto.SecureCodec}
    (hkeyed : ∀ table, store.tables "token_metrics" = some table → KeyedMetrics table.rows)
    (h : returned (batchedTokenMetrics (rekeyTokenMetric settings previous active) store) = .ok store') :
    ∃ table table', store.tables "token_metrics" = some table ∧
      store'.tables = Function.update store.tables "token_metrics" (some table') ∧
      List.Forall₂ (ConvertsMetric previous active) table.rows table'.rows ∧ KeyedMetrics table'.rows := by
  obtain ⟨table, htable⟩ : ∃ table, store.tables "token_metrics" = some table := by
    cases htable : store.tables "token_metrics" with
    | some table => exact ⟨table, rfl⟩
    | none =>
        unfold batchedTokenMetrics at h
        rw [htable] at h
        cases h
  have hrows := rows_eq htable
  have htableKeyed := hkeyed table htable
  rw [batchedTokenMetrics_eq settings previous active htable htableKeyed] at h
  have hconverts (s : Store) (row : Row) (s' : Store) (hrunning : RunningMetrics store s)
      (hrow : row ∈ s.rows "token_metrics") (hrun : rekeyTokenMetric settings previous active s row = .ok s') :
      ∀ changed ∈ s'.rows "token_metrics", rowId changed = rowId row →
        ConvertsMetric previous active row changed := by
    intro changed hchanged hid
    obtain ⟨⟨current, hcurrent, hcurrentKeyed⟩, -⟩ := hrunning
    rw [rows_eq hcurrent] at hrow
    obtain ⟨value, rfl, hconverts⟩ := rekeyTokenMetric_ok hcurrent hcurrentKeyed hrow hrun
    rw [rows_eq (setTable_self _ _ _)] at hchanged
    rcases mem_update.mp hchanged with ⟨old, hold, hselected, rfl⟩ | ⟨hold, hselected⟩
    · rw [hcurrentKeyed.identity.eq_of_key hold hrow (of_decide_eq_true hselected)]
      exact hconverts
    · rw [hcurrentKeyed.identity_iff hrow hold] at hselected
      exact absurd hid (of_decide_eq_false hselected)
  obtain ⟨⟨⟨table', htable', hkeyed'⟩, hothers⟩, hconverted⟩ :=
    (rekeyTokenMetric_rowWise settings previous active store).forall₂ hconverts
      ⟨⟨table, htable, htableKeyed⟩, fun _ _ => rfl⟩
      (fun row hrow => by rw [hrows]; exact mem_orderBy.mp hrow) (orderBy_increasing htableKeyed.unique) h
  rw [hrows, rows_eq htable'] at hconverted
  refine ⟨table, table', htable, eq_update htable' hothers, ?_, hkeyed'⟩
  exact forall₂_weaken hconverted fun row hrow changed hpair => hpair.1 (mem_orderBy.mpr hrow)

/-! ## The three transformations -/

/-- The first encryption of a keyed store. -/
theorem transformLegacyRecords_ok {codec : Crypto.SecureCodec} (hkeyed : store.Keyed)
    (h : transformLegacyRecords settings codec store = .ok store') : LegacyEncrypted codec store store' := by
  obtain ⟨counts, -, h⟩ := bind_ok.mp h
  obtain ⟨s₁, h₁, h⟩ := bind_ok.mp h
  obtain ⟨s₂, h₂, h⟩ := bind_ok.mp h
  obtain ⟨_, -, h⟩ := bind_ok.mp h
  obtain ⟨s₃, h₃, h⟩ := bind_ok.mp h
  obtain ⟨s₄, h₄, h⟩ := bind_ok.mp h
  obtain ⟨s₅, h₅, h⟩ := bind_ok.mp h
  obtain ⟨s₆, h₆, h⟩ := bind_ok.mp h
  obtain ⟨s₇, h₇, h⟩ := bind_ok.mp h
  obtain ⟨s₈, h₈, h⟩ := bind_ok.mp h
  obtain ⟨_, -, h⟩ := bind_ok.mp h
  obtain ⟨s₉, h₉, h⟩ := bind_ok.mp h
  obtain ⟨s₁₀, h₁₀, h⟩ := bind_ok.mp h
  obtain ⟨s₁₁, h₁₁, h⟩ := bind_ok.mp h
  obtain ⟨s₁₂, h₁₂, h⟩ := bind_ok.mp h
  obtain ⟨s₁₃, h₁₃, h⟩ := bind_ok.mp h
  obtain ⟨s₁₄, h₁₄, h⟩ := bind_ok.mp h
  obtain ⟨s₁₅, h₁₅, h⟩ := bind_ok.mp h
  obtain ⟨s₁₆, h₁₆, h⟩ := bind_ok.mp h
  obtain ⟨_, -, h⟩ := bind_ok.mp h
  obtain ⟨_, -, h⟩ := bind_ok.mp h
  obtain rfl := pure_ok.mp h
  -- the two new tables
  obtain ⟨hfree, e₁⟩ := createTable_ok h₁
  obtain ⟨hfree', e₂⟩ := createTable_ok h₂
  change _ = Function.update _ "_astrcontinuum_secure_sessions" _ at e₁
  change _ = Function.update _ "_astrcontinuum_secure_snapshots" _ at e₂
  change store.tables "_astrcontinuum_secure_sessions" = none at hfree
  change s₁.tables "_astrcontinuum_secure_snapshots" = none at hfree'
  obtain ⟨sessions, sessions', hsessions, e₃, hconverts₃⟩ := copyTable_ok (storedAs_formatOne (by decide))
    (fun table htable => hkeyed.table ("sessions", "session_key_hash") (by decide) table (by
      simpa [legacySessions, e₂, e₁] using htable))
    (show s₂.tables "_astrcontinuum_secure_sessions" = _ by simp [e₂, e₁]; rfl) h₃
  change s₂.tables "sessions" = _ at hsessions
  change _ = Function.update _ "_astrcontinuum_secure_sessions" _ at e₃
  have e₄ := dropUpdateTrigger_ok h₄
  have e₅ := dropUpdateTrigger_ok h₅
  obtain ⟨events, events', hevents, e₆, hconverts₆⟩ := rewriteTable_ok (storedAs_formatOne (by decide))
    (fun table htable => hkeyed.table ("journal_events", "event_id") (by decide) table (by
      simpa [legacyJournalEvents, e₅, e₄, e₃, e₂, e₁] using htable)) h₆
  change s₅.tables "journal_events" = _ at hevents
  change _ = Function.update _ "journal_events" _ at e₆
  obtain ⟨capsules, capsules', hcapsules, e₇, hconverts₇⟩ := rewriteTable_ok (storedAs_formatOne (by decide))
    (fun table htable => hkeyed.table ("capsules", "capsule_id") (by decide) table (by
      simpa [legacyCapsules, e₆, e₅, e₄, e₃, e₂, e₁] using htable)) h₇
  change s₆.tables "capsules" = _ at hcapsules
  change _ = Function.update _ "capsules" _ at e₇
  obtain ⟨snapshots, snapshots', hsnapshots, e₈, hconverts₈⟩ := copyTable_ok (storedAs_formatOne (by decide))
    (fun table htable => hkeyed.table ("snapshots", "snapshot_id") (by decide) table (by
      simpa [legacySnapshots, e₇, e₆, e₅, e₄, e₃, e₂, e₁] using htable))
    (show s₇.tables "_astrcontinuum_secure_snapshots" = _ by simp [e₇, e₆, e₅, e₄, e₃, e₂]; rfl) h₈
  change s₇.tables "snapshots" = _ at hsnapshots
  change _ = Function.update _ "_astrcontinuum_secure_snapshots" _ at e₈
  have e₉ := dropTable_ok h₉
  have e₁₀ := dropTable_ok h₁₀
  have e₁₁ : s₁₁.tables = Function.update (Function.update s₁₀.tables "_astrcontinuum_secure_sessions" none)
      "sessions" (s₁₀.tables "_astrcontinuum_secure_sessions") := (renameTable_ok h₁₁).2
  have e₁₂ : s₁₂.tables = Function.update (Function.update s₁₁.tables "_astrcontinuum_secure_snapshots" none)
      "snapshots" (s₁₁.tables "_astrcontinuum_secure_snapshots") := (renameTable_ok h₁₂).2
  have efinal : s₁₆.tables = s₁₂.tables := by
    rw [executeOthers_ok h₁₆, createUpdateTrigger_ok h₁₅, createUpdateTrigger_ok h₁₄, createUpdateTrigger_ok h₁₃]
  simp only [e₁, ne_eq, String.reduceEq, not_false_eq_true, Function.update_of_ne] at hfree'
  refine ⟨⟨sessions, sessions', ?_, ?_, hconverts₃⟩, ⟨events, events', ?_, ?_, hconverts₆⟩,
    ⟨capsules, capsules', ?_, ?_, hconverts₇⟩, ⟨snapshots, snapshots', ?_, ?_, hconverts₈⟩, ?_⟩
  · show store.tables "sessions" = _
    simpa [e₂, e₁] using hsessions
  · show s₁₆.tables "sessions" = _
    simp [efinal, e₁₂, e₁₁, e₁₀, e₉, e₈, e₇, e₆, e₅, e₄, e₃]
  · show store.tables "journal_events" = _
    simpa [e₅, e₄, e₃, e₂, e₁] using hevents
  · show s₁₆.tables "journal_events" = _
    simp [efinal, e₁₂, e₁₁, e₁₀, e₉, e₈, e₇, e₆]
  · show store.tables "capsules" = _
    simpa [e₆, e₅, e₄, e₃, e₂, e₁] using hcapsules
  · show s₁₆.tables "capsules" = _
    simp [efinal, e₁₂, e₁₁, e₁₀, e₉, e₈, e₇]
  · show store.tables "snapshots" = _
    simpa [e₇, e₆, e₅, e₄, e₃, e₂, e₁] using hsnapshots
  · show s₁₆.tables "snapshots" = _
    simp [efinal, e₁₂, e₁₁, e₁₀, e₉, e₈]
  · intro name hname
    simp only [primaryKeys, List.map_cons, List.map_nil, List.mem_cons, List.not_mem_nil, or_false, not_or] at hname
    obtain ⟨hsession, hevent, hcapsule, hsnapshot⟩ := hname
    by_cases htemporary : name = "_astrcontinuum_secure_sessions"
    · rw [htemporary, hfree]
      simp [efinal, e₁₂, e₁₁]
    · by_cases htemporary' : name = "_astrcontinuum_secure_snapshots"
      · rw [htemporary', hfree']
        simp [efinal, e₁₂]
      · simp [efinal, e₁₂, e₁₁, e₁₀, e₉, e₈, e₇, e₆, e₅, e₄, e₃, e₂, e₁, hsession, hevent,
          hcapsule, hsnapshot, htemporary, htemporary']

/-- The move of a keyed store to the second format. -/
theorem copyFormatTwo_ok {source target : Crypto.SecureCodec} (hkeyed : store.Keyed)
    (h : copyFormatTwo settings source target store = .ok store') :
    FormatTwoCopied source target store store' := by
  obtain ⟨counts, -, h⟩ := bind_ok.mp h
  obtain ⟨s₁, h₁, h⟩ := bind_ok.mp h
  obtain ⟨s₂, h₂, h⟩ := bind_ok.mp h
  obtain ⟨s₃, h₃, h⟩ := bind_ok.mp h
  obtain ⟨s₄, h₄, h⟩ := bind_ok.mp h
  obtain ⟨s₅, h₅, h⟩ := bind_ok.mp h
  obtain ⟨_, -, h⟩ := bind_ok.mp h
  obtain ⟨s₆, h₆, h⟩ := bind_ok.mp h
  obtain ⟨_, -, h⟩ := bind_ok.mp h
  obtain ⟨s₇, h₇, h⟩ := bind_ok.mp h
  obtain ⟨_, -, h⟩ := bind_ok.mp h
  obtain ⟨s₈, h₈, h⟩ := bind_ok.mp h
  obtain ⟨s₉, h₉, h⟩ := bind_ok.mp h
  obtain ⟨s₁₀, h₁₀, h⟩ := bind_ok.mp h
  obtain ⟨s₁₁, h₁₁, h⟩ := bind_ok.mp h
  obtain ⟨s₁₂, h₁₂, h⟩ := bind_ok.mp h
  obtain ⟨s₁₃, h₁₃, h⟩ := bind_ok.mp h
  obtain ⟨s₁₄, h₁₄, h⟩ := bind_ok.mp h
  obtain ⟨s₁₅, h₁₅, h⟩ := bind_ok.mp h
  obtain ⟨s₁₆, h₁₆, h⟩ := bind_ok.mp h
  obtain ⟨s₁₇, h₁₇, h⟩ := bind_ok.mp h
  obtain ⟨s₁₈, h₁₈, h⟩ := bind_ok.mp h
  obtain ⟨s₁₉, h₁₉, h⟩ := bind_ok.mp h
  obtain ⟨s₂₀, h₂₀, h⟩ := bind_ok.mp h
  obtain ⟨_, -, h⟩ := bind_ok.mp h
  obtain rfl := pure_ok.mp h
  obtain ⟨hevents₀, e₁⟩ := createTable_ok h₁
  obtain ⟨hcapsules₀, e₂⟩ := createTable_ok h₂
  obtain ⟨hsnapshots₀, e₃⟩ := createTable_ok h₃
  change store.tables "_astrcontinuum_v2_journal_events" = none at hevents₀
  change s₁.tables "_astrcontinuum_v2_capsules" = none at hcapsules₀
  change s₂.tables "_astrcontinuum_v2_snapshots" = none at hsnapshots₀
  change _ = Function.update _ "_astrcontinuum_v2_journal_events" _ at e₁
  change _ = Function.update _ "_astrcontinuum_v2_capsules" _ at e₂
  change _ = Function.update _ "_astrcontinuum_v2_snapshots" _ at e₃
  obtain ⟨sessions, sessions', hsessions, e₄, hconverts₄⟩ := rewriteTable_ok (storedAs_formatTwo _ target)
    (fun table htable => hkeyed.table ("sessions", "session_key_hash") (by decide) table (by
      simpa [formatTwoSessions, e₃, e₂, e₁] using htable)) h₄
  change s₃.tables "sessions" = _ at hsessions
  change _ = Function.update _ "sessions" _ at e₄
  obtain ⟨events, events', hevents, e₅, hconverts₅⟩ := copyTable_ok (storedAs_formatTwo _ target)
    (fun table htable => hkeyed.table ("journal_events", "event_id") (by decide) table (by
      simpa [formatTwoJournalEvents, e₄, e₃, e₂, e₁] using htable))
    (show s₄.tables "_astrcontinuum_v2_journal_events" = _ by simp [e₄, e₃, e₂, e₁]; rfl) h₅
  change s₄.tables "journal_events" = _ at hevents
  change _ = Function.update _ "_astrcontinuum_v2_journal_events" _ at e₅
  obtain ⟨capsules, capsules', hcapsules, e₆, hconverts₆⟩ := copyTable_ok (storedAs_formatTwo _ target)
    (fun table htable => hkeyed.table ("capsules", "capsule_id") (by decide) table (by
      simpa [formatTwoCapsules, e₅, e₄, e₃, e₂, e₁] using htable))
    (show s₅.tables "_astrcontinuum_v2_capsules" = _ by simp [e₅, e₄, e₃, e₂]; rfl) h₆
  change s₅.tables "capsules" = _ at hcapsules
  change _ = Function.update _ "_astrcontinuum_v2_capsules" _ at e₆
  obtain ⟨snapshots, snapshots', hsnapshots, e₇, hconverts₇⟩ := copyTable_ok (storedAs_formatTwo _ target)
    (fun table htable => hkeyed.table ("snapshots", "snapshot_id") (by decide) table (by
      simpa [formatTwoSnapshots, e₆, e₅, e₄, e₃, e₂, e₁] using htable))
    (show s₆.tables "_astrcontinuum_v2_snapshots" = _ by simp [e₆, e₅, e₄, e₃]; rfl) h₇
  change s₆.tables "snapshots" = _ at hsnapshots
  change _ = Function.update _ "_astrcontinuum_v2_snapshots" _ at e₇
  have e₈ := dropTable_ok h₈
  have e₉ := dropTable_ok h₉
  have e₁₀ := dropTable_ok h₁₀
  have e₁₁ : s₁₁.tables = Function.update (Function.update s₁₀.tables "_astrcontinuum_v2_journal_events" none)
      "journal_events" (s₁₀.tables "_astrcontinuum_v2_journal_events") := (renameTable_ok h₁₁).2
  have e₁₂ : s₁₂.tables = Function.update (Function.update s₁₁.tables "_astrcontinuum_v2_capsules" none)
      "capsules" (s₁₁.tables "_astrcontinuum_v2_capsules") := (renameTable_ok h₁₂).2
  have e₁₃ : s₁₃.tables = Function.update (Function.update s₁₂.tables "_astrcontinuum_v2_snapshots" none)
      "snapshots" (s₁₂.tables "_astrcontinuum_v2_snapshots") := (renameTable_ok h₁₃).2
  have e₁₇ : s₁₇.tables = s₁₃.tables := by
    rw [executeOthers_ok h₁₇, createUpdateTrigger_ok h₁₆, createUpdateTrigger_ok h₁₅, createUpdateTrigger_ok h₁₄]
  obtain ⟨hmetrics, e₁₈⟩ := createTable_ok h₁₈
  obtain ⟨hintents, e₁₉⟩ := createTable_ok h₁₉
  obtain ⟨_, -, hother⟩ := bind_ok.mp h₂₀
  obtain rfl := pure_ok.mp hother
  simp only [e₂, e₁, ne_eq, String.reduceEq, not_false_eq_true, Function.update_of_ne] at hcapsules₀ hsnapshots₀
  refine ⟨⟨sessions, sessions', ?_, ?_, hconverts₄⟩, ⟨events, events', ?_, ?_, hconverts₅⟩,
    ⟨capsules, capsules', ?_, ?_, hconverts₆⟩, ⟨snapshots, snapshots', ?_, ?_, hconverts₇⟩,
    ⟨?_, "token_metrics", ?_⟩, ⟨?_, "token_metric_backfill_intents", ?_⟩, ?_⟩
  · show store.tables "sessions" = _
    simpa [e₃, e₂, e₁] using hsessions
  · show s₁₉.tables "sessions" = _
    simp [e₁₉, e₁₈, e₁₇, e₁₃, e₁₂, e₁₁, e₁₀, e₉, e₈, e₇, e₆, e₅, e₄]
  · show store.tables "journal_events" = _
    simpa [e₄, e₃, e₂, e₁] using hevents
  · show s₁₉.tables "journal_events" = _
    simp [e₁₉, e₁₈, e₁₇, e₁₃, e₁₂, e₁₁, e₁₀, e₉, e₈, e₇, e₆, e₅]
  · show store.tables "capsules" = _
    simpa [e₅, e₄, e₃, e₂, e₁] using hcapsules
  · show s₁₉.tables "capsules" = _
    simp [e₁₉, e₁₈, e₁₇, e₁₃, e₁₂, e₁₁, e₁₀, e₉, e₈, e₇, e₆]
  · show store.tables "snapshots" = _
    simpa [e₆, e₅, e₄, e₃, e₂, e₁] using hsnapshots
  · show s₁₉.tables "snapshots" = _
    simp [e₁₉, e₁₈, e₁₇, e₁₃, e₁₂, e₁₁, e₁₀, e₉, e₈, e₇]
  · simpa [e₁₇, e₁₃, e₁₂, e₁₁, e₁₀, e₉, e₈, e₇, e₆, e₅, e₄, e₃, e₂, e₁] using hmetrics
  · simp [e₁₉, e₁₈]
  · simpa [e₁₈, e₁₇, e₁₃, e₁₂, e₁₁, e₁₀, e₉, e₈, e₇, e₆, e₅, e₄, e₃, e₂, e₁] using hintents
  · simp [e₁₉]
  · intro name hname hmetric hintent
    simp only [primaryKeys, List.map_cons, List.map_nil, List.mem_cons, List.not_mem_nil, or_false, not_or] at hname
    obtain ⟨hsession, hevent, hcapsule, hsnapshot⟩ := hname
    by_cases htemporary : name = "_astrcontinuum_v2_journal_events"
    · rw [htemporary, hevents₀]
      simp [e₁₉, e₁₈, e₁₇, e₁₃, e₁₂, e₁₁]
    · by_cases htemporary' : name = "_astrcontinuum_v2_capsules"
      · rw [htemporary', hcapsules₀]
        simp [e₁₉, e₁₈, e₁₇, e₁₃, e₁₂]
      · by_cases htemporary'' : name = "_astrcontinuum_v2_snapshots"
        · rw [htemporary'', hsnapshots₀]
          simp [e₁₉, e₁₈, e₁₇, e₁₃]
        · simp [e₁₉, e₁₈, e₁₇, e₁₃, e₁₂, e₁₁, e₁₀, e₉, e₈, e₇, e₆, e₅, e₄, e₃, e₂, e₁, hsession, hevent, hcapsule,
            hsnapshot, hmetric, hintent, htemporary, htemporary', htemporary'']

/-- A change of the keys of a keyed store. -/
theorem rekeyRecords_ok {previous active : Crypto.SecureCodec} (hkeyed : store.Keyed)
    (h : rekeyRecords settings previous active store = .ok store') : Rekeyed previous active store store' := by
  obtain ⟨counts, -, h⟩ := bind_ok.mp h
  obtain ⟨s₁, h₁, h⟩ := bind_ok.mp h
  obtain ⟨s₂, h₂, h⟩ := bind_ok.mp h
  obtain ⟨s₃, h₃, h⟩ := bind_ok.mp h
  obtain ⟨s₄, h₄, h⟩ := bind_ok.mp h
  obtain ⟨s₅, h₅, h⟩ := bind_ok.mp h
  obtain ⟨s₆, h₆, h⟩ := bind_ok.mp h
  obtain ⟨s₇, h₇, h⟩ := bind_ok.mp h
  obtain ⟨s₈, h₈, h⟩ := bind_ok.mp h
  obtain ⟨s₉, h₉, h⟩ := bind_ok.mp h
  obtain ⟨s₁₀, h₁₀, h⟩ := bind_ok.mp h
  obtain ⟨s₁₁, h₁₁, h⟩ := bind_ok.mp h
  obtain ⟨_, -, h⟩ := bind_ok.mp h
  obtain ⟨_, -, h⟩ := bind_ok.mp h
  obtain rfl := pure_ok.mp h
  have e₃ : s₃.tables = store.tables := by
    rw [dropUpdateTrigger_ok h₃, dropUpdateTrigger_ok h₂, dropUpdateTrigger_ok h₁]
  obtain ⟨sessions, sessions', hsessions, e₄, hconverts₄⟩ := rewriteTable_ok (storedAs_formatTwo _ active)
    (fun table htable => hkeyed.table ("sessions", "session_key_hash") (by decide) table (e₃ ▸ htable)) h₄
  change s₃.tables "sessions" = _ at hsessions
  change _ = Function.update _ "sessions" _ at e₄
  obtain ⟨events, events', hevents, e₅, hconverts₅⟩ := rewriteTable_ok (storedAs_formatTwo _ active)
    (fun table htable => hkeyed.table ("journal_events", "event_id") (by decide) table (by
      simpa [rekeyedJournalEvents, formatTwoJournalEvents, e₄, e₃] using htable)) h₅
  change s₄.tables "journal_events" = _ at hevents
  change _ = Function.update _ "journal_events" _ at e₅
  obtain ⟨capsules, capsules', hcapsules, e₆, hconverts₆⟩ := rewriteTable_ok (storedAs_formatTwo _ active)
    (fun table htable => hkeyed.table ("capsules", "capsule_id") (by decide) table (by
      simpa [rekeyedCapsules, formatTwoCapsules, e₅, e₄, e₃] using htable)) h₆
  change s₅.tables "capsules" = _ at hcapsules
  change _ = Function.update _ "capsules" _ at e₆
  obtain ⟨snapshots, snapshots', hsnapshots, e₇, hconverts₇⟩ := rewriteTable_ok (storedAs_formatTwo _ active)
    (fun table htable => hkeyed.table ("snapshots", "snapshot_id") (by decide) table (by
      simpa [rekeyedSnapshots, formatTwoSnapshots, e₆, e₅, e₄, e₃] using htable)) h₇
  change s₆.tables "snapshots" = _ at hsnapshots
  change _ = Function.update _ "snapshots" _ at e₇
  obtain ⟨metrics, metrics', hmetrics, e₈, hconverts₈, -⟩ := batchedTokenMetrics_converts
    (fun table htable => hkeyed.metricsTable table (by simpa [e₇, e₆, e₅, e₄, e₃] using htable)) h₈
  have e₁₁ : s₁₁.tables = s₈.tables := by
    rw [createUpdateTrigger_ok h₁₁, createUpdateTrigger_ok h₁₀, createUpdateTrigger_ok h₉]
  refine ⟨⟨sessions, sessions', ?_, ?_, hconverts₄⟩, ⟨events, events', ?_, ?_, hconverts₅⟩,
    ⟨capsules, capsules', ?_, ?_, hconverts₆⟩, ⟨snapshots, snapshots', ?_, ?_, hconverts₇⟩,
    ⟨metrics, metrics', ?_, ?_, hconverts₈⟩, ?_⟩
  · show store.tables "sessions" = _
    rw [← hsessions, e₃]
  · show s₁₁.tables "sessions" = _
    simp [e₁₁, e₈, e₇, e₆, e₅, e₄]
  · show store.tables "journal_events" = _
    simpa [e₄, e₃] using hevents
  · show s₁₁.tables "journal_events" = _
    simp [e₁₁, e₈, e₇, e₆, e₅]
  · show store.tables "capsules" = _
    simpa [e₅, e₄, e₃] using hcapsules
  · show s₁₁.tables "capsules" = _
    simp [e₁₁, e₈, e₇, e₆]
  · show store.tables "snapshots" = _
    simpa [e₆, e₅, e₄, e₃] using hsnapshots
  · show s₁₁.tables "snapshots" = _
    simp [e₁₁, e₈, e₇]
  · simpa [e₇, e₆, e₅, e₄, e₃] using hmetrics
  · simp [e₁₁, e₈]
  · intro name hname hmetric
    simp only [primaryKeys, List.map_cons, List.map_nil, List.mem_cons, List.not_mem_nil, or_false, not_or] at hname
    obtain ⟨hsession, hevent, hcapsule, hsnapshot⟩ := hname
    simp [e₁₁, e₈, e₇, e₆, e₅, e₄, e₃, hsession, hevent, hcapsule, hsnapshot, hmetric]

/-! ## Keys are kept -/

omit [SqlEngine] in
/-- A store whose protected tables are converted is keyed as it was. -/
theorem Store.Keyed.of_converts (h : store.Keyed)
    (hconverts : ∀ entry ∈ primaryKeys, ∃ before after conversion kept, conversion.table = entry.1 ∧
      conversion.primaryKey = entry.2 ∧ ConvertsIn before after conversion kept store store')
    (hmetrics : KeyedMetrics (store'.rows "token_metrics")) : store'.Keyed := by
  refine ⟨fun entry hentry => ?_, hmetrics⟩
  obtain ⟨before, after, conversion, kept, hname, hprimary, table, table', htable, htable', hconverted⟩ :=
    hconverts entry hentry
  have hkeyed := h.texts entry hentry
  rw [← hname, ← hprimary, rows_eq htable] at hkeyed
  rw [← hname, ← hprimary, rows_eq htable']
  exact hconverted.keyed hkeyed

omit [SqlEngine] in
/-- The first encryption keeps the keys. -/
theorem LegacyEncrypted.keyed {codec : Crypto.SecureCodec} (hkeyed : store.Keyed)
    (h : LegacyEncrypted codec store store') : store'.Keyed := by
  refine hkeyed.of_converts (forall_primaryKeys ⟨_, _, _, _, rfl, rfl, h.sessions⟩
    ⟨_, _, _, _, rfl, rfl, h.journalEvents⟩ ⟨_, _, _, _, rfl, rfl, h.capsules⟩
    ⟨_, _, _, _, rfl, rfl, h.snapshots⟩) ?_
  rw [Store.rows, h.others "token_metrics" (by decide)]
  exact hkeyed.metrics

omit [SqlEngine] in
/-- So does the move to the second format. -/
theorem FormatTwoCopied.keyed {source target : Crypto.SecureCodec} (hkeyed : store.Keyed)
    (h : FormatTwoCopied source target store store') : store'.Keyed := by
  refine hkeyed.of_converts (forall_primaryKeys ⟨_, _, _, _, rfl, rfl, h.sessions⟩
    ⟨_, _, _, _, rfl, rfl, h.journalEvents⟩ ⟨_, _, _, _, rfl, rfl, h.capsules⟩
    ⟨_, _, _, _, rfl, rfl, h.snapshots⟩) ?_
  obtain ⟨-, definition, hnew⟩ := h.tokenMetrics
  rw [rows_eq hnew]
  exact ⟨fun row hrow => absurd hrow List.not_mem_nil, List.nodup_nil, List.nodup_nil⟩

omit [SqlEngine] in
/-- A metric that is converted keeps its keys. -/
theorem ConvertsMetric.keys {previous active : Crypto.SecureCodec} {row row' : Row}
    (h : ConvertsMetric previous active row row') :
    rowId row' = rowId row ∧ metricIdentity row' = metricIdentity row := by
  unfold rowId metricIdentity
  rw [h.columns "rowid" (by decide), h.columns "artifact_kind" (by decide), h.columns "artifact_id" (by decide),
    h.columns "tokenizer_profile_id" (by decide)]
  exact ⟨rfl, rfl⟩

omit [SqlEngine] in
/-- And so does a change of keys. -/
theorem Rekeyed.keyed {previous active : Crypto.SecureCodec} (hkeyed : store.Keyed)
    (h : Rekeyed previous active store store') : store'.Keyed := by
  refine hkeyed.of_converts (forall_primaryKeys ⟨_, _, _, _, rfl, rfl, h.sessions⟩
    ⟨_, _, _, _, rfl, rfl, h.journalEvents⟩ ⟨_, _, _, _, rfl, rfl, h.capsules⟩
    ⟨_, _, _, _, rfl, rfl, h.snapshots⟩) ?_
  obtain ⟨metrics, metrics', hmetrics, hmetrics', hconverts⟩ := h.tokenMetrics
  have hsame {β : Type} (column : Row → β) (hcolumn : ∀ row row', ConvertsMetric previous active row row' →
      column row' = column row) : metrics'.rows.map column = metrics.rows.map column :=
    List.forall₂_eq_eq_eq ▸ List.forall₂_map_left_iff.mpr (List.forall₂_map_right_iff.mpr
      (hconverts.imp fun row row' hrow => hcolumn row row' hrow).flip)
  have hbefore := hkeyed.metrics
  rw [rows_eq hmetrics] at hbefore
  rw [rows_eq hmetrics']
  refine ⟨fun row' hrow' => ?_, ?_, ?_⟩
  · obtain ⟨row, hrow, hconverted⟩ := exists_of_forall₂ hconverts hrow'
    rw [hconverted.keys.1]
    exact hbefore.positive row hrow
  · unfold UniqueKey
    rw [hsame rowId fun _ _ hrow => hrow.keys.1]
    exact hbefore.unique
  · unfold UniqueKey
    rw [hsame metricIdentity fun _ _ hrow => hrow.keys.2]
    exact hbefore.identity

end Transformations

end Records

end AstrContinuum
