import Mathlib.Data.List.Perm.Basic
import AstrContinuum.Invariants.Reencryption

/-!
# The contents of a store

What a store says, however it is encrypted: the records of the protected tables, each with its key, the
plaintexts of its cells and its other columns, the counts of the metrics, and the rows of all other tables.
`Reads` relates a store and an encryption to contents. Each re-encryption carries the contents over
(`LegacyEncrypted.reads`, `FormatTwoCopied.reads`, `Rekeyed.reads`).
-/

namespace AstrContinuum

namespace Records

open Checked Relational Migrations Crypto

/-- A protected table: its cells, and the columns beside them. -/
structure Protected where
  name : String
  primaryKey : String
  cells : List Cell
  columns : List String
deriving DecidableEq

/-- The sessions. -/
def protectedSessions : Protected :=
  ⟨"sessions", "session_key_hash", formatTwoSessions.cells, legacySessions.columns⟩

/-- The events. -/
def protectedJournalEvents : Protected :=
  ⟨"journal_events", "event_id", formatTwoJournalEvents.cells, formatTwoJournalEvents.columns⟩

/-- The capsules. -/
def protectedCapsules : Protected :=
  ⟨"capsules", "capsule_id", formatTwoCapsules.cells, formatTwoCapsules.columns⟩

/-- The snapshots. -/
def protectedSnapshots : Protected :=
  ⟨"snapshots", "snapshot_id", formatTwoSnapshots.cells, formatTwoSnapshots.columns⟩

/-- `_PROTECTED_TABLES`. -/
def protectedTables : List Protected :=
  [protectedSessions, protectedJournalEvents, protectedCapsules, protectedSnapshots]

/-- A record of a protected table. -/
structure Record where
  key : SqlValue
  cells : List Plaintext
  columns : List SqlValue
deriving DecidableEq

/-- A metric. -/
structure MetricRecord where
  identity : SqlValue × SqlValue × SqlValue
  plaintext : String
  createdAt : SqlValue
deriving DecidableEq

/-- What a store says. -/
structure Contents where
  records : String → List Record
  metrics : List MetricRecord
  others : String → List Row

section Contents

variable [Primitives]

/-- What a row of a protected table says. -/
structure Tells (encryption : Encryption) (spec : Protected) (row : Row) (record : Record) : Prop where
  key : row spec.primaryKey = record.key
  cells : List.Forall₂ (fun cell plaintext =>
    readCell encryption spec.name (textKey spec.primaryKey row) cell row = .ok plaintext) spec.cells record.cells
  columns : spec.columns.map row = record.columns

/-- What a metric says. -/
structure TellsMetric (codec : Crypto.SecureCodec) (row : Row) (record : MetricRecord) : Prop where
  identity : metricIdentity row = record.identity
  plaintext : ∃ metric, metricEnvelope row = .ok metric ∧
    codec.decryptText "token_metrics" "metric_envelope" metric.recordKey metric.envelope = .ok record.plaintext
  createdAt : row "created_at" = record.createdAt

/-- The rows say the records, in some order. -/
def AllTell {α : Type} (tells : Row → α → Prop) (rows : List Row) (records : List α) : Prop :=
  ∃ order : List Row, order.Perm rows ∧ List.Forall₂ tells order records

/-- What the metrics say. Only the second format has any. -/
def MetricsTell : Encryption → List Row → List MetricRecord → Prop
  | .formatTwo codec, rows, records => AllTell (TellsMetric codec) rows records
  | _, rows, records => rows = [] ∧ records = []

/-- A store with these contents under an encryption. -/
structure Reads (encryption : Encryption) (contents : Contents) (store : Store) : Prop where
  keyed : store.Keyed
  records : ∀ spec ∈ protectedTables,
    AllTell (Tells encryption spec) (store.rows spec.name) (contents.records spec.name)
  metrics : MetricsTell encryption (store.rows "token_metrics") contents.metrics
  others : ∀ name, name ∉ protectedTables.map Protected.name → name ≠ "token_metrics" →
    store.rows name = contents.others name

/-! ## Conversions carry contents -/

/-- A conversion between two encryptions that carries a protected table over: every cell is converted or read
alike before and after, and every other column is kept. -/
structure Carries (before after : Encryption) (spec : Protected) (conversion : Conversion)
    (kept : String → Prop) : Prop where
  name : conversion.table = spec.name
  primaryKey : conversion.primaryKey = spec.primaryKey
  cells : ∀ cell ∈ spec.cells, cell ∈ conversion.cells ∨ kept cell.column ∧
    ∀ recordKey (row row' : Row), row' cell.column = row cell.column →
      readCell after spec.name recordKey cell row' = readCell before spec.name recordKey cell row
  columns : ∀ column ∈ spec.columns, kept column

variable {before after : Encryption} {spec : Protected} {conversion : Conversion} {kept : String → Prop}

/-- A converted row says what it said. -/
theorem Converts.tells {row row' : Row} {record : Record} (hcarries : Carries before after spec conversion kept)
    (hconverts : Converts before after conversion kept row row') (h : Tells before spec row record) :
    Tells after spec row' record := by
  obtain ⟨hname, hprimary, hcells, hcolumns⟩ := hcarries
  have hkey := hconverts.key
  rw [hprimary] at hkey
  have htext : textKey spec.primaryKey row' = textKey spec.primaryKey row := congrArg SqlValue.str hkey
  refine ⟨hkey.trans h.key, ?_, ?_⟩
  · refine forall₂_weaken h.cells fun cell hcell plaintext hread => ?_
    rcases hcells cell hcell with hconverted | ⟨hkept, hsame⟩
    · obtain ⟨read, hbefore, hafter⟩ := hconverts.cells cell hconverted
      rw [hname, hprimary] at hbefore hafter
      obtain rfl := Except.ok.inj (hbefore.symm.trans hread)
      exact hafter
    · rw [htext, hsame _ row row' (hconverts.columns _ hkept)]
      exact hread
  · rw [← h.columns]
    exact List.map_congr_left fun column hcolumn => hconverts.columns column (hcolumns column hcolumn)

omit [Primitives] in
/-- Rows that are related to rows that say records say these records. -/
theorem AllTell.of_forall₂ {α : Type} {tells tells' : Row → α → Prop} {R : Row → Row → Prop} {rows order rows' : List Row}
    {records : List α} (h : AllTell tells rows records) (hperm : order.Perm rows)
    (hrelated : List.Forall₂ R order rows')
    (htells : ∀ row row' record, R row row' → tells row record → tells' row' record) : AllTell tells' rows' records := by
  obtain ⟨first, hfirst, hrecords⟩ := h
  obtain ⟨between, hbetween, hlast⟩ : Relation.Comp (List.Forall₂ R) List.Perm first rows' := by
    rw [List.forall₂_comp_perm_eq_perm_comp_forall₂]
    exact ⟨order, hfirst.trans hperm.symm, hrelated⟩
  refine ⟨between, hlast, ?_⟩
  clear hlast hfirst hperm hrelated
  induction hbetween generalizing records with
  | nil =>
      cases hrecords
      exact .nil
  | cons hrow _ ih =>
      cases hrecords with
      | cons hrecord hrest => exact .cons (htells _ _ _ hrow hrecord) (ih hrest)

/-- A converted table says what it said. -/
theorem ConvertsIn.allTell {store store' : Store} {records : List Record}
    (h : ConvertsIn before after conversion kept store store')
    (hcarries : Carries before after spec conversion kept)
    (htells : AllTell (Tells before spec) (store.rows spec.name) records) :
    AllTell (Tells after spec) (store'.rows spec.name) records := by
  obtain ⟨table, table', htable, htable', order, hperm, hrows⟩ := h
  rw [hcarries.name] at htable htable'
  rw [rows_eq htable] at htells
  rw [rows_eq htable']
  exact htells.of_forall₂ hperm hrows fun _ _ _ hconverts hrow => hconverts.tells hcarries hrow

omit [Primitives] in
/-- A property of all protected tables. -/
theorem forall_protectedTables {P : Protected → Prop} (hsessions : P protectedSessions)
    (hevents : P protectedJournalEvents) (hcapsules : P protectedCapsules) (hsnapshots : P protectedSnapshots) :
    ∀ spec ∈ protectedTables, P spec :=
  List.forall_mem_cons.mpr ⟨hsessions, List.forall_mem_cons.mpr ⟨hevents, List.forall_mem_cons.mpr
    ⟨hcapsules, List.forall_mem_singleton.mpr hsnapshots⟩⟩⟩

/-- A count in clear text is read alike without encryption and in the first format. -/
theorem carries_count {cell : Cell} (hcell : cell.protection = .count) (codec : Crypto.SecureCodec)
    (table recordKey : String) (row row' : Row) (hsame : row' cell.column = row cell.column) :
    readCell (.formatOne codec) table recordKey cell row' = readCell .none table recordKey cell row := by
  show (if cell.protection = .count then _ else _) = clearCell cell row
  rw [if_pos hcell, hsame, clearCell, hcell]

variable {store store' : Store} {contents : Contents}

/-- The first encryption carries the contents over. -/
theorem LegacyEncrypted.reads {codec : Crypto.SecureCodec} (h : LegacyEncrypted codec store store')
    (hreads : Reads .none contents store) : Reads (.formatOne codec) contents store' := by
  have hcount {cell : Cell} (hcell : cell.protection = .count) (table : String) :=
    carries_count hcell codec table
  refine ⟨h.keyed hreads.keyed, forall_protectedTables ?_ ?_ ?_ ?_, ?_, fun name hname hmetric => ?_⟩
  · refine h.sessions.allTell ⟨rfl, rfl, fun cell hcell => .inl ?_, fun _ hcolumn => hcolumn⟩
      (hreads.records protectedSessions (by decide))
    exact (show ∀ cell ∈ protectedSessions.cells, cell ∈ legacySessions.cells by decide) cell hcell
  · refine h.journalEvents.allTell ⟨rfl, rfl, ?_, by decide⟩ (hreads.records protectedJournalEvents (by decide))
    exact List.forall_mem_cons.mpr ⟨.inl List.mem_cons_self, List.forall_mem_singleton.mpr
      (.inr ⟨by decide, hcount rfl _⟩)⟩
  · refine h.capsules.allTell ⟨rfl, rfl, ?_, by decide⟩ (hreads.records protectedCapsules (by decide))
    exact List.forall_mem_cons.mpr ⟨.inl List.mem_cons_self, List.forall_mem_singleton.mpr
      (.inr ⟨by decide, hcount rfl _⟩)⟩
  · refine h.snapshots.allTell ⟨rfl, rfl, ?_, by decide⟩ (hreads.records protectedSnapshots (by decide))
    exact List.forall_mem_cons.mpr ⟨.inl (by decide), List.forall_mem_cons.mpr ⟨.inl (by decide),
      List.forall_mem_cons.mpr ⟨.inr ⟨by decide, hcount rfl _⟩, List.forall_mem_singleton.mpr
        (.inl (by decide))⟩⟩⟩
  · rw [Store.rows, h.others "token_metrics" (by decide)]
    exact hreads.metrics
  · rw [Store.rows, h.others name hname]
    exact hreads.others name hname hmetric

/-- The move to the second format carries the contents over. -/
theorem FormatTwoCopied.reads {source target : Crypto.SecureCodec}
    (h : FormatTwoCopied source target store store') (hreads : Reads (.formatOne source) contents store) :
    Reads (.formatTwo target) contents store' := by
  obtain ⟨hnone, definition, hnew⟩ := h.tokenMetrics
  obtain ⟨hnoIntents, intents, hintents⟩ := h.intents
  refine ⟨h.keyed hreads.keyed, forall_protectedTables ?_ ?_ ?_ ?_, ?_, fun name hname hmetric => ?_⟩
  · exact h.sessions.allTell ⟨rfl, rfl, fun _ hcell => .inl hcell, by decide⟩
      (hreads.records protectedSessions (by decide))
  · exact h.journalEvents.allTell ⟨rfl, rfl, fun _ hcell => .inl hcell, fun _ hcolumn => hcolumn⟩
      (hreads.records protectedJournalEvents (by decide))
  · exact h.capsules.allTell ⟨rfl, rfl, fun _ hcell => .inl hcell, fun _ hcolumn => hcolumn⟩
      (hreads.records protectedCapsules (by decide))
  · exact h.snapshots.allTell ⟨rfl, rfl, fun _ hcell => .inl hcell, fun _ hcolumn => hcolumn⟩
      (hreads.records protectedSnapshots (by decide))
  · obtain ⟨-, hmetrics⟩ := hreads.metrics
    rw [rows_eq hnew, hmetrics]
    exact ⟨[], .refl _, .nil⟩
  · rw [← hreads.others name hname hmetric]
    by_cases hname' : name = "token_metric_backfill_intents"
    · rw [hname', rows_eq hintents, Store.rows, hnoIntents]
      rfl
    · rw [Store.rows, h.others name hname hmetric hname']
      rfl

/-- A change of keys carries the contents over. -/
theorem Rekeyed.reads {previous active : Crypto.SecureCodec} (h : Rekeyed previous active store store')
    (hreads : Reads (.formatTwo previous) contents store) : Reads (.formatTwo active) contents store' := by
  obtain ⟨metrics, metrics', hmetrics, hmetrics', hconverts⟩ := h.tokenMetrics
  refine ⟨h.keyed hreads.keyed, forall_protectedTables ?_ ?_ ?_ ?_, ?_, fun name hname hmetric => ?_⟩
  · exact h.sessions.allTell ⟨rfl, rfl, fun _ hcell => .inl hcell, by decide⟩
      (hreads.records protectedSessions (by decide))
  · exact h.journalEvents.allTell ⟨rfl, rfl, fun _ hcell => .inl hcell, by decide⟩
      (hreads.records protectedJournalEvents (by decide))
  · exact h.capsules.allTell ⟨rfl, rfl, fun _ hcell => .inl hcell, by decide⟩
      (hreads.records protectedCapsules (by decide))
  · exact h.snapshots.allTell ⟨rfl, rfl, fun _ hcell => .inl hcell, by decide⟩
      (hreads.records protectedSnapshots (by decide))
  · have hbefore : AllTell (TellsMetric previous) (store.rows "token_metrics") contents.metrics := hreads.metrics
    rw [rows_eq hmetrics] at hbefore
    show AllTell (TellsMetric active) (store'.rows "token_metrics") contents.metrics
    rw [rows_eq hmetrics']
    refine hbefore.of_forall₂ (.refl _) hconverts fun row row' record hrow htells => ?_
    obtain ⟨metric, metric', plaintext, hmetric, hmetric', hsame, hprevious, hactive⟩ := hrow.envelope
    obtain ⟨read, hread, hplaintext⟩ := htells.plaintext
    obtain rfl := Except.ok.inj (hmetric.symm.trans hread)
    obtain rfl := Except.ok.inj (hprevious.symm.trans hplaintext)
    refine ⟨hrow.keys.2.trans htells.identity, ⟨metric', hmetric', hactive⟩, ?_⟩
    rw [hrow.columns "created_at" (by decide)]
    exact htells.createdAt
  · rw [Store.rows, h.others name hname hmetric]
    exact hreads.others name hname hmetric

end Contents

end Records

end AstrContinuum
