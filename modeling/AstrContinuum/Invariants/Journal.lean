import Mathlib.Data.List.Infix
import AstrContinuum.Storage.Effect

/-!
# The journal

Every stored session hashes to its primary key, and its events carry the sequences from one to the
last allocated one, in the order in which they were appended. No call changes or removes a stored
event, so a range of the journal below the high-water mark reads the same for ever.
-/

namespace AstrContinuum

open Checked Relational

variable [Hashlib]

/-- The journal of a session, in insertion order. -/
def Database.journal (db : Database) (hash : String) : List EventRow :=
  db.journalEvents.filter fun row => row.sessionKeyHash = hash

/-- The journal invariant. -/
structure JournalSound (db : Database) : Prop where
  hash : ∀ row ∈ db.sessions, row.sessionKey.sessionKeyHash = row.sessionKeyHash
  sequences : ∀ row ∈ db.sessions, (db.journal row.sessionKeyHash).map EventRow.sequence =
    List.range' 1 (row.nextEventSequence - 1)

omit [Hashlib] in
/-- A session that is not stored has no events. -/
theorem Database.journal_eq_nil {db : Database} {hash : String}
    (h : ∀ row ∈ db.sessions, row.sessionKeyHash ≠ hash) : db.journal hash = [] := by
  refine List.filter_eq_nil_iff.mpr fun row hrow => ?_
  have href := db.consistent.journalEvents.session row hrow row.sessionKeyHash rfl
  obtain ⟨session, hsession, hhash⟩ := List.mem_map.mp href
  simp only [decide_eq_true_eq]
  rintro rfl
  exact h session hsession hhash

/-- After `_ensure_session` the invariant holds of the sessions it leaves. -/
theorem Opened.sound {db : Database} {sessionKey : SessionKey} {sessions : List SessionRow}
    (h : Opened db sessionKey sessions) (hsound : JournalSound db) :
    ∀ row ∈ sessions, row.sessionKey.sessionKeyHash = row.sessionKeyHash ∧
      (db.journal row.sessionKeyHash).map EventRow.sequence =
        List.range' 1 (row.nextEventSequence - 1) := by
  cases h with
  | existing hmem hhash hkey => exact fun row hrow => ⟨hsound.hash row hrow, hsound.sequences row hrow⟩
  | created timestamp hnew =>
      intro row hrow
      rcases List.mem_append.mp hrow with hrow | hrow
      · exact ⟨hsound.hash row hrow, hsound.sequences row hrow⟩
      · obtain rfl := List.mem_singleton.mp hrow
        exact ⟨rfl, by simp [Database.journal_eq_nil hnew]⟩

/-- The sessions after `_ensure_session` are the old ones, perhaps with one more. -/
theorem Opened.sublist {db : Database} {sessionKey : SessionKey} {sessions : List SessionRow}
    (h : Opened db sessionKey sessions) : ∀ row ∈ db.sessions, row ∈ sessions := by
  cases h with
  | existing => exact fun row hrow => hrow
  | created => exact fun row hrow => List.mem_append_left _ hrow

omit [Hashlib] in
/-- An appended event extends the journal of its own session only. -/
theorem Database.journal_append {db db' : Database} {event : EventRow}
    (h : db'.journalEvents = db.journalEvents ++ [event]) (hash : String) :
    db'.journal hash =
      db.journal hash ++ if event.sessionKeyHash = hash then [event] else [] := by
  simp only [Database.journal, h, List.filter_append]
  by_cases hhash : event.sessionKeyHash = hash <;> simp [hhash]

/-- A capture keeps the journal invariant. -/
theorem CaptureEffect.journalSound {db db' : Database} {sessionKey : SessionKey}
    {event : EventEnvelope} (h : CaptureEffect db sessionKey event db')
    (hsound : JournalSound db) : JournalSound db' := by
  cases h with
  | replayed hopen hold =>
      have hjournal : db'.journal = db.journal := by
        funext hash
        simp [Database.journal, hold.journalEvents]
      constructor
      · intro row hrow
        rw [hold.sessions] at hrow
        exact (hopen.sound hsound row hrow).1
      · intro row hrow
        rw [hold.sessions] at hrow
        rw [hjournal]
        exact (hopen.sound hsound row hrow).2
  | @appended sessions row _ now hopen hrow hhash hkey hsequence hold =>
      have hrowHash : event.row.sessionKeyHash = row.sessionKeyHash := by
        rw [hhash, ← hkey]
        rfl
      have hunique : UniqueKey SessionRow.sessionKeyHash sessions := by
        have hkeys := db'.consistent.sessions.primaryKey
        rw [UniqueKey, hold.sessions, map_update _ _ (by intros; rfl)] at hkeys
        exact hkeys
      have hnext : 1 ≤ row.nextEventSequence := by
        rw [← hsequence]
        exact event.valid.2.1
      constructor
      · intro other hother
        rw [hold.sessions] at hother
        rcases mem_update.mp hother with ⟨old, hold', -, rfl⟩ | ⟨hother, -⟩
        · exact (hopen.sound hsound old hold').1
        · exact (hopen.sound hsound other hother).1
      · intro other hother
        rw [hold.sessions] at hother
        rw [Database.journal_append hold.journalEvents, hrowHash]
        rcases mem_update.mp hother with ⟨old, hold', hselected, rfl⟩ | ⟨hother, hselected⟩
        · -- The allocated row: its journal grows by the sequence it held before.
          simp only [Bool.and_eq_true, decide_eq_true_eq] at hselected
          obtain rfl := hunique.eq_of_key hold' hrow (hselected.1.trans hhash.symm)
          have hsequences := (hopen.sound hsound old hold').2
          have hsplit : old.nextEventSequence = old.nextEventSequence - 1 + 1 := by omega
          simp only [SessionRow.allocate, if_true, List.map_append, hsequences, List.map_cons,
            List.map_nil, Nat.add_sub_cancel]
          conv_rhs => rw [hsplit, List.range'_1_concat]
          rw [show event.row.sequence = 1 + (old.nextEventSequence - 1) from by
            rw [show event.row.sequence = event.sequence from rfl, hsequence]
            omega]
        · -- Any other row belongs to another session.
          have hne : row.sessionKeyHash ≠ other.sessionKeyHash := by
            intro heq
            obtain rfl := hunique.eq_of_key hrow hother heq
            simp [hhash] at hselected
          rw [if_neg hne, List.append_nil]
          exact (hopen.sound hsound other hother).2

end AstrContinuum
