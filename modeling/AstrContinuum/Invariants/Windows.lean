import AstrContinuum.Invariants.JobRows
import AstrContinuum.Invariants.Readable
import AstrContinuum.Runtime.ToolCuts

/-!
# Windows of the journal

Readers of one journal see different windows of it: the delta after a snapshot, the prefix up to a
target. `Database.window` is such a window, `window_append` joins two of them, and `Cut` says that
the tool loop is stable where one ends. `Effect.marked` says where targets and coverages come from:
each was raised as the target of an intent.
-/

namespace AstrContinuum

open Checked Relational Transactional

variable [Hashlib]

/-! ## Windows -/

omit [Hashlib] in
/-- A range of sorted rows is two adjacent ranges. -/
theorem filter_range_append {rows : List EventRow}
    (hsorted : rows.Pairwise fun left right => left.sequence ≤ right.sequence)
    {start middle stop : Nat} (hstart : start ≤ middle) (hstop : middle ≤ stop) :
    (rows.filter fun row => decide (start < row.sequence) && decide (row.sequence ≤ stop)) =
      (rows.filter fun row => decide (start < row.sequence) && decide (row.sequence ≤ middle)) ++
        rows.filter fun row => decide (middle < row.sequence) && decide (row.sequence ≤ stop) := by
  induction rows with
  | nil => rfl
  | cons row rest ih =>
      obtain ⟨hfirst, hrest⟩ := List.pairwise_cons.mp hsorted
      by_cases hmiddle : row.sequence ≤ middle
      · have hnot : ¬ middle < row.sequence := by omega
        have hle : row.sequence ≤ stop := by omega
        simp only [List.filter_cons, hmiddle, hnot, hle, decide_true, decide_false, Bool.and_true,
          ih hrest]
        split <;> simp
      · -- every later row lies past the middle as well
        have hnone : (rest.filter fun row =>
            decide (start < row.sequence) && decide (row.sequence ≤ middle)) = [] := by
          refine List.filter_eq_nil_iff.mpr fun other hother => ?_
          have := hfirst other hother
          simp only [Bool.and_eq_true, decide_eq_true_eq, not_and]
          omega
        have hlt : middle < row.sequence := by omega
        have hlt' : start < row.sequence := by omega
        simp only [List.filter_cons, hmiddle, hlt, hlt', decide_true, decide_false, Bool.true_and,
          Bool.and_false, ih hrest, hnone, List.nil_append]
        simp

/-- The events of a session with sequences in `(start, stop]`. -/
def Database.window (db : Database) (sessionKey : SessionKey) (start stop : Nat) :
    List EventEnvelope :=
  (eventsBetween db sessionKey start stop).toOption.getD []

/-- Every window is read. -/
theorem eventsBetween_window (db : Database) (sessionKey : SessionKey) (start stop : Nat) :
    eventsBetween db sessionKey start stop = .ok (db.window sessionKey start stop) ∧
      (db.window sessionKey start stop).map EventEnvelope.row =
        db.eventRowsBetween sessionKey.sessionKeyHash start stop := by
  obtain ⟨events, hevents, hrows⟩ := eventsBetween_total db sessionKey start stop
  have hwindow : db.window sessionKey start stop = events := by
    simp [Database.window, hevents, Except.toOption]
  exact ⟨hwindow ▸ hevents, hwindow ▸ hrows⟩

/-- A window that was read is the window. -/
theorem window_eq {db : Database} {sessionKey : SessionKey} {start stop : Nat}
    {events : List EventEnvelope} (h : eventsBetween db sessionKey start stop = .ok events) :
    db.window sessionKey start stop = events :=
  Except.ok.inj ((eventsBetween_window db sessionKey start stop).1.symm.trans h)

/-- The events of a window belong to its session. -/
theorem window_session {db : Database} {sessionKey : SessionKey} {start stop : Nat}
    {event : EventEnvelope} (h : event ∈ db.window sessionKey start stop) :
    event.sessionKey = sessionKey := by
  have hdata := eventsBetween_ok (eventsBetween_window db sessionKey start stop).1
  have hmem : event.toEventData ∈ (db.window sessionKey start stop).map
      EventEnvelope.toEventData := List.mem_map_of_mem h
  rw [hdata] at hmem
  obtain ⟨row, -, hrow⟩ := List.mem_map.mp hmem
  exact congrArg EventData.sessionKey hrow.symm

section Sound

variable {db : Database} (h : JournalSound db) {session : SessionRow}
  (hsession : session ∈ db.sessions)
include h hsession

/-- Two adjacent windows make one. -/
theorem window_append {start middle stop : Nat} (hstart : start ≤ middle) (hstop : middle ≤ stop) :
    db.window session.sessionKey start stop =
      db.window session.sessionKey start middle ++ db.window session.sessionKey middle stop := by
  have hkey := h.hash session hsession
  have hsorted : (db.journal session.sessionKeyHash).Pairwise
      fun left right => left.sequence ≤ right.sequence := by
    refine List.pairwise_map.mp ?_
    rw [h.sequences session hsession]
    exact List.pairwise_le_range'
  refine window_eq ?_
  unfold eventsBetween
  rw [hkey, h.eventRowsBetween_eq hsession, filter_range_append hsorted hstart hstop,
    ← h.eventRowsBetween_eq hsession, ← h.eventRowsBetween_eq hsession, List.mapM_append, ← hkey]
  refine bind_ok.mpr ⟨_, (eventsBetween_window db session.sessionKey start middle).1, ?_⟩
  exact bind_ok.mpr ⟨_, (eventsBetween_window db session.sessionKey middle stop).1, rfl⟩

/-- A window below the high-water mark has every sequence once, in order. -/
theorem window_sequences {start stop : Nat}
    (hstop : stop ≤ db.highWaterMark session.sessionKeyHash) :
    ((db.window session.sessionKey start stop).map fun event => event.sequence) =
      deltaSequences start stop := by
  have hrows := (eventsBetween_window db session.sessionKey start stop).2
  rw [h.hash session hsession] at hrows
  rw [Database.highWaterMark_of_mem hsession] at hstop
  have hmapped : ((db.window session.sessionKey start stop).map fun event => event.sequence) =
      ((db.window session.sessionKey start stop).map EventEnvelope.row).map
        EventRow.sequence := by
    simp [EventEnvelope.row]
  rw [hmapped, hrows, h.sequencesBetween hsession hstop]

/-- Such a window is contiguous. -/
theorem window_contiguous {start stop : Nat}
    (hstop : stop ≤ db.highWaterMark session.sessionKeyHash) :
    Contiguous (db.window session.sessionKey start stop) := by
  refine ⟨fun event hevent other hother =>
    (window_session hother).trans (window_session hevent).symm, start + 1, ?_⟩
  have hsequences : ((db.window session.sessionKey start stop).map fun event => event.sequence) =
      deltaSequences start stop := window_sequences h hsession hstop
  have hlength := congrArg List.length hsequences
  rw [List.length_map, deltaSequences, List.length_range'] at hlength
  rw [hsequences, deltaSequences, hlength]

end Sound

/-- A window below an old high-water mark never changes. -/
theorem Grows.window_eq {db db' : Database} (h : Grows db db') {sessionKey : SessionKey}
    {start stop : Nat} (hstop : stop ≤ db.highWaterMark sessionKey.sessionKeyHash) :
    db'.window sessionKey start stop = db.window sessionKey start stop := by
  unfold Database.window eventsBetween
  rw [h.eventRowsBetween_eq hstop]

/-! ## Marks -/

/-- Target and intent of every job are marks that `P` accepts for its session. -/
def JobsMarked (P : String → Nat → Prop) (rows : List JobRow) : Prop :=
  ∀ row ∈ rows, P row.sessionKeyHash row.targetHighWaterMark ∧
    P row.sessionKeyHash row.intentTargetHighWaterMark

/-- Every target and every coverage is a mark that `P` accepts for its session. -/
structure Marked (P : String → Nat → Prop) (db : Database) : Prop where
  jobs : JobsMarked P db.compactionJobs
  snapshots : ∀ row ∈ db.snapshots, P row.sessionKeyHash row.coveredEventEnd

namespace JobsMarked

variable {P : String → Nat → Prop} {rows : List JobRow}

omit [Hashlib] in
/-- An update that keeps the marks of the jobs it selects. -/
theorem update (h : JobsMarked P rows) {selected : JobRow → Bool} {change : JobRow → JobRow}
    (hchange : ∀ row ∈ rows, selected row = true →
      P (change row).sessionKeyHash (change row).targetHighWaterMark ∧
        P (change row).sessionKeyHash (change row).intentTargetHighWaterMark) :
    JobsMarked P (Relational.update selected change rows) := by
  intro row hrow
  rcases mem_update.mp hrow with ⟨old, hold, hselected, rfl⟩ | ⟨hold, -⟩
  · exact hchange old hold hselected
  · exact h row hold

/-- A settled job keeps its marks, and its follow-up has its intent. -/
theorem settled (h : JobsMarked P rows) {row : JobRow} (hrow : row ∈ rows)
    (outcome : PublishOutcome) (winnerId : String) (coverage pointerVersion : Nat)
    (now : Timestamp) :
    JobsMarked P (settledJobs outcome row winnerId coverage pointerVersion now rows) := by
  intro other hother
  rcases List.mem_append.mp hother with hother | hother
  · rcases mem_update.mp hother with ⟨old, hold, -, rfl⟩ | ⟨hold, -⟩
    · exact h old hold
    · exact h other hold
  · unfold followUpJobs at hother
    split at hother
    · cases hother
    · obtain rfl := List.mem_singleton.mp hother
      exact ⟨(h row hrow).2, (h row hrow).2⟩

end JobsMarked

/-- A committed candidate covers the target of its job. -/
theorem Admits.coveredEventEnd_eq {db : Database} {request : PublishRequest}
    {admission : Admission} {row : JobRow} (h : Admits db request admission row) :
    request.snapshotRow.coveredEventEnd = row.targetHighWaterMark := by
  obtain ⟨previous, sourceEvents, -, -, hpassed⟩ := h.gate
  have hfails := validate_permanent_passed.mp hpassed .targetMismatch
  simp only [PermanentInput.Fails, not_or, not_not] at hfails
  refine Eq.trans hfails.1 ?_
  show admission.job.targetHighWaterMark = _
  rw [h.represents.fields]
  rfl

/-- Every target and coverage was raised: a call adds a mark only as the target of its intent. -/
theorem Effect.marked {P : String → Nat → Prop} {db db' : Database} {operation : Operation}
    {response : Response} (h : Effect db operation db' response) (hmarked : Marked P db)
    (hraise : ∀ jobId sessionKey target now,
      operation = .raiseCompactionIntent jobId sessionKey target now →
      P sessionKey.sessionKeyHash target) : Marked P db' := by
  cases h with
  | captured _ heffect =>
      cases heffect with
      | replayed _ hold | appended _ _ _ _ _ _ hold =>
          exact ⟨hold.compactionJobs ▸ hmarked.jobs, hold.snapshots ▸ hmarked.snapshots⟩
  | sidecar _ hholds =>
      exact ⟨hholds.compactionJobs ▸ hmarked.jobs, hholds.snapshots ▸ hmarked.snapshots⟩
  | intentCovered | intentCarried | claimedNone | viewed => exact hmarked
  | intentFolded hrow hsession _ _ _ htables =>
      have hholds := Database.Holds.of_eq htables
      refine ⟨hholds.compactionJobs ▸ hmarked.jobs.update fun old hold hselected => ?_,
        hholds.snapshots ▸ hmarked.snapshots⟩
      obtain rfl := db.consistent.compactionJobs.primaryKey.eq_of_key hold hrow
        (by simpa using hselected)
      refine ⟨(hmarked.jobs old hold).1, ?_⟩
      show P old.sessionKeyHash _
      rw [hsession]
      exact hraise _ _ _ _ rfl
  | intentQueued _ _ _ htables =>
      have hholds := Database.Holds.of_eq htables
      refine ⟨hholds.compactionJobs ▸ fun other hother => ?_,
        hholds.snapshots ▸ hmarked.snapshots⟩
      rcases List.mem_append.mp hother with hother | hother
      · exact hmarked.jobs other hother
      · obtain rfl := List.mem_singleton.mp hother
        exact ⟨hraise _ _ _ _ rfl, hraise _ _ _ _ rfl⟩
  | claimed _ _ _ htables =>
      -- the lease freezes the intent as the target
      have hholds := Database.Holds.of_eq htables
      exact ⟨hholds.compactionJobs ▸ hmarked.jobs.update fun row hrow _ =>
        ⟨(hmarked.jobs row hrow).2, (hmarked.jobs row hrow).2⟩,
        hholds.snapshots ▸ hmarked.snapshots⟩
  | transitioned _ _ _ htables | renewed _ _ htables | failed _ _ htables | recovered htables =>
      have hholds := Database.Holds.of_eq htables
      exact ⟨hholds.compactionJobs ▸ hmarked.jobs.update fun row hrow _ => hmarked.jobs row hrow,
        hholds.snapshots ▸ hmarked.snapshots⟩
  | superseded hadmits _ _ _ _ htables =>
      have hholds := Database.Holds.of_eq htables
      exact ⟨hholds.compactionJobs ▸
        hmarked.jobs.settled (Database.jobRow_eq_some.mp hadmits.stored).1 _ _ _ _ _,
        hholds.snapshots ▸ hmarked.snapshots⟩
  | @committed request admission row staged _ _ hadmits hstaged _ _ htables =>
      have hholds := Database.Holds.of_eq htables
      have hrow : row ∈ db.compactionJobs := (Database.jobRow_eq_some.mp hadmits.stored).1
      refine ⟨hholds.compactionJobs ▸ hmarked.jobs.settled hrow _ _ _ _ _, ?_⟩
      have hsnapshots : db'.snapshots = db.snapshots ++ [request.snapshotRow] :=
        hholds.snapshots.trans (hadmits.snapshots_eq hstaged)
      rw [hsnapshots]
      intro other hother
      rcases List.mem_append.mp hother with hother | hother
      · exact hmarked.snapshots other hother
      · obtain rfl := List.mem_singleton.mp hother
        rw [hadmits.snapshotRow_session, hadmits.coveredEventEnd_eq]
        exact (hmarked.jobs row hrow).1

end AstrContinuum
