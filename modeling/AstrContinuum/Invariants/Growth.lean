import AstrContinuum.Invariants.Journal

/-!
# Growth

Every committed call only adds to the journal, the capsules, the snapshots and their memberships.
`Grows` says so, `Effect.grows` proves it of every call, and the lemmas of `Grows` are what a reader
of old data may rely on: an old snapshot keeps its capsules, and a covered range of the journal
keeps its events.
-/

namespace AstrContinuum

open Checked Relational

variable [Hashlib]

/-- The durable history of `db` is a prefix of that of `db'`. -/
structure Grows (db db' : Database) : Prop where
  sessions : ∀ row ∈ db.sessions, ∃ row' ∈ db'.sessions,
    row'.sessionKeyHash = row.sessionKeyHash ∧ row'.sessionKey = row.sessionKey ∧
      row.nextEventSequence ≤ row'.nextEventSequence
  journalEvents : ∃ added, db'.journalEvents = db.journalEvents ++ added ∧
    ∀ event ∈ added, db.highWaterMark event.sessionKeyHash < event.sequence
  capsules : ∃ added, db'.capsules = db.capsules ++ added
  snapshots : ∃ added, db'.snapshots = db.snapshots ++ added
  snapshotCapsules : ∃ added, db'.snapshotCapsules = db.snapshotCapsules ++ added ∧
    ∀ membership ∈ added, membership.snapshotId ∉ db.snapshotIds

omit [Hashlib] in
/-- The high-water mark of a stored session. -/
theorem Database.highWaterMark_of_mem {db : Database} {row : SessionRow}
    (h : row ∈ db.sessions) : db.highWaterMark row.sessionKeyHash = row.nextEventSequence - 1 := by
  simp [Database.highWaterMark, Database.sessionRow_eq_some.mpr ⟨h, rfl⟩]

omit [Hashlib] in
/-- A session that is not stored has high-water mark zero. -/
theorem Database.highWaterMark_eq_zero {db : Database} {hash : String}
    (h : ∀ row ∈ db.sessions, row.sessionKeyHash ≠ hash) : db.highWaterMark hash = 0 := by
  simp [Database.highWaterMark, Database.sessionRow, find_eq_none.mpr h]

/-! ## What growth preserves -/

namespace Grows

variable {db db' : Database}

omit [Hashlib] in
/-- Calls that leave the history alone. -/
theorem of_eq (hsessions : db'.sessions = db.sessions)
    (hjournal : db'.journalEvents = db.journalEvents) (hcapsules : db'.capsules = db.capsules)
    (hsnapshots : db'.snapshots = db.snapshots)
    (hmemberships : db'.snapshotCapsules = db.snapshotCapsules) : Grows db db' where
  sessions row hrow := ⟨row, by rwa [hsessions], rfl, rfl, le_rfl⟩
  journalEvents := ⟨[], by simp [hjournal], by simp⟩
  capsules := ⟨[], by simp [hcapsules]⟩
  snapshots := ⟨[], by simp [hsnapshots]⟩
  snapshotCapsules := ⟨[], by simp [hmemberships], by simp⟩

omit [Hashlib] in
/-- Every history is a prefix of itself. -/
theorem refl (db : Database) : Grows db db :=
  .of_eq rfl rfl rfl rfl rfl

variable (h : Grows db db')
include h

omit [Hashlib] in
/-- No high-water mark goes back. -/
theorem highWaterMark_le (hash : String) : db.highWaterMark hash ≤ db'.highWaterMark hash := by
  cases hrow : db.sessionRow hash with
  | none => simp [Database.highWaterMark, hrow]
  | some row =>
      obtain ⟨hmem, rfl⟩ := Database.sessionRow_eq_some.mp hrow
      obtain ⟨row', hmem', hhash, -, hle⟩ := h.sessions row hmem
      rw [Database.highWaterMark_of_mem hmem, ← hhash, Database.highWaterMark_of_mem hmem']
      omega

omit [Hashlib] in
/-- Growth composes. -/
theorem trans {db'' : Database} (h' : Grows db' db'') : Grows db db'' := by
  obtain ⟨events, hevents, hnew⟩ := h.journalEvents
  obtain ⟨events', hevents', hnew'⟩ := h'.journalEvents
  obtain ⟨capsules, hcapsules⟩ := h.capsules
  obtain ⟨capsules', hcapsules'⟩ := h'.capsules
  obtain ⟨snapshots, hsnapshots⟩ := h.snapshots
  obtain ⟨snapshots', hsnapshots'⟩ := h'.snapshots
  obtain ⟨members, hmembers, hfresh⟩ := h.snapshotCapsules
  obtain ⟨members', hmembers', hfresh'⟩ := h'.snapshotCapsules
  refine ⟨?_, ⟨events ++ events', by rw [hevents', hevents, List.append_assoc], ?_⟩,
    ⟨capsules ++ capsules', by rw [hcapsules', hcapsules, List.append_assoc]⟩,
    ⟨snapshots ++ snapshots', by rw [hsnapshots', hsnapshots, List.append_assoc]⟩,
    ⟨members ++ members', by rw [hmembers', hmembers, List.append_assoc], ?_⟩⟩
  · intro row hrow
    obtain ⟨row', hrow', hhash, hkey, hle⟩ := h.sessions row hrow
    obtain ⟨row'', hrow'', hhash', hkey', hle'⟩ := h'.sessions row' hrow'
    exact ⟨row'', hrow'', hhash'.trans hhash, hkey'.trans hkey, hle.trans hle'⟩
  · intro event hevent
    rcases List.mem_append.mp hevent with hevent | hevent
    · exact hnew event hevent
    · exact (h.highWaterMark_le _).trans_lt (hnew' event hevent)
  · intro membership hmembership
    rcases List.mem_append.mp hmembership with hmembership | hmembership
    · exact hfresh membership hmembership
    · intro hold
      refine hfresh' membership hmembership ?_
      rw [Tables.snapshotIds, hsnapshots, List.map_append]
      exact List.mem_append_left _ hold

omit [Hashlib] in
/-- The journal up to an old high-water mark reads the same. -/
theorem eventRowsBetween_eq {hash : String} {start stop : Nat}
    (hstop : stop ≤ db.highWaterMark hash) :
    db'.eventRowsBetween hash start stop = db.eventRowsBetween hash start stop := by
  obtain ⟨added, hadded, hnew⟩ := h.journalEvents
  have hnone : added.filter (fun row => decide (row.sessionKeyHash = hash) &&
      decide (start < row.sequence) && decide (row.sequence ≤ stop)) = [] := by
    refine List.filter_eq_nil_iff.mpr fun row hrow => ?_
    have := hnew row hrow
    simp only [Bool.and_eq_true, decide_eq_true_eq, not_and]
    rintro ⟨rfl, -⟩
    omega
  simp only [Database.eventRowsBetween, hadded, List.filter_append, hnone, List.append_nil]

omit [Hashlib] in
/-- An old capsule id reads the same. -/
theorem filter_capsules_eq {capsuleId : String} (hid : capsuleId ∈ db.capsuleIds) :
    db'.capsules.filter (fun row => row.capsuleId = capsuleId) =
      db.capsules.filter (fun row => row.capsuleId = capsuleId) := by
  obtain ⟨row, hrow, rfl⟩ := List.mem_map.mp hid
  obtain ⟨added, hadded⟩ := h.capsules
  have hrow' : row ∈ db'.capsules := by
    rw [hadded]
    exact List.mem_append_left _ hrow
  rw [db'.consistent.capsules.primaryKey.filter_eq hrow',
    db.consistent.capsules.primaryKey.filter_eq hrow]

omit [Hashlib] in
/-- An old snapshot keeps its memberships. -/
theorem membershipRows_eq {snapshotId : String} (hid : snapshotId ∈ db.snapshotIds) :
    db'.membershipRows snapshotId = db.membershipRows snapshotId := by
  obtain ⟨added, hadded, hnew⟩ := h.snapshotCapsules
  have hnone : added.filter (fun row => row.snapshotId = snapshotId) = [] := by
    refine List.filter_eq_nil_iff.mpr fun row hrow => ?_
    simp only [decide_eq_true_eq]
    rintro rfl
    exact hnew row hrow hid
  simp only [Database.membershipRows, hadded, List.filter_append, hnone, List.append_nil]
  congr 1
  refine List.flatMap_congr fun membership hmembership => ?_
  have hstored := db.consistent.snapshotCapsules.capsule membership
    (List.mem_filter.mp hmembership).1 membership.capsuleId rfl
  rw [h.filter_capsules_eq hstored]

omit [Hashlib] in
/-- An old snapshot keeps its capsules. -/
theorem capsulesOf_eq {snapshotId : String} (hid : snapshotId ∈ db.snapshotIds) :
    db'.capsulesOf snapshotId = db.capsulesOf snapshotId := by
  simp only [Database.capsulesOf, h.membershipRows_eq hid]

end Grows

/-! ## Every call grows the history -/

/-- A capture only adds to the journal. -/
theorem CaptureEffect.grows {db db' : Database} {sessionKey : SessionKey} {event : EventEnvelope}
    (h : CaptureEffect db sessionKey event db') : Grows db db' := by
  cases h with
  | replayed hopen hold =>
      refine ⟨?_, ⟨[], by simp [hold.journalEvents], by simp⟩, ⟨[], by simp [hold.capsules]⟩,
        ⟨[], by simp [hold.snapshots]⟩, ⟨[], by simp [hold.snapshotCapsules], by simp⟩⟩
      intro row hrow
      exact ⟨row, by rw [hold.sessions]; exact hopen.sublist row hrow, rfl, rfl, le_rfl⟩
  | @appended sessions row _ now hopen hrow hhash hkey hsequence hold =>
      refine ⟨?_, ⟨[event.row], hold.journalEvents, ?_⟩, ⟨[], by simp [hold.capsules]⟩,
        ⟨[], by simp [hold.snapshots]⟩, ⟨[], by simp [hold.snapshotCapsules], by simp⟩⟩
      · intro old hold'
        have hmem := hopen.sublist old hold'
        by_cases hselected : old.sessionKeyHash = sessionKey.sessionKeyHash ∧
            old.nextEventSequence = row.nextEventSequence
        · refine ⟨old.allocate now, ?_, rfl, rfl, Nat.le_succ _⟩
          rw [hold.sessions]
          exact mem_update.mpr (.inl ⟨old, hmem, by simpa using hselected, rfl⟩)
        · refine ⟨old, ?_, rfl, rfl, le_rfl⟩
          rw [hold.sessions]
          exact mem_update.mpr (.inr ⟨hmem, by simpa using hselected⟩)
      · intro added hadded
        obtain rfl := List.mem_singleton.mp hadded
        have heventHash : event.row.sessionKeyHash = row.sessionKeyHash := by
          rw [hhash, ← hkey]
          rfl
        have hnext : 1 ≤ row.nextEventSequence := by
          rw [← hsequence]
          exact event.valid.2.1
        rw [heventHash, show event.row.sequence = row.nextEventSequence from hsequence]
        cases hopen with
        | existing =>
            rw [Database.highWaterMark_of_mem hrow]
            omega
        | created timestamp hnew =>
            rw [hhash, Database.highWaterMark_eq_zero hnew]
            exact hnext

/-- A staged candidate only adds capsules, one snapshot and its memberships. -/
theorem Staged.grows {db db' : Database} {request : PublishRequest}
    {job : CompactionJobEnvelope} {committed : SnapshotEnvelope}
    (h : Staged db request job committed db') : Grows db db' := by
  obtain ⟨added, hcapsules, -⟩ := h.capsules
  obtain ⟨committedAt, -, hsnapshots⟩ := h.snapshots
  refine ⟨fun row hrow => ⟨row, by rwa [h.sessions], rfl, rfl, le_rfl⟩,
    ⟨[], by simp [h.journalEvents], by simp⟩, ⟨_, hcapsules⟩, ⟨_, hsnapshots⟩,
    ⟨_, h.snapshotCapsules, ?_⟩⟩
  intro membership hmembership
  obtain ⟨item, -, rfl⟩ := List.mem_map.mp hmembership
  have hunique := db'.consistent.snapshots.primaryKey
  rw [hsnapshots] at hunique
  intro hid
  obtain ⟨old, hold, heq⟩ := List.mem_map.mp hid
  exact (uniqueKey_append_singleton.mp hunique).2 old hold heq

/-- Every committed call grows the history. -/
theorem Effect.grows {db db' : Database} {operation : Operation} {response : Response}
    (h : Effect db operation db' response) : Grows db db' := by
  cases h with
  | captured _ heffect => exact heffect.grows
  | sidecar _ hholds =>
      exact .of_eq hholds.sessions hholds.journalEvents hholds.capsules hholds.snapshots
        hholds.snapshotCapsules
  | intentCovered | intentCarried | claimedNone | viewed => exact .of_eq rfl rfl rfl rfl rfl
  | intentFolded _ _ _ _ _ htables | intentQueued _ _ _ htables | claimed _ _ _ htables
  | transitioned _ _ _ htables | renewed _ _ htables | failed _ _ htables
  | recovered htables | superseded _ _ _ _ _ htables =>
      have hholds := Database.Holds.of_eq htables
      exact .of_eq hholds.sessions hholds.journalEvents hholds.capsules hholds.snapshots
        hholds.snapshotCapsules
  | committed _ hstaged _ _ htables =>
      have hholds := Database.Holds.of_eq htables
      obtain ⟨hsessions, hjournal, hcapsules, hsnapshots, hmemberships⟩ := hstaged.grows
      constructor
      · rwa [hholds.sessions]
      · rwa [hholds.journalEvents]
      · rwa [hholds.capsules]
      · rwa [hholds.snapshots]
      · rwa [hholds.snapshotCapsules]

/-- Only captures change sessions and journal. -/
theorem Effect.journal_eq {db db' : Database} {operation : Operation} {response : Response}
    (h : Effect db operation db' response) (hother : operation.captures = none) :
    db'.sessions = db.sessions ∧ db'.journalEvents = db.journalEvents := by
  cases h with
  | captured hcapture =>
      rw [hother] at hcapture
      cases hcapture
  | sidecar _ hholds => exact ⟨hholds.sessions, hholds.journalEvents⟩
  | intentCovered | intentCarried | claimedNone | viewed => exact ⟨rfl, rfl⟩
  | intentFolded _ _ _ _ _ htables | intentQueued _ _ _ htables | claimed _ _ _ htables
  | transitioned _ _ _ htables | renewed _ _ htables | failed _ _ htables
  | recovered htables | superseded _ _ _ _ _ htables =>
      have hholds := Database.Holds.of_eq htables
      exact ⟨hholds.sessions, hholds.journalEvents⟩
  | committed _ hstaged _ _ htables =>
      have hholds := Database.Holds.of_eq htables
      exact ⟨hholds.sessions.trans hstaged.sessions,
        hholds.journalEvents.trans hstaged.journalEvents⟩

/-- Every committed call keeps the journal invariant. -/
theorem Effect.journalSound {db db' : Database} {operation : Operation} {response : Response}
    (h : Effect db operation db' response) (hsound : JournalSound db) : JournalSound db' := by
  cases hcapture : operation.captures with
  | some sessionKey =>
      cases h with
      | captured _ heffect => exact heffect.journalSound hsound
      | sidecar hoperation =>
          cases operation <;> simp [Operation.captures, Operation.isSidecar] at hcapture hoperation
      | _ => cases hcapture
  | none =>
      obtain ⟨hsessions, hjournal⟩ := h.journal_eq hcapture
      constructor
      · rw [hsessions]
        exact hsound.hash
      · rw [hsessions]
        simpa only [Database.journal, hjournal] using hsound.sequences

end AstrContinuum
