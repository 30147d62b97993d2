import AstrContinuum.Invariants.Jobs
import AstrContinuum.Storage.Inserts

/-!
# What can stop a staged candidate

An admitted candidate is written statement by statement. A write is stopped by a conflict, which
supersedes the candidate, or by a refusal, which raises out of the transaction.
`stagingObstacle` computes the first obstacle from the request and the database before the
transaction, and `stageCandidate_outcome` shows that it decides what the staging does. The pointer
move is never the obstacle.
-/

namespace AstrContinuum

open Checked Relational

/-- What stops a staged write: an `IntegrityError` that the savepoint catches, or a failure that
nothing catches. -/
inductive Obstacle
  | conflict
  | refusal
deriving DecidableEq

/-! ## Outcomes -/

/-- A write ends as its obstacle says, and in `P` when there is none. -/
def Attempt (write : Except StorageFailure Database) (obstacle : Option Obstacle)
    (P : Database → Prop) : Prop :=
  match obstacle with
  | none => ∃ db, write = .ok db ∧ P db
  | some .conflict => write = .error .integrityError
  | some .refusal => ∃ failure, failure ≠ .integrityError ∧ write = .error failure

/-- A sequence of staged writes ends as its first obstacle says, and in `P` when there is none. -/
def Outcome (staging : Except StorageFailure (Option Database)) (obstacle : Option Obstacle)
    (P : Database → Prop) : Prop :=
  match obstacle with
  | none => ∃ db, staging = .ok (some db) ∧ P db
  | some .conflict => staging = .ok none
  | some .refusal => ∃ failure, staging = .error failure

/-- Catching conflicts turns an attempt into an outcome. -/
theorem Attempt.outcome {write : Except StorageFailure Database} {obstacle : Option Obstacle}
    {P : Database → Prop} (h : Attempt write obstacle P) :
    Outcome (orConflict write) obstacle P := by
  match obstacle, h with
  | none, h =>
      obtain ⟨db, rfl, hP⟩ := h
      exact ⟨db, rfl, hP⟩
  | some .conflict, h =>
      obtain rfl : write = _ := h
      exact rfl
  | some .refusal, h =>
      obtain ⟨failure, hne, rfl⟩ := h
      refine ⟨failure, ?_⟩
      unfold orConflict
      split
      · next heq => cases heq
      · next heq =>
          obtain rfl := Except.error.inj heq
          exact absurd rfl hne
      · next heq =>
          obtain rfl := Except.error.inj heq
          rfl

/-- Staged writes compose: the first obstacle decides. -/
theorem Outcome.andThen {staging : Except StorageFailure (Option Database)}
    {next : Database → Except StorageFailure (Option Database)}
    {first second : Option Obstacle} {P Q : Database → Prop} (h : Outcome staging first P)
    (hnext : ∀ db, P db → Outcome (next db) second Q) :
    Outcome (staging >>= fun staged => match staged with
      | none => pure none
      | some db => next db) (first.or second) Q := by
  match first, h with
  | none, h =>
      obtain ⟨db, rfl, hP⟩ := h
      exact hnext db hP
  | some .conflict, h =>
      obtain rfl : staging = _ := h
      exact rfl
  | some .refusal, h =>
      obtain ⟨failure, rfl⟩ := h
      exact ⟨failure, rfl⟩

/-- A loop of staged inserts ends as the first obstacle of its items says. -/
theorem insertUntilConflict_outcome {α : Type}
    {insert : Database → α → Except StorageFailure Database} {boundary : Boundary}
    (obstacle : α → Option Obstacle) (P : List α → Database → Prop)
    (hstep : ∀ item rest db, P (item :: rest) db →
      Attempt (insert db item) (obstacle item) (P rest))
    {items : List α} {db : Database} (h : P items db) (call : Nat) :
    Outcome (insertUntilConflict insert .none boundary call db items)
      (items.findSome? obstacle) (P []) := by
  induction items generalizing db call with
  | nil => exact ⟨db, rfl, h⟩
  | cons item rest ih =>
      have hattempt := (hstep item rest db h).outcome
      have hcomposed := hattempt.andThen fun db' hP => ih hP (call + 1)
      have hfirst : (obstacle item).or (rest.findSome? obstacle) =
          (item :: rest).findSome? obstacle := by
        cases hitem : obstacle item <;> simp [hitem]
      rw [hfirst] at hcomposed
      exact hcomposed

/-- A loop that raises on its first bad element, as staged writes. -/
theorem Outcome.of_forEach {α : Type} {body : Database → α → Except StorageFailure Database}
    {next : Database → Except StorageFailure (Option Database)} (P : List α → Database → Prop)
    (bad : α → Bool) {second : Option Obstacle} {Q : Database → Prop}
    (hstep : ∀ a rest db, P (a :: rest) db →
      if bad a then ∃ e, body db a = .error e else ∃ db', body db a = .ok db' ∧ P rest db')
    {items : List α} {db : Database} (hstart : P items db)
    (hnext : ∀ db, P [] db → Outcome (next db) second Q) :
    Outcome (forEach body db items >>= next)
      (if items.any bad then some .refusal else second) Q := by
  have hloop := forEach_cases P bad hstep hstart
  split at hloop
  · next hbad =>
      obtain ⟨failure, hfailure⟩ := hloop
      rw [if_pos hbad, hfailure]
      exact ⟨failure, rfl⟩
  · next hgood =>
      obtain ⟨final, hfinal, hP⟩ := hloop
      rw [if_neg hgood, hfinal]
      exact hnext final hP

/-! ## The obstacles -/

section Obstacles

variable [Hashlib] [SecureCodec]

/-- What stops `_insert_or_verify_capsule`: the id is stored with other content, the codec refuses
the capsule, or the id is blank to SQLite. -/
def capsuleObstacle (db : Database) (membership : SnapshotCapsuleMembership) : Option Obstacle :=
  match db.capsuleRow membership.capsuleId with
  | some row => if row = membership.capsule.row then none else some .conflict
  | none =>
      if ∀ cell ∈ capsuleCells membership.capsule, cell.fits = true then
        if trimNonEmpty membership.capsuleId then none else some .conflict
      else some .refusal

omit [Hashlib] in
/-- What stops `_insert_committed_snapshot`: the codec refuses a cell, or the id is stored. -/
def snapshotObstacle (db : Database) (snapshot : SnapshotEnvelope) : Option Obstacle :=
  if ∀ cell ∈ snapshotCells snapshot, cell.fits = true then
    if snapshot.snapshotId ∈ db.snapshotIds then some .conflict else none
  else some .refusal

/-- What stops the insert of a membership: its slot is blank to SQLite. -/
def membershipObstacle (membership : SnapshotCapsuleMembership) : Option Obstacle :=
  if trimNonEmpty membership.slot then none else some .conflict

/-- What stops the insert of a reorganization record: a count that SQLite cannot hold, or a text that
is blank to it. -/
def ledgerRefused (record : ReorganizationRecord) : Bool :=
  decide (¬ (record.beforeTokens ≤ sqliteMaxInteger ∧ record.afterTokens ≤ sqliteMaxInteger ∧
    trimNonEmpty record.sourceCapsuleId = true ∧ trimNonEmpty record.kind = true ∧
    trimNonEmpty record.itemId = true))

/-- What stops the write of a metric: it contradicts a stored one, the codec refuses it, or a text
of its key is blank to SQLite. -/
def metricRefused (db : Database) (metric : TokenMetric) : Bool :=
  match db.metricRow metric.key with
  | some existing => decide (existing.tokenCount ≠ metric.tokenCount)
  | none => decide (¬ ((metricCell metric.key metric.tokenCount).fits = true ∧ metric.key.Check))

/-- The first obstacle of a candidate, from the request and the database before the transaction. -/
def stagingObstacle (db : Database) (request : PublishRequest) : Option Obstacle :=
  (request.memberships.findSome? (capsuleObstacle db)).or
    ((snapshotObstacle db request.candidateSnapshot).or
      ((request.memberships.findSome? membershipObstacle).or
        (if request.reorganizationRecords.any ledgerRefused then some .refusal
        else if (request.canonicalMetrics.getD []).any (metricRefused db) then some .refusal
        else none)))

end Obstacles

/-! ## Capsules -/

section Staging

variable [Hashlib] [SecureCodec]

/-- The capsules `rest` of `all` remain to be stored, in a database that differs from `db` only in
capsules. -/
structure CapsulesLeft (db : Database) (all rest : List SnapshotCapsuleMembership)
    (staged : Database) : Prop where
  tables : staged.toTables = { db.toTables with capsules := staged.capsules }
  session : ∀ membership ∈ rest,
    membership.capsule.sessionKey.sessionKeyHash ∈ db.sessionKeys
  distinct : (rest.map SnapshotCapsuleMembership.capsuleId).Nodup
  unread : ∀ membership ∈ rest,
    staged.capsuleRow membership.capsuleId = db.capsuleRow membership.capsuleId
  stored : ∀ membership ∈ all, membership ∈ rest ∨ membership.capsuleId ∈ staged.capsuleIds

omit [SecureCodec] in
/-- A capsule that is stored leaves the remaining ones, whatever else was added. -/
theorem CapsulesLeft.next {db staged staged' : Database}
    {all rest : List SnapshotCapsuleMembership} {membership : SnapshotCapsuleMembership}
    (h : CapsulesLeft db all (membership :: rest) staged) (added : List CapsuleRow)
    (htables : staged'.toTables = { staged.toTables with capsules := staged.capsules ++ added })
    (hadded : ∀ row ∈ added, row.capsuleId = membership.capsuleId)
    (hstored : membership.capsuleId ∈ staged'.capsuleIds) : CapsulesLeft db all rest staged' where
  tables := by rw [htables, h.tables]
  session other hother := h.session other (List.mem_cons_of_mem _ hother)
  distinct := (List.nodup_cons.mp h.distinct).2
  unread other hother := by
    have hnone : added.find? (fun row => row.capsuleId = other.capsuleId) = none := by
      refine find_eq_none.mpr fun row hrow heq => ?_
      exact (List.nodup_cons.mp h.distinct).1
        (List.mem_map.mpr ⟨other, hother, heq.symm.trans (hadded row hrow)⟩)
    rw [← h.unread other (List.mem_cons_of_mem _ hother), Database.capsuleRow,
      Database.capsuleRow, htables, List.find?_append, hnone, Option.or_none]
  stored other hother := by
    rcases h.stored other hother with hleft | hold
    · rcases List.mem_cons.mp hleft with rfl | hleft
      · exact .inr hstored
      · exact .inl hleft
    · refine .inr ?_
      rw [Tables.capsuleIds, htables, List.map_append]
      exact List.mem_append_left _ hold

omit [SecureCodec] in
/-- A capsule that is not stored is inserted, unless its id is blank to SQLite. -/
theorem CapsulesLeft.insert_attempt {db staged : Database}
    {all rest : List SnapshotCapsuleMembership} {membership : SnapshotCapsuleMembership}
    (h : CapsulesLeft db all (membership :: rest) staged)
    (hnone : staged.capsuleRow membership.capsule.capsuleId = none) :
    Attempt
      (Database.execute { staged.toTables with
        capsules := staged.capsules ++ [membership.capsule.row] })
      (if trimNonEmpty membership.capsuleId then none else some .conflict)
      (CapsulesLeft db all rest) := by
  cases htrim : trimNonEmpty membership.capsuleId with
  | true =>
      have hnew : membership.capsule.row.capsuleId ∉ staged.capsuleIds := by
        intro hmem
        obtain ⟨old, hold, hid⟩ := List.mem_map.mp hmem
        exact find_eq_none.mp hnone old hold hid
      have hstored : membership.capsule.row.sessionKeyHash ∈ staged.sessionKeys := by
        have hkeys : staged.sessionKeys = db.sessionKeys := by
          rw [Tables.sessionKeys, h.tables]
          rfl
        rw [hkeys]
        exact h.session membership List.mem_cons_self
      have hconsistent := Database.consistent_addCapsule
        ⟨htrim, membership.capsule.valid.2.1⟩ hnew hstored
      refine ⟨⟨_, hconsistent⟩, Database.execute_of_consistent hconsistent,
        h.next [membership.capsule.row] rfl ?_ ?_⟩
      · intro row hrow
        obtain rfl := List.mem_singleton.mp hrow
        rfl
      · exact List.mem_map.mpr ⟨membership.capsule.row, by simp, rfl⟩
  | false =>
      refine Database.execute_of_inconsistent fun hconsistent => ?_
      have hcheck := hconsistent.capsules.check membership.capsule.row (by simp)
      exact absurd (hcheck.1.symm.trans htrim) (by decide)

/-- `_insert_or_verify_capsule` ends as its obstacle says. -/
theorem insertOrVerifyCapsule_attempt {db staged : Database}
    {all rest : List SnapshotCapsuleMembership} {membership : SnapshotCapsuleMembership}
    (h : CapsulesLeft db all (membership :: rest) staged) :
    Attempt (insertOrVerifyCapsule staged membership.capsule) (capsuleObstacle db membership)
      (CapsulesLeft db all rest) := by
  have hread : staged.capsuleRow membership.capsule.capsuleId =
      db.capsuleRow membership.capsuleId := h.unread membership List.mem_cons_self
  unfold capsuleObstacle insertOrVerifyCapsule
  rw [hread]
  cases hrow : db.capsuleRow membership.capsuleId with
  | some row =>
      obtain ⟨hmem, hid⟩ := Database.capsuleRow_eq_some.mp (hread.trans hrow)
      have hsame := ContextCapsuleEnvelope.eq_row_iff hid
      dsimp only
      by_cases heq : row = membership.capsule.row
      · rw [if_pos heq]
        refine ⟨staged, require_bind_pos (hsame.mp heq), h.next [] ?_ (by simp) ?_⟩
        · rw [List.append_nil]
        · exact List.mem_map.mpr ⟨row, hmem, hid⟩
      · rw [if_neg heq]
        exact require_bind_neg fun hfields => heq (hsame.mpr hfields)
  | none =>
      dsimp only
      by_cases hencrypts : ∀ cell ∈ capsuleCells membership.capsule, cell.fits = true
      · rw [if_pos hencrypts, encryptCells, require_bind_pos hencrypts]
        exact h.insert_attempt (hread.trans hrow)
      · rw [if_neg hencrypts]
        exact ⟨.storageSecurityError, by decide, require_bind_neg hencrypts⟩

/-! ## The snapshot -/

omit [SecureCodec] in
/-- A sound state has the base of an admitted job as its pointer. -/
theorem Sound.pointer_eq {db : Database} (h : Sound db) {request : PublishRequest}
    {admission : Admission} {row : JobRow} (hadmits : Admits db request admission row) :
    db.pointer admission.job.sessionKey.sessionKeyHash =
      (admission.job.baseSnapshotId, admission.job.basePointerVersion) := by
  have hbased := h.jobs row (Database.jobRow_eq_some.mp hadmits.stored).1
    (by rw [hadmits.ready]; rfl)
  have hjob : (admission.job.baseSnapshotId, admission.job.basePointerVersion) =
      (row.baseSnapshotId, row.basePointerVersion) := by
    rw [hadmits.represents.fields]
    rfl
  rw [hadmits.represents.session, hjob, hbased.pointer]

omit [SecureCodec] in
/-- What the gate says about the snapshot of an admitted candidate. -/
theorem Sound.candidate {db : Database} (h : Sound db) {request : PublishRequest}
    {admission : Admission} {row : JobRow} (hadmits : Admits db request admission row) :
    request.snapshotRow.Check ∧
      (∀ id ∈ request.snapshotRow.baseSnapshotId, id ∈ db.snapshotIds) ∧
      db.coverage request.snapshotRow.sessionKeyHash < request.snapshotRow.coveredEventEnd := by
  obtain ⟨previous, sourceEvents, hprevious, hevents, hpassed⟩ := hadmits.gate
  obtain ⟨hid, hcoverage, -⟩ := hadmits.previous h.chain (h.pointer_eq hadmits) hprevious
  have hfails := validate_permanent_passed.mp hpassed
  have hbase : request.candidateSnapshot.baseSnapshotId =
      (db.chain row.sessionKeyHash).getLast?.map SnapshotRow.snapshotId :=
    (not_not.mp (hfails .baseSnapshotMismatch)).trans hid
  have htarget := hfails .targetMismatch
  have hgap := hfails .coverageGap
  simp only [PermanentInput.Fails, not_or, not_not, not_le] at htarget hgap
  have hmark : request.candidateSnapshot.coveredEventEnd =
      request.candidateSnapshot.sourceHighWaterMark := htarget.1.trans htarget.2.symm
  have hstored : ∀ id ∈ request.candidateSnapshot.baseSnapshotId, id ∈ db.snapshotIds := by
    intro id hmem
    rw [hbase] at hmem
    obtain ⟨last, hlast, rfl⟩ := Option.map_eq_some_iff.mp hmem
    exact List.mem_map_of_mem (List.mem_of_mem_filter (List.mem_of_mem_getLast? hlast))
  have hjob := db.consistent.compactionJobs.check row (Database.jobRow_eq_some.mp hadmits.stored).1
  refine ⟨⟨?_, ?_, request.candidateSnapshot.valid.2.1.1, hmark.le, rfl⟩, hstored, ?_⟩
  · have htexts := hjob.texts.2.1
    rw [hadmits.candidateId] at htexts
    exact htexts
  · cases hcandidate : request.snapshotRow.baseSnapshotId with
    | none => rfl
    | some id =>
        obtain ⟨old, hold, rfl⟩ := List.mem_map.mp (hstored id hcandidate)
        exact (db.consistent.snapshots.check old hold).1
  · rw [hadmits.snapshotRow_session, h.chain.coverage_eq, ← hcoverage]
    have hlt := hgap.1
    rw [← htarget.1] at hlt
    refine lt_of_eq_of_lt ?_ hlt
    cases previous <;> rfl

/-- The memberships `rest` remain to be stored under a new snapshot. -/
structure MembershipsLeft (db : Database) (request : PublishRequest)
    (rest : List SnapshotCapsuleMembership) (staged : Database) : Prop where
  new : request.candidateSnapshot.snapshotId ∉ db.snapshotIds
  snapshots : staged.snapshots = db.snapshots ++ [request.snapshotRow]
  records : staged.reorganizationRecords = db.reorganizationRecords
  metrics : staged.tokenMetrics = db.tokenMetrics
  stored : ∀ membership ∈ rest, membership.capsuleId ∈ staged.capsuleIds
  ordinal : UniqueKey (fun row => (row.snapshotId, row.ordinal)) (staged.snapshotCapsules ++
    rest.map fun membership => membership.row request.candidateSnapshot.snapshotId)
  member : UniqueKey (fun row => (row.snapshotId, row.capsuleId)) (staged.snapshotCapsules ++
    rest.map fun membership => membership.row request.candidateSnapshot.snapshotId)

omit [SecureCodec] in
/-- Under a new snapshot no membership of a valid candidate is stored. -/
theorem ValidMemberships.left {db staged : Database} {request : PublishRequest}
    (h : ValidMemberships request.candidateSnapshot request.memberships)
    (hnew : request.candidateSnapshot.snapshotId ∉ db.snapshotIds)
    (htables : staged.toTables = { db.toTables with
      capsules := staged.capsules, snapshots := db.snapshots ++ [request.snapshotRow] })
    (hstored : ∀ membership ∈ request.memberships, membership.capsuleId ∈ staged.capsuleIds) :
    MembershipsLeft db request request.memberships staged := by
  have hmemberships : staged.snapshotCapsules = db.snapshotCapsules := by rw [htables]
  have hother : ∀ old ∈ db.snapshotCapsules,
      old.snapshotId ≠ request.candidateSnapshot.snapshotId := by
    intro old hold heq
    exact hnew (heq ▸ db.consistent.snapshotCapsules.snapshot old hold old.snapshotId rfl)
  have hordinals : (request.memberships.map SnapshotCapsuleMembership.ordinal).Nodup := by
    rw [h.ordinals]
    exact List.nodup_range
  refine ⟨hnew, by rw [htables], by rw [htables], by rw [htables], hstored, ?_, ?_⟩
  · rw [hmemberships]
    refine db.consistent.snapshotCapsules.primaryKey.append ?_ ?_
    · refine List.Nodup.of_map Prod.snd ?_
      simpa [List.map_map, Function.comp_def, SnapshotCapsuleMembership.row] using hordinals
    · intro old hold row hrow heq
      obtain ⟨membership, -, rfl⟩ := List.mem_map.mp hrow
      exact hother old hold (congrArg Prod.fst heq)
  · rw [hmemberships]
    refine db.consistent.snapshotCapsules.member.append ?_ ?_
    · refine List.Nodup.of_map Prod.snd ?_
      simpa [List.map_map, Function.comp_def, SnapshotCapsuleMembership.row] using h.distinct
    · intro old hold row hrow heq
      obtain ⟨membership, -, rfl⟩ := List.mem_map.mp hrow
      exact hother old hold (congrArg Prod.fst heq)

/-- An admitted snapshot is encrypted, and then its row is inserted. -/
theorem Admits.insertCommittedSnapshot_eq {db : Database} {request : PublishRequest}
    {admission : Admission} {row : JobRow} (h : Admits db request admission row)
    (staged : Database) :
    insertCommittedSnapshot staged admission.committed =
      (require (∀ cell ∈ snapshotCells request.candidateSnapshot, cell.fits = true)
          .storageSecurityError >>= fun _ =>
        Database.execute { staged.toTables with
          snapshots := staged.snapshots ++ [request.snapshotRow] }) := by
  have hcommittedAt : admission.committed.committedAt = some request.fence.now := by
    rw [h.committed]
  have hcells : snapshotCells request.candidateSnapshot = snapshotCells admission.committed := by
    simp only [snapshotCells, h.committed]
  rw [hcells, ← h.committed_row]
  simp only [insertCommittedSnapshot, hcommittedAt, orMissing, bind, Except.bind, encryptCells]

omit [SecureCodec] in
/-- The row of an admitted snapshot is inserted, unless its id is stored. -/
theorem CapsulesLeft.insertSnapshot_attempt {db staged : Database} (h : Sound db)
    {request : PublishRequest} {admission : Admission} {row : JobRow}
    (hadmits : Admits db request admission row)
    (hstaged : CapsulesLeft db request.memberships [] staged) :
    Attempt
      (Database.execute { staged.toTables with
        snapshots := staged.snapshots ++ [request.snapshotRow] })
      (if request.candidateSnapshot.snapshotId ∈ db.snapshotIds then some .conflict else none)
      (MembershipsLeft db request request.memberships) := by
  obtain ⟨hcheck, hbase, hcoverage⟩ := h.candidate hadmits
  have htables := hstaged.tables
  have hids : staged.snapshotIds = db.snapshotIds := by
    rw [Tables.snapshotIds, htables]
    rfl
  have hkeys : staged.sessionKeys = db.sessionKeys := by
    rw [Tables.sessionKeys, htables]
    rfl
  have hsnapshots : staged.snapshots = db.snapshots := by rw [htables]
  by_cases hstored : request.candidateSnapshot.snapshotId ∈ db.snapshotIds
  · rw [if_pos hstored]
    refine Database.execute_of_inconsistent fun hconsistent => ?_
    have hunique := uniqueKey_append_singleton.mp hconsistent.snapshots.primaryKey
    obtain ⟨old, hold, hid⟩ := List.mem_map.mp hstored
    exact hunique.2 old (hsnapshots ▸ hold) hid
  · rw [if_neg hstored]
    have hconsistent := Database.consistent_addSnapshot hcheck (hids ▸ hstored) ?_ ?_
      (hids ▸ hbase)
    · have heq : { staged.toTables with
          snapshots := staged.snapshots ++ [request.snapshotRow] } = { db.toTables with
          capsules := staged.capsules, snapshots := db.snapshots ++ [request.snapshotRow] } := by
        rw [htables]
      refine ⟨⟨_, hconsistent⟩, Database.execute_of_consistent hconsistent,
        hadmits.memberships.left hstored heq ?_⟩
      intro membership hmembership
      rcases hstaged.stored membership hmembership with hleft | hcapsule
      · cases hleft
      · exact hcapsule
    · intro old hold hsession heq
      -- the new snapshot covers more than every one before it
      have hle := h.chain.le_coverage (hsnapshots ▸ hold)
      rw [hsession, heq] at hle
      omega
    · rw [hkeys, hadmits.snapshotRow_session]
      obtain ⟨session, hmem, hhash, -⟩ := hadmits.sessionRow
      exact List.mem_map.mpr ⟨session, hmem, hhash⟩

/-- `_insert_committed_snapshot` ends as its obstacle says. -/
theorem insertCommittedSnapshot_attempt {db staged : Database} (h : Sound db)
    {request : PublishRequest} {admission : Admission} {row : JobRow}
    (hadmits : Admits db request admission row)
    (hstaged : CapsulesLeft db request.memberships [] staged) :
    Attempt (insertCommittedSnapshot staged admission.committed)
      (snapshotObstacle db request.candidateSnapshot)
      (MembershipsLeft db request request.memberships) := by
  rw [hadmits.insertCommittedSnapshot_eq]
  unfold snapshotObstacle
  by_cases hencrypts : ∀ cell ∈ snapshotCells request.candidateSnapshot, cell.fits = true
  · rw [if_pos hencrypts, require_bind_pos hencrypts]
    exact hstaged.insertSnapshot_attempt h hadmits
  · rw [if_neg hencrypts, require_bind_neg hencrypts]
    exact ⟨.storageSecurityError, by decide, rfl⟩

/-! ## Memberships -/

omit [SecureCodec] in
/-- The insert of a membership ends as its obstacle says. -/
theorem insertMembership_attempt {db staged : Database} {request : PublishRequest}
    {rest : List SnapshotCapsuleMembership} {membership : SnapshotCapsuleMembership}
    (h : MembershipsLeft db request (membership :: rest) staged) :
    Attempt (insertMembership request.candidateSnapshot.snapshotId staged membership)
      (membershipObstacle membership) (MembershipsLeft db request rest) := by
  unfold membershipObstacle insertMembership
  cases hslot : trimNonEmpty membership.slot with
  | true =>
      have hsnapshot : request.candidateSnapshot.snapshotId ∈ staged.snapshotIds := by
        rw [Tables.snapshotIds, h.snapshots, List.map_append]
        exact List.mem_append_right _ List.mem_cons_self
      have hconsistent : Tables.Consistent { staged.toTables with
          snapshotCapsules := staged.snapshotCapsules ++
            [membership.row request.candidateSnapshot.snapshotId] } :=
        Database.consistent_addMembership hslot h.ordinal.first h.member.first hsnapshot
          (h.stored membership List.mem_cons_self)
      refine ⟨⟨_, hconsistent⟩, Database.execute_of_consistent hconsistent,
        ⟨h.new, h.snapshots, h.records, h.metrics, ?_, ?_, ?_⟩⟩
      · exact fun other hother => h.stored other (List.mem_cons_of_mem _ hother)
      · simpa using h.ordinal
      · simpa using h.member
  | false =>
      refine Database.execute_of_inconsistent fun hconsistent => ?_
      have hcheck := hconsistent.snapshotCapsules.slot
        (membership.row request.candidateSnapshot.snapshotId) (by simp)
      exact absurd (hcheck.symm.trans hslot) (by decide)

/-! ## The ledger -/

omit [Hashlib] [SecureCodec] in
/-- Canonical records are the given ones; their counts are natural numbers and their source items
distinct. -/
theorem canonicalizeReorganizationRecords_ok {records result : List ReorganizationRecord}
    (h : canonicalizeReorganizationRecords records = .ok result) :
    result = records ∧ (∀ record ∈ records, 0 ≤ record.beforeTokens ∧ 0 ≤ record.afterTokens) ∧
      (records.map ReorganizationRecord.sourceItemKey).Nodup := by
  have hloop : ∀ seen : List ReorganizationRecord,
      (seen.map ReorganizationRecord.sourceItemKey).Nodup →
      forEach canonicalizeRecord seen records = .ok result →
      result = seen ++ records ∧
        (∀ record ∈ records, 0 ≤ record.beforeTokens ∧ 0 ≤ record.afterTokens) ∧
        ((seen ++ records).map ReorganizationRecord.sourceItemKey).Nodup := by
    clear h
    induction records with
    | nil =>
        intro seen hseen h
        obtain rfl : seen = result := by simpa using h
        simpa using hseen
    | cons record rest ih =>
        intro seen hseen h
        obtain ⟨next, hrecord, h⟩ := bind_ok.mp h
        obtain ⟨-, -, hrecord⟩ := bind_ok.mp hrecord
        obtain ⟨-, -, hrecord⟩ := bind_ok.mp hrecord
        obtain ⟨-, -, hrecord⟩ := bind_ok.mp hrecord
        obtain ⟨_, hbefore, hrecord⟩ := bind_ok.mp hrecord
        obtain ⟨_, hafter, hrecord⟩ := bind_ok.mp hrecord
        obtain ⟨-, -, hrecord⟩ := bind_ok.mp hrecord
        obtain ⟨_, hnew, hrecord⟩ := bind_ok.mp hrecord
        obtain rfl := pure_ok.mp hrecord
        have hkeys : ((seen ++ [record]).map ReorganizationRecord.sourceItemKey).Nodup :=
          uniqueKey_append_singleton.mpr ⟨hseen, fun old hold heq =>
            require_ok.mp hnew (heq ▸ List.mem_map_of_mem hold)⟩
        obtain ⟨hresult, htokens, hdistinct⟩ := ih (seen ++ [record]) hkeys h
        refine ⟨by simp [hresult], ?_, by simpa using hdistinct⟩
        intro other hother
        rcases List.mem_cons.mp hother with rfl | hother
        · exact ⟨require_ok.mp hbefore, require_ok.mp hafter⟩
        · exact htokens other hother
  simpa using hloop [] List.nodup_nil h

/-- The ledger entries `rest` remain to be stored under a stored snapshot. -/
structure LedgerLeft (db : Database) (snapshotId : String)
    (rest : List (ReorganizationRecord × Nat)) (staged : Database) : Prop where
  snapshot : snapshotId ∈ staged.snapshotIds
  metrics : staged.tokenMetrics = db.tokenMetrics
  tokens : ∀ entry ∈ rest, 0 ≤ entry.1.beforeTokens ∧ 0 ≤ entry.1.afterTokens
  ordinal : UniqueKey (fun row => (row.snapshotId, row.ordinal)) (staged.reorganizationRecords ++
    rest.map fun entry => entry.1.row snapshotId entry.2)
  item : UniqueKey (fun row => (row.snapshotId, row.sourceCapsuleId, row.kind, row.itemId))
    (staged.reorganizationRecords ++ rest.map fun entry => entry.1.row snapshotId entry.2)

omit [SecureCodec] in
/-- Once the memberships are stored, the whole ledger of an admitted candidate remains. -/
theorem Admits.ledgerLeft {db staged : Database} {request : PublishRequest}
    {admission : Admission} {row : JobRow} (hadmits : Admits db request admission row)
    (h : MembershipsLeft db request [] staged) :
    LedgerLeft db request.candidateSnapshot.snapshotId request.reorganizationRecords.zipIdx
      staged := by
  obtain ⟨-, htokens, hitems⟩ := canonicalizeReorganizationRecords_ok hadmits.records
  have hother : ∀ old ∈ db.reorganizationRecords,
      old.snapshotId ≠ request.candidateSnapshot.snapshotId := by
    intro old hold heq
    exact h.new (heq ▸ db.consistent.reorganizationRecords.snapshot old hold old.snapshotId rfl)
  refine ⟨?_, h.metrics, ?_, ?_, ?_⟩
  · rw [Tables.snapshotIds, h.snapshots, List.map_append]
    exact List.mem_append_right _ List.mem_cons_self
  · intro entry hentry
    exact htokens entry.1 (List.fst_mem_of_mem_zipIdx hentry)
  · rw [h.records]
    refine db.consistent.reorganizationRecords.primaryKey.append ?_ ?_
    · refine List.Nodup.of_map Prod.snd ?_
      have hindices : (request.reorganizationRecords.zipIdx.map Prod.snd).Nodup := by
        rw [List.zipIdx_map_snd]
        exact List.nodup_range'
      simpa [List.map_map, Function.comp_def, ReorganizationRecord.row] using hindices
    · intro old hold row hrow heq
      obtain ⟨entry, -, rfl⟩ := List.mem_map.mp hrow
      exact hother old hold (congrArg Prod.fst heq)
  · rw [h.records]
    refine db.consistent.reorganizationRecords.item.append ?_ ?_
    · refine List.Nodup.of_map Prod.snd ?_
      have hkeys : ((request.reorganizationRecords.zipIdx.map Prod.fst).map
          ReorganizationRecord.sourceItemKey).Nodup := by
        rw [List.zipIdx_map_fst]
        exact hitems
      simpa only [List.map_map, Function.comp_def, ReorganizationRecord.row,
        ReorganizationRecord.sourceItemKey] using hkeys
    · intro old hold row hrow heq
      obtain ⟨entry, -, rfl⟩ := List.mem_map.mp hrow
      exact hother old hold (congrArg Prod.fst heq)

omit [Hashlib] [SecureCodec] in
/-- The insert of a ledger entry raises exactly on a refused record. -/
theorem insertReorganizationRecord_cases {db staged : Database} {snapshotId : String}
    {rest : List (ReorganizationRecord × Nat)} {entry : ReorganizationRecord × Nat}
    (h : LedgerLeft db snapshotId (entry :: rest) staged)
    (hid : trimNonEmpty snapshotId = true) :
    if ledgerRefused entry.1 then
      ∃ e, insertReorganizationRecord .none snapshotId staged entry = .error e
    else
      ∃ staged', insertReorganizationRecord .none snapshotId staged entry = .ok staged' ∧
        LedgerLeft db snapshotId rest staged' := by
  obtain ⟨record, ordinal⟩ := entry
  obtain ⟨hbefore, hafter⟩ := h.tokens (record, ordinal) List.mem_cons_self
  unfold insertReorganizationRecord ledgerRefused
  by_cases hfits : record.beforeTokens ≤ sqliteMaxInteger ∧ record.afterTokens ≤ sqliteMaxInteger
  · dsimp only
    rw [require_bind_pos hfits]
    by_cases htexts : trimNonEmpty record.sourceCapsuleId = true ∧
        trimNonEmpty record.kind = true ∧ trimNonEmpty record.itemId = true
    · have hconsistent : Tables.Consistent { staged.toTables with
          reorganizationRecords := staged.reorganizationRecords ++
            [record.row snapshotId ordinal] } :=
        Database.consistent_addLedger
          ⟨hid, htexts.1, htexts.2.1, htexts.2.2, hbefore, hafter⟩ h.ordinal.first h.item.first
          h.snapshot
      rw [if_neg (by simp [hfits, htexts]), Database.execute_of_consistent hconsistent]
      refine ⟨_, rfl, h.snapshot, h.metrics, ?_, ?_, ?_⟩
      · exact fun other hother => h.tokens other (List.mem_cons_of_mem _ hother)
      · simpa using h.ordinal
      · simpa using h.item
    · rw [if_pos (decide_eq_true (not_imp_not.mpr (fun hall => hall.2.2) htexts)), Database.execute_of_inconsistent]
      · exact ⟨_, rfl⟩
      · intro hconsistent
        have hcheck := hconsistent.reorganizationRecords.check (record.row snapshotId ordinal)
          (by simp)
        exact htexts ⟨hcheck.2.1, hcheck.2.2.1, hcheck.2.2.2.1⟩
  · dsimp only
    rw [if_pos (decide_eq_true (not_imp_not.mpr (fun hall => ⟨hall.1, hall.2.1⟩) hfits)),
      require_bind_neg hfits]
    exact ⟨_, rfl⟩

/-! ## Metrics -/

omit [Hashlib] [SecureCodec] in
/-- The metrics of an accepted candidate have distinct keys. -/
theorem validateOptionalMetrics_nodup {snapshot : SnapshotEnvelope}
    {memberships : List SnapshotCapsuleMembership} {metrics : Option (List TokenMetric)} {u : Unit}
    (h : validateOptionalMetrics snapshot memberships metrics = .ok u) :
    ((metrics.getD []).map TokenMetric.key).Nodup := by
  cases metrics with
  | none => exact List.nodup_nil
  | some metrics =>
      obtain ⟨hlength, -, hall, -⟩ := require_ok.mp h
      -- The keys name every expected artifact and are as many as these, so none is repeated.
      have hsubset := List.subperm_of_subset
        (List.nodup_dedup (expectedArtifacts snapshot memberships)) hall
      have hperm := hsubset.perm_of_length_le (by simp [hlength])
      have hartifacts := hperm.nodup_iff.mp (List.nodup_dedup _)
      refine List.Nodup.of_map (fun key => (key.artifactKind, key.artifactId)) ?_
      simpa only [Option.getD_some, List.map_map, Function.comp_def] using hartifacts

/-- The metrics `rest` remain to be written. -/
structure MetricsLeft (db : Database) (rest : List (TokenMetric × Nat)) (staged : Database) :
    Prop where
  distinct : (rest.map fun entry => entry.1.key).Nodup
  unread : ∀ entry ∈ rest, staged.metricRow entry.1.key = db.metricRow entry.1.key

omit [Hashlib] [SecureCodec] in
/-- A metric that is written leaves the remaining ones, whatever else was added. -/
theorem MetricsLeft.next {db staged staged' : Database} {rest : List (TokenMetric × Nat)}
    {entry : TokenMetric × Nat} (h : MetricsLeft db (entry :: rest) staged)
    (added : List MetricRow) (hmetrics : staged'.tokenMetrics = staged.tokenMetrics ++ added)
    (hadded : ∀ row ∈ added, row.key = entry.1.key) : MetricsLeft db rest staged' where
  distinct := (List.nodup_cons.mp h.distinct).2
  unread other hother := by
    have hnone : added.find? (fun row => row.key = other.1.key) = none := by
      refine find_eq_none.mpr fun row hrow heq => ?_
      exact (List.nodup_cons.mp h.distinct).1
        (List.mem_map.mpr ⟨other, hother, heq.symm.trans (hadded row hrow)⟩)
    rw [← h.unread other (List.mem_cons_of_mem _ hother), Database.metricRow, Database.metricRow,
      hmetrics, List.find?_append, hnone, Option.or_none]

omit [Hashlib] [SecureCodec] in
/-- The removal of a backfill intent succeeds and leaves the metrics alone. -/
theorem deleteBackfillIntent_total (db : Database) (key : MetricKey) :
    ∃ db', deleteBackfillIntent db key = .ok db' ∧ db'.tokenMetrics = db.tokenMetrics :=
  ⟨_, Database.execute_of_consistent (Database.consistent_filterBackfill _), rfl⟩

omit [Hashlib] in
/-- `put_in_transaction` raises exactly on a refused metric. -/
theorem putInTransaction_cases {db staged : Database} (now : Timestamp)
    {rest : List (TokenMetric × Nat)} {entry : TokenMetric × Nat}
    (h : MetricsLeft db (entry :: rest) staged) :
    if metricRefused db entry.1 then ∃ e, putInTransaction staged entry.1 now = .error e
    else ∃ staged', putInTransaction staged entry.1 now = .ok staged' ∧
      MetricsLeft db rest staged' := by
  have hread := h.unread entry List.mem_cons_self
  unfold metricRefused putInTransaction
  rw [hread]
  cases hrow : db.metricRow entry.1.key with
  | some existing =>
      dsimp only
      by_cases hcount : existing.tokenCount = entry.1.tokenCount
      · rw [if_neg (by simp [hcount]), require_bind_pos hcount]
        exact ⟨staged, rfl, h.next [] (List.append_nil _).symm (by simp)⟩
      · rw [if_pos (by simp [hcount]), require_bind_neg hcount]
        exact ⟨_, rfl⟩
  | none =>
      have hnew : ∀ old ∈ staged.tokenMetrics, old.key ≠ entry.1.key :=
        find_eq_none.mp (hread.trans hrow)
      dsimp only [encryptCells]
      by_cases hencrypts : (metricCell entry.1.key entry.1.tokenCount).fits = true
      · rw [require_bind_pos (by simpa using hencrypts)]
        by_cases hcheck : entry.1.key.Check
        · have hconsistent : Tables.Consistent { staged.toTables with
              tokenMetrics := staged.tokenMetrics ++
                [⟨entry.1.key, entry.1.tokenCount, now⟩] } :=
            Database.consistent_addMetric hcheck hnew
          rw [if_neg (by simp [hencrypts, hcheck]), Database.execute_of_consistent hconsistent]
          refine ⟨_, rfl, h.next [⟨entry.1.key, entry.1.tokenCount, now⟩] rfl ?_⟩
          simp
        · rw [if_pos (by simp [hcheck]), Database.execute_of_inconsistent]
          · exact ⟨_, rfl⟩
          · intro hconsistent
            exact hcheck (hconsistent.tokenMetrics.check
              ⟨entry.1.key, entry.1.tokenCount, now⟩ (by simp))
      · rw [if_pos (by simp [hencrypts]), require_bind_neg (by simpa using hencrypts)]
        exact ⟨_, rfl⟩

omit [Hashlib] in
/-- A metric write raises exactly on a refused metric. -/
theorem writeMetric_cases {db staged : Database} (now : Timestamp)
    {rest : List (TokenMetric × Nat)} {entry : TokenMetric × Nat}
    (h : MetricsLeft db (entry :: rest) staged) :
    if metricRefused db entry.1 then ∃ e, writeMetric staged entry.1 now = .error e
    else ∃ staged', writeMetric staged entry.1 now = .ok staged' ∧
      MetricsLeft db rest staged' := by
  have hput := putInTransaction_cases now h
  unfold writeMetric
  split at hput
  · next hrefused =>
      obtain ⟨failure, hfailure⟩ := hput
      rw [if_pos hrefused, hfailure]
      exact ⟨failure, rfl⟩
  · next haccepted =>
      obtain ⟨stored, hstored, hleft⟩ := hput
      obtain ⟨deleted, hdeleted, hmetrics⟩ := deleteBackfillIntent_total stored entry.1.key
      rw [if_neg haccepted, hstored]
      refine ⟨deleted, hdeleted, hleft.distinct, ?_⟩
      intro other hother
      rw [← hleft.unread other hother, Database.metricRow, hmetrics]
      rfl

omit [Hashlib] in
/-- The write of a metric of a candidate raises exactly on a refused one. -/
theorem publishMetric_cases {db staged : Database} {now : Timestamp}
    {rest : List (TokenMetric × Nat)} {entry : TokenMetric × Nat}
    (h : MetricsLeft db (entry :: rest) staged) :
    if metricRefused db entry.1 then ∃ e, publishMetric .none now staged entry = .error e
    else ∃ staged', publishMetric .none now staged entry = .ok staged' ∧
      MetricsLeft db rest staged' := by
  have hwrite := writeMetric_cases now h
  unfold publishMetric
  split at hwrite
  · next hrefused =>
      obtain ⟨failure, hfailure⟩ := hwrite
      rw [if_pos hrefused, hfailure]
      exact ⟨failure, rfl⟩
  · next haccepted =>
      obtain ⟨written, hwritten, hleft⟩ := hwrite
      rw [if_neg haccepted, hwritten]
      exact ⟨written, rfl, hleft⟩

/-! ## The candidate -/

omit [SecureCodec] in
/-- The gate admits only capsules of the session of the candidate. -/
theorem Admits.capsule_session {db : Database} {request : PublishRequest} {admission : Admission}
    {row : JobRow} (h : Admits db request admission row) {membership : SnapshotCapsuleMembership}
    (hmembership : membership ∈ request.memberships) :
    membership.capsule.sessionKey.sessionKeyHash = row.sessionKeyHash := by
  obtain ⟨previous, sourceEvents, -, -, hpassed⟩ := h.gate
  have hfails := validate_permanent_passed.mp hpassed .sessionKeyMismatch
  simp only [PermanentInput.Fails, not_or, not_exists, not_and, not_not] at hfails
  have hsession : membership.capsule.sessionKey = request.candidateSnapshot.sessionKey :=
    hfails.1 membership.capsule (List.mem_map_of_mem hmembership)
  rw [hsession, h.session, h.represents.session]

omit [Hashlib] [SecureCodec] in
/-- An index does not change which elements a loop refuses. -/
theorem any_zipIdx {α : Type} (bad : α → Bool) (items : List α) :
    (items.zipIdx.any fun entry => bad entry.1) = items.any bad := by
  conv_rhs => rw [← List.zipIdx_map_fst 0 items, List.any_map]
  rfl

omit [SecureCodec] in
/-- All metrics of an admitted candidate remain to be written before its metric loop. -/
theorem Admits.metricsLeft {db staged : Database} {request : PublishRequest}
    {admission : Admission} {row : JobRow} (h : Admits db request admission row)
    (hstaged : staged.tokenMetrics = db.tokenMetrics) :
    MetricsLeft db (request.canonicalMetrics.getD []).zipIdx staged := by
  refine ⟨?_, fun entry _ => by rw [Database.metricRow, hstaged]; rfl⟩
  have hkeys := validateOptionalMetrics_nodup h.metrics
  rw [← List.zipIdx_map_fst 0 (request.canonicalMetrics.getD []), List.map_map] at hkeys
  exact hkeys

/-- The inserts of an admitted candidate end as its first obstacle says. -/
theorem stageRows_outcome {db : Database} (h : Sound db) {request : PublishRequest}
    {admission : Admission} {row : JobRow} (hadmits : Admits db request admission row) :
    Outcome (stageRows .none db request admission.committed admission.records)
      (stagingObstacle db request) fun _ => True := by
  have hid : admission.committed.snapshotId = request.candidateSnapshot.snapshotId := by
    rw [hadmits.committed]
  obtain ⟨hrecords, -, -⟩ := canonicalizeReorganizationRecords_ok hadmits.records
  have hcapsules : CapsulesLeft db request.memberships request.memberships db := by
    refine ⟨rfl, ?_, hadmits.memberships.distinct, fun _ _ => rfl, fun _ hmem => .inl hmem⟩
    intro membership hmembership
    obtain ⟨session, hmem, hhash, -⟩ := hadmits.sessionRow
    rw [hadmits.capsule_session hmembership]
    exact List.mem_map.mpr ⟨session, hmem, hhash⟩
  unfold stageRows stagingObstacle
  rw [hid, hrecords]
  refine (insertUntilConflict_outcome (capsuleObstacle db) (CapsulesLeft db request.memberships)
    (fun _ _ _ => insertOrVerifyCapsule_attempt) hcapsules 0).andThen fun db₁ h₁ => ?_
  refine (insertCommittedSnapshot_attempt h hadmits h₁).outcome.andThen fun db₂ h₂ => ?_
  refine (insertUntilConflict_outcome membershipObstacle (MembershipsLeft db request)
    (fun _ _ _ => insertMembership_attempt) h₂ 0).andThen fun db₃ h₃ => ?_
  have hcandidateId : trimNonEmpty request.candidateSnapshot.snapshotId = true :=
    (h.candidate hadmits).1.1
  rw [← any_zipIdx ledgerRefused, ← any_zipIdx (metricRefused db)]
  refine Outcome.of_forEach (LedgerLeft db request.candidateSnapshot.snapshotId) _
    (fun entry rest staged hleft => insertReorganizationRecord_cases hleft hcandidateId)
    (hadmits.ledgerLeft h₃) fun db₄ h₄ => ?_
  exact Outcome.of_forEach (MetricsLeft db) _
    (fun entry rest staged hleft => publishMetric_cases hleft) (hadmits.metricsLeft h₄.metrics)
    fun db₅ _ => ⟨db₅, rfl, trivial⟩

omit [SecureCodec] in
/-- The compare-and-swap moves a pointer that stands at the base of the job to an unused snapshot. -/
theorem casActivePointer_moves {db : Database} {job : CompactionJobEnvelope} {snapshotId : String}
    (now : Timestamp)
    (hpointer : db.pointer job.sessionKey.sessionKeyHash =
      (job.baseSnapshotId, job.basePointerVersion))
    (hsession : job.sessionKey.sessionKeyHash ∈ db.sessionKeys)
    (hunused : ∀ old ∈ db.activeSnapshots, old.snapshotId ≠ snapshotId)
    (hstored : snapshotId ∈ db.snapshotIds) :
    ∃ moved, casActivePointer db job snapshotId now = .ok (moved, true) := by
  unfold casActivePointer
  rw [Database.pointer] at hpointer
  cases hbase : job.baseSnapshotId with
  | none =>
      have hnone : db.activeRow job.sessionKey.sessionKeyHash = none := by
        cases hrow : db.activeRow job.sessionKey.sessionKeyHash with
        | none => rfl
        | some active =>
            rw [hrow, hbase] at hpointer
            cases congrArg Prod.fst hpointer
      have hconsistent : Tables.Consistent { db.toTables with
          activeSnapshots := db.activeSnapshots ++
            [⟨job.sessionKey.sessionKeyHash, snapshotId, 1, now⟩] } :=
        Database.consistent_addActive le_rfl hnone hunused hsession hstored
      dsimp only
      rw [if_neg (by simp [hnone]), Database.execute_of_consistent hconsistent]
      exact ⟨_, rfl⟩
  | some baseSnapshotId =>
      rw [hbase] at hpointer
      cases hrow : db.activeRow job.sessionKey.sessionKeyHash with
      | none =>
          rw [hrow] at hpointer
          cases congrArg Prod.fst hpointer
      | some active =>
          rw [hrow] at hpointer
          obtain ⟨hid, hversion⟩ := Prod.mk.inj hpointer
          obtain ⟨hmem, hhash⟩ := Database.activeRow_eq_some.mp hrow
          have hsession : ∀ other : ActiveRow,
              (decide (other.sessionKeyHash = job.sessionKey.sessionKeyHash) &&
                decide (other.snapshotId = baseSnapshotId) &&
                decide (other.pointerVersion = job.basePointerVersion)) = true →
              other.sessionKeyHash = job.sessionKey.sessionKeyHash := by
            intro other hother
            simp only [Bool.and_eq_true, decide_eq_true_eq] at hother
            exact hother.1.1
          have hunique := db.consistent.activeSnapshots.primaryKey
          have hselect := hunique.select_eq hmem
            (by simp [hhash, Option.some.inj hid, hversion])
            fun other hother => (hsession other hother).trans hhash.symm
          dsimp only
          rw [Database.execute_of_consistent
            (Database.consistent_moveActive hsession hunused hstored)]
          refine ⟨_, congrArg Except.ok (congrArg (Prod.mk _) (beq_iff_eq.mpr ?_))⟩
          rw [List.countP_congr fun other hother => by rw [hselect other hother]]
          exact hunique.countP_eq_one hmem

omit [SecureCodec] in
/-- In a sound state the pointer move of an admitted candidate never fails. -/
theorem Sound.cas_moves {db staged : Database} (h : Sound db) {request : PublishRequest}
    {admission : Admission} {row : JobRow} (hadmits : Admits db request admission row)
    (hstaged : StagedRows db request admission.committed staged) :
    ∃ moved, casActivePointer staged admission.job admission.committed.snapshotId
      request.fence.now = .ok (moved, true) := by
  obtain ⟨committedAt, -, hsnapshots⟩ := hstaged.snapshots
  have hnew : ∀ old ∈ db.snapshots, old.snapshotId ≠ admission.committed.snapshotId := by
    have hunique := staged.consistent.snapshots.primaryKey
    rw [hsnapshots] at hunique
    exact (uniqueKey_append_singleton.mp hunique).2
  refine casActivePointer_moves _ ?_ ?_ ?_ ?_
  · rw [← h.pointer_eq hadmits, Database.pointer, Database.pointer, Database.activeRow,
      hstaged.activeSnapshots]
    rfl
  · obtain ⟨session, hmem, hhash, -⟩ := hadmits.sessionRow
    rw [hadmits.represents.session, Tables.sessionKeys, hstaged.sessions]
    exact List.mem_map.mpr ⟨session, hmem, hhash⟩
  · intro old hold
    rw [hstaged.activeSnapshots] at hold
    obtain ⟨snapshot, hsnapshot⟩ := Database.exists_snapshotRow_of_active hold
    obtain ⟨hmem, hsame⟩ := Database.snapshotRow_eq_some.mp hsnapshot
    exact hsame ▸ hnew snapshot hmem
  · rw [Tables.snapshotIds, hsnapshots, List.map_append]
    exact List.mem_append_right _ List.mem_cons_self

/-- The staging of an admitted candidate ends as its first obstacle says; without one, the pointer
has moved. -/
theorem stageCandidate_outcome {db : Database} (h : Sound db) {request : PublishRequest}
    {admission : Admission} {row : JobRow} (hadmits : Admits db request admission row) :
    Outcome (stageCandidate .none db request admission.job admission.committed admission.records)
      (stagingObstacle db request) (Staged db request admission.job admission.committed) := by
  have hrows := stageRows_outcome h hadmits
  unfold stageCandidate
  match hobstacle : stagingObstacle db request, hrows with
  | none, hrows =>
      obtain ⟨staged, hstaged, -⟩ := hrows
      obtain ⟨moved, hmoved⟩ := h.cas_moves hadmits (stageRows_some hstaged)
      have hcandidate : stageCandidate .none db request admission.job admission.committed
          admission.records = .ok (some moved) := by
        unfold stageCandidate
        rw [hstaged]
        show (casActivePointer _ _ _ _ >>= _) = _
        rw [hmoved]
        rfl
      exact ⟨moved, hcandidate, stageCandidate_some hcandidate⟩
  | some .conflict, hrows =>
      have hconflict : stageRows .none db request admission.committed admission.records =
        .ok none := hrows
      rw [hconflict]
      exact rfl
  | some .refusal, hrows =>
      obtain ⟨failure, hfailure⟩ := hrows
      rw [hfailure]
      exact ⟨failure, rfl⟩

end Staging

end AstrContinuum
