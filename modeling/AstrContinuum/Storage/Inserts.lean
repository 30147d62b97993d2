import AstrContinuum.Storage.Rows

/-!
# Single-row inserts

When the insert of one row keeps every constraint of the schema. Each lemma lists what SQLite
checks on that insert: the row's own `CHECK`s, the keys it must not repeat and the parents it refers
to. The constraints of the other tables survive because inserts only add parents.
-/

namespace AstrContinuum

open Checked Relational

namespace Database

variable {db : Database}

/-- `INSERT INTO capsules` succeeds. -/
theorem consistent_addCapsule {row : CapsuleRow} (hcheck : row.Check)
    (hnew : row.capsuleId ∉ db.capsuleIds) (hsession : row.sessionKeyHash ∈ db.sessionKeys) :
    Tables.Consistent { db.toTables with capsules := db.capsules ++ [row] } :=
  { db.consistent with
    capsules :=
      { check := forall_append_singleton db.consistent.capsules.check hcheck
        primaryKey := uniqueKey_append_singleton.mpr ⟨db.consistent.capsules.primaryKey,
          fun old hold heq => hnew (List.mem_map.mpr ⟨old, hold, heq⟩)⟩
        session := db.consistent.capsules.session.append_singleton (by simpa using hsession) }
    snapshotCapsules :=
      { db.consistent.snapshotCapsules with
        capsule := db.consistent.snapshotCapsules.capsule.mono fun id hid => by
          simp only [Tables.capsuleIds, List.map_append]
          exact List.mem_append_left _ hid } }

/-- `INSERT INTO snapshots` succeeds. -/
theorem consistent_addSnapshot {row : SnapshotRow} (hcheck : row.Check)
    (hnew : row.snapshotId ∉ db.snapshotIds)
    (hcoverage : ∀ old ∈ db.snapshots, old.sessionKeyHash = row.sessionKeyHash →
      old.coveredEventEnd ≠ row.coveredEventEnd)
    (hsession : row.sessionKeyHash ∈ db.sessionKeys)
    (hbase : ∀ id ∈ row.baseSnapshotId, id ∈ db.snapshotIds) :
    Tables.Consistent { db.toTables with snapshots := db.snapshots ++ [row] } := by
  have hids : ∀ id ∈ db.snapshotIds,
      id ∈ (db.snapshots ++ [row]).map SnapshotRow.snapshotId := by
    intro id hid
    rw [List.map_append]
    exact List.mem_append_left _ hid
  exact { db.consistent with
    snapshots :=
      { check := forall_append_singleton db.consistent.snapshots.check hcheck
        primaryKey := uniqueKey_append_singleton.mpr ⟨db.consistent.snapshots.primaryKey,
          fun old hold heq => hnew (List.mem_map.mpr ⟨old, hold, heq⟩)⟩
        coverage := uniqueKey_append_singleton.mpr ⟨db.consistent.snapshots.coverage,
          fun old hold heq =>
            hcoverage old hold (congrArg Prod.fst heq) (congrArg Prod.snd heq)⟩
        session := db.consistent.snapshots.session.append_singleton (by simpa using hsession)
        base := (db.consistent.snapshots.base.mono hids).append_singleton
          fun id hid => hids id (hbase id hid) }
    snapshotCapsules :=
      { db.consistent.snapshotCapsules with
        snapshot := db.consistent.snapshotCapsules.snapshot.mono hids }
    activeSnapshots :=
      { db.consistent.activeSnapshots with
        snapshot := db.consistent.activeSnapshots.snapshot.mono hids }
    compactionJobs :=
      { db.consistent.compactionJobs with
        base := db.consistent.compactionJobs.base.mono hids }
    reorganizationRecords :=
      { db.consistent.reorganizationRecords with
        snapshot := db.consistent.reorganizationRecords.snapshot.mono hids } }

/-- `INSERT INTO snapshot_capsules` succeeds. -/
theorem consistent_addMembership {row : MembershipRow} (hslot : trimNonEmpty row.slot = true)
    (hordinal : UniqueKey (fun row => (row.snapshotId, row.ordinal)) (db.snapshotCapsules ++ [row]))
    (hmember : UniqueKey (fun row => (row.snapshotId, row.capsuleId)) (db.snapshotCapsules ++ [row]))
    (hsnapshot : row.snapshotId ∈ db.snapshotIds) (hcapsule : row.capsuleId ∈ db.capsuleIds) :
    Tables.Consistent { db.toTables with snapshotCapsules := db.snapshotCapsules ++ [row] } :=
  { db.consistent with
    snapshotCapsules :=
      { slot := forall_append_singleton db.consistent.snapshotCapsules.slot hslot
        primaryKey := hordinal
        member := hmember
        snapshot := db.consistent.snapshotCapsules.snapshot.append_singleton
          (by simpa using hsnapshot)
        capsule := db.consistent.snapshotCapsules.capsule.append_singleton
          (by simpa using hcapsule) } }

/-- `INSERT INTO snapshot_reorganization_records` succeeds. -/
theorem consistent_addLedger {row : LedgerRow} (hcheck : row.Check)
    (hordinal : UniqueKey (fun row => (row.snapshotId, row.ordinal))
      (db.reorganizationRecords ++ [row]))
    (hitem : UniqueKey (fun row => (row.snapshotId, row.sourceCapsuleId, row.kind, row.itemId))
      (db.reorganizationRecords ++ [row]))
    (hsnapshot : row.snapshotId ∈ db.snapshotIds) :
    Tables.Consistent
      { db.toTables with reorganizationRecords := db.reorganizationRecords ++ [row] } :=
  { db.consistent with
    reorganizationRecords :=
      { check := forall_append_singleton db.consistent.reorganizationRecords.check hcheck
        primaryKey := hordinal
        item := hitem
        snapshot := db.consistent.reorganizationRecords.snapshot.append_singleton
          (by simpa using hsnapshot) } }

/-- `INSERT INTO token_metrics` succeeds. -/
theorem consistent_addMetric {row : MetricRow} (hcheck : row.key.Check)
    (hnew : ∀ old ∈ db.tokenMetrics, old.key ≠ row.key) :
    Tables.Consistent { db.toTables with tokenMetrics := db.tokenMetrics ++ [row] } :=
  { db.consistent with
    tokenMetrics :=
      { check := forall_append_singleton db.consistent.tokenMetrics.check hcheck
        primaryKey :=
          uniqueKey_append_singleton.mpr ⟨db.consistent.tokenMetrics.primaryKey, hnew⟩ } }

/-- `DELETE FROM token_metric_backfill_intents` succeeds. -/
theorem consistent_filterBackfill (keep : BackfillRow → Bool) :
    Tables.Consistent { db.toTables with backfillIntents := db.backfillIntents.filter keep } :=
  { db.consistent with
    backfillIntents :=
      { check := fun row hrow =>
          db.consistent.backfillIntents.check row (List.mem_of_mem_filter hrow)
        primaryKey := db.consistent.backfillIntents.primaryKey.sublist
          (List.filter_sublist.map BackfillRow.key)
        session := fun row hrow =>
          db.consistent.backfillIntents.session row (List.mem_of_mem_filter hrow) } }

/-- `INSERT INTO token_metric_backfill_intents` succeeds. -/
theorem consistent_addBackfill {row : BackfillRow} (hcheck : row.key.Check)
    (hnew : ∀ old ∈ db.backfillIntents, old.key ≠ row.key)
    (hsession : row.sessionKeyHash ∈ db.sessionKeys) :
    Tables.Consistent { db.toTables with backfillIntents := db.backfillIntents ++ [row] } :=
  { db.consistent with
    backfillIntents :=
      { check := forall_append_singleton db.consistent.backfillIntents.check hcheck
        primaryKey :=
          uniqueKey_append_singleton.mpr ⟨db.consistent.backfillIntents.primaryKey, hnew⟩
        session := db.consistent.backfillIntents.session.append_singleton
          (by simpa using hsession) } }

/-- `INSERT INTO active_snapshots` succeeds. -/
theorem consistent_addActive {row : ActiveRow} (hversion : 1 ≤ row.pointerVersion)
    (hnew : db.activeRow row.sessionKeyHash = none)
    (hunused : ∀ old ∈ db.activeSnapshots, old.snapshotId ≠ row.snapshotId)
    (hsession : row.sessionKeyHash ∈ db.sessionKeys)
    (hsnapshot : row.snapshotId ∈ db.snapshotIds) :
    Tables.Consistent { db.toTables with activeSnapshots := db.activeSnapshots ++ [row] } :=
  { db.consistent with
    activeSnapshots :=
      { version := forall_append_singleton db.consistent.activeSnapshots.version hversion
        primaryKey := uniqueKey_append_singleton.mpr
          ⟨db.consistent.activeSnapshots.primaryKey, find_eq_none.mp hnew⟩
        snapshotId := uniqueKey_append_singleton.mpr
          ⟨db.consistent.activeSnapshots.snapshotId, hunused⟩
        session := db.consistent.activeSnapshots.session.append_singleton (by simpa using hsession)
        snapshot := db.consistent.activeSnapshots.snapshot.append_singleton
          (by simpa using hsnapshot) } }

/-- An `UPDATE active_snapshots` of one session's pointer to an unused snapshot succeeds. -/
theorem consistent_moveActive {hash snapshotId : String} {now : Timestamp}
    {selected : ActiveRow → Bool}
    (hselected : ∀ row, selected row = true → row.sessionKeyHash = hash)
    (hunused : ∀ old ∈ db.activeSnapshots, old.snapshotId ≠ snapshotId)
    (hsnapshot : snapshotId ∈ db.snapshotIds) :
    Tables.Consistent { db.toTables with
      activeSnapshots := update selected
        (fun row => { row with
          snapshotId := snapshotId, pointerVersion := row.pointerVersion + 1, updatedAt := now })
        db.activeSnapshots } :=
  { db.consistent with
    activeSnapshots :=
      { version := by
          intro row hrow
          rcases mem_update.mp hrow with ⟨old, -, -, rfl⟩ | ⟨hold, -⟩
          · exact Nat.le_add_left 1 old.pointerVersion
          · exact db.consistent.activeSnapshots.version row hold
        primaryKey := by
          show (List.map _ (update _ _ _)).Nodup
          rw [map_update]
          · exact db.consistent.activeSnapshots.primaryKey
          · exact fun _ _ => rfl
        snapshotId := db.consistent.activeSnapshots.snapshotId.update_one
          (fun a ha b hb hsa hsb => db.consistent.activeSnapshots.primaryKey.eq_of_key ha hb
            ((hselected a hsa).trans (hselected b hsb).symm))
          fun _ _ b hb heq => hunused b hb heq.symm
        session := by
          intro row hrow k hk
          rcases mem_update.mp hrow with ⟨old, hold, -, rfl⟩ | ⟨hold, -⟩
          · exact db.consistent.activeSnapshots.session old hold k hk
          · exact db.consistent.activeSnapshots.session row hold k hk
        snapshot := by
          intro row hrow k hk
          rcases mem_update.mp hrow with ⟨old, -, -, rfl⟩ | ⟨hold, -⟩
          · obtain rfl := Option.some.inj hk
            exact hsnapshot
          · exact db.consistent.activeSnapshots.snapshot row hold k hk } }

/-- `INSERT INTO compaction_jobs` succeeds. -/
theorem consistent_addJob {row : JobRow} (hcheck : row.Check)
    (hnew : db.jobRow row.jobId = none)
    (hnonterminal : row.state.isNonterminal = true → db.nonterminalJob row.sessionKeyHash = none)
    (hsession : row.sessionKeyHash ∈ db.sessionKeys)
    (hbase : ∀ id ∈ row.baseSnapshotId, id ∈ db.snapshotIds) :
    Tables.Consistent (db.withJobs (db.compactionJobs ++ [row])) :=
  { db.consistent with
    compactionJobs :=
      { check := forall_append_singleton db.consistent.compactionJobs.check hcheck
        primaryKey := uniqueKey_append_singleton.mpr
          ⟨db.consistent.compactionJobs.primaryKey, find_eq_none.mp hnew⟩
        nonterminal := by
          show UniqueKey _ ((db.compactionJobs ++ [row]).filter _)
          rw [List.filter_append, List.filter_singleton]
          cases hstate : row.state.isNonterminal with
          | false => simpa using db.consistent.compactionJobs.nonterminal
          | true =>
              refine uniqueKey_append_singleton.mpr
                ⟨db.consistent.compactionJobs.nonterminal, fun old hold hsame => ?_⟩
              obtain ⟨hmem, holdState⟩ := List.mem_filter.mp hold
              have hterminal := nonterminalJob_eq_none.mp (hnonterminal hstate) old hmem hsame
              rw [hterminal] at holdState
              cases holdState
        session := db.consistent.compactionJobs.session.append_singleton (by simpa using hsession)
        base := db.consistent.compactionJobs.base.append_singleton hbase } }

/-- An `UPDATE compaction_jobs` that keeps ids and sessions, refers to stored bases and makes no
terminal job nonterminal succeeds. -/
theorem consistent_updateJobs {selected : JobRow → Bool} {change : JobRow → JobRow}
    (hcheck : ∀ row ∈ db.compactionJobs, selected row = true → (change row).Check)
    (hkeep : ∀ row, (change row).jobId = row.jobId ∧
      (change row).sessionKeyHash = row.sessionKeyHash)
    (hbase : ∀ row ∈ db.compactionJobs, selected row = true →
      ∀ id ∈ (change row).baseSnapshotId, id ∈ db.snapshotIds)
    (hstate : ∀ row ∈ db.compactionJobs, selected row = true →
      (change row).state.isNonterminal = true → row.state.isNonterminal = true) :
    Tables.Consistent (db.withJobs (update selected change db.compactionJobs)) :=
  { db.consistent with
    compactionJobs :=
      { check := by
          intro row hrow
          rcases mem_update.mp hrow with ⟨old, hold, hselected, rfl⟩ | ⟨hold, -⟩
          · exact hcheck old hold hselected
          · exact db.consistent.compactionJobs.check row hold
        primaryKey := by
          show (List.map _ (update _ _ _)).Nodup
          rw [map_update JobRow.jobId _ fun row _ => (hkeep row).1]
          exact db.consistent.compactionJobs.primaryKey
        nonterminal := db.consistent.compactionJobs.nonterminal.sublist
          (filter_update_sublist JobRow.sessionKeyHash (fun row _ => (hkeep row).2) hstate)
        session := by
          intro row hrow k hk
          rcases mem_update.mp hrow with ⟨old, hold, -, rfl⟩ | ⟨hold, -⟩
          · exact db.consistent.compactionJobs.session old hold k
              (by simpa [(hkeep old).2] using hk)
          · exact db.consistent.compactionJobs.session row hold k hk
        base := by
          intro row hrow k hk
          rcases mem_update.mp hrow with ⟨old, hold, hselected, rfl⟩ | ⟨hold, -⟩
          · exact hbase old hold hselected k hk
          · exact db.consistent.compactionJobs.base row hold k hk } }

end Database

end AstrContinuum
