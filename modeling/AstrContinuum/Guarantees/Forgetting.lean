import AstrContinuum.Guarantees.Linearity
import AstrContinuum.Invariants.Gate

/-!
# Nothing is forgotten silently

Along the chain of a session, a stable id leaves the active ids only in a snapshot that retires it,
and an active anchor never leaves. `no_silent_forgetting` composes the link lemmas of the gate over
any number of snapshots.
-/

namespace AstrContinuum

open Checked Relational Transactional

section Forgetting

variable [Hashlib]

/-- Along a link, an active id stays active unless the later snapshot retires it. -/
theorem Follows.active {db : Database} {row next : SnapshotRow} (h : Follows db (some row) next)
    {id : String} (hid : id ∈ activeIds (db.capsulesOf row.snapshotId)) :
    id ∈ activeIds (db.capsulesOf next.snapshotId) ∨
      (Retires db (some row) next id ∧
        id ∈ (statements (db.capsulesOf row.snapshotId)).map SemanticRecord.stableId) := by
  obtain ⟨input, hadmitted⟩ := h
  exact hadmitted.active_or_retires hid

/-- Along a link, an active anchor stays one. -/
theorem Follows.anchor {db : Database} {row next : SnapshotRow} (h : Follows db (some row) next)
    {anchor : CapsuleAnchor} (hanchor : anchor ∈ activeAnchors (db.capsulesOf row.snapshotId)) :
    anchor ∈ activeAnchors (db.capsulesOf next.snapshotId) := by
  obtain ⟨input, hadmitted⟩ := h
  exact hadmitted.anchors_kept hanchor

variable [SecureCodec]

/-- In every reachable state and for any two snapshots of a session, the earlier at `i` and the
later at `j`: an id that is active at `i` is active at `j` unless a snapshot after `i` and up to `j`
retires it; the id of an entity or dependency is active at `j` unless a claim or decision of a
snapshot from `i` on and before `j` shares it; and an active anchor at `i` is one at `j`. -/
theorem no_silent_forgetting {db : Database} (h : repository.Reachable db) (hash : String)
    {i j : Nat} (hj : j < (db.chain hash).length) (hij : i < j) :
    (∀ id ∈ activeIds (db.capsulesOf (db.chain hash)[i].snapshotId),
        (∀ k (_ : k + 1 ≤ j), i ≤ k →
          ¬ Retires db (some (db.chain hash)[k]) (db.chain hash)[k + 1] id) →
        id ∈ activeIds (db.capsulesOf (db.chain hash)[j].snapshotId)) ∧
      (∀ item ∈ structuralRecords (db.capsulesOf (db.chain hash)[i].snapshotId),
        (∀ k (_ : k < j), i ≤ k → item.stableId ∉
          (statements (db.capsulesOf (db.chain hash)[k].snapshotId)).map
            SemanticRecord.stableId) →
        item.stableId ∈ activeIds (db.capsulesOf (db.chain hash)[j].snapshotId)) ∧
      ∀ anchor ∈ activeAnchors (db.capsulesOf (db.chain hash)[i].snapshotId),
        anchor ∈ activeAnchors (db.capsulesOf (db.chain hash)[j].snapshotId) := by
  have hlinked := (sound_of_reachable h).chain.linked hash
  refine ⟨fun id hid hretires => ?_, fun item hitem hshared => ?_, fun anchor hanchor => ?_⟩
  · have hcarry := hlinked.carry
      (P := fun row => id ∈ activeIds (db.capsulesOf row.snapshotId)) hij.le hj
    refine hcarry hid fun k hk hik hkj hfollows hactive => ?_
    rcases hfollows.active hactive with hkept | ⟨hretired, -⟩
    · exact hkept
    · exact absurd hretired (hretires k hkj hik)
  · have hcarry := hlinked.carry
      (P := fun row => item.stableId ∈ activeIds (db.capsulesOf row.snapshotId)) hij.le hj
    refine hcarry (structuralRecords_active hitem) fun k hk hik hkj hfollows hactive => ?_
    rcases hfollows.active hactive with hkept | ⟨-, hstatement⟩
    · exact hkept
    · exact absurd hstatement (hshared k hkj hik)
  · have hcarry := hlinked.carry
      (P := fun row => anchor ∈ activeAnchors (db.capsulesOf row.snapshotId)) hij.le hj
    exact hcarry hanchor fun k hk hik hkj hfollows hkept => hfollows.anchor hkept

end Forgetting

open Sample in
/-- The anchor of the first snapshot is an active anchor of the second. -/
theorem no_silent_forgetting_sample :
    ((repository.execute twoCompactions).chain sessionHash).map SnapshotRow.snapshotId =
        ["one", "two"] ∧
      anchor ∈ activeAnchors ((repository.execute twoCompactions).capsulesOf "one") ∧
      anchor ∈ activeAnchors ((repository.execute twoCompactions).capsulesOf "two") := by
  have hids : ((repository.execute twoCompactions).chain sessionHash).map SnapshotRow.snapshotId =
      ["one", "two"] := by decide +kernel
  have hanchor : anchor ∈ activeAnchors ((repository.execute twoCompactions).capsulesOf "one") := by
    decide +kernel
  refine ⟨hids, hanchor, ?_⟩
  have hreachable := repository.reachable_execute twoCompactions
  generalize repository.execute twoCompactions = db at hids hanchor hreachable ⊢
  obtain ⟨one, rest, hchain, hone, hrest⟩ := List.map_eq_cons_iff.mp hids
  obtain ⟨two, tail, rfl, htwo, -⟩ := List.map_eq_cons_iff.mp hrest
  have hkept := (no_silent_forgetting hreachable sessionHash (i := 0) (j := 1)
    (by simp [hchain]) Nat.zero_lt_one).2.2 anchor
  simp only [hchain, List.getElem_cons_zero, List.getElem_cons_succ, hone, htwo] at hkept
  exact hkept hanchor

end AstrContinuum
