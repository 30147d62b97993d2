import AstrContinuum.Guarantees.Linearity
import AstrContinuum.Invariants.Gate

/-!
# Provenance is closed

Whatever a committed snapshot cites is an event of its own session that it covers. The gate accepts
a source that a predecessor capsule merely lists, so the proof follows the chain: the capsules of
the first snapshot cite its delta, and every later one cites its predecessor or its own delta.
-/

namespace AstrContinuum

open Checked Relational Transactional

section Provenance

variable [Hashlib]

/-- `id` is the id of an event of the session of `row` within its coverage. -/
def Covers (db : Database) (row : SnapshotRow) (id : String) : Prop :=
  ∃ event ∈ db.journalEvents, event.sessionKeyHash = row.sessionKeyHash ∧ event.eventId = id ∧
    event.sequence ≤ row.coveredEventEnd

omit [Hashlib] in
/-- A snapshot covers its own delta. -/
theorem covers_of_delta {db : Database} {previous : Option SnapshotRow} {next : SnapshotRow}
    {id : String} (h : id ∈ db.deltaIds previous next) : Covers db next id := by
  obtain ⟨event, hevent, hid⟩ := List.mem_map.mp h
  obtain ⟨hmem, hselected⟩ := List.mem_filter.mp (mem_orderBy.mp hevent)
  simp only [Bool.and_eq_true, decide_eq_true_eq] at hselected
  exact ⟨event, hmem, hselected.1.1, hid, hselected.2⟩

omit [Hashlib] in
/-- A later snapshot of the session covers what an earlier one covers. -/
theorem Covers.mono {db : Database} {row next : SnapshotRow} {id : String} (h : Covers db row id)
    (hsession : row.sessionKeyHash = next.sessionKeyHash)
    (hcoverage : row.coveredEventEnd ≤ next.coveredEventEnd) : Covers db next id := by
  obtain ⟨event, hevent, heventSession, hid, hsequence⟩ := h
  exact ⟨event, hevent, heventSession.trans hsession, hid, hsequence.trans hcoverage⟩

/-- Everything that a snapshot cites is an event that it covers. -/
structure SourcesCovered (db : Database) (row : SnapshotRow) : Prop where
  capsules : ∀ capsule ∈ db.capsulesOf row.snapshotId,
    ∀ id ∈ capsule.sourceEventIds, Covers db row id
  statements : ∀ record ∈ statements (db.capsulesOf row.snapshotId), record.status = .active →
    ∀ id ∈ record.sourceEventIds, Covers db row id
  structuralRecords : ∀ record ∈ structuralRecords (db.capsulesOf row.snapshotId),
    ∀ id ∈ record.sourceEventIds, Covers db row id
  anchors : ∀ anchor ∈ activeAnchors (db.capsulesOf row.snapshotId),
    ∀ id ∈ anchor.sourceEventIds, Covers db row id

/-- Along a link, the sources are covered when those of the predecessor are. -/
theorem AdmittedBy.sourcesCovered {db : Database} {previous : Option SnapshotRow}
    {next : SnapshotRow} {input : PermanentInput} (h : AdmittedBy db previous next input)
    (hprevious : ∀ capsule ∈ db.capsulesOf? previous, ∀ id ∈ capsule.sourceEventIds,
      Covers db next id) : SourcesCovered db next := by
  have hcovers : ∀ id, ((∃ old ∈ db.capsulesOf? previous, id ∈ old.sourceEventIds) ∨
      id ∈ db.deltaIds previous next) → Covers db next id := by
    rintro id (⟨old, hold, hid⟩ | hdelta)
    · exact hprevious old hold id hid
    · exact covers_of_delta hdelta
  constructor
  · intro capsule hcapsule id hid
    exact hcovers id (h.capsule_sources hcapsule hid)
  · intro record hrecord hactive id hid
    exact hcovers id (h.record_sources (mem_statements.mp hrecord).1 hactive hid)
  · intro record hrecord id hid
    obtain ⟨hmem, hactive⟩ := mem_structuralRecords hrecord
    exact hcovers id (h.record_sources hmem hactive hid)
  · intro anchor hanchor id hid
    exact hcovers id (h.anchor_sources hanchor hid)

variable [SecureCodec]

/-- In every reachable state, every source that a committed snapshot cites in its capsules, in its
active claims and decisions, in its entities and dependencies or in its active anchors is an event
of the same session within its coverage. -/
theorem provenance_closed {db : Database} (h : repository.Reachable db) {row : SnapshotRow}
    (hrow : row ∈ db.snapshots) : SourcesCovered db row := by
  have hlinked := (sound_of_reachable h).chain.linked row.sessionKeyHash
  refine hlinked.forall_mem ?_ ?_ row (List.mem_filter.mpr ⟨hrow, by simp⟩)
  · rintro first - ⟨input, hadmitted⟩
    refine hadmitted.sourcesCovered fun capsule hcapsule => ?_
    cases hcapsule
  · rintro earlier hearlier next hnext ⟨input, hadmitted⟩ ih
    refine hadmitted.sourcesCovered fun capsule hcapsule id hid => ?_
    have hsession : earlier.sessionKeyHash = next.sessionKeyHash :=
      (of_decide_eq_true (List.mem_filter.mp hearlier).2).trans
        (of_decide_eq_true (List.mem_filter.mp hnext).2).symm
    exact (ih.capsules capsule hcapsule id hid).mono hsession hadmitted.coverage_lt.le

end Provenance

open Sample in
/-- The second snapshot of the sample covers the event that its first capsule cites. -/
theorem provenance_closed_sample :
    ∃ row ∈ (repository.execute twoCompactions).snapshots, row.snapshotId = "two" ∧
      first ∈ (repository.execute twoCompactions).capsulesOf row.snapshotId ∧
      Covers (repository.execute twoCompactions) row "e1" := by
  have hrow : ∃ row ∈ (repository.execute twoCompactions).snapshots, row.snapshotId = "two" := by
    decide +kernel
  have hfirst : first ∈ (repository.execute twoCompactions).capsulesOf "two" := by
    decide +kernel
  obtain ⟨row, hmem, hid⟩ := hrow
  refine ⟨row, hmem, hid, hid.symm ▸ hfirst, ?_⟩
  exact (provenance_closed (repository.reachable_execute twoCompactions) hmem).capsules first
    (hid.symm ▸ hfirst) "e1" (by decide)

end AstrContinuum
