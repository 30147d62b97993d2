import AstrContinuum.Guarantees.Views
import AstrContinuum.Runtime.ReadView

/-!
# The runtime accepts every view that the repository reads

The repository and the runtime check a request view independently of one another. Whatever calls came
before, the checks of the runtime pass on every view that the repository hands out (`validated_views`),
so what a request reads is what the repository has read, or the error that it has raised.
-/

namespace AstrContinuum

open Checked Relational

section Reads

variable [Hashlib]

/-- The loop over the memberships numbers them. -/
theorem membershipsFrom_ordinals {sessionKey : SessionKey} {ordinal : Nat}
    {rows : List (MembershipRow × CapsuleRow)} {memberships : List SnapshotCapsuleMembership}
    (h : membershipsFrom sessionKey ordinal rows = .ok memberships) :
    memberships.map SnapshotCapsuleMembership.ordinal = List.range' ordinal memberships.length := by
  induction rows generalizing ordinal memberships with
  | nil =>
      obtain rfl : [] = memberships := Except.ok.inj h
      rfl
  | cons row rest ih =>
      obtain ⟨membership, capsule⟩ := row
      obtain ⟨_, -, h⟩ := bind_ok.mp h
      obtain ⟨tail, htail, h⟩ := bind_ok.mp h
      obtain rfl := pure_ok.mp h
      rw [List.map_cons, List.length_cons, List.range'_succ, ih htail]

/-- The rows of a snapshot are committed, and cover what they are made from. -/
theorem Sound.committed {db : Database} (h : Sound db) {row : SnapshotRow} (hrow : row ∈ db.snapshots) :
    row.lifecycleState = .committed ∧ row.sourceHighWaterMark = row.coveredEventEnd := by
  have hchain : row ∈ db.chain row.sessionKeyHash := List.mem_filter.mpr ⟨hrow, decide_eq_true rfl⟩
  obtain ⟨i, hi, hget⟩ := List.getElem_of_mem hchain
  obtain ⟨input, hadmitted⟩ := (h.chain.linked row.sessionKeyHash).follows_getElem hi
  rw [hget] at hadmitted
  refine ⟨?_, hadmitted.sourceHighWaterMark_eq⟩
  rw [hadmitted.candidate]
  rfl

/-- The active snapshot of a session passes the check of the runtime. -/
theorem readActiveSnapshot_valid {db : Database} (hsound : Sound db) {sessionKey : SessionKey}
    {snapshot : SnapshotEnvelope} {memberships : List SnapshotCapsuleMembership} {version : Nat}
    (h : readActiveSnapshot db sessionKey = .ok (some (snapshot, memberships, version))) :
    1 ≤ version ∧ snapshot.state = .committed ∧ snapshot.sessionKey = sessionKey ∧
      snapshot.sourceHighWaterMark = snapshot.coveredEventEnd ∧
      memberships.map SnapshotCapsuleMembership.capsuleId = snapshot.capsuleIds ∧
      memberships.map SnapshotCapsuleMembership.ordinal = List.range memberships.length ∧
      ∀ membership ∈ memberships, membership.capsule.sessionKey = sessionKey := by
  cases hactive : db.activeRow sessionKey.sessionKeyHash with
  | none => simp [readActiveSnapshot, hactive] at h
  | some active =>
      cases hrow : db.snapshotRow active.snapshotId with
      | none => simp [readActiveSnapshot, hactive, hrow] at h
      | some row =>
          rw [readActiveSnapshot_eq hactive hrow] at h
          obtain ⟨bundle, hbundle, hpair⟩ := map_ok.mp h
          obtain ⟨rfl, hrest⟩ := Prod.mk.inj (Option.some.inj hpair)
          obtain ⟨rfl, rfl⟩ := Prod.mk.inj hrest
          have hpointer : db.pointer sessionKey.sessionKeyHash =
              (some active.snapshotId, active.pointerVersion) := by
            simp [Database.pointer, hactive]
          have hlast := hsound.chain.getLast?_of_pointer hpointer hrow
          have hlength : active.pointerVersion = (db.chain sessionKey.sessionKeyHash).length :=
            congrArg Prod.snd (hpointer.symm.trans (hsound.chain.pointer sessionKey.sessionKeyHash))
          obtain ⟨hcommitted, hsource⟩ := hsound.committed (Database.snapshotRow_eq_some.mp hrow).1
          have hfields := bundleOf_ok hbundle
          obtain ⟨memberships, hmemberships, hvalid⟩ := bind_ok.mp hbundle
          obtain ⟨snapshot, -, hvalid⟩ := bind_ok.mp hvalid
          obtain ⟨_, -, hvalid⟩ := bind_ok.mp hvalid
          obtain rfl := pure_ok.mp hvalid
          refine ⟨?_, ?_, ?_, ?_, ?_, ?_, membershipsFrom_session hmemberships⟩
          · rw [hlength]
            exact List.length_pos_of_mem (List.mem_of_mem_getLast? hlast)
          · exact (congrArg SnapshotData.state hfields).trans hcommitted
          · exact congrArg SnapshotData.sessionKey hfields
          · rw [show snapshot.sourceHighWaterMark = row.sourceHighWaterMark from
              congrArg SnapshotData.sourceHighWaterMark hfields, hsource]
            exact (congrArg SnapshotData.coveredEventEnd hfields).symm
          · exact (congrArg SnapshotData.capsuleIds hfields).symm
          · rw [List.range_eq_range']
            exact membershipsFrom_ordinals hmemberships

/-- The events that are read for a session are its own. -/
theorem eventsBetween_session {db : Database} {sessionKey : SessionKey} {start stop : Nat}
    {events : List EventEnvelope} (h : eventsBetween db sessionKey start stop = .ok events) :
    ∀ event ∈ events, event.sessionKey = sessionKey := by
  intro event hevent
  have hfields := eventsBetween_ok h
  have hmem : event.toEventData ∈ events.map EventEnvelope.toEventData := List.mem_map_of_mem hevent
  rw [hfields] at hmem
  obtain ⟨row, -, hrow⟩ := List.mem_map.mp hmem
  exact (congrArg EventData.sessionKey hrow).symm

/-- A view that the repository reads is accepted by the runtime. -/
theorem readRequestView_valid {db : Database} (hsound : Sound db) {faults : FaultInjector}
    {sessionKey : SessionKey}
    {view : RequestView} (h : readRequestView faults db sessionKey = .ok view) :
    view.sessionKey = sessionKey ∧ RuntimeView.validateSnapshot view sessionKey = .ok () ∧
      RuntimeView.validateDelta view sessionKey = .ok () := by
  unfold readRequestView at h
  cases hsession : db.sessionRow sessionKey.sessionKeyHash with
  | none =>
      rw [hsession] at h
      obtain rfl := Except.ok.inj h
      exact ⟨rfl, rfl, rfl⟩
  | some session =>
      rw [hsession] at h
      obtain ⟨stored, -, h⟩ := bind_ok.mp h
      obtain ⟨_, -, h⟩ := bind_ok.mp h
      obtain ⟨_, -, h⟩ := bind_ok.mp h
      obtain ⟨_, -, h⟩ := bind_ok.mp h
      obtain ⟨active, hactive, h⟩ := bind_ok.mp h
      obtain ⟨_, hcovered, h⟩ := bind_ok.mp h
      obtain ⟨delta, hdelta, h⟩ := bind_ok.mp h
      obtain ⟨_, hsequences, h⟩ := bind_ok.mp h
      obtain rfl := pure_ok.mp h
      refine ⟨rfl, ?_, ?_⟩
      · cases active with
        | none => exact require_ok.mpr ⟨rfl, rfl, rfl⟩
        | some bundle =>
            obtain ⟨snapshot, memberships, version⟩ := bundle
            obtain ⟨hversion, hstate, hkey, hsource, hids, hordinals, hcapsules⟩ :=
              readActiveSnapshot_valid hsound hactive
            exact require_ok.mpr ⟨hversion, hstate, hkey, rfl, hsource, hids, hordinals, hcapsules⟩
      · have hdeltaSession := eventsBetween_session hdelta
        exact bind_ok.mpr ⟨(), require_ok.mpr (require_ok.mp hcovered), bind_ok.mpr
          ⟨(), require_ok.mpr hdeltaSession, require_ok.mpr (require_ok.mp hsequences)⟩⟩

end Reads

section Runs

variable [Hashlib] [SecureCodec]

/-- In every state that calls can reach, the runtime reads what the repository reads: its own checks
never fail. -/
theorem validated_views {db : Database} (h : repository.Reachable db) (faults : FaultInjector)
    (sessionKey : SessionKey) :
    RuntimeView.readRequestView (readRequestView faults db) sessionKey =
      (readRequestView faults db sessionKey).mapError .source := by
  unfold RuntimeView.readRequestView
  cases hread : readRequestView faults db sessionKey with
  | error failure => rfl
  | ok view =>
      obtain ⟨hsession, hsnapshot, hdelta⟩ := readRequestView_valid (sound_of_reachable h) hread
      have hview : (Except.ok view : Except StorageFailure RequestView).mapError RequestViewFailure.source =
          .ok view := rfl
      rw [hview]
      exact bind_ok.mpr ⟨view, rfl, bind_ok.mpr ⟨(), require_ok.mpr hsession, bind_ok.mpr
        ⟨(), hsnapshot, bind_ok.mpr ⟨(), hdelta, rfl⟩⟩⟩⟩

end Runs

/-- A compaction is committed, and another message is captured. -/
def Sample.compacted : List Call :=
  firstCompaction ++ [message "e2"]

open Sample in
/-- After a compaction and another message the runtime reads the snapshot of the session with its capsule
and the message behind it. -/
theorem validated_views_sample :
    ((readRequestView .none (repository.execute compacted) session).toOption.map fun view =>
        (view.snapshot.map fun snapshot => snapshot.snapshotId,
          view.memberships.map fun membership => membership.capsuleId,
          view.delta.map fun event => event.eventId)) = some (some "one", ["first"], ["e2"]) ∧
      RuntimeView.readRequestView (readRequestView .none (repository.execute compacted)) session =
        (readRequestView .none (repository.execute compacted) session).mapError .source :=
  ⟨by decide +kernel, validated_views (repository.reachable_execute compacted) .none session⟩

end AstrContinuum
