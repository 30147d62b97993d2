import AstrContinuum.Storage.JobQueue

/-!
# Read views

`TX_READ_REQUEST_VIEW` and the view of a live compaction lease, `read_compaction_view`. Both return
one committed snapshot with the journal delta after it.
-/

namespace AstrContinuum

open Checked Relational

variable [Hashlib]

/-- `RequestView`. -/
structure RequestView where
  sessionKey : SessionKey
  snapshot : Option SnapshotEnvelope
  memberships : List SnapshotCapsuleMembership
  pointerVersion : Nat
  coveredEventEnd : Nat
  highWaterMark : Nat
  delta : List EventEnvelope
deriving DecidableEq

/-- `RequestView.capsules`. -/
def RequestView.capsules (view : RequestView) : List ContextCapsuleEnvelope :=
  view.memberships.map SnapshotCapsuleMembership.capsule

/-- `tuple(range(start + 1, end + 1))`. -/
def deltaSequences (startExclusive endInclusive : Nat) : List Nat :=
  List.range' (startExclusive + 1) (endInclusive - startExclusive)

/-- The active snapshot of a session with its memberships and pointer version. -/
def readActiveSnapshot (db : Database) (sessionKey : SessionKey) :
    Except StorageFailure (Option (SnapshotEnvelope × List SnapshotCapsuleMembership × Nat)) :=
  match db.activeRow sessionKey.sessionKeyHash with
  | none => .ok none
  | some active =>
      match db.snapshotRow active.snapshotId with
      | none => .ok none
      | some row => do
          let memberships ← membershipsForSnapshot db row.snapshotId sessionKey
          let snapshot ← snapshotFromRow row sessionKey
            (memberships.map SnapshotCapsuleMembership.capsuleId)
          validateSnapshotMemberships snapshot memberships
          pure (some (snapshot, memberships, active.pointerVersion))

/-- `_read_request_view`. -/
def readRequestView (faults : FaultInjector) (db : Database) (sessionKey : SessionKey) :
    Except StorageFailure RequestView :=
  match db.sessionRow sessionKey.sessionKeyHash with
  | none => .ok ⟨sessionKey, none, [], 0, 0, 0, []⟩
  | some session => do
      let stored ← sessionKeyFromStorage session
      require (stored = sessionKey)
        (.sessionIdentityConflict
          "session hash does not resolve to the exact canonical SessionKey")
      let highWaterMark := session.nextEventSequence - 1
      inject faults .readAfterHighWater
      inject faults .readAfterPointer
      let active ← readActiveSnapshot db sessionKey
      let coveredEventEnd := (active.map fun bundle => bundle.1.coveredEventEnd).getD 0
      require (coveredEventEnd ≤ highWaterMark)
        (.repositoryInvariantError
          "active Snapshot coverage exceeds the Journal high-water mark")
      let delta ← eventsBetween db sessionKey coveredEventEnd highWaterMark
      require (delta.map (fun event => event.sequence) =
          deltaSequences coveredEventEnd highWaterMark)
        (.repositoryInvariantError
          "request Delta is not contiguous through the fixed high-water mark")
      pure
        { sessionKey := sessionKey
          snapshot := active.map fun bundle => bundle.1
          memberships := (active.map fun bundle => bundle.2.1).getD []
          pointerVersion := (active.map fun bundle => bundle.2.2).getD 0
          coveredEventEnd := coveredEventEnd
          highWaterMark := highWaterMark
          delta := delta }

/-- The base of a claimed job: its snapshot and memberships. -/
def readJobBase (db : Database) (job : CompactionJobEnvelope) :
    Except StorageFailure (Option SnapshotEnvelope × List SnapshotCapsuleMembership) :=
  match job.baseSnapshotId with
  | none => do
      require (job.basePointerVersion = 0)
        (.repositoryInvariantError "empty Job base must have pointer version zero")
      pure (none, [])
  | some baseSnapshotId => do
      let (snapshot, memberships) ← snapshotBundleById db baseSnapshotId job.sessionKey
      require (snapshot.state = .committed)
        (.repositoryInvariantError "Job base Snapshot is not committed")
      pure (some snapshot, memberships)

/-- `read_compaction_view`. -/
def readCompactionView (db : Database) (fence : Fence) : Except StorageFailure RequestView := do
  let row ← requireLiveFence db fence.jobId fence.owner fence.leaseEpoch fence.now
  require (row.state = .compiling ∨ row.state = .auditing)
    (.jobTransitionError "compaction input requires a COMPILING or AUDITING Job")
  let job ← jobById db fence.jobId
  let (snapshot, memberships) ← readJobBase db job
  let coveredEventEnd := (snapshot.map fun base => base.coveredEventEnd).getD 0
  require (coveredEventEnd ≤ job.targetHighWaterMark)
    (.repositoryInvariantError "Job base Snapshot coverage exceeds its frozen target")
  let delta ← eventsBetween db job.sessionKey coveredEventEnd job.targetHighWaterMark
  require (delta.map (fun event => event.sequence) =
      deltaSequences coveredEventEnd job.targetHighWaterMark)
    (.repositoryInvariantError
      "claimed request Delta is not contiguous through the frozen target")
  pure
    { sessionKey := job.sessionKey
      snapshot := snapshot
      memberships := memberships
      pointerVersion := job.basePointerVersion
      coveredEventEnd := coveredEventEnd
      highWaterMark := job.targetHighWaterMark
      delta := delta }

end AstrContinuum
