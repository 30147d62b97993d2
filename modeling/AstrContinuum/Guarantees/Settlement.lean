import AstrContinuum.Guarantees.Bases
import AstrContinuum.Settlement.Terminal

/-!
# When a publication settles its job

An admitted candidate should end its job as `COMMITTED` or `SUPERSEDED`. `publication_settles_iff`
says exactly when it does. The first publication of a session that meets a stored id does not: it
has no active snapshot to lose to, and raises.
-/

namespace AstrContinuum

open Checked Transactional

/-- In every reachable state the publication of an admitted candidate settles its job exactly when
its first obstacle is no refusal, a conflict finds an active snapshot to lose to, and the follow-up
finds its id free. -/
theorem publication_settles_iff [Hashlib] [SecureCodec] {db : Database}
    (h : repository.Reachable db) {request : PublishRequest} {admission : Admission} {row : JobRow}
    (hadmission : admitCandidate db request = .ok admission)
    (hrow : db.jobRow request.fence.jobId = some row) :
    Settles db request ↔ CanSettle db request row := by
  obtain ⟨stored, hadmits⟩ := admitCandidate_ok hadmission
  obtain rfl := Option.some.inj (hadmits.stored.symm.trans hrow)
  exact publishSnapshot_settles_iff (sound_of_reachable h) hadmission hadmits

namespace Sample

/-- A capsule of the second session. -/
def otherCapsule : ContextCapsuleEnvelope where
  toCapsuleData := { capsuleData "other" 1 1 ["o1"] with sessionKey := otherSession }

/-- The first snapshot of the second session, under the id of a stored snapshot. -/
def otherOne : SnapshotEnvelope where
  toSnapshotData := { snapshotData "one" none 1 [otherCapsule] with sessionKey := otherSession }

/-- The first publication of the second session. -/
def otherPublication : PublishRequest :=
  publication "job3" otherOne [otherCapsule]

/-- After a compaction of the first session, the second one has an event, and its first candidate is
ready under the snapshot id of the first session. -/
def otherReady : List Call :=
  firstCompaction ++
    [{ operation := .captureUserEvent
        { eventId := "o1"
          sessionKey := otherSession
          content := "text"
          idempotencyKey := "o1"
          tokenCount := 1
          canonical := ⟨"profile", none, stripNonEmpty_profile⟩
          createdAt := 1 } },
      { operation := .raiseCompactionIntent "job3" otherSession 1 1 },
      { operation := .claimJob "worker" 1 9 },
      { operation := .transitionJob ⟨"job3", "worker", 1, 2⟩ .compiling none },
      { operation := .transitionJob ⟨"job3", "worker", 1, 2⟩ .readyToCommit (some "one") }]

end Sample

open Sample in
/-- The second compaction of a session meets no obstacle and needs no follow-up, so it settles its
job. -/
theorem publication_settles_iff_sample :
    ∃ row, (repository.execute secondReady).jobRow "job2" = some row ∧
      CanSettle (repository.execute secondReady) (publication "job2" snapshotTwo [first, second])
        row ∧
      Settles (repository.execute secondReady)
        (publication "job2" snapshotTwo [first, second]) := by
  have hreachable := repository.reachable_execute secondReady
  have hadmitted : (admitCandidate (repository.execute secondReady)
      (publication "job2" snapshotTwo [first, second])).isOk = true := by decide +kernel
  have hobstacle : stagingObstacle (repository.execute secondReady)
      (publication "job2" snapshotTwo [first, second]) = none := by decide +kernel
  have hintent : ((repository.execute secondReady).jobRow "job2").map
      JobRow.intentTargetHighWaterMark = some 2 := by decide +kernel
  generalize repository.execute secondReady = db at *
  obtain ⟨admission, hadmission⟩ := isOk_iff.mp hadmitted
  obtain ⟨row, hrow, htarget⟩ := Option.map_eq_some_iff.mp hintent
  have hcan : CanSettle db (publication "job2" snapshotTwo [first, second]) row := by
    unfold CanSettle
    rw [hobstacle]
    exact Or.inl htarget.le
  exact ⟨row, hrow, hcan, (publication_settles_iff hreachable hadmission hrow).mpr hcan⟩

open Sample in
/-- The first publication of a session raises when its snapshot id is stored in another session: the
candidate is admitted, but nothing can win, and the job stays `READY_TO_COMMIT`. -/
theorem first_publication_conflict_raises :
    repository.Reachable (repository.execute otherReady) ∧
      (admitCandidate (repository.execute otherReady) otherPublication).isOk = true ∧
      publishSnapshot .none (repository.execute otherReady) otherPublication =
        .error (.repositoryInvariantError "publish conflict has no durable active winner") ∧
      ((repository.next (repository.execute otherReady)
          { operation := .publishSnapshot otherPublication }).jobRow "job3").map JobRow.state =
        some .readyToCommit ∧
      ¬ Settles (repository.execute otherReady) otherPublication := by
  have hraises : publishSnapshot .none (repository.execute otherReady) otherPublication =
      .error (.repositoryInvariantError "publish conflict has no durable active winner") := by
    decide +kernel
  refine ⟨repository.reachable_execute otherReady, by decide +kernel, hraises, by decide +kernel,
    ?_⟩
  rintro ⟨db', result, row, hpublished, -⟩
  rw [hraises] at hpublished
  cases hpublished

end AstrContinuum
