import AstrContinuum.Storage.Publication

/-!
# Injected faults

An injected fault only makes a transaction raise. `publishSnapshot_approximates` says so for
publication: whatever it commits under faults, it commits without them.
-/

namespace AstrContinuum

open Checked

variable [Hashlib] [SecureCodec]

omit [Hashlib] [SecureCodec] in
/-- A boundary that is passed under faults is passed without them. -/
theorem inject_approximates {faults : FaultInjector} {boundary : Boundary} {call : Nat} :
    Approximates (inject faults boundary call) (inject .none boundary call) :=
  fun _ _ => rfl

omit [Hashlib] [SecureCodec] in
/-- A loop of staged inserts under faults approximates the loop. -/
theorem insertUntilConflict_approximates {α : Type}
    {insert : Database → α → Except StorageFailure Database} {faults : FaultInjector}
    {boundary : Boundary} {call : Nat} {db : Database} {items : List α} :
    Approximates (insertUntilConflict insert faults boundary call db items)
      (insertUntilConflict insert .none boundary call db items) := by
  induction items generalizing call db with
  | nil => exact .refl _
  | cons item rest ih =>
      refine (Approximates.refl _).bind fun staged => ?_
      cases staged with
      | none => exact .refl _
      | some db => exact inject_approximates.bind fun _ => ih

/-- The inserts of a candidate under faults approximate the inserts. -/
theorem stageRows_approximates {faults : FaultInjector} {db : Database} {request : PublishRequest}
    {committed : SnapshotEnvelope} {records : List ReorganizationRecord} :
    Approximates (stageRows faults db request committed records)
      (stageRows .none db request committed records) := by
  have hrecord : ∀ state entry,
      Approximates (insertReorganizationRecord faults committed.snapshotId state entry)
        (insertReorganizationRecord .none committed.snapshotId state entry) := fun state entry =>
    (Approximates.refl _).bind fun _ => (Approximates.refl _).bind fun _ =>
      inject_approximates.bind fun _ => .refl _
  have hmetric : ∀ state entry, Approximates (publishMetric faults request.fence.now state entry)
      (publishMetric .none request.fence.now state entry) := fun state entry =>
    (Approximates.refl _).bind fun _ => inject_approximates.bind fun _ => .refl _
  refine insertUntilConflict_approximates.bind fun staged => ?_
  cases staged with
  | none => exact .refl _
  | some db =>
  refine (Approximates.refl _).bind fun staged => ?_
  cases staged with
  | none => exact .refl _
  | some db =>
  refine inject_approximates.bind fun _ => ?_
  refine insertUntilConflict_approximates.bind fun staged => ?_
  cases staged with
  | none => exact .refl _
  | some db =>
      refine (Approximates.forEach hrecord _ _).bind fun _ => ?_
      exact (Approximates.forEach hmetric _ _).bind fun _ => .refl _

/-- A publication under faults commits only what it commits without them. -/
theorem publishSnapshot_approximates {faults : FaultInjector} {db : Database}
    {request : PublishRequest} :
    Approximates (publishSnapshot faults db request) (publishSnapshot .none db request) := by
  refine (Approximates.refl _).bind fun admission => ?_
  refine inject_approximates.bind fun _ => ?_
  have hstage : Approximates
      (stageCandidate faults db request admission.job admission.committed admission.records)
      (stageCandidate .none db request admission.job admission.committed admission.records) := by
    refine stageRows_approximates.bind fun staged => ?_
    exact .refl _
  refine hstage.bind fun staged => ?_
  cases staged with
  | none =>
      refine (Approximates.refl _).bind fun _ => inject_approximates.bind fun _ => ?_
      refine (Approximates.refl _).bind fun _ => (Approximates.refl _).bind fun _ => ?_
      exact inject_approximates.bind fun _ => .refl _
  | some staged =>
      refine inject_approximates.bind fun _ => (Approximates.refl _).bind fun _ => ?_
      refine inject_approximates.bind fun _ => (Approximates.refl _).bind fun _ => ?_
      exact inject_approximates.bind fun _ => .refl _

end AstrContinuum
