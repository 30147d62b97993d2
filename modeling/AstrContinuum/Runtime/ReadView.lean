import AstrContinuum.Storage.Views

/-!
# Validated request views

`runtime/read_view.py` reads a request view from a source and checks once more, without knowing how the
source reads it, what the rest of the runtime relies on.
-/

namespace AstrContinuum

open Checked

/-- `RequestViewErrorCode`. -/
inductive RequestViewErrorCode
  | sessionMismatch
  | bootstrapInvalid
  | snapshotInvalid
  | coverageInvalid
  | deltaGap
  | deltaIdentityMismatch
deriving DecidableEq

/-- What reading a validated view raises: a `RequestViewInvariantError`, or what the source raises. -/
inductive RequestViewFailure
  | invariant (code : RequestViewErrorCode)
  | source (failure : StorageFailure)
deriving DecidableEq

namespace RuntimeView

/-- `_validate_snapshot`. -/
def validateSnapshot (view : RequestView) (sessionKey : SessionKey) : Except RequestViewFailure Unit :=
  match view.snapshot with
  | none =>
      require (view.pointerVersion = 0 ∧ view.coveredEventEnd = 0 ∧ view.memberships = [])
        (.invariant .bootstrapInvalid)
  | some snapshot =>
      require (1 ≤ view.pointerVersion ∧ snapshot.state = .committed ∧ snapshot.sessionKey = sessionKey ∧
          snapshot.coveredEventEnd = view.coveredEventEnd ∧
            snapshot.sourceHighWaterMark = view.coveredEventEnd ∧
          view.memberships.map SnapshotCapsuleMembership.capsuleId = snapshot.capsuleIds ∧
          view.memberships.map SnapshotCapsuleMembership.ordinal = List.range view.memberships.length ∧
          ∀ membership ∈ view.memberships, membership.capsule.sessionKey = sessionKey)
        (.invariant .snapshotInvalid)

/-- `_validate_delta`. -/
def validateDelta (view : RequestView) (sessionKey : SessionKey) : Except RequestViewFailure Unit := do
  require (view.coveredEventEnd ≤ view.highWaterMark) (.invariant .coverageInvalid)
  require (∀ event ∈ view.delta, event.sessionKey = sessionKey) (.invariant .deltaIdentityMismatch)
  require (view.delta.map (fun event => event.sequence) =
      List.range' (view.coveredEventEnd + 1) (view.highWaterMark - view.coveredEventEnd))
    (.invariant .deltaGap)

/-- `read_request_view`. -/
def readRequestView (source : SessionKey → Except StorageFailure RequestView) (sessionKey : SessionKey) :
    Except RequestViewFailure RequestView := do
  let view ← (source sessionKey).mapError .source
  require (view.sessionKey = sessionKey) (.invariant .sessionMismatch)
  validateSnapshot view sessionKey
  validateDelta view sessionKey
  pure view

end RuntimeView

end AstrContinuum
