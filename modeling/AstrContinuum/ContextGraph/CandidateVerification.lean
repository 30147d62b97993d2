import AstrContinuum.Compaction.Auditor
import AstrContinuum.ContextGraph.Build
import AstrContinuum.ContextGraph.Engine
import AstrContinuum.Runtime.Retrieval

/-!
# Verifying candidates

`context_graph/candidate_verification.py`: an audited candidate becomes blocks and a graph, and three
fixed probes of it are solved twice, with a reduced and with the full state. An engine is a parameter.
-/

namespace AstrContinuum

open Checked

/-! ## Records -/

/-- `_PROBES`. -/
def candidateProbes : List (String × List CandidateKind) :=
  [("required", [.goal, .constraint, .exactAnchor, .taskContext]),
    ("evidence", [.decision, .dependency, .entity]),
    ("recent", [.rawEvent])]

/-- `VerificationEngine.solve`; `none` where it raises. -/
abbrev VerificationEngine :=
  ContextGraph → QueryActivation → ContextEngineMode → Option EngineResult

/-- `CandidateVerificationReport`. -/
structure CandidateVerificationReport where
  passed : Bool
  candidateCount : Nat
  relationCount : Nat
  constraintCount : Nat
  probeCount : Nat
  probeIds : List String
deriving DecidableEq

/-- Where `_verify_candidate` raises. -/
inductive VerificationFailure
  | raised (failure : RuntimeFailure)
  | engineRaised
  | membershipOrder
  | membershipSession
  | blockCapacity
  | selectionIncomplete
  | membershipProvenance
  | blockProvenance
  | numericalVerification
  | probeEquivalence
  | dependencyClosure
deriving DecidableEq

/-- The message of a `ValueError` of its own. -/
def VerificationFailure.message : VerificationFailure → Option String
  | .raised _ => none
  | .engineRaised => none
  | .membershipOrder => some "candidate membership order does not match snapshot"
  | .membershipSession => some "candidate membership session mismatch"
  | .blockCapacity => some "candidate block capacity invalid"
  | .selectionIncomplete => some "required candidate selection incomplete"
  | .membershipProvenance => some "candidate membership provenance invalid"
  | .blockProvenance => some "candidate provenance invalid"
  | .numericalVerification => some "candidate numerical verification failed"
  | .probeEquivalence => some "candidate probe equivalence failed"
  | .dependencyClosure => some "candidate dependency closure failed"

/-- What a callee raises. -/
def orRaised {α : Type} (x : Except RuntimeFailure α) : Except VerificationFailure α :=
  x.mapError .raised

/-! ## Blocks -/

/-- `_source_events`. -/
def sourceEvents (candidate : AuditedCandidate) : List EventEnvelope :=
  (candidate.segments.flatMap EventSegment.events).foldl (fun events event =>
    if events.any fun known => known.eventId = event.eventId then events else events ++ [event]) []

/-- `_known_provenance`. -/
def knownProvenance (candidate : AuditedCandidate) : List String :=
  ((candidate.segments.flatMap EventSegment.events).map fun event => event.eventId) ++
    candidate.memberships.flatMap fun membership => membership.capsule.sourceEventIds

/-- The sources of the items of a capsule, field by field as in `_PROVENANCE_FIELDS`. -/
def itemSources (capsule : ContextCapsuleEnvelope) : List (List String) :=
  capsule.goals.map CapsuleClaim.sourceEventIds ++
    capsule.constraints.map CapsuleClaim.sourceEventIds ++
    capsule.decisions.map Decision.sourceEventIds ++
    capsule.progress.map CapsuleClaim.sourceEventIds ++
    capsule.openLoops.map CapsuleClaim.sourceEventIds ++
    capsule.preferences.map CapsuleClaim.sourceEventIds ++
    capsule.entities.map Entity.sourceEventIds ++
    capsule.emotionalContext.map CapsuleClaim.sourceEventIds ++
    capsule.exactAnchors.map CapsuleAnchor.sourceEventIds ++
    capsule.dependencies.map Dependency.sourceEventIds

/-- `_membership_provenance_valid`. -/
def membershipProvenanceValid (candidate : AuditedCandidate) : Bool :=
  candidate.memberships.all fun membership =>
    (itemSources membership.capsule).all fun sources =>
      sources.all (· ∈ membership.capsule.sourceEventIds)

section Blocks

variable [UnicodeTables] [JsonReader]

/-- `build_candidate_blocks` with the default retrieval. -/
def buildCandidateBlocks (candidate : AuditedCandidate) :
    Except VerificationFailure (List CandidateBlock) := do
  let snapshot := candidate.snapshot
  require (candidate.memberships.map SnapshotCapsuleMembership.capsuleId = snapshot.capsuleIds)
    .membershipOrder
  require (∀ membership ∈ candidate.memberships,
    membership.capsule.sessionKey = snapshot.sessionKey) .membershipSession
  let view : RequestView :=
    { sessionKey := snapshot.sessionKey
      snapshot := some snapshot
      memberships := candidate.memberships
      pointerVersion := 0
      coveredEventEnd := snapshot.coveredEventEnd
      highWaterMark := snapshot.sourceHighWaterMark
      delta := sourceEvents candidate }
  let blocks ← orRaised (selectCandidates view "" {})
  let filtered := blocks.filter fun block =>
    block.kind ≠ .episodeBackground ∧ block.kind ≠ .globalBackground
  if requiredCandidatesComplete view filtered [] then pure filtered
  else pure (filtered.map CandidateBlock.markIncomplete)

end Blocks

/-! ## Probes -/

/-- `_activation`. -/
def probeActivation (graph : ContextGraph) (probeId : String) (probeKinds : List CandidateKind)
    (provenance : List String) (retainAll : Bool) : Except VerificationFailure QueryActivation :=
  orRaised (queryActivation
    { queryId := "candidate-probe:" ++ probeId
      scores := graph.coordinates.map fun coordinate =>
        (coordinate.coordinateId, if coordinate.candidate.kind ∈ probeKinds then 4 else 0)
      retainedCoordinateIds :=
        if retainAll then graph.coordinateIds
        else (graph.coordinates.filter fun coordinate =>
          coordinate.candidate.required ||
            decide (coordinate.candidate.kind ∈ probeKinds)).map GraphCoordinate.coordinateId
      provenanceEventIds := provenance })

/-- `_result_verified`. -/
def resultVerified (result : EngineResult) (requiredIds provenance : List String) : Bool :=
  match result.certificate with
  | none => false
  | some certificate =>
      decide (result.outcome = .active) && certificate.passed && certificate.requiredBlocksPassed &&
        certificate.provenancePassed &&
        requiredIds.all (· ∈ result.selectedBlocks.map fun block => block.blockId) &&
        result.selectedBlocks.all fun block => block.sourceEventIds.all (· ∈ provenance)

/-- `dict(scores)[key]`: of several values the last one stays. -/
def scoreAt (scores : List (String × Rat)) (key : String) : Option Rat :=
  scores.reverse.lookup key

/-- `_probe_equivalent`. -/
def probeEquivalent (reduced full : EngineResult) (tolerance : Rat) : Bool :=
  decide ((reduced.selectedBlocks.map fun block => block.blockId) =
      full.selectedBlocks.map fun block => block.blockId) &&
    (full.activationScores.all fun entry =>
      decide (entry.1 ∈ reduced.activationScores.map Prod.fst)) &&
    reduced.activationScores.all fun entry =>
      match scoreAt reduced.activationScores entry.1, scoreAt full.activationScores entry.1 with
      | some reducedScore, some fullScore => decide (|reducedScore - fullScore| ≤ tolerance)
      | _, _ => false

/-- One iteration of the loop over the probes. -/
def verifyProbe (engine : VerificationEngine) (config : SparseEngineConfig)
    (blocks : List CandidateBlock) (graph : ContextGraph) (requiredIds provenance : List String)
    (probe : String × List CandidateKind) : Except VerificationFailure Unit := do
  let reducedActivation ← probeActivation graph probe.1 probe.2 provenance false
  let fullActivation ← orRaised (queryActivation
    { reducedActivation with retainedCoordinateIds := graph.coordinateIds })
  let reduced ← orMissing (engine graph reducedActivation .active) .engineRaised
  let full ← orMissing (engine graph fullActivation .active) .engineRaised
  require (resultVerified reduced requiredIds provenance ∧
    resultVerified full requiredIds provenance) .numericalVerification
  require (probeEquivalent reduced full
    (max config.directBackwardErrorLimit config.iterativeBackwardErrorLimit)) .probeEquivalence
  let closure ← orRaised (closeDependencyClosure reduced.selectedBlocks blocks config.maxCoordinates)
  require (validateDependencyClosure closure blocks config.maxCoordinates ∧
    ∀ block ∈ closure, ∀ eventId ∈ block.sourceEventIds, eventId ∈ provenance) .dependencyClosure

/-! ## Verification -/

section Verification

variable [UnicodeTables] [JsonReader]

/-- `_verify_candidate`. -/
def verifyCandidateWith (engine : VerificationEngine) (config : SparseEngineConfig)
    (candidate : AuditedCandidate) : Except VerificationFailure CandidateVerificationReport := do
  let blocks ← buildCandidateBlocks candidate
  require (blocks ≠ [] ∧ blocks.length ≤ config.maxCoordinates) .blockCapacity
  require (∀ block ∈ blocks, block.requiredSelectionComplete = true) .selectionIncomplete
  require (membershipProvenanceValid candidate) .membershipProvenance
  require (∀ block ∈ blocks, ∀ eventId ∈ block.sourceEventIds, eventId ∈ knownProvenance candidate)
    .blockProvenance
  let provenance := uniqueValues (blocks.flatMap fun block => block.sourceEventIds)
  let view : RequestView :=
    { sessionKey := candidate.snapshot.sessionKey
      snapshot := some candidate.snapshot
      memberships := candidate.memberships
      pointerVersion := 0
      coveredEventEnd := candidate.snapshot.coveredEventEnd
      highWaterMark := candidate.snapshot.sourceHighWaterMark
      delta := [] }
  let built ← orRaised (buildContextGraph view blocks "" config.toContextGraphConfig)
  let requiredIds := (blocks.filter fun block => block.required).map fun block => block.blockId
  forEach (fun _ probe => verifyProbe engine config blocks built.graph requiredIds provenance probe)
    () candidateProbes
  pure
    { passed := true
      candidateCount := blocks.length
      relationCount := built.graph.relations.length
      constraintCount := built.graph.constraints.length
      probeCount := candidateProbes.length
      probeIds := candidateProbes.map Prod.fst }

/-- `verify_candidate`; `none` is `CANDIDATE_GRAPH_VERIFICATION_FAILED`, whatever was raised. -/
def verifyCandidate (engine : VerificationEngine) (config : SparseEngineConfig)
    (candidate : AuditedCandidate) : Option CandidateVerificationReport :=
  (verifyCandidateWith engine config candidate).toOption

end Verification

end AstrContinuum
