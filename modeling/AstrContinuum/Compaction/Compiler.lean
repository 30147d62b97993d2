import AstrContinuum.Compaction.Segmenter
import AstrContinuum.Domain.Validation
import AstrContinuum.Storage.Rows

/-!
# The candidate compiler

`compaction/compiler.py`. `compileCandidate` hands a claimed delta to a backend and turns what comes
back into a candidate snapshot with its memberships, which it puts before the permanent gate. The
backend and the token counter are arbitrary functions. `compileCandidate_ok` says what every
accepted candidate satisfies.
-/

namespace AstrContinuum

open Checked

/-- `CompilerErrorCode`. -/
inductive CompilerErrorCode
  | baseInvalid
  | baseCapsuleMismatch
  | sourceEventsEmpty
  | sourceEventsInvalid
  | sourceSessionMismatch
  | sourceCoverageMismatch
  | targetInvalid
  | tokenCeilingInvalid
  | nowInvalid
  | segmenterConfigInvalid
  | backendFailure
  | backendOutputInvalid
  | backendOutputEmpty
  | tokenCounterFailure
  | tokenCounterInvalid
  | permanentValidatorFailure
  | permanentValidationFailed
deriving DecidableEq

/-- What `compile_candidate` raises: a `CompilerInvariantError`, a `CompilerBackendDeferred` of the
backend, or a `ValueError` of the segmenter or of the request. -/
inductive CompilerFailure
  | invariantError (code : CompilerErrorCode) (report : Option PermanentValidationReport := none)
  | backendDeferred (code : String)
  | valueError (message : String)
deriving DecidableEq

/-- `CompactionFitProvenance`, for the records that pass its own checks. -/
structure CompactionFitProvenance where
  tokenizerProfileId : String
  tokenizerMode : String
  fallbackCode : String
  primaryResultDiscarded : Bool
deriving DecidableEq

/-- `CompilationRequest`. The provider binding, which only a backend reads, is part of the backend
here. -/
structure CompilationRequest where
  baseSnapshot : Option SnapshotEnvelope
  baseCapsules : List ContextCapsuleEnvelope
  sourceEvents : List EventEnvelope
  segments : List EventSegment
  targetHighWaterMark : Nat
  tokenCeiling : Int
  canonicalEventTokenCounts : EventTokenCounts

/-- `CompilerOutput`. -/
structure CompilerOutput where
  capsules : List ContextCapsuleEnvelope
  renderedContext : String
  fittedSegments : Option (List EventSegment) := none
  fitProvenance : Option CompactionFitProvenance := none

/-- What a call of a backend comes to: an output, a deferral, or any other exception. -/
inductive BackendResult
  | output (value : CompilerOutput)
  | deferred (code : String)
  | raised

/-- `CompilerBackend`. -/
abbrev CompilerBackend := CompilationRequest → BackendResult

/-- `TokenCounter.count_text`: a count, or an exception. -/
abbrev PlainCounter := String → Option Int

/-- `CompilationCandidate`. -/
structure CompilationCandidate where
  snapshot : SnapshotEnvelope
  memberships : List SnapshotCapsuleMembership
  segments : List EventSegment
  permanentReport : PermanentValidationReport
  fitProvenance : Option CompactionFitProvenance
deriving DecidableEq

/-- The arguments of `compile_candidate`, apart from the backend and the counter. -/
structure CompilationInput where
  baseSnapshot : Option SnapshotEnvelope
  baseCapsules : List ContextCapsuleEnvelope
  sourceEvents : List EventEnvelope
  eventTokenCounts : EventTokenCounts
  targetHighWaterMark : Nat
  tokenCeiling : Int
  now : Timestamp
  segmenterConfig : SegmenterConfig
  preferredEndSequences : List Nat := []

/-! ## Inputs and outputs of the backend -/

/-- `_active_anchor_ids`. -/
def activeAnchorIds (capsules : List ContextCapsuleEnvelope) : List String :=
  (activeAnchors capsules).map fun anchor => anchor.anchorId

/-- The checks of the base: its coverage and its session, which is that of the first event when
there is no base. -/
def validateBase (input : CompilationInput) (first : EventEnvelope) :
    Except CompilerFailure (Nat × SessionKey) :=
  match input.baseSnapshot with
  | none => do
      require (input.baseCapsules = []) (.invariantError .baseCapsuleMismatch)
      pure (0, first.sessionKey)
  | some base => do
      require (base.state = .committed ∧ base.coveredEventEnd = base.sourceHighWaterMark)
        (.invariantError .baseInvalid)
      require (base.capsuleIds = input.baseCapsules.map (fun item => item.capsuleId) ∧
          base.exactAnchorIds = activeAnchorIds input.baseCapsules ∧
          ∀ item ∈ input.baseCapsules, item.sessionKey = base.sessionKey)
        (.invariantError .baseCapsuleMismatch)
      pure (base.coveredEventEnd, base.sessionKey)

/-- `_validate_inputs`. The checks of Python types hold by the types here. -/
def validateInputs (input : CompilationInput) : Except CompilerFailure SessionKey := do
  require (1 ≤ input.targetHighWaterMark) (.invariantError .targetInvalid)
  require (0 ≤ input.tokenCeiling) (.invariantError .tokenCeilingInvalid)
  let first ← orMissing input.sourceEvents.head? (.invariantError .sourceEventsEmpty)
  let (baseCoverage, sessionKey) ← validateBase input first
  require (∀ item ∈ input.sourceEvents, item.sessionKey = sessionKey)
    (.invariantError .sourceSessionMismatch)
  require (baseCoverage < input.targetHighWaterMark ∧
      input.sourceEvents.length = input.targetHighWaterMark - baseCoverage ∧
      input.sourceEvents.map (fun item => item.sequence) =
        List.range' (baseCoverage + 1) input.sourceEvents.length ∧
      (input.sourceEvents.map fun item => item.eventId).Nodup)
    (.invariantError .sourceCoverageMismatch)
  pure sessionKey

/-- `CompilationRequest.__post_init__`. -/
def CompilationRequest.validate (request : CompilationRequest) : Except CompilerFailure Unit :=
  require (∀ entry ∈ request.canonicalEventTokenCounts, entry.1 ≠ "" ∧ 0 ≤ entry.2)
    (.valueError "canonical_event_token_counts must contain non-negative integers")

/-- `await backend.compile(request)`, with every other exception mapped to `BACKEND_FAILURE`. -/
def runBackend (backend : CompilerBackend) (request : CompilationRequest) :
    Except CompilerFailure CompilerOutput :=
  match backend request with
  | .output value => .ok value
  | .deferred code => .error (.backendDeferred code)
  | .raised => .error (.invariantError .backendFailure)

/-- `_validate_backend_output`: the fitted segments. -/
def validateBackendOutput (output : CompilerOutput) (sourceEvents : List EventEnvelope)
    (originalSegments : List EventSegment) : Except CompilerFailure (List EventSegment) := do
  require (output.capsules ≠ [] ∧ output.renderedContext ≠ "")
    (.invariantError .backendOutputEmpty)
  let fittedSegments := output.fittedSegments.getD originalSegments
  require (fittedSegments ≠ [] ∧ fittedSegments.flatMap EventSegment.events = sourceEvents)
    (.invariantError .backendOutputInvalid)
  pure fittedSegments

/-- `count_text` of the rendered context, as the token cost of the candidate. -/
def countRendered (counter : PlainCounter) (text : String) : Except CompilerFailure Nat := do
  let tokenCost ← orMissing (counter text) (.invariantError .tokenCounterFailure)
  require (0 ≤ tokenCost) (.invariantError .tokenCounterInvalid)
  pure tokenCost.toNat

/-! ## The candidate -/

/-- `item.model_dump(mode="json")` of a capsule, written with sorted keys and compact separators.
No result depends on which function this is. -/
class CapsuleDump where
  dump : ContextCapsuleEnvelope → String

/-- The keys and values of `identity_payload`, in the order of the sorted keys. -/
def identityPayload [CapsuleDump] (sessionKey : SessionKey) (baseSnapshotId : Option String)
    (targetHighWaterMark : Nat) (capsules : List ContextCapsuleEnvelope)
    (activeAnchorIds : List String) (renderedContext : String) (tokenCost : Nat) :
    List (String × String) :=
  [("active_anchor_ids", jsonArray (activeAnchorIds.map jsonString)),
    ("base_snapshot_id", jsonOptionalString baseSnapshotId),
    ("capsules", jsonArray (capsules.map CapsuleDump.dump)),
    ("rendered_context", jsonString renderedContext),
    ("schema", jsonString "astrcontinuum.compilation-candidate.v1"),
    ("session_key", jsonString sessionKey.canonicalJson),
    ("target_high_water_mark", toString targetHighWaterMark),
    ("token_cost", toString tokenCost)]

/-- `_build_snapshot_id`. -/
def buildSnapshotId [Hashlib] [CapsuleDump] (sessionKey : SessionKey)
    (baseSnapshotId : Option String) (targetHighWaterMark : Nat)
    (capsules : List ContextCapsuleEnvelope) (activeAnchorIds : List String)
    (renderedContext : String) (tokenCost : Nat) : String :=
  let payload := identityPayload sessionKey baseSnapshotId targetHighWaterMark capsules
    activeAnchorIds renderedContext tokenCost
  Hashlib.sha256Hexdigest ("\x7b" ++ ",".intercalate (payload.map fun member =>
    jsonString member.1 ++ ":" ++ member.2) ++ "\x7d")

/-- `enumerate(candidate_capsules)` in the slot `memory`. -/
def candidateMemberships (capsules : List ContextCapsuleEnvelope) :
    List SnapshotCapsuleMembership :=
  capsules.zipIdx.map fun entry => ⟨entry.2, "memory", entry.1⟩

/-- `candidate_snapshot`, before its validation. -/
def candidateData [Hashlib] [CapsuleDump] (input : CompilationInput) (sessionKey : SessionKey)
    (output : CompilerOutput) (tokenCost : Nat) : SnapshotData where
  snapshotId := buildSnapshotId sessionKey
    (input.baseSnapshot.map fun base => base.snapshotId) input.targetHighWaterMark
    output.capsules (activeAnchorIds output.capsules) output.renderedContext tokenCost
  sessionKey := sessionKey
  baseSnapshotId := input.baseSnapshot.map fun base => base.snapshotId
  coveredEventEnd := input.targetHighWaterMark
  sourceHighWaterMark := input.targetHighWaterMark
  capsuleIds := output.capsules.map fun item => item.capsuleId
  exactAnchorIds := activeAnchorIds output.capsules
  renderedContext := output.renderedContext
  tokenCost := tokenCost
  auditOutcome := ⟨true, .notRun, [], SnapshotAuditOutcome.noFailure⟩
  state := .candidate
  createdAt := input.now
  committedAt := none

/-- The arguments that `validate_candidate` hands to the gate. -/
def CompilationInput.permanentInput (input : CompilationInput) (snapshot : SnapshotEnvelope)
    (capsules : List ContextCapsuleEnvelope) : PermanentInput where
  previousSnapshot := input.baseSnapshot
  previousCapsules := input.baseCapsules
  candidateSnapshot := snapshot
  candidateCapsules := capsules
  sourceEvents := input.sourceEvents
  targetHighWaterMark := input.targetHighWaterMark
  tokenCeiling := input.tokenCeiling

section Compile

variable [UnicodeTables] [JsonReader] [Hashlib] [CapsuleDump]

/-- `compile_candidate`. -/
def compileCandidate (backend : CompilerBackend) (counter : PlainCounter)
    (input : CompilationInput) : Except CompilerFailure CompilationCandidate := do
  let sessionKey ← validateInputs input
  let segments ← (segment input.sourceEvents input.eventTokenCounts input.segmenterConfig
    input.preferredEndSequences).mapError .valueError
  let request : CompilationRequest :=
    { baseSnapshot := input.baseSnapshot
      baseCapsules := input.baseCapsules
      sourceEvents := input.sourceEvents
      segments := segments
      targetHighWaterMark := input.targetHighWaterMark
      tokenCeiling := input.tokenCeiling
      canonicalEventTokenCounts := input.eventTokenCounts }
  request.validate
  let output ← runBackend backend request
  let fittedSegments ← validateBackendOutput output input.sourceEvents segments
  let tokenCost ← countRendered counter output.renderedContext
  let snapshot ← (SnapshotEnvelope.modelValidate (candidateData input sessionKey output tokenCost)
    .validationError).mapError fun _ => .invariantError .backendOutputInvalid
  let report := validatePermanent (input.permanentInput snapshot output.capsules)
  require (report.passed = true) (.invariantError .permanentValidationFailed (some report))
  pure ⟨snapshot, candidateMemberships output.capsules, fittedSegments, report,
    output.fitProvenance⟩

omit [UnicodeTables] [JsonReader] [Hashlib] [CapsuleDump] in
/-- The memberships of a candidate list its capsules in order. -/
@[simp] theorem capsules_candidateMemberships (capsules : List ContextCapsuleEnvelope) :
    (candidateMemberships capsules).map SnapshotCapsuleMembership.capsule = capsules := by
  simp only [candidateMemberships, List.map_map]
  exact List.zipIdx_map_fst 0 capsules

omit [UnicodeTables] [JsonReader] [Hashlib] [CapsuleDump] in
/-- The memberships of a candidate are numbered from zero. -/
@[simp] theorem ordinals_candidateMemberships (capsules : List ContextCapsuleEnvelope) :
    (candidateMemberships capsules).map SnapshotCapsuleMembership.ordinal =
      List.range capsules.length := by
  simp only [candidateMemberships, List.map_map]
  exact (List.zipIdx_map_snd 0 capsules).trans List.range_eq_range'.symm

omit [UnicodeTables] [JsonReader] [Hashlib] [CapsuleDump] in
/-- The memberships of a candidate carry the ids of its capsules. -/
theorem capsuleIds_candidateMemberships (capsules : List ContextCapsuleEnvelope) :
    (candidateMemberships capsules).map SnapshotCapsuleMembership.capsuleId =
      capsules.map fun item => item.capsuleId := by
  have hcapsules := congrArg (List.map fun item => item.capsuleId)
    (capsules_candidateMemberships capsules)
  rw [List.map_map] at hcapsules
  exact hcapsules

/-- An accepted candidate: the compiler numbered the capsules of the backend and described them in a
fresh `CANDIDATE` snapshot, and the pair passed the gate over the base and the delta. -/
structure Compiled (input : CompilationInput) (candidate : CompilationCandidate) : Prop where
  ceiling : 0 ≤ input.tokenCeiling
  events : input.sourceEvents ≠ []
  nonempty : candidate.memberships ≠ []
  numbered : candidate.memberships =
    candidateMemberships (candidate.memberships.map SnapshotCapsuleMembership.capsule)
  capsuleIds : candidate.snapshot.capsuleIds =
    candidate.memberships.map SnapshotCapsuleMembership.capsuleId
  state : candidate.snapshot.state = .candidate
  audit : candidate.snapshot.auditOutcome = ⟨true, .notRun, [], SnapshotAuditOutcome.noFailure⟩
  gate : (validatePermanent (input.permanentInput candidate.snapshot
    (candidate.memberships.map SnapshotCapsuleMembership.capsule))).passed = true

/-- Every candidate that `compile_candidate` returns is accepted in this sense. -/
theorem compileCandidate_ok {backend : CompilerBackend} {counter : PlainCounter}
    {input : CompilationInput} {candidate : CompilationCandidate}
    (h : compileCandidate backend counter input = .ok candidate) : Compiled input candidate := by
  obtain ⟨sessionKey, hinputs, h⟩ := bind_ok.mp h
  obtain ⟨segments, -, h⟩ := bind_ok.mp h
  obtain ⟨_, -, h⟩ := bind_ok.mp h
  obtain ⟨output, -, h⟩ := bind_ok.mp h
  obtain ⟨fitted, hfitted, h⟩ := bind_ok.mp h
  obtain ⟨tokenCost, -, h⟩ := bind_ok.mp h
  obtain ⟨snapshot, hsnapshot, h⟩ := bind_ok.mp h
  obtain ⟨_, hpassed, h⟩ := bind_ok.mp h
  obtain rfl := pure_ok.mp h
  obtain ⟨_, -, hinputs⟩ := bind_ok.mp hinputs
  obtain ⟨_, hceiling, hinputs⟩ := bind_ok.mp hinputs
  obtain ⟨first, hfirst, -⟩ := bind_ok.mp hinputs
  obtain ⟨_, houtput, -⟩ := bind_ok.mp hfitted
  have hdata := SnapshotEnvelope.modelValidate_ok (mapError_ok.mp hsnapshot)
  refine ⟨require_ok.mp hceiling, ?_, ?_, ?_, ?_, ?_, ?_, ?_⟩
  · intro hnil
    simp [hnil] at hfirst
  · intro hnil
    have hcapsules := congrArg (List.map SnapshotCapsuleMembership.capsule) hnil
    exact (require_ok.mp houtput).1 (by simpa using hcapsules)
  · simp
  · rw [hdata, capsuleIds_candidateMemberships]
    rfl
  · rw [hdata]
    rfl
  · rw [hdata]
    rfl
  · simpa using require_ok.mp hpassed

end Compile

end AstrContinuum
