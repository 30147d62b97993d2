import AstrContinuum.Compaction.Segmenter
import AstrContinuum.Runtime.Retrieval
import AstrContinuum.Tokenization.Request

/-!
# Fitting segments to the provider

`compaction/astrbot_backend.py`, the preflight of a compilation: a segment whose serialized prompt is
larger than the context of the provider is split between durable units. The prompts are counted by the
`RequestScopedTokenCounter` of the preflight, which asks the counter of the host once for each text.
-/

namespace AstrContinuum

open Checked Effects

/-- What fitting raises: a `CompilerBackendDeferred`, or what counting a text raises. -/
inductive FitFailure
  | deferred (code : String)
  | counting (failure : RuntimeFailure)
deriving DecidableEq

/-! ## Prompts -/

/-- `_SYSTEM_PROMPT`. -/
def systemPrompt : String :=
  "You extract source-verifiable state from a conversation segment.\n" ++
    "Do not summarize or paraphrase. Every quote, rationale, alternative, rejection reason,\n" ++
    "entity name, alias, and anchor must be copied verbatim from the declared event.\n" ++
    "Every non-empty event must contribute at least one selected quote.\n" ++
    "Return exactly one JSON object matching the requested closed shape. Do not add prose,\n" ++
    "Markdown, a summary field, or keys that are not in the shape."

/-- `_OUTPUT_SHAPE`, as JSON text. -/
def outputShape : String :=
  writeMembers [
    ("acknowledged_event_ids", jsonArray [jsonString "event-id"]),
    ("goals", jsonArray [writeMembers [
      ("event_id", jsonString "event-id"), ("quote", jsonString "exact quote"),
      ("confidence", "1.0")]]),
    ("constraints", jsonArray []),
    ("decisions", jsonArray [writeMembers [
      ("event_id", jsonString "event-id"), ("quote", jsonString "exact quote"),
      ("confidence", "1.0"), ("rationale", jsonString ""), ("alternatives", jsonArray []),
      ("rejected_because", jsonString "")]]),
    ("progress", jsonArray []),
    ("open_loops", jsonArray []),
    ("preferences", jsonArray []),
    ("entities", jsonArray [writeMembers [
      ("event_id", jsonString "event-id"), ("quote", jsonString "exact canonical name"),
      ("kind", jsonString "person|project|file|other"), ("aliases", jsonArray [])]]),
    ("emotional_context", jsonArray []),
    ("anchors", jsonArray [writeMembers [
      ("event_id", jsonString "event-id"), ("quote", jsonString "exact quote"),
      ("anchor_type", jsonString "name"), ("importance", "1.0")]])]

/-- An event of a prompt, as JSON text. -/
def promptEvent (event : EventEnvelope) : String :=
  writeMembers [
    ("event_id", jsonString event.eventId),
    ("sequence", toString event.sequence),
    ("event_type", jsonString event.eventType.value),
    ("role", jsonString event.role.value),
    ("content", jsonString event.content)]

/-- The payload of `_segment_prompt`. -/
def eventsPrompt (events : List EventEnvelope) : String :=
  writeMembers [
    ("required_output_shape", outputShape),
    ("events", jsonArray (events.map promptEvent))]

/-- `_segment_prompt`. -/
def segmentPrompt (segment : EventSegment) : String :=
  eventsPrompt segment.events

/-- `_fitted_segment`. -/
def fittedSegment (events : List EventEnvelope) (canonicalCounts : EventTokenCounts)
    (boundaryReason : SegmentBoundaryReason) : EventSegment where
  startSequence := (events.head?.map fun event => event.sequence).getD 0
  endSequence := (events.getLast?.map fun event => event.sequence).getD 0
  events := events
  tokenCost := (events.map fun event => canonicalCounts.count event.eventId).sum
  boundaryReason := boundaryReason

/-! ## Counting -/

/-- The host's counter and the text cache of the `RequestScopedTokenCounter`. -/
structure FitState (σ : Type) where
  host : σ
  texts : List (CacheKey × Nat) := []

section Counting

variable {σ : Type} [Hashlib] (counter : TokenCounter σ) (profileId : String)

/-- `RequestScopedTokenCounter.count_text`. -/
def countPromptText (text : String) : EStateM FitFailure (FitState σ) Nat := fun s =>
  let key := (Hashlib.sha256Hexdigest text, profileId)
  match s.texts.lookup key with
  | some cached => .ok cached s
  | none =>
      let attempt := counter.countText text s.host
      match countUncached attempt.1 with
      | .ok value => .ok value ⟨attempt.2, (key, value) :: s.texts⟩
      | .error failure => .error (.counting failure) { s with host := attempt.2 }

/-- `_serialized_cost`. -/
def serializedCost (segment : EventSegment) : EStateM FitFailure (FitState σ) Nat := do
  let system ← countPromptText counter profileId systemPrompt
  let prompt ← countPromptText counter profileId (segmentPrompt segment)
  pure (system + prompt)

end Counting

/-! ## Boundaries -/

section Fitting

variable [UnicodeTables] [JsonReader]

/-- `_event_groups`. -/
def eventGroups (events : List EventEnvelope) : Except FitFailure (List (List EventEnvelope)) :=
  orMissing (durableEventUnits events) (.deferred "TOOL_LOOP_INVALID")

/-- The `while` loop of `_normalize_atomic_segments`: the boundaries up to a sequence are crossed, and the
last of them gives the reason. -/
def crossBoundaries (sequence : Nat) (crossedReason : Option SegmentBoundaryReason) :
    List (Nat × SegmentBoundaryReason) →
      Option SegmentBoundaryReason × List (Nat × SegmentBoundaryReason)
  | [] => (crossedReason, [])
  | boundary :: rest =>
      if boundary.1 ≤ sequence then crossBoundaries sequence (some boundary.2) rest
      else (crossedReason, boundary :: rest)

/-- The loop of `_normalize_atomic_segments` over the remaining groups. -/
def replayBoundaries (canonicalCounts : EventTokenCounts) :
    List (List EventEnvelope) → List EventEnvelope → List (Nat × SegmentBoundaryReason) →
      List EventSegment
  | [], current, _ =>
      if current = [] then [] else [fittedSegment current canonicalCounts .endOfInput]
  | group :: rest, current, boundaries =>
      let current := current ++ group
      let crossed := crossBoundaries
        ((group.getLast?.map fun event => event.sequence).getD 0) none boundaries
      match crossed.1 with
      | some reason =>
          fittedSegment current canonicalCounts reason ::
            replayBoundaries canonicalCounts rest [] crossed.2
      | none => replayBoundaries canonicalCounts rest current crossed.2

/-- `_normalize_atomic_segments`. -/
def normalizeAtomicSegments (segments : List EventSegment) (sourceEvents : List EventEnvelope)
    (canonicalCounts : EventTokenCounts) : Except FitFailure (List EventSegment) := do
  let groups ← eventGroups sourceEvents
  pure (replayBoundaries canonicalCounts groups []
    (segments.map fun segment => (segment.endSequence, segment.boundaryReason)))

/-! ## Splitting -/

/-- The variables of the loop of `_split_segment`. -/
structure SplitScan where
  split : List EventSegment := []
  current : List EventEnvelope := []

/-- The open part joins the split ones. -/
def SplitScan.close (scan : SplitScan) (canonicalCounts : EventTokenCounts)
    (boundaryReason : SegmentBoundaryReason) : List EventSegment :=
  if scan.current = [] then scan.split
  else scan.split ++ [fittedSegment scan.current canonicalCounts boundaryReason]

variable {σ : Type} [Hashlib] (counter : TokenCounter σ) (profileId : String)

/-- An iteration of the loop of `_split_segment`. -/
def SplitScan.step (segment : EventSegment) (canonicalCounts : EventTokenCounts) (inputLimit : Int)
    (scan : SplitScan) (group : List EventEnvelope) : EStateM FitFailure (FitState σ) SplitScan := do
  let proposedEvents := scan.current ++ group
  let proposed := fittedSegment proposedEvents canonicalCounts .maxTokens
  let proposedCost ← serializedCost counter profileId proposed
  if (proposedCost : Int) ≤ inputLimit then pure { scan with current := proposedEvents }
  else do
    let single := fittedSegment group canonicalCounts segment.boundaryReason
    let singleCost ← serializedCost counter profileId single
    if inputLimit < (singleCost : Int) then throw (.deferred "COMPACTION_INPUT_TOO_LARGE")
    else pure ⟨scan.close canonicalCounts .maxTokens, group⟩

/-- `_split_segment`. -/
def splitSegment (segment : EventSegment) (canonicalCounts : EventTokenCounts) (inputLimit : Int) :
    EStateM FitFailure (FitState σ) (List EventSegment) := do
  let groups ← perform (eventGroups segment.events)
  let scan ← groups.foldlM
    (SplitScan.step counter profileId segment canonicalCounts inputLimit) {}
  pure (scan.close canonicalCounts segment.boundaryReason)

/-- An iteration of the loop of `_fit_segments`. -/
def fitSegment (canonicalCounts : EventTokenCounts) (inputLimit : Int)
    (fitted : List EventSegment) (segment : EventSegment) :
    EStateM FitFailure (FitState σ) (List EventSegment) := do
  let cost ← serializedCost counter profileId segment
  if (cost : Int) ≤ inputLimit then pure (fitted ++ [segment])
  else do
    let split ← splitSegment counter profileId segment canonicalCounts inputLimit
    pure (fitted ++ split)

/-- `_fit_segments`. -/
def fitSegments (segments : List EventSegment) (sourceEvents : List EventEnvelope)
    (canonicalCounts : EventTokenCounts) (inputLimit : Int) :
    EStateM FitFailure (FitState σ) (List EventSegment) :=
  if ¬ canonicalCounts.Covers sourceEvents then throw (.deferred "TOKEN_METRIC_MISSING")
  else do
    let atomicSegments ← perform
      (normalizeAtomicSegments segments sourceEvents canonicalCounts)
    atomicSegments.foldlM (fitSegment counter profileId canonicalCounts inputLimit) []

end Fitting

end AstrContinuum
