import AstrContinuum.Compaction.SegmentCuts

/-!
# Segments are made of whole units

The segments of a stable delta concatenate to it and are made of whole durable units. A segment is
within both limits unless it is one unit that exceeds a limit alone, and no cut for a limit is redundant.
An empty delta is stable, and the segmenter refuses it.
-/

namespace AstrContinuum

section Segments

variable [UnicodeTables] [JsonReader]

/-- Segmentation: a delta with events that is stable and counted is cut into segments that concatenate to
it, each of whole units and within the limits or one unit that exceeds them, and a segment that was
closed for a limit cannot take the next unit without reaching the limit. -/
theorem segment_respects_units {events : List EventEnvelope} {tokenCounts : EventTokenCounts}
    (hne : events ≠ []) (hstable : (evaluateToolLoop events).state = .stable)
    (hcovers : tokenCounts.Covers events) (hnonneg : ∀ entry ∈ tokenCounts, 0 ≤ entry.2)
    (config : SegmenterConfig) (preferredEndSequences : List Nat) :
    ∃ units segments, durableEventUnits events = some units ∧
      segment events tokenCounts config preferredEndSequences = .ok segments ∧
      segments.flatMap EventSegment.events = events ∧
      Segmentation config tokenCounts units segments := by
  obtain ⟨units, segments, hunits, hsegments, hcuts⟩ := segment_segmentation hne hstable hcovers
    (fun event _ => EventTokenCounts.count_nonneg hnonneg event.eventId) config
    preferredEndSequences
  exact ⟨units, segments, hunits, hsegments, segment_flatten hsegments, hcuts⟩

end Segments

namespace SegmentSample

/-- No text of the sample depends on the Unicode tables. -/
scoped instance : UnicodeTables := ⟨fun text => text, fun c => c.isAlphanum⟩

/-- What the call of the sample says. -/
def callText : String := "\x7b\"arguments\":null,\"kind\":\"call\",\"tool\":\"search\"\x7d"

/-- What its result says. -/
def resultText : String := "\x7b\"arguments\":null,\"kind\":\"result\",\"tool\":\"search\"\x7d"

/-- These two texts are read as JSON. -/
scoped instance : JsonReader :=
  ⟨fun text =>
    if text = callText then
      some (.object [("arguments", .null), ("kind", .string "call"), ("tool", .string "search")])
    else if text = resultText then
      some (.object [("arguments", .null), ("kind", .string "result"), ("tool", .string "search")])
    else none, fun _ => none⟩

/-- An event of the sample. -/
def event (eventId : String) (sequence : Nat) (eventType : EventType) (role : EventRole)
    (sourceHook : SourceHook) (content : String) : EventData where
  eventId := eventId
  sessionKey := ⟨"p", "m", "s", none, "u", "c", none, SessionKey.sample_nonEmpty⟩
  sequence := sequence
  eventType := eventType
  role := role
  content := content
  sourceHook := sourceHook
  idempotencyKey := eventId
  tokenCount := 3
  createdAt := 0

/-- A user message and the tool round that answers it. -/
def delta : List EventEnvelope :=
  [⟨event "e1" 1 .userMessage .user .onLlmRequest "hello", by decide⟩,
    ⟨event "e2" 2 .toolCall .tool .onUsingLlmTool callText, by decide⟩,
    ⟨event "e3" 3 .toolResult .tool .onLlmToolRespond resultText, by decide⟩,
    ⟨event "e4" 4 .assistantMessage .assistant .onAgentDone "found", by decide⟩]

/-- The counts of the events. -/
def counts : EventTokenCounts :=
  [("e1", 3), ("e2", 3), ("e3", 3), ("e4", 3)]

/-- Three events a segment. -/
def config : SegmenterConfig where
  maxEventsPerSegment := 3

end SegmentSample

open SegmentSample

/-- The message and the round are cut into two segments when one segment takes three events. -/
theorem segment_respects_units_sample :
    ∃ segments, durableEventUnits delta = some [delta.take 1, delta.drop 1] ∧
      segment delta counts SegmentSample.config [1] = .ok segments ∧
      segments.flatMap EventSegment.events = delta ∧
      Segmentation SegmentSample.config counts [delta.take 1, delta.drop 1] segments := by
  have hround : durableEventUnits delta = some [delta.take 1, delta.drop 1] := by decide +kernel
  have hstable : (evaluateToolLoop delta).state = .stable := by decide +kernel
  have hcovers : counts.Covers delta := by decide
  obtain ⟨units, segments, hunits, hsegments, hflatten, hsegmentation⟩ :=
    segment_respects_units (List.cons_ne_nil _ _) hstable hcovers (by decide) SegmentSample.config [1]
  obtain rfl := Option.some.inj (hround.symm.trans hunits)
  exact ⟨segments, hround, hsegments, hflatten, hsegmentation⟩

/-- No events are stable and counted, but they are refused. -/
theorem empty_delta_refused :
    ¬ ∀ (events : List EventEnvelope) (tokenCounts : EventTokenCounts) (config : SegmenterConfig)
      (preferredEndSequences : List Nat), (evaluateToolLoop events).state = .stable →
      tokenCounts.Covers events → (∀ entry ∈ tokenCounts, 0 ≤ entry.2) →
      ∃ segments, segment events tokenCounts config preferredEndSequences = .ok segments := by
  intro hclaim
  obtain ⟨segments, hsegments⟩ := hclaim [] [] {} [] rfl (by decide) (by decide)
  cases hsegments

end AstrContinuum
