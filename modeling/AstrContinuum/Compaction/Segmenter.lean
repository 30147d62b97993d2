import AstrContinuum.Control.Checked
import AstrContinuum.Runtime.ToolLoop

/-!
# Segments

`compaction/segmenter.py`: the journal delta is cut into segments, in order and without splitting a
durable unit, by the bounds of the configuration. The main result is `segment_flatten`: whatever
the bounds, the segments concatenate to the delta.
-/

namespace AstrContinuum

/-- `SegmentBoundaryReason`. -/
inductive SegmentBoundaryReason
  | preferred
  | maxEvents
  | maxTokens
  | oversizedEvent
  | endOfInput
deriving DecidableEq

/-- `SegmenterConfig`. -/
structure SegmenterConfig where
  maxEventsPerSegment : Nat := 16
  maxTokensPerSegment : Int := 4096
  maxPreferredBoundaries : Nat := 128
  valid : 0 < maxEventsPerSegment ∧ 0 < maxTokensPerSegment := by decide

/-- `EventSegment`. -/
structure EventSegment where
  startSequence : Nat
  endSequence : Nat
  events : List EventEnvelope
  tokenCost : Int
  boundaryReason : SegmentBoundaryReason
deriving DecidableEq

/-- A mapping from event ids to token counts. -/
abbrev EventTokenCounts := List (String × Int)

/-- `token_counts[event_id]`, for an id that the mapping has. -/
def EventTokenCounts.count (counts : EventTokenCounts) (eventId : String) : Int :=
  ((counts.find? fun entry => entry.1 = eventId).map Prod.snd).getD 0

/-- `set(token_counts) == {event.event_id for event in events}`. -/
def EventTokenCounts.Covers (counts : EventTokenCounts) (events : List EventEnvelope) : Prop :=
  (∀ entry ∈ counts, entry.1 ∈ events.map fun event => event.eventId) ∧
    ∀ event ∈ events, event.eventId ∈ counts.map Prod.fst

instance (counts : EventTokenCounts) (events : List EventEnvelope) :
    Decidable (counts.Covers events) :=
  inferInstanceAs (Decidable (_ ∧ _))

/-! ## The loop -/

/-- The variables of the loop of `segment`. -/
structure SegmentScan where
  segments : List EventSegment := []
  current : List EventEnvelope := []
  currentTokenCost : Int := 0

namespace SegmentScan

/-- `close_current`. -/
def closeCurrent (scan : SegmentScan) (reason : SegmentBoundaryReason) : SegmentScan where
  segments := scan.segments ++
    [{ startSequence := (scan.current.head?.map fun event => event.sequence).getD 0
       endSequence := (scan.current.getLast?.map fun event => event.sequence).getD 0
       events := scan.current
       tokenCost := scan.currentTokenCost
       boundaryReason := reason }]

/-- The sum of the token counts of a unit. -/
def unitTokenCount (counts : EventTokenCounts) (unit : List EventEnvelope) : Int :=
  (unit.map fun event => counts.count event.eventId).sum

/-- The first half of an iteration: a unit that does not fit closes the current segment. -/
def makeRoom (config : SegmenterConfig) (unit : List EventEnvelope) (tokenCount : Int)
    (scan : SegmentScan) : SegmentScan :=
  if scan.current ≠ [] ∧ config.maxEventsPerSegment < scan.current.length + unit.length then
    scan.closeCurrent .maxEvents
  else if scan.current ≠ [] ∧ config.maxTokensPerSegment < scan.currentTokenCost + tokenCount then
    scan.closeCurrent .maxTokens
  else scan

/-- The unit joins the current segment. -/
def extend (unit : List EventEnvelope) (tokenCount : Int) (scan : SegmentScan) : SegmentScan :=
  { scan with
    current := scan.current ++ unit
    currentTokenCost := scan.currentTokenCost + tokenCount }

/-- The second half of an iteration: a full segment, a preferred boundary or the end of the input
closes the current segment. -/
def closeFull (config : SegmenterConfig) (preferred : List Nat) (unit : List EventEnvelope)
    (tokenCount : Int) (isLast : Bool) (scan : SegmentScan) : SegmentScan :=
  if config.maxEventsPerSegment < unit.length ∨ config.maxTokensPerSegment < tokenCount then
    scan.closeCurrent .oversizedEvent
  else if isLast then scan.closeCurrent .endOfInput
  else if config.maxEventsPerSegment ≤ scan.current.length then scan.closeCurrent .maxEvents
  else if config.maxTokensPerSegment ≤ scan.currentTokenCost then scan.closeCurrent .maxTokens
  else if unit.any fun event => decide (event.sequence ∈ preferred) then
    scan.closeCurrent .preferred
  else scan

/-- The loop of `segment` over the remaining units. -/
def run (config : SegmenterConfig) (counts : EventTokenCounts) (preferred : List Nat) :
    SegmentScan → List (List EventEnvelope) → SegmentScan
  | scan, [] => scan
  | scan, unit :: rest =>
      let tokenCount := unitTokenCount counts unit
      let scan := (scan.makeRoom config unit tokenCount).extend unit tokenCount
      run config counts preferred (scan.closeFull config preferred unit tokenCount rest.isEmpty)
        rest

/-- The events that the scan has read. -/
def read (scan : SegmentScan) : List EventEnvelope :=
  scan.segments.flatMap EventSegment.events ++ scan.current

@[simp] theorem read_closeCurrent (scan : SegmentScan) (reason : SegmentBoundaryReason) :
    (scan.closeCurrent reason).read = scan.read := by
  simp [read, closeCurrent]

@[simp] theorem read_makeRoom (config : SegmenterConfig) (unit : List EventEnvelope)
    (tokenCount : Int) (scan : SegmentScan) :
    (scan.makeRoom config unit tokenCount).read = scan.read := by
  unfold makeRoom
  split_ifs <;> simp

@[simp] theorem read_extend (unit : List EventEnvelope) (tokenCount : Int) (scan : SegmentScan) :
    (scan.extend unit tokenCount).read = scan.read ++ unit := by
  simp [read, extend]

@[simp] theorem read_closeFull (config : SegmenterConfig) (preferred : List Nat)
    (unit : List EventEnvelope) (tokenCount : Int) (isLast : Bool) (scan : SegmentScan) :
    (scan.closeFull config preferred unit tokenCount isLast).read = scan.read := by
  unfold closeFull
  split_ifs <;> simp

/-- The last iteration leaves no open segment. -/
theorem current_closeFull_last (config : SegmenterConfig) (preferred : List Nat)
    (unit : List EventEnvelope) (tokenCount : Int) (scan : SegmentScan) :
    (scan.closeFull config preferred unit tokenCount true).current = [] := by
  unfold closeFull
  split_ifs <;> simp_all [closeCurrent]

/-- The loop reads every unit and closes the last segment. -/
theorem read_run (config : SegmenterConfig) (counts : EventTokenCounts) (preferred : List Nat)
    (units : List (List EventEnvelope)) (scan : SegmentScan)
    (hclosed : units = [] → scan.current = []) :
    (run config counts preferred scan units).segments.flatMap EventSegment.events =
      scan.read ++ units.flatten := by
  induction units generalizing scan with
  | nil =>
      simp [run, read, hclosed rfl]
  | cons unit rest ih =>
      unfold run
      rw [ih]
      · simp
      · intro hrest
        rw [hrest]
        exact current_closeFull_last ..

end SegmentScan

/-! ## `segment` -/

/-- `_validate_events`: the first event that is out of place decides the error. -/
def validateSegmentEvents (events : List EventEnvelope) : Except String Unit :=
  match events with
  | [] => .error "SEGMENTER_EMPTY_EVENTS"
  | first :: _ =>
      Checked.forEach (fun _ (entry : EventEnvelope × Nat) => do
          Checked.require (entry.1.sessionKey = first.sessionKey) "SEGMENTER_SESSION_MISMATCH"
          Checked.require (entry.1.sequence = first.sequence + entry.2)
            "SEGMENTER_NONCONTIGUOUS_EVENTS")
        () events.zipIdx

/-- `_normalize_preferred_boundaries`. -/
def normalizePreferredBoundaries (events : List EventEnvelope) (preferredEndSequences : List Nat)
    (limit : Nat) : List Nat :=
  let first := (events.head?.map fun event => event.sequence).getD 0
  let last := (events.getLast?.map fun event => event.sequence).getD 0
  (preferredEndSequences.take limit).filter fun sequence =>
    decide (first ≤ sequence) && decide (sequence < last)

variable [UnicodeTables] [JsonReader]

/-- `segment`. -/
def segment (events : List EventEnvelope) (tokenCounts : EventTokenCounts)
    (config : SegmenterConfig) (preferredEndSequences : List Nat := []) :
    Except String (List EventSegment) := do
  validateSegmentEvents events
  if ¬ tokenCounts.Covers events then .error "TOKEN_METRIC_MISSING"
  else
    let preferred := normalizePreferredBoundaries events preferredEndSequences
      config.maxPreferredBoundaries
    match durableEventUnits events with
    | none => .error "SEGMENTER_TOOL_LOOP_INVALID"
    | some units => .ok (SegmentScan.run config tokenCounts preferred {} units).segments

/-- The segments concatenate to the delta. -/
theorem segment_flatten {events : List EventEnvelope} {tokenCounts : EventTokenCounts}
    {config : SegmenterConfig} {preferredEndSequences : List Nat} {segments : List EventSegment}
    (h : segment events tokenCounts config preferredEndSequences = .ok segments) :
    segments.flatMap EventSegment.events = events := by
  obtain ⟨_, -, h⟩ := Checked.bind_ok.mp h
  split at h
  · cases h
  · cases hunits : durableEventUnits events with
    | none => simp [hunits] at h
    | some units =>
        obtain rfl : (SegmentScan.run config tokenCounts _ {} units).segments = segments := by
          simpa [hunits] using h
        rw [SegmentScan.read_run _ _ _ _ _ fun _ => rfl, durableEventUnits_flatten hunits]
        rfl

end AstrContinuum
