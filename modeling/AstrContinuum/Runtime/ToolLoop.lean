import AstrContinuum.Domain.Json
import AstrContinuum.Domain.Envelopes

/-!
# The durable tool loop

`runtime/tool_loop.py`: the finite-state machine that reads a journal delta and cuts it into
indivisible units. An ordinary event is a unit of its own; a tool round runs from its first call to
the assistant event that closes it. The main results are `durableEventUnits_flatten`: the units
concatenate to the delta, and `durableEventUnits_user`: a user message is a unit alone.
-/

namespace AstrContinuum

variable [UnicodeTables] [JsonReader]

/-- `ToolLoopState`. -/
inductive ToolLoopState
  | stable
  | awaitingResults
  | awaitingAssistant
  | invalid
deriving DecidableEq

/-- `ToolFingerprint`. -/
structure ToolFingerprint where
  tool : String
  arguments : String
deriving DecidableEq

/-- `PendingTool`. -/
structure PendingTool where
  fingerprint : ToolFingerprint
  count : Nat
deriving DecidableEq

/-- `ToolLoopAssessment`. -/
structure ToolLoopAssessment where
  state : ToolLoopState
  pending : List PendingTool := []
deriving DecidableEq

/-! ## Fingerprints -/

/-- `key.casefold().lstrip("$").replace("-", "_")` is one of the truncation markers. -/
def isLossyKey (key : String) : Bool :=
  let bare := (UnicodeTables.casefold key).toList.dropWhile (· == '$')
  let normalized := String.ofList (bare.map fun c => if c == '-' then '_' else c)
  normalized == "truncated" || normalized == "truncated_items"

mutual

/-- `_contains_lossy_marker`. -/
def containsLossyMarker : JsonValue → Bool
  | .array items => itemsContainLossyMarker items
  | .object members => membersContainLossyMarker members
  | _ => false

/-- Some item of an array has a truncation marker. -/
def itemsContainLossyMarker : List JsonValue → Bool
  | [] => false
  | item :: rest => containsLossyMarker item || itemsContainLossyMarker rest

/-- Some member of an object is a truncation marker or contains one. -/
def membersContainLossyMarker : List (String × JsonValue) → Bool
  | [] => false
  | member :: rest =>
      isLossyKey member.1 || containsLossyMarker member.2 || membersContainLossyMarker rest

end

/-- The `kind` field that the metadata of a tool event must have. -/
def expectedKind (eventType : EventType) : String :=
  if eventType = .toolCall then "call" else "result"

/-- A member of an object that is a string. -/
def lookupString (members : List (String × JsonValue)) (key : String) : Option String :=
  match lookupMember members key with
  | some (.string value) => some value
  | _ => none

/-- `_tool_fingerprint`. -/
def toolFingerprint (event : EventEnvelope) : Option ToolFingerprint :=
  match strictLoads event.content with
  | some (.object members) =>
      if lookupString members "kind" ≠ some (expectedKind event.eventType) ∨
          containsLossyMarker (.object members) = true then
        none
      else do
        let arguments ← lookupMember members "arguments"
        let tool ← lookupString members "tool"
        if stripNonEmpty tool then
          let text ← canonicalJson arguments
          pure ⟨tool, text⟩
        else none
  | _ => none

/-! ## The machine -/

/-- The state of `_parse_events` between two events. `pending` is the multiset of open calls, and
`openUnit` holds the events from `start_index` on. -/
structure ToolLoopScan where
  state : ToolLoopState := .stable
  pending : List ToolFingerprint := []
  previous : Option EventEnvelope := none
  units : List (List EventEnvelope) := []
  openUnit : List EventEnvelope := []

/-- The event continues the sequence and the session of the one before it. -/
def continues (previous : Option EventEnvelope) (event : EventEnvelope) : Bool :=
  match previous with
  | none => true
  | some last => event.sequence == last.sequence + 1 && event.sessionKey == last.sessionKey

/-- The call whose result arrives is closed; the round waits for the assistant once all are. -/
def ToolLoopScan.closeCall (scan : ToolLoopScan) (event : EventEnvelope)
    (fingerprint : ToolFingerprint) : ToolLoopScan :=
  let pending := scan.pending.erase fingerprint
  { scan with
    state := if pending = [] then .awaitingAssistant else .awaitingResults
    pending := pending
    openUnit := scan.openUnit ++ [event] }

/-- A call opens a round, or joins the open one. -/
def ToolLoopScan.openCall (scan : ToolLoopScan) (event : EventEnvelope)
    (fingerprint : ToolFingerprint) : ToolLoopScan :=
  { scan with
    state := .awaitingResults
    pending := fingerprint :: scan.pending
    openUnit := scan.openUnit ++ [event] }

/-- A unit is complete. -/
def ToolLoopScan.emit (scan : ToolLoopScan) (unit : List EventEnvelope) : ToolLoopScan :=
  { scan with state := .stable, units := scan.units ++ [unit], openUnit := [] }

/-- The transition of `_parse_events` on one event; none is the absorbing invalid state. -/
def ToolLoopScan.transition (scan : ToolLoopScan) (event : EventEnvelope) : Option ToolLoopScan :=
  match scan.state, event.eventType with
  | .stable, .toolCall => (toolFingerprint event).map (scan.openCall event)
  | .stable, .toolResult => none
  | .stable, _ => some (scan.emit [event])
  | .awaitingResults, .toolCall => (toolFingerprint event).map (scan.openCall event)
  | .awaitingResults, .toolResult => do
      let fingerprint ← toolFingerprint event
      if fingerprint ∈ scan.pending then pure (scan.closeCall event fingerprint) else none
  | .awaitingAssistant, .assistantMessage => some (scan.emit (scan.openUnit ++ [event]))
  | .awaitingAssistant, .toolCall => (toolFingerprint event).map (scan.openCall event)
  | _, _ => none

/-- One iteration of the loop of `_parse_events`. -/
def ToolLoopScan.step (scan : ToolLoopScan) (event : EventEnvelope) : Option ToolLoopScan :=
  if continues scan.previous event then
    (scan.transition event).map fun next => { next with previous := some event }
  else none

/-- The loop of `_parse_events`. -/
def ToolLoopScan.run : ToolLoopScan → List EventEnvelope → Option ToolLoopScan
  | scan, [] => some scan
  | scan, event :: rest => scan.step event >>= fun next => next.run rest

/-- `_pending_entries`: the open calls with their counts, sorted by tool and arguments. -/
def pendingEntries (pending : List ToolFingerprint) : List PendingTool :=
  let distinct := pending.dedup.insertionSort fun left right =>
    left.tool < right.tool ∨ left.tool = right.tool ∧ left.arguments ≤ right.arguments
  distinct.map fun fingerprint => ⟨fingerprint, pending.count fingerprint⟩

/-- `evaluate_tool_loop`. -/
def evaluateToolLoop (events : List EventEnvelope) : ToolLoopAssessment :=
  match ToolLoopScan.run {} events with
  | none => ⟨.invalid, []⟩
  | some scan => ⟨scan.state, pendingEntries scan.pending⟩

/-- `durable_event_units`. -/
def durableEventUnits (events : List EventEnvelope) : Option (List (List EventEnvelope)) :=
  match ToolLoopScan.run {} events with
  | none => none
  | some scan => if scan.state = .stable then some scan.units else none

/-- What a transition does. -/
inductive ToolLoopScan.Moves (scan : ToolLoopScan) (event : EventEnvelope) : ToolLoopScan → Prop
  | opens {fingerprint : ToolFingerprint} (htype : event.eventType = .toolCall)
      (hprint : toolFingerprint event = some fingerprint) :
      Moves scan event (scan.openCall event fingerprint)
  | closes {fingerprint : ToolFingerprint} (htype : event.eventType = .toolResult)
      (hstate : scan.state = .awaitingResults) (hprint : toolFingerprint event = some fingerprint)
      (hmem : fingerprint ∈ scan.pending) : Moves scan event (scan.closeCall event fingerprint)
  | emits (hstate : scan.state = .stable)
      (htype : event.eventType = .userMessage ∨ event.eventType = .assistantMessage) :
      Moves scan event (scan.emit [event])
  | completes (hstate : scan.state = .awaitingAssistant)
      (htype : event.eventType = .assistantMessage) :
      Moves scan event (scan.emit (scan.openUnit ++ [event]))

/-- Every transition is one of these. -/
theorem ToolLoopScan.transition_cases {scan next : ToolLoopScan} {event : EventEnvelope}
    (h : scan.transition event = some next) : scan.Moves event next := by
  unfold transition at h
  split at h
  · rename_i htype
    obtain ⟨fingerprint, hprint, rfl⟩ := Option.map_eq_some_iff.mp h
    exact .opens htype hprint
  · cases h
  · rename_i hstate hcall hresult
    obtain rfl := Option.some.inj h
    refine .emits hstate ?_
    cases htype : event.eventType with
    | userMessage => exact .inl rfl
    | assistantMessage => exact .inr rfl
    | toolCall => exact absurd htype hcall
    | toolResult => exact absurd htype hresult
  · rename_i htype
    obtain ⟨fingerprint, hprint, rfl⟩ := Option.map_eq_some_iff.mp h
    exact .opens htype hprint
  · rename_i hstate htype
    obtain ⟨fingerprint, hprint, h⟩ := Option.bind_eq_some_iff.mp h
    split at h
    · rename_i hmem
      obtain rfl := Option.some.inj h
      exact .closes htype hstate hprint hmem
    · cases h
  · rename_i hstate htype
    obtain rfl := Option.some.inj h
    exact .completes hstate htype
  · rename_i htype
    obtain ⟨fingerprint, hprint, rfl⟩ := Option.map_eq_some_iff.mp h
    exact .opens htype hprint
  · cases h

/-! ## Units partition the delta -/

/-- What every transition keeps: `read` is the prefix read so far, the open unit is empty between
rounds, it starts with a tool event, and a user message is a unit alone. -/
structure ToolLoopScan.Partitions (scan : ToolLoopScan) (read : List EventEnvelope) : Prop where
  flatten : scan.units.flatten ++ scan.openUnit = read
  closed : scan.state = .stable → scan.openUnit = []
  openTools : ∀ event ∈ scan.openUnit, event.eventType ≠ .userMessage
  users : ∀ unit ∈ scan.units, ∀ event ∈ unit, event.eventType = .userMessage → unit = [event]

omit [UnicodeTables] [JsonReader] in
/-- The machine starts with nothing read. -/
theorem ToolLoopScan.partitions_start : Partitions {} [] :=
  ⟨rfl, fun _ => rfl, by simp, by simp⟩

namespace ToolLoopScan.Partitions

variable {scan : ToolLoopScan} {read : List EventEnvelope}

omit [UnicodeTables] [JsonReader] in
/-- A tool event extends the open unit. -/
theorem extend (h : scan.Partitions read) (event : EventEnvelope)
    (htool : event.eventType ≠ .userMessage) {next : ToolLoopScan}
    (hunits : next.units = scan.units) (hopen : next.openUnit = scan.openUnit ++ [event])
    (hstate : next.state ≠ .stable) : next.Partitions (read ++ [event]) where
  flatten := by rw [hunits, hopen, ← List.append_assoc, h.flatten]
  closed := fun hstable => absurd hstable hstate
  openTools := by
    intro e he
    rw [hopen] at he
    rcases List.mem_append.mp he with he | he
    · exact h.openTools e he
    · rw [List.mem_singleton.mp he]
      exact htool
  users := by
    rw [hunits]
    exact h.users

omit [UnicodeTables] [JsonReader] in
/-- A completed unit takes the open events with the event that closes it. -/
theorem emit (h : scan.Partitions read) (event : EventEnvelope)
    (huser : event.eventType = .userMessage → scan.openUnit = []) :
    (scan.emit (scan.openUnit ++ [event])).Partitions (read ++ [event]) where
  flatten := by
    simp only [ToolLoopScan.emit, List.flatten_append, List.flatten_cons, List.flatten_nil,
      List.append_nil, ← List.append_assoc]
    rw [h.flatten]
  closed := fun _ => rfl
  openTools := by simp [ToolLoopScan.emit]
  users := by
    intro unit hunit e he heuser
    rcases List.mem_append.mp hunit with hunit | hunit
    · exact h.users unit hunit e he heuser
    · obtain rfl := List.mem_singleton.mp hunit
      rcases List.mem_append.mp he with he | he
      · exact absurd heuser (h.openTools e he)
      · obtain rfl := List.mem_singleton.mp he
        rw [huser heuser, List.nil_append]

/-- One event. -/
theorem transition (h : scan.Partitions read) {event : EventEnvelope} {next : ToolLoopScan}
    (hnext : scan.transition event = some next) : next.Partitions (read ++ [event]) := by
  cases ToolLoopScan.transition_cases hnext with
  | opens htype hprint =>
      exact h.extend event (by simp [htype]) rfl rfl (by simp [ToolLoopScan.openCall])
  | closes htype hstate hprint hmem =>
      refine h.extend event (by simp [htype]) rfl rfl ?_
      simp only [ToolLoopScan.closeCall]
      split <;> simp
  | emits hstate htype =>
      have hnil := h.closed hstate
      simpa [hnil] using h.emit event fun _ => hnil
  | completes hstate htype =>
      exact h.emit event fun huser => by simp [htype] at huser

/-- The whole loop. -/
theorem run (h : scan.Partitions read) {events : List EventEnvelope} {final : ToolLoopScan}
    (hrun : scan.run events = some final) : final.Partitions (read ++ events) := by
  induction events generalizing scan read with
  | nil =>
      obtain rfl := Option.some.inj hrun
      simpa using h
  | cons event rest ih =>
      obtain ⟨next, hstep, hrest⟩ := Option.bind_eq_some_iff.mp hrun
      unfold ToolLoopScan.step at hstep
      split at hstep
      · obtain ⟨moved, hmoved, rfl⟩ := Option.map_eq_some_iff.mp hstep
        have hpart := h.transition hmoved
        have hnext : ToolLoopScan.Partitions { moved with previous := some event }
            (read ++ [event]) :=
          ⟨hpart.flatten, hpart.closed, hpart.openTools, hpart.users⟩
        simpa using ih hnext hrest
      · cases hstep

end ToolLoopScan.Partitions

/-- The final state behind the units of a delta. -/
theorem durableEventUnits_partitions {events : List EventEnvelope}
    {units : List (List EventEnvelope)} (h : durableEventUnits events = some units) :
    ∃ scan : ToolLoopScan, scan.Partitions events ∧ scan.units = units ∧ scan.openUnit = [] := by
  unfold durableEventUnits at h
  split at h
  · cases h
  · rename_i scan hrun
    split at h
    · rename_i hstable
      have hpart := ToolLoopScan.partitions_start.run hrun
      exact ⟨scan, by simpa using hpart, Option.some.inj h, hpart.closed hstable⟩
    · cases h

/-- The units concatenate to the delta. -/
theorem durableEventUnits_flatten {events : List EventEnvelope}
    {units : List (List EventEnvelope)} (h : durableEventUnits events = some units) :
    units.flatten = events := by
  obtain ⟨scan, hpart, rfl, hopen⟩ := durableEventUnits_partitions h
  simpa [hopen] using hpart.flatten

/-- A user message is a unit alone. -/
theorem durableEventUnits_user {events : List EventEnvelope}
    {units : List (List EventEnvelope)} (h : durableEventUnits events = some units)
    {unit : List EventEnvelope} (hunit : unit ∈ units) {event : EventEnvelope}
    (hevent : event ∈ unit) (huser : event.eventType = .userMessage) : unit = [event] := by
  obtain ⟨scan, hpart, rfl, -⟩ := durableEventUnits_partitions h
  exact hpart.users unit hunit event hevent huser

end AstrContinuum
