import AstrContinuum.Adapters.ToolMetadata
import AstrContinuum.Runtime.ToolLoop
import AstrContinuum.Storage.Repository

/-!
# The hooks of a request

The callbacks that the host makes for one request, as `main.py` and `AstrBotHookBridge` serve them:
`on_llm_request` up to `prepare_request`, the two tool hooks, and `on_agent_done_finalize`. A
callback gives up control at every repository call, so it is a control point and the request state
it shares with the other callbacks of its request. `HostState.step` interleaves any number of
callbacks of any number of requests with the calls of other clients, and lets the host drop a
callback wherever it waits.
-/

namespace AstrContinuum

open Checked Transactional

/-- `HostTurnIdentity`. -/
structure HostTurnIdentity where
  sessionKey : SessionKey
  hostMessageId : String
  createdAt : Timestamp
deriving DecidableEq

/-- The part of `_RequestState` that the callbacks below read and write: whether the request was
prepared, the captured assistant event, `pressure.should_compact`, and the counters. -/
structure RequestState where
  turn : HostTurnIdentity
  prepared : Bool := false
  assistantEvent : Option EventEnvelope := none
  shouldCompact : Bool := false
  intentRaised : Bool := false
  nextToolCallOrdinal : Nat := 0
  nextToolResultOrdinal : Nat := 0

/-- `SourceHook.value`. -/
def SourceHook.value : SourceHook → String
  | .onLlmRequest => "ON_LLM_REQUEST"
  | .onAgentDone => "ON_AGENT_DONE"
  | .onUsingLlmTool => "ON_USING_LLM_TOOL"
  | .onLlmToolRespond => "ON_LLM_TOOL_RESPOND"

section Identity

variable [Hashlib]

/-- The `idempotency_key` of `deterministic_event_identity`. -/
def idempotencyKey (turn : HostTurnIdentity) (sourceHook : SourceHook) (ordinal : Nat)
    (canonicalMetadata : String) : String :=
  "ac1:" ++ Hashlib.sha256Hexdigest (writeMembers
    [("canonical_metadata", jsonString canonicalMetadata),
      ("host_message_id", jsonString turn.hostMessageId), ("ordinal", toString ordinal),
      ("source_hook", jsonString sourceHook.value)])

/-- The `event_id` of `deterministic_event_identity`. -/
def eventIdentity (turn : HostTurnIdentity) (sourceHook : SourceHook) (ordinal : Nat)
    (canonicalMetadata : String) : String :=
  "evt:" ++ Hashlib.sha256Hexdigest (writeMembers
    [("idempotency_key",
        jsonString (idempotencyKey turn sourceHook ordinal canonicalMetadata)),
      ("session_key_hash", jsonString turn.sessionKey.sessionKeyHash),
      ("source_hook", jsonString sourceHook.value)])

/-- The arguments that `_capture_with_metrics` passes on, with the observation it makes. -/
def captureRequest (turn : HostTurnIdentity) (sourceHook : SourceHook) (ordinal : Nat)
    (canonicalMetadata content : String) (canonical : CanonicalMetricObservation) :
    CaptureRequest where
  eventId := eventIdentity turn sourceHook ordinal canonicalMetadata
  sessionKey := turn.sessionKey
  content := content
  idempotencyKey := idempotencyKey turn sourceHook ordinal canonicalMetadata
  tokenCount := content.utf8ByteSize
  canonical := canonical
  createdAt := turn.createdAt

/-- The `job_id` of `AstrBotHookBridge.raise_compaction_intent`. -/
def intentJobId (turn : HostTurnIdentity) (target : Nat) : String :=
  "job:" ++ Hashlib.sha256Hexdigest (writeMembers
    [("host_message_id", jsonString turn.hostMessageId),
      ("session_key_hash", jsonString turn.sessionKey.sessionKeyHash),
      ("target_high_water_mark", toString target)])

end Identity

/-! ## One callback -/

/-- Where a callback waits. The first three are those of `prepare_request`, the next two are
`capture_tool_call` and `capture_tool_result`, and the last four are those of
`on_agent_done_finalize`. -/
inductive HookPoint
  | prepareRead (input : String)
  | prepareCapture (input : String)
  | prepareView
  | toolCall (ordinal : Nat) (metadata : String)
  | toolResult (ordinal : Nat) (metadata : String)
  | finalizeRead (content : String)
  | finalizeCapture (content : String)
  | intentRead
  | intentRaise (target : Nat)

namespace HookPoint

/-- The repository call that a callback waits for. -/
def operation [Hashlib] (turn : HostTurnIdentity) (canonical : CanonicalMetricObservation) :
    HookPoint → Operation
  | .prepareRead _ | .prepareView | .finalizeRead _ | .intentRead =>
      .readRequestView turn.sessionKey
  | .prepareCapture input =>
      .captureUserEvent (captureRequest turn .onLlmRequest 0 "" input canonical)
  | .toolCall ordinal metadata =>
      .captureToolEvent .toolCall
        (captureRequest turn .onUsingLlmTool ordinal metadata metadata canonical)
  | .toolResult ordinal metadata =>
      .captureToolEvent .toolResult
        (captureRequest turn .onLlmToolRespond ordinal metadata metadata canonical)
  | .finalizeCapture content =>
      .captureAssistantEvent (captureRequest turn .onAgentDone 0 "" content canonical)
  | .intentRaise target =>
      .raiseCompactionIntent (intentJobId turn target) turn.sessionKey target turn.createdAt

end HookPoint

/-- Where `on_agent_done_finalize` goes on once the assistant event is captured. -/
def RequestState.intentPoint (request : RequestState) : Option HookPoint :=
  if request.shouldCompact && !request.intentRaised then some .intentRead else none

/-- `read_tool_loop_state` of a view that was read. -/
def Response.toolLoop [UnicodeTables] [JsonReader] : Response → Option ToolLoopState
  | .view found => some (evaluateToolLoop found.delta).state
  | _ => none

/-- What a callback does with the answer to its call, up to the next point where it waits. -/
def HookPoint.resume [UnicodeTables] [JsonReader] (request : RequestState) (response : Response) :
    HookPoint → RequestState × Option HookPoint
  | .prepareRead input =>
      if response.toolLoop = some .stable then (request, some (.prepareCapture input))
      else (request, none)
  | .prepareCapture _ => (request, some .prepareView)
  | .prepareView => ({ request with prepared := true }, none)
  | .toolCall _ _ =>
      ({ request with nextToolCallOrdinal := request.nextToolCallOrdinal + 1 }, none)
  | .toolResult _ _ =>
      ({ request with nextToolResultOrdinal := request.nextToolResultOrdinal + 1 }, none)
  | .finalizeRead content =>
      if response.toolLoop = some .stable ∨ response.toolLoop = some .awaitingAssistant then
        (request, some (.finalizeCapture content))
      else (request, none)
  | .finalizeCapture _ =>
      match response with
      | .event event =>
          let request := { request with assistantEvent := some event }
          (request, request.intentPoint)
      | _ => (request, none)
  | .intentRead =>
      match request.assistantEvent with
      | some event =>
          if response.toolLoop = some .stable ∧ 1 ≤ event.sequence then
            (request, some (.intentRaise event.sequence))
          else (request, none)
      | none => (request, none)
  | .intentRaise _ => ({ request with intentRaised := true }, none)

/-! ## The host -/

/-- A callback of a request, waiting. -/
structure Activity where
  request : Nat
  point : HookPoint

/-- The durable state, the requests in the order they arrived, and the callbacks that wait. -/
structure HostState where
  db : Database := .empty
  requests : List RequestState := []
  activities : List Activity := []

/-- What can happen next. -/
inductive HostAction
  /-- `on_llm_request` of a new request. -/
  | llmRequest (turn : HostTurnIdentity) (input : String)
  /-- `on_agent_begin_project` has evaluated the pressure of a request. -/
  | agentBegin (request : Nat) (shouldCompact : Bool)
  /-- `on_using_llm_tool`. -/
  | usingLlmTool (request : Nat) (tool : HostTool) (toolArgs : HostValue)
  /-- `on_llm_tool_respond`. -/
  | llmToolRespond (request : Nat) (tool : HostTool) (toolArgs toolResult : HostValue)
  /-- `on_agent_done_finalize`. -/
  | agentDone (request : Nat) (content : String)
  /-- The call that a callback waits for runs, and the callback goes on. -/
  | resume (activity : Nat) (canonical : CanonicalMetricObservation) (faults : FaultInjector)
  /-- The host drops a callback. -/
  | abandon (activity : Nat)
  /-- Another client calls the repository. -/
  | other (call : Call)

namespace HostState

variable [Hashlib] [SecureCodec] [UnicodeTables] [JsonReader]

/-- A callback of a prepared request starts to wait at a point. -/
def begin (state : HostState) (request : Nat) (point : RequestState → Option HookPoint) :
    HostState :=
  match state.requests[request]? with
  | some found =>
      match (if found.prepared then point found else none) with
      | some point => { state with activities := state.activities ++ [⟨request, point⟩] }
      | none => state
  | none => state

/-- The point at which a tool hook waits, unless its metadata raises. -/
def toolPoint (tool : HostTool) (toolArgs : HostValue) (toolResult : Option HostValue)
    (point : String → HookPoint) : Option HookPoint :=
  match canonicalToolMetadata tool toolArgs toolResult with
  | .ok metadata => some (point metadata)
  | .error _ => none

/-- The callback at an index runs its call and goes on; a call that raises ends it. -/
def resume (state : HostState) (activity : Activity) (index : Nat)
    (canonical : CanonicalMetricObservation) (faults : FaultInjector) : HostState :=
  let waiting := state.activities.eraseIdx index
  match state.requests[activity.request]? with
  | none => { state with activities := waiting }
  | some request =>
      let call : Call := ⟨activity.point.operation request.turn canonical, faults⟩
      match AstrContinuum.step state.db call with
      | .error _ => { state with activities := waiting }
      | .ok (db, response) =>
          let (request, point) := activity.point.resume request response
          { db := db
            requests := state.requests.set activity.request request
            activities := waiting ++ (point.map fun point => ⟨activity.request, point⟩).toList }

/-- One action. -/
def step (state : HostState) : HostAction → HostState
  | .llmRequest turn input =>
      { state with
        requests := state.requests ++ [{ turn := turn }]
        activities := state.activities ++ [⟨state.requests.length, .prepareRead input⟩] }
  | .agentBegin request shouldCompact =>
      { state with
        requests := state.requests.modify request fun found =>
          { found with shouldCompact := shouldCompact } }
  | .usingLlmTool request tool toolArgs =>
      state.begin request fun found =>
        toolPoint tool toolArgs none (.toolCall found.nextToolCallOrdinal)
  | .llmToolRespond request tool toolArgs toolResult =>
      state.begin request fun found =>
        toolPoint tool toolArgs (some toolResult) (.toolResult found.nextToolResultOrdinal)
  | .agentDone request content =>
      state.begin request fun found =>
        if found.assistantEvent.isNone then some (.finalizeRead content) else found.intentPoint
  | .resume index canonical faults =>
      match state.activities[index]? with
      | some activity => state.resume activity index canonical faults
      | none => state
  | .abandon index => { state with activities := state.activities.eraseIdx index }
  | .other call => { state with db := repository.next state.db call }

/-- The state after a sequence of actions. -/
def run (actions : List HostAction) : HostState :=
  actions.foldl step {}

end HostState

end AstrContinuum
