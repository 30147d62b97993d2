import AstrContinuum.Control.Checked
import AstrContinuum.Domain.Json

/-!
# Thinking replay

`adapters/provider_thinking.py` rewrites the assistant messages of a request for providers that do not
accept the thinking parts of others: reasoning becomes text, and signatures, encrypted fields and other
opaque state are dropped. Messages are JSON values here; a message that needs nothing of this is passed on
as it is.
-/

namespace AstrContinuum

namespace ProviderThinking

open Checked

/-- What is raised: a `ThinkingCompatibilityBlockedError` with its code, or the `TypeError` of a type that
cannot be hashed. -/
inductive ThinkingFailure
  | blocked (code : String)
  | typeError
deriving DecidableEq

/-- The members of a dictionary. -/
abbrev Members := List (String × JsonValue)

/-- `_THINKING_PART_TYPES`. -/
def thinkingPartTypes : List String := ["think", "thinking", "redacted_thinking"]

/-- `_REASONING_TEXT_PREFIX`. -/
def reasoningTextPrefix : String := "[assistant reasoning]\n"

/-- `_REDACTED_REASONING_TEXT`. -/
def redactedReasoningText : String := "[assistant reasoning redacted]"

/-- `_SAFE_ASSISTANT_FIELDS`. -/
def safeAssistantFields : List String := ["role", "content", "tool_calls", "tool_call_id"]

/-- `_NATIVE_ASSISTANT_METADATA_FIELDS`. -/
def nativeAssistantMetadataFields : List String :=
  ["reasoning_content", "reasoning", "reasoning_signature", "signature", "encrypted"]

/-- `_NATIVE_PART_METADATA_FIELDS`. -/
def nativePartMetadataFields : List String := ["signature", "encrypted"]

/-- `value.get(key)`. -/
def getMember (members : Members) (key : String) : JsonValue :=
  (lookupMember members key).getD .null

/-- `key in value`. -/
def hasKey (members : Members) (key : String) : Bool :=
  (lookupMember members key).isSome

/-- No key is outside the permitted ones. -/
def keysWithin (permitted : List String) (members : Members) : Bool :=
  members.all fun member => member.1 ∈ permitted

/-- One of the keys is there. -/
def hasAnyKey (keys : List String) (members : Members) : Bool :=
  keys.any fun key => hasKey members key

/-- `_plain_text`. -/
def plainText : JsonValue → Option String
  | .string text => some text
  | _ => none

/-- `_part_value`; `none` is the marker of a value without attributes. -/
def partValue (part : JsonValue) (key : String) : Option JsonValue :=
  match part with
  | .object members => some (getMember members key)
  | _ => none

/-! ## Content -/

/-- `_safe_media_value`. -/
def safeMediaValue : JsonValue → Except ThinkingFailure JsonValue
  | .string url => .ok (.string url)
  | .object members => do
      require (keysWithin (["url", "id"] ++ nativePartMetadataFields) members = true)
        (.blocked "MEDIA_PART_UNSAFE")
      let url ← orMissing (plainText (getMember members "url")) (.blocked "MEDIA_PART_INVALID")
      match plainText (getMember members "id") with
      | some id => pure (.object [("url", .string url), ("id", .string id)])
      | none => pure (.object [("url", .string url)])
  | _ => .error (.blocked "MEDIA_PART_INVALID")

/-- `_reasoning_text`. -/
def reasoningText (value : String) : String := reasoningTextPrefix ++ value

/-- A text part. -/
def textPart (text : String) : JsonValue :=
  .object [("type", .string "text"), ("text", .string text)]

/-- A media part. -/
def mediaPart (field : String) (value : JsonValue) : JsonValue :=
  .object [("type", .string field), (field, value)]

/-- What `_safe_content_part` returns: a part that is kept, or the text of a thinking part. -/
inductive SafePart
  | visible (part : JsonValue)
  | note (text : String)

/-- `require_allowed`. -/
def requireAllowed (allowed : List String) (members : Members) : Except ThinkingFailure Unit :=
  require (keysWithin (allowed ++ nativePartMetadataFields) members = true)
    (.blocked "CONTENT_PART_UNSAFE")

/-- `_safe_content_part`. -/
def safeContentPart (part : JsonValue) : Except ThinkingFailure SafePart :=
  match part with
  | .object members =>
      match getMember members "type" with
      | .string partType =>
          if partType = "text" then do
            requireAllowed ["type", "text"] members
            let text ← orMissing (plainText (getMember members "text")) (.blocked "TEXT_PART_INVALID")
            pure (.visible (textPart text))
          else if partType = "think" then do
            requireAllowed ["type", "think"] members
            let think ← orMissing (plainText (getMember members "think"))
              (.blocked "THINKING_TEXT_UNAVAILABLE")
            pure (.note (reasoningText think))
          else if partType = "thinking" then do
            requireAllowed ["type", "thinking", "text"] members
            let thinking ← orMissing
              ((plainText (getMember members "thinking")).or (plainText (getMember members "text")))
              (.blocked "THINKING_TEXT_UNAVAILABLE")
            pure (.note (reasoningText thinking))
          else if partType = "redacted_thinking" then do
            requireAllowed ["type", "data"] members
            pure (.note redactedReasoningText)
          else if partType = "image_url" ∨ partType = "audio_url" then do
            requireAllowed ["type", partType] members
            let value ← safeMediaValue (getMember members partType)
            pure (.visible (mediaPart partType value))
          else .error (.blocked "CONTENT_PART_UNSUPPORTED")
      | _ => .error (.blocked "CONTENT_PART_TYPE_INVALID")
  -- a value without attributes has no type
  | _ => .error (.blocked "CONTENT_PART_TYPE_INVALID")

/-- `_assistant_message_mapping`. -/
def assistantMessageMapping : JsonValue → Except ThinkingFailure Members
  | .object payload =>
      match getMember payload "role" with
      | .string "assistant" => .ok payload
      | _ => .error (.blocked "ASSISTANT_ROLE_INVALID")
  | _ => .error (.blocked "ASSISTANT_SERIALIZATION_UNAVAILABLE")

/-! ## Tool calls -/

/-- `_tool_call_mapping`. -/
def toolCallMapping : JsonValue → Except ThinkingFailure Members
  | .object members => .ok members
  | _ => .error (.blocked "TOOL_CALL_SERIALIZATION_UNAVAILABLE")

/-- A call whose shape is not the safe one. -/
def toolCallForeign (raw : Members) : Bool :=
  !keysWithin ["id", "type", "function"] raw ||
    match getMember raw "function" with
    | .object function => !keysWithin ["name", "arguments"] function
    | _ => true

/-- The loop of `_tool_calls_need_projection`. -/
def foreignToolCall : List JsonValue → Except ThinkingFailure Bool
  | [] => .ok false
  | toolCall :: rest => do
      let raw ← toolCallMapping toolCall
      if toolCallForeign raw = true then pure true else foreignToolCall rest

/-- `_tool_calls_need_projection`. -/
def toolCallsNeedProjection : JsonValue → Except ThinkingFailure Bool
  | .array toolCalls => do
      let foreign ← foreignToolCall toolCalls
      pure (foreign || !toolCalls.isEmpty)
  | _ => .error (.blocked "TOOL_CALLS_INVALID")

/-- The `arguments` of a function: absent, `None` or a text. -/
def safeArguments : JsonValue → Except ThinkingFailure JsonValue
  | .null => .ok .null
  | .string arguments => .ok (.string arguments)
  | _ => .error (.blocked "TOOL_FUNCTION_INVALID")

/-- The safe shape of a tool call. -/
def toolCallOf (id name : String) (arguments : JsonValue) : JsonValue :=
  .object [("id", .string id), ("type", .string "function"),
    ("function", .object [("name", .string name), ("arguments", arguments)])]

/-- `tool_type != "function"` does not hold. -/
def isFunctionType : JsonValue → Bool
  | .string toolType => toolType = "function"
  | _ => false

/-- The body of the loop of `_safe_tool_calls`. -/
def safeToolCall (toolCall : JsonValue) : Except ThinkingFailure JsonValue := do
  let raw ← toolCallMapping toolCall
  let id ← orMissing (plainText (getMember raw "id")) (.blocked "TOOL_CALL_INVALID")
  require (isFunctionType (getMember raw "type") = true) (.blocked "TOOL_CALL_INVALID")
  match getMember raw "function" with
  | .object function => do
      let name ← orMissing (plainText (getMember function "name")) (.blocked "TOOL_FUNCTION_INVALID")
      let arguments ← safeArguments (getMember function "arguments")
      pure (toolCallOf id name arguments)
  | _ => .error (.blocked "TOOL_FUNCTION_INVALID")

/-- `_safe_tool_calls`. -/
def safeToolCalls : JsonValue → Except ThinkingFailure (List JsonValue)
  | .array toolCalls => toolCalls.mapM safeToolCall
  | _ => .error (.blocked "TOOL_CALLS_INVALID")

/-! ## Messages -/

/-- Whether one content part needs the projection. -/
def partNeedsNormalization (part : JsonValue) : Except ThinkingFailure Bool :=
  match part with
  | .object members =>
      match getMember members "type" with
      | .string partType =>
          if partType ∈ thinkingPartTypes then .ok true
          else if partType = "text" ∨ partType = "image_url" ∨ partType = "audio_url" then do
            requireAllowed ["type", partType] members
            if hasAnyKey nativePartMetadataFields members = true then pure true
            else if partType = "text" then pure false
            else do
              let _ ← safeMediaValue (getMember members partType)
              match getMember members partType with
              | .object media => pure (hasAnyKey nativePartMetadataFields media)
              | _ => pure false
          else .error (.blocked "CONTENT_PART_UNSUPPORTED")
      -- these cannot be members of a set
      | .array _ => .error .typeError
      | .object _ => .error .typeError
      | _ => .error (.blocked "CONTENT_PART_UNSUPPORTED")
  | _ => .error (.blocked "CONTENT_PART_UNSUPPORTED")

/-- The loop over the content of `_assistant_needs_normalization`. -/
def contentNeedsNormalization : List JsonValue → Except ThinkingFailure Bool
  | [] => .ok false
  | part :: rest => do
      let needs ← partNeedsNormalization part
      if needs = true then pure true else contentNeedsNormalization rest

/-- `"tool_calls" in payload and _tool_calls_need_projection(payload["tool_calls"])`. -/
def payloadToolCallsNeedProjection (payload : Members) : Except ThinkingFailure Bool :=
  match lookupMember payload "tool_calls" with
  | some toolCalls => toolCallsNeedProjection toolCalls
  | none => .ok false

/-- Whether the content needs the projection. -/
def payloadContentNeedsNormalization (payload : Members) : Except ThinkingFailure Bool :=
  match getMember payload "content" with
  | .null => .ok false
  | .string _ => .ok false
  | .array content => contentNeedsNormalization content
  | _ => .error (.blocked "ASSISTANT_CONTENT_INVALID")

/-- `_assistant_needs_normalization`. -/
def assistantNeedsNormalization (payload : Members) : Except ThinkingFailure Bool := do
  require (keysWithin (safeAssistantFields ++ nativeAssistantMetadataFields) payload = true)
    (.blocked "ASSISTANT_FIELDS_UNSAFE")
  if hasAnyKey nativeAssistantMetadataFields payload = true then pure true
  else do
    let toolCalls ← payloadToolCallsNeedProjection payload
    if toolCalls = true then pure true else payloadContentNeedsNormalization payload

/-- The loop over the content of `_projected_content_and_reasoning_notes`: the projected parts, the texts of
their notes, and where the last note ends. -/
structure ProjectedContent where
  projectedParts : List JsonValue := []
  contentNoteTexts : List String := []
  lastContentNoteBoundary : Option Nat := none

/-- What a part adds to them. -/
def ProjectedContent.append (content : ProjectedContent) : SafePart → ProjectedContent
  | .note text =>
      { projectedParts := content.projectedParts ++ [textPart text]
        contentNoteTexts := content.contentNoteTexts ++ [text]
        lastContentNoteBoundary := some (content.projectedParts.length + 1) }
  | .visible visible => { content with projectedParts := content.projectedParts ++ [visible] }

/-- The body of this loop. -/
def ProjectedContent.add (content : ProjectedContent) (part : JsonValue) :
    Except ThinkingFailure ProjectedContent := do
  let safe ← safeContentPart part
  pure (content.append safe)

/-- The notes of the fields that mirror the reasoning, without those that are in the content. -/
def mirrorNotes (payload : Members) (contentNoteTexts : List String) : List String :=
  ["reasoning_content", "reasoning"].foldl (fun noteTexts field =>
    match plainText (getMember payload field) with
    | some text =>
        if reasoningText text ∈ contentNoteTexts ++ noteTexts then noteTexts
        else noteTexts ++ [reasoningText text]
    | none => noteTexts) []

/-- `_projected_content_and_reasoning_notes`. -/
def projectedContentAndReasoningNotes (payload : Members) (content : JsonValue) :
    Except ThinkingFailure (List JsonValue × List String) :=
  match content with
  | .array parts => do
      let projected ← parts.foldlM ProjectedContent.add {}
      let noteTexts := mirrorNotes payload projected.contentNoteTexts
      let insertion := projected.lastContentNoteBoundary.getD 0
      pure (projected.projectedParts.take insertion ++ noteTexts.map textPart ++
        projected.projectedParts.drop insertion, [])
  | _ => .ok ([], mirrorNotes payload [])

/-- `result["content"]`. -/
def projectedContent (content : JsonValue) (projectedParts : List JsonValue) (noteTexts : List String)
    (toolCalls : Bool) : Except ThinkingFailure JsonValue :=
  match content with
  | .string text =>
      if noteTexts ≠ [] then .ok (.string (String.intercalate "\n\n" (noteTexts ++ [text])))
      else .ok (.string text)
  | .array _ =>
      if projectedParts ≠ [] then .ok (.array projectedParts)
      else if toolCalls = true then .ok .null
      else .error (.blocked "ASSISTANT_CONTENT_EMPTY")
  | .null =>
      if noteTexts ≠ [] then .ok (.array (noteTexts.map textPart))
      else if toolCalls = true then .ok .null
      else .error (.blocked "ASSISTANT_CONTENT_UNAVAILABLE")
  | _ => .error (.blocked "ASSISTANT_CONTENT_INVALID")

/-- `result["tool_calls"]`, where the payload has it. -/
def projectedToolCalls (payload : Members) : Except ThinkingFailure Members :=
  match lookupMember payload "tool_calls" with
  | some toolCalls => do
      let safeCalls ← safeToolCalls toolCalls
      pure [("tool_calls", .array safeCalls)]
  | none => .ok []

/-- `result["tool_call_id"]`, where the payload has it. -/
def projectedToolCallId (payload : Members) : Except ThinkingFailure Members :=
  match lookupMember payload "tool_call_id" with
  | some (.string toolCallId) => .ok [("tool_call_id", .string toolCallId)]
  | some _ => .error (.blocked "TOOL_CALL_ID_INVALID")
  | none => .ok []

/-- The branch of `_normalized_assistant_message` that projects. -/
def projectAssistantMessage (payload : Members) : Except ThinkingFailure JsonValue := do
  let content := getMember payload "content"
  let (projectedParts, noteTexts) ← projectedContentAndReasoningNotes payload content
  let toolCalls ← projectedToolCalls payload
  let toolCallId ← projectedToolCallId payload
  let rebuilt ← projectedContent content projectedParts noteTexts (hasKey payload "tool_calls")
  pure (.object ([("role", .string "assistant")] ++ toolCalls ++ toolCallId ++ [("content", rebuilt)]))

/-- `_normalized_assistant_message`. -/
def normalizedAssistantMessage (message : JsonValue) : Except ThinkingFailure JsonValue := do
  let payload ← assistantMessageMapping message
  let needs ← assistantNeedsNormalization payload
  if needs = true then projectAssistantMessage payload else pure message

/-- The body of the loop of `_normalize_openai_claude_contexts`. -/
def normalizedMessage (message : JsonValue) : Except ThinkingFailure JsonValue :=
  match message with
  | .object members =>
      match getMember members "role" with
      | .string "assistant" => normalizedAssistantMessage message
      | _ => .ok message
  | _ => .error (.blocked "MESSAGE_ROLE_UNAVAILABLE")

/-- `_normalize_openai_claude_contexts`. The list itself is returned where no message has changed, which is
an equal one. -/
def normalizeOpenaiClaudeContexts (contexts : List JsonValue) : Except ThinkingFailure (List JsonValue) :=
  contexts.mapM normalizedMessage

/-- The contexts of a call, where there are some. -/
def callContexts : JsonValue → Except ThinkingFailure (Option (List JsonValue))
  | .null => .ok none
  | .array contexts => .ok (some contexts)
  | _ => .error (.blocked "CONTEXTS_NOT_A_LIST")

/-- `_rewrite_call_contexts`, with the messages that `_tool_calls_result_messages` makes of the results; it
also says whether the results are part of the contexts now. Missing contexts are `None` ones. -/
def rewriteCallContexts (contexts : JsonValue)
    (toolCallsResult : Option (Except ThinkingFailure (List JsonValue))) :
    Except ThinkingFailure (JsonValue × Bool) := do
  let contextList ← callContexts contexts
  match contextList, toolCallsResult with
  | none, none => pure (contexts, false)
  | some contextList, none => do
      let normalized ← normalizeOpenaiClaudeContexts contextList
      pure (.array normalized, false)
  | none, some result => do
      let toolMessages ← result
      if toolMessages.isEmpty = true then pure (contexts, true)
      else do
        let normalized ← normalizeOpenaiClaudeContexts toolMessages
        pure (.array normalized, true)
  | some contextList, some result => do
      let toolMessages ← result
      let normalized ← normalizeOpenaiClaudeContexts (contextList ++ toolMessages)
      pure (.array normalized, true)

end ProviderThinking

end AstrContinuum
