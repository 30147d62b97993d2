import AstrContinuum.Control.Checked
import AstrContinuum.Domain.Json

/-!
# Tool metadata

The encoder of `adapters/astrbot.py` for tool calls and results. A host value is bounded in depth,
width and string length before it is written as canonical JSON, and a text past the byte limit is
replaced by a marker that names neither the tool nor its arguments. The decoder is
`toolFingerprint` of `Runtime.ToolLoop`.
-/

namespace AstrContinuum

open Checked

/-- `_MAX_VALUE_DEPTH`. -/
def maxValueDepth : Nat := 4

/-- `_MAX_COLLECTION_ITEMS`. -/
def maxCollectionItems : Nat := 16

/-- `_MAX_STRING_CHARACTERS`. -/
def maxStringCharacters : Nat := 512

/-- `_MIN_METADATA_BYTES`. -/
def minMetadataBytes : Nat := 128

/-- The default of `max_utf8_bytes`. -/
def maxMetadataBytes : Nat := 4096

/-- What the encoder sees of a host object. A finite float is its `repr`, and every object that is
none of the built-in kinds is its qualified type name. -/
inductive HostValue
  | none
  | bool (value : Bool)
  | int (value : Int)
  | float (literal : String)
  | nonFinite (typeName : String)
  | str (value : String)
  | bytes (typeName : String) (length : Nat)
  | mapping (typeName : String) (items : List (HostValue × HostValue))
  | sequence (typeName : String) (items : List HostValue)
  | object (typeName : String)

/-- What `_tool_name` sees of a tool: a text, or an object with its attributes that are texts. -/
inductive HostTool
  | text (value : String)
  | object (name toolName dunderName : Option String) (typeName : String)

/-- What the adapter raises. -/
inductive AdapterFailure
  | toolMetadataInvalid
  | eventIdentityInvalid
  | compactionTargetInvalid
  | messageBoundaryInvalid
  | jsonValueError
deriving DecidableEq

/-- `_bounded_text`. -/
def boundedText (value : String) : JsonValue :=
  if value.length ≤ maxStringCharacters then .string value
  else
    .object [("text", .string (sliceTo maxStringCharacters value)), ("truncated", .bool true),
      ("characters", .int value.length)]

/-- `_mapping_key`. -/
def mappingKey : HostValue → String
  | .str value => value
  | .none => "null"
  | .bool value => if value then "true" else "false"
  | .int value => toString value
  | .float literal => literal
  | .nonFinite typeName | .bytes typeName _ | .mapping typeName _ | .sequence typeName _
  | .object typeName => "<" ++ typeName ++ ">"

/-- `members[key] = value`: a known key keeps its place. -/
def assignMember (members : List (String × JsonValue)) (key : String) (value : JsonValue) :
    List (String × JsonValue) :=
  if key ∈ members.map Prod.fst then
    members.map fun member => if member.1 = key then (key, value) else member
  else members ++ [(key, value)]

/-- A dictionary display: later items replace earlier ones. -/
def dictionary (items : List (String × JsonValue)) : List (String × JsonValue) :=
  items.foldl (fun members item => assignMember members item.1 item.2) []

/-- The bounded dictionary of a mapping whose items have been encoded. -/
def boundedMapping (items : List (String × JsonValue)) : JsonValue :=
  let sorted := items.insertionSort fun left right => left.1 ≤ right.1
  let bounded := dictionary (sorted.take maxCollectionItems)
  if maxCollectionItems < sorted.length then
    .object (assignMember bounded "$truncated_items" (.int (sorted.length - maxCollectionItems : Nat)))
  else .object bounded

/-- The bounded list of a sequence whose items have been encoded. -/
def boundedSequence (items : List JsonValue) : JsonValue :=
  let bounded := items.take maxCollectionItems
  if maxCollectionItems < items.length then
    .array (bounded ++
      [.object [("truncated_items", .int (items.length - maxCollectionItems : Nat))]])
  else .array bounded

/-- What stands for a collection or an object below the depth limit. -/
def truncatedType (typeName : String) : JsonValue :=
  .object [("type", .string typeName), ("truncated", .bool true)]

mutual

/-- `_canonical_value`. -/
def canonicalValue (depth : Nat) : HostValue → JsonValue
  | .none => .null
  | .bool value => .bool value
  | .int value => .int value
  | .float literal => .float literal
  | .nonFinite _ => .object [("type", .string "non_finite_float")]
  | .str value => boundedText value
  | .bytes _ length => .object [("type", .string "bytes"), ("length", .int length)]
  | .mapping typeName items =>
      if maxValueDepth ≤ depth then truncatedType typeName
      else boundedMapping (canonicalEntries (depth + 1) items)
  | .sequence typeName items =>
      if maxValueDepth ≤ depth then truncatedType typeName
      else boundedSequence (canonicalValues (depth + 1) items)
  | .object typeName =>
      if maxValueDepth ≤ depth then truncatedType typeName
      else .object [("type", .string typeName)]

/-- The items of a mapping under their keys. -/
def canonicalEntries (depth : Nat) : List (HostValue × HostValue) → List (String × JsonValue)
  | [] => []
  | item :: rest =>
      (mappingKey item.1, canonicalValue depth item.2) :: canonicalEntries depth rest

/-- The items of a sequence. -/
def canonicalValues (depth : Nat) : List HostValue → List JsonValue
  | [] => []
  | item :: rest => canonicalValue depth item :: canonicalValues depth rest

end

/-- `_required_text` of an attribute that is a text. -/
def requiredText (value : Option String) : Option String :=
  value.filter stripNonEmpty

/-- `_tool_name`. -/
def toolName : HostTool → String
  | .text value => if stripNonEmpty value then value else "builtins.str"
  | .object name toolName dunderName typeName =>
      (((requiredText name).or (requiredText toolName)).or (requiredText dunderName)).getD typeName

/-- The kind of the metadata: a result is a result, and no result is a call. -/
def metadataKind (toolResult : Option HostValue) : String :=
  if toolResult.isNone then "call" else "result"

/-- The payload of `canonical_tool_metadata`. -/
def metadataPayload (tool : HostTool) (toolArgs : HostValue) (toolResult : Option HostValue) :
    JsonValue :=
  .object ([("arguments", canonicalValue 0 toolArgs), ("kind", .string (metadataKind toolResult)),
    ("tool", boundedText (toolName tool))] ++
      (toolResult.map fun result => ("result", canonicalValue 0 result)).toList)

/-- What `canonical_tool_metadata` writes in place of a payload past the limit. -/
def metadataFallback (toolResult : Option HostValue) (encodedSize : Nat) : JsonValue :=
  .object [("kind", .string (metadataKind toolResult)), ("truncated", .bool true),
    ("utf8_bytes", .int encodedSize)]

/-- `canonical_tool_metadata`. -/
def canonicalToolMetadata [JsonReader] (tool : HostTool) (toolArgs : HostValue)
    (toolResult : Option HostValue) (maxUtf8Bytes : Nat := maxMetadataBytes) :
    Except AdapterFailure String := do
  require (minMetadataBytes ≤ maxUtf8Bytes) .toolMetadataInvalid
  let encoded ← orMissing (canonicalJson (metadataPayload tool toolArgs toolResult)) .jsonValueError
  if encoded.utf8ByteSize ≤ maxUtf8Bytes then pure encoded
  else do
    let fallback ← orMissing (canonicalJson (metadataFallback toolResult encoded.utf8ByteSize))
      .jsonValueError
    require (fallback.utf8ByteSize ≤ maxUtf8Bytes) .toolMetadataInvalid
    pure fallback

end AstrContinuum
