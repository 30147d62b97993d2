import Mathlib.Data.List.Sort
import AstrContinuum.Domain.Text

/-!
# JSON values

The value `json.loads` reads, with the members of an object in the order of the text and the
non-finite constants still visible, so that the two hooks of the tool-loop decoder can be stated.
`canonicalJson` is `json.dumps` with sorted keys and the compact separators.
-/

namespace AstrContinuum

/-- A JSON value. A float keeps its literal, and `NaN` or an infinity keeps its name. -/
inductive JsonValue
  | null
  | bool (value : Bool)
  | int (value : Int)
  | float (literal : String)
  | constant (name : String)
  | string (value : String)
  | array (items : List JsonValue)
  | object (members : List (String × JsonValue))

/-- The reader behind `json.loads`, and `repr(float(literal))` when the float is finite. No result
depends on which functions these are. -/
class JsonReader where
  parse : String → Option JsonValue
  floatRepr : String → Option String

/-- `value.get(key)` of an object whose later members replace earlier ones. -/
def lookupMember (members : List (String × JsonValue)) (key : String) : Option JsonValue :=
  (members.reverse.find? fun member => member.1 = key).map Prod.snd

mutual

/-- No object repeats a key and no constant is non-finite: what `_unique_object` and
`_reject_json_constant` let pass. -/
def JsonValue.strict : JsonValue → Bool
  | .constant _ => false
  | .array items => strictItems items
  | .object members => decide (members.map Prod.fst).Nodup && strictMembers members
  | _ => true

/-- Every item of an array is strict. -/
def strictItems : List JsonValue → Bool
  | [] => true
  | item :: rest => item.strict && strictItems rest

/-- Every member of an object is strict. -/
def strictMembers : List (String × JsonValue) → Bool
  | [] => true
  | member :: rest => member.2.strict && strictMembers rest

end

/-- `json.loads` with `_unique_object` and `_reject_json_constant` as hooks. -/
def strictLoads [JsonReader] (text : String) : Option JsonValue :=
  (JsonReader.parse text).filter JsonValue.strict

/-- Members sorted by key and written as one object. -/
def writeMembers (members : List (String × String)) : String :=
  let sorted := members.insertionSort fun left right => left.1 ≤ right.1
  "\x7b" ++ String.intercalate "," (sorted.map fun member =>
    jsonString member.1 ++ ":" ++ member.2) ++ "\x7d"

mutual

/-- `_canonical_json`: the sorted, compact text, or none for a non-finite number. -/
def canonicalJson [JsonReader] : JsonValue → Option String
  | .null => some "null"
  | .bool value => some (if value then "true" else "false")
  | .int value => some (toString value)
  | .float literal => JsonReader.floatRepr literal
  | .constant _ => none
  | .string value => some (jsonString value)
  | .array items => (canonicalItems items).map fun texts =>
      "[" ++ String.intercalate "," texts ++ "]"
  | .object members => (canonicalMembers members).map writeMembers

/-- The canonical texts of the items of an array. -/
def canonicalItems [JsonReader] : List JsonValue → Option (List String)
  | [] => some []
  | item :: rest => do
      let text ← canonicalJson item
      let texts ← canonicalItems rest
      pure (text :: texts)

/-- The keys of an object with the canonical texts of their values. -/
def canonicalMembers [JsonReader] : List (String × JsonValue) → Option (List (String × String))
  | [] => some []
  | member :: rest => do
      let text ← canonicalJson member.2
      let texts ← canonicalMembers rest
      pure ((member.1, text) :: texts)

end

end AstrContinuum
