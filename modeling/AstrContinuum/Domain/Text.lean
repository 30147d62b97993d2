import AstrContinuum.Algebra.Sha256
import AstrContinuum.Algebra.Utf8
import Mathlib.Algebra.GroupWithZero.Nat
import Mathlib.Data.List.Infix

/-!
# Text at the Python and SQLite boundaries

The two notions of a blank text that the code uses side by side: Python's `not value.strip()` in
the argument checks, and `length(trim(column)) > 0` in the table `CHECK`s. They differ, and the
storage model keeps both. The module also has the string operations of the request runtime, the
JSON string encoder behind every canonical text, and as parameters the hash that identifies
sessions and follow-up jobs and the Unicode tables of `str`.
-/

namespace AstrContinuum

/-- `hashlib.sha256(text.encode()).hexdigest()`. A result that depends on more than that this is a function
says what it asks for. -/
class Hashlib where
  sha256Hexdigest : String → String

/-- The hash that `hashlib` computes. -/
abbrev Hashlib.sha256 : Hashlib :=
  ⟨Sha256.hexdigest⟩

/-- `str.casefold` and `str.isalnum`, which follow the Unicode tables. No result depends on which
functions these are. -/
class UnicodeTables where
  casefold : String → String
  isalnum : Char → Bool

/-- What holds of all characters of a text is decided one character after the other. -/
instance (priority := high) decidableForallMemChar {p : Char → Prop} [DecidablePred p] (chars : List Char) :
    Decidable (∀ c ∈ chars, p c) :=
  List.decidableBAll p chars

/-- The code points that `str.isspace` accepts and `str.strip` removes. -/
def isPythonSpace (c : Char) : Bool :=
  let n := c.toNat
  (0x09 ≤ n && n ≤ 0x0d) || (0x1c ≤ n && n ≤ 0x20) || n == 0x85 || n == 0xa0 || n == 0x1680 ||
    (0x2000 ≤ n && n ≤ 0x200a) || n == 0x2028 || n == 0x2029 || n == 0x202f || n == 0x205f ||
    n == 0x3000

/-- Python's `bool(text.strip())`. -/
def stripNonEmpty (text : String) : Bool :=
  text.toList.any fun c => !isPythonSpace c

/-- The profile of the samples has a name. -/
theorem stripNonEmpty_profile : stripNonEmpty "profile" = true := by decide

/-- `tuple(dict.fromkeys(values))`: the values in the order of their first occurrence. -/
def uniqueValues : List String → List String
  | [] => []
  | value :: rest => value :: (uniqueValues rest).filter (· ≠ value)

/-- `text[:count]`. -/
def sliceTo (count : Nat) (text : String) : String :=
  String.ofList (text.toList.take count)

/-- The words of a character list; `word` is the reversed word being read. -/
def splitWords (word : List Char) : List Char → List (List Char)
  | [] => if word = [] then [] else [word.reverse]
  | c :: rest =>
      if isPythonSpace c then
        if word = [] then splitWords [] rest else word.reverse :: splitWords [] rest
      else splitWords (c :: word) rest

/-- `text.split()`. -/
def splitText (text : String) : List String :=
  (splitWords [] text.toList).map String.ofList

/-- `part in text`. -/
def containsText (part text : String) : Bool :=
  decide (part.toList <:+: text.toList)

/-- SQLite's `length(trim(text)) > 0`: `trim` removes only U+0020, and `length` counts the code
points before the first U+0000. -/
def trimNonEmpty (text : String) : Bool :=
  match text.toList.dropWhile (· == ' ') with
  | [] => false
  | c :: _ => c.toNat != 0

/-- The `CHECK` of a nullable text column. -/
def trimNonEmptyOrNull : Option String → Bool
  | none => true
  | some text => trimNonEmpty text

/-- One lowercase hexadecimal digit. -/
def hexDigit (n : Nat) : Char :=
  if n < 10 then Char.ofNat (0x30 + n) else Char.ofNat (0x57 + n)

/-- The characters `json.dumps(..., ensure_ascii=False)` writes for one character of a string. -/
def jsonEscape (c : Char) : List Char :=
  let n := c.toNat
  if n == 0x22 then ['\\', '"']
  else if n == 0x5c then ['\\', '\\']
  else if n == 0x08 then ['\\', 'b']
  else if n == 0x09 then ['\\', 't']
  else if n == 0x0a then ['\\', 'n']
  else if n == 0x0c then ['\\', 'f']
  else if n == 0x0d then ['\\', 'r']
  else if n < 0x20 then ['\\', 'u', '0', '0', hexDigit (n / 16), hexDigit (n % 16)]
  else [c]

/-- The JSON text of a string, quotes included. -/
def jsonString (text : String) : String :=
  String.ofList ('"' :: (Utf8.chars text).flatMap jsonEscape ++ ['"'])

/-- It escapes the characters of the string. -/
theorem jsonString_eq (text : String) :
    jsonString text = String.ofList ('"' :: text.toList.flatMap jsonEscape ++ ['"']) := by
  rw [jsonString, Utf8.chars_eq]

/-- A JSON array of texts that are JSON already. -/
def jsonArray (items : List String) : String :=
  "[" ++ ",".intercalate items ++ "]"

/-- The JSON text of an optional string. -/
def jsonOptionalString : Option String → String
  | none => "null"
  | some text => jsonString text

end AstrContinuum
