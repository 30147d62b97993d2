import AstrContinuum.Domain.Quoting

/-!
# Reading JSON

`json.loads` of a text: white space, the constants with `NaN` and the infinities, numbers, strings with
their escapes, arrays and objects, whose later members replace earlier ones. A string that is read may
hold half of a surrogate pair, so it is a list of code points. Texts that `json.dumps` writes compactly are
read as what was written (`Scans`).
-/

namespace AstrContinuum

namespace JsonText

/-- A value that was read. A float keeps its literal. -/
inductive Value
  | null
  | bool (value : Bool)
  | int (value : Int)
  | float (literal : List Char)
  | constant (name : String)
  | text (codePoints : List Nat)
  | array (items : List Value)
  | object (members : List (List Nat × Value))

/-- `sys.int_info.default_max_str_digits`: the most digits of an integer that is read or written. -/
def maxStrDigits : Nat := 4300

/-! ## White space and strings -/

/-- The rest of a text after its white space. -/
def skipSpace : List Char → List Char
  | [] => []
  | c :: rest =>
      if c = ' ' ∨ c = '\t' ∨ c = '\n' ∨ c = '\r' then skipSpace rest else c :: rest

/-- The value of a hexadecimal digit. -/
def hexDigitValue (c : Char) : Option Nat :=
  if '0' ≤ c ∧ c ≤ '9' then some (c.toNat - 0x30)
  else if 'a' ≤ c ∧ c ≤ 'f' then some (c.toNat - 0x57)
  else if 'A' ≤ c ∧ c ≤ 'F' then some (c.toNat - 0x37)
  else none

/-- The four digits of `\uXXXX`. -/
def scanUnit : List Char → Option (Nat × List Char)
  | a :: b :: c :: d :: rest => do
      let a ← hexDigitValue a
      let b ← hexDigitValue b
      let c ← hexDigitValue c
      let d ← hexDigitValue d
      pure (((a * 16 + b) * 16 + c) * 16 + d, rest)
  | _ => none

/-- The second half of a surrogate pair, which may be missing. -/
def scanPair (high : Nat) (rest : List Char) : Option (Nat × List Char) :=
  match rest with
  | '\\' :: 'u' :: digits => do
      let (low, after) ← scanUnit digits
      if 0xdc00 ≤ low ∧ low ≤ 0xdfff then
        pure (0x10000 + (high - 0xd800) * 0x400 + (low - 0xdc00), after)
      else pure (high, rest)
  | _ => some (high, rest)

/-- The code point of an escape. -/
def scanEscape : List Char → Option (Nat × List Char)
  | 'u' :: rest => do
      let (unit, rest) ← scanUnit rest
      if 0xd800 ≤ unit ∧ unit ≤ 0xdbff then scanPair unit rest else pure (unit, rest)
  | c :: rest =>
      if c = '"' ∨ c = '\\' ∨ c = '/' then some (c.toNat, rest)
      else if c = 'b' then some (0x08, rest)
      else if c = 'f' then some (0x0c, rest)
      else if c = 'n' then some (0x0a, rest)
      else if c = 'r' then some (0x0d, rest)
      else if c = 't' then some (0x09, rest)
      else none
  | [] => none

/-- A string after its opening quote. -/
def scanString : Nat → List Char → Option (List Nat × List Char)
  | 0, _ => none
  | _ + 1, [] => none
  | passes + 1, c :: rest =>
      if c = '"' then some ([], rest)
      else if c = '\\' then do
        let (codePoint, rest) ← scanEscape rest
        (scanString passes rest).map fun result => (codePoint :: result.1, result.2)
      else if c.toNat < 0x20 then none
      else (scanString passes rest).map fun result => (c.toNat :: result.1, result.2)

/-! ## Numbers and constants -/

/-- The fraction of a number; a point without digits does not belong to it. -/
def scanFraction (chars : List Char) : List Char × List Char :=
  match chars with
  | '.' :: rest =>
      if rest.takeWhile Char.isDigit = [] then ([], chars)
      else ('.' :: rest.takeWhile Char.isDigit, rest.dropWhile Char.isDigit)
  | _ => ([], chars)

/-- A sign, where there is one. -/
def scanSign (signs : List Char) : List Char → List Char × List Char
  | [] => ([], [])
  | c :: rest => if c ∈ signs then ([c], rest) else ([], c :: rest)

/-- The exponent of a number; a mark without digits does not belong to it. -/
def scanExponent (chars : List Char) : List Char × List Char :=
  match chars with
  | mark :: rest =>
      let (sign, digits) := scanSign ['+', '-'] rest
      if (mark = 'e' ∨ mark = 'E') ∧ digits.takeWhile Char.isDigit ≠ [] then
        (mark :: sign ++ digits.takeWhile Char.isDigit, digits.dropWhile Char.isDigit)
      else ([], chars)
  | [] => ([], [])

/-- The digits before the point; a zero stands alone. -/
def scanDigits (chars : List Char) : Option (List Char × List Char) :=
  match chars with
  | '0' :: rest => some (['0'], rest)
  | _ =>
      if chars.takeWhile Char.isDigit = [] then none
      else some (chars.takeWhile Char.isDigit, chars.dropWhile Char.isDigit)

/-- A number. An integer with too many digits is refused. -/
def scanNumber (chars : List Char) : Option (Value × List Char) := do
  let (minus, chars) := scanSign ['-'] chars
  let (digits, rest) ← scanDigits chars
  let (fraction, rest) := scanFraction rest
  let (exponent, rest) := scanExponent rest
  if fraction = [] ∧ exponent = [] then
    if maxStrDigits < digits.length then none
    else
      let value : Int := Nat.ofDigitChars 10 digits 0
      pure (.int (if minus = [] then value else -value), rest)
  else pure (.float (minus ++ digits ++ fraction ++ exponent), rest)

/-- The values that are written as a word. -/
def constants : List (String × Value) :=
  [("null", .null), ("true", .bool true), ("false", .bool false), ("NaN", .constant "NaN"),
    ("Infinity", .constant "Infinity"), ("-Infinity", .constant "-Infinity")]

/-- A word or a number. -/
def scanWord (chars : List Char) : Option (Value × List Char) :=
  match constants.find? fun entry => entry.1.toList.isPrefixOf chars with
  | some entry => some (entry.2, chars.drop entry.1.length)
  | none => scanNumber chars

/-! ## Arrays and objects -/

/-- `dict(pairs)`: a later value takes the place of an earlier one under its key. -/
def dictOf (pairs : List (List Nat × Value)) : List (List Nat × Value) :=
  pairs.foldl (fun members pair =>
    if members.any fun member => member.1 = pair.1 then
      members.map fun member => if member.1 = pair.1 then pair else member
    else members ++ [pair]) []

/-- A key with its colon, up to its value. -/
def scanKey : List Char → Option (List Nat × List Char)
  | '"' :: rest => do
      let (key, rest) ← scanString (rest.length + 1) rest
      match skipSpace rest with
      | ':' :: rest => pure (key, skipSpace rest)
      | _ => none
  | _ => none

/-- What follows an opening bracket: its closing one, or a first element. -/
def scanOpened {α : Type} (close : Char) (empty : α) (scan : List Char → Option (α × List Char))
    (chars : List Char) : Option (α × List Char) :=
  match skipSpace chars with
  | [] => none
  | c :: rest => if c = close then some (empty, rest) else scan (c :: rest)

/-- What follows an element: the closing bracket, or a comma and more elements. -/
def scanAfter {α : Type} (close : Char) (last : α) (scan : List Char → Option (α × List Char))
    (chars : List Char) : Option (α × List Char) :=
  match skipSpace chars with
  | [] => none
  | c :: rest =>
      if c = close then some (last, rest)
      else if c = ',' then scan (skipSpace rest)
      else none

mutual

/-- `scan_once`. -/
def scanValue : Nat → List Char → Option (Value × List Char)
  | 0, _ => none
  | _ + 1, [] => none
  | passes + 1, c :: rest =>
      if c = '"' then
        (scanString (rest.length + 1) rest).map fun result => (.text result.1, result.2)
      else if c = '[' then
        (scanOpened ']' [] (scanItems passes) rest).map fun result => (.array result.1, result.2)
      else if c = '\x7b' then
        (scanOpened '\x7d' [] (scanMembers passes) rest).map fun result =>
          (.object (dictOf result.1), result.2)
      else scanWord (c :: rest)

/-- The items of an array from a value on, up to its bracket. -/
def scanItems : Nat → List Char → Option (List Value × List Char)
  | 0, _ => none
  | passes + 1, chars => do
      let (value, rest) ← scanValue passes chars
      scanAfter ']' [value]
        (fun rest => (scanItems passes rest).map fun result => (value :: result.1, result.2)) rest

/-- The members of an object from a key on, up to its brace. -/
def scanMembers : Nat → List Char → Option (List (List Nat × Value) × List Char)
  | 0, _ => none
  | passes + 1, chars => do
      let (key, rest) ← scanKey chars
      let (value, rest) ← scanValue passes rest
      scanAfter '\x7d' [(key, value)]
        (fun rest => (scanMembers passes rest).map fun result =>
          ((key, value) :: result.1, result.2)) rest

end

/-- `json.loads`. A text that starts with a byte order mark is refused. Every two passes read a character,
so they do not run out. -/
def loads (text : String) : Option Value :=
  let chars := Utf8.chars text
  if chars.head? = some '\ufeff' then none
  else
    match scanValue (2 * chars.length + 2) (skipSpace chars) with
    | some (value, rest) => if skipSpace rest = [] then some value else none
    | none => none

/-! ## Every pass reads a character -/

/-- White space may be skipped. -/
theorem skipSpace_le (chars : List Char) : (skipSpace chars).length ≤ chars.length := by
  induction chars with
  | nil => exact Nat.le_refl _
  | cons c rest ih =>
      unfold skipSpace
      split
      · exact ih.trans (Nat.le_succ _)
      · exact Nat.le_refl _

/-- Four digits are read. -/
theorem scanUnit_lt {chars rest : List Char} {unit : Nat} (h : scanUnit chars = some (unit, rest)) :
    rest.length < chars.length := by
  unfold scanUnit at h
  split at h
  · simp only [Option.bind_eq_bind, Option.bind_eq_some_iff] at h
    obtain ⟨_, _, _, _, _, _, _, _, h⟩ := h
    obtain ⟨_, rfl⟩ := Prod.mk.inj (Option.some.inj h)
    simp only [List.length_cons]
    omega
  · cases h

/-- A half of a pair may be read. -/
theorem scanPair_le {high codePoint : Nat} {chars rest : List Char}
    (h : scanPair high chars = some (codePoint, rest)) : rest.length ≤ chars.length := by
  unfold scanPair at h
  split at h
  · obtain ⟨⟨low, after⟩, hunit, h⟩ := Option.bind_eq_some_iff.mp h
    have hlt := scanUnit_lt hunit
    dsimp only at h
    split at h
    · obtain ⟨_, rfl⟩ := Prod.mk.inj (Option.some.inj h)
      simp only [List.length_cons]
      omega
    · obtain ⟨_, rfl⟩ := Prod.mk.inj (Option.some.inj h)
      exact Nat.le_refl _
  · obtain ⟨_, rfl⟩ := Prod.mk.inj (Option.some.inj h)
    exact Nat.le_refl _

/-- An escape is read. -/
theorem scanEscape_lt {chars rest : List Char} {codePoint : Nat}
    (h : scanEscape chars = some (codePoint, rest)) : rest.length < chars.length := by
  unfold scanEscape at h
  split at h
  · obtain ⟨⟨unit, after⟩, hunit, h⟩ := Option.bind_eq_some_iff.mp h
    have hlt := scanUnit_lt hunit
    dsimp only at h
    split at h
    · have hle := scanPair_le h
      simp only [List.length_cons]
      omega
    · obtain ⟨_, rfl⟩ := Prod.mk.inj (Option.some.inj h)
      exact Nat.lt_succ_of_lt hlt
  · split_ifs at h
    all_goals
      obtain ⟨_, rfl⟩ := Prod.mk.inj (Option.some.inj h)
      exact Nat.lt_succ_self _
  · cases h

/-- A string is read up to its closing quote. -/
theorem scanString_lt {passes : Nat} {chars rest : List Char} {codePoints : List Nat}
    (h : scanString passes chars = some (codePoints, rest)) : rest.length < chars.length := by
  induction passes generalizing chars codePoints with
  | zero => cases h
  | succ passes ih =>
      cases chars with
      | nil => cases h
      | cons c chars =>
          unfold scanString at h
          split_ifs at h with hquote hslash hcontrol
          · obtain ⟨_, rfl⟩ := Prod.mk.inj (Option.some.inj h)
            exact Nat.lt_succ_self _
          · obtain ⟨⟨codePoint, after⟩, hescape, h⟩ := Option.bind_eq_some_iff.mp h
            obtain ⟨result, hstring, h⟩ := Option.map_eq_some_iff.mp h
            obtain ⟨_, rfl⟩ := Prod.mk.inj h
            exact ((ih hstring).trans (scanEscape_lt hescape)).trans (Nat.lt_succ_self _)
          · obtain ⟨result, hstring, h⟩ := Option.map_eq_some_iff.mp h
            obtain ⟨_, rfl⟩ := Prod.mk.inj h
            exact (ih hstring).trans (Nat.lt_succ_self _)

/-- A fraction may be read. -/
theorem scanFraction_le (chars : List Char) : (scanFraction chars).2.length ≤ chars.length := by
  unfold scanFraction
  split
  · rename_i rest
    split
    · exact Nat.le_refl _
    · exact (List.dropWhile_suffix _).length_le.trans (Nat.le_succ _)
  · exact Nat.le_refl _

/-- A sign may be read. -/
theorem scanSign_le (signs chars : List Char) : (scanSign signs chars).2.length ≤ chars.length := by
  cases chars with
  | nil => exact Nat.le_refl _
  | cons c rest =>
      by_cases hsign : c ∈ signs
      · rw [scanSign, if_pos hsign]
        exact Nat.le_succ _
      · rw [scanSign, if_neg hsign]

/-- An exponent may be read. -/
theorem scanExponent_le (chars : List Char) : (scanExponent chars).2.length ≤ chars.length := by
  unfold scanExponent
  split
  · rename_i mark rest
    have hsign := scanSign_le ['+', '-'] rest
    dsimp only
    split
    · exact ((List.dropWhile_suffix _).length_le.trans hsign).trans (Nat.le_succ _)
    · exact Nat.le_refl _
  · exact Nat.le_refl _

/-- A digit is read at least. -/
theorem scanDigits_lt {chars digits rest : List Char} (h : scanDigits chars = some (digits, rest)) :
    rest.length < chars.length := by
  unfold scanDigits at h
  split at h
  · obtain ⟨_, rfl⟩ := Prod.mk.inj (Option.some.inj h)
    exact Nat.lt_succ_self _
  · split at h
    · cases h
    · rename_i hdigits
      obtain ⟨_, rfl⟩ := Prod.mk.inj (Option.some.inj h)
      have hsplit := congrArg List.length (List.takeWhile_append_dropWhile (p := Char.isDigit)
        (l := chars))
      rw [List.length_append] at hsplit
      have hpos := List.length_pos_iff.mpr hdigits
      omega

/-- A number is read. -/
theorem scanNumber_lt {chars rest : List Char} {value : Value}
    (h : scanNumber chars = some (value, rest)) : rest.length < chars.length := by
  unfold scanNumber at h
  have hsign := scanSign_le ['-'] chars
  generalize scanSign ['-'] chars = signed at h hsign
  obtain ⟨minus, unsigned⟩ := signed
  obtain ⟨⟨digits, after⟩, hdigits, h⟩ := Option.bind_eq_some_iff.mp h
  have hlt := scanDigits_lt hdigits
  have hfraction := scanFraction_le after
  have hexponent := scanExponent_le (scanFraction after).2
  dsimp only at h hlt hsign
  split at h
  · split at h
    · cases h
    · obtain ⟨_, rfl⟩ := Prod.mk.inj (Option.some.inj h)
      omega
  · obtain ⟨_, rfl⟩ := Prod.mk.inj (Option.some.inj h)
    omega

/-- A word or a number is read. -/
theorem scanWord_lt {chars rest : List Char} {value : Value}
    (h : scanWord chars = some (value, rest)) : rest.length < chars.length := by
  unfold scanWord at h
  split at h
  · rename_i entry hentry
    obtain ⟨_, rfl⟩ := Prod.mk.inj (Option.some.inj h)
    have hprefix := List.isPrefixOf_iff_prefix.mp (List.find?_some hentry :)
    have hword : 0 < entry.1.length := by
      have hall : ∀ entry ∈ constants.map Prod.fst, 0 < entry.length := by decide
      exact hall _ (List.mem_map_of_mem (List.mem_of_find?_eq_some hentry))
    have hle := hprefix.length_le
    rw [String.length_toList] at hle
    rw [List.length_drop]
    omega
  · exact scanNumber_lt h

/-- A key is read with its colon. -/
theorem scanKey_lt {chars rest : List Char} {key : List Nat} (h : scanKey chars = some (key, rest)) :
    rest.length < chars.length := by
  unfold scanKey at h
  split at h
  · obtain ⟨⟨codePoints, after⟩, hstring, h⟩ := Option.bind_eq_some_iff.mp h
    have hlt := scanString_lt hstring
    have hspace := skipSpace_le after
    dsimp only at h
    split at h
    · rename_i last hcolon
      obtain ⟨_, rfl⟩ := Prod.mk.inj (Option.some.inj h)
      have hvalue := skipSpace_le last
      rw [hcolon] at hspace
      simp only [List.length_cons] at hspace ⊢
      omega
    · cases h
  · cases h

/-- An opened bracket is read up to its closing one. -/
theorem scanOpened_lt {α : Type} {close : Char} {empty value : α}
    {scan : List Char → Option (α × List Char)} {chars rest : List Char}
    (hscan : ∀ {chars rest value}, scan chars = some (value, rest) → rest.length < chars.length)
    (h : scanOpened close empty scan chars = some (value, rest)) : rest.length < chars.length := by
  have hspace := skipSpace_le chars
  unfold scanOpened at h
  generalize skipSpace chars = next at h hspace
  cases next with
  | nil => cases h
  | cons c next =>
      dsimp only at h
      split at h
      · obtain ⟨_, rfl⟩ := Prod.mk.inj (Option.some.inj h)
        exact hspace
      · exact (hscan h).trans_le hspace

/-- What follows an element is read up to the closing bracket. -/
theorem scanAfter_lt {α : Type} {close : Char} {last value : α}
    {scan : List Char → Option (α × List Char)} {chars rest : List Char}
    (hscan : ∀ {chars rest value}, scan chars = some (value, rest) → rest.length < chars.length)
    (h : scanAfter close last scan chars = some (value, rest)) : rest.length < chars.length := by
  have hspace := skipSpace_le chars
  unfold scanAfter at h
  generalize skipSpace chars = next at h hspace
  cases next with
  | nil => cases h
  | cons c next =>
      have hnext := skipSpace_le next
      dsimp only at h
      split_ifs at h
      · obtain ⟨_, rfl⟩ := Prod.mk.inj (Option.some.inj h)
        exact hspace
      · exact ((hscan h).trans_le hnext).trans hspace

/-- A value, the items of an array and the members of an object are read. -/
theorem scan_lt (passes : Nat) :
    (∀ {chars rest value}, scanValue passes chars = some (value, rest) →
      rest.length < chars.length) ∧
    (∀ {chars rest values}, scanItems passes chars = some (values, rest) →
      rest.length < chars.length) ∧
    ∀ {chars rest members}, scanMembers passes chars = some (members, rest) →
      rest.length < chars.length := by
  induction passes with
  | zero => exact ⟨fun h => (nomatch h), fun h => (nomatch h), fun h => (nomatch h)⟩
  | succ passes ih =>
      obtain ⟨ihValue, ihItems, ihMembers⟩ := ih
      refine ⟨fun {chars last value} h => ?_, fun {chars last values} h => ?_,
        fun {chars last members} h => ?_⟩
      · cases chars with
        | nil => cases h
        | cons c rest =>
            unfold scanValue at h
            split_ifs at h
            · obtain ⟨result, hstring, h⟩ := Option.map_eq_some_iff.mp h
              obtain ⟨_, rfl⟩ := Prod.mk.inj h
              exact (scanString_lt hstring).trans (Nat.lt_succ_self _)
            · obtain ⟨result, hitems, h⟩ := Option.map_eq_some_iff.mp h
              obtain ⟨_, rfl⟩ := Prod.mk.inj h
              exact (scanOpened_lt ihItems hitems).trans (Nat.lt_succ_self _)
            · obtain ⟨result, hmembers, h⟩ := Option.map_eq_some_iff.mp h
              obtain ⟨_, rfl⟩ := Prod.mk.inj h
              exact (scanOpened_lt ihMembers hmembers).trans (Nat.lt_succ_self _)
            · exact scanWord_lt h
      · unfold scanItems at h
        obtain ⟨⟨value, after⟩, hvalue, h⟩ := Option.bind_eq_some_iff.mp h
        refine (scanAfter_lt (fun {chars rest values} hmore => ?_) h).trans (ihValue hvalue)
        obtain ⟨result, hitems, hresult⟩ := Option.map_eq_some_iff.mp hmore
        obtain ⟨_, rfl⟩ := Prod.mk.inj hresult
        exact ihItems hitems
      · unfold scanMembers at h
        obtain ⟨⟨key, colon⟩, hkey, h⟩ := Option.bind_eq_some_iff.mp h
        obtain ⟨⟨value, after⟩, hvalue, h⟩ := Option.bind_eq_some_iff.mp h
        refine (scanAfter_lt (fun {chars rest members} hmore => ?_) h).trans
          ((ihValue hvalue).trans (scanKey_lt hkey))
        obtain ⟨result, hmembers, hresult⟩ := Option.map_eq_some_iff.mp hmore
        obtain ⟨_, rfl⟩ := Prod.mk.inj hresult
        exact ihMembers hmembers

/-- Two scans of the elements that agree on shorter texts make no difference. -/
theorem scanOpened_congr {α : Type} {close : Char} {empty : α}
    {scan other : List Char → Option (α × List Char)} {chars : List Char}
    (h : ∀ next, next.length ≤ chars.length → scan next = other next) :
    scanOpened close empty scan chars = scanOpened close empty other chars := by
  have hspace := skipSpace_le chars
  unfold scanOpened
  generalize skipSpace chars = next at hspace
  cases next with
  | nil => rfl
  | cons c next => simp only [h _ hspace]

/-- Two scans of more elements that agree on shorter texts make no difference. -/
theorem scanAfter_congr {α : Type} {close : Char} {last : α}
    {scan other : List Char → Option (α × List Char)} {chars : List Char}
    (h : ∀ next, next.length < chars.length → scan next = other next) :
    scanAfter close last scan chars = scanAfter close last other chars := by
  have hspace := skipSpace_le chars
  unfold scanAfter
  generalize skipSpace chars = next at hspace
  cases next with
  | nil => rfl
  | cons c next =>
      have hnext := skipSpace_le next
      simp only [List.length_cons] at hspace
      simp only [h (skipSpace next) (by omega)]

/-- Two passes for each character are enough: with more, the same is read. -/
theorem scan_passes (passes : Nat) :
    (∀ (others : Nat) (chars : List Char), 2 * chars.length + 1 ≤ passes →
      2 * chars.length + 1 ≤ others → scanValue passes chars = scanValue others chars) ∧
    (∀ (others : Nat) (chars : List Char), 2 * chars.length + 2 ≤ passes →
      2 * chars.length + 2 ≤ others → scanItems passes chars = scanItems others chars) ∧
    ∀ (others : Nat) (chars : List Char), 2 * chars.length + 2 ≤ passes →
      2 * chars.length + 2 ≤ others → scanMembers passes chars = scanMembers others chars := by
  induction passes with
  | zero =>
      exact ⟨fun _ _ h => absurd h (by omega), fun _ _ h => absurd h (by omega),
        fun _ _ h => absurd h (by omega)⟩
  | succ passes ih =>
      obtain ⟨ihValue, ihItems, ihMembers⟩ := ih
      refine ⟨fun others chars h hothers => ?_, fun others chars h hothers => ?_,
        fun others chars h hothers => ?_⟩
      · obtain ⟨others, rfl⟩ : ∃ n, others = n + 1 := ⟨others - 1, by omega⟩
        cases chars with
        | nil => rfl
        | cons c rest =>
            simp only [List.length_cons] at h hothers
            have hitems : scanOpened ']' [] (scanItems passes) rest =
                scanOpened ']' [] (scanItems others) rest :=
              scanOpened_congr fun next hnext => ihItems others next (by omega) (by omega)
            have hmembers : scanOpened '\x7d' [] (scanMembers passes) rest =
                scanOpened '\x7d' [] (scanMembers others) rest :=
              scanOpened_congr fun next hnext => ihMembers others next (by omega) (by omega)
            unfold scanValue
            rw [hitems, hmembers]
      · obtain ⟨others, rfl⟩ : ∃ n, others = n + 1 := ⟨others - 1, by omega⟩
        unfold scanItems
        rw [ihValue others chars (by omega) (by omega)]
        refine Option.bind_congr fun ⟨value, rest⟩ hvalue => scanAfter_congr fun next hnext => ?_
        have hlt := (scan_lt others).1 hvalue
        have hshort : next.length < rest.length := hnext
        rw [ihItems others next (by omega) (by omega)]
      · obtain ⟨others, rfl⟩ : ∃ n, others = n + 1 := ⟨others - 1, by omega⟩
        unfold scanMembers
        refine Option.bind_congr fun ⟨key, colon⟩ hkey => ?_
        have hcolon := scanKey_lt hkey
        dsimp only
        rw [ihValue others colon (by omega) (by omega)]
        refine Option.bind_congr fun ⟨value, rest⟩ hvalue => scanAfter_congr fun next hnext => ?_
        have hlt := (scan_lt others).1 hvalue
        have hshort : next.length < rest.length := hnext
        rw [ihMembers others next (by omega) (by omega)]

/-- `loads` reads with any number of passes that is large enough. -/
theorem loads_passes (text : String) {passes : Nat} (h : 2 * text.length + 2 ≤ passes) :
    scanValue (2 * text.length + 2) (skipSpace text.toList) =
      scanValue passes (skipSpace text.toList) := by
  have hspace := skipSpace_le text.toList
  rw [String.length_toList] at hspace
  exact (scan_passes _).1 passes _ (by omega) (by omega)

/-! ## Written texts -/

/-- The code points of a text. -/
def codePoints (text : String) : List Nat :=
  text.toList.map Char.toNat

/-- The text with some code points, unless half of a surrogate pair is among them. -/
def textOf (points : List Nat) : Option String :=
  if ∀ n ∈ points, n.isValidChar then some (String.ofList (points.map Char.ofNat)) else none

/-- The text with the code points of a text. -/
theorem textOf_codePoints (text : String) : textOf (codePoints text) = some text := by
  have hvalid : ∀ n ∈ codePoints text, n.isValidChar := by
    intro n hn
    obtain ⟨c, _, rfl⟩ := List.mem_map.mp hn
    exact c.valid
  have hpoints : (codePoints text).map Char.ofNat = text.toList := by
    rw [codePoints, List.map_map, show Char.ofNat ∘ Char.toNat = id from funext Char.ofNat_toNat,
      List.map_id]
  rw [textOf, if_pos hvalid, hpoints, String.ofList_toList]

/-- Where a value ends. -/
def Closes (rest : List Char) : Prop :=
  ∀ c ∈ rest.head?, c = ',' ∨ c = ']' ∨ c = '\x7d'

/-- A text that starts like a value and is read as one, up to where it ends. -/
structure Scans (text : List Char) (value : Value) : Prop where
  start : ∃ c tail, text = c :: tail ∧ c ∉ [' ', '\t', '\n', '\r', ']', '\ufeff']
  scan : ∀ (passes : Nat) (rest : List Char), 2 * text.length + 1 ≤ passes → Closes rest →
    scanValue passes (text ++ rest) = some (value, rest)

/-- No white space stands before a value. -/
theorem skipSpace_cons {c : Char} (h : c ∉ [' ', '\t', '\n', '\r']) (rest : List Char) :
    skipSpace (c :: rest) = c :: rest := by
  simp only [List.mem_cons, List.not_mem_nil, or_false, not_or] at h
  unfold skipSpace
  rw [if_neg]
  rintro (hc | hc | hc | hc)
  · exact h.1 hc
  · exact h.2.1 hc
  · exact h.2.2.1 hc
  · exact h.2.2.2 hc

/-- An escape that `json.dumps` writes is read back. -/
theorem scanString_jsonEscape (passes : Nat) (c : Char) (rest : List Char) :
    scanString (passes + 1) (jsonEscape c ++ rest) =
      (scanString passes rest).map fun result => (c.toNat :: result.1, result.2) := by
  have hescaped {tail : List Char} (hescape : scanEscape tail = some (c.toNat, rest)) :
      scanString (passes + 1) ('\\' :: tail) =
        (scanString passes rest).map fun result => (c.toNat :: result.1, result.2) := by
    rw [scanString, if_neg (by decide), if_pos rfl, hescape]
    rfl
  unfold jsonEscape
  simp only [beq_iff_eq]
  split_ifs with hquote hslash hbackspace htab hline hfeed hreturn hcontrol
  · exact hescaped (by rw [hquote]; rfl)
  · exact hescaped (by rw [hslash]; rfl)
  · exact hescaped (by rw [hbackspace]; rfl)
  · exact hescaped (by rw [htab]; rfl)
  · exact hescaped (by rw [hline]; rfl)
  · exact hescaped (by rw [hfeed]; rfl)
  · exact hescaped (by rw [hreturn]; rfl)
  · -- a control character has two digits that are not zero
    refine hescaped ?_
    have hdigits : ∀ n < 0x20, hexDigitValue (hexDigit (n / 16)) = some (n / 16) ∧
        hexDigitValue (hexDigit (n % 16)) = some (n % 16) := by decide
    have hzero : hexDigitValue '0' = some 0 := by decide
    obtain ⟨hhigh, hlow⟩ := hdigits _ hcontrol
    have hunit : scanUnit ('0' :: '0' :: hexDigit (c.toNat / 16) :: hexDigit (c.toNat % 16) :: rest) =
        some (c.toNat, rest) := by
      simp only [scanUnit, hzero, hhigh, hlow, Option.bind_eq_bind, Option.bind_some, Option.pure_def]
      rw [show ((0 * 16 + 0) * 16 + c.toNat / 16) * 16 + c.toNat % 16 = c.toNat by omega]
    show (scanUnit ('0' :: '0' :: hexDigit (c.toNat / 16) :: hexDigit (c.toNat % 16) :: rest)).bind
      _ = _
    rw [hunit]
    exact if_neg (by omega)
  · -- every other character stands for itself
    have hne : c ≠ '"' := fun hc => hquote (congrArg Char.toNat hc)
    have hnot : c ≠ '\\' := fun hc => hslash (congrArg Char.toNat hc)
    rw [List.singleton_append]
    rw [scanString, if_neg hne, if_neg hnot, if_neg hcontrol]

/-- The inside of a string is read up to its quote. -/
theorem scanString_escaped (chars rest : List Char) {passes : Nat} (h : chars.length < passes) :
    scanString passes (chars.flatMap jsonEscape ++ '"' :: rest) =
      some (chars.map Char.toNat, rest) := by
  induction chars generalizing passes with
  | nil =>
      obtain ⟨passes, rfl⟩ : ∃ n, passes = n + 1 := ⟨passes - 1, by omega⟩
      rfl
  | cons c chars ih =>
      obtain ⟨passes, rfl⟩ : ∃ n, passes = n + 1 := ⟨passes - 1, by omega⟩
      simp only [List.length_cons] at h
      rw [List.flatMap_cons, List.append_assoc, scanString_jsonEscape, ih (by omega)]
      rfl

/-- Escaping does not shorten. -/
theorem length_le_escaped (chars : List Char) : chars.length ≤ (chars.flatMap jsonEscape).length := by
  have hone (c : Char) : 1 ≤ (jsonEscape c).length := by
    unfold jsonEscape
    dsimp only
    repeat' split
    all_goals exact Nat.succ_le_succ (Nat.zero_le _)
  induction chars with
  | nil => exact Nat.le_refl _
  | cons c chars ih =>
      have hc := hone c
      rw [List.flatMap_cons, List.length_append, List.length_cons]
      omega

/-- A written string is read. -/
theorem scans_string (text : String) : Scans (jsonString text).toList (.text (codePoints text)) where
  start := ⟨'"', _, by rw [jsonString_eq, String.toList_ofList]; rfl, by decide⟩
  scan := by
    intro passes rest hpasses _
    obtain ⟨passes, rfl⟩ : ∃ n, passes = n + 1 := ⟨passes - 1, by omega⟩
    have hlength := length_le_escaped text.toList
    have htext : (jsonString text).toList ++ rest =
        '"' :: (text.toList.flatMap jsonEscape ++ '"' :: rest) := by
      rw [jsonString_eq, String.toList_ofList, List.append_assoc, List.cons_append]
      rfl
    rw [htext, scanValue, if_pos rfl, scanString_escaped _ _ (by
      rw [List.length_append]
      omega)]
    rfl

/-- A number starts with a zero only where it is zero. -/
theorem toDigits_head {n : Nat} (h : 0 < n) : (Nat.toDigits 10 n).head? ≠ some '0' := by
  induction n using Nat.strongRecOn with
  | ind n ih =>
      by_cases hsmall : n < 10
      · rw [Nat.toDigits_of_lt_base hsmall]
        have hall : ∀ n < 10, 0 < n → [n.digitChar].head? ≠ some '0' := by decide
        exact hall n hsmall h
      · rw [Nat.toDigits_of_base_le (by decide) (Nat.le_of_not_lt hsmall),
          List.head?_append_of_ne_nil _ Nat.toDigits_ne_nil]
        exact ih (n / 10) (by omega) (by omega)

/-- The digits of a number are read. -/
theorem scanDigits_toDigits (n : Nat) {rest : List Char}
    (hrest : ∀ c ∈ rest.head?, c.isDigit = false) :
    scanDigits (Nat.toDigits 10 n ++ rest) = some (Nat.toDigits 10 n, rest) := by
  have hdigits : ∀ c ∈ Nat.toDigits 10 n, c.isDigit = true :=
    fun c hc => Nat.isDigit_of_mem_toDigits (by decide) (by decide) hc
  have htake : (Nat.toDigits 10 n ++ rest).takeWhile Char.isDigit = Nat.toDigits 10 n := by
    rw [List.takeWhile_append_of_pos hdigits]
    cases rest with
    | nil => rw [List.takeWhile_nil, List.append_nil]
    | cons c rest =>
        rw [List.takeWhile_cons_of_neg (by rw [hrest c rfl]; decide), List.append_nil]
  have hdrop : (Nat.toDigits 10 n ++ rest).dropWhile Char.isDigit = rest := by
    rw [List.dropWhile_append_of_pos hdigits]
    cases rest with
    | nil => rfl
    | cons c rest => rw [List.dropWhile_cons_of_neg (by rw [hrest c rfl]; decide)]
  rcases Nat.eq_zero_or_pos n with rfl | hpos
  · rfl
  · unfold scanDigits
    split
    · rename_i tail hzero
      have hhead := toDigits_head hpos
      obtain ⟨c, digits, hcons⟩ := List.exists_cons_of_ne_nil (Nat.toDigits_ne_nil (n := n) (b := 10))
      rw [hcons, List.cons_append] at hzero
      rw [hcons, (List.cons.inj hzero).1] at hhead
      exact absurd rfl hhead
    · rw [htake, hdrop, if_neg Nat.toDigits_ne_nil]

/-- A digit is neither a mark that ends a value nor one that starts a word. -/
theorem ne_of_isDigit {c : Char} (h : c.isDigit = true) {mark : Char} (hmark : mark.isDigit = false) :
    c ≠ mark := by
  rintro rfl
  exact Bool.false_ne_true (hmark.symm.trans h)

/-- An exponent starts with its mark. -/
theorem scanExponent_cons {mark : Char} (h : mark ≠ 'e') (h' : mark ≠ 'E') (rest : List Char) :
    scanExponent (mark :: rest) = ([], mark :: rest) := by
  unfold scanExponent
  exact if_neg fun hmark => hmark.1.elim h h'

/-- After a number stands neither a fraction nor an exponent. -/
theorem Closes.scan_rest {rest : List Char} (h : Closes rest) :
    (∀ c ∈ rest.head?, c.isDigit = false) ∧ scanFraction rest = ([], rest) ∧
      scanExponent rest = ([], rest) := by
  cases rest with
  | nil => exact ⟨fun _ hc => (nomatch hc), rfl, rfl⟩
  | cons c rest =>
      rcases h c rfl with rfl | rfl | rfl
      · exact ⟨by rintro c ⟨⟩; rfl, rfl, scanExponent_cons (by decide) (by decide) rest⟩
      · exact ⟨by rintro c ⟨⟩; rfl, rfl, scanExponent_cons (by decide) (by decide) rest⟩
      · exact ⟨by rintro c ⟨⟩; rfl, rfl, scanExponent_cons (by decide) (by decide) rest⟩

/-- The digits of a number are a number. -/
theorem scanNumber_toDigits {n : Nat} (h : (Nat.toDigits 10 n).length ≤ maxStrDigits)
    {rest : List Char} (hrest : Closes rest) :
    scanNumber (Nat.toDigits 10 n ++ rest) = some (.int n, rest) := by
  obtain ⟨hdigit, hfraction, hexponent⟩ := hrest.scan_rest
  have hscan := scanDigits_toDigits n hdigit
  have hvalue : Nat.ofDigitChars 10 (Nat.toDigits 10 n) 0 = n := Nat.ofDigitChars_ten_toDigits
  obtain ⟨c, digits, hcons⟩ := List.exists_cons_of_ne_nil (Nat.toDigits_ne_nil (n := n) (b := 10))
  have hc : c.isDigit = true :=
    Nat.isDigit_of_mem_toDigits (by decide) (by decide) (hcons ▸ List.mem_cons_self)
  have hsign : scanSign ['-'] (Nat.toDigits 10 n ++ rest) = ([], Nat.toDigits 10 n ++ rest) := by
    rw [hcons, List.cons_append, scanSign, if_neg]
    exact fun hmark => ne_of_isDigit hc (by decide) (List.mem_singleton.mp hmark)
  unfold scanNumber
  simp only [hsign, hscan, hfraction, hexponent, Option.bind_eq_bind, Option.bind_some, and_self,
    if_true, if_neg (Nat.not_lt_of_le h), hvalue]
  rfl

/-- A written number is read, unless it has too many digits. -/
theorem scans_nat {n : Nat} (h : (toString n).length ≤ maxStrDigits) :
    Scans (toString n).toList (.int n) := by
  have htext : (toString n).toList = Nat.toDigits 10 n := Nat.toList_repr
  rw [← String.length_toList, htext] at h
  obtain ⟨c, digits, hcons⟩ := List.exists_cons_of_ne_nil (Nat.toDigits_ne_nil (n := n) (b := 10))
  have hc : c.isDigit = true :=
    Nat.isDigit_of_mem_toDigits (by decide) (by decide) (hcons ▸ List.mem_cons_self)
  rw [htext]
  refine ⟨⟨c, digits, hcons, fun hspace => ?_⟩, fun passes rest hpasses hrest => ?_⟩
  · have hall : ∀ c ∈ [' ', '\t', '\n', '\r', ']', '\ufeff'], c.isDigit = false := by decide
    exact ne_of_isDigit hc (hall c hspace) rfl
  · obtain ⟨passes, rfl⟩ : ∃ n, passes = n + 1 := ⟨passes - 1, by omega⟩
    -- no word starts with a digit
    have hword : (constants.find? fun entry =>
        entry.1.toList.isPrefixOf (Nat.toDigits 10 n ++ rest)) = none := by
      have hall : ∀ entry ∈ constants, ∃ mark tail, entry.1.toList = mark :: tail ∧
          mark.isDigit = false := by
        simp only [constants, List.forall_mem_cons]
        exact ⟨⟨'n', _, rfl, rfl⟩, ⟨'t', _, rfl, rfl⟩, ⟨'f', _, rfl, rfl⟩, ⟨'N', _, rfl, rfl⟩,
          ⟨'I', _, rfl, rfl⟩, ⟨'-', _, rfl, rfl⟩, fun _ hentry => nomatch hentry⟩
      refine List.find?_eq_none.mpr fun entry hentry hprefix => ?_
      obtain ⟨mark, tail, htext, hmark⟩ := hall entry hentry
      rw [htext, hcons, List.cons_append, List.isPrefixOf_cons_cons, Bool.and_eq_true] at hprefix
      exact ne_of_isDigit hc hmark (beq_iff_eq.mp hprefix.1).symm
    have hnumber := scanNumber_toDigits h hrest
    rw [hcons, List.cons_append] at hword hnumber ⊢
    rw [scanValue, if_neg (ne_of_isDigit hc (by decide)), if_neg (ne_of_isDigit hc (by decide)),
      if_neg (ne_of_isDigit hc (by decide)), scanWord, hword]
    exact hnumber

/-! ## Written arrays and objects -/

/-- The text of a value is read where it stands. -/
theorem Scans.skipSpace {text : List Char} {value : Value} (h : Scans text value)
    (rest : List Char) : skipSpace (text ++ rest) = text ++ rest := by
  obtain ⟨c, tail, rfl, hc⟩ := h.start
  exact skipSpace_cons (fun hspace => hc (by
    simp only [List.mem_cons, List.not_mem_nil, or_false] at hspace ⊢
    tauto)) _

/-- The closing bracket ends the elements. -/
theorem scanAfter_close {α : Type} (close : Char) (hclose : close ∉ [' ', '\t', '\n', '\r'])
    (last : α) (scan : List Char → Option (α × List Char)) (rest : List Char) :
    scanAfter close last scan (close :: rest) = some (last, rest) := by
  unfold scanAfter
  rw [skipSpace_cons hclose]
  exact if_pos rfl

/-- A comma and the text of a value go on with this value. -/
theorem scanAfter_comma {α : Type} (close : Char) (hclose : ',' ≠ close) (last : α)
    (scan : List Char → Option (α × List Char)) {rest : List Char}
    (hrest : skipSpace rest = rest) :
    scanAfter close last scan (',' :: rest) = scan rest := by
  unfold scanAfter
  rw [skipSpace_cons (by decide)]
  dsimp only
  rw [if_neg hclose, if_pos rfl, hrest]

/-- The items from a value on. -/
theorem scanItems_of {passes : Nat} {chars rest : List Char} {value : Value}
    (h : scanValue passes chars = some (value, rest)) :
    scanItems (passes + 1) chars = scanAfter ']' [value]
      (fun rest => (scanItems passes rest).map fun result => (value :: result.1, result.2)) rest := by
  rw [scanItems, h]
  rfl

/-- The members from a key and its value on. -/
theorem scanMembers_of {passes : Nat} {chars colon rest : List Char} {key : List Nat} {value : Value}
    (hkey : scanKey chars = some (key, colon)) (h : scanValue passes colon = some (value, rest)) :
    scanMembers (passes + 1) chars = scanAfter '\x7d' [(key, value)]
      (fun rest => (scanMembers passes rest).map fun result =>
        ((key, value) :: result.1, result.2)) rest := by
  rw [scanMembers, hkey]
  show (scanValue passes colon).bind _ = _
  rw [h]
  rfl

/-- Texts with commas between them start with the first one. -/
theorem intercalate_start (text : String) (texts : List String) :
    ∃ tail, (",".intercalate (text :: texts)).toList = text.toList ++ tail := by
  cases texts with
  | nil => exact ⟨[], by rw [String.intercalate_singleton, List.append_nil]⟩
  | cons next texts =>
      rw [String.intercalate_cons_cons, String.toList_append, String.toList_append, List.append_assoc]
      exact ⟨_, rfl⟩

/-- Written items are read up to the bracket. -/
theorem scanItems_intercalate {texts : List String} {values : List Value}
    (h : List.Forall₂ (fun text value => Scans text.toList value) texts values) (hne : texts ≠ [])
    (rest : List Char) (passes : Nat)
    (hpasses : 2 * (",".intercalate texts).toList.length + 2 ≤ passes) :
    scanItems passes ((",".intercalate texts).toList ++ ']' :: rest) = some (values, rest) := by
  induction h generalizing passes with
  | nil => exact absurd rfl hne
  | @cons text value texts values hhead htail ih =>
      obtain ⟨passes, rfl⟩ : ∃ n, passes = n + 1 := ⟨passes - 1, by omega⟩
      cases htail with
      | nil =>
          rw [String.intercalate_singleton] at hpasses ⊢
          rw [scanItems_of (hhead.scan passes (']' :: rest) (by omega) (by rintro c ⟨⟩; simp)),
            scanAfter_close ']' (by decide)]
      | @cons next nextValue texts values hnext htail =>
          rw [String.intercalate_cons_cons, String.toList_append, String.toList_append] at hpasses ⊢
          have hcomma : ",".toList = [','] := by decide
          rw [hcomma] at hpasses ⊢
          simp only [List.length_append, List.length_singleton] at hpasses
          obtain ⟨tail, hstart⟩ := intercalate_start next texts
          have hspace : JsonText.skipSpace ((",".intercalate (next :: texts)).toList ++ ']' :: rest) =
              (",".intercalate (next :: texts)).toList ++ ']' :: rest := by
            rw [hstart, List.append_assoc]
            exact hnext.skipSpace _
          rw [List.append_assoc, List.append_assoc, List.singleton_append,
            scanItems_of (hhead.scan passes _ (by omega) (by rintro c ⟨⟩; simp)),
            scanAfter_comma ']' (by decide) _ _ hspace, ih (List.cons_ne_nil _ _) passes (by omega)]
          rfl

/-- A key that was written with its colon is read. -/
theorem scanKey_written (key : String) {text : List Char} {value : Value} (h : Scans text value)
    (rest : List Char) :
    scanKey ((jsonString key ++ ":").toList ++ text ++ rest) =
      some (codePoints key, text ++ rest) := by
  have hlength := length_le_escaped key.toList
  have hcolon : ":".toList = [':'] := by decide
  have htext : (jsonString key ++ ":").toList ++ text ++ rest =
      '"' :: (key.toList.flatMap jsonEscape ++ '"' :: ':' :: (text ++ rest)) := by
    simp only [String.toList_append, jsonString_eq, String.toList_ofList, hcolon, List.append_assoc,
      List.cons_append, List.nil_append]
  rw [htext, scanKey]
  rw [scanString_escaped _ _ (by
    rw [List.length_append]
    omega)]
  show (match JsonText.skipSpace (':' :: (text ++ rest)) with
    | ':' :: rest => pure (codePoints key, JsonText.skipSpace rest)
    | _ => none) = _
  rw [skipSpace_cons (by decide)]
  show some (codePoints key, JsonText.skipSpace (text ++ rest)) = _
  rw [h.skipSpace]

/-- The text of a member. -/
def memberText (member : String × String) : String :=
  jsonString member.1 ++ ":" ++ member.2

/-- A member starts with the quote of its key. -/
theorem memberText_start (member : String × String) :
    ∃ tail, (memberText member).toList = '"' :: tail :=
  ⟨_, by
    rw [memberText, String.toList_append, String.toList_append, jsonString_eq, String.toList_ofList]
    rfl⟩

/-- A member is read as its key and value. -/
def ScansMember (member : String × String) (entry : List Nat × Value) : Prop :=
  entry.1 = codePoints member.1 ∧ Scans member.2.toList entry.2

/-- Written members are read up to the brace. -/
theorem scanMembers_intercalate {members : List (String × String)}
    {entries : List (List Nat × Value)} (h : List.Forall₂ ScansMember members entries)
    (hne : members ≠ []) (rest : List Char) (passes : Nat)
    (hpasses : 2 * (",".intercalate (members.map memberText)).toList.length + 2 ≤ passes) :
    scanMembers passes ((",".intercalate (members.map memberText)).toList ++ '\x7d' :: rest) =
      some (entries, rest) := by
  have hcomma : ",".toList = [','] := by decide
  induction h generalizing passes with
  | nil => exact absurd rfl hne
  | @cons member entry members entries hhead htail ih =>
      obtain ⟨passes, rfl⟩ : ∃ n, passes = n + 1 := ⟨passes - 1, by omega⟩
      obtain ⟨entryKey, value⟩ := entry
      obtain ⟨rfl, hvalue⟩ : entryKey = codePoints member.1 ∧ Scans member.2.toList value := hhead
      have hmember : (memberText member).toList =
          (jsonString member.1 ++ ":").toList ++ member.2.toList := String.toList_append
      cases htail with
      | nil =>
          rw [List.map_singleton, String.intercalate_singleton, hmember] at hpasses ⊢
          rw [List.length_append] at hpasses
          rw [scanMembers_of (scanKey_written _ hvalue _)
            (hvalue.scan passes _ (by omega) (by rintro c ⟨⟩; simp)),
            scanAfter_close '\x7d' (by decide)]
      | @cons next nextEntry members entries hnext htail =>
          rw [List.map_cons, List.map_cons, String.intercalate_cons_cons, String.toList_append,
            String.toList_append, ← List.map_cons, hcomma, hmember] at hpasses ⊢
          simp only [List.length_append, List.length_singleton] at hpasses
          obtain ⟨tail, hstart⟩ := intercalate_start (memberText next) (members.map memberText)
          have hspace : JsonText.skipSpace
              ((",".intercalate ((next :: members).map memberText)).toList ++ '\x7d' :: rest) =
              (",".intercalate ((next :: members).map memberText)).toList ++ '\x7d' :: rest := by
            obtain ⟨chars, hquote⟩ := memberText_start next
            rw [List.map_cons, hstart, hquote]
            exact skipSpace_cons (by decide) _
          rw [List.append_assoc, List.append_assoc _ [','], List.singleton_append,
            scanMembers_of (scanKey_written _ hvalue _)
              (hvalue.scan passes _ (by omega) (by rintro c ⟨⟩; simp)),
            scanAfter_comma '\x7d' (by decide) _ _ hspace, ih (List.cons_ne_nil _ _) passes (by omega)]
          rfl

/-- A written array is read. -/
theorem scans_array {texts : List String} {values : List Value}
    (h : List.Forall₂ (fun text value => Scans text.toList value) texts values) (hne : texts ≠ []) :
    Scans (jsonArray texts).toList (.array values) := by
  have htext : (jsonArray texts).toList = '[' :: ((",".intercalate texts).toList ++ [']']) := by
    simp only [jsonArray, String.toList_append]
    rfl
  rw [htext]
  refine ⟨⟨_, _, rfl, by decide⟩, fun passes rest hpasses _ => ?_⟩
  simp only [List.length_cons, List.length_append, List.length_nil] at hpasses
  obtain ⟨passes, rfl⟩ : ∃ n, passes = n + 1 := ⟨passes - 1, by omega⟩
  obtain ⟨text, texts, rfl⟩ := List.exists_cons_of_ne_nil hne
  cases h with
  | cons hhead htail =>
      obtain ⟨tail, hstart⟩ := intercalate_start text texts
      obtain ⟨c, chars, hchars, hc⟩ := hhead.start
      have hitems := scanItems_intercalate (.cons hhead htail) (List.cons_ne_nil _ _) rest
        passes (by omega)
      rw [List.cons_append, List.append_assoc, List.singleton_append, scanValue, if_neg (by decide),
        if_pos rfl]
      rw [hstart, hchars, List.cons_append, List.cons_append] at hitems ⊢
      unfold scanOpened
      rw [skipSpace_cons fun hspace => hc (by
        simp only [List.mem_cons, List.not_mem_nil, or_false] at hspace ⊢
        tauto)]
      dsimp only
      rw [if_neg fun hclose => hc (by rw [hclose]; decide), hitems]
      rfl

/-- `json.dumps` of an object whose members were written, with compact separators. -/
def compactObject (members : List (String × String)) : String :=
  "\x7b" ++ ",".intercalate (members.map memberText) ++ "\x7d"

/-- Pairs with distinct keys are the members. -/
theorem dictOf_nodup {pairs : List (List Nat × Value)} (h : (pairs.map Prod.fst).Nodup) :
    dictOf pairs = pairs := by
  have hgeneral : ∀ before : List (List Nat × Value), ((before ++ pairs).map Prod.fst).Nodup →
      pairs.foldl (fun members pair =>
        if members.any fun member => member.1 = pair.1 then
          members.map fun member => if member.1 = pair.1 then pair else member
        else members ++ [pair]) before = before ++ pairs := by
    clear h
    induction pairs with
    | nil => exact fun before _ => (List.append_nil before).symm
    | cons pair pairs ih =>
        intro before hnodup
        have hnew : ¬ (before.any fun member => member.1 = pair.1) = true := by
          rw [List.any_eq_true]
          rintro ⟨member, hmember, hkey⟩
          rw [List.map_append, List.map_cons, List.nodup_append] at hnodup
          exact hnodup.2.2 _ (List.mem_map_of_mem hmember) _ List.mem_cons_self
            (of_decide_eq_true hkey)
        rw [List.foldl_cons, if_neg hnew, ih _ (by rwa [List.append_assoc, List.singleton_append]),
          List.append_assoc, List.singleton_append]
  exact hgeneral [] h

/-- Texts with the same code points are the same. -/
theorem codePoints_injective : Function.Injective codePoints := by
  intro text other h
  refine String.toList_injective (List.map_injective_iff.mpr (fun c d hcd => ?_) h)
  rw [← Char.ofNat_toNat c, hcd, Char.ofNat_toNat]

/-- A written object with distinct keys is read. -/
theorem scans_object {members : List (String × String)} {entries : List (List Nat × Value)}
    (h : List.Forall₂ ScansMember members entries) (hne : members ≠ [])
    (hkeys : (members.map Prod.fst).Nodup) :
    Scans (compactObject members).toList (.object entries) := by
  have hentries : entries.map Prod.fst = (members.map Prod.fst).map codePoints := by
    clear hne hkeys
    induction h with
    | nil => rfl
    | cons hhead _ ih => rw [List.map_cons, ih, hhead.1]; rfl
  have hnodup : (entries.map Prod.fst).Nodup := by
    rw [hentries]
    exact hkeys.map codePoints_injective
  have htext : (compactObject members).toList =
      '\x7b' :: ((",".intercalate (members.map memberText)).toList ++ ['\x7d']) := by
    simp only [compactObject, String.toList_append]
    rfl
  rw [htext]
  refine ⟨⟨_, _, rfl, by decide⟩, fun passes rest hpasses _ => ?_⟩
  simp only [List.length_cons, List.length_append, List.length_nil] at hpasses
  obtain ⟨passes, rfl⟩ : ∃ n, passes = n + 1 := ⟨passes - 1, by omega⟩
  have hmembers := scanMembers_intercalate h hne rest passes (by omega)
  obtain ⟨member, members, rfl⟩ := List.exists_cons_of_ne_nil hne
  obtain ⟨tail, hstart⟩ := intercalate_start (memberText member) (members.map memberText)
  obtain ⟨chars, hquote⟩ := memberText_start member
  rw [List.cons_append, List.append_assoc, List.singleton_append, scanValue, if_neg (by decide),
    if_neg (by decide), if_pos rfl]
  rw [List.map_cons, hstart, hquote, List.cons_append, List.cons_append] at hmembers ⊢
  unfold scanOpened
  rw [JsonText.skipSpace_cons (by decide)]
  dsimp only
  rw [if_neg (by decide), hmembers]
  show some (Value.object (dictOf entries), rest) = _
  rw [dictOf_nodup hnodup]

/-- A written text is loaded. -/
theorem Scans.loads {text : String} {value : Value} (h : Scans text.toList value) :
    loads text = some value := by
  have hscan := h.scan (2 * text.length + 2) [] (by
    rw [String.length_toList]
    omega) fun _ hc => (nomatch hc)
  have hspace := h.skipSpace []
  rw [List.append_nil] at hscan hspace
  obtain ⟨c, tail, htext, hc⟩ := h.start
  have hmark : text.toList.head? ≠ some '\ufeff' := by
    rw [htext]
    rintro ⟨⟩
    exact hc (by decide)
  unfold JsonText.loads
  rw [Utf8.chars_eq]
  dsimp only
  rw [if_neg hmark, String.length_toList, hspace, hscan]
  exact if_pos rfl

end JsonText

end AstrContinuum
