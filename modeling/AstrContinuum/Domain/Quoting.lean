import AstrContinuum.Domain.Json

/-!
# Canonical texts are read back

`readEscaped` reads one character of a JSON string back from the escape that `json.dumps` writes, so the
text of a string ends where its closing quote stands, and no two strings, and no two numerals, have the
same text. A canonical text therefore determines what was written into it.
-/

namespace AstrContinuum

/-- The value of a lowercase hexadecimal digit. -/
def hexValue (c : Char) : Nat :=
  if c.toNat < 0x3a then c.toNat - 0x30 else c.toNat - 0x57

/-- The first character of the inside of a JSON string, and the rest. -/
def readEscaped : List Char → Option (Char × List Char)
  | [] => none
  | '\\' :: 'u' :: _ :: _ :: high :: low :: rest =>
      some (Char.ofNat (16 * hexValue high + hexValue low), rest)
  | '\\' :: '"' :: rest => some ('"', rest)
  | '\\' :: '\\' :: rest => some ('\\', rest)
  | '\\' :: 'b' :: rest => some (Char.ofNat 0x08, rest)
  | '\\' :: 't' :: rest => some (Char.ofNat 0x09, rest)
  | '\\' :: 'n' :: rest => some (Char.ofNat 0x0a, rest)
  | '\\' :: 'f' :: rest => some (Char.ofNat 0x0c, rest)
  | '\\' :: 'r' :: rest => some (Char.ofNat 0x0d, rest)
  | c :: rest => if c = '"' ∨ c = '\\' then none else some (c, rest)

/-- A control character is read back from its two hexadecimal digits. -/
theorem hexValue_hexDigit {n : Nat} (h : n < 0x20) :
    16 * hexValue (hexDigit (n / 16)) + hexValue (hexDigit (n % 16)) = n := by
  revert n
  decide

/-- An escaped character is read back. -/
theorem readEscaped_jsonEscape (c : Char) (rest : List Char) :
    readEscaped (jsonEscape c ++ rest) = some (c, rest) := by
  have hvalue : ∀ {n : Nat}, c.toNat = n → c = Char.ofNat n := fun hn => by
    rw [← hn, Char.ofNat_toNat]
  unfold jsonEscape
  simp only [beq_iff_eq]
  split_ifs with hquote hslash hbackspace htab hline hfeed hreturn hcontrol
  · rw [hvalue hquote]; rfl
  · rw [hvalue hslash]; rfl
  · rw [hvalue hbackspace]; rfl
  · rw [hvalue htab]; rfl
  · rw [hvalue hline]; rfl
  · rw [hvalue hfeed]; rfl
  · rw [hvalue hreturn]; rfl
  · show some (Char.ofNat _, rest) = some (c, rest)
    rw [hexValue_hexDigit hcontrol, Char.ofNat_toNat]
  · -- every other character stands for itself
    have hne : c ≠ '"' := fun hc => hquote (congrArg Char.toNat hc)
    have hnot : c ≠ '\\' := fun hc => hslash (congrArg Char.toNat hc)
    simp [readEscaped, hne, hnot]

/-- The inside of a string and its closing quote determine the string and what follows. -/
theorem escaped_inj {first second : List Char} {rest rest' : List Char}
    (h : first.flatMap jsonEscape ++ '"' :: rest = second.flatMap jsonEscape ++ '"' :: rest') :
    first = second ∧ rest = rest' := by
  induction first generalizing second with
  | nil =>
      cases second with
      | nil => exact ⟨rfl, List.tail_eq_of_cons_eq h⟩
      | cons d second =>
          have hread := congrArg readEscaped h
          rw [List.flatMap_cons, List.append_assoc, readEscaped_jsonEscape] at hread
          cases hread
  | cons c first ih =>
      have hread := congrArg readEscaped h
      rw [List.flatMap_cons, List.append_assoc, readEscaped_jsonEscape] at hread
      cases second with
      | nil => cases hread
      | cons d second =>
          rw [List.flatMap_cons, List.append_assoc, readEscaped_jsonEscape] at hread
          obtain ⟨rfl, hrest⟩ := Prod.mk.inj (Option.some.inj hread)
          obtain ⟨rfl, htail⟩ := ih hrest
          exact ⟨rfl, htail⟩

/-- The text of a string is read up to its closing quote, whatever follows. -/
theorem jsonString_append_inj {first second : String} {rest rest' : List Char}
    (h : (jsonString first).toList ++ rest = (jsonString second).toList ++ rest') :
    first = second ∧ rest = rest' := by
  simp only [jsonString_eq, String.toList_ofList, List.cons_append, List.append_assoc,
    List.cons.injEq, true_and] at h
  obtain ⟨htext, hrest⟩ := escaped_inj h
  exact ⟨String.toList_injective htext, hrest⟩

/-- Decimal numerals tell numbers apart. -/
theorem toString_nat_injective {first second : Nat} (h : toString first = toString second) :
    first = second := by
  have hdigits : Nat.toDigits 10 first = Nat.toDigits 10 second := by
    rw [← Nat.toList_repr, ← Nat.toList_repr]
    exact congrArg String.toList h
  rw [← Nat.ofDigitChars_ten_toDigits (n := first), hdigits, Nat.ofDigitChars_ten_toDigits]

/-! ## Arrays and objects -/

/-- Where one of two texts stands before the other's end, they are the same. -/
def Delimited (text other : String) : Prop :=
  ∀ rest rest' : List Char, text.toList ++ rest = other.toList ++ rest' → text = other

/-- What follows two delimited texts is the same too. -/
theorem Delimited.rest {text other : String} (h : Delimited text other) {rest rest' : List Char}
    (heq : text.toList ++ rest = other.toList ++ rest') : text = other ∧ rest = rest' := by
  obtain rfl := h rest rest' heq
  exact ⟨rfl, List.append_cancel_left heq⟩

/-- A string is delimited by its quotes. -/
theorem jsonString_delimited {first second : String} :
    Delimited (jsonString first) (jsonString second) :=
  fun _ _ heq => congrArg jsonString (jsonString_append_inj heq).1

/-- The text of a string tells strings apart. -/
theorem jsonString_injective : Function.Injective jsonString := by
  intro first second h
  have heq : (jsonString first).toList ++ [] = (jsonString second).toList ++ [] := by rw [h]
  exact (jsonString_append_inj heq).1

/-- As many delimited texts with commas between them are told apart. -/
theorem intercalate_inj {texts others : List String} (h : List.Forall₂ Delimited texts others)
    {rest rest' : List Char}
    (heq : (",".intercalate texts).toList ++ rest = (",".intercalate others).toList ++ rest') :
    texts = others := by
  induction h with
  | nil => rfl
  | cons hhead htail ih =>
      cases htail with
      | nil =>
          rw [String.intercalate_singleton, String.intercalate_singleton] at heq
          rw [hhead _ _ heq]
      | cons hnext htail =>
          rw [String.intercalate_cons_cons, String.intercalate_cons_cons] at heq
          simp only [String.toList_append, List.append_assoc] at heq
          obtain ⟨rfl, heq⟩ := hhead.rest heq
          rw [ih (List.append_cancel_left (List.append_cancel_left heq))]

/-- The text of an array of strings after its first string, up to its bracket. -/
def stringsTail : List String → List Char → List Char
  | [], rest => ']' :: rest
  | text :: texts, rest => ',' :: (jsonString text).toList ++ stringsTail texts rest

/-- What follows the first string of an array. -/
theorem intercalate_strings (text : String) (texts : List String) (rest : List Char) :
    (",".intercalate ((text :: texts).map jsonString)).toList ++ ']' :: rest =
      (jsonString text).toList ++ stringsTail texts rest := by
  have hcomma : ",".toList = [','] := by decide
  induction texts generalizing text with
  | nil => rw [List.map_singleton, String.intercalate_singleton, stringsTail]
  | cons next texts ih =>
      have hnext := ih next
      rw [List.map_cons] at hnext
      rw [List.map_cons, List.map_cons, String.intercalate_cons_cons, String.toList_append,
        String.toList_append, List.append_assoc, hnext, hcomma, stringsTail, List.append_assoc,
        List.singleton_append, List.cons_append]

/-- The rest of an array is read up to its bracket. -/
theorem stringsTail_inj {texts others : List String} {rest rest' : List Char}
    (h : stringsTail texts rest = stringsTail others rest') : texts = others := by
  induction texts generalizing others with
  | nil =>
      cases others with
      | nil => rfl
      | cons other others => exact absurd (List.cons.inj h).1 (by decide)
  | cons text texts ih =>
      cases others with
      | nil => exact absurd (List.cons.inj h).1 (by decide)
      | cons other others =>
          obtain ⟨rfl, htail⟩ := jsonString_append_inj (List.cons.inj h).2
          rw [ih htail]

/-- An array of strings is delimited by its bracket. -/
theorem strings_delimited {texts others : List String} {rest rest' : List Char}
    (h : (jsonArray (texts.map jsonString)).toList ++ rest =
      (jsonArray (others.map jsonString)).toList ++ rest') : texts = others := by
  have hclose : "]".toList = [']'] := by decide
  have hquote (text : String) : ∃ tail, (jsonString text).toList = '"' :: tail :=
    ⟨_, by rw [jsonString_eq, String.toList_ofList, List.cons_append]⟩
  simp only [jsonArray, String.toList_append, List.append_assoc, hclose, List.singleton_append] at h
  have htexts := List.append_cancel_left h
  cases texts with
  | nil =>
      cases others with
      | nil => rfl
      | cons other others =>
          obtain ⟨tail, htail⟩ := hquote other
          rw [intercalate_strings, htail] at htexts
          exact absurd (List.cons.inj htexts).1 (by decide)
  | cons text texts =>
      cases others with
      | nil =>
          obtain ⟨tail, htail⟩ := hquote text
          rw [intercalate_strings, htail] at htexts
          exact absurd (List.cons.inj htexts).1 (by decide)
      | cons other others =>
          rw [intercalate_strings, intercalate_strings] at htexts
          obtain ⟨rfl, htail⟩ := jsonString_append_inj htexts
          rw [stringsTail_inj htail]

/-- Members under one key whose values are delimited. -/
def SameKey (member other : String × String) : Prop :=
  member.1 = other.1 ∧ Delimited member.2 other.2

/-- Sorting keeps members with the same keys side by side. -/
theorem orderedInsert_sameKey {member other : String × String} (h : SameKey member other)
    {members others : List (String × String)} (hs : List.Forall₂ SameKey members others) :
    List.Forall₂ SameKey
      (members.orderedInsert (fun left right => left.1 ≤ right.1) member)
      (others.orderedInsert (fun left right => left.1 ≤ right.1) other) := by
  induction hs with
  | nil => exact .cons h .nil
  | @cons first second firsts seconds hhead htail ih =>
      rw [List.orderedInsert_cons, List.orderedInsert_cons, ← h.1, ← hhead.1]
      by_cases hle : member.1 ≤ first.1
      · rw [if_pos hle, if_pos hle]
        exact .cons h (.cons hhead htail)
      · rw [if_neg hle, if_neg hle]
        exact .cons hhead ih

/-- A member is delimited where its value is. -/
theorem SameKey.delimited {member other : String × String} (h : SameKey member other) :
    Delimited (jsonString member.1 ++ ":" ++ member.2) (jsonString other.1 ++ ":" ++ other.2) := by
  intro rest rest' heq
  obtain ⟨key, value⟩ := member
  obtain ⟨hkey, hvalue⟩ := h
  obtain rfl : key = other.1 := hkey
  simp only [String.toList_append, List.append_assoc] at heq
  rw [hvalue _ _ (List.append_cancel_left (List.append_cancel_left heq))]

/-- Members side by side are the same when their texts are. -/
theorem eq_of_memberTexts {members others : List (String × String)}
    (hs : List.Forall₂ SameKey members others)
    (h : (members.map fun member => jsonString member.1 ++ ":" ++ member.2) =
      others.map fun member => jsonString member.1 ++ ":" ++ member.2) : members = others := by
  induction hs with
  | nil => rfl
  | @cons member other members others hhead htail ih =>
      obtain ⟨htext, htexts⟩ := List.cons.inj h
      obtain ⟨key, value⟩ := member
      obtain ⟨hkey, hvalue⟩ := hhead
      obtain rfl : key = other.1 := hkey
      have hlists := congrArg (fun text => text.toList ++ []) htext
      simp only [String.toList_append, List.append_assoc] at hlists
      obtain rfl := hvalue _ _ (List.append_cancel_left (List.append_cancel_left hlists))
      rw [ih htexts]

/-- Objects with the same keys and delimited values are told apart by their texts. -/
theorem writeMembers_inj {members others : List (String × String)}
    (hs : List.Forall₂ SameKey members others) (h : writeMembers members = writeMembers others) :
    members.Perm others := by
  have hsorted : List.Forall₂ SameKey
      (members.insertionSort fun left right => left.1 ≤ right.1)
      (others.insertionSort fun left right => left.1 ≤ right.1) := by
    clear h
    induction hs with
    | nil => exact .nil
    | cons hhead htail ih => exact orderedInsert_sameKey hhead ih
  have hdelimited := List.forall₂_map_left_iff.mpr (List.forall₂_map_right_iff.mpr
    (hsorted.imp fun _ _ => SameKey.delimited))
  have hlists := congrArg String.toList h
  unfold writeMembers at hlists
  simp only [String.toList_append, List.append_assoc] at hlists
  have htexts := intercalate_inj hdelimited (List.append_cancel_left hlists)
  have hsame := eq_of_memberTexts hsorted htexts
  exact (List.perm_insertionSort _ members).symm.trans
    (hsame ▸ List.perm_insertionSort _ others)

/-- What such objects with distinct keys have under a key is told apart. -/
theorem writeMembers_value {members others : List (String × String)}
    (hs : List.Forall₂ SameKey members others) (h : writeMembers members = writeMembers others)
    (hkeys : (others.map Prod.fst).Nodup) (key : String) {value value' : String}
    (hmember : (key, value) ∈ members) (hother : (key, value') ∈ others) : value = value' := by
  have hmoved := (writeMembers_inj hs h).mem_iff.mp hmember
  exact (Prod.mk.inj (List.inj_on_of_nodup_map hkeys hmoved hother rfl)).2

end AstrContinuum
