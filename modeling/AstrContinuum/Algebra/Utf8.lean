import Mathlib.Algebra.GroupWithZero.Nat
import Mathlib.Algebra.Order.BigOperators.Group.List

/-!
# The characters of a text

A text is kept as its bytes in UTF-8. `chars` reads them from the front, one character after the other,
with what is left as the list it is: texts are evaluated by it in time that grows with their length only.
It is `String.toList` (`chars_eq`).
-/

namespace Utf8

/-- The characters of some bytes. -/
def decode : Nat → List UInt8 → List Char
  | 0, _ => []
  | passes + 1, bytes =>
      match ByteArray.utf8DecodeChar? ⟨⟨bytes.take 4⟩⟩ 0 with
      | none => []
      | some c => c :: decode passes (bytes.drop c.utf8Size)

/-- The characters of a text. -/
def chars (text : String) : List Char :=
  decode text.utf8ByteSize text.toByteArray.data.toList

/-- The bytes of a character are decoded, whatever follows. -/
theorem decodeChar_append (c : Char) (rest : List UInt8) :
    ByteArray.utf8DecodeChar? ⟨⟨(String.utf8EncodeChar c ++ rest).take 4⟩⟩ 0 = some c := by
  have hsize : (String.utf8EncodeChar c).length ≤ 4 := by
    rw [String.length_utf8EncodeChar]
    exact c.utf8Size_le_four
  rw [List.take_append, List.take_of_length_le hsize]
  have hbytes (front back : List UInt8) :
      (⟨⟨front ++ back⟩⟩ : ByteArray) = front.toByteArray ++ ⟨⟨back⟩⟩ := by
    ext1
    simp
  rw [hbytes]
  exact ByteArray.utf8DecodeChar?_utf8EncodeChar_append

/-- What is encoded is decoded. -/
theorem decode_encode {passes : Nat} {text : List Char} (h : text.length ≤ passes) :
    decode passes (text.flatMap String.utf8EncodeChar) = text := by
  induction text generalizing passes with
  | nil =>
      cases passes with
      | zero => rfl
      | succ passes => rfl
  | cons c rest ih =>
      obtain ⟨passes, rfl⟩ : ∃ n, passes = n + 1 := ⟨passes - 1, by simp at h; omega⟩
      have hrest : rest.length ≤ passes := Nat.le_of_succ_le_succ h
      rw [List.flatMap_cons, decode, decodeChar_append]
      dsimp only
      rw [← String.length_utf8EncodeChar, List.drop_left, ih hrest]

/-- The bytes of a text are those of its characters. -/
theorem utf8ByteSize_ofList (text : List Char) :
    (String.ofList text).utf8ByteSize = (text.map Char.utf8Size).sum := by
  induction text with
  | nil => rfl
  | cons c text ih =>
      have hsplit : String.ofList (c :: text) = String.singleton c ++ String.ofList text := by
        rw [String.singleton_eq_ofList, ← String.ofList_append, List.singleton_append]
      rw [hsplit, String.utf8ByteSize_append, String.utf8ByteSize_singleton, ih, List.map_cons,
        List.sum_cons]

/-- A text has at least as many bytes as characters. -/
theorem length_le_utf8ByteSize (text : String) : text.length ≤ text.utf8ByteSize := by
  rw [← String.ofList_toList (s := text), utf8ByteSize_ofList, String.length_ofList]
  have hsizes := List.length_le_sum_of_one_le (text.toList.map Char.utf8Size) fun size hsize => by
    obtain ⟨c, _, rfl⟩ := List.mem_map.mp hsize
    exact c.utf8Size_pos
  rwa [List.length_map] at hsizes

/-- The characters of a text are those of its list. -/
@[simp] theorem chars_eq (text : String) : chars text = text.toList := by
  have hbytes : text.toByteArray.data.toList = text.toList.flatMap String.utf8EncodeChar := by
    conv_lhs => rw [← String.ofList_toList (s := text), String.toByteArray_ofList]
    simp [List.utf8Encode]
  have hlength : text.toList.length ≤ text.utf8ByteSize :=
    String.length_toList.trans_le (length_le_utf8ByteSize text)
  rw [chars, hbytes, decode_encode hlength]

end Utf8
