import Mathlib.Data.List.Basic

/-!
# Base64 without padding

Bytes in the alphabet of base64url, three in four characters and one or two more in the last two or three.
A reader drops the bits that the last characters have too many, so several texts are read as the same
bytes; those that are written back as they were read are the canonical ones.
-/

namespace Base64

/-- The characters that stand for six bits: capital and small letters, digits, the hyphen and the
underscore. -/
def alphabet : List Char :=
  (List.range' 65 26 ++ List.range' 97 26 ++ List.range' 48 10 ++ [45, 95]).map Char.ofNat

example : alphabet =
    "ABCDEFGHIJKLMNOPQRSTUVWXYZabcdefghijklmnopqrstuvwxyz0123456789-_".toList := by
  decide +kernel

/-- The character of six bits. -/
def digit (n : Nat) : Char :=
  alphabet.getD n 'A'

/-- The six bits of a character. -/
def value (c : Char) : Option Nat :=
  alphabet.idxOf? c

/-- The text of some bytes. -/
def encode : List UInt8 → List Char
  | [] => []
  | [a] => [digit (a.toNat / 4), digit (a.toNat % 4 * 16)]
  | [a, b] =>
      [digit (a.toNat / 4), digit (a.toNat % 4 * 16 + b.toNat / 16), digit (b.toNat % 16 * 4)]
  | a :: b :: c :: rest =>
      digit (a.toNat / 4) :: digit (a.toNat % 4 * 16 + b.toNat / 16) ::
        digit (b.toNat % 16 * 4 + c.toNat / 64) :: digit (c.toNat % 64) :: encode rest

/-- The bytes of a text, which has no single character left over. -/
def decode : List Char → Option (List UInt8)
  | [] => some []
  | [_] => none
  | [w, x] => do
      let a ← value w
      let b ← value x
      pure [UInt8.ofNat (a * 4 + b / 16)]
  | [w, x, y] => do
      let a ← value w
      let b ← value x
      let c ← value y
      pure [UInt8.ofNat (a * 4 + b / 16), UInt8.ofNat (b % 16 * 16 + c / 4)]
  | w :: x :: y :: z :: rest => do
      let a ← value w
      let b ← value x
      let c ← value y
      let d ← value z
      let bytes ← decode rest
      pure (UInt8.ofNat (a * 4 + b / 16) :: UInt8.ofNat (b % 16 * 16 + c / 4) ::
        UInt8.ofNat (c % 4 * 64 + d) :: bytes)

/-- The character of six bits is read as these bits. -/
theorem value_digit {n : Nat} (h : n < 64) : value (digit n) = some n := by
  have hall : ∀ n ∈ List.range 64, value (digit n) = some n := by decide +kernel
  exact hall n (List.mem_range.mpr h)

/-- The character of six bits is in the alphabet. -/
theorem digit_mem {n : Nat} (h : n < 64) : digit n ∈ alphabet := by
  have hall : ∀ n ∈ List.range 64, digit n ∈ alphabet := by decide +kernel
  exact hall n (List.mem_range.mpr h)

/-- A byte is its number. -/
theorem ofNat_eq {a : UInt8} {n : Nat} (h : n = a.toNat) : UInt8.ofNat n = a := by
  subst h
  exact UInt8.ofNat_toNat

/-- What is written is read back. -/
theorem decode_encode (bytes : List UInt8) : decode (encode bytes) = some bytes := by
  induction bytes using encode.induct with
  | case1 => rfl
  | case2 a =>
      have ha := a.toNat_lt
      simp only [encode, decode, value_digit (show a.toNat / 4 < 64 by omega),
        value_digit (show a.toNat % 4 * 16 < 64 by omega), Option.bind_eq_bind, Option.bind_some,
        Option.pure_def]
      rw [ofNat_eq (a := a) (by omega)]
  | case3 a b =>
      have ha := a.toNat_lt
      have hb := b.toNat_lt
      simp only [encode, decode, value_digit (show a.toNat / 4 < 64 by omega),
        value_digit (show a.toNat % 4 * 16 + b.toNat / 16 < 64 by omega),
        value_digit (show b.toNat % 16 * 4 < 64 by omega), Option.bind_eq_bind, Option.bind_some,
        Option.pure_def]
      rw [ofNat_eq (a := a) (by omega), ofNat_eq (a := b) (by omega)]
  | case4 a b c rest ih =>
      have ha := a.toNat_lt
      have hb := b.toNat_lt
      have hc := c.toNat_lt
      simp only [encode, decode, value_digit (show a.toNat / 4 < 64 by omega),
        value_digit (show a.toNat % 4 * 16 + b.toNat / 16 < 64 by omega),
        value_digit (show b.toNat % 16 * 4 + c.toNat / 64 < 64 by omega),
        value_digit (show c.toNat % 64 < 64 by omega), ih, Option.bind_eq_bind, Option.bind_some,
        Option.pure_def]
      rw [ofNat_eq (a := a) (by omega), ofNat_eq (a := b) (by omega), ofNat_eq (a := c) (by omega)]

/-- No two lists of bytes have the same text. -/
theorem encode_injective : Function.Injective encode := by
  intro bytes others h
  exact Option.some.inj (by rw [← decode_encode bytes, h, decode_encode])

/-- A text is made of characters of the alphabet. -/
theorem mem_alphabet_of_mem_encode {bytes : List UInt8} {c : Char} (h : c ∈ encode bytes) :
    c ∈ alphabet := by
  induction bytes using encode.induct with
  | case1 => exact absurd h List.not_mem_nil
  | case2 a =>
      have ha := a.toNat_lt
      simp only [encode, List.mem_cons, List.not_mem_nil, or_false] at h
      rcases h with rfl | rfl
      · exact digit_mem (by omega)
      · exact digit_mem (by omega)
  | case3 a b =>
      have ha := a.toNat_lt
      have hb := b.toNat_lt
      simp only [encode, List.mem_cons, List.not_mem_nil, or_false] at h
      rcases h with rfl | rfl | rfl
      · exact digit_mem (by omega)
      · exact digit_mem (by omega)
      · exact digit_mem (by omega)
  | case4 a b c' rest ih =>
      have ha := a.toNat_lt
      have hb := b.toNat_lt
      have hc := c'.toNat_lt
      simp only [encode, List.mem_cons] at h
      rcases h with rfl | rfl | rfl | rfl | hrest
      · exact digit_mem (by omega)
      · exact digit_mem (by omega)
      · exact digit_mem (by omega)
      · exact digit_mem (by omega)
      · exact ih hrest

/-- The length of a text. -/
theorem length_encode (bytes : List UInt8) :
    (encode bytes).length = (4 * bytes.length + 2) / 3 := by
  induction bytes using encode.induct with
  | case4 a b c rest ih =>
      simp only [encode, List.length_cons, ih]
      omega
  | _ => simp [encode]

end Base64
