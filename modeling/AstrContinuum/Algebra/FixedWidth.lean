import Mathlib.Algebra.GroupWithZero.Nat
import Mathlib.Data.List.Lex

/-!
# Numbers of fixed width

Decimal texts that are padded with zeros to one width: they are ordered as their numbers are, and so are
texts that are made of them part by part. A reader takes such a number off the front of a text.
-/

namespace FixedWidth

/-- A number in decimal, padded with zeros to a width. -/
def padded (width n : Nat) : List Char :=
  (Nat.toDigits 10 n).leftpad width '0'

/-- The number that digits are read as. -/
def value (digits : List Char) : Nat :=
  Nat.ofDigitChars 10 digits 0

/-- A padded number has its width. -/
theorem length_padded {width n : Nat} (hwidth : 0 < width) (h : n < 10 ^ width) :
    (padded width n).length = width := by
  have hdigits := (Nat.length_toDigits_le_iff (by decide) hwidth).mpr h
  rw [padded, List.length_leftpad]
  exact Nat.max_eq_left hdigits

/-- A padded number is made of digits. -/
theorem isDigit_of_mem_padded {width n : Nat} {c : Char} (h : c ∈ padded width n) :
    c.isDigit = true := by
  rw [padded, List.leftpad] at h
  rcases List.mem_append.mp h with hzero | hdigit
  · rw [List.eq_of_mem_replicate hzero]
    rfl
  · exact Nat.isDigit_of_mem_toDigits (by decide) (by decide) hdigit

/-- A padded number is read as itself. -/
@[simp] theorem value_padded (width n : Nat) : value (padded width n) = n := by
  rw [padded, List.leftpad, value, Nat.ofDigitChars_append, Nat.ofDigitChars_replicate_zero, Nat.mul_zero]
  exact Nat.ofDigitChars_ten_toDigits

/-! ## Order -/

/-- Two numbers below a bound are ordered as the two digits of a number in this base are. -/
theorem mul_add_lt_mul_add {base a b c d : Nat} (hb : b < base) (hd : d < base) :
    a * base + b < c * base + d ↔ a < c ∨ a = c ∧ b < d := by
  constructor
  · intro hlt
    rcases Nat.lt_trichotomy a c with hac | rfl | hca
    · exact .inl hac
    · exact .inr ⟨rfl, Nat.lt_of_add_lt_add_left hlt⟩
    · have hle := Nat.mul_le_mul_right base (Nat.succ_le_of_lt hca)
      rw [Nat.succ_mul] at hle
      omega
  · rintro (hac | ⟨rfl, hbd⟩)
    · have hle := Nat.mul_le_mul_right base (Nat.succ_le_of_lt hac)
      rw [Nat.succ_mul] at hle
      omega
    · exact Nat.add_lt_add_left hbd _

/-- Texts with a first part of one length are ordered by it, and then by the rest. -/
theorem append_lt_append {xs ys : List Char} (h : xs.length = ys.length) (as bs : List Char) :
    xs ++ as < ys ++ bs ↔ xs < ys ∨ xs = ys ∧ as < bs := by
  induction xs generalizing ys with
  | nil =>
      obtain rfl := List.eq_nil_of_length_eq_zero h.symm
      simp
  | cons x xs ih =>
      cases ys with
      | nil => cases h
      | cons y ys =>
          have hrest := ih (Nat.succ.inj h)
          rw [List.cons_append, List.cons_append, List.cons_lt_cons_iff, List.cons_lt_cons_iff, hrest,
            List.cons.injEq]
          tauto

/-- A digit is read as a number below ten. -/
theorem digit_lt {c : Char} (h : c.isDigit = true) : c.toNat - '0'.toNat < 10 ∧ '0'.toNat ≤ c.toNat := by
  have hrange : '0'.toNat ≤ c.toNat ∧ c.toNat ≤ '9'.toNat := by
    simpa [Char.isDigit, Char.le_def, UInt32.le_iff_toNat_le] using h
  have hnine : '9'.toNat = '0'.toNat + 9 := rfl
  omega

/-- The first of some digits counts for its place. -/
theorem value_cons (c : Char) (cs : List Char) :
    value (c :: cs) = (c.toNat - '0'.toNat) * 10 ^ cs.length + value cs := by
  rw [value, Nat.ofDigitChars_cons, Nat.ofDigitChars_eq_ofDigitChars_zero, Nat.mul_zero, Nat.zero_add,
    Nat.mul_comm]
  rfl

/-- Some digits are read as a number of this length. -/
theorem value_lt {digits : List Char} (h : ∀ c ∈ digits, c.isDigit = true) :
    value digits < 10 ^ digits.length := by
  induction digits with
  | nil => exact Nat.one_pos
  | cons c cs ih =>
      have hdigit := (digit_lt (h c List.mem_cons_self)).1
      have hrest := ih fun d hd => h d (List.mem_cons_of_mem _ hd)
      have hplace := Nat.mul_le_mul_right (10 ^ cs.length) (Nat.le_pred_of_lt hdigit)
      have hpower : 10 ^ (c :: cs).length = 9 * 10 ^ cs.length + 10 ^ cs.length := by
        rw [List.length_cons, Nat.pow_succ]
        omega
      rw [value_cons, hpower]
      exact Nat.add_lt_add_of_le_of_lt hplace hrest

/-- Digits are ordered as they are read. -/
theorem digit_lt_digit {c d : Char} (hc : c.isDigit = true) (hd : d.isDigit = true) :
    c < d ↔ c.toNat - '0'.toNat < d.toNat - '0'.toNat := by
  have hc := (digit_lt hc).2
  have hd := (digit_lt hd).2
  have horder : c < d ↔ c.toNat < d.toNat := by
    rw [Char.lt_def, UInt32.lt_iff_toNat_lt]
    rfl
  rw [horder]
  omega

/-- A digit is determined by what it is read as. -/
theorem digit_injective {c d : Char} (hc : c.isDigit = true) (hd : d.isDigit = true) :
    c = d ↔ c.toNat - '0'.toNat = d.toNat - '0'.toNat := by
  have hc := (digit_lt hc).2
  have hd := (digit_lt hd).2
  rw [← Char.toNat_inj]
  omega

/-- Digits of one length are ordered as the numbers they are read as. -/
theorem lt_iff_value_lt {xs ys : List Char} (h : xs.length = ys.length)
    (hxs : ∀ c ∈ xs, c.isDigit = true) (hys : ∀ c ∈ ys, c.isDigit = true) :
    xs < ys ↔ value xs < value ys := by
  induction xs generalizing ys with
  | nil =>
      obtain rfl := List.eq_nil_of_length_eq_zero h.symm
      simp
  | cons x xs ih =>
      cases ys with
      | nil => cases h
      | cons y ys =>
          have hlength : xs.length = ys.length := Nat.succ.inj h
          have hx := hxs x List.mem_cons_self
          have hy := hys y List.mem_cons_self
          have hxs := fun c hc => hxs c (List.mem_cons_of_mem x hc)
          have hys := fun c hc => hys c (List.mem_cons_of_mem y hc)
          have hbound := value_lt hys
          rw [← hlength] at hbound
          rw [List.cons_lt_cons_iff, ih hlength hxs hys, digit_lt_digit hx hy, digit_injective hx hy,
            value_cons, value_cons, ← hlength, mul_add_lt_mul_add (value_lt hxs) hbound]

/-- Padded numbers of one width are ordered as the numbers are. -/
theorem padded_lt_padded {width m n : Nat} (hwidth : 0 < width) (hm : m < 10 ^ width)
    (hn : n < 10 ^ width) : padded width m < padded width n ↔ m < n := by
  have hlength := (length_padded hwidth hm).trans (length_padded hwidth hn).symm
  rw [lt_iff_value_lt hlength (fun _ => isDigit_of_mem_padded) fun _ => isDigit_of_mem_padded,
    value_padded, value_padded]

/-- A padded number determines the number. -/
theorem padded_injective {width m n : Nat} : padded width m = padded width n ↔ m = n := by
  refine ⟨fun h => ?_, fun h => h ▸ rfl⟩
  have hvalue := congrArg value h
  rwa [value_padded, value_padded] at hvalue

/-- Texts that start with padded numbers of one width are ordered by the numbers, and then by the rest. -/
theorem padded_append_lt {width m n : Nat} (hwidth : 0 < width) (hm : m < 10 ^ width)
    (hn : n < 10 ^ width) (as bs : List Char) :
    padded width m ++ as < padded width n ++ bs ↔ m < n ∨ m = n ∧ as < bs := by
  have hlength := (length_padded hwidth hm).trans (length_padded hwidth hn).symm
  rw [append_lt_append hlength, padded_lt_padded hwidth hm hn, padded_injective]

/-! ## Reading -/

/-- Reads a number of some digits off the front of a text. -/
def readNumber (width : Nat) (text : List Char) : Option (Nat × List Char) :=
  if (text.take width).length = width ∧ (text.take width).all Char.isDigit = true then
    some (value (text.take width), text.drop width)
  else none

/-- A padded number is read off the front of a text. -/
theorem readNumber_padded {width n : Nat} (hwidth : 0 < width) (h : n < 10 ^ width) (rest : List Char) :
    readNumber width (padded width n ++ rest) = some (n, rest) := by
  have hlength := length_padded hwidth h
  have hdigits : (padded width n).all Char.isDigit = true :=
    List.all_eq_true.mpr fun _ => isDigit_of_mem_padded
  unfold readNumber
  rw [List.take_left' hlength, List.drop_left' hlength, value_padded]
  exact if_pos ⟨hlength, hdigits⟩

end FixedWidth
