import Mathlib.Data.Int.Log
import Mathlib.Data.Rat.Floor

/-!
# Binary64 values

A float that is finite is an exact rational number. `nearest` is the rounding that every operation
ends with, `ofNat` the conversion of an integer, which fails where the rounded value is out of range.
-/

namespace Binary64

/-- The nearest integer, the even one of two. -/
def tiesToEven (q : Rat) : Int :=
  let low := ⌊q⌋
  if q - low < 1 / 2 then low
  else if 1 / 2 < q - low then low + 1
  else if low % 2 = 0 then low
  else low + 1

/-- The distance of the binary64 values around `q`: 53 significant bits, and no exponent below that
of the least positive value. -/
def unit (q : Rat) : Rat :=
  2 ^ max (Int.log 2 |q| - 52) (-1074)

/-- The binary64 value nearest to `q`, for `q` within their range. -/
def nearest (q : Rat) : Rat :=
  if q = 0 then 0 else tiesToEven (q / unit q) * unit q

/-- `float(n)`; it raises an `OverflowError` where there is no value. -/
def ofNat (n : Nat) : Option Rat :=
  if nearest n < 2 ^ 1024 then some (nearest n) else none

/-- The value nearest to a number that is not negative is not negative. -/
theorem nearest_nonneg {q : Rat} (h : 0 ≤ q) : 0 ≤ nearest q := by
  unfold nearest
  by_cases hzero : q = 0
  · rw [if_pos hzero]
  · rw [if_neg hzero]
    have hunit : 0 < unit q := zpow_pos (by norm_num) _
    have hfloor : 0 ≤ ⌊q / unit q⌋ := Int.floor_nonneg.mpr (div_nonneg h hunit.le)
    have hticks : 0 ≤ tiesToEven (q / unit q) := by
      unfold tiesToEven
      dsimp only
      split_ifs <;> omega
    have hcast : (0 : Rat) ≤ (tiesToEven (q / unit q) : Int) := by
      exact_mod_cast hticks
    exact mul_nonneg hcast hunit.le

/-- An integer is nearest to itself. -/
theorem tiesToEven_intCast (n : Int) : tiesToEven n = n := by
  simp [tiesToEven]

/-- A power of two is a binary64 value while it is in range. -/
theorem nearest_two_pow (exponent : Nat) : nearest (2 ^ exponent) = 2 ^ exponent := by
  have hpos : (0 : Rat) < 2 ^ exponent := by positivity
  have hlog : Int.log 2 |(2 : Rat) ^ exponent| = exponent := by
    rw [abs_of_pos hpos]
    exact_mod_cast Int.log_zpow (R := Rat) (b := 2) (by decide) exponent
  have hunit : unit (2 ^ exponent) = 2 ^ ((exponent : Int) - 52) := by
    rw [unit, hlog, max_eq_left (by omega)]
  have hticks : (2 : Rat) ^ exponent / 2 ^ ((exponent : Int) - 52) = ((2 ^ 52 : Int) : Rat) := by
    rw [zpow_sub₀ (by norm_num), zpow_natCast]
    field_simp
    norm_num
  rw [nearest, if_neg hpos.ne', hunit, hticks, tiesToEven_intCast, ← hticks]
  exact div_mul_cancel₀ _ (zpow_pos (by norm_num) _).ne'

/-- The conversion of a power of two fails from the exponent 1024 on. -/
theorem ofNat_two_pow (exponent : Nat) (value : Rat) :
    ofNat (2 ^ exponent) = some value ↔ exponent < 1024 ∧ 2 ^ exponent = value := by
  have hnearest : nearest ((2 ^ exponent : Nat) : Rat) = 2 ^ exponent := by
    rw [Nat.cast_pow]
    exact nearest_two_pow exponent
  have hrange : (2 : Rat) ^ exponent < 2 ^ 1024 ↔ exponent < 1024 :=
    pow_lt_pow_iff_right₀ (by norm_num)
  rw [ofNat, hnearest]
  by_cases h : exponent < 1024
  · rw [if_pos (hrange.mpr h)]
    simp [h]
  · rw [if_neg (mt hrange.mp h)]
    simp [h]

example : nearest (1 / 10) = 3602879701896397 / 2 ^ 55 := by decide +kernel

example : ofNat (2 ^ 1024 - 2 ^ 970 - 1) ≠ none ∧ ofNat (2 ^ 1024 - 2 ^ 970) = none := by
  decide +kernel

end Binary64
