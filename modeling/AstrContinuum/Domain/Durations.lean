import AstrContinuum.Control.Binary64
import AstrContinuum.Domain.Timestamps

/-!
# Durations

A number of seconds of a configuration, which is an `int` or a `float`, multiplied by a power of two and
added to a `datetime`. A time counts the microseconds since the ordinal zero.
-/

namespace AstrContinuum

open Checked

/-- A number of seconds: an `int`, or a `float` other than negative infinity. -/
inductive Seconds
  | integer (value : Int)
  | float (value : Rat)
  | infinity
  | nan
deriving DecidableEq

namespace Seconds

/-- The number that is compared; `nan` compares with none. -/
def number : Seconds → Option (WithTop Rat)
  | .integer value => some (value : Rat)
  | .float value => some value
  | .infinity => some ⊤
  | .nan => none

/-- `seconds < other`. -/
def isBelow (seconds other : Seconds) : Bool :=
  match seconds.number, other.number with
  | some value, some bound => decide (value < bound)
  | _, _ => false

/-- `seconds <= 0`. -/
def isNonpositive (seconds : Seconds) : Bool :=
  match seconds.number with
  | some value => decide (value ≤ 0)
  | none => false

/-- `min(seconds, other)`: the first one unless the second is below it. -/
def atMost (seconds other : Seconds) : Seconds :=
  if other.isBelow seconds then other else seconds

/-- The value is an `int`. -/
def isInteger : Seconds → Bool
  | .integer _ => true
  | _ => false

/-- A float that is not negative, from its exact value. -/
def ofExact (value : Rat) : Seconds :=
  if Binary64.nearest value < 2 ^ 1024 then .float (Binary64.nearest value) else .infinity

/-- `seconds * (2**exponent)`; the product with a float needs the power as a float. -/
def timesPower (seconds : Seconds) (exponent : Nat) : Except TimestampFailure Seconds :=
  match seconds with
  | .integer value => .ok (.integer (value * 2 ^ exponent))
  | .float value => do
      let power ← orMissing (Binary64.ofNat (2 ^ exponent)) .overflowError
      pure (ofExact (value * power))
  | .infinity | .nan => do
      let _ ← orMissing (Binary64.ofNat (2 ^ exponent)) .overflowError
      pure seconds

/-- `timedelta(seconds=seconds)`, in microseconds. The seconds are not negative; what is left of one is
counted in microseconds as a float, and rounded. -/
def timedelta : Seconds → Except TimestampFailure Int
  | .integer value => .ok (value * 1000000)
  | .float value =>
      .ok (⌊value⌋ * 1000000 +
        Binary64.tiesToEven (Binary64.nearest ((value - ⌊value⌋) * 1000000)))
  | .infinity => .error .overflowError
  | .nan => .error (.valueError "cannot convert float NaN to integer")

/-- The microseconds from the ordinal zero to the end of the last year of a `datetime`. -/
def endOfTime : Nat := (maxOrdinal + 1) * dayMicroseconds

/-- `clock + timedelta(seconds=seconds)`. -/
def after (seconds : Seconds) (clock : Nat) : Except TimestampFailure Nat := do
  let delta ← seconds.timedelta
  require (clock + delta < endOfTime) .overflowError
  pure (clock + delta).toNat

/-! ## What can be computed -/

/-- The product with a power of two, where the power is a float. -/
def scaled (seconds : Seconds) (exponent : Nat) : Seconds :=
  match seconds with
  | .integer value => .integer (value * 2 ^ exponent)
  | .float value => ofExact (value * 2 ^ exponent)
  | .infinity | .nan => seconds

/-- The product with a power of two is computed exactly for an integer and for a small power. -/
theorem timesPower_ok {seconds product : Seconds} {exponent : Nat} :
    seconds.timesPower exponent = .ok product ↔
      (seconds.isInteger = true ∨ exponent < 1024) ∧ seconds.scaled exponent = product := by
  cases seconds with
  | integer value => simp [timesPower, scaled, isInteger]
  | float value | infinity | nan =>
      simp only [timesPower, scaled, isInteger, bind_ok, orMissing_ok, Binary64.ofNat_two_pow, pure_ok,
        Bool.false_eq_true, false_or]
      constructor
      · rintro ⟨power, ⟨hlt, rfl⟩, hproduct⟩
        exact ⟨hlt, hproduct⟩
      · rintro ⟨hlt, hproduct⟩
        exact ⟨_, ⟨hlt, rfl⟩, hproduct⟩

/-- A power from `2**1024` on is no float. -/
theorem timesPower_overflow {seconds : Seconds} {exponent : Nat} (hfloat : seconds.isInteger = false)
    (hrange : 1024 ≤ exponent) : seconds.timesPower exponent = .error .overflowError := by
  have hnone : Binary64.ofNat (2 ^ exponent) = none :=
    Option.eq_none_iff_forall_ne_some.mpr fun power hpower =>
      absurd ((Binary64.ofNat_two_pow exponent power).mp hpower).1 (by omega)
  cases seconds with
  | integer value => cases hfloat
  | float value | infinity | nan =>
      rw [timesPower, hnone]
      rfl

/-- The duration leads from the clock to a time after `now`. -/
def LeadsAhead (seconds : Seconds) (clock now : Nat) : Prop :=
  ∃ delta, seconds.timedelta = .ok delta ∧ now < clock + delta ∧ clock + delta < endOfTime

/-- It does exactly when the sum with the clock is computed and is after `now`. -/
theorem after_ok {seconds : Seconds} {clock now : Nat} :
    (∃ time, seconds.after clock = .ok time ∧ now < time) ↔ seconds.LeadsAhead clock now := by
  unfold after LeadsAhead
  constructor
  · rintro ⟨time, htime, hnow⟩
    obtain ⟨delta, hdelta, htime⟩ := bind_ok.mp htime
    obtain ⟨_, hend, htime⟩ := bind_ok.mp htime
    obtain rfl := pure_ok.mp htime
    exact ⟨delta, hdelta, by omega, require_ok.mp hend⟩
  · rintro ⟨delta, hdelta, hnow, hend⟩
    refine ⟨_, bind_ok.mpr ⟨delta, hdelta, bind_ok.mpr ⟨(), require_ok.mpr hend, rfl⟩⟩, ?_⟩
    omega

end Seconds

end AstrContinuum
