import Mathlib.Tactic.IntervalCases

/-!
# The proleptic Gregorian calendar

Dates and their ordinals, where January 1 of year 1 has ordinal 1. The ordinal of a date orders the dates
as their year, month and day do, and every positive ordinal has a date.
-/

namespace Calendar

/-! ## Years and months -/

/-- A leap year. -/
def IsLeap (year : Nat) : Prop :=
  year % 4 = 0 ∧ (year % 100 ≠ 0 ∨ year % 400 = 0)

instance (year : Nat) : Decidable (IsLeap year) :=
  inferInstanceAs (Decidable (_ ∧ _))

/-- The days before January 1 of a year. -/
def daysBeforeYear (year : Nat) : Nat :=
  (year - 1) * 365 + (year - 1) / 4 - (year - 1) / 100 + (year - 1) / 400

/-- The days of a month in a year that is not a leap year. -/
def daysInCommonMonth : Nat → Nat
  | 2 => 28
  | 4 | 6 | 9 | 11 => 30
  | _ => 31

/-- The days of a month. -/
def daysInMonth (year month : Nat) : Nat :=
  if month = 2 ∧ IsLeap year then 29 else daysInCommonMonth month

/-- The days before the first of a month in a year that is not a leap year. -/
def daysBeforeCommonMonth : Nat → Nat
  | 0 => 0
  | month + 1 => daysBeforeCommonMonth month + if month = 0 then 0 else daysInCommonMonth month

/-- The days of a year before the first of a month. -/
def daysBeforeMonth (year month : Nat) : Nat :=
  daysBeforeCommonMonth month + if 2 < month ∧ IsLeap year then 1 else 0

/-- The days before the next year. -/
theorem daysBeforeYear_succ {year : Nat} (h : 1 ≤ year) :
    daysBeforeYear (year + 1) = daysBeforeYear year + if IsLeap year then 366 else 365 := by
  obtain ⟨past, rfl⟩ := Nat.exists_eq_add_of_le' h
  have hleap : IsLeap (past + 1) ↔ 4 ∣ past + 1 ∧ (¬ 100 ∣ past + 1 ∨ 400 ∣ past + 1) := by
    unfold IsLeap
    rw [Nat.dvd_iff_mod_eq_zero, Nat.dvd_iff_mod_eq_zero, Nat.dvd_iff_mod_eq_zero]
  have hhundred : 100 ∣ past + 1 → 4 ∣ past + 1 := (by decide : 4 ∣ 100).trans
  have hcycle : 400 ∣ past + 1 → 100 ∣ past + 1 := (by decide : 100 ∣ 400).trans
  have hle : past / 100 ≤ past / 4 := Nat.div_le_div_left (by decide) (by decide)
  unfold daysBeforeYear
  rw [if_congr hleap rfl rfl]
  simp only [Nat.add_sub_cancel, Nat.succ_div, Nat.add_mul, Nat.one_mul]
  generalize past / 4 = fours at hle ⊢
  generalize past / 100 = hundreds at hle ⊢
  generalize past / 400 = cycles
  by_cases h4 : 4 ∣ past + 1 <;> by_cases h100 : 100 ∣ past + 1 <;>
    by_cases h400 : 400 ∣ past + 1 <;> simp only [h4, h100, h400, forall_const, imp_false] at * <;>
    simp <;> omega

/-- An earlier year ends before a later one begins. -/
theorem daysBeforeYear_lt {year later : Nat} (h : 1 ≤ year) (hlater : year < later) :
    daysBeforeYear year + (if IsLeap year then 366 else 365) ≤ daysBeforeYear later := by
  obtain ⟨years, rfl⟩ := Nat.exists_eq_add_of_lt hlater
  induction years with
  | zero => exact (daysBeforeYear_succ h).ge
  | succ years ih =>
      refine (ih (by omega)).trans ?_
      have hnext := @daysBeforeYear_succ (year + years + 1) (by omega)
      exact (Nat.le_add_right _ _).trans hnext.ge

/-- An earlier month ends before a later one begins. -/
theorem daysBeforeMonth_lt (year : Nat) {month later : Nat} (h : 1 ≤ month) (hlater : month < later)
    (hlast : later ≤ 12) :
    daysBeforeMonth year month + daysInMonth year month ≤ daysBeforeMonth year later := by
  unfold daysBeforeMonth daysInMonth
  have hmonth : month ≤ 11 := by omega
  by_cases hleap : IsLeap year <;> simp only [hleap, and_true, and_false, if_false] <;>
    interval_cases month <;> interval_cases later <;> decide

/-- The months make up the year. -/
theorem daysBeforeMonth_le (year : Nat) {month : Nat} (h : 1 ≤ month) (hlast : month ≤ 12) :
    daysBeforeMonth year month + daysInMonth year month ≤ if IsLeap year then 366 else 365 := by
  unfold daysBeforeMonth daysInMonth
  by_cases hleap : IsLeap year <;> simp only [hleap, and_true, and_false, if_true, if_false] <;>
    interval_cases month <;> decide

/-! ## Dates -/

/-- A date from year 1 on. -/
structure Date where
  year : Nat
  month : Nat
  day : Nat
  valid : 1 ≤ year ∧ 1 ≤ month ∧ month ≤ 12 ∧ 1 ≤ day ∧ day ≤ daysInMonth year month
deriving DecidableEq

namespace Date

/-- The ordinal of a date. -/
def ordinal (date : Date) : Nat :=
  daysBeforeYear date.year + daysBeforeMonth date.year date.month + date.day

/-- The order of year, month and day. -/
def Before (date other : Date) : Prop :=
  date.year < other.year ∨
    date.year = other.year ∧
      (date.month < other.month ∨ date.month = other.month ∧ date.day < other.day)

/-- The ordinal lies in the year of the date. -/
theorem ordinal_within (date : Date) :
    daysBeforeYear date.year < date.ordinal ∧
      date.ordinal ≤ daysBeforeYear date.year + if IsLeap date.year then 366 else 365 := by
  obtain ⟨_, hmonth, hlast, hday, hdays⟩ := date.valid
  have hyear := daysBeforeMonth_le date.year hmonth hlast
  unfold ordinal
  omega

/-- Earlier dates have smaller ordinals. -/
theorem ordinal_lt_of_before {date other : Date} (h : date.Before other) :
    date.ordinal < other.ordinal := by
  rcases h with hyear | ⟨hyear, hmonth | ⟨hmonth, hday⟩⟩
  · have hlater := daysBeforeYear_lt date.valid.1 hyear
    have hdate := date.ordinal_within.2
    have hother := other.ordinal_within.1
    omega
  · have hlater := daysBeforeMonth_lt date.year date.valid.2.1 hmonth other.valid.2.2.1
    have hdays := date.valid.2.2.2.2
    have hother := other.valid.2.2.2.1
    unfold ordinal
    rw [← hyear]
    omega
  · unfold ordinal
    rw [← hyear, ← hmonth]
    omega

/-- A date is its year, month and day. -/
theorem eq_iff {date other : Date} :
    date = other ↔ date.year = other.year ∧ date.month = other.month ∧ date.day = other.day := by
  refine ⟨fun h => h ▸ ⟨rfl, rfl, rfl⟩, ?_⟩
  rintro ⟨hyear, hmonth, hday⟩
  cases date
  cases other
  cases hyear
  cases hmonth
  cases hday
  rfl

/-- Of two dates one is earlier, or they are equal. -/
theorem before_trichotomy (date other : Date) :
    date.Before other ∨ date = other ∨ other.Before date := by
  rw [eq_iff]
  unfold Before
  omega

/-- The ordinals order the dates. -/
theorem ordinal_lt {date other : Date} : date.ordinal < other.ordinal ↔ date.Before other := by
  refine ⟨fun hlt => ?_, ordinal_lt_of_before⟩
  rcases before_trichotomy date other with hbefore | rfl | hafter
  · exact hbefore
  · exact absurd hlt (Nat.lt_irrefl _)
  · exact absurd (hlt.trans (ordinal_lt_of_before hafter)) (Nat.lt_irrefl _)

/-- Dates with one ordinal are equal. -/
theorem ordinal_injective {date other : Date} (h : date.ordinal = other.ordinal) : date = other := by
  rcases before_trichotomy date other with hbefore | rfl | hafter
  · exact absurd h (ordinal_lt_of_before hbefore).ne
  · rfl
  · exact absurd h (ordinal_lt_of_before hafter).ne'

end Date

/-! ## The date of an ordinal -/

/-- The year of an ordinal, and the days of the year before it: cycles of 400, 100 and 4 years, and single
years, are divided off. -/
def yearOfOrdinal (ordinal : Nat) : Nat × Nat :=
  let days := ordinal - 1
  let n400 := days / 146097
  let days := days % 146097
  let n100 := days / 36524
  let days := days % 36524
  let n4 := days / 1461
  let days := days % 1461
  let n1 := days / 365
  let year := n400 * 400 + n100 * 100 + n4 * 4 + n1 + 1
  -- The last day of a leap year is not divided off.
  if n1 = 4 ∨ n100 = 4 then (year - 1, 365) else (year, days % 365)

/-- The month of a day of a year, and the days of the month before it. -/
def monthOfDay (leap : Bool) (day : Nat) : Nat × Nat :=
  let before (month : Nat) := daysBeforeCommonMonth month + if 2 < month ∧ leap then 1 else 0
  let month := (day + 50) / 32
  if before month ≤ day then (month, day - before month) else (month - 1, day - before (month - 1))

/-- The parts that are divided off give back the year before. -/
theorem daysBeforeYear_parts {a b c d : Nat} (hb : b ≤ 3) (hc : c ≤ 24) (hd : d ≤ 3) :
    daysBeforeYear (a * 400 + b * 100 + c * 4 + d + 1) =
      a * 146097 + b * 36524 + c * 1461 + d * 365 := by
  have h4 : (a * 400 + b * 100 + c * 4 + d) / 4 = a * 100 + b * 25 + c := by omega
  have h100 : (a * 400 + b * 100 + c * 4 + d) / 100 = a * 4 + b := by omega
  have h400 : (a * 400 + b * 100 + c * 4 + d) / 400 = a := by omega
  unfold daysBeforeYear
  rw [Nat.add_sub_cancel, h4, h100, h400]
  omega

/-- The last of four years is leap, but for the last of a hundred, and again the last of four hundred. -/
theorem isLeap_parts {a b c d : Nat} (hb : b ≤ 3) (hc : c ≤ 24) (hd : d ≤ 3) :
    IsLeap (a * 400 + b * 100 + c * 4 + d + 1) ↔ d = 3 ∧ (c ≠ 24 ∨ b = 3) := by
  unfold IsLeap
  omega

/-- The year of an ordinal contains it. -/
theorem yearOfOrdinal_spec {ordinal : Nat} (h : 1 ≤ ordinal) :
    1 ≤ (yearOfOrdinal ordinal).1 ∧
      ordinal = daysBeforeYear (yearOfOrdinal ordinal).1 + (yearOfOrdinal ordinal).2 + 1 ∧
      (yearOfOrdinal ordinal).2 < if IsLeap (yearOfOrdinal ordinal).1 then 366 else 365 := by
  obtain ⟨days, rfl⟩ := Nat.exists_eq_add_of_le' h
  obtain ⟨a, ha⟩ : ∃ a, days / 146097 = a := ⟨_, rfl⟩
  obtain ⟨b, hb⟩ : ∃ b, days % 146097 / 36524 = b := ⟨_, rfl⟩
  obtain ⟨c, hc⟩ : ∃ c, days % 146097 % 36524 / 1461 = c := ⟨_, rfl⟩
  obtain ⟨d, hd⟩ : ∃ d, days % 146097 % 36524 % 1461 / 365 = d := ⟨_, rfl⟩
  obtain ⟨e, he⟩ : ∃ e, days % 146097 % 36524 % 1461 % 365 = e := ⟨_, rfl⟩
  have hyear : yearOfOrdinal (days + 1) =
      if d = 4 ∨ b = 4 then (a * 400 + b * 100 + c * 4 + d, 365)
      else (a * 400 + b * 100 + c * 4 + d + 1, e) := by
    unfold yearOfOrdinal
    simp only [Nat.add_sub_cancel, ha, hb, hc, hd, he]
  have hdays : days = a * 146097 + b * 36524 + c * 1461 + d * 365 + e := by omega
  rw [hyear]
  by_cases hlast : d = 4 ∨ b = 4
  · rw [if_pos hlast]
    -- The last day of a leap year is the last of the year before the one that is divided off.
    have hlastDay : ∃ b' c', b' ≤ 3 ∧ c' ≤ 24 ∧ (c' ≠ 24 ∨ b' = 3) ∧
        b * 100 + c * 4 + d = b' * 100 + c' * 4 + 4 ∧
        b * 36524 + c * 1461 + d * 365 + e = b' * 36524 + c' * 1461 + 1460 := by
      rcases hlast with hfour | hhundred
      · have hparts : b ≤ 3 ∧ (c ≠ 24 ∨ b = 3) ∧ e = 0 := by omega
        exact ⟨b, c, hparts.1, by omega, hparts.2.1, by omega, by omega⟩
      · have hparts : c = 0 ∧ d = 0 ∧ e = 0 := by omega
        exact ⟨3, 24, le_rfl, le_rfl, .inr rfl, by omega, by omega⟩
    obtain ⟨b', c', hb', hc', hleap, hyears, hrest⟩ := hlastDay
    have hyear' : a * 400 + b * 100 + c * 4 + d = a * 400 + b' * 100 + c' * 4 + 3 + 1 := by
      rw [Nat.add_assoc, Nat.add_assoc, ← Nat.add_assoc (b * 100), hyears, ← Nat.add_assoc,
        ← Nat.add_assoc]
    rw [hyear', daysBeforeYear_parts hb' hc' le_rfl,
      if_pos ((isLeap_parts hb' hc' le_rfl).mpr ⟨rfl, hleap⟩)]
    refine ⟨Nat.le_add_left _ _, ?_, Nat.lt_succ_self 365⟩
    omega
  · rw [if_neg hlast]
    have hbound : b ≤ 3 ∧ c ≤ 24 ∧ d ≤ 3 ∧ e < 365 := by omega
    refine ⟨Nat.le_add_left _ _, ?_, ?_⟩
    · rw [daysBeforeYear_parts hbound.1 hbound.2.1 hbound.2.2.1]
      omega
    · dsimp only
      split <;> omega

/-- The month of a day contains it. -/
theorem monthOfDay_spec {year day : Nat} (h : day < if IsLeap year then 366 else 365) :
    let month := (monthOfDay (decide (IsLeap year)) day).1
    1 ≤ month ∧ month ≤ 12 ∧
      day = daysBeforeMonth year month + (monthOfDay (decide (IsLeap year)) day).2 ∧
      (monthOfDay (decide (IsLeap year)) day).2 < daysInMonth year month := by
  have hcommon : ∀ day < 365, 1 ≤ (monthOfDay false day).1 ∧ (monthOfDay false day).1 ≤ 12 ∧
      day = daysBeforeCommonMonth (monthOfDay false day).1 + (monthOfDay false day).2 ∧
      (monthOfDay false day).2 < daysInCommonMonth (monthOfDay false day).1 := by
    decide +kernel
  have hleapYear : ∀ day < 366, 1 ≤ (monthOfDay true day).1 ∧ (monthOfDay true day).1 ≤ 12 ∧
      day = daysBeforeCommonMonth (monthOfDay true day).1 +
        (if 2 < (monthOfDay true day).1 then 1 else 0) + (monthOfDay true day).2 ∧
      (monthOfDay true day).2 <
        if (monthOfDay true day).1 = 2 then 29 else daysInCommonMonth (monthOfDay true day).1 := by
    decide +kernel
  unfold daysBeforeMonth daysInMonth
  by_cases hleap : IsLeap year
  · rw [if_pos hleap] at h
    simpa only [hleap, decide_true, and_true] using hleapYear day h
  · rw [if_neg hleap] at h
    simpa only [hleap, decide_false, and_false, if_false, Nat.add_zero] using hcommon day h

/-- The date of an ordinal. -/
def Date.ofOrdinal (ordinal : Nat) (h : 1 ≤ ordinal) : Date :=
  let year := yearOfOrdinal ordinal
  let month := monthOfDay (decide (IsLeap year.1)) year.2
  ⟨year.1, month.1, month.2 + 1,
    have hyear := yearOfOrdinal_spec h
    have hmonth := monthOfDay_spec hyear.2.2
    ⟨hyear.1, hmonth.1, hmonth.2.1, Nat.le_add_left _ _, hmonth.2.2.2⟩⟩

/-- The date of an ordinal has that ordinal. -/
@[simp] theorem Date.ordinal_ofOrdinal (ordinal : Nat) (h : 1 ≤ ordinal) :
    (Date.ofOrdinal ordinal h).ordinal = ordinal := by
  have hyear := yearOfOrdinal_spec h
  have hmonth := monthOfDay_spec hyear.2.2
  have hday := hmonth.2.2.1
  unfold Date.ordinal Date.ofOrdinal
  dsimp only at hday ⊢
  omega

end Calendar
