import AstrContinuum.Algebra.Calendar
import AstrContinuum.Algebra.FixedWidth
import AstrContinuum.Control.Checked

/-!
# Timestamps

`_normalize_datetime` and `_parse_datetime` of `storage/repository.py`, over a model of `datetime`: the
fields of a local time, and the UTC offset that its `tzinfo` gives for it. A `tzinfo` that gives no offset
is as none.
-/

namespace AstrContinuum

open Calendar Checked FixedWidth

/-! ## Date and time -/

/-- The microseconds of a day. -/
abbrev dayMicroseconds : Nat := 86400000000

/-- A local time of day. -/
structure Clock where
  hour : Nat
  minute : Nat
  second : Nat
  microsecond : Nat
  valid : hour < 24 ∧ minute < 60 ∧ second < 60 ∧ microsecond < 1000000
deriving DecidableEq

/-- The microseconds of hours, minutes, seconds and microseconds. -/
def clockMicroseconds (hour minute second microsecond : Nat) : Nat :=
  ((hour * 60 + minute) * 60 + second) * 1000000 + microsecond

/-- The microseconds since midnight. -/
def Clock.microseconds (clock : Clock) : Nat :=
  clockMicroseconds clock.hour clock.minute clock.second clock.microsecond

/-- The hours, minutes, seconds and microseconds of a duration below a day. -/
def Clock.ofMicroseconds (microseconds : Nat) (h : microseconds < dayMicroseconds) : Clock :=
  ⟨microseconds / 3600000000, microseconds / 60000000 % 60, microseconds / 1000000 % 60,
    microseconds % 1000000, by unfold dayMicroseconds at h; omega⟩

/-- `datetime`; the offset is in microseconds. -/
structure Datetime where
  date : Date
  clock : Clock
  utcoffset : Option Int
  valid : date.year ≤ 9999 ∧
    ∀ offset ∈ utcoffset, -(dayMicroseconds : Int) < offset ∧ offset < dayMicroseconds

namespace Datetime

/-- The microseconds of the local time since the ordinal zero. -/
def localTime (value : Datetime) : Nat :=
  value.date.ordinal * dayMicroseconds + value.clock.microseconds

/-- The instant, in microseconds; a naive value has none. -/
def instant (value : Datetime) : Option Int :=
  value.utcoffset.map fun offset => (value.localTime : Int) - offset

end Datetime

/-- What the conversion of timestamps raises. -/
inductive TimestampFailure
  | valueError (message : String)
  | overflowError
deriving DecidableEq

/-- `datetime.max.toordinal()`. -/
abbrev maxOrdinal : Nat := 3652059

/-- A year is at most the last one if and only if the ordinal is. -/
theorem year_le_iff (date : Date) : date.year ≤ 9999 ↔ date.ordinal ≤ maxOrdinal := by
  have hlast : daysBeforeYear 10000 = maxOrdinal := by decide
  constructor
  · intro hyear
    have hnext := daysBeforeYear_lt date.valid.1 (Nat.lt_succ_of_le hyear)
    exact date.ordinal_within.2.trans (hnext.trans hlast.le)
  · intro hordinal
    by_contra hyear
    have hmono : daysBeforeYear 10000 ≤ daysBeforeYear date.year := by
      rcases Nat.lt_or_eq_of_le (Nat.not_le.mp hyear : 10000 ≤ date.year) with hlt | heq
      · exact (Nat.le_add_right _ _).trans (daysBeforeYear_lt (by decide) hlt)
      · rw [← heq]
    have hwithin := date.ordinal_within.1
    omega

/-- A `datetime` in UTC of the microseconds since the ordinal zero. -/
def Datetime.ofUtc (time : Int) : Except TimestampFailure Datetime :=
  if h : 1 ≤ time / dayMicroseconds ∧ time / dayMicroseconds ≤ maxOrdinal then
    .ok
      { date := Date.ofOrdinal (time / dayMicroseconds).toNat (by omega)
        clock := Clock.ofMicroseconds (time % dayMicroseconds).toNat (by
          have hpos : (0 : Int) < dayMicroseconds := by decide
          have hlt := Int.emod_lt_of_pos time hpos
          omega)
        utcoffset := some 0
        valid := ⟨(year_le_iff _).mpr (by rw [Date.ordinal_ofOrdinal]; omega), by
          rintro offset ⟨⟩
          decide⟩ }
  else .error .overflowError

/-- `value.astimezone(timezone.utc)` of a value with an offset. -/
def Datetime.astimezoneUtc (value : Datetime) (offset : Int) : Except TimestampFailure Datetime :=
  Datetime.ofUtc ((value.localTime : Int) - offset)

/-! ## Texts -/

/-- The time of day as it is written. -/
def formatClock (hour minute second microsecond : Nat) : List Char :=
  padded 2 hour ++ ':' :: (padded 2 minute ++ ':' :: (padded 2 second ++ '.' :: padded 6 microsecond))

/-- `_format_offset`. -/
def formatOffset (offset : Int) : List Char :=
  let sign := if offset < 0 then '-' else '+'
  let minutes := offset.natAbs / 60000000
  let rest := offset.natAbs % 60000000
  let seconds := rest / 1000000
  let microseconds := rest % 1000000
  sign :: (padded 2 (minutes / 60) ++ ':' :: (padded 2 (minutes % 60) ++
    if rest = 0 then [] else ':' :: (padded 2 seconds ++
      if microseconds = 0 then [] else '.' :: padded 6 microseconds)))

/-- `value.isoformat(timespec="microseconds")`. -/
def Datetime.isoformat (value : Datetime) : List Char :=
  padded 4 value.date.year ++ '-' :: (padded 2 value.date.month ++ '-' :: (padded 2 value.date.day ++
    'T' :: (formatClock value.clock.hour value.clock.minute value.clock.second value.clock.microsecond ++
      value.utcoffset.elim [] formatOffset)))

/-- `text.replace(old, new)`, with the characters still to be skipped of an occurrence. -/
def replaceChars (old new : List Char) : Nat → List Char → List Char
  | _, [] => []
  | skip + 1, _ :: rest => replaceChars old new skip rest
  | 0, c :: rest =>
      if old.isPrefixOf (c :: rest) then new ++ replaceChars old new (old.length - 1) rest
      else c :: replaceChars old new 0 rest

/-- `text.replace(old, new)`. -/
def replaceText (old new text : String) : String :=
  String.ofList (replaceChars old.toList new.toList 0 text.toList)

/-- `_normalize_datetime`. -/
def normalizeDatetime (value : Datetime) : Except TimestampFailure String := do
  let offset ← orMissing value.utcoffset (.valueError "timestamp must be timezone-aware")
  let utc ← value.astimezoneUtc offset
  pure (replaceText "+00:00" "Z" (String.ofList utc.isoformat))

/-! ## Reading a text -/

/-- Three or six digits of a second. -/
def parseFraction (text : List Char) : Option Nat :=
  if text.length = 6 then (readNumber 6 text).map Prod.fst
  else if text.length = 3 then (readNumber 3 text).map fun part => part.1 * 1000
  else none

/-- `_parse_hh_mm_ss_ff`: hours, minutes, seconds and microseconds, which are not compared with their
ranges yet. -/
def parseClock (text : List Char) : Option (Nat × Nat × Nat × Nat) := do
  let (hour, text) ← readNumber 2 text
  match text with
  | [] => pure (hour, 0, 0, 0)
  | ':' :: text => do
      let (minute, text) ← readNumber 2 text
      match text with
      | [] => pure (hour, minute, 0, 0)
      | ':' :: text => do
          let (second, text) ← readNumber 2 text
          match text with
          | [] => pure (hour, minute, second, 0)
          | '.' :: text => do
              let microsecond ← parseFraction text
              pure (hour, minute, second, microsecond)
          | _ => none
      | _ => none
  | _ => none

/-- The offset at the end of a text: to the minute, second or microsecond, and less than a day. -/
def parseOffset : List Char → Option (Option Int)
  | [] => some none
  | sign :: text =>
      if text.length = 5 ∨ text.length = 8 ∨ text.length = 15 then do
        let (hour, minute, second, microsecond) ← parseClock text
        let size := clockMicroseconds hour minute second microsecond
        if size < dayMicroseconds then pure (some (if sign = '-' then -(size : Int) else size)) else none
      else none

/-- `_parse_isoformat_time`: the offset begins at the first sign. -/
def parseTime (text : List Char) : Option ((Nat × Nat × Nat × Nat) × Option Int) := do
  let isSign (c : Char) := c = '+' ∨ c = '-'
  let clock ← parseClock (text.takeWhile fun c => ¬ isSign c)
  let offset ← parseOffset (text.dropWhile fun c => ¬ isSign c)
  pure (clock, offset)

/-- `_parse_isoformat_date`. -/
def parseDate (text : List Char) : Option ((Nat × Nat × Nat) × List Char) := do
  let (year, text) ← readNumber 4 text
  match text with
  | '-' :: text => do
      let (month, text) ← readNumber 2 text
      match text with
      | '-' :: text => do
          let (day, text) ← readNumber 2 text
          pure ((year, month, day), text)
      | _ => none
  | _ => none

/-- The constructor `datetime(...)`. -/
def Datetime.ofFields (year month day hour minute second microsecond : Nat) (utcoffset : Option Int) :
    Option Datetime :=
  if hdate : 1 ≤ year ∧ 1 ≤ month ∧ month ≤ 12 ∧ 1 ≤ day ∧ day ≤ daysInMonth year month then
    if hclock : hour < 24 ∧ minute < 60 ∧ second < 60 ∧ microsecond < 1000000 then
      if h : year ≤ 9999 ∧
          ∀ offset ∈ utcoffset, -(dayMicroseconds : Int) < offset ∧ offset < dayMicroseconds then
        some ⟨⟨year, month, day, hdate⟩, ⟨hour, minute, second, microsecond, hclock⟩, utcoffset, h⟩
      else none
    else none
  else none

/-- `datetime.fromisoformat`: a date, and after any one character a time. -/
def Datetime.fromisoformat (text : List Char) : Option Datetime := do
  let ((year, month, day), text) ← parseDate text
  match text with
  | [] | [_] => Datetime.ofFields year month day 0 0 0 0 none
  | _ :: text => do
      let ((hour, minute, second, microsecond), utcoffset) ← parseTime text
      Datetime.ofFields year month day hour minute second microsecond utcoffset

/-- `_parse_datetime`; a text that is none is a `ValueError`. -/
def parseDatetime (text : String) : Option Datetime :=
  Datetime.fromisoformat (replaceText "Z" "+00:00" text).toList

/-! ## Replacing -/

/-- Characters before the first one of what is replaced are kept. -/
theorem replaceChars_append {first : Char} {old new kept : List Char} (h : first ∉ kept)
    (text : List Char) :
    replaceChars (first :: old) new 0 (kept ++ text) =
      kept ++ replaceChars (first :: old) new 0 text := by
  induction kept with
  | nil => rfl
  | cons c kept ih =>
      have hne : ¬ (first :: old).isPrefixOf (c :: (kept ++ text)) = true := by
        have hfirst : first ≠ c := fun heq => h (List.mem_cons.mpr (.inl heq))
        rw [List.isPrefixOf_cons_cons, beq_false_of_ne hfirst, Bool.false_and]
        exact Bool.false_ne_true
      rw [List.cons_append, replaceChars, if_neg hne, ih fun hmem => h (List.mem_cons_of_mem c hmem)]
      rfl

/-- An occurrence at the end is replaced. -/
theorem replaceChars_self (first : Char) (old new : List Char) :
    replaceChars (first :: old) new 0 (first :: old) = new := by
  have hskip : ∀ text : List Char, replaceChars (first :: old) new text.length text = [] := by
    intro text
    induction text with
    | nil => rfl
    | cons c text ih => exact ih
  have hprefix : (first :: old).isPrefixOf (first :: old) = true :=
    List.isPrefixOf_iff_prefix.mpr (List.prefix_refl _)
  rw [replaceChars, if_pos hprefix, List.length_cons, Nat.add_sub_cancel, hskip, List.append_nil]

/-! ## The texts of instants -/

/-- The date and the time of day as they are written in UTC, without the offset. -/
def utcStem (date : Date) (clock : Clock) : List Char :=
  padded 4 date.year ++ '-' :: (padded 2 date.month ++ '-' :: (padded 2 date.day ++
    'T' :: formatClock clock.hour clock.minute clock.second clock.microsecond))

/-- A text in UTC ends with its offset. -/
theorem isoformat_utc {value : Datetime} (h : value.utcoffset = some 0) :
    value.isoformat = utcStem value.date value.clock ++ "+00:00".toList := by
  have hoffset : formatOffset 0 = "+00:00".toList := by decide
  rw [Datetime.isoformat, utcStem, h, Option.elim_some, hoffset]
  simp only [List.append_assoc, List.cons_append]

/-- A text has only digits and the marks between them. -/
theorem mem_utcStem {date : Date} {clock : Clock} {c : Char} (h : c ∈ utcStem date clock) :
    c.isDigit = true ∨ c = '-' ∨ c = 'T' ∨ c = ':' ∨ c = '.' := by
  simp only [utcStem, formatClock, List.mem_append, List.mem_cons] at h
  rcases h with h | h | h | h | h | h | h | h | h | h | h | h | h <;>
    first
      | exact .inl (isDigit_of_mem_padded h)
      | simp [h]

/-- The fields of a date are below the bounds of their widths. -/
theorem date_widths {date : Date} (h : date.year ≤ 9999) :
    date.year < 10 ^ 4 ∧ date.month < 10 ^ 2 ∧ date.day < 10 ^ 2 := by
  obtain ⟨_, _, hmonth, _, hday⟩ := date.valid
  have hdays : daysInMonth date.year date.month ≤ 31 := by
    unfold daysInMonth daysInCommonMonth
    split
    · decide
    · split <;> decide
  omega

/-- Clocks are ordered as their microseconds are. -/
theorem clock_lt {clock other : Clock} :
    clock.microseconds < other.microseconds ↔
      clock.hour < other.hour ∨ clock.hour = other.hour ∧
        (clock.minute < other.minute ∨ clock.minute = other.minute ∧
          (clock.second < other.second ∨ clock.second = other.second ∧
            clock.microsecond < other.microsecond)) := by
  obtain ⟨_, hminute, hsecond, hmicrosecond⟩ := clock.valid
  obtain ⟨_, hminute', hsecond', hmicrosecond'⟩ := other.valid
  unfold Clock.microseconds clockMicroseconds
  rw [mul_add_lt_mul_add hmicrosecond hmicrosecond', mul_add_lt_mul_add hsecond hsecond',
    mul_add_lt_mul_add hminute hminute']
  omega

/-- A time of day is less than a day. -/
theorem Clock.microseconds_lt (clock : Clock) : clock.microseconds < dayMicroseconds := by
  obtain ⟨hhour, hminute, hsecond, hmicrosecond⟩ := clock.valid
  unfold Clock.microseconds clockMicroseconds dayMicroseconds
  omega

/-- The texts in UTC are ordered as the local times are. -/
theorem utcStem_lt {value other : Datetime} (tail : List Char) :
    utcStem value.date value.clock ++ tail < utcStem other.date other.clock ++ tail ↔
      value.localTime < other.localTime := by
  have hdate := date_widths value.valid.1
  have hdate' := date_widths other.valid.1
  obtain ⟨hhour, hminute, hsecond, hmicrosecond⟩ := value.clock.valid
  obtain ⟨hhour', hminute', hsecond', hmicrosecond'⟩ := other.clock.valid
  unfold Datetime.localTime
  rw [mul_add_lt_mul_add value.clock.microseconds_lt other.clock.microseconds_lt, Date.ordinal_lt,
    clock_lt]
  have hordinal : value.date.ordinal = other.date.ordinal ↔ value.date = other.date :=
    ⟨Date.ordinal_injective, fun heq => heq ▸ rfl⟩
  rw [hordinal, Date.eq_iff]
  unfold Date.Before utcStem formatClock
  simp only [List.append_assoc, List.cons_append]
  rw [padded_append_lt (by decide) hdate.1 hdate'.1, List.cons_lt_cons_self,
    padded_append_lt (by decide) hdate.2.1 hdate'.2.1, List.cons_lt_cons_self,
    padded_append_lt (by decide) hdate.2.2 hdate'.2.2, List.cons_lt_cons_self,
    padded_append_lt (by decide) (by omega) (by omega), List.cons_lt_cons_self,
    padded_append_lt (by decide) (by omega) (by omega), List.cons_lt_cons_self,
    padded_append_lt (by decide) (by omega) (by omega), List.cons_lt_cons_self,
    padded_append_lt (by decide) (by omega) (by omega)]
  have hirrefl : ¬ tail < tail := List.lt_irrefl tail
  simp only [hirrefl, and_false, or_false]
  omega

/-! ## Normalizing and parsing -/

/-- A time of day of some microseconds has them. -/
theorem Clock.microseconds_ofMicroseconds {microseconds : Nat} (h : microseconds < dayMicroseconds) :
    (Clock.ofMicroseconds microseconds h).microseconds = microseconds := by
  unfold Clock.microseconds clockMicroseconds Clock.ofMicroseconds
  dsimp only
  omega

/-- The instants that `datetime` can represent in UTC. -/
def InRange (time : Int) : Prop :=
  1 ≤ time / dayMicroseconds ∧ time / dayMicroseconds ≤ maxOrdinal

/-- A value in UTC of a representable instant. -/
theorem ofUtc_ok {time : Int} :
    (∃ utc, Datetime.ofUtc time = .ok utc) ↔ InRange time := by
  unfold Datetime.ofUtc InRange
  split
  · next h => exact ⟨fun _ => h, fun _ => ⟨_, rfl⟩⟩
  · next h => exact ⟨fun hok => absurd hok (by simp), fun hrange => absurd hrange h⟩

/-- A value in UTC has its instant as local time. -/
theorem ofUtc_spec {time : Int} {utc : Datetime} (h : Datetime.ofUtc time = .ok utc) :
    utc.utcoffset = some 0 ∧ (utc.localTime : Int) = time := by
  unfold Datetime.ofUtc at h
  split at h
  · next hrange =>
      cases h
      refine ⟨rfl, ?_⟩
      have hmod := Int.emod_nonneg time (by decide : (dayMicroseconds : Int) ≠ 0)
      have hdiv := Int.ediv_mul_add_emod time dayMicroseconds
      unfold Datetime.localTime
      rw [Date.ordinal_ofOrdinal, Clock.microseconds_ofMicroseconds]
      rw [Int.natCast_add, Int.natCast_mul, Int.toNat_of_nonneg (by omega), Int.toNat_of_nonneg hmod]
      exact hdiv
  · cases h

/-- What normalizing gives: the text in UTC, with a `Z`. -/
theorem normalizeDatetime_ok {value : Datetime} {text : String} :
    normalizeDatetime value = .ok text ↔
      ∃ offset utc, value.utcoffset = some offset ∧
        Datetime.ofUtc ((value.localTime : Int) - offset) = .ok utc ∧
        text = String.ofList (utcStem utc.date utc.clock ++ ['Z']) := by
  have hreplace {utc : Datetime} (hutc : utc.utcoffset = some 0) :
      replaceText "+00:00" "Z" (String.ofList utc.isoformat) =
        String.ofList (utcStem utc.date utc.clock ++ ['Z']) := by
    have hplus : '+' ∉ utcStem utc.date utc.clock := fun hmem => by
      rcases mem_utcStem hmem with h | h | h | h | h
      · revert h
        decide
      all_goals cases h
    have hchars : "+00:00".toList = '+' :: ['0', '0', ':', '0', '0'] := by decide
    have hz : "Z".toList = ['Z'] := by decide
    rw [isoformat_utc hutc, hchars, replaceText, hchars, hz, String.toList_ofList,
      replaceChars_append hplus, replaceChars_self]
  unfold normalizeDatetime Datetime.astimezoneUtc
  simp only [bind_ok, orMissing_ok, pure_ok]
  constructor
  · rintro ⟨offset, hoffset, utc, hutc, rfl⟩
    exact ⟨offset, utc, hoffset, hutc, hreplace (ofUtc_spec hutc).1⟩
  · rintro ⟨offset, utc, hoffset, hutc, rfl⟩
    exact ⟨offset, hoffset, utc, hutc, hreplace (ofUtc_spec hutc).1⟩

/-- A text in UTC is parsed as the value that it is the text of. -/
theorem fromisoformat_isoformat {value : Datetime} (h : value.utcoffset = some 0) :
    Datetime.fromisoformat value.isoformat = some value := by
  obtain ⟨⟨year, month, day, hdate⟩, ⟨hour, minute, second, microsecond, hclock⟩, utcoffset, hvalue⟩ :=
    value
  obtain rfl : utcoffset = some 0 := h
  have hwidths := date_widths hvalue.1
  have hoffset : parseOffset "+00:00".toList = some (some 0) := by decide
  have hparseClock : parseClock (formatClock hour minute second microsecond) =
      some (hour, minute, second, microsecond) := by
    have hsix := @length_padded 6 microsecond (by decide) (by omega)
    have hfraction := @readNumber_padded 6 microsecond (by decide) (by omega) []
    rw [List.append_nil] at hfraction
    unfold formatClock parseClock
    rw [readNumber_padded (by decide) (by omega)]
    simp only [Option.bind_eq_bind, Option.bind_some]
    rw [readNumber_padded (by decide) (by omega)]
    simp only [Option.bind_some]
    rw [readNumber_padded (by decide) (by omega)]
    simp only [Option.bind_some, parseFraction, hsix, if_true, hfraction, Option.map_some]
    rfl
  have hsign : ∀ c ∈ formatClock hour minute second microsecond, ¬ (c = '+' ∨ c = '-') := by
    intro c hc
    have hdigit : ∀ c : Char, c.isDigit = true → ¬ (c = '+' ∨ c = '-') := by
      rintro c hc (rfl | rfl) <;> revert hc <;> decide
    simp only [formatClock, List.mem_append, List.mem_cons] at hc
    rcases hc with hc | rfl | hc | rfl | hc | rfl | hc
    all_goals first | exact hdigit c (isDigit_of_mem_padded hc) | decide
  have hparseTime : parseTime (formatClock hour minute second microsecond ++ "+00:00".toList) =
      some ((hour, minute, second, microsecond), some 0) := by
    have hclockPart : (formatClock hour minute second microsecond ++ "+00:00".toList).takeWhile
        (fun c => decide (¬ (c = '+' ∨ c = '-'))) = formatClock hour minute second microsecond := by
      rw [List.takeWhile_append_of_pos fun c hc => decide_eq_true (hsign c hc)]
      exact List.append_nil _
    have hoffsetPart : (formatClock hour minute second microsecond ++ "+00:00".toList).dropWhile
        (fun c => decide (¬ (c = '+' ∨ c = '-'))) = "+00:00".toList := by
      rw [List.dropWhile_append_of_pos fun c hc => decide_eq_true (hsign c hc)]
      rfl
    unfold parseTime
    dsimp only
    rw [hclockPart, hoffsetPart, hparseClock, hoffset]
    rfl
  have hparseDate (rest : List Char) : parseDate (padded 4 year ++ '-' :: (padded 2 month ++
      '-' :: (padded 2 day ++ rest))) = some ((year, month, day), rest) := by
    unfold parseDate
    rw [readNumber_padded (by decide) hwidths.1]
    simp only [Option.bind_eq_bind, Option.bind_some]
    rw [readNumber_padded (by decide) hwidths.2.1]
    simp only [Option.bind_some]
    rw [readNumber_padded (by decide) hwidths.2.2]
    rfl
  rw [isoformat_utc rfl]
  unfold utcStem Datetime.fromisoformat
  simp only [List.append_assoc, List.cons_append]
  rw [hparseDate]
  obtain ⟨first, rest, htext⟩ : ∃ first rest,
      formatClock hour minute second microsecond ++ "+00:00".toList = first :: rest :=
    List.exists_cons_of_ne_nil (List.append_ne_nil_of_right_ne_nil _ (by decide))
  rw [htext] at hparseTime ⊢
  simp only [Option.bind_eq_bind, Option.bind_some, hparseTime]
  unfold Datetime.ofFields
  rw [dif_pos hdate, dif_pos hclock, dif_pos hvalue]

/-- A normalized text is parsed as the same instant, in UTC. -/
theorem parse_of_normalize {value : Datetime} {text : String}
    (h : normalizeDatetime value = .ok text) :
    ∃ utc, parseDatetime text = some utc ∧ utc.utcoffset = some 0 ∧ utc.instant = value.instant ∧
      text = String.ofList (utcStem utc.date utc.clock ++ ['Z']) := by
  obtain ⟨offset, utc, hoffset, hutc, rfl⟩ := normalizeDatetime_ok.mp h
  obtain ⟨hzero, htime⟩ := ofUtc_spec hutc
  refine ⟨utc, ?_, hzero, ?_, rfl⟩
  · have hz : 'Z' ∉ utcStem utc.date utc.clock := fun hmem => by
      rcases mem_utcStem hmem with h | h | h | h | h
      · revert h
        decide
      all_goals cases h
    have hchars : "Z".toList = ['Z'] := by decide
    have hreplaced : replaceText "Z" "+00:00" (String.ofList (utcStem utc.date utc.clock ++ ['Z'])) =
        String.ofList utc.isoformat := by
      have hstem : (String.ofList (utcStem utc.date utc.clock ++ ['Z'])).toList =
          utcStem utc.date utc.clock ++ ['Z'] := String.toList_ofList
      rw [isoformat_utc hzero, replaceText, hchars, hstem, replaceChars_append hz, replaceChars_self]
    rw [parseDatetime, hreplaced, String.toList_ofList]
    exact fromisoformat_isoformat hzero
  · rw [Datetime.instant, Datetime.instant, hoffset, hzero, Option.map_some, Option.map_some, htime,
      Int.sub_zero]

/-- Normalized texts are ordered as the instants are. -/
theorem normalize_lt {value other : Datetime} {text otherText : String} {instant otherInstant : Int}
    (h : normalizeDatetime value = .ok text) (hother : normalizeDatetime other = .ok otherText)
    (hinstant : value.instant = some instant) (hotherInstant : other.instant = some otherInstant) :
    text < otherText ↔ instant < otherInstant := by
  obtain ⟨utc, _, hzero, hsame, rfl⟩ := parse_of_normalize h
  obtain ⟨utc', _, hzero', hsame', rfl⟩ := parse_of_normalize hother
  rw [hinstant, Datetime.instant, hzero, Option.map_some, Int.sub_zero] at hsame
  rw [hotherInstant, Datetime.instant, hzero', Option.map_some, Int.sub_zero] at hsame'
  rw [String.lt_iff, String.toList_ofList, String.toList_ofList, utcStem_lt, ← Option.some.inj hsame,
    ← Option.some.inj hsame', Int.ofNat_lt]

end AstrContinuum
