import Mathlib.Data.String.Basic
import AstrContinuum.Domain.Timestamps
import AstrContinuum.Storage.JobQueue

/-!
# The order of timestamp texts

The storage holds instants as texts and compares them as texts, in SQL and in Python. `timestamp_text_order`
says that this is the order of the instants, and that the comparisons of the job table come out as they
would on instants; so the storage model can hold instants.
-/

namespace AstrContinuum

open Checked

/-! ## Aware values in range -/

/-- An aware `datetime` whose UTC value is in range. -/
structure Storable where
  value : Datetime
  time : Timestamp
  aware : value.instant = some (time : Int)
  inRange : InRange time

/-- Every aware value whose UTC value is in range is meant. -/
theorem Storable.exists_iff {value : Datetime} :
    (∃ storable : Storable, storable.value = value) ↔ ∃ time, value.instant = some time ∧ InRange time := by
  constructor
  · rintro ⟨storable, rfl⟩
    exact ⟨storable.time, storable.aware, storable.inRange⟩
  · rintro ⟨time, haware, hrange⟩
    have hpos : 0 ≤ time := by
      unfold InRange dayMicroseconds at hrange
      omega
    obtain ⟨time, rfl⟩ := Int.eq_ofNat_of_zero_le hpos
    exact ⟨⟨value, time, haware, hrange⟩, rfl⟩

/-- Normalizing returns exactly on these values. -/
theorem normalizeDatetime_returns {value : Datetime} :
    (∃ text, normalizeDatetime value = .ok text) ↔ ∃ storable : Storable, storable.value = value := by
  rw [Storable.exists_iff]
  constructor
  · rintro ⟨text, h⟩
    obtain ⟨offset, utc, hoffset, hutc, -⟩ := normalizeDatetime_ok.mp h
    refine ⟨(value.localTime : Int) - offset, ?_, ofUtc_ok.mp ⟨utc, hutc⟩⟩
    rw [Datetime.instant, hoffset]
    rfl
  · rintro ⟨time, haware, hrange⟩
    obtain ⟨offset, hoffset, rfl⟩ := Option.map_eq_some_iff.mp haware
    obtain ⟨utc, hutc⟩ := ofUtc_ok.mpr hrange
    exact ⟨_, normalizeDatetime_ok.mpr ⟨offset, utc, hoffset, hutc, rfl⟩⟩

/-- The text that the storage holds for a value. -/
def Storable.text (storable : Storable) : String :=
  match normalizeDatetime storable.value with
  | .ok text => text
  | .error _ => ""

/-- The text of a value is its normalized text. -/
theorem Storable.normalize_eq (storable : Storable) :
    normalizeDatetime storable.value = .ok storable.text := by
  obtain ⟨text, htext⟩ := normalizeDatetime_returns.mpr ⟨storable, rfl⟩
  rw [Storable.text, htext]

/-- Texts are ordered as instants are. -/
theorem Storable.text_lt (storable other : Storable) :
    storable.text < other.text ↔ storable.time < other.time := by
  rw [normalize_lt storable.normalize_eq other.normalize_eq storable.aware other.aware, Int.ofNat_lt]

/-- Texts are ordered as instants are, weakly. -/
theorem Storable.text_le (storable other : Storable) :
    storable.text ≤ other.text ↔ storable.time ≤ other.time := by
  rw [← not_lt, ← not_lt, Storable.text_lt]

/-! ## The comparisons of the job table -/

/-- The columns of `compaction_jobs` that are read where a time is compared, with the times as texts, as
values or as instants. -/
structure JobTimes (τ : Type) where
  state : CompactionJobState
  leaseExpiresAt : Option τ
  nextRetryAt : Option τ
  createdAt : τ

namespace JobTimes

/-- The columns with other times. -/
def map {τ υ : Type} (f : τ → υ) (row : JobTimes τ) : JobTimes υ :=
  ⟨row.state, row.leaseExpiresAt.map f, row.nextRetryAt.map f, f row.createdAt⟩

section Comparisons

variable {τ : Type} [LinearOrder τ]

/-- The `WHERE` of `claim_job`. -/
def isEligible (now : τ) (row : JobTimes τ) : Bool :=
  decide (row.state = .pending) ||
    (decide (row.state = .retryWait) && row.nextRetryAt.any fun retryAt => decide (retryAt ≤ now))

/-- The `WHERE` of `recover_expired_leases`. -/
def isExpired (now : τ) (row : JobTimes τ) : Bool :=
  row.state.isWorking && row.leaseExpiresAt.any fun expiresAt => decide (expiresAt ≤ now)

/-- The lease part of `_require_live_fence`. -/
def isLive (now : τ) (row : JobTimes τ) : Bool :=
  row.state.isWorking && row.leaseExpiresAt.any fun expiresAt => decide (¬ expiresAt ≤ now)

/-- The lease part of the `WHERE` of a fenced `UPDATE`. -/
def isHeld (now : τ) (row : JobTimes τ) : Bool :=
  row.leaseExpiresAt.any fun expiresAt => decide (now < expiresAt)

/-- The first key of `ORDER BY created_at, job_id`. -/
def isOlder (row other : JobTimes τ) : Bool :=
  decide (row.createdAt < other.createdAt)

variable {ρ υ : Type} [LinearOrder υ] {f : ρ → τ} {g : ρ → υ} (h : ∀ a b, f a ≤ f b ↔ g a ≤ g b)

include h

/-- Two forms of the times that are ordered alike make the same jobs eligible. -/
theorem isEligible_map (now : ρ) (row : JobTimes ρ) :
    (row.map f).isEligible (f now) = (row.map g).isEligible (g now) := by
  simp only [isEligible, map, Option.any_map, h]
  rfl

/-- Two forms of the times that are ordered alike expire the same leases. -/
theorem isExpired_map (now : ρ) (row : JobTimes ρ) :
    (row.map f).isExpired (f now) = (row.map g).isExpired (g now) := by
  simp only [isExpired, map, Option.any_map, h]

/-- Two forms of the times that are ordered alike leave the same leases live. -/
theorem isLive_map (now : ρ) (row : JobTimes ρ) :
    (row.map f).isLive (f now) = (row.map g).isLive (g now) := by
  simp only [isLive, map, Option.any_map, h]

/-- Two forms of the times that are ordered alike hold the same leases. -/
theorem isHeld_map (now : ρ) (row : JobTimes ρ) :
    (row.map f).isHeld (f now) = (row.map g).isHeld (g now) := by
  simp only [isHeld, map, Option.any_map, ← not_le, h]

/-- Two forms of the times that are ordered alike order the jobs alike. -/
theorem isOlder_map (row other : JobTimes ρ) :
    (row.map f).isOlder (other.map f) = (row.map g).isOlder (other.map g) := by
  have hlt : f row.createdAt < f other.createdAt ↔ g row.createdAt < g other.createdAt := by
    rw [← not_le, ← not_le, h]
  exact decide_eq_decide.mpr hlt

end Comparisons

end JobTimes

/-- A row of the storage model with these times. -/
def JobRow.withTimes (row : JobRow) (times : JobTimes Timestamp) : JobRow :=
  { row with
    state := times.state
    leaseExpiresAt := times.leaseExpiresAt
    nextRetryAt := times.nextRetryAt
    createdAt := times.createdAt }

/-- What the storage model compares are the times of its rows: where it claims, recovers, requires a live
fence, updates under a fence and orders the queue. -/
theorem JobRow.times_compared (row next : JobRow) (times later : JobTimes Timestamp) (now : Timestamp) :
    (row.withTimes times).isEligible now = times.isEligible now ∧
    (row.withTimes times).isExpired now = times.isExpired now ∧
    (∀ owner leaseEpoch, (row.withTimes times).Fenced owner leaseEpoch now ↔
      row.leaseOwner = some owner ∧ row.leaseEpoch = leaseEpoch ∧ times.isLive now = true) ∧
    (∀ jobId owner leaseEpoch, (row.withTimes times).updateFence jobId owner leaseEpoch now =
      (decide (row.jobId = jobId) && decide (row.leaseOwner = some owner) &&
        decide (row.leaseEpoch = leaseEpoch) && times.isHeld now)) ∧
    ((row.withTimes times).queueKey < (next.withTimes later).queueKey ↔
      times.isOlder later = true ∨ later.isOlder times = false ∧ row.jobId < next.jobId) := by
  refine ⟨rfl, rfl, fun owner leaseEpoch => ?_, fun _ _ _ => rfl, ?_⟩
  · simp only [JobRow.Fenced, JobRow.withTimes, JobTimes.isLive, Bool.and_eq_true, Option.any_eq_true,
      decide_eq_true_eq, not_le, Option.mem_def]
    tauto
  · simp only [JobRow.queueKey, JobRow.withTimes, JobTimes.isOlder, Prod.Lex.toLex_lt_toLex,
      decide_eq_true_eq, decide_eq_false_iff_not]
    constructor
    · rintro (hlt | ⟨hsame, hid⟩)
      · exact .inl hlt
      · exact .inr ⟨hsame.not_gt, hid⟩
    · rintro (hlt | ⟨hle, hid⟩)
      · exact .inl hlt
      · exact (lt_or_eq_of_le (not_lt.mp hle)).imp id fun hsame => ⟨hsame, hid⟩

/-! ## The order of the texts -/

/-- Aware values in range are read back as their instants, their texts are ordered as the instants are,
and the job table compares the texts as it would compare the instants, which is what the storage model
does. -/
theorem timestamp_text_order :
    (∀ a : Storable, normalizeDatetime a.value = .ok a.text ∧
      ∃ utc, parseDatetime a.text = some utc ∧ utc.instant = a.value.instant) ∧
    (∀ a b : Storable, a.text < b.text ↔ a.time < b.time) ∧
    (∀ (row other : JobTimes Storable) (now : Storable),
      (row.map Storable.text).isEligible now.text = (row.map Storable.time).isEligible now.time ∧
      (row.map Storable.text).isExpired now.text = (row.map Storable.time).isExpired now.time ∧
      (row.map Storable.text).isLive now.text = (row.map Storable.time).isLive now.time ∧
      (row.map Storable.text).isHeld now.text = (row.map Storable.time).isHeld now.time ∧
      (row.map Storable.text).isOlder (other.map Storable.text) =
        (row.map Storable.time).isOlder (other.map Storable.time)) ∧
    ∀ (stored next : JobRow) (row other : JobTimes Storable) (now : Storable),
      (stored.withTimes (row.map Storable.time)).isEligible now.time =
        (row.map Storable.text).isEligible now.text ∧
      (stored.withTimes (row.map Storable.time)).isExpired now.time =
        (row.map Storable.text).isExpired now.text ∧
      (∀ owner leaseEpoch, (stored.withTimes (row.map Storable.time)).Fenced owner leaseEpoch now.time ↔
        stored.leaseOwner = some owner ∧ stored.leaseEpoch = leaseEpoch ∧
          (row.map Storable.text).isLive now.text = true) ∧
      (∀ jobId owner leaseEpoch,
        (stored.withTimes (row.map Storable.time)).updateFence jobId owner leaseEpoch now.time =
          (decide (stored.jobId = jobId) && decide (stored.leaseOwner = some owner) &&
            decide (stored.leaseEpoch = leaseEpoch) && (row.map Storable.text).isHeld now.text)) ∧
      ((stored.withTimes (row.map Storable.time)).queueKey <
          (next.withTimes (other.map Storable.time)).queueKey ↔
        (row.map Storable.text).isOlder (other.map Storable.text) = true ∨
          (other.map Storable.text).isOlder (row.map Storable.text) = false ∧
            stored.jobId < next.jobId) := by
  refine ⟨fun a => ⟨a.normalize_eq, ?_⟩, Storable.text_lt, fun row other now => ?_,
    fun stored next row other now => ?_⟩
  · obtain ⟨utc, hparse, -, hinstant, -⟩ := parse_of_normalize a.normalize_eq
    exact ⟨utc, hparse, hinstant⟩
  · exact ⟨JobTimes.isEligible_map Storable.text_le now row,
      JobTimes.isExpired_map Storable.text_le now row, JobTimes.isLive_map Storable.text_le now row,
      JobTimes.isHeld_map Storable.text_le now row, JobTimes.isOlder_map Storable.text_le row other⟩
  · rw [JobTimes.isEligible_map Storable.text_le, JobTimes.isExpired_map Storable.text_le,
      JobTimes.isLive_map Storable.text_le, JobTimes.isHeld_map Storable.text_le,
      JobTimes.isOlder_map Storable.text_le, JobTimes.isOlder_map Storable.text_le]
    exact JobRow.times_compared stored next _ _ now.time

end AstrContinuum
