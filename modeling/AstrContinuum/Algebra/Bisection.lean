import Mathlib.Data.Nat.Find

/-!
# Bisection

A search for the greatest number of a range with a property, which halves the range at every pass. It looks
above a middle that has the property and below one that has not. `search_eq_some_iff` says when it finds
the greatest number even though the numbers with the property need not be the first of the range: the
middles that lie below that number, on the way to it, must have the property.
-/

namespace Bisection

variable {fits : Nat → Prop} {low high : Nat}

/-- The greatest number of a range with a property. -/
structure Greatest (fits : Nat → Prop) (low high target : Nat) : Prop where
  low_le : low ≤ target
  le_high : target ≤ high
  holds : fits target
  above : ∀ n, target < n → n ≤ high → ¬ fits n

/-- Only the numbers of the range count. -/
theorem Greatest.congr {others : Nat → Prop} {target : Nat}
    (hsame : ∀ n, low ≤ n → n ≤ high → (fits n ↔ others n)) (h : Greatest fits low high target) :
    Greatest others low high target where
  low_le := h.low_le
  le_high := h.le_high
  holds := (hsame target h.low_le h.le_high).mp h.holds
  above := fun n hn hle hother =>
    h.above n hn hle ((hsame n (Nat.le_of_lt (Nat.lt_of_le_of_lt h.low_le hn)) hle).mpr hother)

/-- There is one greatest number. -/
theorem Greatest.unique {target other : Nat} (h : Greatest fits low high target)
    (hother : Greatest fits low high other) : target = other := by
  rcases Nat.lt_trichotomy target other with hlt | heq | hgt
  · exact absurd hother.holds (h.above other hlt hother.le_high)
  · exact heq
  · exact absurd h.holds (hother.above target hgt h.le_high)

/-- The search between two bounds; what was found last stands when the range is empty. -/
def search (fits : Nat → Prop) [DecidablePred fits] : Nat → Nat → Nat → Option Nat → Option Nat
  | 0, _, _, best => best
  | passes + 1, low, high, best =>
      if high < low then best
      else
        let middle := (low + high) / 2
        if fits middle then search fits passes (middle + 1) high (some middle)
        else search fits passes low (middle - 1) best

/-- The middles that a search meets when it always turns to a number of the range. -/
def middles (target : Nat) : Nat → Nat → Nat → List Nat
  | 0, _, _ => []
  | passes + 1, low, high =>
      if high < low then []
      else
        let middle := (low + high) / 2
        middle ::
          (if target < middle then middles target passes low (middle - 1)
          else if middle < target then middles target passes (middle + 1) high
          else [])

/-- The middles lie in the range. -/
theorem mem_middles {target passes middle : Nat} (h : middle ∈ middles target passes low high) :
    low ≤ middle ∧ middle ≤ high := by
  induction passes generalizing low high with
  | zero => exact nomatch h
  | succ passes ih =>
      unfold middles at h
      by_cases hempty : high < low
      · rw [if_pos hempty] at h
        exact nomatch h
      · rw [if_neg hempty] at h
        rcases List.mem_cons.mp h with rfl | hrest
        · omega
        · split at hrest
          · have hrange := ih hrest
            omega
          · split at hrest
            · have hrange := ih hrest
              omega
            · exact nomatch hrest

/-- What a search finds lies in the range, or was found before. -/
theorem search_mem [DecidablePred fits] (passes : Nat) {best : Option Nat} {found : Nat}
    (h : search fits passes low high best = some found) :
    best = some found ∨ low ≤ found ∧ found ≤ high := by
  induction passes generalizing low high best with
  | zero => exact .inl h
  | succ passes ih =>
      unfold search at h
      by_cases hempty : high < low
      · rw [if_pos hempty] at h
        exact .inl h
      · rw [if_neg hempty] at h
        dsimp only at h
        by_cases hmiddle : fits ((low + high) / 2)
        · rw [if_pos hmiddle] at h
          rcases ih h with hfound | hrange
          · obtain rfl := Option.some.inj hfound
            exact .inr (by omega)
          · exact .inr (by omega)
        · rw [if_neg hmiddle] at h
          rcases ih h with hfound | hrange
          · exact .inl hfound
          · exact .inr (by omega)

/-- A search finds nothing new where no number has the property. -/
theorem search_none [DecidablePred fits] (hnone : ∀ n, low ≤ n → n ≤ high → ¬ fits n) (passes : Nat)
    (best : Option Nat) : search fits passes low high best = best := by
  induction passes generalizing high with
  | zero => rfl
  | succ passes ih =>
      unfold search
      by_cases hempty : high < low
      · exact if_pos hempty
      · rw [if_neg hempty, if_neg (hnone _ (by omega) (by omega))]
        exact ih fun n hlow hhigh => hnone n hlow (by omega)

/-- A search finds the greatest number with the property exactly where the middles below it, on the way to
it, have the property. -/
theorem search_eq_some_iff [DecidablePred fits] {passes target : Nat} {best : Option Nat} (hlow : 0 < low)
    (hpasses : high < low + passes) (hbest : ∀ n ∈ best, n < low)
    (h : Greatest fits low high target) :
    search fits passes low high best = some target ↔
      ∀ middle ∈ middles target passes low high, middle < target → fits middle := by
  induction passes generalizing low high best with
  | zero =>
      have hrange := Nat.le_trans h.low_le h.le_high
      omega
  | succ passes ih =>
      have hrange := Nat.le_trans h.low_le h.le_high
      obtain ⟨hlowTarget, hhighTarget, hfits, habove⟩ := h
      have hopen : ¬ high < low := Nat.not_lt_of_le hrange
      simp only [search, middles, if_neg hopen]
      generalize hmiddle : (low + high) / 2 = middle
      rcases Nat.lt_trichotomy target middle with hleft | rfl | hright
      · -- the number lies below the middle, which has not the property
        have hfails := habove middle hleft (by omega)
        rw [if_neg hfails, if_pos hleft, List.forall_mem_cons]
        rw [ih hlow (by omega) hbest
          ⟨hlowTarget, by omega, hfits, fun n hn hle => habove n hn (by omega)⟩]
        exact ⟨fun hrest => ⟨fun hlt => absurd hlt (by omega), hrest⟩, fun hall => hall.2⟩
      · -- the number is the middle: nothing above it has the property
        rw [if_pos hfits, search_none fun n hn hle => habove n (by omega) hle]
        refine iff_of_true rfl fun middle hmem hlt => ?_
        rcases List.mem_cons.mp hmem with rfl | hrest
        · exact hfits
        · rw [if_neg (Nat.lt_irrefl _), if_neg (Nat.lt_irrefl _)] at hrest
          exact nomatch hrest
      · by_cases hfitsMiddle : fits middle
        · rw [if_pos hfitsMiddle, if_neg (Nat.lt_asymm hright), if_pos hright, List.forall_mem_cons]
          rw [ih (by omega) (by omega) (fun n hn => by
              obtain rfl := Option.mem_some.mp hn
              omega) ⟨hright, hhighTarget, hfits, habove⟩]
          exact ⟨fun hrest => ⟨fun _ => hfitsMiddle, hrest⟩, fun hall => hall.2⟩
        · rw [if_neg hfitsMiddle]
          refine iff_of_false (fun hfound => ?_) fun hall =>
            hfitsMiddle (hall middle List.mem_cons_self hright)
          rcases search_mem passes hfound with hold | hrange
          · exact Nat.not_lt_of_le hlowTarget (hbest target hold)
          · omega

/-- A range has a greatest number with a property, or no number with it. -/
theorem greatest_or_none (fits : Nat → Prop) (low high : Nat) :
    (∃ target, Greatest fits low high target) ∨ ∀ n, low ≤ n → n ≤ high → ¬ fits n := by
  by_cases hany : ∃ n, low ≤ n ∧ n ≤ high ∧ fits n
  · obtain ⟨n, hlow, hhigh, hn⟩ := hany
    classical
    have hfound := Nat.findGreatest_spec (P := fun n => low ≤ n ∧ fits n) hhigh ⟨hlow, hn⟩
    exact .inl ⟨_, hfound.1, Nat.findGreatest_le _, hfound.2, fun m hm hle hfits =>
      Nat.findGreatest_is_greatest hm hle ⟨Nat.le_trans hfound.1 (Nat.le_of_lt hm), hfits⟩⟩
  · exact .inr fun n hlow hhigh hn => hany ⟨n, hlow, hhigh, hn⟩

end Bisection
