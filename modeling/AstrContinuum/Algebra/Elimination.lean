import Mathlib.Algebra.BigOperators.Intervals
import Mathlib.Algebra.BigOperators.Ring.Finset
import Mathlib.Algebra.Field.Basic
import Mathlib.Logic.Equiv.Basic
import Mathlib.Tactic.FieldSimp
import Mathlib.Tactic.Ring

/-!
# Elimination

Systems of linear equations over a field, with rows and columns counted from zero. Exchanging two rows and
subtracting multiples of one row from the rows below keep the solutions; a system with nothing below its
diagonal and no zero on it has exactly the solution that back substitution computes.
-/

namespace Elimination

open Finset

variable {K : Type*} [Field K] {n c p : ℕ} {a : ℕ → ℕ → K} {b x y : ℕ → K}

/-- `x` solves the first `n` equations in the first `n` unknowns. -/
def Solves (n : ℕ) (a : ℕ → ℕ → K) (b x : ℕ → K) : Prop :=
  ∀ i < n, ∑ j ∈ range n, a i j * x j = b i

/-- The first `c` columns have nothing below the diagonal, and no zero on it. -/
def Reduced (n c : ℕ) (a : ℕ → ℕ → K) : Prop :=
  ∀ j < c, a j j ≠ 0 ∧ ∀ i, j < i → i < n → a i j = 0

/-- Equations that agree within the system have the same solutions. -/
theorem solves_congr {a' : ℕ → ℕ → K} {b' : ℕ → K} (ha : ∀ i < n, ∀ j < n, a i j = a' i j)
    (hb : ∀ i < n, b i = b' i) : Solves n a b x ↔ Solves n a' b' x := by
  refine forall₂_congr fun i hi => ?_
  rw [hb i hi, sum_congr rfl fun j hj => by rw [ha i hi j (mem_range.mp hj)]]

/-- Systems that agree are reduced alike. -/
theorem Reduced.congr {a' : ℕ → ℕ → K} (h : Reduced n c a) (hc : c ≤ n)
    (ha : ∀ i < n, ∀ j < n, a i j = a' i j) : Reduced n c a' := by
  intro j hj
  have hjn := hj.trans_le hc
  refine ⟨?_, fun i hji hi => ?_⟩
  · rw [← ha j hjn j hjn]
    exact (h j hj).1
  · rw [← ha i hi j hjn]
    exact (h j hj).2 i hji hi

/-! ## Row operations -/

/-- Rows with two of them exchanged stay below `n`. -/
theorem swap_lt (hc : c < n) (hp : p < n) {i : ℕ} (hi : i < n) : Equiv.swap c p i < n := by
  rcases eq_or_ne i c with rfl | hic
  · rwa [Equiv.swap_apply_left]
  · rcases eq_or_ne i p with rfl | hip
    · rwa [Equiv.swap_apply_right]
    · rwa [Equiv.swap_apply_of_ne_of_ne hic hip]

/-- Exchanging two rows keeps the solutions. -/
theorem solves_swap (hc : c < n) (hp : p < n) :
    Solves n (fun i => a (Equiv.swap c p i)) (fun i => b (Equiv.swap c p i)) x ↔ Solves n a b x := by
  constructor
  · intro h i hi
    have hswapped := h (Equiv.swap c p i) (swap_lt hc hp hi)
    simpa only [Equiv.swap_apply_self] using hswapped
  · intro h i hi
    exact h (Equiv.swap c p i) (swap_lt hc hp hi)

/-- Exchanging two rows below the reduced columns keeps them reduced. -/
theorem reduced_swap (h : Reduced n c a) (hcp : c ≤ p) (hp : p < n) :
    Reduced n c fun i => a (Equiv.swap c p i) := by
  intro j hj
  have hjp : j ≠ p := by omega
  refine ⟨?_, fun i hji hi => ?_⟩
  · dsimp only
    rw [Equiv.swap_apply_of_ne_of_ne hj.ne hjp]
    exact (h j hj).1
  · refine (h j hj).2 _ ?_ (swap_lt (by omega) hp hi)
    rcases eq_or_ne i c with rfl | hic
    · rw [Equiv.swap_apply_left]
      omega
    · rcases eq_or_ne i p with rfl | hip
      · rwa [Equiv.swap_apply_right]
      · rwa [Equiv.swap_apply_of_ne_of_ne hic hip]

/-- Every row below `c` less a multiple of the row `c`. -/
def subtractBelow (c : ℕ) (factor : ℕ → K) (a : ℕ → ℕ → K) (i j : ℕ) : K :=
  if c < i then a i j - factor i * a c j else a i j

/-- The right-hand side of the same subtraction. -/
def subtractBelowRhs (c : ℕ) (factor : ℕ → K) (b : ℕ → K) (i : ℕ) : K :=
  if c < i then b i - factor i * b c else b i

/-- Subtracting multiples of a row keeps the solutions. -/
theorem solves_subtractBelow (hc : c < n) (factor : ℕ → K) :
    Solves n (subtractBelow c factor a) (subtractBelowRhs c factor b) x ↔ Solves n a b x := by
  have hrow (i : ℕ) (hci : c < i) : ∑ j ∈ range n, subtractBelow c factor a i j * x j =
      ∑ j ∈ range n, a i j * x j - factor i * ∑ j ∈ range n, a c j * x j := by
    rw [mul_sum, ← sum_sub_distrib]
    refine sum_congr rfl fun j _ => ?_
    rw [subtractBelow, if_pos hci]
    ring
  have hkept (i : ℕ) (hci : ¬ c < i) : ∑ j ∈ range n, subtractBelow c factor a i j * x j =
      ∑ j ∈ range n, a i j * x j := by
    refine sum_congr rfl fun j _ => ?_
    rw [subtractBelow, if_neg hci]
  constructor
  · intro h i hi
    have hpivot := h c hc
    rw [hkept c (lt_irrefl c), subtractBelowRhs, if_neg (lt_irrefl c)] at hpivot
    have hi' := h i hi
    by_cases hci : c < i
    · rw [hrow i hci, hpivot, subtractBelowRhs, if_pos hci] at hi'
      exact sub_left_injective hi'
    · rwa [hkept i hci, subtractBelowRhs, if_neg hci] at hi'
  · intro h i hi
    by_cases hci : c < i
    · rw [hrow i hci, h c hc, h i hi, subtractBelowRhs, if_pos hci]
    · rw [hkept i hci, h i hi, subtractBelowRhs, if_neg hci]

/-- Subtracting the right multiples reduces one more column. -/
theorem reduced_subtractBelow (h : Reduced n c a) (hc : c < n) (hpivot : a c c ≠ 0) :
    Reduced n (c + 1) (subtractBelow c (fun i => a i c / a c c) a) := by
  intro j hj
  rcases Nat.lt_succ_iff_lt_or_eq.mp hj with hjc | rfl
  · have hzero : a c j = 0 := (h j hjc).2 c hjc hc
    refine ⟨?_, fun i hji hi => ?_⟩
    · rw [subtractBelow, if_neg (by omega)]
      exact (h j hjc).1
    · rw [subtractBelow, hzero, mul_zero, sub_zero, ite_self]
      exact (h j hjc).2 i hji hi
  · refine ⟨?_, fun i hji hi => ?_⟩
    · rwa [subtractBelow, if_neg (lt_irrefl j)]
    · rw [subtractBelow, if_pos hji, div_mul_cancel₀ _ hpivot, sub_self]

/-! ## Back substitution -/

/-- A row of a reduced system is a sum from the diagonal on. -/
theorem Reduced.sum_row (h : Reduced n n a) {i : ℕ} (hi : i < n) :
    ∑ j ∈ range n, a i j * x j = a i i * x i + ∑ j ∈ Ico (i + 1) n, a i j * x j := by
  have hbelow : ∑ j ∈ range i, a i j * x j = 0 := by
    refine sum_eq_zero fun j hj => ?_
    have hji := mem_range.mp hj
    rw [(h j (hji.trans hi)).2 i hji hi, zero_mul]
  rw [← sum_range_add_sum_Ico _ hi.le, hbelow, zero_add, sum_eq_sum_Ico_succ_bot hi]

/-- What back substitution computes solves a reduced system. -/
theorem Reduced.solves (h : Reduced n n a)
    (hx : ∀ i < n, x i = (b i - ∑ j ∈ Ico (i + 1) n, a i j * x j) / a i i) : Solves n a b x := by
  intro i hi
  rw [h.sum_row hi]
  have hdiagonal := (h i hi).1
  rw [hx i hi]
  rw [mul_div_cancel₀ _ hdiagonal, sub_add_cancel]

/-- A reduced system has at most one solution. -/
theorem Reduced.unique (h : Reduced n n a) (hx : Solves n a b x) (hy : Solves n a b y) :
    ∀ i < n, x i = y i := by
  -- The rows are compared from the last one up.
  have hfrom : ∀ count ≤ n, ∀ i < n, n ≤ i + count → x i = y i := by
    intro count
    induction count with
    | zero => exact fun _ i hi hle => absurd hi (by omega)
    | succ count ih =>
        intro hcount i hi hle
        have hlater : ∑ j ∈ Ico (i + 1) n, a i j * x j = ∑ j ∈ Ico (i + 1) n, a i j * y j := by
          refine sum_congr rfl fun j hj => ?_
          have hj := mem_Ico.mp hj
          rw [ih (by omega) j hj.2 (by omega)]
        have hrow := (hx i hi).trans (hy i hi).symm
        rw [h.sum_row hi, h.sum_row hi, hlater] at hrow
        exact mul_left_cancel₀ (h i hi).1 (add_right_cancel hrow)
  exact fun i hi => hfrom n le_rfl i hi (Nat.le_add_left n i)

end Elimination
