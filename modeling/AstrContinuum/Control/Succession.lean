import Mathlib.Data.List.Basic
import Mathlib.Order.Nat

/-!
# Successions

A succession is a list in which every element follows its predecessor, and the first one follows
nothing. `Succession.append_singleton` is how a log grows, `Succession.forall_mem` carries a property
from the first element to all of them, and `Succession.carry` from one element to a later one.
-/

/-- Every element of the list is related to its predecessor, the first one to `previous`. -/
def Succession {α : Type} (follows : Option α → α → Prop) : Option α → List α → Prop
  | _, [] => True
  | previous, a :: rest => follows previous a ∧ Succession follows (some a) rest

namespace Succession

variable {α : Type} {follows follows' : Option α → α → Prop}

/-- The element before the position just after a list. -/
def last (previous : Option α) (items : List α) : Option α :=
  items.getLast?.or previous

@[simp] theorem last_nil (previous : Option α) : last previous [] = previous := rfl

@[simp] theorem last_cons (previous : Option α) (a : α) (rest : List α) :
    last previous (a :: rest) = last (some a) rest := by
  cases h : rest.getLast? with
  | none =>
      obtain rfl := List.getLast?_eq_none_iff.mp h
      rfl
  | some b => simp [last, List.getLast?_cons, h]

@[simp] theorem last_none (items : List α) : last none items = items.getLast? := by
  simp [last]

/-- A succession grows by an element that follows its last one. -/
theorem append_singleton {previous : Option α} {items : List α} {a : α} :
    Succession follows previous (items ++ [a]) ↔
      Succession follows previous items ∧ follows (last previous items) a := by
  induction items generalizing previous with
  | nil => simp [Succession]
  | cons b rest ih => simp [Succession, ih, and_assoc]

/-- A weaker relation keeps a succession, if it is weaker on the elements of the list. -/
theorem imp {previous : Option α} {items : List α} (h : Succession follows previous items)
    (himp : ∀ p, (p = previous ∨ ∃ b ∈ items, p = some b) → ∀ a ∈ items,
      follows p a → follows' p a) : Succession follows' previous items := by
  induction items generalizing previous with
  | nil => trivial
  | cons b rest ih =>
      refine ⟨himp previous (.inl rfl) b List.mem_cons_self h.1, ih h.2 ?_⟩
      rintro p hp a ha
      refine himp p ?_ a (List.mem_cons_of_mem _ ha)
      rcases hp with rfl | ⟨c, hc, rfl⟩
      · exact .inr ⟨b, List.mem_cons_self, rfl⟩
      · exact .inr ⟨c, List.mem_cons_of_mem _ hc, rfl⟩

/-- Every element follows the one before it. -/
theorem follows_getElem {items : List α} (h : Succession follows none items) {i : Nat}
    (hi : i < items.length) : follows (if i = 0 then none else items[i - 1]?) items[i] := by
  suffices hgen : ∀ previous, Succession follows previous items →
      follows (if i = 0 then previous else items[i - 1]?) items[i] from hgen none h
  clear h
  induction items generalizing i with
  | nil => exact absurd hi (Nat.not_lt_zero _)
  | cons b rest ih =>
      intro previous h
      cases i with
      | zero => exact h.1
      | succ i =>
          have hrest := ih (Nat.lt_of_succ_lt_succ hi) (some b) h.2
          cases i with
          | zero => simpa using hrest
          | succ i => simpa using hrest

/-- Every element but the first follows its predecessor. -/
theorem follows_succ {items : List α} (h : Succession follows none items) {i : Nat}
    (hi : i + 1 < items.length) : follows (some items[i]) items[i + 1] := by
  have hfollows := h.follows_getElem hi
  rwa [if_neg (Nat.succ_ne_zero i), Nat.add_sub_cancel,
    List.getElem?_eq_getElem (Nat.lt_of_succ_lt hi)] at hfollows

/-- A property passes from an element to a later one when it passes along every link between. -/
theorem carry {P : α → Prop} {items : List α} (h : Succession follows none items) {i j : Nat}
    (hij : i ≤ j) (hj : j < items.length) (hstart : P items[i])
    (hstep : ∀ k (hk : k + 1 < items.length), i ≤ k → k + 1 ≤ j →
      follows (some items[k]) items[k + 1] → P items[k] → P items[k + 1]) : P items[j] := by
  induction j, hij using Nat.le_induction with
  | base => exact hstart
  | succ j hij ih =>
      have hprevious := ih (Nat.lt_of_succ_lt hj) hstart fun k hk hik hkj =>
        hstep k hk hik (Nat.le_succ_of_le hkj)
      exact hstep j hj hij le_rfl (h.follows_succ hj) hprevious

/-- A measure that increases along every link increases along the list. -/
theorem measure_lt {items : List α} (h : Succession follows none items) (measure : α → Nat)
    (hlt : ∀ a b, follows (some a) b → measure a < measure b) {i j : Nat} (hij : i < j)
    (hj : j < items.length) : measure items[i] < measure items[j] := by
  refine h.carry (P := fun a => measure items[i] < measure a) (Nat.succ_le_of_lt hij) hj
    (hlt _ _ (h.follows_succ (Nat.lt_of_le_of_lt hij hj))) ?_
  intro k hk _ _ hfollows hbefore
  exact hbefore.trans (hlt _ _ hfollows)

/-- A property of elements holds of all of them when it passes from each element to the next. -/
theorem forall_mem {P : α → Prop} {items : List α} (h : Succession follows none items)
    (hfirst : ∀ a ∈ items, follows none a → P a)
    (hnext : ∀ a ∈ items, ∀ b ∈ items, follows (some a) b → P a → P b) : ∀ a ∈ items, P a := by
  suffices hgen : ∀ previous, Succession follows previous items →
      (∀ a ∈ items, follows previous a → P a) → ∀ a ∈ items, P a from hgen none h hfirst
  clear h hfirst
  induction items with
  | nil => simp
  | cons b rest ih =>
      intro previous h hfirst
      have hb : P b := hfirst b List.mem_cons_self h.1
      intro a ha
      rcases List.mem_cons.mp ha with rfl | ha
      · exact hb
      · refine ih ?_ (some b) h.2 ?_ a ha
        · exact fun a ha c hc => hnext a (List.mem_cons_of_mem _ ha) c (List.mem_cons_of_mem _ hc)
        · exact fun c hc hfollows =>
            hnext b List.mem_cons_self c (List.mem_cons_of_mem _ hc) hfollows hb

end Succession
