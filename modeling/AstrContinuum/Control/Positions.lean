import Mathlib.Data.List.Sort

/-!
# Positions of distinct elements in a list

`positions items targets` lists, target by target, where the targets occur. When every target occurs
exactly once, the positions are in order exactly when the targets are a sublist of the items
(`pairwise_positions_iff`). Sublists survive filters, insertions and appends, so an order that was
checked once by positions stays checked.
-/

namespace Positions

open scoped List

variable {α : Type} [DecidableEq α] {items targets : List α} {target : α}

/-- The positions of one target, from a first index on. -/
def occurrences (items : List α) (target : α) (start : Nat) : List Nat :=
  ((items.zipIdx start).filter fun entry => entry.1 = target).map Prod.snd

/-- The positions of the targets, target by target. -/
def positions (items targets : List α) : List Nat :=
  targets.flatMap fun target => occurrences items target 0

/-- An element has as many positions as it has occurrences. -/
theorem length_occurrences (items : List α) (target : α) (start : Nat) :
    (occurrences items target start).length = items.count target := by
  induction items generalizing start with
  | nil => rfl
  | cons item rest ih =>
      have htail : ((rest.zipIdx (start + 1)).filter fun entry => entry.1 = target).length =
          rest.count target := by
        simpa [occurrences] using ih (start + 1)
      by_cases hitem : item = target
      · rw [occurrences, List.length_map, List.zipIdx_cons,
          List.filter_cons_of_pos (by simpa using hitem), List.length_cons, htail, hitem,
          List.count_cons_self]
      · rw [occurrences, List.length_map, List.zipIdx_cons,
          List.filter_cons_of_neg (by simpa using hitem), htail, List.count_cons_of_ne hitem]

/-- The positions of the targets are where the targets stand. -/
theorem mem_positions {position : Nat} :
    position ∈ positions items targets ↔ ∃ target ∈ targets, items[position]? = some target := by
  simp [positions, occurrences, List.mem_zipIdx_iff_getElem?]

/-- An element that is absent has no positions. -/
theorem occurrences_of_notMem (h : target ∉ items) (start : Nat) :
    occurrences items target start = [] := by
  induction items generalizing start with
  | nil => rfl
  | cons item rest ih =>
      have hne : item ≠ target := fun heq => h (heq ▸ List.mem_cons_self)
      rw [occurrences, List.zipIdx_cons, List.filter_cons_of_neg (by simpa using hne)]
      exact ih (fun hmem => h (List.mem_cons_of_mem _ hmem)) (start + 1)

/-- An element that occurs once splits the list. -/
theorem exists_split (h : items.count target = 1) :
    ∃ before after, items = before ++ target :: after ∧ target ∉ before ∧ target ∉ after := by
  have hmem : target ∈ items := List.count_pos_iff.mp (by omega)
  obtain ⟨before, after, rfl, hbefore⟩ := List.eq_append_cons_of_mem hmem
  refine ⟨before, after, rfl, hbefore, ?_⟩
  rw [List.count_append, List.count_cons_self, List.count_eq_zero.mpr hbefore] at h
  exact List.count_eq_zero.mp (by omega)

/-- The first occurrence stands right behind what comes before it. -/
theorem idxOf_split {before after : List α} (h : target ∉ before) :
    (before ++ target :: after).idxOf target = before.length := by
  rw [List.idxOf_append_of_notMem h, List.idxOf_cons_self, Nat.add_zero]

/-- An element that occurs once has one position. -/
theorem occurrences_of_count_one (h : items.count target = 1) :
    occurrences items target 0 = [items.idxOf target] := by
  obtain ⟨before, after, rfl, hbefore, hafter⟩ := exists_split h
  have hfront := occurrences_of_notMem hbefore 0
  have hback := occurrences_of_notMem hafter (before.length + 1)
  unfold occurrences at *
  rw [idxOf_split hbefore, List.zipIdx_append, List.zipIdx_cons, List.filter_append,
    List.map_append, hfront, List.filter_cons_of_pos (by simp)]
  simpa using hback

/-- Targets that occur once each have one position each. -/
theorem positions_of_count_one (h : ∀ target ∈ targets, items.count target = 1) :
    positions items targets = targets.map fun target => items.idxOf target := by
  induction targets with
  | nil => rfl
  | cons target rest ih =>
      rw [positions, List.flatMap_cons, occurrences_of_count_one (h target List.mem_cons_self)]
      rw [List.map_cons, ← ih fun other hother => h other (List.mem_cons_of_mem _ hother)]
      rfl

/-- Of two elements that occur once and in this order, the first stands first. -/
theorem idxOf_le_of_sublist {first second : α} (hfirst : items.count first = 1)
    (hsecond : items.count second = 1) (h : [first, second] <+ items) :
    items.idxOf first ≤ items.idxOf second := by
  obtain ⟨before, after, rfl, hbefore, -⟩ := exists_split hfirst
  rw [idxOf_split hbefore]
  by_contra hlt
  -- The second one stands before the first, and again behind it.
  have hfront : second ∈ before := by
    by_contra hnot
    rw [List.idxOf_append_of_notMem hnot] at hlt
    omega
  obtain ⟨front, back, hsplit, hfrontSub, hbackSub⟩ := List.sublist_append_iff.mp h
  have hback : second ∈ after := by
    cases front with
    | nil =>
        simp only [List.nil_append] at hsplit
        rw [← hsplit] at hbackSub
        exact List.singleton_sublist.mp (List.cons_sublist_cons.mp hbackSub)
    | cons head tail =>
        obtain ⟨rfl, -⟩ := List.cons.inj hsplit
        exact absurd (hfrontSub.subset List.mem_cons_self) hbefore
  have hcount := List.count_pos_iff.mpr hfront
  have hcount' := List.count_pos_iff.mpr hback
  rw [List.count_append, List.count_cons] at hsecond
  omega

/-- Distinct targets whose positions are in order are a sublist. -/
theorem sublist_of_pairwise (hnodup : targets.Nodup)
    (hcount : ∀ target ∈ targets, items.count target = 1)
    (hordered : (targets.map fun target => items.idxOf target).Pairwise (· ≤ ·)) :
    targets <+ items := by
  induction targets generalizing items with
  | nil => exact List.nil_sublist _
  | cons target rest ih =>
      obtain ⟨before, after, rfl, hbefore, hafter⟩ := exists_split (hcount _ List.mem_cons_self)
      obtain ⟨hnew, hnodup⟩ := List.nodup_cons.mp hnodup
      rw [List.map_cons, List.pairwise_cons] at hordered
      obtain ⟨hfirst, hordered⟩ := hordered
      -- Whatever comes later in the order stands behind the target.
      have hoff : ∀ other ∈ rest, other ∉ before ∧ other ≠ target := by
        intro other hother
        refine ⟨fun hmem => ?_, fun heq => hnew (heq ▸ hother)⟩
        have hle := hfirst _ (List.mem_map_of_mem hother)
        rw [idxOf_split hbefore, List.idxOf_append_of_mem hmem] at hle
        have hlt := List.idxOf_lt_length_of_mem hmem
        omega
      have hindex : ∀ other ∈ rest,
          (before ++ target :: after).idxOf other = before.length + (after.idxOf other + 1) := by
        intro other hother
        obtain ⟨hother, hne⟩ := hoff other hother
        rw [List.idxOf_append_of_notMem hother, List.idxOf_cons_ne _ hne.symm]
      refine List.Sublist.trans ?_ (List.sublist_append_right before _)
      refine List.cons_sublist_cons.mpr (ih hnodup ?_ ?_)
      · intro other hother
        have hone := hcount other (List.mem_cons_of_mem _ hother)
        obtain ⟨hother, hne⟩ := hoff other hother
        rwa [List.count_append, List.count_eq_zero.mpr hother, Nat.zero_add,
          List.count_cons_of_ne hne.symm] at hone
      · rw [List.pairwise_map] at hordered ⊢
        refine hordered.imp_of_mem fun {a b} ha hb hle => ?_
        rw [hindex a ha, hindex b hb] at hle
        omega

/-- The positions of distinct targets that occur once each are in order exactly when the targets are
a sublist. -/
theorem pairwise_positions_iff (hnodup : targets.Nodup)
    (hcount : ∀ target ∈ targets, items.count target = 1) :
    (positions items targets).Pairwise (· ≤ ·) ↔ targets <+ items := by
  rw [positions_of_count_one hcount]
  refine ⟨sublist_of_pairwise hnodup hcount, fun hsub => ?_⟩
  rw [List.pairwise_map, List.pairwise_iff_forall_sublist]
  intro first second hpair
  refine idxOf_le_of_sublist (hcount _ ?_) (hcount _ ?_) (hpair.trans hsub)
  · exact hpair.subset List.mem_cons_self
  · exact hpair.subset (List.mem_cons_of_mem _ List.mem_cons_self)

/-- An element of a prefix is found in that prefix. -/
theorem lt_length_of_idxOf?_eq_some {before after : List α} {start : Nat} (hmem : target ∈ before)
    (h : (before ++ after).idxOf? target = some start) : start < before.length := by
  obtain ⟨_, -, hfirst⟩ := List.idxOf?_eq_some_iff.mp h
  obtain ⟨i, hi, hitem⟩ := List.getElem_of_mem hmem
  by_contra hlt
  refine hfirst i (by omega) ?_
  rw [List.getElem_append_left hi]
  exact hitem

end Positions
