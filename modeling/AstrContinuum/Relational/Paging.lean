import Mathlib.Order.Basic
import AstrContinuum.Control.Checked
import AstrContinuum.Relational.Table

/-!
# Reading a table page by page

A loop that pages through a table reads the next rows behind the last key it has seen, runs its body on them
and goes on until a page is empty. The body may change the table. As long as it only changes the row it is
given, and keeps its key, the loop is one pass over the rows in the order of their keys (`paged_eq`).
-/

namespace Relational

open Checked

variable {α β κ σ ε : Type}

/-! ## Passes -/

/-- A pass over two lists is a pass over the first and then over the second. -/
theorem forEach_append {body : σ → α → Except ε σ} {state : σ} {first second : List α} :
    forEach body state (first ++ second) =
      (forEach body state first >>= fun next => forEach body next second) := by
  induction first generalizing state with
  | nil => rfl
  | cons a rest ih =>
      show (body state a >>= fun next => forEach body next (rest ++ second)) = _
      rw [forEach_cons, bind_assoc]
      exact congrArg _ (funext fun next => ih)

/-- A pass whose body appends a row for each row appends the rows of all. -/
theorem forEach_appends {body : σ → α → Except ε σ} {rows : σ → List β} {R : α → β → Prop} {items : List α}
    (hbody : ∀ s a s', a ∈ items → body s a = .ok s' → ∃ b, rows s' = rows s ++ [b] ∧ R a b)
    {state final : σ} (h : forEach body state items = .ok final) :
    ∃ added, rows final = rows state ++ added ∧ List.Forall₂ R items added := by
  induction items generalizing state with
  | nil =>
      obtain rfl := Except.ok.inj h
      exact ⟨[], (List.append_nil _).symm, .nil⟩
  | cons a rest ih =>
      obtain ⟨next, hnext, hrest⟩ := bind_ok.mp h
      obtain ⟨b, hrows, hR⟩ := hbody state a next List.mem_cons_self hnext
      obtain ⟨added, hadded, hall⟩ :=
        ih (fun s a s' ha => hbody s a s' (List.mem_cons_of_mem _ ha)) hrest
      refine ⟨b :: added, ?_, .cons hR hall⟩
      rw [hadded, hrows, List.append_assoc]
      rfl

/-- A relation of two lists can be weakened on their items. -/
theorem forall₂_weaken {R S : α → β → Prop} {items : List α} {others : List β}
    (h : List.Forall₂ R items others) (hweaken : ∀ a ∈ items, ∀ b, R a b → S a b) :
    List.Forall₂ S items others := by
  induction h with
  | nil => exact .nil
  | cons hfirst _ ih =>
      exact .cons (hweaken _ List.mem_cons_self _ hfirst) (ih fun a ha => hweaken a (List.mem_cons_of_mem _ ha))

/-! ## Changed rows -/

/-- The rows that an update does not select, before and after, are read as before. -/
theorem filter_update_eq {selected keep : α → Bool} {change : α → α} {rows : List α}
    (h : ∀ row ∈ rows, selected row = true → keep row = false ∧ keep (change row) = false) :
    (update selected change rows).filter keep = rows.filter keep := by
  induction rows with
  | nil => rfl
  | cons row rest ih =>
      have hrest := ih fun other hother => h other (List.mem_cons_of_mem _ hother)
      show ((if selected row = true then change row else row) :: update selected change rest).filter keep = _
      by_cases hselected : selected row = true
      · obtain ⟨hbefore, hafter⟩ := h row List.mem_cons_self hselected
        rw [if_pos hselected, List.filter_cons_of_neg (by simp [hafter]),
          List.filter_cons_of_neg (by simp [hbefore]), hrest]
      · rw [if_neg hselected]
        by_cases hkeep : keep row = true
        · rw [List.filter_cons_of_pos hkeep, List.filter_cons_of_pos hkeep, hrest]
        · rw [List.filter_cons_of_neg hkeep, List.filter_cons_of_neg hkeep, hrest]

section Paging

variable [LinearOrder κ] (key : α → κ)

omit [LinearOrder κ] in
/-- Ordering keeps the rows. -/
theorem orderBy_perm [LE κ] [DecidableLE κ] (key : α → κ) (rows : List α) : (orderBy key rows).Perm rows :=
  List.perm_insertionSort _ rows

/-- What a body does to the table: it changes the row that it is given, and keeps its key. -/
def ChangesOne (row : α) (before after : List α) : Prop :=
  ∃ change : α → α, (∀ other, key (change other) = key other) ∧
    after = update (fun other => decide (key other = key row)) change before

variable {key}

/-- A table that is left alone is changed in no row. -/
theorem ChangesOne.refl (row : α) (rows : List α) : ChangesOne key row rows rows :=
  ⟨id, fun _ => rfl, by simp [update]⟩

/-- Other rows stay. -/
theorem ChangesOne.mem {row other : α} {before after : List α} (h : ChangesOne key row before after)
    (hmem : other ∈ before) (hne : key other ≠ key row) : other ∈ after := by
  obtain ⟨change, -, rfl⟩ := h
  exact mem_update.mpr (.inr ⟨hmem, decide_eq_false hne⟩)

variable (key)

/-- The rows behind a key, in the order of the key. -/
def behind (last : κ) (rows : List α) : List α :=
  orderBy key (rows.filter fun row => decide (last < key row))

/-- `SELECT ... WHERE key > last ORDER BY key LIMIT size`. -/
def page (size : Nat) (last : κ) (rows : List α) : List α :=
  (behind key last rows).take size

/-- The loop that pages through a table. It reads at most `passes` pages, and has no result when these are
not all. -/
def paged (size : Nat) (rows : σ → List α) (body : σ → α → Except ε σ) :
    Nat → κ → σ → Option (Except ε σ)
  | 0, _, _ => none
  | passes + 1, last, state =>
      let batch := page key size last (rows state)
      match batch.getLast?, forEach body state batch with
      | none, _ => some (.ok state)
      | some _, .error e => some (.error e)
      | some final, .ok next => paged size rows body passes (key final) next

variable {key}

/-- The rows behind a key are rows of the table. -/
theorem mem_behind {last : κ} {rows : List α} {row : α} :
    row ∈ behind key last rows ↔ row ∈ rows ∧ last < key row := by
  simp [behind, mem_orderBy]

/-- The keys of all rows increase in their order. -/
theorem orderBy_increasing {rows : List α} (h : UniqueKey key rows) :
    (orderBy key rows).Pairwise fun a b => key a < key b := by
  have hunique : UniqueKey key (orderBy key rows) := ((orderBy_perm key rows).map key).nodup_iff.mpr h
  exact (orderBy_pairwise key rows).imp₂ (fun _ _ hle hne => lt_of_le_of_ne hle hne)
    (List.pairwise_map.mp hunique)

/-- So do those of the rows behind a key. -/
theorem behind_increasing {rows : List α} (h : UniqueKey key rows) (last : κ) :
    (behind key last rows).Pairwise fun a b => key a < key b :=
  orderBy_increasing (h.sublist (List.filter_sublist.map key))

/-- A list in the order of the key is determined by its rows. -/
theorem eq_of_increasing {first second : List α} (hfirst : first.Pairwise fun a b => key a < key b)
    (hsecond : second.Pairwise fun a b => key a < key b) (h : first.Perm second) : first = second :=
  h.eq_of_pairwise (fun _ _ _ _ hab hba => absurd hba hab.asymm) hfirst hsecond

/-- The rows behind a later key are those of the rows behind an earlier one. -/
theorem behind_behind {rows : List α} (h : UniqueKey key rows) {last next : κ} (hle : last ≤ next) :
    behind key next rows = (behind key last rows).filter fun row => decide (next < key row) := by
  refine eq_of_increasing (behind_increasing h next) ((behind_increasing h last).filter _) ?_
  have hfilter : rows.filter (fun row => decide (next < key row)) =
      (rows.filter fun row => decide (last < key row)).filter fun row => decide (next < key row) := by
    rw [List.filter_filter]
    refine List.filter_congr fun row _ => ?_
    by_cases hnext : next < key row
    · simp [hnext, hle.trans_lt hnext]
    · simp [hnext]
  have hordered : (behind key next rows).Perm (rows.filter fun row => decide (next < key row)) :=
    orderBy_perm key _
  rw [hfilter] at hordered
  exact hordered.trans ((orderBy_perm key _).symm.filter _)

/-- The rows behind a page are the rows behind its last key. -/
theorem behind_page {rows : List α} (h : UniqueKey key rows) {size : Nat} {last : κ} {final : α}
    (hfinal : (page key size last rows).getLast? = some final) :
    behind key last rows = page key size last rows ++ behind key (key final) rows := by
  have hincreasing := behind_increasing h last
  obtain ⟨front, hfront⟩ : ∃ front, page key size last rows = front ++ [final] :=
    List.getLast?_eq_some_iff.mp hfinal
  have hlast : last < key final :=
    (mem_behind.mp (List.mem_of_mem_take (hfront ▸ List.mem_append_right _ List.mem_cons_self :
      final ∈ page key size last rows))).2
  have hsplit : behind key last rows = page key size last rows ++ (behind key last rows).drop size :=
    (List.take_append_drop size _).symm
  rw [hsplit, hfront] at hincreasing
  obtain ⟨hpage, -, hacross⟩ := List.pairwise_append.mp hincreasing
  obtain ⟨-, -, hbefore⟩ := List.pairwise_append.mp hpage
  have hgone : (front ++ [final]).filter (fun row => decide (key final < key row)) = [] := by
    refine List.filter_eq_nil_iff.mpr fun row hrow => ?_
    rw [decide_eq_true_eq, not_lt]
    rcases List.mem_append.mp hrow with hmem | hmem
    · exact (hbefore row hmem final List.mem_cons_self).le
    · exact (List.mem_singleton.mp hmem) ▸ le_rfl
  have hkept : ((behind key last rows).drop size).filter (fun row => decide (key final < key row)) =
      (behind key last rows).drop size :=
    List.filter_eq_self.mpr fun row hrow =>
      decide_eq_true (hacross final (List.mem_append_right _ List.mem_cons_self) row hrow)
  rw [behind_behind h hlast.le]
  conv_rhs => rw [hsplit, List.filter_append, hkept]
  rw [hfront, hgone, List.nil_append, ← hfront]
  exact hsplit

/-- A change of a row that is not behind the key does not change what is behind it. -/
theorem ChangesOne.behind_eq {row : α} {before after : List α} (h : ChangesOne key row before after)
    {last : κ} (hrow : key row ≤ last) : behind key last after = behind key last before := by
  obtain ⟨change, hkey, rfl⟩ := h
  unfold behind
  rw [filter_update_eq fun other _ hselected => ?_]
  have hsame := of_decide_eq_true hselected
  rw [hkey, hsame]
  exact ⟨decide_eq_false hrow.not_gt, decide_eq_false hrow.not_gt⟩

/-! ## The loop -/

/-- A body that changes only the row it is given, in the states of an invariant with a unique key. -/
structure RowWise (key : α → κ) (rows : σ → List α) (body : σ → α → Except ε σ) (invariant : σ → Prop) :
    Prop where
  unique : ∀ s, invariant s → UniqueKey key (rows s)
  keeps : ∀ s row s', invariant s → row ∈ rows s → body s row = .ok s' → invariant s'
  changes : ∀ s row s', invariant s → row ∈ rows s → body s row = .ok s' →
    ChangesOne key row (rows s) (rows s')

variable {rows : σ → List α} {body : σ → α → Except ε σ} {invariant : σ → Prop}

/-- After a pass over rows up to a key, the rows behind the key are as before. -/
theorem RowWise.pass (h : RowWise key rows body invariant) {items : List α} {last : κ} {s s' : σ}
    (hinvariant : invariant s) (hitems : ∀ row ∈ items, row ∈ rows s) (hbefore : ∀ row ∈ items, key row ≤ last)
    (hincreasing : items.Pairwise fun a b => key a < key b) (hpass : forEach body s items = .ok s') :
    invariant s' ∧ behind key last (rows s') = behind key last (rows s) := by
  induction items generalizing s with
  | nil =>
      obtain rfl := Except.ok.inj hpass
      exact ⟨hinvariant, rfl⟩
  | cons row rest ih =>
      obtain ⟨hfirst, hrest⟩ := List.pairwise_cons.mp hincreasing
      obtain ⟨next, hnext, hlater⟩ := bind_ok.mp hpass
      have hrow := hitems row List.mem_cons_self
      have hchanges := h.changes s row next hinvariant hrow hnext
      have hstill : ∀ other ∈ rest, other ∈ rows next := fun other hother =>
        hchanges.mem (hitems other (List.mem_cons_of_mem _ hother)) (hfirst other hother).ne'
      obtain ⟨hinvariant', hbehind⟩ := ih (h.keeps s row next hinvariant hrow hnext) hstill
        (fun other hother => hbefore other (List.mem_cons_of_mem _ hother)) hrest hlater
      exact ⟨hinvariant', hbehind.trans (hchanges.behind_eq (hbefore row List.mem_cons_self))⟩

/-- A loop whose body changes only the row it is given is a pass over the rows behind the key, and it needs
no more pages than there are rows, and one that is empty. -/
theorem paged_eq (h : RowWise key rows body invariant) {size : Nat} (hsize : 0 < size) {passes : Nat} {last : κ}
    {s : σ} (hinvariant : invariant s) (hpasses : (behind key last (rows s)).length < passes) :
    paged key size rows body passes last s = some (forEach body s (behind key last (rows s))) := by
  induction passes generalizing last s with
  | zero => omega
  | succ passes ih =>
      unfold paged
      cases hfinal : (page key size last (rows s)).getLast? with
      | none =>
          have hpage : page key size last (rows s) = [] := List.getLast?_eq_none_iff.mp hfinal
          have hnone : behind key last (rows s) = [] := by
            rcases List.take_eq_nil_iff.mp hpage with hzero | hnil
            · omega
            · exact hnil
          simp only [hfinal, hnone, forEach_nil]
      | some final =>
          have hunique := h.unique s hinvariant
          have hsplit := behind_page hunique hfinal
          have hincreasing := behind_increasing hunique last
          rw [hsplit] at hincreasing
          obtain ⟨hpage, -, -⟩ := List.pairwise_append.mp hincreasing
          obtain ⟨front, hfront⟩ : ∃ front, page key size last (rows s) = front ++ [final] :=
            List.getLast?_eq_some_iff.mp hfinal
          have hlast : ∀ row ∈ page key size last (rows s), key row ≤ key final := by
            intro row hrow
            rw [hfront] at hrow hpage
            rcases List.mem_append.mp hrow with hmem | hmem
            · exact ((List.pairwise_append.mp hpage).2.2 row hmem final List.mem_cons_self).le
            · exact (List.mem_singleton.mp hmem) ▸ le_rfl
          have hmem : ∀ row ∈ page key size last (rows s), row ∈ rows s := fun row hrow =>
            (mem_behind.mp (List.mem_of_mem_take hrow)).1
          have hshorter : (behind key (key final) (rows s)).length < passes := by
            rw [hsplit, hfront] at hpasses
            simp only [List.length_append, List.length_singleton] at hpasses
            omega
          rw [hsplit, forEach_append]
          simp only [hfinal]
          cases hpass : forEach body s (page key size last (rows s)) with
          | error e => rfl
          | ok next =>
              obtain ⟨hnext, hbehind⟩ := h.pass hinvariant hmem hlast hpage hpass
              show paged key size rows body passes (key final) next = _
              rw [ih hnext (by rwa [hbehind]), hbehind]
              rfl

/-- A pass over some rows of a table keeps the invariant; these rows are related to what they become, and
others stay. -/
theorem RowWise.forall₂ (h : RowWise key rows body invariant) {R : α → α → Prop}
    (hR : ∀ s row s', invariant s → row ∈ rows s → body s row = .ok s' →
      ∀ after ∈ rows s', key after = key row → R row after)
    {items : List α} {s s' : σ} (hinvariant : invariant s) (hitems : ∀ row ∈ items, row ∈ rows s)
    (hincreasing : items.Pairwise fun a b => key a < key b) (hpass : forEach body s items = .ok s') :
    invariant s' ∧ List.Forall₂
      (fun before after => (before ∈ items → R before after) ∧ (before ∉ items → after = before))
      (rows s) (rows s') := by
  induction items generalizing s with
  | nil =>
      obtain rfl := Except.ok.inj hpass
      exact ⟨hinvariant, List.forall₂_same.mpr fun row _ =>
        ⟨fun hmem => absurd hmem List.not_mem_nil, fun _ => rfl⟩⟩
  | cons row rest ih =>
      obtain ⟨hfirst, hrest⟩ := List.pairwise_cons.mp hincreasing
      obtain ⟨next, hnext, hlater⟩ := bind_ok.mp hpass
      have hrow := hitems row List.mem_cons_self
      have hchanges := h.changes s row next hinvariant hrow hnext
      have hstill : ∀ other ∈ rest, other ∈ rows next := fun other hother =>
        hchanges.mem (hitems other (List.mem_cons_of_mem _ hother)) (hfirst other hother).ne'
      obtain ⟨hfinal, hlaterRows⟩ := ih (h.keeps s row next hinvariant hrow hnext) hstill hrest hlater
      have hrelated := hR s row next hinvariant hrow hnext
      obtain ⟨change, hkey, hrows⟩ := hchanges
      rw [hrows] at hlaterRows hrelated
      have hmapped := List.forall₂_map_left_iff.mp hlaterRows
      refine ⟨hfinal, forall₂_weaken hmapped fun before hbefore after hpair => ?_⟩
      by_cases hsame : key before = key row
      · -- the row that this iteration changes: no later one does
        obtain rfl := (h.unique s hinvariant).eq_of_key hbefore hrow hsame
        rw [if_pos (decide_eq_true rfl)] at hpair
        have hchanged : change before ∈ update (fun other => decide (key other = key before)) change (rows s) :=
          mem_update.mpr (.inl ⟨before, hrow, decide_eq_true rfl, rfl⟩)
        have hnever : change before ∉ rest := fun hmem => (hfirst _ hmem).ne (hkey before).symm
        rw [hpair.2 hnever]
        exact ⟨fun _ => hrelated _ hchanged (hkey before), fun hnot => absurd List.mem_cons_self hnot⟩
      · rw [if_neg (by simpa using hsame)] at hpair
        have hother : before ∈ row :: rest ↔ before ∈ rest := by
          rw [List.mem_cons, or_iff_right fun heq => hsame (congrArg key heq)]
        exact ⟨fun hmem => hpair.1 (hother.mp hmem), fun hnot => hpair.2 fun hmem => hnot (hother.mpr hmem)⟩

end Paging

end Relational
