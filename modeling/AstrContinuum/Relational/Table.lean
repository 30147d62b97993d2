import Mathlib.Data.List.Nodup
import Mathlib.Data.List.Sort

/-!
# Tables

A table is a list of rows in insertion order. `update` is `UPDATE ... SET ... WHERE`, `UniqueKey` is a
`PRIMARY KEY` or `UNIQUE` constraint, `References` is a `FOREIGN KEY`, and `orderBy` is a stable
`ORDER BY`. The lemmas say how a constraint reacts to one statement and how a keyed lookup reads a
table.
-/

namespace Relational

variable {α β κ : Type}

/-! ## Updates -/

/-- `UPDATE rows SET change WHERE selected`. -/
def update (selected : α → Bool) (change : α → α) (rows : List α) : List α :=
  rows.map fun row => if selected row then change row else row

/-- A row of an updated table is a changed row or an untouched one. -/
theorem mem_update {selected : α → Bool} {change : α → α} {rows : List α} {row : α} :
    row ∈ update selected change rows ↔
      (∃ old ∈ rows, selected old = true ∧ change old = row) ∨
        (row ∈ rows ∧ selected row = false) := by
  constructor
  · intro h
    obtain ⟨old, hold, heq⟩ := List.mem_map.mp h
    cases hs : selected old with
    | true => exact .inl ⟨old, hold, hs, by simpa [hs] using heq⟩
    | false =>
        obtain rfl : old = row := by simpa [hs] using heq
        exact .inr ⟨hold, hs⟩
  · rintro (⟨old, hold, hs, rfl⟩ | ⟨hrow, hs⟩)
    · exact List.mem_map.mpr ⟨old, hold, by simp [hs]⟩
    · exact List.mem_map.mpr ⟨row, hrow, by simp [hs]⟩

/-- A property of every row survives an update whose changes keep it. -/
theorem forall_update {P : α → Prop} {selected : α → Bool} {change : α → α} {rows : List α}
    (h : ∀ row ∈ rows, P row) (hchange : ∀ row ∈ rows, P row → P (change row)) :
    ∀ row ∈ update selected change rows, P row := by
  intro row hrow
  rcases mem_update.mp hrow with ⟨old, hold, -, rfl⟩ | ⟨hold, -⟩
  · exact hchange old hold (h old hold)
  · exact h row hold

/-- An update that leaves a column alone leaves the whole column alone. -/
theorem map_update {selected : α → Bool} {change : α → α} (column : α → β) (rows : List α)
    (h : ∀ row, selected row = true → column (change row) = column row) :
    (update selected change rows).map column = rows.map column := by
  simp only [update, List.map_map]
  apply List.map_congr_left
  intro row _
  cases hs : selected row with
  | true => simp [hs, h row hs]
  | false => simp [hs]

/-- An update that selects nothing changes nothing. -/
theorem update_eq_self {selected : α → Bool} {change : α → α} {rows : List α}
    (h : ∀ row ∈ rows, selected row = false) : update selected change rows = rows := by
  conv_rhs => rw [← List.map_id rows]
  exact List.map_congr_left fun row hrow => by simp [h row hrow]

/-- An update depends only on which stored rows it selects. -/
theorem update_congr {selected selected' : α → Bool} {change : α → α} {rows : List α}
    (h : ∀ row ∈ rows, selected row = selected' row) :
    update selected change rows = update selected' change rows :=
  List.map_congr_left fun row hrow => by simp [h row hrow]

/-- Two updates of disjoint rows by one change are one update. -/
theorem update_update {first second : α → Bool} {change : α → α} {rows : List α}
    (hfirst : ∀ row ∈ rows, first row = true → second (change row) = false) :
    update second change (update first change rows) =
      update (fun row => first row || second row) change rows := by
  simp only [update, List.map_map]
  apply List.map_congr_left
  intro row hrow
  by_cases hf : first row = true
  · simp [hf, hfirst row hrow hf]
  · simp [hf]

/-- A lookup that neither a changed row nor its new value answers does not see the update. -/
theorem find_update_of_ne {selected wanted : α → Bool} {change : α → α} {rows : List α}
    (h : ∀ row, selected row = true → wanted row = false ∧ wanted (change row) = false) :
    (update selected change rows).find? wanted = rows.find? wanted := by
  induction rows with
  | nil => rfl
  | cons row rest ih =>
      have ih' : (rest.map fun row => if selected row then change row else row).find? wanted =
          rest.find? wanted := ih
      simp only [update, List.map_cons, List.find?_cons]
      by_cases hs : selected row = true
      · simp [hs, (h row hs).1, (h row hs).2, ih']
      · simp [hs, ih']

/-- An update that keeps a column and brings no row into a filter leaves the filtered column a
sublist of what it was. -/
theorem filter_update_sublist {selected keep : α → Bool} {change : α → α} (column : α → β)
    {rows : List α} (hcolumn : ∀ row ∈ rows, column (change row) = column row)
    (h : ∀ row ∈ rows, selected row = true → keep (change row) = true → keep row = true) :
    (((update selected change rows).filter keep).map column).Sublist
      ((rows.filter keep).map column) := by
  induction rows with
  | nil => exact .slnil
  | cons row rest ih =>
      have hrest := ih (fun other hother => hcolumn other (List.mem_cons_of_mem _ hother))
        fun other hother => h other (List.mem_cons_of_mem _ hother)
      have hcons : update selected change (row :: rest) =
          (if selected row then change row else row) :: update selected change rest := rfl
      rw [hcons, List.filter_cons, List.filter_cons]
      cases hs : selected row with
      | true =>
          have hkeep := h row List.mem_cons_self hs
          simp only [if_true]
          cases hchanged : keep (change row) with
          | true =>
              simp only [hkeep hchanged, if_true, List.map_cons, hcolumn row List.mem_cons_self]
              exact hrest.cons_cons _
          | false =>
              simp only [Bool.false_eq_true, if_false]
              split
              · exact hrest.cons _
              · exact hrest
      | false =>
          simp only [Bool.false_eq_true, if_false]
          split
          · exact hrest.cons_cons _
          · exact hrest

/-! ## Keys -/

/-- `PRIMARY KEY` or `UNIQUE`: no two rows agree on the key. -/
def UniqueKey (key : α → κ) (rows : List α) : Prop :=
  (rows.map key).Nodup

instance [DecidableEq κ] (key : α → κ) (rows : List α) : Decidable (UniqueKey key rows) :=
  inferInstanceAs (Decidable (List.Nodup _))

/-- Two rows of a table with the same unique key are one row. -/
theorem UniqueKey.eq_of_key {key : α → κ} {rows : List α} (h : UniqueKey key rows) {a b : α}
    (ha : a ∈ rows) (hb : b ∈ rows) (hkey : key a = key b) : a = b :=
  List.inj_on_of_nodup_map h ha hb hkey

/-- A lookup by a unique key finds exactly the row that has it. -/
theorem UniqueKey.find_eq_some [DecidableEq κ] {key : α → κ} {rows : List α} (h : UniqueKey key rows)
    {k : κ} {row : α} :
    rows.find? (fun r => key r = k) = some row ↔ row ∈ rows ∧ key row = k := by
  constructor
  · intro hfind
    exact ⟨List.mem_of_find?_eq_some hfind, by simpa using List.find?_some hfind⟩
  · rintro ⟨hrow, rfl⟩
    cases hfind : rows.find? (fun r => key r = key row) with
    | none => exact absurd (List.find?_eq_none.mp hfind row hrow) (by simp)
    | some other =>
        have hkey : key other = key row := by simpa using List.find?_some hfind
        exact congrArg some (h.eq_of_key (List.mem_of_find?_eq_some hfind) hrow hkey)

/-- A lookup by key fails exactly when no row has the key. -/
theorem find_eq_none [DecidableEq κ] {key : α → κ} {rows : List α} {k : κ} :
    rows.find? (fun r => key r = k) = none ↔ ∀ row ∈ rows, key row ≠ k := by
  simp

/-- A predicate that implies a unique key selects the row that has the key and no other. -/
theorem UniqueKey.select_eq [DecidableEq κ] {key : α → κ} {rows : List α} (h : UniqueKey key rows)
    {selected : α → Bool} {row : α} (hrow : row ∈ rows) (hselected : selected row = true)
    (hkey : ∀ other, selected other = true → key other = key row) :
    ∀ other ∈ rows, selected other = decide (key other = key row) := by
  intro other hother
  by_cases hk : key other = key row
  · rw [h.eq_of_key hother hrow hk, hselected]
    simp
  · have : selected other ≠ true := fun hs => hk (hkey other hs)
    simpa [hk] using this

/-- A lookup by a predicate that implies a unique key finds the row that has the key. -/
theorem UniqueKey.find_select {key : α → κ} {rows : List α} (h : UniqueKey key rows)
    {selected : α → Bool} {row : α} (hrow : row ∈ rows) (hselected : selected row = true)
    (hkey : ∀ other, selected other = true → key other = key row) :
    rows.find? selected = some row := by
  cases hfind : rows.find? selected with
  | none => exact absurd hselected (List.find?_eq_none.mp hfind row hrow)
  | some other =>
      have hsame := h.eq_of_key (List.mem_of_find?_eq_some hfind) hrow
        (hkey other (List.find?_some hfind))
      rw [hsame]

/-- A selection by a unique key is the row that has it. -/
theorem UniqueKey.filter_eq [DecidableEq κ] {key : α → κ} {rows : List α} (h : UniqueKey key rows)
    {row : α} (hrow : row ∈ rows) : rows.filter (fun other => key other = key row) = [row] := by
  induction rows with
  | nil => cases hrow
  | cons a rest ih =>
      obtain ⟨hnew, hrest⟩ := List.nodup_cons.mp h
      rcases List.mem_cons.mp hrow with rfl | hrow
      · have hnone : rest.filter (fun other => key other = key row) = [] := by
          refine List.filter_eq_nil_iff.mpr fun other hother => ?_
          simp only [decide_eq_true_eq]
          intro hkey
          exact hnew (hkey ▸ List.mem_map_of_mem hother)
        simp [hnone]
      · have hne : key a ≠ key row := fun hkey => hnew (hkey ▸ List.mem_map_of_mem hrow)
        simp [hne, ih hrest hrow]

/-- One row has a given unique key. -/
theorem UniqueKey.countP_eq_one [DecidableEq κ] {key : α → κ} {rows : List α} (h : UniqueKey key rows)
    {row : α} (hrow : row ∈ rows) : rows.countP (fun other => key other = key row) = 1 := by
  have hcount : (rows.map key).count (key row) = 1 :=
    List.count_eq_one_of_mem h (List.mem_map_of_mem hrow)
  simpa [List.count, List.countP_map, Function.comp_def, beq_eq_decide] using hcount

/-- An insert keeps a key unique exactly when no stored row has the new key. -/
theorem uniqueKey_append_singleton {key : α → κ} {rows : List α} {row : α} :
    UniqueKey key (rows ++ [row]) ↔ UniqueKey key rows ∧ ∀ old ∈ rows, key old ≠ key row := by
  simp only [UniqueKey, List.map_append, List.map_cons, List.map_nil, List.nodup_append,
    List.nodup_cons, List.not_mem_nil, not_false_eq_true, List.nodup_nil, and_self, true_and,
    List.mem_map, List.mem_singleton, forall_exists_index, and_imp, forall_apply_eq_imp_iff₂,
    ne_eq]
  constructor
  · rintro ⟨hrows, hnew⟩
    exact ⟨hrows, fun old hold => hnew old hold _ rfl⟩
  · rintro ⟨hrows, hnew⟩
    exact ⟨hrows, fun old hold b hb => hb ▸ hnew old hold⟩

/-- A batch of rows with keys that are new and distinct keeps a key unique. -/
theorem UniqueKey.append {key : α → κ} {rows batch : List α} (h : UniqueKey key rows)
    (hbatch : UniqueKey key batch) (hnew : ∀ old ∈ rows, ∀ row ∈ batch, key old ≠ key row) :
    UniqueKey key (rows ++ batch) := by
  unfold UniqueKey
  rw [List.map_append]
  refine List.nodup_append.mpr ⟨h, hbatch, ?_⟩
  intro a ha b hb
  obtain ⟨old, hold, rfl⟩ := List.mem_map.mp ha
  obtain ⟨row, hrow, rfl⟩ := List.mem_map.mp hb
  exact hnew old hold row hrow

/-- The first row of a batch can be inserted alone. -/
theorem UniqueKey.first {key : α → κ} {rows batch : List α} {row : α}
    (h : UniqueKey key (rows ++ row :: batch)) : UniqueKey key (rows ++ [row]) :=
  h.sublist (((List.nil_sublist batch).cons_cons row).append_left rows |>.map key)

/-- An update of one row to a new key keeps the key unique. -/
theorem UniqueKey.update_one {key : α → κ} {rows : List α} (h : UniqueKey key rows)
    {selected : α → Bool} {change : α → α}
    (hone : ∀ a ∈ rows, ∀ b ∈ rows, selected a = true → selected b = true → a = b)
    (hnew : ∀ a ∈ rows, ∀ b ∈ rows, key (change a) ≠ key b) :
    UniqueKey key (update selected change rows) := by
  unfold UniqueKey update
  rw [List.map_map]
  refine (List.Nodup.of_map key h).map_on fun a ha b hb heq => ?_
  simp only [Function.comp_apply] at heq
  by_cases hsa : selected a = true <;> by_cases hsb : selected b = true
  · exact hone a ha b hb hsa hsb
  · rw [if_pos hsa, if_neg hsb] at heq
    exact absurd heq (hnew a ha b hb)
  · rw [if_neg hsa, if_pos hsb] at heq
    exact absurd heq.symm (hnew b hb a ha)
  · rw [if_neg hsa, if_neg hsb] at heq
    exact h.eq_of_key ha hb heq

/-- `FOREIGN KEY`: every key that a row refers to is the key of a stored parent. -/
def References (foreign : α → Option κ) (rows : List α) (parents : List κ) : Prop :=
  ∀ row ∈ rows, ∀ k ∈ foreign row, k ∈ parents

instance [DecidableEq κ] (foreign : α → Option κ) (rows : List α) (parents : List κ) :
    Decidable (References foreign rows parents) :=
  inferInstanceAs (Decidable (∀ row ∈ rows, _))

/-- References survive when parents are added. -/
theorem References.mono {foreign : α → Option κ} {rows : List α} {parents parents' : List κ}
    (h : References foreign rows parents) (hsubset : ∀ k ∈ parents, k ∈ parents') :
    References foreign rows parents' :=
  fun row hrow k hk => hsubset k (h row hrow k hk)

/-- An insert keeps references when the new row refers to stored parents. -/
theorem References.append_singleton {foreign : α → Option κ} {rows : List α} {parents : List κ}
    {row : α} (h : References foreign rows parents) (hrow : ∀ k ∈ foreign row, k ∈ parents) :
    References foreign (rows ++ [row]) parents := by
  intro other hother
  rcases List.mem_append.mp hother with hother | hother
  · exact h other hother
  · obtain rfl := List.mem_singleton.mp hother
    exact hrow

/-- A check of every row survives the insert of a row that passes it. -/
theorem forall_append_singleton {P : α → Prop} {rows : List α} {row : α}
    (h : ∀ other ∈ rows, P other) (hrow : P row) : ∀ other ∈ rows ++ [row], P other := by
  intro other hother
  rcases List.mem_append.mp hother with hother | hother
  · exact h other hother
  · obtain rfl := List.mem_singleton.mp hother
    exact hrow

/-! ## Order -/

/-- `ORDER BY`, stable. -/
def orderBy [LE κ] [DecidableLE κ] (key : α → κ) (rows : List α) : List α :=
  rows.insertionSort fun a b => key a ≤ key b

/-- Ordering permutes the rows. -/
theorem mem_orderBy [LE κ] [DecidableLE κ] {key : α → κ} {rows : List α} {row : α} :
    row ∈ orderBy key rows ↔ row ∈ rows :=
  (List.perm_insertionSort _ rows).mem_iff

/-- Rows that are stored in order are read in that order. -/
theorem orderBy_eq_self [LE κ] [DecidableLE κ] {key : α → κ} {rows : List α}
    (h : rows.Pairwise fun a b => key a ≤ key b) : orderBy key rows = rows :=
  List.Pairwise.insertionSort_eq h

/-- Ordered rows come in the order of their keys. -/
theorem orderBy_pairwise [LinearOrder κ] (key : α → κ) (rows : List α) :
    (orderBy key rows).Pairwise fun a b => key a ≤ key b := by
  have : Std.Total fun a b : α => key a ≤ key b := ⟨fun a b => le_total (key a) (key b)⟩
  have : IsTrans α fun a b => key a ≤ key b := ⟨fun _ _ _ => le_trans⟩
  exact List.pairwise_insertionSort _ rows

/-- `LIMIT` prefers the rows that come first: among the first rows there are as many of a
downward closed kind as fit. -/
theorem min_countP_le_countP_take {R : α → α → Prop} {rows : List α} (hpair : rows.Pairwise R)
    {kind : α → Bool}
    (hdown : ∀ a ∈ rows, ∀ b ∈ rows, R a b → kind b = true → kind a = true) (limit : Nat) :
    min limit (rows.countP kind) ≤ (rows.take limit).countP kind := by
  have hsplit := List.take_append_drop limit rows
  have hcount : rows.countP kind =
      (rows.take limit).countP kind + (rows.drop limit).countP kind := by
    rw [← List.countP_append, hsplit]
  rcases Nat.eq_zero_or_pos ((rows.drop limit).countP kind) with hnone | hsome
  · omega
  · -- A row of the kind was left out, so every row that was taken is of the kind.
    obtain ⟨b, hb, hkind⟩ := List.countP_pos_iff.mp hsome
    rw [← hsplit] at hpair
    have hbefore := (List.pairwise_append.mp hpair).2.2
    have hall : (rows.take limit).countP kind = (rows.take limit).length := by
      refine List.countP_eq_length.mpr fun a ha => ?_
      exact hdown a (List.mem_of_mem_take ha) b (List.mem_of_mem_drop hb) (hbefore a ha b hb) hkind
    have hlength : limit < rows.length := by
      have := List.length_pos_of_mem hb
      rw [List.length_drop] at this
      omega
    rw [hall, List.length_take]
    omega

/-- What is left of a downward closed kind once the first rows are gone. -/
theorem countP_le_sub_of_take {R : α → α → Prop} {rows later : List α} (hpair : rows.Pairwise R)
    {kind : α → Bool}
    (hdown : ∀ a ∈ rows, ∀ b ∈ rows, R a b → kind b = true → kind a = true) {limit : Nat}
    (hnodup : later.Nodup)
    (hlater : ∀ row ∈ later, kind row = true → row ∈ rows ∧ row ∉ rows.take limit) :
    later.countP kind ≤ rows.countP kind - limit := by
  have hsubset : later.filter kind ⊆ (rows.drop limit).filter kind := by
    intro row hrow
    obtain ⟨hmem, hkind⟩ := List.mem_filter.mp hrow
    obtain ⟨hold, hnot⟩ := hlater row hmem hkind
    rw [← List.take_append_drop limit rows] at hold
    exact List.mem_filter.mpr ⟨(List.mem_append.mp hold).resolve_left hnot, hkind⟩
  have hdrop : later.countP kind ≤ (rows.drop limit).countP kind := by
    rw [List.countP_eq_length_filter, List.countP_eq_length_filter]
    exact (List.subperm_of_subset (hnodup.filter _) hsubset).length_le
  have hcount : rows.countP kind =
      (rows.take limit).countP kind + (rows.drop limit).countP kind := by
    rw [← List.countP_append, List.take_append_drop]
  have htake := min_countP_le_countP_take hpair hdown limit
  omega

/-- The numbers of an interval that lie in a smaller one. -/
theorem filter_range' {first count start stop : Nat} (hstart : first ≤ start + 1)
    (hstop : stop < first + count) :
    (List.range' first count).filter (fun i => decide (start < i) && decide (i ≤ stop)) =
      List.range' (start + 1) (stop - start) := by
  by_cases hle : start ≤ stop
  · have hsplit : List.range' first count = List.range' first (start + 1 - first) ++
        (List.range' (start + 1) (stop - start) ++
          List.range' (stop + 1) (first + count - (stop + 1))) := by
      have hcount : count = start + 1 - first + (stop - start + (first + count - (stop + 1))) := by
        omega
      have hfirst : first + (start + 1 - first) = start + 1 := by omega
      have hlast : start + 1 + (stop - start) = stop + 1 := by omega
      conv_lhs => rw [hcount, ← List.range'_append_1, hfirst, ← List.range'_append_1, hlast]
    have hbelow : (List.range' first (start + 1 - first)).filter
        (fun i => decide (start < i) && decide (i ≤ stop)) = [] := by
      refine List.filter_eq_nil_iff.mpr fun i hi => ?_
      rw [List.mem_range'_1] at hi
      simp only [Bool.and_eq_true, decide_eq_true_eq, not_and]
      omega
    have habove : (List.range' (stop + 1) (first + count - (stop + 1))).filter
        (fun i => decide (start < i) && decide (i ≤ stop)) = [] := by
      refine List.filter_eq_nil_iff.mpr fun i hi => ?_
      rw [List.mem_range'_1] at hi
      simp only [Bool.and_eq_true, decide_eq_true_eq, not_and]
      omega
    have hinside : (List.range' (start + 1) (stop - start)).filter
        (fun i => decide (start < i) && decide (i ≤ stop)) =
          List.range' (start + 1) (stop - start) := by
      refine List.filter_eq_self.mpr fun i hi => ?_
      rw [List.mem_range'_1] at hi
      simp only [Bool.and_eq_true, decide_eq_true_eq]
      omega
    rw [hsplit, List.filter_append, List.filter_append, hbelow, hinside, habove, List.nil_append,
      List.append_nil]
  · rw [Nat.sub_eq_zero_of_le (Nat.le_of_not_le hle)]
    refine List.filter_eq_nil_iff.mpr fun i _ => ?_
    simp only [Bool.and_eq_true, decide_eq_true_eq, not_and]
    omega

end Relational
