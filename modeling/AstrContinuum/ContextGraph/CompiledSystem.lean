import AstrContinuum.ContextGraph.IndependentRows

/-!
# The compiled system

What `compile_constraints` returns: its rows are independent, and a column with a nonzero value is a
coordinate of the support.
-/

namespace AstrContinuum

open Checked ConstrainedSystems Matrix

variable {support : String → Prop} {fuel : Nat}

/-! ## The support of the rows -/

/-- In a group of two coordinates or more, all are in the support. -/
theorem GroupedRows.inside_of_two {done : List String} {groups : List (String × List String)}
    (h : GroupedRows support done groups) (hnodup : done.Nodup) {group : String × List String}
    (hgroup : group ∈ groups) {anchor : String} {members : List String}
    (hsplit : group.2 = anchor :: members) (hmembers : members ≠ []) :
    ∀ member ∈ group.2, support member := by
  have hdistinct : group.2.Nodup :=
    (List.nodup_flatMap.mp (h.members.nodup_iff.mpr hnodup)).1 group hgroup
  intro member hmember
  by_contra hout
  have hroot := h.outside group hgroup member hmember hout
  have hother : ∃ other ∈ group.2, other ≠ member := by
    by_cases hanchor : anchor = member
    · obtain ⟨other, hother⟩ := List.exists_mem_of_ne_nil members hmembers
      rw [hsplit, List.nodup_cons] at hdistinct
      refine ⟨other, hsplit ▸ List.mem_cons_of_mem _ hother, ?_⟩
      rintro rfl
      exact hdistinct.1 (hanchor ▸ hother)
    · exact ⟨anchor, hsplit ▸ List.mem_cons_self, hanchor⟩
  obtain ⟨other, hother, hne⟩ := hother
  by_cases hin : support other
  · exact hout (hroot ▸ h.inside group hgroup other hother hin)
  · exact hne ((h.outside group hgroup other hother hin).symm.trans hroot)

/-- The rows touch coordinates of the support only. -/
theorem classRows_support {fixed : FixedByRoot} (hfixed : ∀ pair ∈ fixed, support pair.1)
    {groups : List (List String)} :
    ∀ {parents : Parents}, parents.Within support →
      (∀ group ∈ groups, ∀ anchor members, group = anchor :: members → members ≠ [] →
        ∀ member ∈ group, support member) →
      ∀ row ∈ classRows fuel fixed parents groups,
        support row.anchor ∧ ∀ member, row.member = some member → support member := by
  induction groups with
  | nil => exact fun _ _ _ hrow => absurd hrow List.not_mem_nil
  | cons group groups ih =>
      intro parents h hgroups row hrow
      have hrest : ∀ other ∈ groups, ∀ anchor members, other = anchor :: members → members ≠ [] →
          ∀ member ∈ other, support member :=
        fun other hother => hgroups other (List.mem_cons_of_mem _ hother)
      cases group with
      | nil => exact ih h hrest row hrow
      | cons anchor members =>
          obtain ⟨hkept, _, hout⟩ := h.chase fuel anchor
          unfold classRows at hrow
          dsimp only at hrow
          rcases List.mem_append.mp hrow with hgroup | hlater
          · rcases List.mem_append.mp hgroup with hequality | hfix
            · obtain ⟨member, hmember, rfl⟩ := List.mem_map.mp hequality
              have hall := hgroups _ List.mem_cons_self anchor members rfl
                (List.ne_nil_of_mem hmember)
              refine ⟨hall anchor List.mem_cons_self, fun other hother => ?_⟩
              rw [← Option.some.inj hother]
              exact hall member (List.mem_cons_of_mem _ hmember)
            · obtain ⟨value, hvalue, rfl⟩ :=
                Option.map_eq_some_iff.mp (Option.mem_toList.mp hfix)
              constructor
              · show support anchor
                by_contra hanchor
                exact hanchor (hout hanchor ▸ hfixed _ (mem_of_lookup hvalue))
              · intro other hother
                cases hother
          · exact ih hkept hrest row hlater

/-! ## Independence -/

/-- In a list whose chosen values are distinct, a value is that of one place. -/
theorem eq_of_filterMap_nodup {α β : Type} {f : α → Option β} {items : List α}
    (h : (items.filterMap f).Nodup) {i j : Nat} {hi : i < items.length} {hj : j < items.length}
    {value : β} (hleft : f items[i] = some value) (hright : f items[j] = some value) : i = j := by
  have hpairs := List.pairwise_iff_getElem.mp (List.pairwise_filterMap.mp h)
  rcases Nat.lt_trichotomy i j with hlt | heq | hlt
  · exact absurd rfl (hpairs i j hi hj hlt value hleft value hright)
  · exact heq
  · exact absurd rfl (hpairs j i hj hi hlt value hright value hleft)

/-- The values of the rows at the coordinates. -/
def coefficientMatrix {K : Type} [Field K] (coordinates : List String) (rows : List SolveRow) :
    Matrix (Fin rows.length) (Fin coordinates.length) K :=
  Matrix.of fun i j => rows[i].coefficient coordinates[j]

variable {K : Type} [Field K]

/-- The column of a member has a value in its own row only. -/
theorem Triangular.member_column {rows : List SolveRow} (h : Triangular rows)
    {i : Fin rows.length} {member : String} (hmember : rows[i].member = some member)
    (k : Fin rows.length) :
    rows[k].coefficient member = if k = i then (-1 : K) else 0 := by
  have hmem : member ∈ rows.filterMap SolveRow.member :=
    List.mem_filterMap.mpr ⟨_, List.getElem_mem i.isLt, hmember⟩
  have hanchor : rows[k].anchor ≠ member := h.apart _ (List.getElem_mem k.isLt) member hmem
  unfold SolveRow.coefficient
  rw [if_neg hanchor, zero_add]
  by_cases hk : k = i
  · subst hk
    rw [if_pos rfl, if_pos hmember]
  · rw [if_neg hk, if_neg]
    intro hother
    exact hk (Fin.ext (eq_of_filterMap_nodup h.members hother hmember))

/-- The column of a fixed coordinate has a value in one of the fixing rows only. -/
theorem Triangular.fixed_column {rows : List SolveRow} (h : Triangular rows)
    {i : Fin rows.length} {anchor : String} (hfixed : rows[i].fixed = some anchor)
    (k : Fin rows.length) (hk : rows[k].member = none) :
    rows[k].coefficient anchor = if k = i then (1 : K) else 0 := by
  have hrow : rows[k].fixed = some rows[k].anchor := by
    cases hshape : rows[k] with
    | equality other member =>
        rw [hshape] at hk
        cases hk
    | fix other value => rfl
  unfold SolveRow.coefficient
  rw [hk, if_neg (by exact nofun : ¬ none = some anchor), add_zero]
  by_cases hsame : k = i
  · subst hsame
    rw [if_pos rfl, if_pos (Option.some.inj (hrow.symm.trans hfixed))]
  · rw [if_neg hsame, if_neg]
    intro hother
    exact hsame (Fin.ext (eq_of_filterMap_nodup h.fixes (hother ▸ hrow) hfixed))

/-- The rows of disjoint groups are independent. -/
theorem Triangular.independent {rows : List SolveRow} (h : Triangular rows)
    {coordinates : List String}
    (hknown : ∀ row ∈ rows, row.anchor ∈ coordinates ∧
      ∀ member, row.member = some member → member ∈ coordinates) :
    RowsIndependent (coefficientMatrix (K := K) coordinates rows) := by
  intro y hy
  have hcolumn {coordinateId : String} (hmem : coordinateId ∈ coordinates) :
      ∑ k, y k * rows[k].coefficient coordinateId = 0 := by
    obtain ⟨j, hj, rfl⟩ := List.getElem_of_mem hmem
    exact congrFun hy ⟨j, hj⟩
  -- first the rows that equate, by the columns of their members
  have hequalities (k : Fin rows.length) (member : String) (hmember : rows[k].member = some member) :
      y k = 0 := by
    have hsum := hcolumn ((hknown _ (List.getElem_mem k.isLt)).2 member hmember)
    simp only [h.member_column hmember, mul_ite, mul_neg, mul_one, mul_zero, Finset.sum_ite_eq',
      Finset.mem_univ, if_true] at hsum
    exact neg_eq_zero.mp hsum
  -- then the rows that fix, among which an anchor stands once
  funext i
  cases hshape : rows[i].member with
  | some member => exact hequalities i member hshape
  | none =>
      have hfixed : rows[i].fixed = some rows[i].anchor := by
        cases hrow : rows[i] with
        | equality anchor member =>
            rw [hrow] at hshape
            cases hshape
        | fix anchor value => rfl
      have hanchor : rows[i].anchor ∈ coordinates := (hknown _ (List.getElem_mem i.isLt)).1
      have hsum := hcolumn hanchor
      have hterm (k : Fin rows.length) : y k * rows[k].coefficient rows[i].anchor =
          if k = i then y i else 0 := by
        cases hk : rows[k].member with
        | some member =>
            rw [hequalities k member hk, zero_mul]
            by_cases hsame : k = i
            · subst hsame
              rw [hk] at hshape
              cases hshape
            · rw [if_neg hsame]
        | none =>
            rw [h.fixed_column hfixed k hk, mul_ite, mul_one, mul_zero]
            by_cases hsame : k = i
            · rw [if_pos hsame, if_pos hsame, hsame]
            · rw [if_neg hsame, if_neg hsame]
      rw [Finset.sum_congr rfl fun k _ => hterm k, Finset.sum_ite_eq' Finset.univ i,
        if_pos (Finset.mem_univ i)] at hsum
      exact hsum

/-! ## Compiling -/

/-- A classified row has the coordinates of its terms. -/
theorem classifyConstraint_within {row : ConstraintRow} {item : ClassifiedConstraint}
    (h : classifyConstraint row = .ok item) : item.Within (· ∈ row.support.2) := by
  unfold classifyConstraint at h
  unfold ConstraintRow.support
  split at h
  · next coordinateId coefficient hterms =>
      split_ifs at h
      obtain rfl := Except.ok.inj h
      rw [hterms]
      exact List.mem_cons_self
  · next left leftCoefficient right rightCoefficient hterms =>
      split_ifs at h
      obtain rfl := Except.ok.inj h
      rw [hterms]
      exact ⟨List.mem_cons_self, List.mem_cons_of_mem _ List.mem_cons_self⟩
  · cases h

/-- The parsed rows have coordinates of the support. -/
theorem parseRows_within {coordinates : List String} {rows : List ConstraintRow}
    {parsed : List ClassifiedConstraint} (h : forEach (parseRow coordinates) [] rows = .ok parsed) :
    ∀ item ∈ parsed, item.Within fun coordinateId => ∃ row ∈ rows, coordinateId ∈ row.support.2 := by
  refine forEach_invariant (fun parsed => ∀ item ∈ parsed,
    item.Within fun coordinateId => ∃ row ∈ rows, coordinateId ∈ row.support.2) ?_
    (fun _ hitem => absurd hitem List.not_mem_nil) h
  intro done row next hrow hdone hnext item hitem
  obtain ⟨_, _, hnext⟩ := bind_ok.mp hnext
  obtain ⟨classified, hclassified, hnext⟩ := bind_ok.mp hnext
  obtain rfl := pure_ok.mp hnext
  rcases List.mem_append.mp hitem with hold | hnew
  · exact hdone item hold
  · obtain rfl := List.mem_singleton.mp hnew
    have hwithin := classifyConstraint_within hclassified
    cases item with
    | fix coordinateId value => exact ⟨row, hrow, hwithin⟩
    | equality left right => exact ⟨⟨row, hrow, hwithin.1⟩, ⟨row, hrow, hwithin.2⟩⟩

/-- What the rows of the groups satisfy. -/
structure RowsCompiled (support : String → Prop) (coordinates : List String)
    (rows : List SolveRow) : Prop where
  triangular : Triangular rows
  known : ∀ row ∈ rows, row.anchor ∈ coordinates ∧
    ∀ member, row.member = some member → member ∈ coordinates
  supported : ∀ row ∈ rows, support row.anchor ∧
    ∀ member, row.member = some member → support member

/-- The rows that compiling returns. -/
theorem systemRows_spec {coordinates : List String}
    {parsed : List ClassifiedConstraint} {rows : List SolveRow} (hnodup : coordinates.Nodup)
    (hparsed : ∀ item ∈ parsed, item.Within support)
    (h : systemRows coordinates parsed = .ok rows) :
    RowsCompiled support coordinates rows := by
  obtain ⟨⟨parents, fixed⟩, hfix, h⟩ := bind_ok.mp h
  obtain rfl := pure_ok.mp h
  have hstart : Parents.Within support id := fun _ => ⟨fun hin => hin, fun _ => rfl⟩
  obtain ⟨hparents, hfixed⟩ := fixClasses_within (joinAll_within hstart hparsed)
    (fun _ hpair => absurd hpair List.not_mem_nil) hparsed hfix
  have hempty : GroupedRows support [] [] :=
    ⟨List.Perm.refl _, fun _ hgroup => absurd hgroup List.not_mem_nil,
      fun _ hgroup => absurd hgroup List.not_mem_nil⟩
  obtain ⟨hgroupedParents, hgrouped⟩ :=
    groupClasses_grouped (parsed.length + 1) coordinates hparents hempty
  rw [List.nil_append] at hgrouped
  generalize groupClasses (parsed.length + 1) parents [] coordinates = grouped at *
  have hmembers : (grouped.2.map Prod.snd).flatten.Perm coordinates := by
    rw [← List.flatMap_def]
    exact hgrouped.members
  obtain ⟨hrowMembers, _, hanchors⟩ := classRows_parts (parsed.length + 1) fixed
    (grouped.2.map Prod.snd) grouped.1
  have hparts := heads_append_tails (grouped.2.map Prod.snd)
  refine ⟨classRows_triangular (hmembers.nodup_iff.mpr hnodup), fun row hrow => ⟨?_, ?_⟩, ?_⟩
  · exact hmembers.subset (hparts.subset (List.mem_append_left _ (hanchors row hrow)))
  · intro member hmember
    refine hmembers.subset (hparts.subset (List.mem_append_right _ ?_))
    rw [← hrowMembers]
    exact List.mem_filterMap.mpr ⟨row, hrow, hmember⟩
  · refine classRows_support hfixed hgroupedParents fun group hgroup anchor members hsplit hne => ?_
    obtain ⟨pair, hpair, rfl⟩ := List.mem_map.mp hgroup
    exact hgrouped.inside_of_two hnodup hpair hsplit hne

/-- The entries of a row sum to its coefficients. -/
theorem totalAt_entries {coordinates : List String} (hnodup : coordinates.Nodup) {row : SolveRow}
    (hanchor : row.anchor ∈ coordinates)
    (hmember : ∀ member, row.member = some member → member ∈ coordinates) (index : Nat) {j : Nat}
    (hj : j < coordinates.length) :
    totalAt (row.entries (K := K) coordinates index) index j = row.coefficient coordinates[j] := by
  have hplace {coordinateId : String} (hmem : coordinateId ∈ coordinates) :
      coordinates.idxOf coordinateId = j ↔ coordinateId = coordinates[j] := by
    constructor
    · rintro rfl
      exact (List.getElem_idxOf _).symm
    · rintro rfl
      exact hnodup.idxOf_getElem j hj
  cases row with
  | equality anchor member =>
      have hanchor : anchor ∈ coordinates := hanchor
      have hmember := hmember member rfl
      simp only [SolveRow.entries, SolveRow.coefficient, SolveRow.anchor, SolveRow.member,
        totalAt_cons, totalAt_nil, true_and, hplace hanchor, hplace hmember, Option.some.injEq,
        add_zero]
      congr
  | fix anchor value =>
      have hanchor : anchor ∈ coordinates := hanchor
      simp only [SolveRow.entries, SolveRow.coefficient, SolveRow.anchor, SolveRow.member,
        totalAt_cons, totalAt_nil, true_and, hplace hanchor, reduceCtorEq, if_false, add_zero]
      congr

/-- The entries of a row lie in it, within the coordinates. -/
theorem entries_within {coordinates : List String} {row : SolveRow} {index : Nat}
    (hanchor : row.anchor ∈ coordinates)
    (hmember : ∀ member, row.member = some member → member ∈ coordinates) {entry : Nat × Nat × K}
    (h : entry ∈ row.entries coordinates index) :
    entry.1 = index ∧ entry.2.1 < coordinates.length := by
  cases row with
  | equality anchor member =>
      rcases List.mem_cons.mp h with rfl | hsecond
      · exact ⟨rfl, List.idxOf_lt_length_iff.mpr hanchor⟩
      · obtain rfl := List.mem_singleton.mp hsecond
        exact ⟨rfl, List.idxOf_lt_length_iff.mpr (hmember member rfl)⟩
  | fix anchor value =>
      obtain rfl := List.mem_singleton.mp h
      exact ⟨rfl, List.idxOf_lt_length_iff.mpr hanchor⟩

/-- The matrix of the compiled rows holds their coefficients. -/
theorem totalAt_solveEntries {coordinates : List String} (hnodup : coordinates.Nodup)
    {rows : List SolveRow} (hknown : ∀ row ∈ rows, row.anchor ∈ coordinates ∧
      ∀ member, row.member = some member → member ∈ coordinates) {i j : Nat} (hi : i < rows.length)
    (hj : j < coordinates.length) :
    totalAt (solveEntries (K := K) coordinates rows) i j = rows[i].coefficient coordinates[j] := by
  have hrow (row : SolveRow) (index : Nat) (entry : Nat × Nat × K)
      (hentry : entry ∈ row.entries coordinates index) : entry.1 = index := by
    cases row with
    | equality anchor member =>
        rcases List.mem_cons.mp hentry with rfl | hsecond
        · rfl
        · rw [List.mem_singleton.mp hsecond]
    | fix anchor value => rw [List.mem_singleton.mp hentry]
  have hentries := totalAt_zipIdx (fun (row : SolveRow) index => row.entries (K := K) coordinates index)
    hrow rows i j
  rw [List.getElem?_eq_getElem hi, Option.elim_some] at hentries
  have hat := hknown _ (List.getElem_mem hi)
  exact hentries.trans (totalAt_entries hnodup hat.1 hat.2 i hj)

/-- The entries of compiled rows lie within the matrix. -/
theorem solveEntries_within {coordinates : List String} {rows : List SolveRow}
    (h : RowsCompiled support coordinates rows) :
    ∀ entry ∈ solveEntries (K := K) coordinates rows,
      entry.1 < rows.length ∧ entry.2.1 < coordinates.length := by
  intro entry hentry
  obtain ⟨⟨row, index⟩, hrow, hentry⟩ := List.mem_flatMap.mp hentry
  obtain ⟨_, hindex, hat⟩ := List.mem_zipIdx hrow
  have hknown := h.known row (hat ▸ List.getElem_mem _)
  obtain ⟨hat, hcolumn⟩ := entries_within hknown.1 hknown.2 hentry
  rw [hat]
  exact ⟨by simpa using hindex, hcolumn⟩

/-- The rows of a compiled system over some coordinates. -/
structure CompiledConstraints.Sound (constraints : CompiledConstraints K)
    (coordinates : List String) : Prop where
  coordinateIds : constraints.coordinateIds = coordinates
  named : "" ∉ coordinates
  distinct : coordinates.Nodup
  independent : RowsIndependent
    (constraints.matrix.toMatrix constraints.matrix.rowCount coordinates.length)
  supported : ∀ i j, (hj : j < coordinates.length) → constraints.matrix.entry i j ≠ 0 →
    coordinates[j] ∈ constraints.supportCoordinateIds

variable [LinearOrder K] [CallStack]

/-- What `compile_constraints` returns is sound. -/
theorem compileConstraints_sound {coordinates : List String} {rows : List ConstraintRow}
    {constraints : CompiledConstraints K}
    (h : compileConstraints coordinates rows = .ok constraints) : constraints.Sound coordinates := by
  obtain ⟨_, hnames, h⟩ := bind_ok.mp h
  obtain ⟨hnamed, hnodup⟩ := require_ok.mp hnames
  obtain ⟨parsed, hparsed, h⟩ := bind_ok.mp h
  obtain ⟨solved, hsolved, h⟩ := bind_ok.mp h
  obtain ⟨matrix, hmatrix, h⟩ := bind_ok.mp h
  obtain ⟨certificateMatrix, hcertificate, h⟩ := bind_ok.mp h
  unfold compiledConstraints at h
  split_ifs at h with hvalid
  obtain rfl := Except.ok.inj h
  have hcompiled := systemRows_spec hnodup (parseRows_within hparsed) (systemRows_of_ok hsolved)
  have hwithin := solveEntries_within (K := K) hcompiled
  obtain ⟨matrix', hmatrix', hrowCount, _, hentries⟩ := fromEntries_returns hwithin
  obtain rfl : matrix' = matrix := Except.ok.inj (hmatrix'.symm.trans (orValueError_ok.mp hmatrix))
  refine ⟨rfl, hnamed, hnodup, ?_, fun i j hj hne => ?_⟩
  · rw [hrowCount]
    have hvalues : matrix'.toMatrix solved.length coordinates.length =
        coefficientMatrix (K := K) coordinates solved := by
      ext i j
      exact (hentries i j).trans
        (totalAt_solveEntries hnodup hcompiled.known i.isLt j.isLt)
    rw [hvalues]
    exact hcompiled.triangular.independent hcompiled.known
  · have hi : i < solved.length := by
      by_contra hout
      refine hne ((hentries i j).trans (totalAt_eq_zero fun entry hentry hat => hout ?_))
      rw [← hat.1]
      exact (hwithin entry hentry).1
    have hcoefficient : solved[i].coefficient (K := K) coordinates[j] ≠ 0 := by
      rw [← totalAt_solveEntries hnodup hcompiled.known hi hj, ← hentries]
      exact hne
    obtain ⟨hanchor, hmember⟩ := hcompiled.supported _ (List.getElem_mem hi)
    have hsupport : ∃ row ∈ rows, coordinates[j] ∈ row.support.2 := by
      by_cases hat : solved[i].anchor = coordinates[j]
      · exact hat ▸ hanchor
      · by_cases hother : solved[i].member = some coordinates[j]
        · exact hmember _ hother
        · refine absurd ?_ hcoefficient
          unfold SolveRow.coefficient
          rw [if_neg hat, if_neg hother, add_zero]
    obtain ⟨row, hrow, hin⟩ := hsupport
    refine List.mem_filter.mpr ⟨List.getElem_mem hj, ?_⟩
    exact List.any_eq_true.mpr ⟨row.support, List.mem_map.mpr ⟨row, hrow, rfl⟩,
      decide_eq_true hin⟩

end AstrContinuum
