import AstrContinuum.ContextGraph.CallDepth

/-!
# The rows of compiled constraints

Whatever roots the disjoint set returns, every coordinate is in one group, so a row that equates a member
to its anchor is the only one with that member, and a group is fixed at most once. That makes the rows
independent. Coordinates outside the support stay alone in their groups, so no row touches them.
-/

namespace AstrContinuum

open Checked

/-! ## The support -/

/-- The coordinates of `support` have their parents in it, and the others are their own parents. -/
def Parents.Within (support : String → Prop) (parents : Parents) : Prop :=
  ∀ value, (support value → support (parents value)) ∧ (¬ support value → parents value = value)

variable {support : String → Prop} {fuel : Nat}

/-- A root is in the support with its coordinate, and another coordinate is its own root. -/
theorem Parents.Within.chase {parents : Parents} (h : parents.Within support) (fuel : Nat)
    (value : String) :
    (parents.chase fuel value).2.Within support ∧
      (support value → support (parents.chase fuel value).1) ∧
      (¬ support value → (parents.chase fuel value).1 = value) := by
  induction fuel generalizing parents value with
  | zero => exact ⟨h, id, fun _ => rfl⟩
  | succ fuel ih =>
      unfold Parents.chase
      by_cases hroot : parents value = value
      · rw [if_pos hroot]
        exact ⟨h, id, fun _ => rfl⟩
      · rw [if_neg hroot]
        dsimp only
        obtain ⟨hkept, hin, _⟩ := ih h (parents value)
        have hvalue : support value := by
          by_contra hout
          exact hroot ((h value).2 hout)
        have hfound := hin ((h value).1 hvalue)
        refine ⟨fun other => ?_, fun _ => hfound, fun hout => absurd hvalue hout⟩
        by_cases hsame : other = value
        · subst hsame
          rw [Function.update_self]
          exact ⟨fun _ => hfound, fun hout => absurd hvalue hout⟩
        · rw [Function.update_of_ne hsame]
          exact hkept other

/-- An equation within the support keeps the parents within it. -/
theorem Parents.Within.join {parents : Parents} (h : parents.Within support) {left right : String}
    (hleft : support left) (hright : support right) :
    (parents.join fuel left right).Within support := by
  obtain ⟨hleftKept, hleftIn, _⟩ := h.chase fuel left
  obtain ⟨hkept, hrightIn, _⟩ := hleftKept.chase fuel right
  unfold Parents.join
  dsimp only
  by_cases hne : (parents.chase fuel left).1 ≠ ((parents.chase fuel left).2.chase fuel right).1
  · rw [if_pos hne]
    intro value
    by_cases hsame : value = ((parents.chase fuel left).2.chase fuel right).1
    · subst hsame
      rw [Function.update_self]
      exact ⟨fun _ => hleftIn hleft, fun hout => absurd (hrightIn hright) hout⟩
    · rw [Function.update_of_ne hsame]
      exact hkept value
  · rw [if_neg hne]
    exact hkept

/-- The coordinates of a classified row are in the support. -/
def ClassifiedConstraint.Within (support : String → Prop) : ClassifiedConstraint → Prop
  | .fix coordinateId _ => support coordinateId
  | .equality left right => support left ∧ support right

/-- All equations keep the parents within the support. -/
theorem joinAll_within {parsed : List ClassifiedConstraint} :
    ∀ {parents : Parents}, parents.Within support → (∀ item ∈ parsed, item.Within support) →
      (joinAll fuel parents parsed).Within support := by
  induction parsed with
  | nil => exact fun h _ => h
  | cons item parsed ih =>
      intro parents h hparsed
      have hrest : ∀ other ∈ parsed, other.Within support :=
        fun other hother => hparsed other (List.mem_cons_of_mem _ hother)
      have hitem := hparsed item List.mem_cons_self
      cases item with
      | fix coordinateId value => exact ih h hrest
      | equality left right => exact ih (h.join hitem.1 hitem.2) hrest

/-- Fixed roots are in the support. -/
theorem fixClasses_within {parsed : List ClassifiedConstraint} :
    ∀ {parents : Parents} {fixed : FixedByRoot} {result : Parents × FixedByRoot},
      parents.Within support → (∀ pair ∈ fixed, support pair.1) →
      (∀ item ∈ parsed, item.Within support) → fixClasses fuel parents fixed parsed = .ok result →
      result.1.Within support ∧ ∀ pair ∈ result.2, support pair.1 := by
  induction parsed with
  | nil =>
      intro parents fixed result h hfixed _ hresult
      obtain rfl := Except.ok.inj hresult
      exact ⟨h, hfixed⟩
  | cons item parsed ih =>
      intro parents fixed result h hfixed hparsed hresult
      have hrest : ∀ other ∈ parsed, other.Within support :=
        fun other hother => hparsed other (List.mem_cons_of_mem _ hother)
      have hitem := hparsed item List.mem_cons_self
      cases item with
      | equality left right => exact ih h hfixed hrest hresult
      | fix coordinateId value =>
          obtain ⟨hkept, hin, _⟩ := h.chase fuel coordinateId
          unfold fixClasses at hresult
          dsimp only at hresult
          cases hlookup : fixed.lookup (parents.chase fuel coordinateId).1 with
          | some existing =>
              rw [hlookup] at hresult
              dsimp only at hresult
              by_cases hne : existing ≠ value
              · rw [if_pos hne] at hresult
                cases hresult
              · rw [if_neg hne] at hresult
                exact ih hkept hfixed hrest hresult
          | none =>
              rw [hlookup] at hresult
              refine ih hkept (fun pair hpair => ?_) hrest hresult
              rcases List.mem_append.mp hpair with hold | hnew
              · exact hfixed pair hold
              · rw [List.mem_singleton.mp hnew]
                exact hin hitem

/-! ## Groups -/

/-- The groups hold some coordinates, each once; a group with a coordinate outside the support holds
nothing else. -/
structure GroupedRows (support : String → Prop) (done : List String)
    (groups : List (String × List String)) : Prop where
  members : (groups.flatMap Prod.snd).Perm done
  inside : ∀ group ∈ groups, ∀ member ∈ group.2, support member → support group.1
  outside : ∀ group ∈ groups, ∀ member ∈ group.2, ¬ support member → group.1 = member

/-- Another member is one more member of some group. -/
theorem addMember_members (root member : String) (groups : List (String × List String)) :
    ((addMember root member groups).flatMap Prod.snd).Perm (groups.flatMap Prod.snd ++ [member]) := by
  induction groups with
  | nil => exact List.Perm.refl _
  | cons group groups ih =>
      unfold addMember
      by_cases hroot : group.1 = root
      · rw [if_pos hroot, List.flatMap_cons, List.flatMap_cons, List.append_assoc, List.append_assoc]
        exact List.Perm.append_left _ List.perm_append_comm
      · rw [if_neg hroot, List.flatMap_cons, List.flatMap_cons, List.append_assoc]
        exact List.Perm.append_left _ ih

/-- A member of a group is an old one, or the new one under its root. -/
theorem mem_addMember {root member : String} {groups : List (String × List String)}
    {group : String × List String} (h : group ∈ addMember root member groups) {other : String}
    (hother : other ∈ group.2) :
    (∃ old ∈ groups, old.1 = group.1 ∧ other ∈ old.2) ∨ (other = member ∧ group.1 = root) := by
  induction groups with
  | nil =>
      obtain rfl := List.mem_singleton.mp h
      exact .inr ⟨List.mem_singleton.mp hother, rfl⟩
  | cons first groups ih =>
      unfold addMember at h
      by_cases hroot : first.1 = root
      · rw [if_pos hroot] at h
        rcases List.mem_cons.mp h with rfl | hrest
        · rcases List.mem_append.mp hother with hold | hnew
          · exact .inl ⟨first, List.mem_cons_self, rfl, hold⟩
          · exact .inr ⟨List.mem_singleton.mp hnew, hroot⟩
        · exact .inl ⟨group, List.mem_cons_of_mem _ hrest, rfl, hother⟩
      · rw [if_neg hroot] at h
        rcases List.mem_cons.mp h with rfl | hrest
        · exact .inl ⟨group, List.mem_cons_self, rfl, hother⟩
        · rcases ih hrest with ⟨old, hold, hsame⟩ | hnew
          · exact .inl ⟨old, List.mem_cons_of_mem _ hold, hsame⟩
          · exact .inr hnew

/-- The loop over the coordinates groups them. -/
theorem groupClasses_grouped (fuel : Nat) (coordinates : List String) :
    ∀ {parents : Parents} {groups : List (String × List String)} {done : List String},
      parents.Within support → GroupedRows support done groups →
      (groupClasses fuel parents groups coordinates).1.Within support ∧
        GroupedRows support (done ++ coordinates)
          (groupClasses fuel parents groups coordinates).2 := by
  induction coordinates with
  | nil =>
      intro parents groups done h hgroups
      rw [List.append_nil]
      exact ⟨h, hgroups⟩
  | cons coordinateId coordinates ih =>
      intro parents groups done h hgroups
      obtain ⟨hkept, hin, hout⟩ := h.chase fuel coordinateId
      rw [List.append_cons]
      refine ih hkept ⟨?_, ?_, ?_⟩
      · exact (addMember_members _ _ _).trans (hgroups.members.append_right _)
      · intro group hgroup member hmember hsupport
        rcases mem_addMember hgroup hmember with ⟨old, hold, hroot, hmem⟩ | ⟨rfl, hroot⟩
        · rw [← hroot]
          exact hgroups.inside old hold member hmem hsupport
        · rw [hroot]
          exact hin hsupport
      · intro group hgroup member hmember hsupport
        rcases mem_addMember hgroup hmember with ⟨old, hold, hroot, hmem⟩ | ⟨rfl, hroot⟩
        · rw [← hroot]
          exact hgroups.outside old hold member hmem hsupport
        · rw [hroot]
          exact hout hsupport

/-! ## Rows -/

namespace SolveRow

/-- The anchor of a row. -/
def anchor : SolveRow → String
  | .equality anchor _ => anchor
  | .fix anchor _ => anchor

/-- The member that a row equates to its anchor. -/
def member : SolveRow → Option String
  | .equality _ member => some member
  | .fix _ _ => none

/-- The coordinate that a row fixes. -/
def fixed : SolveRow → Option String
  | .equality _ _ => none
  | .fix anchor _ => some anchor

/-- The value of a row at a coordinate. -/
def coefficient {K : Type} [Field K] (row : SolveRow) (coordinateId : String) : K :=
  (if row.anchor = coordinateId then 1 else 0) + if row.member = some coordinateId then -1 else 0

end SolveRow

/-- What the rows of disjoint groups satisfy: no member twice, no group fixed twice, and no member that is
an anchor. -/
structure Triangular (rows : List SolveRow) : Prop where
  members : (rows.filterMap SolveRow.member).Nodup
  fixes : (rows.filterMap SolveRow.fixed).Nodup
  apart : ∀ row ∈ rows, ∀ member ∈ rows.filterMap SolveRow.member, row.anchor ≠ member

/-- The members of the rows, their anchors and what they fix, in terms of the groups. -/
theorem classRows_parts (fuel : Nat) (fixed : FixedByRoot) (groups : List (List String))
    (parents : Parents) :
    (classRows fuel fixed parents groups).filterMap SolveRow.member = groups.flatMap List.tail ∧
      ((classRows fuel fixed parents groups).filterMap SolveRow.fixed).Sublist
        (groups.filterMap List.head?) ∧
      ∀ row ∈ classRows fuel fixed parents groups, row.anchor ∈ groups.filterMap List.head? := by
  induction groups generalizing parents with
  | nil => simp [classRows]
  | cons group groups ih =>
      cases group with
      | nil =>
          rw [List.filterMap_cons_none List.head?_nil]
          exact ih parents
      | cons anchor members =>
          obtain ⟨hmembers, hfixes, hanchors⟩ := ih (parents.chase fuel anchor).2
          unfold classRows
          dsimp only
          refine ⟨?_, ?_, ?_⟩
          · have hequal : (members.map (SolveRow.equality anchor)).filterMap SolveRow.member =
                members := by
              rw [List.filterMap_map]
              exact List.filterMap_some
            have hnone : ((fixed.lookup (parents.chase fuel anchor).1).map
                (SolveRow.fix anchor)).toList.filterMap SolveRow.member = [] := by
              cases fixed.lookup (parents.chase fuel anchor).1 <;> rfl
            rw [List.filterMap_append, List.filterMap_append, hequal, hnone, hmembers,
              List.append_nil, List.flatMap_cons, List.tail_cons]
          · have hequal : (members.map (SolveRow.equality anchor)).filterMap SolveRow.fixed = [] := by
              rw [List.filterMap_map]
              exact List.filterMap_eq_nil_iff.mpr fun _ _ => rfl
            have hfix : (((fixed.lookup (parents.chase fuel anchor).1).map
                (SolveRow.fix anchor)).toList.filterMap SolveRow.fixed).Sublist [anchor] := by
              cases fixed.lookup (parents.chase fuel anchor).1 with
              | none => exact List.nil_sublist _
              | some value => exact List.Sublist.refl _
            rw [List.filterMap_append, List.filterMap_append, hequal, List.nil_append,
              List.filterMap_cons_some List.head?_cons]
            exact hfix.append hfixes
          · intro row hrow
            rw [List.filterMap_cons_some List.head?_cons]
            rcases List.mem_append.mp hrow with hgroup | hlater
            · have hrow : row.anchor = anchor := by
                rcases List.mem_append.mp hgroup with hequality | hfix
                · obtain ⟨_, _, rfl⟩ := List.mem_map.mp hequality
                  rfl
                · obtain ⟨_, _, rfl⟩ := Option.map_eq_some_iff.mp (Option.mem_toList.mp hfix)
                  rfl
              rw [hrow]
              exact List.mem_cons_self
            · exact List.mem_cons_of_mem _ (hanchors row hlater)

/-- The first members and the others are all members. -/
theorem heads_append_tails (groups : List (List String)) :
    (groups.filterMap List.head? ++ groups.flatMap List.tail).Perm groups.flatten := by
  induction groups with
  | nil => exact List.Perm.refl _
  | cons group groups ih =>
      cases group with
      | nil => exact ih
      | cons anchor members =>
          rw [List.filterMap_cons_some List.head?_cons, List.flatMap_cons, List.tail_cons,
            List.flatten_cons, List.cons_append, List.cons_append]
          refine List.Perm.cons anchor ?_
          refine List.Perm.trans ?_ (List.Perm.append_left members ih)
          rw [← List.append_assoc, ← List.append_assoc]
          exact List.Perm.append_right _ List.perm_append_comm

/-- The rows of groups without common members. -/
theorem classRows_triangular {fixed : FixedByRoot} {groups : List (List String)} {parents : Parents}
    (h : groups.flatten.Nodup) : Triangular (classRows fuel fixed parents groups) := by
  obtain ⟨hmembers, hfixes, hanchors⟩ := classRows_parts fuel fixed groups parents
  have hnodup := (heads_append_tails groups).nodup_iff.mpr h
  constructor
  · rw [hmembers]
    exact hnodup.of_append_right
  · exact hnodup.of_append_left.sublist hfixes
  · intro row hrow member hmember heq
    rw [hmembers] at hmember
    exact List.disjoint_of_nodup_append hnodup (hanchors row hrow) (heq ▸ hmember)

end AstrContinuum
