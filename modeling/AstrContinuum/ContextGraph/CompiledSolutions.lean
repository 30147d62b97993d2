import AstrContinuum.ContextGraph.Roots

/-!
# The solutions of compiled rows

Every group of coordinates has one root, so the compiled rows have the solutions of the classified ones,
and two values fixed for one root are the only contradiction.
-/

namespace AstrContinuum

open Checked Parents

variable {K : Type} [Field K]

/-- An assignment satisfies a classified row. -/
def ClassifiedConstraint.Holds (x : String → K) : ClassifiedConstraint → Prop
  | .fix coordinateId value => x coordinateId = value
  | .equality left right => x left = x right

/-- An assignment satisfies a compiled row. -/
def SolveRow.Holds (x : String → K) : SolveRow → Prop
  | .equality anchor member => x anchor = x member
  | .fix anchor value => x anchor = value

variable {rootOf : String → String} {bound fuel : Nat}

/-! ## Equations -/

/-- What the unions of some equations leave: the two sides have one root, and an assignment that
satisfies the equations gives a root the value of its coordinates. -/
structure Joined (parsed : List ClassifiedConstraint) (rootOf : String → String) : Prop where
  equal : ∀ left right, .equality left right ∈ parsed → rootOf left = rootOf right
  constant : ∀ {K : Type} [Field K] (x : String → K), (∀ item ∈ parsed, item.Holds x) →
    ∀ value, x (rootOf value) = x value

variable {done : List ClassifiedConstraint}

/-- A row that fixes a coordinate joins nothing. -/
theorem Joined.skip (h : Joined done rootOf) (coordinateId : String) (value : Rat) :
    Joined (done ++ [.fix coordinateId value]) rootOf := by
  refine ⟨fun left right hmem => ?_, fun x hx => ?_⟩
  · rcases List.mem_append.mp hmem with hold | hnew
    · exact h.equal left right hold
    · cases List.mem_singleton.mp hnew
  · exact h.constant x fun item hitem => hx item (List.mem_append_left _ hitem)

/-- A union gives the class of the right side the root of the left one. -/
theorem Joined.join (h : Joined done rootOf) (left right : String) :
    Joined (done ++ [.equality left right]) fun value =>
      if rootOf value = rootOf right then rootOf left else rootOf value := by
  refine ⟨fun first second hmem => ?_, fun x hx value => ?_⟩
  · rcases List.mem_append.mp hmem with hold | hnew
    · rw [h.equal first second hold]
    · obtain ⟨rfl, rfl⟩ := ClassifiedConstraint.equality.inj (List.mem_singleton.mp hnew)
      rw [if_pos rfl]
      split <;> rfl
  · have hold := h.constant x fun item hitem => hx item (List.mem_append_left _ hitem)
    have hsides : x left = x right :=
      hx (.equality left right) (List.mem_append_right _ List.mem_cons_self)
    split
    · next heq => rw [hold left, hsides, ← hold right, ← heq, hold value]
    · exact hold value

/-- The loop over the equations joins their sides. -/
theorem joinAll_rooted {parsed : List ClassifiedConstraint} :
    ∀ {rootOf : String → String} {bound : Nat} {parents : Parents} {done : List ClassifiedConstraint},
      Rooted rootOf bound parents → Joined done rootOf → bound + parsed.length < fuel →
      ∃ rootOf', Rooted rootOf' (bound + parsed.length) (joinAll fuel parents parsed) ∧
        Joined (done ++ parsed) rootOf' := by
  induction parsed with
  | nil =>
      intro rootOf bound parents done h hdone _
      rw [List.append_nil]
      exact ⟨rootOf, h, hdone⟩
  | cons item parsed ih =>
      intro rootOf bound parents done h hdone hfuel
      rw [List.length_cons] at hfuel ⊢
      rw [List.append_cons]
      cases item with
      | fix coordinateId value =>
          obtain ⟨rootOf', hrooted, hjoined⟩ := ih h (hdone.skip coordinateId value) (by omega)
          refine ⟨rootOf', ⟨?_, hrooted.reaches⟩, hjoined⟩
          -- the chains are no longer than without this row
          obtain ⟨rank, hrank, hranks⟩ := hrooted.ranked
          exact ⟨rank, fun other => (hrank other).trans (by omega), hranks⟩
      | equality left right =>
          have hunion := h.join (by omega : bound < fuel) left right
          obtain ⟨rootOf', hrooted, hjoined⟩ := ih hunion (hdone.join left right) (by omega)
          refine ⟨rootOf', ?_, hjoined⟩
          rwa [Nat.add_assoc, Nat.add_comm 1] at hrooted

/-! ## Fixed roots -/

/-- What the loop over the fixed coordinates has recorded. -/
structure Fixed (rootOf : String → String) (done : List ClassifiedConstraint) (fixed : FixedByRoot) :
    Prop where
  recorded : ∀ coordinateId value, .fix coordinateId value ∈ done →
    fixed.lookup (rootOf coordinateId) = some value
  origin : ∀ root value, fixed.lookup root = some value →
    ∃ coordinateId, .fix coordinateId value ∈ done ∧ rootOf coordinateId = root

/-- A contradiction: one root is fixed to two values. -/
def Contradictory (rootOf : String → String) (parsed : List ClassifiedConstraint) : Prop :=
  ∃ left right value other, .fix left value ∈ parsed ∧ .fix right other ∈ parsed ∧
    rootOf left = rootOf right ∧ value ≠ other

section Record

variable {fixed : FixedByRoot} {coordinateId : String} {value : Rat}

/-- An equation fixes nothing. -/
theorem Fixed.skip (h : Fixed rootOf done fixed) (left right : String) :
    Fixed rootOf (done ++ [.equality left right]) fixed := by
  refine ⟨fun coordinateId value hmem => ?_, fun root value hfound => ?_⟩
  · rcases List.mem_append.mp hmem with hold | hnew
    · exact h.recorded coordinateId value hold
    · cases List.mem_singleton.mp hnew
  · obtain ⟨coordinateId, hmem, hroot⟩ := h.origin root value hfound
    exact ⟨coordinateId, List.mem_append_left _ hmem, hroot⟩

/-- A root may be fixed again to the value that it has. -/
theorem Fixed.again (h : Fixed rootOf done fixed)
    (hlookup : fixed.lookup (rootOf coordinateId) = some value) :
    Fixed rootOf (done ++ [.fix coordinateId value]) fixed := by
  refine ⟨fun other value' hmem => ?_, fun root value' hat => ?_⟩
  · rcases List.mem_append.mp hmem with hold | hnew
    · exact h.recorded other value' hold
    · obtain ⟨rfl, rfl⟩ := ClassifiedConstraint.fix.inj (List.mem_singleton.mp hnew)
      exact hlookup
  · obtain ⟨other, hmem, hother⟩ := h.origin root value' hat
    exact ⟨other, List.mem_append_left _ hmem, hother⟩

/-- Another root is found once it is recorded, and all others as before. -/
theorem lookup_record (fixed : FixedByRoot) (added : String) (value : Rat) (root : String) :
    (fixed ++ [(added, value)]).lookup root =
      (fixed.lookup root).or (if root = added then some value else none) := by
  rw [List.lookup_append, List.lookup_cons, List.lookup_nil]
  by_cases hroot : root = added
  · rw [if_pos hroot, hroot, beq_self_eq_true]
  · rw [if_neg hroot, beq_false_of_ne hroot]

/-- A root that is not fixed yet is recorded. -/
theorem Fixed.record (h : Fixed rootOf done fixed)
    (hlookup : fixed.lookup (rootOf coordinateId) = none) :
    Fixed rootOf (done ++ [.fix coordinateId value]) (fixed ++ [(rootOf coordinateId, value)]) := by
  refine ⟨fun other value' hmem => ?_, fun root value' hat => ?_⟩
  · rw [lookup_record]
    rcases List.mem_append.mp hmem with hold | hnew
    · rw [h.recorded other value' hold, Option.some_or]
    · obtain ⟨rfl, rfl⟩ := ClassifiedConstraint.fix.inj (List.mem_singleton.mp hnew)
      rw [hlookup, if_pos rfl, Option.none_or]
  · rw [lookup_record] at hat
    cases hold : fixed.lookup root with
    | some existing =>
        rw [hold, Option.some_or] at hat
        obtain rfl := Option.some.inj hat
        obtain ⟨other, hmem, hother⟩ := h.origin root existing hold
        exact ⟨other, List.mem_append_left _ hmem, hother⟩
    | none =>
        rw [hold, Option.none_or] at hat
        obtain ⟨hroot, hvalue⟩ := Option.ite_none_right_eq_some.mp hat
        obtain rfl := Option.some.inj hvalue
        exact ⟨coordinateId, List.mem_append_right _ List.mem_cons_self, hroot.symm⟩

end Record

/-- The loop records what is fixed, or meets a contradiction. -/
theorem fixClasses_rooted (hfuel : bound < fuel) {parsed : List ClassifiedConstraint} :
    ∀ {parents : Parents} {fixed : FixedByRoot} {done : List ClassifiedConstraint},
      Rooted rootOf bound parents → Fixed rootOf done fixed →
      (∃ parents' fixed', fixClasses fuel parents fixed parsed = .ok (parents', fixed') ∧
        Rooted rootOf bound parents' ∧ Fixed rootOf (done ++ parsed) fixed') ∨
      (fixClasses fuel parents fixed parsed = .error (.constraint .contradictory) ∧
        Contradictory rootOf (done ++ parsed)) := by
  induction parsed with
  | nil =>
      intro parents fixed done h hdone
      rw [List.append_nil]
      exact .inl ⟨parents, fixed, rfl, h, hdone⟩
  | cons item parsed ih =>
      intro parents fixed done h hdone
      rw [List.append_cons]
      cases item with
      | equality left right => exact ih h (hdone.skip left right)
      | fix coordinateId value =>
          obtain ⟨hfound, hkept⟩ := h.chase hfuel coordinateId
          unfold fixClasses
          dsimp only
          rw [hfound]
          cases hlookup : fixed.lookup (rootOf coordinateId) with
          | some existing =>
              dsimp only
              obtain ⟨source, hsource, hroot⟩ := hdone.origin _ _ hlookup
              by_cases hne : existing ≠ value
              · rw [if_pos hne]
                refine .inr ⟨rfl, source, coordinateId, existing, value, ?_, ?_, hroot, hne⟩
                · exact List.mem_append_left _ (List.mem_append_left _ hsource)
                · exact List.mem_append_left _ (List.mem_append_right _ List.mem_cons_self)
              · rw [if_neg hne]
                rw [not_ne_iff] at hne
                subst hne
                exact ih hkept (hdone.again hlookup)
          | none =>
              dsimp only
              exact ih hkept (hdone.record hlookup)

/-! ## Groups -/

/-- The groups of some coordinates by their roots. -/
structure Keyed (rootOf : String → String) (done : List String)
    (groups : List (String × List String)) : Prop where
  keys : (groups.map Prod.fst).Nodup
  roots : ∀ group ∈ groups, ∀ member ∈ group.2, rootOf member = group.1
  covers : ∀ member ∈ done, ∃ group ∈ groups, member ∈ group.2

/-- The keys after another member. -/
theorem addMember_keys (root member : String) (groups : List (String × List String)) :
    (addMember root member groups).map Prod.fst =
      if root ∈ groups.map Prod.fst then groups.map Prod.fst
      else groups.map Prod.fst ++ [root] := by
  induction groups with
  | nil => rfl
  | cons group groups ih =>
      unfold addMember
      by_cases hroot : group.1 = root
      · rw [if_pos hroot, List.map_cons, List.map_cons, if_pos (hroot ▸ List.mem_cons_self)]
      · have hne : root ≠ group.1 := fun heq => hroot heq.symm
        rw [if_neg hroot, List.map_cons, ih, List.map_cons]
        by_cases hmem : root ∈ groups.map Prod.fst
        · rw [if_pos hmem, if_pos (List.mem_cons_of_mem _ hmem)]
        · rw [if_neg hmem, if_neg (List.not_mem_cons_of_ne_of_not_mem hne hmem), List.cons_append]

/-- A member is added to the group of its root. -/
theorem Keyed.add {done : List String} {groups : List (String × List String)}
    (h : Keyed rootOf done groups) (member : String) :
    Keyed rootOf (done ++ [member]) (addMember (rootOf member) member groups) := by
  refine ⟨?_, fun group hgroup other hother => ?_, fun other hother => ?_⟩
  · rw [addMember_keys]
    by_cases hmem : rootOf member ∈ groups.map Prod.fst
    · rw [if_pos hmem]
      exact h.keys
    · rw [if_neg hmem]
      exact List.Nodup.append h.keys (List.nodup_singleton _) (List.disjoint_singleton.mpr hmem)
  · rcases mem_addMember hgroup hother with ⟨old, hold, hroot, hmem⟩ | ⟨rfl, hroot⟩
    · rw [← hroot]
      exact h.roots old hold other hmem
    · exact hroot.symm
  · have hmembers := (addMember_members (rootOf member) member groups).symm.subset
    have hin : other ∈ groups.flatMap Prod.snd ++ [member] := by
      rcases List.mem_append.mp hother with hold | hnew
      · obtain ⟨group, hgroup, hmem⟩ := h.covers other hold
        exact List.mem_append_left _ (List.mem_flatMap.mpr ⟨group, hgroup, hmem⟩)
      · exact List.mem_append_right _ hnew
    exact List.mem_flatMap.mp (hmembers hin)

/-- The loop over the coordinates groups them by their roots. -/
theorem groupClasses_rooted (hfuel : bound < fuel) (coordinates : List String) :
    ∀ {parents : Parents} {groups : List (String × List String)} {done : List String},
      Rooted rootOf bound parents → Keyed rootOf done groups →
      Rooted rootOf bound (groupClasses fuel parents groups coordinates).1 ∧
        Keyed rootOf (done ++ coordinates)
          (groupClasses fuel parents groups coordinates).2 := by
  induction coordinates with
  | nil =>
      intro parents groups done h hdone
      rw [List.append_nil]
      exact ⟨h, hdone⟩
  | cons coordinateId coordinates ih =>
      intro parents groups done h hdone
      obtain ⟨hfound, hkept⟩ := h.chase hfuel coordinateId
      unfold groupClasses
      dsimp only
      rw [hfound, List.append_cons]
      exact ih hkept (hdone.add coordinateId)

/-- The rows of a group. -/
def groupRows (fixed : FixedByRoot) (rootOf : String → String) : List String → List SolveRow
  | [] => []
  | anchor :: members =>
      members.map (.equality anchor) ++ ((fixed.lookup (rootOf anchor)).map (.fix anchor)).toList

/-- The loop over the groups appends their rows. -/
theorem classRows_rooted (hfuel : bound < fuel) (fixed : FixedByRoot) {groups : List (List String)} :
    ∀ {parents : Parents}, Rooted rootOf bound parents →
      classRows fuel fixed parents groups = groups.flatMap (groupRows fixed rootOf) := by
  induction groups with
  | nil => exact fun _ => rfl
  | cons group groups ih =>
      intro parents h
      cases group with
      | nil => exact ih h
      | cons anchor members =>
          obtain ⟨hfound, hkept⟩ := h.chase hfuel anchor
          unfold classRows
          dsimp only
          rw [hfound, ih hkept, List.flatMap_cons]
          rfl

/-! ## Solutions -/

/-- The compiled rows have the solutions of the classified ones. -/
theorem groupRows_solutions {parsed : List ClassifiedConstraint} {coordinates : List String}
    {fixed : FixedByRoot} {groups : List (String × List String)} (hjoined : Joined parsed rootOf)
    (hfixed : Fixed rootOf parsed fixed) (hgroups : Keyed rootOf coordinates groups)
    (hknown : ∀ item ∈ parsed, item.Within (· ∈ coordinates)) (x : String → K) :
    (∀ row ∈ (groups.map Prod.snd).flatMap (groupRows fixed rootOf), row.Holds x) ↔
      ∀ item ∈ parsed, item.Holds x := by
  constructor
  · intro hrows
    -- in a group every member has the value of the anchor, and the anchor what its root is fixed to
    have hgroup {group : String × List String} (hmem : group ∈ groups) {anchor : String}
        {members : List String} (hsplit : group.2 = anchor :: members) :
        (∀ member ∈ group.2, x anchor = x member) ∧
          ∀ value, fixed.lookup group.1 = some value → x anchor = value := by
      have hrow (row : SolveRow) (hrow : row ∈ groupRows fixed rootOf group.2) : row.Holds x :=
        hrows row (List.mem_flatMap.mpr ⟨group.2, List.mem_map.mpr ⟨group, hmem, rfl⟩, hrow⟩)
      have hroot := hgroups.roots group hmem anchor (hsplit ▸ List.mem_cons_self)
      rw [hsplit] at hrow ⊢
      refine ⟨fun member hmember => ?_, fun value hvalue => ?_⟩
      · rcases List.mem_cons.mp hmember with rfl | hmember
        · rfl
        · exact hrow (.equality anchor member)
            (List.mem_append_left _ (List.mem_map.mpr ⟨member, hmember, rfl⟩))
      · refine hrow (.fix anchor value) (List.mem_append_right _ ?_)
        rw [hroot, hvalue]
        exact List.mem_singleton.mpr rfl
    have hcovered {coordinateId : String} (hmem : coordinateId ∈ coordinates) :
        ∃ group ∈ groups, coordinateId ∈ group.2 ∧ rootOf coordinateId = group.1 ∧
          ∃ anchor members, group.2 = anchor :: members := by
      obtain ⟨group, hgroupMem, hin⟩ := hgroups.covers coordinateId hmem
      obtain ⟨anchor, members, hsplit⟩ := List.exists_cons_of_ne_nil (List.ne_nil_of_mem hin)
      exact ⟨group, hgroupMem, hin, hgroups.roots group hgroupMem _ hin, anchor, members, hsplit⟩
    intro item hitem
    have hwithin := hknown item hitem
    cases item with
    | equality left right =>
        obtain ⟨group, hmem, hleft, hleftRoot, anchor, members, hsplit⟩ := hcovered hwithin.1
        obtain ⟨other, hother, hright, hrightRoot, _⟩ := hcovered hwithin.2
        have hkey : group.1 = other.1 := by
          rw [← hleftRoot, ← hrightRoot]
          exact hjoined.equal left right hitem
        obtain rfl := List.inj_on_of_nodup_map hgroups.keys hmem hother hkey
        obtain ⟨hvalues, _⟩ := hgroup hmem hsplit
        exact (hvalues left hleft).symm.trans (hvalues right hright)
    | fix coordinateId value =>
        obtain ⟨group, hmem, hin, hroot, anchor, members, hsplit⟩ := hcovered hwithin
        obtain ⟨hvalues, hfixedValue⟩ := hgroup hmem hsplit
        have hlookup := hfixed.recorded coordinateId value hitem
        exact (hvalues coordinateId hin).symm.trans (hfixedValue value (hroot ▸ hlookup))
  · intro hitems row hrow
    have hconstant := hjoined.constant x hitems
    obtain ⟨members, hmembers, hrow⟩ := List.mem_flatMap.mp hrow
    obtain ⟨group, hgroup, rfl⟩ := List.mem_map.mp hmembers
    cases hsplit : group.2 with
    | nil =>
        rw [hsplit] at hrow
        exact absurd hrow List.not_mem_nil
    | cons anchor members =>
        have hanchor := hgroups.roots group hgroup anchor (hsplit ▸ List.mem_cons_self)
        rw [hsplit] at hrow
        rcases List.mem_append.mp hrow with hequality | hfix
        · obtain ⟨member, hmember, rfl⟩ := List.mem_map.mp hequality
          have hmember := hgroups.roots group hgroup member
            (hsplit ▸ List.mem_cons_of_mem _ hmember)
          show x anchor = x member
          rw [← hconstant anchor, ← hconstant member, hanchor, hmember]
        · obtain ⟨value, hvalue, rfl⟩ := Option.map_eq_some_iff.mp (Option.mem_toList.mp hfix)
          obtain ⟨coordinateId, hmem, hroot⟩ := hfixed.origin _ _ hvalue
          show x anchor = value
          rw [← hconstant anchor, ← hroot, hconstant coordinateId]
          exact hitems _ hmem

/-- Nothing is joined at the start. -/
theorem joined_nil : Joined [] id :=
  ⟨fun _ _ hmem => absurd hmem List.not_mem_nil, fun _ _ _ => rfl⟩

/-- Every coordinate is its own root at the start. -/
theorem rooted_id : Rooted id 0 id :=
  ⟨⟨fun _ => 0, fun _ => le_refl _, fun _ hne => absurd rfl hne⟩, fun _ => .root rfl⟩

/-- Compiling either returns rows with the solutions of the classified ones, of which there are some, or
meets a contradiction. -/
theorem systemRows_cases {coordinates : List String} {parsed : List ClassifiedConstraint}
    (hknown : ∀ item ∈ parsed, item.Within (· ∈ coordinates)) :
    (∃ rows, systemRows coordinates parsed = .ok rows ∧
        (∃ x : String → K, ∀ item ∈ parsed, item.Holds x) ∧
        ∀ x : String → K, (∀ row ∈ rows, row.Holds x) ↔ ∀ item ∈ parsed, item.Holds x) ∨
      (systemRows coordinates parsed = .error (.constraint .contradictory) ∧
        ∃ rootOf, Joined parsed rootOf ∧ Contradictory rootOf parsed) := by
  obtain ⟨rootOf, hrooted, hjoined⟩ := joinAll_rooted rooted_id joined_nil
    (by omega : 0 + parsed.length < parsed.length + 1)
  rw [List.nil_append] at hjoined
  have hfuel : 0 + parsed.length < parsed.length + 1 := by omega
  have hempty : Fixed rootOf [] [] :=
    ⟨fun _ _ hmem => absurd hmem List.not_mem_nil, fun _ _ hat => nomatch hat⟩
  rcases fixClasses_rooted hfuel hrooted hempty with
    ⟨parents, fixed, hfix, hparents, hfixed⟩ | ⟨hfix, hcontradictory⟩
  · rw [List.nil_append] at hfixed
    have hnone : Keyed rootOf [] [] :=
      ⟨List.nodup_nil, fun _ hmem => absurd hmem List.not_mem_nil,
        fun _ hmem => absurd hmem List.not_mem_nil⟩
    obtain ⟨hgroupParents, hgroups⟩ :=
      groupClasses_rooted hfuel coordinates hparents hnone
    rw [List.nil_append] at hgroups
    refine .inl ⟨_, bind_ok.mpr ⟨_, hfix, rfl⟩, ?_, fun x => ?_⟩
    · refine ⟨fun value => (((fixed.lookup (rootOf value)).getD 0 : ℚ) : K), fun item hitem => ?_⟩
      cases item with
      | equality left right =>
          show (((fixed.lookup (rootOf left)).getD 0 : ℚ) : K) =
            (((fixed.lookup (rootOf right)).getD 0 : ℚ) : K)
          rw [hjoined.equal left right hitem]
      | fix coordinateId value =>
          show (((fixed.lookup (rootOf coordinateId)).getD 0 : ℚ) : K) = value
          rw [hfixed.recorded coordinateId value hitem, Option.getD_some]
    · rw [classRows_rooted hfuel fixed hgroupParents]
      exact groupRows_solutions hjoined hfixed hgroups hknown x
  · rw [List.nil_append] at hcontradictory
    refine .inr ⟨?_, rootOf, hjoined, hcontradictory⟩
    unfold systemRows
    dsimp only
    rw [hfix]
    rfl

/-- A contradiction has no solution. -/
theorem Contradictory.no_solution [CharZero K] {parsed : List ClassifiedConstraint}
    (h : Contradictory rootOf parsed) (hjoined : Joined parsed rootOf) (x : String → K) :
    ¬ ∀ item ∈ parsed, item.Holds x := by
  intro hitems
  obtain ⟨left, right, value, other, hleft, hright, hroot, hne⟩ := h
  have hconstant := hjoined.constant x hitems
  have hleft : x left = value := hitems _ hleft
  have hright : x right = other := hitems _ hright
  refine hne (Rat.cast_injective (α := K) ?_)
  rw [← hleft, ← hright, ← hconstant left, ← hconstant right, hroot]

/-! ## Rows of constraints -/

/-- A constraint row that fixes a coordinate to zero or one, or equates two coordinates with either
sign. -/
def ConstraintRow.Plain (row : ConstraintRow) (coordinates : List String) : Prop :=
  (∃ coordinateId ∈ coordinates, row.terms = [(coordinateId, 1)] ∧ (row.rhs = 0 ∨ row.rhs = 1)) ∨
    ∃ left ∈ coordinates, ∃ right ∈ coordinates, row.rhs = 0 ∧
      (row.terms = [(left, 1), (right, -1)] ∨ row.terms = [(left, -1), (right, 1)])

/-- An assignment satisfies a constraint row. -/
def ConstraintRow.Satisfied (row : ConstraintRow) (x : String → K) : Prop :=
  (row.terms.map fun term => (term.2 : K) * x term.1).sum = row.rhs

/-- A plain row is classified, with its solutions and its coordinates. -/
theorem ConstraintRow.Plain.classified {row : ConstraintRow} {coordinates : List String}
    (h : row.Plain coordinates) :
    ∃ item, classifyConstraint row = .ok item ∧ item.Within (· ∈ coordinates) ∧
      (∀ term ∈ row.terms, term.1 ∈ coordinates) ∧
      ∀ x : String → K, item.Holds x ↔ row.Satisfied x := by
  unfold classifyConstraint ConstraintRow.Satisfied
  rcases h with ⟨coordinateId, hmem, hterms, hrhs⟩ | ⟨left, hleft, right, hright, hrhs, hterms⟩
  · rw [hterms]
    refine ⟨.fix coordinateId row.rhs, if_pos ⟨rfl, hrhs⟩, hmem, fun term hterm => ?_, fun x => ?_⟩
    · rw [List.mem_singleton.mp hterm]
      exact hmem
    · simp [ClassifiedConstraint.Holds]
  · have hterm (first second : String × Rat) (hfirst : first.1 = left) (hsecond : second.1 = right) :
        ∀ term ∈ [first, second], term.1 ∈ coordinates := by
      intro term hterm
      rcases List.mem_cons.mp hterm with rfl | hterm
      · exact hfirst ▸ hleft
      · rw [List.mem_singleton.mp hterm, hsecond]
        exact hright
    rcases hterms with hterms | hterms
    · rw [hterms]
      refine ⟨.equality left right, if_pos ⟨hrhs, .inr rfl, rfl⟩, ⟨hleft, hright⟩,
        hterm _ _ rfl rfl, fun x => ?_⟩
      simp [ClassifiedConstraint.Holds, hrhs, ← sub_eq_add_neg, sub_eq_zero]
    · rw [hterms]
      refine ⟨.equality left right, if_pos ⟨hrhs, .inl rfl, (neg_neg 1).symm⟩, ⟨hleft, hright⟩,
        hterm _ _ rfl rfl, fun x => ?_⟩
      simp [ClassifiedConstraint.Holds, hrhs, neg_add_eq_zero]

/-- Plain rows are parsed: one classified row for each, with the same solutions. -/
theorem parseRows_plain {coordinates : List String} {rows : List ConstraintRow}
    (h : ∀ row ∈ rows, row.Plain coordinates) (done : List ClassifiedConstraint) :
    forEach (parseRow coordinates) done rows = .ok (done ++ classifiedRows rows) ∧
      (∀ item ∈ classifiedRows rows, item.Within (· ∈ coordinates)) ∧
      ∀ x : String → K, (∀ item ∈ classifiedRows rows, item.Holds x) ↔
        ∀ row ∈ rows, row.Satisfied x := by
  induction rows generalizing done with
  | nil => exact ⟨congrArg Except.ok (List.append_nil done).symm, by simp [classifiedRows],
      by simp [classifiedRows]⟩
  | cons row rows ih =>
      obtain ⟨item, hitem, hwithin, hterms, hholds⟩ := (h row List.mem_cons_self).classified (K := K)
      obtain ⟨hparsed, hall, hsolutions⟩ :=
        ih (fun other hother => h other (List.mem_cons_of_mem _ hother)) (done ++ [item])
      have hrows : classifiedRows (row :: rows) = item :: classifiedRows rows := by
        simp [classifiedRows, hitem, Except.toOption]
      rw [hrows]
      refine ⟨?_, ?_, fun x => ?_⟩
      · rw [forEach_cons]
        refine bind_ok.mpr ⟨done ++ [item], ?_, ?_⟩
        · unfold parseRow
          rw [require_bind_pos hterms, hitem]
          rfl
        · rw [hparsed, List.append_assoc, List.singleton_append]
      · exact List.forall_mem_cons.mpr ⟨hwithin, hall⟩
      · rw [List.forall_mem_cons, List.forall_mem_cons, hholds, hsolutions]

/-! ## The compiled matrix -/

/-- The value of a coordinate in a vector. -/
def assignment (coordinates : List String) (vector : List K) (coordinateId : String) : K :=
  vector.getD (coordinates.idxOf coordinateId) 0

/-- The left side of a compiled row. -/
def SolveRow.left (x : String → K) : SolveRow → K
  | .equality anchor member => x anchor - x member
  | .fix anchor _ => x anchor

/-- A row holds exactly when its left side is its right side. -/
theorem SolveRow.holds_iff (row : SolveRow) (x : String → K) : row.Holds x ↔ row.left x = row.rhs := by
  cases row with
  | equality anchor member => exact sub_eq_zero.symm
  | fix anchor value => exact Iff.rfl

/-- A coordinate's own column selects its value. -/
theorem sum_column {coordinates : List String} (hnodup : coordinates.Nodup) {coordinateId : String}
    (hmem : coordinateId ∈ coordinates) (factor : K) (vector : List K) :
    ∑ j : Fin coordinates.length, (if coordinateId = coordinates.get j then factor else 0) *
      toVector coordinates.length vector j = factor * assignment coordinates vector coordinateId := by
  have hindex : coordinates.idxOf coordinateId < coordinates.length :=
    List.idxOf_lt_length_iff.mpr hmem
  have hplace (j : Fin coordinates.length) : coordinateId = coordinates.get j ↔
      j = ⟨coordinates.idxOf coordinateId, hindex⟩ := by
    constructor
    · intro heq
      refine Fin.ext ?_
      show (j : Nat) = coordinates.idxOf coordinateId
      rw [heq]
      exact (hnodup.idxOf_getElem j j.isLt).symm
    · rintro rfl
      exact (List.getElem_idxOf hindex).symm
  simp only [hplace, ite_mul, zero_mul, Finset.sum_ite_eq', Finset.mem_univ, if_true]
  rfl

/-- The coefficients of a row give its left side. -/
theorem sum_coefficient {coordinates : List String} (hnodup : coordinates.Nodup) {row : SolveRow}
    (hanchor : row.anchor ∈ coordinates)
    (hmember : ∀ member, row.member = some member → member ∈ coordinates) (vector : List K) :
    ∑ j : Fin coordinates.length, row.coefficient (coordinates.get j) *
      toVector coordinates.length vector j = row.left (assignment coordinates vector) := by
  unfold SolveRow.coefficient
  simp only [add_mul, Finset.sum_add_distrib]
  have hfirst := sum_column hnodup hanchor (1 : K) vector
  rw [one_mul] at hfirst
  rw [hfirst]
  cases row with
  | equality anchor member =>
      have hsecond := sum_column hnodup (hmember member rfl) (-1 : K) vector
      simp only [SolveRow.member, Option.some.injEq, SolveRow.left, SolveRow.anchor]
      rw [sub_eq_add_neg, ← neg_one_mul (assignment coordinates vector member), ← hsecond]
  | fix anchor value =>
      simp only [SolveRow.member, reduceCtorEq, if_false, zero_mul, Finset.sum_const_zero, add_zero]
      rfl

variable [LinearOrder K] [CallStack]

/-- What the parts of a compiled system are. -/
theorem compileConstraints_parts {coordinates : List String} {rows : List ConstraintRow}
    {constraints : CompiledConstraints K}
    (h : compileConstraints coordinates rows = .ok constraints) :
    ∃ parsed solved, forEach (parseRow coordinates) [] rows = .ok parsed ∧
      compileRows coordinates parsed = .ok solved ∧
      CsrMatrix.fromEntries solved.length coordinates.length (solveEntries coordinates solved) =
        .ok constraints.matrix ∧ constraints.rhs = solved.map SolveRow.rhs := by
  obtain ⟨_, _, h⟩ := bind_ok.mp h
  obtain ⟨parsed, hparsed, h⟩ := bind_ok.mp h
  obtain ⟨solved, hsolved, h⟩ := bind_ok.mp h
  obtain ⟨matrix, hmatrix, h⟩ := bind_ok.mp h
  obtain ⟨certificateMatrix, _, h⟩ := bind_ok.mp h
  unfold compiledConstraints at h
  split_ifs at h with hvalid
  obtain rfl := Except.ok.inj h
  exact ⟨parsed, solved, hparsed, hsolved, orValueError_ok.mp hmatrix, rfl⟩

omit [CallStack] in
/-- A product with the compiled matrix is the right-hand side exactly when all rows hold. -/
theorem compiled_matvec_iff {coordinates : List String} {support : String → Prop}
    {solved : List SolveRow} (hnodup : coordinates.Nodup)
    (hcompiled : RowsCompiled support coordinates solved) {matrix : CsrMatrix K}
    (hmatrix : CsrMatrix.fromEntries solved.length coordinates.length
      (solveEntries coordinates solved) = .ok matrix) {vector : List K}
    (hlength : vector.length = coordinates.length) :
    matrix.matvec vector = .ok (solved.map SolveRow.rhs) ↔
      ∀ row ∈ solved, row.Holds (assignment coordinates vector) := by
  obtain ⟨matrix', hmatrix', hrows, hcolumns, hentries⟩ :=
    fromEntries_returns (solveEntries_within (K := K) hcompiled)
  obtain rfl : matrix' = matrix := Except.ok.inj (hmatrix'.symm.trans hmatrix)
  have hproduct : matrix'.matvec vector =
      .ok (matrix'.rows.map (CsrMatrix.rowProduct vector)) :=
    require_bind_pos (hlength.trans hcolumns.symm)
  have hproductLength : (matrix'.rows.map (CsrMatrix.rowProduct vector)).length = solved.length :=
    (List.length_map _).trans hrows
  have hvalues := toVector_rowProducts hrows hcolumns hlength
  have hleft (k : Fin solved.length) :
      toVector solved.length (matrix'.rows.map (CsrMatrix.rowProduct vector)) k =
        solved[(k : Nat)].left (assignment coordinates vector) := by
    have hknown := hcompiled.known _ (List.getElem_mem k.isLt)
    have hmatrixValues : matrix'.toMatrix solved.length coordinates.length =
        coefficientMatrix coordinates solved := by
      ext i j
      exact (hentries i j).trans (totalAt_solveEntries hnodup hcompiled.known i.isLt j.isLt)
    rw [hvalues, hmatrixValues, ← sum_coefficient hnodup hknown.1 hknown.2]
    rfl
  have hright (k : Fin solved.length) :
      toVector (K := K) solved.length (solved.map SolveRow.rhs) k = solved[(k : Nat)].rhs := by
    unfold toVector
    rw [List.getD_eq_getElem _ _ (by simp), List.getElem_map]
  rw [hproduct, Except.ok.injEq]
  constructor
  · intro heq row hrow
    obtain ⟨k, hk, rfl⟩ := List.getElem_of_mem hrow
    have hat := hleft ⟨k, hk⟩
    rw [heq, hright] at hat
    exact (SolveRow.holds_iff _ _).mpr hat.symm
  · intro hholds
    refine toVector_injective hproductLength (List.length_map _) (funext fun k => ?_)
    rw [hleft, hright]
    exact (SolveRow.holds_iff _ _).mp (hholds _ (List.getElem_mem k.isLt))

omit [CallStack] in
/-- Rows that are parsed have known coordinates. -/
theorem parseRows_known {coordinates : List String} {rows : List ConstraintRow} :
    ∀ {done parsed : List ClassifiedConstraint},
      forEach (parseRow coordinates) done rows = .ok parsed →
      ∀ row ∈ rows, ∀ term ∈ row.terms, term.1 ∈ coordinates := by
  induction rows with
  | nil => exact fun _ _ hrow => absurd hrow List.not_mem_nil
  | cons first rows ih =>
      intro done parsed h row hrow
      obtain ⟨next, hnext, hrest⟩ := bind_ok.mp h
      rcases List.mem_cons.mp hrow with rfl | hlater
      · obtain ⟨_, hknown, _⟩ := bind_ok.mp hnext
        exact require_ok.mp hknown
      · exact ih hrest row hlater

omit [LinearOrder K] [CallStack] in
/-- The entries of rows over the coordinates are within the certificate matrix. -/
theorem certificateEntries_within {coordinates : List String} {rows : List ConstraintRow}
    (hterms : ∀ row ∈ rows, ∀ term ∈ row.terms, term.1 ∈ coordinates) :
    ∀ entry ∈ certificateEntries (K := K) coordinates rows,
      entry.1 < rows.length ∧ entry.2.1 < coordinates.length := by
  intro entry hentry
  obtain ⟨⟨row, index⟩, hrow, hentry⟩ := List.mem_flatMap.mp hentry
  obtain ⟨term, hterm, rfl⟩ := List.mem_map.mp hentry
  obtain ⟨_, hindex, hat⟩ := List.mem_zipIdx hrow
  have hknown := hterms row (hat ▸ List.getElem_mem _) term hterm
  exact ⟨by simpa using hindex, List.idxOf_lt_length_iff.mpr hknown⟩

/-- Rows over the coordinates compile, unless they meet a contradiction. -/
theorem compileConstraints_returns {coordinates : List String} {rows : List ConstraintRow}
    (hnamed : "" ∉ coordinates) (hdistinct : coordinates.Nodup)
    {parsed : List ClassifiedConstraint}
    (hparsed : forEach (parseRow coordinates) [] rows = .ok parsed) {solved : List SolveRow}
    (hsolved : compileRows coordinates parsed = .ok solved) :
    ∃ constraints : CompiledConstraints K, compileConstraints coordinates rows = .ok constraints := by
  have hcompiled := systemRows_spec hdistinct (parseRows_within hparsed) (systemRows_of_ok hsolved)
  obtain ⟨matrix, hmatrix, hrows, hcolumns, _⟩ :=
    fromEntries_returns (solveEntries_within (K := K) hcompiled)
  have hwithin := certificateEntries_within (K := K) (parseRows_known hparsed)
  obtain ⟨certificate, hcertificate, hcertificateRows, hcertificateColumns, _⟩ :=
    fromEntries_returns hwithin
  have hsolvedLength : (solved.map (SolveRow.rhs (K := K))).length = solved.length :=
    List.length_map _
  have hrhsLength : (rows.map fun row => (row.rhs : K)).length = rows.length := List.length_map _
  have hsupportLength : (rows.map ConstraintRow.support).length = rows.length := List.length_map _
  have hvalid := And.intro hdistinct (And.intro hcolumns (And.intro
    (hrows.trans hsolvedLength.symm) (And.intro hcertificateColumns (And.intro
      (hcertificateRows.trans hrhsLength.symm) (hsupportLength.trans hcertificateRows.symm)))))
  refine ⟨⟨coordinates, matrix, solved.map SolveRow.rhs, certificate, rows.map fun row => row.rhs,
    rows.map ConstraintRow.support, hvalid⟩, ?_⟩
  unfold compileConstraints
  rw [require_bind_pos ⟨hnamed, hdistinct⟩]
  exact bind_ok.mpr ⟨parsed, hparsed, bind_ok.mpr ⟨solved, hsolved,
    bind_ok.mpr ⟨matrix, orValueError_ok.mpr hmatrix, bind_ok.mpr ⟨certificate,
      orValueError_ok.mpr hcertificate, dif_pos hvalid⟩⟩⟩⟩

/-- The support of the compiled constraints is that of the rows. -/
theorem supportCoordinateIds_iff {coordinates : List String} {rows : List ConstraintRow}
    {constraints : CompiledConstraints K}
    (hcompiled : compileConstraints coordinates rows = .ok constraints) {coordinateId : String} :
    coordinateId ∈ constraints.supportCoordinateIds ↔
      coordinateId ∈ coordinates ∧ ∃ row ∈ rows, coordinateId ∈ row.terms.map Prod.fst := by
  obtain ⟨_, _, h⟩ := bind_ok.mp hcompiled
  obtain ⟨parsed, _, h⟩ := bind_ok.mp h
  obtain ⟨solved, _, h⟩ := bind_ok.mp h
  obtain ⟨matrix, _, h⟩ := bind_ok.mp h
  obtain ⟨certificateMatrix, _, h⟩ := bind_ok.mp h
  unfold compiledConstraints at h
  split_ifs at h with hvalid
  obtain rfl := Except.ok.inj h
  unfold CompiledConstraints.supportCoordinateIds
  rw [List.mem_filter, List.any_eq_true]
  refine and_congr_right fun _ => ⟨?_, ?_⟩
  · rintro ⟨support, hsupport, hmem⟩
    obtain ⟨row, hrow, rfl⟩ := List.mem_map.mp hsupport
    exact ⟨row, hrow, of_decide_eq_true hmem⟩
  · rintro ⟨row, hrow, hmem⟩
    exact ⟨row.support, List.mem_map_of_mem hrow, decide_eq_true hmem⟩

variable [CharZero K]

omit [Field K] [LinearOrder K] [CallStack] [CharZero K] in
/-- Parsing classifies the rows, and raises no `RecursionError`. -/
theorem parseRows_ensures {P : Prop} (coordinates : List String) (rows : List ConstraintRow) :
    Ensures (fun failure => failure = .recursionError → P) (· = classifiedRows rows)
      (forEach (parseRow coordinates) [] rows) := by
  refine (Ensures.forEach (fun rest parsed => parsed ++ classifiedRows rest = classifiedRows rows) ?_
    (List.nil_append _)).mono fun parsed hparsed => by simpa [classifiedRows] using hparsed
  intro row rest parsed hparsed
  have hclassify : Ensures (fun failure => failure = NumericFailure.recursionError → P)
      (fun item => classifyConstraint row = .ok item) (classifyConstraint row) := by
    cases hitem : classifyConstraint row with
    | ok item => exact rfl
    | error failure =>
        unfold classifyConstraint at hitem
        split at hitem
        · split_ifs at hitem
          cases hitem
          simp [Ensures]
        · split_ifs at hitem
          cases hitem
          simp [Ensures]
        · cases hitem
          simp [Ensures]
  refine (Ensures.require fun _ => by simp).bind fun _ _ => hclassify.bind fun item hitem => ?_
  show (parsed ++ [item]) ++ classifiedRows rest = classifiedRows rows
  rw [← hparsed]
  simp [classifiedRows, hitem, Except.toOption]

omit [Field K] [LinearOrder K] [CallStack] [CharZero K] in
/-- A matrix raises no `RecursionError`. -/
theorem orValueError_ensures {α : Type} {P : Prop} (x : Except String α) :
    Ensures (fun failure => failure = .recursionError → P) (fun _ => True) (orValueError x) := by
  cases x <;> simp [orValueError, Except.mapError, Ensures]

omit [CharZero K] in
/-- Compiling raises a `RecursionError` only where its calls nest too deep. -/
theorem compileConstraints_recursionError {coordinates : List String} {rows : List ConstraintRow}
    (h : (compileConstraints coordinates rows : Except _ (CompiledConstraints K)) =
      .error .recursionError) :
    CallStack.frames < compileCalls coordinates (classifiedRows rows) := by
  suffices hensures : Ensures
      (fun failure => failure = .recursionError →
        CallStack.frames < compileCalls coordinates (classifiedRows rows)) (fun _ => True)
      (compileConstraints coordinates rows : Except _ (CompiledConstraints K)) from
    hensures.error h rfl
  unfold compileConstraints
  refine (Ensures.require fun _ => by simp).bind fun _ _ => ?_
  refine (parseRows_ensures coordinates rows).bind fun parsed hparsed => ?_
  subst hparsed
  have hrows : Ensures (fun failure => failure = .recursionError →
      CallStack.frames < compileCalls coordinates (classifiedRows rows)) (fun _ => True)
      (compileRows coordinates (classifiedRows rows)) := by
    rw [compileRows_eq, onStack]
    split
    · refine ((fixClasses_ensures _ _ _ _).weaken ?_).bind fun _ _ => trivial
      rintro _ rfl
      simp
    · next hdeep => exact fun _ => not_le.mp hdeep
  refine hrows.bind fun solved _ => (orValueError_ensures _).bind fun matrix _ =>
    (orValueError_ensures _).bind fun certificateMatrix _ => ?_
  unfold compiledConstraints
  split
  · exact trivial
  · simp [Ensures]

/-- Plain rows compile or are contradictory, where the calls have room on the stack, and raise a
`RecursionError` where they have not. -/
theorem compileConstraints_cases {coordinates : List String} {rows : List ConstraintRow}
    (hnamed : "" ∉ coordinates) (hdistinct : coordinates.Nodup)
    (hrows : ∀ row ∈ rows, row.Plain coordinates) :
    (compileCalls coordinates (classifiedRows rows) ≤ CallStack.frames ∧
      ((∃ constraints : CompiledConstraints K,
          compileConstraints coordinates rows = .ok constraints ∧
          ∃ x : String → K, ∀ row ∈ rows, row.Satisfied x) ∨
        ((compileConstraints coordinates rows : Except _ (CompiledConstraints K)) =
            .error (.constraint .contradictory) ∧
          ¬ ∃ x : String → K, ∀ row ∈ rows, row.Satisfied x))) ∨
      (CallStack.frames < compileCalls coordinates (classifiedRows rows) ∧
        (compileConstraints coordinates rows : Except _ (CompiledConstraints K)) =
          .error .recursionError) := by
  obtain ⟨hparsed, hwithin, hholds⟩ := parseRows_plain (K := K) hrows []
  rw [List.nil_append] at hparsed
  have hrun : (compileConstraints coordinates rows : Except _ (CompiledConstraints K)) =
      (compileRows coordinates (classifiedRows rows) >>= fun solved => do
        let matrix ← orValueError (CsrMatrix.fromEntries solved.length coordinates.length
          (solveEntries coordinates solved))
        let certificateMatrix ← orValueError (CsrMatrix.fromEntries rows.length coordinates.length
          (certificateEntries coordinates rows))
        compiledConstraints coordinates matrix (solved.map SolveRow.rhs) certificateMatrix
          (rows.map fun row => (row.rhs : K)) (rows.map ConstraintRow.support)) := by
    unfold compileConstraints
    rw [require_bind_pos ⟨hnamed, hdistinct⟩, hparsed]
    rfl
  by_cases hroom : compileCalls coordinates (classifiedRows rows) ≤ CallStack.frames
  · refine .inl ⟨hroom, ?_⟩
    have hcompile : compileRows coordinates (classifiedRows rows) =
        systemRows coordinates (classifiedRows rows) :=
      (compileRows_eq _ _).trans (if_pos hroom)
    rcases systemRows_cases (K := K) hwithin with
      ⟨solved, hsolved, ⟨x, hx⟩, _⟩ | ⟨hcontradiction, rootOf, hjoined, hcontradictory⟩
    · obtain ⟨constraints, hconstraints⟩ :=
        compileConstraints_returns (K := K) hnamed hdistinct hparsed (hcompile.trans hsolved)
      exact .inl ⟨constraints, hconstraints, x, (hholds x).mp hx⟩
    · refine .inr ⟨?_, fun ⟨x, hx⟩ => hcontradictory.no_solution hjoined x ((hholds x).mpr hx)⟩
      rw [hrun, hcompile, hcontradiction]
      rfl
  · refine .inr ⟨not_le.mp hroom, ?_⟩
    rw [hrun, compileRows_eq, onStack, if_neg hroom]
    rfl

omit [CharZero K] in
/-- The compiled system has the solutions of plain rows. -/
theorem compiled_solution_iff {coordinates : List String} {rows : List ConstraintRow}
    (hrows : ∀ row ∈ rows, row.Plain coordinates) {constraints : CompiledConstraints K}
    (hcompiled : compileConstraints coordinates rows = .ok constraints) {vector : List K}
    (hlength : vector.length = coordinates.length) :
    constraints.matrix.matvec vector = .ok constraints.rhs ↔
      ∀ row ∈ rows, row.Satisfied (assignment coordinates vector) := by
  obtain ⟨parsed, solved, hparsed, hsolved, hmatrix, hrhs⟩ := compileConstraints_parts hcompiled
  obtain ⟨hparsed', hwithin, hholds⟩ := parseRows_plain (K := K) hrows []
  rw [List.nil_append] at hparsed'
  obtain rfl := Except.ok.inj (hparsed'.symm.trans hparsed)
  have hsystem := systemRows_of_ok hsolved
  rcases systemRows_cases (K := K) hwithin with
    ⟨solved', hsolved', _, hsolutions⟩ | ⟨hcontradiction, _⟩
  · obtain rfl := Except.ok.inj (hsolved'.symm.trans hsystem)
    have hdistinct := (compileConstraints_sound hcompiled).distinct
    rw [hrhs, compiled_matvec_iff hdistinct
      (systemRows_spec hdistinct (parseRows_within hparsed) hsystem) hmatrix hlength, hsolutions,
      hholds]
  · rw [hcontradiction] at hsystem
    cases hsystem

end AstrContinuum
