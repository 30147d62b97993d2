import Mathlib.Logic.Relation
import AstrContinuum.ContextGraph.Closure

/-!
# Dependency groups are connected components

`dependencyGroups_components`: the groups of distinct blocks are the connected components of the
companion relation, whatever order the worklist takes. Every block is in a group, a group holds every
companion of its blocks, and any two blocks of a group are linked by companions. A set of blocks that
is closed under companions is therefore a union of whole groups.

The worklist visits a block once and pushes at most all that remain, so the measure
`pending + remaining * length` falls with every round and the bound of the model is never reached.
-/

namespace AstrContinuum

open Checked

/-- Companions are mutual. -/
theorem companions_symm {left right : CandidateBlock} (h : companions left right = true) :
    companions right left = true := by
  simp only [companions, Bool.and_eq_true, Bool.or_eq_true, decide_eq_true_eq, List.any_eq_true]
    at h ⊢
  obtain ⟨hkind, hshared⟩ := h
  refine ⟨hkind.symm, ?_⟩
  rcases hshared with ⟨hcapsule, hsame⟩ | ⟨event, hleft, hright⟩
  · exact .inl ⟨hsame ▸ hcapsule, hsame.symm⟩
  · exact .inr ⟨event, hright, hleft⟩

/-! ## The worklist -/

/-- One index leads to another through companions among the given indexes. -/
def Reaches (candidates : List CandidateBlock) (among : List Nat) : Nat → Nat → Prop :=
  Relation.ReflTransGen fun left right => right ∈ among ∧ companionsAt candidates left right = true

/-- The state of the worklist: what was found and what remains split the indexes, and every companion
of a found index that remains is pending. -/
structure Exploring (candidates : List CandidateBlock) (among : List Nat) (first : Nat)
    (pending component remaining : List Nat) : Prop where
  nodup : remaining.Nodup
  remaining_sub : remaining.Sublist among
  component_sub : ∀ index ∈ component, index ∈ among
  covers : ∀ index ∈ among, index ∈ component ∨ index ∈ remaining
  disjoint : ∀ index ∈ component, index ∉ remaining
  pending_known : ∀ index ∈ pending, index ∈ component ∨ index ∈ remaining
  frontier : ∀ found ∈ component, ∀ index ∈ remaining,
    companionsAt candidates found index = true → index ∈ pending
  reached : ∀ index, index ∈ component ∨ index ∈ pending → Reaches candidates among first index
  rooted : first ∈ component ∨ first ∈ pending

namespace Exploring

variable {candidates : List CandidateBlock} {among pending component remaining : List Nat}
  {first index : Nat}

/-- The search starts at one index. -/
theorem start (hnodup : among.Nodup) (hfirst : first ∈ among) :
    Exploring candidates among first [first] [] among where
  nodup := hnodup
  remaining_sub := .refl _
  component_sub := by simp
  covers index hindex := .inr hindex
  disjoint := by simp
  pending_known index hindex := by
    obtain rfl := List.mem_singleton.mp hindex
    exact .inr hfirst
  frontier := by simp
  reached index hindex := by
    obtain rfl : index = first := by simpa using hindex
    exact .refl
  rooted := .inr List.mem_cons_self

/-- An index that was found before is dropped. -/
theorem skip (h : Exploring candidates among first (index :: pending) component remaining)
    (hfound : index ∈ component) :
    Exploring candidates among first pending component remaining where
  nodup := h.nodup
  remaining_sub := h.remaining_sub
  component_sub := h.component_sub
  covers := h.covers
  disjoint := h.disjoint
  pending_known other hother := h.pending_known other (List.mem_cons_of_mem _ hother)
  frontier found hmem other hother hcompanion := by
    rcases List.mem_cons.mp (h.frontier found hmem other hother hcompanion) with rfl | hpending
    · exact absurd hother (h.disjoint _ hfound)
    · exact hpending
  reached other hother :=
    h.reached other (hother.imp_right fun hmem => List.mem_cons_of_mem _ hmem)
  rooted := by
    rcases h.rooted with hroot | hroot
    · exact .inl hroot
    · rcases List.mem_cons.mp hroot with rfl | hroot
      · exact .inl hfound
      · exact .inr hroot

/-- A new index moves from the remaining ones to the component, and its companions become pending. -/
theorem visit (h : Exploring candidates among first (index :: pending) component remaining)
    (hnew : index ∉ component) :
    Exploring candidates among first
      (((remaining.erase index).filter (companionsAt candidates index)).reverse ++ pending)
      (component ++ [index]) (remaining.erase index) := by
  have hindex : index ∈ remaining :=
    (h.pending_known index List.mem_cons_self).resolve_left hnew
  have hmem : ∀ other, other ∈ remaining.erase index ↔ other ≠ index ∧ other ∈ remaining :=
    fun other => h.nodup.mem_erase_iff
  constructor
  · exact h.nodup.erase index
  · exact List.erase_sublist.trans h.remaining_sub
  · intro other hother
    rcases List.mem_append.mp hother with hother | hother
    · exact h.component_sub other hother
    · obtain rfl := List.mem_singleton.mp hother
      exact h.remaining_sub.subset hindex
  · intro other hother
    rcases h.covers other hother with hfound | hremaining
    · exact .inl (List.mem_append_left _ hfound)
    · by_cases hsame : other = index
      · exact .inl (by simp [hsame])
      · exact .inr ((hmem other).mpr ⟨hsame, hremaining⟩)
  · intro other hother hleft
    obtain ⟨hne, hremaining⟩ := (hmem other).mp hleft
    rcases List.mem_append.mp hother with hfound | hsame
    · exact h.disjoint other hfound hremaining
    · exact hne (List.mem_singleton.mp hsame)
  · intro other hother
    rcases List.mem_append.mp hother with hfound | hpending
    · exact .inr (List.mem_of_mem_filter (List.mem_reverse.mp hfound))
    · rcases h.pending_known other (List.mem_cons_of_mem _ hpending) with hfound | hremaining
      · exact .inl (List.mem_append_left _ hfound)
      · by_cases hsame : other = index
        · exact .inl (by simp [hsame])
        · exact .inr ((hmem other).mpr ⟨hsame, hremaining⟩)
  · intro found hfound other hother hcompanion
    rcases List.mem_append.mp hfound with hfound | hsame
    · obtain ⟨hne, hremaining⟩ := (hmem other).mp hother
      have hpending := h.frontier found hfound other hremaining hcompanion
      exact List.mem_append_right _ ((List.mem_cons.mp hpending).resolve_left hne)
    · obtain rfl := List.mem_singleton.mp hsame
      refine List.mem_append_left _ (List.mem_reverse.mpr ?_)
      exact List.mem_filter.mpr ⟨hother, hcompanion⟩
  · have hreached := h.reached index (.inr List.mem_cons_self)
    intro other hother
    rcases hother with hfound | hpending
    · rcases List.mem_append.mp hfound with hfound | hsame
      · exact h.reached other (.inl hfound)
      · rw [List.mem_singleton.mp hsame]
        exact hreached
    · rcases List.mem_append.mp hpending with hcompanion | hpending
      · obtain ⟨hleft, hcompanion⟩ := List.mem_filter.mp (List.mem_reverse.mp hcompanion)
        refine hreached.tail ⟨?_, hcompanion⟩
        exact h.remaining_sub.subset ((hmem other).mp hleft).2
      · exact h.reached other (.inr (List.mem_cons_of_mem _ hpending))
  · rcases h.rooted with hroot | hroot
    · exact .inl (List.mem_append_left _ hroot)
    · rcases List.mem_cons.mp hroot with rfl | hroot
      · exact .inl (by simp)
      · exact .inr (List.mem_append_right _ hroot)

/-- A visit lowers the measure of the search. -/
theorem visit_measure (h : Exploring candidates among first (index :: pending) component remaining)
    (hnew : index ∉ component) {bound fuel : Nat} (hbound : remaining.length ≤ bound)
    (hfuel : (index :: pending).length + remaining.length * bound < fuel + 1) :
    (((remaining.erase index).filter (companionsAt candidates index)).reverse ++ pending).length +
      (remaining.erase index).length * bound < fuel := by
  have hindex : index ∈ remaining :=
    (h.pending_known index List.mem_cons_self).resolve_left hnew
  have hfound := List.length_filter_le (companionsAt candidates index) (remaining.erase index)
  have hpos : 0 < remaining.length := List.length_pos_of_mem hindex
  have herase := List.length_erase_of_mem hindex
  obtain ⟨rest, hrest⟩ : ∃ rest, remaining.length = rest + 1 := ⟨remaining.length - 1, by omega⟩
  rw [hrest, Nat.add_sub_cancel] at herase
  rw [herase] at hfound ⊢
  simp only [List.length_append, List.length_reverse, List.length_cons, hrest, Nat.succ_mul] at *
  omega

end Exploring

/-- The search ends with nothing pending. -/
theorem collectComponent_explores {candidates : List CandidateBlock} {among : List Nat}
    {first bound : Nat} {fuel : Nat} {pending component remaining : List Nat}
    (h : Exploring candidates among first pending component remaining)
    (hbound : remaining.length ≤ bound)
    (hfuel : pending.length + remaining.length * bound < fuel) :
    Exploring candidates among first []
      (collectComponent candidates fuel pending component remaining).1
      (collectComponent candidates fuel pending component remaining).2 := by
  induction fuel generalizing pending component remaining with
  | zero => omega
  | succ fuel ih =>
      cases pending with
      | nil => exact h
      | cons index pending =>
          by_cases hfound : index ∈ component
          · have hnext := ih (h.skip hfound) hbound (by simp only [List.length_cons] at hfuel; omega)
            simpa only [collectComponent, if_pos hfound] using hnext
          · have hshort : (remaining.erase index).length ≤ bound :=
              (List.erase_sublist.length_le).trans hbound
            have hnext := ih (h.visit hfound) hshort (h.visit_measure hfound hbound hfuel)
            simpa only [collectComponent, if_neg hfound] using hnext

/-! ## The groups -/

/-- The blocks at some indexes. -/
theorem mem_blocksAt {candidates : List CandidateBlock} {indexes : List Nat}
    {block : CandidateBlock} :
    block ∈ blocksAt candidates indexes ↔ ∃ index ∈ indexes, candidates[index]? = some block := by
  simp only [blocksAt, List.mem_map, List.mem_filter, decide_eq_true_eq, Prod.exists,
    List.mem_zipIdx_iff_getElem?]
  constructor
  · rintro ⟨_, index, ⟨hblock, hindex⟩, rfl⟩
    exact ⟨index, hindex, hblock⟩
  · rintro ⟨index, hindex, hblock⟩
    exact ⟨block, index, ⟨hblock, hindex⟩, rfl⟩

/-- The blocks at some indexes keep the order of the list. -/
theorem blocksAt_sublist (candidates : List CandidateBlock) (indexes : List Nat) :
    (blocksAt candidates indexes).Sublist candidates := by
  have hsub : (candidates.zipIdx.filter fun entry => decide (entry.2 ∈ indexes)).Sublist
      candidates.zipIdx := List.filter_sublist
  simpa [blocksAt] using hsub.map Prod.fst

/-- The companion relation of blocks at their indexes. -/
theorem companionsAt_eq_true {candidates : List CandidateBlock} {left right : Nat} :
    companionsAt candidates left right = true ↔
      ∃ first second, candidates[left]? = some first ∧ candidates[right]? = some second ∧
        companions first second = true := by
  unfold companionsAt
  cases candidates[left]? <;> cases candidates[right]? <;> simp

/-- Two blocks of a list are linked by companions. -/
def Linked (candidates : List CandidateBlock) : CandidateBlock → CandidateBlock → Prop :=
  Relation.ReflTransGen fun left right => right ∈ candidates ∧ companions left right = true

/-- A path of indexes is a path of blocks. -/
theorem Reaches.linked {candidates : List CandidateBlock} {among : List Nat} {first index : Nat}
    (h : Reaches candidates among first index) {start block : CandidateBlock}
    (hstart : candidates[first]? = some start) (hblock : candidates[index]? = some block) :
    Linked candidates start block := by
  induction h generalizing block with
  | refl =>
      obtain rfl := Option.some.inj (hstart.symm.trans hblock)
      exact .refl
  | tail _ hstep ih =>
      obtain ⟨left, right, hleft, hright, hcompanion⟩ := companionsAt_eq_true.mp hstep.2
      obtain rfl := Option.some.inj (hright.symm.trans hblock)
      exact (ih hleft).tail ⟨List.mem_of_getElem? hright, hcompanion⟩

/-- Links are mutual. -/
theorem Linked.symm {candidates : List CandidateBlock} {left right : CandidateBlock}
    (h : Linked candidates left right) (hleft : left ∈ candidates) : Linked candidates right left := by
  suffices hboth : Linked candidates right left ∧ right ∈ candidates from hboth.1
  induction h with
  | refl => exact ⟨.refl, hleft⟩
  | tail _ hstep ih => exact ⟨.head ⟨ih.2, companions_symm hstep.2⟩ ih.1, hstep.1⟩

/-- The groups made of some indexes: every block at them is in a group, and a group is a component of
the companion relation among them. -/
structure GroupsOf (candidates : List CandidateBlock) (among : List Nat)
    (groups : List (List CandidateBlock)) : Prop where
  covers : ∀ index ∈ among, ∀ block, candidates[index]? = some block → ∃ group ∈ groups, block ∈ group
  ordered : ∀ group ∈ groups, group.Sublist candidates
  within : ∀ group ∈ groups, ∀ block ∈ group, ∃ index ∈ among, candidates[index]? = some block
  nonempty : ∀ group ∈ groups, group ≠ []
  closed : ∀ group ∈ groups, ∀ block ∈ group, ∀ index ∈ among, ∀ other,
    candidates[index]? = some other → companions block other = true → other ∈ group
  linked : ∀ group ∈ groups, ∀ block ∈ group, ∀ other ∈ group, Linked candidates block other

/-- A finished search and the groups of what remains are the groups of all. -/
theorem GroupsOf.cons {candidates : List CandidateBlock} {among component remaining : List Nat}
    {first : Nat} {groups : List (List CandidateBlock)}
    (hsearch : Exploring candidates among first [] component remaining)
    (hfirst : first < candidates.length) (h : GroupsOf candidates remaining groups) :
    GroupsOf candidates among (blocksAt candidates component :: groups) := by
  have hroot : first ∈ component := hsearch.rooted.resolve_right (by simp)
  have hapart : ∀ found ∈ component, ∀ index ∈ remaining,
      companionsAt candidates found index ≠ true := by
    intro found hfound index hindex hcompanion
    exact absurd (hsearch.frontier found hfound index hindex hcompanion) (by simp)
  constructor
  · intro index hindex block hblock
    rcases hsearch.covers index hindex with hfound | hremaining
    · exact ⟨_, List.mem_cons_self, mem_blocksAt.mpr ⟨index, hfound, hblock⟩⟩
    · obtain ⟨group, hgroup, hmem⟩ := h.covers index hremaining block hblock
      exact ⟨group, List.mem_cons_of_mem _ hgroup, hmem⟩
  · intro group hgroup
    rcases List.mem_cons.mp hgroup with rfl | hgroup
    · exact blocksAt_sublist candidates component
    · exact h.ordered group hgroup
  · intro group hgroup block hblock
    rcases List.mem_cons.mp hgroup with rfl | hgroup
    · obtain ⟨index, hindex, hblock⟩ := mem_blocksAt.mp hblock
      exact ⟨index, hsearch.component_sub index hindex, hblock⟩
    · obtain ⟨index, hindex, hblock⟩ := h.within group hgroup block hblock
      exact ⟨index, hsearch.remaining_sub.subset hindex, hblock⟩
  · intro group hgroup
    rcases List.mem_cons.mp hgroup with rfl | hgroup
    · exact List.ne_nil_of_mem
        (mem_blocksAt.mpr ⟨first, hroot, List.getElem?_eq_getElem hfirst⟩)
    · exact h.nonempty group hgroup
  · intro group hgroup block hblock index hindex other hother hcompanion
    rcases List.mem_cons.mp hgroup with rfl | hgroup
    · obtain ⟨found, hfound, hblock⟩ := mem_blocksAt.mp hblock
      rcases hsearch.covers index hindex with hmem | hremaining
      · exact mem_blocksAt.mpr ⟨index, hmem, hother⟩
      · exact absurd (companionsAt_eq_true.mpr ⟨block, other, hblock, hother, hcompanion⟩)
          (hapart found hfound index hremaining)
    · obtain ⟨left, hleft, hblock'⟩ := h.within group hgroup block hblock
      rcases hsearch.covers index hindex with hmem | hremaining
      · exact absurd (companionsAt_eq_true.mpr
          ⟨other, block, hother, hblock', companions_symm hcompanion⟩)
          (hapart index hmem left hleft)
      · exact h.closed group hgroup block hblock index hremaining other hother hcompanion
  · intro group hgroup block hblock other hother
    rcases List.mem_cons.mp hgroup with rfl | hgroup
    · obtain ⟨left, hleft, hblock⟩ := mem_blocksAt.mp hblock
      obtain ⟨right, hright, hother⟩ := mem_blocksAt.mp hother
      have hstart := List.getElem?_eq_getElem hfirst
      have htoBlock := (hsearch.reached left (.inl hleft)).linked hstart hblock
      have htoOther := (hsearch.reached right (.inl hright)).linked hstart hother
      exact (htoBlock.symm (List.getElem_mem hfirst)).trans htoOther
    · exact h.linked group hgroup block hblock other hother

/-- The search from the first of some indexes finishes, and it leaves fewer of them. -/
theorem collectComponent_first {candidates : List CandidateBlock} {first : Nat} {rest : List Nat}
    (hrange : (first :: rest).Sublist (List.range candidates.length)) :
    Exploring candidates (first :: rest) first []
        (collectComponent candidates (candidates.length * candidates.length + 2) [first] []
          (first :: rest)).1
        (collectComponent candidates (candidates.length * candidates.length + 2) [first] []
          (first :: rest)).2 ∧
      (collectComponent candidates (candidates.length * candidates.length + 2) [first] []
        (first :: rest)).2.length < (first :: rest).length := by
  have hlength : (first :: rest).length ≤ candidates.length := by
    simpa using hrange.length_le
  have hmeasure : [first].length + (first :: rest).length * candidates.length <
      candidates.length * candidates.length + 2 := by
    have hproduct := Nat.mul_le_mul_right candidates.length hlength
    simp only [List.length_singleton]
    omega
  have hstart : Exploring candidates (first :: rest) first [first] [] (first :: rest) :=
    .start (hrange.nodup List.nodup_range) List.mem_cons_self
  have hsearch := collectComponent_explores hstart hlength hmeasure
  refine ⟨hsearch, lt_of_le_of_ne hsearch.remaining_sub.length_le fun hsame => ?_⟩
  -- The first index is found, so it does not remain.
  have heq := hsearch.remaining_sub.eq_of_length hsame
  refine hsearch.disjoint first (hsearch.rooted.resolve_right (by simp)) ?_
  rw [heq]
  exact List.mem_cons_self

/-- The outer loop makes the groups of the indexes that remain. -/
theorem groupsFrom_groupsOf {candidates : List CandidateBlock} {fuel : Nat} {among : List Nat}
    (hrange : among.Sublist (List.range candidates.length)) (hfuel : among.length < fuel) :
    GroupsOf candidates among (groupsFrom candidates fuel among) := by
  induction fuel generalizing among with
  | zero => omega
  | succ fuel ih =>
      cases among with
      | nil => exact ⟨by simp, by simp [groupsFrom], by simp [groupsFrom], by simp [groupsFrom],
          by simp, by simp [groupsFrom]⟩
      | cons first rest =>
          have hfirst : first < candidates.length :=
            List.mem_range.mp (hrange.subset List.mem_cons_self)
          obtain ⟨hsearch, hless⟩ := collectComponent_first hrange
          exact .cons hsearch hfirst (ih (hsearch.remaining_sub.trans hrange) (by omega))

/-- The groups are the connected components of the companion relation. -/
structure Components (candidates : List CandidateBlock) (groups : List (List CandidateBlock)) :
    Prop where
  covers : ∀ block ∈ candidates, ∃ group ∈ groups, block ∈ group
  ordered : ∀ group ∈ groups, group.Sublist candidates
  nonempty : ∀ group ∈ groups, group ≠ []
  closed : ∀ group ∈ groups, ∀ block ∈ group, ∀ other ∈ candidates,
    companions block other = true → other ∈ group
  linked : ∀ group ∈ groups, ∀ block ∈ group, ∀ other ∈ group, Linked candidates block other

/-- `dependency_groups` of distinct blocks returns the connected components. -/
theorem dependencyGroups_components {candidates : List CandidateBlock}
    (h : (blockIds candidates).Nodup) :
    ∃ groups, dependencyGroups candidates = .ok groups ∧ Components candidates groups := by
  have hgroups : GroupsOf candidates (List.range candidates.length)
      (groupsFrom candidates (candidates.length + 1) (List.range candidates.length)) :=
    groupsFrom_groupsOf (.refl _) (by simp)
  have hindex : ∀ block ∈ candidates, ∃ index ∈ List.range candidates.length,
      candidates[index]? = some block := by
    intro block hblock
    obtain ⟨index, hlt, hget⟩ := List.getElem_of_mem hblock
    exact ⟨index, List.mem_range.mpr hlt, hget ▸ List.getElem?_eq_getElem hlt⟩
  refine ⟨_, by simp only [dependencyGroups, require, if_pos h]; rfl, ?_⟩
  refine ⟨?_, hgroups.ordered, hgroups.nonempty, ?_, hgroups.linked⟩
  · intro block hblock
    obtain ⟨index, hrange, hget⟩ := hindex block hblock
    exact hgroups.covers index hrange block hget
  · intro group hgroup block hblock other hother hcompanion
    obtain ⟨index, hrange, hget⟩ := hindex other hother
    exact hgroups.closed group hgroup block hblock index hrange other hget hcompanion

/-! ## Closed selections -/

/-- A selection is closed under companions. -/
def CompanionClosed (candidates selected : List CandidateBlock) : Prop :=
  ∀ block ∈ selected, ∀ other ∈ candidates, companions block other = true → other ∈ selected

/-- A closed selection holds everything that is linked to it. -/
theorem CompanionClosed.linked {candidates selected : List CandidateBlock}
    (h : CompanionClosed candidates selected) {block other : CandidateBlock}
    (hblock : block ∈ selected) (hlinked : Linked candidates block other) : other ∈ selected := by
  induction hlinked with
  | refl => exact hblock
  | tail _ hstep ih => exact h _ ih _ hstep.1 hstep.2

/-- A closed selection takes a group whole or leaves it out. -/
theorem CompanionClosed.whole {candidates selected : List CandidateBlock}
    {groups : List (List CandidateBlock)} (h : CompanionClosed candidates selected)
    (hgroups : Components candidates groups) {group : List CandidateBlock} (hgroup : group ∈ groups) :
    (∀ block ∈ group, block ∈ selected) ∨ ∀ block ∈ group, block ∉ selected := by
  by_cases hany : ∃ block ∈ group, block ∈ selected
  · obtain ⟨block, hblock, hselected⟩ := hany
    exact .inl fun other hother =>
      h.linked hselected (hgroups.linked group hgroup block hblock other hother)
  · exact .inr fun block hblock hselected => hany ⟨block, hblock, hselected⟩

end AstrContinuum
