import AstrContinuum.ContextGraph.LeastClosure

/-!
# Closures are unions of components

The two traversals of `context_graph/closure.py` against one notion: the `component` of a block is
what companions link to it, in the order of the list. `dependencyGroups_exact` says that the groups
are the components in the order of their first members, and `closeDependencyClosure_eq` that the
closure is the union of the components that hold a selected or a required block, or the capacity
error when that union is too large: the ids of the loop are ids of the union at any moment, so the
loop only stops early when the union exceeds the bound.
-/

namespace AstrContinuum

open Checked
open scoped List

/-! ## Components -/

open Classical in
/-- The connected component of a block, in the order of the list. -/
noncomputable def component (candidates : List CandidateBlock) (block : CandidateBlock) :
    List CandidateBlock :=
  candidates.filter fun other => Linked candidates block other

open Classical in
/-- The union of the components that hold a selected or a required block, in the order of the
universe. -/
noncomputable def componentUnion (selectedBlocks available : List CandidateBlock) :
    List CandidateBlock :=
  available.filter fun block => ∃ seed ∈ component available block,
    seed.blockId ∈ blockIds selectedBlocks ∨ seed.required = true

/-- The members of a component. -/
theorem mem_component {candidates : List CandidateBlock} {block other : CandidateBlock} :
    other ∈ component candidates block ↔ other ∈ candidates ∧ Linked candidates block other := by
  simp [component]

/-- A component keeps the order of the list. -/
theorem component_sublist (candidates : List CandidateBlock) (block : CandidateBlock) :
    (component candidates block).Sublist candidates :=
  List.filter_sublist

/-- The members of a union of components. -/
theorem mem_componentUnion {selectedBlocks available : List CandidateBlock}
    {block : CandidateBlock} :
    block ∈ componentUnion selectedBlocks available ↔
      block ∈ available ∧ ∃ seed ∈ component available block,
        seed.blockId ∈ blockIds selectedBlocks ∨ seed.required = true := by
  simp [componentUnion]

/-- A union of components keeps the order of the universe. -/
theorem componentUnion_sublist (selectedBlocks available : List CandidateBlock) :
    (componentUnion selectedBlocks available).Sublist available :=
  List.filter_sublist

/-- Two parts of a list of distinct elements, both in its order, are the same when they have the same
elements. -/
theorem eq_of_sublists {α : Type} {left right whole : List α} (hnodup : whole.Nodup)
    (hleft : left.Sublist whole) (hright : right.Sublist whole)
    (hmem : ∀ a, a ∈ left ↔ a ∈ right) : left = right := by
  classical
  have hkept : ∀ part : List α, part.Sublist whole → part = whole.filter (· ∈ part) := by
    intro part hpart
    have hsub : (part.filter (· ∈ part)).Sublist (whole.filter (· ∈ part)) := hpart.filter _
    rw [List.filter_eq_self.mpr fun a ha => decide_eq_true ha] at hsub
    have hsame : part ~ whole.filter (· ∈ part) := by
      refine (List.perm_ext_iff_of_nodup (hpart.nodup hnodup) (hnodup.filter _)).mpr fun a => ?_
      rw [List.mem_filter, decide_eq_true_eq]
      exact ⟨fun ha => ⟨hpart.subset ha, ha⟩, fun ha => ha.2⟩
    exact hsub.eq_of_length hsame.length_eq
  rw [hkept left hleft, hkept right hright]
  exact List.filter_congr fun a _ => decide_eq_decide.mpr (hmem a)

/-- A group is the component of each of its blocks. -/
theorem Components.eq_component {candidates : List CandidateBlock}
    {groups : List (List CandidateBlock)} (h : Components candidates groups)
    (hnodup : candidates.Nodup) {group : List CandidateBlock} (hgroup : group ∈ groups)
    {block : CandidateBlock} (hblock : block ∈ group) : group = component candidates block := by
  refine eq_of_sublists hnodup (h.ordered group hgroup) (component_sublist _ _) fun other => ?_
  rw [mem_component]
  constructor
  · intro hother
    exact ⟨(h.ordered group hgroup).subset hother, h.linked group hgroup block hblock other hother⟩
  · rintro ⟨-, hlinked⟩
    exact CompanionClosed.linked (h.closed group hgroup) hblock hlinked

/-- The groups are the components of the blocks. -/
theorem Components.mem_iff {candidates : List CandidateBlock}
    {groups : List (List CandidateBlock)} (h : Components candidates groups)
    (hnodup : candidates.Nodup) (group : List CandidateBlock) :
    group ∈ groups ↔ ∃ block ∈ candidates, group = component candidates block := by
  constructor
  · intro hgroup
    obtain ⟨block, hblock⟩ := List.exists_mem_of_ne_nil _ (h.nonempty group hgroup)
    exact ⟨block, (h.ordered group hgroup).subset hblock, h.eq_component hnodup hgroup hblock⟩
  · rintro ⟨block, hblock, rfl⟩
    obtain ⟨group, hgroup, hmem⟩ := h.covers block hblock
    rwa [← h.eq_component hnodup hgroup hmem]

/-! ## The order of the groups -/

/-- Among ascending indexes, the first of the blocks is the one at the least index. -/
theorem head?_blocksAt {candidates : List CandidateBlock} {component : List Nat} {first : Nat}
    (hfirst : first ∈ component) (hbound : first < candidates.length)
    (hleast : ∀ index ∈ component, first ≤ index) :
    (blocksAt candidates component).head? = candidates[first]? := by
  have hfound : candidates.zipIdx.find? (fun entry => entry.2 ∈ component) =
      some (candidates[first], first) := by
    refine List.find?_eq_some_iff_getElem.mpr ⟨decide_eq_true hfirst, first, by simpa, by simp, ?_⟩
    intro index hindex
    simp only [List.getElem_zipIdx, Bool.not_eq_true', decide_eq_false_iff_not]
    intro hmem
    have hle := hleast _ hmem
    omega
  rw [blocksAt, List.head?_map, List.head?_filter, hfound, List.getElem?_eq_getElem hbound]
  rfl

/-- The first members of the groups stand at ascending indexes. -/
theorem groupsFrom_heads {candidates : List CandidateBlock} {fuel : Nat} {among : List Nat}
    (hrange : among.Sublist (List.range candidates.length)) (hfuel : among.length < fuel) :
    ∃ indexes : List Nat, indexes.Sublist among ∧
      (groupsFrom candidates fuel among).map List.head? =
        indexes.map fun index => candidates[index]? := by
  induction fuel generalizing among with
  | zero => omega
  | succ fuel ih =>
      cases among with
      | nil => exact ⟨[], .refl _, by simp [groupsFrom]⟩
      | cons first rest =>
          obtain ⟨hsearch, hless⟩ := collectComponent_first hrange
          have hroot := hsearch.rooted.resolve_right (by simp)
          have hascending := List.pairwise_cons.mp (List.pairwise_lt_range.sublist hrange)
          have hleast : ∀ index ∈ _, first ≤ index := fun index hindex => by
            rcases List.mem_cons.mp (hsearch.component_sub index hindex) with rfl | hrest
            · exact le_refl _
            · exact (hascending.1 index hrest).le
          have hremaining := hsearch.remaining_sub
          -- The first index does not remain, so what remains is part of the rest.
          have hrest := (List.sublist_cons_iff.mp hremaining).resolve_right (by
            rintro ⟨others, hothers, -⟩
            exact hsearch.disjoint first hroot (hothers ▸ List.mem_cons_self))
          obtain ⟨indexes, hindexes, hheads⟩ := ih (hremaining.trans hrange) (by omega)
          refine ⟨first :: indexes, (hindexes.trans hrest).cons_cons first, ?_⟩
          have hhead := head?_blocksAt hroot
            (List.mem_range.mp (hrange.subset List.mem_cons_self)) hleast
          rw [groupsFrom, List.map_cons, List.map_cons, hheads, hhead]

/-- `dependency_groups` of distinct blocks returns the components, in the order of their first
members. -/
theorem dependencyGroups_exact {candidates : List CandidateBlock}
    (h : (blockIds candidates).Nodup) :
    ∃ groups, dependencyGroups candidates = .ok groups ∧
      (∀ group, group ∈ groups ↔ ∃ block ∈ candidates, group = component candidates block) ∧
      (groups.map List.head?).Sublist (candidates.map some) := by
  obtain ⟨groups, hgroups, hcomponents⟩ := dependencyGroups_components h
  refine ⟨groups, hgroups, hcomponents.mem_iff (List.Nodup.of_map _ h), ?_⟩
  obtain ⟨_, -, hgroups⟩ := bind_ok.mp hgroups
  obtain rfl := pure_ok.mp hgroups
  obtain ⟨indexes, hindexes, hheads⟩ := groupsFrom_heads (List.Sublist.refl _)
    (by simp : (List.range candidates.length).length < candidates.length + 1)
  have hall : candidates.map some =
      (List.range candidates.length).map fun index => candidates[index]? := by
    refine List.ext_getElem (by simp) fun index hindex _ => ?_
    simp
  rw [hheads, hall]
  exact hindexes.map _

/-! ## The capacity -/

section Capacity

variable {available : List CandidateBlock} {seeds ids : List String} {maxBlocks : Nat}
  {union : List CandidateBlock}

/-- The ids of the loop are at most as many as the blocks of a closed union. -/
theorem Growing.length_le_union (h : Growing available seeds ids)
    (hunion : ClosedOver available seeds {block | block ∈ union}) : ids.length ≤ union.length := by
  have hsub : ids ⊆ blockIds union := by
    intro id hid
    obtain ⟨block, hblock, rfl⟩ := List.mem_map.mp (h.known id hid)
    exact List.mem_map_of_mem (h.below _ hunion block hblock hid)
  simpa [blockIds] using (List.subperm_of_subset h.nodup hsub).length_le

/-- The error of a closure that is too large, raised when the union is. -/
def TooLarge (maxBlocks : Nat) (union : List CandidateBlock) (failure : RuntimeFailure) : Prop :=
  failure = .closureError "DEPENDENCY_CLOSURE_CAPACITY_EXCEEDED" ∧ maxBlocks < union.length

/-- Taking a companion in stays within the bound, or the union is too large. -/
theorem takeCompanion_within (hids : (blockIds available).Nodup)
    (hunion : ClosedOver available seeds {block | block ∈ union}) (h : Growing available seeds ids)
    (hlength : ids.length ≤ maxBlocks) {left right : CandidateBlock} (hleft : left ∈ available)
    (hactive : left.blockId ∈ ids) (hright : right ∈ available) :
    Ensures (TooLarge maxBlocks union)
      (fun next => Growing available seeds next ∧ ids <:+ next ∧ next.length ≤ maxBlocks)
      (takeCompanion maxBlocks left ids right) := by
  unfold takeCompanion
  split
  · exact .pure ⟨h, List.suffix_refl _, hlength⟩
  · next htake =>
      have hnew : right.blockId ∉ ids := fun hmem => htake (.inl hmem)
      have hcompanion : companions left right = true := by
        simpa using fun hnone => htake (.inr hnone)
      have hgrown := h.insert hids hleft hactive hright hcompanion
      have hmore : (ids.insert right.blockId).length = ids.length + 1 :=
        List.length_insert_of_not_mem hnew
      refine .bind (.require fun hfull => ⟨rfl, ?_⟩) fun _ hroom => .pure ⟨hgrown, ?_, ?_⟩
      · have hle := hgrown.length_le_union hunion
        omega
      · rw [List.insert_of_not_mem hnew]
        exact List.suffix_cons _ _
      · omega

/-- A pass stays within the bound, or the union is too large. -/
theorem closurePass_within (hids : (blockIds available).Nodup)
    (hunion : ClosedOver available seeds {block | block ∈ union}) (h : Growing available seeds ids)
    (hlength : ids.length ≤ maxBlocks) :
    Ensures (TooLarge maxBlocks union)
      (fun next => Growing available seeds next ∧ ids <:+ next ∧ next.length ≤ maxBlocks)
      (closurePass maxBlocks available ids) := by
  unfold closurePass
  refine (Ensures.forEach (fun rest next => Growing available seeds next ∧ ids <:+ next ∧
      next.length ≤ maxBlocks ∧ ∀ left ∈ rest, left ∈ available ∧ left.blockId ∈ ids)
    ?_ ⟨h, List.suffix_refl _, hlength, ?_⟩).mono fun next hnext => ⟨hnext.1, hnext.2.1, hnext.2.2.1⟩
  · rintro left rest next ⟨hnext, hsuffix, hwithin, hrest⟩
    obtain ⟨hleft, hactive⟩ := hrest left List.mem_cons_self
    refine (Ensures.forEach (fun others last => Growing available seeds last ∧ next <:+ last ∧
        last.length ≤ maxBlocks ∧ others ⊆ available) ?_
      ⟨hnext, List.suffix_refl _, hwithin, List.Subset.refl _⟩).mono fun last hlast =>
        ⟨hlast.1, hsuffix.trans hlast.2.1, hlast.2.2.1,
          fun other hother => hrest other (List.mem_cons_of_mem _ hother)⟩
    rintro right others last ⟨hlast, hgrown, hroom, hothers⟩
    refine (takeCompanion_within hids hunion hlast hroom hleft
      ((hsuffix.trans hgrown).subset hactive) (hothers List.mem_cons_self)).mono fun taken htaken => ?_
    exact ⟨htaken.1, hgrown.trans htaken.2.1, htaken.2.2,
      fun other hother => hothers (List.mem_cons_of_mem _ hother)⟩
  · intro left hleft
    simpa using List.mem_filter.mp hleft

/-- The loop stays within the bound, or the union is too large. -/
theorem closureLoop_within (hids : (blockIds available).Nodup)
    (hunion : ClosedOver available seeds {block | block ∈ union}) {fuel : Nat}
    (h : Growing available seeds ids) (hlength : ids.length ≤ maxBlocks) :
    Ensures (TooLarge maxBlocks union)
      (fun closed => Growing available seeds closed ∧ closed.length ≤ maxBlocks)
      (closureLoop maxBlocks available fuel ids) := by
  induction fuel generalizing ids with
  | zero => exact ⟨h, hlength⟩
  | succ fuel ih =>
      refine (closurePass_within hids hunion h hlength).bind fun next hnext => ?_
      obtain ⟨hgrown, -, hwithin⟩ := hnext
      split
      · exact .pure ⟨hgrown, hwithin⟩
      · exact ih hgrown hwithin

end Capacity

/-! ## The closure -/

section Closure

variable {selectedBlocks available : List CandidateBlock}

/-- The union of components holds the blocks it is made for. -/
theorem seed_mem_componentUnion {block : CandidateBlock} (hblock : block ∈ available)
    (hseed : block.blockId ∈ blockIds selectedBlocks ∨ block.required = true) :
    block ∈ componentUnion selectedBlocks available :=
  mem_componentUnion.mpr ⟨hblock, block, mem_component.mpr ⟨hblock, .refl⟩, hseed⟩

/-- A union of components is closed under companions. -/
theorem componentUnion_closed :
    CompanionClosed available (componentUnion selectedBlocks available) := by
  intro left hleft right hright hcompanion
  obtain ⟨hleft, seed, hcomponent, hseed⟩ := mem_componentUnion.mp hleft
  obtain ⟨hmem, hlinked⟩ := mem_component.mp hcomponent
  have hback : Linked available right seed :=
    .head ⟨hleft, companions_symm hcompanion⟩ hlinked
  exact mem_componentUnion.mpr ⟨hright, seed, mem_component.mpr ⟨hmem, hback⟩, hseed⟩

/-- The ids of the loop stay below the union of components. -/
theorem componentUnion_closedOver (hids : (blockIds available).Nodup) :
    ClosedOver available
      (blockIds selectedBlocks ++ blockIds (available.filter fun block => block.required))
      {block | block ∈ componentUnion selectedBlocks available} where
  seeded block hblock hseed := by
    refine seed_mem_componentUnion hblock ?_
    rcases List.mem_append.mp hseed with hselected | hrequired
    · exact .inl hselected
    · obtain ⟨same, hsame, hid⟩ := List.mem_map.mp hrequired
      obtain ⟨hmem, hsame⟩ := List.mem_filter.mp hsame
      obtain rfl : same = block := List.inj_on_of_nodup_map hids hmem hblock hid
      exact .inr hsame
  closed left _ hkeep right hright hcompanion :=
    componentUnion_closed left hkeep right hright hcompanion

/-- The least closure is the union of the components that hold a selected or a required block. -/
theorem LeastClosure.eq_componentUnion (hids : (blockIds available).Nodup)
    {closure : List CandidateBlock} (h : LeastClosure selectedBlocks available closure) :
    closure = componentUnion selectedBlocks available := by
  refine eq_of_sublists (List.Nodup.of_map _ hids) h.ordered (componentUnion_sublist _ _)
    fun block => ⟨fun hblock => ?_, fun hblock => ?_⟩
  · exact h.least {block | block ∈ componentUnion selectedBlocks available}
      (fun seed hseed hwhy => seed_mem_componentUnion hseed hwhy)
      (fun left _ hleft right => componentUnion_closed left hleft right) block hblock
  · obtain ⟨hblock, seed, hcomponent, hseed⟩ := mem_componentUnion.mp hblock
    obtain ⟨hmem, hlinked⟩ := mem_component.mp hcomponent
    refine h.closed.linked ?_ (hlinked.symm hblock)
    rcases hseed with hselected | hrequired
    · obtain ⟨chosen, hchosen, hid⟩ := List.mem_map.mp hselected
      obtain ⟨same, hsame, hsameId⟩ := List.mem_map.mp (h.selected chosen hchosen)
      obtain rfl : same = seed := List.inj_on_of_nodup_map hids (h.ordered.subset hsame) hmem
        (hsameId.trans hid)
      exact hsame
    · exact h.required seed hmem hrequired

/-- `close_dependency_closure` returns the union of the components that hold a selected or a required
block, and it raises the capacity error exactly when that union is larger than the bound. -/
theorem closeDependencyClosure_eq {maxBlocks : Nat} (hpositive : 1 ≤ maxBlocks)
    (hids : (blockIds available).Nodup)
    (hknown : ∀ block ∈ selectedBlocks, block.blockId ∈ blockIds available) :
    closeDependencyClosure selectedBlocks available maxBlocks =
      if (componentUnion selectedBlocks available).length ≤ maxBlocks then
        .ok (componentUnion selectedBlocks available)
      else .error (.closureError "DEPENDENCY_CLOSURE_CAPACITY_EXCEEDED") := by
  have hunion : ClosedOver available
      (blockIds selectedBlocks ++ blockIds (available.filter fun block => block.required))
      {block | block ∈ componentUnion selectedBlocks available} := componentUnion_closedOver hids
  have hstart := Growing.start hknown
  have hwithin : Ensures (TooLarge maxBlocks (componentUnion selectedBlocks available))
      (fun closure => closure.length ≤ maxBlocks)
      (closeDependencyClosure selectedBlocks available maxBlocks) := by
    unfold closeDependencyClosure
    refine .bind (.require fun hnot => absurd hpositive hnot) fun _ _ => ?_
    refine .bind (.require fun hnot => absurd hids hnot) fun _ _ => ?_
    refine .bind (.require fun hnot => absurd hknown hnot) fun _ _ => ?_
    refine .bind (.require fun hfull => ⟨rfl, ?_⟩) fun _ hroom => ?_
    · exact lt_of_lt_of_le (not_le.mp hfull) (hstart.length_le_union hunion)
    refine (closureLoop_within hids hunion hstart hroom).bind fun closed hclosed => .pure ?_
    obtain ⟨_, hclosed⟩ := hclosed
    refine le_trans ?_ hclosed
    have hsub : blockIds (available.filter fun block => block.blockId ∈ closed) ⊆ closed := by
      intro id hid
      obtain ⟨block, hblock, rfl⟩ := List.mem_map.mp hid
      exact of_decide_eq_true (List.mem_filter.mp hblock).2
    have hnodup : (blockIds (available.filter fun block => block.blockId ∈ closed)).Nodup :=
      hids.sublist (List.filter_sublist.map _)
    simpa [blockIds] using (List.subperm_of_subset hnodup hsub).length_le
  cases hclosure : closeDependencyClosure selectedBlocks available maxBlocks with
  | ok closure =>
      rw [hclosure] at hwithin
      obtain rfl := (closeDependencyClosure_least hclosure).eq_componentUnion hids
      have hroom : (componentUnion selectedBlocks available).length ≤ maxBlocks := hwithin
      rw [if_pos hroom]
  | error failure =>
      obtain ⟨rfl, hlarge⟩ := hwithin.error hclosure
      rw [if_neg (not_le.mpr hlarge)]

/-- A union of components depends on the selection through its ids. -/
theorem componentUnion_congr {left right : List CandidateBlock}
    (h : blockIds left = blockIds right) :
    componentUnion left available = componentUnion right available := by
  unfold componentUnion
  rw [h]

/-- A union of components, selected again, is the same union. -/
theorem componentUnion_idem (hids : (blockIds available).Nodup) :
    componentUnion (componentUnion selectedBlocks available) available =
      componentUnion selectedBlocks available := by
  refine eq_of_sublists (List.Nodup.of_map _ hids) (componentUnion_sublist _ _)
    (componentUnion_sublist _ _) fun block => ⟨fun hblock => ?_, fun hblock => ?_⟩
  · obtain ⟨hblock, seed, hcomponent, hseed⟩ := mem_componentUnion.mp hblock
    obtain ⟨hmem, hlinked⟩ := mem_component.mp hcomponent
    refine componentUnion_closed.linked ?_ (hlinked.symm hblock)
    rcases hseed with hselected | hrequired
    · obtain ⟨same, hsame, hid⟩ := List.mem_map.mp hselected
      obtain rfl : same = seed := List.inj_on_of_nodup_map hids
        ((componentUnion_sublist _ _).subset hsame) hmem hid
      exact hsame
    · exact seed_mem_componentUnion hmem (.inr hrequired)
  · exact seed_mem_componentUnion ((componentUnion_sublist _ _).subset hblock)
      (.inl (List.mem_map_of_mem hblock))

/-- A packed list is validated exactly when its ids are those of a union of components within the
bound. -/
theorem validateDependencyClosure_iff {maxBlocks : Nat} (hids : (blockIds available).Nodup)
    {packedBlocks : List CandidateBlock} :
    validateDependencyClosure packedBlocks available maxBlocks = true ↔
      1 ≤ maxBlocks ∧ packedBlocks.length ≤ maxBlocks ∧
        ∃ selectedBlocks, (∀ block ∈ selectedBlocks, block ∈ available) ∧
          blockIds packedBlocks = blockIds (componentUnion selectedBlocks available) := by
  have hlengths {left right : List CandidateBlock} (h : blockIds left = blockIds right) :
      left.length = right.length := by
    simpa [blockIds] using congrArg List.length h
  unfold validateDependencyClosure
  constructor
  · intro h
    split at h
    · cases h
    · next closure hclosure =>
        have hsame : blockIds packedBlocks = blockIds closure := of_decide_eq_true h
        have hunion := (closeDependencyClosure_least hclosure).eq_componentUnion hids
        obtain ⟨_, hpositive, hrest⟩ := bind_ok.mp hclosure
        obtain ⟨_, -, hrest⟩ := bind_ok.mp hrest
        obtain ⟨_, hknown, -⟩ := bind_ok.mp hrest
        replace hpositive := require_ok.mp hpositive
        rw [closeDependencyClosure_eq hpositive hids (require_ok.mp hknown), ← hunion] at hclosure
        split at hclosure
        · next hroom =>
            refine ⟨hpositive, (hlengths hsame).trans_le hroom, closure, fun block hblock => ?_, ?_⟩
            · rw [hunion] at hblock
              exact (componentUnion_sublist _ _).subset hblock
            · rw [hsame, ← componentUnion_congr hsame, ← hunion]
        · cases hclosure
  · rintro ⟨hpositive, hroom, selectedBlocks, -, hsame⟩
    have hknown : ∀ block ∈ packedBlocks, block.blockId ∈ blockIds available := by
      intro block hblock
      have hid : block.blockId ∈ blockIds packedBlocks := List.mem_map_of_mem hblock
      rw [hsame] at hid
      exact ((componentUnion_sublist _ _).map _).subset hid
    have hunion : componentUnion packedBlocks available =
        componentUnion selectedBlocks available :=
      (componentUnion_congr hsame).trans (componentUnion_idem hids)
    rw [closeDependencyClosure_eq hpositive hids hknown, hunion,
      if_pos ((hlengths hsame).symm.trans_le hroom)]
    exact decide_eq_true hsame

/-- Blocks of a universe with distinct ids are the same when their ids are. -/
theorem eq_of_blockIds_eq {left right : List CandidateBlock} (hids : (blockIds available).Nodup)
    (hleft : ∀ block ∈ left, block ∈ available) (hright : ∀ block ∈ right, block ∈ available)
    (h : blockIds left = blockIds right) : left = right := by
  induction left generalizing right with
  | nil => simpa [blockIds] using h.symm
  | cons block rest ih =>
      cases right with
      | nil => simp [blockIds] at h
      | cons other others =>
          obtain ⟨hid, hids'⟩ := List.cons_eq_cons.mp h
          obtain rfl : block = other := List.inj_on_of_nodup_map hids
            (hleft block List.mem_cons_self) (hright other List.mem_cons_self) hid
          rw [ih (fun a ha => hleft a (List.mem_cons_of_mem _ ha))
            (fun a ha => hright a (List.mem_cons_of_mem _ ha)) hids']

end Closure

end AstrContinuum
