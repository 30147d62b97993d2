import Mathlib.Algebra.Order.BigOperators.Group.List
import Mathlib.Data.List.Perm.Subperm
import AstrContinuum.Guarantees.Accounting
import AstrContinuum.Guarantees.Live

/-!
# When required input does not fit

`required_input_exceeds_budget_iff`: with a subadditive counter, contiguous required raw events and no
dependency on them, an assembly finds that required input exceeds the budget exactly when the due costs
exceed the input budget, or the groups with a required block do not fit into the rest by the estimate.

The cost that a pass carries along is the estimate of what it has chosen (`Holds`). What the emergency
pass chooses are groups with a required block, so while their union fits nothing that is required is
left out (`Keeps`).
-/

namespace AstrContinuum

open Checked Effects

variable {σ : Type}

/-! ## Estimates -/

/-- The estimate of some blocks in a pass. -/
def SelectionContext.estimated (context : SelectionContext) (blocks : List CandidateBlock) : Nat :=
  estimatedProjectionCost context.counts context.separatorCost blocks

namespace SelectionContext

variable {context : SelectionContext} {left right : List CandidateBlock}

/-- The estimate without a case for the empty list. -/
theorem estimated_eq (context : SelectionContext) (blocks : List CandidateBlock) :
    context.estimated blocks =
      context.counts.total blocks + context.separatorCost * (blocks.length - 1) := by
  unfold estimated estimatedProjectionCost
  split
  · next hnil => simp [hnil, TokenCounts.total]
  · rfl

/-- The estimate does not depend on the order. -/
theorem estimated_perm (h : left.Perm right) : context.estimated left = context.estimated right := by
  rw [estimated_eq, estimated_eq, h.length_eq, TokenCounts.total, TokenCounts.total,
    (h.map context.counts.cost).sum_eq]

/-- Fewer blocks have a smaller estimate. -/
theorem estimated_mono (h : left.Subperm right) :
    context.estimated left ≤ context.estimated right := by
  obtain ⟨same, hperm, hsub⟩ := h
  rw [← estimated_perm hperm, estimated_eq, estimated_eq]
  have htotal : context.counts.total same ≤ context.counts.total right :=
    (hsub.map context.counts.cost).sum_le_sum fun _ _ => Nat.zero_le _
  have hlength := Nat.mul_le_mul_left context.separatorCost
    (Nat.sub_le_sub_right hsub.length_le 1)
  omega

/-- The estimate of two parts, with a separator between them. -/
theorem estimated_append (hleft : left ≠ []) (hright : right ≠ []) :
    context.estimated (left ++ right) =
      context.estimated left + context.estimated right + context.separatorCost := by
  obtain ⟨first, left, rfl⟩ := List.exists_cons_of_ne_nil hleft
  obtain ⟨second, right, rfl⟩ := List.exists_cons_of_ne_nil hright
  simp only [estimated_eq, TokenCounts.total, List.map_append, List.sum_append, List.length_append,
    List.length_cons, Nat.add_sub_cancel]
  have hcount : left.length + 1 + (right.length + 1) - 1 = left.length + right.length + 1 := by
    omega
  rw [hcount, Nat.mul_succ, Nat.mul_add]
  omega

end SelectionContext

/-! ## The cost that a pass carries along -/

namespace SelectionState

variable {context : SelectionContext} {state : SelectionState}
  {candidates chosen group : List CandidateBlock}

/-- The variables of a pass hold the ids, the number and the estimate of the blocks chosen so far, and
these fit. -/
structure Holds (context : SelectionContext) (candidates chosen : List CandidateBlock)
    (state : SelectionState) : Prop where
  subset : chosen ⊆ candidates
  ids : state.selectedIds = blockIds chosen
  count : state.selectedCount = chosen.length
  cost : state.selectedCost = context.estimated chosen
  within : context.estimated chosen ≤ context.bAc

/-- Nothing is chosen at the start. -/
theorem Holds.start : Holds context candidates [] {} :=
  ⟨by simp, rfl, rfl, by simp [SelectionContext.estimated_eq, TokenCounts.total],
    by simp [SelectionContext.estimated_eq, TokenCounts.total]⟩

/-- The cost with a further group is the estimate with the group. -/
theorem Holds.cost_append (h : Holds context candidates chosen state) (hgroup : group ≠ []) :
    state.selectedCost + state.additionalCost context group =
      context.estimated (chosen ++ group) := by
  unfold additionalCost
  rw [h.cost, h.count, ← SelectionContext.estimated_eq]
  by_cases hchosen : chosen = []
  · simp [hchosen, SelectionContext.estimated_eq, TokenCounts.total]
  · rw [SelectionContext.estimated_append hchosen hgroup, if_pos (by simpa using hchosen)]
    omega

/-- A group that fits is chosen. -/
theorem Holds.select (h : Holds context candidates chosen state) (hgroup : group ≠ [])
    (hsub : group ⊆ candidates)
    (hfits : state.selectedCost + state.additionalCost context group ≤ context.bAc) :
    Holds context candidates (chosen ++ group) (state.select context group) where
  subset := List.append_subset.mpr ⟨h.subset, hsub⟩
  ids := by
    show state.selectedIds ++ blockIds group = _
    rw [h.ids, blockIds, blockIds, blockIds, List.map_append]
  count := by
    show state.selectedCount + group.length = _
    rw [h.count, List.length_append]
  cost := h.cost_append hgroup
  within := h.cost_append hgroup ▸ hfits

/-- Handling and rejecting blocks changes nothing that is chosen. -/
theorem Holds.reject (h : Holds context candidates chosen state) (handled : List CandidateBlock)
    (rejected : List CandidateBlock) (reason : String) :
    Holds context candidates chosen ((state.handle handled).reject context rejected reason) :=
  ⟨h.subset, h.ids, h.count, h.cost, h.within⟩

/-- The group of a candidate is not empty, and made of candidates. -/
theorem group_spec {groups : List (List CandidateBlock)} (hgroups : Components candidates groups)
    (hgroup : group ∈ groups) : group ≠ [] ∧ group ⊆ candidates :=
  ⟨hgroups.nonempty group hgroup, (hgroups.ordered group hgroup).subset⟩

/-- An iteration of the normal pass carries the cost along. -/
theorem Holds.normalStep (h : Holds context candidates chosen state)
    (hgroups : Components candidates context.groups) {candidate : CandidateBlock}
    (hcandidate : candidate ∈ candidates) :
    ∃ chosen, Holds context candidates chosen (state.normalStep context candidate) := by
  obtain ⟨hnonempty, hsub⟩ := group_spec hgroups (groupOf_mem hgroups hcandidate).1
  unfold SelectionState.normalStep
  dsimp only
  split_ifs with hhandled hfits
  · exact ⟨chosen, h⟩
  · exact ⟨_, Holds.select ⟨h.subset, h.ids, h.count, h.cost, h.within⟩ hnonempty hsub
      (of_decide_eq_true hfits)⟩
  · exact ⟨chosen, h.subset, h.ids, h.count, h.cost, h.within⟩

/-- The treatment of a group in the emergency pass carries the cost along. -/
theorem Holds.emergencyGroup (h : Holds context candidates chosen state)
    (hgroups : Components candidates context.groups) (hgroup : group ∈ context.groups) :
    ∃ chosen, Holds context candidates chosen (state.emergencyGroup context group) := by
  obtain ⟨hnonempty, hsub⟩ := group_spec hgroups hgroup
  unfold SelectionState.emergencyGroup
  dsimp only
  split_ifs with hoptional hfits
  · exact ⟨chosen, h.reject _ _ _⟩
  · exact ⟨_, Holds.select ⟨h.subset, h.ids, h.count, h.cost, h.within⟩ hnonempty hsub
      (of_decide_eq_true hfits)⟩
  · exact ⟨chosen, h.reject _ _ _⟩

/-- Raw blocks that fit together are chosen one after the other. -/
theorem Holds.selectRaw (h : Holds context candidates chosen state) {raw : List CandidateBlock}
    (hraw : raw ⊆ candidates) (hfits : context.estimated (chosen ++ raw) ≤ context.bAc) :
    Holds context candidates (chosen ++ raw)
      (raw.foldl (fun state candidate => state.selectRaw context candidate) state) := by
  induction raw generalizing state chosen with
  | nil => simpa using h
  | cons block rest ih =>
      have hblock := h.cost_append (List.cons_ne_nil block [])
      rw [← List.singleton_append, ← List.append_assoc] at hfits ⊢
      refine ih ⟨?_, ?_, ?_, ?_, ?_⟩ (fun other hother => hraw (List.mem_cons_of_mem _ hother)) hfits
      · exact List.append_subset.mpr ⟨h.subset, by simpa using hraw List.mem_cons_self⟩
      · show state.selectedIds ++ [block.blockId] = _
        rw [h.ids, blockIds, blockIds, List.map_append, List.map_singleton]
      · show state.selectedCount + 1 = _
        rw [h.count, List.length_append, List.length_singleton]
      · rw [← hblock]
        simp only [SelectionState.selectRaw, additionalCost, TokenCounts.total, List.map_cons,
          List.map_nil, List.sum_cons, List.sum_nil, List.length_singleton, Nat.sub_self,
          Nat.mul_zero]
        omega
      · exact (SelectionContext.estimated_mono (List.sublist_append_left _ _).subperm).trans hfits

/-- The blocks chosen so far are the selected ones. -/
theorem Holds.perm (h : Holds context candidates chosen state)
    (haccounts : Accounts context candidates state) (hnodup : (blockIds candidates).Nodup) :
    chosen.Perm (state.selected candidates) := by
  have hids : state.selectedIds.Nodup :=
    (List.nodup_append.mp (haccounts.balanced.nodup_iff.mpr haccounts.nodup)).1
  rw [h.ids] at hids
  refine (List.perm_ext_iff_of_nodup hids.of_map
    (hnodup.of_map.sublist List.filter_sublist)).mpr fun block => ?_
  show block ∈ chosen ↔ block ∈ candidates.filter _
  rw [List.mem_filter, decide_eq_true_eq, h.ids]
  refine ⟨fun hblock => ⟨h.subset hblock, blockId_mem hblock⟩, fun hblock => ?_⟩
  obtain ⟨same, hsame, hid⟩ := List.mem_map.mp hblock.2
  rwa [eq_of_blockId hnodup (h.subset hsame) hblock.1 hid] at hsame

/-- The estimate of the critical blocks with a suffix is an estimate. -/
theorem suffixEstimate_eq (context : SelectionContext) (critical suffix : List CandidateBlock) :
    suffixEstimate context critical suffix = context.estimated (critical ++ suffix) := by
  rw [SelectionContext.estimated_eq, TokenCounts.total, List.map_append, List.sum_append,
    List.length_append, suffixEstimate]
  split_ifs with hzero
  · rfl
  · simp only [ne_eq, not_not] at hzero
    simp [hzero, TokenCounts.total]

/-- The chosen suffix fits, unless it is empty. -/
theorem longestRawSuffix_fits (context : SelectionContext) (critical rawTail : List CandidateBlock) :
    longestRawSuffix context critical rawTail = [] ∨
      context.estimated (critical ++ longestRawSuffix context critical rawTail) ≤ context.bAc := by
  unfold longestRawSuffix
  cases hfound : rawTail.tails.find? fun suffix =>
      decide (suffixEstimate context critical suffix ≤ context.bAc) with
  | none => exact .inl rfl
  | some suffix =>
      right
      rw [Option.getD_some, ← suffixEstimate_eq]
      simpa using List.find?_some hfound

/-- The emergency pass over some groups carries the cost along. -/
theorem Holds.emergencyGroups (h : ∃ chosen, Holds context candidates chosen state)
    (hgroups : Components candidates context.groups) {groups : List (List CandidateBlock)}
    (hmem : ∀ group ∈ groups, group ∈ context.groups) :
    ∃ chosen, Holds context candidates chosen
      (groups.foldl (fun state group => state.emergencyGroup context group) state) := by
  refine List.foldlRecOn
    (motive := fun state : SelectionState => ∃ chosen, Holds context candidates chosen state) _ _ h ?_
  rintro state ⟨chosen, h⟩ group hgroup
  exact h.emergencyGroup hgroups (hmem group hgroup)

/-- The emergency pass over a raw slot carries the cost along. -/
theorem Holds.emergencyRawSlot (h : Holds context candidates chosen state)
    (haccounts : Accounts context candidates state)
    (hgroups : Components candidates context.groups) (hnodup : (blockIds candidates).Nodup)
    (slot : RuntimeSlot) :
    ∃ chosen, Holds context candidates chosen (state.emergencyRawSlot context candidates slot) := by
  have hslot : ∀ block ∈ state.slotCandidates candidates slot, block ∈ candidates :=
    fun block hblock => List.mem_of_mem_filter hblock
  obtain ⟨chosen, hnext⟩ := Holds.emergencyGroups ⟨chosen, h⟩ hgroups fun group hgroup =>
    (atomicGroups_spec hgroups hslot).1 group hgroup
  have hperm := hnext.perm (haccounts.atomicGroups hgroups hnodup slot) hnodup
  unfold SelectionState.emergencyRawSlot
  dsimp only
  generalize (atomicGroups context (state.slotCandidates candidates slot)).foldl
    (fun state group => state.emergencyGroup context group) state = next at hnext hperm ⊢
  have hsub := longestRawSuffix_sublist context (next.selected candidates)
    (next.unhandled (state.slotCandidates candidates slot))
  refine ⟨_, Holds.reject (hnext.selectRaw (fun block hblock => ?_) ?_) _ _ _⟩
  · exact hslot block (List.mem_of_mem_filter (hsub.subset hblock))
  · rw [SelectionContext.estimated_perm (hperm.append_right _)]
    rcases longestRawSuffix_fits context (next.selected candidates)
      (contiguousRawTail (next.unhandled (state.slotCandidates candidates slot))) with hnil | hfits
    · rw [hnil, List.append_nil, ← SelectionContext.estimated_perm hperm]
      exact hnext.within
    · exact hfits

/-- The emergency pass over one of the other slots carries the cost along. -/
theorem Holds.emergencySlot (h : ∃ chosen, Holds context candidates chosen state)
    (hgroups : Components candidates context.groups) (slot : RuntimeSlot) :
    ∃ chosen, Holds context candidates chosen (state.emergencySlot context candidates slot) := by
  refine List.foldlRecOn
    (motive := fun state : SelectionState => ∃ chosen, Holds context candidates chosen state) _ _ h ?_
  rintro state ⟨chosen, h⟩ block hblock
  split_ifs
  · exact ⟨chosen, h⟩
  · exact h.emergencyGroup hgroups (groupOf_mem hgroups (List.mem_of_mem_filter hblock)).1

end SelectionState

/-- What either pass selects fits by the estimate. -/
theorem selection_within {context : SelectionContext} {candidates : List CandidateBlock}
    (hgroups : Components candidates context.groups) (hnodup : (blockIds candidates).Nodup) :
    ∀ last ∈ [normalSelection context candidates, emergencySelection context candidates],
      context.estimated (last.selected candidates) ≤ context.bAc := by
  have hnormal : ∃ chosen, SelectionState.Holds context candidates chosen
      (normalSelection context candidates) := by
    refine List.foldlRecOn (motive := fun state : SelectionState =>
      ∃ chosen, SelectionState.Holds context candidates chosen state) _ _ ⟨[], .start⟩ ?_
    rintro state ⟨chosen, h⟩ candidate hcandidate
    exact h.normalStep hgroups hcandidate
  have hemergency : SelectionState.Accounts context candidates
        (emergencySelection context candidates) ∧
      ∃ chosen, SelectionState.Holds context candidates chosen
        (emergencySelection context candidates) := by
    refine List.foldlRecOn (motive := fun state : SelectionState =>
      SelectionState.Accounts context candidates state ∧
        ∃ chosen, SelectionState.Holds context candidates chosen state) _ _
      ⟨.start, [], .start⟩ ?_
    rintro state ⟨haccounts, chosen, h⟩ slot -
    split_ifs
    · exact ⟨(haccounts.emergencyRawSlot hgroups hnodup slot).1,
        h.emergencyRawSlot haccounts hgroups hnodup slot⟩
    · exact ⟨(haccounts.emergencySlot hgroups hnodup slot).1,
        SelectionState.Holds.emergencySlot ⟨chosen, h⟩ hgroups slot⟩
  intro last hlast
  have haccounts := (selection_accounts hgroups hnodup last hlast).1
  obtain ⟨chosen, h⟩ : ∃ chosen, SelectionState.Holds context candidates chosen last := by
    rcases List.mem_cons.mp hlast with rfl | hlast
    · exact hnormal
    · obtain rfl := List.mem_singleton.mp hlast
      exact hemergency.2
  rw [← SelectionContext.estimated_perm (h.perm haccounts hnodup)]
  exact h.within

/-- What is selected by counts fits by the estimate. -/
theorem selectByCounts_within {context : SelectionContext} {candidates : List CandidateBlock}
    (hgroups : Components candidates context.groups) (hnodup : (blockIds candidates).Nodup) :
    context.estimated (selectByCounts context candidates).2.1 ≤ context.bAc := by
  have hwithin := selection_within hgroups hnodup
  unfold selectByCounts
  dsimp only
  split_ifs
  · exact hwithin _ (List.mem_cons_of_mem _ List.mem_cons_self)
  · exact hwithin _ List.mem_cons_self

/-! ## The required groups -/

/-- The union of the groups that contain a required block. -/
def requiredUnion (groups : List (List CandidateBlock)) (candidates : List CandidateBlock) :
    List CandidateBlock :=
  candidates.filter fun block => groups.any fun group =>
    (group.any fun other => other.required) && decide (block.blockId ∈ blockIds group)

/-- A block of the union is in a group with a required block. -/
theorem mem_requiredUnion {groups : List (List CandidateBlock)} {candidates : List CandidateBlock}
    {block : CandidateBlock} :
    block ∈ requiredUnion groups candidates ↔ block ∈ candidates ∧ ∃ group ∈ groups,
      (group.any fun other => other.required) = true ∧ block.blockId ∈ blockIds group := by
  simp only [requiredUnion, List.mem_filter, List.any_eq_true, Bool.and_eq_true,
    decide_eq_true_eq]

/-- A group of blocks of the union has a required block. -/
theorem required_of_requiredUnion {groups : List (List CandidateBlock)}
    {candidates group : List CandidateBlock} (hgroups : Components candidates groups)
    (hnodup : (blockIds candidates).Nodup) (hgroup : group ∈ groups) {block : CandidateBlock}
    (hblock : block ∈ requiredUnion groups candidates) (hid : block.blockId ∈ blockIds group) :
    (group.any fun other => other.required) = true := by
  obtain ⟨-, found, hfound, hrequired, hmem⟩ := mem_requiredUnion.mp hblock
  obtain ⟨other, hother, hrequired⟩ := List.any_eq_true.mp hrequired
  have hotherId := hgroups.same_ids hnodup hfound hgroup hmem hid (blockId_mem hother)
  obtain ⟨same, hsame, hsameId⟩ := List.mem_map.mp hotherId
  obtain rfl := eq_of_blockId hnodup ((hgroups.ordered group hgroup).subset hsame)
    ((hgroups.ordered found hfound).subset hother) hsameId
  exact List.any_eq_true.mpr ⟨same, hsame, hrequired⟩

namespace SelectionState

variable {context : SelectionContext} {state : SelectionState}
  {candidates chosen group : List CandidateBlock}

/-- The emergency pass selects blocks of required groups only, and all of those that it has handled. -/
structure Keeps (context : SelectionContext) (candidates : List CandidateBlock)
    (state : SelectionState) : Prop where
  accounts : Accounts context candidates state
  holds : ∃ chosen, Holds context candidates chosen state
  selected : ∀ id ∈ state.selectedIds, id ∈ blockIds (requiredUnion context.groups candidates)
  required : ∀ block ∈ requiredUnion context.groups candidates, block.blockId ∈ state.handledIds →
    block.blockId ∈ state.selectedIds

/-- Further blocks of required groups fit beside what is selected, when all of them fit together. -/
theorem Keeps.estimated_le (h : Keeps context candidates state)
    (hnodup : (blockIds candidates).Nodup) (hchosen : Holds context candidates chosen state)
    {blocks : List CandidateBlock} (hblocks : blocks ⊆ requiredUnion context.groups candidates)
    (hids : (blockIds blocks).Nodup) (hnew : ∀ id ∈ blockIds blocks, id ∉ state.handledIds) :
    context.estimated (chosen ++ blocks) ≤
      context.estimated (requiredUnion context.groups candidates) := by
  have hselected : state.selectedIds.Nodup ∧ state.selectedIds ⊆ state.handledIds :=
    ⟨(List.nodup_append.mp (h.accounts.balanced.nodup_iff.mpr h.accounts.nodup)).1,
      fun id hid => h.accounts.balanced.subset (List.mem_append_left _ hid)⟩
  rw [hchosen.ids] at hselected
  refine SelectionContext.estimated_mono (List.Nodup.subperm ?_ ?_)
  · have hall : (blockIds (chosen ++ blocks)).Nodup := by
      rw [blockIds, List.map_append]
      exact nodup_append_new hselected.1 hids fun id hid hold => hnew id hid (hselected.2 hold)
    exact hall.of_map
  · refine List.append_subset.mpr ⟨fun block hblock => ?_, hblocks⟩
    have hid := h.selected block.blockId (hchosen.ids ▸ blockId_mem hblock)
    obtain ⟨same, hsame, hsameId⟩ := List.mem_map.mp hid
    rwa [eq_of_blockId hnodup (mem_requiredUnion.mp hsame).1 (hchosen.subset hblock) hsameId]
      at hsame

/-- The treatment of a group in the emergency pass leaves nothing out that is required, while all that is
required fits. -/
theorem Keeps.emergencyGroup (h : Keeps context candidates state)
    (hgroups : Components candidates context.groups) (hnodup : (blockIds candidates).Nodup)
    (hwithin : context.estimated (requiredUnion context.groups candidates) ≤ context.bAc)
    (hgroup : group ∈ context.groups) (hnew : ∀ id ∈ blockIds group, id ∉ state.handledIds) :
    Keeps context candidates (state.emergencyGroup context group) := by
  obtain ⟨chosen, hchosen⟩ := h.holds
  obtain ⟨hnonempty, hsub⟩ := group_spec hgroups hgroup
  have hunion : (group.any fun other => other.required) = true →
      group ⊆ requiredUnion context.groups candidates :=
    fun hrequired block hblock =>
      mem_requiredUnion.mpr ⟨hsub hblock, group, hgroup, hrequired, blockId_mem hblock⟩
  have hfits : (group.any fun other => other.required) = true →
      (state.handle group).fits context group = true := by
    intro hrequired
    refine decide_eq_true ?_
    show state.selectedCost + state.additionalCost context group ≤ context.bAc
    rw [hchosen.cost_append hnonempty]
    exact (h.estimated_le hnodup hchosen (hunion hrequired) (hgroups.ids hnodup hgroup).1
      hnew).trans hwithin
  refine ⟨h.accounts.emergencyGroup hgroups hnodup hgroup hnew,
    hchosen.emergencyGroup hgroups hgroup, fun id hid => ?_, fun block hblock hid => ?_⟩
  · unfold SelectionState.emergencyGroup at hid
    dsimp only at hid
    split_ifs at hid with hoptional hfit
    · exact h.selected id hid
    · rcases List.mem_append.mp hid with hid | hid
      · exact h.selected id hid
      · obtain ⟨block, hblock, rfl⟩ := List.mem_map.mp hid
        exact blockId_mem (hunion (by simpa using hoptional) hblock)
    · exact h.selected id hid
  · rw [emergencyGroup_handled] at hid
    have hnewRequired := required_of_requiredUnion hgroups hnodup hgroup hblock
    unfold SelectionState.emergencyGroup
    dsimp only
    split_ifs with hoptional hfit
    · refine h.required block hblock ((List.mem_append.mp hid).resolve_right fun hid => ?_)
      rw [hnewRequired hid] at hoptional
      cases hoptional
    · rcases List.mem_append.mp hid with hid | hid
      · exact List.mem_append_left _ (h.required block hblock hid)
      · exact List.mem_append_right _ hid
    · exact absurd (hfits (by simpa using hoptional)) hfit

/-- The emergency pass over one of the other slots leaves nothing out that is required. -/
theorem Keeps.emergencySlot (h : Keeps context candidates state)
    (hgroups : Components candidates context.groups) (hnodup : (blockIds candidates).Nodup)
    (hwithin : context.estimated (requiredUnion context.groups candidates) ≤ context.bAc)
    (slot : RuntimeSlot) :
    Keeps context candidates (state.emergencySlot context candidates slot) := by
  refine List.foldlRecOn
    (motive := fun state : SelectionState => Keeps context candidates state) _ _ h ?_
  intro state h block hblock
  obtain ⟨hgroup, hid⟩ := groupOf_mem hgroups (List.mem_of_mem_filter hblock)
  split_ifs with hhandled
  · exact h
  · exact h.emergencyGroup hgroups hnodup hwithin hgroup
      (h.accounts.unhandled hgroups hnodup hgroup hid hhandled)

end SelectionState

/-! ## Raw events -/

/-- Raw blocks have events, and each ends where the next one starts. -/
def ContiguousBlocks (blocks : List CandidateBlock) : Prop :=
  (∀ block ∈ blocks, block.eventSequence ≠ none) ∧ blocks.IsChain fun previous current =>
    previous.eventSequence.map (· + previous.sourceEventIds.length) = current.eventSequence

/-- The candidates have raw events as retrieval makes them: those of the delta are required and
contiguous, there are no recent ones, and no group joins one of the delta to another block. -/
structure RawAsRetrieved (groups : List (List CandidateBlock)) (candidates : List CandidateBlock) :
    Prop where
  contiguous : ContiguousBlocks (candidates.filter fun block => block.slot = .rawDelta)
  required : ∀ block ∈ candidates, block.slot = .rawDelta → block.required = true
  recent : ∀ block ∈ candidates, block.slot ≠ .recentRaw
  alone : ∀ group ∈ groups, ∀ block ∈ group, block.slot = .rawDelta → group.length = 1

/-- The candidates of a raw slot are contiguous, and those of the delta. -/
theorem RawAsRetrieved.rawSlot {groups : List (List CandidateBlock)}
    {candidates : List CandidateBlock} (h : RawAsRetrieved groups candidates) {slot : RuntimeSlot}
    (hslot : slot.isRaw = true) :
    ContiguousBlocks (candidates.filter fun block => block.slot = slot) ∧
      ∀ block ∈ candidates, block.slot = slot → block.slot = .rawDelta := by
  rcases of_decide_eq_true hslot with rfl | rfl
  · exact ⟨h.contiguous, fun _ _ hslot => hslot⟩
  · have hnil : (candidates.filter fun block => block.slot = .recentRaw) = [] :=
      List.filter_eq_nil_iff.mpr fun block hblock => by simpa using h.recent block hblock
    rw [hnil]
    exact ⟨⟨by simp, .nil⟩, fun block hblock hsame => absurd hsame (h.recent block hblock)⟩

/-- The tail of contiguous blocks is all of them. -/
theorem contiguousFrom_eq {tail older : List CandidateBlock}
    (h : (older.reverse ++ tail).IsChain fun previous current =>
      previous.eventSequence.map (· + previous.sourceEventIds.length) = current.eventSequence) :
    contiguousFrom tail older = older.reverse ++ tail := by
  induction older generalizing tail with
  | nil => rfl
  | cons previous older ih =>
      rw [List.reverse_cons, List.append_assoc, List.singleton_append] at h ⊢
      cases tail with
      | nil => exact ih h
      | cons current rest =>
          have hstep := List.isChain_cons_cons.mp (List.isChain_append.mp h).2.1
          rw [contiguousFrom, if_pos hstep.1]
          exact ih h

/-- The tail of contiguous blocks is all of them. -/
theorem contiguousRawTail_eq {blocks : List CandidateBlock} (h : ContiguousBlocks blocks) :
    contiguousRawTail blocks = blocks := by
  have hall : (blocks.filter fun candidate => candidate.eventSequence ≠ none) = blocks :=
    List.filter_eq_self.mpr fun block hblock => by simpa using h.1 block hblock
  rw [contiguousRawTail, hall, contiguousFrom_eq (by simpa using h.2), List.reverse_reverse,
    List.append_nil]

/-- The whole tail is taken when it fits. -/
theorem longestRawSuffix_eq {context : SelectionContext} {critical rawTail : List CandidateBlock}
    (h : context.estimated (critical ++ rawTail) ≤ context.bAc) :
    longestRawSuffix context critical rawTail = rawTail := by
  rw [← SelectionState.suffixEstimate_eq] at h
  cases rawTail with
  | nil => simp [longestRawSuffix, h]
  | cons block rest => simp [longestRawSuffix, h]

/-- The groups of a slot whose candidates are alone are not atomic. -/
theorem atomicGroups_eq_nil {context : SelectionContext} {blocks : List CandidateBlock}
    (h : ∀ block ∈ blocks, (groupOf context.groups block).length = 1) :
    SelectionState.atomicGroups context blocks = [] := by
  refine List.foldlRecOn (motive := fun found : List (List CandidateBlock) => found = []) _ _ rfl ?_
  rintro _ rfl block hblock
  simp [h block hblock]

/-- A candidate is in its group. -/
theorem mem_groupOf {candidates : List CandidateBlock} {groups : List (List CandidateBlock)}
    (hgroups : Components candidates groups) (hnodup : (blockIds candidates).Nodup)
    {candidate : CandidateBlock} (hcandidate : candidate ∈ candidates) :
    candidate ∈ groupOf groups candidate := by
  obtain ⟨hgroup, hid⟩ := groupOf_mem hgroups hcandidate
  obtain ⟨same, hsame, hsameId⟩ := List.mem_map.mp hid
  rwa [eq_of_blockId hnodup ((hgroups.ordered _ hgroup).subset hsame) hcandidate hsameId] at hsame

namespace SelectionState

variable {context : SelectionContext} {state : SelectionState} {candidates : List CandidateBlock}

/-- While all that is required fits, a raw slot of which nothing is handled is selected whole. -/
theorem Keeps.emergencyRawSlot_ids (h : Keeps context candidates state)
    (hgroups : Components candidates context.groups) (hnodup : (blockIds candidates).Nodup)
    (hwithin : context.estimated (requiredUnion context.groups candidates) ≤ context.bAc)
    (hraw : RawAsRetrieved context.groups candidates) {slot : RuntimeSlot}
    (hisRaw : slot.isRaw = true)
    (hnew : ∀ block ∈ candidates, block.slot = slot → block.blockId ∉ state.handledIds) :
    let raw := candidates.filter fun block => block.slot = slot
    let next := state.emergencyRawSlot context candidates slot
    raw ⊆ requiredUnion context.groups candidates ∧
      next.selectedIds = state.selectedIds ++ blockIds raw ∧
      next.handledIds = state.handledIds ++ blockIds raw := by
  intro raw next
  obtain ⟨hcontiguous, hdelta⟩ := hraw.rawSlot hisRaw
  have hmem : ∀ block ∈ raw, block ∈ candidates ∧ block.slot = slot := by
    intro block hblock
    obtain ⟨hblock, hslot⟩ := List.mem_filter.mp hblock
    exact ⟨hblock, of_decide_eq_true hslot⟩
  have hunion : raw ⊆ requiredUnion context.groups candidates := by
    intro block hblock
    obtain ⟨hblock, hslot⟩ := hmem block hblock
    obtain ⟨hgroup, hid⟩ := groupOf_mem hgroups hblock
    exact mem_requiredUnion.mpr ⟨hblock, _, hgroup, List.any_eq_true.mpr ⟨block,
      mem_groupOf hgroups hnodup hblock, hraw.required block hblock (hdelta block hblock hslot)⟩, hid⟩
  have hslot : state.slotCandidates candidates slot = raw := by
    refine List.filter_congr fun block hblock => ?_
    by_cases hsame : block.slot = slot
    · simp [hsame, hnew block hblock hsame]
    · simp [hsame]
  have hatomic : SelectionState.atomicGroups context raw = [] :=
    atomicGroups_eq_nil fun block hblock => by
      obtain ⟨hblock, hslot⟩ := hmem block hblock
      exact hraw.alone _ (groupOf_mem hgroups hblock).1 block (mem_groupOf hgroups hnodup hblock)
        (hdelta block hblock hslot)
  have hsingle : state.unhandled raw = raw := by
    refine List.filter_eq_self.mpr fun block hblock => ?_
    obtain ⟨hblock, hslot⟩ := hmem block hblock
    simpa using hnew block hblock hslot
  -- The whole tail fits, since it is a part of what is required.
  have htail : longestRawSuffix context (state.selected candidates) (contiguousRawTail raw) = raw := by
    rw [contiguousRawTail_eq hcontiguous]
    obtain ⟨chosen, hchosen⟩ := h.holds
    refine longestRawSuffix_eq ?_
    rw [← SelectionContext.estimated_perm ((hchosen.perm h.accounts hnodup).append_right raw)]
    refine (h.estimated_le hnodup hchosen hunion (hnodup.sublist (List.filter_sublist.map _))
      fun id hid => ?_).trans hwithin
    obtain ⟨block, hblock, rfl⟩ := List.mem_map.mp hid
    exact hnew block (hmem block hblock).1 (hmem block hblock).2
  have hids := selectRaw_fold context state raw
  refine ⟨hunion, ?_⟩
  show (SelectionState.emergencyRawSlot context state candidates slot).selectedIds = _ ∧
    (SelectionState.emergencyRawSlot context state candidates slot).handledIds = _
  simp only [SelectionState.emergencyRawSlot, hslot, hatomic, List.foldl_nil, hsingle, htail]
  exact ⟨hids.1, congrArg (· ++ blockIds raw) hids.2.1⟩

/-- The emergency pass over a raw slot leaves nothing out that is required. -/
theorem Keeps.emergencyRawSlot (h : Keeps context candidates state)
    (hgroups : Components candidates context.groups) (hnodup : (blockIds candidates).Nodup)
    (hwithin : context.estimated (requiredUnion context.groups candidates) ≤ context.bAc)
    (hraw : RawAsRetrieved context.groups candidates) {slot : RuntimeSlot}
    (hisRaw : slot.isRaw = true)
    (hnew : ∀ block ∈ candidates, block.slot = slot → block.blockId ∉ state.handledIds) :
    Keeps context candidates (state.emergencyRawSlot context candidates slot) := by
  obtain ⟨hunion, hselected, hhandled⟩ :=
    h.emergencyRawSlot_ids hgroups hnodup hwithin hraw hisRaw hnew
  obtain ⟨chosen, hchosen⟩ := h.holds
  refine ⟨(h.accounts.emergencyRawSlot hgroups hnodup slot).1,
    hchosen.emergencyRawSlot h.accounts hgroups hnodup slot, fun id hid => ?_,
    fun block hblock hid => ?_⟩
  · rw [hselected] at hid
    rcases List.mem_append.mp hid with hid | hid
    · exact h.selected id hid
    · obtain ⟨block, hblock, rfl⟩ := List.mem_map.mp hid
      exact blockId_mem (hunion hblock)
  · rw [hhandled] at hid
    rw [hselected]
    rcases List.mem_append.mp hid with hid | hid
    · exact List.mem_append_left _ (h.required block hblock hid)
    · exact List.mem_append_right _ hid

/-- The emergency pass over one of the other slots handles no raw event of the delta. -/
theorem emergencySlot_delta (hgroups : Components candidates context.groups)
    (hnodup : (blockIds candidates).Nodup) (hraw : RawAsRetrieved context.groups candidates)
    {slot : RuntimeSlot} (hslot : slot ≠ .rawDelta) {block : CandidateBlock}
    (hblock : block ∈ candidates) (hdelta : block.slot = .rawDelta)
    (hnew : block.blockId ∉ state.handledIds) :
    block.blockId ∉ (state.emergencySlot context candidates slot).handledIds := by
  refine List.foldlRecOn
    (motive := fun state : SelectionState => block.blockId ∉ state.handledIds) _ _ hnew ?_
  intro state hnew other hother
  split_ifs
  · exact hnew
  obtain ⟨hother, hsame⟩ := List.mem_filter.mp hother
  obtain ⟨hgroup, -⟩ := groupOf_mem hgroups hother
  rw [emergencyGroup_handled]
  refine fun hid => (List.mem_append.mp hid).elim hnew fun hid => ?_
  obtain ⟨same, hmem, hsameId⟩ := List.mem_map.mp hid
  obtain rfl := eq_of_blockId hnodup ((hgroups.ordered _ hgroup).subset hmem) hblock hsameId
  -- The group of a raw event has no other block, so the other block is the raw event.
  obtain ⟨only, honly⟩ := List.length_eq_one_iff.mp (hraw.alone _ hgroup same hmem hdelta)
  have hfirst := mem_groupOf hgroups hnodup hother
  rw [honly, List.mem_singleton] at hfirst hmem
  rw [Bool.and_eq_true, decide_eq_true_eq] at hsame
  exact hslot (by rw [← hsame.1, hfirst, ← hmem, hdelta])

/-- The emergency pass over distinct slots leaves nothing out that is required. -/
theorem Keeps.slots (hgroups : Components candidates context.groups)
    (hnodup : (blockIds candidates).Nodup)
    (hwithin : context.estimated (requiredUnion context.groups candidates) ≤ context.bAc)
    (hraw : RawAsRetrieved context.groups candidates) {slots : List RuntimeSlot}
    (hslots : slots.Nodup) (h : Keeps context candidates state)
    (hnew : RuntimeSlot.rawDelta ∈ slots → ∀ block ∈ candidates, block.slot = .rawDelta →
      block.blockId ∉ state.handledIds) :
    Keeps context candidates (slots.foldl (fun state slot =>
      if slot.isRaw then state.emergencyRawSlot context candidates slot
      else state.emergencySlot context candidates slot) state) := by
  induction slots generalizing state with
  | nil => exact h
  | cons slot rest ih =>
      obtain ⟨hfirst, hrest⟩ := List.nodup_cons.mp hslots
      rw [List.foldl_cons]
      by_cases hisRaw : slot.isRaw = true
      · have hunhandled : ∀ block ∈ candidates, block.slot = slot →
            block.blockId ∉ state.handledIds := by
          intro block hblock hsame
          have hdelta := (hraw.rawSlot hisRaw).2 block hblock hsame
          exact hnew (by rw [← hdelta, hsame]; exact List.mem_cons_self) block hblock hdelta
        rw [if_pos hisRaw]
        refine ih hrest (h.emergencyRawSlot hgroups hnodup hwithin hraw hisRaw hunhandled) ?_
        intro hlater block hblock hdelta hid
        rw [(h.emergencyRawSlot_ids hgroups hnodup hwithin hraw hisRaw hunhandled).2.2] at hid
        refine (List.mem_append.mp hid).elim (hnew (List.mem_cons_of_mem _ hlater) block hblock hdelta)
          fun hid => ?_
        obtain ⟨same, hsame, hsameId⟩ := List.mem_map.mp hid
        obtain ⟨hsame, hslot⟩ := List.mem_filter.mp hsame
        obtain rfl := eq_of_blockId hnodup hsame hblock hsameId
        exact hfirst (by rw [← of_decide_eq_true hslot, hdelta]; exact hlater)
      · rw [if_neg hisRaw]
        refine ih hrest (h.emergencySlot hgroups hnodup hwithin slot) ?_
        intro hlater block hblock hdelta
        exact emergencySlot_delta hgroups hnodup hraw (fun hslot => hisRaw (by rw [hslot]; rfl))
          hblock hdelta (hnew (List.mem_cons_of_mem _ hlater) block hblock hdelta)

end SelectionState

/-! ## The selection by counts -/

/-- Without a required block that was left out, the normal pass has selected what is required. -/
theorem normalSelection_required {context : SelectionContext} {candidates : List CandidateBlock}
    (hgroups : Components candidates context.groups) (hnodup : (blockIds candidates).Nodup)
    (h : (normalSelection context candidates).requiredMissing = false) :
    ∀ block ∈ candidates, block.required = true →
      block.blockId ∈ (normalSelection context candidates).selectedIds := by
  have hinvariant : (normalSelection context candidates).requiredMissing = false →
      ∀ block ∈ candidates, block.required = true →
        block.blockId ∈ (normalSelection context candidates).handledIds →
          block.blockId ∈ (normalSelection context candidates).selectedIds := by
    refine List.foldlRecOn (motive := fun state : SelectionState => state.requiredMissing = false →
      ∀ block ∈ candidates, block.required = true → block.blockId ∈ state.handledIds →
        block.blockId ∈ state.selectedIds) _ _ (by simp) ?_
    intro state ih candidate hcandidate hmissing block hblock hrequired
    have hsub := (hgroups.ordered _ (groupOf_mem hgroups hcandidate).1).subset
    unfold SelectionState.normalStep at hmissing ⊢
    dsimp only at hmissing ⊢
    split_ifs at hmissing ⊢ with hhandled hfits
    · exact ih hmissing block hblock hrequired
    · intro hid
      rcases List.mem_append.mp hid with hid | hid
      · exact List.mem_append_left _ (ih hmissing block hblock hrequired hid)
      · exact List.mem_append_right _ hid
    · rw [Bool.or_eq_false_iff] at hmissing
      intro hid
      rcases List.mem_append.mp hid with hid | hid
      · exact ih hmissing.1 block hblock hrequired hid
      · obtain ⟨same, hsame, hsameId⟩ := List.mem_map.mp hid
        obtain rfl := eq_of_blockId hnodup (hsub hsame) hblock hsameId
        have hgroup := List.any_eq_false.mp hmissing.2 same hsame
        contradiction
  intro block hblock hrequired
  have hall := (selection_accounts hgroups hnodup _ List.mem_cons_self).2
  exact hinvariant h block hblock hrequired (hall.mem_iff.mpr (blockId_mem hblock))

/-- While all that is required fits, the emergency pass selects it. -/
theorem emergencySelection_required {context : SelectionContext} {candidates : List CandidateBlock}
    (hgroups : Components candidates context.groups) (hnodup : (blockIds candidates).Nodup)
    (hraw : RawAsRetrieved context.groups candidates)
    (hwithin : context.estimated (requiredUnion context.groups candidates) ≤ context.bAc) :
    ∀ block ∈ candidates, block.required = true →
      block.blockId ∈ (emergencySelection context candidates).selectedIds := by
  have hstart : SelectionState.Keeps context candidates {} :=
    ⟨.start, ⟨[], .start⟩, by simp, by simp⟩
  have hlast : SelectionState.Keeps context candidates (emergencySelection context candidates) :=
    SelectionState.Keeps.slots hgroups hnodup hwithin hraw (by decide) hstart (by simp)
  have hall := (selection_accounts hgroups hnodup _
    (List.mem_cons_of_mem _ List.mem_cons_self)).2
  intro block hblock hrequired
  obtain ⟨hgroup, hid⟩ := groupOf_mem hgroups hblock
  refine hlast.required block (mem_requiredUnion.mpr ⟨hblock, _, hgroup, ?_, hid⟩)
    (hall.mem_iff.mpr (blockId_mem hblock))
  exact List.any_eq_true.mpr ⟨block, mem_groupOf hgroups hnodup hblock, hrequired⟩

/-- A closed selection with all required blocks holds their groups. -/
theorem Admissible.requiredUnion_subset {groups : List (List CandidateBlock)}
    {candidates selected : List CandidateBlock} (h : Admissible candidates selected)
    (hgroups : Components candidates groups) (hnodup : (blockIds candidates).Nodup) :
    requiredUnion groups candidates ⊆ selected := by
  intro block hblock
  obtain ⟨hcandidate, group, hgroup, hrequired, hid⟩ := mem_requiredUnion.mp hblock
  have hsub := (hgroups.ordered group hgroup).subset
  obtain ⟨other, hother, hrequired⟩ := List.any_eq_true.mp hrequired
  obtain ⟨same, hsame, hsameId⟩ := List.mem_map.mp hid
  obtain rfl := eq_of_blockId hnodup (hsub hsame) hcandidate hsameId
  exact h.closed.linked (h.required other (hsub hother) hrequired)
    (hgroups.linked group hgroup other hother same hsame)

/-- The selection by counts has all required blocks exactly when their groups fit together. -/
theorem selectByCounts_complete {context : SelectionContext} {candidates : List CandidateBlock}
    (hgroups : Components candidates context.groups) (hnodup : (blockIds candidates).Nodup)
    (hraw : RawAsRetrieved context.groups candidates) :
    (∀ block ∈ candidates, block.required = true →
        block.blockId ∈ blockIds (selectByCounts context candidates).2.1) ↔
      context.estimated (requiredUnion context.groups candidates) ≤ context.bAc := by
  obtain ⟨hsub, hclosed⟩ := selectByCounts_spec context hgroups hnodup
  constructor
  · intro hrequired
    have hadmissible : Admissible candidates (selectByCounts context candidates).2.1 :=
      ⟨hsub, hclosed, fun block hblock hreq => by
        obtain ⟨same, hsame, hid⟩ := List.mem_map.mp (hrequired block hblock hreq)
        rwa [eq_of_blockId hnodup (hsub.subset hsame) hblock hid] at hsame⟩
    refine (SelectionContext.estimated_mono (List.Nodup.subperm ?_
      (hadmissible.requiredUnion_subset hgroups hnodup))).trans
      (selectByCounts_within hgroups hnodup)
    exact hnodup.of_map.sublist List.filter_sublist
  · intro hwithin block hblock hrequired
    have hnormal := normalSelection_required hgroups hnodup
    have hemergency := emergencySelection_required hgroups hnodup hraw hwithin
    unfold selectByCounts
    dsimp only
    split_ifs with hmissing
    · exact blockId_mem (List.mem_filter.mpr
        ⟨hblock, decide_eq_true (hemergency block hblock hrequired)⟩)
    · exact blockId_mem (List.mem_filter.mpr
        ⟨hblock, decide_eq_true (hnormal (by simpa using hmissing) block hblock hrequired)⟩)

/-! ## Counters that measure -/

/-- The counter returns the measure of a text, whatever its state. -/
def Measures (counter : TokenCounter σ) (measure : String → Nat) : Prop :=
  ∀ text s, ∃ s', counter.countText text s = (.integer (measure text), s')

/-- A join has at most the measures of its parts and separators, and the empty text has none. -/
structure Subadditive (measure : String → Nat) : Prop where
  empty : measure "" = 0
  join : ∀ texts, texts ≠ [] → measure (String.intercalate separator texts) ≤
    (texts.map measure).sum + measure separator * (texts.length - 1)

/-- The counts of some blocks by a measure. -/
def measuredCounts (measure : String → Nat) (candidates : List CandidateBlock) : TokenCounts :=
  candidates.map fun candidate => (candidate.blockId, measure candidate.text)

section

variable {counter : TokenCounter σ} {measure : String → Nat}

/-- A count is the measure. -/
theorem Measures.countText (h : Measures counter measure) (text : String) (s : σ) :
    ∃ s', AstrContinuum.countText counter text s = .ok (measure text) s' := by
  obtain ⟨s', hcount⟩ := h text s
  exact ⟨s', by simp [AstrContinuum.countText, hcount]⟩

/-- The blocks are counted by their measures. -/
theorem Measures.countBlocksFrom (h : Measures counter measure) {candidates : List CandidateBlock}
    {counts : TokenCounts} (hnodup : (counts.map Prod.fst ++ blockIds candidates).Nodup) (s : σ) :
    ∃ s', AstrContinuum.countBlocksFrom counter counts candidates s =
      .ok (counts ++ measuredCounts measure candidates) s' := by
  induction candidates generalizing counts s with
  | nil => exact ⟨s, by simp [AstrContinuum.countBlocksFrom, measuredCounts, pure, EStateM.pure]⟩
  | cons candidate rest ih =>
      have hnew : candidate.blockId ∉ counts.map Prod.fst := fun hmem =>
        (List.nodup_append.mp hnodup).2.2 _ hmem _ List.mem_cons_self rfl
      obtain ⟨s', hcount⟩ := h.countText candidate.text s
      have hlater : ((counts ++ [(candidate.blockId, measure candidate.text)]).map Prod.fst ++
          blockIds rest).Nodup := by
        simpa [blockIds] using hnodup
      obtain ⟨last, hrest⟩ := ih hlater s'
      refine ⟨last, ?_⟩
      rw [AstrContinuum.countBlocksFrom, if_neg hnew]
      refine Effects.bind_ok.mpr ⟨_, s', hcount, ?_⟩
      rw [hrest, List.append_assoc]
      rfl

/-- The counts of the candidates are their measures, provided or not. -/
theorem Measures.validatedBlockTokenCounts (h : Measures counter measure)
    {candidates : List CandidateBlock} (hnodup : (blockIds candidates).Nodup)
    {provided : Option (String → Option Int)}
    (hprovided : ∀ table ∈ provided, ∀ block ∈ candidates,
      table block.blockId = some (measure block.text : Int)) (s : σ) :
    ∃ s', AstrContinuum.validatedBlockTokenCounts candidates counter provided s =
      .ok (measuredCounts measure candidates) s' := by
  cases provided with
  | none => exact h.countBlocksFrom (by simpa using hnodup) s
  | some table =>
      refine ⟨s, Effects.perform_ok.mpr ⟨?_, rfl⟩⟩
      refine mapM_ok.mpr (List.forall₂_map_right_iff.mpr (List.forall₂_same.mpr ?_))
      intro block hblock
      simp [hprovided table rfl block hblock, orMissing, nonNegativeCost, bind, Except.bind, pure,
        Except.pure]

/-- The duplicates are counted. -/
theorem Measures.duplicateRejections (h : Measures counter measure) (duplicates : List CandidateBlock)
    (s : σ) : ∃ records s', AstrContinuum.duplicateRejections counter duplicates s =
      .ok records s' := by
  induction duplicates generalizing s with
  | nil => exact ⟨[], s, rfl⟩
  | cons candidate rest ih =>
      obtain ⟨s', hcount⟩ := h.countText candidate.text s
      obtain ⟨records, last, hrest⟩ := ih s'
      exact ⟨_, last, Effects.bind_ok.mpr ⟨_, s', hcount, Effects.bind_ok.mpr ⟨records, last, hrest, rfl⟩⟩⟩

/-- The count of a block among distinct blocks. -/
theorem measuredCounts_cost {candidates : List CandidateBlock} (hnodup : (blockIds candidates).Nodup)
    {block : CandidateBlock} (hblock : block ∈ candidates) :
    (measuredCounts measure candidates).cost block = measure block.text := by
  unfold TokenCounts.cost measuredCounts
  rw [List.find?_map]
  cases hfound : candidates.find? ((fun entry : String × Nat => decide (entry.1 = block.blockId)) ∘
      fun candidate => (candidate.blockId, measure candidate.text)) with
  | none =>
      have hnot := List.find?_eq_none.mp hfound block hblock
      simp at hnot
  | some same =>
      have hid : same.blockId = block.blockId := by simpa using List.find?_some hfound
      rw [eq_of_blockId hnodup (List.mem_of_find?_eq_some hfound) hblock hid]
      rfl

/-- The joined text measures at most the estimate. -/
theorem Subadditive.projectionText_le (h : Subadditive measure) {candidates selected : List CandidateBlock}
    (hnodup : (blockIds candidates).Nodup) (hsub : selected ⊆ candidates) :
    measure (projectionText selected) ≤ estimatedProjectionCost (measuredCounts measure candidates)
      (measure separator) selected := by
  unfold projectionText estimatedProjectionCost
  split_ifs with hnil
  · subst hnil
    exact h.empty.le
  · have htotal : (measuredCounts measure candidates).total selected =
        ((selected.map fun candidate => candidate.text).map measure).sum := by
      rw [TokenCounts.total, List.map_map]
      exact congrArg List.sum (List.map_congr_left fun block hblock =>
        measuredCounts_cost hnodup (hsub hblock))
    rw [htotal]
    refine (h.join _ (by simpa using hnil)).trans_eq ?_
    rw [List.length_map]

/-- The costs that are due, by a measure. -/
def AssemblyInput.dueCosts (input : AssemblyInput) (measure : String → Nat) : BudgetCosts :=
  ⟨input.config.inputBudget, measure input.currentInput, input.fixedRequiredCost.toNat,
    input.config.safetyMargin, input.opaqueTokenCost.toNat⟩

/-- The required input does not fit: the due costs exceed the input budget, or the groups with a required
block exceed by the estimate what is left. -/
def RequiredExceeds (measure : String → Nat) (input : AssemblyInput)
    (groups : List (List CandidateBlock)) (unique : List CandidateBlock) : Prop :=
  let costs := input.dueCosts measure
  costs.bInput < costs.opaqueTokenCost + costs.bRequired ∨
    costs.bAc < estimatedProjectionCost (measuredCounts measure unique) (measure separator)
      (requiredUnion groups unique)

/-- What does not change during the passes, by a measure. -/
def measuredContext (measure : String → Nat) (input : AssemblyInput)
    (groups : List (List CandidateBlock)) (unique : List CandidateBlock) : SelectionContext :=
  ⟨groups, measuredCounts measure unique, measure separator, (input.dueCosts measure).bAc⟩

/-- A selection whose text fits is exact at once. -/
theorem exactFinalSelection_first {counts : TokenCounts} {bAc fuel exactCost : Nat}
    {selected : List CandidateBlock} {removed : List BlockRecord} {s s' : σ}
    (hcount : countText counter (projectionText selected) s = .ok exactCost s')
    (hle : exactCost ≤ bAc) :
    exactFinalSelection counter counts bAc (fuel + 1) selected removed s =
      .ok ⟨selected, projectionText selected, exactCost, removed⟩ s' := by
  refine Effects.bind_ok.mpr ⟨exactCost, s', hcount, ?_⟩
  rw [if_pos hle]
  rfl

/-- The due costs are computed, or exceed the budget. -/
theorem Measures.requiredCosts (h : Measures counter measure) {input : AssemblyInput}
    (hforeign : 0 ≤ input.opaqueTokenCost) (hfixed : 0 ≤ input.fixedRequiredCost) (s : σ) :
    Yields
      (fun failure => failure = .budgetInvariantError .requiredInputExceedsBudget ∧
        (input.dueCosts measure).bInput <
          (input.dueCosts measure).opaqueTokenCost + (input.dueCosts measure).bRequired)
      (fun costs _ => costs = input.dueCosts measure ∧
        costs.opaqueTokenCost + costs.bRequired ≤ costs.bInput)
      (AstrContinuum.requiredCosts counter input) s := by
  obtain ⟨s', hcount⟩ := h.countText input.currentInput s
  refine .performed (by rw [nonNegativeCost, if_pos hforeign]) ?_
  refine .performed (by rw [nonNegativeCost, if_pos hfixed]) ?_
  refine .returned hcount ?_
  refine (Yields.ensured (Ensures.require fun hexceeds => ⟨rfl, not_le.mp hexceeds⟩)).bind ?_
  rintro _ _ ⟨hwithin, rfl⟩
  exact .pure ⟨rfl, hwithin⟩

/-- An assembly finds that required input exceeds the budget only when it does, and returns only when it
does not. -/
theorem assemble_yields (view : RequestView) (candidates : List CandidateBlock)
    {input : AssemblyInput} (s : σ) {groups : List (List CandidateBlock)}
    (hmeasures : Measures counter measure) (hsubadditive : Subadditive measure)
    (hgroups : dependencyGroups (canonicalCandidates candidates) = .ok groups)
    (hraw : RawAsRetrieved groups (canonicalCandidates candidates))
    (hprovided : ∀ table ∈ input.blockTokenCounts, ∀ block ∈ canonicalCandidates candidates,
      table block.blockId = some (measure block.text : Int))
    (hforeign : 0 ≤ input.opaqueTokenCost) (hfixed : 0 ≤ input.fixedRequiredCost) :
    Yields
      (fun failure => failure = .budgetInvariantError .requiredInputExceedsBudget ∧
        RequiredExceeds measure input groups (canonicalCandidates candidates))
      (fun _ _ => ¬ RequiredExceeds measure input groups (canonicalCandidates candidates))
      (assemble view candidates counter input) s := by
  have hnodup := (canonicalCandidates_spec candidates).1
  obtain ⟨found, hfound, hcomponents⟩ := dependencyGroups_components hnodup
  obtain rfl : found = groups := Except.ok.inj (hfound.symm.trans hgroups)
  refine Yields.bind ((hmeasures.requiredCosts hforeign hfixed s).weaken
    (fun _ hdue => ⟨hdue.1, .inl hdue.2⟩) fun _ _ hcosts => hcosts) ?_
  rintro costs s₁ ⟨rfl, hdue⟩
  obtain ⟨s₂, hcounts⟩ := hmeasures.validatedBlockTokenCounts hnodup hprovided s₁
  obtain ⟨s₃, hseparator⟩ := hmeasures.countText separator s₂
  obtain ⟨records, s₄, hrecords⟩ := hmeasures.duplicateRejections (deduplicate candidates).2 s₃
  refine .returned hcounts (.returned hseparator (.returned hrecords (.performed hgroups ?_)))
  obtain ⟨hsub, -⟩ := selectByCounts_spec (measuredContext measure input found
    (canonicalCandidates candidates)) hcomponents hnodup
  have hcomplete : _ ↔ (measuredContext measure input found
      (canonicalCandidates candidates)).estimated _ ≤ _ :=
    selectByCounts_complete hcomponents hnodup hraw
  have hwithin : (measuredContext measure input found
      (canonicalCandidates candidates)).estimated _ ≤ _ :=
    selectByCounts_within hcomponents hnodup
  refine (Yields.ensured (Ensures.require fun hmissing =>
    ⟨rfl, .inr (not_le.mp fun hfits => hmissing (hcomplete.mpr hfits))⟩)).bind
    fun _ s₅ hrequired => ?_
  obtain ⟨hrequired, rfl⟩ := hrequired
  -- The exact loop ends at once: the text measures at most the estimate.
  have hexact := (hsubadditive.projectionText_le hnodup hsub.subset).trans hwithin
  obtain ⟨s₆, hcount⟩ := hmeasures.countText (projectionText (selectByCounts (measuredContext measure
    input found (canonicalCandidates candidates)) (canonicalCandidates candidates)).2.1) s₅
  refine .returned (exactFinalSelection_first hcount hexact) ?_
  have htotal : (input.dueCosts measure).opaqueTokenCost + (input.dueCosts measure).bRequired +
      measure (projectionText (selectByCounts (measuredContext measure input found
        (canonicalCandidates candidates)) (canonicalCandidates candidates)).2.1) ≤
      (input.dueCosts measure).bInput := by
    have hle : _ ≤ (input.dueCosts measure).bAc := hexact
    unfold BudgetCosts.bAc at hle
    omega
  refine .performed (require_bind_pos htotal) (.pure ?_)
  rintro (hexceeds | hexceeds)
  · omega
  · exact absurd (hcomplete.mp hrequired) (not_le.mpr hexceeds)

/-- An assembly finds that required input exceeds the budget exactly when it does. -/
theorem required_input_exceeds_budget_iff (view : RequestView) (candidates : List CandidateBlock)
    {input : AssemblyInput} (s : σ) {groups : List (List CandidateBlock)}
    (hmeasures : Measures counter measure) (hsubadditive : Subadditive measure)
    (hgroups : dependencyGroups (canonicalCandidates candidates) = .ok groups)
    (hraw : RawAsRetrieved groups (canonicalCandidates candidates))
    (hprovided : ∀ table ∈ input.blockTokenCounts, ∀ block ∈ canonicalCandidates candidates,
      table block.blockId = some (measure block.text : Int))
    (hforeign : 0 ≤ input.opaqueTokenCost) (hfixed : 0 ≤ input.fixedRequiredCost) :
    (∃ s', assemble view candidates counter input s =
        .error (.budgetInvariantError .requiredInputExceedsBudget) s') ↔
      RequiredExceeds measure input groups (canonicalCandidates candidates) := by
  have hyields := assemble_yields view candidates s hmeasures hsubadditive hgroups hraw hprovided
    hforeign hfixed
  constructor
  · rintro ⟨s', herror⟩
    exact (hyields.error herror).2
  · intro hexceeds
    cases hresult : assemble view candidates counter input s with
    | ok result s' => exact absurd hexceeds (hyields.ok hresult)
    | error failure s' =>
        rw [(hyields.error hresult).1]
        exact ⟨s', rfl⟩

end

/-- The number of bytes is subadditive. -/
theorem subadditive_utf8ByteSize : Subadditive String.utf8ByteSize where
  empty := rfl
  join texts hne := by
    induction texts with
    | nil => exact absurd rfl hne
    | cons text rest ih =>
        by_cases hrest : rest = []
        · simp [hrest]
        · have hle := ih hrest
          obtain ⟨next, rest, rfl⟩ := List.exists_cons_of_ne_nil hrest
          rw [String.intercalate_cons_cons, String.utf8ByteSize_append, String.utf8ByteSize_append]
          simp only [List.map_cons, List.sum_cons, List.length_cons, Nat.add_sub_cancel] at hle ⊢
          rw [Nat.mul_succ]
          omega

namespace CompletenessSample

/-- The goal of a capsule, which is required. -/
def goal : CandidateBlock :=
  { blockId := "goal", slot := .activeGoal, kind := .goal, text := "Ship it"
    sourceEventIds := ["e1"], score := 100, reason := "ACTIVE_GOAL", required := true
    capsuleId := some "capsule", eventSequence := none, valid := by decide +kernel }

/-- A dependency of the same capsule, which comes with the goal. -/
def dependency : CandidateBlock :=
  { blockId := "dependency", slot := .relevantEvidence, kind := .dependency, text := "the build"
    sourceEventIds := ["e2"], score := 30, reason := "DEPENDENCY", required := false
    capsuleId := some "capsule", eventSequence := none, valid := by decide +kernel }

/-- A required event of the delta. -/
def rawEvent : CandidateBlock :=
  { blockId := "raw:event", slot := .rawDelta, kind := .rawEvent, text := "hello"
    sourceEventIds := ["event"], score := 90, reason := "RAW_DELTA", required := true
    capsuleId := none, eventSequence := some 1, valid := by decide +kernel }

/-- A block that may be left out. -/
def optional : CandidateBlock :=
  { blockId := "task", slot := .activeTask, kind := .taskContext, text := "task"
    sourceEventIds := ["e3"], score := 50, reason := "TASK", required := false
    capsuleId := none, eventSequence := none, valid := by decide +kernel }

/-- The candidates: a group of two, and two blocks alone. -/
def candidates : List CandidateBlock := [goal, dependency, rawEvent, optional]

/-- Their groups. -/
def groups : List (List CandidateBlock) := [[goal, dependency], [rawEvent], [optional]]

/-- A counter that counts bytes. -/
def counter : TokenCounter Unit := ⟨fun text s => (.integer text.utf8ByteSize, s)⟩

/-- The hard ceiling and the limit of the model are positive. -/
theorem ceilings_pos : 1 ≤ 150000 ∧ 1 ≤ 200000 := by decide

/-- An input with a budget. -/
def input (budget : Nat) (hbudget : 1 ≤ budget) : AssemblyInput where
  currentInput := ""
  opaqueTokenCost := 0
  fixedRequiredCost := 0
  config :=
    { targetInputBudget := budget, safetyMargin := 0
      positive := ⟨hbudget, ceilings_pos⟩
      reserved_le := BudgetConfig.defaultReserve_le }

/-- The groups are those of the candidates. -/
theorem dependencyGroups_candidates :
    dependencyGroups (canonicalCandidates candidates) = .ok groups := by decide +kernel

/-- The raw event is as retrieval makes it. -/
theorem rawAsRetrieved : RawAsRetrieved groups (canonicalCandidates candidates) :=
  ⟨⟨by decide +kernel, by decide +kernel⟩, by decide +kernel, by decide +kernel, by decide +kernel⟩

end CompletenessSample

open CompletenessSample in
/-- With the dependency that comes with it, the required input takes 25 tokens, and 24 are not enough. -/
theorem required_input_exceeds_budget_iff_sample :
    (∃ s', assemble LiveSample.view candidates counter (input 24 (by decide)) () =
        .error (.budgetInvariantError .requiredInputExceedsBudget) s') ∧
      ¬ ∃ s', assemble LiveSample.view candidates counter (input 25 (by decide)) () =
        .error (.budgetInvariantError .requiredInputExceedsBudget) s' := by
  have hiff (budget : Nat) (hbudget : 1 ≤ budget) :
      (∃ s', assemble LiveSample.view candidates counter (input budget hbudget) () =
          .error (.budgetInvariantError .requiredInputExceedsBudget) s') ↔
        RequiredExceeds String.utf8ByteSize (input budget hbudget) groups
          (canonicalCandidates candidates) :=
    required_input_exceeds_budget_iff LiveSample.view candidates () (fun _ s => ⟨s, rfl⟩)
      subadditive_utf8ByteSize dependencyGroups_candidates rawAsRetrieved
      (fun _ htable => by cases htable) (Int.le_refl 0) (Int.le_refl 0)
  rw [hiff, hiff]
  unfold RequiredExceeds
  exact ⟨by decide +kernel, by decide +kernel⟩

end AstrContinuum
