import Mathlib.Algebra.GroupWithZero.Nat
import Mathlib.Data.List.Perm.Basic
import AstrContinuum.Guarantees.Budget

/-!
# What the trace of an assembly accounts for

`assembly_accounts`: the selections and the rejections of a trace are, taken together, the input
candidates, each of them once. The canonical candidates are divided between the selections and the
rejections of the passes, the dropped duplicates have the other rejections, and the costs of the slots
add up to the exact cost with the overhead of the projection.

A pass handles whole groups, and what it has handled is what it has selected or rejected (`Accounts`). The
exact loop moves blocks from the selection to the rejections.
-/

namespace AstrContinuum

open Checked Effects

variable {σ : Type}

/-! ## Groups split the candidates -/

/-- Two groups that share an id have the same ids. -/
theorem Components.same_ids {candidates : List CandidateBlock}
    {groups : List (List CandidateBlock)} (h : Components candidates groups)
    (hnodup : (blockIds candidates).Nodup) {left right : List CandidateBlock} (hleft : left ∈ groups)
    (hright : right ∈ groups) {id : String} (hid : id ∈ blockIds left) (hid' : id ∈ blockIds right)
    {other : String} (hother : other ∈ blockIds left) : other ∈ blockIds right := by
  obtain ⟨block, hblock, rfl⟩ := List.mem_map.mp hid
  obtain ⟨same, hsame, hsameId⟩ := List.mem_map.mp hid'
  obtain rfl := eq_of_blockId hnodup ((h.ordered right hright).subset hsame)
    ((h.ordered left hleft).subset hblock) hsameId
  obtain ⟨found, hfound, rfl⟩ := List.mem_map.mp hother
  have hclosed : CompanionClosed candidates right :=
    fun block hblock other hother hcompanion =>
      h.closed right hright block hblock other hother hcompanion
  exact blockId_mem (hclosed.linked hsame (h.linked left hleft same hblock found hfound))

/-- The ids of a group are distinct ids of candidates. -/
theorem Components.ids {candidates : List CandidateBlock} {groups : List (List CandidateBlock)}
    (h : Components candidates groups) (hnodup : (blockIds candidates).Nodup)
    {group : List CandidateBlock} (hgroup : group ∈ groups) :
    (blockIds group).Nodup ∧ blockIds group ⊆ blockIds candidates :=
  ⟨hnodup.sublist ((h.ordered group hgroup).map _), ((h.ordered group hgroup).map _).subset⟩

/-! ## The passes -/

/-- What a pass has handled are whole groups, each selected or rejected, and the rejections are those of
candidates. -/
structure SelectionState.Accounts (context : SelectionContext) (candidates : List CandidateBlock)
    (state : SelectionState) : Prop where
  nodup : state.handledIds.Nodup
  grouped : Grouped context.groups state.handledIds
  balanced : (state.selectedIds ++ state.rejected.map BlockRecord.blockId).Perm state.handledIds
  records : ∀ record ∈ state.rejected, ∃ block ∈ candidates,
    record = rejection context.counts record.reason block ∧ record.reason ≠ "DUPLICATE_BLOCK_ID"

namespace SelectionState

variable {context : SelectionContext} {state : SelectionState} {candidates : List CandidateBlock}

/-- A loop whose iterations keep an invariant, handle their elements and forget none handles all of
them. -/
theorem foldl_handles {α : Type} (step : SelectionState → α → SelectionState)
    (invariant : SelectionState → Prop) (items : List α) {handled : α → List String → Prop}
    (hgrows : ∀ item ids ids', ids ⊆ ids' → handled item ids → handled item ids')
    (hstep : ∀ state item, item ∈ items → invariant state →
      invariant (step state item) ∧ handled item (step state item).handledIds ∧
        state.handledIds ⊆ (step state item).handledIds)
    {state : SelectionState} (hstart : invariant state) :
    invariant (items.foldl step state) ∧
      (∀ item ∈ items, handled item (items.foldl step state).handledIds) ∧
      state.handledIds ⊆ (items.foldl step state).handledIds := by
  induction items generalizing state with
  | nil => exact ⟨hstart, by simp, fun _ h => h⟩
  | cons item rest ih =>
      obtain ⟨hnext, hitem, hkept⟩ := hstep state item List.mem_cons_self hstart
      obtain ⟨hlast, hrest, hkept'⟩ := ih
        (fun s other hother => hstep s other (List.mem_cons_of_mem _ hother)) hnext
      refine ⟨hlast, fun other hother => ?_, fun id hid => hkept' (hkept hid)⟩
      rcases List.mem_cons.mp hother with rfl | hother
      · exact hgrows _ _ _ hkept' hitem
      · exact hrest other hother

/-- Nothing is handled at the start. -/
theorem Accounts.start : Accounts context candidates {} :=
  ⟨.nil, by simp [Grouped], .refl _, by simp⟩

/-- A candidate that is not handled is in a group of which nothing is handled. -/
theorem Accounts.unhandled (h : Accounts context candidates state)
    (hgroups : Components candidates context.groups) (hnodup : (blockIds candidates).Nodup)
    {group : List CandidateBlock} (hgroup : group ∈ context.groups) {id : String}
    (hid : id ∈ blockIds group) (hnew : id ∉ state.handledIds) :
    ∀ other ∈ blockIds group, other ∉ state.handledIds := by
  intro other hother hhandled
  obtain ⟨found, hfound, hmem, hwhole⟩ := h.grouped other hhandled
  have hsame := hgroups.same_ids hnodup hgroup hfound hother hmem hid
  obtain ⟨block, hblock, rfl⟩ := List.mem_map.mp hsame
  exact hnew (hwhole block hblock)

/-- New ids are handled. -/
theorem nodup_append_new {handled ids : List String} (hhandled : handled.Nodup) (hids : ids.Nodup)
    (hnew : ∀ id ∈ ids, id ∉ handled) : (handled ++ ids).Nodup :=
  List.nodup_append.mpr ⟨hhandled, hids, fun _ hold _ hid heq => hnew _ hid (heq ▸ hold)⟩

/-- Selecting a new group is accounted for. -/
theorem Accounts.select (h : Accounts context candidates state)
    (hgroups : Components candidates context.groups) (hnodup : (blockIds candidates).Nodup)
    {group : List CandidateBlock} (hgroup : group ∈ context.groups)
    (hnew : ∀ id ∈ blockIds group, id ∉ state.handledIds) :
    Accounts context candidates ((state.handle group).select context group) where
  nodup := nodup_append_new h.nodup (hgroups.ids hnodup hgroup).1 hnew
  grouped := h.grouped.append hgroup
  balanced := by
    show (state.selectedIds ++ blockIds group ++ state.rejected.map BlockRecord.blockId).Perm
      (state.handledIds ++ blockIds group)
    refine .trans ?_ (h.balanced.append_right _)
    rw [List.append_assoc, List.append_assoc]
    exact (List.perm_append_comm).append_left _
  records := h.records

/-- The rejections of a group have its ids. -/
theorem map_blockId_rejection (counts : TokenCounts) (reason : String)
    (group : List CandidateBlock) :
    (group.map (rejection counts reason)).map BlockRecord.blockId = blockIds group := by
  simp [blockIds, rejection, CandidateBlock.record]

/-- The rejections of candidates are those of candidates. -/
theorem records_append {rejected : List BlockRecord}
    (h : ∀ record ∈ rejected, ∃ block ∈ candidates,
      record = rejection context.counts record.reason block ∧
        record.reason ≠ "DUPLICATE_BLOCK_ID")
    {blocks : List CandidateBlock} (hblocks : blocks ⊆ candidates) {reason : String}
    (hreason : reason ≠ "DUPLICATE_BLOCK_ID") :
    ∀ record ∈ rejected ++ blocks.map (rejection context.counts reason), ∃ block ∈ candidates,
      record = rejection context.counts record.reason block ∧
        record.reason ≠ "DUPLICATE_BLOCK_ID" := by
  intro record hrecord
  rcases List.mem_append.mp hrecord with hrecord | hrecord
  · exact h record hrecord
  · obtain ⟨block, hblock, rfl⟩ := List.mem_map.mp hrecord
    exact ⟨block, hblocks hblock, rfl, hreason⟩

/-- Rejecting a new group is accounted for. -/
theorem Accounts.reject (h : Accounts context candidates state)
    (hgroups : Components candidates context.groups) (hnodup : (blockIds candidates).Nodup)
    {group : List CandidateBlock} (hgroup : group ∈ context.groups)
    (hnew : ∀ id ∈ blockIds group, id ∉ state.handledIds) {reason : String}
    (hreason : reason ≠ "DUPLICATE_BLOCK_ID") :
    Accounts context candidates ((state.handle group).reject context group reason) where
  nodup := nodup_append_new h.nodup (hgroups.ids hnodup hgroup).1 hnew
  grouped := h.grouped.append hgroup
  balanced := by
    show (state.selectedIds ++ (state.rejected ++
      group.map (rejection context.counts reason)).map BlockRecord.blockId).Perm
      (state.handledIds ++ blockIds group)
    rw [List.map_append, map_blockId_rejection, ← List.append_assoc]
    exact h.balanced.append_right _
  records := records_append h.records (hgroups.ordered group hgroup).subset hreason

/-- The treatment of a new group in the emergency pass is accounted for. -/
theorem Accounts.emergencyGroup (h : Accounts context candidates state)
    (hgroups : Components candidates context.groups) (hnodup : (blockIds candidates).Nodup)
    {group : List CandidateBlock} (hgroup : group ∈ context.groups)
    (hnew : ∀ id ∈ blockIds group, id ∉ state.handledIds) :
    Accounts context candidates (state.emergencyGroup context group) := by
  unfold SelectionState.emergencyGroup
  dsimp only
  split_ifs
  · exact h.reject hgroups hnodup hgroup hnew (by decide)
  · exact h.select hgroups hnodup hgroup hnew
  · exact h.reject hgroups hnodup hgroup hnew (by decide)

/-- An iteration of the normal pass is accounted for, and handles its candidate. -/
theorem Accounts.normalStep (h : Accounts context candidates state)
    (hgroups : Components candidates context.groups) (hnodup : (blockIds candidates).Nodup)
    {candidate : CandidateBlock} (hcandidate : candidate ∈ candidates) :
    Accounts context candidates (state.normalStep context candidate) ∧
      candidate.blockId ∈ (state.normalStep context candidate).handledIds ∧
      state.handledIds ⊆ (state.normalStep context candidate).handledIds := by
  obtain ⟨hgroup, hid⟩ := groupOf_mem hgroups hcandidate
  unfold SelectionState.normalStep
  dsimp only
  split_ifs with hhandled hfits
  · exact ⟨h, hhandled, fun _ hold => hold⟩
  · have hnew := h.unhandled hgroups hnodup hgroup hid hhandled
    exact ⟨h.select hgroups hnodup hgroup hnew, List.mem_append_right _ hid,
      List.subset_append_left _ _⟩
  · have hnew := h.unhandled hgroups hnodup hgroup hid hhandled
    have hreject : Accounts context candidates ((state.handle _).reject context
        (groupOf context.groups candidate) "INSUFFICIENT_AC_BUDGET") :=
      h.reject hgroups hnodup hgroup hnew (by decide)
    exact ⟨⟨hreject.nodup, hreject.grouped, hreject.balanced, hreject.records⟩,
      List.mem_append_right _ hid, List.subset_append_left _ _⟩

/-- Disjoint new groups are treated in the emergency pass one after the other. -/
theorem Accounts.emergencyGroups (h : Accounts context candidates state)
    (hgroups : Components candidates context.groups) (hnodup : (blockIds candidates).Nodup)
    {groups : List (List CandidateBlock)} (hmem : ∀ group ∈ groups, group ∈ context.groups)
    (hdisjoint : (groups.flatMap blockIds).Nodup)
    (hnew : ∀ id ∈ groups.flatMap blockIds, id ∉ state.handledIds) :
    Accounts context candidates
      (groups.foldl (fun state group => state.emergencyGroup context group) state) := by
  induction groups generalizing state with
  | nil => exact h
  | cons group rest ih =>
      rw [List.flatMap_cons] at hdisjoint hnew
      obtain ⟨-, hrest, hapart⟩ := List.nodup_append.mp hdisjoint
      refine ih (h.emergencyGroup hgroups hnodup (hmem group List.mem_cons_self)
        fun id hid => hnew id (List.mem_append_left _ hid))
        (fun other hother => hmem other (List.mem_cons_of_mem _ hother)) hrest ?_
      intro id hid hhandled
      rw [emergencyGroup_handled] at hhandled
      rcases List.mem_append.mp hhandled with hold | hgroup
      · exact hnew id (List.mem_append_right _ hid) hold
      · exact hapart id hgroup id hid rfl

/-- The atomic groups of a raw slot are disjoint groups of its candidates. -/
theorem atomicGroups_disjoint (hgroups : Components candidates context.groups)
    (hnodup : (blockIds candidates).Nodup) {slotBlocks : List CandidateBlock}
    (hslot : ∀ block ∈ slotBlocks, block ∈ candidates) :
    ((atomicGroups context slotBlocks).flatMap blockIds).Nodup ∧
      ∀ group ∈ atomicGroups context slotBlocks, group ∈ context.groups ∧
        ∃ block ∈ slotBlocks, block.blockId ∈ blockIds group := by
  refine List.foldlRecOn (motive := fun found : List (List CandidateBlock) =>
    (found.flatMap blockIds).Nodup ∧ ∀ group ∈ found, group ∈ context.groups ∧
      ∃ block ∈ slotBlocks, block.blockId ∈ blockIds group) _ _ ⟨by simp, by simp⟩ ?_
  rintro found ⟨hfound, hmem⟩ block hblock
  obtain ⟨hgroup, hid⟩ := groupOf_mem hgroups (hslot block hblock)
  dsimp only
  split_ifs with hskip
  · exact ⟨hfound, hmem⟩
  · rw [not_or] at hskip
    constructor
    · rw [List.flatMap_append, List.flatMap_singleton]
      refine nodup_append_new hfound (hgroups.ids hnodup hgroup).1 fun other hother hknown => ?_
      obtain ⟨group, hgroup', hmem'⟩ := List.mem_flatMap.mp hknown
      exact hskip.2 (List.mem_flatMap.mpr ⟨group, hgroup',
        hgroups.same_ids hnodup hgroup (hmem group hgroup').1 hother hmem' hid⟩)
    · intro group hgroup'
      rcases List.mem_append.mp hgroup' with hgroup' | hgroup'
      · exact hmem group hgroup'
      · rw [List.mem_singleton.mp hgroup']
        exact ⟨hgroup, block, hblock, hid⟩

/-- The blocks that are not in a sublist of distinct blocks are the others. -/
theorem append_filter_perm {blocks chosen : List CandidateBlock} (hnodup : (blockIds blocks).Nodup)
    (hchosen : chosen.Sublist blocks) :
    (chosen ++ blocks.filter fun block => block.blockId ∉ blockIds chosen).Perm blocks := by
  have hblocks : blocks.Nodup := hnodup.of_map
  have hmem : ∀ block, block ∈ chosen ↔
      block ∈ blocks.filter fun block => block.blockId ∈ blockIds chosen := by
    intro block
    rw [List.mem_filter, decide_eq_true_eq]
    refine ⟨fun hblock => ⟨hchosen.subset hblock, blockId_mem hblock⟩, fun hblock => ?_⟩
    obtain ⟨same, hsame, hid⟩ := List.mem_map.mp hblock.2
    rwa [eq_of_blockId hnodup (hchosen.subset hsame) hblock.1 hid] at hsame
  have hfirst := (List.perm_ext_iff_of_nodup (hblocks.sublist hchosen)
    (hblocks.filter _)).mpr hmem
  refine (hfirst.append_right _).trans ?_
  convert List.filter_append_perm (fun block => decide (block.blockId ∈ blockIds chosen)) blocks
    using 3
  simp

/-- Blocks that are alone in their groups are accounted for when some of them are selected and the others
rejected. -/
theorem Accounts.divide (h : Accounts context candidates state)
    (hgroups : Components candidates context.groups) (hnodup : (blockIds candidates).Nodup)
    {single raw : List CandidateBlock} (hsingle : single.Sublist candidates)
    (halone : ∀ block ∈ single, (groupOf context.groups block).length = 1)
    (hnew : ∀ id ∈ blockIds single, id ∉ state.handledIds) (hraw : raw.Sublist single)
    {reason : String} (hreason : reason ≠ "DUPLICATE_BLOCK_ID") :
    Accounts context candidates
      ((((raw.foldl (fun state candidate => state.selectRaw context candidate) state).handle
        single)).reject context (single.filter fun candidate => candidate.blockId ∉ blockIds raw)
        reason) := by
  obtain ⟨hselected, hhandled, hrejected⟩ := selectRaw_fold context state raw
  have hids : (blockIds single).Nodup := hnodup.sublist (hsingle.map _)
  have hblocks := fun block (hblock : block ∈ single) =>
    And.intro (hsingle.subset hblock) (halone block hblock)
  generalize raw.foldl (fun state candidate => state.selectRaw context candidate) state = last
    at hselected hhandled hrejected ⊢
  constructor
  · show (last.handledIds ++ blockIds single).Nodup
    rw [hhandled]
    exact nodup_append_new h.nodup hids hnew
  · show Grouped context.groups (last.handledIds ++ blockIds single)
    rw [hhandled]
    exact h.grouped.append_alone hgroups hblocks
  · show (last.selectedIds ++ (last.rejected ++ List.map _ _).map BlockRecord.blockId).Perm (last.handledIds ++ blockIds single)
    rw [hselected, hhandled, hrejected, List.map_append, map_blockId_rejection]
    -- The selected and the rejected ids of the slot stand on both sides of the older rejections.
    have hslot := (append_filter_perm hids hraw).map fun block => block.blockId
    rw [List.map_append] at hslot
    refine .trans ?_ (h.balanced.append hslot)
    rw [List.append_assoc, List.append_assoc]
    refine .append_left _ ?_
    rw [← List.append_assoc, ← List.append_assoc]
    exact List.perm_append_comm.append_right _
  · show ∀ record ∈ last.rejected ++ List.map _ _, _
    rw [hrejected]
    exact records_append h.records (fun block hblock =>
      hsingle.subset (List.mem_of_mem_filter hblock)) hreason

/-- The atomic groups of a raw slot are accounted for. -/
theorem Accounts.atomicGroups (h : Accounts context candidates state)
    (hgroups : Components candidates context.groups) (hnodup : (blockIds candidates).Nodup)
    (slot : RuntimeSlot) :
    Accounts context candidates
      ((SelectionState.atomicGroups context (state.slotCandidates candidates slot)).foldl
        (fun state group => state.emergencyGroup context group) state) := by
  have hslot : ∀ block ∈ state.slotCandidates candidates slot, block ∈ candidates :=
    fun block hblock => List.mem_of_mem_filter hblock
  obtain ⟨hdisjoint, hatomic⟩ := atomicGroups_disjoint hgroups hnodup hslot
  refine h.emergencyGroups hgroups hnodup (fun group hgroup => (hatomic group hgroup).1)
    hdisjoint ?_
  intro id hid
  obtain ⟨group, hgroup, hid⟩ := List.mem_flatMap.mp hid
  obtain ⟨hgroup, block, hblock, hin⟩ := hatomic group hgroup
  have hnew : block.blockId ∉ state.handledIds := by
    simpa using (Bool.and_eq_true_iff.mp (List.mem_filter.mp hblock).2).2
  exact h.unhandled hgroups hnodup hgroup hin hnew id hid

/-- A raw slot is accounted for in the emergency pass, and its candidates are handled. -/
theorem Accounts.emergencyRawSlot (h : Accounts context candidates state)
    (hgroups : Components candidates context.groups) (hnodup : (blockIds candidates).Nodup)
    (slot : RuntimeSlot) :
    Accounts context candidates (state.emergencyRawSlot context candidates slot) ∧
      (∀ block ∈ candidates, block.slot = slot →
        block.blockId ∈ (state.emergencyRawSlot context candidates slot).handledIds) ∧
      state.handledIds ⊆ (state.emergencyRawSlot context candidates slot).handledIds := by
  have hslot : ∀ block ∈ state.slotCandidates candidates slot, block ∈ candidates :=
    fun block hblock => List.mem_of_mem_filter hblock
  have hfirst := h.atomicGroups hgroups hnodup slot
  obtain ⟨-, halone⟩ := atomicGroups_spec hgroups hslot
  have hhandled := emergencyGroups_handled context state
    (SelectionState.atomicGroups context (state.slotCandidates candidates slot))
  unfold SelectionState.emergencyRawSlot
  dsimp only
  generalize (SelectionState.atomicGroups context (state.slotCandidates candidates slot)).foldl
    (fun state group => state.emergencyGroup context group) state = next at hfirst hhandled ⊢
  have hraw := longestRawSuffix_sublist context (next.selected candidates)
    (next.unhandled (state.slotCandidates candidates slot))
  -- What is left of the slot stands alone: groups of several blocks were handled before.
  have hsingle : ∀ block ∈ next.unhandled (state.slotCandidates candidates slot),
      block ∈ state.slotCandidates candidates slot ∧ block.blockId ∉ next.handledIds := by
    intro block hblock
    obtain ⟨hblock, hnew⟩ := List.mem_filter.mp hblock
    exact ⟨hblock, of_decide_eq_true hnew⟩
  generalize hblocks : next.unhandled (state.slotCandidates candidates slot) = single
    at hraw hsingle ⊢
  have hsub : single.Sublist candidates := by
    rw [← hblocks]
    exact List.filter_sublist.trans List.filter_sublist
  refine ⟨hfirst.divide hgroups hnodup hsub (fun block hblock => ?_) (fun id hid => ?_) hraw
    (by decide), fun block hblock hsame => ?_, fun id hid => ?_⟩
  · obtain ⟨hblock, hnew⟩ := hsingle block hblock
    refine (halone block hblock).resolve_right fun hknown => hnew ?_
    rw [hhandled]
    exact List.mem_append_right _ hknown
  · obtain ⟨block, hblock, rfl⟩ := List.mem_map.mp hid
    exact (hsingle block hblock).2
  · show block.blockId ∈ SelectionState.handledIds _ ++ blockIds single
    rw [(selectRaw_fold context next _).2.1]
    by_cases hdone : block.blockId ∈ next.handledIds
    · exact List.mem_append_left _ hdone
    · refine List.mem_append_right _ (blockId_mem ?_)
      rw [← hblocks]
      refine List.mem_filter.mpr ⟨List.mem_filter.mpr ⟨hblock, ?_⟩, decide_eq_true hdone⟩
      have hnew : block.blockId ∉ state.handledIds := fun hold => hdone (by
        rw [hhandled]
        exact List.mem_append_left _ hold)
      simp [hsame, hnew]
  · show id ∈ SelectionState.handledIds _ ++ blockIds single
    rw [(selectRaw_fold context next _).2.1, hhandled]
    exact List.mem_append_left _ (List.mem_append_left _ hid)

/-- Another slot is accounted for in the emergency pass, and its candidates are handled. -/
theorem Accounts.emergencySlot (h : Accounts context candidates state)
    (hgroups : Components candidates context.groups) (hnodup : (blockIds candidates).Nodup)
    (slot : RuntimeSlot) :
    Accounts context candidates (state.emergencySlot context candidates slot) ∧
      (∀ block ∈ candidates, block.slot = slot →
        block.blockId ∈ (state.emergencySlot context candidates slot).handledIds) ∧
      state.handledIds ⊆ (state.emergencySlot context candidates slot).handledIds := by
  obtain ⟨hlast, hdone, hkept⟩ := foldl_handles
    (fun state candidate =>
      if candidate.blockId ∈ state.handledIds then state
      else state.emergencyGroup context (groupOf context.groups candidate))
    (Accounts context candidates) (state.slotCandidates candidates slot)
    (fun (block : CandidateBlock) _ _ hsub (hid : block.blockId ∈ _) => hsub hid)
    (fun state block hblock h => by
      obtain ⟨hgroup, hid⟩ := groupOf_mem hgroups (List.mem_of_mem_filter hblock)
      split_ifs with hhandled
      · exact ⟨h, hhandled, fun _ hold => hold⟩
      · have hnew := h.unhandled hgroups hnodup hgroup hid hhandled
        rw [emergencyGroup_handled]
        exact ⟨h.emergencyGroup hgroups hnodup hgroup hnew, List.mem_append_right _ hid,
          fun _ hold => List.mem_append_left _ hold⟩) h
  refine ⟨hlast, fun block hblock hsame => ?_, hkept⟩
  by_cases hhandled : block.blockId ∈ state.handledIds
  · exact hkept hhandled
  · exact hdone block (List.mem_filter.mpr ⟨hblock, by simp [hsame, hhandled]⟩)

end SelectionState

/-- Every slot is in the priority order. -/
theorem mem_runtimeSlotPriority (slot : RuntimeSlot) : slot ∈ runtimeSlotPriority := by
  cases slot <;> decide

/-- Both passes account for all candidates. -/
theorem selection_accounts {context : SelectionContext} {candidates : List CandidateBlock}
    (hgroups : Components candidates context.groups) (hnodup : (blockIds candidates).Nodup) :
    ∀ last ∈ [normalSelection context candidates, emergencySelection context candidates],
      last.Accounts context candidates ∧ last.handledIds.Perm (blockIds candidates) := by
  have hall : ∀ last : SelectionState, last.Accounts context candidates →
      (∀ block ∈ candidates, block.blockId ∈ last.handledIds) →
      last.handledIds.Perm (blockIds candidates) := by
    intro last h hdone
    refine (List.perm_ext_iff_of_nodup h.nodup hnodup).mpr fun id => ⟨fun hid => ?_, fun hid => ?_⟩
    · obtain ⟨group, hgroup, hmem, -⟩ := h.grouped id hid
      exact (hgroups.ids hnodup hgroup).2 hmem
    · obtain ⟨block, hblock, rfl⟩ := List.mem_map.mp hid
      exact hdone block hblock
  have hnormal := SelectionState.foldl_handles
    (fun state candidate => state.normalStep context candidate)
    (SelectionState.Accounts context candidates) candidates
    (fun (block : CandidateBlock) _ _ hsub (hid : block.blockId ∈ _) => hsub hid)
    (fun state candidate hcandidate h => h.normalStep hgroups hnodup hcandidate) .start
  have hemergency := SelectionState.foldl_handles
    (fun state slot => if slot.isRaw then state.emergencyRawSlot context candidates slot
      else state.emergencySlot context candidates slot)
    (SelectionState.Accounts context candidates) runtimeSlotPriority
    (fun slot _ _ hsub (hids : ∀ block ∈ candidates, block.slot = slot → block.blockId ∈ _)
      block hblock hsame => hsub (hids block hblock hsame))
    (fun state slot _ h => by
      split_ifs
      · exact h.emergencyRawSlot hgroups hnodup slot
      · exact h.emergencySlot hgroups hnodup slot) .start
  intro last hlast
  rcases List.mem_cons.mp hlast with rfl | hlast
  · exact ⟨hnormal.1, hall _ hnormal.1 hnormal.2.1⟩
  · obtain rfl := List.mem_singleton.mp hlast
    exact ⟨hemergency.1, hall _ hemergency.1 fun block hblock =>
      hemergency.2.1 block.slot (mem_runtimeSlotPriority _) block hblock rfl⟩

/-! ## Entries of the trace -/

/-- What a trace tells of a block, apart from its cost and the reason. -/
structure BlockEntry where
  blockId : String
  slot : RuntimeSlot
  sourceEventIds : List String
  score : Rat
deriving DecidableEq

/-- The entry of a candidate. -/
def CandidateBlock.entry (candidate : CandidateBlock) : BlockEntry :=
  ⟨candidate.blockId, candidate.slot, candidate.sourceEventIds, candidate.score⟩

/-- The entry of a record. -/
def BlockRecord.entry (record : BlockRecord) : BlockEntry :=
  ⟨record.blockId, record.slot, record.sourceEventIds, record.score⟩

/-- The records of blocks have the entries of the blocks. -/
@[simp] theorem entry_record (candidate : CandidateBlock) (tokenCost : Nat) (reason : String) :
    (candidate.record tokenCost reason).entry = candidate.entry := rfl

/-- The rejection of a block has its entry. -/
@[simp] theorem entry_rejection (counts : TokenCounts) (reason : String)
    (candidate : CandidateBlock) : (rejection counts reason candidate).entry = candidate.entry := rfl

/-- Elements with distinct keys are known by their keys. -/
theorem perm_of_keys {α κ : Type} (key : α → κ) {items others : List α}
    (hkeys : (items.map key).Perm (others.map key)) (hnodup : (others.map key).Nodup)
    (hsub : items ⊆ others) : items.Perm others := by
  have hitems : (items.map key).Nodup := hkeys.nodup_iff.mpr hnodup
  refine (List.perm_ext_iff_of_nodup hitems.of_map hnodup.of_map).mpr fun item =>
    ⟨fun hitem => hsub hitem, fun hitem => ?_⟩
  obtain ⟨same, hsame, hkey⟩ := List.mem_map.mp (hkeys.mem_iff.mpr (List.mem_map_of_mem hitem))
  rwa [List.inj_on_of_nodup_map hnodup (hsub hsame) hitem hkey] at hsame

/-- What a pass selects and rejects are the candidates. -/
theorem SelectionState.Accounts.entries {context : SelectionContext}
    {candidates : List CandidateBlock} {last : SelectionState}
    (h : last.Accounts context candidates) (hnodup : (blockIds candidates).Nodup)
    (hall : last.handledIds.Perm (blockIds candidates)) :
    ((last.selected candidates).map CandidateBlock.entry ++
      last.rejected.map BlockRecord.entry).Perm (candidates.map CandidateBlock.entry) := by
  have hids := h.balanced.trans hall
  have hselected : (blockIds (last.selected candidates)).Perm last.selectedIds := by
    have hnodup' := (List.nodup_append.mp (hids.nodup_iff.mpr hnodup)).1
    refine (List.perm_ext_iff_of_nodup (hnodup.sublist (List.filter_sublist.map _)) hnodup').mpr
      fun id => ⟨fun hid => ?_, fun hid => ?_⟩
    · obtain ⟨block, hblock, rfl⟩ := List.mem_map.mp hid
      exact of_decide_eq_true (List.mem_filter.mp hblock).2
    · obtain ⟨block, hblock, rfl⟩ :=
        List.mem_map.mp (hids.subset (List.mem_append_left _ hid))
      exact blockId_mem (List.mem_filter.mpr ⟨hblock, decide_eq_true hid⟩)
  refine perm_of_keys BlockEntry.blockId ?_ ?_ ?_
  · simpa [Function.comp_def, CandidateBlock.entry, BlockRecord.entry, blockIds] using
      (hselected.append_right _).trans hids
  · simpa [Function.comp_def, CandidateBlock.entry, blockIds] using hnodup
  · intro entry hentry
    rcases List.mem_append.mp hentry with hentry | hentry
    · obtain ⟨block, hblock, rfl⟩ := List.mem_map.mp hentry
      exact List.mem_map_of_mem (List.mem_of_mem_filter hblock)
    · obtain ⟨record, hrecord, rfl⟩ := List.mem_map.mp hentry
      obtain ⟨block, hblock, hrejection, -⟩ := h.records record hrecord
      rw [hrejection, entry_rejection]
      exact List.mem_map_of_mem hblock

/-- The reason of a duplicate. -/
def BlockRecord.isDuplicate (record : BlockRecord) : Bool :=
  decide (record.reason = "DUPLICATE_BLOCK_ID")

/-- What is selected and rejected by counts are the candidates. -/
theorem selectByCounts_accounts {context : SelectionContext} {candidates : List CandidateBlock}
    (hgroups : Components candidates context.groups) (hnodup : (blockIds candidates).Nodup) :
    ((selectByCounts context candidates).2.1.map CandidateBlock.entry ++
        (selectByCounts context candidates).2.2.map BlockRecord.entry).Perm
      (candidates.map CandidateBlock.entry) ∧
      ∀ record ∈ (selectByCounts context candidates).2.2, record.isDuplicate = false := by
  have haccounts := selection_accounts hgroups hnodup
  obtain ⟨hnormal, hnormalAll⟩ := haccounts _ List.mem_cons_self
  obtain ⟨hemergency, hemergencyAll⟩ := haccounts _ (List.mem_cons_of_mem _ List.mem_cons_self)
  have hreasons : ∀ last : SelectionState, last.Accounts context candidates →
      ∀ record ∈ last.rejected, record.isDuplicate = false := by
    intro last h record hrecord
    obtain ⟨_, -, -, hreason⟩ := h.records record hrecord
    exact decide_eq_false hreason
  unfold selectByCounts
  dsimp only
  split_ifs
  · exact ⟨hemergency.entries hnodup hemergencyAll, hreasons _ hemergency⟩
  · exact ⟨hnormal.entries hnodup hnormalAll, hreasons _ hnormal⟩

/-! ## The exact selection -/

/-- The exact loop moves blocks from the selection to the rejections. -/
theorem exactFinalSelection_accounts {counter : TokenCounter σ} {counts : TokenCounts} {bAc : Nat}
    {fuel : Nat} {selected : List CandidateBlock} (hnodup : (blockIds selected).Nodup)
    (removed : List BlockRecord) (s : σ) :
    Yields (fun _ => True)
      (fun exact _ => ∃ gone, exact.removed = removed ++
          gone.map (rejection counts "EXACT_BUDGET_COMPONENT_REMOVED") ∧
        (exact.selected ++ gone).Perm selected)
      (exactFinalSelection counter counts bAc fuel selected removed) s := by
  induction fuel generalizing selected removed s with
  | zero => exact .throw trivial
  | succ fuel ih =>
      refine .after fun exactCost s' => .ite (fun _ => .pure ⟨[], by simp, by simp⟩) fun _ => ?_
      obtain ⟨choice, hchoice, hspec⟩ := lowestPriorityOptionalGroup_spec hnodup
      refine .performed hchoice ?_
      cases choice with
      | none => exact .throw trivial
      | some group =>
          obtain ⟨⟨groups, hgroups, hgroup⟩, -⟩ := hspec group rfl
          have hsplit := SelectionState.append_filter_perm hnodup (hgroups.ordered group hgroup)
          refine (ih (hnodup.sublist (List.filter_sublist.map _)) _ s').mono ?_
          rintro exact _ ⟨gone, hremoved, hperm⟩
          refine ⟨group ++ gone, by rw [hremoved, List.map_append, List.append_assoc], ?_⟩
          refine .trans ?_ (hsplit.symm.symm)
          rw [← List.append_assoc]
          refine (List.perm_append_comm.append_right gone).trans ?_
          rw [List.append_assoc]
          exact hperm.append_left group

/-! ## The duplicates -/

/-- Deduplication divides the candidates. -/
theorem deduplicate_perm (candidates : List CandidateBlock) :
    ((deduplicate candidates).1 ++ (deduplicate candidates).2).Perm candidates := by
  have hfold : ∀ (rest : List CandidateBlock) (found : List CandidateBlock × List CandidateBlock),
      ((rest.foldl deduplicateStep found).1 ++ (rest.foldl deduplicateStep found).2).Perm
        (found.1 ++ found.2 ++ rest) := by
    intro rest
    induction rest with
    | nil => simp
    | cons candidate rest ih =>
        intro found
        refine (ih (deduplicateStep found candidate)).trans ?_
        rw [← List.singleton_append, ← List.append_assoc]
        refine .append_right rest ?_
        unfold deduplicateStep
        split
        · rw [List.append_assoc]
        · rw [List.append_assoc, List.append_assoc]
          exact List.perm_append_comm.append_left _
  have hall := hfold (orderedCandidates candidates) ([], [])
  exact hall.trans (List.perm_insertionSort _ candidates)

/-- Every duplicate has its rejection. -/
theorem duplicateRejections_accounts (counter : TokenCounter σ) (duplicates : List CandidateBlock)
    (s : σ) :
    Yields (fun _ => True)
      (fun records _ => records.map BlockRecord.entry = duplicates.map CandidateBlock.entry ∧
        ∀ record ∈ records, record.isDuplicate = true)
      (duplicateRejections counter duplicates) s := by
  induction duplicates generalizing s with
  | nil => exact .pure ⟨rfl, by simp⟩
  | cons candidate rest ih =>
      refine .after fun tokenCost s' => (ih s').bind fun records _ hrecords => .pure ?_
      exact ⟨by simp [hrecords.1], List.forall_mem_cons.mpr ⟨decide_eq_true rfl, hrecords.2⟩⟩

/-! ## The costs of the slots -/

/-- The costs of the slots add up to the costs of the selections. -/
theorem slotTokenCosts_sum (selections : List BlockRecord) :
    ((slotTokenCosts selections).map Prod.snd).sum =
      (selections.map BlockRecord.tokenCost).sum := by
  have hnonzero : ∀ costs : List (RuntimeSlot × Nat),
      ((costs.filter fun entry => entry.2 ≠ 0).map Prod.snd).sum = (costs.map Prod.snd).sum := by
    intro costs
    induction costs with
    | nil => rfl
    | cons entry rest ih =>
        by_cases hzero : entry.2 = 0
        · rw [List.filter_cons_of_neg (by simpa using hzero), ih, List.map_cons, List.sum_cons,
            hzero, Nat.zero_add]
        · rw [List.filter_cons_of_pos (by simpa using hzero), List.map_cons, List.sum_cons, ih,
            List.map_cons, List.sum_cons]
  rw [slotTokenCosts, hnonzero, List.map_map]
  induction selections with
  | nil => rfl
  | cons record rest ih =>
      rw [List.map_cons, List.sum_cons, ← ih]
      -- The record counts in its own slot, and the slots are distinct.
      cases hslot : record.slot <;>
        simp only [runtimeSlotPriority, Function.comp_def, List.map_cons, List.map_nil,
          List.filter_cons, hslot, List.sum_cons, List.sum_nil] <;>
        simp <;> omega

/-! ## Assembly -/

/-- The trace accounts for every candidate, and for the exact cost. -/
structure Accounted (candidates : List CandidateBlock) (trace : AssemblyTrace) : Prop where
  /-- The selections and the rejections are the candidates. -/
  entries : ((trace.selections ++ trace.rejections).map BlockRecord.entry).Perm
    (candidates.map CandidateBlock.entry)
  /-- Without the rejections of duplicates they are the canonical candidates. -/
  canonical : ((trace.selections ++ trace.rejections.filter fun record => !record.isDuplicate).map
    BlockRecord.entry).Perm ((canonicalCandidates candidates).map CandidateBlock.entry)
  /-- A canonical candidate is selected once, or else rejected once. -/
  once : ∀ block ∈ canonicalCandidates candidates,
    let selected := (trace.selections.map BlockRecord.blockId).count block.blockId
    let rejected := ((trace.rejections.filter fun record => !record.isDuplicate).map
      BlockRecord.blockId).count block.blockId
    (selected = 1 ∧ rejected = 0) ∨ (selected = 0 ∧ rejected = 1)
  /-- The rejections of duplicates are the dropped duplicates. -/
  duplicates : ((trace.rejections.filter BlockRecord.isDuplicate).map BlockRecord.entry).Perm
    ((deduplicate candidates).2.map CandidateBlock.entry)
  /-- The costs of the slots and the overhead make up the exact cost. -/
  costs : (((trace.slotTokenCosts.map Prod.snd).sum : Nat) : Int) + trace.projectionOverheadCost =
    trace.acSelectedCost

/-- The parts of a trace account for the candidates. -/
theorem Accounted.of_parts {candidates : List CandidateBlock} {trace : AssemblyTrace}
    {selected : List CandidateBlock} {duplicateRecords rejections : List BlockRecord}
    (hselections : trace.selections.map BlockRecord.entry = selected.map CandidateBlock.entry)
    (hrejections : trace.rejections.Perm (duplicateRecords ++ rejections))
    (hduplicates : duplicateRecords.map BlockRecord.entry =
      (deduplicate candidates).2.map CandidateBlock.entry)
    (hduplicate : ∀ record ∈ duplicateRecords, record.isDuplicate = true)
    (hother : ∀ record ∈ rejections, record.isDuplicate = false)
    (hcanonical : (selected.map CandidateBlock.entry ++ rejections.map BlockRecord.entry).Perm
      ((canonicalCandidates candidates).map CandidateBlock.entry))
    (hcosts : (((trace.slotTokenCosts.map Prod.snd).sum : Nat) : Int) +
      trace.projectionOverheadCost = trace.acSelectedCost) : Accounted candidates trace := by
  have hkept : (trace.rejections.filter fun record => !record.isDuplicate).Perm rejections := by
    refine (hrejections.filter _).trans ?_
    rw [List.filter_append, List.filter_eq_nil_iff.mpr fun record hrecord => by
      simp [hduplicate record hrecord], List.filter_eq_self.mpr fun record hrecord => by
      simp [hother record hrecord], List.nil_append]
  have hdropped : (trace.rejections.filter BlockRecord.isDuplicate).Perm duplicateRecords := by
    refine (hrejections.filter _).trans ?_
    rw [List.filter_append, List.filter_eq_self.mpr hduplicate,
      List.filter_eq_nil_iff.mpr fun record hrecord => by simp [hother record hrecord],
      List.append_nil]
  have hunique : ((trace.selections ++ trace.rejections.filter fun record =>
      !record.isDuplicate).map BlockRecord.entry).Perm
        ((canonicalCandidates candidates).map CandidateBlock.entry) := by
    rw [List.map_append, hselections]
    exact ((hkept.map _).append_left _).trans hcanonical
  refine ⟨?_, hunique, fun block hblock => ?_, ?_, hcosts⟩
  · rw [List.map_append, hselections]
    refine ((hrejections.map _).append_left _).trans ?_
    rw [List.map_append, hduplicates]
    refine .trans ?_ ((deduplicate_perm candidates).map _)
    rw [List.map_append, ← List.append_assoc]
    refine (List.perm_append_comm.append_right _).trans ?_
    rw [List.append_assoc]
    exact (hcanonical.append_left _).trans List.perm_append_comm
  · have hone := (hunique.map BlockEntry.blockId).count_eq block.blockId
    have hid : (((canonicalCandidates candidates).map CandidateBlock.entry).map
        BlockEntry.blockId).count block.blockId = 1 := by
      rw [List.map_map]
      exact List.count_eq_one_of_mem (canonicalCandidates_spec candidates).1 (blockId_mem hblock)
    rw [hid, List.map_map, List.map_append, List.count_append] at hone
    dsimp only
    have hcomp : BlockEntry.blockId ∘ BlockRecord.entry = BlockRecord.blockId := rfl
    rw [hcomp] at hone
    omega
  · rw [← hduplicates]
    exact hdropped.map _

/-- Every assembly that returns accounts for its candidates and its costs. -/
theorem assembly_accounts (view : RequestView) (candidates : List CandidateBlock)
    (counter : TokenCounter σ) (input : AssemblyInput) (s : σ) :
    Yields (fun _ => True) (fun result _ => Accounted candidates result.trace)
      (assemble view candidates counter input) s := by
  have hnodup := (canonicalCandidates_spec candidates).1
  obtain ⟨groups, hgroups, hcomponents⟩ := dependencyGroups_components hnodup
  refine .after fun costs s₁ => .after fun counts s₂ => .after fun separatorCost s₃ => ?_
  refine (duplicateRejections_accounts counter _ s₃).bind fun duplicateRecords s₄ hduplicates => ?_
  refine .performed hgroups ?_
  let context : SelectionContext := ⟨groups, counts, separatorCost, costs.bAc⟩
  obtain ⟨hentries, hreasons⟩ := selectByCounts_accounts
    (show Components (canonicalCandidates candidates) context.groups from hcomponents) hnodup
  have hsub := (selectByCounts_spec context hcomponents hnodup).1
  refine .after fun _ s₅ => ?_
  refine (exactFinalSelection_accounts (hnodup.sublist (hsub.map _)) [] s₅).bind
    fun exact s₆ hexact => ?_
  obtain ⟨gone, hremoved, hperm⟩ := hexact
  rw [List.nil_append] at hremoved
  -- What the exact loop removed was selected by the pass.
  have hcanonical : (exact.selected.map CandidateBlock.entry ++
      ((selectByCounts context (canonicalCandidates candidates)).2.2 ++ exact.removed).map
        BlockRecord.entry).Perm ((canonicalCandidates candidates).map CandidateBlock.entry) := by
    have hgone : exact.removed.map BlockRecord.entry = gone.map CandidateBlock.entry := by
      simp [hremoved, Function.comp_def]
    rw [List.map_append, hgone]
    refine .trans ?_ hentries
    refine .trans (.append_left _ List.perm_append_comm) ?_
    rw [← List.append_assoc, ← List.map_append]
    exact (hperm.map _).append_right _
  have hother : ∀ record ∈ (selectByCounts context (canonicalCandidates candidates)).2.2 ++
      exact.removed, record.isDuplicate = false := by
    intro record hrecord
    rcases List.mem_append.mp hrecord with hrecord | hrecord
    · exact hreasons record hrecord
    · rw [hremoved] at hrecord
      obtain ⟨block, -, rfl⟩ := List.mem_map.mp hrecord
      exact decide_eq_false (by simp [rejection, CandidateBlock.record])
  refine (Yields.ensured (Ensures.bind (.require fun _ => trivial) fun _ _ => .pure ?_)).bind
    fun trace _ htrace => .pure htrace.1
  refine .of_parts ?_ ?_ hduplicates.1 hduplicates.2 hother hcanonical ?_
  · simp [Function.comp_def]
  · rw [← List.append_assoc]
    exact List.perm_insertionSort _ _
  · dsimp only
    rw [slotTokenCosts_sum]
    omega

end AstrContinuum
