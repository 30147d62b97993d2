import Mathlib.Data.List.Infix
import AstrContinuum.ContextGraph.Components
import AstrContinuum.Runtime.Budget

/-!
# What an assembly guarantees

`assembly_within_budget`: whatever the candidates, the counter, the provided counts and the
configuration, an assembly that returns has counted its exact text, stays within the budget, joins the
selected blocks in canonical order, and has selected every required block and only whole dependency
groups. No assembly raises the internal invariant error, and the loop that removes groups ends.

The two passes select whole groups (`Grouped`), so the selection is closed under companions. The groups
of a closed selection are groups of all candidates, so removing one of them keeps the selection
closed.
-/

namespace AstrContinuum

open Checked Effects

variable {σ : Type}

/-! ## The canonical candidates -/

/-- One iteration keeps the ids distinct and takes only the candidate in. -/
theorem deduplicateStep_spec {found : List CandidateBlock × List CandidateBlock}
    (h : (blockIds found.1).Nodup) (candidate : CandidateBlock) :
    (blockIds (deduplicateStep found candidate).1).Nodup ∧
      ∀ block ∈ (deduplicateStep found candidate).1, block ∈ found.1 ∨ block = candidate := by
  unfold deduplicateStep
  split
  · exact ⟨h, fun block hblock => .inl hblock⟩
  · next hnew =>
      refine ⟨?_, fun block hblock => by simpa using hblock⟩
      rw [blockIds, List.map_append, List.map_singleton]
      exact List.nodup_append.mpr ⟨h, by simp, by
        rintro id hid _ hcandidate rfl
        exact hnew (by simpa using List.mem_singleton.mp hcandidate ▸ hid)⟩

/-- The canonical candidates have distinct ids and are candidates. -/
theorem canonicalCandidates_spec (candidates : List CandidateBlock) :
    (blockIds (canonicalCandidates candidates)).Nodup ∧
      ∀ block ∈ canonicalCandidates candidates, block ∈ candidates := by
  refine List.foldlRecOn (motive := fun found : List CandidateBlock × List CandidateBlock =>
    (blockIds found.1).Nodup ∧ ∀ block ∈ found.1, block ∈ candidates) _ _
    ⟨by simp [blockIds], by simp⟩ ?_
  rintro found ⟨hnodup, hfound⟩ candidate hcandidate
  obtain ⟨hnext, hmem⟩ := deduplicateStep_spec hnodup candidate
  refine ⟨hnext, fun block hblock => ?_⟩
  rcases hmem block hblock with hold | rfl
  · exact hfound block hold
  · exact (List.perm_insertionSort _ candidates).mem_iff.mp hcandidate

/-- Two blocks of a list with distinct ids are equal when their ids are. -/
theorem eq_of_blockId {candidates : List CandidateBlock} (h : (blockIds candidates).Nodup)
    {left right : CandidateBlock} (hleft : left ∈ candidates) (hright : right ∈ candidates)
    (hid : left.blockId = right.blockId) : left = right :=
  List.inj_on_of_nodup_map h hleft hright hid

/-- A block of a list has its id among the ids. -/
theorem blockId_mem {blocks : List CandidateBlock} {block : CandidateBlock} (h : block ∈ blocks) :
    block.blockId ∈ blockIds blocks :=
  List.mem_map_of_mem h

/-! ## Whole groups -/

/-- The ids are those of whole groups. -/
def Grouped (groups : List (List CandidateBlock)) (ids : List String) : Prop :=
  ∀ id ∈ ids, ∃ group ∈ groups, id ∈ blockIds group ∧ ∀ block ∈ group, block.blockId ∈ ids

/-- Whole groups and one more are whole groups. -/
theorem Grouped.append {groups : List (List CandidateBlock)} {ids : List String}
    (h : Grouped groups ids) {group : List CandidateBlock} (hgroup : group ∈ groups) :
    Grouped groups (ids ++ blockIds group) := by
  intro id hid
  rcases List.mem_append.mp hid with hid | hid
  · obtain ⟨found, hfound, hmem, hwhole⟩ := h id hid
    exact ⟨found, hfound, hmem, fun block hblock => List.mem_append_left _ (hwhole block hblock)⟩
  · exact ⟨group, hgroup, hid, fun block hblock =>
      List.mem_append_right _ (blockId_mem hblock)⟩

/-- The group of a candidate is one of the groups, and holds its id. -/
theorem groupOf_mem {candidates : List CandidateBlock} {groups : List (List CandidateBlock)}
    (h : Components candidates groups) {candidate : CandidateBlock}
    (hcandidate : candidate ∈ candidates) :
    groupOf groups candidate ∈ groups ∧ candidate.blockId ∈ blockIds (groupOf groups candidate) := by
  obtain ⟨group, hgroup, hmem⟩ := h.covers candidate hcandidate
  have hfound : (groups.find? fun group => decide (candidate.blockId ∈ blockIds group)).isSome := by
    rw [List.find?_isSome]
    exact ⟨group, hgroup, decide_eq_true (blockId_mem hmem)⟩
  obtain ⟨found, hfound⟩ := Option.isSome_iff_exists.mp hfound
  rw [groupOf, hfound, Option.getD_some]
  exact ⟨List.mem_of_find?_eq_some hfound, by simpa using List.find?_some hfound⟩

/-- Blocks that are alone in their groups are whole groups. -/
theorem Grouped.append_alone {candidates : List CandidateBlock}
    {groups : List (List CandidateBlock)} {ids : List String} (h : Grouped groups ids)
    (hgroups : Components candidates groups) {blocks : List CandidateBlock}
    (hblocks : ∀ block ∈ blocks, block ∈ candidates ∧ (groupOf groups block).length = 1) :
    Grouped groups (ids ++ blockIds blocks) := by
  intro id hid
  rcases List.mem_append.mp hid with hid | hid
  · obtain ⟨group, hgroup, hmem, hwhole⟩ := h id hid
    exact ⟨group, hgroup, hmem, fun block hblock => List.mem_append_left _ (hwhole block hblock)⟩
  · obtain ⟨block, hblock, rfl⟩ := List.mem_map.mp hid
    obtain ⟨hcandidate, hlength⟩ := hblocks block hblock
    obtain ⟨hgroup, hmem⟩ := groupOf_mem hgroups hcandidate
    refine ⟨_, hgroup, hmem, fun other hother => List.mem_append_right _ ?_⟩
    obtain ⟨only, honly⟩ := List.length_eq_one_iff.mp hlength
    rw [honly] at hmem hother
    obtain rfl := List.mem_singleton.mp hother
    have hsame : block.blockId = other.blockId := List.mem_singleton.mp hmem
    exact hsame ▸ hid

namespace SelectionState

variable {context : SelectionContext} {state : SelectionState} {candidates : List CandidateBlock}

/-- A group treated in the emergency pass is taken whole or left out. -/
theorem emergencyGroup_grouped (h : Grouped context.groups state.selectedIds)
    {group : List CandidateBlock} (hgroup : group ∈ context.groups) :
    Grouped context.groups (state.emergencyGroup context group).selectedIds := by
  unfold emergencyGroup
  dsimp only
  split_ifs
  · exact h
  · exact h.append hgroup
  · exact h

/-- A group treated in the emergency pass is handled. -/
theorem emergencyGroup_handled (state : SelectionState) (group : List CandidateBlock) :
    (state.emergencyGroup context group).handledIds = state.handledIds ++ blockIds group := by
  unfold emergencyGroup
  dsimp only
  split_ifs <;> rfl

/-- An iteration of the normal pass takes a group whole or leaves it out. -/
theorem normalStep_grouped (hgroups : Components candidates context.groups)
    (h : Grouped context.groups state.selectedIds) {candidate : CandidateBlock}
    (hcandidate : candidate ∈ candidates) :
    Grouped context.groups (state.normalStep context candidate).selectedIds := by
  unfold normalStep
  dsimp only
  split_ifs
  · exact h
  · exact h.append (groupOf_mem hgroups hcandidate).1
  · exact h

/-- The emergency pass over some groups handles them all. -/
theorem emergencyGroups_handled (context : SelectionContext) (state : SelectionState)
    (groups : List (List CandidateBlock)) :
    (groups.foldl (fun state group => state.emergencyGroup context group) state).handledIds =
      state.handledIds ++ groups.flatMap blockIds := by
  induction groups generalizing state with
  | nil => simp
  | cons group rest ih =>
      rw [List.foldl_cons, ih, emergencyGroup_handled, List.flatMap_cons, List.append_assoc]

/-- The emergency pass over some groups takes each whole or leaves it out. -/
theorem emergencyGroups_grouped {groups : List (List CandidateBlock)}
    (hgroups : ∀ group ∈ groups, group ∈ context.groups)
    (h : Grouped context.groups state.selectedIds) :
    Grouped context.groups (groups.foldl
      (fun state group => state.emergencyGroup context group) state).selectedIds := by
  refine List.foldlRecOn
    (motive := fun state : SelectionState => Grouped context.groups state.selectedIds) _ _ h ?_
  intro state h group hgroup
  exact emergencyGroup_grouped h (hgroups group hgroup)

/-- The atomic groups of a raw slot are groups, and every candidate of the slot is alone in its group
or in one of them. -/
theorem atomicGroups_spec (hgroups : Components candidates context.groups)
    {slotBlocks : List CandidateBlock} (hslot : ∀ block ∈ slotBlocks, block ∈ candidates) :
    (∀ group ∈ atomicGroups context slotBlocks, group ∈ context.groups) ∧
      ∀ block ∈ slotBlocks, (groupOf context.groups block).length = 1 ∨
        block.blockId ∈ (atomicGroups context slotBlocks).flatMap blockIds := by
  have hfold : ∀ (rest : List CandidateBlock) (found : List (List CandidateBlock)),
      (∀ block ∈ rest, block ∈ candidates) → (∀ group ∈ found, group ∈ context.groups) →
      let last := rest.foldl (fun found candidate =>
        let group := groupOf context.groups candidate
        if group.length = 1 ∨ candidate.blockId ∈ found.flatMap blockIds then found
        else found ++ [group]) found
      (∀ group ∈ last, group ∈ context.groups) ∧ (∀ group ∈ found, group ∈ last) ∧
        ∀ block ∈ rest, (groupOf context.groups block).length = 1 ∨
          block.blockId ∈ last.flatMap blockIds := by
    intro rest
    induction rest with
    | nil => exact fun found _ hfound => ⟨hfound, fun _ h => h, by simp⟩
    | cons block rest ih =>
        intro found hrest hfound
        obtain ⟨hmem, hid⟩ := groupOf_mem hgroups (hrest block List.mem_cons_self)
        have hrest' : ∀ other ∈ rest, other ∈ candidates :=
          fun other hother => hrest other (List.mem_cons_of_mem _ hother)
        rw [List.foldl_cons]
        dsimp only
        split_ifs with hskip
        · obtain ⟨hgroup, hkept, hcovered⟩ := ih found hrest' hfound
          refine ⟨hgroup, hkept, fun other hother => ?_⟩
          rcases List.mem_cons.mp hother with rfl | hother
          · refine hskip.imp_right fun hknown => ?_
            obtain ⟨group, hgroup, hid⟩ := List.mem_flatMap.mp hknown
            exact List.mem_flatMap.mpr ⟨group, hkept group hgroup, hid⟩
          · exact hcovered other hother
        · obtain ⟨hgroup, hkept, hcovered⟩ := ih (found ++ [groupOf context.groups block]) hrest'
            (by
              intro group hgroup
              rcases List.mem_append.mp hgroup with hgroup | hgroup
              · exact hfound group hgroup
              · rw [List.mem_singleton.mp hgroup]
                exact hmem)
          refine ⟨hgroup, fun group hgroup => hkept group (List.mem_append_left _ hgroup),
            fun other hother => ?_⟩
          rcases List.mem_cons.mp hother with rfl | hother
          · refine .inr (List.mem_flatMap.mpr ⟨_, hkept _ (by simp), hid⟩)
          · exact hcovered other hother
  obtain ⟨hgroup, -, hcovered⟩ := hfold slotBlocks [] hslot (by simp)
  exact ⟨hgroup, hcovered⟩

/-- Selecting raw blocks adds their ids, and changes nothing else. -/
theorem selectRaw_fold (context : SelectionContext) (state : SelectionState)
    (raw : List CandidateBlock) :
    let last := raw.foldl (fun state candidate => state.selectRaw context candidate) state
    last.selectedIds = state.selectedIds ++ blockIds raw ∧ last.handledIds = state.handledIds ∧
      last.rejected = state.rejected := by
  induction raw generalizing state with
  | nil => exact ⟨(List.append_nil _).symm, rfl, rfl⟩
  | cons block rest ih =>
      obtain ⟨hselected, hhandled, hrejected⟩ := ih (state.selectRaw context block)
      refine ⟨hselected.trans ?_, hhandled, hrejected⟩
      show state.selectedIds ++ [block.blockId] ++ blockIds rest = _
      rw [List.append_assoc]
      rfl

/-- Selecting blocks that are alone in their groups selects whole groups. -/
theorem selectRaw_grouped (hgroups : Components candidates context.groups)
    (h : Grouped context.groups state.selectedIds) {raw : List CandidateBlock}
    (hraw : ∀ block ∈ raw, block ∈ candidates ∧ (groupOf context.groups block).length = 1) :
    Grouped context.groups (raw.foldl
      (fun state candidate => state.selectRaw context candidate) state).selectedIds := by
  rw [(selectRaw_fold context state raw).1]
  exact h.append_alone hgroups hraw

/-- The contiguous tail is a final part of what it is taken from. -/
theorem contiguousFrom_suffix (tail older : List CandidateBlock) :
    contiguousFrom tail older <:+ older.reverse ++ tail := by
  induction older generalizing tail with
  | nil => exact List.suffix_rfl
  | cons previous older ih =>
      rw [List.reverse_cons, List.append_assoc]
      cases tail with
      | nil => exact ih [previous]
      | cons current rest =>
          rw [contiguousFrom]
          split
          · exact ih (previous :: current :: rest)
          · exact (List.suffix_cons _ _).trans (List.suffix_append _ _)

/-- The chosen suffix of a raw tail is a sublist of what the tail is taken from. -/
theorem longestRawSuffix_sublist (context : SelectionContext)
    (critical single : List CandidateBlock) :
    (longestRawSuffix context critical (contiguousRawTail single)).Sublist single := by
  have htail : (contiguousRawTail single).Sublist single := by
    have hsuffix := contiguousFrom_suffix []
      (single.filter fun candidate => candidate.eventSequence ≠ none).reverse
    rw [List.reverse_reverse, List.append_nil] at hsuffix
    exact hsuffix.sublist.trans List.filter_sublist
  unfold longestRawSuffix
  cases hfound : (contiguousRawTail single).tails.find? fun suffix =>
      decide (suffixEstimate context critical suffix ≤ context.bAc) with
  | none => exact List.nil_sublist _
  | some suffix =>
      exact ((List.mem_tails _ _).mp (List.mem_of_find?_eq_some hfound)).sublist.trans htail

/-- The emergency pass over a raw slot selects whole groups. -/
theorem emergencyRawSlot_grouped (hgroups : Components candidates context.groups)
    (h : Grouped context.groups state.selectedIds) (slot : RuntimeSlot) :
    Grouped context.groups (state.emergencyRawSlot context candidates slot).selectedIds := by
  have hslot : ∀ block ∈ state.slotCandidates candidates slot, block ∈ candidates :=
    fun block hblock => List.mem_of_mem_filter hblock
  obtain ⟨hatomic, halone⟩ := atomicGroups_spec hgroups hslot
  refine selectRaw_grouped hgroups (emergencyGroups_grouped hatomic h) fun block hblock => ?_
  -- A block of the suffix was not handled, so no group of several blocks holds it.
  obtain ⟨hmem, hnot⟩ := List.mem_filter.mp ((longestRawSuffix_sublist _ _ _).subset hblock)
  refine ⟨hslot block hmem, (halone block hmem).resolve_right fun hknown => ?_⟩
  rw [emergencyGroups_handled] at hnot
  exact absurd (List.mem_append_right _ hknown) (by simpa using hnot)

/-- The emergency pass over one of the other slots selects whole groups. -/
theorem emergencySlot_grouped (hgroups : Components candidates context.groups)
    (h : Grouped context.groups state.selectedIds) (slot : RuntimeSlot) :
    Grouped context.groups (state.emergencySlot context candidates slot).selectedIds := by
  refine List.foldlRecOn
    (motive := fun state : SelectionState => Grouped context.groups state.selectedIds) _ _ h ?_
  intro state h candidate hcandidate
  split_ifs
  · exact h
  · exact emergencyGroup_grouped h (groupOf_mem hgroups (List.mem_of_mem_filter hcandidate)).1

end SelectionState

/-- Both passes select whole groups. -/
theorem selection_grouped {context : SelectionContext} {candidates : List CandidateBlock}
    (hgroups : Components candidates context.groups) :
    Grouped context.groups (normalSelection context candidates).selectedIds ∧
      Grouped context.groups (emergencySelection context candidates).selectedIds := by
  have hempty : Grouped context.groups ({} : SelectionState).selectedIds := by simp [Grouped]
  constructor
  · refine List.foldlRecOn
      (motive := fun state : SelectionState => Grouped context.groups state.selectedIds) _ _
      hempty ?_
    intro state h candidate hcandidate
    exact SelectionState.normalStep_grouped hgroups h hcandidate
  · refine List.foldlRecOn
      (motive := fun state : SelectionState => Grouped context.groups state.selectedIds) _ _
      hempty ?_
    intro state h slot _
    split_ifs
    · exact SelectionState.emergencyRawSlot_grouped hgroups h slot
    · exact SelectionState.emergencySlot_grouped hgroups h slot

/-- Blocks that are selected by whole groups are closed under companions. -/
theorem Grouped.companionClosed {candidates : List CandidateBlock}
    {groups : List (List CandidateBlock)} {ids : List String} (h : Grouped groups ids)
    (hgroups : Components candidates groups) (hnodup : (blockIds candidates).Nodup) :
    CompanionClosed candidates (candidates.filter fun candidate => candidate.blockId ∈ ids) := by
  intro block hblock other hother hcompanion
  obtain ⟨hmem, hid⟩ := List.mem_filter.mp hblock
  obtain ⟨group, hgroup, hin, hwhole⟩ := h block.blockId (of_decide_eq_true hid)
  obtain ⟨same, hsame, hsameId⟩ := List.mem_map.mp hin
  obtain rfl := eq_of_blockId hnodup ((hgroups.ordered group hgroup).subset hsame) hmem hsameId
  have hnext := hgroups.closed group hgroup same hsame other hother hcompanion
  exact List.mem_filter.mpr ⟨hother, decide_eq_true (hwhole other hnext)⟩

/-- The pass that is used selects blocks of the list, closed under companions. -/
theorem selectByCounts_spec (context : SelectionContext) {candidates : List CandidateBlock}
    (hgroups : Components candidates context.groups) (hnodup : (blockIds candidates).Nodup) :
    (selectByCounts context candidates).2.1.Sublist candidates ∧
      CompanionClosed candidates (selectByCounts context candidates).2.1 := by
  obtain ⟨hnormal, hemergency⟩ := selection_grouped hgroups
  unfold selectByCounts
  dsimp only
  split_ifs
  · exact ⟨List.filter_sublist, hemergency.companionClosed hgroups hnodup⟩
  · exact ⟨List.filter_sublist, hnormal.companionClosed hgroups hnodup⟩

/-! ## The exact selection -/

/-- The errors that an assembly can raise: those of the tokenizer, and every budget error but the
internal one. -/
inductive Raisable : RuntimeFailure → Prop
  | tokenizer (code : TokenizerErrorCode) : Raisable (.tokenizerError code)
  | budget {code : BudgetErrorCode} (h : code ≠ .internalBudgetInvariant) :
      Raisable (.budgetInvariantError code)

/-- A count has some result, or an error that can be raised. -/
theorem countText_yields (counter : TokenCounter σ) (text : String) (s : σ) :
    Yields Raisable (fun tokenCost s' => countText counter text s = .ok tokenCost s')
      (countText counter text) s := by
  unfold Yields
  cases hcount : countText counter text s with
  | ok tokenCost s' => rfl
  | error failure s' =>
      unfold countText at hcount
      split at hcount
      · split at hcount
        · cases hcount
        · cases hcount
          exact .budget nofun
      · cases hcount
        exact .budget nofun
      · cases hcount
        exact .tokenizer _
      · cases hcount
        exact .budget nofun

/-- The chosen group is one of the groups. -/
theorem greatestGroup_mem {selected group : List CandidateBlock}
    {groups : List (List CandidateBlock)} (h : greatestGroup selected groups = some group) :
    group ∈ groups := by
  cases groups with
  | nil => cases h
  | cons first rest =>
      obtain rfl := Option.some.inj h
      refine List.foldlRecOn (motive := fun best => best ∈ first :: rest) _ _ List.mem_cons_self ?_
      intro best hbest other hother
      split_ifs
      · exact List.mem_cons_of_mem _ hother
      · exact hbest

/-- The group that the loop removes is a group of the selection without required blocks. -/
theorem lowestPriorityOptionalGroup_spec {selected : List CandidateBlock}
    (hnodup : (blockIds selected).Nodup) :
    ∃ choice, lowestPriorityOptionalGroup selected = .ok choice ∧
      ∀ group ∈ choice, (∃ groups, Components selected groups ∧ group ∈ groups) ∧
        ∀ block ∈ group, block.required = false := by
  obtain ⟨groups, hgroups, hcomponents⟩ := dependencyGroups_components hnodup
  refine ⟨greatestGroup selected (groups.filter fun group => !group.any fun block => block.required),
    by simp [lowestPriorityOptionalGroup, removableDependencyGroups, hgroups, bind, Except.bind,
      pure, Except.pure], ?_⟩
  intro group hgroup
  obtain ⟨hmem, hoptional⟩ := List.mem_filter.mp (greatestGroup_mem hgroup)
  exact ⟨⟨groups, hcomponents, hmem⟩, by simpa using hoptional⟩

/-- What the exact loop keeps of a selection. -/
structure Admissible (unique selected : List CandidateBlock) : Prop where
  ordered : selected.Sublist unique
  closed : CompanionClosed unique selected
  required : ∀ block ∈ unique, block.required = true → block ∈ selected

/-- Removing an optional group of the selection leaves an admissible selection, and fewer blocks. -/
theorem Admissible.remove {unique selected group : List CandidateBlock}
    {groups : List (List CandidateBlock)} (h : Admissible unique selected)
    (hnodup : (blockIds unique).Nodup) (hgroups : Components selected groups)
    (hgroup : group ∈ groups) (hoptional : ∀ block ∈ group, block.required = false) :
    Admissible unique (selected.filter fun block => block.blockId ∉ blockIds group) ∧
      (selected.filter fun block => block.blockId ∉ blockIds group).length < selected.length := by
  have hsub := (hgroups.ordered group hgroup).subset
  -- A block of the selection has an id of the group exactly when it is in the group.
  have hin : ∀ block ∈ selected, block.blockId ∈ blockIds group → block ∈ group := by
    intro block hblock hid
    obtain ⟨same, hsame, hsameId⟩ := List.mem_map.mp hid
    obtain rfl := eq_of_blockId hnodup (h.ordered.subset (hsub hsame)) (h.ordered.subset hblock)
      hsameId
    exact hsame
  constructor
  · refine ⟨List.filter_sublist.trans h.ordered, ?_, ?_⟩
    · intro block hblock other hother hcompanion
      obtain ⟨hmem, hkept⟩ := List.mem_filter.mp hblock
      have hselected := h.closed block hmem other hother hcompanion
      refine List.mem_filter.mpr ⟨hselected, decide_eq_true fun hid => ?_⟩
      have hback := hgroups.closed group hgroup other (hin other hselected hid) block hmem
        (companions_symm hcompanion)
      exact of_decide_eq_true hkept (blockId_mem hback)
    · intro block hblock hrequired
      refine List.mem_filter.mpr ⟨h.required block hblock hrequired, decide_eq_true fun hid => ?_⟩
      have hgone := hoptional block (hin block (h.required block hblock hrequired) hid)
      rw [hrequired] at hgone
      cases hgone
  · obtain ⟨block, hblock⟩ := List.exists_mem_of_ne_nil group (hgroups.nonempty group hgroup)
    refine lt_of_le_of_ne (List.length_filter_le _ _) fun hsame => ?_
    have hall := List.length_filter_eq_length_iff.mp hsame block (hsub hblock)
    exact of_decide_eq_true hall (blockId_mem hblock)

/-- The exact selection fits: its text was counted last, within the budget, and it is admissible. -/
structure Fits (counter : TokenCounter σ) (unique : List CandidateBlock) (bAc : Nat)
    (exact : ExactSelection) (s : σ) : Prop where
  admissible : Admissible unique exact.selected
  text : exact.projectedText = projectionText exact.selected
  counted : ∃ before, countText counter exact.projectedText before = .ok exact.exactCost s
  within : exact.exactCost ≤ bAc

/-- The exact loop ends with a selection that fits, or raises. -/
theorem exactFinalSelection_yields {counter : TokenCounter σ} {counts : TokenCounts} {bAc : Nat}
    {unique : List CandidateBlock} (hnodup : (blockIds unique).Nodup) {fuel : Nat}
    {selected : List CandidateBlock} (h : Admissible unique selected)
    (hfuel : selected.length < fuel) (removed : List BlockRecord) (s : σ) :
    Yields Raisable (Fits counter unique bAc)
      (exactFinalSelection counter counts bAc fuel selected removed) s := by
  induction fuel generalizing selected removed s with
  | zero => omega
  | succ fuel ih =>
      refine (countText_yields counter _ s).bind fun exactCost s' hcount => ?_
      refine .ite (fun hle => .pure ⟨h, rfl, ⟨s, hcount⟩, hle⟩) fun _ => ?_
      have hids : (blockIds selected).Nodup := hnodup.sublist (h.ordered.map _)
      obtain ⟨choice, hchoice, hspec⟩ := lowestPriorityOptionalGroup_spec hids
      refine .performed hchoice ?_
      cases choice with
      | none => exact .throw (.budget nofun)
      | some group =>
          obtain ⟨⟨groups, hgroups, hgroup⟩, hoptional⟩ := hspec group rfl
          obtain ⟨hnext, hless⟩ := h.remove hnodup hgroups hgroup hoptional
          exact ih hnext (by omega) _ s'

/-! ## Assembly -/

/-- Distinct blocks are counted without a conflict. -/
theorem countBlocksFrom_yields (counter : TokenCounter σ) {candidates : List CandidateBlock}
    {counts : TokenCounts} (h : (counts.map Prod.fst ++ blockIds candidates).Nodup) (s : σ) :
    Yields Raisable (fun _ _ => True) (countBlocksFrom counter counts candidates) s := by
  induction candidates generalizing counts s with
  | nil => exact .pure trivial
  | cons candidate rest ih =>
      have hnew : candidate.blockId ∉ counts.map Prod.fst := fun hmem =>
        (List.nodup_append.mp h).2.2 _ hmem _ List.mem_cons_self rfl
      rw [countBlocksFrom, if_neg hnew]
      refine (countText_yields counter _ s).bind fun tokenCost s' _ => ih ?_ s'
      simpa [blockIds] using h

/-- A cost is what it was checked to be, or the code is raised. -/
theorem nonNegativeCost_ensures {allowed : RuntimeFailure → Prop} (value : Int)
    {code : BudgetErrorCode} (h : allowed (.budgetInvariantError code)) :
    Ensures allowed (fun cost : Nat => (cost : Int) = value) (nonNegativeCost value code) := by
  unfold nonNegativeCost
  split
  · next hle => exact Int.toNat_of_nonneg hle
  · exact h

/-- Counts that a caller provides are accepted or rejected as invalid. -/
theorem providedCounts_ensures {allowed : RuntimeFailure → Prop}
    (h : allowed (.budgetInvariantError .tokenCounterInvalid)) (provided : String → Option Int)
    (candidates : List CandidateBlock) :
    Ensures allowed (fun _ => True) (providedCounts provided candidates) := by
  have hcheck : ∀ candidate ∈ candidates, Ensures allowed (fun _ => True) (do
      let value ← orMissing (provided candidate.blockId)
        (.budgetInvariantError .tokenCounterInvalid)
      let tokenCost ← nonNegativeCost value .tokenCounterInvalid
      pure (candidate.blockId, tokenCost)) := by
    intro candidate _
    refine (Ensures.orMissing fun _ => h).bind fun value _ => ?_
    exact (nonNegativeCost_ensures value h).bind fun _ _ => .pure trivial
  exact (Ensures.mapM hcheck).mono fun _ _ => trivial

/-- The counts of the canonical candidates. -/
theorem validatedBlockTokenCounts_yields (counter : TokenCounter σ)
    {candidates : List CandidateBlock} (h : (blockIds candidates).Nodup)
    (provided : Option (String → Option Int)) (s : σ) :
    Yields Raisable (fun _ _ => True) (validatedBlockTokenCounts candidates counter provided) s := by
  cases provided with
  | none => exact countBlocksFrom_yields counter (by simpa using h) s
  | some provided =>
      have hprovided := providedCounts_ensures (Raisable.budget nofun) provided candidates
      exact (Yields.ensured hprovided).mono fun _ _ _ => trivial

/-- The duplicates are counted. -/
theorem duplicateRejections_yields (counter : TokenCounter σ) (duplicates : List CandidateBlock)
    (s : σ) : Yields Raisable (fun _ _ => True) (duplicateRejections counter duplicates) s := by
  induction duplicates generalizing s with
  | nil => exact .pure trivial
  | cons candidate rest ih =>
      exact (countText_yields counter _ s).bind fun _ s' _ =>
        (ih s').bind fun _ _ _ => .pure trivial

/-- The costs that are due stay within the budget, and are those of the arguments. -/
structure DueCosts (input : AssemblyInput) (costs : BudgetCosts) : Prop where
  bInput : costs.bInput = input.config.inputBudget
  opaqueCost : (costs.opaqueTokenCost : Int) = input.opaqueTokenCost
  fixedCost : (costs.fixedRequiredCost : Int) = input.fixedRequiredCost
  margin : costs.safetyMargin = input.config.safetyMargin
  within : costs.opaqueTokenCost + costs.bRequired ≤ costs.bInput

/-- The first part of an assembly. -/
theorem requiredCosts_yields (counter : TokenCounter σ) (input : AssemblyInput) (s : σ) :
    Yields Raisable (fun costs s' => DueCosts input costs ∧
        countText counter input.currentInput s = .ok costs.currentInputCost s')
      (requiredCosts counter input) s := by
  refine (Yields.ensured (nonNegativeCost_ensures _ (Raisable.budget (by decide)))).bind
    fun opaqueCost _ hforeign => ?_
  obtain ⟨hforeign, rfl⟩ := hforeign
  refine (Yields.ensured (nonNegativeCost_ensures _ (Raisable.budget (by decide)))).bind
    fun fixedCost _ hfixed => ?_
  obtain ⟨hfixed, rfl⟩ := hfixed
  refine (countText_yields counter _ _).bind fun currentInputCost s' hcount => ?_
  refine (Yields.ensured (Ensures.require fun _ => .budget nofun)).bind fun _ _ hwithin => ?_
  obtain ⟨hwithin, rfl⟩ := hwithin
  exact .pure ⟨⟨rfl, hforeign, hfixed, rfl, hwithin⟩, hcount⟩

/-- What an assembly that returns guarantees. -/
structure WithinBudget (candidates : List CandidateBlock) (counter : TokenCounter σ)
    (input : AssemblyInput) (result : AssemblyResult) (s : σ) : Prop where
  /-- The exact text was counted, last of all. -/
  counted : ∃ before, countText counter result.projectedText before =
    .ok result.trace.acSelectedCost s
  /-- What is selected fits into what is left for it. -/
  selected_le : result.trace.acSelectedCost ≤ result.trace.bAc
  /-- The parts of the total. -/
  total_eq : (result.trace.totalInputCost : Int) = input.opaqueTokenCost + result.trace.bRequired +
    result.trace.acSelectedCost
  /-- The required part. -/
  required_eq : (result.trace.bRequired : Int) = result.trace.currentInputCost +
    input.fixedRequiredCost + input.config.safetyMargin
  /-- The total fits into the input budget. -/
  total_le : result.trace.totalInputCost ≤ input.config.inputBudget
  /-- The text joins the selected blocks. -/
  joined : result.projectedText =
    String.intercalate separator (result.selectedBlocks.map fun block => block.text)
  /-- The selected blocks are in canonical order. -/
  ordered : result.selectedBlocks.Sublist (canonicalCandidates candidates)
  /-- Every required block is selected. -/
  required : ∀ block ∈ canonicalCandidates candidates, block.required = true →
    block ∈ result.selectedBlocks
  /-- The selection is a union of whole dependency groups. -/
  groups : ∃ groups, dependencyGroups (canonicalCandidates candidates) = .ok groups ∧
    (∀ block ∈ result.selectedBlocks, ∃ group ∈ groups, block ∈ group) ∧
    ∀ group ∈ groups, (∀ block ∈ group, block ∈ result.selectedBlocks) ∨
      ∀ block ∈ group, block ∉ result.selectedBlocks

/-- Every assembly returns within its budget, or raises neither the internal invariant error nor an
endless loop. -/
theorem assembly_within_budget (view : RequestView) (candidates : List CandidateBlock)
    (counter : TokenCounter σ) (input : AssemblyInput) (s : σ) :
    Yields Raisable (WithinBudget candidates counter input)
      (assemble view candidates counter input) s := by
  have hnodup := (canonicalCandidates_spec candidates).1
  obtain ⟨groups, hgroups, hcomponents⟩ := dependencyGroups_components hnodup
  refine (requiredCosts_yields counter input s).bind fun costs s₁ hcosts => ?_
  refine (validatedBlockTokenCounts_yields counter hnodup _ s₁).bind fun counts s₂ _ => ?_
  refine (countText_yields counter _ s₂).bind fun separatorCost s₃ _ => ?_
  refine (duplicateRejections_yields counter _ s₃).bind fun duplicates s₄ _ => ?_
  refine .performed hgroups ?_
  obtain ⟨hselected, hclosed⟩ :=
    selectByCounts_spec ⟨groups, counts, separatorCost, costs.bAc⟩ hcomponents hnodup
  refine (Yields.ensured (Ensures.require fun _ => .budget nofun)).bind fun _ _ hrequired => ?_
  obtain ⟨hrequired, rfl⟩ := hrequired
  have hadmissible : Admissible (canonicalCandidates candidates)
      (selectByCounts ⟨groups, counts, separatorCost, costs.bAc⟩ (canonicalCandidates candidates)).2.1 :=
    ⟨hselected, hclosed, fun block hblock hreq => by
      obtain ⟨same, hsame, hid⟩ := List.mem_map.mp (hrequired block hblock hreq)
      rwa [eq_of_blockId hnodup (hselected.subset hsame) hblock hid] at hsame⟩
  refine (exactFinalSelection_yields hnodup hadmissible (Nat.lt_succ_self _) [] _).bind
    fun exact s₅ hfits => ?_
  obtain ⟨⟨hinput, hforeign, hfixed, hmargin, hwithin⟩, -⟩ := hcosts
  have hle := hfits.within
  have htotal : costs.opaqueTokenCost + costs.bRequired + exact.exactCost ≤ costs.bInput := by
    unfold BudgetCosts.bAc at hle
    omega
  refine .performed (require_bind_pos htotal) (.pure ?_)
  refine
    { counted := hfits.counted
      selected_le := hle
      total_eq := ?_
      required_eq := ?_
      total_le := by simpa only [hinput] using htotal
      joined := hfits.text
      ordered := hfits.admissible.ordered
      required := hfits.admissible.required
      groups := ⟨groups, hgroups, ?_, fun group hgroup =>
        hfits.admissible.closed.whole hcomponents hgroup⟩ }
  · show ((costs.opaqueTokenCost + costs.bRequired + exact.exactCost : Nat) : Int) =
      input.opaqueTokenCost + costs.bRequired + exact.exactCost
    omega
  · show ((costs.currentInputCost + costs.fixedRequiredCost + costs.safetyMargin : Nat) : Int) =
      costs.currentInputCost + input.fixedRequiredCost + input.config.safetyMargin
    omega
  · intro block hblock
    exact hcomponents.covers block (hfits.admissible.ordered.subset hblock)

end AstrContinuum
