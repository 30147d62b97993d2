import AstrContinuum.ContextGraph.ComponentUnions

/-!
# Groups, closures and their validation agree

The groups of distinct blocks are the components of the companion relation, a closure is the union of
those that hold a selected or a required block, and a packed list is validated when it is such a union.
A bound below one is refused before anything is closed, and validation compares block ids.
-/

namespace AstrContinuum

open Checked

section Exact

variable {available : List CandidateBlock}

/-- Packed blocks of the universe are validated exactly when they are a union of components within the
bound. -/
theorem validate_members_iff {packedBlocks : List CandidateBlock} {maxBlocks : Nat}
    (hids : (blockIds available).Nodup) (hpacked : ∀ block ∈ packedBlocks, block ∈ available) :
    validateDependencyClosure packedBlocks available maxBlocks = true ↔
      1 ≤ maxBlocks ∧ packedBlocks.length ≤ maxBlocks ∧
        ∃ selectedBlocks, (∀ block ∈ selectedBlocks, block ∈ available) ∧
          packedBlocks = componentUnion selectedBlocks available := by
  rw [validateDependencyClosure_iff hids]
  refine and_congr_right fun _ => and_congr_right fun _ => exists_congr fun selectedBlocks => ?_
  refine and_congr_right fun _ => ⟨fun hsame => ?_, congrArg blockIds⟩
  exact eq_of_blockIds_eq hids hpacked
    (fun block hblock => (componentUnion_sublist _ _).subset hblock) hsame

/-- Dependency closure: the groups of blocks with distinct ids are the components of the companion
relation in the order of their first members, a closure within a positive bound is the union of the
components that hold a selected or a required block, and the validated lists are those with the ids of
such a union. -/
theorem dependency_closure_exact (hids : (blockIds available).Nodup) :
    (∃ groups, dependencyGroups available = .ok groups ∧
      (∀ group, group ∈ groups ↔ ∃ block ∈ available, group = component available block) ∧
      (groups.map List.head?).Sublist (available.map some)) ∧
    (∀ (selectedBlocks : List CandidateBlock) (maxBlocks : Nat),
      (∀ block ∈ selectedBlocks, block ∈ available) →
      closeDependencyClosure selectedBlocks available maxBlocks =
        if maxBlocks < 1 then .error (.valueError "max_blocks must be a positive integer")
        else if (componentUnion selectedBlocks available).length ≤ maxBlocks then
          .ok (componentUnion selectedBlocks available)
        else .error (.closureError "DEPENDENCY_CLOSURE_CAPACITY_EXCEEDED")) ∧
    (∀ (packedBlocks : List CandidateBlock) (maxBlocks : Nat),
      validateDependencyClosure packedBlocks available maxBlocks = true ↔
        1 ≤ maxBlocks ∧ packedBlocks.length ≤ maxBlocks ∧
          ∃ selectedBlocks, (∀ block ∈ selectedBlocks, block ∈ available) ∧
            blockIds packedBlocks = blockIds (componentUnion selectedBlocks available)) ∧
    ∀ (packedBlocks : List CandidateBlock) (maxBlocks : Nat),
      (∀ block ∈ packedBlocks, block ∈ available) →
      (validateDependencyClosure packedBlocks available maxBlocks = true ↔
        1 ≤ maxBlocks ∧ packedBlocks.length ≤ maxBlocks ∧
          ∃ selectedBlocks, (∀ block ∈ selectedBlocks, block ∈ available) ∧
            packedBlocks = componentUnion selectedBlocks available) := by
  refine ⟨dependencyGroups_exact hids, fun selectedBlocks maxBlocks hselected => ?_,
    fun _ _ => validateDependencyClosure_iff hids, fun _ _ => validate_members_iff hids⟩
  split
  · next hsmall =>
      unfold closeDependencyClosure
      exact require_bind_neg (not_le.mpr hsmall)
  · next hlarge =>
      exact closeDependencyClosure_eq (not_lt.mp hlarge) hids
        fun block hblock => List.mem_map_of_mem (hselected block hblock)

end Exact

namespace ClosureSample

/-- A block of the universe. -/
def block : CandidateBlock :=
  { blockId := "a", slot := .activeTask, kind := .taskContext, text := "task"
    sourceEventIds := ["event"], score := 1, reason := "STRUCTURED_FALLBACK", required := false
    capsuleId := none, eventSequence := none, valid := by decide +kernel }

/-- A block with the same id and another text. -/
def impostor : CandidateBlock :=
  ⟨{ block.toCandidateBlockData with text := "other" }, by decide +kernel⟩

/-- A dependency on the same event. -/
def companion : CandidateBlock :=
  ⟨{ block.toCandidateBlockData with blockId := "b", kind := .dependency }, by decide +kernel⟩

end ClosureSample

open ClosureSample

/-- A block and its companion are one group, and half of it is not validated. -/
theorem dependency_closure_exact_sample :
    (∃ groups, dependencyGroups [block, companion] = .ok groups ∧
      (∀ group, group ∈ groups ↔
        ∃ member ∈ [block, companion], group = component [block, companion] member) ∧
      (groups.map List.head?).Sublist ([block, companion].map some)) ∧
    closeDependencyClosure [block] [block, companion] 1 =
      .error (.closureError "DEPENDENCY_CLOSURE_CAPACITY_EXCEEDED") := by
  have hids : (blockIds [block, companion]).Nodup := by decide
  exact ⟨(dependency_closure_exact hids).1, by decide +kernel⟩

/-- A bound of zero raises another error than the capacity error, and a block that only has the id of
a block of the universe is validated. -/
theorem closure_bound_refused :
    ¬ (closeDependencyClosure [block] [block] 0 =
        .error (.closureError "DEPENDENCY_CLOSURE_CAPACITY_EXCEEDED") ↔
      0 < (componentUnion [block] [block]).length) ∧
    ¬ (validateDependencyClosure [impostor] [block] 1 = true ↔
      ∃ selectedBlocks, (∀ member ∈ selectedBlocks, member ∈ [block]) ∧
        [impostor] = componentUnion selectedBlocks [block] ∧ [impostor].length ≤ 1) := by
  constructor
  · intro hclaim
    have hmem : block ∈ componentUnion [block] [block] :=
      seed_mem_componentUnion List.mem_cons_self (.inl List.mem_cons_self)
    exact absurd (hclaim.mpr (List.length_pos_of_mem hmem)) (by decide)
  · intro hclaim
    obtain ⟨selectedBlocks, -, hsame, -⟩ := hclaim.mp (by decide +kernel)
    have hmem : impostor ∈ componentUnion selectedBlocks [block] := hsame ▸ List.mem_cons_self
    exact absurd ((componentUnion_sublist _ _).subset hmem) (by decide +kernel)

end AstrContinuum
