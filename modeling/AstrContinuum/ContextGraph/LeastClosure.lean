import AstrContinuum.ContextGraph.Components

/-!
# The closure is the least one

`closeDependencyClosure_least`: the blocks that `close_dependency_closure` returns are the least set of
blocks of the universe that holds the selected and the required ones and is closed under companions.
A pass of its loop only takes in companions of blocks it has, so it stays below every closed set, and
the pass that changes nothing ends the loop on a closed set.
-/

namespace AstrContinuum

open Checked
open scoped List

/-- A set of blocks that holds the blocks with the given ids and is closed under companions. -/
structure ClosedOver (available : List CandidateBlock) (seeds : List String)
    (keep : Set CandidateBlock) : Prop where
  seeded : ∀ block ∈ available, block.blockId ∈ seeds → block ∈ keep
  closed : ∀ left ∈ available, left ∈ keep → ∀ right ∈ available,
    companions left right = true → right ∈ keep

/-- What the ids satisfy at any moment of the loop. -/
structure Growing (available : List CandidateBlock) (seeds ids : List String) : Prop where
  nodup : ids.Nodup
  known : ∀ id ∈ ids, id ∈ blockIds available
  seeded : ∀ id ∈ seeds, id ∈ ids
  below : ∀ keep, ClosedOver available seeds keep →
    ∀ block ∈ available, block.blockId ∈ ids → block ∈ keep

section Loop

variable {available : List CandidateBlock} {seeds ids : List String} {maxBlocks : Nat}

/-- The ids are at most as many as the blocks. -/
theorem Growing.length_le (h : Growing available seeds ids) : ids.length ≤ available.length := by
  have hsub : ids ⊆ blockIds available := fun id hid => h.known id hid
  simpa [blockIds] using (List.subperm_of_subset h.nodup hsub).length_le

/-- Taking a companion of a block in. -/
theorem Growing.insert (hids : (blockIds available).Nodup) (h : Growing available seeds ids)
    {left right : CandidateBlock} (hleft : left ∈ available) (hactive : left.blockId ∈ ids)
    (hright : right ∈ available) (hcompanion : companions left right = true) :
    Growing available seeds (ids.insert right.blockId) where
  nodup := h.nodup.insert
  known := by
    intro id hid
    rcases List.mem_insert_iff.mp hid with rfl | hid
    · exact List.mem_map_of_mem hright
    · exact h.known id hid
  seeded := fun id hid => List.mem_insert_of_mem (h.seeded id hid)
  below := by
    intro keep hkeep block hblock hid
    rcases List.mem_insert_iff.mp hid with hid | hid
    · obtain rfl : block = right := List.inj_on_of_nodup_map hids hblock hright hid
      exact hkeep.closed left hleft (h.below keep hkeep left hleft hactive) block hright hcompanion
    · exact h.below keep hkeep block hblock hid

/-- One statement of the loop: the ids grow, and `right` is among them unless it is no companion. -/
theorem takeCompanion_spec (hids : (blockIds available).Nodup) (h : Growing available seeds ids)
    {left right : CandidateBlock} (hleft : left ∈ available) (hactive : left.blockId ∈ ids)
    (hright : right ∈ available) {next : List String}
    (hnext : takeCompanion maxBlocks left ids right = .ok next) :
    Growing available seeds next ∧ ids <:+ next ∧
      (companions left right = true → right.blockId ∈ next) := by
  unfold takeCompanion at hnext
  split at hnext
  · next hskip =>
      obtain rfl : ids = next := by simpa using hnext
      refine ⟨h, List.suffix_refl ids, fun hcompanion => hskip.resolve_right ?_⟩
      simp [hcompanion]
  · next htake =>
      obtain ⟨_, -, hnext⟩ := bind_ok.mp hnext
      obtain rfl : ids.insert right.blockId = next := by simpa using hnext
      have hcompanion : companions left right = true := by
        simpa using fun hnone => htake (.inr hnone)
      have hsuffix : ids <:+ ids.insert right.blockId := by
        rw [List.insert_of_not_mem fun hmem => htake (.inl hmem)]
        exact List.suffix_cons _ _
      exact ⟨h.insert hids hleft hactive hright hcompanion, hsuffix,
        fun _ => List.mem_insert_self⟩

/-- The inner loop takes in every companion of `left`. -/
theorem takeCompanions_spec (hids : (blockIds available).Nodup) (h : Growing available seeds ids)
    {left : CandidateBlock} (hleft : left ∈ available) (hactive : left.blockId ∈ ids)
    {next : List String} (hnext : forEach (takeCompanion maxBlocks left) ids available = .ok next) :
    Growing available seeds next ∧ ids <:+ next ∧
      ∀ right ∈ available, companions left right = true → right.blockId ∈ next := by
  have hloop : ∀ (rest : List CandidateBlock) (start : List String), rest ⊆ available →
      Growing available seeds start → left.blockId ∈ start →
      forEach (takeCompanion maxBlocks left) start rest = .ok next →
      Growing available seeds next ∧ start <:+ next ∧
        ∀ right ∈ rest, companions left right = true → right.blockId ∈ next := by
    intro rest
    induction rest with
    | nil =>
        intro start _ hstart _ hnext
        obtain rfl : start = next := by simpa [forEach] using hnext
        exact ⟨hstart, List.suffix_refl _, by simp⟩
    | cons right rest ih =>
        intro start hrest hstart hmem hnext
        obtain ⟨mid, hmid, hnext⟩ := bind_ok.mp hnext
        obtain ⟨hgrowing, hsuffix, htaken⟩ :=
          takeCompanion_spec hids hstart hleft hmem (hrest List.mem_cons_self) hmid
        obtain ⟨hlast, hsuffix', hothers⟩ := ih mid
          (fun block hblock => hrest (List.mem_cons_of_mem _ hblock)) hgrowing (hsuffix.subset hmem)
          hnext
        refine ⟨hlast, hsuffix.trans hsuffix', fun other hother hcompanion => ?_⟩
        rcases List.mem_cons.mp hother with rfl | hother
        · exact hsuffix'.subset (htaken hcompanion)
        · exact hothers other hother hcompanion
  exact hloop available ids (List.Subset.refl _) h hactive hnext

/-- A pass takes in every companion of the blocks it starts with. -/
theorem closurePass_spec (hids : (blockIds available).Nodup) (h : Growing available seeds ids)
    {next : List String} (hnext : closurePass maxBlocks available ids = .ok next) :
    Growing available seeds next ∧ ids <:+ next ∧
      ∀ left ∈ available, left.blockId ∈ ids → ∀ right ∈ available,
        companions left right = true → right.blockId ∈ next := by
  have hloop : ∀ (rest : List CandidateBlock) (start : List String),
      (∀ left ∈ rest, left ∈ available ∧ left.blockId ∈ start) → Growing available seeds start →
      forEach (fun ids left => forEach (takeCompanion maxBlocks left) ids available) start rest =
        .ok next →
      Growing available seeds next ∧ start <:+ next ∧
        ∀ left ∈ rest, ∀ right ∈ available, companions left right = true →
          right.blockId ∈ next := by
    intro rest
    induction rest with
    | nil =>
        intro start _ hstart hnext
        obtain rfl : start = next := by simpa [forEach] using hnext
        exact ⟨hstart, List.suffix_refl _, by simp⟩
    | cons left rest ih =>
        intro start hrest hstart hnext
        obtain ⟨mid, hmid, hnext⟩ := bind_ok.mp hnext
        obtain ⟨hleft, hactive⟩ := hrest left List.mem_cons_self
        obtain ⟨hgrowing, hsuffix, htaken⟩ := takeCompanions_spec hids hstart hleft hactive hmid
        obtain ⟨hlast, hsuffix', hothers⟩ := ih mid
          (fun other hother => by
            obtain ⟨hmem, hid⟩ := hrest other (List.mem_cons_of_mem _ hother)
            exact ⟨hmem, hsuffix.subset hid⟩) hgrowing hnext
        refine ⟨hlast, hsuffix.trans hsuffix', fun other hother => ?_⟩
        rcases List.mem_cons.mp hother with rfl | hother
        · exact fun right hright hcompanion =>
            hsuffix'.subset (htaken right hright hcompanion)
        · exact hothers other hother
  obtain ⟨hgrowing, hsuffix, htaken⟩ := hloop _ ids
    (fun left hleft => by simpa using List.mem_filter.mp hleft) h hnext
  exact ⟨hgrowing, hsuffix, fun left hleft hid =>
    htaken left (List.mem_filter.mpr ⟨hleft, decide_eq_true hid⟩)⟩

/-- The loop ends on ids that are closed under companions. -/
theorem closureLoop_spec (hids : (blockIds available).Nodup) {fuel : Nat}
    (h : Growing available seeds ids) (hfuel : available.length < fuel + ids.length)
    {closed : List String} (hclosed : closureLoop maxBlocks available fuel ids = .ok closed) :
    Growing available seeds closed ∧
      ∀ left ∈ available, left.blockId ∈ closed → ∀ right ∈ available,
        companions left right = true → right.blockId ∈ closed := by
  induction fuel generalizing ids with
  | zero =>
      have hle := h.length_le
      omega
  | succ fuel ih =>
      obtain ⟨next, hnext, hclosed⟩ := bind_ok.mp hclosed
      obtain ⟨hgrowing, hsuffix, htaken⟩ := closurePass_spec hids h hnext
      split at hclosed
      · next hsame =>
          -- The pass took nothing in.
          obtain rfl : next = closed := by simpa using hclosed
          obtain rfl : ids = next := hsuffix.eq_of_length hsame.symm
          exact ⟨hgrowing, htaken⟩
      · next hmore =>
          have hle := hsuffix.length_le
          exact ih hgrowing (by omega) hclosed

end Loop

/-- The ids that the loop starts with are the seeds, each once. -/
theorem mem_foldl_insert (seeds : List String) (ids : List String) (hids : ids.Nodup) :
    (seeds.foldl (fun ids blockId => ids.insert blockId) ids).Nodup ∧
      ∀ id, id ∈ seeds.foldl (fun ids blockId => ids.insert blockId) ids ↔ id ∈ ids ∨ id ∈ seeds := by
  induction seeds generalizing ids with
  | nil => exact ⟨hids, by simp⟩
  | cons seed seeds ih =>
      obtain ⟨hnodup, hmem⟩ := ih (ids.insert seed) hids.insert
      refine ⟨hnodup, fun id => ?_⟩
      rw [List.foldl_cons, hmem, List.mem_insert_iff, List.mem_cons]
      tauto

/-- The ids that a selection starts the loop with. -/
theorem Growing.start {selectedBlocks available : List CandidateBlock}
    (hknown : ∀ block ∈ selectedBlocks, block.blockId ∈ blockIds available) :
    Growing available
      (blockIds selectedBlocks ++ blockIds (available.filter fun block => block.required))
      ((blockIds selectedBlocks ++ blockIds (available.filter fun block => block.required)).foldl
        (fun ids blockId => ids.insert blockId) []) := by
  obtain ⟨hnodup, hmem⟩ := mem_foldl_insert
    (blockIds selectedBlocks ++ blockIds (available.filter fun block => block.required)) [] (by simp)
  refine ⟨hnodup, fun id hid => ?_, fun id hid => (hmem id).mpr (.inr hid),
    fun keep hkeep block hblock hid => hkeep.seeded block hblock ?_⟩
  · rcases List.mem_append.mp (((hmem id).mp hid).resolve_left (by simp)) with hid | hid
    · obtain ⟨block, hblock, rfl⟩ := List.mem_map.mp hid
      exact hknown block hblock
    · exact (List.filter_sublist.map _).subset hid
  · exact ((hmem _).mp hid).resolve_left (by simp)

/-- `closure` is the least list of blocks of the universe that holds the selected and the required
ones and is closed under companions. -/
structure LeastClosure (selectedBlocks available closure : List CandidateBlock) : Prop where
  ordered : closure.Sublist available
  selected : ∀ block ∈ selectedBlocks, block.blockId ∈ blockIds closure
  required : ∀ block ∈ available, block.required = true → block ∈ closure
  closed : CompanionClosed available closure
  least : ∀ keep : Set CandidateBlock,
    (∀ block ∈ available, block.blockId ∈ blockIds selectedBlocks ∨ block.required = true →
      block ∈ keep) →
    (∀ left ∈ available, left ∈ keep → ∀ right ∈ available, companions left right = true →
      right ∈ keep) →
    ∀ block ∈ closure, block ∈ keep

/-- The closure that is returned is the least one. -/
theorem closeDependencyClosure_least {selectedBlocks available closure : List CandidateBlock}
    {maxBlocks : Nat}
    (h : closeDependencyClosure selectedBlocks available maxBlocks = .ok closure) :
    LeastClosure selectedBlocks available closure := by
  unfold closeDependencyClosure at h
  obtain ⟨_, -, h⟩ := bind_ok.mp h
  obtain ⟨_, hids, h⟩ := bind_ok.mp h
  obtain ⟨_, hknown, h⟩ := bind_ok.mp h
  obtain ⟨_, -, h⟩ := bind_ok.mp h
  obtain ⟨closed, hclosed, h⟩ := bind_ok.mp h
  obtain rfl : _ = closure := by simpa using h
  replace hids := require_ok.mp hids
  replace hknown := require_ok.mp hknown
  obtain ⟨hgrown, hcompanions⟩ := closureLoop_spec hids (Growing.start hknown) (by omega) hclosed
  have hin : ∀ block ∈ available, block.blockId ∈ closed →
      block ∈ available.filter fun block => block.blockId ∈ closed :=
    fun block hblock hid => List.mem_filter.mpr ⟨hblock, decide_eq_true hid⟩
  refine ⟨List.filter_sublist, fun block hblock => ?_, fun block hblock hrequired => ?_, ?_, ?_⟩
  · obtain ⟨same, hsame, hid⟩ := List.mem_map.mp (hknown block hblock)
    have hseed := hgrown.seeded block.blockId
      (List.mem_append_left _ (List.mem_map_of_mem hblock))
    exact List.mem_map.mpr ⟨same, hin same hsame (hid ▸ hseed), hid⟩
  · exact hin block hblock (hgrown.seeded _ (List.mem_append_right _
      (List.mem_map_of_mem (List.mem_filter.mpr ⟨hblock, hrequired⟩))))
  · intro left hleft right hright hcompanion
    obtain ⟨hleft, hid⟩ := List.mem_filter.mp hleft
    exact hin right hright (hcompanions left hleft (of_decide_eq_true hid) right hright hcompanion)
  · intro keep hseeds hkeep block hblock
    obtain ⟨hblock, hid⟩ := List.mem_filter.mp hblock
    refine hgrown.below keep ⟨fun seed hseed hseedId => ?_, hkeep⟩ block hblock
      (of_decide_eq_true hid)
    rcases List.mem_append.mp hseedId with hseedId | hseedId
    · exact hseeds seed hseed (.inl hseedId)
    · obtain ⟨same, hsame, hsameId⟩ := List.mem_map.mp hseedId
      obtain ⟨hsame, hrequired⟩ := List.mem_filter.mp hsame
      obtain rfl : same = seed := List.inj_on_of_nodup_map hids hsame hseed hsameId
      exact hseeds same hseed (.inr hrequired)

end AstrContinuum
