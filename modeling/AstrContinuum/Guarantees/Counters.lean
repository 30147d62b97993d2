import AstrContinuum.ContextGraph.Live
import AstrContinuum.Guarantees.Budget

/-!
# Two counters in step

A request counts texts through its counter and looks at nothing else of it. `assemble_matches` says it
of an assembly: two counters whose counts are in step give results in step. A counter against itself
shows that one whose answers depend on the text alone gives the same assembly in every state, and that
it is all the same whether the blocks are counted or their counts are handed on.
-/

namespace AstrContinuum

open Checked Effects

variable {σ τ : Type}

/-- A failure that no count raised. -/
def Orderly (failure : RuntimeFailure) : Prop :=
  failure ≠ .budgetInvariantError .tokenCounterFailure ∧ ∀ code, failure ≠ .tokenizerError code

/-- Two counters whose counts are in step, over states in which other failures break nothing. -/
structure CountersInStep (related : σ → τ → Prop) (broken : RuntimeFailure → σ → τ → Prop)
    (bad : τ → Prop) (counter : TokenCounter σ) (other : TokenCounter τ) : Prop where
  counts : ∀ text, Matches related broken bad (countText counter text) (countText other text)
  orderly : ∀ failure, Orderly failure → ∀ s t, related s t → broken failure s t

namespace CountersInStep

variable {related : σ → τ → Prop} {broken : RuntimeFailure → σ → τ → Prop} {bad : τ → Prop}
  {counter : TokenCounter σ} {other : TokenCounter τ}

/-- A stateless check keeps the counters in step. -/
theorem perform {α : Type} (h : CountersInStep related broken bad counter other)
    {x : Except RuntimeFailure α} {post : α → Prop} (hx : Ensures Orderly post x) :
    Matches related broken bad (Effects.perform x : EStateM RuntimeFailure σ α) (Effects.perform x) :=
  .perform hx h.orderly

/-- So does a guard. -/
theorem require (h : CountersInStep related broken bad counter other) {condition : Prop}
    [Decidable condition] {failure : RuntimeFailure} (hfailure : Orderly failure) :
    Matches related broken bad
      (Effects.perform (require condition failure) : EStateM RuntimeFailure σ Unit)
      (Effects.perform (Checked.require condition failure)) :=
  h.perform (Ensures.require fun _ => hfailure)

/-- The blocks are counted in step. -/
theorem countBlocksFrom (h : CountersInStep related broken bad counter other)
    (candidates : List CandidateBlock) (counts : TokenCounts) :
    Matches related broken bad (countBlocksFrom counter counts candidates)
      (countBlocksFrom other counts candidates) := by
  induction candidates generalizing counts with
  | nil => exact .pure counts
  | cons candidate rest ih =>
      refine .ite (.throw (h.orderly _ ⟨nofun, nofun⟩)) ?_
      exact (h.counts _).bind fun tokenCost => ih _

/-- The counts that an assembly uses are found in step. -/
theorem validatedBlockTokenCounts (h : CountersInStep related broken bad counter other)
    (candidates : List CandidateBlock) (provided : Option (String → Option Int)) :
    Matches related broken bad (validatedBlockTokenCounts candidates counter provided)
      (validatedBlockTokenCounts candidates other provided) := by
  cases provided with
  | none => exact h.countBlocksFrom candidates []
  | some provided => exact h.perform (providedCounts_ensures ⟨nofun, nofun⟩ provided candidates)

/-- The duplicates are counted in step. -/
theorem duplicateRejections (h : CountersInStep related broken bad counter other)
    (duplicates : List CandidateBlock) :
    Matches related broken bad (duplicateRejections counter duplicates)
      (duplicateRejections other duplicates) := by
  induction duplicates with
  | nil => exact .pure []
  | cons candidate rest ih =>
      exact (h.counts _).bind fun tokenCost => ih.bind fun records => .pure _

/-- The costs that are due are found in step. -/
theorem requiredCosts (h : CountersInStep related broken bad counter other) (input : AssemblyInput) :
    Matches related broken bad (requiredCosts counter input) (requiredCosts other input) := by
  refine (h.perform (nonNegativeCost_ensures _ (by simp [Orderly]))).bind fun opaqueCost => ?_
  refine (h.perform (nonNegativeCost_ensures _ (by simp [Orderly]))).bind fun fixedCost => ?_
  refine (h.counts _).bind fun currentInputCost => ?_
  exact (h.require (by simp [Orderly])).bind fun _ => .pure _

/-- The groups of a selection are found without a count. -/
theorem dependencyGroups_orderly (candidates : List CandidateBlock) :
    Ensures Orderly (fun _ => True) (dependencyGroups candidates) :=
  (Ensures.require fun _ => ⟨nofun, nofun⟩).bind fun _ _ => .pure trivial

/-- The exact loop runs in step. -/
theorem exactFinalSelection (h : CountersInStep related broken bad counter other)
    (counts : TokenCounts) (bAc fuel : Nat) (selected : List CandidateBlock)
    (removed : List BlockRecord) :
    Matches related broken bad (exactFinalSelection counter counts bAc fuel selected removed)
      (exactFinalSelection other counts bAc fuel selected removed) := by
  induction fuel generalizing selected removed with
  | zero => exact .throw (h.orderly _ ⟨nofun, nofun⟩)
  | succ fuel ih =>
      refine (h.counts _).bind fun exactCost => .ite (.pure _) ?_
      have hgroups : Ensures Orderly (fun _ => True) (lowestPriorityOptionalGroup selected) :=
        ((dependencyGroups_orderly selected).bind fun groups _ =>
          show Ensures Orderly (fun _ => True) (pure _) from trivial).bind fun _ _ => .pure trivial
      refine (h.perform hgroups).bind fun choice => ?_
      cases choice with
      | none => exact .throw (h.orderly _ ⟨nofun, nofun⟩)
      | some group => exact ih _ _

/-- Assemblies whose block counts are found in step run in step. -/
theorem assemble_matches_of_counts (h : CountersInStep related broken bad counter other)
    (view : RequestView) (candidates : List CandidateBlock) (input : AssemblyInput)
    {provided provided' : Option (String → Option Int)}
    (hcounts : Matches related broken bad
      (AstrContinuum.validatedBlockTokenCounts (canonicalCandidates candidates) counter provided)
      (AstrContinuum.validatedBlockTokenCounts (canonicalCandidates candidates) other provided')) :
    Matches related broken bad
      (assemble view candidates counter { input with blockTokenCounts := provided })
      (assemble view candidates other { input with blockTokenCounts := provided' }) := by
  refine (h.requiredCosts input).bind fun costs => ?_
  refine hcounts.bind fun counts => ?_
  refine (h.counts _).bind fun separatorCost => ?_
  refine (h.duplicateRejections _).bind fun duplicates => ?_
  refine (h.perform (dependencyGroups_orderly _)).bind fun groups => ?_
  generalize selectByCounts _ _ = choice
  obtain ⟨mode, selected, rejections⟩ := choice
  refine (h.require (by simp [Orderly])).bind fun _ => ?_
  refine (h.exactFinalSelection _ _ _ _ _).bind fun exact => ?_
  have htrace : Ensures Orderly (fun _ => True) (assemblyTrace view exact.selected
      (duplicates ++ rejections ++ exact.removed) mode counts exact.exactCost costs) :=
    (Ensures.require fun _ => ⟨nofun, nofun⟩).bind fun _ _ => .pure trivial
  exact (h.perform htrace).bind fun trace => .pure _

/-- An assembly runs in step. -/
theorem assemble_matches (h : CountersInStep related broken bad counter other) (view : RequestView)
    (candidates : List CandidateBlock) (input : AssemblyInput) :
    Matches related broken bad (assemble view candidates counter input)
      (assemble view candidates other input) :=
  h.assemble_matches_of_counts view candidates input
    (h.validatedBlockTokenCounts _ input.blockTokenCounts)

end CountersInStep

/-! ## Counters that depend on the text alone -/

/-- The outcome of a count depends on the text alone. -/
def TokenCounter.Deterministic (counter : TokenCounter σ) : Prop :=
  ∀ text s t, (counter.countText text s).1 = (counter.countText text t).1

section Deterministic

variable {counter : TokenCounter σ}

/-- Such a counter is in step with itself, whatever the states. -/
theorem deterministic_inStep (h : counter.Deterministic) :
    CountersInStep (fun _ _ => True) (fun _ _ _ => True) (fun _ => False) counter counter where
  counts := by
    refine fun text => ⟨fun s t _ _ => ?_, fun _ ht => ht.elim⟩
    have hsame := h text s t
    unfold countText
    cases hs : counter.countText text s with
    | mk first s' =>
    cases ht : counter.countText text t with
    | mk second t' =>
    rw [hs, ht] at hsame
    obtain rfl : first = second := hsame
    cases first with
    | integer value =>
        dsimp only
        split
        · exact ⟨rfl, trivial⟩
        · exact ⟨rfl, trivial⟩
    | malformed | tokenizerError | otherError => exact ⟨rfl, trivial⟩
  orderly := fun _ _ _ _ _ => trivial

/-- The text is counted in every state. -/
def CountsTo (counter : TokenCounter σ) (text : String) (tokenCost : Nat) : Prop :=
  ∀ s, ∃ s', countText counter text s = .ok tokenCost s'

/-- A text that was counted once is counted always. -/
theorem counted_of_ok (h : counter.Deterministic) {text : String} {tokenCost : Nat} {s s' : σ}
    (hcount : countText counter text s = .ok tokenCost s') : CountsTo counter text tokenCost := by
  intro t
  obtain ⟨t', ht, -⟩ := ((deterministic_inStep h).counts text).ok trivial id hcount
  exact ⟨t', ht⟩

/-- Blocks that are counted are counted block by block. -/
theorem countBlocksFrom_counted (h : counter.Deterministic) {candidates : List CandidateBlock}
    {counts found : TokenCounts} {s s' : σ}
    (hfound : countBlocksFrom counter counts candidates s = .ok found s') :
    ∃ costs, found = counts ++ costs ∧ List.Forall₂ (fun candidate entry =>
      entry.1 = candidate.blockId ∧ CountsTo counter candidate.text entry.2) candidates costs := by
  induction candidates generalizing counts s with
  | nil =>
      obtain ⟨rfl, -⟩ : counts = found ∧ s = s' := by
        simpa [countBlocksFrom, Pure.pure, EStateM.pure] using hfound
      exact ⟨[], by simp, .nil⟩
  | cons candidate rest ih =>
      rw [countBlocksFrom] at hfound
      split at hfound
      · cases hfound
      · obtain ⟨tokenCost, s₁, hcount, hrest⟩ := bind_ok.mp hfound
        obtain ⟨costs, rfl, hcosts⟩ := ih hrest
        exact ⟨(candidate.blockId, tokenCost) :: costs, by simp,
          .cons ⟨rfl, counted_of_ok h hcount⟩ hcosts⟩

/-- Counting blocks whose texts are counted finds their counts. -/
theorem countBlocksFrom_of_counted {candidates : List CandidateBlock} {counts : TokenCounts}
    {cost : CandidateBlock → Nat}
    (hcounted : ∀ candidate ∈ candidates, CountsTo counter candidate.text (cost candidate))
    (hnodup : (counts.map Prod.fst ++ blockIds candidates).Nodup) (s : σ) :
    ∃ s', countBlocksFrom counter counts candidates s =
      .ok (counts ++ candidates.map fun candidate => (candidate.blockId, cost candidate)) s' := by
  induction candidates generalizing counts s with
  | nil => exact ⟨s, by simp [countBlocksFrom, Pure.pure, EStateM.pure]⟩
  | cons candidate rest ih =>
      have hnew : candidate.blockId ∉ counts.map Prod.fst := fun hmem =>
        (List.nodup_append.mp hnodup).2.2 _ hmem _ List.mem_cons_self rfl
      obtain ⟨s₁, hcount⟩ := hcounted candidate List.mem_cons_self s
      have hrest' : ((counts ++ [(candidate.blockId, cost candidate)]).map Prod.fst ++
          blockIds rest).Nodup := by simpa [blockIds] using hnodup
      obtain ⟨s₂, hrest⟩ := ih
        (fun other hother => hcounted other (List.mem_cons_of_mem _ hother))
        hrest' s₁
      refine ⟨s₂, ?_⟩
      rw [countBlocksFrom, if_neg hnew]
      refine bind_ok.mpr ⟨_, s₁, hcount, ?_⟩
      simpa using hrest

/-- An entry of a table with distinct ids is the one that is found. -/
theorem find_of_mem {counts : TokenCounts} (hnodup : (counts.map Prod.fst).Nodup)
    {entry : String × Nat} (hentry : entry ∈ counts) :
    counts.find? (fun other => decide (other.1 = entry.1)) = some entry := by
  induction counts with
  | nil => cases hentry
  | cons first rest ih =>
      obtain ⟨hfirst, hrest⟩ := List.nodup_cons.mp hnodup
      rcases List.mem_cons.mp hentry with rfl | hentry
      · simp
      · have hne : first.1 ≠ entry.1 := fun hid =>
          hfirst (hid ▸ List.mem_map_of_mem hentry)
        rw [List.find?_cons_of_neg (by simpa using hne)]
        exact ih hrest hentry

/-- The table of counted blocks with distinct ids: its entries are the counts of the texts, and the
mapping that is handed on has them. -/
theorem countCandidateBlocks_counted (h : counter.Deterministic)
    {candidates : List CandidateBlock} (hnodup : (blockIds candidates).Nodup)
    {counts : TokenCounts} {s s' : σ}
    (hcounts : countCandidateBlocks candidates counter s = .ok counts s') :
    ∀ candidate ∈ candidates, CountsTo counter candidate.text (counts.cost candidate) ∧
      counts.mapping candidate.blockId = some (counts.cost candidate : Int) := by
  obtain ⟨costs, hfound, hcosts⟩ := countBlocksFrom_counted h hcounts
  obtain rfl : counts = costs := by simpa using hfound
  have hkeys : counts.map Prod.fst = blockIds candidates := by
    clear hcounts hfound hnodup
    induction hcosts with
    | nil => rfl
    | cons hfirst _ ih => simpa [blockIds, hfirst.1] using ih
  intro candidate hcandidate
  obtain ⟨entry, hentry, hid, hcounted⟩ := exists_of_forall₂ hcosts.flip hcandidate
  have hfind := find_of_mem (hkeys ▸ hnodup) hentry
  rw [hid] at hfind
  have hcost : counts.cost candidate = entry.2 := by simp [TokenCounts.cost, hfind]
  exact ⟨hcost ▸ hcounted, by simp [TokenCounts.mapping, hfind, hcost]⟩

/-- Counts that are handed on are accepted as they are. -/
theorem providedCounts_of_mapping {candidates : List CandidateBlock}
    {provided : String → Option Int} {cost : CandidateBlock → Nat}
    (h : ∀ candidate ∈ candidates, provided candidate.blockId = some (cost candidate : Int)) :
    providedCounts provided candidates =
      .ok (candidates.map fun candidate => (candidate.blockId, cost candidate)) := by
  unfold providedCounts
  refine mapM_ok.mpr ?_
  induction candidates with
  | nil => exact .nil
  | cons candidate rest ih =>
      refine .cons ?_ (ih fun other hother => h other (List.mem_cons_of_mem _ hother))
      simp [h candidate List.mem_cons_self, orMissing, nonNegativeCost, bind, Except.bind, pure,
        Except.pure]

/-- Handing the counts of the blocks on is as good as counting the blocks again. -/
theorem assemble_counted (h : counter.Deterministic) {candidates : List CandidateBlock}
    (hnodup : (blockIds candidates).Nodup) {counts : TokenCounts} {s s' : σ}
    (hcounts : countCandidateBlocks candidates counter s = .ok counts s') (view : RequestView)
    (input : AssemblyInput) :
    Matches (fun _ _ => True) (fun _ _ _ => True) (fun _ => False)
      (assemble view candidates counter { input with blockTokenCounts := some counts.mapping })
      (assemble view candidates counter { input with blockTokenCounts := none }) := by
  have hcounted := countCandidateBlocks_counted h hnodup hcounts
  obtain ⟨hids, hsub⟩ := canonicalCandidates_spec candidates
  refine (deterministic_inStep h).assemble_matches_of_counts view candidates input
    ⟨fun t u _ _ => ?_, fun _ ht => ht.elim⟩
  have hprovided : providedCounts counts.mapping (canonicalCandidates candidates) = _ :=
    providedCounts_of_mapping fun candidate hcandidate =>
      (hcounted candidate (hsub candidate hcandidate)).2
  obtain ⟨u', hagain⟩ : ∃ u', countBlocksFrom counter [] (canonicalCandidates candidates) u =
      .ok ([] ++ (canonicalCandidates candidates).map fun candidate =>
        (candidate.blockId, counts.cost candidate)) u' := countBlocksFrom_of_counted
    (fun candidate hcandidate => (hcounted candidate (hsub candidate hcandidate)).1)
    (by simpa using hids) u
  simp only [validatedBlockTokenCounts, countCandidateBlocks, hagain, hprovided, perform]
  exact ⟨by simp, trivial⟩

end Deterministic

end AstrContinuum
