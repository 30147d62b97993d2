import AstrContinuum.ContextGraph.LeastClosure
import AstrContinuum.ContextGraph.Live
import AstrContinuum.Guarantees.Counters

/-!
# What a live selection guarantees

`live_selection_sound`: whatever the engine answers, a live selection raises what its first assembly
raises or a tokenizer error, keeps the first assembly unless it reports an active outcome, and with an
active outcome has selected the least closure of the engine's blocks, with the candidates' own texts,
within the budget. `counting_first_raises` shows the one difference to a plain assembly: the blocks are
counted before the costs that are due are compared with the budget.
-/

namespace AstrContinuum

open Checked Effects

variable {σ : Type}

/-! ## Packing -/

/-- A block with another score and reason. -/
def Rescored (block scored : CandidateBlock) : Prop :=
  ∃ score reason, scored.toCandidateBlockData =
    { block.toCandidateBlockData with score := score, reason := reason }

/-- Some block has a count that is no float. -/
def Unconvertible (candidates : List CandidateBlock) (counts : String → Option Int) : Prop :=
  ∃ block ∈ candidates, ∃ cost, counts block.blockId = some cost ∧
    Binary64.ofNat (max 1 cost.toNat) = none

/-- What packing raises: what the last `try` block absorbs, and the error of a count that is no
float. -/
def PackRaises (candidates : List CandidateBlock) (counts : String → Option Int)
    (failure : RuntimeFailure) : Prop :=
  LiveContext.absorbs failure = true ∨ (∃ code, failure = .tokenizerError code) ∨
    Unconvertible candidates counts

section Raises

variable {allowed : RuntimeFailure → Prop}

/-- One block is packed with its own text and sources. -/
theorem scoreBlock_ensures {candidates : List CandidateBlock} {counts : String → Option Int}
    (htype : ∀ message, allowed (.typeError message))
    (hvalue : ∀ message, allowed (.valueError message))
    (hoverflow : Unconvertible candidates counts → allowed .overflowError)
    {scores : List (String × Rat)} {block : CandidateBlock} (hblock : block ∈ candidates) :
    Ensures allowed (Rescored block) (scoreBlock scores counts block) := by
  unfold scoreBlock
  split
  · exact ⟨_, _, rfl⟩
  · refine (Ensures.orMissing fun _ => htype _).bind fun cost hcost => ?_
    refine (Ensures.require fun _ => htype _).bind fun _ _ => ?_
    refine (Ensures.orMissing fun hnone => hoverflow ⟨block, hblock, cost, hcost, hnone⟩).bind
      fun divisor _ => ?_
    unfold candidateBlock
    split
    · exact ⟨_, _, rfl⟩
    · exact hvalue _

/-- The blocks are packed one by one. -/
theorem scoreForPack_ensures {candidates blocks : List CandidateBlock}
    {counts : String → Option Int} (htype : ∀ message, allowed (.typeError message))
    (hvalue : ∀ message, allowed (.valueError message))
    (hoverflow : Unconvertible candidates counts → allowed .overflowError)
    {scores : List (String × Rat)} (h : blocks ⊆ candidates) :
    Ensures allowed (List.Forall₂ Rescored blocks) (scoreForPack blocks scores counts) := by
  unfold scoreForPack
  induction blocks with
  | nil => exact .nil
  | cons block rest ih =>
      rw [List.mapM_cons]
      refine (scoreBlock_ensures htype hvalue hoverflow (h List.mem_cons_self)).bind
        fun scored hscored => ?_
      refine (ih fun other hother => h (List.mem_cons_of_mem _ hother)).bind fun others hothers => ?_
      exact .pure (.cons hscored hothers)

/-- The loop of the closure only raises that the closure is too large. -/
theorem closureLoop_ensures (hclosure : ∀ message, allowed (.closureError message))
    (maxBlocks : Nat) (available : List CandidateBlock) (fuel : Nat) (ids : List String) :
    Ensures allowed (fun _ => True) (closureLoop maxBlocks available fuel ids) := by
  have htake : ∀ left ids right,
      Ensures allowed (fun _ => True) (takeCompanion maxBlocks left ids right) := by
    intro left ids right
    unfold takeCompanion
    split
    · exact Ensures.pure trivial
    · exact .bind (.require fun _ => hclosure _) fun _ _ => .pure trivial
  have hpass : ∀ ids, Ensures allowed (fun _ => True) (closurePass maxBlocks available ids) :=
    fun ids => Ensures.forEach (fun _ _ => True) (fun left _ ids _ =>
      Ensures.forEach (fun _ _ => True) (fun right _ ids _ => htake left ids right) trivial) trivial
  induction fuel generalizing ids with
  | zero => exact trivial
  | succ fuel ih =>
      refine (hpass ids).bind fun next _ => ?_
      split
      · exact trivial
      · exact ih next

/-- The least closure is found, or a closure or value error is raised. -/
theorem closeDependencyClosure_ensures (hclosure : ∀ message, allowed (.closureError message))
    (hvalue : ∀ message, allowed (.valueError message))
    (selectedBlocks available : List CandidateBlock) (maxBlocks : Nat) :
    Ensures allowed (LeastClosure selectedBlocks available)
      (closeDependencyClosure selectedBlocks available maxBlocks) := by
  have hraises : Ensures allowed (fun _ => True)
      (closeDependencyClosure selectedBlocks available maxBlocks) := by
    unfold closeDependencyClosure
    refine .bind (.require fun _ => hvalue _) fun _ _ => ?_
    refine .bind (.require fun _ => hclosure _) fun _ _ => ?_
    refine .bind (.require fun _ => hclosure _) fun _ _ => ?_
    refine .bind (.require fun _ => hclosure _) fun _ _ => ?_
    exact .bind (closureLoop_ensures hclosure _ _ _ _) fun _ _ => .pure trivial
  cases hfound : closeDependencyClosure selectedBlocks available maxBlocks with
  | ok closure => exact closeDependencyClosure_least hfound
  | error failure => exact hraises.error hfound

end Raises

/-! ## The selection -/

/-- An active selection: the least closure of the answer's blocks, with the candidates' texts and
sources, which the built graph knows, within the budget. -/
structure ActiveSelection (candidates : List CandidateBlock) (input : AssemblyInput)
    (built : BuiltContextGraph) (answer : EngineResult) (assembly : AssemblyResult) : Prop where
  closure : ∃ closure,
    LeastClosure answer.selectedBlocks (canonicalCandidates candidates) closure ∧
      ∀ id, id ∈ blockIds assembly.selectedBlocks ↔ id ∈ blockIds closure
  texts : ∀ block ∈ assembly.selectedBlocks, ∃ candidate ∈ canonicalCandidates candidates,
    Rescored candidate block
  sources : ∀ block ∈ assembly.selectedBlocks, ∀ eventId ∈ block.sourceEventIds,
    eventId ∈ built.activation.provenanceEventIds
  within : assembly.trace.totalInputCost ≤ input.config.inputBudget

/-- Packing ends with an active selection, or raises. -/
theorem packFinal_yields {context : LiveContext} {candidates : List CandidateBlock}
    (hcontext : context.materialized = canonicalCandidates candidates) (counter : TokenCounter σ)
    (built : BuiltContextGraph) (answer : EngineResult) (s : σ) :
    Yields (PackRaises context.materialized context.counts)
      (fun final _ => ActiveSelection candidates context.input built answer final)
      (context.packFinal counter built answer) s := by
  refine (Yields.ensured (closeDependencyClosure_ensures (fun _ => .inl rfl) (fun _ => .inl rfl)
    _ _ _)).bind fun closure _ hclosure => ?_
  obtain ⟨hclosure, rfl⟩ := hclosure
  refine (Yields.ensured (Ensures.require fun _ => .inl rfl)).bind fun _ _ hsources => ?_
  refine (Yields.ensured (scoreForPack_ensures (fun _ => .inl rfl) (fun _ => .inl rfl)
    (fun hcount => .inr (.inr hcount)) hclosure.ordered.subset)).bind fun scored _ hscored => ?_
  refine ((assembly_within_budget context.view scored counter context.assemblyInput _).weaken
    ?_ fun _ _ h => h).bind fun final _ hfinal => ?_
  · intro failure hfailure
    cases hfailure with
    | tokenizer code => exact .inr (.inl ⟨code, rfl⟩)
    | budget h => exact .inl rfl
  refine (Yields.ensured (Ensures.require fun _ => .inl rfl)).bind fun _ _ hgate => .pure ?_
  obtain ⟨⟨-, hpacked, -, -⟩, -⟩ := hgate
  have hsource : ∀ block ∈ final.selectedBlocks, ∃ candidate ∈ closure,
      Rescored candidate block := by
    intro block hblock
    have hmem := (canonicalCandidates_spec scored).2 block (hfinal.ordered.subset hblock)
    exact exists_of_forall₂ hscored.1 hmem
  rw [hcontext] at hclosure
  refine
    { closure := ⟨closure, hclosure, fun id => ⟨fun hid => ?_, fun hid => ?_⟩⟩
      texts := fun block hblock => ?_
      sources := fun block hblock => ?_
      within := hfinal.total_le }
  · obtain ⟨block, hblock, rfl⟩ := List.mem_map.mp hid
    obtain ⟨candidate, hcandidate, _, _, hdata⟩ := hsource block hblock
    rw [hdata]
    exact List.mem_map_of_mem hcandidate
  · obtain ⟨block, hblock, rfl⟩ := List.mem_map.mp hid
    exact hpacked block hblock
  · obtain ⟨candidate, hcandidate, hrescored⟩ := hsource block hblock
    exact ⟨candidate, hclosure.ordered.subset hcandidate, hrescored⟩
  · obtain ⟨candidate, hcandidate, _, _, hdata⟩ := hsource block hblock
    rw [hdata]
    exact hsources.1 candidate hcandidate

/-! ## Behind the first assembly -/

variable [UnicodeTables]

/-- What a live selection ends with, behind the first assembly. -/
inductive Concluded (candidates : List CandidateBlock) (context : LiveContext)
    (engine : ContextEngineSolver σ) (s : σ) (result : LiveSelectionResult) : Prop
  | kept (houtcome : result.trace.outcome ≠ .active) (h : result.assembly = context.fallback)
  | packed {built : BuiltContextGraph} {answer : EngineResult} {retries : Nat} {s' : σ}
      (houtcome : result.trace.outcome = .active)
      (hbuilt : buildContextGraph context.view context.materialized context.input.currentInput
        context.config = .ok built)
      (hanswer : solveWithRetry engine built context.mode s = ((some answer, retries), s'))
      (hactive : ActiveSelection candidates context.input built answer result.assembly)

/-- What a live selection raises behind the first assembly. -/
def ConcludeRaises (context : LiveContext) (failure : RuntimeFailure) : Prop :=
  (∃ code, failure = .tokenizerError code) ∨ Unconvertible context.materialized context.counts

section Conclude

variable {context : LiveContext} {candidates : List CandidateBlock}
  {engine : ContextEngineSolver σ} {built : BuiltContextGraph}

/-- Keeping the first assembly. -/
theorem keep_yields {outcome : EngineOutcome} (houtcome : outcome ≠ .active)
    (trace : LiveTraceInput) (s s' : σ) :
    Yields (ConcludeRaises context) (fun result _ => Concluded candidates context engine s result)
      (pure (context.keep outcome trace)) s' :=
  .pure (.kept houtcome rfl)

/-- What follows the engine's answer. -/
theorem conclude_yields (hcontext : context.materialized = canonicalCandidates candidates)
    (counter : TokenCounter σ)
    (hbuilt : buildContextGraph context.view context.materialized context.input.currentInput
      context.config = .ok built) {answer : EngineResult} {retries : Nat} {s s' : σ}
    (hanswer : solveWithRetry engine built context.mode s = ((some answer, retries), s')) :
    Yields (ConcludeRaises context) (fun result _ => Concluded candidates context engine s result)
      (context.conclude counter built answer retries) s' := by
  unfold LiveContext.conclude
  refine .ite (fun _ => keep_yields ?_ _ _ _) fun _ =>
    .ite (fun _ => keep_yields (by decide) _ _ _) fun _ => ?_
  · split <;> exact nofun
  refine .attempt ((packFinal_yields hcontext counter built answer s').bind fun final _ hfinal =>
    .pure (.packed rfl hbuilt hanswer hfinal)) fun failure s'' hfailure => ?_
  refine .ite (fun _ => keep_yields (by decide) _ _ _) fun hnot => .throw ?_
  exact hfailure.resolve_left hnot

/-- Asking the engine. -/
theorem consult_yields (hcontext : context.materialized = canonicalCandidates candidates)
    (counter : TokenCounter σ)
    (hbuilt : buildContextGraph context.view context.materialized context.input.currentInput
      context.config = .ok built) (s : σ) :
    Yields (ConcludeRaises context) (fun result _ => Concluded candidates context engine s result)
      (context.consult counter engine built) s := by
  unfold Yields LiveContext.consult
  cases hanswer : solveWithRetry engine built context.mode s with
  | mk found s' =>
      obtain ⟨answer, retries⟩ := found
      cases answer with
      | none => exact .kept nofun rfl
      | some answer => exact conclude_yields hcontext counter hbuilt hanswer

/-- Everything that follows the first assembly keeps it or ends with an active selection. -/
theorem select_yields (hcontext : context.materialized = canonicalCandidates candidates)
    (counter : TokenCounter σ) (engine : ContextEngineSolver σ) (s : σ) :
    Yields (ConcludeRaises context) (fun result _ => Concluded candidates context engine s result)
      (context.select counter engine) s := by
  unfold LiveContext.select
  refine .ite (fun _ => keep_yields (by decide) _ _ _) fun _ =>
    .ite (fun _ => keep_yields (by decide) _ _ _) fun _ => ?_
  split
  · exact keep_yields (by decide) _ _ _
  · next built hbuilt => exact consult_yields hcontext counter hbuilt s

end Conclude

/-! ## The whole selection -/

/-- The first assembly of a live selection, with the counts that it uses. -/
def firstAssembly (view : RequestView) (candidates : List CandidateBlock)
    (counter : TokenCounter σ) (input : AssemblyInput) :
    EStateM RuntimeFailure σ ((String → Option Int) × AssemblyResult) := do
  let counts ← resolvedBlockTokenCounts (canonicalCandidates candidates) counter
    input.blockTokenCounts
  let fallback ← assemble view (canonicalCandidates candidates) counter
    { input with blockTokenCounts := some counts }
  pure (counts, fallback)

section Whole

variable (view : RequestView) (candidates : List CandidateBlock) (counter : TokenCounter σ)
  (input : AssemblyInput) (mode : ContextEngineMode) (engine : ContextEngineSolver σ) (s : σ)

/-- What a live selection raises: what the first assembly raises, or a tokenizer error. A count that is
no float is left open. -/
inductive LiveRaises (failure : RuntimeFailure) : Prop
  | first {s' : σ} (h : firstAssembly view candidates counter input s = .error failure s')
  | tokenizer {code : TokenizerErrorCode} (h : failure = .tokenizerError code)
  | unconvertible {counts : String → Option Int} {fallback : AssemblyResult} {s' : σ}
      (h : firstAssembly view candidates counter input s = .ok (counts, fallback) s')
      (hcount : Unconvertible (canonicalCandidates candidates) counts)

/-- What a live selection returns. -/
structure LiveSound (result : LiveSelectionResult) : Prop where
  /-- Without an active outcome, the first assembly. -/
  kept : result.trace.outcome ≠ .active → ∃ counts s',
    firstAssembly view candidates counter input s = .ok (counts, result.assembly) s'
  /-- With an active outcome, the closure of an answer that the engine gave behind the first
  assembly. -/
  active : result.trace.outcome = .active → ∃ first s₁ built answer retries s₂,
    firstAssembly view candidates counter input s = .ok first s₁ ∧
    buildContextGraph view (canonicalCandidates candidates) input.currentInput
      (engine.config.getD {}) = .ok built ∧
    solveWithRetry engine built mode s₁ = ((some answer, retries), s₂) ∧
    ActiveSelection candidates input built answer result.assembly

end Whole

/-- A live selection returns what it should, or raises what it may. -/
theorem selectLiveContext_yields (view : RequestView) (candidates : List CandidateBlock)
    (counter : TokenCounter σ) (input : AssemblyInput) (mode : ContextEngineMode)
    (engine : ContextEngineSolver σ) (s : σ) :
    Yields (LiveRaises view candidates counter input s)
      (fun result _ => LiveSound view candidates counter input mode engine s result)
      (selectLiveContext view candidates counter input mode engine) s := by
  have hsplit : selectLiveContext view candidates counter input mode engine =
      firstAssembly view candidates counter input >>= fun first =>
        LiveContext.select ⟨view, canonicalCandidates candidates, input, first.1, mode,
          engine.config.getD {}, first.2⟩ counter engine := by
    simp only [selectLiveContext, firstAssembly, bind_assoc, pure_bind]
  rw [hsplit]
  refine ((Yields.self _ s).weaken (fun e ⟨s', h⟩ => .first h) fun _ _ h => h).bind
    fun first s₁ hfirst => ?_
  refine (select_yields rfl counter engine s₁).weaken ?_ ?_
  · rintro failure (⟨code, hcode⟩ | hcount)
    · exact .tokenizer hcode
    · exact .unconvertible hfirst hcount
  · intro result s' hresult
    cases hresult with
    | kept houtcome h =>
        exact ⟨fun _ => ⟨first.1, s₁, h ▸ hfirst⟩, fun hactive => absurd hactive houtcome⟩
    | packed houtcome hbuilt hanswer hactive =>
        exact ⟨fun hnot => absurd houtcome hnot,
          fun _ => ⟨first, s₁, _, _, _, _, hfirst, hbuilt, hanswer, hactive⟩⟩

/-- For a counter whose answers depend on the text alone, the first assembly is the plain one: it
returns what the plain assembly of the canonical candidates returns, and raises what that raises or
what counting the blocks raises. -/
def FirstIsPlain (view : RequestView) (candidates : List CandidateBlock)
    (counter : TokenCounter σ) (input : AssemblyInput) (s : σ) : Prop :=
  counter.Deterministic → Yields
    (fun failure =>
      (∃ s', assemble view (canonicalCandidates candidates) counter input s = .error failure s') ∨
        input.blockTokenCounts = none ∧
          ∃ s', countCandidateBlocks (canonicalCandidates candidates) counter s =
            .error failure s')
    (fun first _ => ∃ s', assemble view (canonicalCandidates candidates) counter input s =
      .ok first.2 s')
    (firstAssembly view candidates counter input) s

omit [UnicodeTables] in
/-- The first assembly is the plain one. -/
theorem firstAssembly_plain (view : RequestView) (candidates : List CandidateBlock)
    (counter : TokenCounter σ) (input : AssemblyInput) (s : σ) :
    FirstIsPlain view candidates counter input s := by
  intro hcounter
  have hnodup := (canonicalCandidates_spec candidates).1
  have hsame : ∀ provided, input.blockTokenCounts = provided →
      { input with blockTokenCounts := provided } = input := by
    rintro _ rfl
    rfl
  unfold firstAssembly
  cases hprovided : input.blockTokenCounts with
  | some provided =>
      rw [resolvedBlockTokenCounts, pure_bind, hsame _ hprovided]
      exact ((Yields.self _ s).weaken (fun _ h => .inl h) fun _ _ h => h).bind
        fun fallback s₁ hfallback => .pure ⟨s₁, hfallback⟩
  | none =>
      rw [resolvedBlockTokenCounts, bind_assoc]
      refine ((Yields.self _ s).weaken (fun _ h => .inr ⟨rfl, h⟩) fun _ _ h => h).bind
        fun counts s₁ hcounts => ?_
      have hmatch := assemble_counted hcounter hnodup hcounts view input
      rw [hsame _ hprovided] at hmatch
      rw [pure_bind]
      refine ((Yields.self _ s₁).weaken ?_ fun _ _ h => h).bind fun fallback s₂ hfallback => ?_
      · rintro failure ⟨s', hfailure⟩
        obtain ⟨t', ht, -⟩ := hmatch.error trivial id hfailure
        exact .inl ⟨t', ht⟩
      · obtain ⟨t', ht, -⟩ := hmatch.ok trivial id hfallback
        exact .pure ⟨t', ht⟩

/-- A live selection is sound for every engine. -/
theorem live_selection_sound (view : RequestView) (candidates : List CandidateBlock)
    (counter : TokenCounter σ) (input : AssemblyInput) (mode : ContextEngineMode)
    (engine : ContextEngineSolver σ) (s : σ) :
    Yields (LiveRaises view candidates counter input s)
        (fun result _ => LiveSound view candidates counter input mode engine s result)
        (selectLiveContext view candidates counter input mode engine) s ∧
      FirstIsPlain view candidates counter input s :=
  ⟨selectLiveContext_yields view candidates counter input mode engine s,
    firstAssembly_plain view candidates counter input s⟩

/-! ## Two selections in step -/

section InStep

variable {τ : Type} {related : σ → τ → Prop} {broken : RuntimeFailure → σ → τ → Prop} {bad : τ → Prop}
  {counter : TokenCounter σ} {other : TokenCounter τ}

/-- Two engines that give the same answers in related states, of which the second keeps what is bad. -/
structure EnginesInStep (related : σ → τ → Prop) (bad : τ → Prop) (engine : ContextEngineSolver σ)
    (twin : ContextEngineSolver τ) : Prop where
  config : engine.config = twin.config
  solve : ∀ graph activation mode s t, related s t →
    (engine.solve graph activation mode s).1 = (twin.solve graph activation mode t).1 ∧
      related (engine.solve graph activation mode s).2 (twin.solve graph activation mode t).2
  stays : ∀ graph activation mode t, bad t → bad (twin.solve graph activation mode t).2

omit [UnicodeTables] in
/-- The engines are asked in step. -/
theorem solveWithRetry_inStep {engine : ContextEngineSolver σ} {twin : ContextEngineSolver τ}
    (h : EnginesInStep related bad engine twin) (built : BuiltContextGraph) (mode : ContextEngineMode)
    {s : σ} {t : τ} (hst : related s t) :
    (solveWithRetry engine built mode s).1 = (solveWithRetry twin built mode t).1 ∧
      related (solveWithRetry engine built mode s).2 (solveWithRetry twin built mode t).2 := by
  obtain ⟨hanswer, hnext⟩ := h.solve built.graph built.activation mode s t hst
  unfold solveWithRetry
  dsimp only
  cases hs : engine.solve built.graph built.activation mode s with
  | mk first s' =>
  cases ht : twin.solve built.graph built.activation mode t with
  | mk second t' =>
  rw [hs, ht] at hanswer hnext
  obtain rfl : first = second := hanswer
  cases first with
  | none => exact ⟨rfl, hnext⟩
  | some result =>
      dsimp only
      split
      · obtain ⟨hagain, hlast⟩ := h.solve built.graph _ mode s' t' hnext
        exact ⟨by rw [hagain], hlast⟩
      · exact ⟨rfl, hnext⟩

omit [UnicodeTables] in
/-- What is bad stays bad while the second engine is asked. -/
theorem solveWithRetry_stays {engine : ContextEngineSolver σ} {twin : ContextEngineSolver τ}
    (h : EnginesInStep related bad engine twin) (built : BuiltContextGraph) (mode : ContextEngineMode)
    {t : τ} (ht : bad t) : bad (solveWithRetry twin built mode t).2 := by
  have hnext := h.stays built.graph built.activation mode t ht
  unfold solveWithRetry
  dsimp only
  cases hanswer : twin.solve built.graph built.activation mode t with
  | mk first t' =>
  rw [hanswer] at hnext
  cases first with
  | none => exact hnext
  | some result =>
      dsimp only
      split
      · exact h.stays built.graph _ mode t' hnext
      · exact hnext

omit [UnicodeTables] in
/-- Packing runs in step. -/
theorem packFinal_matches (h : CountersInStep related broken bad counter other)
    (context : LiveContext) (built : BuiltContextGraph) (result : EngineResult) :
    Matches related broken bad (context.packFinal counter built result)
      (context.packFinal other built result) := by
  refine (h.perform (closeDependencyClosure_ensures (fun _ => by simp [Orderly])
    (fun _ => by simp [Orderly]) _ _ _)).bind fun closure => ?_
  refine (h.require (by simp [Orderly])).bind fun _ => ?_
  refine (h.perform (scoreForPack_ensures (fun _ => by simp [Orderly])
    (fun _ => by simp [Orderly]) (fun _ => by simp [Orderly]) (List.Subset.refl closure))).bind
    fun scored => ?_
  refine (h.assemble_matches _ _ _).bind fun final => ?_
  exact (h.require (by simp [Orderly])).bind fun _ => .pure final

/-- Failures that the last `try` block absorbs have broken nothing. -/
def AbsorbsSafely (related : σ → τ → Prop) (broken : RuntimeFailure → σ → τ → Prop) : Prop :=
  ∀ failure, LiveContext.absorbs failure = true → ∀ s t, broken failure s t → related s t

omit [UnicodeTables] in
/-- What follows the engine's answer runs in step. -/
theorem conclude_matches (h : CountersInStep related broken bad counter other)
    (habsorbs : AbsorbsSafely related broken) (context : LiveContext) (built : BuiltContextGraph)
    (result : EngineResult) (retries : Nat) :
    Matches related broken bad (context.conclude counter built result retries)
      (context.conclude other built result retries) := by
  unfold LiveContext.conclude
  refine .ite (.pure _) (.ite (.pure _) ?_)
  refine .attempt ((packFinal_matches h context built result).bind fun final => .pure _)
    (fun failure s t hbroken => ?_) fun failure t => ?_
  · split
    · next habsorbed => exact ⟨rfl, habsorbs failure habsorbed s t hbroken⟩
    · exact ⟨rfl, hbroken⟩
  · split
    · rfl
    · rfl

omit [UnicodeTables] in
/-- Asking the engine and what follows run in step. -/
theorem consult_matches (h : CountersInStep related broken bad counter other)
    (habsorbs : AbsorbsSafely related broken) {engine : ContextEngineSolver σ}
    {twin : ContextEngineSolver τ} (hengine : EnginesInStep related bad engine twin)
    (context : LiveContext) (built : BuiltContextGraph) :
    Matches related broken bad (context.consult counter engine built)
      (context.consult other twin built) := by
  refine ⟨fun s t hst => ?_, fun t hbad => ?_⟩
  · obtain ⟨hanswer, hnext⟩ := solveWithRetry_inStep hengine built context.mode hst
    unfold LiveContext.consult
    cases hs : solveWithRetry engine built context.mode s with
    | mk first s' =>
    cases ht : solveWithRetry twin built context.mode t with
    | mk second t' =>
    rw [hs, ht] at hanswer hnext
    obtain rfl : first = second := hanswer
    obtain ⟨answer, retries⟩ := first
    cases answer with
    | none => exact fun _ => ⟨rfl, hnext⟩
    | some answer =>
        exact (conclude_matches h habsorbs context built answer retries).inStep s' t' hnext
  · have hnext := solveWithRetry_stays hengine built context.mode hbad
    unfold LiveContext.consult
    cases ht : solveWithRetry twin built context.mode t with
    | mk second t' =>
    rw [ht] at hnext
    obtain ⟨answer, retries⟩ := second
    cases answer with
    | none => exact hnext
    | some answer =>
        exact (conclude_matches h habsorbs context built answer retries).stays t' hnext

/-- A live selection runs in step. -/
theorem selectLiveContext_matches (h : CountersInStep related broken bad counter other)
    (habsorbs : AbsorbsSafely related broken) {engine : ContextEngineSolver σ}
    {twin : ContextEngineSolver τ} (hengine : EnginesInStep related bad engine twin)
    (view : RequestView) (candidates : List CandidateBlock) (input : AssemblyInput)
    (mode : ContextEngineMode) :
    Matches related broken bad (selectLiveContext view candidates counter input mode engine)
      (selectLiveContext view candidates other input mode twin) := by
  have hcounts : Matches related broken bad
      (resolvedBlockTokenCounts (canonicalCandidates candidates) counter input.blockTokenCounts)
      (resolvedBlockTokenCounts (canonicalCandidates candidates) other input.blockTokenCounts) := by
    cases input.blockTokenCounts with
    | none => exact (h.countBlocksFrom _ _).bind fun counts => .pure _
    | some provided => exact .pure provided
  refine hcounts.bind fun counts => (h.assemble_matches _ _ _).bind fun fallback => ?_
  rw [hengine.config]
  refine .ite (.pure _) (.ite (.pure _) ?_)
  split
  · exact .pure _
  · next built hbuilt => exact consult_matches h habsorbs hengine _ built

end InStep

/-! ## Counting comes first -/

namespace LiveSample

/-- The one candidate. -/
def candidate : CandidateBlock :=
  { blockId := "block", slot := .activeTask, kind := .taskContext, text := "task"
    sourceEventIds := ["event"], score := 1, reason := "STRUCTURED_FALLBACK", required := false
    capsuleId := none, eventSequence := none, valid := by decide +kernel }

/-- A counter that fails on the text of the candidate and finds every other text too long. -/
def counter : TokenCounter Unit where
  countText text s := if text = "task" then (.otherError, s) else (.integer 200000, s)

/-- A view without a delta. -/
def view : RequestView :=
  ⟨⟨"p", "m", "s", none, "u", "c", none, SessionKey.sample_nonEmpty⟩, none, [], 0, 0, 0, []⟩

/-- The default budget, and no counts. -/
def input : AssemblyInput where
  currentInput := "hello"
  opaqueTokenCost := 0
  fixedRequiredCost := 0
  config := { reserved_le := BudgetConfig.defaultReserve_le }

end LiveSample

open LiveSample in
omit [UnicodeTables] in
/-- The counter fails on the candidate before the plain assembly would find that the input exceeds
the budget. -/
theorem counting_first_raises :
    ¬ ∀ [UnicodeTables] (view : RequestView) (candidates : List CandidateBlock)
      (counter : TokenCounter Unit) (input : AssemblyInput) (mode : ContextEngineMode)
      (engine : ContextEngineSolver Unit) (failure : RuntimeFailure),
      (∃ s', selectLiveContext view candidates counter input mode engine () = .error failure s') →
      (∃ code, failure = .tokenizerError code) ∨
        ∃ s', assemble view (canonicalCandidates candidates) counter input () =
          .error failure s' := by
  intro hclaim
  let _ : UnicodeTables := ⟨fun text => text, fun c => c.isAlphanum⟩
  have hlive : selectLiveContext view [candidate] counter input .active
      ⟨none, fun _ _ _ s => (none, s)⟩ () =
      .error (.budgetInvariantError .tokenCounterFailure) () := rfl
  have hplain : assemble view (canonicalCandidates [candidate]) counter input () =
      .error (.budgetInvariantError .requiredInputExceedsBudget) () := rfl
  rcases hclaim view [candidate] counter input .active _ _ ⟨(), hlive⟩ with ⟨_, h⟩ | ⟨_, h⟩
  · cases h
  · rw [hplain] at h
    cases h

end AstrContinuum
