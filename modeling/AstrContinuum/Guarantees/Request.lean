import AstrContinuum.Domain.Quoting
import AstrContinuum.Guarantees.Live
import AstrContinuum.Tokenization.Request

/-!
# What a request budget guarantees

`request_budget_atomic`: a request computes what it would compute with a counter that is asked for every
count. With a primary counter whose profile is that of the request and whose every count succeeds, the
result is that of the primary counter, and otherwise it is that of the fallback counter alone. Every
outcome that allows a mutation has an assembly with all required blocks within the budget.

The caches represent the counts of the texts of the request (`Caching`). Against the plain counter, which
notes the texts it is asked for, each kind of count is one step that keeps this, and the run is made of
such steps. Two noted texts with one digest (`Collides`) end the comparison.
-/

namespace AstrContinuum

open Checked Effects

/-! ## The plain computation -/

/-- A count of a counter that is asked every time; the texts are noted. -/
def plainCount (attempt : String → CountAttempt) (text : String) :
    EStateM RuntimeFailure (List String) Nat := fun log =>
  match countUncached (attempt text) with
  | .ok value => .ok value (log ++ [text])
  | .error failure => .error failure (log ++ [text])

/-- The counter without caches. -/
def plainCounter (attempt : String → CountAttempt) (profile : TokenizerProfile) :
    RequestCounter (List String) where
  countBlock _ text := plainCount attempt text
  countRequestPart _ text := plainCount attempt text
  countText := plainCount attempt
  profile := profile

/-- The text is counted. -/
def CountSucceeds (attempt : String → CountAttempt) (text : String) : Prop :=
  (countUncached (attempt text)).isOk = true

/-- Every error of a count is one of the tokenizer. -/
theorem countUncached_error {attempt : CountAttempt} {failure : RuntimeFailure}
    (h : countUncached attempt = .error failure) : ∃ code, failure = .tokenizerError code := by
  unfold countUncached at h
  split at h
  · split at h
    · cases h
    · exact ⟨_, (Except.error.inj h).symm⟩
  all_goals exact ⟨_, (Except.error.inj h).symm⟩

/-- An assembly counts as the request counter does, where that raises tokenizer errors only. -/
theorem countText_tokenCounter {σ : Type} {counter : RequestCounter σ} {text : String} {s : σ}
    (h : ∀ failure s', counter.countText text s = .error failure s' →
      ∃ code, failure = .tokenizerError code) :
    countText counter.tokenCounter text s = counter.countText text s := by
  unfold countText RequestCounter.tokenCounter
  cases hcount : counter.countText text s with
  | ok value s' => simp [hcount]
  | error failure s' =>
      obtain ⟨code, rfl⟩ := h failure s' hcount
      simp [hcount]

/-! ## The caches -/

section Requests

variable [Hashlib]

section Caches

variable {attempt : String → CountAttempt} {entries : List (String × String)}

/-- A cache holds counts of texts that belong to the ids of its keys. -/
structure KeyedCache.Represents (attempt : String → CountAttempt)
    (entries : List (String × String)) (cache : KeyedCache) : Prop where
  fingerprints : ∀ key fingerprint, cache.fingerprints.lookup key = some fingerprint →
    ∃ text, (key.1, text) ∈ entries ∧ fingerprint = Hashlib.sha256Hexdigest text
  counts : ∀ key value, cache.counts.lookup key = some value →
    ∃ text, (key.1, text) ∈ entries ∧ countUncached (attempt text) = .ok value

/-- A count under a key is the count of its text, whether it is remembered or not. -/
theorem KeyedCache.count_spec {cache : KeyedCache} (h : cache.Represents attempt entries)
    (hentries : (entries.map Prod.fst).Nodup) {key : CacheKey} {text : String}
    (hentry : (key.1, text) ∈ entries) :
    (∃ value cache', countUncached (attempt text) = .ok value ∧
        cache.count attempt key text = .ok (value, cache') ∧ cache'.Represents attempt entries) ∨
      ∃ failure, countUncached (attempt text) = .error failure ∧
        cache.count attempt key text = .error failure := by
  have honly : ∀ other, (key.1, other) ∈ entries → other = text := by
    intro other hother
    have hpair := List.inj_on_of_nodup_map hentries hother hentry rfl
    exact congrArg Prod.snd hpair
  have hfree : ∀ previous ∈ cache.fingerprints.lookup key,
      previous = Hashlib.sha256Hexdigest text := by
    intro previous hprevious
    obtain ⟨other, hother, rfl⟩ := h.fingerprints key previous hprevious
    rw [honly other hother]
  unfold KeyedCache.count
  dsimp only
  rw [require_bind_pos hfree]
  cases hcached : cache.counts.lookup key with
  | some cached =>
      obtain ⟨other, hother, hcount⟩ := h.counts key cached hcached
      rw [honly other hother] at hcount
      exact .inl ⟨cached, cache, hcount, rfl, h⟩
  | none =>
      cases hcount : countUncached (attempt text) with
      | error failure => exact .inr ⟨failure, rfl, rfl⟩
      | ok value =>
          refine .inl ⟨value, _, rfl, rfl, ?_, ?_⟩
          · intro other fingerprint hlookup
            rw [List.lookup_cons] at hlookup
            split at hlookup
            · next heq =>
                obtain rfl := eq_of_beq heq
                exact ⟨text, hentry, (Option.some.inj hlookup).symm⟩
            · exact h.fingerprints other fingerprint hlookup
          · intro other cached hlookup
            rw [List.lookup_cons] at hlookup
            split at hlookup
            · next heq =>
                obtain rfl := eq_of_beq heq
                exact ⟨text, hentry, Option.some.inj hlookup ▸ hcount⟩
            · exact h.counts other cached hlookup

end Caches

/-! ## Caching against plain counting -/

/-- The ids of the blocks with their texts. -/
def blockEntries (workload : RequestBudgetWorkload) : List (String × String) :=
  workload.prepared.candidates.map fun candidate => (candidate.blockId, candidate.text)

/-- The ids of the texts of a group, from an index on. -/
def labelEntries (label : String) : Nat → List String → List (String × String)
  | _, [] => []
  | index, text :: rest =>
      (label ++ ":" ++ toString index, text) :: labelEntries label (index + 1) rest

/-- The ids of the parts of a request with their texts. -/
def partEntries (workload : RequestBudgetWorkload) : List (String × String) :=
  labelEntries "host" 0 workload.host.allHostTexts ++
    labelEntries "opaque" 0 workload.host.opaqueTexts ++
    labelEntries "fixed" 0 workload.host.fixedRequiredTexts ++
    [("current-input", workload.prepared.currentInput)]

omit [Hashlib] in
/-- Every id of a group is its label with an index. -/
theorem labelEntries_fst {label : String} {texts : List String} {index : Nat}
    {entry : String × String} (h : entry ∈ labelEntries label index texts) :
    ∃ position, index ≤ position ∧ entry.1 = label ++ ":" ++ toString position := by
  induction texts generalizing index with
  | nil => cases h
  | cons text rest ih =>
      rcases List.mem_cons.mp h with rfl | h
      · exact ⟨index, le_refl index, rfl⟩
      · obtain ⟨position, hle, hid⟩ := ih h
        exact ⟨position, by omega, hid⟩

omit [Hashlib] in
/-- The ids of a group are distinct. -/
theorem labelEntries_nodup (label : String) (index : Nat) (texts : List String) :
    ((labelEntries label index texts).map Prod.fst).Nodup := by
  induction texts generalizing index with
  | nil => exact List.nodup_nil
  | cons text rest ih =>
      refine List.nodup_cons.mpr ⟨fun hmem => ?_, ih (index + 1)⟩
      obtain ⟨entry, hentry, hid⟩ := List.mem_map.mp hmem
      obtain ⟨position, hle, hposition⟩ := labelEntries_fst hentry
      have hsame : label ++ ":" ++ toString position = label ++ ":" ++ toString index :=
        hposition.symm.trans hid
      have hlists := congrArg String.toList hsame
      simp only [String.toList_append, List.append_cancel_left_eq] at hlists
      have hindex := toString_nat_injective (String.toList_injective hlists)
      omega

omit [Hashlib] in
/-- The ids of a group begin as its label does. -/
theorem labelEntries_head {label : String} {first : Char} (hlabel : label.toList.head? = some first)
    {texts : List String} {index : Nat} {id : String}
    (h : id ∈ (labelEntries label index texts).map Prod.fst) : id.toList.head? = some first := by
  obtain ⟨entry, hentry, rfl⟩ := List.mem_map.mp h
  obtain ⟨position, -, hid⟩ := labelEntries_fst hentry
  rw [hid, String.toList_append, String.toList_append]
  cases hlist : label.toList with
  | nil => simp [hlist] at hlabel
  | cons c rest => simpa [hlist] using hlabel

omit [Hashlib] in
/-- The parts of a request have distinct ids. -/
theorem partEntries_nodup (workload : RequestBudgetWorkload) :
    ((partEntries workload).map Prod.fst).Nodup := by
  have hhost : ∀ id ∈ (labelEntries "host" 0 workload.host.allHostTexts).map Prod.fst,
      id.toList.head? = some 'h' := fun id => labelEntries_head (by rfl)
  have hforeign : ∀ id ∈ (labelEntries "opaque" 0 workload.host.opaqueTexts).map Prod.fst,
      id.toList.head? = some 'o' := fun id => labelEntries_head (by rfl)
  have hfixed : ∀ id ∈ (labelEntries "fixed" 0 workload.host.fixedRequiredTexts).map Prod.fst,
      id.toList.head? = some 'f' := fun id => labelEntries_head (by rfl)
  have hcurrent : ("current-input" : String).toList.head? = some 'c' := by rfl
  simp only [partEntries, List.map_append, List.map_cons, List.map_nil]
  refine List.nodup_append.mpr ⟨List.nodup_append.mpr ⟨List.nodup_append.mpr
    ⟨labelEntries_nodup _ _ _, labelEntries_nodup _ _ _, ?_⟩, labelEntries_nodup _ _ _, ?_⟩,
    by simp, ?_⟩
  · rintro id hid _ hid' rfl
    have hhead := (hhost id hid).symm.trans (hforeign id hid')
    cases hhead
  · rintro id hid _ hid' rfl
    rcases List.mem_append.mp hid with hid | hid
    · have hhead := (hhost id hid).symm.trans (hfixed id hid')
      cases hhead
    · have hhead := (hforeign id hid).symm.trans (hfixed id hid')
      cases hhead
  · rintro id hid _ hid' rfl
    obtain rfl := List.mem_singleton.mp hid'
    rcases List.mem_append.mp hid with hid | hid
    · rcases List.mem_append.mp hid with hid | hid
      · have hhead := (hhost _ hid).symm.trans hcurrent
        cases hhead
      · have hhead := (hforeign _ hid).symm.trans hcurrent
        cases hhead
    · have hhead := (hfixed _ hid).symm.trans hcurrent
      cases hhead

section Steps

variable (attempt : String → CountAttempt) (workload : RequestBudgetWorkload)

/-- The caches represent counts of the request, and every noted text was counted. -/
structure Caching (caches : ScopedCaches) (log : List String) : Prop where
  blocks : caches.blocks.Represents attempt (blockEntries workload)
  parts : caches.parts.Represents attempt (partEntries workload)
  texts : ∀ key value, caches.texts.lookup key = some value →
    ∃ text ∈ log, key.1 = Hashlib.sha256Hexdigest text ∧ countUncached (attempt text) = .ok value
  counted : ∀ text ∈ log, CountSucceeds attempt text

/-- Two noted texts have one digest. -/
def Collides (log : List String) : Prop :=
  ¬ Set.InjOn Hashlib.sha256Hexdigest {text | text ∈ log}

/-- What a failure leaves: a tokenizer error, a text that was not counted, and any other error, the
caches as they were. -/
def Interrupted (failure : RuntimeFailure) (caches : ScopedCaches) (log : List String) : Prop :=
  match failure with
  | .tokenizerError _ => ∃ text ∈ log, ¬ CountSucceeds attempt text
  | .budgetInvariantError .tokenCounterFailure => False
  | _ => Caching attempt workload caches log

end Steps

section Steps

variable {attempt : String → CountAttempt} {workload : RequestBudgetWorkload}

/-- A collision stays when more is noted. -/
theorem Collides.append {log : List String} (h : Collides log) (more : List String) :
    Collides (log ++ more) :=
  fun hinj => h (hinj.mono fun _ htext => List.mem_append_left more htext)

omit [Hashlib] in
/-- A plain count notes its text, whether it succeeds or not. -/
theorem plainCount_final (text : String) (log : List String) :
    finalState (plainCount attempt text log) = log ++ [text] := by
  unfold plainCount
  cases countUncached (attempt text) with
  | ok value => rfl
  | error failure => rfl

/-- A plain count keeps a collision. -/
theorem plainCount_stays (text : String) {log : List String} (h : Collides log) :
    Collides (finalState (plainCount attempt text log)) :=
  plainCount_final text log ▸ h.append [text]

/-- Nothing is cached at the start. -/
theorem Caching.start : Caching attempt workload {} [] :=
  ⟨⟨nofun, nofun⟩, ⟨nofun, nofun⟩, nofun, nofun⟩

/-- A plain count that succeeds is noted. -/
theorem Caching.note {caches : ScopedCaches} {log : List String}
    (h : Caching attempt workload caches log) {text : String} {value : Nat}
    (hcount : countUncached (attempt text) = .ok value) :
    Caching attempt workload caches (log ++ [text]) where
  blocks := h.blocks
  parts := h.parts
  texts := by
    intro key cached hlookup
    obtain ⟨other, hother, hkey⟩ := h.texts key cached hlookup
    exact ⟨other, List.mem_append_left _ hother, hkey⟩
  counted := by
    intro other hother
    rcases List.mem_append.mp hother with hother | hother
    · exact h.counted other hother
    · rw [List.mem_singleton.mp hother, CountSucceeds, hcount]
      rfl

/-- A plain count that fails is noted as well. -/
theorem interrupted_of_error {caches : ScopedCaches} {log : List String} {text : String}
    {failure : RuntimeFailure} (hcount : countUncached (attempt text) = .error failure) :
    Interrupted attempt workload failure caches (log ++ [text]) := by
  obtain ⟨code, rfl⟩ := countUncached_error hcount
  refine ⟨text, by simp, ?_⟩
  rw [CountSucceeds, hcount]
  exact nofun

/-- An error that no count raised interrupts nothing. -/
theorem interrupted_of_orderly {failure : RuntimeFailure} (hfailure : Orderly failure)
    {caches : ScopedCaches} {log : List String} (h : Caching attempt workload caches log) :
    Interrupted attempt workload failure caches log := by
  unfold Interrupted
  split
  · next code => exact absurd rfl (hfailure.2 code)
  · exact hfailure.1 rfl
  · exact h

/-- A block of the request is counted in step. -/
theorem countBlock_matches (hids : (blockIds workload.prepared.candidates).Nodup)
    (profile : TokenizerProfile) {candidate : CandidateBlock}
    (hcandidate : candidate ∈ workload.prepared.candidates) :
    Matches (Caching attempt workload) (Interrupted attempt workload) Collides
      (RequestScopedTokenCounter.countBlock attempt profile candidate.blockId candidate.text)
      (plainCount attempt candidate.text) := by
  refine ⟨fun caches log h _ => ?_, fun log => plainCount_stays candidate.text⟩
  have hentries : ((blockEntries workload).map Prod.fst).Nodup := by
    rw [blockEntries, List.map_map]
    exact hids
  have hspec := KeyedCache.count_spec h.blocks hentries
    (show ((candidate.blockId, profile.profileId).1, candidate.text) ∈ blockEntries workload from
      List.mem_map_of_mem hcandidate)
  unfold RequestScopedTokenCounter.countBlock plainCount
  rw [if_neg candidate.valid.1]
  rcases hspec with ⟨value, blocks, hcount, hcached, hblocks⟩ | ⟨failure, hcount, hcached⟩
  · rw [hcached, hcount]
    exact ⟨rfl, { h.note hcount with blocks := hblocks }⟩
  · rw [hcached, hcount]
    exact ⟨rfl, interrupted_of_error hcount⟩

/-- A part of the request is counted in step. -/
theorem countRequestPart_matches (profile : TokenizerProfile) {partId text : String}
    (hentry : (partId, text) ∈ partEntries workload) :
    Matches (Caching attempt workload) (Interrupted attempt workload) Collides
      (RequestScopedTokenCounter.countRequestPart attempt profile partId text)
      (plainCount attempt text) := by
  refine ⟨fun caches log h _ => ?_, fun log => plainCount_stays text⟩
  have hspec := KeyedCache.count_spec h.parts (partEntries_nodup workload)
    (show ((partId, profile.profileId).1, text) ∈ partEntries workload from hentry)
  unfold RequestScopedTokenCounter.countRequestPart plainCount
  rcases hspec with ⟨value, parts, hcount, hcached, hparts⟩ | ⟨failure, hcount, hcached⟩
  · rw [hcached, hcount]
    exact ⟨rfl, { h.note hcount with parts := hparts }⟩
  · rw [hcached, hcount]
    exact ⟨rfl, interrupted_of_error hcount⟩

/-- A text of an assembly is counted in step, where the fingerprints tell the counted texts apart. -/
theorem countText_matches (profile : TokenizerProfile) (text : String) :
    Matches (Caching attempt workload) (Interrupted attempt workload) Collides
      (RequestScopedTokenCounter.countText attempt profile text) (plainCount attempt text) := by
  refine ⟨fun caches log h hbad => ?_, fun log => plainCount_stays text⟩
  have hinj := not_not.mp (plainCount_final text log ▸ hbad)
  unfold RequestScopedTokenCounter.countText plainCount
  dsimp only
  cases hcached : caches.texts.lookup (Hashlib.sha256Hexdigest text, profile.profileId) with
  | some cached =>
      obtain ⟨other, hother, hsame, hcount⟩ := h.texts _ cached hcached
      obtain rfl : text = other := hinj (by simp) (List.mem_append_left _ hother) hsame
      rw [hcount]
      exact ⟨rfl, h.note hcount⟩
  | none =>
      cases hcount : countUncached (attempt text) with
      | error failure => exact ⟨rfl, interrupted_of_error hcount⟩
      | ok value =>
          refine ⟨rfl, { h.note hcount with texts := ?_ }⟩
          intro key cached hlookup
          rw [List.lookup_cons] at hlookup
          split at hlookup
          · next heq =>
              obtain rfl := eq_of_beq heq
              exact ⟨text, by simp, rfl, Option.some.inj hlookup ▸ hcount⟩
          · exact (h.note hcount).texts key cached hlookup

/-- An assembly counts in step through the two counters. -/
theorem tokenCounters_inStep (profile : TokenizerProfile) :
    CountersInStep (Caching attempt workload) (Interrupted attempt workload) Collides
      (RequestScopedTokenCounter.counter attempt profile).tokenCounter
      (plainCounter attempt profile).tokenCounter where
  counts := by
    intro text
    have hplain : ∀ log failure log', plainCount attempt text log = .error failure log' →
        ∃ code, failure = .tokenizerError code := by
      intro log failure log' hfailure
      unfold plainCount at hfailure
      cases hcount : countUncached (attempt text) with
      | ok value => simp [hcount] at hfailure
      | error other =>
          rw [hcount] at hfailure
          cases hfailure
          exact countUncached_error hcount
    have hlogged : ∀ log, countText (plainCounter attempt profile).tokenCounter text log =
        plainCount attempt text log := fun log => countText_tokenCounter (hplain log)
    refine ⟨fun caches log h hbad => ?_, fun log hbad => ?_⟩
    · rw [hlogged] at hbad ⊢
      rw [countText_tokenCounter]
      · exact (countText_matches profile text).inStep caches log h hbad
      · intro failure caches' hfailure
        obtain ⟨log', hlog, -⟩ := (countText_matches profile text).error h hbad hfailure
        exact hplain log failure log' hlog
    · rw [hlogged]
      exact plainCount_stays text hbad
  orderly := fun failure hfailure caches log h => interrupted_of_orderly hfailure h

/-- The failures that a live selection absorbs leave the caches as they were. -/
theorem interrupted_absorbsSafely :
    AbsorbsSafely (Caching attempt workload) (Interrupted attempt workload) := by
  intro failure habsorbs caches log h
  unfold Interrupted at h
  split at h
  · cases habsorbs
  · exact h.elim
  · exact h

/-- A group of texts is counted in step. -/
theorem sumTextsFrom_matches (profile : TokenizerProfile) {label : String} {texts : List String}
    {index : Nat} (h : ∀ entry ∈ labelEntries label index texts, entry ∈ partEntries workload) :
    Matches (Caching attempt workload) (Interrupted attempt workload) Collides
      (sumTextsFrom (RequestScopedTokenCounter.counter attempt profile) label index texts)
      (sumTextsFrom (plainCounter attempt profile) label index texts) := by
  induction texts generalizing index with
  | nil => exact .pure 0
  | cons text rest ih =>
      refine (countRequestPart_matches profile (h _ List.mem_cons_self)).bind fun value => ?_
      exact (ih fun entry hentry => h entry (List.mem_cons_of_mem _ hentry)).bind
        fun others => .pure _

/-- The blocks are counted in step. -/
theorem countBlocks_matches (hids : (blockIds workload.prepared.candidates).Nodup)
    (profile : TokenizerProfile) {candidates : List CandidateBlock}
    (h : candidates ⊆ workload.prepared.candidates) :
    Matches (Caching attempt workload) (Interrupted attempt workload) Collides
      (countBlocks (RequestScopedTokenCounter.counter attempt profile) candidates)
      (countBlocks (plainCounter attempt profile) candidates) := by
  induction candidates with
  | nil => exact .pure []
  | cons candidate rest ih =>
      refine (countBlock_matches hids profile (h List.mem_cons_self)).bind fun value => ?_
      exact (ih fun other hother => h (List.mem_cons_of_mem _ hother)).bind fun others => .pure _

end Steps

/-! ## The run in step -/

variable [UnicodeTables]

omit [Hashlib] in
/-- A call of the assembly runner is in step. -/
theorem runner_matches {σ τ : Type} {related : σ → τ → Prop}
    {broken : RuntimeFailure → σ → τ → Prop} {bad : τ → Prop} {counter : TokenCounter σ}
    {other : TokenCounter τ} (h : CountersInStep related broken bad counter other)
      (habsorbs : AbsorbsSafely related broken)
    (runner : AssemblyRunner) (view : RequestView) (candidates : List CandidateBlock)
    (input : AssemblyInput) :
    Matches related broken bad (runner.run view candidates counter input)
      (runner.run view candidates other input) := by
  cases runner with
  | assemble => exact h.assemble_matches view candidates input
  | live mode config solve =>
      refine Matches.bind (selectLiveContext_matches h habsorbs ⟨rfl, ?_, ?_⟩ view candidates input mode)
        fun selected => .pure selected.assembly
      · exact fun _ _ _ _ _ hst => ⟨rfl, hst⟩
      · exact fun _ _ _ _ hbad => hbad

section Run

variable {attempt : String → CountAttempt} {workload : RequestBudgetWorkload}

omit [Hashlib] [UnicodeTables] in
/-- The pressure is configured without a count. -/
theorem pressureConfig_orderly (contextLimit reservedOutputAndTools : Nat)
    (compactRatio projectRatio : Ratio) :
    Ensures Orderly (fun _ => True)
      (pressureConfig contextLimit reservedOutputAndTools compactRatio projectRatio) := by
  unfold pressureConfig
  split_ifs
  · exact ⟨nofun, nofun⟩
  · exact trivial
  · exact ⟨nofun, nofun⟩
  · exact ⟨nofun, nofun⟩

omit [Hashlib] [UnicodeTables] in
/-- The pressure is assessed without a count. -/
theorem assessPressure_orderly (trustedTokenUsage : Option Nat)
    (estimatedInputUsage currentInputCost : Nat) (config : PressureConfig) :
    Ensures Orderly (fun _ => True)
      (assessPressure trustedTokenUsage estimatedInputUsage currentInputCost config) := by
  have hceil : ∀ (ratio : Ratio) (capacity : Nat),
      Ensures Orderly (fun _ => True) (ratio.ceilProduct capacity) := by
    intro ratio capacity
    cases ratio with
    | integer value => exact trivial
    | float value => exact .bind (.orMissing fun _ => ⟨nofun, nofun⟩) fun _ _ => .pure trivial
  unfold assessPressure
  exact .bind (hceil _ _) fun _ _ => .bind (hceil _ _) fun _ _ => .pure trivial

/-- The part that assembles is in step. -/
theorem runAssembly_matches
    (hids : (blockIds workload.prepared.candidates).Nodup) (profile : TokenizerProfile)
    (runner : AssemblyRunner) (opaqueCost fixedCost : Nat) :
    Matches (Caching attempt workload) (Interrupted attempt workload) Collides
      (runAssembly workload (RequestScopedTokenCounter.counter attempt profile) runner opaqueCost
        fixedCost)
      (runAssembly workload (plainCounter attempt profile) runner opaqueCost fixedCost) := by
  have hcounters : CountersInStep (Caching attempt workload)
    (Interrupted attempt workload) Collides _ _ :=
    tokenCounters_inStep profile
  have hconfig : Ensures Orderly (fun _ => True) (budgetConfig workload.profile.targetInputBudget
      workload.profile.hardInputCeiling workload.profile.contextLimit
      workload.profile.reservedOutputAndTools workload.profile.safetyMargin) := by
    unfold budgetConfig
    split
    · split
      · exact trivial
      · exact ⟨nofun, nofun⟩
    · exact ⟨nofun, nofun⟩
  refine (countBlocks_matches hids profile (List.Subset.refl _)).bind fun counts => ?_
  refine Matches.bind (.attempt ((hcounters.perform hconfig).bind fun config =>
    (runner_matches hcounters interrupted_absorbsSafely runner _ _ _).bind fun assembly =>
      .pure (some assembly)) (fun failure caches log hbroken => ?_) fun failure log => ?_)
    fun assembly => ?_
  · split
    · next hrequired =>
        subst hrequired
        exact ⟨rfl, hbroken⟩
    · exact ⟨rfl, hbroken⟩
  · split
    · rfl
    · rfl
  · cases assembly with
    | none => exact .pure none
    | some assembly => exact .ite (.pure _) (.pure none)

/-- A run with the caches and the plain run are in step. -/
theorem runOnce_matches
    (hids : (blockIds workload.prepared.candidates).Nodup) (profile : TokenizerProfile)
    (runner : AssemblyRunner) :
    Matches (Caching attempt workload) (Interrupted attempt workload) Collides
      (runOnce workload (RequestScopedTokenCounter.counter attempt profile) runner)
      (runOnce workload (plainCounter attempt profile) runner) := by
  have hcounters : CountersInStep (Caching attempt workload)
    (Interrupted attempt workload) Collides _ _ :=
    tokenCounters_inStep profile
  have houtcome : ∀ pressure assembly stableCode, Ensures Orderly (fun _ => True)
      (runOutcome profile pressure assembly stableCode) := by
    intro pressure assembly stableCode
    exact .bind (.require fun _ => ⟨nofun, nofun⟩) fun _ _ => .pure trivial
  have hparts : ∀ label texts, (∀ entry ∈ labelEntries label 0 texts, entry ∈ partEntries workload) →
      Matches (Caching attempt workload) (Interrupted attempt workload) Collides
        (sumTexts (RequestScopedTokenCounter.counter attempt profile) label texts)
        (sumTexts (plainCounter attempt profile) label texts) :=
    fun label texts h => sumTextsFrom_matches profile h
  unfold runOnce
  refine .ite (hcounters.perform (houtcome _ _ _)) ?_
  refine (hparts _ _ fun entry hentry => by simp [partEntries, hentry]).bind fun hostCost => ?_
  refine (hparts _ _ fun entry hentry => by simp [partEntries, hentry]).bind fun opaqueCost => ?_
  refine (hparts _ _ fun entry hentry => by simp [partEntries, hentry]).bind fun fixedCost => ?_
  refine (countRequestPart_matches profile (by simp [partEntries])).bind fun currentCost => ?_
  refine (hcounters.perform (pressureConfig_orderly _ _ _ _)).bind fun config => ?_
  refine (hcounters.perform (assessPressure_orderly _ _ _ config)).bind fun pressure => ?_
  refine .ite ?_ (hcounters.perform (houtcome _ _ _))
  refine (runAssembly_matches hids profile runner opaqueCost fixedCost).bind fun assembly => ?_
  cases assembly with
  | none => exact hcounters.perform (houtcome _ _ _)
  | some assembly => exact hcounters.perform (houtcome _ _ _)

end Run

/-! ## Outcomes -/

/-- What holds of every outcome of a run with a profile, the mark of a fallback included. -/
structure OutcomeSound (workload : RequestBudgetWorkload) (profile : TokenizerProfile)
    (discarded : Bool) (outcome : RequestBudgetOutcome) : Prop where
  discarded : outcome.primaryResultDiscarded = discarded
  profileId : outcome.tokenizerProfileId = profile.profileId
  mutation : outcome.mutationAllowed = outcome.assembly.isSome
  required : ∀ assembly ∈ outcome.assembly, ∀ candidate ∈ workload.prepared.candidates,
    candidate.required = true → candidate.blockId ∈ blockIds assembly.selectedBlocks
  within : ∀ assembly ∈ outcome.assembly,
    (assembly.trace.totalInputCost : Int) ≤ workload.profile.effectiveInputBudget
  codes : outcome.tokenizerProfileId ≠ "" ∧ outcome.tokenizerMode ≠ "" ∧ outcome.stableCode ≠ ""

section Outcomes

variable {σ : Type} {workload : RequestBudgetWorkload}

omit [Hashlib] in
/-- A call of the assembly runner stays within the budget. -/
theorem runner_within (runner : AssemblyRunner) (view : RequestView)
    (candidates : List CandidateBlock) (counter : TokenCounter σ) (input : AssemblyInput) (s : σ) :
    Yields (fun _ => True)
      (fun assembly _ => assembly.trace.totalInputCost ≤ input.config.inputBudget)
      (runner.run view candidates counter input) s := by
  have hassembly : ∀ (blocks : List CandidateBlock) (other : AssemblyInput) (s : σ),
      other.config = input.config → Yields (fun _ => True)
        (fun assembly _ => assembly.trace.totalInputCost ≤ input.config.inputBudget)
        (assemble view blocks counter other) s :=
    fun blocks other s hconfig => (assembly_within_budget view blocks counter other s).weaken
      (fun _ _ => trivial) fun _ _ h => hconfig ▸ h.total_le
  cases runner with
  | assemble => exact hassembly candidates input s rfl
  | live mode config solve =>
      have hfirst : Yields (fun _ => True)
          (fun first _ => first.2.trace.totalInputCost ≤ input.config.inputBudget)
          (firstAssembly view candidates counter input) s :=
        .after fun counts s₁ =>
          (hassembly _ { input with blockTokenCounts := some counts } s₁ rfl).bind
            fun fallback s₂ h => .pure h
      refine ((selectLiveContext_yields view candidates counter input mode _ s).weaken
        (fun _ _ => trivial) fun _ _ h => h).bind fun selected s₁ hselected => .pure ?_
      by_cases houtcome : selected.trace.outcome = .active
      · obtain ⟨_, _, _, _, _, _, _, _, _, hactive⟩ := hselected.active houtcome
        exact hactive.within
      · obtain ⟨counts, s', hkept⟩ := hselected.kept houtcome
        exact hfirst.ok hkept

omit [Hashlib] [UnicodeTables] in
/-- An outcome of a run is sound when its assembly is. -/
theorem runOutcome_sound {profile : TokenizerProfile} {pressure : PressureDecision}
    {assembly : Option AssemblyResult} {stableCode : String}
    (hrequired : ∀ found ∈ assembly, ∀ candidate ∈ workload.prepared.candidates,
      candidate.required = true → candidate.blockId ∈ blockIds found.selectedBlocks)
    (hwithin : ∀ found ∈ assembly,
      (found.trace.totalInputCost : Int) ≤ workload.profile.effectiveInputBudget) (s : σ) :
    Yields (fun _ => True) (fun outcome _ => OutcomeSound workload profile false outcome)
      (perform (runOutcome profile pressure assembly stableCode)) s := by
  refine (Yields.ensured ?_).mono fun _ _ h => h.1
  refine .bind (.require fun _ => trivial) fun _ hcodes => .pure ?_
  exact ⟨rfl, rfl, rfl, hrequired, hwithin, hcodes.1, hcodes.2.1, hcodes.2.2.2⟩

omit [Hashlib] [UnicodeTables] in
/-- An outcome without an assembly is sound. -/
theorem withoutAssembly_sound {profile : TokenizerProfile} (pressure : PressureDecision)
    (stableCode : String) (s : σ) :
    Yields (fun _ => True) (fun outcome _ => OutcomeSound workload profile false outcome)
      (perform (runOutcome profile pressure none stableCode)) s :=
  have hnone : ∀ (found : AssemblyResult), found ∉ (none : Option AssemblyResult) := nofun
  runOutcome_sound (fun found hfound => absurd hfound (hnone found))
    (fun found hfound => absurd hfound (hnone found)) s

omit [Hashlib] [UnicodeTables] in
/-- The budget of an assembly is the effective input budget. -/
theorem budgetConfig_ensures (profile : RequestBudgetProfile) :
    Ensures (fun _ => True)
      (fun config => (config.inputBudget : Int) = profile.effectiveInputBudget)
      (budgetConfig profile.targetInputBudget profile.hardInputCeiling profile.contextLimit
        profile.reservedOutputAndTools profile.safetyMargin) := by
  unfold budgetConfig
  split
  · split
    · next hreserved =>
        show ((BudgetConfig.inputBudget _ : Nat) : Int) = _
        unfold BudgetConfig.inputBudget RequestBudgetProfile.effectiveInputBudget
        dsimp only
        omega
    · exact trivial
  · exact trivial

omit [Hashlib] in
/-- The `try` block returns an assembly within the budget. -/
theorem tryAssembly_within (counter : RequestCounter σ) (runner : AssemblyRunner)
    (opaqueCost fixedCost : Nat) (counts : TokenCounts) (s : σ) :
    Yields (fun _ => True) (fun result _ => ∀ assembly ∈ result,
        (assembly.trace.totalInputCost : Int) ≤ workload.profile.effectiveInputBudget)
      (tryAssembly workload counter runner opaqueCost fixedCost counts) s := by
  refine .attempt ((Yields.ensured (budgetConfig_ensures workload.profile)).bind
    fun config s₁ hconfig => (runner_within runner _ _ _ _ s₁).bind fun assembly s₂ hle =>
      .pure fun found hfound => ?_) fun failure s₁ _ => .ite (fun _ => .pure nofun) fun _ =>
        .throw trivial
  obtain rfl := Option.mem_some.mp hfound
  have hbudget := hconfig.1
  dsimp only at hle
  omega

omit [Hashlib] in
/-- The part that assembles returns an assembly with all required blocks within the budget. -/
theorem runAssembly_yields (counter : RequestCounter σ) (runner : AssemblyRunner)
    (opaqueCost fixedCost : Nat) (s : σ) :
    Yields (fun _ => True)
      (fun result _ => (∀ assembly ∈ result, ∀ candidate ∈ workload.prepared.candidates,
          candidate.required = true → candidate.blockId ∈ blockIds assembly.selectedBlocks) ∧
        ∀ assembly ∈ result,
          (assembly.trace.totalInputCost : Int) ≤ workload.profile.effectiveInputBudget)
      (runAssembly workload counter runner opaqueCost fixedCost) s := by
  refine .after fun counts s₁ => ?_
  refine (tryAssembly_within counter runner opaqueCost fixedCost counts s₁).bind
    fun result s₂ hwithin => ?_
  cases result with
  | none => exact .pure ⟨nofun, nofun⟩
  | some assembly =>
      refine .ite (fun hrequired => .pure ⟨fun found hfound => ?_, hwithin⟩)
        fun _ => .pure ⟨nofun, nofun⟩
      obtain rfl := Option.mem_some.mp hfound
      exact hrequired

omit [Hashlib] in
/-- Every outcome of a run is sound. -/
theorem runOnce_sound (counter : RequestCounter σ) (runner : AssemblyRunner) (s : σ) :
    Yields (fun _ => True) (fun outcome _ => OutcomeSound workload counter.profile false outcome)
      (runOnce workload counter runner) s := by
  unfold runOnce
  refine .ite (fun _ => withoutAssembly_sound _ _ s) fun _ => ?_
  refine .after fun hostCost _ => .after fun opaqueCost _ => .after fun fixedCost _ =>
    .after fun currentCost _ => .after fun config _ => .after fun pressure s₁ => ?_
  refine .ite (fun _ => ?_) fun _ => withoutAssembly_sound _ _ s₁
  refine (runAssembly_yields counter runner opaqueCost fixedCost s₁).bind
    fun result s₂ hresult => ?_
  cases result with
  | none => exact withoutAssembly_sound _ _ s₂
  | some assembly => exact runOutcome_sound hresult.1 hresult.2 s₂

end Outcomes

/-! ## Atomicity -/

/-- The counter has no profile of its own, or has this one. -/
def DeclaredProfile.Agrees (declared : DeclaredProfile) (profile : TokenizerProfile) : Prop :=
  declared = .absent ∨ declared = .profile profile

omit [Hashlib] [UnicodeTables] in
/-- A counter is given the profile that it agrees with, and no other counter is accepted. -/
theorem resolvedProfile_eq (declared : DeclaredProfile) (profile : TokenizerProfile) :
    (declared.Agrees profile →
        RequestScopedTokenCounter.resolvedProfile declared profile = .ok profile) ∧
      (¬ declared.Agrees profile → RequestScopedTokenCounter.resolvedProfile declared profile =
        .error (.tokenizerError .tokenizerConstructionFailed)) := by
  cases declared with
  | absent => exact ⟨fun _ => rfl, fun h => absurd (.inl rfl) h⟩
  | malformed => exact ⟨fun h => by simp [DeclaredProfile.Agrees] at h, fun _ => rfl⟩
  | profile declared =>
      by_cases hsame : declared = profile
      · subst hsame
        exact ⟨fun _ => by simp [RequestScopedTokenCounter.resolvedProfile, require, bind,
          Except.bind, pure, Except.pure], fun h => absurd (.inr rfl) h⟩
      · exact ⟨fun h => by simp [DeclaredProfile.Agrees, hsame] at h,
          fun _ => require_bind_neg hsame⟩

section Atomic

variable (workload : RequestBudgetWorkload) (runner : AssemblyRunner)

/-- The request computation with a counter that is asked for every count. -/
def plainRun (attempt : String → CountAttempt) (profile : TokenizerProfile) :
    EStateM.Result RuntimeFailure (List String) RequestBudgetOutcome :=
  runOnce workload (plainCounter attempt profile) runner []

/-- The texts that the plain computation counts. -/
def countedTexts (attempt : String → CountAttempt) (profile : TokenizerProfile) : Set String :=
  {text | text ∈ finalState (plainRun workload runner attempt profile)}

/-- No count of the plain computation fails. -/
def NoCountFails (attempt : String → CountAttempt) (profile : TokenizerProfile) : Prop :=
  ∀ text ∈ finalState (plainRun workload runner attempt profile), CountSucceeds attempt text

/-- The run with the caches gives what the plain run gives, and a failure triggers the fallback exactly
when a count of the plain run failed. -/
theorem runScoped_eq (hids : (blockIds workload.prepared.candidates).Nodup) (counter : HostCounter)
    (profile : TokenizerProfile)
    (hhash : Set.InjOn Hashlib.sha256Hexdigest
      (countedTexts workload runner counter.countText profile))
    (hprofile : counter.profile.Agrees profile) :
    runScoped workload counter profile runner =
        outcome (plainRun workload runner counter.countText profile) ∧
      ((∃ failure, runScoped workload counter profile runner = .error failure ∧
          triggersFallback failure = true) ↔
        ¬ NoCountFails workload runner counter.countText profile) := by
  have hscoped : runScoped workload counter profile runner = outcome (runOnce workload
      (RequestScopedTokenCounter.counter counter.countText profile) runner {}) := by
    unfold runScoped
    rw [(resolvedProfile_eq counter.profile profile).1 hprofile]
    rfl
  have hmatch : Matches (Caching counter.countText workload)
      (Interrupted counter.countText workload) Collides _ _ :=
    runOnce_matches hids profile runner
  rw [hscoped]
  unfold NoCountFails plainRun
  cases hcached : runOnce workload
      (RequestScopedTokenCounter.counter counter.countText profile) runner {} with
  | ok result caches =>
      obtain ⟨log, hplain, hcaching⟩ := hmatch.ok Caching.start (not_not.mpr hhash) hcached
      rw [hplain]
      refine ⟨rfl, ⟨fun h => ?_, fun h => absurd hcaching.counted h⟩⟩
      obtain ⟨failure, hfailure, -⟩ := h
      cases hfailure
  | error failure caches =>
      obtain ⟨log, hplain, hbroken⟩ := hmatch.error Caching.start (not_not.mpr hhash) hcached
      rw [hplain]
      refine ⟨rfl, ⟨?_, fun h => ⟨failure, rfl, ?_⟩⟩⟩
      · rintro ⟨_, hfailure, htriggers⟩ hcounted
        obtain rfl := Except.error.inj hfailure
        unfold Interrupted at hbroken
        split at hbroken
        · obtain ⟨text, hmem, hfails⟩ := hbroken
          exact hfails (hcounted text hmem)
        · exact hbroken
        · next hnot htokenizer hbudget =>
            cases failure with
            | tokenizerError code => exact htokenizer code rfl
            | budgetInvariantError code =>
                obtain rfl := of_decide_eq_true htriggers
                exact hbudget rfl
            | _ => cases htriggers
      · unfold Interrupted at hbroken
        split at hbroken
        · rfl
        · exact hbroken.elim
        · exact absurd hbroken.counted h

/-- Every outcome of a run with the caches is sound. -/
theorem runScoped_sound {counter : HostCounter} {profile : TokenizerProfile}
    {result : RequestBudgetOutcome} (h : runScoped workload counter profile runner = .ok result) :
    OutcomeSound workload profile false result := by
  obtain ⟨resolved, hresolved, h⟩ := bind_ok.mp h
  by_cases hprofile : counter.profile.Agrees profile
  · rw [(resolvedProfile_eq counter.profile profile).1 hprofile] at hresolved
    obtain rfl := Except.ok.inj hresolved
    have hsound : Yields _ (fun result _ => OutcomeSound workload profile false result) _ _ :=
      runOnce_sound (RequestScopedTokenCounter.counter counter.countText profile) runner {}
    cases hrun : runOnce workload (RequestScopedTokenCounter.counter counter.countText profile)
        runner {} with
    | ok found caches =>
        rw [hrun] at h
        obtain rfl := Except.ok.inj h
        exact hsound.ok hrun
    | error failure caches =>
        rw [hrun] at h
        cases h
  · rw [(resolvedProfile_eq counter.profile profile).2 hprofile] at hresolved
    cases hresolved

omit [Hashlib] [UnicodeTables] in
/-- A marked outcome is sound, and its constructor accepts it. -/
theorem OutcomeSound.mark {workload : RequestBudgetWorkload} {profile : TokenizerProfile}
    {result : RequestBudgetOutcome} (h : OutcomeSound workload profile false result) :
    OutcomeSound workload profile true result.markFallback ∧
      requestBudgetOutcome result.markFallback = .ok result.markFallback := by
  obtain ⟨hid, hmode, hstable⟩ := h.codes
  refine ⟨⟨rfl, h.profileId, h.mutation, h.required, h.within, h.codes⟩, ?_⟩
  exact require_bind_pos ⟨hid, hmode, by simp [RequestBudgetOutcome.markFallback], hstable⟩

/-- A primary counter whose profile is refused, or a count of which fails, triggers the fallback. -/
theorem primary_triggers (hids : (blockIds workload.prepared.candidates).Nodup) (primary : HostCounter)
    (hhash : Set.InjOn Hashlib.sha256Hexdigest
      (countedTexts workload runner primary.countText workload.profile.tokenizerProfile))
    (h : ¬ (primary.profile.Agrees workload.profile.tokenizerProfile ∧
      NoCountFails workload runner primary.countText workload.profile.tokenizerProfile)) :
    ∃ failure, runScoped workload primary workload.profile.tokenizerProfile runner =
      .error failure ∧ triggersFallback failure = true := by
  by_cases hprofile : primary.profile.Agrees workload.profile.tokenizerProfile
  · obtain ⟨-, hiff⟩ := runScoped_eq workload runner hids primary _ hhash hprofile
    exact hiff.mpr fun hcounted => h ⟨hprofile, hcounted⟩
  · refine ⟨.tokenizerError .tokenizerConstructionFailed, ?_, rfl⟩
    unfold runScoped
    rw [(resolvedProfile_eq primary.profile _).2 hprofile]
    rfl

/-- The texts that a request counts with either counter. -/
def requestTexts (primary fallback : HostCounter) : Set String :=
  countedTexts workload runner primary.countText workload.profile.tokenizerProfile ∪
    countedTexts workload runner fallback.countText byteFallback

/-- What a request budget guarantees. -/
structure RequestAtomic (primary fallback : HostCounter) : Prop where
  /-- The result of the primary counter, where its profile is accepted and its counts succeed. -/
  kept : primary.profile.Agrees workload.profile.tokenizerProfile →
    NoCountFails workload runner primary.countText workload.profile.tokenizerProfile →
    runRequestBudget workload primary fallback runner =
      outcome (plainRun workload runner primary.countText workload.profile.tokenizerProfile)
  /-- The result of the fallback counter alone otherwise. -/
  replaced : ¬ (primary.profile.Agrees workload.profile.tokenizerProfile ∧
      NoCountFails workload runner primary.countText workload.profile.tokenizerProfile) →
    fallback.profile.Agrees byteFallback →
    runRequestBudget workload primary fallback runner =
      (outcome (plainRun workload runner fallback.countText byteFallback)).map
        RequestBudgetOutcome.markFallback
  /-- The refusal of a fallback counter with another profile. -/
  refused : ¬ (primary.profile.Agrees workload.profile.tokenizerProfile ∧
      NoCountFails workload runner primary.countText workload.profile.tokenizerProfile) →
    ¬ fallback.profile.Agrees byteFallback →
    runRequestBudget workload primary fallback runner =
      .error (.tokenizerError .tokenizerConstructionFailed)
  /-- Every outcome is one of the two profiles. -/
  sound : ∀ result, runRequestBudget workload primary fallback runner = .ok result →
    OutcomeSound workload workload.profile.tokenizerProfile false result ∨
      OutcomeSound workload byteFallback true result
  /-- The constructors of the configurations accept the profile. -/
  configured : 1 ≤ workload.profile.effectiveInputBudget →
    (∃ config, pressureConfig workload.profile.contextLimit
      workload.profile.reservedOutputAndTools workload.profile.compactionStartRatio
      workload.profile.providerViewSwitchRatio = .ok config) ∧
    ∃ config, budgetConfig workload.profile.targetInputBudget workload.profile.hardInputCeiling
      workload.profile.contextLimit workload.profile.reservedOutputAndTools
      workload.profile.safetyMargin = .ok config

/-- A request budget is atomic: it has the result of one counter alone. -/
theorem request_budget_atomic (primary fallback : HostCounter)
    (hhash : Set.InjOn Hashlib.sha256Hexdigest (requestTexts workload runner primary fallback))
    (hids : (blockIds workload.prepared.candidates).Nodup) :
    RequestAtomic workload runner primary fallback where
  kept := by
    intro hprofile hcounted
    obtain ⟨heq, hiff⟩ := runScoped_eq workload runner hids primary _
      (hhash.mono Set.subset_union_left) hprofile
    unfold runRequestBudget validateWorkload
    rw [require_bind_pos hids]
    cases hrun : runScoped workload primary workload.profile.tokenizerProfile runner with
    | ok result => exact hrun.symm.trans heq
    | error failure =>
        have hquiet : ¬ triggersFallback failure = true := fun htriggers =>
          hiff.mp ⟨failure, hrun, htriggers⟩ hcounted
        dsimp only
        rw [if_neg hquiet]
        exact hrun.symm.trans heq
  replaced := by
    intro hnot hprofile
    obtain ⟨failure, hrun, htriggers⟩ := primary_triggers workload runner hids primary
      (hhash.mono Set.subset_union_left) hnot
    have heq := (runScoped_eq workload runner hids fallback _
      (hhash.mono Set.subset_union_right) hprofile).1
    unfold runRequestBudget validateWorkload
    rw [require_bind_pos hids, hrun]
    dsimp only
    rw [if_pos htriggers, ← heq]
    cases hsecond : runScoped workload fallback byteFallback runner with
    | error failure => rfl
    | ok result => exact (runScoped_sound workload runner hsecond).mark.2
  refused := by
    intro hnot hprofile
    obtain ⟨failure, hrun, htriggers⟩ := primary_triggers workload runner hids primary
      (hhash.mono Set.subset_union_left) hnot
    have hrefused : runScoped workload fallback byteFallback runner =
        .error (.tokenizerError .tokenizerConstructionFailed) := by
      unfold runScoped
      rw [(resolvedProfile_eq fallback.profile _).2 hprofile]
      rfl
    unfold runRequestBudget validateWorkload
    rw [require_bind_pos hids, hrun]
    dsimp only
    rw [if_pos htriggers, hrefused]
    rfl
  sound := by
    intro result hresult
    obtain ⟨-, -, hresult⟩ := bind_ok.mp hresult
    cases hrun : runScoped workload primary workload.profile.tokenizerProfile runner with
    | ok first =>
        rw [hrun] at hresult
        obtain rfl := Except.ok.inj hresult
        exact .inl (runScoped_sound workload runner hrun)
    | error failure =>
        rw [hrun] at hresult
        dsimp only at hresult
        split at hresult
        · obtain ⟨second, hsecond, hmark⟩ := bind_ok.mp hresult
          obtain ⟨hsound, hmarked⟩ := (runScoped_sound workload runner hsecond).mark
          obtain rfl := Except.ok.inj (hmarked.symm.trans hmark)
          exact .inr hsound
        · cases hresult
  configured := by
    intro hbudget
    unfold RequestBudgetProfile.effectiveInputBudget at hbudget
    have hroom : workload.profile.reservedOutputAndTools < workload.profile.contextLimit := by
      omega
    have hcontext : workload.profile.contextLimit ≠ 0 := by omega
    obtain ⟨hlimit, htarget, hceiling⟩ := workload.profile.positive
    refine ⟨?_, ?_⟩
    · unfold pressureConfig
      rw [if_neg hcontext, dif_pos hroom, dif_pos workload.profile.ordered]
      exact ⟨_, rfl⟩
    · unfold budgetConfig
      rw [dif_pos ⟨htarget, hceiling, hlimit⟩, dif_pos hroom.le]
      exact ⟨_, rfl⟩

end Atomic

end Requests

namespace RequestSample

scoped instance : Hashlib := .sha256

scoped instance : UnicodeTables := ⟨fun text => text, fun c => c.isAlphanum⟩

/-- A second candidate. -/
def note : CandidateBlock :=
  { LiveSample.candidate with blockId := "note", text := "note", valid := by decide +kernel }

/-- A request with two candidate blocks that is projected from its first tokens on. -/
def workload : RequestBudgetWorkload where
  prepared := ⟨"hello", LiveSample.view, [LiveSample.candidate, note], none⟩
  host := ⟨["hello"], [], []⟩
  profile :=
    { contextLimit := 200, tokenizerProfile := byteFallback, targetInputBudget := 200
      hardInputCeiling := 200, reservedOutputAndTools := 0, safetyMargin := 0
      compactionStartRatio := .float (1 / 100), providerViewSwitchRatio := .float (1 / 100)
      stableCode := "ACTIVE", positive := by decide, ordered := by decide +kernel
      stable := by decide }

/-- A counter that fails on the text of the second block. -/
def primary : HostCounter :=
  ⟨.absent, fun text => if text = "note" then .otherError else .integer text.utf8ByteSize⟩

/-- A counter of bytes. -/
def fallback : HostCounter := ⟨.profile byteFallback, fun text => .integer text.utf8ByteSize⟩

/-- All texts that are counted, the assembled one last. -/
def texts : List String := ["hello", "task", "note", "\n\n", "task\n\nnote"]

/-- No other text is counted. -/
theorem requestTexts_subset :
    requestTexts workload .assemble primary fallback ⊆ {text | text ∈ texts} := by
  have hprimary : ∀ text ∈ finalState (plainRun workload .assemble primary.countText byteFallback),
      text ∈ texts := by
    decide +kernel
  have hfallback : ∀ text ∈ finalState (plainRun workload .assemble fallback.countText byteFallback),
      text ∈ texts := by
    decide +kernel
  exact Set.union_subset hprimary hfallback

/-- The digests of the texts differ. -/
theorem digests_injOn : Set.InjOn Hashlib.sha256Hexdigest {text | text ∈ texts} := by
  have hdigests : texts.map Hashlib.sha256Hexdigest =
      ["2cf24dba5fb0a30e26e83b2ac5b9e29e1b161e5c1fa7425e73043362938b9824",
        "0ebb429fa86d481c2630fac53db1c91cffed5d4d41d1021c179444eb67e7ee0b",
        "edb465624291e4053c6c5ea4b7eb320dec773e10a57d26b95dcf0564f8e310f8",
        "75a11da44c802486bc6f65640aa48a730f0f684c5c07a42ba3cd1735eb3fb070",
        "1a38894a52d6f548735f2d748a03a01b56350486fd82eb53f636e7329152faee"] := by
    decide +kernel
  have hnodup : (texts.map Hashlib.sha256Hexdigest).Nodup := by
    rw [hdigests]
    decide
  exact fun first hfirst second hsecond heq =>
    List.inj_on_of_nodup_map hnodup hfirst hsecond heq

end RequestSample

open RequestSample in
/-- The atomicity of a request whose primary counter fails behind the first block: the fallback counter
assembles both. -/
theorem request_budget_atomic_sample :
    RequestAtomic workload .assemble primary fallback ∧
      ∃ result, runRequestBudget workload primary fallback .assemble = .ok result ∧
        result.assembly.map (fun assembly => blockIds assembly.selectedBlocks) =
          some ["block", "note"] := by
  have hrun : (runRequestBudget workload primary fallback .assemble).toOption.any (fun result =>
      decide (result.assembly.map (fun assembly => blockIds assembly.selectedBlocks) =
        some ["block", "note"])) = true := by
    decide +kernel
  refine ⟨request_budget_atomic workload .assemble primary fallback
    (digests_injOn.mono requestTexts_subset) (by decide), ?_⟩
  cases h : runRequestBudget workload primary fallback .assemble with
  | error failure =>
      rw [h] at hrun
      cases hrun
  | ok result =>
      rw [h] at hrun
      exact ⟨result, rfl, of_decide_eq_true hrun⟩

end AstrContinuum
