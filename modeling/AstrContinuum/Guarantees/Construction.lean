import AstrContinuum.ContextGraph.BuiltGraph

/-!
# Where the graph is built

Within its capacities `build_context_graph` keeps the longest prefix of the related pairs that fits, and
the engine accepts its size. It fails where two kept pairs have one text between them, or a block has an
event without an id.
-/

namespace AstrContinuum

open Checked

section Construction

variable [UnicodeTables]

/-- Relations of two terms each that fit. -/
def ContextGraphConfig.Fits (config : ContextGraphConfig)
    (pairs : List (CandidateBlock × CandidateBlock)) : Prop :=
  pairs.length ≤ config.maxRelations ∧ 4 * pairs.length ≤ config.maxRelationEntries

/-- The longest prefix of the pairs of positive weight that fits. -/
structure LongestFitting (candidates : List CandidateBlock) (config : ContextGraphConfig)
    (kept : List (CandidateBlock × CandidateBlock)) : Prop where
  isPrefix : kept <+: related (orderedPairs candidates)
  fits : config.Fits kept
  longest : ∀ other, other <+: related (orderedPairs candidates) → config.Fits other →
    other <+: kept

omit [UnicodeTables] in
/-- Pairs fit as far as the capacity goes. -/
theorem fits_iff {config : ContextGraphConfig} {pairs : List (CandidateBlock × CandidateBlock)} :
    config.Fits pairs ↔ pairs.length ≤ config.relationCapacity := by
  unfold ContextGraphConfig.Fits ContextGraphConfig.relationCapacity
  omega

omit [UnicodeTables] in
/-- The kept pairs are the longest prefix that fits. -/
theorem keptPairs_longest (candidates : List CandidateBlock) (config : ContextGraphConfig) :
    LongestFitting candidates config (keptPairs candidates config) := by
  refine ⟨List.take_prefix _ _, fits_iff.mpr (List.length_take_le _ _), fun other hother hfits => ?_⟩
  exact List.prefix_take_iff.mpr ⟨hother, fits_iff.mp hfits⟩

omit [UnicodeTables] in
/-- Relations of two terms fit the expansion limit of the engine where their entries do. -/
theorem expansionExceeds_pairs {limit : Nat} (pairs : List (CandidateBlock × CandidateBlock)) :
    ∀ expanded, expanded + 4 * pairs.length ≤ limit →
      expansionExceeds limit expanded (pairs.map pairRelation) = false := by
  induction pairs with
  | nil => exact fun _ _ => rfl
  | cons pair pairs ih =>
      intro expanded hlimit
      rw [List.length_cons] at hlimit
      have hroom : ¬ (pairRelation pair).terms.length >
          (limit - expanded) / (pairRelation pair).terms.length := by
        show ¬ 2 > (limit - expanded) / 2
        omega
      rw [List.map_cons]
      unfold expansionExceeds
      dsimp only
      rw [if_neg hroom]
      exact ih _ (by show expanded + 2 * 2 + _ ≤ _; omega)

omit [UnicodeTables] in
/-- The engine accepts the size of a graph that is built. -/
theorem builtGraph_accepted {view : RequestView} {candidates : List CandidateBlock}
    {config : ContextGraphConfig} (hcoordinates : candidates.length ≤ config.maxCoordinates)
    (hconstraints : (candidates.filter fun item => item.required).length ≤ config.maxConstraints) :
    config.exceededBy (builtGraph view candidates config) = false := by
  obtain ⟨hrelations, hentries⟩ := (keptPairs_longest candidates config).fits
  have hcoordinateCount : (builtGraph view candidates config).coordinates.length =
      candidates.length := List.length_map _
  have hrelationCount : (builtGraph view candidates config).relations.length =
      (keptPairs candidates config).length := List.length_map _
  have hconstraintCount : (builtGraph view candidates config).constraints.length =
      (candidates.filter fun item => item.required).length := List.length_map _
  have hexpansion : expansionExceeds config.maxRelationEntries 0
      (builtGraph view candidates config).relations = false :=
    expansionExceeds_pairs _ 0 (by omega)
  unfold ContextGraphConfig.exceededBy
  rw [hcoordinateCount, hrelationCount, hconstraintCount, hexpansion,
    decide_eq_false (by omega), decide_eq_false (by omega), decide_eq_false (by omega)]
  rfl

/-- The texts of the kept pairs, in which both block ids stand around a colon. -/
def keptTexts (candidates : List CandidateBlock) (config : ContextGraphConfig) : List String :=
  (keptPairs candidates config).map fun pair => pair.1.blockId ++ ":" ++ pair.2.blockId

omit [UnicodeTables] in
/-- The ids of the relations are distinct where the texts of the pairs are. -/
theorem keptIds_nodup_iff {candidates : List CandidateBlock} {config : ContextGraphConfig} :
    (keptIds candidates config).Nodup ↔ (keptTexts candidates config).Nodup := by
  have hids : keptIds candidates config =
      (keptTexts candidates config).map fun text => "relation:" ++ text := by
    unfold keptIds keptTexts
    rw [List.map_map]
    refine List.map_congr_left fun pair _ => ?_
    show "relation:" ++ pair.1.blockId ++ ":" ++ pair.2.blockId =
      "relation:" ++ (pair.1.blockId ++ ":" ++ pair.2.blockId)
    rw [String.append_assoc, String.append_assoc, String.append_assoc]
  have hinjective : Function.Injective fun text : String => "relation:" ++ text :=
    fun _ _ heq => (String.append_right_inj _).mp heq
  rw [hids, List.nodup_map_iff hinjective]

/-- Graph construction: within the capacities and over distinct block ids, a graph with the longest
prefix of the related pairs that fits is built, and the engine accepts its size, exactly where no two of
these pairs have one text between them and no block has an event without an id. -/
theorem build_context_graph_iff (view : RequestView) (candidates : List CandidateBlock)
    (currentInput : String) (config : ContextGraphConfig) (hids : (blockIds candidates).Nodup)
    (hcoordinates : candidates.length ≤ config.maxCoordinates)
    (hconstraints : (candidates.filter fun item => item.required).length ≤ config.maxConstraints) :
    (∃ built kept, buildContextGraph view candidates currentInput config = .ok built ∧
        LongestFitting candidates config kept ∧ built.graph.relations = kept.map pairRelation ∧
        config.exceededBy built.graph = false) ↔
      (keptTexts candidates config).Nodup ∧ ∀ block ∈ candidates, "" ∉ block.sourceEventIds := by
  rw [← keptIds_nodup_iff]
  constructor
  · rintro ⟨built, kept, hbuilt, _⟩
    exact (buildContextGraph_ok.mp hbuilt).2.1
  · intro hcondition
    exact ⟨_, _, buildContextGraph_ok.mpr ⟨⟨hids, hcoordinates, hconstraints⟩, hcondition, rfl⟩,
      keptPairs_longest candidates config, rfl, builtGraph_accepted hcoordinates hconstraints⟩

end Construction

namespace ConstructionSample

/-- Tables for plain letters. -/
scoped instance : UnicodeTables := ⟨fun text => text, fun c => c.isAlphanum⟩

/-- A view without a delta. -/
def view : RequestView :=
  ⟨⟨"p", "m", "s", none, "u", "c", none, SessionKey.sample_nonEmpty⟩, none, [], 0, 0, 0, []⟩

/-- A block. -/
def block : CandidateBlock :=
  { blockId := "a", slot := .activeTask, kind := .taskContext, text := "task"
    sourceEventIds := ["event"], score := 1, reason := "STRUCTURED_FALLBACK", required := true
    capsuleId := none, eventSequence := none, valid := by decide +kernel }

/-- A block whose id ends with the first one's. -/
def before : CandidateBlock :=
  ⟨{ block.toCandidateBlockData with blockId := "a:b" }, by decide +kernel⟩

/-- A block whose id begins as the second one's ends. -/
def behind : CandidateBlock :=
  ⟨{ block.toCandidateBlockData with blockId := "b:a" }, by decide +kernel⟩

end ConstructionSample

open ConstructionSample

/-- Two related blocks give a graph. -/
theorem build_context_graph_iff_sample :
    ∃ built kept, buildContextGraph view [before, block] "task" {} = .ok built ∧
      LongestFitting [before, block] {} kept ∧ built.graph.relations = kept.map pairRelation ∧
      ContextGraphConfig.exceededBy {} built.graph = false :=
  (build_context_graph_iff view [before, block] "task" {} (by decide) (by decide)
    (by decide)).mpr ⟨by decide +kernel, by decide⟩

/-- Both pairs around the middle block have one text, so the graph is refused. -/
theorem colliding_relations_refused :
    ¬ ∀ [UnicodeTables] (view : RequestView) (candidates : List CandidateBlock)
      (currentInput : String) (config : ContextGraphConfig), (blockIds candidates).Nodup →
      candidates.length ≤ config.maxCoordinates →
      (candidates.filter fun item => item.required).length ≤ config.maxConstraints →
      ∃ built, buildContextGraph view candidates currentInput config = .ok built := by
  intro hclaim
  obtain ⟨built, hbuilt⟩ := hclaim view [before, block, ConstructionSample.behind] "task" {}
    (by decide) (by decide) (by decide)
  exact absurd (buildContextGraph_ok.mp hbuilt).2.1.1 (by decide +kernel)

end AstrContinuum
