import AstrContinuum.ContextGraph.Build
import AstrContinuum.ContextGraph.Constructors

/-!
# The graph that is built

`build_context_graph` in closed form: its relations are a prefix of the related pairs, and it raises only
where a constructor does.
-/

namespace AstrContinuum

open Checked

/-! ## Pairs -/

/-- All pairs of a list, in the lexicographic order of their indices. -/
def orderedPairs {α : Type} : List α → List (α × α)
  | [] => []
  | left :: rest => rest.map (fun right => (left, right)) ++ orderedPairs rest

/-- The pairs of positive weight. -/
def related (pairs : List (CandidateBlock × CandidateBlock)) :
    List (CandidateBlock × CandidateBlock) :=
  pairs.filter fun pair => ¬ relationWeight pair.1 pair.2 ≤ 0

/-- The relation of a pair. -/
def pairRelation (pair : CandidateBlock × CandidateBlock) : SparseRelation where
  relationId := "relation:" ++ pair.1.blockId ++ ":" ++ pair.2.blockId
  terms := [(pair.1.blockId, 1), (pair.2.blockId, -1)]
  weight := relationWeight pair.1 pair.2

/-- How many relations fit. -/
def ContextGraphConfig.relationCapacity (config : ContextGraphConfig) : Nat :=
  min config.maxRelations (config.maxRelationEntries / 4)

/-- A text with a prefix is not empty. -/
theorem append_ne_empty {left : String} (h : left ≠ "") (right : String) : left ++ right ≠ "" := by
  intro heq
  have hchars := congrArg String.toList heq
  rw [String.toList_append] at hchars
  exact h (String.toList_inj.mp (List.append_eq_nil_iff.mp hchars).1)

/-- The term of a required block is valid. -/
theorem requiredTerms_valid (block : CandidateBlock) : TermsValid [(block.blockId, 1)] := by
  refine ⟨List.cons_ne_nil _ _, fun term hterm => ?_, List.nodup_singleton _⟩
  obtain rfl := List.mem_singleton.mp hterm
  exact ⟨block.valid.1, one_ne_zero⟩

/-- A pair of distinct blocks gives a valid relation. -/
theorem sparseRelation_pair (pair : CandidateBlock × CandidateBlock)
    (hne : pair.1.blockId ≠ pair.2.blockId) (hweight : ¬ relationWeight pair.1 pair.2 ≤ 0) :
    sparseRelation (pairRelation pair) = .ok (pairRelation pair) := by
  refine sparseRelation_ok.mpr ⟨rfl, ?_, ⟨List.cons_ne_nil _ _, ?_, ?_⟩,
    le_of_lt (not_le.mp hweight)⟩
  · exact append_ne_empty (append_ne_empty (append_ne_empty (by decide) _) _) _
  · intro term hterm
    rcases List.mem_cons.mp hterm with rfl | hterm
    · exact ⟨pair.1.valid.1, one_ne_zero⟩
    · obtain rfl := List.mem_singleton.mp hterm
      exact ⟨pair.2.valid.1, neg_ne_zero.mpr one_ne_zero⟩
  · exact List.nodup_cons.mpr ⟨fun hmem => hne (List.mem_singleton.mp hmem), List.nodup_singleton _⟩

/-! ## The scan -/

/-- A scan whose entries are those of its relations, within the capacity. -/
structure RelationScan.Counted (scan : RelationScan) (config : ContextGraphConfig) : Prop where
  entries : scan.expandedEntries = 4 * scan.relations.length
  within : scan.relations.length ≤ config.relationCapacity

/-- A counted scan is full where its relations are as many as fit. -/
theorem RelationScan.Counted.full_iff {scan : RelationScan} {config : ContextGraphConfig}
    (h : scan.Counted config) :
    scan.full config = true ↔ scan.relations.length = config.relationCapacity := by
  have hentries := h.entries
  have hwithin := h.within
  unfold RelationScan.full
  unfold ContextGraphConfig.relationCapacity at hwithin ⊢
  rw [Bool.or_eq_true, decide_eq_true_eq, decide_eq_true_eq]
  omega

/-- The scan with the relations of some pairs. -/
def RelationScan.take (scan : RelationScan) (found : List (CandidateBlock × CandidateBlock)) :
    RelationScan :=
  ⟨scan.relations ++ found.map pairRelation, scan.expandedEntries + 4 * found.length⟩

/-- No pair changes nothing. -/
theorem RelationScan.take_nil (scan : RelationScan) : scan.take [] = scan := by
  unfold take
  rw [List.map_nil, List.append_nil]
  rfl

/-- The scan with the relations of further pairs, as many as fit. -/
def RelationScan.extend (scan : RelationScan) (config : ContextGraphConfig)
    (pairs : List (CandidateBlock × CandidateBlock)) : RelationScan :=
  scan.take ((related pairs).take (config.relationCapacity - scan.relations.length))

variable {config : ContextGraphConfig}

/-- Without further pairs nothing changes. -/
theorem RelationScan.extend_nil (scan : RelationScan) : scan.extend config [] = scan := by
  unfold extend related
  rw [List.filter_nil, List.take_nil, take_nil]

/-- A full scan takes no pair. -/
theorem RelationScan.extend_full {scan : RelationScan} (h : scan.Counted config)
    (hfull : scan.full config = true) (pairs : List (CandidateBlock × CandidateBlock)) :
    scan.extend config pairs = scan := by
  unfold extend
  rw [h.full_iff.mp hfull, Nat.sub_self, List.take_zero, take_nil]

/-- An unrelated pair changes nothing. -/
theorem RelationScan.extend_unrelated (scan : RelationScan) (pair : CandidateBlock × CandidateBlock)
    (hweight : relationWeight pair.1 pair.2 ≤ 0) (pairs : List (CandidateBlock × CandidateBlock)) :
    scan.extend config (pair :: pairs) = scan.extend config pairs := by
  unfold extend related
  rw [List.filter_cons_of_neg]
  exact fun hrelated => of_decide_eq_true hrelated hweight

/-- A related pair is taken where there is room. -/
theorem RelationScan.extend_related {scan : RelationScan} (h : scan.Counted config)
    (hroom : ¬ scan.full config = true) (pair : CandidateBlock × CandidateBlock)
    (hweight : ¬ relationWeight pair.1 pair.2 ≤ 0)
    (pairs : List (CandidateBlock × CandidateBlock)) :
    (scan.take [pair]).Counted config ∧
      scan.extend config (pair :: pairs) = (scan.take [pair]).extend config pairs := by
  have hentries := h.entries
  have hwithin := h.within
  have hless : scan.relations.length ≠ config.relationCapacity := fun heq =>
    hroom (h.full_iff.mpr heq)
  have hlength : (scan.take [pair]).relations.length = scan.relations.length + 1 :=
    List.length_append
  have hexpanded : (scan.take [pair]).expandedEntries = scan.expandedEntries + 4 := rfl
  refine ⟨⟨by omega, by omega⟩, ?_⟩
  obtain ⟨room, hroomEq⟩ : ∃ room,
      config.relationCapacity - scan.relations.length = room + 1 :=
    ⟨config.relationCapacity - scan.relations.length - 1, by omega⟩
  have hrest : config.relationCapacity - (scan.take [pair]).relations.length = room := by omega
  have hpositive : related (pair :: pairs) = pair :: related pairs :=
    List.filter_cons_of_pos (decide_eq_true hweight)
  unfold extend
  rw [hpositive, hroomEq, hrest, List.take_succ_cons]
  unfold take
  rw [List.map_cons, List.length_cons, List.map_singleton, List.length_singleton, List.append_assoc,
    List.singleton_append]
  congr 1
  show scan.expandedEntries + 4 * (_ + 1) = scan.expandedEntries + 4 * 1 + 4 * _
  ring

/-- Further pairs after others are the pairs of both. -/
theorem RelationScan.extend_append {scan : RelationScan} (h : scan.Counted config)
    (pairs others : List (CandidateBlock × CandidateBlock)) :
    (scan.extend config pairs).Counted config ∧
      scan.extend config (pairs ++ others) = (scan.extend config pairs).extend config others := by
  induction pairs generalizing scan with
  | nil =>
      rw [List.nil_append, extend_nil]
      exact ⟨h, rfl⟩
  | cons pair pairs ih =>
      rw [List.cons_append]
      by_cases hweight : relationWeight pair.1 pair.2 ≤ 0
      · rw [extend_unrelated scan pair hweight, extend_unrelated scan pair hweight]
        exact ih h
      by_cases hfull : scan.full config = true
      · rw [extend_full h hfull, extend_full h hfull, extend_full h hfull]
        exact ⟨h, rfl⟩
      · obtain ⟨hcounted, htaken⟩ := extend_related h hfull pair hweight pairs
        obtain ⟨_, htakenAll⟩ := extend_related h hfull pair hweight (pairs ++ others)
        rw [htaken, htakenAll]
        exact ih hcounted

/-- The inner loop takes the pairs of `left`. -/
theorem RelationScan.relate_eq {left : CandidateBlock} {rest : List CandidateBlock}
    (hne : ∀ right ∈ rest, left.blockId ≠ right.blockId) {scan : RelationScan}
    (h : scan.Counted config) :
    scan.relate config left rest =
      .ok (scan.extend config (rest.map fun right => (left, right))) := by
  induction rest generalizing scan with
  | nil =>
      rw [List.map_nil, extend_nil]
      rfl
  | cons right rest ih =>
      have hrest := fun other hmem => hne other (List.mem_cons_of_mem _ hmem)
      unfold RelationScan.relate
      dsimp only
      rw [List.map_cons]
      by_cases hweight : relationWeight left right ≤ 0
      · rw [if_pos hweight, extend_unrelated scan (left, right) hweight]
        exact ih hrest h
      rw [if_neg hweight]
      by_cases hfull : scan.full config = true
      · rw [if_pos hfull, extend_full h hfull]
        rfl
      · rw [if_neg hfull]
        have hpair := sparseRelation_pair (left, right)
          (hne right List.mem_cons_self) hweight
        obtain ⟨hcounted, htaken⟩ := extend_related h hfull (left, right) hweight
          (rest.map fun other => (left, other))
        refine bind_ok.mpr ⟨_, hpair, ?_⟩
        rw [htaken]
        exact ih hrest hcounted

/-- The outer loop takes the pairs of all blocks. -/
theorem RelationScan.relateAll_eq {candidates : List CandidateBlock}
    (hids : (blockIds candidates).Nodup) {scan : RelationScan} (h : scan.Counted config) :
    scan.relateAll config candidates = .ok (scan.extend config (orderedPairs candidates)) := by
  induction candidates generalizing scan with
  | nil =>
      unfold orderedPairs
      rw [extend_nil]
      rfl
  | cons left rest ih =>
      obtain ⟨hfresh, hrest⟩ := List.nodup_cons.mp hids
      have hne : ∀ right ∈ rest, left.blockId ≠ right.blockId := fun right hmem heq =>
        hfresh (List.mem_map.mpr ⟨right, hmem, heq.symm⟩)
      obtain ⟨hcounted, happend⟩ := extend_append h (rest.map fun right => (left, right))
        (orderedPairs rest)
      unfold RelationScan.relateAll orderedPairs
      rw [relate_eq hne h, happend]
      show (if _ then _ else _) = _
      by_cases hfull : (scan.extend config (rest.map fun right => (left, right))).full config = true
      · rw [if_pos hfull, extend_full hcounted hfull]
        rfl
      · rw [if_neg hfull]
        exact ih hrest hcounted

/-- The scan of all candidates keeps the first related pairs. -/
theorem relateAll_returns {candidates : List CandidateBlock} (hids : (blockIds candidates).Nodup)
    (config : ContextGraphConfig) :
    ∃ scan, RelationScan.relateAll config {} candidates = .ok scan ∧
      scan.relations =
        ((related (orderedPairs candidates)).take config.relationCapacity).map pairRelation :=
  ⟨_, RelationScan.relateAll_eq hids ⟨rfl, Nat.zero_le _⟩, rfl⟩

/-! ## The graph -/

section Graph

variable [UnicodeTables]

/-- The pairs that the graph has a relation for. -/
def keptPairs (candidates : List CandidateBlock) (config : ContextGraphConfig) :
    List (CandidateBlock × CandidateBlock) :=
  (related (orderedPairs candidates)).take config.relationCapacity

/-- The constraint of a required block. -/
def requiredRow (block : CandidateBlock) : ConstraintRow :=
  ⟨"required:" ++ block.blockId, [(block.blockId, 1)], 1⟩

/-- The coordinate of a block. -/
def blockCoordinate (block : CandidateBlock) : GraphCoordinate :=
  { coordinateId := block.blockId, candidate := block }

/-- The graph that is handed to the constructor. -/
def builtGraph (view : RequestView) (candidates : List CandidateBlock)
    (config : ContextGraphConfig) : ContextGraph where
  graphId := "request:" ++ toString view.pointerVersion ++ ":" ++
    toString view.coveredEventEnd ++ ":" ++ toString view.highWaterMark
  coordinates := candidates.map blockCoordinate
  relations := (keptPairs candidates config).map pairRelation
  constraints := (candidates.filter fun item => item.required).map requiredRow

/-- The activation that is handed to the constructor. -/
def builtActivation (view : RequestView) (candidates : List CandidateBlock) (currentInput : String) :
    QueryActivation where
  queryId := "query:" ++ toString view.pointerVersion ++ ":" ++ toString view.highWaterMark
  scores := candidates.map fun item =>
    (item.blockId, lexicalScore (lexicalUnits currentInput) item.text)
  retainedCoordinateIds := (candidates.filter fun item =>
    item.required || decide (0 < lexicalScore (lexicalUnits currentInput) item.text)).map
      fun item => item.blockId
  provenanceEventIds := uniqueValues (candidates.flatMap fun item => item.sourceEventIds)

variable {view : RequestView} {candidates : List CandidateBlock} {currentInput : String}
  {built : BuiltContextGraph}

/-- Within its capacities `build_context_graph` returns what both constructors accept. -/
theorem buildContextGraph_eq (hids : (blockIds candidates).Nodup)
    (hcoordinates : candidates.length ≤ config.maxCoordinates)
    (hconstraints : (candidates.filter fun item => item.required).length ≤ config.maxConstraints) :
    buildContextGraph view candidates currentInput config = (do
      let graph ← contextGraph (builtGraph view candidates config)
      let activation ← queryActivation (builtActivation view candidates currentInput)
      pure ⟨graph, activation⟩) := by
  have hmapCoordinates : (candidates.mapM fun item => graphCoordinate item.blockId item) =
      .ok (candidates.map blockCoordinate) :=
    mapM_ok.mpr (List.forall₂_map_right_iff.mpr (List.forall₂_same.mpr fun item _ =>
      require_bind_pos item.valid.1))
  have hmapConstraints : ((candidates.filter fun item => item.required).mapM fun item =>
      fixOne ("required:" ++ item.blockId) item.blockId) =
      .ok ((candidates.filter fun item => item.required).map requiredRow) :=
    mapM_ok.mpr (List.forall₂_map_right_iff.mpr (List.forall₂_same.mpr fun item _ =>
      constraintRow_ok.mpr ⟨rfl, append_ne_empty (by decide) _, requiredTerms_valid item⟩))
  obtain ⟨scan, hscan, hrelations⟩ := relateAll_returns hids config
  unfold buildContextGraph
  rw [require_bind_pos hids, require_bind_pos hcoordinates, hmapCoordinates, hmapConstraints]
  refine (require_bind_pos (by rwa [List.length_map])).trans ?_
  rw [hscan]
  show (contextGraph { builtGraph view candidates config with relations := scan.relations } >>= _) = _
  rw [hrelations]
  rfl

omit [UnicodeTables] in
/-- Both members of a pair are blocks, at different places. -/
theorem mem_orderedPairs {α : Type} {items : List α} {pair : α × α} (h : pair ∈ orderedPairs items) :
    [pair.1, pair.2].Sublist items := by
  induction items with
  | nil => exact absurd h List.not_mem_nil
  | cons left rest ih =>
      rcases List.mem_append.mp h with hfirst | hrest
      · obtain ⟨right, hmem, rfl⟩ := List.mem_map.mp hfirst
        exact (List.singleton_sublist.mpr hmem).cons_cons left
      · exact (ih hrest).cons left

omit [UnicodeTables] in
/-- A kept pair has two blocks of different ids, and a positive weight. -/
theorem mem_keptPairs {pair : CandidateBlock × CandidateBlock} (hids : (blockIds candidates).Nodup)
    (h : pair ∈ keptPairs candidates config) :
    pair.1 ∈ candidates ∧ pair.2 ∈ candidates ∧ pair.1.blockId ≠ pair.2.blockId ∧
      ¬ relationWeight pair.1 pair.2 ≤ 0 := by
  obtain ⟨hpair, hweight⟩ := List.mem_filter.mp (List.mem_of_mem_take h)
  have hsublist := mem_orderedPairs hpair
  have hdistinct := (hsublist.map fun item : CandidateBlock => item.blockId).nodup hids
  refine ⟨hsublist.subset List.mem_cons_self,
    hsublist.subset (List.mem_cons_of_mem _ List.mem_cons_self), ?_, of_decide_eq_true hweight⟩
  exact fun heq => (List.nodup_cons.mp hdistinct).1 (List.mem_singleton.mpr heq)

omit [UnicodeTables] in
/-- The ids of the coordinates are those of the blocks. -/
theorem builtGraph_coordinateIds (view : RequestView) (candidates : List CandidateBlock)
    (config : ContextGraphConfig) :
    (builtGraph view candidates config).coordinateIds = blockIds candidates :=
  List.map_map

/-- The ids of the relations that are kept. -/
def keptIds (candidates : List CandidateBlock) (config : ContextGraphConfig) : List String :=
  (keptPairs candidates config).map fun pair => (pairRelation pair).relationId

omit [UnicodeTables] in
/-- The constructor of the graph accepts it where the ids of the blocks and of the relations are
distinct. -/
theorem builtGraph_checks_iff :
    (builtGraph view candidates config).Checks ↔
      (blockIds candidates).Nodup ∧ (keptIds candidates config).Nodup := by
  have hcoordinates := builtGraph_coordinateIds view candidates config
  have hrelations : (builtGraph view candidates config).relations.map SparseRelation.relationId =
      keptIds candidates config := List.map_map
  constructor
  · intro h
    exact ⟨hcoordinates ▸ h.coordinateIds, hrelations ▸ h.relationIds⟩
  · rintro ⟨hids, hkept⟩
    refine ⟨?_, hcoordinates ▸ hids, ?_, hrelations ▸ hkept, ?_, fun relation hrelation term hterm => ?_,
      fun constraint hconstraint term hterm => ?_⟩
    · exact append_ne_empty (append_ne_empty (append_ne_empty (append_ne_empty
        (append_ne_empty (by decide) _) _) _) _) _
    · show (((candidates.map blockCoordinate).map _)).Nodup
      rw [List.map_map]
      exact hids
    · show ((((candidates.filter _).map requiredRow).map _)).Nodup
      rw [List.map_map]
      have hsublist := (candidates.filter_sublist (p := fun item => item.required)).map
        fun item : CandidateBlock => item.blockId
      have hprefixed : Function.Injective fun blockId : String => "required:" ++ blockId :=
        fun _ _ heq => (String.append_right_inj _).mp heq
      have hnodup := (hsublist.nodup hids).map hprefixed
      rwa [List.map_map] at hnodup
    · obtain ⟨pair, hpair, rfl⟩ := List.mem_map.mp hrelation
      obtain ⟨hleft, hright, _⟩ := mem_keptPairs hids hpair
      rw [hcoordinates]
      rcases List.mem_cons.mp hterm with rfl | hterm
      · exact List.mem_map_of_mem hleft
      · obtain rfl := List.mem_singleton.mp hterm
        exact List.mem_map_of_mem hright
    · obtain ⟨block, hblock, rfl⟩ := List.mem_map.mp hconstraint
      obtain rfl := List.mem_singleton.mp hterm
      rw [hcoordinates]
      exact List.mem_map_of_mem (List.mem_filter.mp hblock).1

omit [UnicodeTables] in
/-- A graph that is built is constructed. -/
theorem builtGraph_constructed (hids : (blockIds candidates).Nodup)
    (hkept : (keptIds candidates config).Nodup) :
    (builtGraph view candidates config).Constructed := by
  refine ⟨builtGraph_checks_iff.mpr ⟨hids, hkept⟩, fun coordinate hcoordinate => ?_,
    fun relation hrelation => ?_, fun constraint hconstraint => ?_⟩
  · obtain ⟨block, _, rfl⟩ := List.mem_map.mp hcoordinate
    exact ⟨block.valid.1, zero_le_one⟩
  · obtain ⟨pair, hpair, rfl⟩ := List.mem_map.mp hrelation
    obtain ⟨_, _, hne, hweight⟩ := mem_keptPairs hids hpair
    exact sparseRelation_pair pair hne hweight
  · obtain ⟨block, _, rfl⟩ := List.mem_map.mp hconstraint
    exact constraintRow_ok.mpr ⟨rfl, append_ne_empty (by decide) _, requiredTerms_valid block⟩

omit [UnicodeTables] in
/-- Unique values are the values. -/
theorem mem_uniqueValues {values : List String} {value : String} :
    value ∈ uniqueValues values ↔ value ∈ values := by
  induction values with
  | nil => exact Iff.rfl
  | cons first rest ih =>
      unfold uniqueValues
      rw [List.mem_cons, List.mem_cons, List.mem_filter, ih, decide_eq_true_eq]
      by_cases heq : value = first
      · simp only [heq, true_or]
      · simp only [heq, false_or, ne_eq, not_false_iff, and_true]

omit [UnicodeTables] in
/-- Unique values are distinct. -/
theorem uniqueValues_nodup (values : List String) : (uniqueValues values).Nodup := by
  induction values with
  | nil => exact List.nodup_nil
  | cons first rest ih =>
      refine List.nodup_cons.mpr ⟨fun hmem => ?_, ih.filter _⟩
      exact of_decide_eq_true (List.mem_filter.mp hmem).2 rfl

/-- The constructor of the activation accepts it where no block has an event without an id. -/
theorem builtActivation_checks_iff (hids : (blockIds candidates).Nodup) :
    (builtActivation view candidates currentInput).Checks ↔
      ∀ block ∈ candidates, "" ∉ block.sourceEventIds := by
  have hprovenance : "" ∈ (builtActivation view candidates currentInput).provenanceEventIds ↔
      ∃ block ∈ candidates, "" ∈ block.sourceEventIds := by
    show "" ∈ uniqueValues _ ↔ _
    rw [mem_uniqueValues, List.mem_flatMap]
  constructor
  · intro h block hblock hmem
    exact h.provenance (hprovenance.mpr ⟨block, hblock, hmem⟩)
  · intro h
    refine ⟨?_, fun entry hentry => ?_, ?_, fun hmem => ?_, fun hmem => ?_, ?_, uniqueValues_nodup _⟩
    · exact append_ne_empty (append_ne_empty (append_ne_empty (by decide) _) _) _
    · obtain ⟨block, _, rfl⟩ := List.mem_map.mp hentry
      exact block.valid.1
    · show ((candidates.map _).map _).Nodup
      rw [List.map_map]
      exact hids
    · obtain ⟨block, _, heq⟩ := List.mem_map.mp hmem
      exact block.valid.1 heq
    · obtain ⟨block, hblock, hempty⟩ := hprovenance.mp hmem
      exact h block hblock hempty
    · exact (List.filter_sublist.map _).nodup hids

/-- `build_context_graph` returns exactly where the ids of the blocks and of the kept relations are
distinct, the capacities suffice, and no block has an event without an id. -/
theorem buildContextGraph_ok :
    buildContextGraph view candidates currentInput config = .ok built ↔
      ((blockIds candidates).Nodup ∧ candidates.length ≤ config.maxCoordinates ∧
        (candidates.filter fun item => item.required).length ≤ config.maxConstraints) ∧
      ((keptIds candidates config).Nodup ∧ ∀ block ∈ candidates, "" ∉ block.sourceEventIds) ∧
      built = ⟨builtGraph view candidates config, builtActivation view candidates currentInput⟩ := by
  constructor
  · intro h
    have hbuilt := h
    obtain ⟨_, hids, h⟩ := bind_ok.mp h
    obtain ⟨_, hcoordinates, h⟩ := bind_ok.mp h
    obtain ⟨_, _, h⟩ := bind_ok.mp h
    obtain ⟨constraints, hmapped, h⟩ := bind_ok.mp h
    obtain ⟨_, hconstraints, _⟩ := bind_ok.mp h
    have hids := require_ok.mp hids
    have hcoordinates := require_ok.mp hcoordinates
    have hconstraints := require_ok.mp hconstraints
    rw [← (mapM_ok.mp hmapped).length_eq] at hconstraints
    rw [buildContextGraph_eq hids hcoordinates hconstraints] at hbuilt
    obtain ⟨graph, hgraph, hbuilt⟩ := bind_ok.mp hbuilt
    obtain ⟨activation, hactivation, hbuilt⟩ := bind_ok.mp hbuilt
    obtain ⟨rfl, hchecks⟩ := contextGraph_ok.mp hgraph
    obtain ⟨rfl, hactivated⟩ := queryActivation_ok.mp hactivation
    exact ⟨⟨hids, hcoordinates, hconstraints⟩, ⟨(builtGraph_checks_iff.mp hchecks).2,
      (builtActivation_checks_iff hids).mp hactivated⟩, (pure_ok.mp hbuilt).symm⟩
  · rintro ⟨⟨hids, hcoordinates, hconstraints⟩, ⟨hkept, hprovenance⟩, rfl⟩
    rw [buildContextGraph_eq hids hcoordinates hconstraints,
      contextGraph_ok.mpr ⟨rfl, builtGraph_checks_iff.mpr ⟨hids, hkept⟩⟩]
    exact bind_ok.mpr ⟨_, rfl, bind_ok.mpr ⟨_, queryActivation_ok.mpr ⟨rfl,
      (builtActivation_checks_iff hids).mpr hprovenance⟩, rfl⟩⟩

end Graph

end AstrContinuum
