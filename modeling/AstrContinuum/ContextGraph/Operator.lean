import AstrContinuum.ContextGraph.Constructors

/-!
# The operator of a graph

The operator that is built from a graph: a diagonal with the weighted squares of the relations.
-/

namespace AstrContinuum

open Checked ConstrainedSystems Matrix

/-! ## Values -/

/-- The coefficient of a relation at an index. -/
def SparseRelation.at (indexOf : String → Nat) (terms : List (String × Rat)) (index : Nat) : Rat :=
  (terms.map fun term => if indexOf term.1 = index then term.2 else 0).sum

/-- The entries of a relation sum to a weighted square. -/
theorem totalAt_relation (indexOf : String → Nat) (relation : SparseRelation) (i j : Nat) :
    totalAt (relation.entries indexOf) i j =
      relation.weight * SparseRelation.at indexOf relation.terms i *
        SparseRelation.at indexOf relation.terms j := by
  have hright (left : String × Rat) (terms : List (String × Rat)) :
      totalAt (terms.map fun right =>
        (indexOf left.1, indexOf right.1, relation.weight * left.2 * right.2)) i j =
        relation.weight * (if indexOf left.1 = i then left.2 else 0) *
          SparseRelation.at indexOf terms j := by
    unfold SparseRelation.at
    induction terms with
    | nil => simp
    | cons right terms ih =>
        rw [List.map_cons, totalAt_cons, ih, List.map_cons, List.sum_cons]
        by_cases hi : indexOf left.1 = i <;> by_cases hj : indexOf right.1 = j <;>
          simp [hi, hj, mul_add]
  have hleft (lefts : List (String × Rat)) :
      totalAt (lefts.flatMap fun left => relation.terms.map fun right =>
        (indexOf left.1, indexOf right.1, relation.weight * left.2 * right.2)) i j =
        relation.weight * SparseRelation.at indexOf lefts i *
          SparseRelation.at indexOf relation.terms j := by
    induction lefts with
    | nil => simp [SparseRelation.at]
    | cons left lefts ih =>
        have hsum : SparseRelation.at indexOf (left :: lefts) i =
            (if indexOf left.1 = i then left.2 else 0) + SparseRelation.at indexOf lefts i := by
          unfold SparseRelation.at
          rw [List.map_cons, List.sum_cons]
        rw [List.flatMap_cons, totalAt_append, hright, ih, hsum]
        ring
  exact hleft relation.terms

/-- The entries of all relations sum to the sum of their squares. -/
theorem totalAt_relations (indexOf : String → Nat) (relations : List SparseRelation) (i j : Nat) :
    totalAt (relations.flatMap (SparseRelation.entries indexOf)) i j =
      (relations.map fun relation => relation.weight *
        SparseRelation.at indexOf relation.terms i *
        SparseRelation.at indexOf relation.terms j).sum := by
  induction relations with
  | nil => rfl
  | cons relation relations ih =>
      rw [List.flatMap_cons, totalAt_append, totalAt_relation, ih, List.map_cons, List.sum_cons]

variable {graph : ContextGraph} {epsilon : Rat}

/-- The relations as weighted linear forms. -/
def ContextGraph.forms (graph : ContextGraph) :
    List (Rat × (Fin graph.coordinates.length → Rat)) :=
  graph.relations.map fun relation => (relation.weight, fun i =>
    SparseRelation.at (fun id => graph.coordinateIds.idxOf id) relation.terms i)

/-- The diagonal of the operator. -/
def ContextGraph.diagonal (graph : ContextGraph) (epsilon : Rat) :
    Fin graph.coordinates.length → Rat :=
  fun i => graph.coordinates[i].diagonal + epsilon

/-- A known coordinate has an index. -/
theorem ContextGraph.idxOf_lt {coordinateId : String} (h : coordinateId ∈ graph.coordinateIds) :
    graph.coordinateIds.idxOf coordinateId < graph.coordinates.length := by
  have hindex := List.idxOf_lt_length_iff.mpr h
  rwa [ContextGraph.coordinateIds, List.length_map] at hindex

/-- The id at an index is that of the coordinate there. -/
theorem ContextGraph.getElem_coordinateIds {index : Nat} (h : index < graph.coordinates.length)
    {h' : index < graph.coordinateIds.length} :
    graph.coordinateIds[index] = graph.coordinates[index].coordinateId :=
  List.getElem_map GraphCoordinate.coordinateId

/-- The operator of a constructed graph is built, and is a sum of squares. -/
theorem buildPropagationOperator_exact (h : graph.Checks) (hepsilon : 0 < epsilon) :
    ∃ operator, buildPropagationOperator graph epsilon = .ok operator ∧
      operator.rowCount = graph.coordinates.length ∧
      operator.columns = graph.coordinates.length ∧
      operator.toMatrix graph.coordinates.length graph.coordinates.length =
        squares (graph.diagonal epsilon) graph.forms := by
  have hwithin : ∀ entry ∈ (graph.coordinates.zipIdx.map fun coordinate =>
      (coordinate.2, coordinate.2, coordinate.1.diagonal + epsilon)) ++
      graph.relations.flatMap (SparseRelation.entries fun id => graph.coordinateIds.idxOf id),
      entry.1 < graph.coordinates.length ∧ entry.2.1 < graph.coordinates.length := by
    intro entry hentry
    rcases List.mem_append.mp hentry with hdiagonal | hrelation
    · obtain ⟨⟨coordinate, index⟩, hmem, rfl⟩ := List.mem_map.mp hdiagonal
      have hindex := (List.mem_zipIdx hmem).2.1
      dsimp only
      omega
    · obtain ⟨relation, hmem, hentry⟩ := List.mem_flatMap.mp hrelation
      obtain ⟨left, hleft, hentry⟩ := List.mem_flatMap.mp hentry
      obtain ⟨right, hright, rfl⟩ := List.mem_map.mp hentry
      exact ⟨ContextGraph.idxOf_lt (h.relationTerms relation hmem left hleft),
        ContextGraph.idxOf_lt (h.relationTerms relation hmem right hright)⟩
  obtain ⟨operator, hoperator, hrows, hcolumns, hentries⟩ := fromEntries_returns hwithin
  refine ⟨operator, ?_, hrows, hcolumns, ?_⟩
  · unfold buildPropagationOperator
    rw [require_bind_pos hepsilon]
    exact orValueError_ok.mpr hoperator
  · ext i j
    have hdiagonal := totalAt_zipIdx (fun (coordinate : GraphCoordinate) index =>
      [(index, index, coordinate.diagonal + epsilon)]) (fun _ _ entry hentry => by
        rw [List.mem_singleton.mp hentry]) graph.coordinates i j
    rw [← List.map_eq_flatMap, List.getElem?_eq_getElem i.isLt, Option.elim_some, totalAt_cons,
      totalAt_nil, add_zero] at hdiagonal
    have hentry := hentries i j
    rw [totalAt_append, totalAt_relations, hdiagonal] at hentry
    have hforms : (graph.relations.map fun relation => relation.weight *
        SparseRelation.at (fun id => graph.coordinateIds.idxOf id) relation.terms i *
        SparseRelation.at (fun id => graph.coordinateIds.idxOf id) relation.terms j) =
        graph.forms.map fun term => term.1 * term.2 i * term.2 j := by
      unfold ContextGraph.forms
      rw [List.map_map]
      rfl
    show operator.entry i j = _
    rw [hentry, squares_apply, hforms]
    congr 1
    by_cases hij : i = j
    · rw [if_pos hij, if_pos ⟨rfl, congrArg Fin.val hij⟩]
      rfl
    · rw [if_neg hij, if_neg fun heq => hij (Fin.ext heq.2)]

/-- The operator of a constructed graph is positive definite. -/
theorem buildPropagationOperator_positive (h : graph.Constructed) (hepsilon : 0 < epsilon)
    {size : Nat} (hsize : graph.coordinates.length = size) :
    ∃ operator, buildPropagationOperator graph epsilon = .ok operator ∧ operator.rowCount = size ∧
      operator.columns = size ∧ PositiveDefinite (operator.toMatrix size size) ∧
      ∀ x, epsilon * (x ⬝ᵥ x) ≤ x ⬝ᵥ operator.toMatrix size size *ᵥ x := by
  subst hsize
  obtain ⟨operator, hoperator, hrows, hcolumns, hvalues⟩ :=
    buildPropagationOperator_exact h.checks hepsilon
  have hdiagonal : ∀ i, epsilon ≤ graph.diagonal epsilon i := fun i =>
    le_add_of_nonneg_left (h.coordinates _ (List.getElem_mem i.isLt)).2
  have hforms : ∀ term ∈ graph.forms, 0 ≤ term.1 := by
    intro term hterm
    obtain ⟨relation, hrelation, rfl⟩ := List.mem_map.mp hterm
    exact (sparseRelation_ok.mp (h.relations relation hrelation)).2.2.2
  refine ⟨operator, hoperator, hrows, hcolumns, ?_, ?_⟩
  · rw [hvalues]
    exact squares_positiveDefinite hepsilon hdiagonal hforms
  · rw [hvalues]
    exact squares_bound hdiagonal hforms

end AstrContinuum
