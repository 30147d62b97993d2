import AstrContinuum.ContextGraph.CompiledSolutions

/-!
# Constraints compile exactly

`compile_constraints` rejects rows without a common solution and nothing else that is over the
coordinates, as long as the calls that find the roots have room on the stack. What it returns has the
solutions of the rows, with independent rows within the support. A chain of equations can need as many
calls as it has coordinates.
-/

namespace AstrContinuum

open ConstrainedSystems

variable {K : Type} [Field K]

/-- A vector over the coordinates that satisfies all rows. -/
def IsSolution (coordinates : List String) (rows : List ConstraintRow) (vector : List K) : Prop :=
  vector.length = coordinates.length ∧ ∀ row ∈ rows, row.Satisfied (assignment coordinates vector)

/-- A vector of values gives them back. -/
theorem assignment_map {coordinates : List String} (x : String → K) {coordinateId : String}
    (h : coordinateId ∈ coordinates) :
    assignment coordinates (coordinates.map x) coordinateId = x coordinateId := by
  have hindex := List.idxOf_lt_length_iff.mpr h
  unfold assignment
  rw [List.getD_eq_getElem _ _ (by rwa [List.length_map]), List.getElem_map, List.getElem_idxOf]

/-- Whether a row holds depends on its coordinates only. -/
theorem ConstraintRow.satisfied_congr {row : ConstraintRow} {x x' : String → K}
    (h : ∀ term ∈ row.terms, x term.1 = x' term.1) : row.Satisfied x ↔ row.Satisfied x' := by
  have hterms : (row.terms.map fun term => (term.2 : K) * x term.1) =
      row.terms.map fun term => (term.2 : K) * x' term.1 :=
    List.map_congr_left fun term hterm => by rw [h term hterm]
  unfold ConstraintRow.Satisfied
  rw [hterms]

/-- Rows over the coordinates have a vector as a solution where they have an assignment. -/
theorem exists_solution {coordinates : List String} {rows : List ConstraintRow}
    (hrows : ∀ row ∈ rows, row.Plain coordinates) {x : String → K}
    (hx : ∀ row ∈ rows, row.Satisfied x) : ∃ vector : List K, IsSolution coordinates rows vector := by
  refine ⟨coordinates.map x, List.length_map _, fun row hrow => ?_⟩
  obtain ⟨_, _, _, hterms, _⟩ := (hrows row hrow).classified (K := K)
  refine (ConstraintRow.satisfied_congr fun term hterm => ?_).mpr (hx row hrow)
  exact assignment_map x (hterms term hterm)

section Compilation

variable [LinearOrder K] [CallStack]

/-- Exact compilation: rows are contradictory exactly where they have no common solution; otherwise the
compiled rows have their solutions, are independent, and have nonzero columns in the support only. -/
structure CompilesExactly (K : Type) [Field K] [LinearOrder K] [CallStack] (coordinates : List String)
    (rows : List ConstraintRow) : Prop where
  contradictory : (compileConstraints coordinates rows : Except _ (CompiledConstraints K)) =
      .error (.constraint .contradictory) ↔
    ¬ ∃ vector : List K, IsSolution coordinates rows vector
  compiles : (∃ vector : List K, IsSolution coordinates rows vector) →
    ∃ constraints : CompiledConstraints K, compileConstraints coordinates rows = .ok constraints ∧
      (∀ vector : List K, vector.length = coordinates.length →
        (constraints.matrix.matvec vector = .ok constraints.rhs ↔
          IsSolution coordinates rows vector)) ∧
      RowsIndependent
        (constraints.matrix.toMatrix constraints.matrix.rowCount coordinates.length) ∧
      ∀ row column, (hcolumn : column < coordinates.length) →
        constraints.matrix.entry row column ≠ 0 →
        coordinates[column] ∈ constraints.supportCoordinateIds

variable {coordinates : List String} {rows : List ConstraintRow}

/-- A `RecursionError` is neither an answer nor a contradiction. -/
theorem CompilesExactly.not_recursionError (h : CompilesExactly K coordinates rows) :
    (compileConstraints coordinates rows :
      Except _ (CompiledConstraints K)) ≠ .error .recursionError := by
  intro herror
  by_cases hexists : ∃ vector : List K, IsSolution coordinates rows vector
  · obtain ⟨constraints, hcompiled, -⟩ := h.compiles hexists
    cases herror.symm.trans hcompiled
  · cases herror.symm.trans (h.contradictory.mpr hexists)

variable [CharZero K]

/-- Where its calls have room on the stack, compilation is exact. -/
theorem compilesExactly_of_room (hnamed : "" ∉ coordinates) (hdistinct : coordinates.Nodup)
    (hrows : ∀ row ∈ rows, row.Plain coordinates)
    (hroom : compileCalls coordinates (classifiedRows rows) ≤ CallStack.frames) :
    CompilesExactly K coordinates rows := by
  rcases compileConstraints_cases (K := K) hnamed hdistinct hrows with
    ⟨_, ⟨constraints, hconstraints, x, hx⟩ | ⟨hcontradictory, hnone⟩⟩ | ⟨hdeep, _⟩
  · have hexists := exists_solution hrows hx
    have hsound := compileConstraints_sound hconstraints
    refine ⟨⟨fun herror => ?_, fun hnone => absurd hexists hnone⟩, fun _ => ⟨constraints,
      hconstraints, fun vector hlength => ?_, hsound.independent, hsound.supported⟩⟩
    · rw [hconstraints] at herror
      cases herror
    · rw [compiled_solution_iff hrows hconstraints hlength]
      exact ⟨fun h => ⟨hlength, h⟩, fun h => h.2⟩
  · have hnoVector : ¬ ∃ vector : List K, IsSolution coordinates rows vector :=
      fun ⟨_, _, hvector⟩ => hnone ⟨_, hvector⟩
    exact ⟨⟨fun _ => hnoVector, fun _ => hcontradictory⟩, fun hexists => absurd hexists hnoVector⟩
  · omega

/-- Constraint compilation is exact exactly where the calls that find the roots have room on the stack. -/
theorem compile_constraints_exact_iff (hnamed : "" ∉ coordinates) (hdistinct : coordinates.Nodup)
    (hrows : ∀ row ∈ rows, row.Plain coordinates) :
    CompilesExactly K coordinates rows ↔
      compileCalls coordinates (classifiedRows rows) ≤ CallStack.frames := by
  refine ⟨fun hexact => ?_, compilesExactly_of_room hnamed hdistinct hrows⟩
  rcases compileConstraints_cases (K := K) hnamed hdistinct hrows with ⟨hroom, _⟩ | ⟨_, herror⟩
  · exact hroom
  · exact absurd herror hexact.not_recursionError

/-- Fewer equations than frames always have room. -/
theorem compilesExactly_of_few (hnamed : "" ∉ coordinates) (hdistinct : coordinates.Nodup)
    (hrows : ∀ row ∈ rows, row.Plain coordinates)
    (hfew : equations (classifiedRows rows) < CallStack.frames) : CompilesExactly K coordinates rows :=
  compilesExactly_of_room hnamed hdistinct hrows ((compileCalls_le _ _).trans hfew)

end Compilation

/-- Rows that equate two coordinates backwards and fix both of them to one. -/
def chainRows : List ConstraintRow :=
  [⟨"equal", [("goal", -1), ("note", 1)], 0⟩, ⟨"first", [("goal", 1)], 1⟩,
    ⟨"again", [("note", 1)], 1⟩]

/-- Rows that agree compile to independent ones. -/
theorem compile_constraints_exact_iff_sample :
    ∃ constraints : CompiledConstraints ℚ,
      @compileConstraints defaultStack ℚ _ _ ["goal", "note"] chainRows = .ok constraints ∧
      RowsIndependent (constraints.matrix.toMatrix constraints.matrix.rowCount 2) := by
  let _ := defaultStack
  have hplain : ∀ row ∈ chainRows, row.Plain ["goal", "note"] := by
    intro row hrow
    simp only [chainRows, List.mem_cons, List.not_mem_nil, or_false] at hrow
    rcases hrow with rfl | rfl | rfl
    · exact .inr ⟨"goal", by decide, "note", by decide, rfl, .inr rfl⟩
    · exact .inl ⟨"goal", by decide, rfl, .inr rfl⟩
    · exact .inl ⟨"note", by decide, rfl, .inr rfl⟩
  have hsolution : IsSolution ["goal", "note"] chainRows [(1 : ℚ), 1] := by
    refine ⟨rfl, fun row hrow => ?_⟩
    simp only [chainRows, List.mem_cons, List.not_mem_nil, or_false] at hrow
    rcases hrow with rfl | rfl | rfl <;>
      simp [ConstraintRow.Satisfied, assignment, List.idxOf, List.findIdx, List.findIdx.go]
  have hequations : equations (classifiedRows chainRows) = 1 := by decide +kernel
  have hroom : compileCalls ["goal", "note"] (classifiedRows chainRows) ≤ 1000 :=
    (compileCalls_le _ _).trans (by rw [hequations]; decide)
  obtain ⟨constraints, hconstraints, _, hindependent, _⟩ :=
    ((compile_constraints_exact_iff (K := ℚ) (by decide) (by decide) hplain).mpr hroom).compiles
      ⟨_, hsolution⟩
  exact ⟨constraints, hconstraints, hindependent⟩

/-! ## A chain of equations -/

namespace Chain

/-- A coordinate of the chain. -/
def link (i : Nat) : String :=
  String.ofList (List.replicate (i + 1) 'x')

/-- The coordinates of a chain. -/
def coordinates (n : Nat) : List String :=
  (List.range (n + 1)).map link

/-- Every coordinate is equated to the next one. -/
def rows (n : Nat) : List ConstraintRow :=
  (List.range n).map fun i => ⟨link i, [(link (i + 1), 1), (link i, -1)], 0⟩

/-- The coordinates are distinct. -/
theorem link_injective {i j : Nat} (h : link i = link j) : i = j := by
  have hlengths := congrArg (fun text => text.toList.length) h
  simpa [link] using hlengths

/-- The rows equate coordinates of the chain. -/
theorem rows_plain (n : Nat) : ∀ row ∈ rows n, row.Plain (coordinates n) := by
  intro row hrow
  obtain ⟨i, hi, rfl⟩ := List.mem_map.mp hrow
  have hi := List.mem_range.mp hi
  have hmem (j : Nat) (hj : j < n + 1) : link j ∈ coordinates n :=
    List.mem_map_of_mem (List.mem_range.mpr hj)
  exact .inr ⟨link (i + 1), hmem _ (by omega), link i, hmem _ (by omega), rfl, .inl rfl⟩

/-- The equations of the chain. -/
theorem classifiedRows_eq (n : Nat) :
    classifiedRows (rows n) =
      (List.range n).map fun i => .equality (link (i + 1)) (link i) := by
  have hclassified (i : Nat) :
      classifyConstraint ⟨link i, [(link (i + 1), 1), (link i, -1)], 0⟩ =
        .ok (.equality (link (i + 1)) (link i)) := by
    unfold classifyConstraint
    exact if_pos ⟨rfl, .inr rfl, rfl⟩
  simp [classifiedRows, rows, List.filterMap_map, hclassified, Except.toOption]

/-- The parents after some equations: every coordinate has the next one. -/
def parents : Nat → Parents
  | 0 => id
  | n + 1 => Function.update (parents n) (link n) (link (n + 1))

/-- The parent of a coordinate of the chain. -/
theorem parents_link (n i : Nat) : parents n (link i) = if i < n then link (i + 1) else link i := by
  induction n with
  | zero => rfl
  | succ n ih =>
      rw [parents]
      by_cases hsame : i = n
      · subst hsame
        rw [Function.update_self, if_pos (Nat.lt_succ_self i)]
      · rw [Function.update_of_ne fun h => hsame (link_injective h), ih]
        exact if_congr (by omega) rfl rfl

/-- An equation puts the end of the chain under the next coordinate. -/
theorem join_link (fuel n : Nat) :
    (parents n).join (fuel + 1) (link (n + 1)) (link n) = parents (n + 1) := by
  have hroot (i : Nat) (hi : n ≤ i) :
      (parents n).chase (fuel + 1) (link i) = (link i, parents n) := by
    rw [Parents.chase, if_pos]
    rw [parents_link, if_neg (by omega)]
  have hne : link (n + 1) ≠ link n := fun h => absurd (link_injective h) (by omega)
  unfold Parents.join
  rw [hroot (n + 1) (by omega)]
  dsimp only
  rw [hroot n le_rfl, if_pos hne]
  rfl

/-- The equations give every coordinate the next one as its parent. -/
theorem joinAll_rows (fuel n : Nat) :
    joinAll (fuel + 1) id (classifiedRows (rows n)) = parents n := by
  have hfrom : ∀ count start, joinAll (fuel + 1) (parents start)
      ((List.range' start count).map fun i => .equality (link (i + 1)) (link i)) =
        parents (start + count) := by
    intro count
    induction count with
    | zero => exact fun _ => rfl
    | succ count ih =>
        intro start
        rw [List.range'_succ, List.map_cons, joinAll, join_link, ih]
        exact congrArg parents (by omega)
  rw [classifiedRows_eq, List.range_eq_range']
  exact (hfrom n 0).trans (congrArg parents (Nat.zero_add n))

/-- Nothing is fixed. -/
theorem fixClasses_rows (fuel : Nat) (parents : Parents) (indices : List Nat) :
    fixClasses fuel parents []
      (indices.map fun i => .equality (link (i + 1)) (link i)) = .ok (parents, []) := by
  induction indices with
  | nil => rfl
  | cons i indices ih => exact ih

/-- The calls that find the end of the chain nest as deep as it is long. -/
theorem chaseCalls_link (n fuel i : Nat) (hi : i ≤ n) (hfuel : n - i ≤ fuel) :
    (parents n).chaseCalls fuel (link i) = n - i + 1 := by
  induction fuel generalizing i with
  | zero =>
      obtain rfl : i = n := by omega
      rw [Parents.chaseCalls, Nat.sub_self]
  | succ fuel ih =>
      rw [Parents.chaseCalls, parents_link]
      by_cases hend : i < n
      · rw [if_pos hend, if_neg fun h => absurd (link_injective h) (by omega), ih (i + 1) (by omega)
          (by omega)]
        omega
      · obtain rfl : i = n := by omega
        rw [if_neg hend, if_pos rfl, Nat.sub_self]

/-- The calls that compile the chain nest deeper than it is long. -/
theorem lt_compileCalls (n : Nat) : n < compileCalls (coordinates n) (classifiedRows (rows n)) := by
  have hgroups : n < groupCalls ((classifiedRows (rows n)).length + 1) (parents n) (coordinates n) := by
    have hlength : (classifiedRows (rows n)).length = n := by
      rw [classifiedRows_eq, List.length_map, List.length_range]
    rw [coordinates, List.range_succ_eq_map, List.map_cons, groupCalls, hlength,
      chaseCalls_link n (n + 1) 0 (Nat.zero_le n) (by omega)]
    omega
  have hfix := fixClasses_rows ((classifiedRows (rows n)).length + 1) (parents n) (List.range n)
  rw [← classifiedRows_eq] at hfix
  unfold compileCalls
  dsimp only
  rw [joinAll_rows, hfix]
  dsimp only
  omega

end Chain

/-- A chain of 1024 coordinates, which is within the capacity of the engine, exceeds the default recursion
limit: the claim that consistent rows compile is false. -/
theorem chain_exceeds_recursion_limit :
    ¬ ∀ (coordinates : List String) (rows : List ConstraintRow), "" ∉ coordinates → coordinates.Nodup →
      (∀ row ∈ rows, row.Plain coordinates) → @CompilesExactly ℚ _ _ defaultStack coordinates rows := by
  let _ := defaultStack
  intro h
  have hnamed : "" ∉ Chain.coordinates 1023 := by
    intro hmem
    obtain ⟨i, _, hlink⟩ := List.mem_map.mp hmem
    have hlengths := congrArg (fun text => text.toList.length) hlink
    simp [Chain.link] at hlengths
  have hdistinct : (Chain.coordinates 1023).Nodup :=
    List.nodup_range.map fun _ _ => Chain.link_injective
  have hplain := Chain.rows_plain 1023
  have hexact := h _ _ hnamed hdistinct hplain
  have hdeep := Chain.lt_compileCalls 1023
  have hframes : CallStack.frames = 1000 := rfl
  rcases compileConstraints_cases (K := ℚ) hnamed hdistinct hplain with ⟨hroom, _⟩ | ⟨_, herror⟩
  · omega
  · exact hexact.not_recursionError herror

end AstrContinuum
