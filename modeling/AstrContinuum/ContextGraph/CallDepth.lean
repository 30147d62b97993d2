import AstrContinuum.ContextGraph.DisjointSets

/-!
# How deep the calls nest

`compileCalls` counts how deep the calls of the disjoint set nest while constraints are compiled.
`compileRows_eq` says that compiling raises a `RecursionError` exactly when this is more than the stack
has room for, and otherwise does what it would do without a limit. The calls nest no deeper than the
number of equations and one.
-/

namespace AstrContinuum

open Checked

/-- The stack under the default recursion limit, when nothing else is on it. -/
abbrev defaultStack : CallStack := ⟨1000, by decide⟩

/-- What a computation returns on a stack with some frames, if its calls nest so deep. -/
def onStack {α : Type} (frames calls : Nat) (x : Except NumericFailure α) : Except NumericFailure α :=
  if calls ≤ frames then x else .error .recursionError

section OnStack

variable {α β : Type} {frames calls rest : Nat}

/-- A computation that returns what it returns without a limit had room for its calls. -/
theorem onStack_ok {x : Except NumericFailure α} {a : α} :
    onStack frames calls x = .ok a ↔ calls ≤ frames ∧ x = .ok a := by
  unfold onStack
  split <;> simp_all

/-- One computation after another nests as deep as the deeper one. -/
theorem onStack_max (x : Except NumericFailure α) :
    onStack frames (max calls rest) x = onStack frames calls (onStack frames rest x) := by
  unfold onStack
  by_cases hcalls : calls ≤ frames
  · simp [hcalls]
  · simp [hcalls]

/-- A computation that returns is followed by the next one. -/
theorem onStack_bind {a : α} {f : α → Except NumericFailure β} :
    (onStack frames calls (.ok a) >>= f) = onStack frames calls (f a) := by
  unfold onStack
  split <;> rfl

end OnStack

namespace Parents

/-! ## Finding a root -/

/-- How deep the calls nest that find the root of a value. -/
def chaseCalls : Nat → Parents → String → Nat
  | 0, _, _ => 1
  | fuel + 1, parents, value =>
      if parents value = value then 1 else chaseCalls fuel parents (parents value) + 1

/-- How deep the calls of a union nest. -/
def joinCalls (fuel : Nat) (parents : Parents) (left right : String) : Nat :=
  max (chaseCalls fuel parents left) (chaseCalls fuel (chase fuel parents left).2 right) + 1

variable {bound fuel : Nat} {parents : Parents}

/-- Shortening a path keeps the bound of the chains. -/
theorem Ranked.chase (h : Ranked bound parents) (hfuel : bound < fuel) (value : String) :
    Ranked bound (parents.chase fuel value).2 := by
  obtain ⟨rank, hbound, hranks⟩ := h
  obtain ⟨-, -, hkept, -⟩ := chase_root hbound value hranks (by omega : bound < rank value + fuel)
  exact ⟨rank, hbound, hkept⟩

/-- The calls nest as deep as the chain is long. -/
theorem chaseCalls_le {rank : String → Nat} (hbound : ∀ value, rank value ≤ bound)
    (hranks : ∀ value, parents value ≠ value → rank value < rank (parents value)) (fuel : Nat) :
    ∀ value, rank value + chaseCalls fuel parents value ≤ bound + 1 := by
  induction fuel with
  | zero =>
      intro value
      have := hbound value
      rw [chaseCalls]
      omega
  | succ fuel ih =>
      intro value
      rw [chaseCalls]
      split
      · have := hbound value
        omega
      · next hmoves =>
          have := hranks value hmoves
          have := ih (parents value)
          omega

/-- In chains with a bound, a root is found with one call more. -/
theorem Ranked.chaseCalls_le (h : Ranked bound parents) (fuel : Nat) (value : String) :
    chaseCalls fuel parents value ≤ bound + 1 := by
  obtain ⟨rank, hbound, hranks⟩ := h
  have := Parents.chaseCalls_le hbound hranks fuel value
  omega

/-- A union nests one call deeper than what it finds. -/
theorem Ranked.joinCalls_le (h : Ranked bound parents) (hfuel : bound < fuel) (left right : String) :
    joinCalls fuel parents left right ≤ bound + 2 := by
  have hleft := h.chaseCalls_le fuel left
  have hright := (h.chase hfuel left).chaseCalls_le fuel right
  unfold joinCalls
  omega

/-- `find` is `chase` on a stack. -/
theorem find_eq_chase {rank : String → Nat} (hbound : ∀ value, rank value ≤ bound)
    (hranks : ∀ value, parents value ≠ value → rank value < rank (parents value)) :
    ∀ {fuel : Nat} (frames : Nat) (value : String), bound < rank value + fuel →
      find frames parents value =
        onStack frames (chaseCalls fuel parents value) (.ok (chase fuel parents value)) := by
  intro fuel
  induction fuel with
  | zero =>
      intro frames value hfuel
      have := hbound value
      omega
  | succ fuel ih =>
      intro frames value hfuel
      cases frames with
      | zero =>
          have hpos : ¬ chaseCalls (fuel + 1) parents value ≤ 0 := by
            rw [chaseCalls]
            split <;> omega
          rw [find, onStack, if_neg hpos]
      | succ frames =>
          rw [find, chaseCalls, Parents.chase]
          by_cases hroot : parents value = value
          · rw [if_neg (not_not.mpr hroot), if_pos hroot, if_pos hroot, onStack, if_pos (by omega)]
            rfl
          · have hrank := hranks value hroot
            have hrest := ih frames (parents value) (by omega)
            rw [if_pos hroot, if_neg hroot, if_neg hroot, hrest, onStack_bind, onStack, onStack]
            simp only [Nat.add_le_add_iff_right]
            rfl

/-- In chains with a bound, `find` is `chase` on a stack. -/
theorem Ranked.find_eq (h : Ranked bound parents) (hfuel : bound < fuel) (frames : Nat)
    (value : String) :
    parents.find frames value =
      onStack frames (chaseCalls fuel parents value) (.ok (parents.chase fuel value)) := by
  obtain ⟨rank, hbound, hranks⟩ := h
  exact find_eq_chase hbound hranks frames value (by omega)

/-- `union` is `join` on a stack. -/
theorem Ranked.union_eq (h : Ranked bound parents) (hfuel : bound < fuel) (frames : Nat)
    (left right : String) :
    parents.union frames left right =
      onStack frames (joinCalls fuel parents left right) (.ok (parents.join fuel left right)) := by
  cases frames with
  | zero => rfl
  | succ frames =>
      have hjoin : (if (parents.chase fuel left).1 ≠ ((parents.chase fuel left).2.chase fuel right).1 then
          pure (Function.update ((parents.chase fuel left).2.chase fuel right).2
            ((parents.chase fuel left).2.chase fuel right).1 (parents.chase fuel left).1)
          else pure ((parents.chase fuel left).2.chase fuel right).2 : Except NumericFailure Parents) =
          .ok (parents.join fuel left right) := by
        unfold join
        dsimp only
        split_ifs <;> rfl
      rw [union, h.find_eq hfuel, onStack_bind]
      dsimp only
      rw [(h.chase hfuel left).find_eq hfuel, onStack_bind, hjoin, ← onStack_max, joinCalls, onStack,
        onStack]
      simp only [Nat.add_le_add_iff_right]

end Parents

/-! ## The loops -/

/-- How deep the calls nest while the equations are joined. -/
def joinAllCalls (fuel : Nat) : Parents → List ClassifiedConstraint → Nat
  | _, [] => 0
  | parents, .equality left right :: rest =>
      max (parents.joinCalls fuel left right) (joinAllCalls fuel (parents.join fuel left right) rest)
  | parents, .fix _ _ :: rest => joinAllCalls fuel parents rest

/-- How deep the calls nest while the roots are fixed, up to a contradiction. -/
def fixCalls (fuel : Nat) : Parents → FixedByRoot → List ClassifiedConstraint → Nat
  | _, _, [] => 0
  | parents, fixed, .equality _ _ :: rest => fixCalls fuel parents fixed rest
  | parents, fixed, .fix coordinateId value :: rest =>
      let found := parents.chase fuel coordinateId
      max (parents.chaseCalls fuel coordinateId)
        (match fixed.lookup found.1 with
        | some existing => if existing ≠ value then 0 else fixCalls fuel found.2 fixed rest
        | none => fixCalls fuel found.2 (fixed ++ [(found.1, value)]) rest)

/-- How deep the calls nest while the coordinates are grouped. -/
def groupCalls (fuel : Nat) : Parents → List String → Nat
  | _, [] => 0
  | parents, coordinateId :: rest =>
      max (parents.chaseCalls fuel coordinateId)
        (groupCalls fuel (parents.chase fuel coordinateId).2 rest)

/-- How deep the calls nest while the rows of the groups are written. -/
def rowCalls (fuel : Nat) : Parents → List (List String) → Nat
  | _, [] => 0
  | parents, [] :: rest => rowCalls fuel parents rest
  | parents, (anchor :: _) :: rest =>
      max (parents.chaseCalls fuel anchor) (rowCalls fuel (parents.chase fuel anchor).2 rest)

/-- The classified rows, without those that are refused. -/
def classifiedRows (rows : List ConstraintRow) : List ClassifiedConstraint :=
  rows.filterMap fun row => (classifyConstraint row).toOption

/-- How deep the calls nest while constraints are compiled. -/
def compileCalls (coordinates : List String) (parsed : List ClassifiedConstraint) : Nat :=
  let fuel := parsed.length + 1
  let joined := joinAll fuel id parsed
  max (joinAllCalls fuel id parsed) (max (fixCalls fuel joined [] parsed)
    (match fixClasses fuel joined [] parsed with
    | .error _ => 0
    | .ok (parents, _) =>
        let grouped := groupClasses fuel parents [] coordinates
        max (groupCalls fuel parents coordinates)
          (rowCalls fuel grouped.1 (grouped.2.map Prod.snd))))

variable {bound fuel : Nat}

/-- The loop over the equations joins them on a stack. -/
theorem uniteAll_eq (frames : Nat) {parsed : List ClassifiedConstraint} :
    ∀ {bound : Nat} {parents : Parents}, parents.Ranked bound → bound + equations parsed < fuel →
      uniteAll frames parents parsed =
        onStack frames (joinAllCalls fuel parents parsed) (.ok (joinAll fuel parents parsed)) := by
  induction parsed with
  | nil => exact fun _ _ => rfl
  | cons item parsed ih =>
      intro bound parents h hfuel
      cases item with
      | equality left right =>
          rw [equations] at hfuel
          have hnext := Parents.join_ranked h (by omega : bound < fuel) left right
          rw [uniteAll, h.union_eq (by omega : bound < fuel), onStack_bind, ih hnext (by omega),
            ← onStack_max]
          rfl
      | fix coordinateId value => exact ih h hfuel

/-- The calls of the equations nest no deeper than their number and one. -/
theorem joinAllCalls_le {parsed : List ClassifiedConstraint} :
    ∀ {bound : Nat} {parents : Parents}, parents.Ranked bound → bound + equations parsed < fuel →
      joinAllCalls fuel parents parsed ≤ bound + equations parsed + 1 := by
  induction parsed with
  | nil =>
      intro bound parents _ _
      exact Nat.zero_le _
  | cons item parsed ih =>
      intro bound parents h hfuel
      cases item with
      | equality left right =>
          rw [equations] at hfuel ⊢
          have hjoin := h.joinCalls_le (by omega : bound < fuel) left right
          have hnext := Parents.join_ranked h (by omega : bound < fuel) left right
          have hrest := ih hnext (by omega)
          rw [joinAllCalls]
          omega
      | fix coordinateId value => exact ih h hfuel

/-- The loop over the fixed coordinates fixes their roots on a stack. -/
theorem fixRoots_eq (frames : Nat) (hfuel : bound < fuel) {parsed : List ClassifiedConstraint} :
    ∀ {parents : Parents} {fixed : FixedByRoot}, parents.Ranked bound →
      fixRoots frames parents fixed parsed =
        onStack frames (fixCalls fuel parents fixed parsed) (fixClasses fuel parents fixed parsed) := by
  induction parsed with
  | nil => exact fun _ => rfl
  | cons item parsed ih =>
      intro parents fixed h
      cases item with
      | equality left right => exact ih h
      | fix coordinateId value =>
          have hnext := h.chase hfuel coordinateId
          rw [fixRoots, h.find_eq hfuel, onStack_bind, fixCalls, fixClasses]
          dsimp only
          rw [onStack_max]
          congr 1
          cases fixed.lookup (parents.chase fuel coordinateId).1 with
          | some existing =>
              dsimp only
              by_cases hne : existing ≠ value
              · rw [if_pos hne, if_pos hne, if_pos hne]
                rfl
              · rw [if_neg hne, if_neg hne, if_neg hne]
                exact ih hnext
          | none => exact ih hnext

/-- Fixing roots keeps the bound of the chains, and its calls nest as deep as they are long. -/
theorem fixClasses_ranked (hfuel : bound < fuel) (parsed : List ClassifiedConstraint) :
    ∀ {parents : Parents} (fixed : FixedByRoot), parents.Ranked bound →
      fixCalls fuel parents fixed parsed ≤ bound + 1 ∧
        ∀ result, fixClasses fuel parents fixed parsed = .ok result → result.1.Ranked bound := by
  induction parsed with
  | nil =>
      intro parents fixed h
      refine ⟨Nat.zero_le _, fun result hresult => ?_⟩
      obtain rfl := Except.ok.inj hresult
      exact h
  | cons item parsed ih =>
      intro parents fixed h
      cases item with
      | equality left right => exact ih fixed h
      | fix coordinateId value =>
          have hcalls := h.chaseCalls_le fuel coordinateId
          have hnext := h.chase hfuel coordinateId
          rw [fixCalls, fixClasses]
          cases fixed.lookup (parents.chase fuel coordinateId).1 with
          | some existing =>
              dsimp only
              by_cases hne : existing ≠ value
              · rw [if_pos hne, if_pos hne]
                refine ⟨max_le hcalls (Nat.zero_le _), fun result hresult => ?_⟩
                cases hresult
              · rw [if_neg hne, if_neg hne]
                obtain ⟨hrest, hkept⟩ := ih _ hnext
                exact ⟨max_le hcalls hrest, hkept⟩
          | none =>
              obtain ⟨hrest, hkept⟩ := ih _ hnext
              exact ⟨max_le hcalls hrest, hkept⟩

/-- The loop over the coordinates groups them on a stack. -/
theorem groupCoordinates_eq (frames : Nat) (hfuel : bound < fuel) {coordinates : List String} :
    ∀ {parents : Parents} {groups : List (String × List String)}, parents.Ranked bound →
      groupCoordinates frames parents groups coordinates =
        onStack frames (groupCalls fuel parents coordinates)
          (.ok (groupClasses fuel parents groups coordinates)) := by
  induction coordinates with
  | nil => exact fun _ => rfl
  | cons coordinateId coordinates ih =>
      intro parents groups h
      rw [groupCoordinates, h.find_eq hfuel, onStack_bind]
      dsimp only
      rw [ih (h.chase hfuel coordinateId), ← onStack_max]
      rfl

/-- Grouping keeps the bound of the chains, and its calls nest as deep as they are long. -/
theorem groupClasses_ranked (hfuel : bound < fuel) (coordinates : List String) :
    ∀ {parents : Parents} (groups : List (String × List String)), parents.Ranked bound →
      groupCalls fuel parents coordinates ≤ bound + 1 ∧
        (groupClasses fuel parents groups coordinates).1.Ranked bound := by
  induction coordinates with
  | nil => exact fun _ h => ⟨Nat.zero_le _, h⟩
  | cons coordinateId coordinates ih =>
      intro parents groups h
      obtain ⟨hrest, hkept⟩ := ih _ (h.chase hfuel coordinateId)
      exact ⟨max_le (h.chaseCalls_le fuel coordinateId) hrest, hkept⟩

/-- The loop over the groups writes their rows on a stack. -/
theorem solveRows_eq (frames : Nat) (hfuel : bound < fuel) {fixed : FixedByRoot}
    {groups : List (List String)} :
    ∀ {parents : Parents}, parents.Ranked bound →
      solveRows frames fixed parents groups =
        onStack frames (rowCalls fuel parents groups) (.ok (classRows fuel fixed parents groups)) := by
  induction groups with
  | nil => exact fun _ => rfl
  | cons group groups ih =>
      intro parents h
      cases group with
      | nil => exact ih h
      | cons anchor members =>
          rw [solveRows, h.find_eq hfuel, onStack_bind]
          dsimp only
          rw [ih (h.chase hfuel anchor), onStack_bind, ← onStack_max]
          rfl

/-- The calls that write the rows nest as deep as the chains are long. -/
theorem rowCalls_le (hfuel : bound < fuel) (groups : List (List String)) :
    ∀ {parents : Parents}, parents.Ranked bound → rowCalls fuel parents groups ≤ bound + 1 := by
  induction groups with
  | nil => exact fun _ => Nat.zero_le _
  | cons group groups ih =>
      intro parents h
      cases group with
      | nil => exact ih h
      | cons anchor members =>
          exact max_le (h.chaseCalls_le fuel anchor) (ih (h.chase hfuel anchor))

/-! ## Compiling -/

/-- Every coordinate is its own root at the start. -/
theorem ranked_id : Parents.Ranked 0 id :=
  ⟨fun _ => 0, fun _ => le_refl _, fun _ hne => absurd rfl hne⟩

/-- Compiling does on a stack what it does without a limit. -/
theorem compileRows_eq [CallStack] (coordinates : List String) (parsed : List ClassifiedConstraint) :
    compileRows coordinates parsed =
      onStack CallStack.frames (compileCalls coordinates parsed) (systemRows coordinates parsed) := by
  have hequations := equations_le parsed
  have hfuel : 0 + equations parsed < parsed.length + 1 := by omega
  have hjoined := joinAll_ranked ranked_id hfuel
  obtain ⟨-, hkept⟩ := fixClasses_ranked hfuel parsed [] hjoined
  rw [compileRows, uniteAll_eq CallStack.frames ranked_id hfuel, onStack_bind,
    fixRoots_eq CallStack.frames hfuel hjoined, compileCalls, systemRows]
  dsimp only
  rw [onStack_max, onStack_max]
  congr 1
  cases hfix : fixClasses (parsed.length + 1) (joinAll (parsed.length + 1) id parsed) [] parsed with
  | error failure =>
      unfold onStack
      split <;> simp [Except.bind, bind]
  | ok result =>
      obtain ⟨parents, fixed⟩ := result
      have hparents := hkept _ hfix
      obtain ⟨-, hgrouped⟩ := groupClasses_ranked hfuel coordinates [] hparents
      rw [onStack_bind, groupCoordinates_eq CallStack.frames hfuel hparents, onStack_bind,
        solveRows_eq CallStack.frames hfuel hgrouped]
      dsimp only [bind, Except.bind, pure, Except.pure]
      rw [onStack_max]

/-- What compiling returns it returns without a limit. -/
theorem systemRows_of_ok [CallStack] {coordinates : List String} {parsed : List ClassifiedConstraint}
    {rows : List SolveRow} (h : compileRows coordinates parsed = .ok rows) :
    systemRows coordinates parsed = .ok rows := by
  rw [compileRows_eq] at h
  exact (onStack_ok.mp h).2

/-- The calls nest no deeper than the number of equations and one. -/
theorem compileCalls_le (coordinates : List String) (parsed : List ClassifiedConstraint) :
    compileCalls coordinates parsed ≤ equations parsed + 1 := by
  have hequations := equations_le parsed
  have hfuel : 0 + equations parsed < parsed.length + 1 := by omega
  have hjoined := joinAll_ranked ranked_id hfuel
  have hjoins := joinAllCalls_le ranked_id hfuel
  obtain ⟨hfixes, hkept⟩ := fixClasses_ranked hfuel parsed [] hjoined
  rw [Nat.zero_add] at hjoins hfixes
  refine max_le hjoins (max_le hfixes ?_)
  cases hfix : fixClasses (parsed.length + 1) (joinAll (parsed.length + 1) id parsed) [] parsed with
  | error failure => exact Nat.zero_le _
  | ok result =>
      obtain ⟨hgroups, hgrouped⟩ := groupClasses_ranked hfuel coordinates [] (hkept _ hfix)
      have hrows := rowCalls_le hfuel
        ((groupClasses (parsed.length + 1) result.1 [] coordinates).2.map Prod.snd) hgrouped
      rw [Nat.zero_add] at hgroups hrows
      exact max_le hgroups hrows

end AstrContinuum
