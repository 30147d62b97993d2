import AstrContinuum.ContextGraph.Constraints

/-!
# A disjoint set without a limit

The compilation of constraints on a stack that always suffices: the recursion of `_DisjointSet.find` has
fuel for the longest chain of parents instead of a number of calls. An equation lengthens the chains by
one at most, so fuel for all equations is enough.
-/

namespace AstrContinuum

open Checked

namespace Parents

/-- The root of a value, and the parents when its path has been shortened. -/
def chase : Nat → Parents → String → String × Parents
  | 0, parents, value => (value, parents)
  | fuel + 1, parents, value =>
      if parents value = value then (value, parents)
      else
        let found := chase fuel parents (parents value)
        (found.1, Function.update found.2 value found.1)

/-- The parents when two values have been given one root. -/
def join (fuel : Nat) (parents : Parents) (left right : String) : Parents :=
  let leftRoot := chase fuel parents left
  let rightRoot := chase fuel leftRoot.2 right
  if leftRoot.1 ≠ rightRoot.1 then Function.update rightRoot.2 rightRoot.1 leftRoot.1
  else rightRoot.2

/-- No chain of parents is longer than `bound`: a rank grows along it. -/
def Ranked (bound : Nat) (parents : Parents) : Prop :=
  ∃ rank : String → Nat, (∀ value, rank value ≤ bound) ∧
    ∀ value, parents value ≠ value → rank value < rank (parents value)

/-- With fuel for the rest of the chain, `chase` returns a root, and keeps the ranks. -/
theorem chase_root {rank : String → Nat} {bound : Nat} (hbound : ∀ value, rank value ≤ bound) :
    ∀ {fuel : Nat} {parents : Parents} (value : String),
      (∀ other, parents other ≠ other → rank other < rank (parents other)) →
      bound < rank value + fuel →
      (chase fuel parents value).2 (chase fuel parents value).1 = (chase fuel parents value).1 ∧
        rank value ≤ rank (chase fuel parents value).1 ∧
        (∀ other, (chase fuel parents value).2 other ≠ other →
          rank other < rank ((chase fuel parents value).2 other)) ∧
        ∀ other, parents other = other → (chase fuel parents value).2 other = other := by
  intro fuel
  induction fuel with
  | zero =>
      intro parents value _ hfuel
      have hvalue := hbound value
      omega
  | succ fuel ih =>
      intro parents value hranks hfuel
      unfold chase
      by_cases hroot : parents value = value
      · rw [if_pos hroot]
        exact ⟨hroot, le_refl _, hranks, fun _ hother => hother⟩
      · rw [if_neg hroot]
        dsimp only
        have hgrows := hranks value hroot
        obtain ⟨hfound, hle, hkept, hroots⟩ := ih (parents value) hranks (by omega)
        have hne : (chase fuel parents (parents value)).1 ≠ value := by
          intro heq
          rw [heq] at hle
          omega
        refine ⟨?_, by omega, fun other hother => ?_, fun other hother => ?_⟩
        · rwa [Function.update_of_ne hne]
        · by_cases hsame : other = value
          · subst hsame
            rw [Function.update_self]
            omega
          · rw [Function.update_of_ne hsame] at hother ⊢
            exact hkept other hother
        · have hsame : other ≠ value := fun heq => hroot (heq ▸ hother)
          rw [Function.update_of_ne hsame]
          exact hroots other hother

/-- A union lengthens the chains by one at most. -/
theorem join_ranked {bound fuel : Nat} {parents : Parents} (h : Ranked bound parents)
    (hfuel : bound < fuel) (left right : String) :
    Ranked (bound + 1) (join fuel parents left right) := by
  obtain ⟨rank, hbound, hranks⟩ := h
  obtain ⟨hleft, _, hleftRanks, _⟩ :=
    chase_root hbound left hranks (by omega : bound < rank left + fuel)
  obtain ⟨hright, _, hrightRanks, hroots⟩ :=
    chase_root hbound right hleftRanks (by omega : bound < rank right + fuel)
  unfold join
  dsimp only
  by_cases hne : (chase fuel parents left).1 ≠ (chase fuel (chase fuel parents left).2 right).1
  · rw [if_pos hne]
    refine ⟨Function.update rank (chase fuel parents left).1 (bound + 1), fun value => ?_,
      fun value hvalue => ?_⟩
    · by_cases hsame : value = (chase fuel parents left).1
      · rw [hsame, Function.update_self]
      · rw [Function.update_of_ne hsame]
        exact (hbound value).trans (Nat.le_succ bound)
    · have hleftRoot := hroots _ hleft
      by_cases hmerged : value = (chase fuel (chase fuel parents left).2 right).1
      · subst hmerged
        rw [Function.update_self, Function.update_self, Function.update_of_ne hne.symm]
        exact Nat.lt_succ_of_le (hbound _)
      · rw [Function.update_of_ne hmerged] at hvalue ⊢
        have hsame : value ≠ (chase fuel parents left).1 := fun heq => hvalue (heq ▸ hleftRoot)
        rw [Function.update_of_ne hsame]
        have hlt := hrightRanks value hvalue
        by_cases htop : (chase fuel (chase fuel parents left).2 right).2 value =
            (chase fuel parents left).1
        · rw [htop, Function.update_self]
          exact Nat.lt_succ_of_le (hbound value)
        · rwa [Function.update_of_ne htop]
  · rw [if_neg hne]
    exact ⟨rank, fun value => (hbound value).trans (Nat.le_succ bound), hrightRanks⟩

end Parents

/-- The parents after all equations. -/
def joinAll (fuel : Nat) (parents : Parents) : List ClassifiedConstraint → Parents
  | [] => parents
  | .equality left right :: rest => joinAll fuel (parents.join fuel left right) rest
  | .fix _ _ :: rest => joinAll fuel parents rest

/-- The number of equations. -/
def equations : List ClassifiedConstraint → Nat
  | [] => 0
  | .equality _ _ :: rest => equations rest + 1
  | .fix _ _ :: rest => equations rest

/-- There are no more equations than rows. -/
theorem equations_le (parsed : List ClassifiedConstraint) : equations parsed ≤ parsed.length := by
  induction parsed with
  | nil => exact le_refl _
  | cons item parsed ih =>
      cases item with
      | equality left right => exact Nat.succ_le_succ ih
      | fix coordinateId value => exact ih.trans (Nat.le_succ _)

/-- The equations lengthen the chains by one each, so fuel for all of them is enough. -/
theorem joinAll_ranked {fuel : Nat} {parsed : List ClassifiedConstraint} :
    ∀ {bound : Nat} {parents : Parents}, Parents.Ranked bound parents →
      bound + equations parsed < fuel →
      Parents.Ranked (bound + equations parsed) (joinAll fuel parents parsed) := by
  induction parsed with
  | nil => exact fun h _ => h
  | cons item parsed ih =>
      intro bound parents h hfuel
      cases item with
      | equality left right =>
          rw [equations] at hfuel ⊢
          have hnext := Parents.join_ranked h (by omega : bound < fuel) left right
          have hrest := ih hnext (by omega)
          rwa [Nat.add_assoc, Nat.add_comm 1] at hrest
      | fix coordinateId value => exact ih h hfuel

/-- The values of the roots, unless one has two. -/
def fixClasses (fuel : Nat) : Parents → FixedByRoot → List ClassifiedConstraint →
    Except NumericFailure (Parents × FixedByRoot)
  | parents, fixed, [] => .ok (parents, fixed)
  | parents, fixed, .equality _ _ :: rest => fixClasses fuel parents fixed rest
  | parents, fixed, .fix coordinateId value :: rest =>
      let found := parents.chase fuel coordinateId
      match fixed.lookup found.1 with
      | some existing =>
          if existing ≠ value then .error (.constraint .contradictory)
          else fixClasses fuel found.2 fixed rest
      | none => fixClasses fuel found.2 (fixed ++ [(found.1, value)]) rest

/-- Fixing roots raises nothing but that one has two values. -/
theorem fixClasses_ensures (fuel : Nat) (parsed : List ClassifiedConstraint) :
    ∀ (parents : Parents) (fixed : FixedByRoot),
      Ensures (· = .constraint .contradictory) (fun _ => True)
        (fixClasses fuel parents fixed parsed) := by
  induction parsed with
  | nil => exact fun _ _ => trivial
  | cons item parsed ih =>
      intro parents fixed
      cases item with
      | equality left right => exact ih parents fixed
      | fix coordinateId value =>
          rw [fixClasses]
          cases fixed.lookup (parents.chase fuel coordinateId).1 with
          | some existing =>
              dsimp only
              split
              · exact rfl
              · exact ih _ _
          | none => exact ih _ _

/-- The coordinates by their roots. -/
def groupClasses (fuel : Nat) : Parents → List (String × List String) → List String →
    Parents × List (String × List String)
  | parents, groups, [] => (parents, groups)
  | parents, groups, coordinateId :: rest =>
      let found := parents.chase fuel coordinateId
      groupClasses fuel found.2 (addMember found.1 coordinateId groups) rest

/-- The rows of the groups. -/
def classRows (fuel : Nat) (fixed : FixedByRoot) : Parents → List (List String) → List SolveRow
  | _, [] => []
  | parents, [] :: rest => classRows fuel fixed parents rest
  | parents, (anchor :: members) :: rest =>
      let found := parents.chase fuel anchor
      members.map (.equality anchor) ++
        ((fixed.lookup found.1).map (.fix anchor)).toList ++ classRows fuel fixed found.2 rest

/-- The rows that some constraints give. -/
def systemRows (coordinates : List String) (parsed : List ClassifiedConstraint) :
    Except NumericFailure (List SolveRow) := do
  -- one equation lengthens a chain of parents by one at most
  let fuel := parsed.length + 1
  let parents := joinAll fuel id parsed
  let (parents, fixed) ← fixClasses fuel parents [] parsed
  let (parents, groups) := groupClasses fuel parents [] coordinates
  pure (classRows fuel fixed parents (groups.map Prod.snd))

end AstrContinuum
