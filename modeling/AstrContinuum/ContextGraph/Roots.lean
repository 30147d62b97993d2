import AstrContinuum.ContextGraph.CompiledSystem

/-!
# Roots of the disjoint set

A chain of parents leads from a coordinate to its root. Shortening paths keeps every root, a union joins
two classes, and no equation is lost: after all unions two coordinates have one root exactly where every
assignment that satisfies the equations gives them one value.
-/

namespace AstrContinuum

open Checked

namespace Parents

/-- The chain of parents of `value` ends at `root`. -/
inductive Reaches (parents : Parents) : String → String → Prop
  | root {value : String} (h : parents value = value) : Reaches parents value value
  | step {value root : String} (h : parents value ≠ value)
      (hrest : Reaches parents (parents value) root) : Reaches parents value root

variable {parents : Parents} {value root : String} {bound fuel : Nat}

/-- The end of a chain is a root. -/
theorem Reaches.is_root (h : Reaches parents value root) : parents root = root := by
  induction h with
  | root h => exact h
  | step _ _ ih => exact ih

/-- A chain has one end. -/
theorem Reaches.unique {other : String} (h : Reaches parents value root)
    (hother : Reaches parents value other) : root = other := by
  induction h with
  | root h =>
      cases hother with
      | root _ => rfl
      | step hne _ => exact absurd h hne
  | step hne _ ih =>
      cases hother with
      | root heq => exact absurd heq hne
      | step _ hrest => exact ih hrest

/-- A coordinate may be moved to its root: all chains end where they did. -/
theorem Reaches.compress {target : String} (htarget : Reaches parents target root) {other : String}
    (h : Reaches parents value other) : Reaches (Function.update parents target root) value other := by
  induction h with
  | @root value h =>
      by_cases hsame : value = target
      · subst hsame
        refine .root ?_
        rw [Function.update_self]
        exact htarget.unique (.root h)
      · refine .root ?_
        rwa [Function.update_of_ne hsame]
  | @step value other hne hrest ih =>
      by_cases hsame : value = target
      · subst hsame
        obtain rfl := htarget.unique (.step hne hrest)
        have hroot := htarget.is_root
        have hmoved : root ≠ value := fun heq => hne (heq ▸ hroot)
        refine .step ?_ ?_
        · rwa [Function.update_self]
        · rw [Function.update_self]
          refine .root ?_
          rwa [Function.update_of_ne hmoved]
      · refine .step ?_ ?_
        · rwa [Function.update_of_ne hsame]
        · rwa [Function.update_of_ne hsame]

/-- One root may be put under another: its chains end at the other root. -/
theorem Reaches.join {left right : String} (hleft : parents left = left)
    (hright : parents right = right) (hne : left ≠ right) (h : Reaches parents value root) :
    Reaches (Function.update parents right left) value (if root = right then left else root) := by
  induction h with
  | @root value h =>
      by_cases hsame : value = right
      · subst hsame
        rw [if_pos rfl]
        refine .step ?_ ?_
        · rwa [Function.update_self]
        · rw [Function.update_self]
          refine .root ?_
          rwa [Function.update_of_ne hne]
      · rw [if_neg hsame]
        refine .root ?_
        rwa [Function.update_of_ne hsame]
  | @step value root hmoves _ ih =>
      have hsame : value ≠ right := fun heq => hmoves (heq ▸ hright)
      refine .step ?_ ?_
      · rwa [Function.update_of_ne hsame]
      · rwa [Function.update_of_ne hsame]

/-- With fuel for the chain, `chase` returns its end and keeps all ends. -/
theorem chase_reaches {rank : String → Nat} (hbound : ∀ value, rank value ≤ bound) :
    ∀ {fuel : Nat} {parents : Parents} (value : String),
      (∀ other, parents other ≠ other → rank other < rank (parents other)) →
      bound < rank value + fuel →
      Reaches parents value (chase fuel parents value).1 ∧
        ∀ other root, Reaches parents other root →
          Reaches (chase fuel parents value).2 other root := by
  intro fuel
  induction fuel with
  | zero =>
      intro parents value _ hfuel
      have hvalue := hbound value
      omega
  | succ fuel ih =>
      intro parents value hranks hfuel
      unfold chase
      by_cases hroot : parents value = value
      · rw [if_pos hroot]
        exact ⟨.root hroot, fun _ _ h => h⟩
      · rw [if_neg hroot]
        dsimp only
        have hgrows := hranks value hroot
        obtain ⟨hfound, hkept⟩ := ih (parents value) hranks (by omega)
        have hchain : Reaches parents value (chase fuel parents (parents value)).1 :=
          .step hroot hfound
        exact ⟨hchain, fun other root h => (hkept _ _ hchain).compress (hkept other root h)⟩

/-- The roots of all coordinates, in a set whose chains are bounded. -/
structure Rooted (rootOf : String → String) (bound : Nat) (parents : Parents) : Prop where
  ranked : Ranked bound parents
  reaches : ∀ value, Reaches parents value (rootOf value)

variable {rootOf : String → String}

/-- `chase` returns the root, and keeps the roots. -/
theorem Rooted.chase (h : Rooted rootOf bound parents) (hfuel : bound < fuel) (value : String) :
    (parents.chase fuel value).1 = rootOf value ∧
      Rooted rootOf bound (parents.chase fuel value).2 := by
  obtain ⟨⟨rank, hbound, hranks⟩, hreaches⟩ := h
  have hfuel : bound < rank value + fuel := by omega
  obtain ⟨hfound, hkept⟩ := chase_reaches hbound value hranks hfuel
  obtain ⟨_, _, hkeptRanks, _⟩ := chase_root hbound value hranks hfuel
  exact ⟨hfound.unique (hreaches value),
    ⟨⟨rank, hbound, hkeptRanks⟩, fun other => hkept other _ (hreaches other)⟩⟩

/-- The roots after an equation: those of the right class become the left root. -/
theorem Rooted.join (h : Rooted rootOf bound parents) (hfuel : bound < fuel)
    (left right : String) :
    Rooted (fun value => if rootOf value = rootOf right then rootOf left else rootOf value)
      (bound + 1) (parents.join fuel left right) := by
  refine ⟨join_ranked h.ranked hfuel left right, fun value => ?_⟩
  obtain ⟨hleft, hleftRooted⟩ := h.chase hfuel left
  obtain ⟨hright, hrooted⟩ := hleftRooted.chase hfuel right
  unfold Parents.join
  dsimp only
  rw [hleft, hright]
  by_cases hne : rootOf left ≠ rootOf right
  · rw [if_pos hne]
    exact (hrooted.reaches value).join (hrooted.reaches left).is_root
      (hrooted.reaches right).is_root hne
  · rw [if_neg hne]
    rw [not_ne_iff] at hne
    have hsame : (if rootOf value = rootOf right then rootOf left else rootOf value) =
        rootOf value := by
      split
      · next heq => rw [hne, heq]
      · rfl
    rw [hsame]
    exact hrooted.reaches value

end Parents

end AstrContinuum
