import AstrContinuum.Algebra.Bisection
import AstrContinuum.Reorganization.Packing

/-!
# The cuts of an item

`_fit_approximate_item` under `Utf8ByteTokenCounter` is a bisection of the numbers of characters at which an
item can be cut (`searchCopy_utf8`). The count of a provisional capsule changes with the cut only as the
bytes of the item do, and these as the bytes of the texts that are cut (`truncated_bytes`).
-/

namespace AstrContinuum

open Checked Effects

/-! ## Texts -/

/-- The length of a cut. -/
theorem length_truncateText {chars : Nat} (h : minApproximateChars ≤ chars) (text : String) :
    (truncateText chars text).length = min chars text.length := by
  unfold minApproximateChars at h
  unfold truncateText sliceTo
  split
  · omega
  · rw [if_neg (by omega), String.length_append, String.length_ofList, List.length_take,
      String.length_toList]
    have hdots : "\u2026".length = 1 := rfl
    omega

/-- The bytes of a string. -/
def jsonBytes (text : String) : Nat :=
  (jsonString text).utf8ByteSize

/-- The bytes of the cuts of some texts. -/
def cutBytes (texts : List String) (chars : Nat) : Nat :=
  (texts.map fun text => jsonBytes (truncateText chars text)).sum

/-! ## Items -/

namespace CapsuleItem

/-- The texts of an item that `_approximate_item` cuts. -/
def cutTexts : CapsuleItem → List String
  | .claim item => [item.text]
  | .decision item =>
      item.text :: item.rationale :: item.rejectedBecause :: (item.alternatives ++ item.supersedes)
  | .entity item => item.kind :: item.canonicalName :: item.aliases
  | .anchor _ | .dependency _ => []

/-- A cut of an item bounds its search. -/
theorem maxChars_truncated {chars : Nat} (h : minApproximateChars ≤ chars) (item : CapsuleItem)
    (hle : chars ≤ item.maxChars) : (item.truncated chars).maxChars = chars := by
  cases item with
  | claim item => exact (length_truncateText h _).trans (min_eq_left hle)
  | decision item =>
      show max (truncateText chars item.text).length (truncateText chars item.rationale).length = chars
      rw [length_truncateText h, length_truncateText h, ← min_max_distrib_left]
      exact min_eq_left hle
  | entity item => exact (length_truncateText h _).trans (min_eq_left hle)
  | _ => exact (Nat.le_zero.mp hle).symm

/-- The bytes of a list of cut texts. -/
theorem textsSurface_bytes (texts : List String) (chars : Nat) :
    (textsSurface (texts.map (truncateText chars))).utf8ByteSize + (texts.map jsonBytes).sum =
      (textsSurface texts).utf8ByteSize + cutBytes texts chars := by
  have hwhole : texts.map jsonBytes = (texts.map jsonString).map String.utf8ByteSize :=
    List.map_map.symm
  unfold textsSurface cutBytes
  rw [hwhole, jsonArray_bytes, jsonArray_bytes, totalBytes, totalBytes, List.map_map, List.map_map,
    List.map_map, List.length_map, List.length_map]
  simp only [List.map_map, Function.comp_def, jsonBytes]
  omega

section Surface

variable [WireText]

/-- The bytes of an item change with a cut as those of the texts that are cut. -/
theorem truncated_bytes (item : CapsuleItem) (chars : Nat) :
    (item.truncated chars).surface.utf8ByteSize + (item.cutTexts.map jsonBytes).sum =
      item.surface.utf8ByteSize + cutBytes item.cutTexts chars := by
  cases item with
  | claim item =>
      simp only [truncated, surface, cutTexts, cutBytes]
      rw [writeMembers_bytes (by simp), writeMembers_bytes (by simp)]
      simp only [List.map_cons, List.map_nil, List.sum_cons, List.sum_nil, memberBytes, jsonBytes]
      omega
  | decision item =>
      have halternatives := textsSurface_bytes item.alternatives chars
      have hsupersedes := textsSurface_bytes item.supersedes chars
      simp only [truncated, surface, cutTexts, cutBytes] at halternatives hsupersedes ⊢
      rw [writeMembers_bytes (by simp), writeMembers_bytes (by simp)]
      simp only [List.map_cons, List.map_nil, List.sum_cons, List.sum_nil, List.map_append,
        List.sum_append, memberBytes, jsonBytes] at halternatives hsupersedes ⊢
      omega
  | entity item =>
      have haliases := textsSurface_bytes item.aliases chars
      simp only [truncated, surface, cutTexts, cutBytes] at haliases ⊢
      rw [writeMembers_bytes (by simp), writeMembers_bytes (by simp)]
      simp only [List.map_cons, List.map_nil, List.sum_cons, List.sum_nil, memberBytes,
        jsonBytes] at haliases ⊢
      omega
  | _ => simp [truncated, cutTexts, cutBytes]

end Surface

end CapsuleItem

/-! ## Selections -/

section Loads

variable [WireText]

/-- Items with the same sources change the bytes of a selection by their own. -/
theorem loadBytes_swap (first : ContextCapsuleEnvelope) (rest : List ContextCapsuleEnvelope)
    (selected : Selection) (field : ItemField) {copy item : CapsuleItem}
    (hsources : copy.sourceEventIds = item.sourceEventIds) (released : Nat) :
    loadBytes first rest (selected.append field copy) released + item.surface.utf8ByteSize =
      loadBytes first rest (selected.append field item) released + copy.surface.utf8ByteSize := by
  have hcoverage (sources : List String) : sourceCoverage (selected.append field copy) sources =
      sourceCoverage (selected.append field item) sources := by
    have hrepresented (other : ItemField) :
        (selected.append field copy other).flatMap CapsuleItem.sourceEventIds =
          (selected.append field item other).flatMap CapsuleItem.sourceEventIds := by
      rw [Selection.append_apply, Selection.append_apply]
      split
      · rw [List.flatMap_append, List.flatMap_append, List.flatMap_singleton, List.flatMap_singleton,
          hsources]
      · rfl
    unfold sourceCoverage
    simp only [hrepresented]
  have hfield (other : ItemField) :
      (jsonArray ((selected.append field copy other).map CapsuleItem.surface)).utf8ByteSize +
          (if other = field then item.surface.utf8ByteSize else 0) =
        (jsonArray ((selected.append field item other).map CapsuleItem.surface)).utf8ByteSize +
          (if other = field then copy.surface.utf8ByteSize else 0) := by
    rw [Selection.append_apply, Selection.append_apply]
    by_cases h : other = field
    · subst h
      simp only [if_pos, List.map_append, List.map_singleton, jsonArray_bytes, totalBytes_append,
        List.length_append, List.length_singleton]
      omega
    · simp only [if_neg h, if_neg (Ne.symm h)]
  have honce (n : Nat) :
      (ItemField.all.map fun other => if other = field then n else 0).sum = n := by
    cases field <;> simp [ItemField.all]
  have hitems : (selected.append field copy).bytes + item.surface.utf8ByteSize =
      (selected.append field item).bytes + copy.surface.utf8ByteSize := by
    unfold Selection.bytes
    rw [← honce item.surface.utf8ByteSize, ← honce copy.surface.utf8ByteSize, ← List.sum_map_add,
      ← List.sum_map_add]
    exact congrArg List.sum (List.map_congr_left fun other _ => hfield other)
  unfold loadBytes coverageBytes
  simp only [hcoverage]
  omega

end Loads

/-! ## The search -/

section Search

variable [Hashlib] [WireText] {first : ContextCapsuleEnvelope} {rest : List ContextCapsuleEnvelope}
  {frame : Nat}

/-- The bytes of the provisional capsule with a cut of an item. -/
def provisionalBytes (first : ContextCapsuleEnvelope) (rest : List ContextCapsuleEnvelope)
    (frame : Nat) (state : Reorganization) (source : SourceItem) (chars : Nat) : Nat :=
  frame + loadBytes first rest (state.selected.append source.field (source.item.truncated chars))
    (nonSummaryReleaseCount state.records)

omit [Hashlib] in
/-- The bytes of the provisional capsule change with the cut as those of the texts that are cut. -/
theorem provisionalBytes_cut (first : ContextCapsuleEnvelope) (rest : List ContextCapsuleEnvelope)
    (frame : Nat) (state : Reorganization) (source : SourceItem) (chars others : Nat) :
    provisionalBytes first rest frame state source chars + cutBytes source.item.cutTexts others =
      provisionalBytes first rest frame state source others +
        cutBytes source.item.cutTexts chars := by
  have hloads := loadBytes_swap first rest state.selected source.field
    ((source.item.truncated_keeps chars).2.1.trans (source.item.truncated_keeps others).2.1.symm)
    (nonSummaryReleaseCount state.records)
  have hchars := source.item.truncated_bytes chars
  have hothers := source.item.truncated_bytes others
  unfold provisionalBytes
  omega

/-- A cut of an item with its bytes. -/
def CapsuleItem.cut (item : CapsuleItem) (chars : Nat) : CapsuleItem × Nat :=
  (item.truncated chars, (item.truncated chars).surface.utf8ByteSize)

/-- The search is a bisection of the numbers of characters. -/
theorem searchCopy_utf8 (hframe : Framed first rest frame) (tokenBudget : Nat)
    (state : Reorganization) {source : SourceItem}
    (hnodup : ∀ copy : CapsuleItem, copy.itemId = source.item.itemId →
      ∀ field, (state.selected.append source.field copy field).Nodup) :
    ∀ (passes low high : Nat) (best : Option Nat), minApproximateChars ≤ low →
      high ≤ source.item.maxChars - 1 →
      searchCopy utf8ByteTokenCounter first rest tokenBudget state source passes low high
          (best.map source.item.cut) () =
        .ok ((Bisection.search
          (fun chars => provisionalBytes first rest frame state source chars ≤ tokenBudget)
          passes low high best).map source.item.cut) () := by
  intro passes
  induction passes with
  | zero => exact fun _ _ _ _ _ => rfl
  | succ passes ih =>
      intro low high best hlow hhigh
      unfold searchCopy Bisection.search
      by_cases hempty : high < low
      · rw [if_pos hempty, if_pos hempty]
        rfl
      · rw [if_neg hempty, if_neg hempty]
        dsimp only
        unfold minApproximateChars at hlow
        generalize hmiddle : (low + high) / 2 = middle
        obtain ⟨hcopy, hchanged⟩ := source.item.approximate_of_lt middle
          (by unfold minApproximateChars; omega) (by omega)
        obtain ⟨hid, _, _⟩ := source.item.truncated_keeps middle
        have hcount := provisional_utf8 hframe (hnodup _ hid)
          (state.records ++ [source.record .approximate source.item.surface.utf8ByteSize
            (source.item.truncated middle).surface.utf8ByteSize false]) tokenBudget
        rw [nonSummaryReleaseCount_append (by simp [SourceItem.record])] at hcount
        rw [hcopy]
        dsimp only
        rw [if_neg hchanged]
        refine bind_ok.mpr ⟨_, (), countSurface_utf8 _, ?_⟩
        refine bind_ok.mpr ⟨_, (), countSurface_utf8 _, ?_⟩
        refine bind_ok.mpr ⟨_, (), hcount, ?_⟩
        by_cases hfits : provisionalBytes first rest frame state source middle ≤ tokenBudget
        · have hfits' := hfits
          unfold provisionalBytes at hfits'
          rw [if_pos hfits', if_pos hfits]
          exact ih (middle + 1) high (some middle) (by unfold minApproximateChars; omega) hhigh
        · have hfits' := hfits
          unfold provisionalBytes at hfits'
          rw [if_neg hfits', if_neg hfits]
          exact ih low (middle - 1) best (by unfold minApproximateChars; omega) (by omega)

end Search

end AstrContinuum
