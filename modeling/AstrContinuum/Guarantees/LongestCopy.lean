import AstrContinuum.Guarantees.FailsClosed
import AstrContinuum.Reorganization.Cuts

/-!
# The longest copy

`finds_longest_iff` says when `_fit_approximate_item` returns the longest copy of an item that fits: the
middles that a bisection meets below that copy must fit too. They need not: of two cuts the longer one can
have fewer bytes, when several texts become whole with it.
-/

namespace AstrContinuum

open Checked Effects

/-- A selection that an item can enter: it has no repeated items, and none with the id of the item. -/
structure Selection.Admits (selected : Selection) (source : SourceItem) : Prop where
  nodup : ∀ field, (selected field).Nodup
  fresh : ∀ item ∈ selected source.field, item.itemId ≠ source.item.itemId

/-- A copy of such an item repeats nothing. -/
theorem Selection.Admits.append_nodup {selected : Selection} {source : SourceItem}
    (h : selected.Admits source) (copy : CapsuleItem) (hid : copy.itemId = source.item.itemId)
    (field : ItemField) : (selected.append source.field copy field).Nodup := by
  rw [Selection.append_apply]
  by_cases hfield : source.field = field
  · subst hfield
    rw [if_pos rfl]
    refine List.Nodup.append (h.nodup _) (List.nodup_singleton _) ?_
    exact List.disjoint_singleton.mpr fun hcopy => h.fresh copy hcopy hid
  · rw [if_neg hfield, List.append_nil]
    exact h.nodup field

/-- The selections of a reorganization admit every item that was not met before. -/
theorem Ledger.admits {summaries : List ReorganizationRecord} {done : List SourceItem}
    {state : Reorganization} {entries : List LedgerEntry} (h : Ledger summaries done state entries)
    {source : SourceItem} (hnew : source.identity ∉ state.seen.map Prod.fst) :
    state.selected.Admits source where
  nodup := h.selected_nodup
  fresh := by
    intro item hitem hid
    obtain ⟨entry, hentry, hfield, hcopy⟩ := h.mem_selected.mp hitem
    have hentryId := (h.sound entry hentry).copy_itemId hcopy
    have hidentity : entry.identity = source.identity := by
      unfold LedgerEntry.identity SourceItem.identity
      rw [hfield, ← hentryId, hid]
    rw [h.seen, List.map_map] at hnew
    exact hnew (List.mem_map.mpr ⟨entry, hentry, hidentity⟩)

section Property

variable [Hashlib] [WireText] (first : ContextCapsuleEnvelope) (rest : List ContextCapsuleEnvelope)
  (tokenBudget : Nat) (state : Reorganization) (source : SourceItem)

/-- The approximation of an item at some characters differs from it, and the provisional capsule with it
fits the budget. -/
def CutFits (chars : Nat) : Prop :=
  ∃ copy, source.item.approximate chars = some copy ∧ copy ≠ source.item ∧
    ∃ tokens ≤ tokenBudget,
      provisionalAfterTokens utf8ByteTokenCounter first rest tokenBudget
        (state.selected.append source.field copy)
        (state.records ++ [source.record .approximate source.item.surface.utf8ByteSize
          copy.surface.utf8ByteSize false]) () = .ok tokens ()

/-- The greatest number of characters at which an approximation of an item fits. -/
abbrev LongestCut (chars : Nat) : Prop :=
  Bisection.Greatest (CutFits first rest tokenBudget state source) minApproximateChars
    (source.item.maxChars - 1) chars

/-- `_fit_approximate_item` returns the longest approximation that fits, and none only where none fits. -/
structure FindsLongest : Prop where
  returns : ∃ found, fitApproximateItem utf8ByteTokenCounter first rest tokenBudget state source () =
    .ok found ()
  longest : ∀ copy tokens,
    fitApproximateItem utf8ByteTokenCounter first rest tokenBudget state source () =
      .ok (some (copy, tokens)) () →
    ∃ chars, LongestCut first rest tokenBudget state source chars ∧
      source.item.approximate chars = some copy ∧ tokens = copy.surface.utf8ByteSize
  nothing : fitApproximateItem utf8ByteTokenCounter first rest tokenBudget state source () =
      .ok none () →
    ∀ chars, minApproximateChars ≤ chars → chars ≤ source.item.maxChars - 1 →
      ¬ CutFits first rest tokenBudget state source chars

end Property

section Runs

variable [Hashlib] [WireText] {first : ContextCapsuleEnvelope} {rest : List ContextCapsuleEnvelope}
  {tokenBudget : Nat} {state : Reorganization} {source : SourceItem} {frame : Nat}

/-- A cut fits when the bytes of the provisional capsule do. -/
theorem cutFits_iff (hframe : Framed first rest frame) (hadmits : state.selected.Admits source)
    {chars : Nat} (hlow : minApproximateChars ≤ chars) (hhigh : chars ≤ source.item.maxChars - 1) :
    CutFits first rest tokenBudget state source chars ↔
      provisionalBytes first rest frame state source chars ≤ tokenBudget := by
  unfold minApproximateChars at hlow
  obtain ⟨hcopy, hchanged⟩ := source.item.approximate_of_lt chars hlow (by omega)
  obtain ⟨hid, _, _⟩ := source.item.truncated_keeps chars
  have hcount := provisional_utf8 hframe (hadmits.append_nodup _ hid)
    (state.records ++ [source.record .approximate source.item.surface.utf8ByteSize
      (source.item.truncated chars).surface.utf8ByteSize false]) tokenBudget
  rw [nonSummaryReleaseCount_append (by simp [SourceItem.record])] at hcount
  constructor
  · rintro ⟨copy, happroximate, _, tokens, hle, htokens⟩
    obtain rfl := Option.some.inj (hcopy.symm.trans happroximate)
    rw [hcount] at htokens
    obtain rfl := (EStateM.Result.ok.inj htokens).1
    exact hle
  · exact fun hle => ⟨_, hcopy, hchanged, _, hle, hcount⟩

/-- What `_fit_approximate_item` returns. -/
theorem fitApproximateItem_utf8 (hframe : Framed first rest frame)
    (hadmits : state.selected.Admits source) (tokenBudget : Nat) :
    fitApproximateItem utf8ByteTokenCounter first rest tokenBudget state source () =
      .ok ((Bisection.search
        (fun chars => provisionalBytes first rest frame state source chars ≤ tokenBudget)
        source.item.maxChars minApproximateChars (source.item.maxChars - 1) none).map
          source.item.cut) () :=
  searchCopy_utf8 hframe tokenBudget state hadmits.append_nodup _ _ _ none le_rfl le_rfl

/-- `_fit_approximate_item` finds the longest approximation where the bisection does. -/
theorem findsLongest_iff_search (hframe : Framed first rest frame)
    (hadmits : state.selected.Admits source) :
    FindsLongest first rest tokenBudget state source ↔
      ∀ chars, LongestCut first rest tokenBudget state source chars →
        Bisection.search
          (fun chars => provisionalBytes first rest frame state source chars ≤ tokenBudget)
          source.item.maxChars minApproximateChars (source.item.maxChars - 1) none = some chars := by
  have hrun := fitApproximateItem_utf8 hframe hadmits tokenBudget
  have hrange {chars : Nat} (hlow : minApproximateChars ≤ chars)
      (hhigh : chars ≤ source.item.maxChars - 1) : chars < source.item.maxChars := by
    unfold minApproximateChars at hlow
    omega
  constructor
  · intro h chars hchars
    cases hsearch : Bisection.search
        (fun chars => provisionalBytes first rest frame state source chars ≤ tokenBudget)
        source.item.maxChars minApproximateChars (source.item.maxChars - 1) none with
    | none =>
        rw [hsearch] at hrun
        exact absurd hchars.holds (h.nothing hrun chars hchars.low_le hchars.le_high)
    | some found =>
        rw [hsearch] at hrun
        obtain ⟨other, hother, hcopy, _⟩ := h.longest _ _ hrun
        obtain rfl := hother.unique hchars
        rcases Bisection.search_mem _ hsearch with hnone | ⟨hlow, hhigh⟩
        · cases hnone
        · -- the copies have as many characters in their longest text as they are cut at
          have hsame := (CapsuleItem.approximate_eq_some hcopy).2
          have hlengths := congrArg CapsuleItem.maxChars hsame
          rw [CapsuleItem.maxChars_truncated hlow _ (hrange hlow hhigh).le,
            CapsuleItem.maxChars_truncated hother.low_le _
              (hrange hother.low_le hother.le_high).le] at hlengths
          rw [hlengths]
  · intro h
    have hsame (chars : Nat) (hlow : minApproximateChars ≤ chars)
        (hhigh : chars ≤ source.item.maxChars - 1) :
        CutFits first rest tokenBudget state source chars ↔
          provisionalBytes first rest frame state source chars ≤ tokenBudget :=
      cutFits_iff hframe hadmits hlow hhigh
    rcases Bisection.greatest_or_none (CutFits first rest tokenBudget state source)
      minApproximateChars (source.item.maxChars - 1) with ⟨chars, hchars⟩ | hnone
    · rw [h chars hchars] at hrun
      refine ⟨⟨_, hrun⟩, fun copy tokens hfound => ?_, fun hnothing => ?_⟩
      · obtain ⟨rfl, rfl⟩ := Prod.mk.inj (Option.some.inj
          (EStateM.Result.ok.inj (hrun.symm.trans hfound)).1)
        exact ⟨chars, hchars, (source.item.approximate_of_lt chars hchars.low_le
          (hrange hchars.low_le hchars.le_high)).1, rfl⟩
      · cases hrun.symm.trans hnothing
    · rw [Bisection.search_none fun n hlow hhigh => (hsame n hlow hhigh).not.mp
        (hnone n hlow hhigh)] at hrun
      refine ⟨⟨_, hrun⟩, fun copy tokens hfound => ?_, fun _ => hnone⟩
      cases hrun.symm.trans hfound

/-- The longest cut is the greatest number that the bisection looks for. -/
theorem LongestCut.greatest (hframe : Framed first rest frame)
    (hadmits : state.selected.Admits source) {chars : Nat}
    (h : LongestCut first rest tokenBudget state source chars) :
    Bisection.Greatest
      (fun chars => provisionalBytes first rest frame state source chars ≤ tokenBudget)
      minApproximateChars (source.item.maxChars - 1) chars :=
  h.congr fun _ hlow hhigh => cutFits_iff hframe hadmits hlow hhigh

/-- `_fit_approximate_item` finds the longest approximation exactly where the middles that a bisection of
the range meets below it, on the way to it, fit as well. -/
theorem finds_longest_iff (hdigests : HexDigests) (hadmits : state.selected.Admits source) :
    FindsLongest first rest tokenBudget state source ↔
      ∀ chars, LongestCut first rest tokenBudget state source chars →
        ∀ middle ∈ Bisection.middles chars source.item.maxChars minApproximateChars
            (source.item.maxChars - 1), middle < chars →
          CutFits first rest tokenBudget state source middle := by
  obtain ⟨frame, hframe⟩ := buildCapsule_bytes first rest hdigests
  rw [findsLongest_iff_search hframe hadmits]
  have hlow : 0 < minApproximateChars := by decide
  have hpasses : source.item.maxChars - 1 < minApproximateChars + source.item.maxChars := by
    unfold minApproximateChars
    omega
  refine forall_congr' fun chars => forall_congr' fun hchars => ?_
  rw [Bisection.search_eq_some_iff hlow hpasses (fun _ hn => absurd hn (Option.not_mem_none _))
    (hchars.greatest hframe hadmits)]
  refine forall_congr' fun middle => forall_congr' fun hmiddle => ?_
  obtain ⟨hge, hle⟩ := Bisection.mem_middles hmiddle
  rw [cutFits_iff hframe hadmits hge hle]

end Runs

/-! ## Samples -/

namespace LongestCopySample

open FailsClosedSample

/-- A decision with two texts that are whole from nine characters on. -/
def decision : Decision where
  decisionId := "d1"
  text := "Ship the plan"
  status := .active
  confidence := .one
  sourceEventIds := ["e1"]
  rationale := "It is due"
  alternatives := []
  supersedes := []
  rejectedBecause := "Too risky"

/-- A capsule with this decision. -/
def capsule : ContextCapsuleEnvelope :=
  ⟨{ capsuleData [] with decisions := [decision] }, by decide⟩

/-- The decision in its capsule. -/
def source : SourceItem := ⟨capsule, .decisions, .ofDecision decision⟩

/-- The first selection admits every item. -/
theorem admits : ({} : Reorganization).selected.Admits source where
  nodup := fun _ => List.nodup_nil
  fresh := fun _ hitem => absurd hitem List.not_mem_nil

/-- The provisional capsule with the cut of nine characters has 870 bytes. -/
theorem provisionalBytes_nine {frame : Nat} (hframe : Framed capsule [] frame) :
    provisionalBytes capsule [] frame {} source 9 = 870 := by
  have hcount : ((buildCapsule capsule [] (({} : Reorganization).selected.append source.field
      (source.item.truncated 9)) [] 870).map fun fields => fields.surface.utf8ByteSize).toOption =
      some 870 := by decide +kernel
  cases hbuilt : buildCapsule capsule [] (({} : Reorganization).selected.append source.field
      (source.item.truncated 9)) [] 870 with
  | error e =>
      rw [hbuilt] at hcount
      cases hcount
  | ok fields =>
      rw [hbuilt] at hcount
      exact (hframe _ _ _ _ hbuilt).symm.trans (Option.some.inj hcount)

/-- The bytes with another cut. -/
theorem provisionalBytes_of_cut {frame : Nat} (hframe : Framed capsule [] frame) (chars bytes : Nat)
    (hcut : cutBytes source.item.cutTexts chars + 870 =
      bytes + cutBytes source.item.cutTexts 9) :
    provisionalBytes capsule [] frame {} source chars = bytes := by
  have hnine := provisionalBytes_nine hframe
  have hcuts := provisionalBytes_cut capsule [] frame {} source chars 9
  omega

end LongestCopySample

open FailsClosedSample LongestCopySample in
/-- Within 871 bytes the search finds the cut of ten characters, the longest one that fits. -/
theorem finds_longest_iff_decision : FindsLongest capsule [] 871 {} source := by
  refine (finds_longest_iff hexDigests_sha256 admits).mpr fun chars hchars middle hmiddle hlt => ?_
  obtain ⟨frame, hframe⟩ := buildCapsule_bytes capsule [] hexDigests_sha256
  obtain ⟨hlow, hhigh⟩ := Bisection.mem_middles hmiddle
  rw [cutFits_iff hframe admits hlow hhigh]
  have height := provisionalBytes_of_cut hframe 8 871 (by decide +kernel)
  have hnine := provisionalBytes_nine hframe
  have heleven := provisionalBytes_of_cut hframe 11 872 (by decide +kernel)
  have htwelve := provisionalBytes_of_cut hframe 12 873 (by decide +kernel)
  have hlongest := (hchars.greatest hframe admits).holds
  have hten : chars ≤ 10 := by
    have hmost : chars ≤ 12 := hchars.le_high
    by_contra hmore
    obtain rfl | rfl : chars = 11 ∨ chars = 12 := by omega
    · omega
    · omega
  have hshort : 8 ≤ middle := hlow
  obtain rfl | rfl : middle = 8 ∨ middle = 9 := by omega
  · exact height.le
  · omega

open FailsClosedSample LongestCopySample in
/-- Within 870 bytes the cut of nine characters fits, but not those of ten and of eight characters, which
the search tries: it finds nothing. -/
theorem decision_not_longest :
    CutFits capsule [] 870 {} source 9 ∧
      fitApproximateItem utf8ByteTokenCounter capsule [] 870 {} source () = .ok none () ∧
      ¬ FindsLongest capsule [] 870 {} source := by
  obtain ⟨frame, hframe⟩ := buildCapsule_bytes capsule [] hexDigests_sha256
  have height := provisionalBytes_of_cut hframe 8 871 (by decide +kernel)
  have hnine := provisionalBytes_nine hframe
  have hten := provisionalBytes_of_cut hframe 10 871 (by decide +kernel)
  have hfits : CutFits capsule [] 870 {} source 9 :=
    (cutFits_iff hframe admits (by decide) (by decide)).mpr hnine.le
  have hnothing : fitApproximateItem utf8ByteTokenCounter capsule [] 870 {} source () =
      .ok none () := by
    have hmax : source.item.maxChars = 13 := by decide
    rw [fitApproximateItem_utf8 hframe admits, hmax]
    simp [Bisection.search, minApproximateChars, height, hten]
  exact ⟨hfits, hnothing, fun h => h.nothing hnothing 9 (by decide) (by decide) hfits⟩

end AstrContinuum
