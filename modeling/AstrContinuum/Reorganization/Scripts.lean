import Mathlib.Data.List.Dedup
import AstrContinuum.Reorganization.Ledger

/-!
# Reorganizations that a counter can bring about

`Possible` says that some answers of a counter make a computation return a value with a property. Its
rules follow the shape of the computation, as those of `Returns` do. Where no check of the inputs fails,
every loop can run to its end with each item kept in full, and one chosen item can be cut at any length
of the range of the search.
-/

namespace Effects

variable {ε τ α β : Type}

/-- Some answers, whatever follows them, are used up and give a value with the property `post`. -/
def Possible (x : EStateM ε (List τ) α) (post : α → Prop) : Prop :=
  ∃ answers a, post a ∧ ∀ later, x (answers ++ later) = .ok a later

namespace Possible

/-- `pure` uses no answer. -/
theorem pure {a : α} {post : α → Prop} (h : post a) :
    Possible (Pure.pure a : EStateM ε (List τ) α) post :=
  ⟨[], a, h, fun _ => rfl⟩

/-- A stateless computation uses no answer. -/
theorem perform {x : Except ε α} {a : α} (hx : x = .ok a) :
    Possible (perform x : EStateM ε (List τ) α) fun b => b = a :=
  ⟨[], a, rfl, fun _ => perform_ok.mpr ⟨hx, rfl⟩⟩

/-- The answers of a sequence are those of its parts. -/
theorem bind {x : EStateM ε (List τ) α} {f : α → EStateM ε (List τ) β} {mid : α → Prop}
    {post : β → Prop} (h : Possible x mid) (hnext : ∀ a, mid a → Possible (f a) post) :
    Possible (x >>= f) post := by
  obtain ⟨answers, a, ha, hx⟩ := h
  obtain ⟨others, b, hb, hf⟩ := hnext a ha
  refine ⟨answers ++ others, b, hb, fun later => bind_ok.mpr ⟨a, others ++ later, ?_, hf later⟩⟩
  rw [List.append_assoc]
  exact hx _

/-- A property of the returned value may be weakened. -/
theorem mono {x : EStateM ε (List τ) α} {post weaker : α → Prop} (h : Possible x post)
    (hweaker : ∀ a, post a → weaker a) : Possible x weaker := by
  obtain ⟨answers, a, ha, hx⟩ := h
  exact ⟨answers, a, hweaker a ha, hx⟩

/-- What every returned value satisfies may be added. -/
theorem returns {x : EStateM ε (List τ) α} {post always : α → Prop} (h : Possible x post)
    (halways : Returns x always) : Possible x fun a => post a ∧ always a := by
  obtain ⟨answers, a, ha, hx⟩ := h
  exact ⟨answers, a, ⟨ha, halways _ a _ (hx [])⟩, hx⟩

/-- A loop can keep what every iteration can keep. -/
theorem foldlM {f : β → α → EStateM ε (List τ) β} (inv : List α → β → Prop) {items : List α}
    {init : β} (hinit : inv [] init)
    (hstep : ∀ done a later b, items = done ++ a :: later → inv done b →
      Possible (f b a) (inv (done ++ [a]))) :
    Possible (items.foldlM f init) (inv items) := by
  suffices h : ∀ rest done b, items = done ++ rest → inv done b →
      Possible (rest.foldlM f b) (inv items) from h items [] init rfl hinit
  intro rest
  induction rest with
  | nil =>
      intro done b hitems hb
      rw [List.append_nil] at hitems
      subst hitems
      exact Possible.pure hb
  | cons a rest ih =>
      intro done b hitems hb
      rw [List.foldlM_cons]
      refine (hstep done a rest b hitems hb).bind fun next hnext => ?_
      exact ih (done ++ [a]) next (by rw [hitems, List.append_cons]) hnext

end Possible

end Effects

namespace AstrContinuum

open Checked Effects

/-! ## Counting -/

/-- A counter that gives prepared answers, and zero when they have run out. -/
def TokenCounter.scripted : TokenCounter (List Nat) where
  countText _ answers := (.integer (answers.headD 0 : Nat), answers.tail)

/-- A count can be any number. -/
theorem countSurface_possible (text : String) (n : Nat) :
    Possible (countSurface TokenCounter.scripted text) fun tokens => tokens = n := by
  refine ⟨[n], n, rfl, fun later => ?_⟩
  unfold countSurface TokenCounter.scripted
  simp

/-! ## The capsule of a selection -/

/-- The share of the represented sources is a unit value. -/
theorem sourceCoverage_unit (selected : Selection) (sources : List String) :
    0 ≤ sourceCoverage selected sources ∧ sourceCoverage selected sources ≤ 1 := by
  unfold sourceCoverage
  dsimp only
  by_cases hsources : sources = []
  · rw [if_pos hsources]
    exact ⟨by norm_num, le_refl 1⟩
  · rw [if_neg hsources]
    refine ⟨le_min (by norm_num) (Binary64.nearest_nonneg ?_), min_le_left _ _⟩
    positivity

/-- The sorted values of a set of valid sources are valid sources. -/
theorem sortedTexts_valid {first : List String} {texts : List String} (hfirst : first ≠ [])
    (hsub : ∀ text ∈ first, text ∈ texts) (hempty : "" ∉ texts) : ValidSources (sortedTexts texts) := by
  have hmem (text : String) : text ∈ sortedTexts texts ↔ text ∈ texts := by
    unfold sortedTexts
    rw [List.mem_insertionSort, List.mem_dedup]
  obtain ⟨text, htext⟩ := List.exists_mem_of_ne_nil first hfirst
  refine ⟨List.ne_nil_of_mem ((hmem text).mpr (hsub text htext)), ?_, ?_⟩
  · rwa [hmem]
  · unfold sortedTexts
    exact (List.perm_insertionSort _ _).nodup_iff.mpr (List.nodup_dedup texts)

/-- The least of some numbers is at most the first, and a bound of all bounds it. -/
theorem foldl_min_le (values : List Nat) (first : Nat) :
    values.foldl min first ≤ first ∧
      ∀ bound ≤ first, (∀ value ∈ values, bound ≤ value) → bound ≤ values.foldl min first := by
  induction values generalizing first with
  | nil => exact ⟨le_refl _, fun _ h _ => h⟩
  | cons value values ih =>
      obtain ⟨hle, hbound⟩ := ih (min first value)
      refine ⟨hle.trans (min_le_left _ _), fun bound hfirst hall => ?_⟩
      exact hbound bound (le_min hfirst (hall value List.mem_cons_self))
        fun other hother => hall other (List.mem_cons_of_mem _ hother)

/-- The greatest of some numbers is at least the first. -/
theorem le_foldl_max_first (values : List Nat) (first : Nat) : first ≤ values.foldl max first := by
  induction values generalizing first with
  | nil => exact le_refl _
  | cons value values ih => exact (le_max_left _ _).trans (ih (max first value))

section Building

variable [Hashlib] [WireText] (first : ContextCapsuleEnvelope) (rest : List ContextCapsuleEnvelope)
  (tokenBudget : Nat)

/-- A selection without repeated items makes a capsule. -/
theorem buildCapsule_returns {selected : Selection} (hselected : ∀ field, (selected field).Nodup)
    (records : List ReorganizationRecord) :
    ∃ fields, buildCapsule first rest selected records tokenBudget = .ok fields := by
  unfold buildCapsule
  dsimp only
  have hunit := sourceCoverage_unit selected
    (sortedTexts ((first :: rest).flatMap fun capsule => capsule.sourceEventIds))
  rw [dif_pos hunit]
  have hstart : (rest.map fun item => item.coveredEventStart).foldl min first.coveredEventStart ≤
      first.coveredEventStart := (foldl_min_le _ _).1
  have hend : first.coveredEventEnd ≤
      (rest.map fun item => item.coveredEventEnd).foldl max first.coveredEventEnd :=
    le_foldl_max_first _ _
  have hone : 1 ≤ (rest.map fun item => item.coveredEventStart).foldl min
      first.coveredEventStart := by
    refine (foldl_min_le _ _).2 1 first.valid.2.1.1 fun value hvalue => ?_
    obtain ⟨item, _, rfl⟩ := List.mem_map.mp hvalue
    exact item.valid.2.1.1
  have hsources : ValidSources
      (sortedTexts ((first :: rest).flatMap fun capsule => capsule.sourceEventIds)) := by
    refine sortedTexts_valid first.valid.2.2.1.1 (fun text htext => ?_) fun hempty => ?_
    · exact List.mem_flatMap.mpr ⟨first, List.mem_cons_self, htext⟩
    · obtain ⟨capsule, _, hcapsule⟩ := List.mem_flatMap.mp hempty
      exact capsule.valid.2.2.1.2.1 hcapsule
  have hid : newCapsuleId (first :: rest) tokenBudget records ≠ "" := by
    unfold newCapsuleId
    intro hempty
    have hlength := congrArg String.length hempty
    rw [String.length_append] at hlength
    have hprefix : "reorg-".length = 6 := by decide
    have hnone : "".length = 0 := by decide
    omega
  have hversion : "2.1.0" ≠ "" := by decide
  have hsummary : "reorganized capsule" ≠ "" := by decide
  rw [require_bind_pos]
  · exact ⟨_, rfl⟩
  · refine ⟨⟨hid, hversion, hsummary⟩, ⟨hone, ?_⟩, hsources, fun field _ => hselected field⟩
    exact hstart.trans (first.valid.2.1.2.trans hend)

/-- A provisional count can be any number. -/
theorem provisional_possible {selected : Selection} (hselected : ∀ field, (selected field).Nodup)
    (records : List ReorganizationRecord) (n : Nat) :
    Possible (provisionalAfterTokens TokenCounter.scripted first rest tokenBudget selected records)
      fun tokens => tokens = n := by
  obtain ⟨fields, hfields⟩ := buildCapsule_returns first rest tokenBudget hselected records
  exact (Possible.perform hfields).bind fun provisional _ => countSurface_possible _ n

end Building

/-! ## The loops -/

/-- No two items of the list have one identity and different values. -/
def Consistent (sources : List SourceItem) : Prop :=
  ∀ source ∈ sources, ∀ other ∈ sources, source.identity = other.identity → source.item = other.item

/-- The check of `seen` returns where the items are consistent. -/
theorem Ledger.remember_returns {summaries : List ReorganizationRecord} {done later : List SourceItem}
    {state : Reorganization} {entries : List LedgerEntry} {source : SourceItem}
    (h : Ledger summaries done state entries)
    (hconsistent : Consistent (done ++ source :: later)) :
    ∃ result, state.remember source = .ok result := by
  unfold Reorganization.remember
  cases hlookup : state.seen.lookup source.identity with
  | none => exact ⟨_, rfl⟩
  | some item =>
      obtain ⟨before, after, hseen, -⟩ := List.lookup_eq_some_iff.mp hlookup
      have hmem : (source.identity, item) ∈ state.seen := by
        rw [hseen]
        exact List.mem_append_right _ List.mem_cons_self
      rw [h.seen] at hmem
      obtain ⟨entry, hentry, heq⟩ := List.mem_map.mp hmem
      obtain ⟨hidentity, hitem⟩ := Prod.mk.inj heq
      have hsame := hconsistent entry.source (List.mem_append_left _ (h.origin entry hentry)) source
        (List.mem_append_right _ List.mem_cons_self) hidentity
      rw [hitem] at hsame
      exact ⟨none, by simp [hsame]⟩

/-- The selection `later` has everything that `selected` has. -/
def Selection.Within (selected later : Selection) : Prop :=
  ∀ field, ∀ item ∈ selected field, item ∈ later field

/-- An item that enters leaves the others. -/
theorem Selection.within_append (selected : Selection) (field : ItemField) (item : CapsuleItem) :
    selected.Within (selected.append field item) := by
  intro other kept hkept
  rw [Selection.append_apply]
  exact List.mem_append_left _ hkept

section Loops

variable [Hashlib] [WireText]

omit [Hashlib] in
/-- An anchor or dependency can be counted. -/
theorem coreStep_possible {done later : List SourceItem} {state : Reorganization}
    {source : SourceItem} (h : Balanced [] done state)
    (hconsistent : Consistent (done ++ source :: later)) :
    Possible (coreStep TokenCounter.scripted state source) (Balanced [] (done ++ [source])) := by
  have hreturns : Possible (coreStep TokenCounter.scripted state source) fun _ => True := by
    obtain ⟨entries, h⟩ := h
    obtain ⟨result, hresult⟩ := h.remember_returns hconsistent
    refine (Possible.perform hresult).bind fun found _ => ?_
    cases found with
    | none => exact Possible.pure trivial
    | some fresh =>
        exact (countSurface_possible _ 0).bind fun tokens _ => Possible.pure trivial
  exact (hreturns.returns (coreStep_balanced _ h)).mono fun _ hboth => hboth.2

omit [Hashlib] [WireText] in
/-- The summaries can be counted. -/
theorem summaryStep_possible (records : List ReorganizationRecord)
    (capsules : List ContextCapsuleEnvelope) :
    Possible (capsules.foldlM (summaryStep TokenCounter.scripted) records) fun _ => True :=
  Possible.foldlM (fun _ _ => True) trivial fun _ _ _ _ _ _ =>
    (countSurface_possible _ 0).bind fun _ _ => Possible.pure trivial

omit [Hashlib] in
/-- The capsules can be counted. -/
theorem countCapsules_possible (capsules : List ContextCapsuleEnvelope) :
    Possible (countCapsules TokenCounter.scripted capsules) fun _ => True :=
  Possible.foldlM (fun _ _ => True) trivial fun _ _ _ _ _ _ =>
    (countSurface_possible _ 0).bind fun _ _ => Possible.pure trivial

variable (first : ContextCapsuleEnvelope) (rest : List ContextCapsuleEnvelope)

/-- What is always kept can fit. -/
theorem selectMandatory_possible
    (hconsistent : Consistent (sourceItems ItemField.core (first :: rest))) :
    Possible (selectMandatory TokenCounter.scripted first rest 0) fun state =>
      ∃ summaries, Balanced summaries (sourceItems ItemField.core (first :: rest)) state := by
  have hcore : Possible ((sourceItems ItemField.core (first :: rest)).foldlM
      (coreStep TokenCounter.scripted) {})
      (Balanced [] (sourceItems ItemField.core (first :: rest))) :=
    Possible.foldlM (Balanced []) ⟨[], Ledger.start⟩ fun done source later state hitems h =>
      coreStep_possible h (hitems ▸ hconsistent)
  have hreturns : Possible (selectMandatory TokenCounter.scripted first rest 0) fun _ => True := by
    refine hcore.bind fun state hstate => ?_
    obtain ⟨entries, hledger⟩ := hstate
    refine (summaryStep_possible state.records (first :: rest)).bind fun records _ => ?_
    refine (provisional_possible first rest 0 hledger.selected_nodup records 0).bind
      fun tokens htokens => ?_
    rw [if_neg (by omega)]
    exact Possible.pure trivial
  refine (hreturns.returns (selectMandatory_balanced _ first rest 0)).mono fun state hboth => ?_
  obtain ⟨_, summaries, _, hbalanced⟩ := hboth
  exact ⟨summaries, hbalanced⟩

/-- An item can be kept in full. -/
theorem place_retained_possible (state : Reorganization) {source : SourceItem}
    (hnodup : ∀ field, (state.selected.append source.field source.item field).Nodup)
    (beforeTokens : Nat) :
    Possible (place TokenCounter.scripted first rest 0 state source beforeTokens)
      fun placement => placement = .retained := by
  refine (provisional_possible first rest 0 hnodup _ 0).bind fun tokens htokens => ?_
  rw [if_pos (by omega)]
  exact Possible.pure rfl

/-- A step can keep its item in full, and leaves what was selected. -/
theorem optionalStep_possible {summaries : List ReorganizationRecord}
    {done later : List SourceItem} {state : Reorganization} {source : SourceItem}
    (hfield : source.field ∈ ItemField.optional) (h : Balanced summaries done state)
    (hconsistent : Consistent (done ++ source :: later)) :
    Possible (optionalStep TokenCounter.scripted first rest 0 state source) fun next =>
      Balanced summaries (done ++ [source]) next ∧ state.selected.Within next.selected := by
  have hreturns : Possible (optionalStep TokenCounter.scripted first rest 0 state source)
      fun next => state.selected.Within next.selected := by
    obtain ⟨entries, h⟩ := h
    obtain ⟨result, hresult⟩ := h.remember_returns hconsistent
    refine (Possible.perform hresult).bind fun found hfound => ?_
    subst hfound
    rcases Reorganization.remember_ok hresult with ⟨rfl, _⟩ | ⟨rfl, hnew⟩
    · exact Possible.pure fun _ _ hitem => hitem
    · refine (countSurface_possible _ 0).bind fun beforeTokens _ => ?_
      have hretained := place_retained_possible first rest
        { state with seen := state.seen ++ [(source.identity, source.item)] }
        (h.append_nodup hnew rfl) beforeTokens
      refine hretained.bind fun placement hplacement => Possible.pure ?_
      subst hplacement
      exact Selection.within_append state.selected source.field source.item
  exact (hreturns.returns (optionalStep_balanced _ first rest 0 hfield h)).mono
    fun _ hboth => ⟨hboth.2, hboth.1⟩

/-! ## One cut -/

omit [Hashlib] [WireText] in
/-- A cut below the bound of the search changes an item. -/
theorem CapsuleItem.approximate_of_lt (item : CapsuleItem) (maxChars : Nat)
    (hlow : minApproximateChars ≤ maxChars) (hhigh : maxChars < item.maxChars) :
    item.approximate maxChars = some (item.truncated maxChars) ∧ item.truncated maxChars ≠ item := by
  have hcut {text : String} (hlength : maxChars < text.length) :
      truncateText maxChars text ≠ text := by
    have hmany : ¬ maxChars ≤ 1 := by
      unfold minApproximateChars at hlow
      omega
    intro hsame
    have hlengths := congrArg String.length hsame
    unfold truncateText sliceTo at hlengths
    rw [if_neg (by omega), if_neg hmany] at hlengths
    have hdots : "\u2026".length = 1 := rfl
    simp only [String.length_append, String.length_ofList, List.length_take, hdots,
      String.length_toList] at hlengths
    omega
  unfold CapsuleItem.approximate
  rw [if_neg (by omega)]
  cases item with
  | claim item =>
      refine ⟨rfl, fun hsame => hcut hhigh ?_⟩
      exact congrArg ClaimFields.text (CapsuleItem.claim.inj hsame)
  | decision item =>
      refine ⟨rfl, fun hsame => ?_⟩
      have hfields := CapsuleItem.decision.inj hsame
      rcases lt_max_iff.mp hhigh with htext | hrationale
      · exact hcut htext (congrArg DecisionFields.text hfields)
      · exact hcut hrationale (congrArg DecisionFields.rationale hfields)
  | entity item =>
      refine ⟨rfl, fun hsame => hcut hhigh ?_⟩
      exact congrArg EntityFields.canonicalName (CapsuleItem.entity.inj hsame)
  | anchor item => exact absurd hhigh (Nat.not_lt_zero _)
  | dependency item => exact absurd hhigh (Nat.not_lt_zero _)

/-- The search can find every length of its range: a copy fits when it is cut at `maxChars` or shorter. -/
theorem searchCopy_possible (state : Reorganization) {source : SourceItem} {maxChars : Nat}
    (hnodup : ∀ copy : CapsuleItem, copy.itemId = source.item.itemId →
      ∀ field, (state.selected.append source.field copy field).Nodup) :
    ∀ (passes low high : Nat) (best : Option (CapsuleItem × Nat)), high < low + passes →
      minApproximateChars ≤ low → high < source.item.maxChars →
      (low ≤ maxChars ∧ maxChars ≤ high) ∨
        (maxChars < low ∧ best = some (source.item.truncated maxChars, 0)) →
      Possible (searchCopy TokenCounter.scripted first rest 0 state source passes low high best)
        fun found => found = some (source.item.truncated maxChars, 0) := by
  intro passes
  induction passes with
  | zero =>
      intro low high best hpasses _ _ hrange
      rcases hrange with ⟨_, _⟩ | ⟨_, rfl⟩
      · omega
      · exact Possible.pure rfl
  | succ passes ih =>
      intro low high best hpasses hlow hhigh hrange
      unfold searchCopy
      by_cases hempty : high < low
      · rw [if_pos hempty]
        rcases hrange with ⟨_, _⟩ | ⟨_, rfl⟩
        · omega
        · exact Possible.pure rfl
      · rw [if_neg hempty]
        dsimp only
        obtain ⟨chars, hchars⟩ : ∃ chars, chars = (low + high) / 2 := ⟨_, rfl⟩
        rw [← hchars]
        obtain ⟨hcopy, hne⟩ := CapsuleItem.approximate_of_lt source.item chars (by omega)
          (by omega)
        rw [hcopy]
        dsimp only
        rw [if_neg hne]
        refine (countSurface_possible _ 0).bind fun afterTokens hafter => ?_
        subst hafter
        refine (countSurface_possible _ 0).bind fun beforeTokens _ => ?_
        have hprovisional := hnodup (source.item.truncated chars)
          (CapsuleItem.truncated_keeps chars source.item).1
        by_cases hfits : chars ≤ maxChars
        · refine (provisional_possible first rest 0 hprovisional _ 0).bind fun tokens htokens => ?_
          rw [if_pos (by omega)]
          refine ih (chars + 1) high _ (by omega) (by omega) hhigh ?_
          by_cases hfound : chars = maxChars
          · exact .inr ⟨by omega, by rw [hfound]⟩
          · exact .inl ⟨by omega, by omega⟩
        · refine (provisional_possible first rest 0 hprovisional _ 1).bind fun tokens htokens => ?_
          rw [if_neg (by omega)]
          refine ih low (chars - 1) best (by omega) hlow (by omega) ?_
          rcases hrange with ⟨_, _⟩ | hfound
          · exact .inl ⟨by omega, by omega⟩
          · exact .inr hfound

/-- A step over a new item can cut it at any length of the range of the search. -/
theorem optionalStep_cut_possible {summaries : List ReorganizationRecord}
    {done later : List SourceItem} {state : Reorganization} {source : SourceItem} {maxChars : Nat}
    (hfield : source.field ∈ ItemField.optional) (h : Balanced summaries done state)
    (hconsistent : Consistent (done ++ source :: later))
    (hnew : ∀ other ∈ done, other.identity ≠ source.identity)
    (hlow : minApproximateChars ≤ maxChars) (hhigh : maxChars < source.item.maxChars) :
    Possible (optionalStep TokenCounter.scripted first rest 0 state source) fun next =>
      Balanced summaries (done ++ [source]) next ∧
        source.item.truncated maxChars ∈ next.selected source.field := by
  have hreturns : Possible (optionalStep TokenCounter.scripted first rest 0 state source)
      fun next => source.item.truncated maxChars ∈ next.selected source.field := by
    obtain ⟨entries, h⟩ := h
    obtain ⟨result, hresult⟩ := h.remember_returns hconsistent
    refine (Possible.perform hresult).bind fun found hfound => ?_
    subst hfound
    rcases Reorganization.remember_ok hresult with ⟨rfl, hseen⟩ | ⟨rfl, hunseen⟩
    · rw [h.seen] at hseen
      obtain ⟨entry, hentry, heq⟩ := List.mem_map.mp hseen
      exact absurd (Prod.mk.inj heq).1 (hnew _ (h.origin entry hentry))
    · refine (countSurface_possible _ 0).bind fun beforeTokens _ => ?_
      have hcut : Possible (place TokenCounter.scripted first rest 0
          { state with seen := state.seen ++ [(source.identity, source.item)] } source beforeTokens)
          fun placement => placement = .approximate (source.item.truncated maxChars) 0 := by
        refine (provisional_possible first rest 0 (h.append_nodup hunseen rfl) _ 1).bind
          fun tokens htokens => ?_
        rw [if_neg (by omega)]
        have hsearch := searchCopy_possible first rest
          { state with seen := state.seen ++ [(source.identity, source.item)] }
          (fun copy hid => h.append_nodup hunseen hid) source.item.maxChars minApproximateChars
          (source.item.maxChars - 1) none (by omega) le_rfl (by omega)
          (.inl ⟨hlow, Nat.le_sub_one_of_lt hhigh⟩)
        refine hsearch.bind fun found hfound => ?_
        subst hfound
        exact Possible.pure rfl
      refine hcut.bind fun placement hplacement => Possible.pure ?_
      subst hplacement
      show source.item.truncated maxChars ∈ state.selected.append source.field _ source.field
      rw [Selection.append_apply, if_pos rfl]
      exact List.mem_append_right _ List.mem_cons_self
  exact (hreturns.returns (optionalStep_balanced _ first rest 0 hfield h)).mono
    fun _ hboth => ⟨hboth.2, hboth.1⟩

/-- The loop can keep all its items in full. -/
theorem optional_loop_possible {summaries : List ReorganizationRecord} {sources : List SourceItem} :
    ∀ {done : List SourceItem} {state : Reorganization},
      (∀ source ∈ sources, source.field ∈ ItemField.optional) → Balanced summaries done state →
      Consistent (done ++ sources) →
      Possible (sources.foldlM (optionalStep TokenCounter.scripted first rest 0) state) fun final =>
        Balanced summaries (done ++ sources) final ∧ state.selected.Within final.selected := by
  induction sources with
  | nil =>
      intro done state _ h _
      rw [List.append_nil]
      exact Possible.pure ⟨h, fun _ _ hitem => hitem⟩
  | cons source sources ih =>
      intro done state hfields h hconsistent
      rw [List.foldlM_cons]
      refine (optionalStep_possible first rest (hfields source List.mem_cons_self) h
        hconsistent).bind fun next hnext => ?_
      rw [List.append_cons] at hconsistent ⊢
      refine (ih (fun other hother => hfields other (List.mem_cons_of_mem _ hother)) hnext.1
        hconsistent).mono fun final hfinal => ⟨hfinal.1, ?_⟩
      exact fun field item hitem => hfinal.2 field item (hnext.2 field item hitem)

/-- The loop can cut any of its items at any length of the range of the search. -/
theorem optional_loop_cut_possible {summaries : List ReorganizationRecord}
    {sources : List SourceItem} {target : SourceItem} {maxChars : Nat}
    (hlow : minApproximateChars ≤ maxChars) (hhigh : maxChars < target.item.maxChars) :
    ∀ {done : List SourceItem} {state : Reorganization},
      (∀ source ∈ sources, source.field ∈ ItemField.optional) → Balanced summaries done state →
      Consistent (done ++ sources) → target ∈ sources →
      (∀ other ∈ done, other.identity ≠ target.identity) →
      Possible (sources.foldlM (optionalStep TokenCounter.scripted first rest 0) state) fun final =>
        Balanced summaries (done ++ sources) final ∧
          target.item.truncated maxChars ∈ final.selected target.field := by
  induction sources with
  | nil => exact fun _ _ _ hmem => absurd hmem List.not_mem_nil
  | cons source sources ih =>
      intro done state hfields h hconsistent hmem hnew
      have hrest : ∀ other ∈ sources, other.field ∈ ItemField.optional :=
        fun other hother => hfields other (List.mem_cons_of_mem _ hother)
      have hfield := hfields source List.mem_cons_self
      rw [List.foldlM_cons]
      by_cases hidentity : source.identity = target.identity
      · -- the first item of the identity is the one that is cut
        have hitem : source.item = target.item := hconsistent source
          (List.mem_append_right _ List.mem_cons_self) target (List.mem_append_right _ hmem) hidentity
        have hsame : source.field = target.field :=
          ItemField.kind_injective (Prod.mk.inj hidentity).1
        refine (optionalStep_cut_possible first rest hfield h hconsistent
          (fun other hother => hidentity ▸ hnew other hother) hlow (hitem ▸ hhigh)).bind
            fun next hnext => ?_
        rw [List.append_cons] at hconsistent ⊢
        refine (optional_loop_possible first rest hrest hnext.1 hconsistent).mono
          fun final hfinal => ⟨hfinal.1, ?_⟩
        rw [← hitem, ← hsame]
        exact hfinal.2 _ _ hnext.2
      · refine (optionalStep_possible first rest hfield h hconsistent).bind fun next hnext => ?_
        have hlater : target ∈ sources :=
          (List.mem_cons.mp hmem).resolve_left fun heq => hidentity (heq ▸ rfl)
        rw [List.append_cons] at hconsistent ⊢
        refine ih hrest hnext.1 hconsistent hlater fun other hother => ?_
        rcases List.mem_append.mp hother with hold | hlast
        · exact hnew other hold
        · rwa [List.mem_singleton.mp hlast]

/-! ## The whole -/

/-- The last count can fit. -/
theorem finishReorganization_possible {state : Reorganization} (beforeTokens : Nat)
    (hnodup : ∀ field, (state.selected field).Nodup) :
    Possible (finishReorganization TokenCounter.scripted first rest 0 beforeTokens state)
      fun result => result.capsule.items = state.selected := by
  obtain ⟨fields, hfields⟩ := buildCapsule_returns first rest 0 hnodup state.records
  have hreturns : Possible
      (finishReorganization TokenCounter.scripted first rest 0 beforeTokens state)
      fun _ => True := by
    refine (Possible.perform hfields).bind fun provisional _ => ?_
    refine (countSurface_possible _ 0).bind fun usedTokens hused => ?_
    rw [if_neg (by omega)]
    exact Possible.pure trivial
  exact (hreturns.returns (finishReorganization_result _ first rest 0 beforeTokens state)).mono
    fun _ hboth => hboth.2.1

/-- Capsules that a reorganization does not refuse whatever the counts are. -/
structure Reorganizable (capsules : List ContextCapsuleEnvelope) : Prop where
  inputs : validateReorganizationInputs capsules 0 = .ok ()
  session : ∀ capsule ∈ capsules, ∀ other ∈ capsules, capsule.sessionKey = other.sessionKey
  consistent : Consistent (sourceItems ItemField.all capsules)

/-- Every item that need not be kept can be cut at any length of the range of the search. -/
theorem reorganizeCapsules_cut_possible {capsules : List ContextCapsuleEnvelope}
    (h : Reorganizable capsules) {target : SourceItem}
    (htarget : target ∈ sourceItems ItemField.optional capsules) {maxChars : Nat}
    (hlow : minApproximateChars ≤ maxChars) (hhigh : maxChars < target.item.maxChars) :
    Possible (reorganizeCapsules TokenCounter.scripted capsules 0) fun result =>
      target.item.truncated maxChars ∈ result.capsule.items target.field := by
  have hperm : (orderedCapsules capsules).Perm capsules := List.perm_insertionSort _ _
  refine (Possible.perform h.inputs).bind fun _ _ => ?_
  have hmem : target ∈ sourceItems ItemField.optional (orderedCapsules capsules) :=
    mem_sourceItems_ordered.mpr htarget
  have hconsistent : Consistent (sourceItems ItemField.core (orderedCapsules capsules) ++
      sourceItems ItemField.optional (orderedCapsules capsules)) := by
    intro source hsource other hother
    rw [← mem_sourceItems_all, mem_sourceItems_ordered] at hsource hother
    exact h.consistent source hsource other hother
  cases hordered : orderedCapsules capsules with
  | nil =>
      rw [hordered] at hmem
      exact absurd hmem List.not_mem_nil
  | cons first rest =>
      rw [hordered] at hmem hconsistent hperm
      have hsession : ∀ item ∈ rest, item.sessionKey = first.sessionKey := fun item hitem =>
        h.session item (hperm.mem_iff.mp (List.mem_cons_of_mem _ hitem)) first
          (hperm.mem_iff.mp List.mem_cons_self)
      have hchecked : require (∀ item ∈ rest, item.sessionKey = first.sessionKey)
          (ReorganizationFailure.valueError "all capsules must use one session key") = .ok () :=
        require_ok.mpr hsession
      refine (Possible.perform hchecked).bind fun _ _ => ?_
      refine (countCapsules_possible _).bind fun beforeTokens _ => ?_
      have hcore : Consistent (sourceItems ItemField.core (first :: rest)) :=
        fun source hsource other hother => hconsistent source (List.mem_append_left _ hsource) other
          (List.mem_append_left _ hother)
      refine (selectMandatory_possible first rest hcore).bind fun mandatory hmandatory => ?_
      obtain ⟨summaries, hbalanced⟩ := hmandatory
      have hloop : Possible (selectOptional TokenCounter.scripted first rest 0 mandatory)
          fun final => Balanced summaries (sourceItems ItemField.core (first :: rest) ++
            sourceItems ItemField.optional (first :: rest)) final ∧
              target.item.truncated maxChars ∈ final.selected target.field := by
        refine optional_loop_cut_possible first rest hlow hhigh
          (fun source hsource => (mem_sourceItems.mp hsource).2.1) hbalanced hconsistent hmem ?_
        intro other hother hidentity
        have hfield : other.field = target.field :=
          ItemField.kind_injective (Prod.mk.inj hidentity).1
        have hotherCore := (mem_sourceItems.mp hother).2.1
        rw [hfield] at hotherCore
        exact ItemField.not_mem_optional_of_mem_core hotherCore (mem_sourceItems.mp hmem).2.1
      refine hloop.bind fun state hstate => ?_
      obtain ⟨⟨entries, hledger⟩, hcopy⟩ := hstate
      refine (finishReorganization_possible first rest beforeTokens
        hledger.selected_nodup).mono fun result hitems => ?_
      rw [hitems]
      exact hcopy

end Loops

end AstrContinuum
