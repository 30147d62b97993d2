import AstrContinuum.Reorganization.Reorganize

/-!
# The ledger of a reorganization

Every item that the loops meet for the first time is an entry of a ledger: where it is from, what became
of it, and its record. `Ledger` says how the variables of the loops follow from the entries. Every step
adds at most one entry, so a reorganization that returns ends with a ledger of all items.
-/

namespace AstrContinuum

open Checked Effects

/-! ## Shortened copies -/

/-- The semantic status of an item that has one. -/
def CapsuleItem.semanticStatus : CapsuleItem → Option SemanticStatus
  | .claim item => some item.status
  | .decision item => some item.status
  | .entity _ | .anchor _ | .dependency _ => none

/-- `copy` is a shortened copy of `item`. -/
def CapsuleItem.ShortenedFrom (copy item : CapsuleItem) : Prop :=
  copy ≠ item ∧ ∃ maxChars < item.maxChars, item.approximate maxChars = some copy

namespace CapsuleItem

/-- A shortened copy is cut at some length of at least eight. -/
theorem approximate_eq_some {item copy : CapsuleItem} {maxChars : Nat}
    (h : item.approximate maxChars = some copy) :
    minApproximateChars ≤ maxChars ∧ copy = item.truncated maxChars := by
  unfold approximate at h
  by_cases hchars : maxChars < minApproximateChars
  · simp [hchars] at h
  · rw [if_neg hchars] at h
    refine ⟨Nat.le_of_not_lt hchars, ?_⟩
    cases item with
    | anchor item => cases h
    | dependency item => cases h
    | _ => exact (Option.some.inj h).symm

/-- A copy keeps the id, the sources and the status. -/
theorem truncated_keeps (maxChars : Nat) (item : CapsuleItem) :
    (item.truncated maxChars).itemId = item.itemId ∧
      (item.truncated maxChars).sourceEventIds = item.sourceEventIds ∧
      (item.truncated maxChars).semanticStatus = item.semanticStatus := by
  cases item <;> exact ⟨rfl, rfl, rfl⟩

/-- A shortened copy keeps the id, the sources and the status. -/
theorem ShortenedFrom.keeps {copy item : CapsuleItem} (h : copy.ShortenedFrom item) :
    copy.itemId = item.itemId ∧ copy.sourceEventIds = item.sourceEventIds ∧
      copy.semanticStatus = item.semanticStatus := by
  obtain ⟨_, maxChars, _, hcopy⟩ := h
  rw [(approximate_eq_some hcopy).2]
  exact truncated_keeps maxChars item

end CapsuleItem

/-! ## Fields -/

namespace ItemField

/-- A kind belongs to one field. -/
theorem kind_injective : Function.Injective kind := by
  intro left right h
  cases left <;> cases right <;> first | rfl | (exact absurd h (by decide))

/-- A field is always kept or may be shortened. -/
theorem mem_core_or_optional (field : ItemField) : field ∈ core ∨ field ∈ optional := by
  cases field <;> decide

/-- No field is both. -/
theorem not_mem_optional_of_mem_core {field : ItemField} (h : field ∈ core) :
    field ∉ optional := by
  cases field <;> revert h <;> decide

/-- No item has the kind of a summary. -/
theorem kind_ne_summary (field : ItemField) : field.kind ≠ "narrative_summary" := by
  cases field <;> decide

/-- Every kind is visible. -/
theorem stripNonEmpty_kind (field : ItemField) : stripNonEmpty field.kind = true := by
  cases field <;> decide

end ItemField

/-- An item of some fields of some capsules. -/
theorem mem_sourceItems {fields : List ItemField} {capsules : List ContextCapsuleEnvelope}
    {source : SourceItem} :
    source ∈ sourceItems fields capsules ↔
      source.capsule ∈ capsules ∧ source.field ∈ fields ∧
        source.item ∈ source.capsule.items source.field := by
  obtain ⟨capsule, field, item⟩ := source
  simp only [sourceItems, List.mem_flatMap, List.mem_map, SourceItem.mk.injEq]
  constructor
  · rintro ⟨_, hcapsule, _, hfield, _, hitem, rfl, rfl, rfl⟩
    exact ⟨hcapsule, hfield, hitem⟩
  · rintro ⟨hcapsule, hfield, hitem⟩
    exact ⟨capsule, hcapsule, field, hfield, item, hitem, rfl, rfl, rfl⟩

/-! ## Placements -/

namespace Placement

/-- The status of a placement. -/
def status : Placement → ReorganizationStatus
  | .retained => .retained
  | .approximate _ _ => .approximate
  | .released => .released

/-- What enters the selection. -/
def copy (item : CapsuleItem) : Placement → Option CapsuleItem
  | .retained => some item
  | .approximate copy _ => some copy
  | .released => none

/-- Only an item that is not always kept is shortened or released. -/
def Allowed (source : SourceItem) : Placement → Prop
  | .retained => True
  | .approximate copy _ => source.field ∈ ItemField.optional ∧ copy.ShortenedFrom source.item
  | .released => source.field ∈ ItemField.optional

/-- What enters the selection is the item or a shortened copy. -/
theorem Allowed.copy {source : SourceItem} {placement : Placement} {copy : CapsuleItem}
    (h : placement.Allowed source) (hcopy : placement.copy source.item = some copy) :
    copy = source.item ∨ copy.ShortenedFrom source.item := by
  cases placement with
  | retained => exact .inl (Option.some.inj hcopy).symm
  | approximate shortened tokens =>
      obtain rfl := Option.some.inj hcopy
      exact .inr h.2
  | released => cases hcopy

end Placement

/-! ## The ledger -/

/-- An item that a loop met for the first time. -/
structure LedgerEntry where
  source : SourceItem
  placement : Placement
  record : ReorganizationRecord

namespace LedgerEntry

/-- The identity of the item. -/
def identity (entry : LedgerEntry) : String × String :=
  entry.source.identity

/-- What entered the selection. -/
def copy (entry : LedgerEntry) : Option CapsuleItem :=
  entry.placement.copy entry.source.item

/-- The record says what became of the item. -/
structure Sound (entry : LedgerEntry) : Prop where
  identity : (entry.record.kind, entry.record.itemId) = entry.identity
  sourceCapsuleId : entry.record.sourceCapsuleId = entry.source.capsule.capsuleId
  status : entry.record.status = entry.placement.status
  required : entry.record.required = true → entry.placement = .retained
  tokens : 0 ≤ entry.record.beforeTokens ∧ 0 ≤ entry.record.afterTokens
  allowed : entry.placement.Allowed entry.source

/-- The entry of an item that is placed. -/
def placed (source : SourceItem) (placement : Placement) (beforeTokens afterTokens : Nat)
    (required : Bool) : LedgerEntry :=
  ⟨source, placement, source.record placement.status beforeTokens afterTokens required⟩

/-- The entry of a placed item is sound. -/
theorem placed_sound {source : SourceItem} {placement : Placement} (beforeTokens afterTokens : Nat)
    {required : Bool} (hallowed : placement.Allowed source)
    (hrequired : required = true → placement = .retained) :
    (placed source placement beforeTokens afterTokens required).Sound where
  identity := rfl
  sourceCapsuleId := rfl
  status := rfl
  required := hrequired
  tokens := ⟨Int.natCast_nonneg _, Int.natCast_nonneg _⟩
  allowed := hallowed

/-- What entered the selection has the id of the item. -/
theorem Sound.copy_itemId {entry : LedgerEntry} {copy : CapsuleItem} (h : entry.Sound)
    (hcopy : entry.copy = some copy) : copy.itemId = entry.source.item.itemId := by
  obtain rfl | hshort := h.allowed.copy hcopy
  · rfl
  · exact hshort.keeps.1

end LedgerEntry

/-- The variables of the loops, when the items of `done` have passed and `summaries` are recorded. -/
structure Ledger (summaries : List ReorganizationRecord) (done : List SourceItem)
    (state : Reorganization) (entries : List LedgerEntry) : Prop where
  seen : state.seen = entries.map fun entry => (entry.identity, entry.source.item)
  selected : ∀ field, state.selected field =
    (entries.filter fun entry => entry.source.field = field).filterMap LedgerEntry.copy
  records : state.records.Perm (entries.map LedgerEntry.record ++ summaries)
  distinct : (entries.map LedgerEntry.identity).Nodup
  sound : ∀ entry ∈ entries, entry.Sound
  known : ∀ source ∈ done, ∃ entry ∈ entries, entry.identity = source.identity ∧
    entry.source.item = source.item
  origin : ∀ entry ∈ entries, entry.source ∈ done

/-- The variables are those of some ledger. -/
def Balanced (summaries : List ReorganizationRecord) (done : List SourceItem)
    (state : Reorganization) : Prop :=
  ∃ entries, Ledger summaries done state entries

/-- What the check of `seen` says. -/
theorem Reorganization.remember_ok {state : Reorganization} {source : SourceItem}
    {result : Option Reorganization} (h : state.remember source = .ok result) :
    (result = none ∧ (source.identity, source.item) ∈ state.seen) ∨
      (result = some { state with seen := state.seen ++ [(source.identity, source.item)] } ∧
        source.identity ∉ state.seen.map Prod.fst) := by
  unfold Reorganization.remember at h
  cases hlookup : state.seen.lookup source.identity with
  | some item =>
      rw [hlookup] at h
      obtain ⟨before, after, hseen, -⟩ := List.lookup_eq_some_iff.mp hlookup
      by_cases hitem : item = source.item
      · subst hitem
        refine .inl ⟨by simpa using h.symm, ?_⟩
        rw [hseen]
        exact List.mem_append_right _ List.mem_cons_self
      · simp [hitem] at h
  | none =>
      rw [hlookup] at h
      refine .inr ⟨by simpa using h.symm, ?_⟩
      intro hmem
      obtain ⟨pair, hpair, hfst⟩ := List.mem_map.mp hmem
      have hne := List.lookup_eq_none_iff.mp hlookup pair hpair
      simp [hfst] at hne

/-- What is selected after another item has entered. -/
theorem Selection.append_apply (selected : Selection) (field field' : ItemField)
    (item : CapsuleItem) :
    selected.append field item field' =
      selected field' ++ if field = field' then [item] else [] := by
  unfold Selection.append
  by_cases h : field = field'
  · subst h
    simp
  · rw [Function.update_of_ne (Ne.symm h), if_neg h, List.append_nil]

namespace Ledger

variable {summaries : List ReorganizationRecord} {done : List SourceItem} {state : Reorganization}
  {entries : List LedgerEntry} {source : SourceItem}

/-- No loop has run. -/
theorem start : Ledger [] [] {} [] where
  seen := rfl
  selected := fun _ => rfl
  records := List.Perm.refl _
  distinct := List.nodup_nil
  sound := by simp
  known := by simp
  origin := by simp

/-- An item that was met before changes nothing. -/
theorem repeated (h : Ledger summaries done state entries)
    (hseen : (source.identity, source.item) ∈ state.seen) :
    Ledger summaries (done ++ [source]) state entries where
  seen := h.seen
  selected := h.selected
  records := h.records
  distinct := h.distinct
  sound := h.sound
  known := by
    intro other hother
    rcases List.mem_append.mp hother with hdone | hlast
    · exact h.known other hdone
    · obtain rfl := List.mem_singleton.mp hlast
      rw [h.seen] at hseen
      obtain ⟨entry, hentry, heq⟩ := List.mem_map.mp hseen
      exact ⟨entry, hentry, (Prod.mk.inj heq).1, (Prod.mk.inj heq).2⟩
  origin := fun entry hentry => List.mem_append_left _ (h.origin entry hentry)

/-- A new item adds its entry. -/
theorem extended (h : Ledger summaries done state entries) {next : Reorganization}
    (entry : LedgerEntry) (hnew : entry.identity ∉ state.seen.map Prod.fst) (hsound : entry.Sound)
    (hseen : next.seen = state.seen ++ [(entry.identity, entry.source.item)])
    (hselected : ∀ field, next.selected field =
      state.selected field ++ if entry.source.field = field then entry.copy.toList else [])
    (hrecords : next.records = state.records ++ [entry.record]) :
    Ledger summaries (done ++ [entry.source]) next (entries ++ [entry]) where
  seen := by rw [hseen, h.seen, List.map_append, List.map_singleton]
  selected := by
    intro field
    rw [hselected, h.selected, List.filter_append, List.filterMap_append, List.filter_singleton]
    by_cases hfield : entry.source.field = field
    · cases hcopy : entry.copy <;> simp [hfield, hcopy]
    · simp [hfield]
  records := by
    rw [hrecords, List.map_append, List.map_singleton, List.append_assoc]
    refine (h.records.append_right _).trans ?_
    rw [List.append_assoc]
    exact List.Perm.append_left _ List.perm_append_comm
  distinct := by
    rw [List.map_append, List.map_singleton]
    refine List.Nodup.append h.distinct (List.nodup_singleton _) ?_
    rw [List.disjoint_singleton]
    rw [h.seen, List.map_map] at hnew
    exact hnew
  sound := by
    intro other hother
    rcases List.mem_append.mp hother with hold | hlast
    · exact h.sound other hold
    · obtain rfl := List.mem_singleton.mp hlast
      exact hsound
  known := by
    intro other hother
    rcases List.mem_append.mp hother with hdone | hlast
    · obtain ⟨known, hknown, heq⟩ := h.known other hdone
      exact ⟨known, List.mem_append_left _ hknown, heq⟩
    · obtain rfl := List.mem_singleton.mp hlast
      exact ⟨entry, List.mem_append_right _ List.mem_cons_self, rfl, rfl⟩
  origin := by
    intro other hother
    rcases List.mem_append.mp hother with hold | hlast
    · exact List.mem_append_left _ (h.origin other hold)
    · obtain rfl := List.mem_singleton.mp hlast
      exact List.mem_append_right _ List.mem_cons_self

/-- An identity has one entry. -/
theorem eq_of_identity (h : Ledger summaries done state entries) {entry other : LedgerEntry}
    (hentry : entry ∈ entries) (hother : other ∈ entries)
    (hidentity : entry.identity = other.identity) : entry = other :=
  List.inj_on_of_nodup_map h.distinct hentry hother hidentity

/-- The entry of an item that has passed. -/
theorem exists_entry (h : Ledger summaries done state entries) {source : SourceItem}
    (hsource : source ∈ done) :
    ∃ entry ∈ entries, entry.identity = source.identity ∧ entry.source.field = source.field ∧
      entry.source.item = source.item := by
  obtain ⟨entry, hentry, hidentity, hitem⟩ := h.known source hsource
  have hkind : entry.source.field.kind = source.field.kind := (Prod.mk.inj hidentity).1
  exact ⟨entry, hentry, hidentity, ItemField.kind_injective hkind, hitem⟩

/-- What is selected is what the entries of the field have entered. -/
theorem mem_selected (h : Ledger summaries done state entries) {field : ItemField}
    {copy : CapsuleItem} :
    copy ∈ state.selected field ↔
      ∃ entry ∈ entries, entry.source.field = field ∧ entry.copy = some copy := by
  simp [h.selected, and_assoc]

/-- What is selected under the id of an item is what its entry has entered. -/
theorem selected_of_entry (h : Ledger summaries done state entries) {entry : LedgerEntry}
    (hentry : entry ∈ entries) {copy : CapsuleItem} :
    (copy ∈ state.selected entry.source.field ∧ copy.itemId = entry.source.item.itemId) ↔
      entry.copy = some copy := by
  constructor
  · rintro ⟨hcopy, hid⟩
    obtain ⟨other, hother, hfield, hothercopy⟩ := h.mem_selected.mp hcopy
    have hotherid := (h.sound other hother).copy_itemId hothercopy
    have hidentity : other.identity = entry.identity := by
      unfold LedgerEntry.identity SourceItem.identity
      rw [hfield, ← hotherid, hid]
    rw [← h.eq_of_identity hother hentry hidentity]
    exact hothercopy
  · intro hcopy
    exact ⟨h.mem_selected.mpr ⟨entry, hentry, rfl, hcopy⟩, (h.sound entry hentry).copy_itemId hcopy⟩

/-- The ids of what is selected in a field are distinct. -/
theorem selected_distinct (h : Ledger summaries done state entries) (field : ItemField) :
    ((state.selected field).map CapsuleItem.itemId).Nodup := by
  have hentries : entries.Pairwise fun left right => left.identity ≠ right.identity :=
    List.pairwise_map.mp h.distinct
  have hfiltered := hentries.filter fun entry => entry.source.field = field
  rw [h.selected, List.Nodup, List.pairwise_map, List.pairwise_filterMap]
  refine hfiltered.imp_of_mem fun {left right} hleft hright hne copy hcopy copy' hcopy' hid => ?_
  obtain ⟨hleft, hleftfield⟩ := List.mem_filter.mp hleft
  obtain ⟨hright, hrightfield⟩ := List.mem_filter.mp hright
  have hleftid := (h.sound left hleft).copy_itemId hcopy
  have hrightid := (h.sound right hright).copy_itemId hcopy'
  refine hne ?_
  unfold LedgerEntry.identity SourceItem.identity
  rw [of_decide_eq_true hleftfield, of_decide_eq_true hrightfield, ← hleftid, ← hrightid, hid]

/-- What is selected has no repeated items. -/
theorem selected_nodup (h : Ledger summaries done state entries) (field : ItemField) :
    (state.selected field).Nodup :=
  (h.selected_distinct field).of_map

/-- A copy of an item that was not met before repeats nothing. -/
theorem append_nodup (h : Ledger summaries done state entries)
    (hnew : source.identity ∉ state.seen.map Prod.fst) {copy : CapsuleItem}
    (hid : copy.itemId = source.item.itemId) (field : ItemField) :
    (state.selected.append source.field copy field).Nodup := by
  rw [Selection.append_apply]
  by_cases hfield : source.field = field
  · subst hfield
    rw [if_pos rfl]
    refine List.Nodup.append (h.selected_nodup _) (List.nodup_singleton _) ?_
    rw [List.disjoint_singleton]
    intro hcopy
    obtain ⟨entry, hentry, hentryfield, hentrycopy⟩ := h.mem_selected.mp hcopy
    have hentryid := (h.sound entry hentry).copy_itemId hentrycopy
    have hidentity : entry.identity = source.identity := by
      unfold LedgerEntry.identity SourceItem.identity
      rw [hentryfield, ← hentryid, hid]
    rw [h.seen, List.map_map] at hnew
    exact hnew (List.mem_map.mpr ⟨entry, hentry, hidentity⟩)
  · rw [if_neg hfield, List.append_nil]
    exact h.selected_nodup field

/-- Anchors and dependencies are selected as they are. -/
theorem core_selected (h : Ledger summaries done state entries) {source : SourceItem}
    (hsource : source ∈ done) (hfield : source.field ∈ ItemField.core) :
    source.item ∈ state.selected source.field := by
  obtain ⟨entry, hentry, _, hentryfield, hitem⟩ := h.exists_entry hsource
  have hallowed := (h.sound entry hentry).allowed
  have hoptional := ItemField.not_mem_optional_of_mem_core hfield
  rw [← hentryfield] at hoptional
  have hcopy : entry.copy = some source.item := by
    cases hplacement : entry.placement with
    | retained => simp [LedgerEntry.copy, hplacement, Placement.copy, hitem]
    | approximate copy tokens =>
        rw [hplacement] at hallowed
        exact absurd hallowed.1 hoptional
    | released =>
        rw [hplacement] at hallowed
        exact absurd hallowed hoptional
  rw [← hentryfield]
  exact h.mem_selected.mpr ⟨entry, hentry, rfl, hcopy⟩

end Ledger

/-! ## The loops -/

section Loops

variable {σ : Type} [Hashlib] [WireText] (counter : TokenCounter σ)

omit [Hashlib] in
/-- The loop over anchors and dependencies keeps a ledger. -/
theorem coreStep_balanced {done : List SourceItem} {state : Reorganization} {source : SourceItem}
    (h : Balanced [] done state) :
    Returns (coreStep counter state source) (Balanced [] (done ++ [source])) := by
  obtain ⟨entries, h⟩ := h
  have hremember : Returns (ε := ReorganizationFailure) (σ := σ) (perform (state.remember source))
      fun result => state.remember source = .ok result :=
    Returns.perform fun _ hresult => hresult
  refine hremember.bind fun result hresult => ?_
  rcases Reorganization.remember_ok hresult with ⟨rfl, hseen⟩ | ⟨rfl, hnew⟩
  · exact Returns.pure ⟨entries, h.repeated hseen⟩
  · refine Returns.after fun tokens => Returns.pure ?_
    refine ⟨_, h.extended (LedgerEntry.placed source .retained tokens tokens true) hnew
      (LedgerEntry.placed_sound tokens tokens trivial fun _ => rfl) rfl ?_ rfl⟩
    exact fun field => Selection.append_apply state.selected source.field field source.item

/-- The record of the released summary of a capsule. -/
structure SummaryOf (capsule : ContextCapsuleEnvelope) (record : ReorganizationRecord) : Prop where
  kind : record.kind = "narrative_summary"
  itemId : record.itemId = capsule.capsuleId ++ ":narrative_summary"
  sourceCapsuleId : record.sourceCapsuleId = capsule.capsuleId
  status : record.status = .released
  required : record.required = false
  tokens : 0 ≤ record.beforeTokens ∧ 0 ≤ record.afterTokens

/-- One summary record for every capsule, in their order. -/
structure Summaries (capsules : List ContextCapsuleEnvelope) (summaries : List ReorganizationRecord) :
    Prop where
  sources : summaries.map ReorganizationRecord.sourceCapsuleId =
    capsules.map fun capsule => capsule.capsuleId
  each : ∀ record ∈ summaries, ∃ capsule ∈ capsules, SummaryOf capsule record

omit [Hashlib] [WireText] in
/-- The loop over the summaries records one for each capsule. -/
theorem summaryStep_summaries (records : List ReorganizationRecord)
    (capsules : List ContextCapsuleEnvelope) :
    Returns (capsules.foldlM (summaryStep counter) records) fun result =>
      ∃ summaries, Summaries capsules summaries ∧ result = records ++ summaries := by
  refine Returns.foldlM (fun done result =>
    ∃ summaries, Summaries done summaries ∧ result = records ++ summaries) ?_ ?_
  · exact ⟨[], ⟨rfl, by simp⟩, (List.append_nil _).symm⟩
  · rintro done capsule result - ⟨summaries, h, rfl⟩
    refine Returns.after fun tokens => Returns.pure ?_
    refine ⟨_, ⟨?_, ?_⟩, List.append_assoc records summaries _⟩
    · rw [List.map_append, List.map_append, h.sources]
      rfl
    · intro record hrecord
      rcases List.mem_append.mp hrecord with hold | hlast
      · obtain ⟨owner, howner, hsummary⟩ := h.each record hold
        exact ⟨owner, List.mem_append_left _ howner, hsummary⟩
      · obtain rfl := List.mem_singleton.mp hlast
        exact ⟨capsule, List.mem_append_right _ List.mem_cons_self,
          ⟨rfl, rfl, rfl, rfl, rfl, Int.natCast_nonneg _, le_refl 0⟩⟩

variable (first : ContextCapsuleEnvelope) (rest : List ContextCapsuleEnvelope) (tokenBudget : Nat)

/-- What the search finds is a shortened copy. -/
theorem searchCopy_shortened (state : Reorganization) (source : SourceItem) :
    ∀ (passes low high : Nat) (best : Option (CapsuleItem × Nat)),
      high < low ∨ high < source.item.maxChars →
      (∀ found ∈ best, found.1.ShortenedFrom source.item) →
      Returns (searchCopy counter first rest tokenBudget state source passes low high best)
        fun result => ∀ found ∈ result, found.1.ShortenedFrom source.item := by
  intro passes
  induction passes with
  | zero => exact fun _ _ _ _ hbest => Returns.pure hbest
  | succ passes ih =>
      intro low high best hrange hbest
      unfold searchCopy
      refine Returns.ite (fun _ => Returns.pure hbest) fun hlow => ?_
      have hchars : (low + high) / 2 < source.item.maxChars := by omega
      have hbelow := ih low ((low + high) / 2 - 1) best (.inr (by omega)) hbest
      dsimp only
      cases hcandidate : source.item.approximate ((low + high) / 2) with
      | none => exact hbelow
      | some candidate =>
          refine Returns.ite (fun _ => hbelow) fun hne => ?_
          refine Returns.after fun afterTokens => Returns.after fun beforeTokens =>
            Returns.after fun candidateTokens => ?_
          refine Returns.ite (fun _ => ih _ _ _ (.inr (by omega)) ?_) fun _ => hbelow
          intro found hfound
          obtain rfl := Option.mem_some.mp hfound
          exact ⟨hne, _, hchars, hcandidate⟩

/-- What becomes of an item that need not be kept. -/
theorem place_allowed {source : SourceItem} (hfield : source.field ∈ ItemField.optional)
    (state : Reorganization) (beforeTokens : Nat) :
    Returns (place counter first rest tokenBudget state source beforeTokens)
      fun placement => placement.Allowed source := by
  refine Returns.after fun candidateTokens => ?_
  refine Returns.ite (fun _ => Returns.pure trivial) fun _ => ?_
  have hrange : source.item.maxChars - 1 < minApproximateChars ∨
      source.item.maxChars - 1 < source.item.maxChars := by
    unfold minApproximateChars
    omega
  refine (searchCopy_shortened counter first rest tokenBudget state source _ _ _ none hrange
    (by simp)).bind fun found hfound => ?_
  cases found with
  | none => exact Returns.pure hfield
  | some copy => exact Returns.pure ⟨hfield, hfound copy rfl⟩

/-- The loop over the other items keeps a ledger. -/
theorem optionalStep_balanced {summaries : List ReorganizationRecord} {done : List SourceItem}
    {state : Reorganization} {source : SourceItem} (hfield : source.field ∈ ItemField.optional)
    (h : Balanced summaries done state) :
    Returns (optionalStep counter first rest tokenBudget state source)
      (Balanced summaries (done ++ [source])) := by
  obtain ⟨entries, h⟩ := h
  have hremember : Returns (ε := ReorganizationFailure) (σ := σ) (perform (state.remember source))
      fun result => state.remember source = .ok result :=
    Returns.perform fun _ hresult => hresult
  refine hremember.bind fun result hresult => ?_
  rcases Reorganization.remember_ok hresult with ⟨rfl, hseen⟩ | ⟨rfl, hnew⟩
  · exact Returns.pure ⟨entries, h.repeated hseen⟩
  · refine Returns.after fun beforeTokens => ?_
    refine (place_allowed counter first rest tokenBudget hfield _ beforeTokens).bind
      fun placement hallowed => Returns.pure ?_
    have hnotRequired {placement : Placement} : false = true → placement = .retained :=
      fun hfalse => nomatch hfalse
    cases placement with
    | retained =>
        refine ⟨_, h.extended (LedgerEntry.placed source .retained beforeTokens beforeTokens false)
          hnew (LedgerEntry.placed_sound _ _ hallowed hnotRequired) rfl ?_ rfl⟩
        exact fun field => Selection.append_apply state.selected source.field field source.item
    | approximate copy tokens =>
        refine ⟨_, h.extended
          (LedgerEntry.placed source (.approximate copy tokens) beforeTokens tokens false)
          hnew (LedgerEntry.placed_sound _ _ hallowed hnotRequired) rfl ?_ rfl⟩
        exact fun field => Selection.append_apply state.selected source.field field copy
    | released =>
        refine ⟨_, h.extended (LedgerEntry.placed source .released beforeTokens 0 false)
          hnew (LedgerEntry.placed_sound _ _ hallowed hnotRequired) rfl ?_ rfl⟩
        intro field
        show state.selected field = state.selected field ++ if source.field = field then [] else []
        rw [ite_self, List.append_nil]

/-- What is always kept goes through a ledger, and leaves one summary record for every capsule. -/
theorem selectMandatory_balanced :
    Returns (selectMandatory counter first rest tokenBudget) fun state =>
      ∃ summaries, Summaries (first :: rest) summaries ∧
        Balanced summaries (sourceItems ItemField.core (first :: rest)) state := by
  have hcore : Returns ((sourceItems ItemField.core (first :: rest)).foldlM (coreStep counter) {})
      (Balanced [] (sourceItems ItemField.core (first :: rest))) :=
    Returns.foldlM (Balanced []) ⟨[], Ledger.start⟩ fun done source state _ h =>
      coreStep_balanced counter h
  refine hcore.bind fun state hstate => ?_
  refine (summaryStep_summaries counter state.records (first :: rest)).bind fun records hrecords => ?_
  refine Returns.after fun mandatoryTokens => ?_
  refine Returns.ite (fun _ => Returns.throw) fun _ => Returns.pure ?_
  obtain ⟨entries, h⟩ := hstate
  obtain ⟨summaries, hsummaries, rfl⟩ := hrecords
  refine ⟨summaries, hsummaries, entries, { h with records := ?_ }⟩
  have hentries : state.records.Perm (entries.map LedgerEntry.record) := by
    simpa using h.records
  exact hentries.append_right summaries

/-- The loop over the other items ends with a ledger of all items. -/
theorem selectOptional_balanced {summaries : List ReorganizationRecord} {state : Reorganization}
    (h : Balanced summaries (sourceItems ItemField.core (first :: rest)) state) :
    Returns (selectOptional counter first rest tokenBudget state)
      (Balanced summaries (sourceItems ItemField.core (first :: rest) ++
        sourceItems ItemField.optional (first :: rest))) := by
  refine Returns.foldlM (fun done => Balanced summaries
    (sourceItems ItemField.core (first :: rest) ++ done)) ?_ ?_
  · simpa using h
  · intro done source state hsource hstate
    rw [← List.append_assoc]
    exact optionalStep_balanced counter first rest tokenBudget (mem_sourceItems.mp hsource).2.1
      hstate

omit [WireText] in
/-- The capsule that is built of a selection. -/
theorem buildCapsule_ok [WireText] {selected : Selection} {records : List ReorganizationRecord}
    {fields : CapsuleFields}
    (h : buildCapsule first rest selected records tokenBudget = .ok fields) :
    fields.items = selected ∧ fields.quality.coverageGap = nonSummaryReleaseCount records ∧
      fields.Checks := by
  unfold buildCapsule at h
  obtain ⟨hcoverage, h⟩ | ⟨-, h⟩ := dite_eq_iff.mp h
  · obtain ⟨_, hchecks, h⟩ := bind_ok.mp h
    obtain rfl := pure_ok.mp h
    exact ⟨rfl, rfl, require_ok.mp hchecks⟩
  · exact absurd h throw_ok

/-- The figures of the result are those of the last variables. -/
theorem finishReorganization_result (beforeTokens : Nat) (state : Reorganization) :
    Returns (finishReorganization counter first rest tokenBudget beforeTokens state) fun result =>
      result.capsule.items = state.selected ∧ result.records = state.records ∧
        result.afterTokens ≤ tokenBudget ∧ result.capsule.tokenCost = result.afterTokens ∧
        result.capsule.quality.coverageGap = nonSummaryReleaseCount result.records ∧
        result.capsule.Checks := by
  have hbuild : Returns (ε := ReorganizationFailure) (σ := σ)
      (perform (buildCapsule first rest state.selected state.records tokenBudget)) fun fields =>
        fields.items = state.selected ∧
          fields.quality.coverageGap = nonSummaryReleaseCount state.records ∧ fields.Checks :=
    Returns.perform fun _ h => buildCapsule_ok first rest tokenBudget h
  refine hbuild.bind fun fields hfields => Returns.after fun usedTokens => ?_
  refine Returns.ite (fun _ => Returns.throw) fun hused => Returns.pure ?_
  exact ⟨hfields.1, rfl, Nat.le_of_not_lt hused, rfl, hfields.2.1, hfields.2.2⟩

end Loops

/-! ## The whole -/

/-- An item of some capsules is one that is always kept or one of the others. -/
theorem mem_sourceItems_all {capsules : List ContextCapsuleEnvelope} {source : SourceItem} :
    source ∈ sourceItems ItemField.all capsules ↔
      source ∈ sourceItems ItemField.core capsules ++ sourceItems ItemField.optional capsules := by
  simp only [List.mem_append, mem_sourceItems, ItemField.mem_all, true_and]
  have hfield := ItemField.mem_core_or_optional source.field
  tauto

/-- The order of the capsules does not change their items. -/
theorem mem_sourceItems_ordered {fields : List ItemField} {capsules : List ContextCapsuleEnvelope}
    {source : SourceItem} :
    source ∈ sourceItems fields (orderedCapsules capsules) ↔ source ∈ sourceItems fields capsules := by
  rw [mem_sourceItems, mem_sourceItems, orderedCapsules, List.mem_insertionSort]

section Whole

variable {σ : Type} [Hashlib] [WireText] (counter : TokenCounter σ)

/-- A reorganization that returns ends with a ledger of all items, in the order of the ids. -/
theorem reorganizeCapsules_ledger (capsules : List ContextCapsuleEnvelope) (tokenBudget : Int) :
    Returns (reorganizeCapsules counter capsules tokenBudget) fun result =>
      ∃ summaries entries state, Summaries (orderedCapsules capsules) summaries ∧
        Ledger summaries (sourceItems ItemField.core (orderedCapsules capsules) ++
          sourceItems ItemField.optional (orderedCapsules capsules)) state entries ∧
        result.capsule.items = state.selected ∧ result.records = state.records ∧
        (result.afterTokens : Int) ≤ tokenBudget ∧
        result.capsule.tokenCost = result.afterTokens ∧
        result.capsule.quality.coverageGap = nonSummaryReleaseCount result.records ∧
        result.capsule.Checks := by
  have hinputs : Returns (ε := ReorganizationFailure) (σ := σ)
      (perform (validateReorganizationInputs capsules tokenBudget)) fun _ => 0 ≤ tokenBudget := by
    refine Returns.perform fun _ h => ?_
    obtain ⟨_, hbudget, _⟩ := bind_ok.mp h
    exact require_ok.mp hbudget
  refine hinputs.bind fun _ hbudget => ?_
  cases orderedCapsules capsules with
  | nil => exact Returns.throw
  | cons first rest =>
      refine Returns.after fun _ => Returns.after fun beforeTokens => ?_
      refine (selectMandatory_balanced counter first rest tokenBudget.toNat).bind
        fun mandatory hmandatory => ?_
      obtain ⟨summaries, hsummaries, hbalanced⟩ := hmandatory
      refine (selectOptional_balanced counter first rest tokenBudget.toNat hbalanced).bind
        fun state hstate => ?_
      obtain ⟨entries, hledger⟩ := hstate
      refine (finishReorganization_result counter first rest tokenBudget.toNat beforeTokens
        state).mono fun result hresult => ?_
      obtain ⟨hitems, hrecords, hafter, hcost, hgap, hchecks⟩ := hresult
      refine ⟨summaries, entries, state, hsummaries, hledger, hitems, hrecords, ?_, hcost, hgap,
        hchecks⟩
      omega

end Whole

end AstrContinuum
