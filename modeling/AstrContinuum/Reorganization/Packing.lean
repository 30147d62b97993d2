import AstrContinuum.Reorganization.Bytes

/-!
# Packing by bytes

The runs of a reorganization under `Utf8ByteTokenCounter`. Every item that enters the selection enters a
selection that fits (`optionalStep_packs`), so the selection that is left at the end fits with the release
counter that it had when its last item entered. No loop fails on consistent items.
-/

namespace Effects

variable {ε σ α β : Type} {raises : ε → σ → Prop} {post : α → σ → Prop} {s : σ}

/-- What every returned value satisfies may be added. -/
theorem Ends.returns {x : EStateM ε σ α} {always : α → Prop} (h : Ends raises post x s)
    (halways : Returns x always) : Ends raises (fun a s' => post a s' ∧ always a) x s := by
  unfold Ends at h ⊢
  cases hx : x s with
  | ok a s' =>
      rw [hx] at h
      exact ⟨h, halways s a s' hx⟩
  | error e s' =>
      rw [hx] at h
      exact h

/-- A first part that is known to return is passed. -/
theorem Ends.returned {x : EStateM ε σ α} {f : α → EStateM ε σ β} {last : β → σ → Prop} {a : α}
    {s' : σ} (hx : x s = .ok a s') (hnext : Ends raises last (f a) s') :
    Ends raises last (x >>= f) s := by
  show Ends raises last (EStateM.bind x f) s
  simpa only [Ends, EStateM.bind, hx] using hnext

end Effects

namespace AstrContinuum

open Checked Effects

/-- `Utf8ByteTokenCounter`. -/
def utf8ByteTokenCounter : TokenCounter Unit where
  countText text s := (.integer text.utf8ByteSize, s)

/-- The computation returns a value with the property `post`. -/
abbrev Gives {α : Type} (x : EStateM ReorganizationFailure Unit α) (post : α → Prop) : Prop :=
  Ends (fun _ _ => False) (fun a _ => post a) x ()

/-- A count is the number of bytes. -/
theorem countSurface_utf8 (text : String) :
    countSurface utf8ByteTokenCounter text () = .ok text.utf8ByteSize () := by
  unfold countSurface utf8ByteTokenCounter
  simp

/-- Another record that is not one of a released item leaves the release counter. -/
theorem nonSummaryReleaseCount_append {records : List ReorganizationRecord}
    {record : ReorganizationRecord} (h : record.status ≠ .released) :
    nonSummaryReleaseCount (records ++ [record]) = nonSummaryReleaseCount records := by
  unfold nonSummaryReleaseCount
  rw [List.filter_append, List.filter_singleton, decide_eq_false h]
  simp

/-! ## The release counter -/

/-- The identities of the items that may be released. -/
def optionalIdentities (capsules : List ContextCapsuleEnvelope) : List (String × String) :=
  ((sourceItems ItemField.optional capsules).map SourceItem.identity).dedup

/-- The anchors and dependencies of some capsules, each once. -/
def coreSelection (capsules : List ContextCapsuleEnvelope) : Selection := fun field =>
  if field ∈ ItemField.core then (capsules.flatMap fun capsule => capsule.items field).dedup else []

namespace Ledger

variable {summaries : List ReorganizationRecord} {done : List SourceItem} {state : Reorganization}
  {entries : List LedgerEntry} {capsules : List ContextCapsuleEnvelope}

/-- The release counter counts the entries of released items. -/
theorem released_eq (h : Ledger summaries done state entries)
    (hsummaries : Summaries capsules summaries) :
    nonSummaryReleaseCount state.records =
      entries.countP fun entry => entry.placement.status = .released := by
  have hcount (records : List ReorganizationRecord) : nonSummaryReleaseCount records =
      records.countP fun record => record.status = .released ∧ record.kind ≠ "narrative_summary" := by
    unfold nonSummaryReleaseCount
    rw [List.countP_eq_length_filter]
    simp only [Bool.decide_and]
  have hnone : (summaries.countP fun record =>
      record.status = .released ∧ record.kind ≠ "narrative_summary") = 0 := by
    refine List.countP_eq_zero.mpr fun record hrecord hreleased => ?_
    obtain ⟨_, _, hsummary⟩ := hsummaries.each record hrecord
    exact (of_decide_eq_true hreleased).2 hsummary.kind
  rw [hcount, h.records.countP_eq, List.countP_append, hnone, List.countP_map, Nat.add_zero]
  refine List.countP_congr fun entry hentry => ?_
  have hsound := h.sound entry hentry
  have hkind : entry.record.kind = entry.source.field.kind := (Prod.mk.inj hsound.identity).1
  simp [hsound.status, hkind, ItemField.kind_ne_summary]

/-- Only items that may be released are released. -/
theorem released_le (h : Ledger summaries done state entries)
    (hsummaries : Summaries capsules summaries) :
    nonSummaryReleaseCount state.records ≤
      entries.countP fun entry => entry.source.field ∈ ItemField.optional := by
  rw [h.released_eq hsummaries]
  refine List.countP_mono_left fun entry hentry hreleased => ?_
  have hallowed := (h.sound entry hentry).allowed
  rw [decide_eq_true_eq] at hreleased ⊢
  cases hplacement : entry.placement with
  | retained => simp [hplacement, Placement.status] at hreleased
  | approximate copy tokens => simp [hplacement, Placement.status] at hreleased
  | released =>
      rw [hplacement] at hallowed
      exact hallowed

/-- Where no such item is selected, all are released. -/
theorem released_of_empty (h : Ledger summaries done state entries)
    (hsummaries : Summaries capsules summaries)
    (hempty : ∀ field ∈ ItemField.optional, state.selected field = []) :
    nonSummaryReleaseCount state.records =
      entries.countP fun entry => entry.source.field ∈ ItemField.optional := by
  refine le_antisymm (h.released_le hsummaries) ?_
  rw [h.released_eq hsummaries]
  refine List.countP_mono_left fun entry hentry hoptional => ?_
  rw [decide_eq_true_eq] at hoptional ⊢
  have hnone (copy : CapsuleItem) : entry.copy ≠ some copy := fun hcopy => by
    have hmem := h.mem_selected.mpr ⟨entry, hentry, rfl, hcopy⟩
    rw [hempty _ hoptional] at hmem
    exact List.not_mem_nil hmem
  cases hplacement : entry.placement with
  | retained =>
      have hcopy : entry.copy = some entry.source.item := by
        rw [LedgerEntry.copy, hplacement, Placement.copy]
      exact absurd hcopy (hnone _)
  | approximate copy tokens =>
      have hcopy : entry.copy = some copy := by
        rw [LedgerEntry.copy, hplacement, Placement.copy]
      exact absurd hcopy (hnone _)
  | released => rfl

/-- There is one entry for each identity. -/
theorem optional_entries (h : Ledger summaries (sourceItems ItemField.core capsules ++
      sourceItems ItemField.optional capsules) state entries) :
    (entries.countP fun entry => entry.source.field ∈ ItemField.optional) =
      (optionalIdentities capsules).length := by
  have hperm : ((entries.filter fun entry => entry.source.field ∈ ItemField.optional).map
      LedgerEntry.identity).Perm (optionalIdentities capsules) := by
    refine (List.perm_ext_iff_of_nodup ?_ (List.nodup_dedup _)).mpr fun identity => ?_
    · exact h.distinct.sublist ((List.filter_sublist).map _)
    · simp only [List.mem_map, List.mem_filter, decide_eq_true_eq, List.mem_dedup]
      constructor
      · rintro ⟨entry, ⟨hentry, hfield⟩, rfl⟩
        refine ⟨entry.source, ?_, rfl⟩
        rcases List.mem_append.mp (h.origin entry hentry) with hcore | hoptional
        · exact absurd hfield
            (ItemField.not_mem_optional_of_mem_core (mem_sourceItems.mp hcore).2.1)
        · exact hoptional
      · rintro ⟨source, hsource, rfl⟩
        obtain ⟨entry, hentry, hidentity, hfield, _⟩ :=
          h.exists_entry (List.mem_append_right _ hsource)
        refine ⟨entry, ⟨hentry, ?_⟩, hidentity⟩
        rw [hfield]
        exact (mem_sourceItems.mp hsource).2.1
  rw [← hperm.length_eq, List.length_map, List.countP_eq_length_filter]

/-- After the first loop nothing but the anchors and dependencies is selected. -/
theorem selected_core (h : Ledger summaries (sourceItems ItemField.core capsules) state entries)
    (field : ItemField) : (state.selected field).Perm (coreSelection capsules field) := by
  have hentryfield : ∀ entry ∈ entries, entry.source.field ∈ ItemField.core := fun entry hentry =>
    (mem_sourceItems.mp (h.origin entry hentry)).2.1
  unfold coreSelection
  by_cases hfield : field ∈ ItemField.core
  · rw [if_pos hfield]
    refine (List.perm_ext_iff_of_nodup (h.selected_nodup field) (List.nodup_dedup _)).mpr fun item => ?_
    rw [List.mem_dedup, List.mem_flatMap]
    constructor
    · intro hitem
      obtain ⟨entry, hentry, rfl, hcopy⟩ := h.mem_selected.mp hitem
      obtain ⟨hcapsule, _, hsource⟩ := mem_sourceItems.mp (h.origin entry hentry)
      have hkept := h.core_selected (h.origin entry hentry) hfield
      have hsame := (h.selected_of_entry hentry).mp ⟨hkept, rfl⟩
      rw [hcopy] at hsame
      obtain rfl := Option.some.inj hsame
      exact ⟨_, hcapsule, hsource⟩
    · rintro ⟨capsule, hcapsule, hitem⟩
      have hsource : (⟨capsule, field, item⟩ : SourceItem) ∈ sourceItems ItemField.core capsules :=
        mem_sourceItems.mpr ⟨hcapsule, hfield, hitem⟩
      exact h.core_selected hsource hfield
  · have hempty : state.selected field = [] := by
      refine List.eq_nil_iff_forall_not_mem.mpr fun item hitem => ?_
      obtain ⟨entry, hentry, rfl, _⟩ := h.mem_selected.mp hitem
      exact hfield (hentryfield entry hentry)
    rw [if_neg hfield, hempty]

/-- After the first loop nothing is released. -/
theorem released_core (h : Ledger summaries (sourceItems ItemField.core capsules) state entries)
    (hsummaries : Summaries capsules summaries) : nonSummaryReleaseCount state.records = 0 := by
  refine Nat.le_zero.mp ((h.released_le hsummaries).trans (Nat.le_of_eq ?_))
  refine List.countP_eq_zero.mpr fun entry hentry hoptional => ?_
  exact ItemField.not_mem_optional_of_mem_core
    (mem_sourceItems.mp (h.origin entry hentry)).2.1 (of_decide_eq_true hoptional)

end Ledger

/-! ## The loops -/

section Loops

variable [Hashlib] [WireText]

omit [Hashlib] in
/-- The capsules are counted. -/
theorem countCapsules_utf8 (capsules : List ContextCapsuleEnvelope) :
    Gives (countCapsules utf8ByteTokenCounter capsules) fun _ => True := by
  refine Ends.foldlM (fun _ _ _ => True) (fun capsule _ total _ _ => ?_) trivial
  exact Ends.returned (countSurface_utf8 _) (Ends.pure trivial)

omit [Hashlib] [WireText] in
/-- The summaries are counted. -/
theorem summaryStep_utf8 (records : List ReorganizationRecord)
    (capsules : List ContextCapsuleEnvelope) :
    Gives (capsules.foldlM (summaryStep utf8ByteTokenCounter) records) fun _ => True := by
  refine Ends.foldlM (fun _ _ _ => True) (fun capsule _ records _ _ => ?_) trivial
  exact Ends.returned (countSurface_utf8 _) (Ends.pure trivial)

omit [Hashlib] in
/-- The anchors and dependencies are counted. -/
theorem coreStep_utf8 {done later : List SourceItem} {state : Reorganization} {source : SourceItem}
    (h : Balanced [] done state) (hconsistent : Consistent (done ++ source :: later)) :
    Gives (coreStep utf8ByteTokenCounter state source) (Balanced [] (done ++ [source])) := by
  have hreturns : Gives (coreStep utf8ByteTokenCounter state source) fun _ => True := by
    obtain ⟨entries, h⟩ := h
    obtain ⟨result, hresult⟩ := h.remember_returns hconsistent
    refine Ends.performed hresult ?_
    cases result with
    | none => exact Ends.pure trivial
    | some fresh => exact Ends.returned (countSurface_utf8 _) (Ends.pure trivial)
  exact (hreturns.returns (coreStep_balanced _ h)).weaken (fun _ _ he => he) fun _ _ hboth => hboth.2

variable {first : ContextCapsuleEnvelope} {rest : List ContextCapsuleEnvelope} {frame : Nat}

/-- The count of a provisional capsule. -/
theorem provisional_utf8 (hframe : Framed first rest frame) {selected : Selection}
    (hselected : ∀ field, (selected field).Nodup) (records : List ReorganizationRecord)
    (tokenBudget : Nat) :
    provisionalAfterTokens utf8ByteTokenCounter first rest tokenBudget selected records () =
      .ok (frame + loadBytes first rest selected (nonSummaryReleaseCount records)) () := by
  obtain ⟨fields, hfields⟩ := buildCapsule_returns first rest tokenBudget hselected records
  have hbytes := hframe selected records tokenBudget fields hfields
  refine bind_ok.mpr ⟨fields, (), perform_ok.mpr ⟨hfields, rfl⟩, ?_⟩
  rw [← hbytes]
  exact countSurface_utf8 _

/-- What the search finds fits. -/
theorem searchCopy_packs (hframe : Framed first rest frame) (tokenBudget : Nat)
    (state : Reorganization) {source : SourceItem}
    (hnodup : ∀ copy : CapsuleItem, copy.itemId = source.item.itemId →
      ∀ field, (state.selected.append source.field copy field).Nodup) :
    ∀ (passes low high : Nat) (best : Option (CapsuleItem × Nat)),
      (∀ found ∈ best, frame + loadBytes first rest (state.selected.append source.field found.1)
        (nonSummaryReleaseCount state.records) ≤ tokenBudget) →
      Gives (searchCopy utf8ByteTokenCounter first rest tokenBudget state source passes low high best)
        fun result => ∀ found ∈ result,
          frame + loadBytes first rest (state.selected.append source.field found.1)
            (nonSummaryReleaseCount state.records) ≤ tokenBudget := by
  intro passes
  induction passes with
  | zero => exact fun _ _ _ hbest => Ends.pure hbest
  | succ passes ih =>
      intro low high best hbest
      unfold searchCopy
      refine Ends.ite (fun _ => Ends.pure hbest) fun _ => ?_
      dsimp only
      cases hcandidate : source.item.approximate ((low + high) / 2) with
      | none => exact ih _ _ _ hbest
      | some candidate =>
          refine Ends.ite (fun _ => ih _ _ _ hbest) fun _ => ?_
          refine Ends.returned (countSurface_utf8 _) ?_
          refine Ends.returned (countSurface_utf8 _) ?_
          have hid : candidate.itemId = source.item.itemId := by
            rw [(CapsuleItem.approximate_eq_some hcandidate).2]
            exact (CapsuleItem.truncated_keeps _ _).1
          refine Ends.returned (provisional_utf8 hframe (hnodup candidate hid) _ _) ?_
          refine Ends.ite (fun hfits => ih _ _ _ ?_) fun _ => ih _ _ _ hbest
          intro found hfound
          obtain rfl := Option.mem_some.mp hfound
          rwa [nonSummaryReleaseCount_append (by simp [SourceItem.record])] at hfits

/-- What is placed fits. -/
theorem place_packs (hframe : Framed first rest frame) (tokenBudget : Nat)
    (state : Reorganization) {source : SourceItem}
    (hnodup : ∀ copy : CapsuleItem, copy.itemId = source.item.itemId →
      ∀ field, (state.selected.append source.field copy field).Nodup) (beforeTokens : Nat) :
    Gives (place utf8ByteTokenCounter first rest tokenBudget state source beforeTokens)
      fun placement => ∀ copy ∈ placement.copy source.item,
        frame + loadBytes first rest (state.selected.append source.field copy)
          (nonSummaryReleaseCount state.records) ≤ tokenBudget := by
  refine Ends.returned (provisional_utf8 hframe (hnodup source.item rfl) _ _) ?_
  rw [nonSummaryReleaseCount_append (by simp [SourceItem.record])]
  refine Ends.ite (fun hfits => Ends.pure ?_) fun _ => ?_
  · intro copy hcopy
    obtain rfl := Option.mem_some.mp hcopy
    exact hfits
  · refine (searchCopy_packs hframe tokenBudget state hnodup _ _ _ none (by simp)).bind
      fun found _ hfound => ?_
    cases found with
    | none => exact Ends.pure fun copy hcopy => absurd hcopy (Option.not_mem_none copy)
    | some found =>
        refine Ends.pure fun copy hcopy => ?_
        obtain rfl := Option.mem_some.mp hcopy
        exact hfound found rfl

/-- A step over an item leaves the selection or puts the item into a selection that fits. -/
theorem optionalStep_packs (hframe : Framed first rest frame) (tokenBudget : Nat)
    {summaries : List ReorganizationRecord} {done later : List SourceItem} {state : Reorganization}
    {source : SourceItem} (hfield : source.field ∈ ItemField.optional)
    (h : Balanced summaries done state) (hconsistent : Consistent (done ++ source :: later)) :
    Gives (optionalStep utf8ByteTokenCounter first rest tokenBudget state source) fun next =>
      Balanced summaries (done ++ [source]) next ∧
        (next.selected = state.selected ∨ ∃ copy released,
          next.selected = state.selected.append source.field copy ∧
            frame + loadBytes first rest next.selected released ≤ tokenBudget) := by
  have hreturns : Gives (optionalStep utf8ByteTokenCounter first rest tokenBudget state source)
      fun next => next.selected = state.selected ∨ ∃ copy released,
        next.selected = state.selected.append source.field copy ∧
          frame + loadBytes first rest next.selected released ≤ tokenBudget := by
    obtain ⟨entries, h⟩ := h
    obtain ⟨result, hresult⟩ := h.remember_returns hconsistent
    refine Ends.performed hresult ?_
    rcases Reorganization.remember_ok hresult with ⟨rfl, _⟩ | ⟨rfl, hnew⟩
    · exact Ends.pure (.inl rfl)
    · refine Ends.returned (countSurface_utf8 _) ?_
      refine (place_packs hframe tokenBudget
        { state with seen := state.seen ++ [(source.identity, source.item)] }
        (fun copy hid => h.append_nodup hnew hid) _).bind fun placement _ hplacement => Ends.pure ?_
      cases placement with
      | retained => exact .inr ⟨source.item, _, rfl, hplacement _ rfl⟩
      | approximate copy tokens => exact .inr ⟨copy, _, rfl, hplacement _ rfl⟩
      | released => exact .inl rfl
  exact (hreturns.returns (optionalStep_balanced _ first rest tokenBudget hfield h)).weaken
    (fun _ _ he => he) fun _ _ hboth => ⟨hboth.2, hboth.1⟩

/-- The loop over the other items keeps what every item that fits keeps. -/
theorem selectOptional_packs (hframe : Framed first rest frame) (tokenBudget : Nat)
    {summaries : List ReorganizationRecord} {mandatory : Reorganization}
    (h : Balanced summaries (sourceItems ItemField.core (first :: rest)) mandatory)
    (hconsistent : Consistent (sourceItems ItemField.core (first :: rest) ++
      sourceItems ItemField.optional (first :: rest)))
    (inv : Selection → Prop) (hinit : inv mandatory.selected)
    (hstep : ∀ selected field copy released, inv selected →
      frame + loadBytes first rest (selected.append field copy) released ≤ tokenBudget →
      inv (selected.append field copy)) :
    Gives (selectOptional utf8ByteTokenCounter first rest tokenBudget mandatory) fun final =>
      Balanced summaries (sourceItems ItemField.core (first :: rest) ++
        sourceItems ItemField.optional (first :: rest)) final ∧ inv final.selected := by
  suffices hloop : Gives (selectOptional utf8ByteTokenCounter first rest tokenBudget mandatory)
      fun state => inv state.selected ∧ ∃ done,
        done ++ [] = sourceItems ItemField.optional (first :: rest) ∧
        Balanced summaries (sourceItems ItemField.core (first :: rest) ++ done) state by
    refine hloop.weaken (fun _ _ he => he) fun final _ hfinal => ?_
    obtain ⟨hinv, done, hdone, hbalanced⟩ := hfinal
    rw [List.append_nil] at hdone
    exact ⟨hdone ▸ hbalanced, hinv⟩
  refine Ends.foldlM (fun later state _ => inv state.selected ∧ ∃ done,
    done ++ later = sourceItems ItemField.optional (first :: rest) ∧
    Balanced summaries (sourceItems ItemField.core (first :: rest) ++ done) state) ?_ ?_
  · rintro source later state _ ⟨hinv, done, hdone, hbalanced⟩
    have hsource : source ∈ sourceItems ItemField.optional (first :: rest) := by
      rw [← hdone]
      exact List.mem_append_right _ List.mem_cons_self
    rw [← hdone, ← List.append_assoc] at hconsistent
    refine (optionalStep_packs hframe tokenBudget (mem_sourceItems.mp hsource).2.1 hbalanced
      hconsistent).weaken (fun _ _ he => he) fun next _ hnext => ?_
    refine ⟨?_, done ++ [source], ?_, ?_⟩
    · rcases hnext.2 with hsame | ⟨copy, released, happend, hfits⟩
      · rwa [hsame]
      · rw [happend] at hfits ⊢
        exact hstep _ _ _ _ hinv hfits
    · rw [← hdone, List.append_assoc, List.singleton_append]
    · rw [← List.append_assoc]
      exact hnext.1
  · exact ⟨hinit, [], rfl, by rwa [List.append_nil]⟩

/-! ## The checks of the budget -/

/-- The first check raises exactly where the anchors and dependencies do not fit. -/
theorem selectMandatory_packs (hframe : Framed first rest frame) (tokenBudget : Nat)
    (hconsistent : Consistent (sourceItems ItemField.core (first :: rest))) :
    Ends (fun e _ => (∃ required budget, e = .budgetError required budget) ∧
        tokenBudget < frame + loadBytes first rest (coreSelection (first :: rest)) 0)
      (fun state _ => (∃ summaries, Summaries (first :: rest) summaries ∧
          Balanced summaries (sourceItems ItemField.core (first :: rest)) state) ∧
        frame + loadBytes first rest (coreSelection (first :: rest)) 0 ≤ tokenBudget)
      (selectMandatory utf8ByteTokenCounter first rest tokenBudget) () := by
  suffices hcheck : Ends (fun e _ => (∃ required budget, e = .budgetError required budget) ∧
        tokenBudget < frame + loadBytes first rest (coreSelection (first :: rest)) 0)
      (fun _ _ => frame + loadBytes first rest (coreSelection (first :: rest)) 0 ≤ tokenBudget)
      (selectMandatory utf8ByteTokenCounter first rest tokenBudget) () from
    (hcheck.returns (selectMandatory_balanced _ first rest tokenBudget)).weaken
      (fun _ _ he => he) fun _ _ hboth => ⟨hboth.2, hboth.1⟩
  have hcore : Gives ((sourceItems ItemField.core (first :: rest)).foldlM
      (coreStep utf8ByteTokenCounter) {}) (Balanced [] (sourceItems ItemField.core (first :: rest))) := by
    suffices hloop : Gives ((sourceItems ItemField.core (first :: rest)).foldlM
        (coreStep utf8ByteTokenCounter) {}) fun state => ∃ done,
          done ++ [] = sourceItems ItemField.core (first :: rest) ∧ Balanced [] done state by
      refine hloop.weaken (fun _ _ he => he) fun state _ hstate => ?_
      obtain ⟨done, hdone, hbalanced⟩ := hstate
      rw [List.append_nil] at hdone
      exact hdone ▸ hbalanced
    refine Ends.foldlM (fun later state _ => ∃ done,
      done ++ later = sourceItems ItemField.core (first :: rest) ∧ Balanced [] done state) ?_
      ⟨[], rfl, [], Ledger.start⟩
    rintro source later state _ ⟨done, hdone, hbalanced⟩
    refine (coreStep_utf8 hbalanced (hdone ▸ hconsistent)).weaken (fun _ _ he => he)
      fun next _ hnext => ⟨done ++ [source], ?_, hnext⟩
    rw [← hdone, List.append_assoc, List.singleton_append]
  refine (hcore.weaken (fun _ _ he => he.elim) fun _ _ h => h).bind fun state _ hstate => ?_
  obtain ⟨entries, h⟩ := hstate
  have hrecords : Gives ((first :: rest).foldlM (summaryStep utf8ByteTokenCounter) state.records)
      fun records => ∃ summaries, Summaries (first :: rest) summaries ∧
        records = state.records ++ summaries :=
    ((summaryStep_utf8 state.records (first :: rest)).returns
      (summaryStep_summaries _ state.records (first :: rest))).weaken (fun _ _ he => he)
        fun _ _ hboth => hboth.2
  refine (hrecords.weaken (fun _ _ he => he.elim) fun _ _ h => h).bind fun records _ hrecords => ?_
  obtain ⟨summaries, hsummaries, rfl⟩ := hrecords
  have hledger : Ledger summaries (sourceItems ItemField.core (first :: rest))
      { state with records := state.records ++ summaries } entries :=
    { h with records := (by simpa using h.records : state.records.Perm _).append_right summaries }
  have hload : loadBytes first rest state.selected
      (nonSummaryReleaseCount (state.records ++ summaries)) =
        loadBytes first rest (coreSelection (first :: rest)) 0 := by
    rw [hledger.released_core hsummaries]
    exact loadBytes_perm first rest hledger.selected_core 0
  refine Ends.returned (provisional_utf8 hframe h.selected_nodup _ _) ?_
  rw [hload]
  refine Ends.ite (fun hover => Ends.throw ⟨⟨_, _, rfl⟩, hover⟩) fun hfits => Ends.pure ?_
  exact Nat.le_of_not_lt hfits

/-- The second check raises exactly where the last capsule does not fit. -/
theorem finishReorganization_packs (hframe : Framed first rest frame) (tokenBudget : Nat)
    {state : Reorganization} (hnodup : ∀ field, (state.selected field).Nodup) (beforeTokens : Nat) :
    Ends (fun e _ => (∃ required budget, e = .budgetError required budget) ∧
        tokenBudget < frame +
          loadBytes first rest state.selected (nonSummaryReleaseCount state.records))
      (fun _ _ => frame + loadBytes first rest state.selected
        (nonSummaryReleaseCount state.records) ≤ tokenBudget)
      (finishReorganization utf8ByteTokenCounter first rest tokenBudget beforeTokens state) () := by
  obtain ⟨fields, hfields⟩ := buildCapsule_returns first rest tokenBudget hnodup state.records
  refine Ends.performed hfields ?_
  refine Ends.returned (countSurface_utf8 _) ?_
  rw [hframe _ _ _ _ hfields]
  refine Ends.ite (fun hover => Ends.throw ⟨⟨_, _, rfl⟩, hover⟩) fun hfits => Ends.pure ?_
  exact Nat.le_of_not_lt hfits

end Loops

end AstrContinuum
