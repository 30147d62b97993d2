import AstrContinuum.Guarantees.Reorganization

/-!
# Reading a reorganized capsule back

The copies of a reorganization skip the validators of decisions and entities, so two alternatives, two
superseded decisions or two aliases may be cut to the same text. A reorganized capsule is read back
exactly when no step has selected such a copy, and the capsules whose reorganizations are all read back
are those whose items no cut makes repeat.
-/

namespace AstrContinuum

open Checked Effects

/-! ## Items that are read back -/

/-- The lists of an item that must not repeat do not. -/
def CapsuleItem.ListsDistinct : CapsuleItem → Prop
  | .decision item => item.alternatives.Nodup ∧ item.supersedes.Nodup
  | .entity item => item.aliases.Nodup
  | .claim _ | .anchor _ | .dependency _ => True

instance : DecidablePred CapsuleItem.ListsDistinct
  | .decision _ => inferInstanceAs (Decidable (_ ∧ _))
  | .entity _ => inferInstanceAs (Decidable (List.Nodup _))
  | .claim _ | .anchor _ | .dependency _ => inferInstanceAs (Decidable True)

/-- The validators of the items of a field accept an item. -/
def ItemField.Reads (item : CapsuleItem) : ItemField → Prop
  | .decisions => item.toDecision.isSome = true
  | .entities => item.toEntity.isSome = true
  | .exactAnchors => item.toAnchor.isSome = true
  | .dependencies => item.toDependency.isSome = true
  | .goals | .constraints | .progress | .openLoops | .preferences | .emotionalContext =>
      item.toClaim.isSome = true

/-- A text that is not empty is not cut to the empty text. -/
theorem truncateText_ne_empty {maxChars : Nat} {text : String}
    (hchars : minApproximateChars ≤ maxChars) (h : text ≠ "") : truncateText maxChars text ≠ "" := by
  unfold truncateText
  by_cases hlength : text.length ≤ maxChars
  · rwa [if_pos hlength]
  · have hmany : ¬ maxChars ≤ 1 := by
      unfold minApproximateChars at hchars
      omega
    rw [if_neg hlength, if_neg hmany]
    intro hempty
    have hzero := congrArg String.length hempty
    simp at hzero

namespace ItemField

/-- The validators accept the items of a validated capsule. -/
theorem reads_of_mem {capsule : ContextCapsuleEnvelope} {field : ItemField} {item : CapsuleItem}
    (h : item ∈ capsule.items field) : field.Reads item := by
  cases field <;> obtain ⟨value, _, rfl⟩ := List.mem_map.mp h
  case decisions => exact Option.isSome_iff_exists.mpr ⟨_, CapsuleItem.toDecision_eq_some.mpr rfl⟩
  case entities => exact Option.isSome_iff_exists.mpr ⟨_, CapsuleItem.toEntity_eq_some.mpr rfl⟩
  case exactAnchors => exact Option.isSome_iff_exists.mpr ⟨_, CapsuleItem.toAnchor_eq_some.mpr rfl⟩
  case dependencies =>
    exact Option.isSome_iff_exists.mpr ⟨_, CapsuleItem.toDependency_eq_some.mpr rfl⟩
  all_goals exact Option.isSome_iff_exists.mpr ⟨_, CapsuleItem.toClaim_eq_some.mpr rfl⟩

/-- An item that the validators accept has distinct lists. -/
theorem Reads.listsDistinct {field : ItemField} {item : CapsuleItem} (h : field.Reads item) :
    item.ListsDistinct := by
  cases item with
  | decision item =>
      cases field <;> simp [Reads, CapsuleItem.toClaim, CapsuleItem.toDecision, CapsuleItem.toEntity,
        CapsuleItem.toAnchor, CapsuleItem.toDependency] at h
      exact ⟨h.2.2.2.1, h.2.2.2.2⟩
  | entity item =>
      cases field <;> simp [Reads, CapsuleItem.toClaim, CapsuleItem.toDecision, CapsuleItem.toEntity,
        CapsuleItem.toAnchor, CapsuleItem.toDependency] at h
      exact h.2.2.2.1
  | _ => trivial

/-- The validators accept a shortened copy exactly when its lists are distinct. -/
theorem Reads.shortened {field : ItemField} {item copy : CapsuleItem} (h : field.Reads item)
    (hcopy : copy.ShortenedFrom item) : field.Reads copy ↔ copy.ListsDistinct := by
  refine ⟨Reads.listsDistinct, fun hdistinct => ?_⟩
  obtain ⟨_, maxChars, _, hshort⟩ := hcopy
  obtain ⟨hchars, rfl⟩ := CapsuleItem.approximate_eq_some hshort
  have hcut {text : String} (htext : text ≠ "") : truncateText maxChars text ≠ "" :=
    truncateText_ne_empty hchars htext
  cases item with
  | claim item =>
      cases field <;> simp [Reads, CapsuleItem.toClaim, CapsuleItem.toDecision, CapsuleItem.toEntity,
        CapsuleItem.toAnchor, CapsuleItem.toDependency, CapsuleItem.truncated] at h ⊢
      all_goals exact ⟨h.1, hcut h.2.1, h.2.2⟩
  | decision item =>
      cases field <;> simp [Reads, CapsuleItem.toClaim, CapsuleItem.toDecision, CapsuleItem.toEntity,
        CapsuleItem.toAnchor, CapsuleItem.toDependency, CapsuleItem.truncated] at h ⊢
      exact ⟨h.1, hcut h.2.1, h.2.2.1, hdistinct.1, hdistinct.2⟩
  | entity item =>
      cases field <;> simp [Reads, CapsuleItem.toClaim, CapsuleItem.toDecision, CapsuleItem.toEntity,
        CapsuleItem.toAnchor, CapsuleItem.toDependency, CapsuleItem.truncated] at h ⊢
      exact ⟨h.1, hcut h.2.1, hcut h.2.2.1, hdistinct, h.2.2.2.2⟩
  | anchor item => exact h
  | dependency item => exact h

end ItemField

/-! ## Capsules that are read back -/

/-- A list is read when every element is. -/
theorem exists_mapM_iff {α β : Type} {read : β → Option α} {items : List β} :
    (∃ values, items.mapM read = some values) ↔ ∀ item ∈ items, (read item).isSome = true := by
  induction items with
  | nil => simp
  | cons item rest ih =>
      rw [List.forall_mem_cons, ← ih, Option.isSome_iff_exists]
      simp only [List.mapM_cons, Option.bind_eq_bind, Option.bind_eq_some_iff]
      constructor
      · rintro ⟨_, value, hvalue, others, hothers, _⟩
        exact ⟨⟨value, hvalue⟩, others, hothers⟩
      · rintro ⟨⟨value, hvalue⟩, others, hothers⟩
        exact ⟨_, value, hvalue, others, hothers, rfl⟩

/-- The capsule is accepted when it is read back, and what is read back equals it. -/
def CapsuleFields.Readable (fields : CapsuleFields) : Prop :=
  ∃ capsule, fields.readBack = some capsule ∧ capsule.fields = fields

/-- A capsule that pydantic has built is read back when the validators accept all its items. -/
theorem CapsuleFields.readable_iff {fields : CapsuleFields} (hchecks : fields.Checks) :
    fields.Readable ↔ ∀ field, ∀ item ∈ fields.items field, field.Reads item := by
  constructor
  · rintro ⟨capsule, _, rfl⟩ field item hitem
    exact ItemField.reads_of_mem hitem
  · intro h
    obtain ⟨goals, hgoals⟩ := exists_mapM_iff.mpr (h .goals)
    obtain ⟨constraints, hconstraints⟩ := exists_mapM_iff.mpr (h .constraints)
    obtain ⟨decisions, hdecisions⟩ := exists_mapM_iff.mpr (h .decisions)
    obtain ⟨progress, hprogress⟩ := exists_mapM_iff.mpr (h .progress)
    obtain ⟨openLoops, hopenLoops⟩ := exists_mapM_iff.mpr (h .openLoops)
    obtain ⟨preferences, hpreferences⟩ := exists_mapM_iff.mpr (h .preferences)
    obtain ⟨entities, hentities⟩ := exists_mapM_iff.mpr (h .entities)
    obtain ⟨emotionalContext, hemotional⟩ := exists_mapM_iff.mpr (h .emotionalContext)
    obtain ⟨exactAnchors, hanchors⟩ := exists_mapM_iff.mpr (h .exactAnchors)
    obtain ⟨dependencies, hdependencies⟩ := exists_mapM_iff.mpr (h .dependencies)
    have hnodup {α : Type} {read : CapsuleItem → Option α} {write : α → CapsuleItem}
        (hread : ∀ item value, read item = some value ↔ write value = item) {field : ItemField}
        {values : List α} (hvalues : (fields.items field).mapM read = some values) :
        values.Nodup := by
      have hitems := hchecks.2.2.2 field (ItemField.mem_all field)
      rw [← (mapM_eq_some_iff_map hread).mp hvalues] at hitems
      exact hitems.of_map
    have hclaims : ∀ item value, CapsuleItem.toClaim item = some value ↔ .ofClaim value = item :=
      fun _ _ => CapsuleItem.toClaim_eq_some
    have hread : ∃ capsule, fields.readBack = some capsule := by
      unfold CapsuleFields.readBack
      simp only [hgoals, hconstraints, hdecisions, hprogress, hopenLoops, hpreferences, hentities,
        hemotional, hanchors, hdependencies, Option.bind_eq_bind, Option.bind_some]
      refine ⟨_, dif_pos ⟨hchecks.1, hchecks.2.1, hchecks.2.2.1, ?_⟩⟩
      exact ⟨hnodup hclaims hgoals, hnodup hclaims hconstraints,
        hnodup (fun _ _ => CapsuleItem.toDecision_eq_some) hdecisions, hnodup hclaims hprogress,
        hnodup hclaims hopenLoops, hnodup hclaims hpreferences,
        hnodup (fun _ _ => CapsuleItem.toEntity_eq_some) hentities, hnodup hclaims hemotional,
        hnodup (fun _ _ => CapsuleItem.toAnchor_eq_some) hanchors,
        hnodup (fun _ _ => CapsuleItem.toDependency_eq_some) hdependencies⟩
    obtain ⟨capsule, hcapsule⟩ := hread
    exact ⟨capsule, hcapsule, CapsuleFields.readBack_eq_some.mp hcapsule⟩

/-! ## The cuts of a run -/

/-- The lists of an item do not repeat when it is cut at `maxChars`. -/
def CapsuleItem.DistinctAt (maxChars : Nat) (item : CapsuleItem) : Prop :=
  (item.truncated maxChars).ListsDistinct

instance (maxChars : Nat) : DecidablePred (CapsuleItem.DistinctAt maxChars) := fun item =>
  inferInstanceAs (Decidable (item.truncated maxChars).ListsDistinct)

/-- The lists of all selected items are distinct. -/
def Selection.ListsDistinct (selected : Selection) : Prop :=
  ∀ field, ∀ item ∈ selected field, item.ListsDistinct

/-- What another item changes. -/
theorem Selection.append_listsDistinct {selected : Selection} {field : ItemField}
    {item : CapsuleItem} :
    (selected.append field item).ListsDistinct ↔ selected.ListsDistinct ∧ item.ListsDistinct := by
  constructor
  · intro h
    refine ⟨fun other kept hkept => h other kept ?_, h field item ?_⟩
    · rw [Selection.append_apply]
      exact List.mem_append_left _ hkept
    · rw [Selection.append_apply, if_pos rfl]
      exact List.mem_append_right _ List.mem_cons_self
  · rintro ⟨hselected, hitem⟩ other kept hkept
    rw [Selection.append_apply] at hkept
    rcases List.mem_append.mp hkept with hold | hnew
    · exact hselected other kept hold
    · by_cases hfield : field = other
      · rw [if_pos hfield] at hnew
        rwa [List.mem_singleton.mp hnew]
      · simp [hfield] at hnew

section Run

variable {σ : Type} [Hashlib] [WireText] (counter : TokenCounter σ) (first : ContextCapsuleEnvelope)
  (rest : List ContextCapsuleEnvelope) (tokenBudget : Nat)

/-- In the state before its step, the item does not fit and the longest copy that the search finds is cut
at `maxChars`. -/
def CutAt (state : Reorganization) (source : SourceItem) (s : σ) (maxChars : Nat) : Prop :=
  ∃ fresh beforeTokens s₁ tokens s₂, state.remember source = .ok (some fresh) ∧
    itemTokens counter source.item s = .ok beforeTokens s₁ ∧
    place counter first rest tokenBudget fresh source beforeTokens s₁ =
      .ok (.approximate (source.item.truncated maxChars) tokens) s₂

/-- No step over the remaining items cuts one where its lists repeat. -/
def CutsDistinct : Reorganization → List SourceItem → σ → Prop
  | _, [], _ => True
  | state, source :: sources, s =>
      (∀ maxChars, CutAt counter first rest tokenBudget state source s maxChars →
        source.item.DistinctAt maxChars) ∧
      ∀ next s', optionalStep counter first rest tokenBudget state source s = .ok next s' →
        CutsDistinct next sources s'

/-- What one step changes: it selects no repeating list exactly when it does not cut where the lists of
its item repeat. -/
theorem optionalStep_listsDistinct {state next : Reorganization} {source : SourceItem} {s s' : σ}
    (hfield : source.field ∈ ItemField.optional) (hitem : source.item.ListsDistinct)
    (h : optionalStep counter first rest tokenBudget state source s = .ok next s') :
    next.selected.ListsDistinct ↔ state.selected.ListsDistinct ∧
      ∀ maxChars, CutAt counter first rest tokenBudget state source s maxChars →
        source.item.DistinctAt maxChars := by
  obtain ⟨result, s₁, hperform, h⟩ := Effects.bind_ok.mp h
  obtain ⟨hresult, rfl⟩ := perform_ok.mp hperform
  rcases Reorganization.remember_ok hresult with ⟨rfl, _⟩ | ⟨rfl, _⟩
  · obtain ⟨rfl, rfl⟩ := EStateM.Result.ok.inj h
    refine ⟨fun hstate => ⟨hstate, ?_⟩, And.left⟩
    rintro maxChars ⟨fresh, _, _, _, _, hfresh, _⟩
    rw [hresult] at hfresh
    cases hfresh
  · obtain ⟨beforeTokens, s₂, hbefore, h⟩ := Effects.bind_ok.mp h
    obtain ⟨placement, s₃, hplace, h⟩ := Effects.bind_ok.mp h
    obtain ⟨rfl, rfl⟩ := EStateM.Result.ok.inj h
    have hcut {maxChars : Nat} : CutAt counter first rest tokenBudget state source s maxChars ↔
        ∃ tokens, placement = .approximate (source.item.truncated maxChars) tokens := by
      constructor
      · rintro ⟨fresh, _, _, tokens, _, hfresh, htokens, hcopy⟩
        rw [hresult] at hfresh
        obtain rfl := Option.some.inj (Except.ok.inj hfresh)
        rw [hbefore] at htokens
        obtain ⟨rfl, rfl⟩ := EStateM.Result.ok.inj htokens
        rw [hplace] at hcopy
        exact ⟨tokens, (EStateM.Result.ok.inj hcopy).1⟩
      · rintro ⟨tokens, rfl⟩
        exact ⟨_, _, _, tokens, _, hresult, hbefore, hplace⟩
    simp only [hcut]
    cases placement with
    | retained =>
        show (state.selected.append source.field source.item).ListsDistinct ↔ _
        simp [Selection.append_listsDistinct, hitem]
    | approximate copy tokens =>
        have hallowed := place_allowed counter first rest tokenBudget hfield _ _ _ _ _ hplace
        obtain ⟨_, maxChars, _, hcopy⟩ := hallowed.2
        obtain ⟨_, rfl⟩ := CapsuleItem.approximate_eq_some hcopy
        show (state.selected.append source.field _).ListsDistinct ↔ _
        rw [Selection.append_listsDistinct]
        refine and_congr_right fun _ => ⟨?_, fun hall => hall maxChars ⟨tokens, rfl⟩⟩
        rintro hdistinct other ⟨_, hother⟩
        have hsame := (Placement.approximate.inj hother).1
        unfold CapsuleItem.DistinctAt
        rwa [← hsame]
    | released =>
        show state.selected.ListsDistinct ↔ _
        simp

/-- What the loop changes. -/
theorem selectOptional_listsDistinct {sources : List SourceItem} :
    ∀ {state final : Reorganization} {s s' : σ},
      (∀ source ∈ sources, source.field ∈ ItemField.optional ∧ source.item.ListsDistinct) →
      sources.foldlM (optionalStep counter first rest tokenBudget) state s = .ok final s' →
      (final.selected.ListsDistinct ↔ state.selected.ListsDistinct ∧
        CutsDistinct counter first rest tokenBudget state sources s) := by
  induction sources with
  | nil =>
      intro state final s s' _ h
      obtain ⟨rfl, rfl⟩ := EStateM.Result.ok.inj h
      simp [CutsDistinct]
  | cons source sources ih =>
      intro state final s s' hsources h
      rw [List.foldlM_cons] at h
      obtain ⟨next, s₁, hnext, h⟩ := Effects.bind_ok.mp h
      obtain ⟨hfield, hitem⟩ := hsources source List.mem_cons_self
      rw [ih (fun other hother => hsources other (List.mem_cons_of_mem _ hother)) h,
        optionalStep_listsDistinct counter first rest tokenBudget hfield hitem hnext, and_assoc]
      refine and_congr_right fun _ => and_congr_right fun _ => ⟨?_, fun hall => hall next s₁ hnext⟩
      intro hcuts other s₂ hother
      rw [hnext] at hother
      obtain ⟨rfl, rfl⟩ := EStateM.Result.ok.inj hother
      exact hcuts

end Run

/-- What a ledger selects is read back exactly when no list repeats. -/
theorem Ledger.reads_iff {summaries : List ReorganizationRecord} {done : List SourceItem}
    {state : Reorganization} {entries : List LedgerEntry}
    (h : Ledger summaries done state entries)
    (hdone : ∀ source ∈ done, source.field.Reads source.item) :
    (∀ field, ∀ item ∈ state.selected field, field.Reads item) ↔ state.selected.ListsDistinct := by
  refine forall_congr' fun field => forall_congr' fun item => forall_congr' fun hitem => ?_
  obtain ⟨entry, hentry, rfl, hcopy⟩ := h.mem_selected.mp hitem
  have hsource := hdone _ (h.origin entry hentry)
  obtain rfl | hshort := (h.sound entry hentry).allowed.copy hcopy
  · exact ⟨fun _ => hsource.listsDistinct, fun _ => hsource⟩
  · exact hsource.shortened hshort

/-- Anchors and dependencies have no lists that could repeat. -/
theorem Ledger.core_listsDistinct {summaries : List ReorganizationRecord} {done : List SourceItem}
    {state : Reorganization} {entries : List LedgerEntry}
    (h : Ledger summaries done state entries)
    (hdone : ∀ source ∈ done, source.field ∈ ItemField.core ∧ source.field.Reads source.item) :
    state.selected.ListsDistinct := by
  intro field item hitem
  obtain ⟨entry, hentry, rfl, hcopy⟩ := h.mem_selected.mp hitem
  obtain ⟨hcore, hsource⟩ := hdone _ (h.origin entry hentry)
  have hoptional := ItemField.not_mem_optional_of_mem_core hcore
  have hallowed := (h.sound entry hentry).allowed
  unfold LedgerEntry.copy at hcopy
  cases hplacement : entry.placement with
  | retained =>
      rw [hplacement] at hcopy
      obtain rfl := Option.some.inj hcopy
      exact hsource.listsDistinct
  | approximate copy tokens =>
      rw [hplacement] at hallowed
      exact absurd hallowed.1 hoptional
  | released =>
      rw [hplacement] at hallowed
      exact absurd hallowed hoptional

/-- The validators accept the items of some capsules. -/
theorem reads_of_mem_sourceItems {fields : List ItemField} {capsules : List ContextCapsuleEnvelope}
    {source : SourceItem} (h : source ∈ sourceItems fields capsules) :
    source.field ∈ fields ∧ source.field.Reads source.item :=
  ⟨(mem_sourceItems.mp h).2.1, ItemField.reads_of_mem (mem_sourceItems.mp h).2.2⟩

section Whole

variable {σ : Type} [Hashlib] [WireText] (counter : TokenCounter σ)

/-- No step of the loop over the items of `capsules` cuts one where its lists repeat. -/
def RunCutsDistinct (capsules : List ContextCapsuleEnvelope) (tokenBudget : Int) (s : σ) : Prop :=
  ∀ first rest total s₁ state s₂, orderedCapsules capsules = first :: rest →
    countCapsules counter (first :: rest) s = .ok total s₁ →
    selectMandatory counter first rest tokenBudget.toNat s₁ = .ok state s₂ →
    CutsDistinct counter first rest tokenBudget.toNat state
      (sourceItems ItemField.optional (first :: rest)) s₂

/-- The steps of a reorganization that returns. -/
theorem reorganizeCapsules_ok {capsules : List ContextCapsuleEnvelope} {tokenBudget : Int}
    {result : ReorganizationResult} {s s' : σ}
    (h : reorganizeCapsules counter capsules tokenBudget s = .ok result s') :
    validateReorganizationInputs capsules tokenBudget = .ok () ∧
      ∃ first rest, orderedCapsules capsules = first :: rest ∧
        (∀ item ∈ rest, item.sessionKey = first.sessionKey) ∧
        ∃ total s₁, countCapsules counter (first :: rest) s = .ok total s₁ ∧
          ∃ mandatory s₂,
            selectMandatory counter first rest tokenBudget.toNat s₁ = .ok mandatory s₂ ∧
            ∃ state s₃,
              selectOptional counter first rest tokenBudget.toNat mandatory s₂ = .ok state s₃ ∧
              finishReorganization counter first rest tokenBudget.toNat total state s₃ =
                .ok result s' := by
  obtain ⟨_, s₀, hperform, h⟩ := Effects.bind_ok.mp h
  obtain ⟨hinputs, rfl⟩ := perform_ok.mp hperform
  refine ⟨hinputs, ?_⟩
  cases hordered : orderedCapsules capsules with
  | nil =>
      rw [hordered] at h
      cases h
  | cons first rest =>
      rw [hordered] at h
      obtain ⟨_, s₁, hperform, h⟩ := Effects.bind_ok.mp h
      obtain ⟨hsession, rfl⟩ := perform_ok.mp hperform
      obtain ⟨total, s₂, hcount, h⟩ := Effects.bind_ok.mp h
      obtain ⟨mandatory, s₃, hmandatory, h⟩ := Effects.bind_ok.mp h
      obtain ⟨state, s₄, hoptional, h⟩ := Effects.bind_ok.mp h
      exact ⟨first, rest, rfl, require_ok.mp hsession, total, s₂, hcount, mandatory, s₃, hmandatory,
        state, s₄, hoptional, h⟩

/-- A reorganized capsule is read back exactly when no step has cut an item where its lists repeat. -/
theorem readable_iff_runCutsDistinct {capsules : List ContextCapsuleEnvelope} {tokenBudget : Int}
    {result : ReorganizationResult} {s s' : σ}
    (h : reorganizeCapsules counter capsules tokenBudget s = .ok result s') :
    result.capsule.Readable ↔ RunCutsDistinct counter capsules tokenBudget s := by
  obtain ⟨_, first, rest, hordered, _, total, s₁, hcount, mandatory, s₂, hmandatory, state, s₃,
    hoptional, hfinish⟩ := reorganizeCapsules_ok counter h
  obtain ⟨summaries, _, coreEntries, hcore⟩ :=
    selectMandatory_balanced counter first rest tokenBudget.toNat _ _ _ hmandatory
  obtain ⟨entries, hledger⟩ := selectOptional_balanced counter first rest tokenBudget.toNat
    ⟨coreEntries, hcore⟩ _ _ _ hoptional
  obtain ⟨hitems, _, _, _, _, hchecks⟩ :=
    finishReorganization_result counter first rest tokenBudget.toNat total state _ _ _ hfinish
  have hreads : ∀ source ∈ sourceItems ItemField.core (first :: rest) ++
      sourceItems ItemField.optional (first :: rest), source.field.Reads source.item := by
    intro source hsource
    rcases List.mem_append.mp hsource with hkept | hother
    · exact (reads_of_mem_sourceItems hkept).2
    · exact (reads_of_mem_sourceItems hother).2
  have hstart : mandatory.selected.ListsDistinct :=
    hcore.core_listsDistinct fun source hsource => reads_of_mem_sourceItems hsource
  have hloop := selectOptional_listsDistinct counter first rest tokenBudget.toNat
    (fun source hsource => ⟨(reads_of_mem_sourceItems hsource).1,
      (reads_of_mem_sourceItems hsource).2.listsDistinct⟩) hoptional
  rw [CapsuleFields.readable_iff hchecks, hitems, hledger.reads_iff hreads, hloop,
    and_iff_right hstart]
  constructor
  · intro hcuts first' rest' total' s₁' mandatory' s₂' hordered' hcount' hmandatory'
    rw [hordered] at hordered'
    obtain ⟨rfl, rfl⟩ := List.cons.inj hordered'
    rw [hcount] at hcount'
    obtain ⟨rfl, rfl⟩ := EStateM.Result.ok.inj hcount'
    rw [hmandatory] at hmandatory'
    obtain ⟨rfl, rfl⟩ := EStateM.Result.ok.inj hmandatory'
    exact hcuts
  · exact fun hcuts => hcuts first rest total s₁ mandatory s₂ hordered hcount hmandatory

end Whole

/-! ## The cuts of all runs -/

/-- No cut below the bound of the search makes the lists of the item repeat. -/
def CapsuleItem.CutsDistinct (item : CapsuleItem) : Prop :=
  ∀ maxChars, minApproximateChars ≤ maxChars → maxChars < item.maxChars → item.DistinctAt maxChars

/-- What is read back has no repeating list. -/
theorem CapsuleFields.Readable.listsDistinct {fields : CapsuleFields} (h : fields.Readable) :
    Selection.ListsDistinct fields.items := by
  obtain ⟨capsule, _, rfl⟩ := h
  exact fun field item hitem => (ItemField.reads_of_mem hitem).listsDistinct

/-- A check that the budget passes says the same with the least budget. -/
theorem validateInputs_zero {capsules : List ContextCapsuleEnvelope} {tokenBudget : Int}
    (h : validateReorganizationInputs capsules tokenBudget = .ok ()) :
    validateReorganizationInputs capsules 0 = .ok () := by
  unfold validateReorganizationInputs at h ⊢
  obtain ⟨_, _, h⟩ := Checked.bind_ok.mp h
  rw [require_bind_pos (le_refl 0)]
  exact h

section Whole

variable [Hashlib] [WireText]

/-- The inputs of a reorganization that returns pass its checks. -/
theorem reorganizable_of_ok {σ : Type} (counter : TokenCounter σ)
    {capsules : List ContextCapsuleEnvelope} {tokenBudget : Int} {result : ReorganizationResult}
    {s s' : σ} (h : reorganizeCapsules counter capsules tokenBudget s = .ok result s') :
    Reorganizable capsules := by
  obtain ⟨hinputs, first, rest, hordered, hsession, _⟩ := reorganizeCapsules_ok counter h
  obtain ⟨summaries, entries, state, _, hledger, _⟩ :=
    reorganizeCapsules_ledger counter capsules tokenBudget _ _ _ h
  have hperm : (orderedCapsules capsules).Perm capsules := List.perm_insertionSort _ _
  have hfirst : ∀ capsule ∈ capsules, capsule.sessionKey = first.sessionKey := by
    intro capsule hcapsule
    rw [← hperm.mem_iff, hordered] at hcapsule
    rcases List.mem_cons.mp hcapsule with rfl | hrest
    · rfl
    · exact hsession capsule hrest
  constructor
  case inputs => exact validateInputs_zero hinputs
  case session =>
    exact fun capsule hcapsule other hother => (hfirst capsule hcapsule).trans (hfirst other hother).symm
  case consistent =>
    intro source hsource other hother hidentity
    rw [← mem_sourceItems_ordered, mem_sourceItems_all] at hsource hother
    obtain ⟨entry, hentry, hentryidentity, _, hentryitem⟩ := hledger.exists_entry hsource
    obtain ⟨second, hsecond, hsecondidentity, _, hseconditem⟩ := hledger.exists_entry hother
    have hsame : entry = second := hledger.eq_of_identity hentry hsecond
      (hentryidentity.trans (hidentity.trans hsecondidentity.symm))
    rw [← hentryitem, ← hseconditem, hsame]

/-- Where no cut makes a list repeat, a reorganized capsule is read back. -/
theorem readable_of_cutsDistinct {σ : Type} (counter : TokenCounter σ)
    {capsules : List ContextCapsuleEnvelope} {tokenBudget : Int} {result : ReorganizationResult}
    {s s' : σ} (h : reorganizeCapsules counter capsules tokenBudget s = .ok result s')
    (hcuts : ∀ source ∈ sourceItems ItemField.optional capsules, source.item.CutsDistinct) :
    result.capsule.Readable := by
  obtain ⟨summaries, entries, state, _, hledger, hselected, _, _, _, _, hchecks⟩ :=
    reorganizeCapsules_ledger counter capsules tokenBudget _ _ _ h
  have hreads : ∀ source ∈ sourceItems ItemField.core (orderedCapsules capsules) ++
      sourceItems ItemField.optional (orderedCapsules capsules), source.field.Reads source.item := by
    intro source hsource
    rw [← mem_sourceItems_all] at hsource
    exact (reads_of_mem_sourceItems hsource).2
  rw [CapsuleFields.readable_iff hchecks, hselected, hledger.reads_iff hreads]
  intro field copy hcopy
  obtain ⟨entry, hentry, rfl, hentrycopy⟩ := hledger.mem_selected.mp hcopy
  have horigin := hledger.origin entry hentry
  unfold LedgerEntry.copy at hentrycopy
  have hallowed := (hledger.sound entry hentry).allowed
  cases hplacement : entry.placement with
  | retained =>
      rw [hplacement] at hentrycopy
      obtain rfl := Option.some.inj hentrycopy
      exact (hreads _ horigin).listsDistinct
  | approximate shortened tokens =>
      rw [hplacement] at hentrycopy hallowed
      obtain rfl := Option.some.inj hentrycopy
      obtain ⟨hoptional, _, maxChars, hhigh, hshort⟩ := hallowed
      obtain ⟨hlow, rfl⟩ := CapsuleItem.approximate_eq_some hshort
      have hsource := mem_sourceItems.mp (mem_sourceItems_ordered.mp (mem_sourceItems_all.mpr horigin))
      exact hcuts entry.source (mem_sourceItems.mpr ⟨hsource.1, hoptional, hsource.2.2⟩) maxChars hlow
        hhigh
  | released =>
      rw [hplacement] at hentrycopy
      cases hentrycopy

/-- A reorganized capsule is read back and equals itself exactly when, at every item, the branch that
shortens it does not cut it where two of its alternatives, superseded decisions or aliases become equal.
All reorganizations of some capsules are read back, whatever the budget and the counter, exactly when no
cut within the range of the search makes the lists of an item repeat, or every reorganization raises. -/
theorem reorganized_capsule_readable_iff :
    (∀ {σ : Type} (counter : TokenCounter σ) (capsules : List ContextCapsuleEnvelope)
        (tokenBudget : Int) (result : ReorganizationResult) (s s' : σ),
      reorganizeCapsules counter capsules tokenBudget s = .ok result s' →
        (result.capsule.Readable ↔ RunCutsDistinct counter capsules tokenBudget s)) ∧
      ∀ capsules : List ContextCapsuleEnvelope,
        (∀ (σ : Type) (counter : TokenCounter σ) (tokenBudget : Int)
            (result : ReorganizationResult) (s s' : σ),
          reorganizeCapsules counter capsules tokenBudget s = .ok result s' →
            result.capsule.Readable) ↔
        (Reorganizable capsules →
          ∀ source ∈ sourceItems ItemField.optional capsules, source.item.CutsDistinct) := by
  refine ⟨fun counter _ _ _ _ _ h => readable_iff_runCutsDistinct counter h, fun capsules => ?_⟩
  constructor
  · intro hreadable hreorganizable source hsource maxChars hlow hhigh
    obtain ⟨answers, result, hcopy, hrun⟩ :=
      reorganizeCapsules_cut_possible hreorganizable hsource hlow hhigh
    exact (hreadable _ _ _ result _ _ (hrun [])).listsDistinct _ _ hcopy
  · intro hcuts σ counter tokenBudget result s s' h
    exact readable_of_cutsDistinct counter h (hcuts (reorganizable_of_ok counter h))

end Whole

open ReorganizationSample in
/-- A capsule is read back although its decision is shortened, because no cut makes the two alternatives
equal. -/
theorem reorganized_capsule_readable_sample :
    ∃ result answers, reorganizeCapsules TokenCounter.scripted [capsule] 0 counts =
        .ok result answers ∧ result.capsule.Readable ∧
      RunCutsDistinct TokenCounter.scripted [capsule] 0 counts := by
  have hrun : (outcome (reorganizeCapsules TokenCounter.scripted [capsule] 0
      counts)).toOption.any (fun result =>
        result.records.any fun record => record.status = .approximate) = true := by
    decide +kernel
  obtain ⟨result, answers, h, _⟩ := exists_ok_of_any hrun
  have hitems : ∀ source ∈ sourceItems ItemField.optional [capsule],
      source.item = .ofClaim goal ∨ source.item = .ofDecision decision := by decide
  have hdecision : ∀ maxChars < (CapsuleItem.ofDecision decision).maxChars,
      minApproximateChars ≤ maxChars → (CapsuleItem.ofDecision decision).DistinctAt maxChars := by
    decide +kernel
  have hreadable := (reorganized_capsule_readable_iff.2 [capsule]).mpr
    (fun _ source hsource maxChars hlow hhigh => by
      rcases hitems source hsource with hitem | hitem
      · rw [hitem]
        trivial
      · rw [hitem] at hhigh ⊢
        exact hdecision maxChars hhigh hlow) _ _ _ _ _ _ h
  exact ⟨result, answers, h, hreadable,
    (reorganized_capsule_readable_iff.1 _ _ _ _ _ _ h).mp hreadable⟩

namespace ReorganizationSample

/-- A decision between two alternatives that start alike. -/
def alikeDecision : Decision where
  decisionId := "d1"
  text := "Rewrite the cache"
  status := .active
  confidence := .one
  sourceEventIds := ["e1"]
  rationale := ""
  alternatives := ["Rewrite the cache in C", "Rewrite the cache in Rust"]
  supersedes := []
  rejectedBecause := ""

/-- A capsule with this decision only. -/
def decided : ContextCapsuleEnvelope :=
  ⟨{ capsuleData "c1" with
      goals := [], decisions := [alikeDecision], exactAnchors := [], dependencies := [] }, by decide⟩

end ReorganizationSample

open ReorganizationSample in
/-- A reorganization returns a capsule whose two alternatives are cut to one text, which no reader
accepts. -/
theorem reorganized_capsule_unreadable :
    ∃ result answers, reorganizeCapsules TokenCounter.scripted [decided] 0 [0, 0, 0, 0, 1] =
        .ok result answers ∧ ¬ result.capsule.Readable := by
  have hrun : (outcome (reorganizeCapsules TokenCounter.scripted [decided] 0
      [0, 0, 0, 0, 1])).toOption.any (fun result =>
        result.capsule.items .decisions = [(CapsuleItem.ofDecision alikeDecision).truncated 16]) =
          true := by
    decide +kernel
  obtain ⟨result, answers, h, hcopy⟩ := exists_ok_of_any hrun
  refine ⟨result, answers, h, fun hreadable => ?_⟩
  have hdistinct := hreadable.listsDistinct .decisions
    ((CapsuleItem.ofDecision alikeDecision).truncated 16) (by simp [of_decide_eq_true hcopy])
  exact absurd hdistinct.1 (by decide +kernel)

end AstrContinuum
