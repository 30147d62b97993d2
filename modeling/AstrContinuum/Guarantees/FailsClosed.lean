import AstrContinuum.Reorganization.Packing

/-!
# Failing closed

`fails_closed_iff` says for which capsules a reorganization raises `ReorganizationBudgetError` only where
the anchors and dependencies do not fit: those with at most nine items that may be released. The release
counter is part of the counted surface and counts on after the last item has entered, so with ten released
items it takes a byte that no check has counted.
-/

namespace AstrContinuum

open Checked Effects

section Property

variable [Hashlib] [WireText]

/-- The count of the capsule that holds only the anchors and dependencies. -/
def coreTokens (capsules : List ContextCapsuleEnvelope) (tokenBudget : Nat) :
    Except ReorganizationFailure Nat :=
  match orderedCapsules capsules with
  | [] => .error (.valueError "capsules must not be empty")
  | first :: rest => do
      let fields ← buildCapsule first rest (coreSelection (first :: rest)) [] tokenBudget
      pure fields.surface.utf8ByteSize

/-- A reorganization raises `ReorganizationBudgetError` exactly where the anchors and dependencies alone
exceed the budget, and its second check never raises. -/
structure FailsClosed (capsules : List ContextCapsuleEnvelope) : Prop where
  raises_iff : ∀ tokenBudget : Nat,
    (∃ required budget, reorganizeCapsules utf8ByteTokenCounter capsules tokenBudget () =
      .error (.budgetError required budget) ()) ↔
    ∃ tokens, coreTokens capsules tokenBudget = .ok tokens ∧ tokenBudget < tokens
  secondCheck : ∀ (tokenBudget : Nat) (first : ContextCapsuleEnvelope)
    (rest : List ContextCapsuleEnvelope) (mandatory final : Reorganization),
    orderedCapsules capsules = first :: rest →
    selectMandatory utf8ByteTokenCounter first rest tokenBudget () = .ok mandatory () →
    selectOptional utf8ByteTokenCounter first rest tokenBudget mandatory () = .ok final () →
    ∀ beforeTokens required budget,
      finishReorganization utf8ByteTokenCounter first rest tokenBudget beforeTokens final () ≠
        .error (.budgetError required budget) ()

end Property

section Runs

variable [Hashlib] [WireText] {capsules : List ContextCapsuleEnvelope}
  {first : ContextCapsuleEnvelope} {rest : List ContextCapsuleEnvelope} {frame : Nat}

omit [Hashlib] [WireText] in
/-- Capsules that are not refused are not refused with another budget. -/
theorem Reorganizable.inputs_ok (h : Reorganizable capsules) (tokenBudget : Nat) :
    validateReorganizationInputs capsules tokenBudget = .ok () := by
  have hinputs := h.inputs
  have hzero : (0 : Int) ≤ 0 := le_refl 0
  unfold validateReorganizationInputs at hinputs ⊢
  rw [require_bind_pos hzero] at hinputs
  rw [require_bind_pos (Int.natCast_nonneg tokenBudget)]
  exact hinputs

omit [Hashlib] [WireText] in
/-- The items of capsules that are not refused are consistent in the order of the loops. -/
theorem Reorganizable.consistent_ordered (h : Reorganizable capsules)
    (hordered : orderedCapsules capsules = first :: rest) :
    Consistent (sourceItems ItemField.core (first :: rest) ++
      sourceItems ItemField.optional (first :: rest)) := by
  intro source hsource other hother
  rw [← hordered, ← mem_sourceItems_all, mem_sourceItems_ordered] at hsource hother
  exact h.consistent source hsource other hother

omit [Hashlib] [WireText] in
/-- The anchors and dependencies of such capsules are consistent. -/
theorem Reorganizable.consistent_core (h : Reorganizable capsules)
    (hordered : orderedCapsules capsules = first :: rest) :
    Consistent (sourceItems ItemField.core (first :: rest)) :=
  fun source hsource other hother => h.consistent_ordered hordered source
    (List.mem_append_left _ hsource) other (List.mem_append_left _ hother)

omit [Hashlib] [WireText] in
/-- Such capsules are not empty. -/
theorem Reorganizable.ordered_cons (h : Reorganizable capsules) :
    ∃ first rest, orderedCapsules capsules = first :: rest := by
  have hnonempty : capsules ≠ [] := by
    obtain ⟨_, _, hinputs⟩ := bind_ok.mp h.inputs
    obtain ⟨_, hinputs, _⟩ := bind_ok.mp hinputs
    exact require_ok.mp hinputs
  refine List.exists_cons_of_ne_nil fun hempty => hnonempty ?_
  have hperm := List.perm_insertionSort
    (fun left right : ContextCapsuleEnvelope => left.capsuleId ≤ right.capsuleId) capsules
  exact (hempty ▸ hperm : [].Perm capsules).nil_eq.symm

/-- A reorganization of such capsules goes through its three parts. -/
theorem reorganizeCapsules_parts (h : Reorganizable capsules)
    (hordered : orderedCapsules capsules = first :: rest) (tokenBudget : Nat)
    {raises : ReorganizationFailure → Unit → Prop} {post : ReorganizationResult → Unit → Prop}
    (hparts : ∀ beforeTokens, Ends raises post (do
      let state ← selectMandatory utf8ByteTokenCounter first rest tokenBudget
      let state ← selectOptional utf8ByteTokenCounter first rest tokenBudget state
      finishReorganization utf8ByteTokenCounter first rest tokenBudget beforeTokens state) ()) :
    Ends raises post (reorganizeCapsules utf8ByteTokenCounter capsules tokenBudget) () := by
  have hperm : (first :: rest).Perm capsules := hordered ▸ List.perm_insertionSort _ _
  have hsession : ∀ item ∈ rest, item.sessionKey = first.sessionKey := fun item hitem =>
    h.session item (hperm.mem_iff.mp (List.mem_cons_of_mem _ hitem)) first
      (hperm.mem_iff.mp List.mem_cons_self)
  unfold reorganizeCapsules
  refine Ends.performed (h.inputs_ok tokenBudget) ?_
  rw [hordered]
  have hchecked : require (∀ item ∈ rest, item.sessionKey = first.sessionKey)
      (ReorganizationFailure.valueError "all capsules must use one session key") = .ok () :=
    require_ok.mpr hsession
  refine Ends.performed hchecked ?_
  refine ((countCapsules_utf8 (first :: rest)).weaken (fun _ _ he => he.elim) fun _ _ h => h).bind
    fun beforeTokens _ _ => ?_
  exact hparts beforeTokens

/-- The count of the anchors and dependencies. -/
theorem coreTokens_eq (hframe : Framed first rest frame)
    (hordered : orderedCapsules capsules = first :: rest) (tokenBudget : Nat) :
    coreTokens capsules tokenBudget =
      .ok (frame + loadBytes first rest (coreSelection (first :: rest)) 0) := by
  have hnodup (field : ItemField) : (coreSelection (first :: rest) field).Nodup := by
    unfold coreSelection
    split
    · exact List.nodup_dedup _
    · exact List.nodup_nil
  obtain ⟨fields, hfields⟩ := buildCapsule_returns first rest tokenBudget hnodup []
  unfold coreTokens
  rw [hordered]
  dsimp only
  rw [hfields]
  exact congrArg Except.ok (hframe _ _ _ _ hfields)

/-- Where the anchors and dependencies do not fit, the first check raises. -/
theorem reorganizeCapsules_over (h : Reorganizable capsules) (hframe : Framed first rest frame)
    (hordered : orderedCapsules capsules = first :: rest) {tokenBudget : Nat}
    (hover : tokenBudget < frame + loadBytes first rest (coreSelection (first :: rest)) 0) :
    Ends (fun e _ => ∃ required budget, e = .budgetError required budget) (fun _ _ => False)
      (reorganizeCapsules utf8ByteTokenCounter capsules tokenBudget) () := by
  refine reorganizeCapsules_parts h hordered tokenBudget fun beforeTokens => ?_
  refine ((selectMandatory_packs hframe tokenBudget (h.consistent_core hordered)).weaken (fun _ _ he => he.1)
    fun _ _ h => h).bind fun state _ hstate => ?_
  exact absurd hstate.2 (Nat.not_le_of_lt hover)

/-! ## At most nine items -/

/-- With at most nine items to release, a selection that fits fits with its release counter. -/
theorem finishReorganization_few (hframe : Framed first rest frame)
    (hfew : (optionalIdentities (first :: rest)).length ≤ 9)
    {summaries : List ReorganizationRecord} (hsummaries : Summaries (first :: rest) summaries)
    {final : Reorganization}
    (h : Balanced summaries (sourceItems ItemField.core (first :: rest) ++
      sourceItems ItemField.optional (first :: rest)) final) {tokenBudget : Nat}
    (hfits : frame + loadBytes first rest final.selected 0 ≤ tokenBudget) (beforeTokens : Nat) :
    Gives (finishReorganization utf8ByteTokenCounter first rest tokenBudget beforeTokens final)
      fun _ => True := by
  obtain ⟨entries, h⟩ := h
  have hreleased : nonSummaryReleaseCount final.records ≤ 9 :=
    (h.released_le hsummaries).trans (h.optional_entries.le.trans hfew)
  refine (finishReorganization_packs hframe tokenBudget h.selected_nodup beforeTokens).weaken
    (fun _ _ he => ?_) fun _ _ _ => trivial
  rw [loadBytes_of_le first rest hreleased] at he
  exact Nat.not_le_of_lt he.2 hfits

/-- The loop over the other items leaves a selection that fits. -/
theorem selectOptional_fits (hframe : Framed first rest frame) {tokenBudget : Nat}
    {summaries : List ReorganizationRecord} {mandatory : Reorganization}
    (h : Balanced summaries (sourceItems ItemField.core (first :: rest)) mandatory)
    (hconsistent : Consistent (sourceItems ItemField.core (first :: rest) ++
      sourceItems ItemField.optional (first :: rest)))
    (hfits : frame + loadBytes first rest (coreSelection (first :: rest)) 0 ≤ tokenBudget) :
    Gives (selectOptional utf8ByteTokenCounter first rest tokenBudget mandatory) fun final =>
      Balanced summaries (sourceItems ItemField.core (first :: rest) ++
        sourceItems ItemField.optional (first :: rest)) final ∧
      frame + loadBytes first rest final.selected 0 ≤ tokenBudget := by
  refine selectOptional_packs hframe tokenBudget h hconsistent
    (fun selected => frame + loadBytes first rest selected 0 ≤ tokenBudget) ?_ ?_
  · obtain ⟨entries, h⟩ := h
    rwa [loadBytes_perm first rest h.selected_core]
  · intro selected field copy released _ hcopy
    have hle := loadBytes_zero_le first rest (selected.append field copy) released
    omega

/-- With at most nine items to release, a reorganization whose anchors and dependencies fit returns. -/
theorem reorganizeCapsules_few (h : Reorganizable capsules) (hframe : Framed first rest frame)
    (hordered : orderedCapsules capsules = first :: rest)
    (hfew : (optionalIdentities (first :: rest)).length ≤ 9) {tokenBudget : Nat}
    (hfits : frame + loadBytes first rest (coreSelection (first :: rest)) 0 ≤ tokenBudget) :
    Gives (reorganizeCapsules utf8ByteTokenCounter capsules tokenBudget) fun _ => True := by
  refine reorganizeCapsules_parts h hordered tokenBudget fun beforeTokens => ?_
  refine ((selectMandatory_packs hframe tokenBudget (h.consistent_core hordered)).weaken
    (fun _ _ he => Nat.not_le_of_lt he.2 hfits) fun _ _ h => h).bind fun mandatory _ hmandatory => ?_
  obtain ⟨⟨summaries, hsummaries, hbalanced⟩, _⟩ := hmandatory
  refine (selectOptional_fits hframe hbalanced (h.consistent_ordered hordered) hfits).bind
    fun final _ hfinal => ?_
  exact finishReorganization_few hframe hfew hsummaries hfinal.1 hfinal.2 beforeTokens

/-- With at most nine items to release, a reorganization fails closed only where it must. -/
theorem failsClosed_of_few (h : Reorganizable capsules) (hframe : Framed first rest frame)
    (hordered : orderedCapsules capsules = first :: rest)
    (hfew : (optionalIdentities (first :: rest)).length ≤ 9) : FailsClosed capsules where
  raises_iff := by
    intro tokenBudget
    rw [coreTokens_eq hframe hordered]
    rcases Nat.lt_or_ge tokenBudget
      (frame + loadBytes first rest (coreSelection (first :: rest)) 0) with hover | hfits
    · have hraises := reorganizeCapsules_over h hframe hordered hover
      refine iff_of_true ?_ ⟨_, rfl, hover⟩
      cases hrun : reorganizeCapsules utf8ByteTokenCounter capsules tokenBudget () with
      | ok result _ => exact absurd (hraises.ok hrun) id
      | error e _ =>
          obtain ⟨required, budget, rfl⟩ := hraises.error hrun
          exact ⟨required, budget, rfl⟩
    · have hreturns := reorganizeCapsules_few h hframe hordered hfew hfits
      refine iff_of_false ?_ ?_
      · rintro ⟨required, budget, hrun⟩
        exact hreturns.error hrun
      · rintro ⟨tokens, htokens, hover⟩
        obtain rfl := Except.ok.inj htokens
        exact Nat.not_le_of_lt hover hfits
  secondCheck := by
    intro tokenBudget first' rest' mandatory final hordered' hmandatory hfinal beforeTokens required
      budget hraised
    rw [hordered] at hordered'
    obtain ⟨rfl, rfl⟩ := List.cons.inj hordered'
    obtain ⟨⟨summaries, hsummaries, hbalanced⟩, hfits⟩ :=
      (selectMandatory_packs hframe tokenBudget (h.consistent_core hordered)).ok hmandatory
    obtain ⟨hbalanced, hfits⟩ := (selectOptional_fits hframe hbalanced
      (h.consistent_ordered hordered) hfits).ok hfinal
    exact (finishReorganization_few hframe hfew hsummaries hbalanced hfits beforeTokens).error hraised

/-! ## Ten items or more -/

/-- Where the anchors and dependencies fill the budget, every other item is released. -/
theorem selectOptional_full (hframe : Framed first rest frame) (hfloats : ShortFloats)
    {tokenBudget : Nat} {summaries : List ReorganizationRecord} {mandatory : Reorganization}
    (h : Balanced summaries (sourceItems ItemField.core (first :: rest)) mandatory)
    (hconsistent : Consistent (sourceItems ItemField.core (first :: rest) ++
      sourceItems ItemField.optional (first :: rest)))
    (hfull : tokenBudget = frame + loadBytes first rest (coreSelection (first :: rest)) 0) :
    Gives (selectOptional utf8ByteTokenCounter first rest tokenBudget mandatory) fun final =>
      Balanced summaries (sourceItems ItemField.core (first :: rest) ++
        sourceItems ItemField.optional (first :: rest)) final ∧
      ∀ field, (final.selected field).Perm (coreSelection (first :: rest) field) := by
  refine selectOptional_packs hframe tokenBudget h hconsistent
    (fun selected => ∀ field, (selected field).Perm (coreSelection (first :: rest) field)) ?_ ?_
  · obtain ⟨entries, h⟩ := h
    exact h.selected_core
  · intro selected field copy released hselected hcopy
    have hmore := loadBytes_append first rest hfloats selected field copy released
    have hle := loadBytes_zero_le first rest selected released
    rw [loadBytes_perm first rest hselected 0] at hle
    omega

/-- With ten items to release and a budget that the anchors and dependencies fill, the second check
raises. -/
theorem reorganizeCapsules_full (h : Reorganizable capsules) (hframe : Framed first rest frame)
    (hfloats : ShortFloats) (hordered : orderedCapsules capsules = first :: rest)
    (hmany : 10 ≤ (optionalIdentities (first :: rest)).length) :
    Ends (fun e _ => ∃ required budget, e = .budgetError required budget) (fun _ _ => False)
      (reorganizeCapsules utf8ByteTokenCounter capsules
        ((frame + loadBytes first rest (coreSelection (first :: rest)) 0 : Nat) : Int)) () := by
  have hconsistent := h.consistent_ordered hordered
  refine reorganizeCapsules_parts h hordered _ fun beforeTokens => ?_
  refine ((selectMandatory_packs hframe _ (h.consistent_core hordered)).weaken (fun _ _ he => he.1)
    fun _ _ h => h).bind fun mandatory _ hmandatory => ?_
  obtain ⟨⟨summaries, hsummaries, hbalanced⟩, _⟩ := hmandatory
  refine ((selectOptional_full hframe hfloats hbalanced hconsistent rfl).weaken
    (fun _ _ he => he.elim) fun _ _ h => h).bind fun final _ hfinal => ?_
  obtain ⟨⟨entries, hledger⟩, hselected⟩ := hfinal
  have hempty : ∀ field ∈ ItemField.optional, final.selected field = [] := by
    intro field hfield
    have hnone : coreSelection (first :: rest) field = [] :=
      if_neg fun hcore => ItemField.not_mem_optional_of_mem_core hcore hfield
    exact (hnone ▸ hselected field).eq_nil
  have hreleased : 10 ≤ nonSummaryReleaseCount final.records := by
    rw [hledger.released_of_empty hsummaries hempty, hledger.optional_entries]
    exact hmany
  refine (finishReorganization_packs hframe _ hledger.selected_nodup beforeTokens).weaken
    (fun _ _ he => he.1) fun _ _ hfits => ?_
  have hmore := loadBytes_zero_lt first rest hreleased final.selected
  rw [loadBytes_perm first rest hselected 0] at hmore
  omega

/-- With ten items to release, a reorganization does not fail closed only where it must. -/
theorem not_failsClosed_of_many (h : Reorganizable capsules) (hframe : Framed first rest frame)
    (hfloats : ShortFloats) (hordered : orderedCapsules capsules = first :: rest)
    (hmany : 10 ≤ (optionalIdentities (first :: rest)).length) : ¬ FailsClosed capsules := by
  intro hclosed
  have hraises := reorganizeCapsules_full h hframe hfloats hordered hmany
  cases hrun : reorganizeCapsules utf8ByteTokenCounter capsules
      ((frame + loadBytes first rest (coreSelection (first :: rest)) 0 : Nat) : Int) () with
  | ok result _ => exact hraises.ok hrun
  | error e _ =>
      obtain ⟨required, budget, rfl⟩ := hraises.error hrun
      obtain ⟨tokens, htokens, hover⟩ := (hclosed.raises_iff _).mp ⟨required, budget, hrun⟩
      rw [coreTokens_eq hframe hordered] at htokens
      obtain rfl := Except.ok.inj htokens
      exact Nat.lt_irrefl _ hover

omit [Hashlib] [WireText] in
/-- The order of the capsules does not change how many items may be released. -/
theorem optionalIdentities_ordered (capsules : List ContextCapsuleEnvelope) :
    (optionalIdentities (orderedCapsules capsules)).length =
      (optionalIdentities capsules).length := by
  refine List.Perm.length_eq ?_
  refine (List.perm_ext_iff_of_nodup (List.nodup_dedup _) (List.nodup_dedup _)).mpr fun identity => ?_
  simp only [List.mem_dedup, List.mem_map, mem_sourceItems_ordered]

/-- A reorganization by bytes fails closed only where it must, for all budgets, exactly where at most
nine items of its capsules may be released. -/
theorem fails_closed_iff (hdigests : HexDigests) (hfloats : ShortFloats)
    (h : Reorganizable capsules) :
    FailsClosed capsules ↔ (optionalIdentities capsules).length ≤ 9 := by
  obtain ⟨first, rest, hordered⟩ := h.ordered_cons
  obtain ⟨frame, hframe⟩ := buildCapsule_bytes first rest hdigests
  rw [← optionalIdentities_ordered, hordered]
  constructor
  · intro hclosed
    by_contra hmany
    exact not_failsClosed_of_many h hframe hfloats hordered (Nat.lt_of_not_le hmany) hclosed
  · exact failsClosed_of_few h hframe hordered

end Runs

/-! ## Samples -/

namespace FailsClosedSample

scoped instance : Hashlib := .sha256

scoped instance : WireText :=
  ⟨fun value => if value = UnitFloat.one then "1.0" else "0.0", fun _ => "1970-01-01T00:00:00Z"⟩

/-- A short goal. -/
def goal (claimId : {claimId : String // claimId ≠ ""}) : CapsuleClaim where
  claimId := claimId
  text := "Ship"
  status := .active
  confidence := .one
  sourceEventIds := ["e1"]
  valid := ⟨claimId.2, by decide, by decide⟩

/-- A capsule with some goals. -/
def capsuleData (goals : List CapsuleClaim) : CapsuleData where
  capsuleId := "c1"
  schemaVersion := "2.1.0"
  level := .micro
  sessionKey := ⟨"p", "m", "s", none, "u", "c", none, SessionKey.sample_nonEmpty⟩
  coveredEventStart := 1
  coveredEventEnd := 1
  sourceEventIds := ["e1"]
  goals := goals
  constraints := []
  decisions := []
  progress := []
  openLoops := []
  preferences := []
  entities := []
  emotionalContext := []
  exactAnchors := []
  dependencies := []
  narrativeSummary := "summary"
  tokenCost := 1
  quality := ⟨true, .one, .one, 0, 0⟩
  createdAt := ⟨0, 0⟩

/-- A decision between two ways to ship. -/
def decision : Decision where
  decisionId := "d0"
  text := "Ship on Monday"
  status := .active
  confidence := .one
  sourceEventIds := ["e1"]
  rationale := "The tests are green"
  alternatives := ["Ship in two parts", "Wait for the review"]
  supersedes := []
  rejectedBecause := ""

/-- The version to ship. -/
def anchor : CapsuleAnchor where
  anchorId := "a0"
  anchorType := .name
  exactText := "v2.1.0"
  sourceEventIds := ["e1"]
  status := .active
  importance := .one

/-- What the release needs. -/
def dependency : Dependency where
  dependencyId := "p0"
  kind := "package"
  targetId := "server"
  sourceEventIds := ["e1"]

/-- A capsule with a goal, a decision, an anchor and a dependency. -/
def small : ContextCapsuleEnvelope :=
  ⟨{ capsuleData [goal ⟨"g0", by decide⟩] with
      decisions := [decision], exactAnchors := [anchor], dependencies := [dependency] }, by decide⟩

/-- A capsule with ten goals. -/
def large : ContextCapsuleEnvelope :=
  ⟨capsuleData [goal ⟨"g0", by decide⟩, goal ⟨"g1", by decide⟩, goal ⟨"g2", by decide⟩,
    goal ⟨"g3", by decide⟩, goal ⟨"g4", by decide⟩, goal ⟨"g5", by decide⟩, goal ⟨"g6", by decide⟩,
    goal ⟨"g7", by decide⟩, goal ⟨"g8", by decide⟩, goal ⟨"g9", by decide⟩], by decide⟩

/-- The floats of the samples are short. -/
theorem shortFloats : ShortFloats := by
  intro value
  show (if value = UnitFloat.one then "1.0" else "0.0").utf8ByteSize ≤ 24
  split <;> decide

/-- One capsule is not refused when its items are consistent and name its sources. -/
theorem reorganizable_single {capsule : ContextCapsuleEnvelope}
    (hinputs : (validateReorganizationInputs [capsule] 0).isOk = true)
    (hconsistent : Consistent (sourceItems ItemField.all [capsule])) : Reorganizable [capsule] where
  inputs := by
    cases h : validateReorganizationInputs [capsule] 0 with
    | ok => rfl
    | error e =>
        rw [h] at hinputs
        cases hinputs
  session := by
    intro left hleft right hright
    rw [List.mem_singleton.mp hleft, List.mem_singleton.mp hright]
  consistent := hconsistent

end FailsClosedSample

open FailsClosedSample in
/-- A reorganization of a goal and a decision beside an anchor and a dependency fails closed only where it
must. -/
theorem fails_closed_iff_small : FailsClosed [small] := by
  refine (fails_closed_iff hexDigests_sha256 shortFloats ?_).mpr (by decide +kernel)
  exact reorganizable_single (by decide +kernel) (by unfold Consistent; decide +kernel)

open FailsClosedSample in
/-- The capsule with ten goals has no anchors and dependencies. Without its goals it takes 679 bytes, and
its reorganization within 679 bytes raises `ReorganizationBudgetError`. -/
theorem large_not_failsClosed :
    Reorganizable [large] ∧ coreTokens [large] 679 = .ok 679 ∧
      (∃ required budget, reorganizeCapsules utf8ByteTokenCounter [large] 679 () =
        .error (.budgetError required budget) ()) ∧ ¬ FailsClosed [large] := by
  have h : Reorganizable [large] :=
    reorganizable_single (by decide +kernel) (by unfold Consistent; decide +kernel)
  have hordered : orderedCapsules [large] = [large] := rfl
  obtain ⟨frame, hframe⟩ := buildCapsule_bytes large [] hexDigests_sha256
  have hcore : frame + loadBytes large [] (coreSelection [large]) 0 = 679 := by
    have hcount : (coreTokens [large] 679).toOption = some 679 := by decide +kernel
    rw [coreTokens_eq hframe hordered] at hcount
    exact Option.some.inj hcount
  have hmany : 10 ≤ (optionalIdentities [large]).length := by decide +kernel
  have hraises := reorganizeCapsules_full h hframe shortFloats hordered hmany
  rw [hcore] at hraises
  refine ⟨h, (coreTokens_eq hframe hordered 679).trans (congrArg Except.ok hcore), ?_,
    not_failsClosed_of_many h hframe shortFloats hordered hmany⟩
  cases hrun : reorganizeCapsules utf8ByteTokenCounter [large] ((679 : Nat) : Int) () with
  | ok result _ => exact absurd (hraises.ok hrun) id
  | error e _ =>
      obtain ⟨required, budget, rfl⟩ := hraises.error hrun
      exact ⟨required, budget, rfl⟩

end AstrContinuum
