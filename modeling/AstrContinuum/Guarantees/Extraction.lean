import AstrContinuum.Compaction.Extraction
import AstrContinuum.Domain.Quoting
import AstrContinuum.Reorganization.Items

/-!
# Exact extraction

`extraction_exact_iff` says when the capsule of an accepted answer is an exact extraction of its segment:
when no two selections of one list differ in their confidence or importance only. Those are not digested
into the ids, and the lists of a capsule are compared by whole values. Everything else that an exact
extraction asks for holds of every accepted answer.
-/

namespace AstrContinuum

open Checked Effects

/-! ## The property -/

/-- The texts of an item that are copied from its event. -/
def CapsuleItem.texts : CapsuleItem → List String
  | .claim item => [item.text]
  | .decision item => item.text :: item.rationale :: item.rejectedBecause :: item.alternatives
  | .entity item => item.canonicalName :: item.aliases
  | .anchor item => [item.exactText]
  | .dependency _ => []

/-- A capsule is an exact and well identified extraction of a segment. -/
structure ExactExtraction (segment : EventSegment) (capsule : ContextCapsuleEnvelope) : Prop where
  copied : ∀ field, ∀ item ∈ capsule.items field, ∃ event ∈ segment.events,
    item.sourceEventIds = [event.eventId] ∧
      ∀ text ∈ item.texts, text ≠ "" → containsText text event.content = true
  cited : ∀ event ∈ segment.events, event.content ≠ "" →
    ∃ field, ∃ item ∈ capsule.items field, event.eventId ∈ item.sourceEventIds
  sources : capsule.sourceEventIds = segment.events.map fun event => event.eventId
  coverage : capsule.coveredEventStart = segment.startSequence ∧
    capsule.coveredEventEnd = segment.endSequence
  identified : ∀ field, ∀ item ∈ capsule.items field, ∀ other ∈ capsule.items field,
    item.itemId = other.itemId → item = other

/-! ## Picks -/

/-- A selection of an answer, of any list. -/
inductive Pick
  | span (category : String) (item : Span)
  | decision (item : DecisionSelection)
  | entity (item : EntitySelection)
  | anchor (item : AnchorSelection)
deriving DecidableEq

namespace Pick

/-- The event that is cited. -/
def eventId : Pick → String
  | .span _ item => item.eventId
  | .decision item => item.eventId
  | .entity item => item.eventId
  | .anchor item => item.eventId

/-- The texts that are copied. -/
def texts : Pick → List String
  | .span _ item => [item.quote]
  | .decision item => item.quote :: item.rationale :: item.rejectedBecause :: item.alternatives
  | .entity item => item.quote :: item.aliases
  | .anchor item => [item.quote]

/-- What the id is a digest of. -/
def idText : Pick → String
  | .span _ item => item.idText
  | .decision item => item.idText
  | .entity item => item.idText
  | .anchor item => anchorIdText item.eventId item.quote item.anchorType

/-- The word before the digest. -/
def label : Pick → String
  | .span category _ => category
  | .decision _ => "decision"
  | .entity _ => "entity"
  | .anchor _ => "anchor"

/-- The selection without its confidence or importance. -/
def unweighted : Pick → Pick
  | .span category item => .span category { item with confidence := .one }
  | .decision item => .decision { item with confidence := .one }
  | .entity item => .entity item
  | .anchor item => .anchor { item with importance := .one }

/-- The item that a selection becomes. -/
def item [Hashlib] : Pick → CapsuleItem
  | .span category item => .ofClaim (claimOfSpan category item)
  | .decision item => .decision
      ⟨stableId "decision" item.idText, item.quote, .active, item.confidence, [item.eventId],
        item.rationale, item.alternatives, [], item.rejectedBecause⟩
  | .entity item => .entity
      ⟨stableId "entity" item.idText, item.kind, item.quote, item.aliases, [item.eventId]⟩
  | .anchor item => .anchor (anchorOfSelection item)

/-- The item has the id, the source and the texts of the selection. -/
theorem item_fields [Hashlib] (pick : Pick) :
    pick.item.itemId = stableId pick.label pick.idText ∧
      pick.item.sourceEventIds = [pick.eventId] ∧ pick.item.texts = pick.texts := by
  cases pick <;> exact ⟨rfl, rfl, rfl⟩

/-- The weight is not digested. -/
theorem idText_unweighted (pick : Pick) : pick.unweighted.idText = pick.idText := by
  cases pick <;> rfl

end Pick

/-- The selections of an answer for each list of items. -/
def SegmentExtraction.picks (extraction : SegmentExtraction) : ItemField → List Pick
  | .goals => extraction.goals.map (.span "goal")
  | .constraints => extraction.constraints.map (.span "constraint")
  | .decisions => extraction.decisions.map .decision
  | .progress => extraction.progress.map (.span "progress")
  | .openLoops => extraction.openLoops.map (.span "open_loop")
  | .preferences => extraction.preferences.map (.span "preference")
  | .entities => extraction.entities.map .entity
  | .emotionalContext => extraction.emotionalContext.map (.span "emotional")
  | .exactAnchors => extraction.anchors.map .anchor
  | .dependencies => []

/-- No two selections of one list differ in their confidence or importance only. -/
def SegmentExtraction.SelectsOnce (extraction : SegmentExtraction) : Prop :=
  ∀ field, ∀ pick ∈ extraction.picks field, ∀ other ∈ extraction.picks field,
    pick.unweighted = other.unweighted → pick = other

/-- The texts that the ids of the items are digests of. -/
def SegmentExtraction.idTexts (extraction : SegmentExtraction) : Set String :=
  {text | ∃ field, ∃ pick ∈ extraction.picks field, pick.idText = text}

/-! ## Ids -/

/-- The texts of a list of strings tell lists apart. -/
theorem textsSurface_delimited {texts others : List String} :
    Delimited (textsSurface texts) (textsSurface others) :=
  fun _ _ heq => congrArg textsSurface (strings_delimited heq)

/-- The text of a list of strings tells lists apart. -/
theorem textsSurface_injective : Function.Injective textsSurface := by
  intro texts others h
  have heq : (textsSurface texts).toList ++ [] = (textsSurface others).toList ++ [] := by rw [h]
  exact strings_delimited heq

/-- The value of an anchor type tells types apart. -/
theorem AnchorType.value_injective : Function.Injective AnchorType.value := by
  intro left right h
  cases left <;> cases right <;> first | rfl | exact absurd h (by decide)

/-- What the id of a claim is a digest of tells spans apart. -/
theorem Span.idText_inj {item other : Span} (h : item.idText = other.idText) :
    item.eventId = other.eventId ∧ item.quote = other.quote := by
  have hs : List.Forall₂ SameKey
      [("event_id", jsonString item.eventId), ("quote", jsonString item.quote)]
      [("event_id", jsonString other.eventId), ("quote", jsonString other.quote)] :=
    .cons ⟨rfl, jsonString_delimited⟩ (.cons ⟨rfl, jsonString_delimited⟩ .nil)
  have hkeys : ["event_id", "quote"].Nodup := by decide
  have hvalue := writeMembers_value hs h hkeys
  exact ⟨jsonString_injective (hvalue "event_id" (by simp) (by simp)),
    jsonString_injective (hvalue "quote" (by simp) (by simp))⟩

/-- What the id of a decision is a digest of tells decisions apart. -/
theorem DecisionSelection.idText_inj {item other : DecisionSelection}
    (h : item.idText = other.idText) :
    item.eventId = other.eventId ∧ item.quote = other.quote ∧ item.rationale = other.rationale ∧
      item.alternatives = other.alternatives ∧ item.rejectedBecause = other.rejectedBecause := by
  have hs : List.Forall₂ SameKey
      [("event_id", jsonString item.eventId), ("quote", jsonString item.quote),
        ("rationale", jsonString item.rationale), ("alternatives", textsSurface item.alternatives),
        ("rejected_because", jsonString item.rejectedBecause)]
      [("event_id", jsonString other.eventId), ("quote", jsonString other.quote),
        ("rationale", jsonString other.rationale), ("alternatives", textsSurface other.alternatives),
        ("rejected_because", jsonString other.rejectedBecause)] :=
    .cons ⟨rfl, jsonString_delimited⟩ (.cons ⟨rfl, jsonString_delimited⟩
      (.cons ⟨rfl, jsonString_delimited⟩ (.cons ⟨rfl, textsSurface_delimited⟩
        (.cons ⟨rfl, jsonString_delimited⟩ .nil))))
  have hkeys : ["event_id", "quote", "rationale", "alternatives", "rejected_because"].Nodup := by
    decide
  have hvalue := writeMembers_value hs h hkeys
  exact ⟨jsonString_injective (hvalue "event_id" (by simp) (by simp)),
    jsonString_injective (hvalue "quote" (by simp) (by simp)),
    jsonString_injective (hvalue "rationale" (by simp) (by simp)),
    textsSurface_injective (hvalue "alternatives" (by simp) (by simp)),
    jsonString_injective (hvalue "rejected_because" (by simp) (by simp))⟩

/-- What the id of an entity is a digest of tells entities apart. -/
theorem EntitySelection.idText_inj {item other : EntitySelection} (h : item.idText = other.idText) :
    item.eventId = other.eventId ∧ item.quote = other.quote ∧ item.kind = other.kind ∧
      item.aliases = other.aliases := by
  have hs : List.Forall₂ SameKey
      [("event_id", jsonString item.eventId), ("quote", jsonString item.quote),
        ("kind", jsonString item.kind), ("aliases", textsSurface item.aliases)]
      [("event_id", jsonString other.eventId), ("quote", jsonString other.quote),
        ("kind", jsonString other.kind), ("aliases", textsSurface other.aliases)] :=
    .cons ⟨rfl, jsonString_delimited⟩ (.cons ⟨rfl, jsonString_delimited⟩
      (.cons ⟨rfl, jsonString_delimited⟩ (.cons ⟨rfl, textsSurface_delimited⟩ .nil)))
  have hkeys : ["event_id", "quote", "kind", "aliases"].Nodup := by decide
  have hvalue := writeMembers_value hs h hkeys
  exact ⟨jsonString_injective (hvalue "event_id" (by simp) (by simp)),
    jsonString_injective (hvalue "quote" (by simp) (by simp)),
    jsonString_injective (hvalue "kind" (by simp) (by simp)),
    textsSurface_injective (hvalue "aliases" (by simp) (by simp))⟩

/-- What the id of an anchor is a digest of tells anchors apart. -/
theorem anchorIdText_inj {eventId eventId' quote quote' : String} {anchorType anchorType' : AnchorType}
    (h : anchorIdText eventId quote anchorType = anchorIdText eventId' quote' anchorType') :
    eventId = eventId' ∧ quote = quote' ∧ anchorType = anchorType' := by
  have hs : List.Forall₂ SameKey
      [("event_id", jsonString eventId), ("quote", jsonString quote),
        ("type", jsonString anchorType.value)]
      [("event_id", jsonString eventId'), ("quote", jsonString quote'),
        ("type", jsonString anchorType'.value)] :=
    .cons ⟨rfl, jsonString_delimited⟩ (.cons ⟨rfl, jsonString_delimited⟩
      (.cons ⟨rfl, jsonString_delimited⟩ .nil))
  have hkeys : ["event_id", "quote", "type"].Nodup := by decide
  have hvalue := writeMembers_value hs h hkeys
  exact ⟨jsonString_injective (hvalue "event_id" (by simp) (by simp)),
    jsonString_injective (hvalue "quote" (by simp) (by simp)),
    AnchorType.value_injective (jsonString_injective (hvalue "type" (by simp) (by simp)))⟩

/-- Two selections of one list. -/
inductive Pick.Alike : Pick → Pick → Prop
  | span (category : String) (item other : Span) : Alike (.span category item) (.span category other)
  | decision (item other : DecisionSelection) : Alike (.decision item) (.decision other)
  | entity (item other : EntitySelection) : Alike (.entity item) (.entity other)
  | anchor (item other : AnchorSelection) : Alike (.anchor item) (.anchor other)

/-- The selections of one list are of one kind. -/
theorem SegmentExtraction.picks_alike {extraction : SegmentExtraction} {field : ItemField}
    {pick other : Pick} (hpick : pick ∈ extraction.picks field)
    (hother : other ∈ extraction.picks field) : pick.Alike other := by
  cases field with
  | dependencies => exact absurd hpick List.not_mem_nil
  | _ =>
      obtain ⟨item, _, rfl⟩ := List.mem_map.mp hpick
      obtain ⟨item', _, rfl⟩ := List.mem_map.mp hother
      constructor

namespace Pick.Alike

variable {pick other : Pick}

/-- They have one word before their digests. -/
theorem label (h : pick.Alike other) : pick.label = other.label := by
  cases h <;> rfl

/-- The digested text tells them apart, but for the weight. -/
theorem unweighted (h : pick.Alike other) (htext : pick.idText = other.idText) :
    pick.unweighted = other.unweighted := by
  cases h with
  | span category item other =>
      obtain ⟨eventId, quote, _, _⟩ := item
      obtain ⟨rfl, rfl⟩ := Span.idText_inj htext
      rfl
  | decision item other =>
      obtain ⟨⟨eventId, quote, _, _⟩, rationale, alternatives, rejectedBecause⟩ := item
      obtain ⟨rfl, rfl, rfl, rfl, rfl⟩ := DecisionSelection.idText_inj htext
      rfl
  | entity item other =>
      obtain ⟨eventId, quote, kind, aliases, _⟩ := item
      obtain ⟨rfl, rfl, rfl, rfl⟩ := EntitySelection.idText_inj htext
      rfl
  | anchor item other =>
      obtain ⟨eventId, quote, anchorType, _, _⟩ := item
      obtain ⟨rfl, rfl, rfl⟩ := anchorIdText_inj htext
      rfl

variable [Hashlib]

/-- The item tells them apart. -/
theorem eq_of_item (h : pick.Alike other) (hitem : pick.item = other.item) : pick = other := by
  cases h with
  | span category item other =>
      obtain ⟨eventId, quote, confidence, _⟩ := item
      obtain ⟨eventId', quote', confidence', _⟩ := other
      have hfields := CapsuleItem.claim.inj hitem
      obtain rfl : quote = quote' := congrArg ClaimFields.text hfields
      obtain rfl : confidence = confidence' := congrArg ClaimFields.confidence hfields
      obtain rfl : eventId = eventId' :=
        List.head_eq_of_cons_eq (congrArg ClaimFields.sourceEventIds hfields)
      rfl
  | decision item other =>
      obtain ⟨⟨eventId, quote, confidence, _⟩, rationale, alternatives, rejectedBecause⟩ := item
      obtain ⟨⟨eventId', quote', confidence', _⟩, rationale', alternatives', rejectedBecause'⟩ := other
      have hfields := CapsuleItem.decision.inj hitem
      obtain rfl : quote = quote' := congrArg DecisionFields.text hfields
      obtain rfl : confidence = confidence' := congrArg DecisionFields.confidence hfields
      obtain rfl : rationale = rationale' := congrArg DecisionFields.rationale hfields
      obtain rfl : alternatives = alternatives' := congrArg DecisionFields.alternatives hfields
      obtain rfl : rejectedBecause = rejectedBecause' :=
        congrArg DecisionFields.rejectedBecause hfields
      obtain rfl : eventId = eventId' :=
        List.head_eq_of_cons_eq (congrArg DecisionFields.sourceEventIds hfields)
      rfl
  | entity item other =>
      obtain ⟨eventId, quote, kind, aliases, _⟩ := item
      obtain ⟨eventId', quote', kind', aliases', _⟩ := other
      have hfields := CapsuleItem.entity.inj hitem
      obtain rfl : quote = quote' := congrArg EntityFields.canonicalName hfields
      obtain rfl : kind = kind' := congrArg EntityFields.kind hfields
      obtain rfl : aliases = aliases' := congrArg EntityFields.aliases hfields
      obtain rfl : eventId = eventId' :=
        List.head_eq_of_cons_eq (congrArg EntityFields.sourceEventIds hfields)
      rfl
  | anchor item other =>
      obtain ⟨eventId, quote, anchorType, importance, _⟩ := item
      obtain ⟨eventId', quote', anchorType', importance', _⟩ := other
      have hfields := CapsuleItem.anchor.inj hitem
      obtain rfl : quote = quote' := congrArg CapsuleAnchor.exactText hfields
      obtain rfl : anchorType = anchorType' := congrArg CapsuleAnchor.anchorType hfields
      obtain rfl : importance = importance' := congrArg CapsuleAnchor.importance hfields
      obtain rfl : eventId = eventId' :=
        List.head_eq_of_cons_eq (congrArg CapsuleAnchor.sourceEventIds hfields)
      rfl

/-- Two items of one list have one id exactly where their selections differ in the weight only. -/
theorem itemId_iff (h : pick.Alike other) {texts : Set String}
    (hcollision : Set.InjOn Hashlib.sha256Hexdigest texts) (hpick : pick.idText ∈ texts)
    (hother : other.idText ∈ texts) :
    pick.item.itemId = other.item.itemId ↔ pick.unweighted = other.unweighted := by
  rw [(Pick.item_fields pick).1, (Pick.item_fields other).1, h.label]
  constructor
  · intro hid
    have hlists := congrArg String.toList hid
    unfold stableId at hlists
    simp only [String.toList_append, List.append_assoc] at hlists
    have hdigests := List.append_cancel_left (List.append_cancel_left hlists)
    exact h.unweighted (hcollision hpick hother (String.toList_injective hdigests))
  · intro hunweighted
    have htext : pick.idText = other.idText := by
      rw [← Pick.idText_unweighted pick, ← Pick.idText_unweighted other, hunweighted]
    rw [htext]

end Pick.Alike

/-! ## What is accepted -/

/-- The texts are empty or in the content under the id. -/
def EventContents.Quotes (contents : EventContents) (eventId : String) (texts : List String) : Prop :=
  ∃ content, contents.get eventId = some content ∧
    ∀ text ∈ texts, text ≠ "" → containsText text content = true

/-- A quote that is exact is in the content under its id. -/
theorem exactText_ok {contents : EventContents} {eventId quote result : String}
    (h : exactText contents eventId quote = .ok result) : contents.Quotes eventId [quote] := by
  obtain ⟨content, hcontent, h⟩ := bind_ok.mp h
  obtain ⟨_, hquote, _⟩ := bind_ok.mp h
  refine ⟨content, orMissing_ok.mp hcontent, fun text htext _ => ?_⟩
  rw [List.mem_singleton.mp htext]
  exact (require_ok.mp hquote).2

/-- Quotes of one content are quotes together. -/
theorem EventContents.Quotes.append {contents : EventContents} {eventId : String}
    {texts others : List String} (h : contents.Quotes eventId texts)
    (hothers : contents.Quotes eventId others) : contents.Quotes eventId (texts ++ others) := by
  obtain ⟨content, hcontent, htexts⟩ := h
  obtain ⟨content', hcontent', hothers⟩ := hothers
  obtain rfl : content = content' := Option.some.inj (hcontent.symm.trans hcontent')
  refine ⟨content, hcontent, fun text htext => ?_⟩
  rcases List.mem_append.mp htext with hleft | hright
  · exact htexts text hleft
  · exact hothers text hright

/-- A text that is empty or exact is so. -/
theorem exactOrEmpty_ok {contents : EventContents} {eventId quote result : String}
    {texts : List String} (htexts : contents.Quotes eventId texts)
    (h : exactOrEmpty contents eventId quote = .ok result) :
    contents.Quotes eventId (texts ++ [quote]) := by
  unfold exactOrEmpty at h
  by_cases hquote : quote = ""
  · obtain ⟨content, hcontent, htexts⟩ := htexts
    refine ⟨content, hcontent, fun text htext hne => ?_⟩
    rcases List.mem_append.mp htext with hleft | hright
    · exact htexts text hleft hne
    · exact absurd ((List.mem_singleton.mp hright).trans hquote) hne
  · rw [if_neg hquote] at h
    exact htexts.append (exactText_ok h)

/-- Texts that are exact one by one are quotes together. -/
theorem mapM_exactText_ok {contents : EventContents} {eventId : String} {texts others results : List String}
    (htexts : contents.Quotes eventId texts)
    (h : others.mapM (exactText contents eventId) = .ok results) :
    contents.Quotes eventId (texts ++ others) := by
  obtain ⟨content, hcontent, htexts⟩ := htexts
  refine ⟨content, hcontent, fun text htext hne => ?_⟩
  rcases List.mem_append.mp htext with hleft | hright
  · exact htexts text hleft hne
  · obtain ⟨result, _, hresult⟩ := exists_result_of_mapM h hright
    obtain ⟨content', hcontent', hquote⟩ := exactText_ok hresult
    obtain rfl : content = content' := Option.some.inj (hcontent.symm.trans hcontent')
    exact hquote text List.mem_cons_self hne

/-- The check of a selection. -/
def Pick.check (contents : EventContents) : Pick → Except ExtractionFailure Unit
  | .span _ item => checkSpan contents item
  | .decision item => checkDecision contents item
  | .entity item => checkEntity contents item
  | .anchor item => checkAnchor contents item

/-- A selection that is checked is quoted. -/
theorem Pick.check_ok {contents : EventContents} {pick : Pick} (h : pick.check contents = .ok ()) :
    contents.Quotes pick.eventId pick.texts := by
  cases pick with
  | span category item =>
      obtain ⟨_, hquote, _⟩ := bind_ok.mp h
      exact exactText_ok hquote
  | decision item =>
      obtain ⟨_, hquote, h⟩ := bind_ok.mp h
      obtain ⟨_, hrationale, h⟩ := bind_ok.mp h
      obtain ⟨_, hrejected, h⟩ := bind_ok.mp h
      obtain ⟨_, halternatives, _⟩ := bind_ok.mp h
      exact mapM_exactText_ok
        (exactOrEmpty_ok (exactOrEmpty_ok (exactText_ok hquote) hrationale) hrejected) halternatives
  | entity item =>
      obtain ⟨_, hquote, h⟩ := bind_ok.mp h
      obtain ⟨_, haliases, _⟩ := bind_ok.mp h
      exact mapM_exactText_ok (exactText_ok hquote) haliases
  | anchor item =>
      obtain ⟨_, hquote, _⟩ := bind_ok.mp h
      exact exactText_ok hquote

/-- A selection of a group that is checked is checked. -/
theorem Pick.check_of_mem {α : Type} {contents : EventContents} {wrap : α → Pick} {group : List α}
    {pick : Pick} (hpick : pick ∈ group.map wrap)
    (h : ∀ item ∈ group, (wrap item).check contents = .ok ()) : pick.check contents = .ok () := by
  obtain ⟨item, hitem, rfl⟩ := List.mem_map.mp hpick
  exact h item hitem

/-- A loop over a group checks every selection of it and collects their events. -/
theorem selectEach_ok {α : Type} {check : α → Except ExtractionFailure Unit} {eventId : α → String}
    {selected result : List String} {group : List α}
    (h : selectEach check eventId selected group = .ok result) :
    (∀ item ∈ group, check item = .ok ()) ∧ result = selected ++ group.map eventId := by
  unfold selectEach at h
  induction group generalizing selected with
  | nil =>
      obtain rfl := Except.ok.inj h
      exact ⟨fun _ hitem => absurd hitem List.not_mem_nil, (List.append_nil _).symm⟩
  | cons item group ih =>
      rw [forEach_cons] at h
      obtain ⟨next, hitem, h⟩ := bind_ok.mp h
      obtain ⟨_, hcheck, hnext⟩ := bind_ok.mp hitem
      obtain rfl := pure_ok.mp hnext
      obtain ⟨hgroup, rfl⟩ := ih h
      refine ⟨fun other hother => ?_, ?_⟩
      · rcases List.mem_cons.mp hother with rfl | hrest
        · exact hcheck
        · exact hgroup other hrest
      · rw [List.map_cons, List.append_assoc, List.singleton_append]

/-- What `_validate_extraction` accepts. -/
structure SegmentExtraction.Accepted (extraction : SegmentExtraction) (segment : EventSegment) :
    Prop where
  quoted : ∀ field, ∀ pick ∈ extraction.picks field,
    segment.contents.Quotes pick.eventId pick.texts
  selected : ∀ event ∈ segment.events, segment.contents.get event.eventId ≠ some "" →
    ∃ field, ∃ pick ∈ extraction.picks field, pick.eventId = event.eventId

/-- An extraction that is validated is accepted. -/
theorem validateExtraction_ok {extraction : SegmentExtraction} {segment : EventSegment}
    {contents : EventContents} (h : validateExtraction extraction segment = .ok contents) :
    contents = segment.contents ∧ extraction.Accepted segment := by
  obtain ⟨_, _, h⟩ := bind_ok.mp h
  obtain ⟨_, rungoals, h⟩ := bind_ok.mp h
  obtain ⟨_, runconstraints, h⟩ := bind_ok.mp h
  obtain ⟨_, runprogress, h⟩ := bind_ok.mp h
  obtain ⟨_, runopen, h⟩ := bind_ok.mp h
  obtain ⟨_, runpreferences, h⟩ := bind_ok.mp h
  obtain ⟨_, runemotional, h⟩ := bind_ok.mp h
  obtain ⟨_, rundecisions, h⟩ := bind_ok.mp h
  obtain ⟨_, runentities, h⟩ := bind_ok.mp h
  obtain ⟨_, runanchors, h⟩ := bind_ok.mp h
  obtain ⟨_, hrequired, hcontents⟩ := bind_ok.mp h
  have hselected := require_ok.mp hrequired
  obtain ⟨hgoals, rfl⟩ := selectEach_ok rungoals
  obtain ⟨hconstraints, rfl⟩ := selectEach_ok runconstraints
  obtain ⟨hprogress, rfl⟩ := selectEach_ok runprogress
  obtain ⟨hopen, rfl⟩ := selectEach_ok runopen
  obtain ⟨hpreferences, rfl⟩ := selectEach_ok runpreferences
  obtain ⟨hemotional, rfl⟩ := selectEach_ok runemotional
  obtain ⟨hdecisions, rfl⟩ := selectEach_ok rundecisions
  obtain ⟨hentities, rfl⟩ := selectEach_ok runentities
  obtain ⟨hanchors, rfl⟩ := selectEach_ok runanchors
  refine ⟨(pure_ok.mp hcontents).symm, ?_, ?_⟩
  · intro field pick hpick
    refine Pick.check_ok ?_
    cases field with
    | goals => exact Pick.check_of_mem hpick hgoals
    | constraints => exact Pick.check_of_mem hpick hconstraints
    | decisions => exact Pick.check_of_mem hpick hdecisions
    | progress => exact Pick.check_of_mem hpick hprogress
    | openLoops => exact Pick.check_of_mem hpick hopen
    | preferences => exact Pick.check_of_mem hpick hpreferences
    | entities => exact Pick.check_of_mem hpick hentities
    | emotionalContext => exact Pick.check_of_mem hpick hemotional
    | exactAnchors => exact Pick.check_of_mem hpick hanchors
    | dependencies => exact absurd hpick List.not_mem_nil
  · intro event hevent hcontent
    have hmem := hselected (event.eventId, event.content)
      (List.mem_map.mpr ⟨event, hevent, rfl⟩) hcontent
    simp only [List.mem_append, List.mem_map, List.nil_append] at hmem
    rcases hmem with (((((((⟨item, hitem, hid⟩ | ⟨item, hitem, hid⟩) | ⟨item, hitem, hid⟩) |
      ⟨item, hitem, hid⟩) | ⟨item, hitem, hid⟩) | ⟨item, hitem, hid⟩) | ⟨item, hitem, hid⟩) |
      ⟨item, hitem, hid⟩) | ⟨item, hitem, hid⟩
    · exact ⟨.goals, _, List.mem_map_of_mem hitem, hid⟩
    · exact ⟨.constraints, _, List.mem_map_of_mem hitem, hid⟩
    · exact ⟨.progress, _, List.mem_map_of_mem hitem, hid⟩
    · exact ⟨.openLoops, _, List.mem_map_of_mem hitem, hid⟩
    · exact ⟨.preferences, _, List.mem_map_of_mem hitem, hid⟩
    · exact ⟨.emotionalContext, _, List.mem_map_of_mem hitem, hid⟩
    · exact ⟨.decisions, _, List.mem_map_of_mem hitem, hid⟩
    · exact ⟨.entities, _, List.mem_map_of_mem hitem, hid⟩
    · exact ⟨.exactAnchors, _, List.mem_map_of_mem hitem, hid⟩

/-! ## The capsule -/

/-- The content of the last event under an id. -/
theorem EventSegment.contents_get {segment : EventSegment} {eventId content : String}
    (h : segment.contents.get eventId = some content) :
    ∃ event ∈ segment.events, event.eventId = eventId ∧ event.content = content := by
  obtain ⟨entry, hentry, rfl⟩ := Option.map_eq_some_iff.mp h
  have hid := List.find?_some hentry
  have hmem := List.mem_reverse.mp (List.mem_of_find?_eq_some hentry)
  obtain ⟨event, hevent, rfl⟩ := List.mem_map.mp hmem
  exact ⟨event, hevent, of_decide_eq_true hid, rfl⟩

/-- The content of an event of a segment without repeated ids. -/
theorem EventSegment.contents_get_of_mem {segment : EventSegment}
    (hdistinct : (segment.events.map fun event => event.eventId).Nodup) {event : EventEnvelope}
    (hevent : event ∈ segment.events) :
    segment.contents.get event.eventId = some event.content := by
  cases hget : segment.contents.get event.eventId with
  | none =>
      have hnone := List.find?_eq_none.mp (Option.map_eq_none_iff.mp hget)
        (event.eventId, event.content)
        (List.mem_reverse.mpr (List.mem_map.mpr ⟨event, hevent, rfl⟩))
      exact absurd (decide_eq_true rfl) hnone
  | some content =>
      obtain ⟨other, hother, hid, rfl⟩ := EventSegment.contents_get hget
      rw [List.inj_on_of_nodup_map hdistinct hother hevent hid]

section Capsule

variable [Hashlib]

/-- The claims that are made are the items of their spans. -/
theorem map_claimOfSpan (category : String) (group : List Span) :
    (group.map (claimOfSpan category)).map CapsuleItem.ofClaim =
      (group.map (Pick.span category)).map Pick.item := by
  rw [List.map_map, List.map_map]
  rfl

/-- A decision that is made is the item of its selection. -/
theorem decisionOfSelection_ok {item : DecisionSelection} {decision : Decision}
    (h : decisionOfSelection item = .ok decision) :
    CapsuleItem.ofDecision decision = (Pick.decision item).item := by
  unfold decisionOfSelection at h
  split at h
  · obtain rfl := Except.ok.inj h
    rfl
  · cases h

/-- An entity that is made is the item of its selection. -/
theorem entityOfSelection_ok {item : EntitySelection} {entity : Entity}
    (h : entityOfSelection item = .ok entity) :
    CapsuleItem.ofEntity entity = (Pick.entity item).item := by
  unfold entityOfSelection at h
  split at h
  · obtain rfl := Except.ok.inj h
    rfl
  · cases h

/-- The values that are made of some selections are their items. -/
theorem map_eq_of_mapM {α β ε : Type} {make : α → Except ε β} {write : β → CapsuleItem}
    {pick : α → Pick} (hmake : ∀ a b, make a = .ok b → write b = (pick a).item) {items : List α}
    {values : List β} (h : items.mapM make = .ok values) :
    values.map write = (items.map pick).map Pick.item := by
  have hboth := mapM_ok.mp h
  clear h
  induction hboth with
  | nil => rfl
  | cons hhead htail ih => rw [List.map_cons, List.map_cons, List.map_cons, ih, hmake _ _ hhead]

/-- Where nothing is selected, nothing is there to be selected, and no fallback is made. -/
theorem fallbackAnchor_none {extraction : SegmentExtraction} {segment : EventSegment}
    (h : extraction.Accepted segment) (hempty : extraction.Empty) {event : EventEnvelope}
    (hevent : event ∈ segment.events) {fallback : Option CapsuleAnchor}
    (hfallback : fallbackAnchor event segment.contents = .ok fallback) : fallback = none := by
  obtain ⟨content, hcontent, hfallback⟩ := bind_ok.mp hfallback
  have hget := orMissing_ok.mp hcontent
  have hnone : content = "" := by
    by_contra hne
    obtain ⟨field, pick, hpick, _⟩ := h.selected event hevent (by rw [hget]; simpa using hne)
    obtain ⟨hgoals, hconstraints, hdecisions, hprogress, hopen, hpreferences, hentities, hemotional,
      hanchors⟩ := hempty
    cases field <;> simp_all [SegmentExtraction.picks]
  have hquote : String.ofList ("".toList.drop ("".length - 512)) = "" := by decide
  rw [hnone] at hfallback
  dsimp only at hfallback
  rw [dif_neg (not_not.mpr hquote)] at hfallback
  exact (pure_ok.mp hfallback).symm

variable [WireText]

/-- The items of the capsule of an accepted extraction are those of its selections. -/
theorem extractedCapsule_ok {segment : EventSegment} {extraction : SegmentExtraction}
    {capsule : ContextCapsuleEnvelope} (h : extraction.Accepted segment)
    (hcapsule : extractedCapsule segment extraction segment.contents = .ok capsule) :
    (∀ field, capsule.items field = (extraction.picks field).map Pick.item) ∧
      capsule.sourceEventIds = (segment.events.map fun event => event.eventId) ∧
      capsule.coveredEventStart = segment.startSequence ∧
      capsule.coveredEventEnd = segment.endSequence := by
  obtain ⟨first, hfirst, hcapsule⟩ := bind_ok.mp hcapsule
  obtain ⟨last, hlast, hcapsule⟩ := bind_ok.mp hcapsule
  obtain ⟨anchors, hanchors, hcapsule⟩ := bind_ok.mp hcapsule
  obtain ⟨decisions, hdecisions, hcapsule⟩ := bind_ok.mp hcapsule
  obtain ⟨entities, hentities, hcapsule⟩ := bind_ok.mp hcapsule
  have hmade : anchors = extraction.anchors.map anchorOfSelection := by
    unfold capsuleAnchors at hanchors
    by_cases hempty : extraction.Empty
    · rw [if_pos hempty] at hanchors
      obtain ⟨fallback, hfallback, hanchors⟩ := bind_ok.mp hanchors
      have hevent := List.mem_of_getLast? (orMissing_ok.mp hlast)
      obtain rfl := fallbackAnchor_none h hempty hevent hfallback
      obtain ⟨-, -, -, -, -, -, -, -, hnone⟩ := hempty
      rw [hnone]
      exact (pure_ok.mp hanchors).symm
    · rw [if_neg hempty] at hanchors
      exact (pure_ok.mp hanchors).symm
  dsimp only at hcapsule
  split at hcapsule
  · obtain rfl := pure_ok.mp hcapsule
    refine ⟨fun field => ?_, rfl, rfl, rfl⟩
    cases field with
    | decisions => exact map_eq_of_mapM (fun _ _ => decisionOfSelection_ok) hdecisions
    | entities => exact map_eq_of_mapM (fun _ _ => entityOfSelection_ok) hentities
    | dependencies => rfl
    | exactAnchors =>
        show anchors.map CapsuleItem.anchor = (extraction.anchors.map Pick.anchor).map Pick.item
        rw [hmade, List.map_map, List.map_map]
        rfl
    | _ => exact map_claimOfSpan _ _
  · exact absurd hcapsule throw_ok

/-- The capsule of an accepted answer has the items of its selections. -/
theorem compileSegment_ok [JsonReader] [PydanticFloat] {σ : Type} {counter : TokenCounter σ}
    {segment : EventSegment} {raw : Option String} {extraction : SegmentExtraction} {s s' : σ}
    {capsule : ContextCapsuleEnvelope} (hparse : parseOutput raw = .ok extraction)
    (h : compileSegment counter segment raw s = .ok capsule s') :
    extraction.Accepted segment ∧
      (∀ field, capsule.items field = (extraction.picks field).map Pick.item) ∧
      capsule.sourceEventIds = (segment.events.map fun event => event.eventId) ∧
      capsule.coveredEventStart = segment.startSequence ∧
      capsule.coveredEventEnd = segment.endSequence := by
  obtain ⟨parsed, _, runparse, h⟩ := Effects.bind_ok.mp h
  obtain ⟨hparsed, rfl⟩ := perform_ok.mp runparse
  obtain rfl : extraction = parsed := Except.ok.inj (hparse.symm.trans hparsed)
  obtain ⟨contents, _, runcontents, h⟩ := Effects.bind_ok.mp h
  obtain ⟨hcontents, rfl⟩ := perform_ok.mp runcontents
  obtain ⟨rfl, haccepted⟩ := validateExtraction_ok hcontents
  obtain ⟨made, _, runmade, h⟩ := Effects.bind_ok.mp h
  obtain ⟨hmade, rfl⟩ := perform_ok.mp runmade
  obtain ⟨tokenCost, _, _, h⟩ := Effects.bind_ok.mp h
  obtain ⟨hitems, hsources, hstart, hend⟩ := extractedCapsule_ok haccepted hmade
  have hcapsule : (⟨{ made.toCapsuleData with tokenCost := tokenCost }, made.valid⟩ :
      ContextCapsuleEnvelope) = capsule := by
    simpa [pure, EStateM.pure] using (EStateM.Result.ok.inj h).1
  rw [← hcapsule]
  refine ⟨haccepted, fun field => ?_, hsources, hstart, hend⟩
  rw [← hitems field]
  cases field <;> rfl

end Capsule

/-! ## The guarantee -/

/-- The capsule of an accepted answer is an exact and well identified extraction exactly where no two
selections of one list differ in their confidence or importance only. -/
theorem extraction_exact_iff [Hashlib] [WireText] [JsonReader] [PydanticFloat] {σ : Type}
    (counter : TokenCounter σ) {segment : EventSegment} {raw : Option String}
    {extraction : SegmentExtraction} {s s' : σ} {capsule : ContextCapsuleEnvelope}
    (hparse : parseOutput raw = .ok extraction)
    (hcompile : compileSegment counter segment raw s = .ok capsule s')
    (hcollision : Set.InjOn Hashlib.sha256Hexdigest extraction.idTexts) :
    ExactExtraction segment capsule ↔ extraction.SelectsOnce := by
  obtain ⟨haccepted, hitems, hsources, hcoverage⟩ := compileSegment_ok hparse hcompile
  have hidentity {field : ItemField} {pick other : Pick} (hpick : pick ∈ extraction.picks field)
      (hother : other ∈ extraction.picks field) :
      pick.item.itemId = other.item.itemId ↔ pick.unweighted = other.unweighted :=
    (SegmentExtraction.picks_alike hpick hother).itemId_iff hcollision ⟨field, pick, hpick, rfl⟩
      ⟨field, other, hother, rfl⟩
  constructor
  · intro hexact field pick hpick other hother hunweighted
    have hsame := hexact.identified field pick.item (hitems field ▸ List.mem_map_of_mem hpick)
      other.item (hitems field ▸ List.mem_map_of_mem hother) ((hidentity hpick hother).mpr hunweighted)
    exact (SegmentExtraction.picks_alike hpick hother).eq_of_item hsame
  · intro honce
    constructor
    case copied =>
      intro field item hitem
      rw [hitems field] at hitem
      obtain ⟨pick, hpick, rfl⟩ := List.mem_map.mp hitem
      obtain ⟨content, hget, htexts⟩ := haccepted.quoted field pick hpick
      obtain ⟨event, hevent, hid, rfl⟩ := EventSegment.contents_get hget
      obtain ⟨_, hsource, hcopied⟩ := pick.item_fields
      rw [hsource, hcopied, ← hid]
      exact ⟨event, hevent, rfl, htexts⟩
    case cited =>
      intro event hevent hcontent
      have hdistinct : (segment.events.map fun event => event.eventId).Nodup :=
        hsources ▸ capsule.valid.2.2.1.2.2
      have hget := EventSegment.contents_get_of_mem hdistinct hevent
      obtain ⟨field, pick, hpick, hid⟩ := haccepted.selected event hevent (by
        rw [hget]
        exact fun hempty => hcontent (Option.some.inj hempty))
      refine ⟨field, pick.item, hitems field ▸ List.mem_map_of_mem hpick, ?_⟩
      rw [pick.item_fields.2.1, hid]
      exact List.mem_singleton_self _
    case sources => exact hsources
    case coverage => exact hcoverage
    case identified =>
      intro field item hitem other hother hid
      rw [hitems field] at hitem hother
      obtain ⟨pick, hpick, rfl⟩ := List.mem_map.mp hitem
      obtain ⟨second, hsecond, rfl⟩ := List.mem_map.mp hother
      rw [honce field pick hpick second hsecond ((hidentity hpick hsecond).mp hid)]

/-! ## Samples -/

/-- An object between its braces is parsed as it is. -/
theorem parseOutput_object [JsonReader] [PydanticFloat] {inner : String} {value : JsonValue}
    {extraction : SegmentExtraction}
    (hparse : JsonReader.parse ("\x7b" ++ inner ++ "\x7d") = some value)
    (hvalue : SegmentExtraction.modelValidate value = some extraction) :
    parseOutput (some ("\x7b" ++ inner ++ "\x7d")) = .ok extraction := by
  have hchars : ("\x7b" ++ inner ++ "\x7d").toList = '\x7b' :: (inner.toList ++ ['\x7d']) := by
    rw [String.toList_append, String.toList_append]
    rfl
  have hstrip : stripText ("\x7b" ++ inner ++ "\x7d") = "\x7b" ++ inner ++ "\x7d" := by
    have hopen : ¬ isPythonSpace '\x7b' = true := by decide
    have hclose : ¬ isPythonSpace '\x7d' = true := by decide
    rw [← String.toList_inj, stripText, String.toList_ofList, hchars, List.dropWhile_cons_of_neg hopen,
      ← List.cons_append, List.reverse_append, List.reverse_singleton, List.singleton_append,
      List.dropWhile_cons_of_neg hclose, List.reverse_cons, List.reverse_reverse]
  have hfence : isFenced ("\x7b" ++ inner ++ "\x7d") = false := by
    rw [isFenced, hchars]
    rfl
  generalize "\x7b" ++ inner ++ "\x7d" = text at hparse hstrip hfence
  have hunfenced : unfenced text = .ok text := by
    rw [unfenced, hfence]
    rfl
  rw [parseOutput, Checked.bind_ok]
  refine ⟨text, rfl, ?_⟩
  rw [hstrip, hunfenced, Checked.bind_ok]
  refine ⟨text, rfl, ?_⟩
  rw [hparse, Option.bind_some, hvalue]
  rfl

/-- Once its answer is parsed, a segment is compiled from the extraction. -/
theorem compileSegment_of_parse [JsonReader] [PydanticFloat] [Hashlib] [WireText] {σ : Type}
    (counter : TokenCounter σ) (segment : EventSegment) {raw : Option String}
    {extraction : SegmentExtraction} (hparse : parseOutput raw = .ok extraction) :
    compileSegment counter segment raw = (do
      let contents ← perform (validateExtraction extraction segment)
      capsuleOfExtraction counter segment extraction contents) := by
  rw [compileSegment, hparse]
  rfl

namespace ExtractionSample

scoped instance : Hashlib := .sha256

scoped instance : WireText :=
  ⟨fun value => if value = UnitFloat.one then "1.0" else "0.5", fun _ => "1970-01-01T00:00:00Z"⟩

scoped instance : PydanticFloat where
  lax
    | .float literal =>
        if literal = "1.0" then some 1 else if literal = "0.5" then some (1 / 2) else none
    | _ => none

/-- The text of the members of an answer with some goals, decisions and entities. -/
def members (goals decisions entities : String) : String :=
  "\"acknowledged_event_ids\":[\"e1\"],\"goals\":[" ++ goals ++
    "],\"constraints\":[],\"decisions\":[" ++ decisions ++
    "],\"progress\":[],\"open_loops\":[],\"preferences\":[],\"entities\":[" ++ entities ++
    "],\"emotional_context\":[],\"anchors\":[]"

/-- The text of a goal. -/
def goalText (quote confidence : String) : String :=
  "\x7b\"event_id\":\"e1\",\"quote\":\"" ++ quote ++ "\",\"confidence\":" ++ confidence ++ "\x7d"

/-- A goal of an answer. -/
def goalValue (quote confidence : String) : JsonValue :=
  .object [("event_id", .string "e1"), ("quote", .string quote), ("confidence", .float confidence)]

/-- An answer with some goals, decisions and entities. -/
def answer (goals decisions entities : List JsonValue) : JsonValue :=
  .object
    [("acknowledged_event_ids", .array [.string "e1"]), ("goals", .array goals),
      ("constraints", .array []), ("decisions", .array decisions), ("progress", .array []),
      ("open_loops", .array []), ("preferences", .array []), ("entities", .array entities),
      ("emotional_context", .array []), ("anchors", .array [])]

/-- An answer that selects two goals, a decision and an entity. -/
def once : String :=
  "\x7b" ++
    members (goalText "Ship it" "1.0" ++ "," ++ goalText "test it" "0.5")
      ("\x7b\"event_id\":\"e1\",\"quote\":\"Keep the cache\",\"confidence\":1.0," ++
        "\"rationale\":\"\",\"alternatives\":[\"drop it\"],\"rejected_because\":\"too slow\"\x7d")
      ("\x7b\"event_id\":\"e1\",\"quote\":\"cache\",\"kind\":\"component\"," ++
        "\"aliases\":[\"the cache\"]\x7d") ++
    "\x7d"

/-- What a reader makes of it. -/
def onceValue : JsonValue :=
  answer [goalValue "Ship it" "1.0", goalValue "test it" "0.5"]
    [.object
      [("event_id", .string "e1"), ("quote", .string "Keep the cache"), ("confidence", .float "1.0"),
        ("rationale", .string ""), ("alternatives", .array [.string "drop it"]),
        ("rejected_because", .string "too slow")]]
    [.object
      [("event_id", .string "e1"), ("quote", .string "cache"), ("kind", .string "component"),
        ("aliases", .array [.string "the cache"])]]

/-- An answer that selects one goal twice, with two confidences. -/
def twice : String :=
  "\x7b" ++ members (goalText "Ship" "1.0" ++ "," ++ goalText "Ship" "0.5") "" "" ++ "\x7d"

/-- A counter that gives one. -/
def counter : TokenCounter Unit := ⟨fun _ s => (.integer 1, s)⟩

/-- The segment of one user message. -/
def message (content : String) : EventSegment where
  startSequence := 1
  endSequence := 1
  events :=
    [{ eventId := "e1"
       sessionKey := ⟨"p", "m", "s", none, "u", "c", none, SessionKey.sample_nonEmpty⟩
       sequence := 1
       eventType := .userMessage
       role := .user
       content := content
       sourceHook := .onLlmRequest
       idempotencyKey := "k1"
       tokenCount := 1
       createdAt := 0
       valid := ⟨by simp, Nat.le_refl 1, by simp, rfl⟩ }]
  tokenCost := 1
  boundaryReason := .endOfInput

/-- A message with goals, a decision and a thing that it speaks of. -/
def request : EventSegment :=
  message "Ship it and test it. Keep the cache, to drop it is too slow."

/-- A short message. -/
def oneMessage : EventSegment := message "Ship it"

/-- The goal that is selected twice. -/
def span (confidence : UnitFloat) : Span := ⟨"e1", "Ship", confidence, by decide⟩

/-- An extraction of some goals, decisions and entities. -/
def extraction (goals : List Span) (decisions : List DecisionSelection)
    (entities : List EntitySelection) : SegmentExtraction :=
  ⟨["e1"], goals, [], decisions, [], [], [], entities, [], []⟩

namespace Once

/-- The goals. -/
def goals : List Span :=
  [⟨"e1", "Ship it", .one, by decide⟩, ⟨"e1", "test it", .half, by decide⟩]

/-- The decision. -/
def decision : DecisionSelection :=
  ⟨⟨"e1", "Keep the cache", .one, by decide⟩, "", ["drop it"], "too slow"⟩

/-- The entity. -/
def entity : EntitySelection :=
  ⟨"e1", "cache", "component", ["the cache"], by decide⟩

/-- All that is selected. -/
def picks : List Pick :=
  goals.map (.span "goal") ++ [.decision decision, .entity entity]

/-- The reader on the first answer. -/
scoped instance : JsonReader := ⟨fun text => if text = once then some onceValue else none, some⟩

/-- What the first answer is parsed as. -/
theorem parse_once : parseOutput (some once) = .ok (extraction goals [decision] [entity]) :=
  parseOutput_object (if_pos rfl) (by decide +kernel)

/-- The extraction has these selections. -/
theorem mem_picks {field : ItemField} {pick : Pick}
    (h : pick ∈ (extraction goals [decision] [entity]).picks field) : pick ∈ picks := by
  have hfields : ∀ pick ∈ (extraction goals [decision] [entity]).picks field, pick ∈ picks := by
    cases field <;> decide +kernel
  exact hfields pick h

/-- The digests of their texts differ. -/
theorem digests_nodup :
    ((picks.map Pick.idText).map Hashlib.sha256Hexdigest).Nodup := by
  have hdigests : (picks.map Pick.idText).map Hashlib.sha256Hexdigest =
      ["ea716d944b0e6d7045b616954e304a82edea2aca27fced4c35f61ddf740ee2fa",
        "4293cea2f889ce4bdeaa3df08317389f909f8ac27005712e342f3117f76d31e3",
        "920b93a04d2c17b1f2d587cf8ad1fada0be3a780daa07a5e568884152059fcf9",
        "8458aff4fad4586fc9a3c7da4070ffef81f713660feb78c8c2f0144d6d267014"] := by
    decide +kernel
  rw [hdigests]
  decide

end Once

namespace Twice

/-- The reader on the second answer. -/
scoped instance : JsonReader :=
  ⟨fun text => if text = twice then
    some (answer [goalValue "Ship" "1.0", goalValue "Ship" "0.5"] [] []) else none, some⟩

/-- What the second answer is parsed as. -/
theorem parse_twice : parseOutput (some twice) = .ok (extraction [span .one, span .half] [] []) :=
  parseOutput_object (if_pos rfl) (by decide +kernel)

end Twice

end ExtractionSample

open ExtractionSample ExtractionSample.Once in
/-- The capsule of the answer that selects two goals, a decision and an entity is exact. -/
theorem extraction_exact_iff_once :
    ∃ capsule s, compileSegment counter request (some once) () = .ok capsule s ∧
      ExactExtraction request capsule := by
  have hrun : (outcome (compileSegment counter request (some once) ())).toOption.any
      (fun _ => true) = true := by
    rw [compileSegment_of_parse counter request parse_once]
    decide +kernel
  obtain ⟨capsule, s, hcompile, _⟩ := exists_ok_of_any hrun
  refine ⟨capsule, s, hcompile, (extraction_exact_iff counter parse_once hcompile ?_).mpr ?_⟩
  · rintro text ⟨field, pick, hpick, rfl⟩ other ⟨field', second, hsecond, rfl⟩ heq
    exact List.inj_on_of_nodup_map digests_nodup
      (List.mem_map_of_mem (mem_picks hpick)) (List.mem_map_of_mem (mem_picks hsecond)) heq
  · intro field
    cases field <;> decide +kernel

open ExtractionSample ExtractionSample.Twice in
/-- The answer that selects one goal twice is accepted, and its capsule has two goals under one id. -/
theorem twice_not_exact :
    parseOutput (some twice) = .ok (extraction [span .one, span .half] [] []) ∧
      ∃ capsule s, compileSegment counter oneMessage (some twice) () = .ok capsule s ∧
        ¬ ExactExtraction oneMessage capsule := by
  refine ⟨parse_twice, ?_⟩
  have hrun : (outcome (compileSegment counter oneMessage (some twice) ())).toOption.any
      (fun capsule => (capsule.items .goals).any fun goal => (capsule.items .goals).any fun other =>
        decide (goal.itemId = other.itemId ∧ goal ≠ other)) = true := by
    rw [compileSegment_of_parse counter oneMessage parse_twice]
    decide +kernel
  obtain ⟨capsule, s, hcompile, hgoals⟩ := exists_ok_of_any hrun
  refine ⟨capsule, s, hcompile, fun hexact => ?_⟩
  obtain ⟨goal, hgoal, hother⟩ := List.any_eq_true.mp hgoals
  obtain ⟨other, hmem, hboth⟩ := List.any_eq_true.mp hother
  obtain ⟨hsame, hne⟩ := of_decide_eq_true hboth
  exact hne (hexact.identified .goals goal hgoal other hmem hsame)

end AstrContinuum
