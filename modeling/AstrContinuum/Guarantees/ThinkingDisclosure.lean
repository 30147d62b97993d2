import AstrContinuum.Invariants.ProjectedMessages

/-!
# What a rewritten request discloses

No thinking metadata leaves with a message whose `UnreadValues` hold none: the projection drops it, and the
gate sees it everywhere else. A message keeps its texts, its media and its plain reasoning, in their order.
-/

namespace AstrContinuum

namespace ProviderThinking

open Checked

/-! ## Opaque state -/

/-- A value holds thinking metadata: a key of it, or a part of a thinking type, at any depth. -/
inductive HoldsOpaque : JsonValue → Prop
  | key {members : Members} {key : String} {value : JsonValue}
      (hkey : key ∈ nativeAssistantMetadataFields) (h : lookupMember members key = some value) :
      HoldsOpaque (.object members)
  | thinking {members : Members} {partType : String} (htype : partType ∈ thinkingPartTypes)
      (h : lookupMember members "type" = some (.string partType)) : HoldsOpaque (.object members)
  | item {items : List JsonValue} {item : JsonValue} (hitem : item ∈ items) (h : HoldsOpaque item) :
      HoldsOpaque (.array items)
  | member {members : Members} {key : String} {value : JsonValue}
      (hvalue : lookupMember members key = some value) (h : HoldsOpaque value) :
      HoldsOpaque (.object members)

/-- A text holds none. -/
theorem not_holdsOpaque_string {text : String} : ¬ HoldsOpaque (.string text) := nofun

/-- Nor does `None`. -/
theorem not_holdsOpaque_null : ¬ HoldsOpaque .null := nofun

/-- A list holds none when its items hold none. -/
theorem not_holdsOpaque_array {items : List JsonValue} (h : ∀ item ∈ items, ¬ HoldsOpaque item) :
    ¬ HoldsOpaque (.array items)
  | .item hitem hopaque => h _ hitem hopaque

/-- A dictionary holds none when its keys are none of theirs, it is no thinking part and its values hold
none. -/
theorem not_holdsOpaque_object {members : Members}
    (hkeys : ∀ key ∈ nativeAssistantMetadataFields, lookupMember members key = none)
    (htype : ∀ partType, lookupMember members "type" = some (.string partType) →
      partType ∉ thinkingPartTypes)
    (hvalues : ∀ key value, lookupMember members key = some value → ¬ HoldsOpaque value) :
    ¬ HoldsOpaque (.object members) := by
  intro hopaque
  cases hopaque with
  | key hkey h => cases (hkeys _ hkey).symm.trans h
  | thinking hthinking h => exact htype _ h hthinking
  | member hvalue h => exact hvalues _ _ hvalue h

/-- The values of a passed on message that the gate does not look into hold no thinking metadata: its tool
call id, the texts of its text parts and the ids of its media. -/
structure UnreadValues (payload : Members) : Prop where
  toolCallId : ∀ id, lookupMember payload "tool_call_id" = some id → ¬ HoldsOpaque id
  text : ∀ parts, getMember payload "content" = .array parts → ∀ part, .object part ∈ parts →
    ∀ text, lookupMember part "text" = some text → ¬ HoldsOpaque text
  mediaId : ∀ parts, getMember payload "content" = .array parts → ∀ part, .object part ∈ parts →
    ∀ field media, lookupMember part field = some (.object media) →
      ∀ id, lookupMember media "id" = some id → ¬ HoldsOpaque id

/-- What a message holds, a value in it holds. -/
theorem not_holdsOpaque_member {members : Members} (h : ¬ HoldsOpaque (.object members)) {key : String}
    {value : JsonValue} (hvalue : lookupMember members key = some value) : ¬ HoldsOpaque value :=
  fun hopaque => h (.member hvalue hopaque)

/-- A message that holds none holds none in its unread values. -/
theorem unreadValues_of_not {payload : Members} (h : ¬ HoldsOpaque (.object payload)) :
    UnreadValues payload := by
  have hparts {parts : List JsonValue} (hcontent : getMember payload "content" = .array parts)
      {part : Members} (hpart : .object part ∈ parts) : ¬ HoldsOpaque (.object part) := by
    have hlookup := lookupMember_of_getMember hcontent (by simp)
    exact fun hopaque => not_holdsOpaque_member h hlookup (.item hpart hopaque)
  refine ⟨fun id hid => not_holdsOpaque_member h hid, ?_, ?_⟩
  · intro parts hcontent part hpart text htext
    exact not_holdsOpaque_member (hparts hcontent hpart) htext
  · intro parts hcontent part hpart field media hmedia id hid
    exact not_holdsOpaque_member (not_holdsOpaque_member (hparts hcontent hpart) hmedia) hid

/-! ## Parts -/

/-- A medium that the projection accepts and that has no native metadata holds none but in its id. -/
theorem not_holdsOpaque_media {value safe : JsonValue} (hsafe : safeMediaValue value = .ok safe)
    (hnative : ∀ media, value = .object media → hasAnyKey nativePartMetadataFields media = false)
    (hid : ∀ media, value = .object media → ∀ id, lookupMember media "id" = some id → ¬ HoldsOpaque id) :
    ¬ HoldsOpaque value := by
  cases value with
  | string url => exact not_holdsOpaque_string
  | object media =>
      obtain ⟨_, hwithin, hrest⟩ := bind_ok.mp hsafe
      obtain ⟨url, hurl, -⟩ := bind_ok.mp hrest
      have hkeys := require_ok.mp hwithin
      have hnone {key : String} (hkey : key ∉ ["url", "id"]) : lookupMember media key = none :=
        lookupMember_of_noneOf hkeys (hnative media rfl) hkey
      have hforeign : ∀ key ∈ nativeAssistantMetadataFields, key ∉ ["url", "id"] := by decide
      refine not_holdsOpaque_object (fun key hkey => hnone (hforeign key hkey))
        (fun partType htype => ?_) fun key value hvalue => ?_
      · cases (hnone (by decide)).symm.trans htype
      · by_cases hkeyId : key = "id"
        · exact hid media rfl value (hkeyId ▸ hvalue)
        by_cases hkeyUrl : key = "url"
        · subst hkeyUrl
          have hplain := plainText_eq_some.mp (orMissing_ok.mp hurl)
          rw [getMember_of_lookupMember hvalue] at hplain
          exact hplain ▸ not_holdsOpaque_string
        · cases (hnone (by simp [hkeyUrl, hkeyId])).symm.trans hvalue
  | _ => cases hsafe

/-- A plain part holds none but in its text and in the id of its medium. -/
theorem Plain.not_holdsOpaque {members : Members} {partType : String} (h : Plain members partType)
    (htext : ∀ text, lookupMember members "text" = some text → ¬ HoldsOpaque text)
    (hid : ∀ field media, lookupMember members field = some (.object media) →
      ∀ id, lookupMember media "id" = some id → ¬ HoldsOpaque id) :
    ¬ HoldsOpaque (.object members) := by
  have hknown : partType ∉ thinkingPartTypes ∧ partType ∉ nativeAssistantMetadataFields := by
    rcases h.known with rfl | rfl | rfl <;> decide
  have hforeign : "type" ∉ nativeAssistantMetadataFields := by decide
  refine not_holdsOpaque_object (fun key hkey => h.keys key ?_ ?_) (fun other hother => ?_)
    fun key value hvalue => ?_
  · exact fun hsame => hforeign (hsame ▸ hkey)
  · exact fun hsame => hknown.2 (hsame ▸ hkey)
  · have hsame := (getMember_of_lookupMember hother).symm.trans h.type
    exact JsonValue.string.inj hsame ▸ hknown.1
  · by_cases htype : key = "type"
    · subst htype
      rw [(getMember_of_lookupMember hvalue).symm.trans h.type]
      exact not_holdsOpaque_string
    by_cases hsame : key = partType
    swap
    · cases (h.keys key htype hsame).symm.trans hvalue
    subst hsame
    by_cases hkind : key = "text"
    · exact htext value (hkind ▸ hvalue)
    · obtain ⟨safe, hsafe, hnative⟩ := h.media hkind
      rw [getMember_of_lookupMember hvalue] at hsafe hnative
      exact not_holdsOpaque_media hsafe hnative fun media hmedia id =>
        hid key media (hmedia ▸ hvalue) id

/-- A passed on message holds none exactly when its unread values hold none. -/
theorem PassedOn.holdsOpaque_iff {payload : Members} (h : PassedOn payload)
    (hrole : getMember payload "role" = .string "assistant") :
    ¬ HoldsOpaque (.object payload) ↔ UnreadValues payload := by
  refine ⟨unreadValues_of_not, fun hunread => ?_⟩
  have hforeign : ∀ key ∈ nativeAssistantMetadataFields, key ∉ safeAssistantFields := by decide
  refine not_holdsOpaque_object (fun key hkey => h.keys key (hforeign key hkey)) (fun partType htype => ?_)
    fun key value hvalue => ?_
  · cases (h.keys "type" (by decide)).symm.trans htype
  have hget := getMember_of_lookupMember hvalue
  by_cases hsafe : key ∈ safeAssistantFields
  swap
  · cases (h.keys key hsafe).symm.trans hvalue
  obtain rfl | rfl | rfl | rfl : key = "role" ∨ key = "content" ∨ key = "tool_calls" ∨
      key = "tool_call_id" := by
    simpa [safeAssistantFields] using hsafe
  · exact hget.symm.trans hrole ▸ not_holdsOpaque_string
  · rcases h.content with hnull | ⟨text, htext⟩ | ⟨parts, hparts, hplain⟩
    · exact hget.symm.trans hnull ▸ not_holdsOpaque_null
    · exact hget.symm.trans htext ▸ not_holdsOpaque_string
    · rw [hget.symm.trans hparts]
      refine not_holdsOpaque_array fun part hpart => ?_
      obtain ⟨members, partType, rfl, hmembers⟩ := plain_of_needs (hplain part hpart)
      exact hmembers.not_holdsOpaque (hunread.text parts hparts members hpart)
        (hunread.mediaId parts hparts members hpart)
  · rw [h.toolCalls value hvalue]
    exact not_holdsOpaque_array fun _ hmem => absurd hmem List.not_mem_nil
  · exact hunread.toolCallId value hvalue

/-! ## Projected messages -/

/-- A value that is looked up is one of the members. -/
theorem mem_of_lookupMember {members : Members} {key : String} {value : JsonValue}
    (h : lookupMember members key = some value) : (key, value) ∈ members := by
  unfold lookupMember at h
  obtain ⟨member, hfind, rfl⟩ := Option.map_eq_some_iff.mp h
  obtain rfl : member.1 = key := by simpa using List.find?_some hfind
  exact List.mem_reverse.mp (List.mem_of_find?_eq_some hfind)

/-- Members of other keys whose values hold none make a dictionary that holds none. -/
theorem not_holdsOpaque_members {members : Members}
    (hkeys : ∀ member ∈ members, member.1 ∉ nativeAssistantMetadataFields)
    (htype : ∀ member ∈ members, ∀ partType ∈ thinkingPartTypes, member ≠ ("type", .string partType))
    (hvalues : ∀ member ∈ members, ¬ HoldsOpaque member.2) : ¬ HoldsOpaque (.object members) := by
  refine not_holdsOpaque_object (fun key hkey => lookupMember_eq_none.mpr fun member hmember hsame => ?_)
    (fun partType hlookup hthinking => ?_) fun key value hlookup => hvalues _ (mem_of_lookupMember hlookup)
  · exact hkeys member hmember (hsame ▸ hkey)
  · exact htype _ (mem_of_lookupMember hlookup) partType hthinking rfl

/-- The media of the projection hold none. -/
theorem safeMediaValue_not_holdsOpaque {medium value : JsonValue} (h : safeMediaValue medium = .ok value) :
    ¬ HoldsOpaque value := by
  cases medium with
  | string url => exact Except.ok.inj h ▸ not_holdsOpaque_string
  | object media =>
      obtain ⟨_, -, hrest⟩ := bind_ok.mp h
      obtain ⟨url, -, hid⟩ := bind_ok.mp hrest
      cases hplain : plainText (getMember media "id") with
      | none =>
          rw [hplain] at hid
          obtain rfl := Except.ok.inj hid
          refine not_holdsOpaque_members ?_ ?_ ?_ <;>
            simp [nativeAssistantMetadataFields, not_holdsOpaque_string]
      | some id =>
          rw [hplain] at hid
          obtain rfl := Except.ok.inj hid
          refine not_holdsOpaque_members ?_ ?_ ?_ <;>
            simp [nativeAssistantMetadataFields, not_holdsOpaque_string]
  | _ => cases h

/-- What is kept of a part holds none. -/
theorem safe_not_holdsOpaque {members : Members} {visible : JsonValue}
    (h : Safe members (.visible visible)) : ¬ HoldsOpaque visible := by
  cases h with
  | text =>
      refine not_holdsOpaque_members ?_ ?_ ?_ <;>
        simp [nativeAssistantMetadataFields, thinkingPartTypes, not_holdsOpaque_string]
  | media _ hfield hvalue =>
      have hnot := safeMediaValue_not_holdsOpaque hvalue
      rcases hfield with rfl | rfl <;> refine not_holdsOpaque_members ?_ ?_ ?_ <;>
        simp [nativeAssistantMetadataFields, thinkingPartTypes, not_holdsOpaque_string, hnot]

/-- Nor does a tool call of the safe shape. -/
theorem toolCallOf_not_holdsOpaque {id name : String} {arguments : JsonValue}
    (h : safeArguments arguments = .ok arguments) : ¬ HoldsOpaque (toolCallOf id name arguments) := by
  have harguments : ¬ HoldsOpaque arguments := by
    cases arguments with
    | null => exact not_holdsOpaque_null
    | string text => exact not_holdsOpaque_string
    | _ => cases h
  have hfunction : ¬ HoldsOpaque (.object [("name", .string name), ("arguments", arguments)]) := by
    refine not_holdsOpaque_members ?_ ?_ ?_ <;>
      simp [nativeAssistantMetadataFields, not_holdsOpaque_string, harguments]
  refine not_holdsOpaque_members ?_ ?_ ?_ <;>
    simp [nativeAssistantMetadataFields, thinkingPartTypes, not_holdsOpaque_string, hfunction]

/-- A projected message holds none, and has the safe fields only. -/
theorem SettledMessage.not_holdsOpaque {calls : Option (List JsonValue)} {rebuilt : JsonValue}
    (h : SettledMessage calls rebuilt) (id : Option String) :
    (∀ member ∈ assistantMembers calls id rebuilt, member.1 ∈ safeAssistantFields) ∧
      ¬ HoldsOpaque (.object (assistantMembers calls id rebuilt)) := by
  have hrebuilt : ¬ HoldsOpaque rebuilt := by
    rcases h.content with ⟨text, rfl⟩ | ⟨rfl, -⟩ | ⟨parts, rfl, -, hparts⟩
    · exact not_holdsOpaque_string
    · exact not_holdsOpaque_null
    · refine not_holdsOpaque_array fun part hpart => ?_
      obtain ⟨_, -, hsafe⟩ := safeContentPart_cases (hparts part hpart).safe
      exact safe_not_holdsOpaque hsafe
  have hcalls : ∀ safe ∈ calls, ¬ HoldsOpaque (.array safe) := by
    intro safe hsafe
    refine not_holdsOpaque_array fun call hcall => ?_
    obtain ⟨id, name, arguments, rfl, harguments⟩ := h.toolCalls safe hsafe call hcall
    exact toolCallOf_not_holdsOpaque harguments
  have hmembers : ∀ member ∈ assistantMembers calls id rebuilt,
      member.1 ∈ safeAssistantFields ∧ ¬ HoldsOpaque member.2 := by
    intro member hmember
    simp only [assistantMembers, List.mem_append, List.mem_singleton, Option.mem_toList,
      Option.map_eq_some_iff] at hmember
    obtain ((rfl | ⟨safe, hsafe, rfl⟩) | ⟨id, -, rfl⟩) | rfl := hmember
    · exact ⟨by simp [safeAssistantFields], not_holdsOpaque_string⟩
    · exact ⟨by simp [safeAssistantFields], hcalls safe hsafe⟩
    · exact ⟨by simp [safeAssistantFields], not_holdsOpaque_string⟩
    · exact ⟨by simp [safeAssistantFields], hrebuilt⟩
  have hforeign : ∀ key ∈ nativeAssistantMetadataFields, key ∉ safeAssistantFields := by decide
  refine ⟨fun member hmember => (hmembers member hmember).1, not_holdsOpaque_members
    (fun member hmember hkey => hforeign _ hkey (hmembers member hmember).1) (fun member hmember _ _ hsame => ?_)
    fun member hmember => (hmembers member hmember).2⟩
  have htype := (hmembers member hmember).1
  rw [hsame] at htype
  exact absurd htype (by decide : "type" ∉ safeAssistantFields)

/-! ## What a message says -/

/-- A text or the url of a medium. -/
inductive Visible
  | text (text : String)
  | media (url : String)
deriving DecidableEq

/-- The url of a medium. -/
def mediaUrl : JsonValue → Option String
  | .string url => some url
  | .object media => plainText (getMember media "url")
  | _ => none

/-- What a part shows. -/
def visiblePart : JsonValue → Option Visible
  | .object members =>
      match getMember members "type" with
      | .string partType =>
          if partType = "text" then (plainText (getMember members "text")).map .text
          else if partType = "image_url" ∨ partType = "audio_url" then
            (mediaUrl (getMember members partType)).map .media
          else none
      | _ => none
  | _ => none

/-- What a content shows, in its order. -/
def visibleItems : JsonValue → List Visible
  | .string text => [.text text]
  | .array parts => parts.filterMap visiblePart
  | _ => []

/-- The plain reasoning of a part. -/
def partReasoning : JsonValue → Option String
  | .object members =>
      match getMember members "type" with
      | .string partType =>
          if partType = "think" then plainText (getMember members "think")
          else if partType = "thinking" then
            (plainText (getMember members "thinking")).or (plainText (getMember members "text"))
          else none
      | _ => none
  | _ => none

/-- The plain reasoning of a message: that of its parts, and its mirrors. -/
def reasoningTexts (payload : Members) : List String :=
  (match getMember payload "content" with
    | .array parts => parts.filterMap partReasoning
    | _ => []) ++
  ["reasoning_content", "reasoning"].filterMap fun field => plainText (getMember payload field)

/-- A text stands in another one. -/
def StandsIn (part text : String) : Prop := ∃ before behind, text = before ++ part ++ behind

/-- What is shown is still shown. -/
def Visible.Shown : Visible → Visible → Prop
  | .text shown, .text holder => StandsIn shown holder
  | .media url, .media other => url = other
  | _, _ => False

/-- The output of a message says what the message says: it shows the same items in the same order, and the
plain reasoning as texts. -/
structure Conveys (payload : Members) (content : JsonValue) : Prop where
  visible : ∃ shown : List Visible, shown.Sublist (visibleItems content) ∧
    List.Forall₂ Visible.Shown (visibleItems (getMember payload "content")) shown
  reasoning : ∀ reasoning ∈ reasoningTexts payload, ∃ text, Visible.text text ∈ visibleItems content ∧
    StandsIn (reasoningText reasoning) text

/-- A text stands in itself. -/
theorem StandsIn.refl (text : String) : StandsIn text text :=
  ⟨"", "", by simp⟩

/-- A text stands in what it is joined to. -/
theorem standsIn_intercalate {separator text : String} {texts : List String} (h : text ∈ texts) :
    StandsIn text (separator.intercalate texts) := by
  induction texts with
  | nil => cases h
  | cons first rest ih =>
      by_cases hrest : rest = []
      · subst hrest
        rw [String.intercalate_singleton, List.mem_singleton.mp h]
        exact .refl first
      rw [String.intercalate_cons_of_ne_nil hrest]
      rcases List.mem_cons.mp h with rfl | hmem
      · exact ⟨"", separator ++ separator.intercalate rest, by simp [String.append_assoc]⟩
      · obtain ⟨before, behind, hrest⟩ := ih hmem
        exact ⟨first ++ separator ++ before, behind, by rw [hrest]; simp [String.append_assoc]⟩

/-- What is shown is shown. -/
theorem Visible.Shown.refl (item : Visible) : item.Shown item := by
  cases item with
  | text text => exact StandsIn.refl text
  | media url => exact rfl

/-- A text part shows its text. -/
theorem visiblePart_textPart (text : String) : visiblePart (textPart text) = some (.text text) := rfl

/-- What a part of a type shows. -/
theorem visiblePart_of_type {members : Members} {partType : String}
    (h : getMember members "type" = .string partType) :
    visiblePart (.object members) =
      if partType = "text" then (plainText (getMember members "text")).map .text
      else if partType = "image_url" ∨ partType = "audio_url" then
        (mediaUrl (getMember members partType)).map .media
      else none := by
  simp only [visiblePart, h]

/-- The reasoning of a part of a type. -/
theorem partReasoning_of_type {members : Members} {partType : String}
    (h : getMember members "type" = .string partType) :
    partReasoning (.object members) =
      if partType = "think" then plainText (getMember members "think")
      else if partType = "thinking" then
        (plainText (getMember members "thinking")).or (plainText (getMember members "text"))
      else none := by
  simp only [partReasoning, h]

/-- A safe medium has the url of the medium. -/
theorem mediaUrl_safe {medium value : JsonValue} (h : safeMediaValue medium = .ok value) :
    mediaUrl value = mediaUrl medium := by
  cases medium with
  | string url => exact Except.ok.inj h ▸ rfl
  | object media =>
      obtain ⟨_, -, hrest⟩ := bind_ok.mp h
      obtain ⟨url, hurl, hid⟩ := bind_ok.mp hrest
      show mediaUrl value = plainText (getMember media "url")
      rw [orMissing_ok.mp hurl]
      cases hplain : plainText (getMember media "id") with
      | none =>
          rw [hplain] at hid
          exact Except.ok.inj hid ▸ rfl
      | some id =>
          rw [hplain] at hid
          exact Except.ok.inj hid ▸ rfl
  | _ => cases h

/-- A part that is kept shows what it showed and has no reasoning. -/
theorem Safe.visiblePart {members : Members} {visible : JsonValue} (h : Safe members (.visible visible)) :
    ProviderThinking.visiblePart visible = ProviderThinking.visiblePart (.object members) ∧
      partReasoning (.object members) = none := by
  cases h with
  | text htype htext =>
      rw [visiblePart_textPart, visiblePart_of_type htype, partReasoning_of_type htype, htext]
      exact ⟨rfl, rfl⟩
  | media htype hfield hvalue =>
      rw [visiblePart_of_type htype, partReasoning_of_type htype]
      rcases hfield with rfl | rfl
      · exact ⟨congrArg (Option.map Visible.media) (mediaUrl_safe hvalue), rfl⟩
      · exact ⟨congrArg (Option.map Visible.media) (mediaUrl_safe hvalue), rfl⟩

/-- A part whose text is a note shows nothing, and its reasoning is in the note. -/
theorem Safe.note {members : Members} {text : String} (h : Safe members (.note text)) :
    ProviderThinking.visiblePart (.object members) = none ∧
      ∀ reasoning ∈ partReasoning (.object members), text = reasoningText reasoning := by
  cases h with
  | think htype hthink =>
      rw [visiblePart_of_type htype, partReasoning_of_type htype, hthink]
      exact ⟨rfl, fun _ hmem => congrArg reasoningText (Option.some.inj hmem)⟩
  | thinking htype hthinking =>
      rw [visiblePart_of_type htype, partReasoning_of_type htype, hthinking]
      exact ⟨rfl, fun _ hmem => congrArg reasoningText (Option.some.inj hmem)⟩
  | redacted htype =>
      rw [visiblePart_of_type htype, partReasoning_of_type htype]
      exact ⟨rfl, fun _ hmem => (nomatch hmem)⟩

/-- What the projected parts are for the parts read so far: what these show, the notes, and in the notes
their reasoning. -/
structure Projects (parts : List JsonValue) (content : ProjectedContent) : Prop where
  visible : (parts.filterMap visiblePart).Sublist (content.projectedParts.filterMap visiblePart)
  notes : ∀ text ∈ content.contentNoteTexts, textPart text ∈ content.projectedParts
  reasoning : ∀ reasoning ∈ parts.filterMap partReasoning,
    reasoningText reasoning ∈ content.contentNoteTexts

/-- The next part keeps this. -/
theorem Projects.add {parts : List JsonValue} {part : JsonValue} {content next : ProjectedContent}
    (h : Projects parts content) (hadd : content.add part = .ok next) : Projects (parts ++ [part]) next := by
  obtain ⟨safe, hsafe, hnext⟩ := bind_ok.mp hadd
  obtain rfl := Except.ok.inj hnext
  obtain ⟨members, rfl, hshape⟩ := safeContentPart_cases hsafe
  cases safe with
  | note text =>
      obtain ⟨hnothing, hreasoning⟩ := hshape.note
      refine ⟨?_, ?_, ?_⟩
      · show List.Sublist _ ((content.projectedParts ++ [textPart text]).filterMap visiblePart)
        rw [List.filterMap_append, List.filterMap_append, List.filterMap_cons_none hnothing,
          List.filterMap_nil, List.append_nil]
        exact h.visible.trans (List.sublist_append_left _ _)
      · show ∀ note ∈ content.contentNoteTexts ++ [text], _ ∈ content.projectedParts ++ [textPart text]
        intro note hnote
        rcases List.mem_append.mp hnote with hold | hnew
        · exact List.mem_append_left _ (h.notes note hold)
        · exact List.mem_singleton.mp hnew ▸ List.mem_append_right _ List.mem_cons_self
      · show ∀ reasoning ∈ _, _ ∈ content.contentNoteTexts ++ [text]
        intro reasoning hmem
        rw [List.filterMap_append] at hmem
        rcases List.mem_append.mp hmem with hold | hnew
        · exact List.mem_append_left _ (h.reasoning reasoning hold)
        · obtain ⟨other, hother, hnote⟩ := List.mem_filterMap.mp hnew
          obtain rfl := List.mem_singleton.mp hother
          exact hreasoning reasoning hnote ▸ List.mem_append_right _ List.mem_cons_self
  | visible visible =>
      obtain ⟨hsame, hnone⟩ := hshape.visiblePart
      refine ⟨?_, fun note hnote => List.mem_append_left _ (h.notes note hnote), ?_⟩
      · show List.Sublist _ ((content.projectedParts ++ [visible]).filterMap visiblePart)
        rw [List.filterMap_append, List.filterMap_append]
        refine h.visible.append ?_
        show ([JsonValue.object members].filterMap visiblePart).Sublist _
        rw [List.filterMap_cons, List.filterMap_cons, hsame]
      · intro reasoning hmem
        rw [List.filterMap_append, List.filterMap_cons_none hnone, List.filterMap_nil,
          List.append_nil] at hmem
        exact h.reasoning reasoning hmem

/-- So do all parts. -/
theorem Projects.foldlM {parts : List JsonValue} {start content : ProjectedContent}
    (h : parts.foldlM ProjectedContent.add start = .ok content) {before : List JsonValue}
    (hstart : Projects before start) : Projects (before ++ parts) content := by
  induction parts generalizing start before with
  | nil =>
      obtain rfl := Except.ok.inj h
      rwa [List.append_nil]
  | cons part rest ih =>
      rw [List.foldlM_cons] at h
      obtain ⟨next, hadd, hrest⟩ := bind_ok.mp h
      rw [List.append_cons]
      exact ih hrest (hstart.add hadd)

/-- The mirrored reasoning is among the notes of the content or the notes of the mirrors. -/
theorem mem_mirrorNotes {payload : Members} {contentNoteTexts : List String} {reasoning : String}
    (h : reasoning ∈ ["reasoning_content", "reasoning"].filterMap fun field =>
      plainText (getMember payload field)) :
    reasoningText reasoning ∈ contentNoteTexts ++ mirrorNotes payload contentNoteTexts := by
  have hstep (noteTexts : List String) (text : String) :
      reasoningText text ∈ contentNoteTexts ++
        if reasoningText text ∈ contentNoteTexts ++ noteTexts then noteTexts
        else noteTexts ++ [reasoningText text] := by
    split_ifs with hseen
    · exact hseen
    · exact List.mem_append_right _ (List.mem_append_right _ List.mem_cons_self)
  have hkeeps (noteTexts : List String) (text note : String) (hnote : note ∈ contentNoteTexts ++ noteTexts) :
      note ∈ contentNoteTexts ++
        if reasoningText text ∈ contentNoteTexts ++ noteTexts then noteTexts
        else noteTexts ++ [reasoningText text] := by
    split_ifs
    · exact hnote
    · rw [← List.append_assoc]
      exact List.mem_append_left _ hnote
  obtain ⟨field, hfield, hplain⟩ := List.mem_filterMap.mp h
  simp only [mirrorNotes, List.foldl_cons, List.foldl_nil]
  rcases List.mem_cons.mp hfield with rfl | hsecond
  · rw [hplain]
    cases plainText (getMember payload "reasoning") with
    | none => exact hstep [] reasoning
    | some other => exact hkeeps _ other _ (hstep [] reasoning)
  · obtain rfl := List.mem_singleton.mp hsecond
    rw [hplain]
    exact hstep _ reasoning

/-- A list shows what its items show, wherever texts are inserted. -/
theorem sublist_insert {parts : List JsonValue} (insertion : Nat) (texts : List JsonValue) :
    (parts.filterMap visiblePart).Sublist
      ((parts.take insertion ++ texts ++ parts.drop insertion).filterMap visiblePart) := by
  have hinsert : (parts.take insertion ++ parts.drop insertion).Sublist
      (parts.take insertion ++ texts ++ parts.drop insertion) :=
    (List.sublist_append_left _ texts).append (.refl _)
  rw [List.take_append_drop] at hinsert
  exact hinsert.filterMap visiblePart

/-- The notes of a list of texts are shown. -/
theorem mem_visible_textParts {texts : List String} {text : String} (h : text ∈ texts) :
    Visible.text text ∈ (texts.map textPart).filterMap visiblePart :=
  List.mem_filterMap.mpr ⟨textPart text, List.mem_map_of_mem h, rfl⟩

/-- A list that is shown as it is shows what it says. -/
theorem shown_refl (items : List Visible) : List.Forall₂ Visible.Shown items items :=
  List.forall₂_same.mpr fun item _ => .refl item

/-- Without parts, the reasoning of a message is in the notes of its mirrors. -/
theorem mem_mirrorNotes_of_reasoningTexts {payload : Members} {reasoning : String}
    (hcontent : ∀ parts, getMember payload "content" ≠ .array parts) (h : reasoning ∈ reasoningTexts payload) :
    reasoningText reasoning ∈ mirrorNotes payload [] := by
  unfold reasoningTexts at h
  cases hvalue : getMember payload "content" with
  | array parts => exact absurd hvalue (hcontent parts)
  | _ =>
      rw [hvalue] at h
      exact List.nil_append (mirrorNotes payload []) ▸ mem_mirrorNotes h

/-- The projected parts with the notes of the mirrors between them say what the message says. -/
theorem projectedParts_say {payload : Members} {parts : List JsonValue} {content : ProjectedContent}
    (hcontent : getMember payload "content" = .array parts)
    (hfold : parts.foldlM ProjectedContent.add {} = .ok content) (insertion : Nat) :
    let filled := content.projectedParts.take insertion ++
      (mirrorNotes payload content.contentNoteTexts).map textPart ++ content.projectedParts.drop insertion
    (parts.filterMap visiblePart).Sublist (filled.filterMap visiblePart) ∧
      ∀ reasoning ∈ reasoningTexts payload, textPart (reasoningText reasoning) ∈ filled := by
  intro filled
  have hstart : Projects [] {} :=
    ⟨.refl _, fun _ hmem => absurd hmem List.not_mem_nil, fun _ hmem => absurd hmem List.not_mem_nil⟩
  have hparts := hstart.foldlM hfold
  have hkept {part : JsonValue} (hpart : part ∈ content.projectedParts) : part ∈ filled := by
    rw [← List.take_append_drop insertion content.projectedParts] at hpart
    rcases List.mem_append.mp hpart with hbefore | hbehind
    · exact List.mem_append_left _ (List.mem_append_left _ hbefore)
    · exact List.mem_append_right _ hbehind
  refine ⟨hparts.visible.trans (sublist_insert insertion _), fun reasoning hmem => ?_⟩
  have hnote : reasoningText reasoning ∈
      content.contentNoteTexts ++ mirrorNotes payload content.contentNoteTexts := by
    rw [reasoningTexts, hcontent] at hmem
    rcases List.mem_append.mp hmem with hpart | hmirror
    · exact List.mem_append_left _ (hparts.reasoning reasoning hpart)
    · exact mem_mirrorNotes hmirror
  rcases List.mem_append.mp hnote with hin | hmirror
  · exact hkept (hparts.notes _ hin)
  · exact List.mem_append_left _ (List.mem_append_right _ (List.mem_map_of_mem hmirror))

/-- The rebuilt content says what the message says. -/
theorem projectedContent_conveys {payload : Members} {rebuilt : JsonValue}
    {projected : List JsonValue × List String} {toolCalls : Bool}
    (hprojected : projectedContentAndReasoningNotes payload (getMember payload "content") = .ok projected)
    (h : projectedContent (getMember payload "content") projected.1 projected.2 toolCalls = .ok rebuilt) :
    Conveys payload rebuilt := by
  cases hcontent : getMember payload "content" with
  | string text =>
      rw [hcontent] at hprojected h
      obtain rfl := Except.ok.inj hprojected
      have hreasoning {reasoning : String} : reasoning ∈ reasoningTexts payload →
          reasoningText reasoning ∈ mirrorNotes payload [] :=
        mem_mirrorNotes_of_reasoningTexts (by simp [hcontent])
      have hconveys {shown : String} (htext : StandsIn text shown)
          (hnotes : ∀ note ∈ mirrorNotes payload [], StandsIn note shown) :
          Conveys payload (.string shown) := by
        refine ⟨⟨[.text shown], .refl _, ?_⟩, fun reasoning hmem => ?_⟩
        · rw [hcontent]
          exact .cons htext .nil
        · exact ⟨shown, List.mem_cons_self, hnotes _ (hreasoning hmem)⟩
      simp only [projectedContent] at h
      split_ifs at h with hnotes
      · obtain rfl := Except.ok.inj h
        refine hconveys (standsIn_intercalate (List.mem_append_right _ List.mem_cons_self)) fun note hnote => ?_
        exact standsIn_intercalate (List.mem_append_left _ hnote)
      · obtain rfl := Except.ok.inj h
        refine hconveys (.refl text) fun note hnote => ?_
        rw [not_not.mp hnotes] at hnote
        exact absurd hnote List.not_mem_nil
  | array parts =>
      rw [hcontent] at hprojected h
      obtain ⟨content, hfold, hsame⟩ := bind_ok.mp hprojected
      obtain rfl := Except.ok.inj hsame
      obtain ⟨hvisible, hreasoning⟩ := projectedParts_say hcontent hfold
        (content.lastContentNoteBoundary.getD 0)
      simp only [projectedContent] at h
      split_ifs at h with hfilled hcalls
      · obtain rfl := Except.ok.inj h
        refine ⟨⟨_, hvisible, ?_⟩, fun reasoning hmem => ?_⟩
        · rw [hcontent]
          exact shown_refl _
        · exact ⟨_, List.mem_filterMap.mpr ⟨_, hreasoning reasoning hmem, rfl⟩, .refl _⟩
      · -- nothing is left: then nothing was shown, and there was no reasoning
        rw [not_not.mp hfilled] at hvisible hreasoning
        refine ⟨⟨[], List.nil_sublist _, ?_⟩, fun reasoning hmem => ?_⟩
        · rw [hcontent]
          show List.Forall₂ _ (parts.filterMap visiblePart) []
          rw [List.sublist_nil.mp hvisible]
          exact .nil
        · exact absurd (hreasoning reasoning hmem) List.not_mem_nil
  | null =>
      rw [hcontent] at hprojected h
      obtain rfl := Except.ok.inj hprojected
      refine ⟨⟨[], List.nil_sublist _, ?_⟩, fun reasoning hmem => ?_⟩
      · rw [hcontent]
        exact .nil
      have hnote := mem_mirrorNotes_of_reasoningTexts (by simp [hcontent]) hmem
      simp only [projectedContent] at h
      split_ifs at h with hnotes
      · obtain rfl := Except.ok.inj h
        exact ⟨_, mem_visible_textParts hnote, .refl _⟩
      · rw [not_not.mp hnotes] at hnote
        exact absurd hnote List.not_mem_nil
  | _ =>
      rw [hcontent] at h
      cases h

/-- A passed on message says what it says. -/
theorem PassedOn.conveys {payload : Members} (h : PassedOn payload) :
    Conveys payload (getMember payload "content") := by
  refine ⟨⟨_, .refl _, shown_refl _⟩, fun reasoning hmem => ?_⟩
  have hmirrors : ["reasoning_content", "reasoning"].filterMap (fun field =>
      plainText (getMember payload field)) = [] := by
    refine List.filterMap_eq_nil_iff.mpr fun field hfield => ?_
    have hforeign : ∀ field ∈ ["reasoning_content", "reasoning"], field ∉ safeAssistantFields := by decide
    rw [getMember_of_none (h.keys field (hforeign field hfield))]
    rfl
  rw [reasoningTexts, hmirrors, List.append_nil] at hmem
  rcases h.content with hnull | ⟨text, htext⟩ | ⟨parts, hparts, hneeds⟩
  · rw [hnull] at hmem
    exact absurd hmem List.not_mem_nil
  · rw [htext] at hmem
    exact absurd hmem List.not_mem_nil
  · rw [hparts] at hmem
    obtain ⟨part, hpart, hreasoning⟩ := List.mem_filterMap.mp hmem
    obtain ⟨members, partType, rfl, hplain⟩ := plain_of_needs (hneeds part hpart)
    rw [partReasoning_of_type hplain.type] at hreasoning
    rcases hplain.known with rfl | rfl | rfl <;> cases hreasoning

/-! ## Requests -/

/-- What may leave for an assistant message: only the safe fields, no thinking metadata, and all that the
message says. -/
structure Released (payload output : Members) : Prop where
  fields : ∀ member ∈ output, member.1 ∈ safeAssistantFields
  clean : ¬ HoldsOpaque (.object output)
  conveys : Conveys payload (getMember output "content")

/-- What may leave for a message: other messages leave as they are. -/
structure ReleasedMessage (message output : JsonValue) : Prop where
  assistant : ∀ payload, message = .object payload → getMember payload "role" = .string "assistant" →
    ∃ members, output = .object members ∧ Released payload members
  others : (∀ payload, message = .object payload → getMember payload "role" ≠ .string "assistant") →
    output = message

/-- Where the gate passes an assistant message on, its unread values hold no thinking metadata. -/
def PassesUnread (message : JsonValue) : Prop :=
  ∀ payload, message = .object payload → getMember payload "role" = .string "assistant" →
    assistantNeedsNormalization payload = .ok false → UnreadValues payload

/-- A projected message is released. -/
theorem projectAssistantMessage_released {payload : Members} {result : JsonValue}
    (h : projectAssistantMessage payload = .ok result) :
    ∃ members, result = .object members ∧ Released payload members := by
  obtain ⟨calls, id, rebuilt, hresult, hsettled⟩ := projectAssistantMessage_settled h
  obtain ⟨hfields, hclean⟩ := hsettled.not_holdsOpaque id
  refine ⟨_, hresult, hfields, hclean, ?_⟩
  obtain ⟨projected, hprojected, hrest⟩ := bind_ok.mp h
  obtain ⟨toolCalls, -, hrest⟩ := bind_ok.mp hrest
  obtain ⟨toolCallId, -, hrest⟩ := bind_ok.mp hrest
  obtain ⟨content, hcontent, hsame⟩ := bind_ok.mp hrest
  have hmembers := JsonValue.object.inj ((Except.ok.inj hsame).trans hresult)
  have hget (front : Members) (last : JsonValue) : getMember (front ++ [("content", last)]) "content" = last := by
    simp [getMember, lookupMember]
  rw [← hmembers, hget]
  exact projectedContent_conveys hprojected hcontent

/-- A passed on message is released exactly when its unread values hold no thinking metadata. -/
theorem passedOn_released {payload : Members} (hrole : getMember payload "role" = .string "assistant")
    (h : assistantNeedsNormalization payload = .ok false) : Released payload payload ↔ UnreadValues payload := by
  have hpassed := passedOn_of_needs h
  refine ⟨fun hreleased => unreadValues_of_not hreleased.clean, fun hunread => ?_⟩
  refine ⟨fun member hmember => ?_, (hpassed.holdsOpaque_iff hrole).mpr hunread, hpassed.conveys⟩
  by_contra hforeign
  exact lookupMember_eq_none.mp (hpassed.keys member.1 hforeign) member hmember rfl

/-- So is a normalized message. -/
theorem normalizedMessage_released {message output : JsonValue}
    (h : normalizedMessage message = .ok output) : ReleasedMessage message output ↔ PassesUnread message := by
  cases message with
  | object payload =>
      by_cases hrole : getMember payload "role" = .string "assistant"
      · have hmapping : assistantMessageMapping (.object payload) = .ok payload := by
          simp only [assistantMessageMapping, hrole]
        simp only [normalizedMessage, hrole] at h
        obtain ⟨members, hmembers, hrest⟩ := bind_ok.mp h
        obtain rfl := Except.ok.inj (hmapping.symm.trans hmembers)
        obtain ⟨needs, hneeds, hresult⟩ := bind_ok.mp hrest
        have hothers : ¬ ∀ other, JsonValue.object payload = .object other →
            getMember other "role" ≠ .string "assistant" := fun hother => hother payload rfl hrole
        cases needs with
        | true =>
            refine ⟨fun _ other hother _ hneedsNot => ?_, fun _ => ⟨fun other hother _ => ?_, fun h => absurd h hothers⟩⟩
            · obtain rfl := JsonValue.object.inj hother
              cases hneeds.symm.trans hneedsNot
            · obtain rfl := JsonValue.object.inj hother
              exact projectAssistantMessage_released hresult
        | false =>
            obtain rfl := Except.ok.inj hresult
            refine ⟨fun hreleased other hother _ _ => ?_,
              fun hunread => ⟨fun other hother _ => ?_, fun h => absurd h hothers⟩⟩
            · obtain rfl := JsonValue.object.inj hother
              obtain ⟨members, hsame, hclean⟩ := hreleased.assistant payload rfl hrole
              obtain rfl := JsonValue.object.inj hsame
              exact (passedOn_released hrole hneeds).mp hclean
            · obtain rfl := JsonValue.object.inj hother
              exact ⟨payload, rfl, (passedOn_released hrole hneeds).mpr (hunread payload rfl hrole hneeds)⟩
      · have hsame : normalizedMessage (.object payload) = .ok (.object payload) := by
          simp only [normalizedMessage]
        obtain rfl := Except.ok.inj (hsame.symm.trans h)
        have hother {P : Prop} {other : Members} (hequal : JsonValue.object payload = .object other)
            (hassistant : getMember other "role" = .string "assistant") : P :=
          absurd (JsonValue.object.inj hequal ▸ hassistant) hrole
        exact ⟨fun _ other hequal hassistant => hother hequal hassistant,
          fun _ => ⟨fun other hequal hassistant => hother hequal hassistant, fun _ => rfl⟩⟩
  | _ => cases h

/-- What leaves for a list of messages is released exactly when every assistant message that is passed on
holds no thinking metadata in the values that the gate does not read. -/
theorem contexts_released {contexts normalized : List JsonValue}
    (h : normalizeOpenaiClaudeContexts contexts = .ok normalized) :
    List.Forall₂ ReleasedMessage contexts normalized ↔ ∀ message ∈ contexts, PassesUnread message := by
  have hitems : List.Forall₂ (fun message output => normalizedMessage message = .ok output) contexts normalized :=
    mapM_ok.mp h
  induction hitems with
  | nil => exact ⟨fun _ _ hmem => absurd hmem List.not_mem_nil, fun _ => .nil⟩
  | cons hmessage hrest ih =>
      rw [List.forall₂_cons, List.forall_mem_cons]
      exact and_congr (normalizedMessage_released hmessage) (ih (mapM_ok.mpr hrest))

/-- An answer with a picture, which the gate passes on. -/
def passedSample : Members :=
  [("role", .string "assistant"), ("tool_call_id", .string "call"), ("content", .array
    [textPart "done", .object [("type", .string "image_url"), ("image_url", .object
      [("url", .string "https://host/picture"), ("id", .string "picture")])]])]

/-- An answer behind a signed thought. -/
def signedSample : Members :=
  [("role", .string "assistant"), ("content", .array
    [.object [("type", .string "thinking"), ("thinking", .string "so"), ("signature", .string "opaque")],
      textPart "yes"])]

/-- The values of the passed on answer that the gate does not read are strings. -/
theorem passedSample_unread : UnreadValues passedSample := by
  have hparts {parts : List JsonValue} (hcontent : getMember passedSample "content" = .array parts)
      {part : Members} (hpart : .object part ∈ parts) :
      part = [("type", .string "text"), ("text", .string "done")] ∨
        part = [("type", .string "image_url"), ("image_url", .object
          [("url", .string "https://host/picture"), ("id", .string "picture")])] := by
    obtain rfl := JsonValue.array.inj hcontent
    simpa [textPart] using hpart
  constructor
  case toolCallId =>
    intro id hid
    obtain rfl : JsonValue.string "call" = id := Option.some.inj hid
    exact not_holdsOpaque_string
  case text =>
    intro parts hcontent part hpart text htext
    obtain rfl | rfl := hparts hcontent hpart
    · obtain rfl : JsonValue.string "done" = text := Option.some.inj htext
      exact not_holdsOpaque_string
    · cases htext
  case mediaId =>
    intro parts hcontent part hpart field media hmedia id hid
    obtain rfl | rfl := hparts hcontent hpart
    · simp [lookupMember] at hmedia
    · by_cases hfield : field = "image_url"
      · subst hfield
        obtain rfl := JsonValue.object.inj (Option.some.inj hmedia)
        obtain rfl : JsonValue.string "picture" = id := Option.some.inj hid
        exact not_holdsOpaque_string
      · by_cases htype : field = "type"
        · subst htype
          cases hmedia
        · simp [lookupMember, Ne.symm hfield, Ne.symm htype] at hmedia

/-- A question and an answer with a picture are passed on, and a signed thought leaves as a text before
the answer. -/
theorem contexts_released_sample :
    let question := JsonValue.object [("role", .string "user"), ("content", .string "why?")]
    ∃ output, normalizeOpenaiClaudeContexts [question, .object passedSample, .object signedSample] =
        .ok [question, .object passedSample, output] ∧
      List.Forall₂ ReleasedMessage [question, .object passedSample, .object signedSample]
        [question, .object passedSample, output] := by
  intro question
  refine ⟨_, rfl, (contexts_released rfl).mpr fun message hmessage payload hsame hrole hneeds => ?_⟩
  simp only [List.mem_cons, List.not_mem_nil, or_false] at hmessage
  obtain rfl | rfl | rfl := hmessage
  · obtain rfl := JsonValue.object.inj hsame
    simp [getMember, lookupMember] at hrole
  · obtain rfl := JsonValue.object.inj hsame
    exact passedSample_unread
  · obtain rfl := JsonValue.object.inj hsame
    cases hneeds

/-- The text of a text part is not read: an opaque value in it is passed on with its signature. -/
theorem opaque_text_passed_on :
    ¬ ∀ contexts normalized : List JsonValue, normalizeOpenaiClaudeContexts contexts = .ok normalized →
      List.Forall₂ ReleasedMessage contexts normalized := by
  intro hclaim
  have hreleased := hclaim [.object [("role", .string "assistant"), ("content", .array [.object
    [("type", .string "text"), ("text", .object [("signature", .string "opaque")])]])]] _ rfl
  obtain ⟨members, hmembers, hsafe⟩ := (List.forall₂_cons.mp hreleased).1.assistant _ rfl rfl
  obtain rfl := JsonValue.object.inj hmembers
  have hcontent : HoldsOpaque (.array [.object
      [("type", .string "text"), ("text", .object [("signature", .string "opaque")])]]) :=
    .item List.mem_cons_self (@HoldsOpaque.member _ "text" _ rfl (@HoldsOpaque.key _ "signature" _ (by decide) rfl))
  exact hsafe.clean (@HoldsOpaque.member _ "content" _ rfl hcontent)

end ProviderThinking

end AstrContinuum
