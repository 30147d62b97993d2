import AstrContinuum.Adapters.ThinkingContent

/-!
# Projected messages

A message that needs no projection has `PassedOn` parts: the gate has looked at its keys, its tool calls and
the types of its parts. What the projection has made of a message is settled: its parts and its tool calls
have a safe shape, and projecting them again keeps them.
-/

namespace AstrContinuum

namespace ProviderThinking

open Checked

/-! ## Dictionaries -/

/-- No member has the key. -/
theorem lookupMember_eq_none {members : Members} {key : String} :
    lookupMember members key = none ↔ ∀ member ∈ members, member.1 ≠ key := by
  simp [lookupMember]

/-- All keys are permitted. -/
theorem keysWithin_iff {permitted : List String} {members : Members} :
    keysWithin permitted members = true ↔ ∀ member ∈ members, member.1 ∈ permitted := by
  simp [keysWithin]

/-- None of the keys is there. -/
theorem hasAnyKey_eq_false {keys : List String} {members : Members} :
    hasAnyKey keys members = false ↔ ∀ key ∈ keys, lookupMember members key = none := by
  simp [hasAnyKey, hasKey]

/-- A key that is not permitted is not there. -/
theorem lookupMember_of_keysWithin {permitted : List String} {members : Members}
    (h : keysWithin permitted members = true) {key : String} (hkey : key ∉ permitted) :
    lookupMember members key = none :=
  lookupMember_eq_none.mpr fun member hmember hsame =>
    hkey (hsame ▸ keysWithin_iff.mp h member hmember)

/-- Nor is a permitted one that has been ruled out. -/
theorem lookupMember_of_noneOf {allowed excluded : List String} {members : Members}
    (hwithin : keysWithin (allowed ++ excluded) members = true)
    (hnone : hasAnyKey excluded members = false) {key : String} (hkey : key ∉ allowed) :
    lookupMember members key = none := by
  by_cases hexcluded : key ∈ excluded
  · exact hasAnyKey_eq_false.mp hnone key hexcluded
  · exact lookupMember_of_keysWithin hwithin fun hmem =>
      (List.mem_append.mp hmem).elim hkey hexcluded

/-- A value that is not `None` is there. -/
theorem lookupMember_of_getMember {members : Members} {key : String} {value : JsonValue}
    (h : getMember members key = value) (hvalue : value ≠ .null) :
    lookupMember members key = some value := by
  unfold getMember at h
  cases hlookup : lookupMember members key with
  | none =>
      rw [hlookup] at h
      exact absurd h.symm hvalue
  | some other =>
      rw [hlookup] at h
      exact congrArg some h

/-- The value of a key that is there. -/
theorem getMember_of_lookupMember {members : Members} {key : String} {value : JsonValue}
    (h : lookupMember members key = some value) : getMember members key = value := by
  rw [getMember, h]
  rfl

/-- `None` for a key that is not there. -/
theorem getMember_of_none {members : Members} {key : String} (h : lookupMember members key = none) :
    getMember members key = .null := by
  rw [getMember, h]
  rfl

/-- A text is plain. -/
theorem plainText_eq_some {value : JsonValue} {text : String} :
    plainText value = some text ↔ value = .string text := by
  cases value <;> simp [plainText]

/-! ## Content parts -/

/-- What a part of the content is when it needs no projection. -/
structure Plain (members : Members) (partType : String) : Prop where
  type : getMember members "type" = .string partType
  known : partType = "text" ∨ partType = "image_url" ∨ partType = "audio_url"
  keys : ∀ key, key ≠ "type" → key ≠ partType → lookupMember members key = none
  media : partType ≠ "text" → ∃ value, safeMediaValue (getMember members partType) = .ok value ∧
    ∀ media, getMember members partType = .object media →
      hasAnyKey nativePartMetadataFields media = false

/-- A part that needs no projection is a plain one. -/
theorem plain_of_needs {part : JsonValue} (h : partNeedsNormalization part = .ok false) :
    ∃ members partType, part = .object members ∧ Plain members partType := by
  cases part with
  | object members =>
      unfold partNeedsNormalization at h
      cases htype : getMember members "type" with
      | string partType =>
          simp only [htype] at h
          by_cases hthinking : partType ∈ thinkingPartTypes
          · rw [if_pos hthinking] at h
            cases h
          rw [if_neg hthinking] at h
          by_cases hknown : partType = "text" ∨ partType = "image_url" ∨ partType = "audio_url"
          swap
          · rw [if_neg hknown] at h
            cases h
          rw [if_pos hknown] at h
          obtain ⟨_, hallowed, hrest⟩ := bind_ok.mp h
          have hwithin := require_ok.mp hallowed
          by_cases hnative : hasAnyKey nativePartMetadataFields members = true
          · rw [if_pos hnative] at hrest
            cases hrest
          rw [if_neg hnative] at hrest
          have hnone := Bool.eq_false_iff.mpr hnative
          refine ⟨members, partType, rfl, htype, hknown, fun key hkind hfield => ?_, fun htext => ?_⟩
          · exact lookupMember_of_noneOf hwithin hnone (by simp [hkind, hfield])
          · rw [if_neg htext] at hrest
            obtain ⟨value, hvalue, hmedia⟩ := bind_ok.mp hrest
            refine ⟨value, hvalue, fun media hobject => ?_⟩
            rw [hobject] at hmedia
            exact Except.ok.inj hmedia
      | _ => simp only [htype] at h; cases h
  | _ => cases h

/-! ## Messages that need no projection -/

/-- The loop over the content finds nothing to project where no part needs it. -/
theorem contentNeeds_eq_false {parts : List JsonValue} (h : contentNeedsNormalization parts = .ok false) :
    ∀ part ∈ parts, partNeedsNormalization part = .ok false := by
  induction parts with
  | nil => exact fun _ hmem => nomatch hmem
  | cons part rest ih =>
      obtain ⟨needs, hneeds, hrest⟩ := bind_ok.mp h
      cases needs with
      | true => cases hrest
      | false => exact List.forall_mem_cons.mpr ⟨hneeds, ih hrest⟩

/-- What an assistant message is when it needs no projection. -/
structure PassedOn (payload : Members) : Prop where
  keys : ∀ key, key ∉ safeAssistantFields → lookupMember payload key = none
  toolCalls : ∀ value, lookupMember payload "tool_calls" = some value → value = .array []
  content : getMember payload "content" = .null ∨ (∃ text, getMember payload "content" = .string text) ∨
    ∃ parts, getMember payload "content" = .array parts ∧
      ∀ part ∈ parts, partNeedsNormalization part = .ok false

/-- Such a message has safe fields, no tool calls and plain content. -/
theorem passedOn_of_needs {payload : Members} (h : assistantNeedsNormalization payload = .ok false) :
    PassedOn payload := by
  obtain ⟨_, hwithin, hrest⟩ := bind_ok.mp h
  have hpermitted := require_ok.mp hwithin
  by_cases hnative : hasAnyKey nativeAssistantMetadataFields payload = true
  · rw [if_pos hnative] at hrest
    cases hrest
  rw [if_neg hnative] at hrest
  obtain ⟨toolCalls, hcalls, hcontent⟩ := bind_ok.mp hrest
  by_cases hprojects : toolCalls = true
  · rw [if_pos hprojects] at hcontent
    cases hcontent
  rw [if_neg hprojects] at hcontent
  refine ⟨fun key hkey => ?_, fun value hvalue => ?_, ?_⟩
  · exact lookupMember_of_noneOf hpermitted (Bool.eq_false_iff.mpr hnative) hkey
  · unfold payloadToolCallsNeedProjection at hcalls
    rw [hvalue] at hcalls
    cases value with
    | array calls =>
        obtain ⟨foreign, -, hforeign⟩ := bind_ok.mp hcalls
        obtain rfl := Except.ok.inj hforeign
        cases calls with
        | nil => rfl
        | cons call calls => exact absurd (by simp) hprojects
    | _ => cases hcalls
  · unfold payloadContentNeedsNormalization at hcontent
    cases hvalue : getMember payload "content" with
    | null => exact .inl rfl
    | string text => exact .inr (.inl ⟨text, rfl⟩)
    | array parts =>
        rw [hvalue] at hcontent
        exact .inr (.inr ⟨parts, rfl, contentNeeds_eq_false hcontent⟩)
    | _ =>
        rw [hvalue] at hcontent
        cases hcontent

/-! ## Projected messages -/

/-- A medium that is safe already. -/
theorem safeMediaValue_settled {medium value : JsonValue} (h : safeMediaValue medium = .ok value) :
    safeMediaValue value = .ok value ∧
      ∀ media, value = .object media → hasAnyKey nativePartMetadataFields media = false := by
  cases medium with
  | string url =>
      obtain rfl := Except.ok.inj h
      exact ⟨rfl, fun _ hmedia => nomatch hmedia⟩
  | object media =>
      obtain ⟨_, -, hrest⟩ := bind_ok.mp h
      obtain ⟨url, -, hid⟩ := bind_ok.mp hrest
      cases hplain : plainText (getMember media "id") with
      | none =>
          rw [hplain] at hid
          obtain rfl := Except.ok.inj hid
          refine ⟨rfl, fun media hmedia => ?_⟩
          obtain rfl := JsonValue.object.inj hmedia
          rfl
      | some id =>
          rw [hplain] at hid
          obtain rfl := Except.ok.inj hid
          refine ⟨rfl, fun media hmedia => ?_⟩
          obtain rfl := JsonValue.object.inj hmedia
          rfl
  | _ => cases h

/-- A part that the projection keeps as it is and that does not ask for one. -/
structure SettledPart (part : JsonValue) : Prop where
  safe : safeContentPart part = .ok (.visible part)
  needs : partNeedsNormalization part = .ok false

/-- A text part is settled. -/
theorem textPart_settled (text : String) : SettledPart (textPart text) :=
  ⟨rfl, rfl⟩

/-- So is a part with a safe medium. -/
theorem mediaPart_settled {field : String} (hfield : field = "image_url" ∨ field = "audio_url")
    {value : JsonValue} (h : safeMediaValue value = .ok value)
    (hnative : ∀ media, value = .object media → hasAnyKey nativePartMetadataFields media = false) :
    SettledPart (mediaPart field value) := by
  have hsafe : safeContentPart (mediaPart field value) =
      (safeMediaValue value >>= fun value => pure (.visible (mediaPart field value))) := by
    rcases hfield with rfl | rfl <;> rfl
  refine ⟨by rw [hsafe, h]; rfl, ?_⟩
  cases value with
  | string url => rcases hfield with rfl | rfl <;> rfl
  | object media =>
      have hneeds : partNeedsNormalization (mediaPart field (.object media)) =
          (safeMediaValue (.object media) >>= fun _ => pure (hasAnyKey nativePartMetadataFields media)) := by
        rcases hfield with rfl | rfl <;> rfl
      rw [hneeds, h, hnative media rfl]
      rfl
  | _ => cases h

/-- What the projection makes of a part, by its type. -/
inductive Safe (members : Members) : SafePart → Prop
  | text {text : String} (htype : getMember members "type" = .string "text")
      (htext : getMember members "text" = .string text) : Safe members (.visible (textPart text))
  | think {think : String} (htype : getMember members "type" = .string "think")
      (hthink : getMember members "think" = .string think) : Safe members (.note (reasoningText think))
  | thinking {thinking : String} (htype : getMember members "type" = .string "thinking")
      (hthinking : (plainText (getMember members "thinking")).or (plainText (getMember members "text")) =
        some thinking) : Safe members (.note (reasoningText thinking))
  | redacted (htype : getMember members "type" = .string "redacted_thinking") :
      Safe members (.note redactedReasoningText)
  | media {field : String} {value : JsonValue} (htype : getMember members "type" = .string field)
      (hfield : field = "image_url" ∨ field = "audio_url")
      (hvalue : safeMediaValue (getMember members field) = .ok value) :
      Safe members (.visible (mediaPart field value))

/-- The projection makes nothing else of a part. -/
theorem safeContentPart_cases {part : JsonValue} {safe : SafePart} (h : safeContentPart part = .ok safe) :
    ∃ members, part = .object members ∧ Safe members safe := by
  cases part with
  | object members =>
      refine ⟨members, rfl, ?_⟩
      unfold safeContentPart at h
      cases htype : getMember members "type" with
      | string partType =>
          simp only [htype] at h
          split_ifs at h with htext hthink hthinking hredacted hmedia
          · obtain ⟨_, -, hrest⟩ := bind_ok.mp h
            obtain ⟨text, hplain, hvisible⟩ := bind_ok.mp hrest
            obtain rfl := Except.ok.inj hvisible
            exact .text (htext ▸ htype) (plainText_eq_some.mp (orMissing_ok.mp hplain))
          · obtain ⟨_, -, hrest⟩ := bind_ok.mp h
            obtain ⟨think, hplain, hnote⟩ := bind_ok.mp hrest
            obtain rfl := Except.ok.inj hnote
            exact .think (hthink ▸ htype) (plainText_eq_some.mp (orMissing_ok.mp hplain))
          · obtain ⟨_, -, hrest⟩ := bind_ok.mp h
            obtain ⟨thinking, hplain, hnote⟩ := bind_ok.mp hrest
            obtain rfl := Except.ok.inj hnote
            exact .thinking (hthinking ▸ htype) (orMissing_ok.mp hplain)
          · obtain ⟨_, -, hnote⟩ := bind_ok.mp h
            obtain rfl := Except.ok.inj hnote
            exact .redacted (hredacted ▸ htype)
          · obtain ⟨_, -, hrest⟩ := bind_ok.mp h
            obtain ⟨value, hvalue, hvisible⟩ := bind_ok.mp hrest
            obtain rfl := Except.ok.inj hvisible
            exact .media htype hmedia hvalue
      | _ =>
          simp only [htype] at h
          cases h
  | _ => cases h

/-- What is kept of a part is settled. -/
theorem safeContentPart_settled {part visible : JsonValue}
    (h : safeContentPart part = .ok (.visible visible)) : SettledPart visible := by
  obtain ⟨members, -, hsafe⟩ := safeContentPart_cases h
  cases hsafe with
  | text => exact textPart_settled _
  | media _ hfield hvalue =>
      obtain ⟨hsettled, hnative⟩ := safeMediaValue_settled hvalue
      exact mediaPart_settled hfield hsettled hnative

/-- The projected parts of a content are settled. -/
theorem projectedParts_settled {parts : List JsonValue} {start content : ProjectedContent}
    (hstart : ∀ part ∈ start.projectedParts, SettledPart part)
    (h : parts.foldlM ProjectedContent.add start = .ok content) :
    ∀ part ∈ content.projectedParts, SettledPart part := by
  induction parts generalizing start with
  | nil =>
      obtain rfl := Except.ok.inj h
      exact hstart
  | cons part parts ih =>
      rw [List.foldlM_cons] at h
      obtain ⟨next, hadd, hrest⟩ := bind_ok.mp h
      obtain ⟨safe, hsafe, hnext⟩ := bind_ok.mp hadd
      obtain rfl := Except.ok.inj hnext
      refine ih ?_ hrest
      cases safe with
      | note text =>
          show ∀ part ∈ start.projectedParts ++ [textPart text], SettledPart part
          exact List.forall_mem_append.mpr ⟨hstart, fun part hpart =>
            List.mem_singleton.mp hpart ▸ textPart_settled text⟩
      | visible visible =>
          show ∀ part ∈ start.projectedParts ++ [visible], SettledPart part
          exact List.forall_mem_append.mpr ⟨hstart, fun part hpart =>
            List.mem_singleton.mp hpart ▸ safeContentPart_settled hsafe⟩

/-- So are the parts with the notes between them. -/
theorem projectedContent_settled {payload : Members} {content : JsonValue}
    {projected : List JsonValue × List String}
    (h : projectedContentAndReasoningNotes payload content = .ok projected) :
    ∀ part ∈ projected.1, SettledPart part := by
  cases content with
  | array parts =>
      obtain ⟨result, hfold, hprojected⟩ := bind_ok.mp h
      obtain rfl := Except.ok.inj hprojected
      have hparts := projectedParts_settled (fun _ hmem => absurd hmem List.not_mem_nil) hfold
      intro part hpart
      rcases List.mem_append.mp hpart with hbefore | hbehind
      · rcases List.mem_append.mp hbefore with hfirst | hnote
        · exact hparts part (List.mem_of_mem_take hfirst)
        · obtain ⟨text, -, rfl⟩ := List.mem_map.mp hnote
          exact textPart_settled text
      · exact hparts part (List.mem_of_mem_drop hbehind)
  | _ =>
      obtain rfl := Except.ok.inj h
      exact fun _ hmem => nomatch hmem

/-- A safe tool call is kept. -/
theorem safeToolCall_settled {toolCall safe : JsonValue} (h : safeToolCall toolCall = .ok safe) :
    ∃ id name arguments, safe = toolCallOf id name arguments ∧ safeArguments arguments = .ok arguments := by
  obtain ⟨raw, -, hraw⟩ := bind_ok.mp h
  obtain ⟨id, -, hid⟩ := bind_ok.mp hraw
  obtain ⟨_, -, hrest⟩ := bind_ok.mp hid
  cases hfunction : getMember raw "function" with
  | object function =>
      rw [hfunction] at hrest
      obtain ⟨name, -, hname⟩ := bind_ok.mp hrest
      obtain ⟨arguments, harguments, hsafe⟩ := bind_ok.mp hname
      refine ⟨id, name, arguments, (Except.ok.inj hsafe).symm, ?_⟩
      cases hvalue : getMember function "arguments" with
      | null =>
          rw [hvalue] at harguments
          obtain rfl := Except.ok.inj harguments
          rfl
      | string text =>
          rw [hvalue] at harguments
          obtain rfl := Except.ok.inj harguments
          rfl
      | _ =>
          rw [hvalue] at harguments
          cases harguments
  | _ =>
      rw [hfunction] at hrest
      cases hrest

/-- The members of a projected message. -/
def assistantMembers (toolCalls : Option (List JsonValue)) (toolCallId : Option String)
    (content : JsonValue) : Members :=
  [("role", .string "assistant")] ++ (toolCalls.map fun calls => ("tool_calls", JsonValue.array calls)).toList ++
    (toolCallId.map fun id => ("tool_call_id", JsonValue.string id)).toList ++ [("content", content)]

/-- What the projection has made of a message. -/
structure SettledMessage (calls : Option (List JsonValue)) (rebuilt : JsonValue) : Prop where
  toolCalls : ∀ safe ∈ calls, ∀ call ∈ safe,
    ∃ id name arguments, call = toolCallOf id name arguments ∧ safeArguments arguments = .ok arguments
  content : (∃ text, rebuilt = .string text) ∨ (rebuilt = .null ∧ calls ≠ none) ∨
    ∃ parts, rebuilt = .array parts ∧ parts ≠ [] ∧ ∀ part ∈ parts, SettledPart part

/-- The content of a projected message is settled. -/
theorem rebuilt_settled {payload : Members} {content rebuilt : JsonValue}
    {projected : List JsonValue × List String} {toolCalls : Bool}
    (hprojected : projectedContentAndReasoningNotes payload content = .ok projected)
    (h : projectedContent content projected.1 projected.2 toolCalls = .ok rebuilt) :
    (∃ text, rebuilt = .string text) ∨ (rebuilt = .null ∧ toolCalls = true) ∨
      ∃ parts, rebuilt = .array parts ∧ parts ≠ [] ∧ ∀ part ∈ parts, SettledPart part := by
  have hsettled := projectedContent_settled hprojected
  cases content with
  | string text =>
      simp only [projectedContent] at h
      split_ifs at h
      · exact .inl ⟨_, (Except.ok.inj h).symm⟩
      · exact .inl ⟨_, (Except.ok.inj h).symm⟩
  | array parts =>
      simp only [projectedContent] at h
      split_ifs at h with hparts hcalls
      · exact .inr (.inr ⟨_, (Except.ok.inj h).symm, hparts, hsettled⟩)
      · exact .inr (.inl ⟨(Except.ok.inj h).symm, hcalls⟩)
  | null =>
      simp only [projectedContent] at h
      split_ifs at h with hnotes hcalls
      · refine .inr (.inr ⟨_, (Except.ok.inj h).symm, fun hnil => hnotes (List.map_eq_nil_iff.mp hnil), ?_⟩)
        intro part hpart
        obtain ⟨text, -, rfl⟩ := List.mem_map.mp hpart
        exact textPart_settled text
      · exact .inr (.inl ⟨(Except.ok.inj h).symm, hcalls⟩)
  | _ => cases h

/-- The projection settles a message. -/
theorem projectAssistantMessage_settled {payload : Members} {result : JsonValue}
    (h : projectAssistantMessage payload = .ok result) :
    ∃ calls id rebuilt, result = .object (assistantMembers calls id rebuilt) ∧
      SettledMessage calls rebuilt := by
  obtain ⟨projected, hprojected, hrest⟩ := bind_ok.mp h
  obtain ⟨toolCalls, hcalls, hrest⟩ := bind_ok.mp hrest
  obtain ⟨toolCallId, hid, hrest⟩ := bind_ok.mp hrest
  obtain ⟨rebuilt, hrebuilt, hresult⟩ := bind_ok.mp hrest
  obtain rfl := Except.ok.inj hresult
  have hcontent := rebuilt_settled hprojected hrebuilt
  obtain ⟨id, rfl⟩ : ∃ id : Option String,
      toolCallId = (id.map fun id => ("tool_call_id", JsonValue.string id)).toList := by
    unfold projectedToolCallId at hid
    cases hlookup : lookupMember payload "tool_call_id" with
    | none =>
        rw [hlookup] at hid
        exact ⟨none, (Except.ok.inj hid).symm⟩
    | some value =>
        rw [hlookup] at hid
        cases value with
        | string text => exact ⟨some text, (Except.ok.inj hid).symm⟩
        | _ => cases hid
  unfold projectedToolCalls at hcalls
  unfold hasKey at hcontent
  cases hlookup : lookupMember payload "tool_calls" with
  | none =>
      rw [hlookup] at hcalls hcontent
      obtain rfl := Except.ok.inj hcalls
      refine ⟨none, id, rebuilt, rfl, fun _ hmem => (nomatch hmem), ?_⟩
      rcases hcontent with htext | ⟨-, hcalls⟩ | hparts
      · exact .inl htext
      · cases hcalls
      · exact .inr (.inr hparts)
  | some value =>
      rw [hlookup] at hcalls hcontent
      obtain ⟨safeCalls, hsafe, hmember⟩ := bind_ok.mp hcalls
      obtain rfl := Except.ok.inj hmember
      refine ⟨some safeCalls, id, rebuilt, rfl, fun calls hmem call hcall => ?_, ?_⟩
      · obtain rfl := Option.some.inj hmem
        cases value with
        | array toolCalls =>
            obtain ⟨toolCall, -, hsame⟩ := exists_item_of_mapM hsafe hcall
            exact safeToolCall_settled hsame
        | _ => cases hsafe
      · rcases hcontent with htext | ⟨hnull, -⟩ | hparts
        · exact .inl htext
        · exact .inr (.inl ⟨hnull, fun h => nomatch h⟩)
        · exact .inr (.inr hparts)

end ProviderThinking

end AstrContinuum
