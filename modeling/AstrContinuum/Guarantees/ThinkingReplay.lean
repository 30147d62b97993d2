import Mathlib.Data.Option.Basic
import AstrContinuum.Invariants.ProjectedMessages

/-!
# Replayed messages

A message that needs no projection is passed on as it is. `SameJson` compares it with what the projection
would make of it: the two agree exactly for a `Replayable` message, since the projection looks at more
values. What has been projected is left alone (`normalizeOpenaiClaudeContexts_idempotent`).
-/

namespace AstrContinuum

namespace ProviderThinking

open Checked

/-! ## Equal values -/

/-- Equality of values: dictionaries are compared key by key, whatever the order of their members. -/
inductive SameJson : JsonValue → JsonValue → Prop
  | refl (value : JsonValue) : SameJson value value
  | array {items others : List JsonValue} (h : List.Forall₂ SameJson items others) :
      SameJson (.array items) (.array others)
  | object {members others : Members}
      (h : ∀ key, Option.Rel SameJson (lookupMember members key) (lookupMember others key)) :
      SameJson (.object members) (.object others)

/-- Equal dictionaries have equal values. -/
theorem SameJson.lookup {members others : Members} (h : SameJson (.object members) (.object others))
    (key : String) : Option.Rel SameJson (lookupMember members key) (lookupMember others key) := by
  cases h with
  | refl =>
      cases lookupMember members key with
      | none => exact .none
      | some value => exact .some (.refl value)
  | object h => exact h key

/-- Looking up the first of two members. -/
theorem lookupMember_pair {first second key : String} {a b : JsonValue} (h : first ≠ second) :
    lookupMember [(first, a), (second, b)] key =
      if key = first then some a else if key = second then some b else none := by
  unfold lookupMember
  by_cases hfirst : key = first
  · subst hfirst
    simp [Ne.symm h]
  · by_cases hsecond : key = second
    · subst hsecond
      simp [hfirst]
    · simp [Ne.symm hfirst, Ne.symm hsecond, hfirst, hsecond]

/-- Looking up in a dictionary of one member. -/
theorem lookupMember_single {first key : String} {a : JsonValue} :
    lookupMember [(first, a)] key = if key = first then some a else none := by
  unfold lookupMember
  by_cases hfirst : key = first
  · subst hfirst
    simp
  · simp [Ne.symm hfirst, hfirst]

/-! ## Content parts -/

/-- A part of a plain text or medium whose values the projection accepts as they are. -/
structure ReplayablePart (members : Members) : Prop where
  text : getMember members "type" = .string "text" → ∃ text, getMember members "text" = .string text
  mediaId : ∀ field ∈ ["image_url", "audio_url"], getMember members "type" = .string field →
    ∀ media, getMember members field = .object media →
      ∀ id, lookupMember media "id" = some id → ∃ text, id = .string text

/-- Two dictionaries with the same two members. -/
theorem sameJson_pair {members : Members} {first second : String} {a b : JsonValue} (hne : first ≠ second)
    (hfirst : lookupMember members first = some a)
    (hsecond : ∃ other, lookupMember members second = some other ∧ SameJson b other)
    (hrest : ∀ key, key ≠ first → key ≠ second → lookupMember members key = none) :
    SameJson (.object [(first, a), (second, b)]) (.object members) := by
  obtain ⟨other, hother, hsame⟩ := hsecond
  refine .object fun key => ?_
  rw [lookupMember_pair hne]
  split_ifs with hkey hkey'
  · rw [hkey, hfirst]
    exact .some (.refl a)
  · rw [hkey', hother]
    exact .some hsame
  · rw [hrest key hkey hkey']
    exact .none

/-- What the projection makes of the medium of a plain part, and when this is the medium. -/
theorem safeMediaValue_same {medium value : JsonValue} (h : safeMediaValue medium = .ok value)
    (hnative : ∀ media, medium = .object media → hasAnyKey nativePartMetadataFields media = false) :
    SameJson value medium ↔ ∀ media, medium = .object media →
      ∀ id, lookupMember media "id" = some id → ∃ text, id = .string text := by
  cases medium with
  | string url =>
      obtain rfl := Except.ok.inj h
      exact ⟨fun _ _ hmedia => (nomatch hmedia), fun _ => .refl _⟩
  | object media =>
      have hnone := hnative media rfl
      obtain ⟨_, hallowed, hrest⟩ := bind_ok.mp h
      have hwithin := require_ok.mp hallowed
      obtain ⟨url, hurl, hid⟩ := bind_ok.mp hrest
      have hurl' : lookupMember media "url" = some (.string url) :=
        lookupMember_of_getMember (plainText_eq_some.mp (orMissing_ok.mp hurl)) (by simp)
      have hkeys (key : String) (hfirst : key ≠ "url") (hsecond : key ≠ "id") :
          lookupMember media key = none :=
        lookupMember_of_noneOf hwithin hnone (by simp [hfirst, hsecond])
      cases hlookup : lookupMember media "id" with
      | none =>
          rw [getMember_of_none hlookup] at hid
          obtain rfl := Except.ok.inj hid
          refine ⟨fun _ other hother id hid' => ?_, fun _ => .object fun key => ?_⟩
          · obtain rfl := JsonValue.object.inj hother
            rw [hlookup] at hid'
            cases hid'
          · rw [lookupMember_single]
            split_ifs with hkey
            · rw [hkey, hurl']
              exact .some (.refl _)
            · by_cases hkey' : key = "id"
              · rw [hkey', hlookup]
                exact .none
              · rw [hkeys key hkey hkey']
                exact .none
      | some id =>
          rw [getMember_of_lookupMember hlookup] at hid
          cases id with
          | string text =>
              obtain rfl := Except.ok.inj hid
              refine ⟨fun _ other hother id hid' => ?_, fun _ => ?_⟩
              · obtain rfl := JsonValue.object.inj hother
                rw [hlookup] at hid'
                exact ⟨text, (Option.some.inj hid').symm⟩
              · exact sameJson_pair (by decide) hurl' ⟨_, hlookup, .refl _⟩ hkeys
          | _ =>
              obtain rfl := Except.ok.inj hid
              refine ⟨fun hsame => ?_, fun hall => ?_⟩
              · have hmissing := hsame.lookup "id"
                rw [hlookup] at hmissing
                cases hmissing
              · obtain ⟨text, htext⟩ := hall media rfl _ hlookup
                cases htext
  | _ => cases h

/-- A plain part is projected to a visible one; that is the part again exactly when it is replayable. -/
theorem safeContentPart_same {members : Members} {partType : String} (h : Plain members partType) :
    (∀ text, safeContentPart (.object members) ≠ .ok (.note text)) ∧
    ((∃ visible, safeContentPart (.object members) = .ok (.visible visible) ∧
      SameJson visible (.object members)) ↔ ReplayablePart members) := by
  have hwithin (allowed : List String) (htype : "type" ∈ allowed) (hfield : partType ∈ allowed) :
      requireAllowed allowed members = .ok () := by
    refine require_ok.mpr (keysWithin_iff.mpr fun member hmember => ?_)
    by_contra hother
    have hkind : member.1 ≠ "type" := fun hsame =>
      hother (List.mem_append_left _ (hsame ▸ htype))
    have hkey : member.1 ≠ partType := fun hsame =>
      hother (List.mem_append_left _ (hsame ▸ hfield))
    exact lookupMember_eq_none.mp (h.keys member.1 hkind hkey) member hmember rfl
  have htype : lookupMember members "type" = some (.string partType) :=
    lookupMember_of_getMember h.type (by simp)
  by_cases htext : partType = "text"
  · subst htext
    have hkeys (key : String) (hfirst : key ≠ "type") (hsecond : key ≠ "text") :
        lookupMember members key = none :=
      h.keys key hfirst hsecond
    cases hlookup : getMember members "text" with
    | string text =>
        have hsafe : safeContentPart (.object members) = .ok (.visible (textPart text)) := by
          simp only [safeContentPart, h.type, if_pos, hwithin ["type", "text"] (by decide) (by decide),
            hlookup]
          rfl
        refine ⟨fun note hnote => (nomatch hsafe.symm.trans hnote), fun _ => ⟨fun _ => ⟨text, hlookup⟩, ?_⟩,
          fun _ => ⟨_, hsafe, ?_⟩⟩
        · intro field hfield hother
          have hsame : field = "text" := JsonValue.string.inj (hother.symm.trans h.type)
          exact absurd (hsame ▸ hfield) (by decide)
        · exact sameJson_pair (by decide) htype
            ⟨_, lookupMember_of_getMember hlookup (by simp), .refl _⟩ hkeys
    | _ =>
        have hsafe : safeContentPart (.object members) = .error (.blocked "TEXT_PART_INVALID") := by
          simp only [safeContentPart, h.type, if_pos, hwithin ["type", "text"] (by decide) (by decide),
            hlookup]
          rfl
        refine ⟨fun note hnote => (nomatch hsafe.symm.trans hnote),
          fun ⟨visible, hvisible, _⟩ => (nomatch hsafe.symm.trans hvisible), fun hreplayable => ?_⟩
        obtain ⟨text, htext⟩ := hreplayable.text h.type
        cases hlookup.symm.trans htext
  · obtain ⟨value, hvalue, hnative⟩ := h.media htext
    have hmedia : partType = "image_url" ∨ partType = "audio_url" := h.known.resolve_left htext
    have hsafe : safeContentPart (.object members) = .ok (.visible (mediaPart partType value)) := by
      have hallowed := hwithin ["type", partType] (by simp) (by simp)
      rcases hmedia with rfl | rfl
      all_goals
        simp only [safeContentPart, h.type, hallowed, hvalue]
        rfl
    have hne : "type" ≠ partType := by
      rcases hmedia with rfl | rfl <;> decide
    have hvalue' : getMember members partType ≠ .null := by
      intro hnull
      rw [hnull] at hvalue
      cases hvalue
    have hlookup := lookupMember_of_getMember rfl hvalue'
    have hsame : SameJson (mediaPart partType value) (.object members) ↔
        SameJson value (getMember members partType) := by
      refine ⟨fun hsame => ?_, fun hsame => sameJson_pair hne htype ⟨_, hlookup, hsame⟩ h.keys⟩
      have hfield := hsame.lookup partType
      rw [lookupMember_pair hne, if_neg hne.symm, if_pos rfl, hlookup] at hfield
      cases hfield with
      | some hsame => exact hsame
    refine ⟨fun note hnote => (nomatch hsafe.symm.trans hnote), fun ⟨visible, hvisible, hagrees⟩ => ?_,
      fun hreplayable => ⟨_, hsafe, ?_⟩⟩
    · obtain rfl : mediaPart partType value = visible :=
        SafePart.visible.inj (Except.ok.inj (hsafe.symm.trans hvisible))
      refine ⟨fun hkind => ?_, fun field hfield hkind => ?_⟩
      · exact absurd (JsonValue.string.inj (h.type.symm.trans hkind)) htext
      · obtain rfl : partType = field := JsonValue.string.inj (h.type.symm.trans hkind)
        exact (safeMediaValue_same hvalue hnative).mp (hsame.mp hagrees)
    · refine hsame.mpr ((safeMediaValue_same hvalue hnative).mpr ?_)
      exact hreplayable.mediaId partType (by simpa using hmedia) h.type

/-! ## Messages that need no projection -/

/-- A part that is safe is added. -/
theorem add_of_safe {content : ProjectedContent} {part : JsonValue} {safe : SafePart}
    (h : safeContentPart part = .ok safe) : content.add part = .ok (content.append safe) :=
  bind_ok.mpr ⟨safe, h, rfl⟩

/-- What the loop over the content makes of parts of which all are kept. -/
theorem foldlM_add_visible {parts visible : List JsonValue} {content : ProjectedContent}
    (h : List.Forall₂ (fun part visible => safeContentPart part = .ok (.visible visible)) parts visible) :
    parts.foldlM ProjectedContent.add content =
      .ok { content with projectedParts := content.projectedParts ++ visible } := by
  induction h generalizing content with
  | nil =>
      rw [List.append_nil]
      rfl
  | cons hpart _ ih =>
      rw [List.foldlM_cons, add_of_safe hpart]
      show List.foldlM ProjectedContent.add (content.append (.visible _)) _ = _
      rw [ih]
      show Except.ok { content with projectedParts := content.projectedParts ++ [_] ++ _ } = _
      rw [List.append_assoc, List.singleton_append]

/-- Without the fields that mirror the reasoning there are no notes of them. -/
theorem mirrorNotes_eq_nil {payload : Members} (hcontent : lookupMember payload "reasoning_content" = none)
    (hreasoning : lookupMember payload "reasoning" = none) (notes : List String) :
    mirrorNotes payload notes = [] := by
  simp [mirrorNotes, getMember_of_none hcontent, getMember_of_none hreasoning, plainText]

/-- A message that the projection accepts as it is: its identifier is a text, and its content is a text, a
list that is not empty of replayable parts, or an explicit `None` beside tool calls. -/
structure Replayable (payload : Members) : Prop where
  toolCallId : ∀ id, lookupMember payload "tool_call_id" = some id → ∃ text, id = .string text
  content : (∃ text, lookupMember payload "content" = some (.string text)) ∨
    (∃ parts, lookupMember payload "content" = some (.array parts) ∧ parts ≠ [] ∧
      ∀ part ∈ parts, ∀ members, part = .object members → ReplayablePart members) ∨
    (lookupMember payload "content" = some .null ∧ hasKey payload "tool_calls" = true)

/-- The members that the projection keeps of a message that needs none, before its content. -/
theorem projected_fields {payload : Members} (h : PassedOn payload) :
    projectedToolCalls payload = .ok
      (if hasKey payload "tool_calls" = true then [("tool_calls", .array [])] else []) := by
  unfold projectedToolCalls hasKey
  cases hlookup : lookupMember payload "tool_calls" with
  | none => rfl
  | some value =>
      obtain rfl := h.toolCalls value hlookup
      rfl

/-- The parts of such a message are projected to themselves where they are replayable, and only there. -/
theorem parts_same {parts : List JsonValue}
    (h : ∀ part ∈ parts, partNeedsNormalization part = .ok false) :
    (∃ visible, List.Forall₂ (fun part visible => safeContentPart part = .ok (.visible visible)) parts visible ∧
      List.Forall₂ SameJson visible parts) ↔
    ∀ part ∈ parts, ∀ members, part = .object members → ReplayablePart members := by
  induction parts with
  | nil => exact ⟨fun _ _ hmem => (nomatch hmem), fun _ => ⟨[], .nil, .nil⟩⟩
  | cons part parts ih =>
      obtain ⟨hpart, hparts⟩ := List.forall_mem_cons.mp h
      obtain ⟨members, partType, rfl, hplain⟩ := plain_of_needs hpart
      have hsame := (safeContentPart_same hplain).2
      rw [List.forall_mem_cons, ← ih hparts]
      constructor
      · rintro ⟨visible, hvisible, hagree⟩
        cases hvisible with
        | cons hfirst hrest =>
            cases hagree with
            | cons hagree hagrees =>
                refine ⟨fun other hother => ?_, _, hrest, hagrees⟩
                obtain rfl := JsonValue.object.inj hother
                exact hsame.mp ⟨_, hfirst, hagree⟩
      · rintro ⟨hfirst, visible, hrest, hagrees⟩
        obtain ⟨value, hvalue, hagree⟩ := hsame.mpr (hfirst members rfl)
        exact ⟨value :: visible, .cons hvalue hrest, .cons hagree hagrees⟩

/-- The last of some members is found first. -/
theorem lookupMember_concat {members : Members} {last key : String} {value : JsonValue} :
    lookupMember (members ++ [(last, value)]) key =
      if key = last then some value else lookupMember members key := by
  unfold lookupMember
  rw [List.reverse_append, List.reverse_singleton, List.singleton_append, List.find?_cons]
  by_cases hkey : key = last
  · simp [hkey]
  · simp [Ne.symm hkey, hkey]

/-- Equal lists have equal items. -/
theorem SameJson.items {items others : List JsonValue} (h : SameJson (.array items) (.array others)) :
    List.Forall₂ SameJson items others := by
  cases h with
  | refl => exact List.forall₂_same.mpr fun value _ => .refl value
  | array h => exact h

/-- The projected message has the fields of one that needs no projection; the two agree where they agree on
the content. -/
theorem result_same {payload : Members} (h : PassedOn payload)
    (hrole : getMember payload "role" = .string "assistant") {ids : Members}
    (hids : projectedToolCallId payload = .ok ids) (rebuilt : JsonValue) :
    SameJson (.object ([("role", .string "assistant")] ++
        (if hasKey payload "tool_calls" = true then [("tool_calls", .array [])] else []) ++ ids ++
        [("content", rebuilt)])) (.object payload) ↔
      ∃ content, lookupMember payload "content" = some content ∧ SameJson rebuilt content := by
  have hrole' : lookupMember payload "role" = some (.string "assistant") :=
    lookupMember_of_getMember hrole (by simp)
  constructor
  · intro hsame
    have hcontent := hsame.lookup "content"
    rw [lookupMember_concat, if_pos rfl] at hcontent
    cases hlookup : lookupMember payload "content" with
    | none =>
        rw [hlookup] at hcontent
        cases hcontent
    | some content =>
        rw [hlookup] at hcontent
        cases hcontent with
        | some hagree => exact ⟨content, rfl, hagree⟩
  · rintro ⟨content, hlookup, hagree⟩
    refine .object fun key => ?_
    rw [lookupMember_concat]
    by_cases hcontent : key = "content"
    · rw [if_pos hcontent, hcontent, hlookup]
      exact .some hagree
    rw [if_neg hcontent]
    have hself (other : Option JsonValue) (hother : other = lookupMember payload key) :
        Option.Rel SameJson other (lookupMember payload key) := by
      rw [hother]
      cases lookupMember payload key with
      | none => exact .none
      | some value => exact .some (.refl value)
    refine hself _ ?_
    -- the identifier and the tool calls are those of the payload; no other key is in either message
    have hfirst : lookupMember ([("role", .string "assistant")] ++
        (if hasKey payload "tool_calls" = true then [("tool_calls", JsonValue.array [])] else [])) key =
          if key = "tool_calls" then lookupMember payload key
          else if key = "role" then some (.string "assistant") else none := by
      unfold hasKey
      cases hcalls : lookupMember payload "tool_calls" with
      | none =>
          show lookupMember [("role", JsonValue.string "assistant")] key = _
          rw [lookupMember_single]
          by_cases hkey : key = "tool_calls"
          · rw [if_pos hkey, hkey, hcalls, if_neg (by decide)]
          · rw [if_neg hkey]
      | some value =>
          obtain rfl := h.toolCalls value hcalls
          show lookupMember ([("role", JsonValue.string "assistant")] ++
            [("tool_calls", JsonValue.array [])]) key = _
          rw [lookupMember_concat, lookupMember_single]
          by_cases hkey : key = "tool_calls"
          · rw [if_pos hkey, if_pos hkey, hkey, hcalls]
          · rw [if_neg hkey, if_neg hkey]
    have hother (hcalls : key ≠ "tool_calls") (hid : key ≠ "tool_call_id") :
        (if key = "tool_calls" then lookupMember payload key
          else if key = "role" then some (.string "assistant") else none) = lookupMember payload key := by
      rw [if_neg hcalls]
      by_cases hkey : key = "role"
      · rw [if_pos hkey, hkey, hrole']
      · rw [if_neg hkey, h.keys key (by simp [safeAssistantFields, hkey, hcontent, hcalls, hid])]
    unfold projectedToolCallId at hids
    cases hid : lookupMember payload "tool_call_id" with
    | none =>
        rw [hid] at hids
        obtain rfl := Except.ok.inj hids
        rw [List.append_nil, hfirst]
        by_cases hcalls : key = "tool_calls"
        · rw [if_pos hcalls]
        · by_cases hkey : key = "tool_call_id"
          · rw [if_neg hcalls, hkey, hid, if_neg (by decide)]
          · exact hother hcalls hkey
    | some value =>
        rw [hid] at hids
        cases value with
        | string text =>
            obtain rfl := Except.ok.inj hids
            rw [lookupMember_concat, hfirst]
            by_cases hkey : key = "tool_call_id"
            · rw [if_pos hkey, hkey, hid]
            · rw [if_neg hkey]
              by_cases hcalls : key = "tool_calls"
              · rw [if_pos hcalls]
              · exact hother hcalls hkey
        | _ => cases hids

/-- The content of plain parts is projected part by part. -/
theorem projectedContent_parts {payload : Members} (h : PassedOn payload) {parts : List JsonValue}
    (hplain : ∀ part ∈ parts, partNeedsNormalization part = .ok false)
    {result : List JsonValue × List String} :
    projectedContentAndReasoningNotes payload (.array parts) = .ok result ↔
      List.Forall₂ (fun part visible => safeContentPart part = .ok (.visible visible)) parts result.1 ∧
        result.2 = [] := by
  have hnotes (notes : List String) : mirrorNotes payload notes = [] :=
    mirrorNotes_eq_nil (h.keys _ (by decide)) (h.keys _ (by decide)) notes
  have hvisible {visible : List JsonValue} (hall : List.Forall₂
      (fun part visible => safeContentPart part = .ok (.visible visible)) parts visible) :
      projectedContentAndReasoningNotes payload (.array parts) = .ok (visible, []) := by
    refine bind_ok.mpr ⟨_, foldlM_add_visible hall, ?_⟩
    rw [hnotes]
    show Except.ok (List.take 0 ([] ++ visible) ++ [] ++ List.drop 0 ([] ++ visible), []) = _
    simp
  constructor
  · intro hprojected
    obtain ⟨content, hfold, -⟩ := bind_ok.mp hprojected
    -- the loop has passed every part, and a plain part is never a note
    have hall : ∃ visible, List.Forall₂
        (fun part visible => safeContentPart part = .ok (.visible visible)) parts visible := by
      clear hprojected hvisible
      generalize ({} : ProjectedContent) = start at hfold
      induction parts generalizing start with
      | nil => exact ⟨[], .nil⟩
      | cons part parts ih =>
          obtain ⟨hpart, hparts⟩ := List.forall_mem_cons.mp hplain
          rw [List.foldlM_cons] at hfold
          obtain ⟨next, hadd, hrest⟩ := bind_ok.mp hfold
          obtain ⟨safe, hsafe, -⟩ := bind_ok.mp hadd
          obtain ⟨visible, hall⟩ := ih hparts next hrest
          obtain ⟨members, partType, rfl, hkind⟩ := plain_of_needs hpart
          cases safe with
          | note text => exact absurd hsafe ((safeContentPart_same hkind).1 text)
          | visible value => exact ⟨value :: visible, .cons hsafe hall⟩
    obtain ⟨visible, hall⟩ := hall
    obtain rfl := Except.ok.inj ((hvisible hall).symm.trans hprojected)
    exact ⟨hall, rfl⟩
  · obtain ⟨visible, noteTexts⟩ := result
    rintro ⟨hall, hnone⟩
    obtain rfl : noteTexts = [] := hnone
    exact hvisible hall

/-- The projection accepts the identifier of a tool call where it is a text. -/
theorem projectedToolCallId_ok {payload : Members} :
    (∃ ids, projectedToolCallId payload = .ok ids) ↔
      ∀ id, lookupMember payload "tool_call_id" = some id → ∃ text, id = .string text := by
  unfold projectedToolCallId
  cases lookupMember payload "tool_call_id" with
  | none => exact ⟨fun _ _ h => (nomatch h), fun _ => ⟨[], rfl⟩⟩
  | some value =>
      cases value with
      | string text => exact ⟨fun _ id h => ⟨text, (Option.some.inj h).symm⟩, fun _ => ⟨_, rfl⟩⟩
      | _ =>
          refine ⟨fun h => (nomatch h.choose_spec), fun h => ?_⟩
          obtain ⟨text, htext⟩ := h _ rfl
          cases htext

/-- What the projection makes of the content. -/
theorem projectAssistantMessage_ok {payload : Members} (h : PassedOn payload) {result : JsonValue} :
    projectAssistantMessage payload = .ok result ↔
      ∃ projected ids rebuilt,
        projectedContentAndReasoningNotes payload (getMember payload "content") = .ok projected ∧
        projectedToolCallId payload = .ok ids ∧
        projectedContent (getMember payload "content") projected.1 projected.2
          (hasKey payload "tool_calls") = .ok rebuilt ∧
        .object ([("role", .string "assistant")] ++
          (if hasKey payload "tool_calls" = true then [("tool_calls", .array [])] else []) ++ ids ++
          [("content", rebuilt)]) = result := by
  unfold projectAssistantMessage
  simp only [bind_ok, projected_fields h, pure_ok, Except.ok.injEq]
  constructor
  · rintro ⟨projected, hprojected, _, rfl, ids, hids, rebuilt, hrebuilt, hresult⟩
    exact ⟨projected, ids, rebuilt, hprojected, hids, hrebuilt, hresult⟩
  · rintro ⟨projected, ids, rebuilt, hprojected, hids, hrebuilt, hresult⟩
    exact ⟨projected, hprojected, _, rfl, ids, hids, rebuilt, hrebuilt, hresult⟩

/-- A message that is passed on agrees with its projection exactly when it is replayable. -/
theorem passedOn_same {payload : Members} (h : PassedOn payload)
    (hrole : getMember payload "role" = .string "assistant") :
    (∃ result, projectAssistantMessage payload = .ok result ∧ SameJson result (.object payload)) ↔
      Replayable payload := by
  have hnotes : mirrorNotes payload [] = [] :=
    mirrorNotes_eq_nil (h.keys _ (by decide)) (h.keys _ (by decide)) []
  have hequivalent : (∃ result, projectAssistantMessage payload = .ok result ∧
      SameJson result (.object payload)) ↔
        (∀ id, lookupMember payload "tool_call_id" = some id → ∃ text, id = .string text) ∧
        ∃ projected rebuilt content,
          projectedContentAndReasoningNotes payload (getMember payload "content") = .ok projected ∧
          projectedContent (getMember payload "content") projected.1 projected.2
            (hasKey payload "tool_calls") = .ok rebuilt ∧
          lookupMember payload "content" = some content ∧ SameJson rebuilt content := by
    constructor
    · rintro ⟨result, hresult, hsame⟩
      obtain ⟨projected, ids, rebuilt, hprojected, hids, hrebuilt, rfl⟩ :=
        (projectAssistantMessage_ok h).mp hresult
      obtain ⟨content, hlookup, hagree⟩ := (result_same h hrole hids rebuilt).mp hsame
      exact ⟨projectedToolCallId_ok.mp ⟨ids, hids⟩, projected, rebuilt, content, hprojected, hrebuilt,
        hlookup, hagree⟩
    · rintro ⟨hid, projected, rebuilt, content, hprojected, hrebuilt, hlookup, hagree⟩
      obtain ⟨ids, hids⟩ := projectedToolCallId_ok.mpr hid
      exact ⟨_, (projectAssistantMessage_ok h).mpr ⟨projected, ids, rebuilt, hprojected, hids, hrebuilt, rfl⟩,
        (result_same h hrole hids rebuilt).mpr ⟨content, hlookup, hagree⟩⟩
  rw [hequivalent]
  have hvalue {value : JsonValue} (hlookup : lookupMember payload "content" = some value) :
      getMember payload "content" = value := getMember_of_lookupMember hlookup
  rcases h.content with hnull | ⟨text, htext⟩ | ⟨parts, hparts, hplain⟩
  · rw [hnull]
    constructor
    · rintro ⟨hid, projected, rebuilt, content, hprojected, hrebuilt, hlookup, hagree⟩
      obtain rfl := Except.ok.inj hprojected
      simp only [projectedContent, hnotes, ne_eq, not_true_eq_false, if_false] at hrebuilt
      by_cases hcalls : hasKey payload "tool_calls" = true
      · obtain rfl : content = .null := (hvalue hlookup).symm.trans hnull
        exact ⟨hid, .inr (.inr ⟨hlookup, hcalls⟩)⟩
      · rw [if_neg hcalls] at hrebuilt
        cases hrebuilt
    · intro hreplayable
      refine ⟨hreplayable.toolCallId, ?_⟩
      rcases hreplayable.content with ⟨text, hlookup⟩ | ⟨parts, hlookup, -⟩ | ⟨hlookup, hcalls⟩
      · cases hnull.symm.trans (hvalue hlookup)
      · cases hnull.symm.trans (hvalue hlookup)
      · refine ⟨_, .null, .null, rfl, ?_, hlookup, .refl _⟩
        simp only [projectedContent, hnotes, ne_eq, not_true_eq_false, if_false, hcalls, if_true]
  · rw [htext]
    have hlookup := lookupMember_of_getMember htext (by simp)
    constructor
    · rintro ⟨hid, _⟩
      exact ⟨hid, .inl ⟨text, hlookup⟩⟩
    · intro hreplayable
      refine ⟨hreplayable.toolCallId, _, .string text, _, rfl, ?_, hlookup, .refl _⟩
      simp only [projectedContent, hnotes, ne_eq, not_true_eq_false, if_false]
  · rw [hparts]
    have hlookup := lookupMember_of_getMember hparts (by simp)
    constructor
    · rintro ⟨hid, projected, rebuilt, content, hprojected, hrebuilt, hcontent, hagree⟩
      obtain ⟨hvisible, hnone⟩ := (projectedContent_parts h hplain).mp hprojected
      obtain rfl := Option.some.inj (hlookup.symm.trans hcontent)
      refine ⟨hid, .inr (.inl ⟨parts, hlookup, ?_, ?_⟩)⟩
      all_goals
        unfold projectedContent at hrebuilt
        by_cases hempty : projected.1 ≠ []
        swap
        · simp only [hempty, if_false] at hrebuilt
          split_ifs at hrebuilt
          obtain rfl := Except.ok.inj hrebuilt
          cases hagree
        rw [if_pos hempty] at hrebuilt
        obtain rfl := Except.ok.inj hrebuilt
      · intro hnil
        rw [hnil] at hvisible
        exact hempty (List.forall₂_nil_left_iff.mp hvisible)
      · exact (parts_same hplain).mp ⟨_, hvisible, hagree.items⟩
    · intro hreplayable
      refine ⟨hreplayable.toolCallId, ?_⟩
      rcases hreplayable.content with ⟨text, hother⟩ | ⟨others, hother, hne, hall⟩ | ⟨hother, hcalls⟩
      · cases hparts.symm.trans (hvalue hother)
      · obtain rfl : parts = others := JsonValue.array.inj (hparts.symm.trans (hvalue hother))
        obtain ⟨visible, hvisible, hagrees⟩ := (parts_same hplain).mpr hall
        refine ⟨(visible, []), .array visible, _, (projectedContent_parts h hplain).mpr ⟨hvisible, rfl⟩,
          if_pos fun hempty => hne ?_, hlookup, .array hagrees⟩
        obtain rfl : visible = [] := hempty
        exact List.forall₂_nil_right_iff.mp hvisible
      · cases hparts.symm.trans (hvalue hother)

/-! ## Projected messages -/

/-- Projecting it again gives it again. -/
theorem safeToolCall_toolCallOf {id name : String} {arguments : JsonValue}
    (h : safeArguments arguments = .ok arguments) :
    safeToolCall (toolCallOf id name arguments) = .ok (toolCallOf id name arguments) := by
  show (safeArguments arguments >>= fun arguments => pure (toolCallOf id name arguments)) = _
  rw [h]
  rfl

/-- Settled tool calls are not foreign. -/
theorem foreignToolCall_settled {calls : List JsonValue}
    (h : ∀ call ∈ calls, ∃ id name arguments, call = toolCallOf id name arguments ∧
      safeArguments arguments = .ok arguments) : foreignToolCall calls = .ok false := by
  induction calls with
  | nil => rfl
  | cons call calls ih =>
      obtain ⟨⟨id, name, arguments, rfl, -⟩, hrest⟩ := List.forall_mem_cons.mp h
      exact ih hrest

/-- Nor are they changed again. -/
theorem safeToolCalls_settled {calls : List JsonValue}
    (h : ∀ call ∈ calls, ∃ id name arguments, call = toolCallOf id name arguments ∧
      safeArguments arguments = .ok arguments) : calls.mapM safeToolCall = .ok calls := by
  refine mapM_ok.mpr (List.forall₂_same.mpr fun call hcall => ?_)
  obtain ⟨id, name, arguments, rfl, harguments⟩ := h call hcall
  exact safeToolCall_toolCallOf harguments

/-- Settled parts need no projection. -/
theorem contentNeeds_settled {parts : List JsonValue} (h : ∀ part ∈ parts, SettledPart part) :
    contentNeedsNormalization parts = .ok false := by
  induction parts with
  | nil => rfl
  | cons part parts ih =>
      obtain ⟨hpart, hrest⟩ := List.forall_mem_cons.mp h
      exact bind_ok.mpr ⟨false, hpart.needs, ih hrest⟩

section Settled

variable {calls : Option (List JsonValue)} {id : Option String} {rebuilt : JsonValue}

/-- The members of a projected message. -/
theorem assistantMembers_lookup :
    lookupMember (assistantMembers calls id rebuilt) "role" = some (.string "assistant") ∧
    lookupMember (assistantMembers calls id rebuilt) "tool_calls" = calls.map JsonValue.array ∧
    lookupMember (assistantMembers calls id rebuilt) "tool_call_id" = id.map JsonValue.string ∧
    lookupMember (assistantMembers calls id rebuilt) "content" = some rebuilt ∧
    hasAnyKey nativeAssistantMetadataFields (assistantMembers calls id rebuilt) = false ∧
    keysWithin (safeAssistantFields ++ nativeAssistantMetadataFields) (assistantMembers calls id rebuilt) =
      true := by
  cases calls <;> cases id <;> exact ⟨rfl, rfl, rfl, rfl, rfl, rfl⟩

/-- A projected message is accepted. -/
theorem assistantNeeds_settled (h : SettledMessage calls rebuilt) :
    ∃ needs, assistantNeedsNormalization (assistantMembers calls id rebuilt) = .ok needs := by
  obtain ⟨-, hcalls, -, hcontent, hnative, hwithin⟩ := @assistantMembers_lookup calls id rebuilt
  have hneeds : ∃ needs, payloadToolCallsNeedProjection (assistantMembers calls id rebuilt) = .ok needs := by
    unfold payloadToolCallsNeedProjection
    rw [hcalls]
    cases calls with
    | none => exact ⟨false, rfl⟩
    | some safe =>
        exact ⟨_, bind_ok.mpr ⟨false, foreignToolCall_settled (h.toolCalls safe rfl), rfl⟩⟩
  have hplain : payloadContentNeedsNormalization (assistantMembers calls id rebuilt) = .ok false := by
    unfold payloadContentNeedsNormalization
    rw [getMember_of_lookupMember hcontent]
    rcases h.content with ⟨text, rfl⟩ | ⟨rfl, -⟩ | ⟨parts, rfl, -, hparts⟩
    · rfl
    · rfl
    · exact contentNeeds_settled hparts
  obtain ⟨needs, hneeds⟩ := hneeds
  refine ⟨if needs = true then true else false, bind_ok.mpr ⟨(), require_ok.mpr hwithin, ?_⟩⟩
  rw [if_neg (Bool.eq_false_iff.mp hnative)]
  refine bind_ok.mpr ⟨needs, hneeds, ?_⟩
  split_ifs
  · rfl
  · exact hplain

/-- Projecting it again gives it again. -/
theorem projectAssistantMessage_again (h : SettledMessage calls rebuilt) :
    projectAssistantMessage (assistantMembers calls id rebuilt) =
      .ok (.object (assistantMembers calls id rebuilt)) := by
  obtain ⟨-, hcalls, hid, hcontent, hnative, -⟩ := @assistantMembers_lookup calls id rebuilt
  have hnone := hasAnyKey_eq_false.mp hnative
  have hnotes (notes : List String) : mirrorNotes (assistantMembers calls id rebuilt) notes = [] :=
    mirrorNotes_eq_nil (hnone _ (by decide)) (hnone _ (by decide)) notes
  have hprojected : ∃ projected, projectedContentAndReasoningNotes (assistantMembers calls id rebuilt)
      rebuilt = .ok projected ∧
        projectedContent rebuilt projected.1 projected.2
          (hasKey (assistantMembers calls id rebuilt) "tool_calls") = .ok rebuilt := by
    rcases h.content with ⟨text, rfl⟩ | ⟨rfl, hsome⟩ | ⟨parts, rfl, hparts, hall⟩
    · refine ⟨_, rfl, ?_⟩
      rw [hnotes]
      rfl
    · refine ⟨_, rfl, ?_⟩
      rw [hnotes]
      cases calls with
      | none => exact absurd rfl hsome
      | some safe =>
          unfold hasKey
          rw [hcalls]
          rfl
    · have hvisible : List.Forall₂ (fun part visible => safeContentPart part = .ok (.visible visible))
          parts parts := List.forall₂_same.mpr fun part hpart => (hall part hpart).safe
      refine ⟨(parts, []), bind_ok.mpr ⟨_, foldlM_add_visible hvisible, ?_⟩, if_pos hparts⟩
      rw [hnotes]
      show Except.ok (List.take 0 ([] ++ parts) ++ [] ++ List.drop 0 ([] ++ parts), []) = _
      simp
  obtain ⟨projected, hprojected, hrebuilt⟩ := hprojected
  unfold projectAssistantMessage
  rw [getMember_of_lookupMember hcontent]
  refine bind_ok.mpr ⟨projected, hprojected, ?_⟩
  refine bind_ok.mpr ⟨(calls.map fun calls => ("tool_calls", JsonValue.array calls)).toList, ?_, ?_⟩
  · unfold projectedToolCalls
    rw [hcalls]
    cases calls with
    | none => rfl
    | some safe => exact bind_ok.mpr ⟨safe, safeToolCalls_settled (h.toolCalls safe rfl), rfl⟩
  refine bind_ok.mpr ⟨(id.map fun id => ("tool_call_id", JsonValue.string id)).toList, ?_, ?_⟩
  · unfold projectedToolCallId
    rw [hid]
    cases id <;> rfl
  exact bind_ok.mpr ⟨rebuilt, hrebuilt, rfl⟩

/-- So the message is kept. -/
theorem normalizedMessage_settled (h : SettledMessage calls rebuilt) :
    normalizedMessage (.object (assistantMembers calls id rebuilt)) =
      .ok (.object (assistantMembers calls id rebuilt)) := by
  obtain ⟨hrole, -⟩ := @assistantMembers_lookup calls id rebuilt
  have hrole' := getMember_of_lookupMember hrole
  obtain ⟨needs, hneeds⟩ := @assistantNeeds_settled calls id rebuilt h
  have hmapping : assistantMessageMapping (.object (assistantMembers calls id rebuilt)) =
      .ok (assistantMembers calls id rebuilt) := by
    simp only [assistantMessageMapping, hrole']
  simp only [normalizedMessage, hrole']
  refine bind_ok.mpr ⟨_, hmapping, bind_ok.mpr ⟨needs, hneeds, ?_⟩⟩
  split_ifs
  · exact projectAssistantMessage_again h
  · rfl

end Settled

/-- What has been normalized is left alone. -/
theorem normalizedMessage_idempotent {message normalized : JsonValue}
    (h : normalizedMessage message = .ok normalized) : normalizedMessage normalized = .ok normalized := by
  cases message with
  | object members =>
      by_cases hrole : getMember members "role" = .string "assistant"
      · have hmapping : assistantMessageMapping (.object members) = .ok members := by
          simp only [assistantMessageMapping, hrole]
        have hrun := h
        simp only [normalizedMessage, hrole] at hrun
        obtain ⟨payload, hpayload, hrest⟩ := bind_ok.mp hrun
        obtain rfl := Except.ok.inj (hmapping.symm.trans hpayload)
        obtain ⟨needs, -, hresult⟩ := bind_ok.mp hrest
        split_ifs at hresult
        · obtain ⟨calls, id, rebuilt, rfl, hsettled⟩ := projectAssistantMessage_settled hresult
          exact normalizedMessage_settled hsettled
        · obtain rfl := Except.ok.inj hresult
          exact h
      · have hsame : normalizedMessage (.object members) = .ok (.object members) := by
          simp only [normalizedMessage]
        obtain rfl := Except.ok.inj (hsame.symm.trans h)
        exact h
  | _ => cases h

/-- Normalizing contexts twice is normalizing them once. -/
theorem normalizeOpenaiClaudeContexts_idempotent {contexts normalized : List JsonValue}
    (h : normalizeOpenaiClaudeContexts contexts = .ok normalized) :
    normalizeOpenaiClaudeContexts normalized = .ok normalized := by
  refine mapM_ok.mpr (List.forall₂_same.mpr fun message hmessage => ?_)
  obtain ⟨original, -, hnormalized⟩ := exists_item_of_mapM h hmessage
  exact normalizedMessage_idempotent hnormalized

/-- An assistant message that needs no projection agrees with its projection exactly when it is replayable,
and normalized contexts are normalized to themselves. -/
theorem pass_through_agrees :
    (∀ payload : Members, getMember payload "role" = .string "assistant" →
      assistantNeedsNormalization payload = .ok false →
      ((∃ result, projectAssistantMessage payload = .ok result ∧ SameJson result (.object payload)) ↔
        Replayable payload)) ∧
    ∀ contexts normalized : List JsonValue, normalizeOpenaiClaudeContexts contexts = .ok normalized →
      normalizeOpenaiClaudeContexts normalized = .ok normalized :=
  ⟨fun _ hrole hneeds => passedOn_same (passedOn_of_needs hneeds) hrole,
    fun _ _ h => normalizeOpenaiClaudeContexts_idempotent h⟩

/-- A text with an image is replayable, and it is normalized to itself. -/
theorem pass_through_agrees_sample :
    let payload : Members := [("role", .string "assistant"), ("content", .array [textPart "look",
      mediaPart "image_url" (.object [("url", .string "a.png")])])]
    (∃ result, projectAssistantMessage payload = .ok result ∧ SameJson result (.object payload)) ∧
      normalizeOpenaiClaudeContexts [.object payload] = .ok [.object payload] := by
  intro payload
  refine ⟨(pass_through_agrees.1 payload rfl rfl).mpr ⟨fun id hid => (nomatch hid), ?_⟩,
    pass_through_agrees.2 [.object payload] _ rfl⟩
  refine .inr (.inl ⟨_, rfl, fun h => (nomatch h), ?_⟩)
  intro part hpart members hmembers
  rcases List.mem_cons.mp hpart with rfl | hmedia
  · obtain rfl := JsonValue.object.inj hmembers
    refine ⟨fun _ => ⟨_, rfl⟩, fun field hfield hkind => ?_⟩
    obtain rfl : "text" = field := JsonValue.string.inj hkind
    exact absurd hfield (by decide)
  · obtain rfl := List.mem_singleton.mp hmedia
    obtain rfl := JsonValue.object.inj hmembers
    refine ⟨fun hkind => absurd (JsonValue.string.inj hkind) (by decide), fun field _ hkind media hobject => ?_⟩
    obtain rfl : "image_url" = field := JsonValue.string.inj hkind
    obtain rfl := JsonValue.object.inj hobject
    exact fun id hid => (nomatch hid)

/-- A text part whose text is a number is passed on, and the projection refuses it: the two need not agree. -/
theorem number_passed_on_as_text :
    ¬ ∀ payload : Members, getMember payload "role" = .string "assistant" →
      assistantNeedsNormalization payload = .ok false →
      ∃ result, projectAssistantMessage payload = .ok result ∧ SameJson result (.object payload) := by
  intro hclaim
  obtain ⟨result, hresult, -⟩ := hclaim [("role", .string "assistant"),
    ("content", .array [.object [("type", .string "text"), ("text", .int 5)]])] rfl rfl
  cases hresult

end ProviderThinking

end AstrContinuum
