import AstrContinuum.Compaction.FittingRuns
import AstrContinuum.Guarantees.Segmentation

/-!
# Fitting loses nothing

Whatever counter counts the prompts, the preflight returns the events of the segmenter's segments, cut
between durable units and within the limit. It gives up for the size of a unit alone, or because the
counter failed, and never because a segment could not be parsed on its own.
-/

namespace AstrContinuum

section Fitting

variable {σ : Type} [Hashlib] [UnicodeTables] [JsonReader]

/-- The fitted segments: the events of the delta in order, each input segment apart, no unit split, and
every prompt within the limit as the counter has it at the end. -/
structure FittedFrom (counter : TokenCounter σ) (profileId : String) (inputLimit : Int)
    (source : List EventEnvelope) (units : List (List EventEnvelope))
    (segments fitted : List EventSegment) (s' : FitState σ) : Prop where
  events : fitted.flatMap EventSegment.events = source
  apart : ∃ parts : List (List EventSegment), fitted = parts.flatten ∧
    List.Forall₂ (fun segment part => part.flatMap EventSegment.events = segment.events)
      segments parts
  whole : ∃ groups : List (List (List EventEnvelope)), groups.flatten = units ∧
    List.Forall₂ (fun group segment => group ≠ [] ∧ segment.events = group.flatten) groups fitted
  within : ∀ segment ∈ fitted, ∃ cost : Nat,
    serializedCost counter profileId segment s' = .ok cost s' ∧ (cost : Int) ≤ inputLimit

omit [UnicodeTables] [JsonReader] in
/-- Packed parts are the fitted segments of the units. -/
theorem exists_groups_of_packs {profileId : String} {inputLimit : Int} {s' : FitState σ}
    {cuts : List (List (List EventEnvelope) × EventSegment)} {parts : List (List EventSegment)}
    (h : List.Forall₂ (fun cut part => Packs profileId inputLimit s' cut.1 part) cuts parts) :
    Packs profileId inputLimit s' (cuts.flatMap Prod.fst) parts.flatten := by
  induction h with
  | nil => exact .nil
  | cons hfirst _ ih => exact hfirst.append ih

/-- What a run returns is fitted from the segments. -/
theorem fittedFrom_of_packs {counter : TokenCounter σ} {profileId : String} {inputLimit : Int}
    {source : List EventEnvelope} {counts : EventTokenCounts} {config : SegmenterConfig}
    {units : List (List EventEnvelope)} {cuts : List (List (List EventEnvelope) × EventSegment)}
    {parts : List (List EventSegment)} {s' : FitState σ}
    (h : SegmentedInto source counts config units cuts)
    (hparts : List.Forall₂ (fun cut part => Packs profileId inputLimit s' cut.1 part) cuts parts) :
    FittedFrom counter profileId inputLimit source units (cuts.map Prod.snd) parts.flatten s' := by
  have hpacks := exists_groups_of_packs hparts
  rw [h.read] at hpacks
  refine ⟨?_, ⟨parts, rfl, ?_⟩, ?_, ?_⟩
  · rw [hpacks.events, durableEventUnits_flatten h.groups]
  · rw [List.forall₂_map_left_iff]
    have hmade : ∀ cut ∈ cuts, cut.2.events = cut.1.flatten := fun cut hcut =>
      (h.made cut hcut).events
    clear hpacks h
    induction hparts with
    | nil => exact .nil
    | cons hfirst _ ih =>
        obtain ⟨hcut, hrest⟩ := List.forall_mem_cons.mp hmade
        exact .cons (hfirst.events.trans hcut.symm) (ih hrest)
  · obtain ⟨groups, hunits, hgroups⟩ := hpacks
    exact ⟨groups, hunits, hgroups.imp fun group segment hpart => ⟨hpart.1, hpart.2.1⟩⟩
  · intro segment hsegment
    obtain ⟨groups, -, hgroups⟩ := hpacks
    obtain ⟨group, -, -, -, cost, hcost, hfits⟩ := Checked.exists_of_forall₂ hgroups hsegment
    exact ⟨cost, hcost.run, hfits⟩

/-- Provider fitting: for the segments that the segmenter makes of a delta, any counter and any limit,
normalization leaves the segments, a run that returns gives segments fitted from them, and a run that
raises does so because the prompt of a unit alone exceeds the limit or because the counter fails. Where
the counter is a function of the text that grows with the events, and no two prompts have one digest,
every unit that exceeds the limit alone is refused. -/
theorem fitting_is_lossless {source : List EventEnvelope} {counts : EventTokenCounts}
    {config : SegmenterConfig} {preferred : List Nat} {segments : List EventSegment}
    (hsegments : segment source counts config preferred = .ok segments) (counter : TokenCounter σ)
    (profileId : String) (inputLimit : Int) (s : FitState σ) :
    normalizeAtomicSegments segments source counts = .ok segments ∧
    ∃ units, durableEventUnits source = some units ∧
      (∀ fitted s', fitSegments counter profileId segments source counts inputLimit s =
          .ok fitted s' →
        FittedFrom counter profileId inputLimit source units segments fitted s') ∧
      (∀ failure s', fitSegments counter profileId segments source counts inputLimit s =
          .error failure s' →
        (failure = .deferred "COMPACTION_INPUT_TOO_LARGE" ∧ ∃ unit ∈ units, ∃ cost : Nat,
          (∀ reason, serializedCost counter profileId (fittedSegment unit counts reason) s' =
            .ok cost s') ∧ inputLimit < (cost : Int)) ∨
        ∃ cause, failure = .counting cause ∧ FailsWith counter cause) ∧
      ∀ count : String → Nat,
        (∀ text host, (counter.countText text host).1 = .integer (count text)) →
        Set.InjOn Hashlib.sha256Hexdigest (promptTexts source) →
        (∀ part whole, part <:+: whole → whole <:+: source →
          count (eventsPrompt part) ≤ count (eventsPrompt whole)) →
        s.Faithful profileId count (promptTexts source) →
        ∀ unit ∈ units, inputLimit < (count systemPrompt + count (eventsPrompt unit) : Nat) →
          ∃ s', fitSegments counter profileId segments source counts inputLimit s =
            .error (.deferred "COMPACTION_INPUT_TOO_LARGE") s' := by
  obtain ⟨units, cuts, hinto, rfl⟩ := segment_ok_into hsegments
  refine ⟨hinto.normalizeAtomicSegments_eq, units, hinto.groups, ?_, ?_, ?_⟩
  · intro fitted s' hrun
    obtain ⟨-, parts, rfl, hparts⟩ := (fitSegments_ends hinto).ok hrun
    exact fittedFrom_of_packs hinto hparts
  · intro failure s' hrun
    obtain ⟨-, ⟨htoo, unit, hunit, cost, hcost, hexceeds⟩ | hfails⟩ :=
      (fitSegments_ends hinto).error hrun
    · exact .inl ⟨htoo, unit, hunit, cost, fun _ => FitState.Costs.run hcost, hexceeds⟩
    · exact .inr hfails
  · intro count hcount hhash hmonotone hfaithful unit hunit hexceeds
    exact fitSegments_refused hinto hcount hhash hmonotone hfaithful hunit hexceeds

end Fitting

namespace FittingSample

open SegmentSample

/-- The SHA-256 digests of the prompts of the message, of the round and of both. -/
scoped instance : Hashlib := ⟨fun text =>
  if text = systemPrompt then "22e9d55e4909a4c3f1f1e703b8e2ca026aa92412e317499190e63d128cf7f16f"
  else if text = eventsPrompt (delta.take 1) then
    "165ccd582912466a479cdcaf812d663a32bbce5c0dc3c8bf83542c15aa0413c2"
  else if text = eventsPrompt (delta.drop 1) then
    "f4f11ca509e3ad5c0b785509304726c54c918eed0f9d38bd9b2bc0f5272b57e1"
  else "449711600f9933b5ef892f540a9c6a0d5ea0a35cbeb1df33015afda5dcb91b06"⟩

/-- A counter of characters. -/
def counter : TokenCounter Unit :=
  ⟨fun text host => (.integer text.length, host)⟩

end FittingSample

open SegmentSample FittingSample

/-- The segment of the message and that of the round are fitted one by one. -/
theorem fitting_is_lossless_sample :
    ∃ segments, segment delta counts SegmentSample.config [] = .ok segments ∧
      normalizeAtomicSegments segments delta counts = .ok segments ∧
      durableEventUnits delta = some [delta.take 1, delta.drop 1] ∧
      ∀ fitted s', fitSegments FittingSample.counter "characters" segments delta counts 1500 ⟨(), []⟩ =
          .ok fitted s' →
        FittedFrom FittingSample.counter "characters" 1500 delta [delta.take 1, delta.drop 1] segments
          fitted s' := by
  have hsegments : segment delta counts SegmentSample.config [] =
      .ok [fittedSegment (delta.take 1) counts .maxEvents,
        fittedSegment (delta.drop 1) counts .endOfInput] := by
    decide +kernel
  have hround : durableEventUnits delta = some [delta.take 1, delta.drop 1] := by decide +kernel
  obtain ⟨hnormal, units, hunits, hfitted, -⟩ := fitting_is_lossless hsegments
    FittingSample.counter "characters" 1500 ⟨(), []⟩
  obtain rfl := Option.some.inj (hround.symm.trans hunits)
  exact ⟨_, hsegments, hnormal, hround, hfitted⟩

end AstrContinuum
