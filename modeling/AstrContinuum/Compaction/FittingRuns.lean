import Mathlib.Logic.Relation
import AstrContinuum.Compaction.FittingBoundaries

/-!
# Runs of the preflight

What `_fit_segments` does with any counter, even one whose answers change: a text that was counted keeps
its count in the cache, so `Costs`, the cost of a prompt as the cache has it, lasts from the moment of
counting to the end of the run. `fitSegments_ends` says what a run returns and what it raises.
-/

namespace AstrContinuum

open Checked Effects

variable {σ : Type} [Hashlib] {counter : TokenCounter σ} {profileId : String}

/-! ## Counted texts -/

/-- `s'` comes after `s` by counting some of the texts. -/
def FitState.Counting (counter : TokenCounter σ) (profileId : String) (texts : Set String) :
    FitState σ → FitState σ → Prop :=
  Relation.ReflTransGen fun s s' =>
    ∃ text ∈ texts, finalState (countPromptText counter profileId text s) = s'

/-- The counter fails on some text, in some state, as the failure says. -/
def FailsWith (counter : TokenCounter σ) (failure : RuntimeFailure) : Prop :=
  ∃ text host, countUncached (counter.countText text host).1 = .error failure

/-- A text has a count in the cache. -/
def FitState.Counted (profileId : String) (s : FitState σ) (text : String) (count : Nat) : Prop :=
  s.texts.lookup (Hashlib.sha256Hexdigest text, profileId) = some count

/-- The prompt of some events has a cost in the cache. -/
def FitState.Costs (profileId : String) (s : FitState σ) (events : List EventEnvelope)
    (cost : Nat) : Prop :=
  ∃ system prompt, s.Counted profileId systemPrompt system ∧
    s.Counted profileId (eventsPrompt events) prompt ∧ system + prompt = cost

/-- The prompt of some events has a cost within the limit. -/
def FitState.Fits (profileId : String) (inputLimit : Int) (s : FitState σ)
    (events : List EventEnvelope) : Prop :=
  ∃ cost : Nat, s.Costs profileId events cost ∧ (cost : Int) ≤ inputLimit

/-- The prompt of some events has a cost above the limit. -/
def FitState.Exceeds (profileId : String) (inputLimit : Int) (s : FitState σ)
    (events : List EventEnvelope) : Prop :=
  ∃ cost : Nat, s.Costs profileId events cost ∧ inputLimit < (cost : Int)

/-- The texts that are counted for segments of a delta. -/
def promptTexts (events : List EventEnvelope) : Set String :=
  {text | text = systemPrompt ∨ ∃ part, part <:+: events ∧ text = eventsPrompt part}

namespace FitState

variable {texts : Set String} {s s' s'' : FitState σ}

/-- What was counted is not asked again. -/
theorem Counted.run {text : String} {count : Nat} (h : s.Counted profileId text count) :
    countPromptText counter profileId text s = .ok count s := by
  unfold countPromptText
  rw [Counted] at h
  simp only [h]

/-- What asking for the count of a text does. -/
inductive Asked (counter : TokenCounter σ) (profileId : String) (s : FitState σ) (text : String) :
    EStateM.Result FitFailure (FitState σ) Nat → Prop
  | cached {count : Nat} (hcounted : s.Counted profileId text count) :
      Asked counter profileId s text (.ok count s)
  | counted {count : Nat}
      (hnew : s.texts.lookup (Hashlib.sha256Hexdigest text, profileId) = none)
      (hcount : countUncached (counter.countText text s.host).1 = .ok count) :
      Asked counter profileId s text (.ok count ⟨(counter.countText text s.host).2,
        ((Hashlib.sha256Hexdigest text, profileId), count) :: s.texts⟩)
  | failed {failure : RuntimeFailure}
      (hfailure : countUncached (counter.countText text s.host).1 = .error failure) :
      Asked counter profileId s text (.error (.counting failure)
        { s with host := (counter.countText text s.host).2 })

/-- Asking does one of these. -/
theorem countPromptText_asked (counter : TokenCounter σ) (profileId : String) (s : FitState σ)
    (text : String) :
    Asked counter profileId s text (countPromptText counter profileId text s) := by
  cases hlookup : s.texts.lookup (Hashlib.sha256Hexdigest text, profileId) with
  | some cached =>
      have hcounted : s.Counted profileId text cached := hlookup
      rw [hcounted.run]
      exact .cached hcounted
  | none =>
      unfold countPromptText
      simp only [hlookup]
      cases hcount : countUncached (counter.countText text s.host).1 with
      | error failure => exact .failed hcount
      | ok count => exact .counted hlookup hcount

/-- A new count leaves the others. -/
theorem Counted.cons {text other : String} {count value : Nat} {host : σ}
    (h : s.Counted profileId text count)
    (hnew : s.texts.lookup (Hashlib.sha256Hexdigest other, profileId) = none) :
    Counted profileId ⟨host, ((Hashlib.sha256Hexdigest other, profileId), value) :: s.texts⟩ text
      count := by
  have hne : (Hashlib.sha256Hexdigest text, profileId) ≠
      (Hashlib.sha256Hexdigest other, profileId) := by
    intro hsame
    rw [Counted, hsame, hnew] at h
    cases h
  unfold Counted
  rw [List.lookup_cons, beq_false_of_ne hne]
  exact h

/-- Counting keeps the counts that are there. -/
theorem Counted.keep {text other : String} {count : Nat} (h : s.Counted profileId text count) :
    (finalState (countPromptText counter profileId other s)).Counted profileId text count := by
  have hasked := countPromptText_asked counter profileId s other
  generalize countPromptText counter profileId other s = result at hasked ⊢
  cases hasked with
  | cached hcounted => exact h
  | counted hnew hcount => exact h.cons hnew
  | failed hfailure => exact h

/-- The counts of a state are there in every later one. -/
theorem Counting.counted (h : Counting counter profileId texts s s') {text : String} {count : Nat}
    (hcounted : s.Counted profileId text count) : s'.Counted profileId text count := by
  induction h with
  | refl => exact hcounted
  | tail _ hstep ih =>
      obtain ⟨other, -, rfl⟩ := hstep
      exact ih.keep

/-- The costs of a state are there in every later one. -/
theorem Counting.costs (h : Counting counter profileId texts s s') {events : List EventEnvelope}
    {cost : Nat} (hcosts : s.Costs profileId events cost) : s'.Costs profileId events cost := by
  obtain ⟨system, prompt, hsystem, hprompt, hsum⟩ := hcosts
  exact ⟨system, prompt, h.counted hsystem, h.counted hprompt, hsum⟩

/-- What fits in a state fits in every later one. -/
theorem Counting.fits (h : Counting counter profileId texts s s') {inputLimit : Int}
    {events : List EventEnvelope} (hfits : s.Fits profileId inputLimit events) :
    s'.Fits profileId inputLimit events :=
  hfits.imp fun _ hcost => ⟨h.costs hcost.1, hcost.2⟩

/-- A cost in the cache is what `_serialized_cost` returns. -/
theorem Costs.run {segment : EventSegment} {cost : Nat}
    (h : s.Costs profileId segment.events cost) :
    serializedCost counter profileId segment s = .ok cost s := by
  obtain ⟨system, prompt, hsystem, hprompt, rfl⟩ := h
  exact Effects.bind_ok.mpr
    ⟨system, s, hsystem.run, Effects.bind_ok.mpr ⟨prompt, s, hprompt.run, rfl⟩⟩

/-- Counting a text leaves its count in the cache. -/
theorem countPromptText_ends {text : String} (htext : text ∈ texts) :
    Ends (fun e s' => Counting counter profileId texts s s' ∧
        ∃ failure, e = .counting failure ∧ FailsWith counter failure)
      (fun count s' => Counting counter profileId texts s s' ∧ s'.Counted profileId text count)
      (countPromptText counter profileId text) s := by
  have hcounting : Counting counter profileId texts s
      (finalState (countPromptText counter profileId text s)) :=
    .single ⟨text, htext, rfl⟩
  have hasked := countPromptText_asked counter profileId s text
  unfold Ends
  generalize countPromptText counter profileId text s = result at hasked hcounting ⊢
  cases hasked with
  | cached hcounted => exact ⟨.refl, hcounted⟩
  | counted hnew hcount => exact ⟨hcounting, List.lookup_cons_self⟩
  | failed hfailure => exact ⟨hcounting, _, rfl, text, s.host, hfailure⟩

/-- Counting a prompt leaves its cost in the cache. -/
theorem serializedCost_ends {events : List EventEnvelope} {segment : EventSegment}
    (hsegment : segment.events <:+: events) :
    Ends (fun e s' => Counting counter profileId (promptTexts events) s s' ∧
        ∃ failure, e = .counting failure ∧ FailsWith counter failure)
      (fun cost s' => Counting counter profileId (promptTexts events) s s' ∧
        s'.Costs profileId segment.events cost)
      (serializedCost counter profileId segment) s := by
  have hsystem : systemPrompt ∈ promptTexts events := .inl rfl
  have hprompt : segmentPrompt segment ∈ promptTexts events := .inr ⟨_, hsegment, rfl⟩
  refine (countPromptText_ends hsystem).bind fun system mid hmid => ?_
  refine ((countPromptText_ends hprompt).weaken (fun e s' hraised =>
    ⟨hmid.1.trans hraised.1, hraised.2⟩) fun prompt s' hcounted => hcounted).bind
      fun prompt s' hcounted => .pure ?_
  exact ⟨hmid.1.trans hcounted.1, system, prompt, hcounted.1.counted hmid.2, hcounted.2, rfl⟩

end FitState

/-! ## Splitting -/

section Fitting

variable {counts : EventTokenCounts} {inputLimit : Int}
  {source : List EventEnvelope} {units : List (List EventEnvelope)}

/-- What a run of the preflight raises: a unit alone exceeds the limit, or the counter fails. -/
def FitRaises (counter : TokenCounter σ) (profileId : String) (inputLimit : Int)
    (source : List EventEnvelope) (units : List (List EventEnvelope)) (s : FitState σ)
    (failure : FitFailure) (s' : FitState σ) : Prop :=
  s.Counting counter profileId (promptTexts source) s' ∧
    (failure = .deferred "COMPACTION_INPUT_TOO_LARGE" ∧
        (∃ unit ∈ units, s'.Exceeds profileId inputLimit unit) ∨
      ∃ cause, failure = .counting cause ∧ FailsWith counter cause)

/-- Segments that take some units in a row, each within the limit. -/
def Packs (profileId : String) (inputLimit : Int) (s : FitState σ)
    (units : List (List EventEnvelope)) (segments : List EventSegment) : Prop :=
  ∃ groups : List (List (List EventEnvelope)), groups.flatten = units ∧
    List.Forall₂ (fun group segment => group ≠ [] ∧ segment.events = group.flatten ∧
      s.Fits profileId inputLimit segment.events) groups segments

omit [Hashlib] in
/-- Units in a row have events in a row. -/
theorem infix_flatten {part whole : List (List EventEnvelope)} (h : part <:+: whole) :
    part.flatten <:+: whole.flatten := by
  obtain ⟨before, behind, rfl⟩ := h
  exact ⟨before.flatten, behind.flatten, by simp⟩

namespace Packs

variable {s s' : FitState σ} {others : List (List EventEnvelope)}
  {segments segments' : List EventSegment} {segment : EventSegment}

/-- No units need no segments. -/
theorem nil : Packs profileId inputLimit s [] [] :=
  ⟨[], rfl, .nil⟩

/-- One segment takes all units. -/
theorem single (hunits : units ≠ []) (hevents : segment.events = units.flatten)
    (hfits : s.Fits profileId inputLimit segment.events) :
    Packs profileId inputLimit s units [segment] :=
  ⟨[units], by simp, .cons ⟨hunits, hevents, hfits⟩ .nil⟩

/-- The segments of two parts. -/
theorem append (h : Packs profileId inputLimit s units segments)
    (h' : Packs profileId inputLimit s others segments') :
    Packs profileId inputLimit s (units ++ others) (segments ++ segments') := by
  obtain ⟨groups, rfl, hgroups⟩ := h
  obtain ⟨groups', rfl, hgroups'⟩ := h'
  exact ⟨groups ++ groups', List.flatten_append, List.rel_append hgroups hgroups'⟩

/-- What is packed stays packed. -/
theorem later (h : Packs profileId inputLimit s units segments)
    (hlater : s.Counting counter profileId (promptTexts source) s') :
    Packs profileId inputLimit s' units segments := by
  obtain ⟨groups, hunits, hgroups⟩ := h
  exact ⟨groups, hunits, hgroups.imp fun group segment hpart =>
    ⟨hpart.1, hpart.2.1, hlater.fits hpart.2.2⟩⟩

/-- The segments hold the events of the units. -/
theorem events (h : Packs profileId inputLimit s units segments) :
    segments.flatMap EventSegment.events = units.flatten := by
  obtain ⟨groups, rfl, hgroups⟩ := h
  induction hgroups with
  | nil => rfl
  | cons hfirst _ ih =>
      rw [List.flatMap_cons, ih, hfirst.2.1]
      simp

end Packs

/-- What the loop of `_split_segment` has read: some units are packed, and the pending ones fit
together. -/
structure SplitScan.Packing (profileId : String) (inputLimit : Int) (s : FitState σ)
    (scan : SplitScan) (packed pending : List (List EventEnvelope)) : Prop where
  split : Packs profileId inputLimit s packed scan.split
  current : scan.current = pending.flatten
  fits : pending ≠ [] → s.Fits profileId inputLimit scan.current

namespace SplitScan

variable {s : FitState σ} {scan : SplitScan} {packed pending rest : List (List EventEnvelope)}
  {segment : EventSegment} {group : List EventEnvelope}

/-- Closing the open part packs the pending units. -/
theorem Packing.close (h : scan.Packing profileId inputLimit s packed pending)
    (hunits : ∀ unit ∈ pending, unit ≠ []) (reason : SegmentBoundaryReason) :
    Packs profileId inputLimit s (packed ++ pending) (scan.close counts reason) := by
  unfold SplitScan.close
  by_cases hpending : pending = []
  · subst hpending
    have hnil : scan.current = [] := h.current
    rw [if_pos hnil, List.append_nil]
    exact h.split
  · have hcurrent : scan.current ≠ [] := by
      rw [h.current]
      obtain ⟨unit, hunit⟩ := List.exists_mem_of_ne_nil _ hpending
      exact fun hnil => hunits unit hunit (List.flatten_eq_nil_iff.mp hnil unit hunit)
    rw [if_neg hcurrent]
    exact h.split.append (.single hpending h.current (h.fits hpending))

/-- An iteration: the group joins the open part, or it opens the next one, or it exceeds the limit
alone. -/
theorem Packing.step_ends (h : scan.Packing profileId inputLimit s packed pending)
    (hunits : ∀ unit ∈ pending, unit ≠ []) (hgroup : group ∈ units)
    ( hinfix : (pending ++ [group]).flatten <:+: source) :
    Ends (FitRaises counter profileId inputLimit source units s)
      (fun next s' => s.Counting counter profileId (promptTexts source) s' ∧
        ∃ packed' pending', packed' ++ pending' = packed ++ pending ++ [group] ∧
          next.Packing profileId inputLimit s' packed' pending')
      (SplitScan.step counter profileId segment counts inputLimit scan group) s := by
  have hflatten : (pending ++ [group]).flatten = scan.current ++ group := by
    rw [h.current]
    simp
  have hproposed : (fittedSegment (scan.current ++ group) counts .maxTokens).events <:+: source :=
    hflatten ▸ hinfix
  have hsingle : (fittedSegment group counts segment.boundaryReason).events <:+: source :=
    (List.suffix_append scan.current group).isInfix.trans hproposed
  unfold SplitScan.step
  refine ((FitState.serializedCost_ends hproposed).weaken
    (fun e s' hraised => ⟨hraised.1, .inr hraised.2⟩) fun _ _ hcost => hcost).bind
      fun proposedCost mid hmid => .ite (fun hfits => .pure ?_) fun _ => ?_
  · exact ⟨hmid.1, packed, pending ++ [group], by simp, h.split.later hmid.1, hflatten.symm,
      fun _ => ⟨proposedCost, hmid.2, hfits⟩⟩
  · refine ((FitState.serializedCost_ends hsingle).weaken
      (fun e s' hraised => ⟨hmid.1.trans hraised.1, .inr hraised.2⟩) fun _ _ hcost => hcost).bind
        fun singleCost s' hs' => ?_
    have hcounting : s.Counting counter profileId (promptTexts source) s' := hmid.1.trans hs'.1
    refine .ite (fun hexceeds => .throw ?_) fun hfits => .pure ?_
    · exact ⟨hcounting, .inl ⟨rfl, group, hgroup, singleCost, hs'.2, hexceeds⟩⟩
    · have hclosed : Packs profileId inputLimit s (packed ++ pending)
          (scan.close counts .maxTokens) := h.close hunits .maxTokens
      refine ⟨hcounting, packed ++ pending, [group], rfl, hclosed.later hcounting, by simp,
        fun _ => ?_⟩
      exact ⟨singleCost, hs'.2, not_lt.mp hfits⟩

end SplitScan

section Run

variable [UnicodeTables] [JsonReader] {s : FitState σ}

/-- A segment that is too large is split between its units. -/
theorem splitSegment_ends {segment : EventSegment} {groups : List (List EventEnvelope)}
    (hgroups : eventGroups segment.events = .ok groups) (hnonempty : ∀ unit ∈ groups, unit ≠ [])
    (hunits : groups ⊆ units) ( hinfix : groups.flatten <:+: source) :
    Ends (FitRaises counter profileId inputLimit source units s)
      (fun split s' => s.Counting counter profileId (promptTexts source) s' ∧
        Packs profileId inputLimit s' groups split)
      (splitSegment counter profileId segment counts inputLimit) s := by
  unfold splitSegment
  refine .performed hgroups ?_
  refine (Ends.foldlM (fun rest scan s' => s.Counting counter profileId (promptTexts source) s' ∧
      ∃ packed pending, packed ++ pending ++ rest = groups ∧
        scan.Packing profileId inputLimit s' packed pending) ?_ ?_).bind fun scan s' hscan => ?_
  · rintro group rest scan mid ⟨hmid, packed, pending, hread, hpacking⟩
    have hpending : ∀ unit ∈ pending, unit ≠ [] := fun unit hunit =>
      hnonempty unit (hread ▸ List.mem_append_left _ (List.mem_append_right _ hunit))
    have hgroup : group ∈ groups := hread ▸ List.mem_append_right _ List.mem_cons_self
    have hpart : pending ++ [group] <:+: groups := ⟨packed, rest, by simp [← hread]⟩
    refine (hpacking.step_ends hpending (hunits hgroup)
      ((infix_flatten hpart).trans hinfix)).weaken (fun e s' hraised => ?_) fun next s' hnext => ?_
    · exact ⟨hmid.trans hraised.1, hraised.2⟩
    · obtain ⟨hcounting, packed', pending', hmore, hpacking'⟩ := hnext
      exact ⟨hmid.trans hcounting, packed', pending', by rw [hmore, ← hread]; simp, hpacking'⟩
  · exact ⟨.refl, [], [], rfl, .nil, rfl, by simp⟩
  · obtain ⟨hcounting, packed, pending, hread, hpacking⟩ := hscan
    rw [List.append_nil] at hread
    refine .pure ⟨hcounting, hread ▸ hpacking.close (fun unit hunit => ?_) _⟩
    exact hnonempty unit (hread ▸ List.mem_append_right _ hunit)

variable {config : SegmenterConfig} {cuts : List (List (List EventEnvelope) × EventSegment)}

/-- A segment is kept or split. -/
theorem fitSegment_ends (h : SegmentedInto source counts config units cuts)
    {cut : List (List EventEnvelope) × EventSegment} (hcut : cut ∈ cuts)
    (fitted : List EventSegment) :
    Ends (FitRaises counter profileId inputLimit source units s)
      (fun next s' => s.Counting counter profileId (promptTexts source) s' ∧
        ∃ part, next = fitted ++ part ∧ Packs profileId inputLimit s' cut.1 part)
      (fitSegment counter profileId counts inputLimit fitted cut.2) s := by
  have hmade := h.made cut hcut
  have hunits := h.infix_units hcut
  have hinfix : cut.1.flatten <:+: source := by
    rw [← durableEventUnits_flatten h.groups]
    exact infix_flatten hunits
  have hsegment : cut.2.events <:+: source := hmade.events ▸ hinfix
  unfold fitSegment
  refine ((FitState.serializedCost_ends hsegment).weaken
    (fun e s' hraised => ⟨hraised.1, .inr hraised.2⟩) fun _ _ hcost => hcost).bind
      fun cost mid hmid => .ite (fun hfits => .pure ?_) fun _ => ?_
  · exact ⟨hmid.1, [cut.2], rfl, .single hmade.nonempty hmade.events ⟨cost, hmid.2, hfits⟩⟩
  · refine ((splitSegment_ends (h.eventGroups_cut hcut)
      (fun unit hunit => h.unit_ne_nil unit (hunits.subset hunit)) hunits.subset hinfix).weaken
      (fun e s' hraised => ⟨hmid.1.trans hraised.1, hraised.2⟩) fun _ _ hsplit => hsplit).bind
        fun split s' hsplit => .pure ?_
    exact ⟨hmid.1.trans hsplit.1, split, rfl, hsplit.2⟩

/-- What a run of the preflight returns and raises: each segment of the segmenter gives segments of its
own units. -/
theorem fitSegments_ends (h : SegmentedInto source counts config units cuts) :
    Ends (FitRaises counter profileId inputLimit source units s)
      (fun fitted s' => s.Counting counter profileId (promptTexts source) s' ∧
        ∃ parts : List (List EventSegment), fitted = parts.flatten ∧
          List.Forall₂ (fun cut part => Packs profileId inputLimit s' cut.1 part) cuts parts)
      (fitSegments counter profileId (cuts.map Prod.snd) source counts inputLimit) s := by
  unfold fitSegments
  rw [if_neg (not_not.mpr h.covers)]
  refine .performed h.normalizeAtomicSegments_eq ?_
  refine (Ends.foldlM (fun rest fitted s' =>
      s.Counting counter profileId (promptTexts source) s' ∧
        ∃ read left, read ++ left = cuts ∧ rest = left.map Prod.snd ∧
          ∃ parts : List (List EventSegment), fitted = parts.flatten ∧
            List.Forall₂ (fun cut part => Packs profileId inputLimit s' cut.1 part) read parts)
    ?_ ⟨.refl, [], cuts, rfl, rfl, [], rfl, .nil⟩).weaken (fun _ _ hraised => hraised)
      fun fitted s' hend => ?_
  · rintro segment rest fitted mid ⟨hmid, read, left, hcuts, hrest, parts, hfitted, hparts⟩
    cases left with
    | nil => cases hrest
    | cons cut left =>
        obtain ⟨rfl, rfl⟩ := List.cons_eq_cons.mp hrest
        have hcut : cut ∈ cuts := hcuts ▸ List.mem_append_right _ List.mem_cons_self
        refine (fitSegment_ends h hcut fitted).weaken
          (fun e s' hraised => ⟨hmid.trans hraised.1, hraised.2⟩) fun next s' hnext => ?_
        obtain ⟨hcounting, part, rfl, hpart⟩ := hnext
        refine ⟨hmid.trans hcounting, read ++ [cut], left, by simp [hcuts], rfl, parts ++ [part],
          by simp [hfitted], List.rel_append ?_ (.cons hpart .nil)⟩
        exact hparts.imp fun cut part hpacks => hpacks.later hcounting
  · obtain ⟨hcounting, read, left, hcuts, hleft, parts, hfitted, hparts⟩ := hend
    obtain rfl := List.map_eq_nil_iff.mp hleft.symm
    rw [List.append_nil] at hcuts
    exact ⟨hcounting, parts, hfitted, hcuts ▸ hparts⟩

end Run

end Fitting

/-! ## Counters that only depend on the text -/

section Pure

variable {count : String → Nat}

/-- The counts of some texts in the cache are those of a function. -/
def FitState.Faithful (profileId : String) (count : String → Nat) (texts : Set String)
    (s : FitState σ) : Prop :=
  ∀ text ∈ texts, ∀ value, s.Counted profileId text value → value = count text

omit [Hashlib] in
/-- A counter that returns the counts of a function never fails. -/
theorem not_failsWith (hcount : ∀ text host, (counter.countText text host).1 = .integer (count text))
    (failure : RuntimeFailure) : ¬ FailsWith counter failure := by
  rintro ⟨text, host, hfails⟩
  rw [hcount text host, countUncached, if_pos (Int.natCast_nonneg _)] at hfails
  cases hfails

/-- Counting with such a counter keeps the cache faithful where no two texts have one digest. -/
theorem FitState.Counting.faithful {texts : Set String} {s s' : FitState σ}
    (hcount : ∀ text host, (counter.countText text host).1 = .integer (count text))
    (hhash : Set.InjOn Hashlib.sha256Hexdigest texts)
    (h : s.Counting counter profileId texts s') (hfaithful : s.Faithful profileId count texts) :
    s'.Faithful profileId count texts := by
  induction h with
  | refl => exact hfaithful
  | @tail mid last _ hstep ih =>
      obtain ⟨other, hother, rfl⟩ := hstep
      intro text htext value hvalue
      have hasked := FitState.countPromptText_asked counter profileId mid other
      generalize countPromptText counter profileId other mid = result at hasked hvalue
      cases hasked with
      | cached hcounted => exact ih text htext value hvalue
      | failed hfailure => exact ih text htext value hvalue
      | counted hnew hcounted =>
          by_cases hsame : text = other
          · subst hsame
            obtain rfl := Option.some.inj (List.lookup_cons_self.symm.trans hvalue)
            rw [hcount, countUncached, if_pos (Int.natCast_nonneg _)] at hcounted
            exact (Except.ok.inj hcounted).symm.trans (Int.toNat_natCast _)
          · have hne : (Hashlib.sha256Hexdigest text, profileId) ≠
                (Hashlib.sha256Hexdigest other, profileId) := fun hkey =>
              hsame (hhash htext hother (Prod.ext_iff.mp hkey).1)
            refine ih text htext value ?_
            show List.lookup _ mid.texts = some value
            rw [← hvalue]
            show _ = List.lookup _ (_ :: mid.texts)
            rw [List.lookup_cons, beq_false_of_ne hne]

variable [UnicodeTables] [JsonReader] {counts : EventTokenCounts} {inputLimit : Int}
  {source : List EventEnvelope} {units : List (List EventEnvelope)} {config : SegmenterConfig}
  {cuts : List (List (List EventEnvelope) × EventSegment)} {s : FitState σ}

/-- With a count that grows with the events, a unit that exceeds the limit alone is refused. -/
theorem fitSegments_refused (h : SegmentedInto source counts config units cuts)
    (hcount : ∀ text host, (counter.countText text host).1 = .integer (count text))
    (hhash : Set.InjOn Hashlib.sha256Hexdigest (promptTexts source))
    (hmonotone : ∀ part whole, part <:+: whole → whole <:+: source →
      count (eventsPrompt part) ≤ count (eventsPrompt whole))
    (hfaithful : s.Faithful profileId count (promptTexts source))
    {unit : List EventEnvelope} (hunit : unit ∈ units)
    (hexceeds : inputLimit < (count systemPrompt + count (eventsPrompt unit) : Nat)) :
    ∃ s', fitSegments counter profileId (cuts.map Prod.snd) source counts inputLimit s =
      .error (.deferred "COMPACTION_INPUT_TOO_LARGE") s' := by
  cases hrun : fitSegments counter profileId (cuts.map Prod.snd) source counts inputLimit s with
  | error e s' =>
      obtain ⟨-, ⟨rfl, -⟩ | ⟨failure, -, hfails⟩⟩ := (fitSegments_ends h).error hrun
      · exact ⟨s', rfl⟩
      · exact absurd hfails (not_failsWith hcount failure)
  | ok fitted s' =>
      obtain ⟨hcounting, parts, -, hparts⟩ := (fitSegments_ends h).ok hrun
      have hlast := hcounting.faithful hcount hhash hfaithful
      -- The unit is packed into a segment that fits, and the count of its prompt is no larger.
      rw [← h.read] at hunit
      obtain ⟨cut, hcut, hunit⟩ := List.mem_flatMap.mp hunit
      obtain ⟨part, -, groups, hgroups, hpacked⟩ := exists_of_forall₂ hparts.flip hcut
      rw [← hgroups] at hunit
      obtain ⟨group, hgroup, hunit⟩ := List.mem_flatten.mp hunit
      obtain ⟨segment, -, -, hevents, cost, ⟨system, prompt, hsystem, hprompt, rfl⟩, hfits⟩ :=
        exists_of_forall₂ hpacked.flip hgroup
      have hwhole : segment.events <:+: source := by
        have hpart : group <:+: units :=
          (List.infix_of_mem_flatten hgroup).trans (hgroups ▸ h.infix_units hcut)
        rw [hevents, ← durableEventUnits_flatten h.groups]
        exact infix_flatten hpart
      have hsystemCount := hlast systemPrompt (.inl rfl) system hsystem
      have hpromptCount := hlast (eventsPrompt segment.events) (.inr ⟨_, hwhole, rfl⟩) prompt hprompt
      have hmore := hmonotone unit segment.events (hevents ▸ List.infix_of_mem_flatten hunit) hwhole
      omega

end Pure

end AstrContinuum
