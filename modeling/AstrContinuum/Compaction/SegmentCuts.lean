import Mathlib.Algebra.Order.BigOperators.Group.List
import Mathlib.Data.List.Chain
import AstrContinuum.Compaction.Segmenter
import AstrContinuum.Runtime.ToolGrammar

/-!
# What the segmenter cuts

`SegmentScan.run_cut`: the loop of `segment` groups the durable units into segments. A segment stays
within the limits unless it is one unit that exceeds them alone, and one that was closed for a limit
cannot take the next unit without reaching it. The invariant of the loop is `SegmentScan.Cut`, the
segments that are closed with their units and the units of the open one; an iteration first makes room
for a unit and adds it, then it closes the segment or leaves it within the limits.
-/

namespace AstrContinuum

/-- The limits admit these events in one segment. -/
def SegmenterConfig.Admits (config : SegmenterConfig) (counts : EventTokenCounts)
    (events : List EventEnvelope) : Prop :=
  events.length ≤ config.maxEventsPerSegment ∧
    SegmentScan.unitTokenCount counts events ≤ config.maxTokensPerSegment

/-- A segment that is made of some durable units. -/
structure EventSegment.MadeOf (config : SegmenterConfig) (counts : EventTokenCounts)
    (units : List (List EventEnvelope)) (segment : EventSegment) : Prop where
  nonempty : units ≠ []
  events : segment.events = units.flatten
  startSequence : segment.events.head?.map (fun event => event.sequence) =
    some segment.startSequence
  endSequence : segment.events.getLast?.map (fun event => event.sequence) =
    some segment.endSequence
  tokenCost : segment.tokenCost = SegmentScan.unitTokenCount counts segment.events
  bounded : config.Admits counts segment.events ∨
    ∃ unit, units = [unit] ∧ ¬ config.Admits counts unit

/-- A segment that was closed for a limit cannot take one more unit without reaching the limit. -/
structure EventSegment.Separated (config : SegmenterConfig) (counts : EventTokenCounts)
    (segment : EventSegment) (unit : List EventEnvelope) : Prop where
  maxEvents : segment.boundaryReason = .maxEvents →
    config.maxEventsPerSegment < segment.events.length + unit.length
  maxTokens : segment.boundaryReason = .maxTokens →
    config.maxTokensPerSegment ≤ segment.tokenCost + SegmentScan.unitTokenCount counts unit

/-- The segment is separated from a unit whose count is not negative. -/
def EventSegment.Guards (config : SegmenterConfig) (counts : EventTokenCounts)
    (segment : EventSegment) (unit : List EventEnvelope) : Prop :=
  0 ≤ SegmentScan.unitTokenCount counts unit → segment.Separated config counts unit

/-- A segment that was closed for its events. -/
theorem EventSegment.separated_of_events {config : SegmenterConfig} {counts : EventTokenCounts}
    {segment : EventSegment} {unit : List EventEnvelope}
    (hreason : segment.boundaryReason = .maxEvents)
    (h : config.maxEventsPerSegment < segment.events.length + unit.length) :
    segment.Separated config counts unit :=
  ⟨fun _ => h, fun htokens => by simp [hreason] at htokens⟩

/-- A segment that was closed for its tokens. -/
theorem EventSegment.separated_of_tokens {config : SegmenterConfig} {counts : EventTokenCounts}
    {segment : EventSegment} {unit : List EventEnvelope}
    (hreason : segment.boundaryReason = .maxTokens)
    (h : config.maxTokensPerSegment ≤
      segment.tokenCost + SegmentScan.unitTokenCount counts unit) :
    segment.Separated config counts unit :=
  ⟨fun hevents => by simp [hreason] at hevents, fun _ => h⟩

/-- Counts that are not negative are found not negative. -/
theorem EventTokenCounts.count_nonneg {counts : EventTokenCounts} (h : ∀ entry ∈ counts, 0 ≤ entry.2)
    (eventId : String) : 0 ≤ counts.count eventId := by
  unfold count
  cases hfound : counts.find? fun entry => entry.1 = eventId with
  | none => exact le_refl _
  | some entry => exact h entry (List.mem_of_find?_eq_some hfound)

namespace SegmentScan

variable {config : SegmenterConfig} {counts : EventTokenCounts} {preferred : List Nat}

/-- The tokens of the events of two parts. -/
@[simp] theorem unitTokenCount_append (xs ys : List EventEnvelope) :
    unitTokenCount counts (xs ++ ys) = unitTokenCount counts xs + unitTokenCount counts ys := by
  simp [unitTokenCount]

/-- Events whose counts are not negative have no negative count together. -/
theorem unitTokenCount_nonneg {events : List EventEnvelope}
    (h : ∀ event ∈ events, 0 ≤ counts.count event.eventId) : 0 ≤ unitTokenCount counts events := by
  refine List.sum_nonneg fun count hcount => ?_
  obtain ⟨event, hevent, rfl⟩ := List.mem_map.mp hcount
  exact h event hevent

/-- The closed segments with their units, and the units of the open segment. -/
structure Cut (config : SegmenterConfig) (counts : EventTokenCounts) (scan : SegmentScan)
    (cuts : List (List (List EventEnvelope) × EventSegment)) (pending : List (List EventEnvelope)) :
    Prop where
  segments : scan.segments = cuts.map Prod.snd
  made : ∀ cut ∈ cuts, cut.2.MadeOf config counts cut.1
  chain : cuts.IsChain fun left right =>
    ∀ unit ∈ right.1.head?, left.2.Guards config counts unit
  nonempty : ∀ unit ∈ pending, unit ≠ []
  current : scan.current = pending.flatten
  cost : scan.currentTokenCost = unitTokenCount counts scan.current
  linked : ∀ cut ∈ cuts.getLast?, ∀ unit ∈ pending.head?, cut.2.Guards config counts unit

/-- Between two iterations the open segment is within the limits, and a segment that was just closed
is separated from whatever unit comes next. -/
structure Rests (config : SegmenterConfig) (counts : EventTokenCounts) (scan : SegmentScan)
    (cuts : List (List (List EventEnvelope) × EventSegment)) (pending : List (List EventEnvelope)) :
    Prop extends Cut config counts scan cuts pending where
  within : config.Admits counts scan.current
  closed : pending = [] → ∀ cut ∈ cuts.getLast?, ∀ unit, unit ≠ [] →
    cut.2.Guards config counts unit

variable {scan : SegmentScan} {cuts : List (List (List EventEnvelope) × EventSegment)}
  {pending : List (List EventEnvelope)} {unit : List EventEnvelope}

/-- The open segment has no events exactly when it has no units. -/
theorem Cut.current_eq_nil (h : scan.Cut config counts cuts pending) :
    scan.current = [] ↔ pending = [] := by
  rw [h.current]
  constructor
  · intro hflatten
    refine List.eq_nil_iff_forall_not_mem.mpr fun unit hunit => ?_
    exact h.nonempty unit hunit (List.flatten_eq_nil_iff.mp hflatten unit hunit)
  · rintro rfl
    rfl

/-- The loop starts with nothing cut. -/
theorem rests_start : Rests config counts {} [] [] := by
  refine ⟨⟨rfl, by simp, .nil, by simp, rfl, rfl, by simp⟩, ⟨?_, ?_⟩, by simp⟩
  · exact Nat.zero_le _
  · exact config.valid.2.le

/-- Closing the open segment. -/
theorem Cut.close (h : scan.Cut config counts cuts pending) (hpending : pending ≠ [])
    (hbounded : config.Admits counts scan.current ∨
      ∃ unit, pending = [unit] ∧ ¬ config.Admits counts unit)
    (reason : SegmentBoundaryReason) :
    ∃ segment : EventSegment, segment.events = scan.current ∧
      segment.tokenCost = scan.currentTokenCost ∧ segment.boundaryReason = reason ∧
      (scan.closeCurrent reason).Cut config counts (cuts ++ [(pending, segment)]) [] := by
  have hcurrent : scan.current ≠ [] := fun hnil => hpending (h.current_eq_nil.mp hnil)
  obtain ⟨segment, hsegments, hstart, hend, hevents, hcost, hreason⟩ : ∃ segment : EventSegment,
      (scan.closeCurrent reason).segments = scan.segments ++ [segment] ∧
      segment.startSequence = (scan.current.head?.map fun event => event.sequence).getD 0 ∧
      segment.endSequence = (scan.current.getLast?.map fun event => event.sequence).getD 0 ∧
      segment.events = scan.current ∧ segment.tokenCost = scan.currentTokenCost ∧
      segment.boundaryReason = reason := ⟨_, rfl, rfl, rfl, rfl, rfl, rfl⟩
  refine ⟨segment, hevents, hcost, hreason, ?_⟩
  constructor
  · rw [hsegments, h.segments, List.map_append]
    rfl
  · intro cut hcut
    rcases List.mem_append.mp hcut with hcut | hcut
    · exact h.made cut hcut
    · obtain rfl := List.mem_singleton.mp hcut
      refine ⟨hpending, hevents.trans h.current, ?_, ?_, ?_, hevents ▸ hbounded⟩
      · rw [hstart, hevents, List.head?_eq_some_head hcurrent]
        rfl
      · rw [hend, hevents, List.getLast?_eq_some_getLast hcurrent]
        rfl
      · rw [hcost, hevents]
        exact h.cost
  · refine List.isChain_append.mpr ⟨h.chain, .singleton _, fun last hlast next hnext => ?_⟩
    obtain rfl := Option.some.inj hnext
    exact h.linked last hlast
  · simp
  · rfl
  · rfl
  · simp

/-- The unit joins the open segment. -/
theorem Rests.join (h : scan.Rests config counts cuts pending) (hunit : unit ≠ []) :
    (scan.extend unit (unitTokenCount counts unit)).Cut config counts cuts (pending ++ [unit]) where
  segments := h.segments
  made := h.made
  chain := h.chain
  nonempty other hother := by
    rcases List.mem_append.mp hother with hother | hother
    · exact h.nonempty other hother
    · obtain rfl := List.mem_singleton.mp hother
      exact hunit
  current := by simp [extend, h.current]
  cost := by simp [extend, h.cost]
  linked last hlast next hnext := by
    cases pending with
    | nil =>
        obtain rfl := Option.some.inj hnext
        exact h.closed rfl last hlast unit hunit
    | cons first rest => exact h.linked last hlast next hnext

/-- A full segment is closed, and the unit opens the next one. -/
theorem Rests.reopen (h : scan.Rests config counts cuts pending) (hunit : unit ≠ [])
    (hopen : scan.current ≠ []) (reason : SegmentBoundaryReason)
    (hreason : ∀ segment : EventSegment, segment.events = scan.current →
      segment.tokenCost = scan.currentTokenCost → segment.boundaryReason = reason →
      segment.Separated config counts unit) :
    ∃ cuts', ((scan.closeCurrent reason).extend unit (unitTokenCount counts unit)).Cut config counts
        cuts' [unit] ∧
      cuts'.flatMap Prod.fst = cuts.flatMap Prod.fst ++ pending := by
  obtain ⟨segment, hevents, hcost, hboundary, hcut⟩ := h.toCut.close
    (fun hnil => hopen (h.current_eq_nil.mpr hnil)) (.inl h.within) reason
  refine ⟨_, ⟨hcut.segments, hcut.made, hcut.chain, by simpa using hunit,
    by simp [extend, closeCurrent], by simp [extend, closeCurrent], ?_⟩, by simp⟩
  intro last hlast next hnext
  obtain rfl : (pending, segment) = last := by simpa using hlast
  obtain rfl : unit = next := by simpa using hnext
  exact fun _ => hreason segment hevents hcost hboundary

/-- The first half of an iteration: the unit joins the open segment, or it opens one after the
segment that it does not fit in. -/
theorem Rests.advance (h : scan.Rests config counts cuts pending) (hunit : unit ≠ []) :
    ∃ cuts' pending', ((scan.makeRoom config unit (unitTokenCount counts unit)).extend unit
        (unitTokenCount counts unit)).Cut config counts cuts' (pending' ++ [unit]) ∧
      cuts'.flatMap Prod.fst ++ pending' = cuts.flatMap Prod.fst ++ pending ∧
      (config.Admits counts ((scan.makeRoom config unit (unitTokenCount counts unit)).extend unit
          (unitTokenCount counts unit)).current ∨
        pending' = [] ∧ ¬ config.Admits counts unit) := by
  have hsingle {start : SegmentScan} (hstart : start.current = []) :
      config.Admits counts (start.extend unit (unitTokenCount counts unit)).current ∨
        ¬ config.Admits counts unit := by
    simp only [extend, hstart, List.nil_append]
    exact Classical.em _
  unfold makeRoom
  split
  · next hfull =>
      obtain ⟨cuts', hcut, hread⟩ := h.reopen hunit hfull.1 .maxEvents
        fun segment hevents _ hboundary =>
          EventSegment.separated_of_events hboundary (hevents ▸ hfull.2)
      exact ⟨cuts', [], hcut, by rw [hread, List.append_nil], (hsingle rfl).imp_right (⟨rfl, ·⟩)⟩
  · next hevents =>
      split
      · next hfull =>
          obtain ⟨cuts', hcut, hread⟩ := h.reopen hunit hfull.1 .maxTokens
            fun segment _ hcost hboundary =>
              EventSegment.separated_of_tokens hboundary (hcost ▸ hfull.2.le)
          exact ⟨cuts', [], hcut, by rw [hread, List.append_nil],
            (hsingle rfl).imp_right (⟨rfl, ·⟩)⟩
      · next htokens =>
          refine ⟨cuts, pending, h.join hunit, rfl, ?_⟩
          by_cases hopen : scan.current = []
          · exact (hsingle hopen).imp_right (⟨h.current_eq_nil.mp hopen, ·⟩)
          · left
            have hlength := not_lt.mp fun hmore => hevents ⟨hopen, hmore⟩
            have hcost := not_lt.mp fun hmore => htokens ⟨hopen, hmore⟩
            rw [h.cost] at hcost
            exact ⟨by simpa [extend] using hlength, by simpa [extend] using hcost⟩

/-- The second half of an iteration: the open segment is closed, or it stays within the limits. The
last unit always closes it. -/
theorem Cut.settle (h : scan.Cut config counts cuts (pending ++ [unit]))
    (hbounded : config.Admits counts scan.current ∨ pending = [] ∧ ¬ config.Admits counts unit)
    (isLast : Bool) :
    ∃ cuts' pending', (scan.closeFull config preferred unit (unitTokenCount counts unit)
        isLast).Rests config counts cuts' pending' ∧
      cuts'.flatMap Prod.fst ++ pending' = cuts.flatMap Prod.fst ++ (pending ++ [unit]) ∧
      (isLast = true → pending' = []) := by
  have hempty : config.Admits counts [] := ⟨Nat.zero_le _, config.valid.2.le⟩
  -- Whatever the reason, the closed segment is separated from any unit.
  have hclose (reason : SegmentBoundaryReason)
      (hevents : reason = .maxEvents → config.maxEventsPerSegment ≤ scan.current.length)
      (htokens : reason = .maxTokens → config.maxTokensPerSegment ≤ scan.currentTokenCost) :
      ∃ cuts' pending', (scan.closeCurrent reason).Rests config counts cuts' pending' ∧
        cuts'.flatMap Prod.fst ++ pending' = cuts.flatMap Prod.fst ++ (pending ++ [unit]) ∧
        (isLast = true → pending' = []) := by
    obtain ⟨segment, hsame, hcost, hboundary, hcut⟩ := h.close (by simp)
      (hbounded.imp_right fun hlarge => ⟨unit, by simp [hlarge.1], hlarge.2⟩) reason
    refine ⟨_, [], ⟨hcut, hempty, fun _ last hlast next hnext hnonneg => ?_⟩, by simp, fun _ => rfl⟩
    obtain rfl : (pending ++ [unit], segment) = last := by simpa using hlast
    constructor
    · intro hreason
      have hfull := hevents (hboundary.symm.trans hreason)
      have hsome := List.length_pos_iff.mpr hnext
      rw [hsame]
      omega
    · intro hreason
      have hfull := htokens (hboundary.symm.trans hreason)
      rw [hcost]
      omega
  unfold closeFull
  split_ifs with hlarge hlast hevents htokens hpreferred
  · exact hclose .oversizedEvent (by simp) (by simp)
  · exact hclose .endOfInput (by simp) (by simp)
  · exact hclose .maxEvents (fun _ => hevents) (by simp)
  · exact hclose .maxTokens (by simp) fun _ => htokens
  · exact hclose .preferred (by simp) (by simp)
  · have hunit : config.Admits counts unit :=
      ⟨not_lt.mp fun hmore => hlarge (.inl hmore), not_lt.mp fun hmore => hlarge (.inr hmore)⟩
    refine ⟨cuts, pending ++ [unit], ⟨h, hbounded.resolve_right fun hsome => hsome.2 hunit,
      by simp⟩, rfl, fun hyes => absurd hyes hlast⟩

/-- The loop cuts all units, each segment as it should be. -/
theorem Rests.run (h : scan.Rests config counts cuts pending) {units : List (List EventEnvelope)}
    (hunits : ∀ unit ∈ units, unit ≠ []) (hclosed : units = [] → pending = []) :
    ∃ cuts', (SegmentScan.run config counts preferred scan units).Cut config counts cuts' [] ∧
      cuts'.flatMap Prod.fst = cuts.flatMap Prod.fst ++ pending ++ units := by
  induction units generalizing scan cuts pending with
  | nil =>
      obtain rfl := hclosed rfl
      exact ⟨cuts, h.toCut, by simp⟩
  | cons unit rest ih =>
      obtain ⟨hunit, hrest⟩ := List.forall_mem_cons.mp hunits
      obtain ⟨midCuts, midPending, hcut, hmid, hbounded⟩ := h.advance hunit
      obtain ⟨nextCuts, nextPending, hnext, hread, hlast⟩ := hcut.settle hbounded rest.isEmpty
      obtain ⟨cuts', hcuts', hall⟩ := ih hnext hrest fun hnil => hlast (by rw [hnil]; rfl)
      refine ⟨cuts', hcuts', ?_⟩
      rw [hall, hread, ← List.append_assoc, hmid]
      simp

end SegmentScan

/-! ## Stable events -/

/-- The units of a list of events as some segments hold them: each segment is made of whole units, and
no cut for a limit is redundant. -/
def Segmentation (config : SegmenterConfig) (counts : EventTokenCounts)
    (units : List (List EventEnvelope)) (segments : List EventSegment) : Prop :=
  ∃ cuts : List (List (List EventEnvelope) × EventSegment),
    cuts.flatMap Prod.fst = units ∧ cuts.map Prod.snd = segments ∧
      (∀ cut ∈ cuts, cut.2.MadeOf config counts cut.1) ∧
      cuts.IsChain fun left right => ∀ unit ∈ right.1.head?, left.2.Separated config counts unit

variable [UnicodeTables] [JsonReader]

/-- A stable delta has units. -/
theorem exists_units_of_stable {events : List EventEnvelope}
    (h : (evaluateToolLoop events).state = .stable) :
    ∃ units, durableEventUnits events = some units := by
  unfold evaluateToolLoop at h
  unfold durableEventUnits
  cases hrun : ToolLoopScan.run {} events with
  | none => simp [hrun] at h
  | some scan =>
      simp only [hrun] at h
      exact ⟨scan.units, if_pos h⟩

omit [UnicodeTables] [JsonReader] in
/-- Contiguous events pass the checks of the segmenter. -/
theorem validateSegmentEvents_contiguous {events : List EventEnvelope} (h : Contiguous events)
    (hne : events ≠ []) : validateSegmentEvents events = .ok () := by
  obtain ⟨hsession, start, hsequences⟩ := h
  cases events with
  | nil => exact absurd rfl hne
  | cons first rest =>
      have hfirst : first.sequence = start := by
        simpa [List.range'_succ] using congrArg List.head? hsequences
      have hall : ∀ entry ∈ (first :: rest).zipIdx, entry.1.sessionKey = first.sessionKey ∧
          entry.1.sequence = first.sequence + entry.2 := by
        intro entry hentry
        obtain ⟨event, index⟩ := entry
        obtain hindex := List.mem_zipIdx_iff_getElem?.mp hentry
        refine ⟨hsession first (by simp) event (List.mem_of_getElem? hindex), ?_⟩
        have hat : ((first :: rest).map fun event => event.sequence)[index]? =
            some event.sequence := by
          rw [List.getElem?_map, hindex]
          rfl
        rw [hsequences] at hat
        obtain ⟨hlt, hvalue⟩ := List.getElem?_eq_some_iff.mp hat
        rw [List.getElem_range'] at hvalue
        show event.sequence = first.sequence + index
        omega
      unfold validateSegmentEvents
      generalize (first :: rest).zipIdx = entries at hall
      induction entries with
      | nil => rfl
      | cons entry others ih =>
          obtain ⟨hkey, hat⟩ := hall entry List.mem_cons_self
          refine Checked.bind_ok.mpr ⟨(), ?_, ih fun other hother => hall other (by simp [hother])⟩
          exact Checked.bind_ok.mpr ⟨(), Checked.require_ok.mpr hkey, Checked.require_ok.mpr hat⟩

/-- A production has events. -/
theorem Production.ne_nil {unit : List EventEnvelope} (h : Production unit) : unit ≠ [] := by
  cases h <;> simp

/-- A stable delta whose events are counted is cut into segments of whole units. A cut is guarded
against the units whose counts are not negative. -/
theorem segment_cuts {events : List EventEnvelope} (hne : events ≠ [])
    (hstable : (evaluateToolLoop events).state = .stable) {tokenCounts : EventTokenCounts}
    (hcovers : tokenCounts.Covers events) (config : SegmenterConfig) (preferred : List Nat) :
    ∃ (units : List (List EventEnvelope))
        (cuts : List (List (List EventEnvelope) × EventSegment)),
      durableEventUnits events = some units ∧
      segment events tokenCounts config preferred = .ok (cuts.map Prod.snd) ∧
      cuts.flatMap Prod.fst = units ∧ (∀ cut ∈ cuts, cut.2.MadeOf config tokenCounts cut.1) ∧
      cuts.IsChain fun left right =>
        ∀ unit ∈ right.1.head?, left.2.Guards config tokenCounts unit := by
  obtain ⟨units, hunits⟩ := exists_units_of_stable hstable
  obtain ⟨hcontiguous, hdecomposes⟩ := durableEventUnits_eq_some_iff.mp hunits
  obtain ⟨cuts, hcut, hread⟩ : ∃ cuts, (SegmentScan.run config tokenCounts
        (normalizePreferredBoundaries events preferred config.maxPreferredBoundaries) {} units).Cut
        config tokenCounts cuts [] ∧
      cuts.flatMap Prod.fst = List.flatMap Prod.fst [] ++ [] ++ units :=
    SegmentScan.rests_start.run
      (fun unit hunit => Production.ne_nil (hdecomposes.productions unit hunit)) fun _ => rfl
  refine ⟨units, cuts, hunits, ?_, by simpa using hread, hcut.made, hcut.chain⟩
  unfold segment
  rw [validateSegmentEvents_contiguous hcontiguous hne]
  simp [hcovers, hunits, bind, Except.bind, hcut.segments]

/-- A stable delta whose events have counts that are not negative is cut into segments of whole
units without a redundant cut. -/
theorem segment_segmentation {events : List EventEnvelope} (hne : events ≠ [])
    (hstable : (evaluateToolLoop events).state = .stable) {tokenCounts : EventTokenCounts}
    (hcovers : tokenCounts.Covers events)
    (hnonneg : ∀ event ∈ events, 0 ≤ tokenCounts.count event.eventId) (config : SegmenterConfig)
    (preferred : List Nat) :
    ∃ units segments, durableEventUnits events = some units ∧
      segment events tokenCounts config preferred = .ok segments ∧
      Segmentation config tokenCounts units segments := by
  obtain ⟨units, cuts, hunits, hsegment, hread, hmade, hchain⟩ :=
    segment_cuts hne hstable hcovers config preferred
  refine ⟨units, _, hunits, hsegment, cuts, hread, rfl, hmade, ?_⟩
  refine List.IsChain.imp_of_mem_imp
    (fun left right _ hright hguards unit hunit => hguards unit hunit ?_) hchain
  refine SegmentScan.unitTokenCount_nonneg fun event hevent => hnonneg event ?_
  have hmem : unit ∈ units := hread ▸ List.mem_flatMap_of_mem hright (List.mem_of_mem_head? hunit)
  rw [← durableEventUnits_flatten hunits]
  exact List.mem_flatten_of_mem hmem hevent

/-- The segmenter takes every stable delta whose events are counted. -/
theorem segment_of_stable {events : List EventEnvelope} (hcontiguous : Contiguous events)
    (hne : events ≠ []) (h : (evaluateToolLoop events).state = .stable)
    (tokenCounts : EventTokenCounts) (config : SegmenterConfig) (preferred : List Nat) :
    (∃ segments, segment events tokenCounts config preferred = .ok segments) ∨
      segment events tokenCounts config preferred = .error "TOKEN_METRIC_MISSING" := by
  by_cases hcovers : tokenCounts.Covers events
  · obtain ⟨units, cuts, hunits, hsegment, -⟩ := segment_cuts hne h hcovers config preferred
    exact .inl ⟨_, hsegment⟩
  · unfold segment
    rw [validateSegmentEvents_contiguous hcontiguous hne]
    exact .inr (by simp [hcovers, bind, Except.bind])

end AstrContinuum
