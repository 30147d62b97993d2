import AstrContinuum.Compaction.Fitting
import AstrContinuum.Compaction.SegmentCuts
import AstrContinuum.Runtime.ToolCuts

/-!
# Boundaries and groups of the preflight

`normalizeAtomicSegments_segments`: the segments of the segmenter, replayed against the units of the whole
delta, are these segments again. The sequences of a contiguous delta ascend, so a boundary is crossed at
the last unit of its segment and no earlier. `eventGroups_cut`: the units of a segment that is parsed on
its own are the units that the segmenter put in it.
-/

namespace AstrContinuum

open Checked

/-! ## Ends of units -/

/-- The sequence of the last event, as `_normalize_atomic_segments` reads it. -/
def lastSequence (events : List EventEnvelope) : Nat :=
  (events.getLast?.map fun event => event.sequence).getD 0

/-- Units in a row end at ascending sequences. -/
def Ascending (units : List (List EventEnvelope)) : Prop :=
  units.Pairwise fun earlier later => lastSequence earlier < lastSequence later

/-- The last sequence of events is the sequence of one of them. -/
theorem exists_lastSequence {events : List EventEnvelope} (h : events ≠ []) :
    ∃ event ∈ events, event.sequence = lastSequence events := by
  refine ⟨events.getLast h, List.getLast_mem h, ?_⟩
  simp [lastSequence, List.getLast?_eq_some_getLast h]

/-- The sequences of a contiguous delta ascend. -/
theorem Contiguous.pairwise {events : List EventEnvelope} (h : Contiguous events) :
    events.Pairwise fun earlier later => earlier.sequence < later.sequence := by
  obtain ⟨-, start, hsequences⟩ := h
  have hascending : (events.map fun event => event.sequence).Pairwise (· < ·) := by
    rw [hsequences]
    exact List.pairwise_lt_range'
  exact List.pairwise_map.mp hascending

/-- The units of a contiguous delta end at ascending sequences. -/
theorem Contiguous.ascending {units : List (List EventEnvelope)} (h : Contiguous units.flatten)
    (hunits : ∀ unit ∈ units, unit ≠ []) : Ascending units := by
  have hpairs := (List.pairwise_flatten.mp h.pairwise).2
  refine hpairs.imp_of_mem fun {earlier later} hearlier hlater hless => ?_
  obtain ⟨first, hfirst, hfirstLast⟩ := exists_lastSequence (hunits earlier hearlier)
  obtain ⟨second, hsecond, hsecondLast⟩ := exists_lastSequence (hunits later hlater)
  rw [← hfirstLast, ← hsecondLast]
  exact hless first hfirst second hsecond

/-! ## Replayed boundaries -/

section Replay

variable {counts : EventTokenCounts}

/-- A boundary that lies ahead is not crossed. -/
theorem crossBoundaries_ahead {sequence : Nat} {reason : Option SegmentBoundaryReason}
    {boundaries : List (Nat × SegmentBoundaryReason)}
    (h : ∀ boundary ∈ boundaries.head?, sequence < boundary.1) :
    crossBoundaries sequence reason boundaries = (reason, boundaries) := by
  cases boundaries with
  | nil => rfl
  | cons boundary rest =>
      have hahead := h boundary rfl
      rw [crossBoundaries, if_neg (by omega)]

/-- The boundary at the sequence is crossed, and the next one is not. -/
theorem crossBoundaries_here {boundary : Nat × SegmentBoundaryReason}
    {boundaries : List (Nat × SegmentBoundaryReason)}
    (h : ∀ next ∈ boundaries.head?, boundary.1 < next.1) :
    crossBoundaries boundary.1 none (boundary :: boundaries) = (some boundary.2, boundaries) := by
  rw [crossBoundaries, if_pos (le_refl _)]
  exact crossBoundaries_ahead h

variable {group current : List EventEnvelope} {rest : List (List EventEnvelope)}
  {boundaries boundaries' : List (Nat × SegmentBoundaryReason)} {reason : SegmentBoundaryReason}

/-- A group that crosses a boundary ends a segment. -/
theorem replayBoundaries_crossed
    (h : crossBoundaries (lastSequence group) none boundaries = (some reason, boundaries')) :
    replayBoundaries counts (group :: rest) current boundaries =
      fittedSegment (current ++ group) counts reason ::
        replayBoundaries counts rest [] boundaries' := by
  rw [replayBoundaries]
  unfold lastSequence at h
  simp only [h]

/-- A group that crosses no boundary stays open. -/
theorem replayBoundaries_open
    (h : crossBoundaries (lastSequence group) none boundaries = (none, boundaries')) :
    replayBoundaries counts (group :: rest) current boundaries =
      replayBoundaries counts rest (current ++ group) boundaries' := by
  rw [replayBoundaries]
  unfold lastSequence at h
  simp only [h]

/-- The units up to a boundary make one segment. -/
theorem replayBoundaries_segment {units : List (List EventEnvelope)} {last : List EventEnvelope}
    (hunits : ∀ unit ∈ units, lastSequence unit < lastSequence last)
    (hnext : ∀ next ∈ boundaries.head?, lastSequence last < next.1) :
    replayBoundaries counts (units ++ last :: rest) current
        ((lastSequence last, reason) :: boundaries) =
      fittedSegment (current ++ units.flatten ++ last) counts reason ::
        replayBoundaries counts rest [] boundaries := by
  induction units generalizing current with
  | nil =>
      rw [List.nil_append, List.flatten_nil, List.append_nil]
      exact replayBoundaries_crossed (crossBoundaries_here hnext)
  | cons unit others ih =>
      have hahead : crossBoundaries (lastSequence unit) none
          ((lastSequence last, reason) :: boundaries) =
          (none, (lastSequence last, reason) :: boundaries) :=
        crossBoundaries_ahead fun next hnext => by
          obtain rfl := Option.some.inj hnext
          exact hunits unit List.mem_cons_self
      rw [List.cons_append, replayBoundaries_open hahead,
        ih fun other hother => hunits other (List.mem_cons_of_mem _ hother)]
      simp

/-- The segments of the segmenter are the fitted segments of their units. -/
theorem EventSegment.MadeOf.eq_fittedSegment {config : SegmenterConfig}
    {units : List (List EventEnvelope)} {segment : EventSegment}
    (h : segment.MadeOf config counts units) :
    segment = fittedSegment units.flatten counts segment.boundaryReason := by
  obtain ⟨start, stop, events, cost, reason⟩ := segment
  obtain rfl : events = units.flatten := h.events
  have hstart := h.startSequence
  have hstop := h.endSequence
  obtain rfl : cost = SegmentScan.unitTokenCount counts units.flatten := h.tokenCost
  dsimp only at hstart hstop
  simp [fittedSegment, hstart, hstop, SegmentScan.unitTokenCount]

/-- A segment has a last unit. -/
theorem EventSegment.MadeOf.last {config : SegmenterConfig} {units : List (List EventEnvelope)}
    {segment : EventSegment} (h : segment.MadeOf config counts units) :
    ∃ before last, units = before ++ [last] :=
  (List.eq_nil_or_concat' units).resolve_left h.nonempty

/-- A segment ends where the last of its units does. -/
theorem EventSegment.MadeOf.endSequence_eq {config : SegmenterConfig}
    {units before : List (List EventEnvelope)} {last : List EventEnvelope} {segment : EventSegment}
    (h : segment.MadeOf config counts units) (hunits : units = before ++ [last])
    (hlast : last ≠ []) : segment.endSequence = lastSequence last := by
  have hend := h.endSequence
  rw [h.events, hunits, List.flatten_append, List.flatten_singleton,
    List.getLast?_append_of_ne_nil _ hlast] at hend
  simp [lastSequence, hend]

/-- Replaying the boundaries of the segments gives the segments. -/
theorem replayBoundaries_cuts {config : SegmenterConfig}
    {cuts : List (List (List EventEnvelope) × EventSegment)}
    (hmade : ∀ cut ∈ cuts, cut.2.MadeOf config counts cut.1)
    (hunits : ∀ unit ∈ cuts.flatMap Prod.fst, unit ≠ [])
    (hascending : Ascending (cuts.flatMap Prod.fst)) :
    replayBoundaries counts (cuts.flatMap Prod.fst) []
        ((cuts.map Prod.snd).map fun segment => (segment.endSequence, segment.boundaryReason)) =
      cuts.map Prod.snd := by
  induction cuts with
  | nil => rfl
  | cons cut rest ih =>
      obtain ⟨hcut, hrest⟩ := List.forall_mem_cons.mp hmade
      obtain ⟨before, last, hends⟩ := hcut.last
      rw [List.flatMap_cons, hends] at hascending hunits
      obtain ⟨hhere, hlater, hacross⟩ := List.pairwise_append.mp hascending
      have hlast : last ≠ [] := hunits last (by simp)
      have hsegment : (cut.2.endSequence, cut.2.boundaryReason) =
          (lastSequence last, cut.2.boundaryReason) := by
        rw [hcut.endSequence_eq hends hlast]
      have hbefore : ∀ unit ∈ before, lastSequence unit < lastSequence last :=
        fun unit hunit => (List.pairwise_append.mp hhere).2.2 unit hunit last List.mem_cons_self
      have hahead : ∀ next ∈ ((rest.map Prod.snd).map fun segment =>
          (segment.endSequence, segment.boundaryReason)).head?, lastSequence last < next.1 := by
        intro next hnext
        cases rest with
        | nil => cases hnext
        | cons following others =>
            obtain rfl := Option.some.inj hnext
            have hmade' := hrest following List.mem_cons_self
            obtain ⟨before', last', hends'⟩ := hmade'.last
            have hmem : last' ∈ (following :: others).flatMap Prod.fst := by
              simp [hends']
            show lastSequence last < following.2.endSequence
            rw [hmade'.endSequence_eq hends' (hunits last' (List.mem_append_right _ hmem))]
            exact hacross last (by simp) last' hmem
      have hrecursive := ih hrest (fun unit hunit => hunits unit (List.mem_append_right _ hunit))
        hlater
      rw [List.flatMap_cons, hends, List.map_cons, List.map_cons, hsegment, List.append_assoc,
        List.singleton_append, replayBoundaries_segment hbefore hahead, hrecursive]
      have hflatten : [] ++ before.flatten ++ last = cut.1.flatten := by simp [hends]
      rw [hflatten, ← hcut.eq_fittedSegment]

end Replay

/-! ## The segments of a delta -/

section Delta

variable [UnicodeTables] [JsonReader]

/-- A delta with units is stable. -/
theorem stable_of_units {events : List EventEnvelope} {units : List (List EventEnvelope)}
    (h : durableEventUnits events = some units) : (evaluateToolLoop events).state = .stable := by
  unfold durableEventUnits at h
  unfold evaluateToolLoop
  cases hrun : ToolLoopScan.run {} events with
  | none => simp [hrun] at h
  | some scan =>
      rw [hrun] at h
      by_contra hstable
      exact absurd h (by simp [if_neg hstable])

/-- The segments that the segmenter returns, with their units. -/
structure SegmentedInto (events : List EventEnvelope) (counts : EventTokenCounts)
    (config : SegmenterConfig) (units : List (List EventEnvelope))
    (cuts : List (List (List EventEnvelope) × EventSegment)) : Prop where
  covers : counts.Covers events
  groups : durableEventUnits events = some units
  read : cuts.flatMap Prod.fst = units
  made : ∀ cut ∈ cuts, cut.2.MadeOf config counts cut.1

/-- Whatever the segmenter returns is made of units. -/
theorem segment_ok_into {events : List EventEnvelope} {counts : EventTokenCounts}
    {config : SegmenterConfig} {preferred : List Nat} {segments : List EventSegment}
    (h : segment events counts config preferred = .ok segments) :
    ∃ units cuts, SegmentedInto events counts config units cuts ∧ cuts.map Prod.snd = segments := by
  have hreturned := h
  obtain ⟨_, hvalid, h⟩ := Checked.bind_ok.mp h
  split at h
  · cases h
  next hcovers =>
    replace hcovers := not_not.mp hcovers
    cases hunits : durableEventUnits events with
    | none => simp [hunits] at h
    | some units =>
        have hne : events ≠ [] := by
          rintro rfl
          cases hvalid
        obtain ⟨units', cuts, hunits', hsegment, hread, hmade, -⟩ :=
          segment_cuts hne (stable_of_units hunits) hcovers config preferred
        exact ⟨units', cuts, ⟨hcovers, hunits', hread, hmade⟩,
          Except.ok.inj (hsegment.symm.trans hreturned)⟩

namespace SegmentedInto

variable {events : List EventEnvelope} {counts : EventTokenCounts} {config : SegmenterConfig}
  {units : List (List EventEnvelope)} {cuts : List (List (List EventEnvelope) × EventSegment)}

/-- Every unit has events. -/
theorem unit_ne_nil (h : SegmentedInto events counts config units cuts) :
    ∀ unit ∈ units, unit ≠ [] := fun unit hunit =>
  Production.ne_nil ((durableEventUnits_eq_some_iff.mp h.groups).2.productions unit hunit)

/-- The units of a segment lie in a row in the delta. -/
theorem infix_units (h : SegmentedInto events counts config units cuts)
    {cut : List (List EventEnvelope) × EventSegment} (hcut : cut ∈ cuts) : cut.1 <:+: units := by
  obtain ⟨before, behind, rfl⟩ := List.append_of_mem hcut
  rw [← h.read]
  exact ⟨before.flatMap Prod.fst, behind.flatMap Prod.fst, by simp⟩

/-- A segment that is parsed on its own has the units that the segmenter put in it. -/
theorem eventGroups_cut (h : SegmentedInto events counts config units cuts)
    {cut : List (List EventEnvelope) × EventSegment} (hcut : cut ∈ cuts) :
    eventGroups cut.2.events = .ok cut.1 := by
  obtain ⟨hcontiguous, hdecomposes⟩ := durableEventUnits_eq_some_iff.mp h.groups
  obtain ⟨before, behind, hsplit⟩ := h.infix_units hcut
  have hpart : Contiguous cut.1.flatten := by
    rw [← hdecomposes.flatten, ← hsplit, List.flatten_append, List.flatten_append] at hcontiguous
    exact hcontiguous.of_append.1.of_append.2
  have hproductions : ∀ unit ∈ cut.1, Production unit := fun unit hunit =>
    hdecomposes.productions unit (hsplit ▸ List.mem_append_left _ (List.mem_append_right _ hunit))
  rw [(h.made cut hcut).events, eventGroups, orMissing_ok]
  exact durableEventUnits_eq_some_iff.mpr ⟨hpart, rfl, hproductions⟩

/-- The segments, replayed against the units of the delta, are unchanged. -/
theorem normalizeAtomicSegments_eq (h : SegmentedInto events counts config units cuts) :
    normalizeAtomicSegments (cuts.map Prod.snd) events counts = .ok (cuts.map Prod.snd) := by
  obtain ⟨hcontiguous, hdecomposes⟩ := durableEventUnits_eq_some_iff.mp h.groups
  rw [← hdecomposes.flatten] at hcontiguous
  refine bind_ok.mpr ⟨units, orMissing_ok.mpr h.groups, ?_⟩
  have hreplay := replayBoundaries_cuts h.made (h.read ▸ h.unit_ne_nil)
    (h.read ▸ hcontiguous.ascending h.unit_ne_nil)
  rw [h.read] at hreplay
  rw [hreplay]
  rfl

end SegmentedInto

end Delta

end AstrContinuum
