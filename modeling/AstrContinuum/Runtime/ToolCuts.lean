import AstrContinuum.Runtime.ToolGrammar

/-!
# Stable points of the tool loop

A delta may be cut wherever the machine is stable: what follows reads as if the journal began there.
The main results are `evaluateToolLoop_append_of_stable`, its counterpart for the units, and
`evaluateToolLoop_prefix_stable`: an assistant message always leaves a stable point behind.
-/

namespace AstrContinuum

variable [UnicodeTables] [JsonReader]

omit [UnicodeTables] [JsonReader] in
/-- Linked events are linked up to the cut and from it on. -/
theorem linked_append (previous : Option EventEnvelope) (xs ys : List EventEnvelope) :
    linked previous (xs ++ ys) = (linked previous xs && linked (xs.getLast?.or previous) ys) := by
  induction xs generalizing previous with
  | nil => rfl
  | cons event rest ih =>
      have hlast : ((event :: rest).getLast?.or previous) = rest.getLast?.or (some event) := by
        cases hrest : rest.getLast? <;> simp [List.getLast?_cons, hrest]
      rw [List.cons_append]
      simp only [linked, ih, hlast, Bool.and_assoc]

omit [UnicodeTables] [JsonReader] in
/-- What continues an event may also stand at the start. -/
theorem linked_none_of_linked {previous : Option EventEnvelope} {events : List EventEnvelope}
    (h : linked previous events = true) : linked none events = true := by
  cases events with
  | nil => rfl
  | cons event rest =>
      simp only [linked, Bool.and_eq_true] at h ⊢
      exact ⟨rfl, h.2⟩

omit [UnicodeTables] [JsonReader] in
/-- Both parts of a contiguous delta are contiguous. -/
theorem Contiguous.of_append {xs ys : List EventEnvelope} (h : Contiguous (xs ++ ys)) :
    Contiguous xs ∧ Contiguous ys := by
  rw [← linked_none, linked_append, Bool.and_eq_true] at h
  exact ⟨linked_none.mp h.1, linked_none.mp (linked_none_of_linked h.2)⟩

/-- What a final state of the machine is reported as. -/
def ToolLoopScan.assessment (scan : ToolLoopScan) : ToolLoopAssessment :=
  ⟨scan.state, pendingEntries scan.pending⟩

/-- On a contiguous delta the assessment is that of the machine. -/
theorem Contiguous.evaluateToolLoop_eq {events : List EventEnvelope} (h : Contiguous events) :
    evaluateToolLoop events =
      ((ToolLoopScan.drive {} events).map ToolLoopScan.assessment).getD ⟨.invalid, []⟩ := by
  unfold evaluateToolLoop
  rw [ToolLoopScan.run_eq, if_pos (linked_none.mpr h)]
  cases ToolLoopScan.drive {} events <;> rfl

/-- On a contiguous delta the units are those of the machine, once it is stable. -/
theorem Contiguous.durableEventUnits_eq {events : List EventEnvelope} (h : Contiguous events) :
    durableEventUnits events = (ToolLoopScan.drive {} events).bind fun scan =>
      if scan.state = .stable then some scan.units else none := by
  unfold durableEventUnits
  rw [ToolLoopScan.run_eq, if_pos (linked_none.mpr h)]
  cases ToolLoopScan.drive {} events <;> rfl

/-- A contiguous delta is invalid exactly when the machine stops in it. -/
theorem Contiguous.invalid_iff {events : List EventEnvelope} (h : Contiguous events) :
    (evaluateToolLoop events).state = .invalid ↔ ToolLoopScan.drive {} events = none := by
  rw [h.evaluateToolLoop_eq]
  cases hdrive : ToolLoopScan.drive {} events with
  | none => simp
  | some scan =>
      have hvalid := (ToolLoopScan.parsed_start.drive hdrive).tracks.valid
      simpa [ToolLoopScan.assessment] using hvalid

/-- A contiguous delta is stable exactly when the machine ends as it began, past its units. -/
theorem Contiguous.stable_iff {events : List EventEnvelope} (h : Contiguous events) :
    (evaluateToolLoop events).state = .stable ↔
      ∃ units, ToolLoopScan.drive {} events = some { units := units } := by
  rw [h.evaluateToolLoop_eq]
  cases hdrive : ToolLoopScan.drive {} events with
  | none => simp
  | some scan =>
      constructor
      · intro hstable
        have hstable : scan.state = .stable := hstable
        have hunits : Decomposes events scan.units :=
          ToolLoopScan.drive_iff.mp ⟨scan, hdrive, hstable, rfl⟩
        have hdriven := ToolLoopScan.drive_units ToolLoopScan.tracks_start rfl hunits.productions
        rw [hunits.flatten] at hdriven
        exact ⟨scan.units, hdrive.symm.trans hdriven⟩
      · rintro ⟨units, hscan⟩
        obtain rfl := Option.some.inj hscan
        rfl

/-- The invalid state is absorbing. -/
theorem evaluateToolLoop_append_of_invalid {xs ys : List EventEnvelope}
    (hcontiguous : Contiguous (xs ++ ys)) (h : (evaluateToolLoop xs).state = .invalid) :
    (evaluateToolLoop (xs ++ ys)).state = .invalid := by
  have hxs := hcontiguous.of_append.1.invalid_iff.mp h
  rw [hcontiguous.invalid_iff, ToolLoopScan.drive_append, hxs]
  rfl

/-- From a stable point the machine goes on as from the start. -/
theorem drive_append_of_stable {xs ys : List EventEnvelope} {units : List (List EventEnvelope)}
    (h : ToolLoopScan.drive {} xs = some { units := units }) :
    ToolLoopScan.drive {} (xs ++ ys) =
      (ToolLoopScan.drive {} ys).map fun scan => scan.placed none units := by
  rw [ToolLoopScan.drive_append, h]
  have hplaced := ToolLoopScan.drive_placed {} none units ys
  simpa [ToolLoopScan.placed] using hplaced

/-- Past a stable point the assessment is that of what follows. -/
theorem evaluateToolLoop_append_of_stable {xs ys : List EventEnvelope}
    (hcontiguous : Contiguous (xs ++ ys)) (h : (evaluateToolLoop xs).state = .stable) :
    evaluateToolLoop (xs ++ ys) = evaluateToolLoop ys := by
  obtain ⟨hxs, hys⟩ := hcontiguous.of_append
  obtain ⟨units, hdrive⟩ := hxs.stable_iff.mp h
  rw [hcontiguous.evaluateToolLoop_eq, hys.evaluateToolLoop_eq, drive_append_of_stable hdrive,
    Option.map_map]
  rfl

/-- Past a stable point the units are those before it and those of what follows. -/
theorem durableEventUnits_append_of_stable {xs ys : List EventEnvelope}
    (hcontiguous : Contiguous (xs ++ ys)) (h : (evaluateToolLoop xs).state = .stable) :
    durableEventUnits (xs ++ ys) =
      (durableEventUnits xs).bind fun first =>
        (durableEventUnits ys).map fun second => first ++ second := by
  obtain ⟨hxs, hys⟩ := hcontiguous.of_append
  obtain ⟨units, hdrive⟩ := hxs.stable_iff.mp h
  rw [hcontiguous.durableEventUnits_eq, hxs.durableEventUnits_eq, hys.durableEventUnits_eq,
    drive_append_of_stable hdrive, hdrive]
  cases ToolLoopScan.drive {} ys with
  | none => rfl
  | some scan =>
      by_cases hstable : scan.state = .stable
      · simp [ToolLoopScan.placed, hstable]
      · simp [ToolLoopScan.placed, hstable]

/-- An assistant message leaves the machine stable. -/
theorem ToolLoopScan.transition_assistant {scan next : ToolLoopScan} {event : EventEnvelope}
    (h : scan.transition event = some next) (htype : event.eventType = .assistantMessage) :
    next.state = .stable := by
  cases transition_cases h with
  | opens hcall hprint => simp [hcall] at htype
  | closes hresult hstate hprint hmem => simp [hresult] at htype
  | emits hstate hother => rfl
  | completes hstate hassistant => rfl

/-- In a valid delta every prefix that ends in an assistant message is stable. -/
theorem evaluateToolLoop_prefix_stable {xs ys : List EventEnvelope}
    (hcontiguous : Contiguous (xs ++ ys))
    (hvalid : (evaluateToolLoop (xs ++ ys)).state ≠ .invalid) {event : EventEnvelope}
    (hlast : xs.getLast? = some event) (htype : event.eventType = .assistantMessage) :
    (evaluateToolLoop xs).state = .stable := by
  have hxs := hcontiguous.of_append.1
  have hprefix : (evaluateToolLoop xs).state ≠ .invalid :=
    fun hinvalid => hvalid (evaluateToolLoop_append_of_invalid hcontiguous hinvalid)
  obtain ⟨before, rfl⟩ := List.getLast?_eq_some_iff.mp hlast
  cases hdrive : ToolLoopScan.drive {} (before ++ [event]) with
  | none => exact absurd (hxs.invalid_iff.mpr hdrive) hprefix
  | some scan =>
      rw [ToolLoopScan.drive_append] at hdrive
      obtain ⟨middle, hmiddle, hstep⟩ := Option.bind_eq_some_iff.mp hdrive
      obtain ⟨next, hnext, hend⟩ := Option.bind_eq_some_iff.mp hstep
      obtain rfl : next = scan := Option.some.inj hend
      have hstable := ToolLoopScan.transition_assistant hnext htype
      have hrun : ToolLoopScan.drive {} (before ++ [event]) = some next := by
        rw [ToolLoopScan.drive_append]
        exact hdrive
      rw [hxs.evaluateToolLoop_eq, hrun]
      exact hstable

end AstrContinuum
