import AstrContinuum.Runtime.ToolLoop

/-!
# The grammar of the tool loop

What the machine of `Runtime.ToolLoop` accepts, said without it: a delta is a sequence of
productions, each a single message or a tool round whose calls and results match as multisets.
Read `drive_iff` first: from the start the machine reaches a stable state with given units exactly
on the deltas that these units make up.
-/

namespace AstrContinuum

variable [UnicodeTables] [JsonReader]

/-! ## Productions -/

/-- The calls with a fingerprint among some events. -/
def callCount (fingerprint : ToolFingerprint) (events : List EventEnvelope) : Nat :=
  events.countP fun event =>
    decide (event.eventType = .toolCall) && decide (toolFingerprint event = some fingerprint)

/-- The results with a fingerprint among some events. -/
def resultCount (fingerprint : ToolFingerprint) (events : List EventEnvelope) : Nat :=
  events.countP fun event =>
    decide (event.eventType = .toolResult) && decide (toolFingerprint event = some fingerprint)

/-- The tool events of a round: they start with a call, and no prefix has more results than calls
of any fingerprint. -/
structure ToolPhase (tools : List EventEnvelope) : Prop where
  start : ∃ event ∈ tools.head?, event.eventType = .toolCall
  events : ∀ event ∈ tools, (event.eventType = .toolCall ∨ event.eventType = .toolResult) ∧
    (toolFingerprint event).isSome = true
  prefixes : ∀ read, read <+: tools → ∀ fingerprint,
    resultCount fingerprint read ≤ callCount fingerprint read

/-- One indivisible unit of a delta. -/
inductive Production : List EventEnvelope → Prop
  /-- A user or an assistant message. -/
  | single {event : EventEnvelope}
      (htype : event.eventType = .userMessage ∨ event.eventType = .assistantMessage) :
      Production [event]
  /-- A tool round, closed by an assistant message once every call has its result. -/
  | round {tools : List EventEnvelope} {closing : EventEnvelope} (hphase : ToolPhase tools)
      (hmatched : ∀ fingerprint, resultCount fingerprint tools = callCount fingerprint tools)
      (hclosing : closing.eventType = .assistantMessage) : Production (tools ++ [closing])

/-- The units make up the delta, and each is a production. -/
structure Decomposes (events : List EventEnvelope) (units : List (List EventEnvelope)) :
    Prop where
  flatten : units.flatten = events
  productions : ∀ unit ∈ units, Production unit

/-- The events of one session with consecutive sequences. -/
def Contiguous (events : List EventEnvelope) : Prop :=
  (∀ event ∈ events, ∀ other ∈ events, other.sessionKey = event.sessionKey) ∧
    ∃ start, (events.map fun event => event.sequence) = List.range' start events.length

/-! ## Counting -/

@[simp] theorem callCount_append (fingerprint : ToolFingerprint) (xs ys : List EventEnvelope) :
    callCount fingerprint (xs ++ ys) = callCount fingerprint xs + callCount fingerprint ys :=
  List.countP_append

@[simp] theorem resultCount_append (fingerprint : ToolFingerprint) (xs ys : List EventEnvelope) :
    resultCount fingerprint (xs ++ ys) = resultCount fingerprint xs + resultCount fingerprint ys :=
  List.countP_append

/-- A call counts for its fingerprint only. -/
theorem callCount_call {event : EventEnvelope} (htype : event.eventType = .toolCall)
    {fingerprint : ToolFingerprint} (hprint : toolFingerprint event = some fingerprint)
    (other : ToolFingerprint) :
    callCount other [event] = if other = fingerprint then 1 else 0 := by
  by_cases hsame : other = fingerprint
  · simp [callCount, htype, hprint, hsame]
  · simp [callCount, htype, hprint, hsame, Ne.symm hsame]

/-- A result counts for its fingerprint only. -/
theorem resultCount_result {event : EventEnvelope} (htype : event.eventType = .toolResult)
    {fingerprint : ToolFingerprint} (hprint : toolFingerprint event = some fingerprint)
    (other : ToolFingerprint) :
    resultCount other [event] = if other = fingerprint then 1 else 0 := by
  by_cases hsame : other = fingerprint
  · simp [resultCount, htype, hprint, hsame]
  · simp [resultCount, htype, hprint, hsame, Ne.symm hsame]

/-- Only calls count as calls. -/
theorem callCount_eq_zero {event : EventEnvelope} (htype : event.eventType ≠ .toolCall)
    (fingerprint : ToolFingerprint) : callCount fingerprint [event] = 0 := by
  simp [callCount, htype]

/-- Only results count as results. -/
theorem resultCount_eq_zero {event : EventEnvelope} (htype : event.eventType ≠ .toolResult)
    (fingerprint : ToolFingerprint) : resultCount fingerprint [event] = 0 := by
  simp [resultCount, htype]

namespace ToolPhase

variable {tools : List EventEnvelope}

/-- A call starts a phase. -/
theorem of_call {event : EventEnvelope} (htype : event.eventType = .toolCall)
    (hprint : (toolFingerprint event).isSome = true) : ToolPhase [event] where
  start := ⟨event, rfl, htype⟩
  events := by
    intro other hother
    obtain rfl := List.mem_singleton.mp hother
    exact ⟨.inl htype, hprint⟩
  prefixes := by
    intro read hread fingerprint
    have hzero : resultCount fingerprint [event] = 0 :=
      resultCount_eq_zero (by simp [htype]) fingerprint
    have hsub := hread.sublist.countP_le (p := fun event =>
      decide (event.eventType = .toolResult) && decide (toolFingerprint event = some fingerprint))
    have hle : resultCount fingerprint read ≤ 0 := hzero ▸ hsub
    omega

/-- A tool event extends a phase when the counts still allow it. -/
theorem concat (h : ToolPhase tools) {event : EventEnvelope}
    (htype : event.eventType = .toolCall ∨ event.eventType = .toolResult)
    (hprint : (toolFingerprint event).isSome = true)
    (hcounts : ∀ fingerprint,
      resultCount fingerprint (tools ++ [event]) ≤ callCount fingerprint (tools ++ [event])) :
    ToolPhase (tools ++ [event]) where
  start := by
    obtain ⟨first, hfirst, hcall⟩ := h.start
    refine ⟨first, ?_, hcall⟩
    simp [List.head?_append, Option.mem_def.mp hfirst]
  events := by
    intro other hother
    rcases List.mem_append.mp hother with hother | hother
    · exact h.events other hother
    · obtain rfl := List.mem_singleton.mp hother
      exact ⟨htype, hprint⟩
  prefixes := by
    intro read hread
    rcases List.prefix_concat_iff.mp hread with rfl | hread
    · exact hcounts
    · exact h.prefixes read hread

end ToolPhase

/-! ## The machine without the journal position -/

namespace ToolLoopScan

/-- The transitions of the machine on a sequence of events, wherever these stand in a journal. -/
def drive : ToolLoopScan → List EventEnvelope → Option ToolLoopScan
  | scan, [] => some scan
  | scan, event :: rest => scan.transition event >>= fun next => next.drive rest

/-- The machine reads a concatenation part by part. -/
theorem drive_append (scan : ToolLoopScan) (xs ys : List EventEnvelope) :
    scan.drive (xs ++ ys) = scan.drive xs >>= fun next => next.drive ys := by
  induction xs generalizing scan with
  | nil => rfl
  | cons event rest ih =>
      show (scan.transition event >>= fun next => next.drive (rest ++ ys)) =
        (scan.transition event >>= fun next => next.drive rest) >>= fun next => next.drive ys
      rw [bind_assoc]
      exact congrArg _ (funext ih)

/-- What the state of the machine says about its open round. -/
structure Tracks (scan : ToolLoopScan) : Prop where
  valid : scan.state ≠ .invalid
  stable : scan.state = .stable → scan.openUnit = [] ∧ scan.pending = []
  awaitingResults : scan.state = .awaitingResults → scan.pending ≠ []
  awaitingAssistant : scan.state = .awaitingAssistant → scan.pending = []
  opened : scan.state ≠ .stable → scan.openUnit ≠ []
  pending : ∀ fingerprint, scan.pending.count fingerprint + resultCount fingerprint scan.openUnit =
    callCount fingerprint scan.openUnit

/-- The machine starts without a round. -/
theorem tracks_start : Tracks {} :=
  ⟨nofun, fun _ => ⟨rfl, rfl⟩, nofun, nofun, fun h => absurd rfl h, fun _ => rfl⟩

namespace Tracks

variable {scan : ToolLoopScan}

/-- Between rounds nothing is pending. -/
theorem pending_nil (h : scan.Tracks) (hstate : scan.state ≠ .awaitingResults) :
    scan.pending = [] := by
  cases hscan : scan.state with
  | stable => exact (h.stable hscan).2
  | awaitingResults => exact absurd hscan hstate
  | awaitingAssistant => exact h.awaitingAssistant hscan
  | invalid => exact absurd hscan h.valid

/-- A call joins the round. -/
theorem openCall (h : scan.Tracks) {event : EventEnvelope} (htype : event.eventType = .toolCall)
    {fingerprint : ToolFingerprint} (hprint : toolFingerprint event = some fingerprint) :
    (scan.openCall event fingerprint).Tracks where
  valid := nofun
  stable := nofun
  awaitingResults := fun _ => List.cons_ne_nil _ _
  awaitingAssistant := nofun
  opened := fun _ => by simp [ToolLoopScan.openCall]
  pending := by
    intro other
    have hcount := h.pending other
    have hresult : resultCount other [event] = 0 := resultCount_eq_zero (by simp [htype]) other
    have hcall := callCount_call htype hprint other
    simp only [ToolLoopScan.openCall, resultCount_append, callCount_append, hresult, hcall,
      List.count_cons, beq_iff_eq]
    by_cases hsame : other = fingerprint
    · simp only [hsame, if_true] at hcount ⊢
      omega
    · simp only [hsame, Ne.symm hsame, if_false]
      omega

/-- A result closes a pending call. -/
theorem closeCall (h : scan.Tracks) {event : EventEnvelope} (htype : event.eventType = .toolResult)
    {fingerprint : ToolFingerprint} (hprint : toolFingerprint event = some fingerprint)
    (hmem : fingerprint ∈ scan.pending) : (scan.closeCall event fingerprint).Tracks where
  valid := by
    simp only [ToolLoopScan.closeCall]
    split <;> simp
  stable := by
    simp only [ToolLoopScan.closeCall]
    split <;> simp
  awaitingResults := by
    simp only [ToolLoopScan.closeCall]
    split <;> simp_all
  awaitingAssistant := by
    simp only [ToolLoopScan.closeCall]
    split <;> simp_all
  opened := fun _ => by simp [ToolLoopScan.closeCall]
  pending := by
    intro other
    have hcount := h.pending other
    have hcall : callCount other [event] = 0 := callCount_eq_zero (by simp [htype]) other
    have hresult := resultCount_result htype hprint other
    simp only [ToolLoopScan.closeCall, resultCount_append, callCount_append, hresult, hcall]
    by_cases hsame : other = fingerprint
    · subst hsame
      have hpositive := List.count_pos_iff.mpr hmem
      rw [List.count_erase_self, if_pos rfl]
      omega
    · rw [List.count_erase_of_ne hsame, if_neg hsame]
      omega

/-- A completed unit leaves nothing pending. -/
theorem emit (h : scan.Tracks) (hstate : scan.state ≠ .awaitingResults)
    (unit : List EventEnvelope) : (scan.emit unit).Tracks where
  valid := nofun
  stable := fun _ => ⟨rfl, h.pending_nil hstate⟩
  awaitingResults := nofun
  awaitingAssistant := nofun
  opened := fun hopen => absurd rfl hopen
  pending := by
    intro fingerprint
    simp [ToolLoopScan.emit, h.pending_nil hstate, resultCount, callCount]

/-- One event. -/
theorem transition (h : scan.Tracks) {event : EventEnvelope} {next : ToolLoopScan}
    (hnext : scan.transition event = some next) : next.Tracks := by
  cases transition_cases hnext with
  | opens htype hprint => exact h.openCall htype hprint
  | closes htype hstate hprint hmem => exact h.closeCall htype hprint hmem
  | emits hstate htype => exact h.emit (by simp [hstate]) _
  | completes hstate htype => exact h.emit (by simp [hstate]) _

end Tracks

/-! ## What the machine accepts -/

/-- The machine has cut what it read into productions and the phase of the open round. -/
structure Parsed (scan : ToolLoopScan) (read : List EventEnvelope) : Prop where
  tracks : scan.Tracks
  flatten : scan.units.flatten ++ scan.openUnit = read
  productions : ∀ unit ∈ scan.units, Production unit
  phase : scan.state ≠ .stable → ToolPhase scan.openUnit

/-- The machine starts with nothing read. -/
theorem parsed_start : Parsed {} [] :=
  ⟨tracks_start, rfl, by simp, fun h => absurd rfl h⟩

namespace Parsed

variable {scan : ToolLoopScan} {read : List EventEnvelope}

/-- A tool event extends the phase of the round. -/
theorem extend (h : scan.Parsed read) {event : EventEnvelope} {next : ToolLoopScan}
    (hnext : next.Tracks) (hunits : next.units = scan.units)
    (hopen : next.openUnit = scan.openUnit ++ [event])
    (hphase : ToolPhase next.openUnit) : next.Parsed (read ++ [event]) where
  tracks := hnext
  flatten := by rw [hunits, hopen, ← List.append_assoc, h.flatten]
  productions := by
    rw [hunits]
    exact h.productions
  phase := fun _ => hphase

/-- A production is complete. -/
theorem emit (h : scan.Parsed read) {event : EventEnvelope}
    (hnext : (scan.emit (scan.openUnit ++ [event])).Tracks)
    (hunit : Production (scan.openUnit ++ [event])) :
    (scan.emit (scan.openUnit ++ [event])).Parsed (read ++ [event]) where
  tracks := hnext
  flatten := by
    rw [← h.flatten]
    simp [ToolLoopScan.emit]
  productions := by
    intro unit hmem
    rcases List.mem_append.mp hmem with hmem | hmem
    · exact h.productions unit hmem
    · exact List.mem_singleton.mp hmem ▸ hunit
  phase := fun hopen => absurd rfl hopen

/-- The counts of a tracked round never run ahead of its calls. -/
theorem counts {next : ToolLoopScan} (hnext : next.Tracks) (fingerprint : ToolFingerprint) :
    resultCount fingerprint next.openUnit ≤ callCount fingerprint next.openUnit := by
  have hcount := hnext.pending fingerprint
  omega

/-- One event. -/
theorem transition (h : scan.Parsed read) {event : EventEnvelope} {next : ToolLoopScan}
    (hnext : scan.transition event = some next) : next.Parsed (read ++ [event]) := by
  have htracks := h.tracks.transition hnext
  cases transition_cases hnext with
  | opens htype hprint =>
      have hsome : (toolFingerprint event).isSome = true := by simp [hprint]
      refine h.extend htracks rfl rfl ?_
      by_cases hstate : scan.state = .stable
      · -- the first call of a round
        have hnil : scan.openUnit = [] := (h.tracks.stable hstate).1
        simpa [ToolLoopScan.openCall, hnil] using ToolPhase.of_call htype hsome
      · exact (h.phase hstate).concat (.inl htype) hsome (counts htracks)
  | closes htype hstate hprint hmem =>
      have hsome : (toolFingerprint event).isSome = true := by simp [hprint]
      have hphase := h.phase (by simp [hstate])
      exact h.extend htracks rfl rfl (hphase.concat (.inr htype) hsome (counts htracks))
  | emits hstate htype =>
      have hnil : scan.openUnit = [] := (h.tracks.stable hstate).1
      have htracked : (scan.emit (scan.openUnit ++ [event])).Tracks := by
        rw [hnil, List.nil_append]
        exact htracks
      have hunit : Production (scan.openUnit ++ [event]) := by
        rw [hnil, List.nil_append]
        exact .single htype
      have hemit := h.emit htracked hunit
      rw [hnil, List.nil_append] at hemit
      exact hemit
  | completes hstate htype =>
      refine h.emit htracks (.round (h.phase (by simp [hstate])) ?_ htype)
      intro fingerprint
      have hcount := h.tracks.pending fingerprint
      rw [h.tracks.awaitingAssistant hstate, List.count_nil] at hcount
      omega

/-- The whole loop. -/
theorem drive (h : scan.Parsed read) {events : List EventEnvelope} {final : ToolLoopScan}
    (hdrive : scan.drive events = some final) : final.Parsed (read ++ events) := by
  induction events generalizing scan read with
  | nil =>
      obtain rfl := Option.some.inj hdrive
      simpa using h
  | cons event rest ih =>
      obtain ⟨next, hnext, hrest⟩ := Option.bind_eq_some_iff.mp hdrive
      simpa using ih (h.transition hnext) hrest

end Parsed

/-! ## What the machine must accept -/

/-- The machine is inside a round that `outer` opened, with these events of it read. -/
structure InRound (outer : ToolLoopScan) (read : List EventEnvelope) (scan : ToolLoopScan) :
    Prop where
  tracks : scan.Tracks
  opened : scan.state ≠ .stable
  openUnit : scan.openUnit = read
  units : scan.units = outer.units
  previous : scan.previous = outer.previous

/-- A call continues every round. -/
theorem transition_call {scan : ToolLoopScan} (hvalid : scan.state ≠ .invalid)
    {event : EventEnvelope} (htype : event.eventType = .toolCall) {fingerprint : ToolFingerprint}
    (hprint : toolFingerprint event = some fingerprint) :
    scan.transition event = some (scan.openCall event fingerprint) := by
  unfold ToolLoopScan.transition
  cases hstate : scan.state with
  | stable => simp [htype, hprint]
  | awaitingResults => simp [htype, hprint]
  | awaitingAssistant => simp [htype, hprint]
  | invalid => exact absurd hstate hvalid

/-- A result whose call is pending continues the round. -/
theorem transition_result {scan : ToolLoopScan} (htracks : scan.Tracks) {event : EventEnvelope}
    (htype : event.eventType = .toolResult) {fingerprint : ToolFingerprint}
    (hprint : toolFingerprint event = some fingerprint) (hmem : fingerprint ∈ scan.pending) :
    scan.transition event = some (scan.closeCall event fingerprint) := by
  have hstate : scan.state = .awaitingResults := by
    by_contra hother
    simp [htracks.pending_nil hother] at hmem
  simp [ToolLoopScan.transition, hstate, htype, hprint, hmem]

/-- One tool event of a phase. -/
theorem InRound.transition {outer scan : ToolLoopScan} {read rest : List EventEnvelope}
    {event : EventEnvelope} (h : InRound outer read scan)
    (hphase : ToolPhase (read ++ event :: rest)) :
    ∃ next, scan.transition event = some next ∧ InRound outer (read ++ [event]) next := by
  obtain ⟨htype, hsome⟩ := hphase.events event (by simp)
  obtain ⟨fingerprint, hprint⟩ := Option.isSome_iff_exists.mp hsome
  rcases htype with htype | htype
  · refine ⟨_, transition_call h.tracks.valid htype hprint, h.tracks.openCall htype hprint, nofun,
      ?_, h.units, h.previous⟩
    simp [ToolLoopScan.openCall, h.openUnit]
  · -- the prefix up to this result has no more results than calls, so one call is pending
    have hprefix := hphase.prefixes (read ++ [event]) ⟨rest, by simp⟩ fingerprint
    have hpending := h.tracks.pending fingerprint
    have hresult := resultCount_result htype hprint fingerprint
    have hcall : callCount fingerprint [event] = 0 := callCount_eq_zero (by simp [htype]) _
    rw [resultCount_append, callCount_append, hresult, hcall, if_pos rfl] at hprefix
    rw [h.openUnit] at hpending
    have hmem : fingerprint ∈ scan.pending := List.count_pos_iff.mp (by omega)
    refine ⟨_, transition_result h.tracks htype hprint hmem, h.tracks.closeCall htype hprint hmem,
      ?_, ?_, h.units, h.previous⟩
    · simp only [ToolLoopScan.closeCall]
      split <;> simp
    · simp [ToolLoopScan.closeCall, h.openUnit]

/-- The tool events of a phase. -/
theorem InRound.drive {outer scan : ToolLoopScan} {read rest : List EventEnvelope}
    (h : InRound outer read scan) (hphase : ToolPhase (read ++ rest)) :
    ∃ final, scan.drive rest = some final ∧ InRound outer (read ++ rest) final := by
  induction rest generalizing scan read with
  | nil => exact ⟨scan, rfl, by simpa using h⟩
  | cons event rest ih =>
      obtain ⟨next, hnext, hin⟩ := h.transition hphase
      obtain ⟨final, hdrive, hfinal⟩ := ih hin (by simpa using hphase)
      exact ⟨final, Option.bind_eq_some_iff.mpr ⟨next, hnext, hdrive⟩, by simpa using hfinal⟩

/-- A matched phase and its assistant message are one unit. -/
theorem drive_round {scan : ToolLoopScan} (htracks : scan.Tracks) (hstable : scan.state = .stable)
    {tools : List EventEnvelope} {closing : EventEnvelope} (hphase : ToolPhase tools)
    (hmatched : ∀ fingerprint, resultCount fingerprint tools = callCount fingerprint tools)
    (hclosing : closing.eventType = .assistantMessage) :
    scan.drive (tools ++ [closing]) = some (scan.emit (tools ++ [closing])) := by
  obtain ⟨first, hfirst, htype⟩ := hphase.start
  cases tools with
  | nil => cases hfirst
  | cons event rest =>
      obtain rfl : event = first := Option.some.inj hfirst
      obtain ⟨fingerprint, hprint⟩ :=
        Option.isSome_iff_exists.mp (hphase.events event (by simp)).2
      obtain ⟨hnil, hempty⟩ := htracks.stable hstable
      have hopen : InRound scan [event] (scan.openCall event fingerprint) := by
        refine ⟨htracks.openCall htype hprint, nofun, ?_, rfl, rfl⟩
        simp [ToolLoopScan.openCall, hnil]
      obtain ⟨final, hdrive, hfinal⟩ := hopen.drive hphase
      -- every call has its result, so the machine waits for the assistant
      have hpending : final.pending = [] := by
        refine List.eq_nil_iff_forall_not_mem.mpr fun other hmem => ?_
        have hpositive := List.count_pos_iff.mpr hmem
        have hcount := hfinal.tracks.pending other
        rw [hfinal.openUnit] at hcount
        have hequal := hmatched other
        simp only [List.singleton_append] at hcount
        omega
      have hstate : final.state = .awaitingAssistant := by
        cases hstate : final.state with
        | stable => exact absurd hstate hfinal.opened
        | awaitingResults => exact absurd hpending (hfinal.tracks.awaitingResults hstate)
        | awaitingAssistant => rfl
        | invalid => exact absurd hstate hfinal.tracks.valid
      have hclose : final.transition closing = some (scan.emit (event :: rest ++ [closing])) := by
        simp [ToolLoopScan.transition, hstate, hclosing, ToolLoopScan.emit, hfinal.openUnit,
          hfinal.units, hfinal.previous, hpending, hempty]
      show (scan.transition event >>= fun next => next.drive (rest ++ [closing])) = _
      refine Option.bind_eq_some_iff.mpr
        ⟨_, transition_call (by simp [hstable]) htype hprint, ?_⟩
      rw [drive_append]
      refine Option.bind_eq_some_iff.mpr ⟨final, hdrive, ?_⟩
      exact Option.bind_eq_some_iff.mpr ⟨_, hclose, rfl⟩

/-- Every production is one unit. -/
theorem drive_production {scan : ToolLoopScan} (htracks : scan.Tracks)
    (hstable : scan.state = .stable) {unit : List EventEnvelope} (hunit : Production unit) :
    scan.drive unit = some (scan.emit unit) := by
  cases hunit with
  | single htype =>
      rcases htype with htype | htype <;>
        simp [ToolLoopScan.drive, ToolLoopScan.transition, hstable, htype]
  | round hphase hmatched hclosing =>
      exact drive_round htracks hstable hphase hmatched hclosing

/-- The machine finds the productions of a delta. -/
theorem drive_units {scan : ToolLoopScan} (htracks : scan.Tracks) (hstable : scan.state = .stable)
    {units : List (List EventEnvelope)} (hunits : ∀ unit ∈ units, Production unit) :
    scan.drive units.flatten = some { scan with units := scan.units ++ units } := by
  induction units generalizing scan with
  | nil => simp [ToolLoopScan.drive]
  | cons unit rest ih =>
      have hunit := drive_production htracks hstable (hunits unit (by simp))
      have hemit : (scan.emit unit).Tracks := htracks.emit (by simp [hstable]) unit
      have hrest := ih hemit rfl fun other hother => hunits other (by simp [hother])
      rw [List.flatten_cons, drive_append, hunit]
      refine hrest.trans ?_
      simp [ToolLoopScan.emit, hstable, (htracks.stable hstable).1]

/-- From the start the machine reaches a stable state with these units exactly on the deltas that
they make up. -/
theorem drive_iff {events : List EventEnvelope} {units : List (List EventEnvelope)} :
    (∃ scan, drive {} events = some scan ∧ scan.state = .stable ∧ scan.units = units) ↔
      Decomposes events units := by
  constructor
  · rintro ⟨scan, hdrive, hstable, rfl⟩
    have hparsed := parsed_start.drive hdrive
    have hnil : scan.openUnit = [] := (hparsed.tracks.stable hstable).1
    exact ⟨by simpa [hnil] using hparsed.flatten, hparsed.productions⟩
  · rintro ⟨rfl, hunits⟩
    exact ⟨_, drive_units tracks_start rfl hunits, rfl, by simp⟩

/-! ## The journal position -/

/-- The scan at another place: after the event `previous`, with `units` before its own. -/
def placed (scan : ToolLoopScan) (previous : Option EventEnvelope)
    (units : List (List EventEnvelope)) : ToolLoopScan :=
  { scan with previous := previous, units := units ++ scan.units }

/-- The transition reads neither the position nor the units. -/
theorem transition_placed (scan : ToolLoopScan) (previous : Option EventEnvelope)
    (units : List (List EventEnvelope)) (event : EventEnvelope) :
    (scan.placed previous units).transition event =
      (scan.transition event).map fun next => next.placed previous units := by
  unfold ToolLoopScan.transition
  cases hstate : scan.state <;> cases htype : event.eventType <;>
    cases hprint : toolFingerprint event <;>
    simp only [placed, hstate, Option.map_none, Option.map_some, Option.bind_none,
      Option.bind_some, Option.bind_eq_bind] <;>
    first
      | rfl
      | (simp only [ToolLoopScan.emit, List.append_assoc])
      | (split <;> rfl)

/-- No transition reads the position or the units. -/
theorem drive_placed (scan : ToolLoopScan) (previous : Option EventEnvelope)
    (units : List (List EventEnvelope)) (events : List EventEnvelope) :
    (scan.placed previous units).drive events =
      (scan.drive events).map fun next => next.placed previous units := by
  induction events generalizing scan with
  | nil => rfl
  | cons event rest ih =>
      simp only [drive, transition_placed]
      cases scan.transition event with
      | none => rfl
      | some next => exact ih next

end ToolLoopScan

/-- Each event continues the one before it. -/
def linked : Option EventEnvelope → List EventEnvelope → Bool
  | _, [] => true
  | previous, event :: rest => continues previous event && linked (some event) rest

/-- The loop is the machine on linked events. -/
theorem ToolLoopScan.run_eq (scan : ToolLoopScan) (events : List EventEnvelope) :
    scan.run events =
      if linked scan.previous events then
        (scan.drive events).map fun final => final.placed (events.getLast?.or scan.previous) []
      else none := by
  induction events generalizing scan with
  | nil => rfl
  | cons event rest ih =>
      by_cases hcontinues : continues scan.previous event = true
      · simp only [run, step, drive, linked, hcontinues, if_true, Bool.true_and]
        cases scan.transition event with
        | none => simp
        | some next =>
            show (next.placed (some event) []).run rest = _
            rw [ih, drive_placed]
            by_cases hlinked : linked (some event) rest = true
            · cases hlast : rest.getLast? with
              | none => simp [placed, hlinked, hlast, List.getLast?_cons, Function.comp_def]
              | some last => simp [placed, hlinked, hlast, List.getLast?_cons, Function.comp_def]
            · simp [placed, hlinked]
      · simp [run, step, linked, hcontinues]

omit [UnicodeTables] [JsonReader] in
/-- Linked events are those of one session with consecutive sequences. -/
theorem linked_some {event : EventEnvelope} {rest : List EventEnvelope} :
    linked (some event) rest = true ↔ (∀ other ∈ rest, other.sessionKey = event.sessionKey) ∧
      (rest.map fun other => other.sequence) = List.range' (event.sequence + 1) rest.length := by
  induction rest generalizing event with
  | nil => simp [linked]
  | cons next rest ih =>
      simp only [linked, continues, Bool.and_eq_true, beq_iff_eq, ih, List.forall_mem_cons,
        List.map_cons, List.length_cons, List.range'_succ, List.cons.injEq]
      constructor
      · rintro ⟨⟨hsequence, hsession⟩, hsessions, hsequences⟩
        exact ⟨⟨hsession, fun other hother => (hsessions other hother).trans hsession⟩, hsequence,
          hsequence ▸ hsequences⟩
      · rintro ⟨⟨hsession, hsessions⟩, hsequence, hsequences⟩
        exact ⟨⟨hsequence, hsession⟩,
          fun other hother => (hsessions other hother).trans hsession.symm,
          hsequence ▸ hsequences⟩

omit [UnicodeTables] [JsonReader] in
/-- A delta is linked from the start exactly when it is contiguous. -/
theorem linked_none {events : List EventEnvelope} :
    linked none events = true ↔ Contiguous events := by
  cases events with
  | nil => exact ⟨fun _ => ⟨by simp, 0, rfl⟩, fun _ => rfl⟩
  | cons event rest =>
      simp only [linked, continues, Bool.true_and, linked_some, Contiguous, List.map_cons,
        List.length_cons, List.range'_succ, List.cons.injEq]
      constructor
      · rintro ⟨hsessions, hsequences⟩
        have hall : ∀ other ∈ event :: rest, other.sessionKey = event.sessionKey :=
          List.forall_mem_cons.mpr ⟨rfl, hsessions⟩
        exact ⟨fun one hone other hother => (hall other hother).trans (hall one hone).symm,
          event.sequence, rfl, hsequences⟩
      · rintro ⟨hsessions, start, hstart, hsequences⟩
        exact ⟨fun other hother => hsessions event (by simp) other (by simp [hother]),
          hstart ▸ hsequences⟩

/-! ## The grammar -/

/-- The machine recognises the grammar. -/
theorem durableEventUnits_eq_some_iff {events : List EventEnvelope}
    {units : List (List EventEnvelope)} :
    durableEventUnits events = some units ↔ Contiguous events ∧ Decomposes events units := by
  rw [← linked_none, ← ToolLoopScan.drive_iff]
  unfold durableEventUnits
  rw [ToolLoopScan.run_eq]
  by_cases hlinked : linked none events = true
  · cases hdrive : ToolLoopScan.drive {} events with
    | none => simp [hlinked]
    | some scan => simp [hlinked, ToolLoopScan.placed]
  · simp [hlinked]

/-- A delta has at most one decomposition, since the machine is a function. -/
theorem Decomposes.unique {events : List EventEnvelope} {units others : List (List EventEnvelope)}
    (h : Decomposes events units) (hothers : Decomposes events others) : units = others := by
  obtain ⟨scan, hscan, -, rfl⟩ := ToolLoopScan.drive_iff.mpr h
  obtain ⟨scan', hscan', -, rfl⟩ := ToolLoopScan.drive_iff.mpr hothers
  obtain rfl : scan = scan' := Option.some.inj (hscan.symm.trans hscan')
  rfl

/-- Units are returned exactly for the contiguous deltas that the grammar produces, they are then
the productions of the delta, and no delta has two decompositions. -/
theorem durable_event_units_grammar (events : List EventEnvelope) :
    ((durableEventUnits events).isSome = true ↔
      Contiguous events ∧ ∃ units, Decomposes events units) ∧
    (∀ units, durableEventUnits events = some units →
      units.flatten = events ∧ ∀ unit ∈ units, Production unit) ∧
    ∀ units others, Decomposes events units → Decomposes events others → units = others := by
  refine ⟨?_, ?_, fun units others h hothers => h.unique hothers⟩
  · simp only [Option.isSome_iff_exists, durableEventUnits_eq_some_iff, exists_and_left]
  · intro units h
    obtain ⟨-, hdecomposes⟩ := durableEventUnits_eq_some_iff.mp h
    exact ⟨hdecomposes.flatten, hdecomposes.productions⟩

end AstrContinuum
