import AstrContinuum.Guarantees.Linearity
import AstrContinuum.Invariants.Sidecar
import AstrContinuum.Storage.Inserts

/-!
# The journal stores every captured event once

Captures may be replayed, repeated with other data, or aborted at any boundary.
`journal_exactly_once` says what the journal looks like after any run of them: the sequences of a
session have no gap, a stored event never changes, and a capture that has committed once answers
every later replay with the same event. `replay_returns` is the step behind the last part: what a
committed capture leaves behind is enough for its replay to succeed.
-/

namespace AstrContinuum

open Checked Relational Transactional

section Replays

variable [Hashlib]

/-- What a later capture relies on: the returned event is stored, and the sidecar holds the
observation. -/
structure Captured (db : Database) (eventType : EventType) (request : CaptureRequest)
    (event : EventEnvelope) : Prop where
  returned : Returned request eventType event db
  observed : Observed db request

omit [Hashlib] in
/-- An observation is never forgotten. -/
theorem Observed.grows {db db' : Database} {request : CaptureRequest} (h : Observed db request)
    (hgrows : SidecarGrows db db') : Observed db' request := by
  obtain ⟨hid, hcheck, hcount⟩ := h
  obtain ⟨added, hadded, -⟩ := hgrows.metrics
  refine ⟨hid, hcheck, fun count hmem => ?_⟩
  obtain ⟨row, hrow, hsame⟩ := hcount count hmem
  exact ⟨row, by rw [hadded]; exact List.mem_append_left _ hrow, hsame⟩

/-- A captured event stays captured. -/
theorem Captured.grows {db db' : Database} {eventType : EventType} {request : CaptureRequest}
    {event : EventEnvelope} (h : Captured db eventType request event) (hgrows : Grows db db')
    (hsidecar : SidecarGrows db db') : Captured db' eventType request event := by
  obtain ⟨added, hadded, -⟩ := hgrows.journalEvents
  refine ⟨⟨h.returned.session, h.returned.row, ?_⟩, h.observed.grows hsidecar⟩
  rw [hadded]
  exact List.mem_append_left _ h.returned.stored

/-- The fields of a returned event are those of its row. -/
theorem Returned.data_eq {db : Database} {eventType : EventType} {request : CaptureRequest}
    {event : EventEnvelope} (h : Returned request eventType event db) :
    event.row.data request.sessionKey = event.toEventData := by
  rw [← h.session]
  rfl

/-- A stored row with the tuple or the event id of a returned event is its row. -/
theorem Returned.row_eq {db : Database} {eventType : EventType} {request : CaptureRequest}
    {event : EventEnvelope} (h : Returned request eventType event db) {row : EventRow}
    (hrow : row ∈ db.journalEvents)
    (hreuses : (row.sessionKeyHash = request.sessionKey.sessionKeyHash ∧
        row.sourceHook = eventType.mapping.2 ∧ row.idempotencyKey = request.idempotencyKey) ∨
      row.eventId = request.eventId) : row = event.row := by
  rcases hreuses with ⟨hsession, hhook, hkey⟩ | hid
  · refine db.consistent.journalEvents.idempotency.eq_of_key hrow h.stored ?_
    simp only [h.row, CaptureRequest.eventRow, hsession, hhook, hkey]
  · refine db.consistent.journalEvents.primaryKey.eq_of_key hrow h.stored ?_
    rw [h.row]
    exact hid

/-- The stored row of a returned event is found under its tuple. -/
theorem Returned.find_eq {db : Database} {eventType : EventType} {request : CaptureRequest}
    {event : EventEnvelope} (h : Returned request eventType event db) :
    findIdempotentEvent db request.sessionKey eventType.mapping.2 request.idempotencyKey =
      .ok (some event) := by
  have hfound : (db.journalEvents.find? fun row =>
      decide (row.sessionKeyHash = request.sessionKey.sessionKeyHash) &&
        decide (row.sourceHook = eventType.mapping.2) &&
        decide (row.idempotencyKey = request.idempotencyKey)) = some event.row := by
    cases hsearch : db.journalEvents.find? _ with
    | none =>
        have hnone := List.find?_eq_none.mp hsearch event.row h.stored
        simp [h.row, CaptureRequest.eventRow] at hnone
    | some row =>
        have hselected := List.find?_some hsearch
        simp only [Bool.and_eq_true, decide_eq_true_eq] at hselected
        rw [h.row_eq (List.mem_of_find?_eq_some hsearch)
          (.inl ⟨hselected.1.1, hselected.1.2, hselected.2⟩)]
  have hhash : event.row.sessionKeyHash = request.sessionKey.sessionKeyHash := by
    rw [h.row]
    rfl
  have hread : eventFromRow request.sessionKey event.row = .ok event := by
    refine bind_ok.mpr ⟨(), require_ok.mpr hhash, ?_⟩
    rw [h.data_eq]
    simp [EventEnvelope.modelValidate, event.valid]
  unfold findIdempotentEvent
  rw [hfound]
  exact bind_ok.mpr ⟨event, hread, rfl⟩

/-- A returned event is an exact replay of what its request asks for. -/
theorem Returned.isExactReplay {db : Database} {eventType : EventType} {request : CaptureRequest}
    {event requested : EventEnvelope} (h : Returned request eventType event db)
    (hrequested : request.create eventType 1 = .ok requested) :
    AstrContinuum.isExactReplay event requested := by
  have hdata := EventEnvelope.modelValidate_ok hrequested
  have hevent := h.data_eq
  rw [h.row] at hevent
  unfold AstrContinuum.isExactReplay
  rw [hdata, ← hevent]
  rfl

/-- The request of a returned event forms an envelope at the first sequence. -/
theorem CaptureRequest.create_first {request : CaptureRequest} {eventType : EventType}
    {event : EventEnvelope} {db : Database} (h : Returned request eventType event db) :
    ∃ requested, request.create eventType 1 = .ok requested := by
  obtain ⟨hid, -, hkey, hmapping⟩ := event.valid
  have hevent := h.data_eq
  rw [h.row] at hevent
  rw [← hevent] at hid hkey
  unfold CaptureRequest.create EventEnvelope.modelValidate
  exact ⟨_, dif_pos ⟨hid, le_rfl, hkey, rfl⟩⟩

variable [SecureCodec]

omit [Hashlib] in
/-- An observation that the sidecar holds can be recorded again. -/
theorem Observed.record {db : Database} {request : CaptureRequest} (h : Observed db request)
    {hash : String} (hsession : hash ∈ db.sessionKeys) (createdAt : Timestamp) :
    ∃ db', recordCanonicalObservation db hash request.eventId request.canonical createdAt =
      .ok db' := by
  obtain ⟨hid, hcheck, hcount⟩ := h
  unfold recordCanonicalObservation
  have hartifact : requireArtifactId request.eventId = .ok ⟨hid⟩ := dif_pos hid
  rw [hartifact]
  cases hcanonical : request.canonical.tokenCount with
  | some count =>
      obtain ⟨row, hrow, hkey, hsame⟩ := hcount count (by simp [hcanonical])
      have hfound : db.metricRow ⟨.event, request.eventId,
          request.canonical.tokenizerProfileId⟩ = some row :=
        db.consistent.tokenMetrics.primaryKey.find_eq_some.mpr ⟨hrow, hkey⟩
      refine ⟨_, bind_ok.mpr ⟨_, rfl, bind_ok.mpr ⟨db, ?_,
        Database.execute_of_consistent (Database.consistent_filterBackfill _)⟩⟩⟩
      simp [putInTransaction, hfound, hsame, require, bind, Except.bind, pure, Except.pure]
  | none =>
      simp only [bind, Except.bind]
      split
      · exact ⟨db, rfl⟩
      · next hnew =>
          simp only [Bool.or_eq_true, not_or, Bool.not_eq_true, List.any_eq_false,
            decide_eq_true_eq] at hnew
          exact ⟨_, Database.execute_of_consistent
            (Database.consistent_addBackfill hcheck hnew.2 hsession)⟩

/-- The stored session of a returned event opens again. -/
theorem ensureSession_again {db : Database} (hsound : Sound db) {session : SessionRow}
    {sessionKey : SessionKey} (hsession : session ∈ db.sessions)
    (hkey : session.sessionKey = sessionKey) (timestamp : Timestamp) :
    ensureSession db sessionKey timestamp = .ok db := by
  have hhash := hsound.journal.hash session hsession
  rw [hkey] at hhash
  have hrow := Database.sessionRow_eq_some.mpr ⟨hsession, hhash.symm⟩
  unfold ensureSession
  simp only [hrow]
  refine bind_ok.mpr ⟨sessionKey, sessionKeyFromStorage_ok.mpr ⟨hkey, hhash⟩, ?_⟩
  exact bind_ok.mpr ⟨(), require_ok.mpr rfl, rfl⟩

/-- The replay of a captured request commits, returns the captured event and leaves the journal and
the sequence counters alone. -/
theorem replay_returns {db : Database} (hsound : Sound db) {eventType : EventType}
    {request : CaptureRequest} {event : EventEnvelope}
    (h : Captured db eventType request event)
    (hsession : ∃ session ∈ db.sessions, session.sessionKey = request.sessionKey) :
    ∃ db', captureEvent .none db eventType request = .ok (db', event) ∧
      db'.journalEvents = db.journalEvents ∧ db'.sessions = db.sessions := by
  obtain ⟨session, hstored, hkey⟩ := hsession
  obtain ⟨requested, hrequested⟩ := CaptureRequest.create_first h.returned
  have hhash := hsound.journal.hash session hstored
  rw [hkey] at hhash
  have hmem : request.sessionKey.sessionKeyHash ∈ db.sessionKeys := by
    rw [hhash]
    exact List.mem_map_of_mem hstored
  obtain ⟨db', hrecord⟩ := h.observed.record hmem request.createdAt
  have hholds := recordCanonicalObservation_holds hrecord
  have hid : event.eventId = request.eventId := congrArg EventRow.eventId h.returned.row
  have hhook : requested.sourceHook = eventType.mapping.2 := by
    rw [EventEnvelope.modelValidate_ok hrequested]
  refine ⟨db', ?_, hholds.journalEvents, hholds.sessions⟩
  refine bind_ok.mpr ⟨requested, hrequested, ?_⟩
  refine bind_ok.mpr ⟨db, ensureSession_again hsound hstored hkey _, ?_⟩
  refine bind_ok.mpr ⟨(), rfl, ?_⟩
  refine bind_ok.mpr ⟨some event, by rw [hhook]; exact h.returned.find_eq, ?_⟩
  refine bind_ok.mpr ⟨(), require_ok.mpr (h.returned.isExactReplay hrequested), ?_⟩
  exact bind_ok.mpr ⟨db', by rw [hid]; exact hrecord, rfl⟩

end Replays

section Runs

variable [Hashlib] [SecureCodec]

/-- A capture whose operation has committed before returns what `_capture_event` returns. -/
theorem step_capture_again {db old old' db' : Database} {operation : Operation}
    {faults : FaultInjector} {response : Response} {eventType : EventType}
    {request : CaptureRequest} {event : EventEnvelope}
    (hcapture : operation.captureOf = some (eventType, request))
    (hbefore : step old ⟨operation, faults⟩ = .ok (old', response))
    (h : captureEvent .none db eventType request = .ok (db', event)) :
    step db ⟨operation, .none⟩ = .ok (db', .event event) := by
  cases operation with
  | captureUserEvent request | captureAssistantEvent request =>
      obtain ⟨rfl, rfl⟩ := Prod.mk.inj (Option.some.inj hcapture)
      exact map_ok.mpr ⟨_, h, rfl⟩
  | captureToolEvent eventType request =>
      obtain ⟨rfl, rfl⟩ := Prod.mk.inj (Option.some.inj hcapture)
      obtain ⟨_, hresult, -⟩ := map_ok.mp hbefore
      obtain ⟨_, htool, -⟩ := bind_ok.mp hresult
      exact map_ok.mpr ⟨_, bind_ok.mpr ⟨(), require_ok.mpr (require_ok.mp htool), h⟩, rfl⟩
  | _ => cases hcapture

/-- What every committed capture of a history has left behind: its event is still captured, its
session is still stored, and its operation passes its own argument checks. -/
def CapturesHeld (history : List (Entry Call Response StorageFailure)) (db : Database) : Prop :=
  ∀ entry ∈ history, ∀ eventType request event,
    entry.call.operation.captureOf = some (eventType, request) →
    entry.result = .ok (.event event) →
    Captured db eventType request event ∧
      (∃ session ∈ db.sessions, session.sessionKey = request.sessionKey) ∧
      ∃ old old' response,
        step old ⟨entry.call.operation, entry.call.faults⟩ = .ok (old', response)

/-- A committed call keeps what earlier captures have left behind. -/
theorem CapturesHeld.grows {history : List (Entry Call Response StorageFailure)}
    {db db' : Database} (h : CapturesHeld history db) (hgrows : Grows db db')
    (hsidecar : SidecarGrows db db') : CapturesHeld history db' := by
  intro entry hentry eventType request event hcapture hresult
  obtain ⟨hcaptured, ⟨session, hsession, hkey⟩, hbefore⟩ :=
    h entry hentry eventType request event hcapture hresult
  obtain ⟨session', hsession', -, hkey', -⟩ := hgrows.sessions session hsession
  exact ⟨hcaptured.grows hgrows hsidecar, ⟨session', hsession', hkey'.trans hkey⟩, hbefore⟩

omit [SecureCodec] in
/-- The session of a committed capture is stored under its key. -/
theorem CaptureEffect.session_stored {db db' : Database} {sessionKey : SessionKey}
    {event : EventEnvelope} (h : CaptureEffect db sessionKey event db') :
    ∃ session ∈ db'.sessions, session.sessionKey = sessionKey := by
  have hopened : ∀ {sessions : List SessionRow}, Opened db sessionKey sessions →
      ∃ session ∈ sessions, session.sessionKey = sessionKey := by
    intro sessions hopen
    cases hopen with
    | existing hmem _ hkey => exact ⟨_, hmem, hkey⟩
    | created timestamp _ =>
        exact ⟨_, List.mem_append_right _ (List.mem_singleton.mpr rfl), rfl⟩
  cases h with
  | replayed hopen hold =>
      rw [hold.sessions]
      exact hopened hopen
  | @appended sessions row _ now hopen _ _ _ _ hold =>
      obtain ⟨session, hsession, hkey⟩ := hopened hopen
      rw [hold.sessions]
      by_cases hselected : session.sessionKeyHash = sessionKey.sessionKeyHash ∧
          session.nextEventSequence = row.nextEventSequence
      · exact ⟨session.allocate now,
          mem_update.mpr (.inl ⟨session, hsession, by simpa using hselected, rfl⟩), hkey⟩
      · exact ⟨session, mem_update.mpr (.inr ⟨hsession, by simpa using hselected⟩), hkey⟩

/-- Every capture of a run has left its event behind. -/
theorem capturesHeld_of_run {history : List (Entry Call Response StorageFailure)} {db : Database}
    (h : repository.Run history db) : CapturesHeld history db := by
  refine System.Run.invariant repository (P := CapturesHeld) ?_ ?_ h
  · intro entry hentry
    cases hentry
  · intro history db call hrun ih
    have hsound := sound_of_reachable ⟨history, hrun⟩
    rcases repository.next_cases db call with
      ⟨db', response, hok, hnext, hresult⟩ | ⟨failure, -, hnext, hresult⟩
    · have heffect := hsound.effect hok
      rw [hnext]
      have hheld := ih.grows heffect.grows (step_sidecar hsound hok)
      intro entry hentry eventType request event hcapture hevent
      rcases List.mem_cons.mp hentry with rfl | hentry
      · -- The new capture: its event is the one it has just returned.
        rw [hresult] at hevent
        obtain ⟨event', hevent', hcommitted⟩ := step_capture hcapture hok
        obtain rfl : event' = event := by
          rw [hevent'] at hevent
          exact Response.event.inj (Except.ok.inj hevent)
        obtain ⟨hreturned, -, hobserved⟩ := captureEvent_returned hcommitted
        exact ⟨⟨hreturned, hobserved⟩, (captureEvent_effect hcommitted).session_stored,
          db, db', response, hok⟩
      · exact hheld entry hentry eventType request event hcapture hevent
    · rw [hnext]
      intro entry hentry eventType request event hcapture hevent
      rcases List.mem_cons.mp hentry with rfl | hentry
      · rw [hresult] at hevent
        cases hevent
      · exact ih entry hentry eventType request event hcapture hevent

/-- No call changes a stored event. -/
theorem journalEvents_prefix {db : Database} (h : repository.Reachable db) (calls : List Call) :
    db.journalEvents <+: (calls.foldl repository.next db).journalEvents := by
  refine (System.Reachable.foldl repository (P := fun _ => True)
    (R := fun db db' : Database => db.journalEvents <+: db'.journalEvents)
    (fun _ => List.prefix_refl _) (fun _ _ _ => List.IsPrefix.trans) ?_ h fun _ _ => trivial).2
  intro db call db' response h _ hok
  obtain ⟨added, hadded, -⟩ := ((sound_of_reachable h).effect hok).grows.journalEvents
  rw [hadded]
  exact List.prefix_append _ _

/-- A stored event has the session, the source hook and the idempotency key of a request, or its
event id. -/
def EventRow.Reuses (row : EventRow) (eventType : EventType) (request : CaptureRequest) : Prop :=
  (row.sessionKeyHash = request.sessionKey.sessionKeyHash ∧
      row.sourceHook = eventType.mapping.2 ∧ row.idempotencyKey = request.idempotencyKey) ∨
    row.eventId = request.eventId

/-- A capture that reuses a stored tuple or event id with other data raises. -/
theorem capture_conflict_raises {db : Database} (hsound : Sound db) {call : Call}
    {eventType : EventType} {request : CaptureRequest} {row : EventRow}
    (hcapture : call.operation.captureOf = some (eventType, request))
    (hrow : row ∈ db.journalEvents) (hreuses : row.Reuses eventType request)
    (hother : row ≠ request.eventRow eventType row.sequence) :
    ∃ failure, step db call = .error failure := by
  cases hstep : step db call with
  | error failure => exact ⟨failure, rfl⟩
  | ok result =>
      obtain ⟨event, -, hcommitted⟩ := step_capture hcapture hstep
      have hreturned := (captureEvent_returned hcommitted).1
      obtain ⟨added, hadded, -⟩ := (hsound.effect hstep).grows.journalEvents
      have hsame := hreturned.row_eq (by rw [hadded]; exact List.mem_append_left _ hrow) hreuses
      exact absurd (by rw [hsame]; exact hreturned.row) hother

/-- The journal after a run. -/
structure JournalOnce (history : List (Entry Call Response StorageFailure)) (db : Database) :
    Prop where
  /-- The sequences of a session are `1 .. next_event_sequence - 1`, in order. -/
  sequences : ∀ session ∈ db.sessions,
    (db.journal session.sessionKeyHash).map EventRow.sequence =
      List.range' 1 (session.nextEventSequence - 1)
  /-- Stored events never change, whatever is called next. -/
  stored : ∀ calls : List Call,
    db.journalEvents <+: (calls.foldl repository.next db).journalEvents
  /-- No two events share their session, source hook and idempotency key. -/
  unique : ∀ row ∈ db.journalEvents, ∀ row' ∈ db.journalEvents,
    row.sessionKeyHash = row'.sessionKeyHash → row.sourceHook = row'.sourceHook →
    row.idempotencyKey = row'.idempotencyKey → row = row'
  /-- A capture that has committed has one row, returned the same event each time, and will return
  it again. -/
  replays : ∀ entry ∈ history, ∀ eventType request event,
    entry.call.operation.captureOf = some (eventType, request) →
    entry.result = .ok (.event event) →
    (db.journalEvents.filter fun row =>
        decide (row.sessionKeyHash = request.sessionKey.sessionKeyHash) &&
          decide (row.sourceHook = eventType.mapping.2) &&
          decide (row.idempotencyKey = request.idempotencyKey)) = [event.row] ∧
      (∀ entry' ∈ history, ∀ event', entry'.call.operation = entry.call.operation →
        entry'.result = .ok (.event event') → event' = event) ∧
      ∃ db', step db ⟨entry.call.operation, .none⟩ = .ok (db', .event event) ∧
        db'.journalEvents = db.journalEvents ∧ db'.sessions = db.sessions
  /-- A capture that reuses a stored tuple or event id with other data raises and changes
  nothing. -/
  conflicts : ∀ call eventType request, call.operation.captureOf = some (eventType, request) →
    ∀ row ∈ db.journalEvents, row.Reuses eventType request →
    row ≠ request.eventRow eventType row.sequence →
    (∃ failure, step db call = .error failure) ∧ repository.next db call = db

omit [SecureCodec] in
/-- Two captures of the same tuple have returned the same event. -/
theorem Captured.event_eq {db : Database} {eventType : EventType} {request : CaptureRequest}
    {event event' : EventEnvelope} (h : Captured db eventType request event)
    (h' : Captured db eventType request event') : event' = event := by
  have hreuses : event'.row.Reuses eventType request :=
    .inr (congrArg EventRow.eventId h'.returned.row)
  have hrow := h.returned.row_eq h'.returned.stored hreuses
  have hdata : event'.toEventData = event.toEventData := by
    rw [← h'.returned.data_eq, ← h.returned.data_eq, hrow]
  cases event
  cases event'
  cases hdata
  rfl

/-- In every run, for any interleaving of captures with replays, conflicts and injected faults, the
journal stores every captured event once. -/
theorem journal_exactly_once {history : List (Entry Call Response StorageFailure)} {db : Database}
    (h : repository.Run history db) : JournalOnce history db := by
  have hreachable : repository.Reachable db := ⟨history, h⟩
  have hsound := sound_of_reachable hreachable
  have hheld := capturesHeld_of_run h
  constructor
  · exact hsound.journal.sequences
  · exact journalEvents_prefix hreachable
  · intro row hrow row' hrow' hsession hhook hkey
    refine db.consistent.journalEvents.idempotency.eq_of_key hrow hrow' ?_
    simp only [hsession, hhook, hkey]
  · intro entry hentry eventType request event hcapture hresult
    obtain ⟨hcaptured, hsession, old, old', response, hbefore⟩ :=
      hheld entry hentry eventType request event hcapture hresult
    refine ⟨?_, ?_, ?_⟩
    · have hkey := db.consistent.journalEvents.idempotency.filter_eq hcaptured.returned.stored
      rw [← hkey]
      refine List.filter_congr fun row _ => ?_
      rw [hcaptured.returned.row, Bool.eq_iff_iff]
      simp [CaptureRequest.eventRow, and_assoc]
    · intro entry' hentry' event' hsame hresult'
      obtain ⟨hcaptured', -⟩ := hheld entry' hentry' eventType request event'
        (by rw [hsame]; exact hcapture) hresult'
      exact hcaptured.event_eq hcaptured'
    · obtain ⟨db', hreplay, hjournal, hsessions⟩ := replay_returns hsound hcaptured hsession
      exact ⟨db', step_capture_again hcapture hbefore hreplay, hjournal, hsessions⟩
  · intro call eventType request hcapture row hrow hreuses hother
    obtain ⟨failure, hraises⟩ := capture_conflict_raises hsound hcapture hrow hreuses hother
    exact ⟨⟨failure, hraises⟩, repository.next_of_error hraises⟩

end Runs

namespace Sample

/-- An event is captured and replayed, the next capture is aborted after its insert, repeated, and
repeated once more under the event id of the first. -/
def captures : List Call :=
  [message "e1", message "e1",
    { operation := (message "e2").operation
      faults := fun boundary _ => decide (boundary = .captureAfterInsert) },
    message "e2",
    { operation := .captureAssistantEvent
        { eventId := "e1"
          sessionKey := session
          content := "other"
          idempotencyKey := "e3"
          tokenCount := 1
          canonical := ⟨"profile", none, stripNonEmpty_profile⟩
          createdAt := 1 } }]

end Sample

open Sample in
/-- Two events are stored after the sample captures, each once. -/
theorem journal_exactly_once_sample :
    ((repository.trace captures).2.journalEvents.map fun row => (row.eventId, row.sequence)) =
        [("e1", 1), ("e2", 2)] ∧
      JournalOnce (repository.trace captures).1 (repository.trace captures).2 :=
  ⟨by decide +kernel, journal_exactly_once (repository.run_trace captures)⟩

end AstrContinuum
