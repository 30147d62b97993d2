import AstrContinuum.Adapters.Hooks
import AstrContinuum.Compaction.SegmentCuts
import AstrContinuum.Guarantees.Views
import AstrContinuum.Invariants.Sidecar
import AstrContinuum.Invariants.Windows

/-!
# Compaction cuts the journal at stable points

The finalizer raises an intent only for an assistant event that it has captured, and only after it
has read a stable tool loop. `HostSound` carries this through every interleaving of callbacks and
other clients: each target and each coverage is a `Cut`, a place where the tool loop of the whole
journal is stable. So the delta of a claimed job is stable, whatever the journal holds around it.
-/

namespace AstrContinuum

open Checked Relational Transactional

section Cuts

variable [Hashlib] [UnicodeTables] [JsonReader]

/-! ## Cuts -/

/-- An assistant event stands at the mark, or the journal starts there. -/
def AssistantAt (db : Database) (hash : String) (mark : Nat) : Prop :=
  mark = 0 ∨ ∃ row ∈ db.journalEvents, row.sessionKeyHash = hash ∧ row.sequence = mark ∧
    row.eventType = .assistantMessage

/-- The journal of a session can be cut at a mark. -/
structure Cut (db : Database) (hash : String) (mark : Nat) : Prop where
  within : mark ≤ db.highWaterMark hash
  position : AssistantAt db hash mark
  stable : ∀ session ∈ db.sessions, session.sessionKeyHash = hash →
    (evaluateToolLoop (db.window session.sessionKey 0 mark)).state = .stable

omit [UnicodeTables] [JsonReader] in
/-- An empty window. -/
theorem window_self (db : Database) (sessionKey : SessionKey) (mark : Nat) :
    db.window sessionKey mark mark = [] := by
  have hrows := (eventsBetween_window db sessionKey mark mark).2
  have hnone : db.eventRowsBetween sessionKey.sessionKeyHash mark mark = [] := by
    refine List.eq_nil_iff_forall_not_mem.mpr fun row hrow => ?_
    have hselected := (List.mem_filter.mp (mem_orderBy.mp hrow)).2
    simp only [Bool.and_eq_true, decide_eq_true_eq] at hselected
    omega
  rw [hnone] at hrows
  exact List.map_eq_nil_iff.mp hrows

/-- Every journal can be cut at its start. -/
theorem cut_zero (db : Database) (hash : String) : Cut db hash 0 where
  within := Nat.zero_le _
  position := .inl rfl
  stable := by
    intro session _ _
    rw [window_self]
    rfl

/-- A cut stays a cut while the journal grows. -/
theorem Cut.grows {db db' : Database} {hash : String} {mark : Nat} (h : Cut db hash mark)
    (hgrows : Grows db db') (hsound : JournalSound db) : Cut db' hash mark where
  within := h.within.trans (hgrows.highWaterMark_le hash)
  position := by
    rcases h.position with hzero | ⟨row, hrow, hat⟩
    · exact .inl hzero
    · obtain ⟨added, hadded, -⟩ := hgrows.journalEvents
      exact .inr ⟨row, by rw [hadded]; exact List.mem_append_left _ hrow, hat⟩
  stable := by
    intro session hsession hhash
    cases hrow : db.sessionRow hash with
    | none =>
        -- the session is new, so the mark is the start of its journal
        have hwithin := h.within
        rw [Database.highWaterMark_eq_zero (find_eq_none.mp hrow)] at hwithin
        obtain rfl : mark = 0 := by omega
        exact (cut_zero db' hash).stable session hsession hhash
    | some old =>
        obtain ⟨hold, holdHash⟩ := Database.sessionRow_eq_some.mp hrow
        obtain ⟨next, hnext, hnextHash, hkey, -⟩ := hgrows.sessions old hold
        obtain rfl : session = next := db'.consistent.sessions.primaryKey.eq_of_key hsession hnext
          (hhash.trans (hnextHash.trans holdHash).symm)
        have hwithin := h.within
        rw [← holdHash, ← hsound.hash old hold] at hwithin
        rw [hkey, hgrows.window_eq hwithin]
        exact h.stable old hold holdHash

/-- Between two cuts the tool loop is stable. -/
theorem Cut.between {db : Database} {hash : String} {start stop : Nat} (hstart : Cut db hash start)
    (hstop : Cut db hash stop) (hle : start ≤ stop) (hsound : JournalSound db)
    {session : SessionRow} (hsession : session ∈ db.sessions)
    (hhash : session.sessionKeyHash = hash) :
    (evaluateToolLoop (db.window session.sessionKey start stop)).state = .stable := by
  have hcontiguous : Contiguous (db.window session.sessionKey 0 stop) :=
    window_contiguous hsound hsession (hhash ▸ hstop.within)
  have hwhole := hstop.stable session hsession hhash
  rw [window_append hsound hsession (Nat.zero_le start) hle] at hcontiguous hwhole
  rwa [evaluateToolLoop_append_of_stable hcontiguous
    (hstart.stable session hsession hhash)] at hwhole

omit [UnicodeTables] [JsonReader] in
/-- The window up to a stored event ends with it. -/
theorem window_getLast {db : Database} (hsound : JournalSound db) {session : SessionRow}
    (hsession : session ∈ db.sessions) {row : EventRow} (hrow : row ∈ db.journalEvents)
    (hsame : row.sessionKeyHash = session.sessionKeyHash) :
    row.sequence ≤ db.highWaterMark session.sessionKeyHash ∧
      ∃ event, (db.window session.sessionKey 0 row.sequence).getLast? = some event ∧
        event.row = row := by
  have hjournal : row ∈ db.journal session.sessionKeyHash :=
    List.mem_filter.mpr ⟨hrow, by simpa using hsame⟩
  have hrange : row.sequence ∈ List.range' 1 (db.highWaterMark session.sessionKeyHash) := by
    rw [Database.highWaterMark_of_mem hsession, ← hsound.sequences session hsession]
    exact List.mem_map_of_mem hjournal
  rw [List.mem_range'_1] at hrange
  have hle : row.sequence ≤ db.highWaterMark session.sessionKeyHash := by omega
  have hsequences : ((db.window session.sessionKey 0 row.sequence).map
      fun event => event.sequence) = deltaSequences 0 row.sequence :=
    window_sequences hsound hsession hle
  have hend := congrArg List.getLast? hsequences
  rw [List.getLast?_map, deltaSequences, Nat.sub_zero, List.getLast?_range',
    if_neg (by omega)] at hend
  obtain ⟨event, hevent, hat⟩ := Option.map_eq_some_iff.mp hend
  refine ⟨hle, event, hevent, ?_⟩
  have hmem : event.row ∈
      db.eventRowsBetween session.sessionKey.sessionKeyHash 0 row.sequence := by
    rw [← (eventsBetween_window db session.sessionKey 0 row.sequence).2]
    exact List.mem_map_of_mem (List.mem_of_mem_getLast? hevent)
  obtain ⟨hstored, hselected⟩ := List.mem_filter.mp (mem_orderBy.mp hmem)
  simp only [Bool.and_eq_true, decide_eq_true_eq] at hselected
  -- sequences are unique in a session
  refine db.consistent.journalEvents.sequence.eq_of_key hstored hrow (Prod.ext ?_ ?_)
  · exact hselected.1.1.trans ((hsound.hash session hsession).trans hsame.symm)
  · show event.sequence = row.sequence
    omega

/-- A stable delta after a cut makes every assistant event before its end a cut. -/
theorem Cut.of_stable_delta {db : Database} {coverage : Nat} (hsound : JournalSound db)
    {session : SessionRow} (hsession : session ∈ db.sessions)
    (hcoverage : Cut db session.sessionKeyHash coverage)
    (hdelta : (evaluateToolLoop (db.window session.sessionKey coverage
      (db.highWaterMark session.sessionKeyHash))).state = .stable)
    {row : EventRow} (hrow : row ∈ db.journalEvents)
    (hsame : row.sessionKeyHash = session.sessionKeyHash)
    (htype : row.eventType = .assistantMessage) : Cut db session.sessionKeyHash row.sequence := by
  obtain ⟨hle, event, hevent, heventRow⟩ := window_getLast hsound hsession hrow hsame
  refine ⟨hle, .inr ⟨row, hrow, hsame, rfl, htype⟩, fun other hother hhash => ?_⟩
  obtain rfl := db.consistent.sessions.primaryKey.eq_of_key hother hsession hhash
  -- the whole journal is stable, since it is the part up to the cut and the stable delta
  have hcontiguous : Contiguous
      (db.window other.sessionKey 0 (db.highWaterMark other.sessionKeyHash)) :=
    window_contiguous hsound hother le_rfl
  have hwhole : (evaluateToolLoop
      (db.window other.sessionKey 0 (db.highWaterMark other.sessionKeyHash))).state = .stable := by
    have hjoined := hcontiguous
    rw [window_append hsound hother (Nat.zero_le coverage) hcoverage.within] at hjoined ⊢
    rw [evaluateToolLoop_append_of_stable hjoined (hcoverage.stable other hother rfl)]
    exact hdelta
  -- so its prefix up to an assistant event is stable too
  rw [window_append hsound hother (Nat.zero_le row.sequence) hle] at hcontiguous hwhole
  refine evaluateToolLoop_prefix_stable hcontiguous (by simp [hwhole]) hevent ?_
  exact (congrArg EventRow.eventType heventRow).trans htype

/-! ## What a read shows -/

omit [UnicodeTables] [JsonReader] in
/-- The delta of a request view is the window after the coverage of its own session. -/
theorem readRequestView_window {db : Database} (hsound : Sound db) (hread : ReadSound db)
    {faults : FaultInjector} {sessionKey : SessionKey} {view : RequestView}
    (h : readRequestView faults db sessionKey = .ok view) :
    view.delta = db.window sessionKey (db.coverage sessionKey.sessionKeyHash)
        (db.highWaterMark sessionKey.sessionKeyHash) ∧
      ∀ session ∈ db.sessions, session.sessionKeyHash = sessionKey.sessionKeyHash →
        session.sessionKey = sessionKey := by
  unfold readRequestView at h
  cases hrow : db.sessionRow sessionKey.sessionKeyHash with
  | none =>
      simp only [hrow, Except.ok.injEq] at h
      subst h
      have hmark := Database.highWaterMark_eq_zero (find_eq_none.mp hrow)
      have hle := hsound.coverage_le sessionKey.sessionKeyHash
      rw [hmark] at hle ⊢
      rw [Nat.le_zero.mp hle, window_self]
      exact ⟨rfl, fun session hsession hhash => absurd hhash (find_eq_none.mp hrow session hsession)⟩
  | some session =>
      obtain ⟨hsession, hhash⟩ := Database.sessionRow_eq_some.mp hrow
      simp only [hrow] at h
      obtain ⟨stored, hstored, h⟩ := bind_ok.mp h
      obtain ⟨_, hkey, h⟩ := bind_ok.mp h
      obtain rfl := require_ok.mp hkey
      obtain ⟨_, -, h⟩ := bind_ok.mp h
      obtain ⟨_, -, h⟩ := bind_ok.mp h
      obtain ⟨active, hactive, h⟩ := bind_ok.mp h
      obtain ⟨_, -, h⟩ := bind_ok.mp h
      obtain ⟨delta, hdelta, h⟩ := bind_ok.mp h
      obtain ⟨_, -, h⟩ := bind_ok.mp h
      obtain rfl := pure_ok.mp h
      obtain ⟨rfl, -⟩ := sessionKeyFromStorage_ok.mp hstored
      obtain ⟨read, hread, hcovered⟩ := readActiveSnapshot_total hsound hread hsession
      obtain rfl : read = active := Except.ok.inj (hread.symm.trans hactive)
      have hmark := Database.highWaterMark_of_mem hsession
      rw [hhash] at hmark hcovered
      rw [hmark, ← hcovered]
      refine ⟨(window_eq hdelta).symm, fun other hother hsame => ?_⟩
      rw [db.consistent.sessions.primaryKey.eq_of_key hother hsession (hsame.trans hhash.symm)]

omit [UnicodeTables] [JsonReader] in
/-- Every coverage of a marked database is marked. -/
theorem Marked.coverage {P : String → Nat → Prop} {db : Database} (h : Marked P db)
    (hsound : Sound db) (hzero : ∀ hash, P hash 0) (hash : String) : P hash (db.coverage hash) := by
  rw [hsound.chain.coverage_eq]
  cases hlast : (db.chain hash).getLast? with
  | none => exact hzero hash
  | some row =>
      obtain ⟨hrow, hsame⟩ := List.mem_filter.mp (List.mem_of_mem_getLast? hlast)
      exact of_decide_eq_true hsame ▸ h.snapshots row hrow

/-! ## Callbacks -/

omit [Hashlib] in
/-- What a callback that goes on keeps: the turn of its request, and the assistant event unless it
has just captured one. It raises an intent only for that event, and only after a stable read. -/
theorem HookPoint.resume_cases (request : RequestState) (response : Response) (point : HookPoint) :
    (point.resume request response).1.turn = request.turn ∧
      ((point.resume request response).1.assistantEvent = request.assistantEvent ∨
        ∃ content event, point = .finalizeCapture content ∧ response = .event event ∧
          (point.resume request response).1.assistantEvent = some event) ∧
      ∀ target, (point.resume request response).2 = some (.intentRaise target) →
        point = .intentRead ∧ response.toolLoop = some .stable ∧
          ∃ event, request.assistantEvent = some event ∧ event.sequence = target := by
  cases point with
  | prepareRead input =>
      simp only [HookPoint.resume]
      split <;> exact ⟨rfl, .inl rfl, by simp⟩
  | finalizeRead content =>
      simp only [HookPoint.resume]
      split <;> exact ⟨rfl, .inl rfl, by simp⟩
  | finalizeCapture content =>
      cases response with
      | event event =>
          refine ⟨rfl, .inr ⟨content, event, rfl, rfl, rfl⟩, fun target htarget => ?_⟩
          simp only [HookPoint.resume, RequestState.intentPoint] at htarget
          split at htarget <;> simp at htarget
      | _ => exact ⟨rfl, .inl rfl, by simp [HookPoint.resume]⟩
  | intentRead =>
      cases hevent : request.assistantEvent with
      | none =>
          have hresume : HookPoint.intentRead.resume request response = (request, none) := by
            simp [HookPoint.resume, hevent]
          rw [hresume]
          exact ⟨rfl, .inl hevent, by simp⟩
      | some event =>
          by_cases hstable : response.toolLoop = some .stable ∧ 1 ≤ event.sequence
          · have hresume : HookPoint.intentRead.resume request response =
                (request, some (.intentRaise event.sequence)) := by
              simp [HookPoint.resume, hevent, hstable]
            rw [hresume]
            refine ⟨rfl, .inl hevent, fun target htarget => ?_⟩
            obtain rfl := HookPoint.intentRaise.inj (Option.some.inj htarget)
            exact ⟨rfl, hstable.1, event, rfl, rfl⟩
          · have hresume : HookPoint.intentRead.resume request response = (request, none) := by
              simp [HookPoint.resume, hevent, hstable]
            rw [hresume]
            exact ⟨rfl, .inl hevent, by simp⟩
  | prepareCapture input | prepareView | toolCall ordinal metadata | toolResult ordinal metadata
  | intentRaise target => exact ⟨rfl, .inl rfl, by simp [HookPoint.resume]⟩

variable [SecureCodec]

/-- What every interleaving keeps. -/
structure HostSound (state : HostState) : Prop where
  reachable : repository.Reachable state.db
  marked : Marked (Cut state.db) state.db
  captured : ∀ (index : Nat) (request : RequestState), state.requests[index]? = some request →
    ∀ event ∈ request.assistantEvent, event.row ∈ state.db.journalEvents ∧
      event.sessionKey = request.turn.sessionKey ∧ event.eventType = .assistantMessage
  intents : ∀ activity ∈ state.activities, ∀ target, activity.point = .intentRaise target →
    ∃ request : RequestState, state.requests[activity.request]? = some request ∧
      Cut state.db request.turn.sessionKey.sessionKeyHash target

/-- The host starts on an empty database. -/
theorem hostSound_start : HostSound {} where
  reachable := repository.reachable_initial
  marked := ⟨fun _ hrow => (nomatch hrow), fun _ hrow => (nomatch hrow)⟩
  captured := by simp
  intents := by simp

/-- A call keeps the cuts of the database, if it raises intents only at cuts. -/
theorem Marked.next {db : Database} (hreachable : repository.Reachable db)
    (h : Marked (Cut db) db) {call : Call}
    (hraise : ∀ jobId sessionKey target now,
      call.operation = .raiseCompactionIntent jobId sessionKey target now →
        Cut db sessionKey.sessionKeyHash target) :
    Grows db (repository.next db call) ∧
      Marked (Cut (repository.next db call)) (repository.next db call) := by
  have hsound := sound_of_reachable hreachable
  rcases repository.next_cases db call with ⟨db', response, hok, hnext, -⟩ | ⟨-, -, hnext, -⟩
  · have heffect := hsound.effect hok
    have hgrows := heffect.grows
    obtain ⟨hjobs, hsnapshots⟩ := heffect.marked h hraise
    rw [hnext]
    refine ⟨hgrows, fun row hrow => ?_, fun row hrow => ?_⟩
    · exact ⟨(hjobs row hrow).1.grows hgrows hsound.journal,
        (hjobs row hrow).2.grows hgrows hsound.journal⟩
    · exact (hsnapshots row hrow).grows hgrows hsound.journal
  · rw [hnext]
    exact ⟨.refl db, h⟩

namespace HostSound

variable {state : HostState}

/-- A call of the repository, by whoever may make it. -/
theorem call (h : HostSound state) {call : Call}
    (hraise : ∀ jobId sessionKey target now,
      call.operation = .raiseCompactionIntent jobId sessionKey target now →
        Cut state.db sessionKey.sessionKeyHash target) :
    HostSound { state with db := repository.next state.db call } := by
  obtain ⟨hgrows, hmarked⟩ := h.marked.next h.reachable hraise
  have hsound := sound_of_reachable h.reachable
  refine ⟨System.Reachable.next repository h.reachable call, hmarked, fun index request hrequest event hevent => ?_,
    fun activity hactivity target hpoint => ?_⟩
  · obtain ⟨hrow, hrest⟩ := h.captured index request hrequest event hevent
    obtain ⟨added, hadded, -⟩ := hgrows.journalEvents
    exact ⟨by rw [hadded]; exact List.mem_append_left _ hrow, hrest⟩
  · obtain ⟨request, hrequest, hcut⟩ := h.intents activity hactivity target hpoint
    exact ⟨request, hrequest, hcut.grows hgrows hsound.journal⟩

/-- Callbacks may stop waiting. -/
theorem forget (h : HostSound state) {activities : List Activity}
    (hsublist : ∀ activity ∈ activities, activity ∈ state.activities) :
    HostSound { state with activities := activities } :=
  ⟨h.reachable, h.marked, h.captured,
    fun activity hactivity => h.intents activity (hsublist activity hactivity)⟩

/-- A callback starts to wait for something other than an intent. -/
theorem await (h : HostSound state) {index : Nat} {point : HookPoint}
    (hpoint : ∀ target, point ≠ .intentRaise target) :
    HostSound { state with activities := state.activities ++ [⟨index, point⟩] } := by
  refine ⟨h.reachable, h.marked, h.captured, fun activity hactivity target => ?_⟩
  rcases List.mem_append.mp hactivity with hactivity | hactivity
  · exact h.intents activity hactivity target
  · obtain rfl := List.mem_singleton.mp hactivity
    exact fun hraise => absurd hraise (hpoint target)

/-- A request that keeps its turn is put back, its assistant event captured. -/
theorem replace (h : HostSound state) {index : Nat} {request request' : RequestState}
    (hrequest : state.requests[index]? = some request) (hturn : request'.turn = request.turn)
    (hcaptured : ∀ event ∈ request'.assistantEvent, event.row ∈ state.db.journalEvents ∧
      event.sessionKey = request.turn.sessionKey ∧ event.eventType = .assistantMessage) :
    HostSound { state with requests := state.requests.set index request' } := by
  have hlt : index < state.requests.length := (List.getElem?_eq_some_iff.mp hrequest).1
  refine ⟨h.reachable, h.marked, fun i found hfound event hevent => ?_,
    fun activity hactivity target hpoint => ?_⟩
  · by_cases hi : i = index
    · subst hi
      rw [List.getElem?_set_self hlt] at hfound
      obtain rfl := Option.some.inj hfound
      rw [hturn]
      exact hcaptured event hevent
    · rw [List.getElem?_set_ne (Ne.symm hi)] at hfound
      exact h.captured i found hfound event hevent
  · obtain ⟨found, hfound, hcut⟩ := h.intents activity hactivity target hpoint
    by_cases hi : activity.request = index
    · obtain rfl : found = request := Option.some.inj (hfound.symm.trans (hi ▸ hrequest))
      subst hi
      exact ⟨request', List.getElem?_set_self hlt, hturn ▸ hcut⟩
    · exact ⟨found, (List.getElem?_set_ne (Ne.symm hi)).trans hfound, hcut⟩

/-- The read before an intent makes the assistant event of its request a cut. -/
theorem cut_of_stable_read (h : HostSound state) {index : Nat} {request : RequestState}
    (hrequest : state.requests[index]? = some request) {event : EventEnvelope}
    (hevent : request.assistantEvent = some event) {faults : FaultInjector} {view : RequestView}
    (hview : readRequestView faults state.db request.turn.sessionKey = .ok view)
    (hstable : (evaluateToolLoop view.delta).state = .stable) :
    Cut state.db request.turn.sessionKey.sessionKeyHash event.sequence := by
  have hsound := sound_of_reachable h.reachable
  have hread := readSound_of_reachable h.reachable
  obtain ⟨hrow, hsession, htype⟩ := h.captured index request hrequest event hevent
  obtain ⟨hdelta, hkeys⟩ := readRequestView_window hsound hread hview
  have hhash : event.row.sessionKeyHash = request.turn.sessionKey.sessionKeyHash :=
    congrArg SessionKey.sessionKeyHash hsession
  -- the event is stored, so its session is stored under the key of the turn
  obtain ⟨session, hstored, hsame⟩ := List.mem_map.mp
    (state.db.consistent.journalEvents.session event.row hrow event.row.sessionKeyHash rfl)
  have hsame : session.sessionKeyHash = request.turn.sessionKey.sessionKeyHash :=
    hsame.trans hhash
  have hkey := hkeys session hstored hsame
  have hcoverage : Cut state.db session.sessionKeyHash
      (state.db.coverage session.sessionKeyHash) :=
    h.marked.coverage hsound (cut_zero state.db) _
  rw [hdelta, ← hkey, hsound.journal.hash session hstored] at hstable
  rw [← hsame]
  exact Cut.of_stable_delta hsound.journal hstored hcoverage hstable hrow (hhash.trans hsame.symm)
    htype

/-- A callback goes on. -/
theorem resume (h : HostSound state) {index : Nat} {activity : Activity}
    (hactivity : state.activities[index]? = some activity)
    (canonical : CanonicalMetricObservation) (faults : FaultInjector) :
    HostSound (state.resume activity index canonical faults) := by
  have hmem : activity ∈ state.activities := List.mem_of_getElem? hactivity
  have hwaiting : ∀ other ∈ state.activities.eraseIdx index, other ∈ state.activities :=
    fun other hother => List.mem_of_mem_eraseIdx hother
  unfold HostState.resume
  cases hrequest : state.requests[activity.request]? with
  | none => exact h.forget hwaiting
  | some request =>
  cases hstep : AstrContinuum.step state.db
      ⟨activity.point.operation request.turn canonical, faults⟩ with
  | error failure =>
      simp only [hstep]
      exact h.forget hwaiting
  | ok result =>
      obtain ⟨db, response⟩ := result
      obtain ⟨hturn, hassistant, hintent⟩ := activity.point.resume_cases request response
      simp only [hstep]
      have hnext : repository.next state.db
          ⟨activity.point.operation request.turn canonical, faults⟩ = db :=
        repository.next_of_ok hstep
      -- the call of the callback: an intent is raised at the cut that the callback holds
      have hcall : HostSound { state with db := db } := by
        rw [← hnext]
        refine h.call fun jobId sessionKey target now hraise => ?_
        cases hpoint : activity.point with
        | intentRaise mark =>
            simp only [hpoint, HookPoint.operation, Operation.raiseCompactionIntent.injEq] at hraise
            obtain ⟨-, rfl, rfl, -⟩ := hraise
            obtain ⟨found, hfound, hcut⟩ := h.intents activity hmem mark hpoint
            obtain rfl := Option.some.inj (hfound.symm.trans hrequest)
            exact hcut
        | _ => simp [hpoint, HookPoint.operation] at hraise
      -- the request goes back with the event that it has captured, if any
      have hreplaced : HostSound
          { state with
            db := db
            requests := state.requests.set activity.request
              (activity.point.resume request response).1 } := by
        refine hcall.replace hrequest hturn fun event hevent => ?_
        rcases hassistant with hsame | ⟨content, captured, hpoint, rfl, hset⟩
        · exact hcall.captured _ request hrequest event (hsame ▸ hevent)
        · obtain rfl : captured = event := Option.some.inj (hset.symm.trans hevent)
          have hoperation : (⟨activity.point.operation request.turn canonical, faults⟩ :
              Call).operation.captureOf = some (.assistantMessage,
                captureRequest request.turn .onAgentDone 0 "" content canonical) := by
            rw [hpoint]
            rfl
          obtain ⟨returned, hresponse, hcommitted⟩ := step_capture hoperation hstep
          obtain rfl : captured = returned := Response.event.inj hresponse
          obtain ⟨hreturned, -⟩ := captureEvent_returned hcommitted
          exact ⟨hreturned.stored, hreturned.session, congrArg EventRow.eventType hreturned.row⟩
      -- and waits for an intent only if it has read a stable tool loop
      have hforgot := hreplaced.forget hwaiting
      cases hpoint : (activity.point.resume request response).2 with
      | none => simpa using hforgot
      | some next =>
          refine ⟨hforgot.reachable, hforgot.marked, hforgot.captured,
            fun other hother target hraise => ?_⟩
          rcases List.mem_append.mp hother with hother | hother
          · exact hforgot.intents other hother target hraise
          · obtain rfl : other = ⟨activity.request, next⟩ := by simpa using hother
            obtain rfl : next = .intentRaise target := hraise
            obtain ⟨hread, hstable, event, hevent, rfl⟩ := hintent target hpoint
            have hlt : activity.request < state.requests.length :=
              (List.getElem?_eq_some_iff.mp hrequest).1
            refine ⟨_, List.getElem?_set_self hlt, ?_⟩
            rw [hturn]
            rw [hread] at hstep
            obtain ⟨view, hview, hresult⟩ := map_ok.mp hstep
            obtain ⟨rfl, rfl⟩ := Prod.mk.inj hresult
            exact h.cut_of_stable_read hrequest hevent hview (Option.some.inj hstable)

/-- A callback that starts waits for a read or a capture. -/
theorem begin (h : HostSound state) (index : Nat) {point : RequestState → Option HookPoint}
    (hpoint : ∀ request target, point request ≠ some (.intentRaise target)) :
    HostSound (state.begin index point) := by
  unfold HostState.begin
  cases hrequest : state.requests[index]? with
  | none => exact h
  | some request =>
      simp only
      split
      · rename_i next hnext
        refine h.await fun target hraise => ?_
        subst hraise
        split at hnext
        · exact hpoint request target hnext
        · cases hnext
      · exact h

end HostSound

/-- Only `on_agent_done_finalize` raises intents. -/
def HostAction.LeavesIntents : HostAction → Prop
  | .other call => ∀ jobId sessionKey target now,
      call.operation ≠ .raiseCompactionIntent jobId sessionKey target now
  | _ => True

/-- One action. -/
theorem HostSound.step {state : HostState} (h : HostSound state) {action : HostAction}
    (haction : action.LeavesIntents) : HostSound (state.step action) := by
  cases action with
  | llmRequest turn input =>
      have hadded : HostSound { state with requests := state.requests ++ [{ turn := turn }] } := by
        refine ⟨h.reachable, h.marked, fun i found hfound event hevent => ?_,
          fun activity hactivity target hpoint => ?_⟩
        · by_cases hi : i < state.requests.length
          · rw [List.getElem?_append_left hi] at hfound
            exact h.captured i found hfound event hevent
          · -- the new request has captured nothing
            rw [List.getElem?_append_right (by omega)] at hfound
            obtain rfl := List.mem_singleton.mp (List.mem_of_getElem? hfound)
            cases hevent
        · obtain ⟨request, hrequest, hcut⟩ := h.intents activity hactivity target hpoint
          have hlt := (List.getElem?_eq_some_iff.mp hrequest).1
          exact ⟨request, (List.getElem?_append_left hlt).trans hrequest, hcut⟩
      exact hadded.await (by simp)
  | agentBegin index shouldCompact =>
      simp only [HostState.step]
      cases hrequest : state.requests[index]? with
      | none =>
          rw [List.modify_eq_self (by simpa using hrequest)]
          exact h
      | some request =>
          have hset : state.requests.modify index (fun found =>
              { found with shouldCompact := shouldCompact }) =
              state.requests.set index { request with shouldCompact := shouldCompact } := by
            rw [List.modify_eq_set_getElem?, hrequest]
            rfl
          rw [hset]
          exact h.replace hrequest rfl fun event hevent =>
            h.captured index request hrequest event hevent
  | usingLlmTool index tool toolArgs =>
      refine h.begin index fun request target => ?_
      unfold HostState.toolPoint
      split <;> simp
  | llmToolRespond index tool toolArgs toolResult =>
      refine h.begin index fun request target => ?_
      unfold HostState.toolPoint
      split <;> simp
  | agentDone index content =>
      refine h.begin index fun request target => ?_
      unfold RequestState.intentPoint
      split
      · simp
      · split <;> simp
  | resume index canonical faults =>
      simp only [HostState.step]
      split
      · rename_i activity hactivity
        exact h.resume hactivity canonical faults
      · exact h
  | abandon index => exact h.forget fun other hother => List.mem_of_mem_eraseIdx hother
  | other call =>
      refine h.call fun jobId sessionKey target now hraise => ?_
      exact absurd hraise (haction jobId sessionKey target now)

/-- The state after any sequence of actions. -/
theorem hostSound_run {actions : List HostAction}
    (h : ∀ action ∈ actions, action.LeavesIntents) : HostSound (HostState.run actions) := by
  suffices hall : ∀ state, HostSound state → HostSound (actions.foldl HostState.step state) from
    hall {} hostSound_start
  induction actions with
  | nil => exact fun state hstate => hstate
  | cons action rest ih =>
      intro state hstate
      exact ih (fun other hother => h other (List.mem_cons_of_mem _ hother)) _
        (hstate.step (h action List.mem_cons_self))

/-! ## Claimed jobs -/

/-- The input of a job lies between two assistant events and can be segmented: `segment` may miss a
token count, but never a closed tool loop. -/
structure StableInput (db : Database) (row : JobRow) (view : RequestView) : Prop where
  target : view.highWaterMark = row.targetHighWaterMark
  start : AssistantAt db row.sessionKeyHash view.coveredEventEnd
  stop : AssistantAt db row.sessionKeyHash row.targetHighWaterMark
  stable : (evaluateToolLoop view.delta).state = .stable
  segments : ∀ (tokenCounts : EventTokenCounts) (config : SegmenterConfig) (preferred : List Nat),
    (∃ segments, segment view.delta tokenCounts config preferred = .ok segments) ∨
      segment view.delta tokenCounts config preferred = .error "TOKEN_METRIC_MISSING"

/-- The input of every claimed job is stable. -/
theorem HostSound.stableInput {state : HostState} (h : HostSound state) {fence : Fence}
    {row : JobRow} (hclaimed : Claimed state.db fence row) :
    ∃ view, readCompactionView state.db fence = .ok view ∧ StableInput state.db row view := by
  have hsound := sound_of_reachable h.reachable
  have hread := readSound_of_reachable h.reachable
  obtain ⟨hrow, -⟩ := Database.jobRow_eq_some.mp hclaimed.stored
  have hstate : row.state.isNonterminal = true :=
    CompactionJobState.isNonterminal_of_isWorking hclaimed.fenced.1
  have hrowSound := jobRowsSound_of_reachable h.reachable row hrow
  obtain ⟨session, hsession, hhash⟩ := Database.exists_session_of_job hrow
  obtain ⟨snapshot, memberships, delta, -, hdelta, hview⟩ :=
    claimView_total hsound hread hrow hstate hrowSound hsession hhash
  refine ⟨_, (hclaimed.readCompactionView_eq hsession hhash
    (hsound.journal.hash session hsession)).trans hview, ?_⟩
  have hcoverage : Cut state.db row.sessionKeyHash (state.db.coverage row.sessionKeyHash) :=
    h.marked.coverage hsound (cut_zero state.db) _
  have htarget := (h.marked.jobs row hrow).1
  have hlt := hrowSound.target hstate
  obtain rfl := window_eq hdelta
  have hstable := hcoverage.between htarget hlt.le hsound.journal hsession hhash
  have hwithin : row.targetHighWaterMark ≤ state.db.highWaterMark session.sessionKeyHash :=
    hhash ▸ htarget.within
  have hne : state.db.window session.sessionKey (state.db.coverage row.sessionKeyHash)
      row.targetHighWaterMark ≠ [] := by
    intro hempty
    have hsequences : ((state.db.window session.sessionKey
        (state.db.coverage row.sessionKeyHash) row.targetHighWaterMark).map
          fun event => event.sequence) = _ :=
      window_sequences hsound.journal hsession hwithin
    have hlength := congrArg List.length hsequences
    rw [hempty, deltaSequences, List.length_range', List.map_nil, List.length_nil] at hlength
    omega
  exact ⟨rfl, hcoverage.position, htarget.position, hstable,
    segment_of_stable (window_contiguous hsound.journal hsession hwithin) hne hstable⟩

/-- Stable points compose: the invalid state is absorbing, past a stable point the tool loop and
its units are those of what follows, and in a valid delta every assistant event is a stable point.
So in every run in which only the finalizer raises intents, the input of every claimed job is
stable and can be segmented. -/
theorem stable_points_compose :
    (∀ xs ys : List EventEnvelope, Contiguous (xs ++ ys) →
      ((evaluateToolLoop xs).state = .invalid →
        (evaluateToolLoop (xs ++ ys)).state = .invalid) ∧
      ((evaluateToolLoop xs).state = .stable →
        evaluateToolLoop (xs ++ ys) = evaluateToolLoop ys ∧
        durableEventUnits (xs ++ ys) = (durableEventUnits xs).bind fun first =>
          (durableEventUnits ys).map fun second => first ++ second) ∧
      ((evaluateToolLoop (xs ++ ys)).state ≠ .invalid → ∀ event, xs.getLast? = some event →
        event.eventType = .assistantMessage → (evaluateToolLoop xs).state = .stable)) ∧
    ∀ actions : List HostAction, (∀ action ∈ actions, action.LeavesIntents) →
      ∀ fence row, Claimed (HostState.run actions).db fence row →
        ∃ view, readCompactionView (HostState.run actions).db fence = .ok view ∧
          StableInput (HostState.run actions).db row view := by
  refine ⟨fun xs ys hcontiguous => ⟨evaluateToolLoop_append_of_invalid hcontiguous,
    fun hstable => ⟨evaluateToolLoop_append_of_stable hcontiguous hstable,
      durableEventUnits_append_of_stable hcontiguous hstable⟩, ?_⟩, ?_⟩
  · intro hvalid event hlast htype
    exact evaluateToolLoop_prefix_stable hcontiguous hvalid hlast htype
  · intro actions hactions fence row hclaimed
    exact (hostSound_run hactions).stableInput hclaimed

end Cuts

namespace HookSample

/-- The turn of the sample. -/
def turn : HostTurnIdentity := ⟨Sample.session, "m1", 1⟩

/-- The metadata of a call. -/
def callMetadata : String := "\x7b\"arguments\":null,\"kind\":\"call\",\"tool\":\"search\"\x7d"

/-- The metadata of its result. -/
def resultMetadata : String :=
  "\x7b\"arguments\":null,\"kind\":\"result\",\"result\":\"ok\",\"tool\":\"search\"\x7d"

/-- The two texts that identify the event of a callback, with their SHA-256 digests. -/
def identityDigests (hook metadata ordinal digest eventDigest : String) : List (String × String) :=
  [("\x7b\"canonical_metadata\":" ++ metadata ++ ",\"host_message_id\":\"m1\"," ++
      "\"ordinal\":" ++ ordinal ++ ",\"source_hook\":\"" ++ hook ++ "\"\x7d", digest),
   ("\x7b\"idempotency_key\":\"ac1:" ++ digest ++ "\",\"session_key_hash\":" ++
      "\"3edae53c0e91c544b965d704da44fb9b0784c56c223e543eb50027e9e2cee925\"," ++
      "\"source_hook\":\"" ++ hook ++ "\"\x7d", eventDigest)]

/-- The texts that identify the events and the job of the turn, with their SHA-256 digests. -/
def digests : List (String × String) :=
  identityDigests "ON_LLM_REQUEST" "\"\"" "0"
      "ee062b79fc175e1d2124094f7129d4c4405d4e377a9b9d005732f33b46bdf6cf"
      "551ef7270e747428df7ed4f9a78bf2fe4010a8758b29299e2939049115c153e0" ++
    identityDigests "ON_USING_LLM_TOOL" (jsonString callMetadata) "0"
      "39c6734ec9037f6822a22c71b1fbc6c1984c31c1d9571a3066ba17dc24632437"
      "f2ec2b871c5b7c53841aaabfee606a961530fe4e187c70baa4bd7bcdb35084c4" ++
    identityDigests "ON_LLM_TOOL_RESPOND" (jsonString resultMetadata) "0"
      "1cc37324173888fb01920f1f2a088ed677ecb8229dbfd64adde02022aada26d8"
      "751d24aa2131f9d431e5b15c620914522beb3b19802aa4a96f1e7177ba8321c8" ++
    identityDigests "ON_AGENT_DONE" "\"\"" "0"
      "76eff3efe169f472156aa393feea99d1e8f4d2a8874e2dd72f2ff2d1abbb867a"
      "8d406ca23543241cabf1befb698acd72e812b937b6200608c8c81179617f28ae" ++
    [("\x7b\"host_message_id\":\"m1\",\"session_key_hash\":" ++
        "\"3edae53c0e91c544b965d704da44fb9b0784c56c223e543eb50027e9e2cee925\"," ++
        "\"target_high_water_mark\":4\x7d",
      "20266128140a7b4395a3bda6ccff93ac8eff33b0ce4017a9be50b88b334927ea")]

/-- The digests of the texts that the sample hashes: those above and the session key. -/
scoped instance : Hashlib := ⟨fun text => (digests.lookup text).getD Sample.sessionHash⟩

/-- The sample stays within the limits of the codec. -/
scoped instance : SecureCodec := ⟨fun _ _ recordKey _ => decide (recordKey.utf8ByteSize ≤ 4096)⟩

/-- No text of the sample depends on the Unicode tables. -/
scoped instance : UnicodeTables := ⟨fun text => text, fun c => c.isAlphanum⟩

/-- The two metadata that are read, as JSON. -/
scoped instance : JsonReader :=
  ⟨fun text =>
    if text = callMetadata then
      some (.object [("arguments", .null), ("kind", .string "call"), ("tool", .string "search")])
    else if text = resultMetadata then
      some (.object [("arguments", .null), ("kind", .string "result"), ("result", .string "ok"),
        ("tool", .string "search")])
    else none, fun _ => none⟩

/-- The first callback that waits goes on. -/
def goOn : HostAction := .resume 0 ⟨"profile", none, stripNonEmpty_profile⟩ .none

/-- The tool is called. -/
def call : HostAction := .usingLlmTool 0 (.text "search") .none

/-- The tool responds. -/
def respond : HostAction := .llmToolRespond 0 (.text "search") .none (.str "ok")

/-- A request is served with a tool round and its finalizer raises an intent, which a worker claims and
compiles. -/
def compaction : List HostAction :=
  [.llmRequest turn "hello", goOn, goOn, goOn, .agentBegin 0 true, call, goOn, respond, goOn,
    .agentDone 0 "done", goOn, goOn, goOn, goOn, .other ⟨.claimJob "worker" 2 9, .none⟩,
    .other ⟨.transitionJob ⟨intentJobId turn 4, "worker", 1, 2⟩ .compiling none, .none⟩]

end HookSample

open HookSample in
/-- The worker of the sample reads the user message, the tool round and the answer, and can segment
them. -/
theorem stable_points_compose_sample :
    ∃ view, readCompactionView (HostState.run compaction).db
        ⟨intentJobId turn 4, "worker", 1, 3⟩ = .ok view ∧
      (evaluateToolLoop view.delta).state = .stable ∧
      ∀ tokenCounts config preferred,
        segment view.delta tokenCounts config preferred ≠
          .error "SEGMENTER_TOOL_LOOP_INVALID" := by
  have hactions : ∀ action ∈ compaction, action.LeavesIntents := by
    simp [compaction, goOn, call, respond, HostAction.LeavesIntents]
  have hlive : ((HostState.run compaction).db.jobRow (intentJobId turn 4)).any (fun row =>
      decide (row.Fenced "worker" 1 3 ∧ row.state = .compiling)) = true := by
    decide +kernel
  obtain ⟨row, hrow, hdecided⟩ := (Option.any_eq_true _ _).mp hlive
  obtain ⟨hfenced, hstate⟩ := of_decide_eq_true hdecided
  obtain ⟨view, hview, hinput⟩ := stable_points_compose.2 compaction hactions
    ⟨intentJobId turn 4, "worker", 1, 3⟩ row ⟨hrow, hfenced, .inl hstate⟩
  refine ⟨view, hview, hinput.stable, fun tokenCounts config preferred hsegment => ?_⟩
  rcases hinput.segments tokenCounts config preferred with ⟨segments, hok⟩ | hmissing
  · rw [hok] at hsegment
    cases hsegment
  · rw [hmissing] at hsegment
    exact absurd (Except.error.inj hsegment) (by decide)

end AstrContinuum
