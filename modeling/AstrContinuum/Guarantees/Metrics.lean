import AstrContinuum.Guarantees.Linearity
import AstrContinuum.Settlement.Backfill

/-!
# The token metric sidecar

`token_metric_sidecar`: in every reachable state no key has both a metric and a backfill intent,
metrics are never changed, and every metric belongs to a stored artifact. A batch consists of the
first artifacts without a metric, events first, and its write removes exactly the batch from them,
whatever is captured in between. So a number of rounds that is enough for the missing events of the
start gives all of these a metric.

Capsules and snapshots wait for the events: an event that is captured without a count between two
rounds goes before them, and `uncounted_event_delays_snapshot` is a snapshot that waits one
round longer for it. Where no such event is captured, a number of rounds that is enough for all missing
artifacts of the start gives all of these a metric.
-/

namespace AstrContinuum

open Checked Relational Transactional

section Runs

variable [Hashlib] [SecureCodec]

/-! ## One round -/

/-- The captures of a round: those before the write agree with the counter, and the codec can count
the events of all. -/
structure BackfillRound.Captures (round : BackfillRound) (count : String → Nat)
    (hash profileId : String) : Prop where
  between : ∀ call ∈ round.between, call.IsCapture
  agrees : ∀ call ∈ round.between, call.Agrees count profileId
  after : ∀ call ∈ round.after, call.IsCapture
  fits : ∀ call ∈ round.between ++ round.after, call.Fits count hash profileId

/-- A round succeeds, keeps every artifact, and gives a metric to the whole batch. -/
theorem backfillMetrics_total {db : Database} (h : repository.Reachable db) {session : SessionRow}
    (hsession : session ∈ db.sessions) {profileId : String} {count : String → Nat} {limit : Int}
    (hcountable : Countable db session.sessionKeyHash profileId count limit)
    {round : BackfillRound} (hcaptures : round.Captures count session.sessionKeyHash profileId) :
    ∃ db', backfillMetrics count session.sessionKey profileId limit db round = .ok db' ∧
      repository.Reachable db' ∧ KeepsArtifacts db db' ∧
      Countable db' session.sessionKeyHash profileId count limit ∧
      ∀ row ∈ missingMetrics db' session.sessionKeyHash profileId,
        row ∈ db.artifacts session.sessionKeyHash →
        row ∈ missingMetrics db session.sessionKeyHash profileId ∧
          row ∉ backfillBatch db session.sessionKeyHash profileId limit := by
  obtain ⟨artifacts, metrics, written, hread, hids, hmetrics, hwrite, hwritten, hmissing⟩ :=
    backfill_pair h hsession hcountable hcaptures.between hcaptures.agrees round.now
  have hkeeps := KeepsArtifacts.of_written hwritten
  obtain ⟨hmiddle, hfirst⟩ := captures_keep h hcaptures.between
  have hcountableFirst := hcountable.captures h fun call hcall =>
    ⟨hcaptures.between call hcall, hcaptures.fits call (List.mem_append_left _ hcall)⟩
  have hlastCalls : ∀ call ∈ round.after,
      call.IsCapture ∧ call.Fits count session.sessionKeyHash profileId := fun call hcall =>
    ⟨hcaptures.after call hcall, hcaptures.fits call (List.mem_append_right _ hcall)⟩
  have hround : backfillMetrics count session.sessionKey profileId limit db round =
      if metrics = [] then
        .ok (round.after.foldl repository.next (round.between.foldl repository.next db))
      else .ok (round.after.foldl repository.next written) := by
    unfold backfillMetrics
    rw [hread]
    show (artifacts.mapM (countedMetric count) >>= _) = _
    rw [hmetrics]
    show (if metrics = [] then _ else _) = _
    split
    · rfl
    · rw [hwrite]
      rfl
  rw [hround]
  split
  · next hempty =>
      obtain ⟨hreachable, hlast⟩ := captures_keep hmiddle hcaptures.after
      have hall := hfirst.trans hlast
      refine ⟨_, rfl, hreachable, hall, hcountableFirst.captures hmiddle hlastCalls,
        fun row hrow hartifact => ?_⟩
      refine ⟨hall.missing hartifact hrow, fun hbatch => ?_⟩
      rw [hempty] at hmetrics
      obtain rfl := List.forall₂_nil_right_iff.mp (mapM_ok.mp hmetrics)
      have hnone := List.map_eq_nil_iff.mp hids.symm
      rw [hnone] at hbatch
      cases hbatch
  · have hreachable : repository.Reachable written := by
      have hstep : repository.step (round.between.foldl repository.next db)
          { operation := .writeMetricBackfillBatch session.sessionKey metrics round.now } =
            .ok (written, .metrics metrics) := map_ok.mpr ⟨(written, metrics), hwrite, rfl⟩
      rw [← repository.next_of_ok hstep]
      exact hmiddle.next _ _
    obtain ⟨hreachable', hlast⟩ := captures_keep hreachable hcaptures.after
    have hall := hfirst.trans (hkeeps.trans hlast)
    refine ⟨_, rfl, hreachable', hall,
      (hcountableFirst.written hwritten).captures hreachable hlastCalls, fun row hrow hartifact => ?_⟩
    refine ⟨hall.missing hartifact hrow, fun hbatch => ?_⟩
    have hstored := (hfirst.trans hkeeps).grows.artifacts hartifact
    exact ((hmissing row).mp (hlast.missing hstored hrow)).2 (List.mem_map_of_mem hbatch)

/-! ## Many rounds -/

omit [Hashlib] [SecureCodec] in
/-- The artifacts without a metric, listed without repetition. -/
theorem missingMetrics_nodup (db : Database) (hash profileId : String) :
    (missingMetrics db hash profileId).Nodup :=
  (db.artifacts_nodup hash).sublist List.filter_sublist

/-- A kind of artifact goes first: whatever goes before one of the kind is of the kind. -/
def GoesFirst (db : Database) (hash profileId : String) (kind : MissingRow → Bool) : Prop :=
  ∀ row ∈ missingMetrics db hash profileId, ∀ other ∈ missingMetrics db hash profileId,
    row.sortKey ≤ other.sortKey → kind other = true → kind row = true

omit [Hashlib] [SecureCodec] in
/-- A round takes as many of a kind that goes first as the batch can hold. -/
theorem backfillMetrics_countP {db db' : Database} {hash profileId : String} {limit : Int}
    {kind : MissingRow → Bool} (hfirst : GoesFirst db hash profileId kind)
    (hkind : ∀ row, kind row = true → row ∈ db.artifacts hash)
    (hround : ∀ row ∈ missingMetrics db' hash profileId, row ∈ db.artifacts hash →
      row ∈ missingMetrics db hash profileId ∧ row ∉ backfillBatch db hash profileId limit) :
    (missingMetrics db' hash profileId).countP kind ≤
      (missingMetrics db hash profileId).countP kind - limit.toNat := by
  have hperm : (orderBy MissingRow.sortKey (missingMetrics db hash profileId)).Perm
      (missingMetrics db hash profileId) := List.perm_insertionSort _ _
  rw [← hperm.countP_eq]
  refine countP_le_sub_of_take (orderBy_pairwise _ _) ?_ (missingMetrics_nodup db' _ _) ?_
  · intro row hrow other hother hle
    exact hfirst row (mem_orderBy.mp hrow) other (mem_orderBy.mp hother) hle
  · intro row hrow hof
    obtain ⟨hmissing, hbatch⟩ := hround row hrow (hkind row hof)
    exact ⟨mem_orderBy.mpr hmissing, hbatch⟩

/-- Rounds succeed, and each takes as many of a kind that keeps going first as a batch can hold. -/
theorem backfillRounds_countP {start : Database} {hash : String} {session : SessionRow}
    {profileId : String} {count : String → Nat} {limit : Int} (kind : MissingRow → Bool)
    (Kept : Database → Prop)
    (hkind : ∀ row, kind row = true → row ∈ start.artifacts hash)
    (hfirst : ∀ db, repository.Reachable db → KeepsArtifacts start db → Kept db →
      GoesFirst db hash profileId kind)
    (rounds : List BackfillRound)
    (hkept : ∀ round ∈ rounds, ∀ db db', repository.Reachable db → Kept db →
      backfillMetrics count session.sessionKey profileId limit db round = .ok db' → Kept db')
    (hcaptures : ∀ round ∈ rounds, round.Captures count hash profileId)
    {db : Database} (h : repository.Reachable db) (hkeeps : KeepsArtifacts start db)
    (hstart : Kept db) (hsession : ∃ stored ∈ db.sessions, stored.sessionKeyHash = hash ∧
      stored.sessionKey = session.sessionKey)
    (hcountable : Countable db hash profileId count limit) :
    ∃ db', forEach (backfillMetrics count session.sessionKey profileId limit) db rounds =
        .ok db' ∧ KeepsArtifacts start db' ∧
      (missingMetrics db' hash profileId).countP kind ≤
        (missingMetrics db hash profileId).countP kind - rounds.length * limit.toNat := by
  induction rounds generalizing db with
  | nil => exact ⟨db, rfl, hkeeps, by simp⟩
  | cons round rest ih =>
      obtain ⟨stored, hstored, hstoredHash, hkey⟩ := hsession
      subst hstoredHash
      have hcapture := hcaptures round List.mem_cons_self
      obtain ⟨next, hnext, hreachable, hkeepsNext, hcountableNext, hround⟩ :=
        backfillMetrics_total h hstored hcountable hcapture
      rw [hkey] at hnext
      obtain ⟨stored', hstored', hsame, hsameKey⟩ := hkeepsNext.session hstored
      have hless := backfillMetrics_countP (hfirst db h hkeeps hstart)
        (fun row hrow => hkeeps.grows.artifacts (hkind row hrow)) hround
      obtain ⟨db', hrest, hkeeps', hcount⟩ := ih
        (fun other hother => hkept other (List.mem_cons_of_mem _ hother))
        (fun other hother => hcaptures other (List.mem_cons_of_mem _ hother)) hreachable
        (hkeeps.trans hkeepsNext)
        (hkept round List.mem_cons_self db next h hstart hnext)
        ⟨stored', hstored', hsame, hsameKey.trans hkey⟩ (hsame ▸ hcountableNext)
      refine ⟨db', bind_ok.mpr ⟨next, hnext, hrest⟩, hkeeps', ?_⟩
      rw [List.length_cons, Nat.succ_mul]
      omega

/-! ## What goes first -/

omit [SecureCodec] in
/-- The sequence of a stored event is within the journal of its session. -/
theorem JournalSound.sequence_le {db : Database} (h : JournalSound db) {event : EventRow}
    (hevent : event ∈ db.journalEvents) :
    event.sequence ≤ db.highWaterMark event.sessionKeyHash := by
  obtain ⟨session, hsession, hhash⟩ := List.mem_map.mp
    (db.consistent.journalEvents.session event hevent event.sessionKeyHash rfl)
  have hmem : event.sequence ∈ (db.journal session.sessionKeyHash).map EventRow.sequence := by
    refine List.mem_map_of_mem (List.mem_filter.mpr ⟨hevent, ?_⟩)
    simp [hhash]
  rw [h.sequences session hsession, List.mem_range'_1] at hmem
  rw [← hhash, Database.highWaterMark_of_mem hsession]
  omega

omit [Hashlib] [SecureCodec] in
/-- Artifacts are ordered by kind first, events by their sequence. -/
theorem MissingRow.sortKey_le {row other : MissingRow} (h : row.sortKey ≤ other.sortKey) :
    row.kindRank < other.kindRank ∨
      (row.kindRank = other.kindRank ∧ row.sortMajor ≤ other.sortMajor) := by
  rcases Prod.Lex.toLex_le_toLex.mp h with hrank | ⟨hrank, hrest⟩
  · exact .inl hrank
  · rcases Prod.Lex.toLex_le_toLex.mp hrest with hmajor | ⟨hmajor, -⟩
    · exact .inr ⟨hrank, hmajor.le⟩
    · exact .inr ⟨hrank, hmajor.le⟩

omit [SecureCodec] in
/-- The events of the start go first: whatever was captured since has a larger sequence. -/
theorem events_goFirst {start db : Database} (hstart : JournalSound start)
    (hkeeps : KeepsArtifacts start db) {hash profileId : String} :
    GoesFirst db hash profileId fun row =>
      decide (row ∈ missingMetrics start hash profileId) && decide (row.artifactKind = .event) := by
  intro row hrow other hother hle hkind
  simp only [Bool.and_eq_true, decide_eq_true_eq] at hkind ⊢
  obtain ⟨holdMissing, holdKind⟩ := hkind
  have hold := (mem_missingMetrics.mp holdMissing).1
  have hnew := (mem_missingMetrics.mp hrow).1
  rcases Database.mem_artifacts.mp hold with ⟨event, hevent, heventHash, rfl⟩ |
    ⟨_, -, -, rfl⟩ | ⟨_, -, -, rfl⟩
  · rcases Database.mem_artifacts.mp hnew with ⟨before, hbefore, hhash, rfl⟩ |
      ⟨_, -, -, rfl⟩ | ⟨_, -, -, rfl⟩
    · have hsequence : before.sequence ≤ event.sequence := by
        rcases MissingRow.sortKey_le hle with hrank | ⟨-, hmajor⟩
        · cases hrank
        · exact hmajor
      have hstored : before ∈ start.journalEvents := by
        obtain ⟨added, hadded, hlarger⟩ := hkeeps.grows.journalEvents
        rw [hadded] at hbefore
        rcases List.mem_append.mp hbefore with hbefore | hbefore
        · exact hbefore
        · have hlate := hlarger before hbefore
          have hearly := hstart.sequence_le hevent
          rw [hhash] at hlate
          rw [heventHash] at hearly
          omega
      exact ⟨hkeeps.missing (Database.mem_artifacts.mpr (.inl ⟨before, hstored, hhash, rfl⟩)) hrow,
        rfl⟩
    · rcases MissingRow.sortKey_le hle with hrank | ⟨hrank, -⟩
      · cases hrank
      · cases hrank
    · rcases MissingRow.sortKey_le hle with hrank | ⟨hrank, -⟩
      · cases hrank
      · cases hrank
  · cases holdKind
  · cases holdKind

/-- A capture for the session replays an event of the start, or has a count under the profile. -/
def Call.Counted (call : Call) (start : Database) (hash profileId : String) : Prop :=
  ∀ eventType request, call.operation.captureOf = some (eventType, request) →
    request.sessionKey.sessionKeyHash = hash →
    (∃ event ∈ start.journalEvents, event.eventId = request.eventId) ∨
      (request.canonical.tokenizerProfileId = profileId ∧ request.canonical.tokenCount ≠ none)

/-- Every artifact without a metric is one of the start. -/
structure NoneAdded (start : Database) (hash profileId : String) (db : Database) : Prop where
  grows : Grows start db
  missing : ∀ row ∈ missingMetrics db hash profileId, row ∈ start.artifacts hash

/-- A capture with a count adds no artifact without a metric. -/
theorem NoneAdded.capture {start db db' : Database} {hash profileId : String}
    (h : NoneAdded start hash profileId db) (hsound : Sound db) {call : Call}
    {response : Response} (hok : step db call = .ok (db', response))
    (hcapture : call.IsCapture) (hcounted : call.Counted start hash profileId) :
    NoneAdded start hash profileId db' := by
  obtain ⟨eventType, request, hcapture⟩ := hcapture
  have hkeeps := captureEvent_keeps hsound hok hcapture
  obtain ⟨event, hreturned, hobserved, hjournal⟩ := capture_journal hsound hok hcapture
  refine ⟨h.grows.trans hkeeps.grows, fun row hrow => ?_⟩
  by_cases hold : row ∈ db.artifacts hash
  · exact h.missing row (hkeeps.missing hold hrow)
  · obtain ⟨hartifact, hnone⟩ := mem_missingMetrics.mp hrow
    obtain ⟨rfl, hhash⟩ := (hkeeps.artifact_new hjournal hartifact).resolve_left hold
    have hrequest : request.sessionKey.sessionKeyHash = hash := by
      rw [← hhash, hreturned.row]
      rfl
    have hid : event.row.eventId = request.eventId := congrArg EventRow.eventId hreturned.row
    rcases hcounted eventType request hcapture hrequest with ⟨early, hearly, hearlyId⟩ | ⟨hprofile, hcount⟩
    · obtain ⟨added, hadded, -⟩ := (h.grows.trans hkeeps.grows).journalEvents
      have hsame := db'.consistent.journalEvents.primaryKey.eq_of_key hreturned.stored
        (by rw [hadded]; exact List.mem_append_left _ hearly) (hid.trans hearlyId.symm)
      exact Database.mem_artifacts.mpr (.inl ⟨early, hearly, hsame ▸ hhash, by rw [hsame]⟩)
    · obtain ⟨tokenCount, htokenCount⟩ := Option.ne_none_iff_exists'.mp hcount
      obtain ⟨metric, hmetric, hkey, -⟩ := hobserved.2.2 tokenCount htokenCount
      refine absurd ?_ (hnone metric hmetric)
      rw [hkey, hprofile, ← hid]
      rfl

/-- Captures with a count add no artifact without a metric. -/
theorem NoneAdded.captures {start db : Database} {hash profileId : String}
    (h : NoneAdded start hash profileId db) (hreachable : repository.Reachable db)
    {calls : List Call}
    (hcalls : ∀ call ∈ calls, call.IsCapture ∧ call.Counted start hash profileId) :
    repository.Reachable (calls.foldl repository.next db) ∧
      NoneAdded start hash profileId (calls.foldl repository.next db) := by
  obtain ⟨hlast, hkept⟩ := System.Reachable.foldl repository
    (P := fun call => call.IsCapture ∧ call.Counted start hash profileId)
    (R := fun db db' => NoneAdded start hash profileId db → NoneAdded start hash profileId db')
    (fun _ => id) (fun _ _ _ hfirst hsecond => hsecond ∘ hfirst)
    (fun db call db' response hdb hcall hok hnone =>
      hnone.capture (sound_of_reachable hdb) hok hcall.1 hcall.2) hreachable hcalls
  exact ⟨hlast, hkept h⟩

omit [Hashlib] [SecureCodec] in
/-- A written batch adds no artifact. -/
theorem NoneAdded.written {start db db' : Database} {hash profileId : String}
    (h : NoneAdded start hash profileId db) {metrics : List TokenMetric}
    (hwritten : MetricsWritten db metrics db') : NoneAdded start hash profileId db' :=
  ⟨h.grows.trans (KeepsArtifacts.of_written hwritten).grows, fun row hrow =>
    h.missing row (hwritten.mem_missingMetrics.mp hrow).1⟩

/-- A round with counted captures adds no artifact without a metric. -/
theorem NoneAdded.round {start db db' : Database} {hash profileId : String}
    (h : NoneAdded start hash profileId db) (hreachable : repository.Reachable db)
    {count : String → Nat} {sessionKey : SessionKey} {limit : Int} {round : BackfillRound}
    (hround : backfillMetrics count sessionKey profileId limit db round = .ok db')
    (hbetween : ∀ call ∈ round.between, call.IsCapture ∧ call.Counted start hash profileId)
    (hafter : ∀ call ∈ round.after, call.IsCapture ∧ call.Counted start hash profileId) :
    NoneAdded start hash profileId db' := by
  obtain ⟨hmiddle, hnone⟩ := h.captures hreachable hbetween
  obtain ⟨batch, -, hround⟩ := bind_ok.mp hround
  obtain ⟨metrics, -, hround⟩ := bind_ok.mp hround
  dsimp only at hround
  split at hround
  · obtain rfl := pure_ok.mp hround
    exact (hnone.captures hmiddle hafter).2
  · obtain ⟨⟨written, metrics'⟩, hwrite, hround⟩ := bind_ok.mp hround
    obtain rfl := pure_ok.mp hround
    have hstep : repository.step (round.between.foldl repository.next db)
        { operation := .writeMetricBackfillBatch sessionKey metrics round.now } =
          .ok (written, .metrics metrics') := map_ok.mpr ⟨(written, metrics'), hwrite, rfl⟩
    have hwritten : repository.Reachable written := by
      rw [← repository.next_of_ok hstep]
      exact hmiddle.next _ _
    have hkept := hnone.written (writeMetricBackfillBatch_written hwrite).1
    exact (hkept.captures hwritten hafter).2

/-! ## The sidecar -/

/-- The sidecar of a reachable state, and what backfilling makes of it. -/
structure SidecarKept (db : Database) : Prop where
  /-- No key has both a metric and a backfill intent. -/
  exclusive : ∀ metric ∈ db.tokenMetrics, ∀ intent ∈ db.backfillIntents, metric.key ≠ intent.key
  /-- Metrics are never changed, whatever is called next. -/
  immutable : ∀ calls : List Call,
    db.tokenMetrics <+: (calls.foldl repository.next db).tokenMetrics
  /-- Every metric belongs to a stored artifact. -/
  owned : ∀ metric ∈ db.tokenMetrics, ArtifactStored db metric.key
  /-- A batch holds as many artifacts as there are up to the limit, and the first ones. -/
  batch : ∀ hash profileId (limit : Int),
    (backfillBatch db hash profileId limit).length =
        min limit.toNat (missingMetrics db hash profileId).length ∧
      ∀ row ∈ backfillBatch db hash profileId limit,
        ∀ other ∈ missingMetrics db hash profileId,
          other ∉ backfillBatch db hash profileId limit → row.sortKey ≤ other.sortKey
  /-- A read returns the batch, and the write of its counts gives a metric to exactly the batch. -/
  pair : ∀ session ∈ db.sessions, ∀ profileId count limit,
    Countable db session.sessionKeyHash profileId count limit →
    ∀ between : List Call, (∀ call ∈ between, call.IsCapture) →
    (∀ call ∈ between, call.Agrees count profileId) → ∀ now, ∃ artifacts metrics db',
      readMetricBackfillBatch db session.sessionKey profileId limit = .ok artifacts ∧
      artifacts.map (fun artifact => (artifact.artifactKind, artifact.artifactId)) =
        (backfillBatch db session.sessionKeyHash profileId limit).map
          (fun row => (row.artifactKind, row.artifactId)) ∧
      artifacts.mapM (countedMetric count) = .ok metrics ∧
      writeMetricBackfillBatch .none (between.foldl repository.next db) session.sessionKey metrics
        now = .ok (db', metrics) ∧
      ∀ row, row ∈ missingMetrics db' session.sessionKeyHash profileId ↔
        row ∈ missingMetrics (between.foldl repository.next db) session.sessionKeyHash profileId ∧
          row.key profileId ∉ (backfillBatch db session.sessionKeyHash profileId limit).map
            fun row => row.key profileId
  /-- Rounds that are enough for the missing events of the start give all of them a metric. -/
  events : ∀ session ∈ db.sessions, ∀ profileId count limit,
    Countable db session.sessionKeyHash profileId count limit →
    ∀ rounds : List BackfillRound, (∀ round ∈ rounds,
      round.Captures count session.sessionKeyHash profileId) →
    ∃ db', forEach (backfillMetrics count session.sessionKey profileId limit) db rounds =
        .ok db' ∧
      ((missingMetrics db session.sessionKeyHash profileId).countP
          (fun row => row.artifactKind = .event) ≤ rounds.length * limit.toNat →
        ∀ row ∈ missingMetrics db session.sessionKeyHash profileId, row.artifactKind = .event →
          row ∉ missingMetrics db' session.sessionKeyHash profileId)
  /-- Rounds that are enough for all missing artifacts of the start give all of them a metric, when
  no event is captured without a count. -/
  all : ∀ session ∈ db.sessions, ∀ profileId count limit,
    Countable db session.sessionKeyHash profileId count limit →
    ∀ rounds : List BackfillRound, (∀ round ∈ rounds,
      round.Captures count session.sessionKeyHash profileId) →
    (∀ round ∈ rounds, ∀ call ∈ round.between ++ round.after,
      call.Counted db session.sessionKeyHash profileId) →
    ∃ db', forEach (backfillMetrics count session.sessionKey profileId limit) db rounds =
        .ok db' ∧
      ((missingMetrics db session.sessionKeyHash profileId).length ≤
          rounds.length * limit.toNat →
        ∀ row ∈ missingMetrics db session.sessionKeyHash profileId,
          row ∉ missingMetrics db' session.sessionKeyHash profileId)

/-- No call changes a stored metric. -/
theorem tokenMetrics_prefix {db : Database} (h : repository.Reachable db) (calls : List Call) :
    db.tokenMetrics <+: (calls.foldl repository.next db).tokenMetrics := by
  refine (System.Reachable.foldl repository (P := fun _ => True)
    (R := fun db db' : Database => db.tokenMetrics <+: db'.tokenMetrics)
    (fun _ => List.prefix_refl _) (fun _ _ _ => List.IsPrefix.trans) ?_ h fun _ _ => trivial).2
  intro db call db' response h _ hok
  obtain ⟨added, hadded, -⟩ := (step_sidecar (sound_of_reachable h) hok).metrics
  rw [hadded]
  exact List.prefix_append _ _

omit [Hashlib] [SecureCodec] in
/-- A batch holds the artifacts that go first. -/
theorem backfillBatch_first {db : Database} {hash profileId : String} {limit : Int}
    {row other : MissingRow} (hrow : row ∈ backfillBatch db hash profileId limit)
    (hother : other ∈ missingMetrics db hash profileId)
    (hnot : other ∉ backfillBatch db hash profileId limit) : row.sortKey ≤ other.sortKey := by
  have hpair := orderBy_pairwise MissingRow.sortKey (missingMetrics db hash profileId)
  rw [← List.take_append_drop limit.toNat (orderBy _ _)] at hpair
  refine (List.pairwise_append.mp hpair).2.2 row hrow other ?_
  have hmem : other ∈ orderBy MissingRow.sortKey (missingMetrics db hash profileId) :=
    mem_orderBy.mpr hother
  rw [← List.take_append_drop limit.toNat (orderBy _ _)] at hmem
  exact (List.mem_append.mp hmem).resolve_left hnot

/-- The token metric sidecar in every reachable state. -/
theorem token_metric_sidecar {db : Database} (h : repository.Reachable db) : SidecarKept db := by
  have hsidecar := sidecarSound_of_reachable h
  have hsound := sound_of_reachable h
  refine ⟨hsidecar.disjoint, tokenMetrics_prefix h, hsidecar.stored, ?_, ?_, ?_, ?_⟩
  · intro hash profileId limit
    exact ⟨length_backfillBatch db hash profileId limit, fun row hrow other hother hnot =>
      backfillBatch_first hrow hother hnot⟩
  · intro session hsession profileId count limit hcountable between hcalls hagrees now
    obtain ⟨artifacts, metrics, db', hread, hids, hmetrics, hwrite, -, hmissing⟩ :=
      backfill_pair h hsession hcountable hcalls hagrees now
    exact ⟨artifacts, metrics, db', hread, hids, hmetrics, hwrite, hmissing⟩
  · intro session hsession profileId count limit hcountable rounds hcaptures
    have hkind : ∀ row, (decide (row ∈ missingMetrics db session.sessionKeyHash profileId) &&
        decide (row.artifactKind = .event)) = true → row ∈ db.artifacts session.sessionKeyHash := by
      intro row hrow
      simp only [Bool.and_eq_true, decide_eq_true_eq] at hrow
      exact (mem_missingMetrics.mp hrow.1).1
    obtain ⟨db', hrounds, -, hcount⟩ := backfillRounds_countP _ (fun _ => True) hkind
      (fun db' _ hkeeps _ => events_goFirst hsound.journal hkeeps) rounds
      (fun _ _ _ _ _ _ _ => trivial) hcaptures h (.refl db) trivial
      ⟨session, hsession, rfl, rfl⟩ hcountable
    refine ⟨db', hrounds, fun henough row hrow hevent hmissing => ?_⟩
    have hsame : (missingMetrics db session.sessionKeyHash profileId).countP
        (fun row => decide (row ∈ missingMetrics db session.sessionKeyHash profileId) &&
          decide (row.artifactKind = .event)) =
        (missingMetrics db session.sessionKeyHash profileId).countP
          (fun row => row.artifactKind = .event) :=
      List.countP_congr fun other hother => by simp [hother]
    have hzero := Nat.le_zero.mp (hcount.trans (by omega))
    exact List.countP_eq_zero.mp hzero row hmissing (by simp [hrow, hevent])
  · intro session hsession profileId count limit hcountable rounds hcaptures hcounted
    have hkind : ∀ row, decide (row ∈ missingMetrics db session.sessionKeyHash profileId) = true →
        row ∈ db.artifacts session.sessionKeyHash :=
      fun row hrow => (mem_missingMetrics.mp (of_decide_eq_true hrow)).1
    have hkept : ∀ round ∈ rounds, ∀ db₁ db₂, repository.Reachable db₁ →
        NoneAdded db session.sessionKeyHash profileId db₁ →
        backfillMetrics count session.sessionKey profileId limit db₁ round = .ok db₂ →
        NoneAdded db session.sessionKeyHash profileId db₂ := by
      intro round hround db₁ db₂ hreachable hnone hok
      have hcapture := hcaptures round hround
      have hcalls := hcounted round hround
      exact hnone.round hreachable hok
        (fun call hcall => ⟨hcapture.between call hcall,
          hcalls call (List.mem_append_left _ hcall)⟩)
        (fun call hcall => ⟨hcapture.after call hcall,
          hcalls call (List.mem_append_right _ hcall)⟩)
    obtain ⟨db', hrounds, -, hcount⟩ := backfillRounds_countP _ _ hkind
      (fun db' _ hkeeps hnone row hrow _ _ _ _ =>
        decide_eq_true (hkeeps.missing (hnone.missing row hrow) hrow)) rounds hkept hcaptures h
      (.refl db) ⟨.refl db, fun row hrow => (mem_missingMetrics.mp hrow).1⟩
      ⟨session, hsession, rfl, rfl⟩ hcountable
    refine ⟨db', hrounds, fun henough row hrow hmissing => ?_⟩
    have hle := List.countP_le_length
      (p := fun row => decide (row ∈ missingMetrics db session.sessionKeyHash profileId))
      (l := missingMetrics db session.sessionKeyHash profileId)
    have hzero := Nat.le_zero.mp (hcount.trans (by omega))
    exact List.countP_eq_zero.mp hzero row hmissing (by simp [hrow])

end Runs

namespace Sample

/-- Three rounds, with an event captured without a count after the first. -/
def delayedRounds : List BackfillRound :=
  [⟨2, [], [message "e2"]⟩, ⟨2, [], []⟩, ⟨2, [], []⟩]

/-- The artifacts of the sample session without a metric. -/
def missingOf (db : Database) : List (ArtifactKind × String) :=
  (missingMetrics db sessionHash "profile").map fun row => (row.artifactKind, row.artifactId)

end Sample

open Sample in
/-- After one compaction an event, a capsule and a snapshot wait for their metrics. -/
theorem token_metric_sidecar_sample :
    missingOf (repository.execute firstCompaction) =
        [(.event, "e1"), (.capsule, "first"), (.snapshot, "one")] ∧
      Countable (repository.execute firstCompaction) sessionHash "profile" (fun _ => 1) 1 ∧
      SidecarKept (repository.execute firstCompaction) := by
  have hfits : ∀ row ∈ missingMetrics (repository.execute firstCompaction) sessionHash "profile",
      (metricCell (row.key "profile") 1).fits = true := by
    decide +kernel
  refine ⟨by decide +kernel, ⟨by decide, by decide, ?_, ?_, fun row hrow _ => hfits row hrow⟩,
    token_metric_sidecar (repository.reachable_execute firstCompaction)⟩
  · decide +kernel
  · decide +kernel

open Sample in
/-- Three rounds of one artifact each do not reach the third of three missing artifacts when an event
is captured without a count after the first: it goes before the capsule and the snapshot. -/
theorem uncounted_event_delays_snapshot :
    ¬ ∀ rounds : List BackfillRound,
      (∀ round ∈ rounds, round.Captures (fun _ => 1) sessionHash "profile") →
      ∀ db', forEach (backfillMetrics (fun _ => 1) session "profile" 1)
          (repository.execute firstCompaction) rounds = .ok db' →
        (missingMetrics (repository.execute firstCompaction) sessionHash "profile").length ≤
          rounds.length * (1 : Int).toNat →
        ∀ row ∈ missingMetrics (repository.execute firstCompaction) sessionHash "profile",
          row ∉ missingMetrics db' sessionHash "profile" := by
  intro h
  have hleft : (forEach (backfillMetrics (fun _ => 1) session "profile" 1)
      (repository.execute firstCompaction) delayedRounds).map
        (fun db => missingMetrics db sessionHash "profile") =
      .ok [⟨2, 1, 1, .snapshot, "one"⟩] := by
    decide +kernel
  obtain ⟨db', hrounds, hmissing⟩ := map_ok.mp hleft
  have hcapture : (message "e2").IsCapture := ⟨_, _, rfl⟩
  have hfits : (message "e2").Fits (fun _ => 1) sessionHash "profile" := by
    intro eventType request hrequest _ _
    obtain ⟨-, rfl⟩ := Prod.mk.inj (Option.some.inj hrequest)
    have hfits : (metricCell ⟨.event, "e2", "profile"⟩ 1).fits = true := by
      decide +kernel
    exact hfits
  have hcaptures : ∀ round ∈ delayedRounds, round.Captures (fun _ => 1) sessionHash "profile" := by
    intro round hround
    simp only [delayedRounds, List.mem_cons, List.not_mem_nil, or_false] at hround
    rcases hround with rfl | rfl | rfl
    · exact ⟨by simp, by simp, by simpa using hcapture, by simpa using hfits⟩
    · exact ⟨by simp, by simp, by simp, by simp⟩
    · exact ⟨by simp, by simp, by simp, by simp⟩
  refine h delayedRounds hcaptures db' hrounds (by decide +kernel) ⟨2, 1, 1, .snapshot, "one"⟩
    (by decide +kernel) ?_
  rw [hmissing]
  exact List.mem_cons_self

end AstrContinuum
