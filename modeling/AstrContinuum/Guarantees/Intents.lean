import AstrContinuum.Guarantees.Linearity

/-!
# No compaction intent is lost

An accepted intent stays covered by the active snapshot, or carried by a job of its session that is
nonterminal or has failed. `Effect.keepsIntent` is the step lemma, `no_lost_intent` the result over
whole runs: intents survive folding, claims, retries, recovery, supersession and commits.
-/

namespace AstrContinuum

open Checked Relational Transactional

section Intents

variable [Hashlib]

/-- A state in which a job still carries its intent: it can be claimed again, or it has failed. -/
def CompactionJobState.carriesIntent (state : CompactionJobState) : Bool :=
  state.isNonterminal || decide (state = .failed)

/-- The intent of a session up to `target` is kept: covered, or carried by a job. -/
def IntentKept (db : Database) (hash : String) (target : Nat) : Prop :=
  target ≤ db.coverage hash ∨
    ∃ row ∈ db.compactionJobs, row.sessionKeyHash = hash ∧ row.state.carriesIntent = true ∧
      target ≤ row.intentTargetHighWaterMark

omit [Hashlib] in
/-- A kept intent is covered, or in the nonterminal job of the session, or in a failed one. -/
theorem IntentKept.cases {db : Database} {hash : String} {target : Nat}
    (h : IntentKept db hash target) :
    target ≤ db.coverage hash ∨
      (∃ row, db.nonterminalJob hash = some row ∧ target ≤ row.intentTargetHighWaterMark) ∨
      ∃ row ∈ db.compactionJobs, row.sessionKeyHash = hash ∧ row.state = .failed ∧
        target ≤ row.intentTargetHighWaterMark := by
  rcases h with hcovered | ⟨row, hrow, hsession, hcarries, htarget⟩
  · exact .inl hcovered
  · simp only [CompactionJobState.carriesIntent, Bool.or_eq_true, decide_eq_true_eq] at hcarries
    rcases hcarries with hstate | hfailed
    · refine .inr (.inl ⟨row, ?_, htarget⟩)
      cases hfound : db.nonterminalJob hash with
      | none =>
          rw [Database.nonterminalJob_eq_none.mp hfound row hrow hsession] at hstate
          cases hstate
      | some other =>
          obtain ⟨hother, hotherSession, hotherState⟩ := Database.nonterminalJob_mem hfound
          rw [Database.nonterminal_unique hother hrow hotherState hstate
            (hotherSession.trans hsession.symm)]
    · exact .inr (.inr ⟨row, hrow, hsession, hfailed, htarget⟩)

/-- Every job that carries an intent in `rows` has a job in `rows'` that carries at least it. -/
def CarriesOver (rows rows' : List JobRow) : Prop :=
  ∀ row ∈ rows, row.state.carriesIntent = true → ∃ row' ∈ rows',
    row'.sessionKeyHash = row.sessionKeyHash ∧ row'.state.carriesIntent = true ∧
      row.intentTargetHighWaterMark ≤ row'.intentTargetHighWaterMark

omit [Hashlib] in
/-- Rows carry over to any list that contains them. -/
theorem CarriesOver.of_subset {rows rows' : List JobRow} (h : ∀ row ∈ rows, row ∈ rows') :
    CarriesOver rows rows' :=
  fun row hrow hcarries => ⟨row, h row hrow, rfl, hcarries, le_rfl⟩

omit [Hashlib] in
/-- An update carries the intents over when each changed row still carries its own. -/
theorem CarriesOver.update {rows : List JobRow} {selected : JobRow → Bool}
    {change : JobRow → JobRow}
    (h : ∀ row ∈ rows, selected row = true → (change row).sessionKeyHash = row.sessionKeyHash ∧
      (change row).state.carriesIntent = true ∧
      row.intentTargetHighWaterMark ≤ (change row).intentTargetHighWaterMark) :
    CarriesOver rows (Relational.update selected change rows) := by
  intro row hrow hcarries
  cases hselected : selected row with
  | true =>
      exact ⟨change row, mem_update.mpr (.inl ⟨row, hrow, hselected, rfl⟩), h row hrow hselected⟩
  | false => exact ⟨row, mem_update.mpr (.inr ⟨hrow, hselected⟩), rfl, hcarries, le_rfl⟩

omit [Hashlib] in
/-- An update of one job carries the intents over when this job still carries its own. -/
theorem CarriesOver.update_one {db : Database} {row : JobRow} (hrow : row ∈ db.compactionJobs)
    {change : JobRow → JobRow} (hsession : (change row).sessionKeyHash = row.sessionKeyHash)
    (hcarries : (change row).state.carriesIntent = true)
    (hintent : row.intentTargetHighWaterMark ≤ (change row).intentTargetHighWaterMark) :
    CarriesOver db.compactionJobs
      (Relational.update (fun other => other.jobId = row.jobId) change db.compactionJobs) := by
  refine .update fun other hother hselected => ?_
  obtain rfl := db.consistent.compactionJobs.primaryKey.eq_of_key hother hrow
    (by simpa using hselected)
  exact ⟨hsession, hcarries, hintent⟩

omit [Hashlib] in
/-- Kept intents stay kept when coverage does not go back and every intent carries over. -/
theorem IntentKept.carry {db db' : Database} {hash : String} {target : Nat}
    (h : IntentKept db hash target) (hcoverage : db.coverage hash ≤ db'.coverage hash)
    (hjobs : CarriesOver db.compactionJobs db'.compactionJobs) : IntentKept db' hash target := by
  rcases h with hcovered | ⟨row, hrow, hsession, hcarries, htarget⟩
  · exact .inl (hcovered.trans hcoverage)
  · obtain ⟨row', hrow', hsession', hcarries', hintent⟩ := hjobs row hrow hcarries
    exact .inr ⟨row', hrow', hsession'.trans hsession, hcarries', htarget.trans hintent⟩

/-- A settlement keeps intents: the intent of the settled job is covered by the winner or handed to
the follow-up. -/
theorem IntentKept.settled {db db' : Database} {row : JobRow} {outcome : PublishOutcome}
    {winnerId hash : String} {coverage version target : Nat} {now : Timestamp}
    (h : IntentKept db hash target) (hrow : row ∈ db.compactionJobs)
    (hcoverage : db.coverage hash ≤ db'.coverage hash)
    (hwinner : db'.coverage row.sessionKeyHash = coverage)
    (hjobs : db'.compactionJobs =
      settledJobs outcome row winnerId coverage version now db.compactionJobs) :
    IntentKept db' hash target := by
  subst hwinner
  rcases h with hcovered | ⟨other, hother, hsession, hcarries, htarget⟩
  · exact .inl (hcovered.trans hcoverage)
  · by_cases hid : other.jobId = row.jobId
    · obtain rfl := db.consistent.compactionJobs.primaryKey.eq_of_key hother hrow hid
      by_cases hopen : other.intentTargetHighWaterMark ≤ db'.coverage other.sessionKeyHash
      · exact .inl (hsession ▸ htarget.trans hopen)
      · refine .inr ⟨.pending (followUpId other.jobId winnerId version
          other.intentTargetHighWaterMark) other.sessionKeyHash other.intentTargetHighWaterMark
          (some winnerId) version now, ?_, hsession, rfl, htarget⟩
        rw [hjobs]
        refine List.mem_append_right _ ?_
        simp [followUpJobs, hopen]
    · refine .inr ⟨other, ?_, hsession, hcarries, htarget⟩
      rw [hjobs]
      exact List.mem_append_left _ (mem_update.mpr (.inr ⟨hother, by simpa using hid⟩))

/-- Every committed call keeps every kept intent. -/
theorem Effect.keepsIntent {db db' : Database} {operation : Operation} {response : Response}
    (h : Effect db operation db' response) (hchain : ChainSound db) (hchain' : ChainSound db')
    {hash : String} {target : Nat} (hkept : IntentKept db hash target) :
    IntentKept db' hash target := by
  have hcoverage := hchain.coverage_le hchain' h.grows hash
  cases h with
  | captured _ heffect =>
      cases heffect with
      | replayed _ hold | appended _ _ _ _ _ _ hold =>
          refine hkept.carry hcoverage (.of_subset fun row hrow => ?_)
          rw [hold.compactionJobs]
          exact hrow
  | sidecar _ hholds =>
      exact hkept.carry hcoverage (.of_subset fun row hrow => by rwa [hholds.compactionJobs])
  | intentCovered | intentCarried | claimedNone | viewed => exact hkept
  | intentFolded hrow _ hstate hintent _ htables =>
      refine hkept.carry hcoverage ?_
      rw [congrArg Tables.compactionJobs htables]
      refine .update_one hrow rfl ?_ hintent.le
      simp [JobRow.foldIntent, CompactionJobState.carriesIntent, hstate]
  | intentQueued _ _ _ htables =>
      refine hkept.carry hcoverage (.of_subset fun row hrow => ?_)
      rw [congrArg Tables.compactionJobs htables]
      exact List.mem_append_left _ hrow
  | claimed hrow _ _ htables =>
      refine hkept.carry hcoverage ?_
      rw [congrArg Tables.compactionJobs htables]
      exact .update_one hrow rfl rfl le_rfl
  | transitioned hrow _ hallowed htables =>
      refine hkept.carry hcoverage ?_
      rw [congrArg Tables.compactionJobs htables]
      refine .update_one (Database.jobRow_eq_some.mp hrow).1 rfl ?_ le_rfl
      have hworking := CompactionJobState.allowed_worker_transition_working hallowed
      simp [JobRow.transition, CompactionJobState.carriesIntent,
        CompactionJobState.isNonterminal_of_isWorking hworking]
  | renewed hrow hfenced htables =>
      refine hkept.carry hcoverage ?_
      rw [congrArg Tables.compactionJobs htables]
      refine .update_one (Database.jobRow_eq_some.mp hrow).1 rfl ?_ le_rfl
      simp [JobRow.renew, CompactionJobState.carriesIntent,
        CompactionJobState.isNonterminal_of_isWorking hfenced.1]
  | @failed _ failure _ _ _ hrow _ htables =>
      refine hkept.carry hcoverage ?_
      rw [congrArg Tables.compactionJobs htables]
      refine .update_one (Database.jobRow_eq_some.mp hrow).1 rfl ?_ le_rfl
      cases hretry : failure.retryAt <;>
        simp [JobRow.fail, hretry, CompactionJobState.carriesIntent,
          CompactionJobState.isNonterminal]
  | recovered htables =>
      refine hkept.carry hcoverage ?_
      rw [congrArg Tables.compactionJobs htables]
      exact .update fun row _ _ => ⟨rfl, rfl, le_rfl⟩
  | superseded hadmits hactive hwinner _ _ htables =>
      have hholds := Database.Holds.of_eq htables
      have hcovered := Database.coverage_of_active (hholds.activeRow_eq.trans hactive)
        (hholds.snapshotRow_eq.trans hwinner)
      exact hkept.settled (Database.jobRow_eq_some.mp hadmits.stored).1 hcoverage hcovered
        hholds.compactionJobs
  | committed hadmits hstaged _ _ htables =>
      have hholds := Database.Holds.of_eq htables
      have hcovered := hchain'.coverage_committed hadmits
        (hholds.snapshots.trans (hadmits.snapshots_eq hstaged))
      exact hkept.settled (Database.jobRow_eq_some.mp hadmits.stored).1 hcoverage hcovered
        hholds.compactionJobs

/-- A committed `raise_compaction_intent` keeps the intent it was given. -/
theorem Effect.intentKept {db db' : Database} {jobId : String} {sessionKey : SessionKey}
    {target : Nat} {now : Timestamp} {response : Response}
    (h : Effect db (.raiseCompactionIntent jobId sessionKey target now) db' response) :
    IntentKept db' sessionKey.sessionKeyHash target := by
  cases h with
  | captured hoperation _ => cases hoperation
  | sidecar hoperation _ => cases hoperation
  | intentCovered hcovered => exact .inl hcovered
  | intentCarried hrow hsession hstate htarget =>
      exact .inr ⟨_, hrow, hsession, by simp [CompactionJobState.carriesIntent, hstate], htarget⟩
  | @intentFolded _ _ _ _ row _ _ hrow hsession hstate _ _ htables =>
      refine .inr ⟨row.foldIntent target now, ?_, hsession, ?_, le_rfl⟩
      · rw [congrArg Tables.compactionJobs htables]
        exact mem_update.mpr (.inl ⟨row, hrow, by simp, rfl⟩)
      · simp [JobRow.foldIntent, CompactionJobState.carriesIntent, hstate]
  | intentQueued _ _ _ htables =>
      refine .inr ⟨.pending jobId sessionKey.sessionKeyHash target
        (db.pointer sessionKey.sessionKeyHash).1 (db.pointer sessionKey.sessionKeyHash).2 now,
        ?_, rfl, rfl, le_rfl⟩
      rw [congrArg Tables.compactionJobs htables]
      exact List.mem_append_right _ (List.mem_singleton_self _)

variable [SecureCodec]

/-- For every run and every intent that `raise_compaction_intent` accepted in it, the target is
covered by the active snapshot of the session, or within the intent of its nonterminal job, or
within the intent of a failed job. -/
theorem no_lost_intent {history : List (Entry Call Response StorageFailure)} {db : Database}
    (h : repository.Run history db) {jobId : String} {sessionKey : SessionKey} {target : Nat}
    {now : Timestamp} {faults : FaultInjector} {response : Response}
    (haccepted : ⟨⟨.raiseCompactionIntent jobId sessionKey target now, faults⟩, .ok response⟩ ∈
      history) :
    target ≤ db.coverage sessionKey.sessionKeyHash ∨
      (∃ row, db.nonterminalJob sessionKey.sessionKeyHash = some row ∧
        target ≤ row.intentTargetHighWaterMark) ∨
      ∃ row ∈ db.compactionJobs, row.sessionKeyHash = sessionKey.sessionKeyHash ∧
        row.state = .failed ∧ target ≤ row.intentTargetHighWaterMark := by
  refine IntentKept.cases ?_
  induction h with
  | start => cases haccepted
  | @call history state c hrun ih =>
      have hsound : Sound state := sound_of_reachable ⟨_, hrun⟩
      rcases repository.next_cases state c with
        ⟨state', response', hok, hnext, hresult⟩ | ⟨failure, -, hnext, hresult⟩
      · have heffect := hsound.effect hok
        rw [hnext]
        rcases List.mem_cons.mp haccepted with hentry | hentry
        · have hoperation : c.operation = .raiseCompactionIntent jobId sessionKey target now :=
            (congrArg (fun entry => entry.call.operation) hentry).symm
          rw [hoperation] at heffect
          exact heffect.intentKept
        · exact heffect.keepsIntent hsound.chain (hsound.step hok).chain (ih hentry)
      · rw [hnext]
        rcases List.mem_cons.mp haccepted with hentry | hentry
        · rw [← hentry] at hresult
          cases hresult
        · exact ih hentry

end Intents

/-- The intent of the sample. -/
def Sample.intent : Call where
  operation := .raiseCompactionIntent "job1" session 1 1

open Sample in
/-- The intent raised after the first event of the sample is accepted and kept. -/
theorem no_lost_intent_sample :
    ∃ response, ⟨intent, .ok response⟩ ∈ (repository.trace ([message "e1"] ++ [intent])).1 ∧
      (1 ≤ (repository.execute ([message "e1"] ++ [intent])).coverage session.sessionKeyHash ∨
        (∃ row, (repository.execute ([message "e1"] ++ [intent])).nonterminalJob
            session.sessionKeyHash = some row ∧ 1 ≤ row.intentTargetHighWaterMark) ∨
        ∃ row ∈ (repository.execute ([message "e1"] ++ [intent])).compactionJobs,
          row.sessionKeyHash = session.sessionKeyHash ∧ row.state = .failed ∧
            1 ≤ row.intentTargetHighWaterMark) := by
  have hok : ((repository.entry (repository.execute [message "e1"]) intent).result).toBool = true := by
    decide +kernel
  have hentry : ∃ response,
      repository.entry (repository.execute [message "e1"]) intent = ⟨intent, .ok response⟩ := by
    cases hresult : (repository.entry (repository.execute [message "e1"]) intent).result with
    | ok response => exact ⟨response, by rw [← hresult]; rfl⟩
    | error failure =>
        rw [hresult] at hok
        cases hok
  obtain ⟨response, hentry⟩ := hentry
  have haccepted :
      ⟨intent, .ok response⟩ ∈ (repository.trace ([message "e1"] ++ [intent])).1 := by
    rw [System.trace_concat, hentry]
    exact List.mem_cons_self
  exact ⟨response, haccepted, no_lost_intent (repository.run_trace _) haccepted⟩

end AstrContinuum
