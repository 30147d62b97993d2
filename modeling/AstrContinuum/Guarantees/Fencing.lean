import AstrContinuum.Guarantees.Linearity

/-!
# Fencing

Workers are arbitrary clients: they may resume after their lease has expired, repeat old epochs, or
share an owner name. The history of a run tells who may act on a job: the holder of its latest
claim, as long as nothing has recovered or ended that claim. `fencing` shows that the stored lease
columns agree with the history, so that every worker operation of anyone else raises and changes
nothing.
-/

namespace AstrContinuum

open Checked Relational Transactional

/-- The history entries of the repository. -/
abbrev HistoryEntry := Entry Call Response StorageFailure

/-! ## Leases in the history -/

/-- What a committed call did to the lease of a job. -/
inductive LeaseEvent
  | claimed (owner : String) (leaseEpoch : Nat)
  | recovered
  | ended
deriving DecidableEq

/-- The event of an entry for a job: a claim that returned it, a recovery that returned it, or a
failure or publication of it. -/
def leaseEvent (jobId : String) (entry : HistoryEntry) : Option LeaseEvent :=
  match entry.call.operation, entry.result with
  | .claimJob worker _ _, .ok (.job (some job)) =>
      if job.jobId = jobId then some (.claimed worker job.leaseEpoch) else none
  | .recoverExpiredLeases _, .ok (.recovered jobs) =>
      if jobId ∈ jobs.map fun job => job.jobId then some .recovered else none
  | .failJob fence _, .ok _ => if fence.jobId = jobId then some .ended else none
  | .publishSnapshot request, .ok _ =>
      if request.fence.jobId = jobId then some .ended else none
  | _, _ => none

/-- The latest claim of a job was issued to this owner with this epoch, and nothing has happened to
its lease since. -/
def LiveClaim (history : List HistoryEntry) (jobId owner : String) (leaseEpoch : Nat) : Prop :=
  ∃ later claim earlier, history = later ++ claim :: earlier ∧
    leaseEvent jobId claim = some (.claimed owner leaseEpoch) ∧
    ∀ entry ∈ later, leaseEvent jobId entry = none

/-- The epochs of the successful claims of a job, latest first. -/
def claimEpochs (jobId : String) (history : List HistoryEntry) : List Nat :=
  history.filterMap fun entry =>
    match leaseEvent jobId entry with
    | some (.claimed _ leaseEpoch) => some leaseEpoch
    | _ => none

/-- The entry committed a snapshot for the job. -/
def commits (jobId : String) (entry : HistoryEntry) : Bool :=
  match entry.call.operation, entry.result with
  | .publishSnapshot request, .ok (.published result) =>
      decide (request.fence.jobId = jobId) && decide (result.outcome = .committed)
  | _, _ => false

/-- The fence that a worker operation presents. -/
def Operation.fence? : Operation → Option Fence
  | .transitionJob fence _ _ | .renewJobLease fence _ | .failJob fence _
  | .readCompactionView fence => some fence
  | .publishSnapshot request => some request.fence
  | _ => none

/-- A call that raises is no lease event. -/
@[simp] theorem leaseEvent_error (jobId : String) (call : Call) (failure : StorageFailure) :
    leaseEvent jobId ⟨call, .error failure⟩ = none := by
  obtain ⟨operation, faults⟩ := call
  cases operation <;> rfl

/-- A new claim is live. -/
theorem LiveClaim.claim {history : List HistoryEntry} {entry : HistoryEntry}
    {jobId owner : String} {leaseEpoch : Nat}
    (h : leaseEvent jobId entry = some (.claimed owner leaseEpoch)) :
    LiveClaim (entry :: history) jobId owner leaseEpoch :=
  ⟨[], entry, history, rfl, h, by simp⟩

/-- A live claim stays live while nothing happens to its lease. -/
theorem LiveClaim.later {history : List HistoryEntry} {entry : HistoryEntry}
    {jobId owner : String} {leaseEpoch : Nat} (h : LiveClaim history jobId owner leaseEpoch)
    (hentry : leaseEvent jobId entry = none) :
    LiveClaim (entry :: history) jobId owner leaseEpoch := by
  obtain ⟨later, claim, earlier, rfl, hclaim, hlater⟩ := h
  refine ⟨entry :: later, claim, earlier, rfl, hclaim, ?_⟩
  intro other hother
  rcases List.mem_cons.mp hother with rfl | hother
  · exact hentry
  · exact hlater other hother

/-- The epoch of a claim is among the claim epochs. -/
theorem mem_claimEpochs {history : List HistoryEntry} {entry : HistoryEntry}
    {jobId owner : String} {leaseEpoch : Nat} (hentry : entry ∈ history)
    (h : leaseEvent jobId entry = some (.claimed owner leaseEpoch)) :
    leaseEpoch ∈ claimEpochs jobId history :=
  List.mem_filterMap.mpr ⟨entry, hentry, by simp [h]⟩

/-- Where epochs increase, the claim of a recovered lease is not live any more. -/
theorem LiveClaim.not_recovered {later earlier : List HistoryEntry} {recovery claim : HistoryEntry}
    {jobId owner : String} {leaseEpoch : Nat}
    (hincreasing : (claimEpochs jobId (later ++ recovery :: earlier)).Pairwise
      fun newer older => older < newer)
    (hrecovery : leaseEvent jobId recovery = some .recovered) (hclaim : claim ∈ earlier)
    (hevent : leaseEvent jobId claim = some (.claimed owner leaseEpoch)) :
    ¬ LiveClaim (later ++ recovery :: earlier) jobId owner leaseEpoch := by
  rintro ⟨after, latest, before, hsplit, hlatest, hafter⟩
  -- The latest claim stands after the recovery, so its epoch is above that of the old claim.
  have hmem : latest ∈ later := by
    rcases List.append_eq_append_iff.mp hsplit with ⟨between, rfl, hrest⟩ | ⟨between, rfl, hrest⟩
    · cases between with
      | nil =>
          obtain ⟨rfl, -⟩ : recovery = latest ∧ earlier = before := by simpa using hrest
          rw [hrecovery] at hlatest
          cases hlatest
      | cons first rest =>
          obtain ⟨rfl, -⟩ : recovery = first ∧ earlier = rest ++ latest :: before := by
            simpa using hrest
          have hnone := hafter recovery (by simp)
          rw [hrecovery] at hnone
          cases hnone
    · cases between with
      | nil =>
          obtain ⟨rfl, -⟩ : latest = recovery ∧ before = earlier := by simpa using hrest
          rw [hrecovery] at hlatest
          cases hlatest
      | cons first rest =>
          obtain ⟨rfl, -⟩ : latest = first ∧ before = rest ++ recovery :: earlier := by
            simpa using hrest
          simp
  rw [claimEpochs, List.filterMap_append, List.pairwise_append] at hincreasing
  have hlt := hincreasing.2.2 leaseEpoch (mem_claimEpochs hmem hlatest) leaseEpoch
    (mem_claimEpochs (List.mem_cons_of_mem _ hclaim) hevent)
  exact Nat.lt_irrefl _ hlt

/-! ## What a call does to the stored leases -/

section Leases

variable [Hashlib]

/-- A committed worker operation has presented the stored, unexpired lease. -/
theorem Effect.fenced {db db' : Database} {operation : Operation} {response : Response}
    (h : Effect db operation db' response) {fence : Fence}
    (hfence : operation.fence? = some fence) :
    ∃ row, db.jobRow fence.jobId = some row ∧
      row.Fenced fence.owner fence.leaseEpoch fence.now := by
  cases h with
  | captured hoperation _ | sidecar hoperation _ =>
      cases operation <;> first | (cases hfence; done) | cases hoperation
  | intentCovered | intentCarried | intentFolded | intentQueued | claimedNone | claimed
  | recovered => cases hfence
  | transitioned hrow hfenced | renewed hrow hfenced | failed hrow hfenced
  | viewed hrow hfenced =>
      obtain rfl := Option.some.inj hfence
      exact ⟨_, hrow, hfenced⟩
  | committed hadmits | superseded hadmits =>
      obtain rfl := Option.some.inj hfence
      exact ⟨_, hadmits.stored, hadmits.fenced⟩

/-- How the job rows evolve: every job keeps its id, its epoch does not decrease, and a terminal job
never changes. -/
def Evolves (rows rows' : List JobRow) : Prop :=
  ∀ row ∈ rows, ∃ row' ∈ rows', row'.jobId = row.jobId ∧ row.leaseEpoch ≤ row'.leaseEpoch ∧
    (row.state.isNonterminal = false → row' = row)

omit [Hashlib] in
/-- Added rows change no old one. -/
theorem Evolves.of_subset {rows rows' : List JobRow} (h : ∀ row ∈ rows, row ∈ rows') :
    Evolves rows rows' :=
  fun row hrow => ⟨row, h row hrow, rfl, le_rfl, fun _ => rfl⟩

omit [Hashlib] in
/-- An update of nonterminal rows that keeps their ids and decreases no epoch. -/
theorem Evolves.update {rows : List JobRow} {selected : JobRow → Bool} {change : JobRow → JobRow}
    (h : ∀ row ∈ rows, selected row = true → row.state.isNonterminal = true ∧
      (change row).jobId = row.jobId ∧ row.leaseEpoch ≤ (change row).leaseEpoch) :
    Evolves rows (Relational.update selected change rows) := by
  intro row hrow
  cases hselected : selected row with
  | true =>
      obtain ⟨hstate, hid, hepoch⟩ := h row hrow hselected
      refine ⟨change row, mem_update.mpr (.inl ⟨row, hrow, hselected, rfl⟩), hid, hepoch, ?_⟩
      intro hterminal
      rw [hstate] at hterminal
      cases hterminal
  | false => exact ⟨row, mem_update.mpr (.inr ⟨hrow, hselected⟩), rfl, le_rfl, fun _ => rfl⟩

omit [Hashlib] in
/-- An update of one nonterminal job that keeps its id and does not decrease its epoch. -/
theorem Evolves.update_one {db : Database} {row : JobRow} (hrow : row ∈ db.compactionJobs)
    (hstate : row.state.isNonterminal = true) {change : JobRow → JobRow}
    (hid : (change row).jobId = row.jobId) (hepoch : row.leaseEpoch ≤ (change row).leaseEpoch) :
    Evolves db.compactionJobs
      (Relational.update (fun other => other.jobId = row.jobId) change db.compactionJobs) := by
  refine .update fun other hother hselected => ?_
  obtain rfl := db.consistent.compactionJobs.primaryKey.eq_of_key hother hrow
    (by simpa using hselected)
  exact ⟨hstate, hid, hepoch⟩

/-- A settlement finishes one nonterminal job and leaves the others alone. -/
theorem Evolves.settled {db : Database} {row : JobRow} (hrow : row ∈ db.compactionJobs)
    (hstate : row.state.isNonterminal = true) {outcome : PublishOutcome} {winnerId : String}
    {coverage version : Nat} {now : Timestamp} :
    Evolves db.compactionJobs
      (settledJobs outcome row winnerId coverage version now db.compactionJobs) := by
  have hfinished : Evolves db.compactionJobs (Relational.update
      (fun other => other.jobId = row.jobId) (JobRow.finish outcome now) db.compactionJobs) :=
    .update_one hrow hstate rfl le_rfl
  intro other hother
  obtain ⟨row', hrow', hevolved⟩ := hfinished other hother
  exact ⟨row', List.mem_append_left _ hrow', hevolved⟩

/-- Every committed call evolves the jobs. -/
theorem Effect.evolves {db db' : Database} {operation : Operation} {response : Response}
    (h : Effect db operation db' response) : Evolves db.compactionJobs db'.compactionJobs := by
  cases h with
  | captured _ heffect =>
      cases heffect with
      | replayed _ hold | appended _ _ _ _ _ _ hold =>
          exact .of_subset fun row hrow => by rw [hold.compactionJobs]; exact hrow
  | sidecar _ hholds => exact .of_subset fun row hrow => by rwa [hholds.compactionJobs]
  | intentCovered | intentCarried | claimedNone | viewed => exact .of_subset fun _ hrow => hrow
  | intentFolded hrow _ hstate _ _ htables =>
      rw [congrArg Tables.compactionJobs htables]
      exact .update_one hrow hstate rfl le_rfl
  | intentQueued _ _ _ htables =>
      rw [congrArg Tables.compactionJobs htables]
      exact .of_subset fun _ hrow => List.mem_append_left _ hrow
  | claimed hrow heligible _ htables =>
      rw [congrArg Tables.compactionJobs htables]
      exact .update_one hrow (JobRow.isNonterminal_of_isEligible heligible) rfl (Nat.le_succ _)
  | transitioned hrow hfenced _ htables | renewed hrow hfenced htables
  | failed hrow hfenced htables =>
      rw [congrArg Tables.compactionJobs htables]
      exact .update_one (Database.jobRow_eq_some.mp hrow).1
        (CompactionJobState.isNonterminal_of_isWorking hfenced.1) rfl le_rfl
  | recovered htables =>
      rw [congrArg Tables.compactionJobs htables]
      refine .update fun row _ hexpired => ⟨?_, rfl, le_rfl⟩
      exact CompactionJobState.isNonterminal_of_isWorking (Bool.and_eq_true_iff.mp hexpired).1
  | committed hadmits hstaged _ _ htables | superseded hadmits _ _ _ _ htables =>
      rw [congrArg Tables.compactionJobs htables]
      exact .settled (Database.jobRow_eq_some.mp hadmits.stored).1 (by rw [hadmits.ready]; rfl)

omit [Hashlib] in
/-- After an update that changes no lease, a leased row had the same lease before. -/
theorem lease_update {rows : List JobRow} {selected : JobRow → Bool} {change : JobRow → JobRow}
    (h : ∀ row, (change row).jobId = row.jobId ∧ (change row).leaseOwner = row.leaseOwner ∧
      (change row).leaseEpoch = row.leaseEpoch)
    {row' : JobRow} (hrow' : row' ∈ update selected change rows) {owner : String}
    (howner : row'.leaseOwner = some owner) :
    ∃ row ∈ rows, row.jobId = row'.jobId ∧ row.leaseOwner = some owner ∧
      row.leaseEpoch = row'.leaseEpoch := by
  rcases mem_update.mp hrow' with ⟨row, hrow, -, rfl⟩ | ⟨hrow, -⟩
  · obtain ⟨hid, hlease, hepoch⟩ := h row
    exact ⟨row, hrow, hid.symm, hlease ▸ howner, hepoch.symm⟩
  · exact ⟨row', hrow, rfl, howner, rfl⟩

/-- What a committed call does to the leases, in terms of its history entry: a leased row was claimed
by this call, or the call is no lease event for it and it had the same lease before. -/
theorem Effect.leases {db db' : Database} {operation : Operation} {response : Response}
    (h : Effect db operation db' response) (faults : FaultInjector) :
    ∀ row' ∈ db'.compactionJobs, ∀ owner, row'.leaseOwner = some owner →
      leaseEvent row'.jobId ⟨⟨operation, faults⟩, .ok response⟩ =
          some (.claimed owner row'.leaseEpoch) ∨
        (leaseEvent row'.jobId ⟨⟨operation, faults⟩, .ok response⟩ = none ∧
          ∃ row ∈ db.compactionJobs, row.jobId = row'.jobId ∧ row.leaseOwner = some owner ∧
            row.leaseEpoch = row'.leaseEpoch) := by
  intro row' hrow' owner howner
  cases h with
  | captured hoperation heffect =>
      refine .inr ⟨(by cases operation <;> first | rfl | cases hoperation), ?_⟩
      cases heffect with
      | replayed _ hold | appended _ _ _ _ _ _ hold =>
          rw [hold.compactionJobs] at hrow'
          exact ⟨row', hrow', rfl, howner, rfl⟩
  | sidecar hoperation hholds =>
      refine .inr ⟨(by cases operation <;> first | rfl | cases hoperation), ?_⟩
      rw [hholds.compactionJobs] at hrow'
      exact ⟨row', hrow', rfl, howner, rfl⟩
  | intentCovered | intentCarried | claimedNone | viewed =>
      exact .inr ⟨rfl, row', hrow', rfl, howner, rfl⟩
  | intentFolded _ _ _ _ _ htables | transitioned _ _ _ htables | renewed _ _ htables =>
      rw [congrArg Tables.compactionJobs htables] at hrow'
      refine .inr ⟨rfl, lease_update ?_ hrow' howner⟩
      exact fun _ => ⟨rfl, rfl, rfl⟩
  | intentQueued _ _ _ htables =>
      rw [congrArg Tables.compactionJobs htables] at hrow'
      rcases List.mem_append.mp hrow' with hrow' | hrow'
      · exact .inr ⟨rfl, row', hrow', rfl, howner, rfl⟩
      · obtain rfl := List.mem_singleton.mp hrow'
        cases howner
  | @claimed worker _ _ row base job _ hrow _ _ htables hjob =>
      have hid : job.jobId = row.jobId := by rw [hjob.fields]; rfl
      have hepoch : job.leaseEpoch = row.leaseEpoch + 1 := by rw [hjob.fields]; rfl
      rw [congrArg Tables.compactionJobs htables] at hrow'
      rcases mem_update.mp hrow' with ⟨old, hold, hselected, rfl⟩ | ⟨hold, hselected⟩
      · obtain rfl := db.consistent.compactionJobs.primaryKey.eq_of_key hold hrow
          (by simpa using hselected)
        obtain rfl : worker = owner := Option.some.inj howner
        refine .inl ?_
        show (if job.jobId = old.jobId then _ else _) = _
        rw [if_pos hid, hepoch]
        rfl
      · refine .inr ⟨?_, row', hold, rfl, howner, rfl⟩
        show (if job.jobId = row'.jobId then _ else _) = _
        rw [if_neg]
        rw [hid]
        exact fun heq => (of_decide_eq_false hselected) heq.symm
  | @failed fence _ row _ _ hrow _ htables =>
      have hid := (Database.jobRow_eq_some.mp hrow).2
      rw [congrArg Tables.compactionJobs htables] at hrow'
      rcases mem_update.mp hrow' with ⟨old, -, -, rfl⟩ | ⟨hold, hselected⟩
      · cases howner
      · refine .inr ⟨?_, row', hold, rfl, howner, rfl⟩
        show (if fence.jobId = row'.jobId then _ else _) = _
        rw [if_neg]
        rw [← hid]
        exact fun heq => (of_decide_eq_false hselected) heq.symm
  | @recovered now jobs _ htables _ hids =>
      rw [congrArg Tables.compactionJobs htables] at hrow'
      rcases mem_update.mp hrow' with ⟨old, -, -, rfl⟩ | ⟨hold, hselected⟩
      · cases howner
      · refine .inr ⟨?_, row', hold, rfl, howner, rfl⟩
        show (if row'.jobId ∈ jobs.map _ then _ else _) = _
        rw [if_neg]
        intro hmem
        obtain ⟨job, hjob, hid⟩ := List.mem_map.mp hmem
        obtain ⟨row, hrow, hrowId, hexpired⟩ := hids job hjob
        obtain rfl := db.consistent.compactionJobs.primaryKey.eq_of_key hold hrow
          (hid.symm.trans hrowId.symm)
        rw [hexpired] at hselected
        cases hselected
  | @committed request admission row _ _ _ hadmits _ _ _ htables
  | @superseded request admission row _ _ _ _ hadmits _ _ _ _ htables =>
      have hid := (Database.jobRow_eq_some.mp hadmits.stored).2
      rw [congrArg Tables.compactionJobs htables] at hrow'
      rcases List.mem_append.mp hrow' with hrow' | hrow'
      · rcases mem_update.mp hrow' with ⟨old, -, -, rfl⟩ | ⟨hold, hselected⟩
        · cases howner
        · refine .inr ⟨?_, row', hold, rfl, howner, rfl⟩
          show (if request.fence.jobId = row'.jobId then _ else _) = _
          rw [if_neg]
          rw [← hid]
          exact fun heq => (of_decide_eq_false hselected) heq.symm
      · unfold followUpJobs at hrow'
        split at hrow'
        · cases hrow'
        · obtain rfl := List.mem_singleton.mp hrow'
          cases howner

/-- A claim in the history took its job from a smaller epoch to the one it returned. -/
theorem Effect.claim_epoch {db db' : Database} {operation : Operation} {response : Response}
    (h : Effect db operation db' response) {faults : FaultInjector} {jobId owner : String}
    {leaseEpoch : Nat}
    (hevent : leaseEvent jobId ⟨⟨operation, faults⟩, .ok response⟩ =
      some (.claimed owner leaseEpoch)) :
    ∃ row row', db.jobRow jobId = some row ∧ db'.jobRow jobId = some row' ∧
      row.leaseEpoch < row'.leaseEpoch ∧ row'.leaseEpoch = leaseEpoch := by
  cases h with
  | captured hoperation _ | sidecar hoperation _ =>
      cases operation <;> first | cases hevent | cases hoperation
  | intentCovered | intentCarried | intentFolded | intentQueued | claimedNone | transitioned
  | renewed | viewed => cases hevent
  | failed | recovered | committed | superseded =>
      simp only [leaseEvent] at hevent
      split at hevent <;> cases hevent
  | @claimed _ now leaseExpiresAt row base job _ hrow _ _ htables hjob =>
      simp only [leaseEvent] at hevent
      split at hevent
      · next hid =>
          cases hevent
          have hrowId : job.jobId = row.jobId := by rw [hjob.fields]; rfl
          have hepoch : job.leaseEpoch = row.leaseEpoch + 1 := by rw [hjob.fields]; rfl
          rw [← hid, hrowId, hepoch]
          refine ⟨row, row.lease base owner leaseExpiresAt now, Database.jobRow_eq_some.mpr ⟨hrow, rfl⟩,
            Database.jobRow_eq_some.mpr ⟨?_, rfl⟩, Nat.lt_succ_self _, rfl⟩
          rw [congrArg Tables.compactionJobs htables]
          exact mem_update.mpr (.inl ⟨row, hrow, by simp, rfl⟩)
      · cases hevent

/-- A commit in the history took its job from a nonterminal state to `COMMITTED`. -/
theorem Effect.commit {db db' : Database} {operation : Operation} {response : Response}
    (h : Effect db operation db' response) {faults : FaultInjector} {jobId : String}
    (hcommits : commits jobId ⟨⟨operation, faults⟩, .ok response⟩ = true) :
    ∃ row row', db.jobRow jobId = some row ∧ db'.jobRow jobId = some row' ∧
      row.state.isNonterminal = true ∧ row'.state = .committed := by
  cases h with
  | captured hoperation _ | sidecar hoperation _ =>
      cases operation <;> first | cases hcommits | cases hoperation
  | intentCovered | intentCarried | intentFolded | intentQueued | claimedNone | claimed
  | transitioned | renewed | failed | recovered | viewed => cases hcommits
  | superseded _ _ _ houtcome => simp [commits, houtcome] at hcommits
  | @committed request admission row _ _ result hadmits _ houtcome _ htables =>
      simp only [commits, Bool.and_eq_true, decide_eq_true_eq] at hcommits
      obtain ⟨rfl, -⟩ := hcommits
      obtain ⟨hrow, hid⟩ := Database.jobRow_eq_some.mp hadmits.stored
      refine ⟨row, row.finish .committed request.fence.now, hadmits.stored,
        Database.jobRow_eq_some.mpr ⟨?_, hid⟩, by rw [hadmits.ready]; rfl, rfl⟩
      rw [congrArg Tables.compactionJobs htables]
      exact List.mem_append_left _ (mem_update.mpr (.inl ⟨row, hrow, by simp, rfl⟩))

/-! ## The history agrees with the stored leases -/

/-- The stored lease of every job is its live claim, every claim epoch is at most the stored one,
claim epochs increase, and a job that has committed is stored as committed. -/
structure LeaseSound (history : List HistoryEntry) (db : Database) : Prop where
  live : ∀ row ∈ db.compactionJobs, ∀ owner, row.leaseOwner = some owner →
    LiveClaim history row.jobId owner row.leaseEpoch
  epochs : ∀ jobId, ∀ leaseEpoch ∈ claimEpochs jobId history,
    ∃ row, db.jobRow jobId = some row ∧ leaseEpoch ≤ row.leaseEpoch
  increasing : ∀ jobId,
    (claimEpochs jobId history).Pairwise fun newer older => older < newer
  committed : ∀ jobId, ∀ entry ∈ history, commits jobId entry = true →
    ∃ row, db.jobRow jobId = some row ∧ row.state = .committed
  once : ∀ jobId, (history.filter (commits jobId)).length ≤ 1

omit [Hashlib] in
/-- Evolution in terms of lookups. -/
theorem Evolves.jobRow {db db' : Database} (h : Evolves db.compactionJobs db'.compactionJobs)
    {jobId : String} {row : JobRow} (hrow : db.jobRow jobId = some row) :
    ∃ row', db'.jobRow jobId = some row' ∧ row.leaseEpoch ≤ row'.leaseEpoch ∧
      (row.state.isNonterminal = false → row' = row) := by
  obtain ⟨hmem, hid⟩ := Database.jobRow_eq_some.mp hrow
  obtain ⟨row', hmem', hid', hepoch, hterminal⟩ := h row hmem
  exact ⟨row', Database.jobRow_eq_some.mpr ⟨hmem', hid'.trans hid⟩, hepoch, hterminal⟩

/-- A committed call keeps the agreement. -/
theorem LeaseSound.step {history : List HistoryEntry} {db db' : Database}
    (h : LeaseSound history db) {call : Call} {response : Response}
    (heffect : Effect db call.operation db' response) :
    LeaseSound (⟨call, .ok response⟩ :: history) db' where
  live row hrow owner howner := by
    rcases heffect.leases call.faults row hrow owner howner with
      hclaimed | ⟨hnone, old, hold, hid, holdOwner, hepoch⟩
    · exact .claim hclaimed
    · rw [← hid, ← hepoch]
      exact (h.live old hold owner holdOwner).later (hid ▸ hnone)
  epochs jobId leaseEpoch hmem := by
    obtain ⟨entry, hentry, hsome⟩ := List.mem_filterMap.mp hmem
    split at hsome
    · next owner epoch hevent =>
        obtain rfl := Option.some.inj hsome
        rcases List.mem_cons.mp hentry with rfl | hentry
        · obtain ⟨-, row', -, hrow', -, hepoch⟩ := heffect.claim_epoch hevent
          exact ⟨row', hrow', hepoch.ge⟩
        · obtain ⟨row, hrow, hle⟩ := h.epochs jobId epoch (mem_claimEpochs hentry hevent)
          obtain ⟨row', hrow', hle', -⟩ := heffect.evolves.jobRow hrow
          exact ⟨row', hrow', hle.trans hle'⟩
    · cases hsome
  increasing jobId := by
    rw [claimEpochs, List.filterMap_cons]
    split
    · exact h.increasing jobId
    · next epoch hsome =>
        refine List.pairwise_cons.mpr ⟨?_, h.increasing jobId⟩
        split at hsome
        · next owner epoch' hevent =>
            obtain rfl := Option.some.inj hsome
            intro older holder
            obtain ⟨row, row', hrow, -, hlt, hepoch⟩ := heffect.claim_epoch hevent
            obtain ⟨stored, hstored, hle⟩ := h.epochs jobId older holder
            obtain rfl := Option.some.inj (hrow.symm.trans hstored)
            omega
        · cases hsome
  committed jobId entry hentry hcommits := by
    rcases List.mem_cons.mp hentry with rfl | hentry
    · obtain ⟨-, row', -, hrow', -, hstate⟩ := heffect.commit hcommits
      exact ⟨row', hrow', hstate⟩
    · obtain ⟨row, hrow, hstate⟩ := h.committed jobId entry hentry hcommits
      obtain ⟨row', hrow', -, hterminal⟩ := heffect.evolves.jobRow hrow
      rw [hterminal (by rw [hstate]; rfl)] at hrow'
      exact ⟨row, hrow', hstate⟩
  once jobId := by
    rw [List.filter_cons]
    split
    · next hcommits =>
        -- The job was nonterminal before this commit, so there was none before.
        have hnil : history.filter (commits jobId) = [] := by
          refine List.filter_eq_nil_iff.mpr fun entry hentry hold => ?_
          obtain ⟨stored, hstored, hstate⟩ := h.committed jobId entry hentry hold
          obtain ⟨row, -, hrow, -, hnonterminal, -⟩ := heffect.commit hcommits
          obtain rfl := Option.some.inj (hrow.symm.trans hstored)
          rw [hstate] at hnonterminal
          cases hnonterminal
        simp [hnil]
    · exact h.once jobId

omit [Hashlib] in
/-- A call that raises keeps the agreement. -/
theorem LeaseSound.raise {history : List HistoryEntry} {db : Database}
    (h : LeaseSound history db) (call : Call) (failure : StorageFailure) :
    LeaseSound (⟨call, .error failure⟩ :: history) db := by
  have hepochs : ∀ jobId, claimEpochs jobId (⟨call, .error failure⟩ :: history) =
      claimEpochs jobId history := by
    intro jobId
    simp [claimEpochs]
  have hcommits : ∀ jobId, commits jobId ⟨call, .error failure⟩ = false := by
    intro jobId
    obtain ⟨operation, faults⟩ := call
    cases operation <;> rfl
  refine ⟨?_, ?_, ?_, ?_, ?_⟩
  · exact fun row hrow owner howner => (h.live row hrow owner howner).later (by simp)
  · intro jobId
    rw [hepochs]
    exact h.epochs jobId
  · intro jobId
    rw [hepochs]
    exact h.increasing jobId
  · intro jobId entry hentry hcommit
    rcases List.mem_cons.mp hentry with rfl | hentry
    · rw [hcommits] at hcommit
      cases hcommit
    · exact h.committed jobId entry hentry hcommit
  · intro jobId
    rw [List.filter_cons, hcommits]
    exact h.once jobId

variable [SecureCodec]

/-- The history of every run agrees with the leases it leads to. -/
theorem leaseSound_of_run {history : List HistoryEntry} {db : Database}
    (h : repository.Run history db) : LeaseSound history db := by
  induction h with
  | start =>
      constructor <;> simp [repository, Database.empty, claimEpochs]
  | @call history state c hrun ih =>
      have hsound : Sound state := sound_of_reachable ⟨_, hrun⟩
      have hentry : repository.entry state c = ⟨c, (repository.entry state c).result⟩ := rfl
      rcases repository.next_cases state c with
        ⟨state', response, hok, hnext, hresult⟩ | ⟨failure, -, hnext, hresult⟩
      · rw [hnext, hentry, hresult]
        exact ih.step (hsound.effect hok)
      · rw [hnext, hentry, hresult]
        exact ih.raise c failure

/-- What fencing guarantees after a history. -/
structure Fencing (history : List HistoryEntry) (db : Database) : Prop where
  /-- Every successful claim of a job has a larger epoch than the claims before it. -/
  increasing : ∀ jobId,
    (claimEpochs jobId history).Pairwise fun newer older => older < newer
  /-- No call decreases the epoch of a job, and a claim increases it to the one it returns. -/
  epoch : ∀ call jobId row, db.jobRow jobId = some row →
    ∃ row', (repository.next db call).jobRow jobId = some row' ∧
      row.leaseEpoch ≤ row'.leaseEpoch ∧
      ∀ owner leaseEpoch,
        leaseEvent jobId (repository.entry db call) = some (.claimed owner leaseEpoch) →
        row.leaseEpoch < row'.leaseEpoch ∧ row'.leaseEpoch = leaseEpoch
  /-- A worker operation succeeds only for the holder of the live claim before its expiry;
  otherwise it raises and changes nothing. -/
  holder : ∀ (call : Call) fence, call.operation.fence? = some fence →
    ((∃ response, step db call = .ok (repository.next db call, response)) ∧
        LiveClaim history fence.jobId fence.owner fence.leaseEpoch ∧
        ∃ row expiresAt, db.jobRow fence.jobId = some row ∧
          row.leaseExpiresAt = some expiresAt ∧ fence.now < expiresAt) ∨
      ((∃ failure, step db call = .error failure) ∧ repository.next db call = db)
  /-- Once a lease was recovered, every operation of its old holder raises and changes nothing. -/
  recovered : ∀ fence later recovery earlier, history = later ++ recovery :: earlier →
    leaseEvent fence.jobId recovery = some .recovered →
    (∃ claim ∈ earlier,
      leaseEvent fence.jobId claim = some (.claimed fence.owner fence.leaseEpoch)) →
    ∀ call : Call, call.operation.fence? = some fence →
      (∃ failure, step db call = .error failure) ∧ repository.next db call = db
  /-- At most one call commits a snapshot for a job. -/
  once : ∀ jobId, (history.filter (commits jobId)).length ≤ 1

/-- In every run, worker operations are fenced. -/
theorem fencing {history : List HistoryEntry} {db : Database} (h : repository.Run history db) :
    Fencing history db := by
  have hsound : Sound db := sound_of_reachable ⟨_, h⟩
  have hleases := leaseSound_of_run h
  have hholder : ∀ (call : Call) fence, call.operation.fence? = some fence →
      ((∃ response, step db call = .ok (repository.next db call, response)) ∧
          LiveClaim history fence.jobId fence.owner fence.leaseEpoch ∧
          ∃ row expiresAt, db.jobRow fence.jobId = some row ∧
            row.leaseExpiresAt = some expiresAt ∧ fence.now < expiresAt) ∨
        ((∃ failure, step db call = .error failure) ∧ repository.next db call = db) := by
    intro call fence hfence
    rcases repository.next_cases db call with
      ⟨db', response, hok, hnext, -⟩ | ⟨failure, herror, hnext, -⟩
    · obtain ⟨row, hrow, -, howner, hepoch, expiresAt, hexpires, hlive⟩ :=
        (hsound.effect hok).fenced hfence
      obtain ⟨hmem, hid⟩ := Database.jobRow_eq_some.mp hrow
      refine .inl ⟨⟨response, by rw [hnext]; exact hok⟩, ?_, row, expiresAt, hrow, hexpires, hlive⟩
      rw [← hid, ← hepoch]
      exact hleases.live row hmem fence.owner howner
    · exact .inr ⟨⟨failure, herror⟩, hnext⟩
  refine ⟨hleases.increasing, ?_, hholder, ?_, hleases.once⟩
  · intro call jobId row hrow
    rcases repository.next_cases db call with
      ⟨db', response, hok, hnext, hresult⟩ | ⟨failure, -, hnext, hresult⟩
    · have heffect := hsound.effect hok
      obtain ⟨row', hrow', hle, -⟩ := heffect.evolves.jobRow hrow
      rw [hnext]
      refine ⟨row', hrow', hle, fun owner leaseEpoch hevent => ?_⟩
      have hentry : repository.entry db call = ⟨call, .ok response⟩ := by
        rw [← hresult]
        rfl
      rw [hentry] at hevent
      obtain ⟨old, new, hold, hnew, hlt, hepoch⟩ := heffect.claim_epoch hevent
      obtain rfl := Option.some.inj (hold.symm.trans hrow)
      obtain rfl := Option.some.inj (hnew.symm.trans hrow')
      exact ⟨hlt, hepoch⟩
    · rw [hnext]
      refine ⟨row, hrow, le_rfl, fun owner leaseEpoch hevent => ?_⟩
      have hentry : repository.entry db call = ⟨call, .error failure⟩ := by
        rw [← hresult]
        rfl
      rw [hentry, leaseEvent_error] at hevent
      cases hevent
  · rintro fence later recovery earlier rfl hrecovery ⟨claim, hclaim, hevent⟩ call hfence
    rcases hholder call fence hfence with ⟨-, hlive, -⟩ | hraised
    · exact absurd hlive
        (LiveClaim.not_recovered (hleases.increasing _) hrecovery hclaim hevent)
    · exact hraised

end Leases

open Sample in
/-- The first compaction of the sample has one claim and one commit, and is fenced. -/
theorem fencing_sample :
    claimEpochs "job1" (repository.trace firstCompaction).1 = [1] ∧
      ((repository.trace firstCompaction).1.filter (commits "job1")).length = 1 ∧
      Fencing (repository.trace firstCompaction).1 (repository.trace firstCompaction).2 :=
  ⟨by decide +kernel, by decide +kernel, fencing (repository.run_trace firstCompaction)⟩

end AstrContinuum
