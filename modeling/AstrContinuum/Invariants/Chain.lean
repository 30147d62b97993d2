import AstrContinuum.Control.Succession
import AstrContinuum.Invariants.Growth

/-!
# The snapshot chain

The committed snapshots of a session, in insertion order, are a succession: each one was admitted by
the permanent gate against the stored capsules of its predecessor and the journal between their
coverages. The active pointer names the last one and counts them. `Effect.chainSound` shows that
every committed call keeps this, given the journal invariant.
-/

namespace AstrContinuum

open Checked Relational

variable [Hashlib]

/-- The committed snapshots of a session, in insertion order. -/
def Database.chain (db : Database) (hash : String) : List SnapshotRow :=
  db.snapshots.filter fun row => row.sessionKeyHash = hash

/-- `covered_event_end` of an optional snapshot; zero when there is none. -/
def coverageOf (row : Option SnapshotRow) : Nat :=
  (row.map SnapshotRow.coveredEventEnd).getD 0

/-- The capsules of an optional snapshot. -/
def Database.capsulesOf? (db : Database) (row : Option SnapshotRow) :
    List ContextCapsuleEnvelope :=
  (row.map fun row => db.capsulesOf row.snapshotId).getD []

/-- The gate admitted `next` as the successor of `previous`, on this input. -/
structure AdmittedBy (db : Database) (previous : Option SnapshotRow) (next : SnapshotRow)
    (input : PermanentInput) : Prop where
  baseId : input.expectedBaseId = previous.map SnapshotRow.snapshotId
  baseCoverage : input.baseCoverage = coverageOf previous
  previousCapsules : input.previousCapsules = db.capsulesOf? previous
  candidate : next = input.candidateSnapshot.row next.committedAt
  candidateCapsules : input.candidateCapsules = db.capsulesOf next.snapshotId
  sourceEvents : input.sourceEvents.map EventEnvelope.toEventData =
    (db.eventRowsBetween next.sessionKeyHash (coverageOf previous) next.coveredEventEnd).map
      fun row => row.data input.candidateSnapshot.sessionKey
  target : input.targetHighWaterMark = next.coveredEventEnd
  passed : (validatePermanent input).passed = true
  mark : next.coveredEventEnd ≤ db.highWaterMark next.sessionKeyHash

/-- `next` was committed on top of `previous`. -/
def Follows (db : Database) (previous : Option SnapshotRow) (next : SnapshotRow) : Prop :=
  ∃ input, AdmittedBy db previous next input

/-- The chain invariant. -/
structure ChainSound (db : Database) : Prop where
  linked : ∀ hash, Succession (Follows db) none (db.chain hash)
  pointer : ∀ hash, db.pointer hash =
    ((db.chain hash).getLast?.map SnapshotRow.snapshotId, (db.chain hash).length)

/-! ## What the gate says about a link -/

namespace AdmittedBy

variable {db : Database} {previous : Option SnapshotRow} {next : SnapshotRow}
  {input : PermanentInput} (h : AdmittedBy db previous next input)
include h

/-- No failure code applies. -/
theorem not_fails (code : PermanentFailureCode) : ¬ input.Fails code :=
  validate_permanent_passed.mp h.passed code

/-- A snapshot names its predecessor as its base. -/
theorem baseSnapshotId_eq : next.baseSnapshotId = previous.map SnapshotRow.snapshotId := by
  have hbase : input.candidateSnapshot.baseSnapshotId = input.expectedBaseId :=
    not_not.mp (h.not_fails .baseSnapshotMismatch)
  rw [h.candidate, ← h.baseId, ← hbase]
  rfl

/-- A snapshot covers more than its predecessor. -/
theorem coverage_lt : coverageOf previous < next.coveredEventEnd := by
  have hgap := h.not_fails .coverageGap
  simp only [PermanentInput.Fails, not_or, not_le] at hgap
  rw [← h.baseCoverage, ← h.target]
  exact hgap.1

/-- A snapshot's source high-water mark is its coverage. -/
theorem sourceHighWaterMark_eq : next.sourceHighWaterMark = next.coveredEventEnd := by
  have htarget := h.not_fails .targetMismatch
  simp only [PermanentInput.Fails, not_or, not_not] at htarget
  have hsource : next.sourceHighWaterMark = input.candidateSnapshot.sourceHighWaterMark := by
    rw [h.candidate]
    rfl
  rw [hsource, htarget.2, h.target]

/-- A link survives every call. -/
theorem grows {db' : Database} (hgrows : Grows db db') (hnext : next ∈ db.snapshots)
    (hprevious : ∀ row ∈ previous, row ∈ db.snapshots) : AdmittedBy db' previous next input where
  baseId := h.baseId
  baseCoverage := h.baseCoverage
  previousCapsules := by
    rw [h.previousCapsules]
    cases previous with
    | none => rfl
    | some row =>
        have hrow := hprevious row rfl
        simp [Database.capsulesOf?,
          hgrows.capsulesOf_eq (List.mem_map_of_mem hrow : row.snapshotId ∈ db.snapshotIds)]
  candidate := h.candidate
  candidateCapsules := by
    rw [h.candidateCapsules,
      hgrows.capsulesOf_eq (List.mem_map_of_mem hnext : next.snapshotId ∈ db.snapshotIds)]
  sourceEvents := by
    rw [h.sourceEvents, hgrows.eventRowsBetween_eq h.mark]
  target := h.target
  passed := h.passed
  mark := h.mark.trans (hgrows.highWaterMark_le _)

end AdmittedBy

/-! ## The chain and the pointer -/

namespace ChainSound

variable {db : Database} (h : ChainSound db)
include h

/-- The coverage of a session is that of the last snapshot of its chain. -/
theorem coverage_eq (hash : String) : db.coverage hash = coverageOf (db.chain hash).getLast? := by
  have hpointer := h.pointer hash
  cases hactive : db.activeRow hash with
  | none =>
      have hlast : (db.chain hash).getLast? = none := by
        simpa [Database.pointer, hactive] using congrArg Prod.fst hpointer
      simp [Database.coverage, hactive, hlast, coverageOf]
  | some active =>
      simp only [Database.pointer, hactive, Prod.mk.injEq] at hpointer
      obtain ⟨row, hrow, hid⟩ := Option.map_eq_some_iff.mp hpointer.1.symm
      have hmem : row ∈ db.snapshots := List.mem_of_mem_filter (List.mem_of_mem_getLast? hrow)
      have hfound := Database.snapshotRow_eq_some.mpr ⟨hmem, hid⟩
      simp [Database.coverage, hactive, hfound, hrow, coverageOf]

/-- No snapshot of a session covers more than the last one. -/
theorem le_coverage {row : SnapshotRow} (hrow : row ∈ db.snapshots) :
    row.coveredEventEnd ≤ db.coverage row.sessionKeyHash := by
  have hmem : row ∈ db.chain row.sessionKeyHash := List.mem_filter.mpr ⟨hrow, by simp⟩
  obtain ⟨i, hi, hget⟩ := List.getElem_of_mem hmem
  have hlast : (db.chain row.sessionKeyHash).length - 1 < (db.chain row.sessionKeyHash).length := by
    omega
  rw [h.coverage_eq, List.getLast?_eq_getElem?, List.getElem?_eq_getElem hlast]
  simp only [coverageOf, Option.map_some, Option.getD_some]
  by_cases hend : i = (db.chain row.sessionKeyHash).length - 1
  · subst hend
    rw [hget]
  · have hlt := (h.linked row.sessionKeyHash).measure_lt SnapshotRow.coveredEventEnd
      (fun a b hfollows => hfollows.elim fun input hadmitted => hadmitted.coverage_lt)
      (i := i) (by omega) hlast
    rw [hget] at hlt
    exact hlt.le

/-- The base of a session, if it has one, is the last snapshot of its chain. -/
theorem getLast?_of_pointer {hash snapshotId : String} {version : Nat} {row : SnapshotRow}
    (hpointer : db.pointer hash = (some snapshotId, version))
    (hrow : db.snapshotRow snapshotId = some row) : (db.chain hash).getLast? = some row := by
  rw [h.pointer hash, Prod.mk.injEq] at hpointer
  obtain ⟨last, hlast, hid⟩ := Option.map_eq_some_iff.mp hpointer.1
  have hmem : last ∈ db.snapshots := List.mem_of_mem_filter (List.mem_of_mem_getLast? hlast)
  have hfound := Database.snapshotRow_eq_some.mpr ⟨hmem, hid⟩
  rw [hlast, ← hfound, hrow]

end ChainSound

/-- The links of a sound chain survive every call. -/
theorem ChainSound.linked_grows {db db' : Database} (h : ChainSound db) (hgrows : Grows db db')
    (hash : String) : Succession (Follows db') none (db.chain hash) := by
  refine (h.linked hash).imp ?_
  rintro previous hprevious next hnext ⟨input, hadmitted⟩
  refine ⟨input, hadmitted.grows hgrows (List.mem_of_mem_filter hnext) ?_⟩
  intro row hrow
  rcases hprevious with rfl | ⟨other, hother, rfl⟩
  · cases hrow
  · obtain rfl := Option.some.inj hrow
    exact List.mem_of_mem_filter hother

/-- A chain that keeps its rows and its pointer stays sound while the history grows. -/
theorem ChainSound.of_grows {db db' : Database} (h : ChainSound db) (hgrows : Grows db db')
    (hsnapshots : db'.snapshots = db.snapshots)
    (hactive : db'.activeSnapshots = db.activeSnapshots) : ChainSound db' := by
  have hchain : db'.chain = db.chain := by
    funext hash
    simp [Database.chain, hsnapshots]
  constructor
  · intro hash
    rw [hchain]
    exact h.linked_grows hgrows hash
  · intro hash
    rw [hchain, ← h.pointer hash]
    simp [Database.pointer, Database.activeRow, hactive]

/-! ## Committing a candidate -/

/-- The membership rows of a staged snapshot are the candidate's, in membership order. -/
theorem Staged.membershipRows_eq {db staged : Database} {request : PublishRequest}
    {job : CompactionJobEnvelope} {committed snapshot : SnapshotEnvelope}
    (h : Staged db request job committed staged)
    (hmemberships : ValidMemberships snapshot request.memberships) :
    staged.membershipRows committed.snapshotId =
      request.memberships.map fun item => (item.row committed.snapshotId, item.capsule.row) := by
  have hmine : ∀ rows : List SnapshotCapsuleMembership,
      (rows.map fun item => item.row committed.snapshotId).filter
        (fun row => row.snapshotId = committed.snapshotId) =
      rows.map fun item => item.row committed.snapshotId := by
    intro rows
    refine List.filter_eq_self.mpr fun row hrow => ?_
    obtain ⟨item, -, rfl⟩ := List.mem_map.mp hrow
    simp [SnapshotCapsuleMembership.row]
  have hother : db.snapshotCapsules.filter
      (fun row => row.snapshotId = committed.snapshotId) = [] := by
    obtain ⟨committedAt, -, hsnapshots⟩ := h.snapshots
    have hunique := staged.consistent.snapshots.primaryKey
    rw [hsnapshots] at hunique
    refine List.filter_eq_nil_iff.mpr fun row hrow => ?_
    simp only [decide_eq_true_eq]
    intro hid
    have href := db.consistent.snapshotCapsules.snapshot row hrow row.snapshotId rfl
    obtain ⟨old, hold, heq⟩ := List.mem_map.mp href
    exact (uniqueKey_append_singleton.mp hunique).2 old hold (heq.trans hid)
  have hjoined : ∀ item ∈ request.memberships,
      staged.capsules.filter (fun row => row.capsuleId = item.capsuleId) = [item.capsule.row] :=
    fun item hitem => staged.consistent.capsules.primaryKey.filter_eq (h.stored item hitem)
  simp only [Database.membershipRows, h.snapshotCapsules, List.filter_append, hother, hmine,
    List.nil_append, List.flatMap_map]
  have hflat : (request.memberships.flatMap fun item =>
      (staged.capsules.filter fun row =>
        row.capsuleId = (item.row committed.snapshotId).capsuleId).map
          fun row => (item.row committed.snapshotId, row)) =
      request.memberships.map fun item => (item.row committed.snapshotId, item.capsule.row) := by
    rw [← List.flatMap_pure_eq_map]
    refine List.flatMap_congr fun item hitem => ?_
    exact congrArg _ (hjoined item hitem)
  rw [hflat]
  have hsorted : (request.memberships.map SnapshotCapsuleMembership.ordinal).Pairwise
      (fun a b => a ≤ b) := by
    rw [hmemberships.ordinals]
    exact List.pairwise_le_range
  exact orderBy_eq_self (List.pairwise_map.mpr (List.pairwise_map.mp hsorted))

/-- The capsules of a staged snapshot are the candidate's, in membership order. -/
theorem Staged.capsulesOf_eq {db staged : Database} {request : PublishRequest}
    {job : CompactionJobEnvelope} {committed snapshot : SnapshotEnvelope}
    (h : Staged db request job committed staged)
    (hmemberships : ValidMemberships snapshot request.memberships) :
    staged.capsulesOf committed.snapshotId = request.candidateCapsules := by
  simp [Database.capsulesOf, h.membershipRows_eq hmemberships, PublishRequest.candidateCapsules,
    ContextCapsuleEnvelope.row]

/-- The row of a committed candidate. -/
def PublishRequest.snapshotRow (request : PublishRequest) : SnapshotRow :=
  request.candidateSnapshot.row request.fence.now

/-- Storing the committed envelope stores the row of the candidate. -/
theorem Admits.committed_row {db : Database} {request : PublishRequest} {admission : Admission}
    {row : JobRow} (h : Admits db request admission row) :
    admission.committed.row request.fence.now = request.snapshotRow := by
  simp only [PublishRequest.snapshotRow, SnapshotEnvelope.row, h.committed]

/-- A staged candidate stores the row of the candidate. -/
theorem Admits.snapshots_eq {db staged : Database} {request : PublishRequest}
    {admission : Admission} {row : JobRow} (h : Admits db request admission row)
    (hstaged : Staged db request admission.job admission.committed staged) :
    staged.snapshots = db.snapshots ++ [request.snapshotRow] := by
  obtain ⟨committedAt, hcommittedAt, hsnapshots⟩ := hstaged.snapshots
  rw [h.committed] at hcommittedAt
  obtain rfl := Option.some.inj hcommittedAt
  rw [hsnapshots, h.committed_row]

/-- The session of a committed candidate is that of its job. -/
theorem Admits.snapshotRow_session {db : Database} {request : PublishRequest}
    {admission : Admission} {row : JobRow} (h : Admits db request admission row) :
    request.snapshotRow.sessionKeyHash = row.sessionKeyHash := by
  rw [← h.represents.session, ← h.session]
  rfl

/-- A committed candidate extends the chain of its own session only. -/
theorem Admits.chain_eq {db db' : Database} {request : PublishRequest} {admission : Admission}
    {row : JobRow} (h : Admits db request admission row)
    (hsnapshots : db'.snapshots = db.snapshots ++ [request.snapshotRow]) (hash : String) :
    db'.chain hash =
      db.chain hash ++ if row.sessionKeyHash = hash then [request.snapshotRow] else [] := by
  simp only [Database.chain, hsnapshots, List.filter_append, ← h.snapshotRow_session]
  by_cases hhash : request.snapshotRow.sessionKeyHash = hash <;> simp [hhash]

/-- The base that an admitted candidate was validated against is the last snapshot of its chain. -/
theorem Admits.previous {db : Database} {request : PublishRequest} {admission : Admission}
    {row : JobRow} {previous : Option (SnapshotEnvelope × List SnapshotCapsuleMembership)}
    (h : Admits db request admission row) (hchain : ChainSound db)
    (hbase : db.pointer admission.job.sessionKey.sessionKeyHash =
      (admission.job.baseSnapshotId, admission.job.basePointerVersion))
    (hprevious : previousBundle db admission.job = .ok previous) :
    ((previous.map Prod.fst).map fun snapshot => snapshot.snapshotId) =
        (db.chain row.sessionKeyHash).getLast?.map SnapshotRow.snapshotId ∧
      (previous.map fun bundle => bundle.1.coveredEventEnd).getD 0 =
        coverageOf (db.chain row.sessionKeyHash).getLast? ∧
      ((previous.map Prod.snd).getD []).map SnapshotCapsuleMembership.capsule =
        db.capsulesOf? (db.chain row.sessionKeyHash).getLast? := by
  have hpointer := hbase
  rw [h.represents.session] at hpointer
  unfold previousBundle at hprevious
  cases hbase : admission.job.baseSnapshotId with
  | none =>
      obtain rfl : none = previous := by simpa [hbase] using hprevious
      have hlast : (db.chain row.sessionKeyHash).getLast? = none := by
        have hfst := congrArg Prod.fst ((hchain.pointer _).symm.trans hpointer)
        simpa [hbase] using hfst
      simp [hlast, coverageOf, Database.capsulesOf?]
  | some baseSnapshotId =>
      simp only [hbase] at hprevious
      obtain ⟨⟨snapshot, memberships⟩, hbundle, hpure⟩ := bind_ok.mp hprevious
      obtain rfl := pure_ok.mp hpure
      obtain ⟨base, hrow, -, hfields, hcapsules⟩ := snapshotBundleById_ok hbundle
      rw [hbase] at hpointer
      have hlast := hchain.getLast?_of_pointer hpointer hrow
      obtain ⟨-, hid⟩ := Database.snapshotRow_eq_some.mp hrow
      have hcoverage : snapshot.coveredEventEnd = base.coveredEventEnd := by
        rw [hfields]
        rfl
      have hsnapshotId : snapshot.snapshotId = base.snapshotId := by
        rw [hfields]
        rfl
      simp [hlast, coverageOf, Database.capsulesOf?, hcoverage, hsnapshotId, hcapsules, hid]

/-- A committed candidate follows the last snapshot of its chain. -/
theorem Admits.follows {db staged db' : Database} {request : PublishRequest}
    {admission : Admission} {row : JobRow} (h : Admits db request admission row)
    (hchain : ChainSound db)
    (hmark : row.intentTargetHighWaterMark ≤ db.highWaterMark row.sessionKeyHash)
    (hstaged : Staged db request admission.job admission.committed staged)
    {jobs : List JobRow} (htables : db'.toTables = staged.withJobs jobs) :
    Follows db' (db.chain row.sessionKeyHash).getLast? request.snapshotRow := by
  have hholds := Database.Holds.of_eq htables
  have hcommittedId : admission.committed.snapshotId = request.snapshotRow.snapshotId := by
    rw [h.committed]
    rfl
  have hmem : row ∈ db.compactionJobs := (Database.jobRow_eq_some.mp h.stored).1
  have htarget : admission.job.targetHighWaterMark = row.targetHighWaterMark := by
    rw [h.represents.fields]
    rfl
  obtain ⟨previous, sourceEvents, hprevious, hevents, hpassed⟩ := h.gate
  obtain ⟨hbaseId, hbaseCoverage, hcapsules⟩ := h.previous hchain hstaged.base hprevious
  have hcoverage : request.snapshotRow.coveredEventEnd = admission.job.targetHighWaterMark := by
    have hfails := validate_permanent_passed.mp hpassed .targetMismatch
    simp only [PermanentInput.Fails, not_or, not_not] at hfails
    exact hfails.1
  have hsame : ∀ snapshotId, db'.capsulesOf snapshotId = staged.capsulesOf snapshotId := by
    intro snapshotId
    simp only [Database.capsulesOf, Database.membershipRows, hholds.snapshotCapsules,
      hholds.capsules]
    rfl
  have hmarks : db'.highWaterMark row.sessionKeyHash = db.highWaterMark row.sessionKeyHash := by
    have hsessions : db'.sessions = db.sessions := hholds.sessions.trans hstaged.sessions
    simp only [Database.highWaterMark, Database.sessionRow, hsessions]
  have hrows : ∀ start stop, db'.eventRowsBetween row.sessionKeyHash start stop =
      db.eventRowsBetween row.sessionKeyHash start stop := by
    intro start stop
    have hjournal : db'.journalEvents = db.journalEvents :=
      hholds.journalEvents.trans hstaged.journalEvents
    simp only [Database.eventRowsBetween, hjournal]
  refine ⟨request.permanentInput admission.job previous sourceEvents, ?_⟩
  constructor
  · exact hbaseId
  · rw [← hbaseCoverage]
    cases previous <;> rfl
  · show ((previous.map Prod.snd).getD []).map SnapshotCapsuleMembership.capsule = _
    rw [hcapsules]
    cases hlast : (db.chain row.sessionKeyHash).getLast? with
    | none => rfl
    | some last =>
        have hlastMem : last ∈ db.snapshots :=
          List.mem_of_mem_filter (List.mem_of_mem_getLast? hlast)
        simp only [Database.capsulesOf?, Option.map_some, Option.getD_some, hsame]
        exact (hstaged.grows.capsulesOf_eq (List.mem_map_of_mem hlastMem)).symm
  · rfl
  · rw [hsame, ← hcommittedId, hstaged.capsulesOf_eq h.memberships]
    rfl
  · rw [h.snapshotRow_session, hrows, hcoverage, ← hbaseCoverage, ← h.represents.session]
    have hread := eventsBetween_ok hevents
    rw [← h.session] at hread ⊢
    exact hread
  · exact hcoverage.symm
  · exact hpassed
  · rw [h.snapshotRow_session, hmarks, hcoverage, htarget]
    exact (db.consistent.compactionJobs.check row hmem).intent.trans hmark

/-- Every committed call keeps the chain invariant. -/
theorem Effect.chainSound {db db' : Database} {operation : Operation} {response : Response}
    (h : Effect db operation db' response) (hchain : ChainSound db)
    (hmarks : ∀ row ∈ db.compactionJobs, row.state.isNonterminal = true →
      row.intentTargetHighWaterMark ≤ db.highWaterMark row.sessionKeyHash) :
    ChainSound db' := by
  have hgrows := h.grows
  cases h with
  | captured _ heffect =>
      cases heffect with
      | replayed _ hold | appended _ _ _ _ _ _ hold =>
          exact hchain.of_grows hgrows hold.snapshots hold.activeSnapshots
  | sidecar _ hholds => exact hchain.of_grows hgrows hholds.snapshots hholds.activeSnapshots
  | intentCovered | intentCarried | claimedNone | viewed => exact hchain
  | intentFolded _ _ _ _ _ htables | intentQueued _ _ _ htables | claimed _ _ _ htables
  | transitioned _ _ _ htables | renewed _ _ htables | failed _ _ htables
  | recovered htables | superseded _ _ _ _ _ htables =>
      have hholds := Database.Holds.of_eq htables
      exact hchain.of_grows hgrows hholds.snapshots hholds.activeSnapshots
  | @committed request admission row staged _ _ hadmits hstaged _ _ htables =>
      have hholds := Database.Holds.of_eq htables
      have hrow : row ∈ db.compactionJobs := (Database.jobRow_eq_some.mp hadmits.stored).1
      have hfollows := hadmits.follows hchain
        (hmarks row hrow (by rw [hadmits.ready]; rfl)) hstaged htables
      have hsnapshots : db'.snapshots = db.snapshots ++ [request.snapshotRow] :=
        hholds.snapshots.trans (hadmits.snapshots_eq hstaged)
      have hchains := hadmits.chain_eq hsnapshots
      have hactive : ∀ hash, db'.activeRow hash = staged.activeRow hash :=
        fun hash => hholds.activeRow_eq
      constructor
      · intro hash
        have hold := hchain.linked_grows hgrows hash
        rw [hchains]
        split
        · next hhash =>
            subst hhash
            exact Succession.append_singleton.mpr ⟨hold, by simpa using hfollows⟩
        · simpa using hold
      · intro hash
        have hjobSession := hadmits.represents.session
        rw [hchains]
        split
        · next hhash =>
            subst hhash
            have hbase := (hchain.pointer row.sessionKeyHash).symm.trans
              (hjobSession ▸ hstaged.base)
            have hlength : (db.chain row.sessionKeyHash).length =
                admission.job.basePointerVersion := congrArg Prod.snd hbase
            have hpointer := hstaged.pointer
            rw [hjobSession] at hpointer
            simp only [Database.pointer, hactive]
            rw [← Database.pointer, hpointer]
            simp only [List.getLast?_append, List.getLast?_singleton, Option.some_or,
              Option.map_some, List.length_append, List.length_singleton, hlength,
              hadmits.committed]
            rfl
        · next hhash =>
            have hne : hash ≠ admission.job.sessionKey.sessionKeyHash := by
              rw [hjobSession]
              exact Ne.symm hhash
            simp only [Database.pointer, hactive, hstaged.others hash hne, List.append_nil]
            exact hchain.pointer hash

end AstrContinuum
