import AstrContinuum.Invariants.Jobs

/-!
# The history of a session is linear

The committed snapshots of a session form one chain without forks, and the active pointer names its
end and counts it. `snapshot_history_linear` reads this off the invariants of a reachable state, and
says what every further call does to it: the chain is only ever extended.
-/

namespace AstrContinuum

open Checked Relational Transactional

section History

variable [Hashlib]

/-- What a linear history is: each snapshot is based on the one before it and covers more of the
journal, and the active pointer names the last one and counts them. -/
structure LinearHistory (db : Database) (hash : String) : Prop where
  base : ∀ i (hi : i < (db.chain hash).length), (db.chain hash)[i].baseSnapshotId =
    if i = 0 then none else (db.chain hash)[i - 1]?.map SnapshotRow.snapshotId
  coverage : ∀ i j (_ : i < j) (hj : j < (db.chain hash).length),
    (db.chain hash)[i].coveredEventEnd < (db.chain hash)[j].coveredEventEnd
  mark : ∀ row ∈ db.chain hash, row.sourceHighWaterMark = row.coveredEventEnd ∧
    ∃ session ∈ db.sessions, session.sessionKeyHash = hash ∧
      row.coveredEventEnd ≤ session.nextEventSequence - 1
  active : ∀ active, db.activeRow hash = some active →
    (db.chain hash).getLast?.map SnapshotRow.snapshotId = some active.snapshotId ∧
      active.pointerVersion = (db.chain hash).length
  inactive : db.activeRow hash = none ↔ db.chain hash = []

/-- A sound chain is a linear history. -/
theorem ChainSound.linearHistory {db : Database} (h : ChainSound db) (hash : String) :
    LinearHistory db hash where
  base i hi := by
    obtain ⟨input, hadmitted⟩ := (h.linked hash).follows_getElem hi
    rw [hadmitted.baseSnapshotId_eq]
    split <;> rfl
  coverage i j hij hj := by
    refine (h.linked hash).measure_lt SnapshotRow.coveredEventEnd ?_ hij hj
    rintro a b ⟨input, hadmitted⟩
    exact hadmitted.coverage_lt
  mark row hrow := by
    obtain ⟨hmem, hhash⟩ := List.mem_filter.mp hrow
    have href := db.consistent.snapshots.session row hmem row.sessionKeyHash rfl
    obtain ⟨session, hsession, hkey⟩ := List.mem_map.mp href
    obtain ⟨i, hi, rfl⟩ := List.getElem_of_mem hrow
    obtain ⟨input, hadmitted⟩ := (h.linked hash).follows_getElem hi
    refine ⟨hadmitted.sourceHighWaterMark_eq, session, hsession, ?_, ?_⟩
    · exact hkey.trans (of_decide_eq_true hhash)
    · rw [← Database.highWaterMark_of_mem hsession, hkey]
      exact hadmitted.mark
  active active hactive := by
    have hpointer := h.pointer hash
    simp only [Database.pointer, hactive, Prod.mk.injEq] at hpointer
    exact ⟨hpointer.1.symm, hpointer.2⟩
  inactive := by
    have hpointer := h.pointer hash
    constructor
    · intro hactive
      simp only [Database.pointer, hactive, Prod.mk.injEq] at hpointer
      exact List.length_eq_zero_iff.mp hpointer.2.symm
    · intro hchain
      cases hactive : db.activeRow hash with
      | none => rfl
      | some active => simp [Database.pointer, hactive, hchain] at hpointer

omit [Hashlib] in
/-- Growth extends the chain of every session. -/
theorem Grows.chain_prefix {db db' : Database} (h : Grows db db') (hash : String) :
    db.chain hash <+: db'.chain hash := by
  obtain ⟨added, hadded⟩ := h.snapshots
  rw [Database.chain, Database.chain, hadded, List.filter_append]
  exact List.prefix_append _ _

/-- The coverage of a longer chain is not smaller. -/
theorem ChainSound.coverage_le {db db' : Database} (h : ChainSound db) (h' : ChainSound db')
    (hgrows : Grows db db') (hash : String) : db.coverage hash ≤ db'.coverage hash := by
  rw [h.coverage_eq, h'.coverage_eq]
  cases hlast : (db.chain hash).getLast? with
  | none => exact Nat.zero_le _
  | some row =>
      have hne : db.chain hash ≠ [] := by
        intro hnil
        simp [hnil] at hlast
      obtain ⟨added, hadded⟩ := hgrows.chain_prefix hash
      cases hnew : added.getLast? with
      | none =>
          obtain rfl := List.getLast?_eq_none_iff.mp hnew
          rw [← hadded, List.append_nil, hlast]
      | some last =>
          -- The last new snapshot stands after the last old one, so it covers more.
          have hlength : (db.chain hash).length - 1 < (db'.chain hash).length - 1 := by
            have hpos := List.length_pos_iff.mpr hne
            have hadd : 0 < added.length := by
              refine List.length_pos_iff.mpr ?_
              rintro rfl
              simp at hnew
            rw [← hadded, List.length_append]
            omega
          have hbound : (db'.chain hash).length - 1 < (db'.chain hash).length := by omega
          have hlt := (h'.linearHistory hash).coverage _ _ hlength hbound
          have hold : (db'.chain hash)[(db.chain hash).length - 1]? = some row := by
            rw [← hadded, List.getElem?_append_left (by
              have := List.length_pos_iff.mpr hne
              omega), ← List.getLast?_eq_getElem?, hlast]
          have hlast' : (db'.chain hash).getLast? =
              some (db'.chain hash)[(db'.chain hash).length - 1] := by
            rw [List.getLast?_eq_getElem?, List.getElem?_eq_getElem hbound]
          rw [List.getElem?_eq_getElem (by omega)] at hold
          obtain rfl := Option.some.inj hold
          rw [hlast']
          exact hlt.le

variable [SecureCodec]

/-- In every reachable state the committed snapshots of a session form a linear history, and no call
makes its coverage or its pointer version go back. -/
theorem snapshot_history_linear {db : Database} (h : repository.Reachable db) (hash : String) :
    LinearHistory db hash ∧
      ∀ call : Call, db.chain hash <+: (repository.next db call).chain hash ∧
        db.coverage hash ≤ (repository.next db call).coverage hash ∧
        (db.pointer hash).2 ≤ ((repository.next db call).pointer hash).2 := by
  have hsound := sound_of_reachable h
  refine ⟨hsound.chain.linearHistory hash, fun call => ?_⟩
  rcases repository.next_cases db call with ⟨db', response, hok, hnext, -⟩ | ⟨-, -, hnext, -⟩
  · have hgrows := (hsound.effect hok).grows
    have hsound' := hsound.step hok
    rw [hnext]
    refine ⟨hgrows.chain_prefix hash, hsound.chain.coverage_le hsound'.chain hgrows hash, ?_⟩
    rw [hsound.chain.pointer, hsound'.chain.pointer]
    exact (hgrows.chain_prefix hash).length_le
  · rw [hnext]
    exact ⟨List.prefix_rfl, le_rfl, le_rfl⟩

end History

/-! ## A sample session -/

namespace Sample

/-- The session of the samples. -/
def session : SessionKey where
  platformInstanceId := "p"
  messageType := "m"
  sessionId := "s"
  groupId := none
  userId := "u"
  conversationId := "c"
  personaId := none
  nonEmpty := SessionKey.sample_nonEmpty

/-- SHA-256 of the canonical JSON of the sample session. -/
def sessionHash : String := "3edae53c0e91c544b965d704da44fb9b0784c56c223e543eb50027e9e2cee925"

/-- A second session. -/
def otherSession : SessionKey where
  platformInstanceId := "p"
  messageType := "m"
  sessionId := "t"
  groupId := none
  userId := "u"
  conversationId := "c"
  personaId := none

/-- SHA-256 of the canonical JSON of the second session. -/
def otherHash : String := "7769fc5431bfab6142fcff685e6c6ba5c078ef2d6023b0e60853afed5363bea5"

/-- SHA-256 of the text that identifies the follow-up of the second job of the samples. -/
def followUpHash : String := "8c276ca8e0ed29a21ee1a084335c1401f3c5822678c43779783139793a1a2bab"

/-- The digests of the texts that the samples hash. -/
scoped instance : Hashlib where
  sha256Hexdigest text :=
    if text = otherSession.canonicalJson then otherHash
    else if text = "job2\x00one\x001\x002" then followUpHash
    else sessionHash

/-- The samples stay within the limits of the codec. -/
scoped instance : SecureCodec := ⟨fun _ _ recordKey _ => decide (recordKey.utf8ByteSize ≤ 4096)⟩

/-- A user message of the sample session. -/
def message (eventId : String) : Call where
  operation := .captureUserEvent
    { eventId := eventId
      sessionKey := session
      content := "text"
      idempotencyKey := eventId
      tokenCount := 1
      canonical := ⟨"profile", none, stripNonEmpty_profile⟩
      createdAt := 1 }

/-- A capsule of the sample session without items. -/
def capsuleData (capsuleId : String) (start stop : Nat) (sources : List String) :
    CapsuleData where
  capsuleId := capsuleId
  schemaVersion := "1"
  level := .micro
  sessionKey := session
  coveredEventStart := start
  coveredEventEnd := stop
  sourceEventIds := sources
  goals := []
  constraints := []
  decisions := []
  progress := []
  openLoops := []
  preferences := []
  entities := []
  emotionalContext := []
  exactAnchors := []
  dependencies := []
  narrativeSummary := "summary"
  tokenCost := 1
  quality := ⟨true, .one, .one, 0, 0⟩
  createdAt := { instant := 1 }

/-- The goal of the samples. -/
def goal : CapsuleClaim where
  claimId := "goal"
  text := "text"
  status := .active
  confidence := .one
  sourceEventIds := ["e1"]

/-- The entity of the samples. -/
def entity : Entity where
  entityId := "entity"
  kind := "kind"
  canonicalName := "name"
  aliases := []
  sourceEventIds := ["e1"]

/-- The anchor of the samples. -/
def anchor : CapsuleAnchor where
  anchorId := "anchor"
  anchorType := .name
  exactText := "text"
  sourceEventIds := ["e1"]
  status := .active
  importance := .one

/-- The capsule of the first event, with a goal, an entity and an anchor. -/
def first : ContextCapsuleEnvelope where
  toCapsuleData := { capsuleData "first" 1 1 ["e1"] with
    goals := [goal], entities := [entity], exactAnchors := [anchor] }

/-- The capsule of the second event. -/
def second : ContextCapsuleEnvelope where
  toCapsuleData := capsuleData "second" 2 2 ["e2"]

/-- A candidate of the sample session. -/
def snapshotData (snapshotId : String) (baseSnapshotId : Option String) (coveredEventEnd : Nat)
    (capsules : List ContextCapsuleEnvelope) : SnapshotData where
  snapshotId := snapshotId
  sessionKey := session
  baseSnapshotId := baseSnapshotId
  coveredEventEnd := coveredEventEnd
  sourceHighWaterMark := coveredEventEnd
  capsuleIds := capsules.map fun capsule => capsule.capsuleId
  exactAnchorIds := (activeAnchors capsules).map fun anchor => anchor.anchorId
  renderedContext := "context"
  tokenCost := 1
  auditOutcome := ⟨true, .passed, [], SnapshotAuditOutcome.noFailure⟩
  state := .candidate
  createdAt := 1
  committedAt := none

/-- The publication of a candidate by the worker of the samples. -/
def publication (jobId : String) (snapshot : SnapshotEnvelope)
    (capsules : List ContextCapsuleEnvelope) : PublishRequest where
  fence := ⟨jobId, "worker", 1, 2⟩
  candidateSnapshot := snapshot
  memberships := capsules.zipIdx.map fun entry => ⟨entry.2, "slot", entry.1⟩
  tokenCeiling := 10

/-- A worker takes a job up to `READY_TO_COMMIT`. -/
def preparation (jobId : String) (target : Nat) (snapshotId : String) : List Call :=
  [{ operation := .raiseCompactionIntent jobId session target 1 },
    { operation := .claimJob "worker" 1 9 },
    { operation := .transitionJob ⟨jobId, "worker", 1, 2⟩ .compiling none },
    { operation := .transitionJob ⟨jobId, "worker", 1, 2⟩ .readyToCommit (some snapshotId) }]

/-- The snapshot of the first event. -/
def snapshotOne : SnapshotEnvelope where
  toSnapshotData := snapshotData "one" none 1 [first]

/-- The snapshot of both events, which carries the first capsule forward. -/
def snapshotTwo : SnapshotEnvelope where
  toSnapshotData := snapshotData "two" (some "one") 2 [first, second]

/-- One event is captured and compacted. -/
def firstCompaction : List Call :=
  message "e1" :: preparation "job1" 1 "one" ++
    [{ operation := .publishSnapshot (publication "job1" snapshotOne [first]) }]

/-- A second event is captured and compacted on top of the first. -/
def twoCompactions : List Call :=
  firstCompaction ++ message "e2" :: preparation "job2" 2 "two" ++
    [{ operation := .publishSnapshot (publication "job2" snapshotTwo [first, second]) }]

end Sample

open Sample in
/-- The history after two compactions has two snapshots and is linear. -/
theorem snapshot_history_linear_sample :
    ((repository.execute twoCompactions).chain sessionHash).map SnapshotRow.snapshotId =
        ["one", "two"] ∧
      LinearHistory (repository.execute twoCompactions) sessionHash :=
  ⟨by decide +kernel,
    (snapshot_history_linear (repository.reachable_execute twoCompactions) sessionHash).1⟩

end AstrContinuum
