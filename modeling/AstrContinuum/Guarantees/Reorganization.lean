import AstrContinuum.Reorganization.Scripts

/-!
# The accounting of a reorganization

`reorganization_accounts` reads the accounting of a reorganization off its last ledger. It asks for capsule
ids that are not blank: the envelope allows a blank one, and `canonicalize_reorganization_records` rejects
the records that carry it.
-/

namespace AstrContinuum

open Checked Effects

/-! ## The accounting -/

/-- The status of the records of an item agrees with what the result holds in its field. -/
structure StatusAgrees (result : ReorganizationResult) (source : SourceItem)
    (status : ReorganizationStatus) : Prop where
  retained : status = .retained ↔ source.item ∈ result.capsule.items source.field
  approximate : status = .approximate ↔ source.item ∉ result.capsule.items source.field ∧
    ∃ copy ∈ result.capsule.items source.field, copy.ShortenedFrom source.item ∧
      copy.itemId = source.item.itemId ∧ copy.sourceEventIds = source.item.sourceEventIds ∧
      copy.semanticStatus = source.item.semanticStatus
  released : status = .released ↔
    ∀ copy ∈ result.capsule.items source.field, copy.itemId ≠ source.item.itemId

/-- The accounting of a reorganization is exact. -/
structure ExactAccounting (capsules : List ContextCapsuleEnvelope) (tokenBudget : Int)
    (result : ReorganizationResult) : Prop where
  withinBudget : (result.afterTokens : Int) ≤ tokenBudget
  tokenCost : result.capsule.tokenCost = result.afterTokens
  coreKept : ∀ source ∈ sourceItems ItemField.core capsules,
    source.item ∈ result.capsule.items source.field
  oneRecord : ∀ source ∈ sourceItems ItemField.all capsules,
    (result.records.countP fun record => (record.kind, record.itemId) = source.identity) = 1
  oneSummary : ∀ capsule ∈ capsules, (result.records.countP fun record =>
    record.kind = "narrative_summary" ∧ record.sourceCapsuleId = capsule.capsuleId) = 1
  recordsOnly : ∀ record ∈ result.records,
    (∃ source ∈ sourceItems ItemField.all capsules,
      (record.kind, record.itemId) = source.identity) ∨
    ∃ capsule ∈ capsules, SummaryOf capsule record
  statuses : ∀ source ∈ sourceItems ItemField.optional capsules, ∀ record ∈ result.records,
    (record.kind, record.itemId) = source.identity → StatusAgrees result source record.status
  nothingElse : ∀ field, ((result.capsule.items field).map CapsuleItem.itemId).Nodup ∧
    ∀ copy ∈ result.capsule.items field, ∃ capsule ∈ capsules, ∃ item ∈ capsule.items field,
      copy = item ∨ copy.ShortenedFrom item
  coverageGap : result.capsule.quality.coverageGap = nonSummaryReleaseCount result.records
  accepted : canonicalizeReorganizationRecords result.records = .ok result.records

namespace Ledger

variable {summaries : List ReorganizationRecord} {done : List SourceItem} {state : Reorganization}
  {entries : List LedgerEntry}

/-- The record of an identity is that of its entry. -/
theorem record_of_identity (h : Ledger summaries done state entries)
    {capsules : List ContextCapsuleEnvelope} (hsummaries : Summaries capsules summaries)
    {entry : LedgerEntry} (hentry : entry ∈ entries) {record : ReorganizationRecord}
    (hrecord : record ∈ state.records)
    (hidentity : (record.kind, record.itemId) = entry.identity) : record = entry.record := by
  rcases List.mem_append.mp (h.records.mem_iff.mp hrecord) with hitem | hsummary
  · obtain ⟨other, hother, rfl⟩ := List.mem_map.mp hitem
    rw [(h.sound other hother).identity] at hidentity
    rw [h.eq_of_identity hother hentry hidentity]
  · obtain ⟨capsule, _, hsummaryOf⟩ := hsummaries.each record hsummary
    have hkind : entry.source.field.kind = record.kind := (Prod.mk.inj hidentity).1.symm
    exact absurd (hkind.trans hsummaryOf.kind) (ItemField.kind_ne_summary _)

/-- An item that has passed has one record. -/
theorem countP_identity (h : Ledger summaries done state entries)
    {capsules : List ContextCapsuleEnvelope} (hsummaries : Summaries capsules summaries)
    {source : SourceItem} (hsource : source ∈ done) :
    (state.records.countP fun record => (record.kind, record.itemId) = source.identity) = 1 := by
  have hnone : (summaries.countP fun record =>
      (record.kind, record.itemId) = source.identity) = 0 := by
    refine List.countP_eq_zero.mpr fun record hrecord => ?_
    obtain ⟨capsule, _, hsummary⟩ := hsummaries.each record hrecord
    intro hidentity
    have hkind : record.kind = source.field.kind := (Prod.mk.inj (of_decide_eq_true hidentity)).1
    exact ItemField.kind_ne_summary _ (hkind.symm.trans hsummary.kind)
  have hentries : (entries.map LedgerEntry.record).countP
      (fun record => (record.kind, record.itemId) = source.identity) =
        (entries.map LedgerEntry.identity).count source.identity := by
    rw [List.count, List.countP_map, List.countP_map]
    refine List.countP_congr fun entry hentry => ?_
    simp [(h.sound entry hentry).identity]
  obtain ⟨entry, hentry, hidentity, _⟩ := h.exists_entry hsource
  have hmem : source.identity ∈ entries.map LedgerEntry.identity :=
    List.mem_map.mpr ⟨entry, hentry, hidentity⟩
  rw [h.records.countP_eq, List.countP_append, hnone, hentries,
    List.count_eq_one_of_mem h.distinct hmem]

/-- A capsule has one summary record. -/
theorem countP_summary (h : Ledger summaries done state entries)
    {capsules : List ContextCapsuleEnvelope} (hsummaries : Summaries capsules summaries)
    (hids : (capsules.map fun capsule => capsule.capsuleId).Nodup)
    {capsule : ContextCapsuleEnvelope} (hcapsule : capsule ∈ capsules) :
    (state.records.countP fun record =>
      record.kind = "narrative_summary" ∧ record.sourceCapsuleId = capsule.capsuleId) = 1 := by
  have hnone : ((entries.map LedgerEntry.record).countP fun record =>
      record.kind = "narrative_summary" ∧ record.sourceCapsuleId = capsule.capsuleId) = 0 := by
    refine List.countP_eq_zero.mpr fun record hrecord => ?_
    obtain ⟨entry, hentry, rfl⟩ := List.mem_map.mp hrecord
    intro hsummary
    have hkind : entry.record.kind = entry.source.field.kind :=
      (Prod.mk.inj (h.sound entry hentry).identity).1
    exact ItemField.kind_ne_summary _ (hkind.symm.trans (of_decide_eq_true hsummary).1)
  have hcount : (summaries.countP fun record =>
      record.kind = "narrative_summary" ∧ record.sourceCapsuleId = capsule.capsuleId) =
        (summaries.map ReorganizationRecord.sourceCapsuleId).count capsule.capsuleId := by
    rw [List.count, List.countP_map]
    refine List.countP_congr fun record hrecord => ?_
    obtain ⟨_, _, hsummary⟩ := hsummaries.each record hrecord
    simp [hsummary.kind]
  rw [h.records.countP_eq, List.countP_append, hnone, hcount, hsummaries.sources, Nat.zero_add]
  exact List.count_eq_one_of_mem hids (List.mem_map.mpr ⟨capsule, hcapsule, rfl⟩)

/-- The status of a record agrees with the selection. -/
theorem status_agrees (h : Ledger summaries done state entries) {result : ReorganizationResult}
    (hresult : result.capsule.items = state.selected) {entry : LedgerEntry}
    (hentry : entry ∈ entries) : StatusAgrees result entry.source entry.record.status := by
  have hsound := h.sound entry hentry
  have hselected (copy : CapsuleItem) :
      (copy ∈ result.capsule.items entry.source.field ∧ copy.itemId = entry.source.item.itemId) ↔
        entry.copy = some copy := by
    rw [hresult]
    exact h.selected_of_entry hentry
  have hitem : entry.source.item ∈ result.capsule.items entry.source.field ↔
      entry.copy = some entry.source.item := by
    rw [← hselected, and_iff_left rfl]
  have hgone : (∀ copy ∈ result.capsule.items entry.source.field,
      copy.itemId ≠ entry.source.item.itemId) ↔ entry.copy = none := by
    rw [Option.eq_none_iff_forall_ne_some]
    exact forall_congr' fun copy => not_and.symm.trans (not_congr (hselected copy))
  have hshort : (∃ copy ∈ result.capsule.items entry.source.field,
      copy.ShortenedFrom entry.source.item ∧ copy.itemId = entry.source.item.itemId ∧
        copy.sourceEventIds = entry.source.item.sourceEventIds ∧
        copy.semanticStatus = entry.source.item.semanticStatus) ↔
      ∃ copy, entry.copy = some copy ∧ copy.ShortenedFrom entry.source.item := by
    refine exists_congr fun copy => ?_
    rw [← hselected]
    exact ⟨fun ⟨hmem, hcopy, hid, _⟩ => ⟨⟨hmem, hid⟩, hcopy⟩,
      fun ⟨⟨hmem, _⟩, hcopy⟩ => ⟨hmem, hcopy, hcopy.keeps⟩⟩
  rw [hsound.status]
  constructor
  · rw [hitem]
    cases hplacement : entry.placement with
    | retained => simp [LedgerEntry.copy, hplacement, Placement.status, Placement.copy]
    | approximate copy tokens =>
        have hne := (hplacement ▸ hsound.allowed : (Placement.approximate copy tokens).Allowed _).2.1
        simp [LedgerEntry.copy, hplacement, Placement.status, Placement.copy, hne]
    | released => simp [LedgerEntry.copy, hplacement, Placement.status, Placement.copy]
  · rw [hitem, hshort]
    cases hplacement : entry.placement with
    | retained => simp [LedgerEntry.copy, hplacement, Placement.status, Placement.copy]
    | approximate copy tokens =>
        have hcopy := (hplacement ▸ hsound.allowed : (Placement.approximate copy tokens).Allowed _).2
        simp [LedgerEntry.copy, hplacement, Placement.status, Placement.copy, hcopy, hcopy.1]
    | released => simp [LedgerEntry.copy, hplacement, Placement.status, Placement.copy]
  · rw [hgone]
    cases hplacement : entry.placement <;>
      simp [LedgerEntry.copy, hplacement, Placement.status, Placement.copy]

end Ledger

/-! ## Canonical records -/

/-- What `canonicalize_reorganization_records` checks of one record. -/
structure ReorganizationRecord.Canonical (record : ReorganizationRecord) : Prop where
  kind : stripNonEmpty record.kind = true
  itemId : stripNonEmpty record.itemId = true
  sourceCapsuleId : stripNonEmpty record.sourceCapsuleId = true
  tokens : 0 ≤ record.beforeTokens ∧ 0 ≤ record.afterTokens
  required : record.required = true → record.status = .retained

/-- Canonical records with distinct keys are accepted as they are. -/
theorem canonicalize_accepts {records : List ReorganizationRecord}
    (hrecords : ∀ record ∈ records, record.Canonical)
    (hkeys : (records.map ReorganizationRecord.sourceItemKey).Nodup) :
    canonicalizeReorganizationRecords records = .ok records := by
  suffices h : ∀ rest seen, (∀ record ∈ rest, record.Canonical) →
      ((seen ++ rest).map ReorganizationRecord.sourceItemKey).Nodup →
      forEach canonicalizeRecord seen rest = .ok (seen ++ rest) from h records [] hrecords hkeys
  intro rest
  induction rest with
  | nil => exact fun seen _ _ => by rw [forEach_nil, List.append_nil]
  | cons record rest ih =>
      intro seen hrest hdistinct
      have hrecord := hrest record List.mem_cons_self
      have hnew : record.sourceItemKey ∉ seen.map ReorganizationRecord.sourceItemKey := by
        rw [List.map_append, List.map_cons] at hdistinct
        intro hseen
        exact List.disjoint_of_nodup_append hdistinct hseen List.mem_cons_self
      have hstep : canonicalizeRecord seen record = .ok (seen ++ [record]) := by
        unfold canonicalizeRecord requireNonemptyRecordIdentity requireNonnegativeRecordTokens
        rw [require_bind_pos hrecord.kind, require_bind_pos hrecord.itemId,
          require_bind_pos hrecord.sourceCapsuleId, require_bind_pos hrecord.tokens.1,
          require_bind_pos hrecord.tokens.2, require_bind_pos hrecord.required,
          require_bind_pos hnew]
        rfl
      rw [List.append_cons] at hdistinct ⊢
      rw [forEach_cons, hstep]
      exact ih (seen ++ [record])
        (fun other hother => hrest other (List.mem_cons_of_mem _ hother)) hdistinct

/-- The keys of the records of a ledger are distinct. -/
theorem Ledger.keys_distinct {summaries : List ReorganizationRecord} {done : List SourceItem}
    {state : Reorganization} {entries : List LedgerEntry}
    (h : Ledger summaries done state entries) {capsules : List ContextCapsuleEnvelope}
    (hsummaries : Summaries capsules summaries)
    (hids : (capsules.map fun capsule => capsule.capsuleId).Nodup) :
    (state.records.map ReorganizationRecord.sourceItemKey).Nodup := by
  refine (h.records.map _).nodup_iff.mpr ?_
  rw [List.map_append, List.map_map]
  refine List.Nodup.append ?_ ?_ ?_
  · refine List.Nodup.of_map Prod.snd ?_
    rw [List.map_map]
    have hidentities : entries.map (Prod.snd ∘ ReorganizationRecord.sourceItemKey ∘
        LedgerEntry.record) = entries.map LedgerEntry.identity :=
      List.map_congr_left fun entry hentry => (h.sound entry hentry).identity
    rw [hidentities]
    exact h.distinct
  · refine List.Nodup.of_map Prod.fst ?_
    rw [List.map_map]
    have hsources : summaries.map (Prod.fst ∘ ReorganizationRecord.sourceItemKey) =
        capsules.map fun capsule => capsule.capsuleId := hsummaries.sources
    rw [hsources]
    exact hids
  · intro key hentries hsummary
    obtain ⟨entry, hentry, rfl⟩ := List.mem_map.mp hentries
    obtain ⟨record, hrecord, hkey⟩ := List.mem_map.mp hsummary
    obtain ⟨_, _, hsummaryOf⟩ := hsummaries.each record hrecord
    have hkind : record.kind = entry.record.kind := congrArg (fun key => key.2.1) hkey
    have hentrykind : entry.record.kind = entry.source.field.kind :=
      (Prod.mk.inj (h.sound entry hentry).identity).1
    exact ItemField.kind_ne_summary _ (hentrykind.symm.trans (hkind.symm.trans hsummaryOf.kind))

/-- The records of a ledger are canonical, where no id is blank. -/
theorem Ledger.canonical {summaries : List ReorganizationRecord} {done : List SourceItem}
    {state : Reorganization} {entries : List LedgerEntry}
    (h : Ledger summaries done state entries) {capsules : List ContextCapsuleEnvelope}
    (hsummaries : Summaries capsules summaries)
    (hitems : ∀ source ∈ done, stripNonEmpty source.item.itemId = true)
    (hsources : ∀ source ∈ done, source.capsule ∈ capsules)
    (hcapsules : ∀ capsule ∈ capsules, stripNonEmpty capsule.capsuleId = true) :
    ∀ record ∈ state.records, record.Canonical := by
  intro record hrecord
  rcases List.mem_append.mp (h.records.mem_iff.mp hrecord) with hitem | hsummary
  · obtain ⟨entry, hentry, rfl⟩ := List.mem_map.mp hitem
    have hsound := h.sound entry hentry
    have horigin := h.origin entry hentry
    obtain ⟨hkind, hid⟩ : entry.record.kind = entry.source.field.kind ∧
        entry.record.itemId = entry.source.item.itemId := Prod.mk.inj hsound.identity
    exact
      { kind := by rw [hkind, ItemField.stripNonEmpty_kind]
        itemId := by rw [hid, hitems _ horigin]
        sourceCapsuleId := by rw [hsound.sourceCapsuleId, hcapsules _ (hsources _ horigin)]
        tokens := hsound.tokens
        required := fun hrequired => by rw [hsound.status, hsound.required hrequired]; rfl }
  · obtain ⟨capsule, hcapsule, hsummaryOf⟩ := hsummaries.each record hsummary
    have hvisible : stripNonEmpty (capsule.capsuleId ++ ":narrative_summary") = true := by
      have hcapsule := hcapsules capsule hcapsule
      unfold stripNonEmpty at hcapsule ⊢
      rw [String.toList_append, List.any_append, hcapsule, Bool.true_or]
    exact
      { kind := by rw [hsummaryOf.kind]; decide
        itemId := by rw [hsummaryOf.itemId, hvisible]
        sourceCapsuleId := by rw [hsummaryOf.sourceCapsuleId, hcapsules capsule hcapsule]
        tokens := hsummaryOf.tokens
        required := fun hrequired => absurd hrequired (by rw [hsummaryOf.required]; decide) }

/-! ## The whole -/

section Whole

variable {σ : Type} [Hashlib] [WireText] (counter : TokenCounter σ)

/-- A reorganization that returns accounts for every item. -/
theorem reorganization_accounts {capsules : List ContextCapsuleEnvelope} {tokenBudget : Int}
    {result : ReorganizationResult} {s s' : σ}
    (h : reorganizeCapsules counter capsules tokenBudget s = .ok result s')
    (hids : (capsules.map fun capsule => capsule.capsuleId).Nodup)
    (hitems : ∀ source ∈ sourceItems ItemField.all capsules,
      stripNonEmpty source.item.itemId = true)
    (hcapsules : ∀ capsule ∈ capsules, stripNonEmpty capsule.capsuleId = true) :
    ExactAccounting capsules tokenBudget result := by
  obtain ⟨summaries, entries, state, hsummaries, hledger, hselected, hrecords, hbudget, hcost, hgap,
    _⟩ := reorganizeCapsules_ledger counter capsules tokenBudget s result s' h
  have hperm : (orderedCapsules capsules).Perm capsules := List.perm_insertionSort _ _
  have hdone {source : SourceItem} :
      source ∈ sourceItems ItemField.core (orderedCapsules capsules) ++
          sourceItems ItemField.optional (orderedCapsules capsules) ↔
        source ∈ sourceItems ItemField.all capsules := by
    rw [← mem_sourceItems_all, mem_sourceItems_ordered]
  have hfield {fields : List ItemField} {source : SourceItem}
      (hsource : source ∈ sourceItems fields capsules) :
      source ∈ sourceItems ItemField.all capsules := by
    obtain ⟨hcapsule, _, hitem⟩ := mem_sourceItems.mp hsource
    exact mem_sourceItems.mpr ⟨hcapsule, ItemField.mem_all _, hitem⟩
  have horderedIds : ((orderedCapsules capsules).map fun capsule => capsule.capsuleId).Nodup :=
    (hperm.map _).nodup_iff.mpr hids
  constructor
  case withinBudget => exact hbudget
  case tokenCost => exact hcost
  case coreKept =>
    intro source hsource
    rw [hselected]
    exact hledger.core_selected (hdone.mpr (hfield hsource)) (mem_sourceItems.mp hsource).2.1
  case oneRecord =>
    intro source hsource
    rw [hrecords]
    exact hledger.countP_identity hsummaries (hdone.mpr hsource)
  case oneSummary =>
    intro capsule hcapsule
    rw [hrecords]
    exact hledger.countP_summary hsummaries horderedIds (hperm.mem_iff.mpr hcapsule)
  case recordsOnly =>
    intro record hrecord
    rw [hrecords] at hrecord
    rcases List.mem_append.mp (hledger.records.mem_iff.mp hrecord) with hitem | hsummary
    · obtain ⟨entry, hentry, rfl⟩ := List.mem_map.mp hitem
      exact .inl ⟨entry.source, hdone.mp (hledger.origin entry hentry),
        (hledger.sound entry hentry).identity⟩
    · obtain ⟨capsule, hcapsule, hsummaryOf⟩ := hsummaries.each record hsummary
      exact .inr ⟨capsule, hperm.mem_iff.mp hcapsule, hsummaryOf⟩
  case statuses =>
    intro source hsource record hrecord hidentity
    rw [hrecords] at hrecord
    obtain ⟨entry, hentry, hentryidentity, hentryfield, hentryitem⟩ :=
      hledger.exists_entry (hdone.mpr (hfield hsource))
    obtain rfl := hledger.record_of_identity hsummaries hentry hrecord
      (hidentity.trans hentryidentity.symm)
    have hagrees := hledger.status_agrees hselected hentry
    constructor
    · simpa only [hentryfield, hentryitem] using hagrees.retained
    · simpa only [hentryfield, hentryitem] using hagrees.approximate
    · simpa only [hentryfield, hentryitem] using hagrees.released
  case nothingElse =>
    intro field
    rw [hselected]
    refine ⟨hledger.selected_distinct field, fun copy hcopy => ?_⟩
    obtain ⟨entry, hentry, rfl, hentrycopy⟩ := hledger.mem_selected.mp hcopy
    obtain ⟨hcapsule, _, hitem⟩ := mem_sourceItems.mp (hdone.mp (hledger.origin entry hentry))
    exact ⟨_, hcapsule, _, hitem, (hledger.sound entry hentry).allowed.copy hentrycopy⟩
  case coverageGap => exact hgap
  case accepted =>
    rw [hrecords]
    refine canonicalize_accepts ?_ (hledger.keys_distinct hsummaries horderedIds)
    refine hledger.canonical hsummaries (fun source hsource => hitems source (hdone.mp hsource)) ?_
      fun capsule hcapsule => hcapsules capsule (hperm.mem_iff.mp hcapsule)
    exact fun source hsource => hperm.mem_iff.mpr (mem_sourceItems.mp (hdone.mp hsource)).1

end Whole

/-! ## Samples -/

namespace ReorganizationSample

scoped instance : Hashlib := .sha256

scoped instance : WireText := ⟨fun _ => "1.0", fun _ => "1970-01-01T00:00:00Z"⟩

/-- A goal that is long enough to be shortened. -/
def goal : CapsuleClaim where
  claimId := "g1"
  text := "Ship the next release"
  status := .active
  confidence := .one
  sourceEventIds := ["e1"]

/-- A decision whose alternatives start differently. -/
def decision : Decision where
  decisionId := "d1"
  text := "Keep the cache"
  status := .active
  confidence := .one
  sourceEventIds := ["e2"]
  rationale := "It is measured"
  alternatives := ["Drop the cache and measure", "Move the cache to the disk"]
  supersedes := []
  rejectedBecause := ""

/-- An anchor, which no reorganization shortens. -/
def anchor : CapsuleAnchor where
  anchorId := "a1"
  anchorType := .path
  exactText := "cache.py"
  sourceEventIds := ["e2"]
  status := .active
  importance := .one

/-- The file that the goal depends on. -/
def dependency : Dependency where
  dependencyId := "p1"
  kind := "file"
  targetId := "cache.py"
  sourceEventIds := ["e1"]

/-- A capsule with a goal, a decision, an anchor and a dependency. -/
def capsuleData (capsuleId : String) : CapsuleData where
  capsuleId := capsuleId
  schemaVersion := "2.1.0"
  level := .micro
  sessionKey := ⟨"p", "m", "s", none, "u", "c", none, SessionKey.sample_nonEmpty⟩
  coveredEventStart := 1
  coveredEventEnd := 2
  sourceEventIds := ["e1", "e2"]
  goals := [goal]
  constraints := []
  decisions := [decision]
  progress := []
  openLoops := []
  preferences := []
  entities := []
  emotionalContext := []
  exactAnchors := [anchor]
  dependencies := [dependency]
  narrativeSummary := "summary"
  tokenCost := 1
  quality := ⟨true, .one, .one, 0, 0⟩
  createdAt := ⟨0, 0⟩

/-- A capsule under a visible id. -/
def capsule : ContextCapsuleEnvelope := ⟨capsuleData "c1", by decide⟩

/-- A capsule under a blank id, which the envelope allows. -/
def blankCapsule : ContextCapsuleEnvelope := ⟨capsuleData " ", by decide⟩

end ReorganizationSample

/-- The answers of a counter that lets a reorganization shorten the decision. -/
def ReorganizationSample.counts : List Nat :=
  [0, 0, 0, 0, 0, 0, 0, 0, 1]

open ReorganizationSample in
/-- The accounting of a reorganization that keeps the goal, the anchor and the dependency of its capsule,
shortens the decision and releases the summary. -/
theorem reorganization_accounts_sample :
    ∃ result answers, reorganizeCapsules TokenCounter.scripted [capsule] 0 counts =
        .ok result answers ∧
      result.records.map (fun record => (record.itemId, record.status)) =
        [("a1", .retained), ("p1", .retained), ("c1:narrative_summary", .released),
          ("g1", .retained), ("d1", .approximate)] ∧
      ExactAccounting [capsule] 0 result := by
  have hrun : (outcome (reorganizeCapsules TokenCounter.scripted [capsule] 0
      counts)).toOption.any (fun result =>
        decide (result.records.map (fun record => (record.itemId, record.status)) =
          [("a1", .retained), ("p1", .retained), ("c1:narrative_summary", .released),
            ("g1", .retained), ("d1", .approximate)])) = true := by
    decide +kernel
  obtain ⟨result, answers, h, hstatus⟩ := exists_ok_of_any hrun
  exact ⟨result, answers, h, of_decide_eq_true hstatus,
    reorganization_accounts _ h (by decide) (by decide) (by decide)⟩

open ReorganizationSample in
/-- Distinct capsule ids and visible item ids are not enough: the records of a capsule with a blank id are
rejected. -/
theorem blank_capsule_id_rejected :
    ([blankCapsule].map fun capsule => capsule.capsuleId).Nodup ∧
      (∀ source ∈ sourceItems ItemField.all [blankCapsule],
        stripNonEmpty source.item.itemId = true) ∧
      ∃ result answers, reorganizeCapsules TokenCounter.scripted [blankCapsule] 0 [] =
          .ok result answers ∧ ¬ ExactAccounting [blankCapsule] 0 result := by
  refine ⟨by decide, by decide, ?_⟩
  have hrun : (outcome (reorganizeCapsules TokenCounter.scripted [blankCapsule] 0
      [])).toOption.any (fun result =>
        !(canonicalizeReorganizationRecords result.records).isOk) = true := by
    decide +kernel
  obtain ⟨result, answers, h, hrejected⟩ := exists_ok_of_any hrun
  refine ⟨result, answers, h, fun haccounts => ?_⟩
  rw [haccounts.accepted] at hrejected
  cases hrejected

end AstrContinuum
