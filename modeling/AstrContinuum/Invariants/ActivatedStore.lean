import AstrContinuum.Invariants.ProtectedStore

/-!
# Activations of a protected store

From a store that `Protects` its contents every process of an activation leaves one that does, whether
it returns or raises (`Leaves`). What returns says more: the store is in the second format, scrubbed,
and under the active key.
-/

namespace AstrContinuum

namespace Records

open Checked Migrations Connections Crypto

/-! ## Processes that raise codes -/

section Processes

variable {Rest α : Type} {P : Migrations.Database (Secured Rest) → Prop}
  {post : α → Migrations.Database (Secured Rest) → Prop} {db : Migrations.Database (Secured Rest)}

/-- Another error changes nothing else. -/
theorem failWith_leaves {code : SecurityErrorCode}
    {x : Process Failure (Migrations.Database (Secured Rest)) α}
    (h : Leaves P post x db) : Leaves P post (failWith code x) db := by
  intro opened
  have hrun := h opened
  unfold Effects.Ends failWith at *
  cases hresult : x ⟨db, opened⟩ with
  | ok a host =>
      rw [hresult] at hrun
      exact hrun
  | error e host =>
      rw [hresult] at hrun
      exact hrun

/-- Raising leaves the database. -/
theorem raise_leaves {code : SecurityErrorCode} (hdb : P db) :
    Leaves P post (raise code : Process Failure (Migrations.Database (Secured Rest)) α) db :=
  fun _ => hdb

/-- So does a computation. -/
theorem compute_leaves {x : Except Failure α} (hdb : P db) :
    Leaves P (fun a db' => db' = db ∧ x = .ok a)
      (compute x : Process Failure (Migrations.Database (Secured Rest)) α) db := by
  intro opened
  cases x with
  | ok a => exact ⟨rfl, rfl⟩
  | error e => exact hdb

/-- A handler that raises leaves what the process left. -/
theorem attempt_leaves {x : Process Failure (Migrations.Database (Secured Rest)) α}
    {replace : Raised Failure → Raised Failure} (h : Leaves P post x db) :
    Leaves P post (Effects.attempt x fun raised host => .error (replace raised) host) db := by
  intro opened
  have hrun := h opened
  unfold Effects.Ends Effects.attempt at *
  cases hresult : x ⟨db, opened⟩ with
  | ok a host =>
      rw [hresult] at hrun
      exact hrun
  | error e host =>
      rw [hresult] at hrun
      exact hrun

variable (world : Nat → Circumstances Failure)

/-- Whether there is a `storage_security`. -/
theorem securityTableExists_leaves (hdb : P db) :
    Leaves P (fun existing db' => db' = db ∧ existing = db.rest.security.isSome)
      (securityTableExists world) db :=
  failWith_leaves ((Leaves.read hdb).weaken (fun _ h => h) fun _ _ h => ⟨h.1, (Except.ok.inj h.2).symm⟩)

/-- A state is read from its own text. -/
theorem maintenanceState_value {text : String} {state : StorageMaintenanceState}
    (h : maintenanceState text = some state) : text = state.value := by
  unfold maintenanceState at h
  have hvalue := List.find?_some h
  exact (of_decide_eq_true hvalue).symm

/-- The one row of `storage_security`, and what is read from it. -/
structure ReadsRow (metadata : Int × String × StorageMaintenanceState × String) (row : SecurityRow)
    (db : Migrations.Database (Secured Rest)) : Prop where
  only : db.rest.security = some [row]
  formatVersion : row.formatVersion = metadata.1
  known : row.formatVersion = legacyStorageFormatVersion ∨ row.formatVersion = storageFormatVersion
  activeKeyId : row.activeKeyId = metadata.2.1
  state : row.state = metadata.2.2.1.value
  verifier : row.keyVerifier = metadata.2.2.2

/-- Reading the metadata leaves the database. -/
theorem readSecurityMetadata_leaves (hdb : P db) :
    Leaves P (fun metadata db' => db' = db ∧ ∃ row, ReadsRow metadata row db)
      (readSecurityMetadata world) db := by
  unfold readSecurityMetadata
  refine failWith_leaves ((Leaves.read hdb).bind fun rows db' hread => ?_)
  obtain ⟨rfl, hrows⟩ := hread
  have hsecurity := securityRows_ok hrows
  split
  · rename_i row
    split
    · rename_i state hstate
      split_ifs with hformat
      · exact Leaves.pure ⟨rfl, row, hsecurity, rfl, hformat, rfl, maintenanceState_value hstate, rfl⟩
      · exact raise_leaves hdb
    · exact raise_leaves hdb
  · exact raise_leaves hdb

end Processes

/-! ## Migrations keep the records -/

section Migrated

variable {Rest : Type} [Engine (Secured Rest)] {Q : Secured Rest → Prop}

/-- The migrations that need no codec keep a property of what is stored beside the ledger. -/
def PlanKeeps (plan : Plan) (Q : Secured Rest → Prop) : Prop :=
  ∀ migration ∈ plan.migrations, migration.requiresCodec = false →
    ∀ statement ∈ migration.statements (Secured Rest),
      ∀ (tables tables' : Migrations.Tables (Secured Rest)),
      Q tables.rest → Engine.execute statement tables = some tables' → Q tables'.rest

/-- So does a run of the migrator, whatever meets its attempts. -/
theorem migrate_rest [Hashlib] {plan : Plan} (hplan : PlanKeeps plan Q) (world : Nat → Circumstances Failure)
    (utcNow : Nat → String) (includeKeyed : Bool) :
    Keeps (fun db : Migrations.Database (Secured Rest) => Q db.rest)
      (migrate world plan utcNow includeKeyed) := by
  have hkeep : MigrationsKeep plan fun tables : Migrations.Tables (Secured Rest) => Q tables.rest := by
    refine ⟨fun db hdb => ?_, hplan, fun row db db' h hinsert => ?_, fun _ _ h => h⟩
    · unfold createLedger
      split <;> exact hdb
    · obtain ⟨ledger, -, -, rfl⟩ := insertRow_ok.mp hinsert
      exact h
  exact migrate_keeps hkeep world utcNow includeKeyed

end Migrated

/-! ## Activations -/

section Activations

variable [Primitives] {ring : List KeyMaterial} {contents : Contents} {settings : Settings}
  {db db' : Migrations.Database (Secured Store)} {row : SecurityRow}

/-- A database after its scrub. -/
def scrubbed (settings : Settings) (row : SecurityRow) (db : Migrations.Database (Secured Store)) :
    Migrations.Database (Secured Store) :=
  { db with rest := ⟨some [{ row with
      state := StorageMaintenanceState.active.value
      updatedAt := settings.utcNow }], db.rest.records⟩ }

omit [Primitives] in
/-- The update of a scrub, where there is one row. -/
theorem finishScrub_ok (hrow : db.rest.security = some [row]) (h : finishScrub settings db = .ok db') :
    db' = scrubbed settings row db := by
  obtain ⟨rows, hrows, h⟩ := bind_ok.mp h
  obtain rfl := Option.some.inj (hrow.symm.trans (securityRows_ok hrows))
  obtain ⟨_, hone, h⟩ := bind_ok.mp h
  have hlength := require_ok.mp hone
  obtain rfl := Except.ok.inj h
  unfold scrubbed
  cases hneeds : decide (row.singletonId = securitySingletonId ∧
      row.state = StorageMaintenanceState.needsScrub.value) with
  | true => simp only [List.map_cons, List.map_nil, hneeds, if_true]
  | false =>
      simp only [List.filter_cons, List.filter_nil, hneeds] at hlength
      cases hlength

/-- A scrub changes no key. -/
theorem Protects.scrubbed (h : Protects ring contents db) (hrow : db.rest.security = some [row]) :
    Protects ring contents (Records.scrubbed settings row db) := by
  obtain ⟨encryption, hsecures, hreads⟩ := h
  rw [hrow] at hsecures
  refine ⟨encryption, ?_, hreads⟩
  cases hsecures with
  | formatOne hring hnames =>
      exact .formatOne hring ⟨hnames.singletonId, hnames.formatVersion, hnames.activeKeyId, .inr rfl,
        hnames.verifier⟩
  | formatTwo hring hnames =>
      exact .formatTwo hring ⟨hnames.singletonId, hnames.formatVersion, hnames.activeKeyId, .inr rfl,
        hnames.verifier⟩

/-- What an activation says when it returns: the store is scrubbed, in the second format, and under its
key. -/
structure Activated (active : KeyMaterial) (contents : Contents) (activation : StorageSecurityActivation)
    (db : Migrations.Database (Secured Store)) : Prop where
  keyId : activation.keyId = active.codec.keyId
  state : activation.state = .active
  secured : ∃ row, db.rest.security = some [row] ∧ Names active storageFormatVersion row ∧
    row.state = StorageMaintenanceState.active.value
  reads : Reads (.formatTwo active.codec) contents db.rest.records

/-- Such a store is protected. -/
theorem Activated.protects {active : KeyMaterial} {activation : StorageSecurityActivation}
    (hactive : active ∈ ring)
    (h : Activated active contents activation db) : Protects ring contents db := by
  obtain ⟨row, hrow, hnames, -⟩ := h.secured
  exact ⟨.formatTwo active.codec, hrow ▸ .formatTwo hactive hnames, h.reads⟩

/-- The metadata that are read last say so. -/
theorem Protects.activated (h : Protects ring contents db) (hring : DistinctIds ring)
    {active : KeyMaterial}
    (hactive : active ∈ ring) {keyId verifier : String}
    (hrow : ReadsRow ((storageFormatVersion : Int), keyId, StorageMaintenanceState.active,
      verifier) row db)
    (hkey : keyId = active.codec.keyId) (hverifier : Authentic active.codec verifier)
    (migrated rekeyed scrubbed : Bool) :
    Activated active contents ⟨active.codec.keyId, .active, migrated, rekeyed, scrubbed⟩ db := by
  have hid : row.activeKeyId = active.codec.keyId := hrow.activeKeyId.trans hkey
  obtain ⟨other, material, formatVersion, hrows, -, hnames⟩ := h.row hrow.only
  obtain rfl := List.singleton_inj.mp hrows
  refine ⟨rfl, rfl, ⟨row, hrow.only, ⟨hnames.singletonId, hrow.formatVersion, hid, .inr hrow.state, ?_⟩,
    hrow.state⟩,
    h.formatTwo hring hactive hrow.only hrow.formatVersion hid⟩
  rw [hrow.verifier]
  exact hverifier

variable (world : Nat → Circumstances Failure)

omit [Primitives] in
/-- A scrub leaves the store scrubbed. -/
theorem scrubStorage_leaves {P : Migrations.Database (Secured Store) → Prop} (hdb : P db)
    (hrow : db.rest.security = some [row]) :
    Leaves P (fun _ db' => db' = scrubbed settings row db) (scrubStorage world settings) db := by
  unfold scrubStorage
  have hquiet : Leaves P (fun _ db' => db' = db) (connect world fun outages => connection outages do
      pragma outages
      pragma outages
      lift (injectStage settings "security.before_vacuum")
      pragma outages
      lift (injectStage settings "security.after_vacuum")
      pragma outages) db := by
    refine (@Leaves.of_keeps _ _ _ (fun db' => db' = db) _ _
      (Keeps.connection fun outages => ?_) rfl).weaken
      (fun _ hsame => hsame ▸ hdb) fun _ _ hsame => hsame
    exact (pragma_quiet outages).bind fun _ => (pragma_quiet outages).bind fun _ =>
      (lift_quiet _).bind fun _ => (pragma_quiet outages).bind fun _ => (lift_quiet _).bind fun _ =>
        pragma_quiet outages
  refine failWith_leaves (hquiet.bind fun _ db' hsame => ?_)
  subst hsame
  exact (Leaves.transaction (fun outages => Inside.write_ok _) hdb).weaken (fun _ h => h)
    fun _ _ hfinish => finishScrub_ok hrow hfinish

/-- The row that a protected store has is left by a scrub, and the store protected. -/
theorem scrubStorage_protects (h : Protects ring contents db) (hrow : db.rest.security = some [row]) :
    Leaves (Protects ring contents) (fun _ db' => Protects ring contents db' ∧
      db' = scrubbed settings row db)
      (scrubStorage world settings) db := by
  refine (scrubStorage_leaves world h hrow).weaken (fun _ hdb => hdb) fun _ db' hsame => ?_
  subst hsame
  exact ⟨h.scrubbed hrow, rfl⟩

/-- The codec of the durable key is that of a key of the ring. -/
theorem sourceCodec_leaves {P : Migrations.Database (Secured Store) → Prop} (hdb : P db)
    {keys : ResolvedKeyMaterial} (hkeys : keys.Consistent) (hactive : keys.active ∈ ring)
    (hprevious : ∀ previous ∈ keys.previous, previous ∈ ring) (durableKeyId verifier : String) :
    Leaves P (fun codec db' => db' = db ∧ ∃ material ∈ ring, codec = material.codec ∧
      material.codec.keyId = durableKeyId) (sourceCodec keys durableKeyId verifier) db := by
  unfold sourceCodec
  split_ifs with hid
  · refine (compute_leaves hdb).bind fun _ db' hauthentic => ?_
    obtain ⟨rfl, -⟩ := hauthentic
    exact Leaves.pure ⟨rfl, keys.active, hactive, rfl, hid.symm⟩
  · split
    · exact raise_leaves hdb
    · rename_i material hmaterial
      split_ifs with hother
      · exact raise_leaves hdb
      · refine (failWith_leaves (compute_leaves hdb)).bind fun _ db' hauthentic => ?_
        obtain ⟨rfl, -⟩ := hauthentic
        have hmem : material ∈ keys.previous := Option.mem_def.mpr hmaterial
        exact Leaves.pure ⟨rfl, material, hprevious material hmem, rfl,
          (hkeys.2 material hmem).1.symm.trans (not_not.mp hother)⟩

/-- A pending scrub keeps the store protected. -/
theorem pendingScrub_leaves (h : Protects ring contents db) (hrow : db.rest.security = some [row])
    (state : StorageMaintenanceState) :
    Leaves (Protects ring contents) (fun _ => Protects ring contents)
      (pendingScrub world settings state) db := by
  unfold pendingScrub
  split_ifs
  · refine (scrubStorage_protects world h hrow).bind fun _ db' hscrubbed => ?_
    exact Leaves.pure hscrubbed.1
  · exact Leaves.pure h
  · exact raise_leaves h

/-- A change of keys leaves the row with its format. -/
theorem RekeyTransacted.keepsFormat {previous active : KeyMaterial} (hrow : db.rest.security = some [row])
    (h : RekeyTransacted previous.codec active.codec db db') :
    ∃ row', db'.rest.security = some [row'] ∧ row'.formatVersion = row.formatVersion := by
  obtain ⟨rows, rows', hrows, hdb', hrelated, -⟩ := h.frame
  obtain rfl := Option.some.inj (hrow.symm.trans hrows)
  obtain ⟨row', _, hone, hnil, rfl⟩ := List.forall₂_cons_left_iff.mp hrelated
  rw [List.forall₂_nil_left_iff.mp hnil] at hdb'
  refine ⟨row', by rw [hdb'], ?_⟩
  rcases hone with rfl | ⟨-, -, hsame, -⟩
  · rfl
  · exact hsame

variable [SqlEngine] [Hashlib] [PackagedSql]

/-- The upgrade of a store in the first format. -/
theorem upgradeSecureFormatOne_leaves (hring : DistinctIds ring) {source target : KeyMaterial}
    (htarget : target ∈ ring) (h : Protects ring contents db)
    (hreads : Reads (.formatOne source.codec) contents db.rest.records) (rekeyed : Bool) :
    Leaves (Protects ring contents) (fun activation db' => Activated target contents activation db')
      (upgradeSecureFormatOne world settings source.codec target.codec rekeyed) db := by
  unfold upgradeSecureFormatOne
  have htransacted : Leaves (Protects ring contents) (fun _ db' => Protects ring contents db' ∧
      ∃ row, db'.rest.security = some [row])
      (connect world fun outages => startupExclusive outages false
        (applySecureFormatTwo settings outages source.codec target.codec)) db := by
    refine (Leaves.startupExclusive (fun outages =>
      (applySecureFormatTwo_inside settings outages source.codec target.codec hreads.keyed).mono
        fun _ db' hdone => ?_) h fun _ _ hdone => hdone.1)
    obtain ⟨verifier, createdAt, ledger, -, -, -, hdb'⟩ := hdone.frame
    exact ⟨hdone.protects htarget hreads, _, by rw [hdb']⟩
  refine (failWith_leaves htransacted).bind fun _ db₁ hdb₁ => ?_
  obtain ⟨hprotects, row, hrow⟩ := hdb₁
  refine (failWith_leaves (compute_leaves hprotects)).bind fun _ db₂ hinject => ?_
  obtain ⟨rfl, -⟩ := hinject
  refine (scrubStorage_protects world hprotects hrow).bind fun _ db₃ hscrubbed => ?_
  refine (readSecurityMetadata_leaves world hscrubbed.1).bind fun metadata db₄ hmetadata => ?_
  obtain ⟨rfl, last, hlast⟩ := hmetadata
  obtain ⟨formatVersion, keyId, state, verifier⟩ := metadata
  dsimp only
  split_ifs with hwrong
  · exact raise_leaves hscrubbed.1
  · simp only [ne_eq, not_or, not_not] at hwrong
    obtain ⟨rfl, rfl, rfl⟩ := hwrong
    refine (compute_leaves hscrubbed.1).bind fun _ db₅ hauthentic => ?_
    obtain ⟨rfl, hauthentic⟩ := hauthentic
    exact Leaves.pure (hscrubbed.1.activated hring htarget hlast rfl
      (authenticateVerifier_ok hauthentic) _ _ _)

omit [Hashlib] [PackagedSql] in
/-- A change of keys. -/
theorem rotateStorage_leaves (hring : DistinctIds ring) {keys : ResolvedKeyMaterial}
    (hkeys : keys.Consistent)
    (hactive : keys.active ∈ ring) (hprevious : ∀ previous ∈ keys.previous, previous ∈ ring)
    (h : Protects ring contents db) (hrow : db.rest.security = some [row])
    (hformat : row.formatVersion = storageFormatVersion) (verifier : String) :
    Leaves (Protects ring contents) (fun activation db' => Activated keys.active contents activation db')
      (rotateStorage world settings keys row.activeKeyId verifier) db := by
  unfold rotateStorage
  split
  · exact raise_leaves h
  · rename_i material hmaterial
    split_ifs with hother
    · exact raise_leaves h
    · have hmem : material ∈ keys.previous := Option.mem_def.mpr hmaterial
      have hid : row.activeKeyId = material.codec.keyId :=
        (not_not.mp hother).symm.trans (hkeys.2 material hmem).1
      have hreads := h.formatTwo hring (hprevious material hmem) hrow hformat hid
      refine (failWith_leaves (compute_leaves h)).bind fun _ db₁ hauthentic => ?_
      obtain ⟨rfl, -⟩ := hauthentic
      have htransacted : Leaves (Protects ring contents) (fun _ db' => Protects ring contents db' ∧
          ∃ row, db'.rest.security = some [row] ∧ row.formatVersion = storageFormatVersion)
          (connect world fun outages => startupExclusive outages true
            (rotateBody settings outages row.activeKeyId material.codec keys.active.codec)) db₁ := by
        refine Leaves.startupExclusive (fun outages =>
          (rotateBody_inside settings outages row.activeKeyId material.codec keys.active.codec
            hreads.keyed).mono fun _ db' hdone => ?_) h fun _ _ hdone => hdone.1
        obtain ⟨row', hrow', hsame⟩ := hdone.keepsFormat hrow
        exact ⟨hdone.protects hactive hrow hformat hreads, row', hrow', hsame.trans hformat⟩
      refine (failWith_leaves htransacted).bind fun _ db₂ hdb₂ => ?_
      obtain ⟨hprotects, row', hrow', hformat'⟩ := hdb₂
      refine (failWith_leaves (compute_leaves hprotects)).bind fun _ db₃ hinject => ?_
      obtain ⟨rfl, -⟩ := hinject
      refine (scrubStorage_protects world hprotects hrow').bind fun _ db₄ hscrubbed => ?_
      obtain ⟨hprotects', rfl⟩ := hscrubbed
      refine (readSecurityMetadata_leaves world hprotects').bind fun metadata db₅ hmetadata => ?_
      obtain ⟨rfl, last, hlast⟩ := hmetadata
      obtain ⟨formatVersion, keyId, state, finalVerifier⟩ := metadata
      dsimp only
      split_ifs with hwrong
      · exact raise_leaves hprotects'
      · simp only [ne_eq, not_or, not_not] at hwrong
        obtain ⟨rfl, rfl⟩ := hwrong
        have hsame : formatVersion = storageFormatVersion := by
          have honly : _ = [last] := Option.some.inj hlast.only
          refine hlast.formatVersion.symm.trans ?_
          rw [← List.singleton_inj.mp honly]
          exact hformat'
        subst hsame
        refine (compute_leaves hprotects').bind fun _ db₆ hauthentic => ?_
        obtain ⟨rfl, hauthentic⟩ := hauthentic
        exact Leaves.pure (hprotects'.activated hring hactive hlast rfl
          (authenticateVerifier_ok hauthentic) _ _ _)

/-- What an activation does with an encrypted store. -/
theorem activateExisting_leaves (hring : DistinctIds ring) {keys : ResolvedKeyMaterial}
    (hkeys : keys.Consistent)
    (hactive : keys.active ∈ ring) (hprevious : ∀ previous ∈ keys.previous, previous ∈ ring)
    (h : Protects ring contents db) :
    Leaves (Protects ring contents) (fun activation db' => Activated keys.active contents activation db')
      (activateExisting world settings keys) db := by
  unfold activateExisting
  refine (readSecurityMetadata_leaves world h).bind fun metadata db₁ hmetadata => ?_
  obtain ⟨rfl, row, hrow⟩ := hmetadata
  obtain ⟨formatVersion, durableKeyId, state, verifier⟩ := metadata
  dsimp only
  refine (sourceCodec_leaves h hkeys hactive hprevious durableKeyId verifier).bind
    fun source db₂ hsource => ?_
  obtain ⟨rfl, material, hmaterial, rfl, hid⟩ := hsource
  refine (pendingScrub_leaves world h hrow.only state).bind fun pending db₃ hprotects => ?_
  refine (readSecurityMetadata_leaves world hprotects).bind fun current db₄ hcurrent => ?_
  obtain ⟨rfl, row', hrow'⟩ := hcurrent
  obtain ⟨currentFormat, currentKeyId, currentState, currentVerifier⟩ := current
  dsimp only
  split_ifs with hwrong hlegacy hrekey
  · exact raise_leaves hprotects
  · simp only [ne_eq, not_or, not_not] at hwrong
    obtain ⟨rfl, rfl, rfl⟩ := hwrong
    refine (compute_leaves hprotects).bind fun _ db₅ hauthentic => ?_
    obtain ⟨rfl, -⟩ := hauthentic
    exact upgradeSecureFormatOne_leaves world hring hactive hprotects
      (hprotects.formatOne hring hmaterial hrow'.only (hrow'.formatVersion.trans hlegacy)
        (hrow'.activeKeyId.trans hid.symm)) _
  · simp only [ne_eq, not_or, not_not] at hwrong
    obtain ⟨rfl, rfl, rfl⟩ := hwrong
    refine (compute_leaves hprotects).bind fun _ db₅ hauthentic => ?_
    obtain ⟨rfl, -⟩ := hauthentic
    have hformat : row'.formatVersion = storageFormatVersion :=
      hrow'.known.resolve_left fun hone => hlegacy (hrow'.formatVersion.symm.trans hone)
    have hkey : currentKeyId = row'.activeKeyId := hrow'.activeKeyId.symm
    rw [hkey]
    exact rotateStorage_leaves world hring hkeys hactive hprevious hprotects hrow'.only hformat _
  · simp only [ne_eq, not_or, not_not] at hwrong
    obtain ⟨rfl, rfl, rfl⟩ := hwrong
    refine (compute_leaves hprotects).bind fun _ db₅ hauthentic => ?_
    obtain ⟨rfl, hauthentic⟩ := hauthentic
    have hformat : currentFormat = storageFormatVersion := hrow'.formatVersion.symm.trans
      (hrow'.known.resolve_left fun hone => hlegacy (hrow'.formatVersion.symm.trans hone))
    have hkey : currentKeyId = keys.active.codec.keyId := not_not.mp hrekey
    have hsame : material.codec = keys.active.codec :=
      codec_eq (hring _ hmaterial _ hactive (hid.trans hkey))
    subst hformat
    exact Leaves.pure (hprotects.activated hring hactive hrow' hkey
      (hsame ▸ authenticateVerifier_ok hauthentic) _ _ _)

/-- The migrations without a codec change nothing in the tables that are protected or named in
`Contents`: they leave `storage_security` and the rows of every table. -/
def LeavesRecords [Engine (Secured Store)] : Prop :=
  ∀ migration ∈ packagedPlan.migrations, migration.requiresCodec = false →
    ∀ statement ∈ migration.statements (Secured Store),
      ∀ (tables tables' : Migrations.Tables (Secured Store)), Engine.execute statement tables =
        some tables' →
        tables'.rest.security = tables.rest.security ∧
          ∀ name, tables'.rest.records.rows name = tables.rest.records.rows name

omit [SqlEngine] [Hashlib] [PackagedSql] in
/-- What a store says depends on its rows. -/
theorem Reads.congr {encryption : Encryption} {store store' : Store} (h : Reads encryption contents store)
    (hrows : ∀ name, store'.rows name = store.rows name) : Reads encryption contents store' := by
  refine ⟨⟨fun entry hentry => ?_, ?_⟩, fun spec hspec => ?_, ?_, fun name hname hmetrics => ?_⟩
  · rw [hrows]
    exact h.keyed.1 entry hentry
  · rw [hrows]
    exact h.keyed.2
  · rw [hrows]
    exact h.records spec hspec
  · rw [hrows]
    exact h.metrics
  · rw [hrows]
    exact h.others name hname hmetrics

variable [Engine (Secured Store)]

omit [SqlEngine] in
/-- A migration keeps a store protected. -/
theorem migrate_protects (hplan : LeavesRecords) (utcNow : Nat → String) (includeKeyed : Bool) :
    Keeps (Protects ring contents) (migrate world packagedPlan utcNow includeKeyed) := by
  have hkeeps : PlanKeeps packagedPlan fun rest : Secured Store =>
      ∃ encryption, Secures ring encryption rest.security ∧ Reads encryption contents rest.records := by
    intro migration hmigration hcodec statement hstatement tables tables' hrest hexecute
    obtain ⟨encryption, hsecures, hreads⟩ := hrest
    obtain ⟨hsecurity, hrows⟩ := hplan migration hmigration hcodec statement hstatement tables tables' hexecute
    exact ⟨encryption, hsecurity ▸ hsecures, hreads.congr hrows⟩
  exact migrate_rest hkeeps world utcNow includeKeyed

/-- What an activation does with any store. -/
theorem activateStorageSecurity_leaves (hplan : LeavesRecords) (hring : DistinctIds ring)
    {keys : ResolvedKeyMaterial} (hactive : keys.active ∈ ring)
    (hprevious : ∀ previous ∈ keys.previous, previous ∈ ring) (h : Protects ring contents db) :
    Leaves (Protects ring contents) (fun activation db' => Activated keys.active contents activation db')
      (activateStorageSecurity world settings keys) db := by
  unfold activateStorageSecurity
  split_ifs with hkeys
  · refine (failWith_leaves (Leaves.of_keeps (migrate_protects world hplan _ _) h)).bind
      fun _ db₁ hprotects => ?_
    refine (securityTableExists_leaves world hprotects).bind fun existing db₂ hexisting => ?_
    obtain ⟨rfl, rfl⟩ := hexisting
    split_ifs with hsome
    · exact activateExisting_leaves world hring hkeys hactive hprevious hprotects
    · have hnone : db₂.rest.security = none := Option.not_isSome_iff_eq_none.mp hsome
      have hreads := hprotects.clear hnone
      have htransacted : Leaves (Protects ring contents) (fun _ db' => Protects ring contents db' ∧
          ∃ row, db'.rest.security = some [row])
          (connect world fun outages => startupExclusive outages false
            (transformLegacy settings outages keys.active.codec)) db₂ := by
        refine Leaves.startupExclusive (fun outages =>
          (transformLegacy_inside settings outages keys.active.codec hreads.keyed).mono
            fun _ db' hdone => ?_) hprotects fun _ _ hdone => hdone.1
        obtain ⟨verifier, -, hdb'⟩ := hdone.frame
        exact ⟨hdone.protects hactive hreads, _, by rw [hdb']⟩
      refine (attempt_leaves htransacted).bind fun _ db₃ hdb₃ => ?_
      obtain ⟨hprotects', row, hrow⟩ := hdb₃
      refine (failWith_leaves (compute_leaves hprotects')).bind fun _ db₄ hinject => ?_
      obtain ⟨rfl, -⟩ := hinject
      refine (scrubStorage_protects world hprotects' hrow).bind fun _ db₅ hscrubbed => ?_
      exact activateExisting_leaves world hring hkeys hactive hprevious hscrubbed.1
  · exact raise_leaves h

/-! ## Settled stores -/

/-- A store with one row in `storage_security`, and these rows in its tables. -/
def Settled (row : SecurityRow) (rows : String → List Row)
    (db : Migrations.Database (Secured Store)) : Prop :=
  db.rest.security = some [row] ∧ ∀ name, db.rest.records.rows name = rows name

/-- A row that asks for nothing to be done under a key. -/
structure AsksNothing (active : KeyMaterial) (row : SecurityRow) : Prop where
  formatVersion : row.formatVersion = storageFormatVersion
  activeKeyId : row.activeKeyId = active.codec.keyId
  state : row.state = StorageMaintenanceState.active.value

omit [Primitives] [SqlEngine] [Hashlib] [PackagedSql] [Engine (Secured Store)] in
/-- Only `active` has its text. -/
theorem eq_active_of_value {state : StorageMaintenanceState}
    (h : StorageMaintenanceState.active.value = state.value) : state = .active := by
  cases state with
  | active => rfl
  | needsMigration => exact absurd h (by decide)
  | needsRekey => exact absurd h (by decide)
  | needsScrub => exact absurd h (by decide)

omit [Engine (Secured Store)] in
/-- An activation of a store with metadata changes nothing in a settled one. -/
theorem activateExisting_settled {rows : String → List Row} {keys : ResolvedKeyMaterial}
    (hrow : AsksNothing keys.active row) (h : Settled row rows db) :
    Leaves (Settled row rows) (fun activation db' => Settled row rows db' ∧
        activation = ⟨keys.active.codec.keyId, .active, false, false, false⟩)
      (activateExisting world settings keys) db := by
  unfold activateExisting
  refine (readSecurityMetadata_leaves world h).bind fun metadata db₁ hmetadata => ?_
  obtain ⟨rfl, first, hfirst⟩ := hmetadata
  obtain ⟨formatVersion, durableKeyId, state, verifier⟩ := metadata
  obtain rfl := List.singleton_inj.mp (Option.some.inj (hfirst.only.symm.trans h.1))
  have hstate : state = .active := eq_active_of_value (hrow.state.symm.trans hfirst.state)
  have hkey : durableKeyId = keys.active.codec.keyId := hfirst.activeKeyId.symm.trans hrow.activeKeyId
  have hformat : formatVersion = storageFormatVersion :=
    hfirst.formatVersion.symm.trans hrow.formatVersion
  subst hstate hkey hformat
  dsimp only
  -- the row names the active key, so that it is its own source and no maintenance is pending
  have hsource : Leaves (Settled first rows) (fun _ db' => db' = db₁)
      (sourceCodec keys keys.active.codec.keyId verifier) db₁ := by
    unfold sourceCodec
    rw [if_pos rfl]
    refine (compute_leaves h).bind fun _ db' hauthentic => ?_
    obtain ⟨rfl, -⟩ := hauthentic
    exact Leaves.pure rfl
  refine hsource.bind fun source db₂ hsame => ?_
  subst hsame
  have hpending : Leaves (Settled first rows) (fun scrubbed db' => db' = db₂ ∧ scrubbed = false)
      (pendingScrub world settings .active) db₂ := Leaves.pure ⟨rfl, rfl⟩
  refine hpending.bind fun scrubbed db₃ hnone => ?_
  obtain ⟨rfl, rfl⟩ := hnone
  refine (readSecurityMetadata_leaves world h).bind fun current db₄ hcurrent => ?_
  obtain ⟨rfl, second, hsecond⟩ := hcurrent
  obtain ⟨currentFormat, currentKeyId, currentState, currentVerifier⟩ := current
  dsimp only
  split_ifs with hwrong hlegacy hrekey
  · exact raise_leaves h
  · exact absurd hlegacy (by decide)
  · exact absurd rfl hrekey
  · -- neither the format nor the key asks for a transaction
    simp only [ne_eq, not_or, not_not] at hwrong
    refine (compute_leaves h).bind fun _ db₅ hauthentic => ?_
    obtain ⟨rfl, -⟩ := hauthentic
    rw [hwrong.2.2]
    exact Leaves.pure ⟨h, rfl⟩

omit [Primitives] [SqlEngine] in
/-- Nor does a migration. -/
theorem migrate_settled (hplan : LeavesRecords) {rows : String → List Row} (utcNow : Nat → String)
    (includeKeyed : Bool) :
    Keeps (Settled row rows) (migrate world packagedPlan utcNow includeKeyed) := by
  have hkeeps : PlanKeeps packagedPlan fun rest : Secured Store =>
      rest.security = some [row] ∧ ∀ name, rest.records.rows name = rows name := by
    intro migration hmigration hcodec statement hstatement tables tables' hrest hexecute
    obtain ⟨hsecurity, hrows⟩ :=
      hplan migration hmigration hcodec statement hstatement tables tables' hexecute
    exact ⟨hsecurity.trans hrest.1, fun name => (hrows name).trans (hrest.2 name)⟩
  exact migrate_rest hkeeps world utcNow includeKeyed

/-- An activation changes nothing in such a store, whatever it meets. -/
theorem activateStorageSecurity_settled (hplan : LeavesRecords) {rows : String → List Row}
    {keys : ResolvedKeyMaterial} (hrow : AsksNothing keys.active row) (h : Settled row rows db) :
    Leaves (Settled row rows) (fun activation db' => Settled row rows db' ∧
        activation = ⟨keys.active.codec.keyId, .active, false, false, false⟩)
      (activateStorageSecurity world settings keys) db := by
  unfold activateStorageSecurity
  split_ifs with hkeys
  · refine (failWith_leaves (Leaves.of_keeps (migrate_settled world hplan _ _) h)).bind
      fun _ db₁ hsettled => ?_
    refine (securityTableExists_leaves world hsettled).bind fun existing db₂ hexisting => ?_
    obtain ⟨rfl, rfl⟩ := hexisting
    rw [if_pos (by rw [hsettled.1]; rfl)]
    exact activateExisting_settled world hrow hsettled
  · exact raise_leaves h

end Activations

end Records

end AstrContinuum
