import AstrContinuum.Guarantees.Reencryption
import AstrContinuum.Guarantees.SchemaLedger
import AstrContinuum.Invariants.ActivatedStore

/-!
# Activations preserve what a store says

Over a run of migrations and activations, each with keys of its own, with its own faults and stopped
wherever a statement fails, a store stays encrypted under the one key that `storage_security` names and
says what it said (`activations_preserve`). An activation that returns has left it scrubbed, in the
second format, under its own active key. The ids of the keys are distinct, and the migrations of the
package leave the rows.
-/

namespace AstrContinuum

namespace Records

open Checked Migrations Connections Crypto

section Activations

variable [Primitives] [Hashlib] [PackagedSql] [SqlEngine] [Engine (Secured Store)]

/-- The keys of an activation are in a ring. -/
def UsesKeys (ring : List KeyMaterial) : Call → Prop
  | .migrate .. => True
  | .activate _ _ keys => keys.active ∈ ring ∧ ∀ previous ∈ keys.previous, previous ∈ ring

/-- What holds after one call more. -/
structure ProtectedAfter (ring : List KeyMaterial) (contents : Contents) (call : Call)
    (db db' : Migrations.Database (Secured Store)) : Prop where
  /-- Whatever the call met, the store is under one key and says what it said. -/
  protects : Protects ring contents db'
  /-- An activation that returns has brought it to the second format, under its own active key. -/
  activated : ∀ world settings keys, call = .activate world settings keys →
    ∀ activation host, activateStorageSecurity world settings keys ⟨db, 0⟩ = .ok activation host →
      host.database = db' ∧ Activated keys.active contents activation db'

variable {ring : List KeyMaterial} {contents : Contents} {P : Migrations.Database (Secured Store) → Prop}
  {db : Migrations.Database (Secured Store)}

/-- What a migration keeps holds after its call. -/
theorem run_migrate {world : Nat → Circumstances Failure} {utcNow : Nat → String} {includeKeyed : Bool}
    (hkeeps : Keeps P (Migrations.migrate world packagedPlan utcNow includeKeyed)) (h : P db) :
    P ((Call.migrate world utcNow includeKeyed).run packagedPlan db).1 := by
  have hkept := hkeeps ⟨db, 0⟩ h
  simp only [Call.run]
  generalize Migrations.migrate world packagedPlan utcNow includeKeyed ⟨db, 0⟩ = result at hkept ⊢
  cases result with
  | ok version host => exact hkept
  | error e host => exact hkept

/-- What an activation leaves holds after its call. -/
theorem run_activate {world : Nat → Circumstances Failure} {settings : Settings}
    {keys : ResolvedKeyMaterial}
    {post : StorageSecurityActivation → Migrations.Database (Secured Store) → Prop}
    (hpost : ∀ activation db', post activation db' → P db')
    (hleaves : Leaves P post (activateStorageSecurity world settings keys) db) :
    P ((Call.activate world settings keys).run packagedPlan db).1 ∧
      ∀ activation host, activateStorageSecurity world settings keys ⟨db, 0⟩ = .ok activation host →
        host.database = ((Call.activate world settings keys).run packagedPlan db).1 ∧
          post activation ((Call.activate world settings keys).run packagedPlan db).1 := by
  have hends := hleaves 0
  unfold Effects.Ends at hends
  simp only [Call.run]
  cases hresult : activateStorageSecurity world settings keys ⟨db, 0⟩ with
  | ok activation host =>
      rw [hresult] at hends
      refine ⟨hpost _ _ hends, fun activation' host' hreturned => ?_⟩
      obtain ⟨rfl, rfl⟩ := EStateM.Result.ok.inj hreturned
      exact ⟨rfl, hends⟩
  | error e host =>
      rw [hresult] at hends
      exact ⟨hends, fun activation' host' hreturned => by cases hreturned⟩

/-- One call keeps a store protected. -/
theorem call_protects (hplan : LeavesRecords) (hring : DistinctIds ring) {call : Call}
    (hcall : UsesKeys ring call) (h : Protects ring contents db) :
    ProtectedAfter ring contents call db (call.run packagedPlan db).1 := by
  cases call with
  | migrate world utcNow includeKeyed =>
      exact ⟨run_migrate (migrate_protects world hplan utcNow includeKeyed) h,
        fun _ _ _ hactivation => by cases hactivation⟩
  | activate world settings keys =>
      obtain ⟨hprotects, hreturns⟩ := run_activate (fun _ _ hactivated => hactivated.protects hcall.1)
        (activateStorageSecurity_leaves world hplan hring hcall.1 hcall.2 h)
      refine ⟨hprotects, fun world' settings' keys' hsame => ?_⟩
      obtain ⟨rfl, rfl, rfl⟩ := Call.activate.inj hsame
      exact hreturns

/-- So do all of them. -/
theorem calls_protect (hplan : LeavesRecords) (hring : DistinctIds ring) {calls : List Call}
    (hcalls : ∀ call ∈ calls, UsesKeys ring call) {start : Migrations.Database (Secured Store)}
    (hstart : Protects ring contents start) :
      Protects ring contents (databaseAfter packagedPlan start calls) := by
  induction calls generalizing start with
  | nil => exact hstart
  | cons call calls ih =>
      exact ih (fun other hother => hcalls other (List.mem_cons_of_mem _ hother))
        (call_protects hplan hring (hcalls call List.mem_cons_self) hstart).protects

/-- The last call of a run runs on what the others left. -/
theorem databaseAfter_append (db : Migrations.Database (Secured Store)) (calls : List Call)
    (call : Call) :
    databaseAfter packagedPlan db (calls ++ [call]) =
      (call.run packagedPlan (databaseAfter packagedPlan db calls)).1 := by
  unfold databaseAfter
  rw [List.foldl_append]
  rfl

/-- Over any run of migrations and activations the store says what it said, under the key that is named.
-/
theorem activations_preserve (hplan : LeavesRecords) (hring : DistinctIds ring)
    {start : Migrations.Database (Secured Store)} (hstart : Protects ring contents start)
    (calls : List Call) (call : Call) (hcalls : ∀ other ∈ calls ++ [call], UsesKeys ring other) :
    ProtectedAfter ring contents call (databaseAfter packagedPlan start calls)
      (databaseAfter packagedPlan start (calls ++ [call])) := by
  rw [databaseAfter_append]
  exact call_protects hplan hring (hcalls call (List.mem_append_right _ List.mem_cons_self))
    (calls_protect hplan hring (fun other hother => hcalls other (List.mem_append_left _ hother)) hstart)

/-! ### Activations after one that returned -/

/-- The key of an activation is the active one. -/
def KeepsKey (active : KeyMaterial) : Call → Prop
  | .migrate .. => True
  | .activate _ _ keys => keys.active = active

/-- What holds of a settled store after one call more. -/
structure SettledAfter (active : KeyMaterial) (before : Migrations.Database (Secured Store)) (call : Call)
    (db db' : Migrations.Database (Secured Store)) : Prop where
  /-- The metadata are as they were. -/
  security : db'.rest.security = before.rest.security
  /-- So is every row. -/
  rows : ∀ name, db'.rest.records.rows name = before.rest.records.rows name
  /-- An activation that returns reports that it did nothing. -/
  idle : ∀ world settings keys, call = .activate world settings keys →
    ∀ activation host, activateStorageSecurity world settings keys ⟨db, 0⟩ = .ok activation host →
      activation = ⟨active.codec.keyId, .active, false, false, false⟩

variable {active : KeyMaterial} {row : SecurityRow} {rows : String → List Row}

/-- One call keeps a store settled. -/
theorem call_settled (hplan : LeavesRecords) (hrow : AsksNothing active row) {call : Call}
    (hcall : KeepsKey active call) {before : Migrations.Database (Secured Store)}
    (hbefore : Settled row before.rest.records.rows before)
    (h : Settled row before.rest.records.rows db) :
    SettledAfter active before call db (call.run packagedPlan db).1 := by
  cases call with
  | migrate world utcNow includeKeyed =>
      obtain ⟨hsecurity, hrows⟩ := run_migrate (migrate_settled world hplan utcNow includeKeyed) h
      exact ⟨hsecurity.trans hbefore.1.symm, hrows, fun _ _ _ hactivation => by cases hactivation⟩
  | activate world settings keys =>
      obtain rfl : keys.active = active := hcall
      obtain ⟨⟨hsecurity, hrows⟩, hreturns⟩ := run_activate (fun _ _ hidle => hidle.1)
        (activateStorageSecurity_settled world hplan hrow h)
      refine ⟨hsecurity.trans hbefore.1.symm, hrows, fun world' settings' keys' hsame => ?_⟩
      obtain ⟨rfl, rfl, rfl⟩ := Call.activate.inj hsame
      exact fun activation host hreturned => (hreturns activation host hreturned).2.2

/-- So do all of them. -/
theorem calls_settled (hplan : LeavesRecords) (hrow : AsksNothing active row) {calls : List Call}
    (hcalls : ∀ call ∈ calls, KeepsKey active call) {before : Migrations.Database (Secured Store)}
    (hbefore : Settled row before.rest.records.rows before)
    (h : Settled row before.rest.records.rows db) :
    Settled row before.rest.records.rows (databaseAfter packagedPlan db calls) := by
  induction calls generalizing db with
  | nil => exact h
  | cons call calls ih =>
      have hafter := call_settled hplan hrow (hcalls call List.mem_cons_self) hbefore h
      exact ih (fun other hother => hcalls other (List.mem_cons_of_mem _ hother))
        ⟨hafter.security.trans hbefore.1, hafter.rows⟩

/-- Once an activation has returned, no later call with its key changes a row. -/
theorem activation_idempotent (hplan : LeavesRecords) (hring : DistinctIds ring)
    {start : Migrations.Database (Secured Store)} (hstart : Protects ring contents start)
    {world : Nat → Circumstances Failure} {settings : Settings} {keys : ResolvedKeyMaterial}
    (hkeys : UsesKeys ring (.activate world settings keys)) {activation : StorageSecurityActivation}
    {host : Host (Migrations.Database (Secured Store))}
    (hreturned : activateStorageSecurity world settings keys ⟨start, 0⟩ = .ok activation host)
    (calls : List Call) (call : Call) (hcalls : ∀ other ∈ calls ++ [call], KeepsKey keys.active other) :
    SettledAfter keys.active host.database call (databaseAfter packagedPlan host.database calls)
      (databaseAfter packagedPlan host.database (calls ++ [call])) := by
  -- what the first activation guarantees is what makes the later ones do nothing
  have hactivated := (call_protects hplan hring hkeys hstart).activated _ _ _ rfl _ _ hreturned
  obtain ⟨row, hsecurity, hnames, hstate⟩ := hactivated.1 ▸ hactivated.2.secured
  have hrow : AsksNothing keys.active row := ⟨hnames.formatVersion, hnames.activeKeyId, hstate⟩
  have hbefore : Settled row host.database.rest.records.rows host.database :=
    ⟨hsecurity, fun _ => rfl⟩
  rw [databaseAfter_append]
  exact call_settled hplan hrow (hcalls call (List.mem_append_right _ List.mem_cons_self)) hbefore
    (calls_settled hplan hrow (fun other hother => hcalls other (List.mem_append_left _ hother)) hbefore
      hbefore)

end Activations

namespace ActivationSample

scoped instance : Primitives := samplePrimitives

/-- SHA-256 of the one text of the migrations. -/
scoped instance : Hashlib := .sha256

/-- The statement of the samples. -/
theorem stripNonEmpty_sql : stripNonEmpty "SELECT 3;" = true := by decide

/-- The texts of the migrations do not matter. -/
scoped instance : PackagedSql where
  initialSchemaSql := "SELECT 3;"
  secureFormatV2ContractSql := "SELECT 3;"
  snapshotReorganizationLedgerV3Sql := "SELECT 3;"
  initialSchemaSql_ok := stripNonEmpty_sql
  secureFormatV2ContractSql_ok := stripNonEmpty_sql
  snapshotReorganizationLedgerV3Sql_ok := stripNonEmpty_sql

/-- An engine that accepts every statement on the records. -/
scoped instance : SqlEngine where
  accepts _ _ := true
  executes _ _ := true
  foreignKeysHold _ := true
  validateLegacyRows _ := .ok ()
  nonce _ _ _ _ := ReencryptionSample.nonce

/-- Migrations that change nothing. -/
scoped instance : Engine (Secured Store) where
  completeStatement text := text.toList.getLast? = some ';'
  jsonFunctions := true
  execute _ tables := some tables

/-- A database without a ledger, in clear text. -/
def database : Migrations.Database (Secured Store) :=
  { ReencryptionSample.database with userVersion := 0 }

/-- The key of the samples. -/
def material : KeyMaterial := ⟨sampleCodec.key, sampleCodec.keyId, sampleCodec.key_ok⟩

/-- No other key. -/
def keys : ResolvedKeyMaterial := ⟨material, none⟩

/-- Nothing goes wrong. -/
def world : Nat → Circumstances Failure := fun _ => ⟨none, fun _ => none, false⟩

/-- What an event of the samples says. -/
def eventRecord (eventId content : String) : Record :=
  ⟨.text eventId, [.text content, .count 1],
    formatTwoJournalEvents.columns.map (ReencryptionSample.event eventId content)⟩

/-- What a capsule of the samples says. -/
def capsuleRecord (capsuleId : String) (tokenCost : Nat) : Record :=
  ⟨.text capsuleId, [.text "\x7b\x7d", .count tokenCost],
    formatTwoCapsules.columns.map (ReencryptionSample.capsule capsuleId tokenCost)⟩

/-- What the store of the samples says. -/
def contents : Contents where
  records name :=
    if name = "journal_events" then [eventRecord "e1" "7", eventRecord "e2" "8"]
    else if name = "capsules" then [capsuleRecord "c1" 5, capsuleRecord "c2" 6]
    else []
  metrics := []
  others := ReencryptionSample.store.rows

/-- A migration of the samples. -/
def migrateCall : Call := .migrate world (fun _ => "now") true

/-- The activation of the samples. -/
def activateCall : Call := .activate world ReencryptionSample.settings keys

/-- The database is protected, though not encrypted yet. -/
theorem database_protects : Protects [material] contents database := by
  have hnone : AllTell (Tells .none protectedSessions) [] [] := ⟨[], .refl _, .nil⟩
  have hevent (eventId content : String) : Tells .none protectedJournalEvents
      (ReencryptionSample.event eventId content) (eventRecord eventId content) :=
    ⟨rfl, .cons rfl (.cons rfl .nil), rfl⟩
  have hcapsule (capsuleId : String) (tokenCost : Nat) : Tells .none protectedCapsules
      (ReencryptionSample.capsule capsuleId tokenCost) (capsuleRecord capsuleId tokenCost) := by
    have hcount : formatOneCount (.integer tokenCost) = .ok (.count tokenCost) := by
      simp [formatOneCount]
    exact ⟨rfl, .cons rfl (.cons hcount .nil), rfl⟩
  -- the records are sorted by the key, the rows are not
  have hevents : AllTell (Tells .none protectedJournalEvents) ReencryptionSample.events
      (contents.records "journal_events") :=
    ⟨_, List.Perm.swap _ _ _, .cons (hevent "e1" "7") (.cons (hevent "e2" "8") .nil)⟩
  have hcapsules : AllTell (Tells .none protectedCapsules) ReencryptionSample.capsules
      (contents.records "capsules") :=
    ⟨_, .refl _, .cons (hcapsule "c1" 5) (.cons (hcapsule "c2" 6) .nil)⟩
  refine ⟨.none, .clear, ReencryptionSample.store_keyed, ?_, ⟨rfl, rfl⟩, fun _ _ _ => rfl⟩
  exact forall_protectedTables hnone hevents hcapsules ⟨[], .refl _, .nil⟩

/-- The activation of the samples returns. -/
theorem activate_returns : ∃ activation host,
    activateStorageSecurity world ReencryptionSample.settings keys ⟨database, 0⟩ = .ok activation host := by
  have hreturns : (Effects.outcome (activateStorageSecurity world ReencryptionSample.settings keys
      ⟨database, 0⟩)).toOption.any (fun _ => true) = true := by
    decide +kernel
  obtain ⟨activation, host, hrun, -⟩ := Effects.exists_ok_of_any hreturns
  exact ⟨activation, host, hrun⟩

/-- The migrations leave the rows. -/
theorem leavesRecords : LeavesRecords := by
  intro migration hmigration hcodec statement hstatement tables tables' hexecute
  obtain rfl := Option.some.inj hexecute
  exact ⟨rfl, fun _ => rfl⟩

/-- One key alone has an id of its own. -/
theorem distinctIds : DistinctIds [material] := by
  intro first hfirst second hsecond _
  rw [List.mem_singleton.mp hfirst, List.mem_singleton.mp hsecond]

/-- The keys of the samples are in the ring. -/
theorem usesKeys : UsesKeys [material] activateCall :=
  ⟨List.mem_cons_self, fun _ hprevious => by cases hprevious⟩

end ActivationSample

open ActivationSample in
/-- An activation encrypts this store, and it says what it said. -/
theorem activations_preserve_event : ∃ activation host,
    activateStorageSecurity world ReencryptionSample.settings keys ⟨database, 0⟩ = .ok activation host ∧
      Activated material contents activation
        (databaseAfter packagedPlan database [.activate world ReencryptionSample.settings keys]) := by
  obtain ⟨activation, host, hrun⟩ := activate_returns
  have hcalls : ∀ other ∈ [] ++ [activateCall], UsesKeys [material] other := by
    intro other hother
    obtain rfl := List.mem_singleton.mp hother
    exact usesKeys
  have hafter := activations_preserve leavesRecords distinctIds database_protects [] _ hcalls
  exact ⟨activation, host, hrun, (hafter.activated _ _ _ rfl activation host hrun).2⟩

open ActivationSample in
/-- A migration and a second activation of this store change nothing. -/
theorem activation_idempotent_event : ∃ activation host,
    activateStorageSecurity world ReencryptionSample.settings keys ⟨database, 0⟩ = .ok activation host ∧
      SettledAfter material host.database activateCall
        (databaseAfter packagedPlan host.database [migrateCall])
        (databaseAfter packagedPlan host.database [migrateCall, activateCall]) := by
  obtain ⟨activation, host, hrun⟩ := activate_returns
  have hcalls : ∀ other ∈ [migrateCall] ++ [activateCall], KeepsKey material other := by
    intro other hother
    obtain rfl | hlast := List.mem_cons.mp hother
    · trivial
    · obtain rfl := List.mem_singleton.mp hlast
      rfl
  exact ⟨activation, host, hrun,
    activation_idempotent leavesRecords distinctIds database_protects usesKeys hrun _ _ hcalls⟩

end Records

end AstrContinuum
