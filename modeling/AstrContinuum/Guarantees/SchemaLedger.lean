import AstrContinuum.Guarantees.EnvelopeCodec
import AstrContinuum.Invariants.ActivatedLedger

/-!
# The schema ledger over runs

Any number of migrations and activations, whatever their connections meet: after each call the database is
as before, or its ledger is a prefix of the plan and the checks of the next migration accept it
(`schema_ledger`).
-/

namespace AstrContinuum

namespace Migrations

open Checked Connections

/-! ## The next migration -/

section Accepted

variable [Hashlib] {Rest : Type}

/-- On every connection the checks find `n` migrations, unless an outage stops them. -/
def Accepted (plan : Plan) (n : Nat) (db : Database Rest) : Prop :=
  ∀ (outages : Outages) (c : Connection (Database Rest)) (t : Transaction (Database Rest)),
    c.transaction = some t → t.working = db →
      match validateLedger outages plan c with
      | .ok m _ => m = n
      | .error e _ => ∃ o, e = .outage o

omit [Hashlib] in
/-- A query of an open transaction returns, or meets an outage. -/
theorem read_cases {α : Type} (outages : Outages) (f : Database Rest → Except Failure α) {a : α}
    {c : Connection (Database Rest)} {t : Transaction (Database Rest)} (hc : c.transaction = some t)
    (hf : f t.working = .ok a) :
    (∃ c', Connections.read outages f c = .ok a c' ∧ c'.transaction = some t) ∨
      ∃ o c', Connections.read outages f c = .error (.outage o) c' := by
  simp only [Connections.read, Connections.execute, Connections.perform]
  cases outages (c.executed + 1) with
  | some o =>
      right
      cases o <;> exact ⟨_, _, rfl⟩
  | none =>
      left
      simp only [hc, hf]
      exact ⟨_, rfl, rfl⟩

/-- What is recorded is accepted. -/
theorem Recorded.accepted {plan : Plan} {n : Nat} {db : Database Rest} (h : Recorded plan n db.toTables) :
    Accepted plan n db := by
  intro outages c t hc hdb
  subst hdb
  obtain ⟨ledger, htable, hcolumns⟩ := h.table
  have hledger : t.working.toTables.rows = ledger.rows := by rw [Tables.rows, htable]
  have hlength : ledger.rows.length = n := hledger ▸ h.length
  have hrows := hledger ▸ h.rows
  unfold validateLedger
  rcases read_cases outages ledgerRows hc (ledgerRows_ok.mpr ⟨ledger, htable, hcolumns, rfl⟩) with
    ⟨c₁, hread, hc₁⟩ | ⟨o, c₁, hread⟩
  · rw [run_bind hread]
    have hbound : lift (require (ledger.rows.length ≤ plan.migrations.length)
        (Failure.checksum "database contains migrations unknown to this package")) c₁ = .ok () c₁ := by
      rw [require_ok.mpr (hlength ▸ h.bound)]
      rfl
    have hchecks : lift (validateRows plan.migrations ledger.rows) c₁ = .ok () c₁ := by
      rw [validateRows_ok.mpr ⟨hlength ▸ h.bound, hlength ▸ hrows⟩]
      rfl
    rw [run_bind hbound, run_bind hchecks]
    rcases read_cases outages (fun db => .ok db.userVersion) hc₁ rfl with
      ⟨c₂, hversion, -⟩ | ⟨o, c₂, hversion⟩
    · have hsame : t.working.userVersion = durableVersion ledger.rows := by
        rw [durableVersion_eq h.bound hrows]
        exact h.userVersion
      have hcounted : lift (require (t.working.userVersion = durableVersion ledger.rows)
          (Failure.checksum "SQLite user_version does not match the migration ledger")) c₂ = .ok () c₂ := by
        rw [require_ok.mpr hsame]
        rfl
      rw [run_bind hversion, run_bind hcounted]
      exact hlength
    · rw [run_bind_error hversion]
      exact ⟨o, rfl⟩
  · rw [run_bind_error hread]
    exact ⟨o, rfl⟩

/-- After a run of the migrator that returns, another one changes nothing. -/
theorem Applies.again [Engine Rest] {plan : Plan} {applied : Nat} {newly later : List Migration}
    {db db' db'' : Database Rest} (h : Applies plan applied newly db db')
    (hagain : Applies plan db'.toTables.rows.length later db' db'') : db'' = db' := by
  obtain ⟨rest, hrest, hhead⟩ := h.pending
  obtain ⟨rest', hrest', -⟩ := hagain.pending
  have hnone : later = [] := by
    rw [h.recorded.length, ← List.drop_drop, hrest, List.drop_left] at hrest'
    cases later with
    | nil => rfl
    | cons migration later =>
        have hkeyed := hhead migration (hrest' ▸ rfl)
        rw [hagain.plain migration List.mem_cons_self] at hkeyed
        cases hkeyed
  obtain ⟨ledger, hledger, -⟩ := h.recorded.table
  rw [hagain.unchanged hnone, createLedger_eq hledger]

end Accepted

/-! ## Runs -/

/-- A call on a store with what its connections meet: `SQLiteMigrator.migrate`, as the constructor of the
repository also makes it, or `activate_storage_security`. -/
inductive Call
  | migrate (world : Nat → Circumstances Failure) (utcNow : Nat → String) (includeKeyed : Bool)
  | activate (world : Nat → Circumstances Failure) (settings : Settings) (keys : ResolvedKeyMaterial)

/-- Activations always migrate the packaged plan. -/
def Call.isActivation : Call → Bool
  | .migrate .. => false
  | .activate .. => true

section Runs

variable [Hashlib] [PackagedSql] [Crypto.Primitives] {Rest : Type} [RecordStore Rest]
  [Engine (Secured Rest)]

/-- The database that a process leaves, and whether it returned. -/
def settled {α : Type} : EStateM.Result (Raised Failure) (Host (Database (Secured Rest))) α →
    Database (Secured Rest) × Bool
  | .ok _ host => (host.database, true)
  | .error _ host => (host.database, false)

/-- The database after a call, and whether the call returned. -/
def Call.run (plan : Plan) (db : Database (Secured Rest)) : Call → Database (Secured Rest) × Bool
  | .migrate world utcNow includeKeyed =>
      settled (Migrations.migrate world plan utcNow includeKeyed ⟨db, 0⟩)
  | .activate world settings keys => settled (activateStorageSecurity world settings keys ⟨db, 0⟩)

/-- The database after some calls. -/
def databaseAfter (plan : Plan) (start : Database (Secured Rest)) (calls : List Call) :
    Database (Secured Rest) :=
  calls.foldl (fun db call => (call.run plan db).1) start

/-- A migration that returns does what it may; one that raises changes nothing. -/
theorem migrate_run {plan : Plan} (hplan : plan.LeavesLedger (Secured Rest)) {call : Call}
    (hcall : call.isActivation = false) (db : Database (Secured Rest)) :
    ((call.run plan db).2 = true →
      ∃ newly, Applies plan db.toTables.rows.length newly db (call.run plan db).1) ∧
    ((call.run plan db).2 = false → (call.run plan db).1 = db) := by
  cases call with
  | activate world settings keys => cases hcall
  | migrate world utcNow includeKeyed =>
      have hends := migrate_ends hplan world utcNow includeKeyed ⟨db, 0⟩
      unfold Effects.Ends at hends
      simp only [Call.run]
      generalize Migrations.migrate world plan utcNow includeKeyed ⟨db, 0⟩ = result at hends ⊢
      cases result with
      | ok version host => exact ⟨fun _ => hends, fun h => nomatch h⟩
      | error e host => exact ⟨fun h => (nomatch h), fun _ => hends⟩

/-- An activation that raises may leave the database; else the ledger is sound after it. -/
theorem activate_run (hplan : packagedPlan.LeavesLedger (Secured Rest)) {call : Call}
    (hcall : call.isActivation = true) {db : Database (Secured Rest)} (hdeclared : db.toTables.Declared)
    (plan : Plan) :
    Sound (call.run plan db).1 ∨ (call.run plan db).2 = false ∧ (call.run plan db).1 = db := by
  cases call with
  | migrate world utcNow includeKeyed => cases hcall
  | activate world settings keys =>
      have hends := activateStorageSecurity_ends world settings keys hplan ⟨db, 0⟩ hdeclared
      unfold Effects.Ends at hends
      simp only [Call.run]
      generalize activateStorageSecurity world settings keys ⟨db, 0⟩ = result at hends ⊢
      cases result with
      | ok activation host => exact .inl hends
      | error e host => exact hends.elim (fun hsame => .inr ⟨rfl, hsame⟩) .inl

/-- Every call keeps the keys of the ledger declared. -/
theorem run_declared {plan : Plan} (hplan : plan.LeavesLedger (Secured Rest)) {call : Call}
    (hpackaged : call.isActivation = true → plan = packagedPlan) {db : Database (Secured Rest)}
    (hdeclared : db.toTables.Declared) : (call.run plan db).1.toTables.Declared := by
  cases call with
  | migrate world utcNow includeKeyed =>
      have hkept := migrate_declared hplan world utcNow includeKeyed ⟨db, 0⟩ hdeclared
      simp only [Call.run]
      generalize Migrations.migrate world plan utcNow includeKeyed ⟨db, 0⟩ = result at hkept ⊢
      cases result with
      | ok version host => exact hkept
      | error e host => exact hkept
  | activate world settings keys =>
      obtain rfl := hpackaged rfl
      have hactivation : (Call.activate world settings keys).isActivation = true := rfl
      rcases activate_run hplan hactivation hdeclared packagedPlan with hsound | ⟨-, hsame⟩
      · exact hsound.declared
      · rw [hsame]
        exact hdeclared

/-- So do all of them. -/
theorem databaseAfter_declared {plan : Plan} (hplan : plan.LeavesLedger (Secured Rest))
    {calls : List Call} (hpackaged : ∀ call ∈ calls, call.isActivation = true → plan = packagedPlan)
    {start : Database (Secured Rest)} (hdeclared : start.toTables.Declared) :
    (databaseAfter plan start calls).toTables.Declared := by
  induction calls generalizing start with
  | nil => exact hdeclared
  | cons call calls ih =>
      exact ih (fun other hother => hpackaged other (List.mem_cons_of_mem _ hother))
        (run_declared hplan (hpackaged call List.mem_cons_self) hdeclared)

/-- What holds after one call more. -/
structure LedgerAfter (plan : Plan) (call : Call) (db db' : Database (Secured Rest)) : Prop where
  /-- The database is unchanged, or the ledger is a prefix of the plan that the next migration accepts. -/
  prefixed : (call.run plan db).2 = false ∧ db' = db ∨
    ∃ n, Recorded plan n db'.toTables ∧ Accepted plan n db'
  /-- A migration executes what it newly records, and nothing after a migration that needs a codec. -/
  applied : call.isActivation = false → (call.run plan db).2 = true →
    ∃ newly, Applies plan db.toTables.rows.length newly db db'
  /-- A migration that raises changes nothing. -/
  failed : call.isActivation = false → (call.run plan db).2 = false → db' = db
  /-- After a migration, a second one changes nothing. -/
  again : call.isActivation = false → (call.run plan db).2 = true →
    ∀ second : Call, second.isActivation = false → (second.run plan db').1 = db'

/-- Over any run the ledger stays a prefix of the plan. Activations need the packaged plan, which they
migrate, and a ledger that declares its keys. -/
theorem schema_ledger (plan : Plan) (hplan : plan.LeavesLedger (Secured Rest))
    (start : Database (Secured Rest)) (calls : List Call) (call : Call)
    (hpackaged : ∀ other ∈ calls ++ [call], other.isActivation = true →
      plan = packagedPlan ∧ start.toTables.Declared) :
    LedgerAfter plan call (databaseAfter plan start calls)
      (databaseAfter plan start (calls ++ [call])) := by
  have hnext : databaseAfter plan start (calls ++ [call]) =
      (call.run plan (databaseAfter plan start calls)).1 := by
    unfold databaseAfter
    rw [List.foldl_append]
    rfl
  rw [hnext]
  generalize hdb : databaseAfter plan start calls = db
  cases hcall : call.isActivation with
  | true =>
      obtain ⟨rfl, hdeclared⟩ := hpackaged call (List.mem_append_right _ List.mem_cons_self) hcall
      have hbefore : db.toTables.Declared := hdb ▸ databaseAfter_declared hplan
        (fun other hother hactivation =>
          (hpackaged other (List.mem_append_left _ hother) hactivation).1) hdeclared
      refine ⟨?_, fun h => ?_, fun h => ?_, fun h => ?_⟩
      · rcases activate_run hplan hcall hbefore packagedPlan with ⟨⟨n, -, hrecorded⟩, -⟩ | hsame
        · exact .inr ⟨n, hrecorded, hrecorded.accepted⟩
        · exact .inl hsame
      all_goals exact absurd (hcall.symm.trans h) (by decide)
  | false =>
      obtain ⟨happlied, hfailed⟩ := migrate_run hplan hcall db
      refine ⟨?_, fun _ => happlied, fun _ => hfailed, fun _ hreturned second hsecond => ?_⟩
      · cases hreturned : (call.run plan db).2 with
        | true =>
            obtain ⟨newly, happlies⟩ := happlied hreturned
            exact .inr ⟨_, happlies.recorded, happlies.recorded.accepted⟩
        | false => exact .inl ⟨rfl, hfailed hreturned⟩
      · obtain ⟨newly, happlies⟩ := happlied hreturned
        obtain ⟨hagain, hunchanged⟩ := migrate_run hplan hsecond (call.run plan db).1
        cases hresult : (second.run plan (call.run plan db).1).2 with
        | true =>
            obtain ⟨later, hlater⟩ := hagain hresult
            exact happlies.again hlater
        | false => exact hunchanged hresult

end Runs

namespace LedgerSample

/-- SHA-256 of the statements of the samples. -/
scoped instance : Hashlib := .sha256

scoped instance : Crypto.Primitives := Crypto.samplePrimitives

scoped instance : PackagedSql where
  initialSchemaSql := "SELECT 1;"
  secureFormatV2ContractSql := "SELECT 1;"
  snapshotReorganizationLedgerV3Sql := "SELECT 1;"
  initialSchemaSql_ok := by decide
  secureFormatV2ContractSql_ok := by decide
  snapshotReorganizationLedgerV3Sql_ok := by decide

/-- A store without records. -/
scoped instance : RecordStore Unit where
  validateLegacyRows _ := .ok ()
  transformLegacy _ _ _ := .ok ()
  copyFormatTwo _ _ _ _ := .ok ()
  verifyFormatTwo _ := .ok ()
  rekey _ _ _ _ := .ok ()

/-- The two statements, of which one empties the ledger. -/
scoped instance : Engine (Secured Unit) where
  completeStatement text := text.toList.getLast? = some ';'
  jsonFunctions := true
  execute statement tables :=
    if statement = "DELETE FROM schema_migrations;" then
      some { tables with ledger := tables.ledger.map fun ledger => ⟨[], ledger.columns, ledger.declared, .nil⟩ }
    else some tables

/-- A database without tables. -/
def empty : Database (Secured Unit) where
  ledger := none
  userVersion := 0
  rest := ⟨none, ()⟩
  executed := []

/-- Nothing goes wrong on the first connection, and the second one is refused. -/
def world : Nat → Circumstances Failure
  | 0 => ⟨none, fun _ => none, false⟩
  | _ + 1 => ⟨some .operational, fun _ => none, false⟩

/-- Versions start at one. -/
theorem version_pos : 1 ≤ 1 := by decide

/-- The second version is behind the first one. -/
theorem secondVersion_pos : 1 ≤ 2 := by decide

/-- A migration with one statement. -/
def migration (version : Nat) (name sql : String) (hversion : 1 ≤ version)
    (hname : stripNonEmpty name = true) (hsql : stripNonEmpty sql = true) : Migration :=
  ⟨version, name, sql, false, hversion, hname, hsql⟩

/-- A plan whose second migration empties the ledger. -/
def emptying : Plan where
  migrations := [migration 1 "first" "SELECT 1;" version_pos (by decide) (by decide),
    migration 2 "second" "DELETE FROM schema_migrations;" secondVersion_pos (by decide) (by decide)]
  versions_ok := rfl
  names_ok := by
    show ["first", "second"].Nodup
    decide

/-- A plan that is not the packaged one. -/
def other : Plan where
  migrations := [migration 1 "first" "SELECT 1;" version_pos (by decide) (by decide)]
  versions_ok := rfl
  names_ok := by
    show ["first"].Nodup
    decide

/-- A key of zeros. -/
def zeros : KeyMaterial where
  rawKey := List.replicate Crypto.keyBytes 0
  keyId := "66687aadf862bd77"
  rawKey_ok := Crypto.length_zeros

/-- A migration. -/
def migrating : Call := .migrate world (fun _ => "now") false

/-- An activation, of which the second connection is refused. -/
def activating : Call := .activate world ⟨fun _ => false, "now", ⟨List.replicate 12 0, rfl⟩⟩ ⟨zeros, none⟩

end LedgerSample

open LedgerSample

/-- On an empty store a migration and a refused activation leave a prefix of the packaged plan. -/
theorem schema_ledger_packaged : LedgerAfter packagedPlan migrating
    (databaseAfter packagedPlan empty [activating])
    (databaseAfter packagedPlan empty ([activating] ++ [migrating])) := by
  refine schema_ledger packagedPlan ?_ empty [activating] migrating fun _ _ _ => ⟨rfl, ?_⟩
  · intro migration hmigration statement hstatement tables tables' hexecute
    have hselect : statement ≠ "DELETE FROM schema_migrations;" := by
      simp only [packagedPlan, List.mem_cons, List.not_mem_nil, or_false] at hmigration
      have hstatements : migration.statements (Secured Unit) = ["SELECT 1;"] := by
        rcases hmigration with rfl | rfl | rfl <;> decide
      rw [hstatements, List.mem_singleton] at hstatement
      rw [hstatement]
      decide
    have hsame : some tables = some tables' := (if_neg hselect).symm.trans hexecute
    obtain rfl := Option.some.inj hsame
    exact ⟨rfl, rfl⟩
  · exact fun _ hledger => nomatch hledger

/-- A plan may write into the ledger itself, and an activation records the packaged plan instead of another
one: then the ledger changes and is no prefix of the plan. -/
theorem ledger_departs_from_plan :
    (∃ (plan : Plan) (call : Call), call.isActivation = false ∧ (call.run plan empty).2 = true ∧
      ¬ ∃ n, Recorded plan n (call.run plan empty).1.toTables) ∧
    ∃ (plan : Plan) (call : Call), call.isActivation = true ∧ (call.run plan empty).1 ≠ empty ∧
      ¬ ∃ n, Recorded plan n (call.run plan empty).1.toTables := by
  constructor
  · refine ⟨emptying, migrating, rfl, by decide +kernel, ?_⟩
    rintro ⟨n, hrecorded⟩
    have hrows : (migrating.run emptying empty).1.toTables.rows.map LedgerRow.version = [2] := by
      decide +kernel
    have hversions := hrows.symm.trans (versions_of_standsFor hrecorded.rows)
    cases n with
    | zero => cases hversions
    | succ n =>
        have hfirst : (2 : Int) = 1 := (List.cons.inj hversions).1
        exact absurd hfirst (by decide)
  · have hnames : (activating.run other empty).1.toTables.rows.map LedgerRow.name =
        ["initial_schema"] := by
      decide +kernel
    refine ⟨other, activating, rfl, fun hsame => ?_, ?_⟩
    · rw [hsame] at hnames
      cases hnames
    · rintro ⟨n, hrecorded⟩
      obtain ⟨row, hrow, hname⟩ : ∃ row ∈ (activating.run other empty).1.toTables.rows,
          row.name = "initial_schema" :=
        List.mem_map.mp (hnames ▸ List.mem_cons_self)
      obtain ⟨migration, hmigration, hstands⟩ := exists_of_forall₂ hrecorded.rows.flip hrow
      have hfirst : migration.name = "first" := by
        obtain rfl := List.mem_singleton.mp (List.mem_of_mem_take hmigration)
        rfl
      rcases hstands.2.1 with hsame | ⟨-, halias⟩
      · rw [hname, hfirst] at hsame
        exact absurd hsame (by decide)
      · rw [hname] at halias
        exact absurd halias (by decide)

end Migrations

end AstrContinuum
