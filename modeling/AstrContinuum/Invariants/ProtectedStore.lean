import AstrContinuum.Invariants.ActivatedLedger
import AstrContinuum.Invariants.Contents
import AstrContinuum.Invariants.ReencryptedStore

/-!
# What an activation leaves in a store

`Protects` says that the cells of a store are encrypted under the one key that `storage_security` names, or not
at all where there is no such table, and what the store says. Every process of an activation keeps it, whether
it returns or raises, and each part below says what more it leaves when it returns.
-/

namespace AstrContinuum

namespace Records

open Checked Migrations Connections Crypto

section Protected

variable [Primitives]

/-- A row of `storage_security` that names the key of a material. -/
structure Names (material : KeyMaterial) (formatVersion : Int) (row : SecurityRow) : Prop where
  singletonId : row.singletonId = securitySingletonId
  formatVersion : row.formatVersion = formatVersion
  activeKeyId : row.activeKeyId = material.codec.keyId
  state : row.state = StorageMaintenanceState.needsScrub.value ∨
    row.state = StorageMaintenanceState.active.value
  verifier : Authentic material.codec row.keyVerifier

/-- What `storage_security` says of the encryption of a store, with keys of a ring. -/
inductive Secures (ring : List KeyMaterial) : Encryption → Option (List SecurityRow) → Prop
  | clear : Secures ring .none none
  | formatOne {material : KeyMaterial} {row : SecurityRow} :
      material ∈ ring → Names material legacyStorageFormatVersion row →
        Secures ring (.formatOne material.codec) (some [row])
  | formatTwo {material : KeyMaterial} {row : SecurityRow} :
      material ∈ ring → Names material storageFormatVersion row →
        Secures ring (.formatTwo material.codec) (some [row])

/-- A store with these contents, under the encryption that `storage_security` names. -/
def Protects (ring : List KeyMaterial) (contents : Contents) (db : Migrations.Database (Secured Store)) : Prop :=
  ∃ encryption, Secures ring encryption db.rest.security ∧ Reads encryption contents db.rest.records

/-- The keys of a ring are told apart by their ids. -/
def DistinctIds (ring : List KeyMaterial) : Prop :=
  ∀ first ∈ ring, ∀ second ∈ ring, first.codec.keyId = second.codec.keyId → first.rawKey = second.rawKey

omit [Primitives] in
/-- Materials with one key have one codec. -/
theorem codec_eq {first second : KeyMaterial} (h : first.rawKey = second.rawKey) : first.codec = second.codec := by
  cases first
  cases second
  dsimp only at h
  subst h
  rfl

variable {ring : List KeyMaterial} {contents : Contents} {db : Migrations.Database (Secured Store)}

/-- The one row of `storage_security`, where there is one. -/
theorem Protects.row (h : Protects ring contents db) {rows : List SecurityRow} (hrows : db.rest.security = some rows) :
    ∃ row material formatVersion, rows = [row] ∧ material ∈ ring ∧ Names material formatVersion row := by
  obtain ⟨encryption, hsecures, -⟩ := h
  rw [hrows] at hsecures
  cases hsecures with
  | formatOne hring hnames => exact ⟨_, _, _, rfl, hring, hnames⟩
  | formatTwo hring hnames => exact ⟨_, _, _, rfl, hring, hnames⟩

/-- Without `storage_security` the store is in clear text. -/
theorem Protects.clear (h : Protects ring contents db) (hrows : db.rest.security = none) :
    Reads .none contents db.rest.records := by
  obtain ⟨encryption, hsecures, hreads⟩ := h
  rw [hrows] at hsecures
  cases hsecures
  exact hreads

/-- In the first format the cells are encrypted under the key with the id that is named. -/
theorem Protects.formatOne (h : Protects ring contents db) (hring : DistinctIds ring) {material : KeyMaterial}
    (hmaterial : material ∈ ring) {row : SecurityRow} (hrow : db.rest.security = some [row])
    (hformat : row.formatVersion = legacyStorageFormatVersion) (hid : row.activeKeyId = material.codec.keyId) :
    Reads (.formatOne material.codec) contents db.rest.records := by
  obtain ⟨encryption, hsecures, hreads⟩ := h
  rw [hrow] at hsecures
  cases hsecures with
  | formatOne hmem hnames =>
      rw [codec_eq (hring _ hmaterial _ hmem (hid.symm.trans hnames.activeKeyId))]
      exact hreads
  | formatTwo hmem hnames => exact absurd (hformat.symm.trans hnames.formatVersion) (by decide)

/-- So they are in the second. -/
theorem Protects.formatTwo (h : Protects ring contents db) (hring : DistinctIds ring) {material : KeyMaterial}
    (hmaterial : material ∈ ring) {row : SecurityRow} (hrow : db.rest.security = some [row])
    (hformat : row.formatVersion = storageFormatVersion) (hid : row.activeKeyId = material.codec.keyId) :
    Reads (.formatTwo material.codec) contents db.rest.records := by
  obtain ⟨encryption, hsecures, hreads⟩ := h
  rw [hrow] at hsecures
  cases hsecures with
  | formatOne hmem hnames => exact absurd (hformat.symm.trans hnames.formatVersion) (by decide)
  | formatTwo hmem hnames =>
      rw [codec_eq (hring _ hmaterial _ hmem (hid.symm.trans hnames.activeKeyId))]
      exact hreads

/-! ## The transactions -/

variable {db' : Migrations.Database (Secured Store)} {settings : Settings}

/-- After the first encryption the store is protected by the active key. -/
theorem LegacyTransacted.protects {material : KeyMaterial} (hmaterial : material ∈ ring)
    (h : LegacyTransacted settings material.codec db db') (hreads : Reads .none contents db.rest.records) :
    Protects ring contents db' := by
  obtain ⟨verifier, hverifier, hdb'⟩ := h.frame
  refine ⟨.formatOne material.codec, ?_, h.records.reads hreads⟩
  rw [hdb']
  exact .formatOne hmaterial ⟨rfl, rfl, rfl, .inl rfl, hverifier⟩

/-- After the move to the second format it is protected by the target. -/
theorem FormatTwoTransacted.protects [Hashlib] [PackagedSql] {source target : KeyMaterial}
    (htarget : target ∈ ring) (h : FormatTwoTransacted settings source.codec target.codec db db')
    (hreads : Reads (.formatOne source.codec) contents db.rest.records) : Protects ring contents db' := by
  obtain ⟨verifier, createdAt, ledger, hverifier, -, -, hdb'⟩ := h.frame
  refine ⟨.formatTwo target.codec, ?_, h.records.reads hreads⟩
  rw [hdb']
  exact .formatTwo htarget ⟨rfl, rfl, rfl, .inl rfl, hverifier⟩

/-- After a change of keys it is protected by the active key. -/
theorem RekeyTransacted.protects {previous active : KeyMaterial} (hactive : active ∈ ring) {row : SecurityRow}
    (hrow : db.rest.security = some [row]) (hformat : row.formatVersion = storageFormatVersion)
    (h : RekeyTransacted previous.codec active.codec db db')
    (hreads : Reads (.formatTwo previous.codec) contents db.rest.records) : Protects ring contents db' := by
  obtain ⟨rows, rows', hrows, hdb', hrelated, changed, hchanged, hid, hkey, hstate, hverifier⟩ := h.frame
  obtain rfl := Option.some.inj (hrow.symm.trans hrows)
  obtain ⟨row', _, hone, hnil, rfl⟩ := List.forall₂_cons_left_iff.mp hrelated
  rw [List.forall₂_nil_left_iff.mp hnil] at hdb' hchanged
  obtain rfl := List.mem_singleton.mp hchanged
  refine ⟨.formatTwo active.codec, ?_, h.records.reads hreads⟩
  rw [hdb']
  refine .formatTwo hactive ⟨hid, ?_, hkey, .inl hstate, hverifier⟩
  rcases hone with rfl | ⟨-, -, hsame, -⟩
  · exact hformat
  · exact hsame.trans hformat

end Protected

end Records

end AstrContinuum
