import AstrContinuum.Guarantees.EnvelopeCodec
import AstrContinuum.Settlement.Staging

/-!
# The codec of the repository

The repository hands its protected cells to `SecureCodec` of `storage/crypto.py`. This is one of the
codecs that the storage model admits, and it takes no record key of more than 4096 characters: a
candidate whose snapshot or capsules have longer ids is refused whatever they say.
-/

namespace AstrContinuum

open Checked

/-- `_canonical_model_json` of the two models that are protected. -/
class ModelJson where
  capsule : ContextCapsuleEnvelope → String
  auditOutcome : SnapshotAuditOutcome → String

section Limits

variable [Crypto.Primitives] [ModelJson]

/-- The envelope of a protected cell: of a text, a number, an object or an array. -/
def ProtectedCell.encrypt (codec : Crypto.SecureCodec) (nonce : Crypto.Nonce) (cell : ProtectedCell) :
    Except Crypto.CodecFailure String :=
  match cell.plaintext with
  | .text value => codec.encryptText nonce cell.table cell.column cell.recordKey value
  | .integer value =>
      codec.encryptNonNegativeInt nonce cell.table cell.column cell.recordKey value
  | .sessionKey key =>
      codec.encryptObjectJson nonce cell.table cell.column cell.recordKey key.canonicalJson
  | .capsule capsule =>
      codec.encryptObjectJson nonce cell.table cell.column cell.recordKey (ModelJson.capsule capsule)
  | .anchorIds anchorIds =>
      codec.encryptArrayJson nonce cell.table cell.column cell.recordKey
        (jsonArray (anchorIds.map jsonString))
  | .auditOutcome outcome =>
      codec.encryptObjectJson nonce cell.table cell.column cell.recordKey
        (ModelJson.auditOutcome outcome)
  | .metric tokenCount => do
      let plaintext ← Crypto.metricPlaintext tokenCount
      codec.encryptText nonce cell.table cell.column cell.recordKey plaintext

/-- What the codec of a repository takes. -/
abbrev repositoryCodec (codec : Crypto.SecureCodec) (nonce : Crypto.Nonce) : SecureCodec :=
  ⟨fun table column recordKey plaintext =>
    (ProtectedCell.encrypt codec nonce ⟨table, column, recordKey, plaintext⟩).isOk⟩

variable {codec : Crypto.SecureCodec} {nonce : Crypto.Nonce}

omit [Crypto.Primitives] [ModelJson] in
/-- The record key that is authenticated has a limit of its own. -/
theorem aad_recordKey {table column recordKey : String} {data : Crypto.Bytes}
    (h : Crypto.aad table column recordKey = .ok data) : recordKey.length ≤ 4096 := by
  obtain ⟨fields, hfields, -⟩ := bind_ok.mp h
  have hmem : recordKey ∈ Crypto.aadNamespace ++ [table, column, recordKey] := by simp
  obtain ⟨_, -, hfield⟩ := exists_result_of_mapM hfields hmem
  obtain ⟨_, hlimits, -⟩ := bind_ok.mp hfield
  exact (require_ok.mp hlimits).2

omit [ModelJson] in
/-- So has the record key under which a text is encrypted. -/
theorem encryptText_recordKey {table column recordKey plaintext envelope : String}
    (h : codec.encryptText nonce table column recordKey plaintext = .ok envelope) :
    recordKey.length ≤ 4096 := by
  obtain ⟨_, _, -, hdata, -⟩ := Crypto.encryptText_ok.mp h
  exact aad_recordKey hdata

omit [ModelJson] in
/-- And the record key under which an object is encrypted. -/
theorem encryptObjectJson_recordKey {table column recordKey json envelope : String}
    (h : codec.encryptObjectJson nonce table column recordKey json = .ok envelope) :
    recordKey.length ≤ 4096 := by
  obtain ⟨_, -, h⟩ := bind_ok.mp h
  obtain ⟨_, henvelope, -⟩ := bind_ok.mp h
  exact encryptText_recordKey henvelope

/-- A cell that is encrypted has a record key within the limit. -/
theorem ProtectedCell.encrypt_recordKey {cell : ProtectedCell} {envelope : String}
    (h : cell.encrypt codec nonce = .ok envelope) : cell.recordKey.length ≤ 4096 := by
  unfold ProtectedCell.encrypt at h
  cases hplaintext : cell.plaintext with
  | text value =>
      rw [hplaintext] at h
      exact encryptText_recordKey h
  | integer value =>
      rw [hplaintext] at h
      obtain ⟨_, -, h⟩ := bind_ok.mp h
      obtain ⟨_, -, h⟩ := bind_ok.mp h
      exact encryptText_recordKey h
  | sessionKey key =>
      rw [hplaintext] at h
      exact encryptObjectJson_recordKey h
  | capsule capsule =>
      rw [hplaintext] at h
      exact encryptObjectJson_recordKey h
  | anchorIds anchorIds =>
      rw [hplaintext] at h
      obtain ⟨_, -, h⟩ := bind_ok.mp h
      obtain ⟨_, henvelope, -⟩ := bind_ok.mp h
      exact encryptText_recordKey henvelope
  | auditOutcome outcome =>
      rw [hplaintext] at h
      exact encryptObjectJson_recordKey h
  | metric tokenCount =>
      rw [hplaintext] at h
      obtain ⟨_, -, h⟩ := bind_ok.mp h
      exact encryptText_recordKey h

/-- The codec of a repository takes no cell with a longer record key. -/
theorem repositoryCodec_fits {cell : ProtectedCell}
    (h : @ProtectedCell.fits (repositoryCodec codec nonce) cell = true) :
    cell.recordKey.length ≤ 4096 := by
  obtain ⟨_, henvelope⟩ := isOk_iff.mp h
  exact ProtectedCell.encrypt_recordKey henvelope

/-- So a snapshot with a longer id is refused. -/
theorem snapshotObstacle_long (db : Database) {snapshot : SnapshotEnvelope}
    (hlong : 4096 < snapshot.snapshotId.length) :
    @snapshotObstacle (repositoryCodec codec nonce) db snapshot = some .refusal := by
  unfold snapshotObstacle
  rw [if_neg]
  intro hfits
  have hlimit := repositoryCodec_fits (hfits _ List.mem_cons_self)
  exact absurd hlimit (not_le.mpr hlong)

/-- So is a capsule with a longer id, unless it is stored. -/
theorem capsuleObstacle_long [Hashlib] (db : Database) {membership : SnapshotCapsuleMembership}
    (hnew : db.capsuleRow membership.capsuleId = none)
    (hlong : 4096 < membership.capsule.capsuleId.length) :
    @capsuleObstacle _ (repositoryCodec codec nonce) db membership = some .refusal := by
  unfold capsuleObstacle
  rw [hnew]
  dsimp only
  rw [if_neg]
  intro hfits
  have hlimit := repositoryCodec_fits (hfits _ List.mem_cons_self)
  exact absurd hlimit (not_le.mpr hlong)

/-- And the count of an artifact with a longer record key is not taken. -/
theorem metricCell_long {key : MetricKey} {tokenCount : Nat}
    (hlong : 4096 < (metricCell key tokenCount).recordKey.length) :
    @ProtectedCell.fits (repositoryCodec codec nonce) (metricCell key tokenCount) = false := by
  rw [Bool.eq_false_iff]
  exact fun hfits => absurd (repositoryCodec_fits hfits) (not_le.mpr hlong)

end Limits

end AstrContinuum
