import AstrContinuum.Algebra.Base64
import AstrContinuum.Control.Checked
import AstrContinuum.Domain.JsonText
import AstrContinuum.Storage.Schema

/-!
# The storage codec

Protected cells hold envelopes: the id of a key, a nonce and an authenticated ciphertext in base64url, with
colons between them. The table, the column and the record key of a cell are authenticated with it. The
cipher and the hash are parameters (`Primitives`); a text is a string of Unicode scalar values, and a JSON
string that is none is no envelope.
-/

namespace AstrContinuum

namespace Crypto

open Checked JsonText

/-- `bytes`. -/
abbrev Bytes := List UInt8

/-- `SecurityErrorCode`. -/
inductive SecurityErrorCode
  | storageKeyMissing
  | storageKeyInvalid
  | storageKeyFileUnsafe
  | storageLocalKeyCreateFailed
  | storageKeyMismatch
  | storagePreviousKeyRequired
  | storageEnvelopeInvalid
  | storageAuthenticationFailed
  | storageLegacyValidationFailed
  | storageMigrationFailed
  | storageRekeyFailed
  | storageScrubFailed
deriving DecidableEq

/-- What is raised: a `StorageSecurityError`, or another `ValueError`. -/
inductive CodecFailure
  | storageSecurityError (code : SecurityErrorCode)
  | valueError (message : String)
  | integerDigits
deriving DecidableEq

/-- `_invalid()`. -/
def invalid : CodecFailure := .storageSecurityError .storageEnvelopeInvalid

/-- `InvalidTag`, or that the arguments are refused. -/
inductive AeadFailure
  | invalidTag
  | refused

/-- `hashlib.sha256(value).hexdigest()`, and `AESGCM(key)` with its two operations on a nonce, a text and
the associated data. -/
class Primitives where
  sha256Hexdigest : Bytes → String
  encrypt (key nonce plaintext aad : Bytes) : Option Bytes
  decrypt (key nonce ciphertext aad : Bytes) : Except AeadFailure Bytes

/-- `KEY_BYTES`. -/
def keyBytes : Nat := 32

/-- `NONCE_BYTES`. -/
def nonceBytes : Nat := 12

/-- `TAG_BYTES`. -/
def tagBytes : Nat := 16

/-- `KEY_ID_HEX_CHARS`. -/
def keyIdHexChars : Nat := 16

/-- `ENVELOPE_PREFIX`. -/
def envelopePrefix : String := "acenc"

/-- `ENVELOPE_VERSION`. -/
def envelopeVersion : String := "v1"

/-- `ENCRYPTED_JSON_MARKER`. -/
def encryptedJsonMarker : String := "$astrcontinuum_encrypted"

/-- `_AAD_NAMESPACE`. -/
def aadNamespace : List String := ["astrcontinuum", "envelope-v1"]

/-- `text.encode("utf-8")`. -/
def utf8 (text : String) : Bytes :=
  text.toUTF8.data.toList

/-- `value.decode("utf-8")`. -/
def utf8Decode (value : Bytes) : Option String :=
  String.fromUTF8? ⟨value.toArray⟩

/-! ## Keys and base64url -/

/-- `_raw_key`. -/
def rawKey (value : Bytes) : Except CodecFailure Bytes := do
  require (value.length = keyBytes) (.storageSecurityError .storageKeyInvalid)
  pure value

/-- `_base64url_encode`. -/
def base64urlEncode (value : Bytes) : String :=
  String.ofList (Base64.encode value)

/-- `_base64url_decode`, of the characters of a text. -/
def base64urlDecode (value : List Char) : Except CodecFailure Bytes := do
  require (value ≠ [] ∧ '=' ∉ value ∧ ∀ c ∈ value, c ∈ Base64.alphabet) invalid
  let decoded ← orMissing (Base64.decode value) invalid
  require (Base64.encode decoded = value) invalid
  pure decoded

/-- `encode_key_text`. -/
def encodeKeyText (key : Bytes) : Except CodecFailure String := do
  let key ← rawKey key
  pure (base64urlEncode key)

/-- `parse_key_text`. -/
def parseKeyText (value : String) : Except CodecFailure Bytes := do
  require (value.length = 43 ∧ ∀ c ∈ value.toList, c ∈ Base64.alphabet)
    (.storageSecurityError .storageKeyInvalid)
  let decoded ← orMissing (Base64.decode value.toList) (.storageSecurityError .storageKeyInvalid)
  require (decoded.length = keyBytes) (.storageSecurityError .storageKeyInvalid)
  let text ← encodeKeyText decoded
  require (text = value) (.storageSecurityError .storageKeyInvalid)
  pure decoded

/-! ## Associated data -/

/-- `n.to_bytes(4, "big")` of a number below `2 ^ 32`. -/
def toBytesBig (n : Nat) : Bytes :=
  [UInt8.ofNat (n / 2 ^ 24), UInt8.ofNat (n / 2 ^ 16), UInt8.ofNat (n / 2 ^ 8), UInt8.ofNat n]

/-- `_aad_field`. -/
def aadField (value : String) : Except CodecFailure Bytes := do
  require (value ≠ "" ∧ value.length ≤ 4096) invalid
  let encoded := utf8 value
  require (encoded.length ≤ 65535) invalid
  pure (toBytesBig encoded.length ++ encoded)

/-- `_aad`. -/
def aad (table column recordKey : String) : Except CodecFailure Bytes := do
  let fields ← (aadNamespace ++ [table, column, recordKey]).mapM aadField
  pure fields.flatten

/-! ## Envelopes -/

/-- `_KEY_ID_RE.fullmatch`. -/
def isKeyId (keyId : String) : Prop :=
  keyId.length = keyIdHexChars ∧
    ∀ c ∈ keyId.toList, ('0' ≤ c ∧ c ≤ '9') ∨ ('a' ≤ c ∧ c ≤ 'f')

instance (keyId : String) : Decidable (isKeyId keyId) :=
  inferInstanceAs (Decidable (_ ∧ _))

/-- The parts of an envelope. -/
structure Envelope where
  keyId : String
  nonce : Bytes
  ciphertext : Bytes
  keyId_ok : isKeyId keyId
  nonce_ok : nonce.length = nonceBytes
  ciphertext_ok : tagBytes ≤ ciphertext.length

/-- The text of an envelope. -/
def envelopeText (keyId : String) (nonce ciphertext : Bytes) : String :=
  ":".intercalate
    [envelopePrefix, envelopeVersion, keyId, base64urlEncode nonce, base64urlEncode ciphertext]

/-- The text of an envelope with its parts. -/
def Envelope.text (envelope : Envelope) : String :=
  envelopeText envelope.keyId envelope.nonce envelope.ciphertext

/-- `decrypt_text` up to the key: the parts of an envelope. -/
def readEnvelope (envelope : String) : Except CodecFailure Envelope :=
  match (Utf8.chars envelope).splitOn ':' with
  | [leading, version, keyChars, nonceChars, ciphertextChars] => do
      let keyId := String.ofList keyChars
      require (leading = envelopePrefix.toList ∧ version = envelopeVersion.toList ∧ isKeyId keyId) invalid
      let nonce ← base64urlDecode nonceChars
      let ciphertext ← base64urlDecode ciphertextChars
      if h : isKeyId keyId ∧ nonce.length = nonceBytes ∧ tagBytes ≤ ciphertext.length then
        pure ⟨keyId, nonce, ciphertext, h.1, h.2.1, h.2.2⟩
      else .error invalid
  | _ => .error invalid

/-- `SecureCodec`: a key with the limits of what is encrypted and decrypted. -/
structure SecureCodec where
  key : Bytes
  maxPlaintextBytes : Nat
  maxEnvelopeChars : Nat
  key_ok : key.length = keyBytes
  envelopeChars_ok : 64 ≤ maxEnvelopeChars

/-- Twelve mebibytes hold an envelope. -/
theorem envelopeChars_ok : 64 ≤ 12 * 1024 * 1024 := by decide

/-- The bytes of a key of zeros. -/
theorem length_zeros : (List.replicate keyBytes (0 : UInt8)).length = keyBytes := List.length_replicate

/-- What `secrets.token_bytes(NONCE_BYTES)` returns. -/
structure Nonce where
  bytes : Bytes
  bytes_ok : bytes.length = nonceBytes

section Codec

variable [Primitives]

/-- `key_id_for`. -/
def keyIdFor (key : Bytes) : Except CodecFailure String := do
  let key ← rawKey key
  pure (sliceTo keyIdHexChars (Primitives.sha256Hexdigest key))

/-- `SecureCodec.key_id`. -/
def SecureCodec.keyId (codec : SecureCodec) : String :=
  sliceTo keyIdHexChars (Primitives.sha256Hexdigest codec.key)

/-- `SecureCodec.encrypt_text`, with the nonce that is drawn. -/
def SecureCodec.encryptText (codec : SecureCodec) (nonce : Nonce)
    (table column recordKey plaintext : String) : Except CodecFailure String := do
  let encoded := utf8 plaintext
  require (encoded.length ≤ codec.maxPlaintextBytes) invalid
  let associated ← orRaise (aad table column recordKey) invalid
  let ciphertext ← orMissing (Primitives.encrypt codec.key nonce.bytes encoded associated) invalid
  let envelope := envelopeText codec.keyId nonce.bytes ciphertext
  require ((Utf8.chars envelope).length ≤ codec.maxEnvelopeChars) invalid
  pure envelope

/-- What `decrypt_text` raises when the cipher fails. -/
def aeadError : AeadFailure → CodecFailure
  | .invalidTag => .storageSecurityError .storageAuthenticationFailed
  | .refused => invalid

/-- `SecureCodec.decrypt_text`. -/
def SecureCodec.decryptText (codec : SecureCodec) (table column recordKey envelope : String) :
    Except CodecFailure String := do
  require (envelope ≠ "" ∧ (Utf8.chars envelope).length ≤ codec.maxEnvelopeChars) invalid
  let parts ← readEnvelope envelope
  require (parts.keyId = codec.keyId) (.storageSecurityError .storageKeyMismatch)
  let associated ← orRaise (aad table column recordKey) invalid
  let plaintext ← (Primitives.decrypt codec.key parts.nonce parts.ciphertext associated).mapError
    aeadError
  require (plaintext.length ≤ codec.maxPlaintextBytes) invalid
  orMissing (utf8Decode plaintext) invalid

/-! ## Integers -/

/-- `str(value)`, which is refused for an integer with too many digits. -/
def integerText (value : Nat) : Except CodecFailure String := do
  require ((toString value).length ≤ maxStrDigits) .integerDigits
  pure (toString value)

/-- `SecureCodec.encrypt_non_negative_int`. -/
def SecureCodec.encryptNonNegativeInt (codec : SecureCodec) (nonce : Nonce)
    (table column recordKey : String) (value : Int) : Except CodecFailure String := do
  require (0 ≤ value) invalid
  let plaintext ← orRaise (integerText value.toNat) invalid
  codec.encryptText nonce table column recordKey plaintext

/-- `int(text)` of ASCII digits. -/
def integerOf (text : String) : Except CodecFailure Nat := do
  require (text.length ≤ maxStrDigits) .integerDigits
  pure (Nat.ofDigitChars 10 text.toList 0)

/-- `decrypt_non_negative_int` after its `decrypt_text`. -/
def readNonNegativeInt (plaintext : String) : Except CodecFailure Nat := do
  require (plaintext ≠ "" ∧ (∀ c ∈ plaintext.toList, c.isDigit = true) ∧
    ¬ (plaintext ≠ "0" ∧ plaintext.toList.head? = some '0')) invalid
  let value ← orRaise (integerOf plaintext) invalid
  let text ← integerText value
  require (text = plaintext) invalid
  pure value

/-- `SecureCodec.decrypt_non_negative_int`. -/
def SecureCodec.decryptNonNegativeInt (codec : SecureCodec)
    (table column recordKey envelope : String) : Except CodecFailure Nat := do
  let plaintext ← codec.decryptText table column recordKey envelope
  readNonNegativeInt plaintext

/-! ## JSON -/

/-- `_json_container` with `dict`. -/
def jsonObjectText (value : String) : Except CodecFailure Unit :=
  match loads value with
  | some (.object _) => .ok ()
  | _ => .error invalid

/-- `_json_container` with `list`. -/
def jsonArrayText (value : String) : Except CodecFailure Unit :=
  match loads value with
  | some (.array _) => .ok ()
  | _ => .error invalid

/-- `SecureCodec.encrypt_object_json`. -/
def SecureCodec.encryptObjectJson (codec : SecureCodec) (nonce : Nonce)
    (table column recordKey canonicalJson : String) : Except CodecFailure String := do
  jsonObjectText canonicalJson
  let envelope ← codec.encryptText nonce table column recordKey canonicalJson
  pure (compactObject [(encryptedJsonMarker, jsonString envelope)])

/-- The envelope of an object sentinel. Half of a surrogate pair stands in no envelope. -/
def sentinelObject (sentinelJson : String) : Except CodecFailure String :=
  match loads sentinelJson with
  | some (.object [(key, .text value)]) => do
      require (key = codePoints encryptedJsonMarker) invalid
      orMissing (textOf value) invalid
  | _ => .error invalid

/-- `SecureCodec.decrypt_object_json`. -/
def SecureCodec.decryptObjectJson (codec : SecureCodec)
    (table column recordKey sentinelJson : String) : Except CodecFailure String := do
  let envelope ← sentinelObject sentinelJson
  let plaintext ← codec.decryptText table column recordKey envelope
  jsonObjectText plaintext
  pure plaintext

/-- `SecureCodec.encrypt_array_json`. -/
def SecureCodec.encryptArrayJson (codec : SecureCodec) (nonce : Nonce)
    (table column recordKey canonicalJson : String) : Except CodecFailure String := do
  jsonArrayText canonicalJson
  let envelope ← codec.encryptText nonce table column recordKey canonicalJson
  pure (jsonArray [jsonString encryptedJsonMarker, jsonString envelope])

/-- The envelope of an array sentinel. -/
def sentinelArray (sentinelJson : String) : Except CodecFailure String :=
  match loads sentinelJson with
  | some (.array [.text marker, .text value]) => do
      require (marker = codePoints encryptedJsonMarker) invalid
      orMissing (textOf value) invalid
  | _ => .error invalid

/-- `SecureCodec.decrypt_array_json`. -/
def SecureCodec.decryptArrayJson (codec : SecureCodec)
    (table column recordKey sentinelJson : String) : Except CodecFailure String := do
  let envelope ← sentinelArray sentinelJson
  let plaintext ← codec.decryptText table column recordKey envelope
  jsonArrayText plaintext
  pure plaintext

end Codec

/-! ## Token metrics -/

/-- `ArtifactKind.value`. -/
def artifactKindValue : ArtifactKind → String
  | .event => "EVENT"
  | .capsule => "CAPSULE"
  | .snapshot => "SNAPSHOT"

/-- `_required_identifier`. -/
def requiredIdentifier (value fieldName : String) : Except CodecFailure String := do
  require (stripNonEmpty value = true) (.valueError (fieldName ++ " must be non-empty"))
  pure value

/-- The record key of a metric whose identifiers are valid. -/
def metricRecordKeyText (artifactKind : ArtifactKind) (artifactId tokenizerProfileId : String) : String :=
  jsonArray (["token-metric-v1", artifactKindValue artifactKind, artifactId,
    tokenizerProfileId].map jsonString)

/-- `_metric_record_key`. -/
def metricRecordKey (artifactKind : ArtifactKind) (artifactId tokenizerProfileId : String) :
    Except CodecFailure String := do
  let artifactId ← requiredIdentifier artifactId "artifact_id"
  let tokenizerProfileId ← requiredIdentifier tokenizerProfileId "tokenizer_profile_id"
  pure (metricRecordKeyText artifactKind artifactId tokenizerProfileId)

/-- The associated data of a metric. -/
def metricAad (artifactKind : ArtifactKind) (artifactId tokenizerProfileId : String) :
    Except CodecFailure Bytes := do
  let recordKey ← metricRecordKey artifactKind artifactId tokenizerProfileId
  aad "token_metrics" "metric_envelope" recordKey

/-- `_metric_plaintext`. -/
def metricPlaintext (tokenCount : Nat) : Except CodecFailure String := do
  let count ← integerText tokenCount
  pure (compactObject [("schema_version", "1"), ("token_count", count)])

/-- `_decode_metric_plaintext`. -/
def decodeMetricPlaintext (plaintext : String) : Except CodecFailure Nat :=
  match loads plaintext with
  | some (.object [(version, .int schemaVersion), (count, .int tokenCount)]) => do
      require (version = codePoints "schema_version" ∧ count = codePoints "token_count" ∧
        schemaVersion = 1 ∧ 0 ≤ tokenCount) invalid
      let text ← metricPlaintext tokenCount.toNat
      require (plaintext = text) invalid
      pure tokenCount.toNat
  | _ => .error invalid

/-! ## What is read is what is written -/

/-- Bytes are decoded as the text they encode. -/
theorem utf8Decode_iff {value : Bytes} {text : String} :
    utf8Decode value = some text ↔ utf8 text = value := by
  unfold utf8Decode utf8 String.fromUTF8?
  constructor
  · intro h
    split at h
    · obtain rfl := Option.some.inj h
      rfl
    · cases h
  · rintro rfl
    exact dif_pos text.isValidUTF8

/-- Encoded bytes are decoded, and nothing else is. -/
theorem base64urlDecode_iff {chars : List Char} {value : Bytes} :
    base64urlDecode chars = .ok value ↔ Base64.encode value = chars ∧ value ≠ [] := by
  constructor
  · intro h
    obtain ⟨_, hchars, h⟩ := bind_ok.mp h
    obtain ⟨decoded, -, h⟩ := bind_ok.mp h
    obtain ⟨_, htext, h⟩ := bind_ok.mp h
    obtain rfl := pure_ok.mp h
    obtain rfl := require_ok.mp htext
    refine ⟨rfl, ?_⟩
    rintro rfl
    exact (require_ok.mp hchars).1 rfl
  · rintro ⟨rfl, hvalue⟩
    have hne : Base64.encode value ≠ [] := fun hempty =>
      hvalue (Base64.encode_injective (hempty.trans rfl))
    -- the equals sign is not in the alphabet
    have hequals : '=' ∉ Base64.encode value := fun hmem =>
      absurd (Base64.mem_alphabet_of_mem_encode hmem) (by decide)
    rw [base64urlDecode, require_bind_pos ⟨hne, hequals, fun _ => Base64.mem_alphabet_of_mem_encode⟩,
      Base64.decode_encode]
    exact require_bind_pos rfl

/-- The text of a key is its bytes, of which there are as many as a key has. -/
theorem encodeKeyText_ok {key : Bytes} {text : String} :
    encodeKeyText key = .ok text ↔ key.length = keyBytes ∧ base64urlEncode key = text := by
  simp only [encodeKeyText, rawKey, bind_ok, require_ok, pure_ok]
  constructor
  · rintro ⟨_, ⟨_, hlength, rfl⟩, rfl⟩
    exact ⟨hlength, rfl⟩
  · rintro ⟨hlength, rfl⟩
    exact ⟨key, ⟨(), hlength, rfl⟩, rfl⟩

/-- The text of a key is parsed as this key, and nothing else is. -/
theorem parseKeyText_iff {text : String} {key : Bytes} :
    parseKeyText text = .ok key ↔ encodeKeyText key = .ok text := by
  constructor
  · intro h
    obtain ⟨_, -, h⟩ := bind_ok.mp h
    obtain ⟨decoded, -, h⟩ := bind_ok.mp h
    obtain ⟨_, -, h⟩ := bind_ok.mp h
    obtain ⟨encoded, hencoded, h⟩ := bind_ok.mp h
    obtain ⟨_, htext, h⟩ := bind_ok.mp h
    obtain rfl := pure_ok.mp h
    obtain rfl := require_ok.mp htext
    exact hencoded
  · intro h
    obtain ⟨hlength, rfl⟩ := encodeKeyText_ok.mp h
    have hchars : (base64urlEncode key).length = 43 ∧
        ∀ c ∈ (base64urlEncode key).toList, c ∈ Base64.alphabet := by
      rw [← String.length_toList, base64urlEncode, String.toList_ofList, Base64.length_encode,
        hlength]
      exact ⟨rfl, fun c hc => Base64.mem_alphabet_of_mem_encode hc⟩
    have hdecode : Base64.decode (base64urlEncode key).toList = some key := by
      rw [base64urlEncode, String.toList_ofList, Base64.decode_encode]
    rw [parseKeyText, require_bind_pos hchars, hdecode]
    show (require (key.length = keyBytes) _ >>= fun _ => _) = _
    rw [require_bind_pos hlength, h]
    exact require_bind_pos rfl

/-! ## Associated data is read back -/

/-- A field is its length and its bytes. -/
theorem aadField_ok {value : String} {field : Bytes} (h : aadField value = .ok field) :
    field = toBytesBig (utf8 value).length ++ utf8 value ∧ (utf8 value).length ≤ 65535 := by
  obtain ⟨_, -, h⟩ := bind_ok.mp h
  obtain ⟨_, hlength, h⟩ := bind_ok.mp h
  exact ⟨(pure_ok.mp h).symm, require_ok.mp hlength⟩

/-- Four bytes hold a length. -/
theorem toBytesBig_injective {n m : Nat} (hn : n ≤ 65535) (hm : m ≤ 65535)
    (h : toBytesBig n = toBytesBig m) : n = m := by
  have htail := (List.cons.inj (List.cons.inj h).2).2
  have hhigh := congrArg UInt8.toNat (List.cons.inj htail).1
  have hlow := congrArg UInt8.toNat (List.cons.inj (List.cons.inj htail).2).1
  simp only [UInt8.toNat_ofNat'] at hhigh hlow
  omega

/-- Bytes are those of one text. -/
theorem utf8_injective : Function.Injective utf8 := fun _ _ h =>
  Option.some.inj ((utf8Decode_iff.mpr h).symm.trans (utf8Decode_iff.mpr rfl))

/-- A field is read up to its end, whatever follows. -/
theorem aadField_append_inj {value value' : String} {field field' rest rest' : Bytes}
    (h : aadField value = .ok field) (h' : aadField value' = .ok field')
    (heq : field ++ rest = field' ++ rest') : value = value' ∧ rest = rest' := by
  obtain ⟨rfl, hbound⟩ := aadField_ok h
  obtain ⟨rfl, hbound'⟩ := aadField_ok h'
  rw [List.append_assoc, List.append_assoc] at heq
  obtain ⟨hlength, heq⟩ := List.append_inj heq rfl
  have hsame := toBytesBig_injective hbound hbound' hlength
  obtain ⟨hbytes, hrest⟩ := List.append_inj heq hsame
  exact ⟨utf8_injective hbytes, hrest⟩

/-- As many fields are told apart by their bytes. -/
theorem fields_injective {values values' : List String} {fields fields' : List Bytes}
    (h : values.mapM aadField = .ok fields) (h' : values'.mapM aadField = .ok fields')
    (hlength : values.length = values'.length) (heq : fields.flatten = fields'.flatten) :
    values = values' := by
  have hfields := mapM_ok.mp h
  have hfields' := mapM_ok.mp h'
  clear h h'
  induction hfields generalizing values' fields' with
  | nil => exact (List.length_eq_zero_iff.mp hlength.symm).symm
  | cons hhead htail ih =>
      cases hfields' with
      | nil => cases hlength
      | cons hhead' htail' =>
          rw [List.flatten_cons, List.flatten_cons] at heq
          obtain ⟨rfl, hrest⟩ := aadField_append_inj hhead hhead' heq
          rw [ih (Nat.succ.inj hlength) hrest htail']

/-- The associated data determine the table, the column and the record key. -/
theorem aad_injective {table column recordKey table' column' recordKey' : String} {data : Bytes}
    (h : aad table column recordKey = .ok data) (h' : aad table' column' recordKey' = .ok data) :
    table = table' ∧ column = column' ∧ recordKey = recordKey' := by
  obtain ⟨fields, hfields, h⟩ := bind_ok.mp h
  obtain ⟨fields', hfields', h'⟩ := bind_ok.mp h'
  have heq := (pure_ok.mp h).trans (pure_ok.mp h').symm
  have hvalues := List.append_cancel_left (fields_injective hfields hfields' rfl heq)
  simp only [List.cons.injEq, and_true] at hvalues
  exact hvalues

/-- The record key of a metric is that of its identity. -/
theorem metricRecordKey_injective {kind kind' : ArtifactKind}
    {artifactId profileId artifactId' profileId' recordKey : String}
    (h : metricRecordKey kind artifactId profileId = .ok recordKey)
    (h' : metricRecordKey kind' artifactId' profileId' = .ok recordKey) :
    kind = kind' ∧ artifactId = artifactId' ∧ profileId = profileId' := by
  simp only [metricRecordKey, requiredIdentifier, bind_ok, require_ok, pure_ok] at h h'
  obtain ⟨_, ⟨_, -, rfl⟩, _, ⟨_, -, rfl⟩, rfl⟩ := h
  obtain ⟨_, ⟨_, -, rfl⟩, _, ⟨_, -, rfl⟩, htext⟩ := h'
  have hlists := congrArg (fun text => text.toList ++ []) htext
  unfold metricRecordKeyText at hlists
  have hvalues := strings_delimited hlists
  simp only [List.cons.injEq, and_true, true_and] at hvalues
  obtain ⟨hkind, hartifact, hprofile⟩ := hvalues
  refine ⟨?_, hartifact.symm, hprofile.symm⟩
  revert hkind
  cases kind <;> cases kind' <;> decide

/-- The associated data of a metric determine its identity. -/
theorem metricAad_injective {kind kind' : ArtifactKind}
    {artifactId profileId artifactId' profileId' : String} {data : Bytes}
    (h : metricAad kind artifactId profileId = .ok data)
    (h' : metricAad kind' artifactId' profileId' = .ok data) :
    kind = kind' ∧ artifactId = artifactId' ∧ profileId = profileId' := by
  obtain ⟨recordKey, hkey, h⟩ := bind_ok.mp h
  obtain ⟨recordKey', hkey', h'⟩ := bind_ok.mp h'
  obtain ⟨-, -, rfl⟩ := aad_injective h h'
  exact metricRecordKey_injective hkey hkey'

/-! ## Envelopes are read back -/

/-- The parts of the text of an envelope. -/
theorem splitOn_envelopeText {keyId : String} (hkey : isKeyId keyId) (nonce ciphertext : Bytes) :
    (envelopeText keyId nonce ciphertext).toList.splitOn ':' =
      [envelopePrefix.toList, envelopeVersion.toList, keyId.toList, Base64.encode nonce,
        Base64.encode ciphertext] := by
  have hencoded (value : Bytes) : ':' ∉ (base64urlEncode value).toList := by
    intro h
    rw [base64urlEncode, String.toList_ofList] at h
    exact absurd (Base64.mem_alphabet_of_mem_encode h) (by decide)
  have hid : ':' ∉ keyId.toList := by
    intro h
    rcases hkey.2 _ h with hdigit | hdigit
    · exact absurd hdigit (by decide)
    · exact absurd hdigit (by decide)
  rw [envelopeText, String.toList_intercalate, show ":".toList = [':'] by decide,
    List.splitOn_intercalate]
  · simp only [List.map_cons, List.map_nil, base64urlEncode, String.toList_ofList]
  · simp only [List.map_cons, List.map_nil, List.forall_mem_cons]
    exact ⟨by decide, by decide, hid, hencoded nonce, hencoded ciphertext, fun _ h => nomatch h⟩
  · exact List.cons_ne_nil _ _

/-- The text of an envelope is read as its parts, and nothing else is. -/
theorem readEnvelope_iff {text : String} {envelope : Envelope} :
    readEnvelope text = .ok envelope ↔ envelope.text = text := by
  constructor
  · intro h
    unfold readEnvelope at h
    rw [Utf8.chars_eq] at h
    split at h
    · rename_i leading version keyChars nonceChars ciphertextChars hsplit
      obtain ⟨_, hhead, h⟩ := bind_ok.mp h
      obtain ⟨hleading, hversion, -⟩ := require_ok.mp hhead
      obtain ⟨nonce, hnonce, h⟩ := bind_ok.mp h
      obtain ⟨ciphertext, hciphertext, h⟩ := bind_ok.mp h
      split at h
      · obtain rfl := pure_ok.mp h
        have htext : text.toList = [':'].intercalate (text.toList.splitOn ':') :=
          (List.intercalate_splitOn ':').symm
        have hparts : text.toList.splitOn ':' =
            [envelopePrefix, envelopeVersion, String.ofList keyChars, base64urlEncode nonce,
              base64urlEncode ciphertext].map String.toList := by
          simp only [List.map_cons, List.map_nil, base64urlEncode, String.toList_ofList]
          rw [hsplit, hleading, hversion, ← (base64urlDecode_iff.mp hnonce).1,
            ← (base64urlDecode_iff.mp hciphertext).1]
        refine String.toList_injective ?_
        rw [htext, hparts]
        exact String.toList_intercalate
      · cases h
    · cases h
  · rintro rfl
    have hnonce : base64urlDecode (Base64.encode envelope.nonce) = .ok envelope.nonce := by
      refine base64urlDecode_iff.mpr ⟨rfl, fun hempty => ?_⟩
      exact absurd (hempty ▸ envelope.nonce_ok) (by decide)
    have hciphertext : base64urlDecode (Base64.encode envelope.ciphertext) =
        .ok envelope.ciphertext := by
      refine base64urlDecode_iff.mpr ⟨rfl, fun hempty => ?_⟩
      exact absurd (hempty ▸ envelope.ciphertext_ok) (by decide)
    unfold readEnvelope
    rw [Utf8.chars_eq, Envelope.text, splitOn_envelopeText envelope.keyId_ok]
    simp only [String.ofList_toList]
    rw [require_bind_pos ⟨trivial, trivial, envelope.keyId_ok⟩, hnonce]
    show (base64urlDecode (Base64.encode envelope.ciphertext) >>= fun _ => _) = _
    rw [hciphertext]
    exact dif_pos ⟨envelope.keyId_ok, envelope.nonce_ok, envelope.ciphertext_ok⟩

/-! ## Integers and metrics are read back -/

/-- The text of an integer. -/
theorem integerText_ok {value : Nat} {text : String} :
    integerText value = .ok text ↔ (toString value).length ≤ maxStrDigits ∧ toString value = text := by
  simp only [integerText, bind_ok, require_ok, pure_ok]
  exact ⟨fun h => h.choose_spec, fun h => ⟨(), h⟩⟩

/-- The canonical decimals are read, and nothing else is. -/
theorem readNonNegativeInt_iff {text : String} {value : Nat} :
    readNonNegativeInt text = .ok value ↔ toString value = text ∧ text.length ≤ maxStrDigits := by
  constructor
  · intro h
    obtain ⟨_, -, h⟩ := bind_ok.mp h
    obtain ⟨number, -, h⟩ := bind_ok.mp h
    obtain ⟨written, hwritten, h⟩ := bind_ok.mp h
    obtain ⟨_, htext, h⟩ := bind_ok.mp h
    obtain rfl := pure_ok.mp h
    obtain rfl := require_ok.mp htext
    obtain ⟨hlength, rfl⟩ := integerText_ok.mp hwritten
    exact ⟨rfl, hlength⟩
  · rintro ⟨rfl, hlength⟩
    have htext : (toString value).toList = Nat.toDigits 10 value := Nat.toList_repr
    have hdecimal : toString value ≠ "" ∧ (∀ c ∈ (toString value).toList, c.isDigit = true) ∧
        ¬ (toString value ≠ "0" ∧ (toString value).toList.head? = some '0') := by
      rw [htext]
      refine ⟨fun hempty => ?_, fun c hc => Nat.isDigit_of_mem_toDigits (by decide) (by decide) hc, ?_⟩
      · rw [hempty] at htext
        exact Nat.toDigits_ne_nil htext.symm
      · rintro ⟨hne, hzero⟩
        rcases Nat.eq_zero_or_pos value with rfl | hpos
        · exact hne rfl
        · exact toDigits_head hpos hzero
    have hvalue : integerOf (toString value) = .ok value := by
      rw [integerOf, require_bind_pos hlength, htext, Nat.ofDigitChars_ten_toDigits]
      rfl
    rw [readNonNegativeInt, require_bind_pos hdecimal, hvalue]
    show (integerText value >>= fun _ => _) = _
    rw [integerText_ok.mpr ⟨hlength, rfl⟩]
    exact require_bind_pos rfl

/-- The text of a count, and its members. -/
theorem metricPlaintext_ok {tokenCount : Nat} {text : String} :
    metricPlaintext tokenCount = .ok text ↔ (toString tokenCount).length ≤ maxStrDigits ∧
      compactObject [("schema_version", "1"), ("token_count", toString tokenCount)] = text := by
  simp only [metricPlaintext, bind_ok, integerText_ok, pure_ok]
  constructor
  · rintro ⟨_, ⟨hlength, rfl⟩, rfl⟩
    exact ⟨hlength, rfl⟩
  · rintro ⟨hlength, rfl⟩
    exact ⟨_, ⟨hlength, rfl⟩, rfl⟩

/-- The text of a count is decoded as this count, and nothing else is. -/
theorem decodeMetricPlaintext_iff {text : String} {tokenCount : Nat} :
    decodeMetricPlaintext text = .ok tokenCount ↔ metricPlaintext tokenCount = .ok text := by
  constructor
  · intro h
    unfold decodeMetricPlaintext at h
    split at h
    · obtain ⟨_, -, h⟩ := bind_ok.mp h
      obtain ⟨written, hwritten, h⟩ := bind_ok.mp h
      obtain ⟨_, htext, h⟩ := bind_ok.mp h
      obtain rfl := pure_ok.mp h
      obtain rfl := require_ok.mp htext
      exact hwritten
    · cases h
  · intro h
    have hcount := h
    obtain ⟨hlength, rfl⟩ := metricPlaintext_ok.mp h
    have hscans : Scans
        (compactObject [("schema_version", "1"), ("token_count", toString tokenCount)]).toList
        (.object [(codePoints "schema_version", .int 1),
          (codePoints "token_count", .int tokenCount)]) := by
      have hversion : Scans "1".toList (.int 1) := scans_nat (n := 1) (by decide)
      have hkeys : ["schema_version", "token_count"].Nodup := by decide
      exact scans_object (.cons ⟨rfl, hversion⟩ (.cons ⟨rfl, scans_nat hlength⟩ .nil))
        (List.cons_ne_nil _ _) hkeys
    unfold decodeMetricPlaintext
    rw [hscans.loads]
    dsimp only
    rw [require_bind_pos ⟨rfl, rfl, rfl, Int.natCast_nonneg tokenCount⟩]
    exact bind_ok.mpr ⟨_, hcount, bind_ok.mpr ⟨(), require_ok.mpr rfl, rfl⟩⟩

/-- The envelope that was written into an object sentinel. -/
theorem sentinelObject_written (envelope : String) :
    sentinelObject (compactObject [(encryptedJsonMarker, jsonString envelope)]) = .ok envelope := by
  have hscans := scans_object (.cons ⟨rfl, scans_string envelope⟩ .nil :
    List.Forall₂ ScansMember [(encryptedJsonMarker, jsonString envelope)]
      [(codePoints encryptedJsonMarker, .text (codePoints envelope))])
    (List.cons_ne_nil _ _) (List.nodup_singleton _)
  unfold sentinelObject
  rw [hscans.loads]
  dsimp only
  rw [require_bind_pos rfl, textOf_codePoints]
  rfl

/-- The envelope that was written into an array sentinel. -/
theorem sentinelArray_written (envelope : String) :
    sentinelArray (jsonArray [jsonString encryptedJsonMarker, jsonString envelope]) =
      .ok envelope := by
  have hscans := scans_array (.cons (scans_string encryptedJsonMarker)
    (.cons (scans_string envelope) .nil)) (List.cons_ne_nil _ _)
  unfold sentinelArray
  rw [hscans.loads]
  dsimp only
  rw [require_bind_pos rfl, textOf_codePoints]
  rfl

end Crypto

end AstrContinuum
