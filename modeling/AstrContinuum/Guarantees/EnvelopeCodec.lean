import AstrContinuum.Storage.Crypto

/-!
# Envelopes cannot be respelled or moved

With a cipher that decrypts exactly what was encrypted under the same nonce and associated data
(`IdealAead`), `decrypt_text` accepts exactly the envelopes that `encrypt_text` can write for the same table,
column and record key, and the codecs above it return what was encrypted. What is accepted has one spelling:
an envelope, a count, the text of a key and the plaintext of a metric are read exactly where they are what
is written, and the associated data determine what they are made of.
-/

namespace AstrContinuum

namespace Crypto

open Checked JsonText

section Codec

variable [Primitives]

/-- An ideal cipher: a ciphertext is decrypted exactly to what was encrypted into it under the same nonce
and associated data, and it is longer by its tag. -/
structure IdealAead : Prop where
  decrypt_iff : ∀ {key nonce plaintext ciphertext data : Bytes},
    Primitives.decrypt key nonce ciphertext data = .ok plaintext ↔
      Primitives.encrypt key nonce plaintext data = some ciphertext
  tag : ∀ {key nonce plaintext ciphertext data : Bytes},
    Primitives.encrypt key nonce plaintext data = some ciphertext →
      ciphertext.length = plaintext.length + tagBytes

/-- A digest is 64 lowercase hexadecimal digits. -/
def HexKeyDigests : Prop :=
  ∀ value, (Primitives.sha256Hexdigest value).length = 64 ∧
    ∀ c ∈ (Primitives.sha256Hexdigest value).toList, ('0' ≤ c ∧ c ≤ '9') ∨ ('a' ≤ c ∧ c ≤ 'f')

variable {codec : SecureCodec} {table column recordKey : String}

omit [Primitives] in
/-- An envelope is not empty. -/
theorem envelopeText_ne_empty (keyId : String) (nonce ciphertext : Bytes) :
    envelopeText keyId nonce ciphertext ≠ "" := by
  intro h
  have hlists := congrArg String.toList h
  rw [envelopeText, String.intercalate_cons_cons, String.toList_append, String.toList_append] at hlists
  exact List.cons_ne_nil _ _ (List.append_eq_nil_iff.mp (List.append_eq_nil_iff.mp hlists).1).1

/-- The id of a key has the form that is asked for. -/
theorem keyId_ok (hdigests : HexKeyDigests) (codec : SecureCodec) : isKeyId codec.keyId := by
  obtain ⟨hlength, hchars⟩ := hdigests codec.key
  unfold SecureCodec.keyId sliceTo
  refine ⟨?_, fun c hc => ?_⟩
  · rw [String.length_ofList, List.length_take, String.length_toList, hlength]
    rfl
  · rw [String.toList_ofList] at hc
    exact hchars c (List.mem_of_mem_take hc)

/-- What `encrypt_text` returns. -/
theorem encryptText_ok {nonce : Nonce} {plaintext envelope : String} :
    codec.encryptText nonce table column recordKey plaintext = .ok envelope ↔
      ∃ data ciphertext, (utf8 plaintext).length ≤ codec.maxPlaintextBytes ∧
        aad table column recordKey = .ok data ∧
        Primitives.encrypt codec.key nonce.bytes (utf8 plaintext) data = some ciphertext ∧
        envelopeText codec.keyId nonce.bytes ciphertext = envelope ∧
        envelope.length ≤ codec.maxEnvelopeChars := by
  simp only [SecureCodec.encryptText, bind_ok, require_ok, orRaise_ok, orMissing_ok, pure_ok,
    Utf8.chars_eq, String.length_toList]
  constructor
  · rintro ⟨_, hlength, data, hdata, ciphertext, hencrypt, _, hchars, rfl⟩
    exact ⟨data, ciphertext, hlength, hdata, hencrypt, rfl, hchars⟩
  · rintro ⟨data, ciphertext, hlength, hdata, hencrypt, rfl, hchars⟩
    exact ⟨(), hlength, data, hdata, ciphertext, hencrypt, (), hchars, rfl⟩

/-- What `decrypt_text` returns. -/
theorem decryptText_ok {plaintext envelope : String} :
    codec.decryptText table column recordKey envelope = .ok plaintext ↔
      ∃ (parts : Envelope) (data : Bytes), parts.text = envelope ∧
        envelope.length ≤ codec.maxEnvelopeChars ∧ parts.keyId = codec.keyId ∧
        aad table column recordKey = .ok data ∧
        Primitives.decrypt codec.key parts.nonce parts.ciphertext data = .ok (utf8 plaintext) ∧
        (utf8 plaintext).length ≤ codec.maxPlaintextBytes := by
  simp only [SecureCodec.decryptText, bind_ok, require_ok, orRaise_ok, orMissing_ok, mapError_ok,
    readEnvelope_iff, utf8Decode_iff, Utf8.chars_eq, String.length_toList]
  constructor
  · rintro ⟨_, ⟨-, hchars⟩, parts, htext, _, hkey, data, hdata, _, hdecrypt, _, hlength, rfl⟩
    exact ⟨parts, data, htext, hchars, hkey, hdata, hdecrypt, hlength⟩
  · rintro ⟨parts, data, rfl, hchars, hkey, hdata, hdecrypt, hlength⟩
    exact ⟨(), ⟨envelopeText_ne_empty _ _ _, hchars⟩, parts, rfl, (), hkey, data, hdata, _, hdecrypt, (),
      hlength, rfl⟩

/-- `decrypt_text` accepts exactly what `encrypt_text` writes with some nonce. -/
theorem decryptText_iff (hideal : IdealAead) (hdigests : HexKeyDigests) {plaintext envelope : String} :
    codec.decryptText table column recordKey envelope = .ok plaintext ↔
      ∃ nonce, codec.encryptText nonce table column recordKey plaintext = .ok envelope := by
  simp only [decryptText_ok, encryptText_ok]
  constructor
  · rintro ⟨parts, data, rfl, hchars, hkey, hdata, hdecrypt, hlength⟩
    refine ⟨⟨parts.nonce, parts.nonce_ok⟩, data, parts.ciphertext, hlength, hdata,
      hideal.decrypt_iff.mp hdecrypt, ?_, hchars⟩
    rw [← hkey]
    rfl
  · rintro ⟨nonce, data, ciphertext, hlength, hdata, hencrypt, rfl, hchars⟩
    have htag : tagBytes ≤ ciphertext.length := by
      rw [hideal.tag hencrypt]
      exact Nat.le_add_left _ _
    exact ⟨⟨codec.keyId, nonce.bytes, ciphertext, keyId_ok hdigests codec, nonce.bytes_ok, htag⟩, data,
      rfl, hchars, rfl, hdata, hideal.decrypt_iff.mpr hencrypt, hlength⟩

/-- The counts that are decrypted are those whose decimals were encrypted. -/
theorem decryptNonNegativeInt_ok {envelope : String} {value : Nat} :
    codec.decryptNonNegativeInt table column recordKey envelope = .ok value ↔
      codec.decryptText table column recordKey envelope = .ok (toString value) ∧
        (toString value).length ≤ maxStrDigits := by
  simp only [SecureCodec.decryptNonNegativeInt, bind_ok, readNonNegativeInt_iff]
  constructor
  · rintro ⟨_, hdecrypt, rfl, hlength⟩
    exact ⟨hdecrypt, hlength⟩
  · rintro ⟨hdecrypt, hlength⟩
    exact ⟨_, hdecrypt, rfl, hlength⟩

/-- What the codec guarantees. -/
structure CodecGuarantees (codec : SecureCodec) : Prop where
  /-- A text is decrypted exactly where it can have been encrypted. -/
  text : ∀ {table column recordKey plaintext envelope : String},
    codec.decryptText table column recordKey envelope = .ok plaintext ↔
      ∃ nonce, codec.encryptText nonce table column recordKey plaintext = .ok envelope
  /-- An encrypted integer is decrypted. -/
  integer : ∀ {nonce : Nonce} {table column recordKey envelope : String} {value : Int},
    codec.encryptNonNegativeInt nonce table column recordKey value = .ok envelope →
      ∃ count : Nat, value = count ∧
        codec.decryptNonNegativeInt table column recordKey envelope = .ok count
  /-- An encrypted object is decrypted. -/
  objectJson : ∀ {nonce : Nonce} {table column recordKey canonicalJson sentinelJson : String},
    codec.encryptObjectJson nonce table column recordKey canonicalJson = .ok sentinelJson →
      codec.decryptObjectJson table column recordKey sentinelJson = .ok canonicalJson
  /-- An encrypted array is decrypted. -/
  arrayJson : ∀ {nonce : Nonce} {table column recordKey canonicalJson sentinelJson : String},
    codec.encryptArrayJson nonce table column recordKey canonicalJson = .ok sentinelJson →
      codec.decryptArrayJson table column recordKey sentinelJson = .ok canonicalJson
  /-- What is decrypted is the one text with its key id, nonce and ciphertext. -/
  canonical : ∀ {table column recordKey plaintext envelope : String},
    codec.decryptText table column recordKey envelope = .ok plaintext →
      ∃ parts, readEnvelope envelope = .ok parts ∧
        envelope = envelopeText parts.keyId parts.nonce parts.ciphertext ∧
        ∀ other, readEnvelope other = .ok parts → other = envelope
  /-- The associated data determine the table, the column and the record key. -/
  cell : ∀ {table column recordKey table' column' recordKey' : String} {data : Bytes},
    aad table column recordKey = .ok data → aad table' column' recordKey' = .ok data →
      table = table' ∧ column = column' ∧ recordKey = recordKey'
  /-- The associated data of a metric determine its identity. -/
  metric : ∀ {kind kind' : ArtifactKind} {artifactId profileId artifactId' profileId' : String}
      {data : Bytes},
    metricAad kind artifactId profileId = .ok data → metricAad kind' artifactId' profileId' = .ok data →
      kind = kind' ∧ artifactId = artifactId' ∧ profileId = profileId'
  /-- The counts that are decrypted are those whose canonical decimals were encrypted. -/
  decimals : ∀ {table column recordKey envelope : String} {value : Nat},
    codec.decryptNonNegativeInt table column recordKey envelope = .ok value ↔
      codec.decryptText table column recordKey envelope = .ok (toString value) ∧
        (toString value).length ≤ maxStrDigits
  /-- Every key of the right length has a text. -/
  keyTexts : ∀ {key : Bytes}, (∃ text, encodeKeyText key = .ok text) ↔ key.length = keyBytes
  /-- The text of a key is parsed as this key, and nothing else is. -/
  keys : ∀ {text : String} {key : Bytes}, parseKeyText text = .ok key ↔ encodeKeyText key = .ok text
  /-- The plaintexts of metrics are decoded, and nothing else is. -/
  metricPlaintexts : ∀ {text : String} {tokenCount : Nat},
    decodeMetricPlaintext text = .ok tokenCount ↔ metricPlaintext tokenCount = .ok text

/-- Under an ideal cipher the codec keeps its guarantees. -/
theorem envelope_codec (hideal : IdealAead) (hdigests : HexKeyDigests) (codec : SecureCodec) :
    CodecGuarantees codec where
  text := decryptText_iff hideal hdigests
  integer := by
    intro nonce table column recordKey envelope value h
    simp only [SecureCodec.encryptNonNegativeInt, bind_ok, require_ok, orRaise_ok, integerText_ok] at h
    obtain ⟨_, hvalue, _, ⟨hlength, rfl⟩, hencrypt⟩ := h
    refine ⟨value.toNat, (Int.toNat_of_nonneg hvalue).symm, decryptNonNegativeInt_ok.mpr ⟨?_, hlength⟩⟩
    exact (decryptText_iff hideal hdigests).mpr ⟨nonce, hencrypt⟩
  objectJson := by
    intro nonce table column recordKey canonicalJson sentinelJson h
    obtain ⟨_, hobject, h⟩ := bind_ok.mp h
    obtain ⟨envelope, hencrypt, h⟩ := bind_ok.mp h
    obtain rfl := pure_ok.mp h
    have hdecrypt := (decryptText_iff hideal hdigests).mpr ⟨nonce, hencrypt⟩
    exact bind_ok.mpr ⟨envelope, sentinelObject_written envelope,
      bind_ok.mpr ⟨canonicalJson, hdecrypt, bind_ok.mpr ⟨_, hobject, rfl⟩⟩⟩
  arrayJson := by
    intro nonce table column recordKey canonicalJson sentinelJson h
    obtain ⟨_, harray, h⟩ := bind_ok.mp h
    obtain ⟨envelope, hencrypt, h⟩ := bind_ok.mp h
    obtain rfl := pure_ok.mp h
    have hdecrypt := (decryptText_iff hideal hdigests).mpr ⟨nonce, hencrypt⟩
    exact bind_ok.mpr ⟨envelope, sentinelArray_written envelope,
      bind_ok.mpr ⟨canonicalJson, hdecrypt, bind_ok.mpr ⟨_, harray, rfl⟩⟩⟩
  canonical := by
    intro table column recordKey plaintext envelope h
    obtain ⟨parts, _, htext, -⟩ := decryptText_ok.mp h
    refine ⟨parts, readEnvelope_iff.mpr htext, htext.symm, fun other hother => ?_⟩
    exact (readEnvelope_iff.mp hother).symm.trans htext
  cell := aad_injective
  metric := metricAad_injective
  decimals := decryptNonNegativeInt_ok
  keyTexts := by
    intro key
    simp only [encodeKeyText_ok]
    constructor
    · intro h
      exact h.choose_spec.1
    · exact fun hlength => ⟨_, hlength, rfl⟩
  keys := parseKeyText_iff
  metricPlaintexts := decodeMetricPlaintext_iff

end Codec

/-- The associated data of a count of the event `e1`. -/
def sampleData : Bytes :=
  [0, 0, 0, 13, 97, 115, 116, 114, 99, 111, 110, 116, 105, 110, 117, 117, 109, 0, 0, 0, 11, 101, 110, 118,
    101, 108, 111, 112, 101, 45, 118, 49, 0, 0, 0, 14, 106, 111, 117, 114, 110, 97, 108, 95, 101, 118, 101,
    110, 116, 115, 0, 0, 0, 11, 116, 111, 107, 101, 110, 95, 99, 111, 117, 110, 116, 0, 0, 0, 2, 101, 49]

/-- The text under the first byte of a key stream. -/
def sampleMask : Bytes → Bytes
  | [] => []
  | first :: rest => (first ^^^ 206) :: rest

/-- A tag of 16 bytes. -/
def sampleTag (plaintext data : Bytes) : Bytes :=
  if plaintext = [55] ∧ data = sampleData then
    [149, 110, 151, 141, 15, 188, 189, 242, 26, 34, 13, 60, 148, 214, 4, 9]
  else List.replicate tagBytes 0

/-- A cipher and a hash which, on a key and a nonce of zeros, the text `7` and these associated data, are
AES-256-GCM and SHA-256. -/
@[reducible] def samplePrimitives : Primitives where
  sha256Hexdigest value :=
    if value = List.replicate keyBytes 0 then
      "66687aadf862bd776c8fc18b8e9f8e20089714856ee233b3902a591d0d5f2925"
    else String.ofList (List.replicate 64 '0')
  encrypt _ _ plaintext data := some (sampleMask plaintext ++ sampleTag plaintext data)
  decrypt _ _ ciphertext data :=
    let plaintext := sampleMask (ciphertext.take (ciphertext.length - tagBytes))
    if sampleMask plaintext ++ sampleTag plaintext data = ciphertext then .ok plaintext
    else .error .invalidTag

/-- The tag has its length. -/
theorem sampleTag_length (plaintext data : Bytes) : (sampleTag plaintext data).length = tagBytes := by
  unfold sampleTag
  split
  · rfl
  · exact List.length_replicate

/-- The mask is its own inverse. -/
theorem sampleMask_sampleMask (plaintext : Bytes) : sampleMask (sampleMask plaintext) = plaintext := by
  cases plaintext with
  | nil => rfl
  | cons first rest =>
      rw [sampleMask, sampleMask, UInt8.xor_assoc, UInt8.xor_self, UInt8.xor_zero]

/-- The mask keeps the length. -/
theorem sampleMask_length (plaintext : Bytes) : (sampleMask plaintext).length = plaintext.length := by
  cases plaintext with
  | nil => rfl
  | cons first rest => rfl

/-- The sample cipher is ideal. -/
theorem sample_ideal : @IdealAead samplePrimitives := by
  refine @IdealAead.mk samplePrimitives ?_ ?_
  · intro key nonce plaintext ciphertext data
    constructor
    · intro h
      change (if _ then _ else _) = _ at h
      split at h
      · rename_i htext
        obtain rfl := Except.ok.inj h
        exact congrArg some htext
      · cases h
    · intro h
      obtain rfl := Option.some.inj h
      have hlength : (sampleMask plaintext ++ sampleTag plaintext data).length - tagBytes =
          (sampleMask plaintext).length := by
        rw [List.length_append, sampleTag_length, Nat.add_sub_cancel]
      change (if _ then _ else _) = _
      rw [hlength, List.take_left, sampleMask_sampleMask plaintext]
      exact if_pos rfl
  · intro key nonce plaintext ciphertext data h
    obtain rfl := Option.some.inj h
    rw [List.length_append, sampleMask_length, sampleTag_length]

/-- The sample hash is written in hexadecimal. -/
theorem sample_digests : @HexKeyDigests samplePrimitives := by
  have hall : ∀ digest ∈ ["66687aadf862bd776c8fc18b8e9f8e20089714856ee233b3902a591d0d5f2925",
      String.ofList (List.replicate 64 '0')], digest.length = 64 ∧
      ∀ c ∈ digest.toList, ('0' ≤ c ∧ c ≤ '9') ∨ ('a' ≤ c ∧ c ≤ 'f') := by decide
  intro value
  apply hall
  change (if _ then _ else _) ∈ _
  split
  · exact List.mem_cons_self
  · exact List.mem_cons_of_mem _ List.mem_cons_self

/-- The codec under a key of zeros, with the limits that the code sets. -/
def sampleCodec : SecureCodec where
  key := List.replicate keyBytes 0
  maxPlaintextBytes := 8 * 1024 * 1024
  maxEnvelopeChars := 12 * 1024 * 1024
  key_ok := length_zeros
  envelopeChars_ok := envelopeChars_ok

/-- A count is encrypted under a key and a nonce of zeros. -/
theorem zeros_encrypt : ∃ nonce envelope,
    @SecureCodec.encryptNonNegativeInt samplePrimitives sampleCodec nonce "journal_events"
      "token_count" "e1" 7 = .ok envelope := by
  let ciphertext : Bytes :=
    [249, 149, 110, 151, 141, 15, 188, 189, 242, 26, 34, 13, 60, 148, 214, 4, 9]
  have htext := (@encryptText_ok samplePrimitives sampleCodec "journal_events" "token_count" "e1"
    ⟨List.replicate nonceBytes 0, List.length_replicate⟩ "7" _).mpr
      ⟨sampleData, ciphertext, by decide, rfl, rfl, rfl, by decide⟩
  exact ⟨_, _, bind_ok.mpr ⟨(), require_ok.mpr (by decide), bind_ok.mpr ⟨"7", rfl, htext⟩⟩⟩

/-- It is decrypted as this count. -/
theorem envelope_codec_zeros : ∃ nonce envelope,
    @SecureCodec.encryptNonNegativeInt samplePrimitives sampleCodec nonce "journal_events"
        "token_count" "e1" 7 = .ok envelope ∧
      @SecureCodec.decryptNonNegativeInt samplePrimitives sampleCodec "journal_events" "token_count" "e1"
        envelope = .ok 7 := by
  obtain ⟨nonce, envelope, hencrypt⟩ := zeros_encrypt
  have hguarantees := @envelope_codec samplePrimitives sample_ideal sample_digests sampleCodec
  obtain ⟨count, hcount, hdecrypt⟩ := @CodecGuarantees.integer samplePrimitives _ hguarantees _ _ _ _ _ _
    hencrypt
  obtain rfl : 7 = count := Int.ofNat.inj hcount
  exact ⟨nonce, envelope, hencrypt, hdecrypt⟩

end Crypto

end AstrContinuum
