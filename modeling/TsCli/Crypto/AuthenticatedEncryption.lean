import TsCli.Crypto.BootstrapCrypto

/-!
# What decryption accepts

Counter mode is its own inverse and the tag is over the ciphertext, so under one key and nonce
`AesEax.decrypt` returns a plaintext exactly for the data and the starts of the tag that
`AesEax.encrypt` makes of it (`AesEax.decrypt_eq_some_iff`).

A party that shares the secrets opens what the client encrypts in the same way as the client opens
what the server encrypts, only with the other direction in the key (`SessionCrypto.decryptClient`).
-/

namespace TsCli

/-- What OpenSSL documents of its functions: a CMAC has the size of a block, and counter mode keeps
the size of the data and is its own inverse. -/
structure OpenSsl.Documented (openSsl : OpenSsl) : Prop where
  length_cmac : ∀ key data, (openSsl.cmac key data).length = 16
  length_aesCtr : ∀ key counter data, (openSsl.aesCtr key counter data).length = data.length
  aesCtr_aesCtr : ∀ key counter data,
    openSsl.aesCtr key counter (openSsl.aesCtr key counter data) = data

namespace AesEax

variable {openSsl : OpenSsl} {key nonce associatedData data tag plaintext : Bytes}

theorem cryptCtr_eq_ok_iff {counter result : Bytes} :
    cryptCtr openSsl key data counter = .ok result ↔
      data.length ≤ 2147483647 ∧ result = openSsl.aesCtr key counter data := by
  unfold cryptCtr throwIf
  by_cases hsize : 2147483647 < data.length
  · rw [if_pos hsize]
    exact ⟨nofun, fun h => absurd h.1 (not_le.2 hsize)⟩
  · rw [if_neg hsize]
    exact ⟨fun h => ⟨not_lt.1 hsize, (Except.ok.inj h).symm⟩, fun h => congrArg Except.ok h.2.symm⟩

theorem encrypt_eq_ok_iff {encrypted : AesEaxEncryptedData} :
    encrypt openSsl key nonce associatedData plaintext = .ok encrypted ↔
      plaintext.length ≤ 2147483647 ∧
        encrypted.data = openSsl.aesCtr key (omac openSsl key 0x00 nonce) plaintext ∧
        encrypted.tag =
          computeTag openSsl key (omac openSsl key 0x00 nonce) associatedData encrypted.data := by
  unfold encrypt
  dsimp only
  cases hcrypt : cryptCtr openSsl key plaintext (omac openSsl key 0x00 nonce) with
  | error failure =>
    refine ⟨nofun, fun h => ?_⟩
    rw [cryptCtr_eq_ok_iff.2 ⟨h.1, rfl⟩] at hcrypt
    cases hcrypt
  | ok ciphertext =>
    obtain ⟨hsize, rfl⟩ := cryptCtr_eq_ok_iff.1 hcrypt
    constructor
    · intro h
      obtain rfl := Except.ok.inj h
      exact ⟨hsize, rfl, rfl⟩
    · rintro ⟨-, hdata, htag⟩
      obtain ⟨ciphertext, tag⟩ := encrypted
      dsimp only at hdata htag
      subst hdata
      subst htag
      rfl

theorem decrypt_eq_ok_some_iff :
    decrypt openSsl key nonce associatedData data tag = .ok (some plaintext) ↔
      (tag ≠ [] ∧ tag.length ≤ 16) ∧
        tag = (computeTag openSsl key (omac openSsl key 0x00 nonce) associatedData data).take
          tag.length ∧
        data.length ≤ 2147483647 ∧
        plaintext = openSsl.aesCtr key (omac openSsl key 0x00 nonce) data := by
  by_cases hsize : tag ≠ [] ∧ tag.length ≤ 16
  · by_cases htag : tag =
        (computeTag openSsl key (omac openSsl key 0x00 nonce) associatedData data).take tag.length
    · unfold decrypt
      rw [throwIf_bind_of_not (by rintro (h | h); exacts [hsize.1 h, absurd hsize.2 (by omega)])]
      dsimp only
      rw [if_neg (not_not.2 htag)]
      cases hcrypt : cryptCtr openSsl key data (omac openSsl key 0x00 nonce) with
      | error failure =>
        refine ⟨nofun, fun h => ?_⟩
        rw [cryptCtr_eq_ok_iff.2 ⟨h.2.2.1, rfl⟩] at hcrypt
        cases hcrypt
      | ok result =>
        obtain ⟨hlength, rfl⟩ := cryptCtr_eq_ok_iff.1 hcrypt
        constructor
        · intro h
          exact ⟨hsize, htag, hlength, (Option.some.inj (Except.ok.inj h)).symm⟩
        · rintro ⟨-, -, -, rfl⟩
          rfl
    · rw [decrypt_of_ne openSsl key hsize htag]
      exact ⟨nofun, fun h => absurd h.2.1 htag⟩
  · have hbad : tag = [] ∨ 16 < tag.length := by
      rcases Decidable.not_and_iff_or_not.1 hsize with h | h
      · exact .inl (not_not.1 h)
      · exact .inr (not_le.1 h)
    unfold decrypt
    rw [throwIf_of_pos _ hbad]
    exact ⟨nofun, fun h => absurd h.1 hsize⟩

/-- Decryption returns a plaintext exactly for what encryption makes of it. -/
theorem decrypt_eq_some_iff (h : openSsl.Documented) :
    decrypt openSsl key nonce associatedData data tag = .ok (some plaintext) ↔
      (tag ≠ [] ∧ tag.length ≤ 16) ∧ ∃ encrypted,
        encrypt openSsl key nonce associatedData plaintext = .ok encrypted ∧
          encrypted.data = data ∧ tag = encrypted.tag.take tag.length := by
  rw [decrypt_eq_ok_some_iff]
  refine and_congr_right fun _ => ?_
  constructor
  · rintro ⟨htag, hlength, rfl⟩
    refine ⟨⟨data, computeTag openSsl key (omac openSsl key 0x00 nonce) associatedData data⟩,
      encrypt_eq_ok_iff.2 ⟨?_, ?_, rfl⟩, rfl, htag⟩
    · rw [h.length_aesCtr]
      exact hlength
    · exact (h.aesCtr_aesCtr ..).symm
  · rintro ⟨encrypted, hencrypt, rfl, htag⟩
    obtain ⟨hlength, hdata, hfull⟩ := encrypt_eq_ok_iff.1 hencrypt
    rw [hfull] at htag
    refine ⟨htag, ?_, ?_⟩
    · rw [hdata, h.length_aesCtr]
      exact hlength
    · rw [hdata, h.aesCtr_aesCtr]

theorem length_computeTag (h : openSsl.Documented) {nonceTag : Bytes}
    (hnonce : nonceTag.length = 16) :
    (computeTag openSsl key nonceTag associatedData data).length = 16 := by
  simp [computeTag, omac, h.length_cmac, hnonce]

end AesEax

namespace SessionCrypto

variable {crypto : SessionCrypto}

/-- How a party with the shared secrets decrypts a packet of the client: `DecryptServer` in the
other direction. -/
def decryptClient (crypto : SessionCrypto) (header : ClientPacketHeader) (generationId : UInt32)
    (metaData data : Bytes) : Except Failure Bytes := do
  let keyNonce := crypto.createKeyNonce header.type true header.packetId generationId
  match ← AesEax.decrypt crypto.openSsl keyNonce.key keyNonce.nonce metaData data header.mac with
  | none => throw (.runtimeError "Invalid session packet MAC")
  | some plaintext => return plaintext

theorem encryptClient_eq_ok (h : crypto.openSsl.Documented) {type : PacketType}
    {packetId : UInt16} {generationId : UInt32} {metaData data : Bytes}
    {encrypted : SessionEncryptedData}
    (hencrypt : crypto.encryptClient type packetId generationId metaData data = .ok encrypted) :
    ∃ full, AesEax.encrypt crypto.openSsl (crypto.createKeyNonce type true packetId generationId).key
        (crypto.createKeyNonce type true packetId generationId).nonce metaData data = .ok full ∧
      encrypted.data = full.data ∧ encrypted.mac = full.tag.take 8 ∧ encrypted.mac.length = 8 := by
  unfold encryptClient at hencrypt
  obtain ⟨full, hfull, hencrypted⟩ := bind_eq_ok hencrypt
  obtain rfl := Except.ok.inj hencrypted
  have htag : full.tag.length = 16 := by
    rw [(AesEax.encrypt_eq_ok_iff.1 hfull).2.2]
    exact AesEax.length_computeTag h (h.length_cmac ..)
  refine ⟨full, hfull, rfl, rfl, ?_⟩
  rw [List.length_take, htag]
  rfl

/-- Such a party reads what the client encrypted. -/
theorem decryptClient_encryptClient (h : crypto.openSsl.Documented) {header : ClientPacketHeader}
    {generationId : UInt32} {metaData data : Bytes} {encrypted : SessionEncryptedData}
    (hencrypt : crypto.encryptClient header.type header.packetId generationId metaData data =
      .ok encrypted) (hmac : header.mac = encrypted.mac) :
    crypto.decryptClient header generationId metaData encrypted.data = .ok data := by
  obtain ⟨full, hfull, hdata, htag, hlength⟩ := encryptClient_eq_ok h hencrypt
  have hsize : encrypted.mac ≠ [] ∧ encrypted.mac.length ≤ 16 :=
    ⟨List.ne_nil_of_length_pos (by omega), by omega⟩
  have hdecrypt := (AesEax.decrypt_eq_some_iff h).2
    ⟨hsize, full, hfull, hdata.symm, by rw [hlength, htag]⟩
  unfold decryptClient
  dsimp only
  rw [hmac, hdecrypt]
  rfl

end SessionCrypto

/-! ## Key streams -/

/-- Data under a key stream, which zeros continue where it is not recorded. -/
def withKeyStream (stream data : Bytes) : Bytes :=
  List.zipWith (· ^^^ ·) data (stream ++ List.replicate data.length 0)

theorem length_withKeyStream (stream data : Bytes) :
    (withKeyStream stream data).length = data.length := by
  unfold withKeyStream
  rw [List.length_zipWith, List.length_append, List.length_replicate]
  omega

theorem withKeyStream_withKeyStream (stream data : Bytes) :
    withKeyStream stream (withKeyStream stream data) = data := by
  apply List.ext_getElem
  · rw [length_withKeyStream, length_withKeyStream]
  · intro i hi hdata
    unfold withKeyStream
    simp [UInt8.xor_assoc]

namespace OpenSsl

/-- The starts of the key streams in the recorded calls. -/
def recordedKeyStream : List ((Bytes × Bytes) × Bytes) := [
  ((clientCommandKey, [118, 78, 158, 81, 24, 107, 29, 246, 36, 134, 24, 254, 193, 102, 60, 249]),
    [41]),
  ((clientAckKey, [66, 227, 244, 141, 199, 252, 75, 18, 8, 126, 253, 101, 4, 237, 74, 43]),
    [191, 178]),
  ((serverCommandKey, [9, 121, 146, 128, 16, 202, 32, 29, 230, 21, 71, 87, 78, 180, 49, 86]),
    [244]),
  ((bootstrapKey, [215, 229, 127, 114, 168, 123, 129, 208, 70, 160, 114, 196, 193, 173, 222, 172]),
    [254, 24])]

/-- The recorded calls, continued to all inputs. -/
def continued : OpenSsl where
  sha256 := recorded.sha256
  cmac key message := (recordedCmac.lookup (key, message)).getD (List.replicate 16 0)
  aesCtr key counter := withKeyStream ((recordedKeyStream.lookup (key, counter)).getD [])

theorem documented_continued : continued.Documented where
  length_cmac key data := by
    have hall : ∀ call ∈ recordedCmac, call.2.length = 16 := by decide +kernel
    change ((recordedCmac.lookup (key, data)).getD (List.replicate 16 0)).length = 16
    cases hlookup : recordedCmac.lookup (key, data) with
    | none => rfl
    | some mac =>
      obtain ⟨before, after, hsplit, -⟩ := List.lookup_eq_some_iff.1 hlookup
      exact hall ((key, data), mac) (by rw [hsplit]; simp)
  length_aesCtr _ _ _ := length_withKeyStream ..
  aesCtr_aesCtr _ _ _ := withKeyStream_withKeyStream ..

/-- The continuation of a recorded call is the call. -/
theorem aesCtr_continued : ∀ call ∈ recordedAesCtr,
    continued.aesCtr call.1.1 call.1.2.1 call.1.2.2 = call.2 := by decide +kernel

end OpenSsl

end TsCli
