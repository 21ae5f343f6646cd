import TsCli.Packet.Format

/-!
# The session crypto

Session packets are encrypted with AES-128 in EAX mode. Key and nonce come from a hash over the
direction, the packet type, the generation and the shared secret, and the packet id is mixed into
the key. The primitives are those of OpenSSL, which the model takes as a parameter.
-/

namespace TsCli

/-- The functions of OpenSSL that the source calls: the SHA-256 digest, the AES-128 CMAC and
AES-128 in counter mode. -/
structure OpenSsl where
  sha256 : Bytes → Bytes
  /-- Key and message. -/
  cmac : Bytes → Bytes → Bytes
  /-- Key, counter and data. -/
  aesCtr : Bytes → Bytes → Bytes → Bytes

/-- `AesEaxEncryptedData`. -/
structure AesEaxEncryptedData where
  data : Bytes
  tag : Bytes

namespace AesEax

variable (openSsl : OpenSsl) (key : Bytes)

/-- `AesEax::Omac`. -/
def omac (domain : UInt8) (data : Bytes) : Bytes :=
  openSsl.cmac key (List.replicate 15 0 ++ [domain] ++ data)

/-- `AesEax::ComputeTag`. -/
def computeTag (nonceTag associatedData ciphertext : Bytes) : Bytes :=
  let headerTag := omac openSsl key 0x01 associatedData
  let messageTag := omac openSsl key 0x02 ciphertext
  List.zipWith (· ^^^ ·) (List.zipWith (· ^^^ ·) nonceTag headerTag) messageTag

/-- `AesEax::CryptCtr`. -/
def cryptCtr (data counter : Bytes) : Except Failure Bytes := do
  throwIf (2147483647 < data.length) "AES-EAX input is too large"
  return openSsl.aesCtr key counter data

/-- `AesEax::Encrypt`. -/
def encrypt (nonce associatedData data : Bytes) : Except Failure AesEaxEncryptedData := do
  let nonceTag := omac openSsl key 0x00 nonce
  let ciphertext ← cryptCtr openSsl key data nonceTag
  return { data := ciphertext, tag := computeTag openSsl key nonceTag associatedData ciphertext }

/-- `AesEax::Decrypt`. -/
def decrypt (nonce associatedData data tag : Bytes) : Except Failure (Option Bytes) := do
  throwIf (tag = [] ∨ 16 < tag.length) "Invalid AES-EAX tag size"
  let nonceTag := omac openSsl key 0x00 nonce
  let expectedTag := computeTag openSsl key nonceTag associatedData data
  if tag ≠ expectedTag.take tag.length then
    return none
  else
    return some (← cryptCtr openSsl key data nonceTag)

/-- Data under a tag that does not start with the given one is not decrypted. -/
theorem decrypt_of_ne {nonce associatedData data tag : Bytes} (hsize : tag ≠ [] ∧ tag.length ≤ 16)
    (h : tag ≠ (computeTag openSsl key (omac openSsl key 0x00 nonce) associatedData data).take
      tag.length) : decrypt openSsl key nonce associatedData data tag = .ok none := by
  unfold decrypt
  rw [throwIf_bind_of_not (by rintro (h0 | h0); exacts [hsize.1 h0, absurd hsize.2 (by omega)])]
  dsimp only
  rw [if_pos h]
  rfl

end AesEax

/-- `SessionCrypto`. -/
structure SessionCrypto where
  openSsl : OpenSsl
  sharedIv : Bytes
  sharedMac : Bytes

/-- `SessionEncryptedData`. -/
structure SessionEncryptedData where
  mac : Bytes
  data : Bytes

/-- `SessionCrypto::KeyNonce`. -/
structure KeyNonce where
  key : Bytes
  nonce : Bytes
  deriving DecidableEq, Repr

namespace SessionCrypto

variable (crypto : SessionCrypto)

/-- `SessionCrypto::CreateKeyNonce`. -/
def createKeyNonce (type : PacketType) (clientToServer : Bool) (packetId : UInt16)
    (generationId : UInt32) : KeyNonce :=
  let input := [if clientToServer then 0x31 else 0x30, type.value] ++
    BinaryWriter.writeU32 generationId ++ crypto.sharedIv
  let digest := crypto.openSsl.sha256 input
  { key := List.zipWith (· ^^^ ·) (digest.take 16)
      (BinaryWriter.writeU16 packetId ++ List.replicate 14 0)
    nonce := (digest.drop 16).take 16 }

/-- `SessionCrypto::EncryptClient`. -/
def encryptClient (type : PacketType) (packetId : UInt16) (generationId : UInt32)
    (metaData data : Bytes) : Except Failure SessionEncryptedData := do
  let keyNonce := crypto.createKeyNonce type true packetId generationId
  let encrypted ← AesEax.encrypt crypto.openSsl keyNonce.key keyNonce.nonce metaData data
  return { mac := encrypted.tag.take 8, data := encrypted.data }

/-- `SessionCrypto::DecryptServer`. -/
def decryptServer (packet : ServerPacket) (generationId : UInt32) : Except Failure Bytes := do
  let keyNonce := crypto.createKeyNonce packet.header.type false packet.header.packetId generationId
  match ← AesEax.decrypt crypto.openSsl keyNonce.key keyNonce.nonce packet.metaData packet.data
      packet.header.mac with
  | none => throw (.runtimeError "Invalid session packet MAC")
  | some plaintext => return plaintext

/-- The full EAX tag of a server packet in a generation; its first eight bytes travel. -/
def serverTag (packet : ServerPacket) (generationId : UInt32) : Bytes :=
  let keyNonce := crypto.createKeyNonce packet.header.type false packet.header.packetId generationId
  AesEax.computeTag crypto.openSsl keyNonce.key
    (AesEax.omac crypto.openSsl keyNonce.key 0x00 keyNonce.nonce) packet.metaData packet.data

/-- A packet whose MAC is not the start of the tag is not decrypted. -/
theorem decryptServer_of_ne {packet : ServerPacket} {generationId : UInt32}
    (hmac : packet.header.mac.length = 8)
    (h : packet.header.mac ≠ (crypto.serverTag packet generationId).take 8) :
    crypto.decryptServer packet generationId =
      .error (.runtimeError "Invalid session packet MAC") := by
  have hsize : packet.header.mac ≠ [] ∧ packet.header.mac.length ≤ 16 :=
    ⟨fun h0 => by simp [h0] at hmac, by omega⟩
  unfold decryptServer
  dsimp only
  rw [AesEax.decrypt_of_ne _ _ hsize (by rw [hmac]; exact h)]
  rfl

end SessionCrypto

end TsCli
