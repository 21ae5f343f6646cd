import TsCli.Crypto.SessionCrypto

/-!
# The bootstrap crypto

Until the session keys are agreed on, packets are encrypted with AES-EAX under a fixed key and a
fixed nonce. The end of the module records what OpenSSL returns for a few packets, so that the
examples of the later modules run on real datagrams.
-/

namespace TsCli

/-- `BootstrapKey`. -/
def bootstrapKey : Bytes := [0x63, 0x3a, 0x5c, 0x77, 0x69, 0x6e, 0x64, 0x6f, 0x77, 0x73, 0x5c, 0x73,
  0x79, 0x73, 0x74, 0x65]

/-- `BootstrapNonce`. -/
def bootstrapNonce : Bytes := [0x6d, 0x5c, 0x66, 0x69, 0x72, 0x65, 0x77, 0x61, 0x6c, 0x6c, 0x33, 0x32,
  0x2e, 0x63, 0x70, 0x6c]

/-- `BootstrapEncryptedData`. -/
structure BootstrapEncryptedData where
  mac : Bytes
  data : Bytes

namespace BootstrapCrypto

variable (openSsl : OpenSsl)

/-- `BootstrapCrypto::Decrypt`. -/
def decrypt (packet : ServerPacket) : Except Failure Bytes := do
  match ← AesEax.decrypt openSsl bootstrapKey bootstrapNonce packet.metaData packet.data
      packet.header.mac with
  | none => throw (.runtimeError "Invalid bootstrap packet MAC")
  | some plaintext => return plaintext

/-- `BootstrapCrypto::Encrypt`. -/
def encrypt (metaData data : Bytes) : Except Failure BootstrapEncryptedData := do
  let encrypted ← AesEax.encrypt openSsl bootstrapKey bootstrapNonce metaData data
  return { mac := encrypted.tag.take 8, data := encrypted.data }

end BootstrapCrypto

/-! ## Recorded calls

The keys are those of the client's first Command and Ack, of the server's Command 66 and of its
first Ack, in a session whose shared IV is zero. -/

namespace OpenSsl

def clientCommandKey : Bytes := [164, 138, 250, 230, 127, 210, 139, 30, 169, 233, 122, 162, 8, 3, 8,
  169]
def clientAckKey : Bytes := [62, 106, 170, 55, 46, 127, 131, 67, 171, 92, 212, 25, 223, 27, 190, 55]
def serverCommandKey : Bytes := [202, 164, 45, 248, 38, 3, 199, 169, 155, 149, 153, 207, 241, 1,
  207, 8]
def serverAckKey : Bytes := [92, 69, 236, 188, 20, 60, 165, 115, 129, 49, 58, 10, 199, 205, 138, 42]

def recordedSha256 : List (Bytes × Bytes) := [
  ([49, 2, 0, 0, 0, 0] ++ List.replicate 64 0, [164, 139, 250, 230, 127, 210, 139, 30, 169, 233,
    122, 162, 8, 3, 8, 169, 246, 155, 130, 74, 171, 232, 9, 79, 210, 75, 92, 250, 221, 51, 127,
    41]),
  ([49, 6, 0, 0, 0, 0] ++ List.replicate 64 0, [62, 107, 170, 55, 46, 127, 131, 67, 171, 92, 212,
    25, 223, 27, 190, 55, 47, 71, 89, 200, 53, 7, 39, 87, 164, 213, 64, 198, 75, 126, 228, 169]),
  ([48, 2, 0, 0, 0, 0] ++ List.replicate 64 0, [202, 230, 45, 248, 38, 3, 199, 169, 155, 149, 153,
    207, 241, 1, 207, 8, 187, 247, 172, 76, 6, 78, 84, 192, 204, 114, 191, 115, 193, 213, 147,
    18]),
  ([48, 6, 0, 0, 0, 0] ++ List.replicate 64 0, [92, 68, 236, 188, 20, 60, 165, 115, 129, 49, 58, 10,
    199, 205, 138, 42, 146, 143, 108, 117, 48, 119, 81, 224, 144, 254, 250, 46, 239, 86, 36, 198])]

def recordedCmac : List ((Bytes × Bytes) × Bytes) := [
  ((clientCommandKey, List.replicate 15 0 ++ [0, 246, 155, 130, 74, 171, 232, 9, 79, 210, 75, 92,
    250, 221, 51, 127, 41]), [118, 78, 158, 81, 24, 107, 29, 246, 36, 134, 24, 254, 193, 102, 60,
    249]),
  ((clientCommandKey, List.replicate 15 0 ++ [1, 0, 1, 0, 0, 34]), [207, 127, 238, 35, 30, 79, 195,
    71, 234, 71, 93, 187, 26, 154, 77, 123]),
  ((clientCommandKey, List.replicate 15 0 ++ [2, 72]), [121, 104, 219, 112, 209, 218, 10, 184, 73,
    4, 212, 205, 20, 189, 90, 26]),
  ((clientCommandKey, List.replicate 15 0 ++ [2, 75]), [73, 71, 88, 82, 249, 61, 242, 164, 250, 36,
    231, 243, 1, 93, 74, 148]),
  ((clientAckKey, List.replicate 15 0 ++ [0, 47, 71, 89, 200, 53, 7, 39, 87, 164, 213, 64, 198, 75,
    126, 228, 169]), [66, 227, 244, 141, 199, 252, 75, 18, 8, 126, 253, 101, 4, 237, 74, 43]),
  ((clientAckKey, List.replicate 15 0 ++ [1, 0, 1, 0, 0, 6]), [41, 245, 175, 57, 5, 116, 238, 17,
    249, 10, 239, 245, 97, 240, 54, 100]),
  ((clientAckKey, List.replicate 15 0 ++ [2, 191, 240]), [1, 50, 47, 149, 248, 7, 145, 33, 31, 1,
    10, 114, 33, 34, 72, 120]),
  ((serverCommandKey, List.replicate 15 0 ++ [0, 187, 247, 172, 76, 6, 78, 84, 192, 204, 114, 191,
    115, 193, 213, 147, 18]), [9, 121, 146, 128, 16, 202, 32, 29, 230, 21, 71, 87, 78, 180, 49,
    86]),
  ((serverCommandKey, List.replicate 15 0 ++ [1, 0, 66, 34]), [47, 189, 202, 220, 184, 119, 228, 19,
    157, 167, 217, 187, 235, 234, 209, 68]),
  ((serverCommandKey, List.replicate 15 0 ++ [2, 151]), [186, 157, 125, 254, 164, 32, 225, 58, 43,
    61, 116, 72, 101, 182, 93, 1]),
  ((serverAckKey, List.replicate 15 0 ++ [0, 146, 143, 108, 117, 48, 119, 81, 224, 144, 254, 250,
    46, 239, 86, 36, 198]), [113, 75, 77, 246, 248, 5, 154, 126, 147, 116, 60, 165, 33, 210, 123,
    29]),
  ((serverAckKey, List.replicate 15 0 ++ [1, 0, 1, 6]), [107, 96, 150, 221, 26, 246, 23, 55, 163,
    253, 236, 29, 236, 81, 72, 10]),
  ((serverAckKey, List.replicate 15 0 ++ [2, 0, 1]), [45, 121, 57, 116, 245, 244, 76, 92, 0, 36,
    153, 70, 163, 109, 14, 7]),
  ((bootstrapKey, List.replicate 15 0 ++ [0, 109, 92, 102, 105, 114, 101, 119, 97, 108, 108, 51, 50,
    46, 99, 112, 108]), [215, 229, 127, 114, 168, 123, 129, 208, 70, 160, 114, 196, 193, 173, 222,
    172]),
  ((bootstrapKey, List.replicate 15 0 ++ [1, 0, 0, 18]), [168, 43, 50, 184, 20, 13, 219, 89, 111,
    17, 182, 3, 207, 139, 28, 186]),
  ((bootstrapKey, List.replicate 15 0 ++ [2, 159]), [54, 73, 233, 149, 4, 120, 173, 185, 36, 29,
    249, 114, 185, 53, 87, 96]),
  ((bootstrapKey, List.replicate 15 0 ++ [1, 0, 1, 18]), [123, 49, 47, 121, 233, 29, 216, 77, 57,
    248, 4, 234, 103, 1, 110, 74]),
  ((bootstrapKey, List.replicate 15 0 ++ [2, 156]), [186, 170, 69, 18, 252, 169, 131, 3, 133, 190,
    231, 137, 163, 80, 73, 234]),
  ((bootstrapKey, List.replicate 15 0 ++ [1, 0, 0, 0, 0, 6]), [72, 251, 69, 97, 138, 2, 251, 92,
    121, 64, 252, 166, 2, 99, 221, 111]),
  ((bootstrapKey, List.replicate 15 0 ++ [2, 254, 25]), [58, 48, 94, 44, 197, 173, 197, 49, 81, 14,
    241, 88, 124, 15, 104, 21]),
  ((bootstrapKey, List.replicate 15 0 ++ [1, 0, 1, 0, 0, 6]), [127, 151, 194, 61, 119, 233, 117, 17,
    185, 116, 63, 184, 134, 68, 92, 191]),
  ((bootstrapKey, List.replicate 15 0 ++ [1, 0, 2, 0, 0, 6]), [210, 232, 212, 128, 212, 216, 125,
    225, 94, 86, 77, 4, 169, 203, 68, 230]),
  ((bootstrapKey, List.replicate 15 0 ++ [2, 254, 24]), [59, 101, 125, 135, 249, 208, 16, 73, 250,
    25, 79, 34, 89, 44, 215, 233]),
  ((bootstrapKey, List.replicate 15 0 ++ [1, 0, 0, 6]), [84, 61, 74, 50, 213, 135, 195, 215, 133,
    91, 171, 157, 223, 249, 195, 136]),
  ((bootstrapKey, List.replicate 15 0 ++ [1, 0, 1, 0, 0, 34]), [204, 17, 190, 194, 228, 3, 228, 111,
    9, 179, 72, 101, 147, 10, 164, 123])]

def recordedAesCtr : List ((Bytes × Bytes × Bytes) × Bytes) := [
  ((clientCommandKey, [118, 78, 158, 81, 24, 107, 29, 246, 36, 134, 24, 254, 193, 102, 60, 249],
    [97]), [72]),
  ((clientCommandKey, [118, 78, 158, 81, 24, 107, 29, 246, 36, 134, 24, 254, 193, 102, 60, 249],
    [98]), [75]),
  ((clientAckKey, [66, 227, 244, 141, 199, 252, 75, 18, 8, 126, 253, 101, 4, 237, 74, 43], [0, 66]),
    [191, 240]),
  ((serverCommandKey, [9, 121, 146, 128, 16, 202, 32, 29, 230, 21, 71, 87, 78, 180, 49, 86], [151]),
    [99]),
  ((bootstrapKey, [215, 229, 127, 114, 168, 123, 129, 208, 70, 160, 114, 196, 193, 173, 222, 172],
    [159]), [97]),
  ((bootstrapKey, [215, 229, 127, 114, 168, 123, 129, 208, 70, 160, 114, 196, 193, 173, 222, 172],
    [156]), [98]),
  ((bootstrapKey, [215, 229, 127, 114, 168, 123, 129, 208, 70, 160, 114, 196, 193, 173, 222, 172],
    [0, 1]), [254, 25]),
  ((bootstrapKey, [215, 229, 127, 114, 168, 123, 129, 208, 70, 160, 114, 196, 193, 173, 222, 172],
    [0, 0]), [254, 24]),
  ((bootstrapKey, [215, 229, 127, 114, 168, 123, 129, 208, 70, 160, 114, 196, 193, 173, 222, 172],
    [254, 25]), [0, 1])]

/-- OpenSSL, as far as its results are recorded. -/
def recorded : OpenSsl where
  sha256 data := (recordedSha256.lookup data).getD []
  cmac key message := (recordedCmac.lookup (key, message)).getD []
  aesCtr key counter data := (recordedAesCtr.lookup (key, counter, data)).getD []

end OpenSsl

/-- A session whose shared IV is zero. -/
def recordedCrypto : SessionCrypto where
  openSsl := .recorded
  sharedIv := List.replicate 64 0
  sharedMac := [1, 2, 3, 4, 5, 6, 7, 8]

end TsCli
