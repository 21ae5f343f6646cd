import Mathlib.Data.ZMod.Basic
import TsCli.Command.Codec
import TsCli.Crypto.PublicKey
import TsCli.Encoding.Base64
import TsCli.Handshake.License

/-!
# The key exchange

The server proves that its license is its own, and the client derives the server's key from the
license: starting from a key that is built in, each block adds the multiple of its own key by a hash
of the block. The shared point of that key and of a new key of the client gives the secrets of the
session. The client sends its key in `clientek`, so the holder of the server's secrets computes the
same (`server_agrees`).

libsodium and OpenSSL are parameters.
-/

namespace TsCli

open Exec

/-- `if ( !value ) throw std::runtime_error( message )`. -/
def orThrow {α : Type} (value : Option α) (message : String) : Except Failure α :=
  match value with
  | some a => .ok a
  | none => .error (.runtimeError message)

theorem orThrow_eq_ok {α : Type} {value : Option α} {message : String} {a : α}
    (h : orThrow value message = .ok a) : value = some a := by
  cases value with
  | none => cases h
  | some b =>
    cases h
    rfl

/-! ## The command of the server -/

/-- The bytes as an array of a fixed size. -/
def toArray? (n : ℕ) (bytes : Bytes) : Option (Vector UInt8 n) :=
  if h : bytes.length = n then some ⟨bytes.toArray, by rw [List.size_toArray, h]⟩ else none

/-- `InitIvExpand2`. -/
structure InitIvExpand2 where
  encodedLicense : Bytes
  license : Bytes
  beta : Vector UInt8 54
  omega : Bytes
  proof : Bytes
  ot : ℕ
  root : Option Bytes
  tvd : Option Bytes
  time : Option Bytes

namespace InitIvExpand2

variable (decodeBlock : Bytes → Option Bytes)

/-- `DecodeField`. -/
def decodeField (row : CommandRow) (name : String) : Except Failure Bytes := do
  let encoded ← row.require name
  match Base64.decode decodeBlock encoded with
  | .error (.runtimeError what) => .error (.runtimeError ("Failed to decode initivexpand2 " ++ name ++
      " (length " ++ toString encoded.length ++ "): " ++ what))
  | result => result

/-- `std::from_chars` into 32 bits, which has to use up the text. -/
def parseOt (text : Bytes) : Except Failure ℕ :=
  if text ≠ [] ∧ text.all (fun c => 48 ≤ c.toNat && c.toNat ≤ 57) ∧ decimal text < 2 ^ 32 then
    .ok (decimal text)
  else .error (.runtimeError "Invalid initivexpand2 ot value")

/-- What `Parse` reads of its row. -/
def parseRow (row : CommandRow) : Except Failure InitIvExpand2 := do
  let encodedLicense ← row.require "l"
  let license ← decodeField decodeBlock row "l"
  throwIf (license = []) "initivexpand2 license is empty"
  let decoded ← decodeField decodeBlock row "beta"
  let beta ← orThrow (toArray? 54 decoded) "Invalid initivexpand2 beta length"
  let omega ← decodeField decodeBlock row "omega"
  throwIf (omega = []) "initivexpand2 omega is empty"
  let proof ← decodeField decodeBlock row "proof"
  throwIf (proof = []) "initivexpand2 proof is empty"
  let ot ← row.require "ot"
  let ot ← parseOt ot
  throwIf (ot ≠ 1) "Unsupported initivexpand2 ot value"
  return {
    encodedLicense, license, beta, omega, proof, ot
    root := row.find? "root"
    tvd := row.find? "tvd"
    time := row.find? "time"
  }

/-- `InitIvExpand2::Parse`. -/
def parse (command : Command) : Except Failure InitIvExpand2 := do
  throwIf (command.name ≠ ascii "initivexpand2") "Expected initivexpand2 command"
  match command.rows with
  | [row] => parseRow decodeBlock row
  | _ => .error (.runtimeError "initivexpand2 must contain exactly one row")

end InitIvExpand2

/-! ## The server's signature -/

/-- The functions of OpenSSL behind `P256`. -/
structure P256Library (κ : Type) where
  /-- The import of a point, with the failure that the source throws. -/
  importKey : Bytes → Except Failure κ
  /-- `EVP_DigestVerify` with SHA-256: data and signature. -/
  digestVerify : κ → Bytes → Bytes → ℤ

/-- `P256::Verify`. -/
def P256.verify {κ : Type} (lib : P256Library κ) (publicKey data signature : Bytes) :
    Except Failure Bool := do
  let key ← parsePublicKey lib.importKey publicKey
  let result := lib.digestVerify key data signature
  throwIf (result < 0) "P-256 signature verification failed"
  return result = 1

/-! ## The secrets of the session -/

/-- `LicenseBlock::HashData`. -/
def LicenseBlock.hashData (block : LicenseBlock) : Except Failure Bytes := do
  throwIf (block.raw.length < 2) "Invalid raw license block"
  return block.raw.drop 1

/-- The functions of libsodium that the source calls; `none` is a status that is not zero. -/
structure Sodium where
  /-- `sodium_init`. -/
  init : ℤ
  /-- What `crypto_core_ed25519_scalar_random` draws. -/
  scalarRandom : Bytes
  /-- `crypto_core_ed25519_scalar_reduce`. -/
  scalarReduce : Bytes → Bytes
  /-- `crypto_scalarmult_ed25519_base_noclamp`. -/
  scalarmultBase : Bytes → Option Bytes
  /-- `crypto_scalarmult_ed25519_noclamp`. -/
  scalarmult : Bytes → Bytes → Option Bytes
  /-- `crypto_core_ed25519_add`. -/
  add : Bytes → Bytes → Option Bytes
  /-- `crypto_hash_sha512`. -/
  sha512 : Bytes → Option (Vector UInt8 64)
  /-- OpenSSL's SHA-1. -/
  sha1 : Bytes → Option (Vector UInt8 20)

/-- `SessionMaterial`. -/
structure SessionMaterial where
  sharedIv : Vector UInt8 64
  sharedMac : Vector UInt8 8
  clientPublicKey : Bytes
  deriving DecidableEq

namespace SessionMaterial

/-- `Root`. -/
def root : Bytes := [0xcd, 0x0d, 0xe2, 0xae, 0xd4, 0x63, 0x45, 0x50, 0x9a, 0x7e, 0x3c, 0xfd, 0x8f, 0x68,
  0xb3, 0xdc, 0x75, 0x55, 0xb2, 0x9d, 0xcc, 0xec, 0x73, 0xcd, 0x18, 0x75, 0x0f, 0x99, 0x38, 0x12, 0x40,
  0x8a]

variable (sodium : Sodium)

/-- `MultiplyBase`. -/
def multiplyBase (scalar : Bytes) : Except Failure Bytes :=
  orThrow (sodium.scalarmultBase scalar) "Failed to derive client public key"

/-- `Multiply`. -/
def multiply (scalar point : Bytes) : Except Failure Bytes :=
  orThrow (sodium.scalarmult scalar point) "Failed to multiply Curve25519 point"

/-- `Sha512`. -/
def sha512 (data : Bytes) : Except Failure (Vector UInt8 64) :=
  orThrow (sodium.sha512 data) "Failed to calculate SHA-512"

/-- `Sha1`. -/
def sha1 (data : Bytes) : Except Failure (Vector UInt8 20) :=
  orThrow (sodium.sha1 data) "Failed to calculate SHA-1"

/-- The clamping of `DeriveBlockScalar`. -/
def clamp (hash : Vector UInt8 64) : Vector UInt8 64 :=
  let hash := hash.set 0 (hash[0] &&& 0xf8)
  let hash := hash.set 31 (hash[31] &&& 0x3f)
  hash.set 31 (hash[31] ||| 0x40)

/-- `DeriveBlockScalar`. -/
def deriveBlockScalar (block : LicenseBlock) : Except Failure Bytes := do
  let data ← block.hashData
  let hash ← sha512 sodium data
  let nonReduced := (clamp hash).toList.take 32 ++ List.replicate 32 0
  return sodium.scalarReduce nonReduced

/-- The loop of `DeriveServerPublicKey`. -/
def addBlocks : List LicenseBlock → Bytes → Except Failure Bytes
  | [], parent => .ok parent
  | block :: blocks, parent => do
    let scalar ← deriveBlockScalar sodium block
    let multiplied ← multiply sodium scalar block.publicKey
    let next ← orThrow (sodium.add multiplied parent) "Failed to add license curve points"
    addBlocks blocks next

/-- `DeriveServerPublicKey`. -/
def deriveServerPublicKey (license : License) : Except Failure Bytes :=
  addBlocks sodium license.blocks root

/-- What `Derive` makes of the shared point: the shared IV, and the shared MAC. -/
def deriveShared (sharedData : Bytes) (alpha : Vector UInt8 10) (beta : Vector UInt8 54) :
    Except Failure (Vector UInt8 64 × Vector UInt8 8) := do
  let hash ← sha512 sodium sharedData
  let sharedIv : Vector UInt8 64 := Vector.zipWith (· ^^^ ·) hash (alpha ++ beta)
  let macHash ← sha1 sodium sharedIv.toList
  return (sharedIv, macHash.take 8)

/-- `SessionMaterialDeriver::Derive`. -/
def derive (license : License) (alpha : Vector UInt8 10) (beta : Vector UInt8 54) :
    Except Failure SessionMaterial := do
  throwIf (sodium.init < 0) "Failed to initialize libsodium"
  let serverPublicKey ← deriveServerPublicKey sodium license
  let clientPrivateKey := sodium.scalarRandom
  let clientPublicKey ← multiplyBase sodium clientPrivateKey
  let sharedData ← multiply sodium clientPrivateKey serverPublicKey
  let shared ← deriveShared sodium sharedData alpha beta
  return { sharedIv := shared.1, sharedMac := shared.2, clientPublicKey }

end SessionMaterial

/-! ## The commands of the client -/

/-- `GenerateAlpha`, with what `RAND_bytes` draws. -/
def generateAlpha (randBytes : Option (Vector UInt8 10)) : Except Failure (Vector UInt8 10) :=
  orThrow randBytes "Failed to generate client alpha"

/-- `ClientInitIv::Serialize`. -/
def clientInitIv (identity : Identity) (serverIp : Bytes) (alpha : Vector UInt8 10) :
    Except Failure Bytes := do
  let alpha ← Base64.encode alpha.toList
  let publicKey ← identity.publicKey
  let omega ← Base64.encode publicKey
  CommandWriter.writeCommand (ascii "clientinitiv")
    [.write (ascii "alpha") alpha, .write (ascii "omega") omega, .write (ascii "ot") (ascii "1"),
      .write (ascii "ip") serverIp]

/-- `ClientEk`, with `Identity::Sign`. -/
def clientEk (sign : Bytes → Except Failure Bytes) (clientPublicKey : Bytes)
    (beta : Vector UInt8 54) : Except Failure Bytes := do
  let proof ← sign (clientPublicKey ++ beta.toList)
  let ek ← Base64.encode clientPublicKey
  let encodedProof ← Base64.encode proof
  CommandWriter.writeCommand (ascii "clientek")
    [.write (ascii "ek") ek, .write (ascii "proof") encodedProof]

/-! ## Points -/

/-- What the documentation says of the functions on points: `G` is the main subgroup, written as
bytes by `encode`, and `scalar` is the number that a scalar stands for. Multiples that are zero are
refused. -/
structure Sodium.Documented (sodium : Sodium) {G : Type} [AddCommGroup G] (base : G)
    (encode : G → Bytes) (scalar : Bytes → ℕ) : Prop where
  injective : Function.Injective encode
  length : ∀ P, (encode P).length = 32
  scalarmultBase : ∀ s q, sodium.scalarmultBase s = some q ↔
    scalar s • base ≠ 0 ∧ q = encode (scalar s • base)
  scalarmult : ∀ s p q, sodium.scalarmult s p = some q ↔
    ∃ P, p = encode P ∧ scalar s • P ≠ 0 ∧ q = encode (scalar s • P)
  add : ∀ P Q, sodium.add (encode P) (encode Q) = some (encode (P + Q))

namespace SessionMaterial

/-- The number of a block's scalar, where the block has one. -/
def blockFactor (sodium : Sodium) (scalar : Bytes → ℕ) (block : LicenseBlock) : ℕ :=
  match deriveBlockScalar sodium block with
  | .ok bytes => scalar bytes
  | .error _ => 0

/-- What the holder of the keys of the blocks adds up. -/
def secret (sodium : Sodium) (scalar : Bytes → ℕ) : List LicenseBlock → List ℕ → ℕ → ℕ
  | block :: blocks, key :: keys, parent =>
    secret sodium scalar blocks keys (blockFactor sodium scalar block * key + parent)
  | _, _, parent => parent

variable {sodium : Sodium} {G : Type} [AddCommGroup G] {base : G} {encode : G → Bytes}
  {scalar : Bytes → ℕ}

/-- **The chain of the license**: the derived key is that of the sum of the secrets. -/
theorem addBlocks_eq_ok (h : sodium.Documented base encode scalar) {blocks : List LicenseBlock}
    {keys : List ℕ} (hkeys : List.Forall₂ (fun block key => block.publicKey = encode (key • base))
      blocks keys) {parent : ℕ} {result : Bytes}
    (hrun : addBlocks sodium blocks (encode (parent • base)) = .ok result) :
    result = encode (secret sodium scalar blocks keys parent • base) := by
  induction hkeys generalizing parent with
  | nil =>
    cases hrun
    rfl
  | @cons block key blocks keys hkey _ ih =>
    obtain ⟨factor, hfactor, hbehind⟩ := bind_eq_ok hrun
    obtain ⟨multiplied, hmultiplied, hbehind⟩ := bind_eq_ok hbehind
    obtain ⟨next, hnext, hrest⟩ := bind_eq_ok hbehind
    obtain ⟨P, hP, -, rfl⟩ := (h.scalarmult _ _ _).1 (orThrow_eq_ok hmultiplied)
    have hpoint : P = key • base := h.injective (hP.symm.trans hkey)
    have hfactor' : blockFactor sodium scalar block = scalar factor := by
      unfold blockFactor
      rw [hfactor]
    have hadd := orThrow_eq_ok hnext
    rw [h.add] at hadd
    have hsum : next = encode ((blockFactor sodium scalar block * key + parent) • base) := by
      rw [← Option.some.inj hadd, hpoint, hfactor', add_smul, mul_smul]
    rw [hsum] at hrest
    exact ih hrest

/-- Client and server compute the same point. -/
theorem derive_eq_ok (h : sodium.Documented base encode scalar) {license : License}
    {keys : List ℕ} (hkeys : List.Forall₂ (fun block key => block.publicKey = encode (key • base))
      license.blocks keys) {parent : ℕ} (hroot : root = encode (parent • base))
    {alpha : Vector UInt8 10} {beta : Vector UInt8 54} {material : SessionMaterial}
    (hderive : derive sodium license alpha beta = .ok material) :
    ∃ E, material.clientPublicKey = encode E ∧
      deriveShared sodium (encode (secret sodium scalar license.blocks keys parent • E)) alpha beta =
        .ok (material.sharedIv, material.sharedMac) := by
  obtain ⟨_, -, hderive⟩ := bind_eq_ok hderive
  obtain ⟨serverPublicKey, hserver, hderive⟩ := bind_eq_ok hderive
  obtain ⟨clientPublicKey, hclient, hderive⟩ := bind_eq_ok hderive
  obtain ⟨sharedData, hshared, hderive⟩ := bind_eq_ok hderive
  obtain ⟨shared, hresult, hreturn⟩ := bind_eq_ok hderive
  cases hreturn
  obtain ⟨-, hpublic⟩ := (h.scalarmultBase _ _).1 (orThrow_eq_ok hclient)
  obtain ⟨P, hP, -, hpoint⟩ := (h.scalarmult _ _ _).1 (orThrow_eq_ok hshared)
  have hserverPoint : P = secret sodium scalar license.blocks keys parent • base := by
    apply h.injective
    rw [← hP]
    unfold deriveServerPublicKey at hserver
    rw [hroot] at hserver
    exact addBlocks_eq_ok h hkeys hserver
  refine ⟨scalar sodium.scalarRandom • base, hpublic, ?_⟩
  rw [smul_comm, ← hserverPoint, ← hpoint]
  exact hresult

end SessionMaterial

/-! ## What the server reads -/

/-- A command of one row. -/
theorem parse_parameters {name bytes : Bytes} {operation : CommandWriter.Operation}
    {operations : List CommandWriter.Operation} {row : CommandRow}
    (hwrite : CommandWriter.writeCommand name (operation :: operations) = .ok bytes)
    (hnames : NamesEnd (operation :: operations))
    (hrow : CommandWriter.splitRows (operation :: operations) = [row]) :
    CommandParser.parse bytes = .ok { name, rows := [row] } := by
  obtain ⟨hvalid, w, hrun, htake, rfl⟩ := writeCommand_eq_ok hwrite
  obtain ⟨hnil, hspace, -, -⟩ := validateName_eq_ok hvalid
  obtain ⟨text, hdata, hrows⟩ :=
    (writes_rows _ hnames).2 rfl (.inl (List.cons_ne_nil _ _)) hrun htake
  rw [hrow] at hrows
  rw [hdata]
  simpa using parse_of_text hnil hspace hrows

/-- Four characters for three bytes. -/
theorem Base64.length_encodeBlock_le (data : Bytes) : (encodeBlock data).length ≤ 2 * data.length + 2 := by
  induction data using encodeBlock.induct with
  | case1 => exact Nat.zero_le _
  | case2 a =>
    rw [encodeBlock, ascii_padPad]
    exact le_rfl
  | case3 a b =>
    rw [encodeBlock, ascii_pad]
    simp
  | case4 a b c data ih =>
    rw [encodeBlock, List.length_append]
    simp only [List.length_cons, List.length_nil]
    omega

theorem namesEnd_clientEk (ek proof : Bytes) :
    NamesEnd [.write (ascii "ek") ek, .write (ascii "proof") proof] := by
  intro operation hoperation name hname
  simp only [List.mem_cons, List.not_mem_nil, or_false] at hoperation
  rcases hoperation with rfl | rfl
  · cases hname
    decide +kernel
  · cases hname
    decide +kernel

/-- **The server reads the client's key and its signature.** -/
theorem clientEk_eq_ok {decodeBlock : Bytes → Option Bytes} (h : Base64.Documented decodeBlock)
    {sign : Bytes → Except Failure Bytes} (hsign : ∀ data proof, sign data = .ok proof → proof.length ≤ 72)
    {clientPublicKey text : Bytes} (hkey : clientPublicKey.length = 32) {beta : Vector UInt8 54}
    (hek : clientEk sign clientPublicKey beta = .ok text) :
    ∃ row ek encodedProof proof,
      CommandParser.parse text = .ok { name := ascii "clientek", rows := [row] } ∧
      row.find? "ek" = some ek ∧ Base64.decode decodeBlock ek = .ok clientPublicKey ∧
      row.find? "proof" = some encodedProof ∧ Base64.decode decodeBlock encodedProof = .ok proof ∧
      sign (clientPublicKey ++ beta.toList) = .ok proof := by
  obtain ⟨proof, hproof, hek⟩ := bind_eq_ok hek
  obtain ⟨ek, hencode, hek⟩ := bind_eq_ok hek
  obtain ⟨encodedProof, hencodeProof, hwrite⟩ := bind_eq_ok hek
  have hshort : ∀ {data text : Bytes}, data.length ≤ 72 → Base64.encode data = .ok text →
      text.length ≤ 2 ^ 31 - 1 := by
    intro data text hdata htext
    have hlength := Base64.length_encodeBlock_le data
    rw [Base64.encode_eq_ok htext]
    omega
  have hparse := parse_parameters hwrite (namesEnd_clientEk ek encodedProof) rfl
  have hne : ascii "ek" ≠ ascii "proof" := by decide +kernel
  refine ⟨_, ek, encodedProof, proof, hparse, ?_, ?_, ?_, ?_, hproof⟩
  · simp [CommandRow.find?]
  · exact Base64.decode_of_encode h hencode (hshort (by omega) hencode)
  · simp [CommandRow.find?, hne]
  · exact Base64.decode_of_encode h hencodeProof (hshort (hsign _ _ hproof) hencodeProof)

namespace Sodium

/-- A residue modulo eleven as a point; the root key is that of ten. -/
def residue (n : ℕ) : Bytes := SessionMaterial.root.take 31 ++ [UInt8.ofNat (128 + n % 11)]

/-- The residue of a point. -/
def residue? (point : Bytes) : Option ℕ := (List.range 11).find? (residue · = point)

/-- The number of a scalar, whose low byte comes first. -/
def number (scalar : Bytes) : ℕ := BigEndian.value scalar.reverse

/-- The order of the main subgroup of libsodium. -/
def order : ℕ := 2 ^ 252 + 27742317777372353535851937790883648493

/-- SHA-512 and SHA-1, as far as their results are recorded. -/
def recordedSha512 : List (Bytes × List UInt8) := [
  (residue 3 ++ [2] ++ List.replicate 13 0 ++ [97, 0], [
      108, 237, 187, 152, 25, 152, 33, 139, 104, 252, 129, 118, 37, 75, 236, 121, 1, 22, 169,
      254, 251, 250, 244, 107, 3, 44, 234, 17, 90, 158, 107, 127, 124, 72, 1, 158, 150, 78,
      139, 217, 161, 28, 169, 243, 66, 43, 59, 152, 108, 190, 234, 1, 35, 27, 242, 98, 110,
      102, 82, 233, 179, 69, 14, 39]),
  (residue 5 ++ [32] ++ List.replicate 8 0, [
      35, 114, 40, 219, 31, 63, 31, 215, 129, 60, 82, 96, 149, 183, 171, 255, 63, 237, 44, 227,
      236, 212, 13, 251, 3, 66, 127, 113, 71, 98, 188, 57, 244, 189, 166, 120, 173, 159, 94,
      73, 102, 148, 168, 230, 232, 172, 153, 206, 9, 33, 62, 9, 45, 158, 197, 248, 181, 255,
      253, 225, 140, 47, 81, 202]),
  (residue 7, [
      28, 235, 204, 95, 198, 239, 30, 106, 117, 73, 30, 172, 10, 215, 164, 189, 18, 62, 114,
      168, 182, 58, 240, 253, 52, 149, 220, 117, 102, 145, 149, 180, 187, 155, 131, 103, 62,
      96, 78, 57, 179, 211, 224, 252, 65, 211, 168, 230, 254, 22, 237, 212, 250, 60, 25, 78,
      104, 228, 161, 116, 207, 188, 177, 254])]

/-- The shared IV. -/
def recordedIv : Vector UInt8 64 := ⟨#[
  29, 233, 207, 91, 195, 233, 25, 98, 124, 67, 21, 160, 7, 217, 171, 173, 3, 44, 97, 188, 163, 44,
  231, 229, 45, 143, 199, 105, 123, 143, 138, 148, 154, 185, 160, 67, 27, 70, 105, 17, 154, 249, 203,
  208, 108, 253, 135, 214, 207, 36, 222, 224, 207, 10, 46, 118, 81, 222, 154, 72, 242, 130, 142,
  190], rfl⟩

def recordedSha1 : List (Bytes × Vector UInt8 20) := [(recordedIv.toList, ⟨#[
  99, 48, 103, 179, 229, 24, 62, 183, 236, 220, 201, 69, 107, 47, 49, 201, 221, 240, 238, 217],
  rfl⟩)]

/-- Residues, with seven as the scalar that is drawn. -/
def residues : Sodium where
  init := 0
  scalarRandom := 7 :: List.replicate 31 0
  scalarReduce bytes := (BigEndian.fixed 32 (number bytes % order)).reverse
  scalarmultBase s := if number s % 11 = 0 then none else some (residue (number s))
  scalarmult s p := (residue? p).bind fun n =>
    if number s * n % 11 = 0 then none else some (residue (number s * n))
  add p q := (residue? p).bind fun n => (residue? q).map fun m => residue (n + m)
  sha512 data := (recordedSha512.lookup data).bind (toArray? 64)
  sha1 data := recordedSha1.lookup data

theorem residue_mod (n : ℕ) : residue (n % 11) = residue n := by
  unfold residue
  rw [Nat.mod_mod]

theorem residue_injective : ∀ n < 11, ∀ m < 11, residue n = residue m → n = m := by decide +kernel

theorem residue?_residue (n : ℕ) : residue? (residue n) = some (n % 11) := by
  have hsmall : ∀ m < 11, residue? (residue m) = some m := by decide +kernel
  rw [← residue_mod]
  exact hsmall _ (Nat.mod_lt n (by norm_num))

theorem residue?_eq_some {p : Bytes} {n : ℕ} (h : residue? p = some n) : n < 11 ∧ p = residue n := by
  refine ⟨List.mem_range.1 (List.mem_of_find?_eq_some h), ?_⟩
  have hsome := List.find?_some h
  exact (of_decide_eq_true hsome).symm

theorem residue_val_smul (k : ℕ) (P : ZMod 11) : residue (k • P).val = residue (k * P.val) := by
  rw [nsmul_eq_mul, ZMod.val_mul, ZMod.val_natCast, residue_mod, ← residue_mod (k * P.val),
    ← residue_mod (k % 11 * P.val), Nat.mod_mul_mod]

theorem smul_eq_zero_iff (k : ℕ) (P : ZMod 11) : k • P = 0 ↔ k * P.val % 11 = 0 := by
  rw [← ZMod.val_eq_zero, nsmul_eq_mul, ZMod.val_mul, ZMod.val_natCast, Nat.mod_mul_mod]

theorem documented_residues : residues.Documented (1 : ZMod 11) (fun P => residue P.val) number where
  injective P Q h := ZMod.val_injective 11
    (residue_injective _ (ZMod.val_lt P) _ (ZMod.val_lt Q) h)
  length P := rfl
  scalarmultBase s q := by
    have hone : (1 : ZMod 11).val = 1 := rfl
    show (if number s % 11 = 0 then none else some (residue (number s))) = some q ↔ _
    rw [residue_val_smul, Ne, smul_eq_zero_iff, hone, mul_one]
    split_ifs with hzero
    · simp [hzero]
    · simp [hzero, eq_comm]
  scalarmult s p q := by
    constructor
    · intro hrun
      obtain ⟨n, hn, hresult⟩ := Option.bind_eq_some_iff.1 hrun
      obtain ⟨hlt, rfl⟩ := residue?_eq_some hn
      have hval : (n : ZMod 11).val = n := ZMod.val_cast_of_lt hlt
      refine ⟨(n : ZMod 11), by rw [hval], ?_⟩
      rw [residue_val_smul, Ne, smul_eq_zero_iff, hval]
      split_ifs at hresult with hzero
      exact ⟨hzero, (Option.some.inj hresult).symm⟩
    · rintro ⟨P, rfl, hne, rfl⟩
      rw [Ne, smul_eq_zero_iff] at hne
      show (residue? (residue P.val)).bind _ = _
      rw [residue?_residue, Nat.mod_eq_of_lt (ZMod.val_lt P), Option.bind_some, if_neg hne,
        residue_val_smul]
  add P Q := by
    show (residue? (residue P.val)).bind _ = _
    rw [residue?_residue, Option.bind_some, residue?_residue, Option.map_some, ZMod.val_add,
      residue_mod, Nat.mod_eq_of_lt (ZMod.val_lt P), Nat.mod_eq_of_lt (ZMod.val_lt Q)]

end Sodium

/-- A license of two blocks, with the keys three and five. -/
def residueLicense : License where
  version := 1
  raw := []
  blocks := [
    { type := .ts3Server, publicKey := Sodium.residue 3, notValidBefore := 0, notValidAfter := 0,
       raw := 0 :: Sodium.residue 3 ++ [2] ++ List.replicate 13 0 ++ [97, 0] },
    { type := .ephemeral, publicKey := Sodium.residue 5, notValidBefore := 0, notValidAfter := 0,
       raw := 0 :: Sodium.residue 5 ++ [32] ++ List.replicate 8 0 }]

/-- What the client derives from it. -/
def residueMaterial : SessionMaterial where
  sharedIv := Sodium.recordedIv
  sharedMac := ⟨#[99, 48, 103, 179, 229, 24, 62, 183], rfl⟩
  clientPublicKey := Sodium.residue 7

/-- The signature of two ones. -/
def shortSignature : Bytes := [0x30, 0x06, 0x02, 0x01, 0x01, 0x02, 0x01, 0x01]

/-- A counter as the randomness of client and server. -/
def counter (n start : ℕ) : Vector UInt8 n := Vector.ofFn fun i => UInt8.ofNat (start + i)

/-- The `clientek` of the example. -/
def residueText : Bytes :=
  ascii "clientek ek=zQ3irtRjRVCafjz9j2iz3HVVsp3M7HPNGHUPmTgSQIc= proof=MAYCAQECAQE="

end TsCli
