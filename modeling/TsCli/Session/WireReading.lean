import TsCli.Crypto.AuthenticatedEncryption
import TsCli.Handshake.Handshake
import TsCli.Session.HeldPackets

/-!
# Reading what the client sends

A party that shares the secrets of a session reads the datagrams of the client: the header, the MAC,
and the payload, which is in the clear only under the flag `Unencrypted` and the shared MAC.
Whatever the transport does and whenever `Send` fails, such a party can read every datagram that
goes out, at the position that the transport gave it, and only voice, pings and pongs go out in the
clear (`sent_readable`).
-/

namespace TsCli

open Exec PacketLimits

/-- The header of a client packet, as another party reads it. -/
def readClientHeader : BinaryReader ClientPacketHeader := do
  let mac ← BinaryReader.readBytes 8
  let packetId ← BinaryReader.readU16
  let clientId ← BinaryReader.readU16
  let typeAndFlags ← BinaryReader.readU8
  return {
    mac
    packetId
    clientId
    type := .ofValue (typeAndFlags &&& 0x0f)
    flags := typeAndFlags &&& 0xf0 }

/-- A datagram of the client, as another party takes it apart. -/
def parseClient (datagram : Bytes) : Except Failure (ClientPacketHeader × Bytes) :=
  match readClientHeader datagram with
  | .ok header data => .ok (header, data)
  | .error failure _ => .error failure

namespace SessionCrypto

/-- The payload of a client packet of known generation. -/
def openClient (crypto : SessionCrypto) (generationId : UInt32) (header : ClientPacketHeader)
    (data : Bytes) : Except Failure Bytes :=
  if hasFlag header.flags .unencrypted then do
    throwIf (header.mac ≠ crypto.sharedMac) "Invalid client packet MAC"
    return data
  else
    crypto.decryptClient header generationId (writeClientMeta header) data

/-- The header and the payload of a datagram of the client, of known generation. -/
def readClient (crypto : SessionCrypto) (generationId : UInt32) (datagram : Bytes) :
    Except Failure (ClientPacketHeader × Bytes) := do
  let packet ← parseClient datagram
  let plaintext ← crypto.openClient generationId packet.1 packet.2
  return (packet.1, plaintext)

variable {crypto : SessionCrypto} {generationId : UInt32} {header : ClientPacketHeader}
  {datagram data plaintext : Bytes}

theorem openClient_of_plain (hflag : hasFlag header.flags .unencrypted = true)
    (hmac : header.mac = crypto.sharedMac) : crypto.openClient generationId header data = .ok data := by
  unfold openClient
  rw [if_pos hflag, throwIf_bind_of_not (not_not.2 hmac)]
  rfl

theorem openClient_of_encrypted (hflag : hasFlag header.flags .unencrypted = false) :
    crypto.openClient generationId header data =
      crypto.decryptClient header generationId (writeClientMeta header) data := by
  unfold openClient
  rw [hflag]
  rfl

theorem readClient_eq_ok (hparse : parseClient datagram = .ok (header, data))
    (hopen : crypto.openClient generationId header data = .ok plaintext) :
    crypto.readClient generationId datagram = .ok (header, plaintext) := by
  unfold readClient
  rw [hparse]
  change (crypto.openClient generationId header data >>= _) = _
  rw [hopen]
  rfl

end SessionCrypto

/-! ## The header -/

theorem value_and (type : PacketType) (h : type.Named) :
    type.value &&& 0x0f = type.value ∧ type.value &&& 0xf0 = 0 := by
  have hall : ∀ value : UInt8, value ≤ 8 → value &&& 0x0f = value ∧ value &&& 0xf0 = 0 :=
    forall_byte (by decide +kernel)
  exact hall _ h

theorem flags_and (flags : PacketFlags) (h : flags &&& 0x0f = 0) : flags &&& 0xf0 = flags := by
  have hall : ∀ flags : UInt8, flags &&& 0x0f = 0 → flags &&& 0xf0 = flags :=
    forall_byte (by decide +kernel)
  exact hall flags h

theorem or_and_distrib (a b mask : UInt8) : (a ||| b) &&& mask = a &&& mask ||| b &&& mask := by
  apply UInt8.toNat_inj.1
  simp only [UInt8.toNat_and, UInt8.toNat_or, Nat.and_or_distrib_right]

theorem readU16_writeU16 (value : UInt16) (rest : Bytes) :
    BinaryReader.readU16 (BinaryWriter.writeU16 value ++ rest) = .ok value rest := by
  have hvalue := BootstrapTransport.readPacketId_writeU16 value
  unfold SessionTransport.readPacketId at hvalue
  rw [BinaryReader.run_readU16 (by simp)] at hvalue
  rw [BinaryReader.run_readU16 (by simp)]
  exact congrArg (EStateM.Result.ok · rest) (Except.ok.inj hvalue)

/-- Another party reads the header that the client writes. -/
theorem readClientHeader_write {header : ClientPacketHeader} (hmac : header.mac.length = 8)
    (htype : header.type.Named) (hflags : header.flags &&& 0x0f = 0) (data : Bytes) :
    readClientHeader (writeClientHeader header ++ data) = .ok header data := by
  have hlow : (header.type.value ||| header.flags) &&& 0x0f = header.type.value := by
    rw [or_and_distrib, (value_and _ htype).1, hflags, UInt8.or_zero]
  have hhigh : (header.type.value ||| header.flags) &&& 0xf0 = header.flags := by
    rw [or_and_distrib, (value_and _ htype).2, flags_and _ hflags, UInt8.zero_or]
  have hbytes : BinaryReader.readBytes 8 (writeClientHeader header ++ data) =
      .ok header.mac (writeClientMeta header ++ data) := by
    rw [BinaryReader.run_readBytes (by simp [writeClientHeader, hmac]), writeClientHeader,
      List.append_assoc, List.take_left' hmac, List.drop_left' hmac]
  unfold readClientHeader
  rw [run_bind_of_ok _ hbytes, writeClientMeta, List.append_assoc, List.append_assoc,
    run_bind_of_ok _ (readU16_writeU16 ..), run_bind_of_ok _ (readU16_writeU16 ..),
    run_bind_of_ok _ (BinaryReader.run_readU8 (by simp)), run_pure]
  simp only [List.singleton_append, List.getD_cons_zero, List.drop_succ_cons, List.drop_zero]
  rw [hlow, hhigh, PacketType.ofValue_value]

theorem parseClient_write {header : ClientPacketHeader} (hmac : header.mac.length = 8)
    (htype : header.type.Named) (hflags : header.flags &&& 0x0f = 0) (data : Bytes) :
    parseClient (writeClientHeader header ++ data) = .ok (header, data) := by
  unfold parseClient
  rw [readClientHeader_write hmac htype hflags]

/-! ## New packets -/

namespace SessionTransport

variable {env : Environment} {encrypted : Bool} {type : PacketType} {flags : PacketFlags}
  {data : Bytes} {packet : Packet} {t : SessionTransport}

/-- What the transport puts under a header: a named type, and no flag but the four of the header,
of which `Unencrypted` is not the caller's. -/
structure Headed (type : PacketType) (flags : PacketFlags) : Prop where
  named : type.Named
  flags_low : flags &&& 0x0f = 0
  flags_unencrypted : hasFlag flags .unencrypted = false

theorem Kind.Used.headed {kind : Kind} (h : kind.Used) : Headed kind.type kind.flags := by
  cases h with
  | command h => rcases h with rfl | rfl <;> exact ⟨by decide, by decide, by decide⟩
  | @voice _ flags h =>
    change Headed .voice flags
    rcases h with rfl | rfl <;> exact ⟨by decide, by decide, by decide⟩
  | @voiceWhisper _ flags h =>
    change Headed .voiceWhisper flags
    simp only [List.mem_cons, List.not_mem_nil, or_false] at h
    rcases h with rfl | rfl | rfl | rfl <;> exact ⟨by decide, by decide, by decide⟩
  | ack => exact ⟨by decide, by decide, by decide⟩
  | ackLow => exact ⟨by decide, by decide, by decide⟩
  | ping => exact ⟨by decide, by decide, by decide⟩
  | pong => exact ⟨by decide, by decide, by decide⟩

/-- The flags of the header on the wire. -/
def wireFlags (encrypted : Bool) (flags : PacketFlags) : PacketFlags :=
  if encrypted then flags else flags ||| PacketFlags.unencrypted

theorem hasFlag_wireFlags (encrypted : Bool) (h : Headed type flags) :
    hasFlag (wireFlags encrypted flags) .unencrypted = !encrypted := by
  cases encrypted with
  | true => exact h.flags_unencrypted
  | false =>
    have hall : ∀ flags : UInt8, hasFlag (flags ||| PacketFlags.unencrypted) .unencrypted = true :=
      forall_byte (by decide +kernel)
    exact hall flags

/-- The packet reads as this header and this plaintext, at its own position. -/
structure Reads (crypto : SessionCrypto) (packet : Packet) (header : ClientPacketHeader)
    (plaintext : Bytes) : Prop where
  readClient : crypto.readClient packet.position.generationId packet.data = .ok (header, plaintext)
  packetId : header.packetId = packet.position.packetId
  type : header.type = packet.position.type
  unencrypted : hasFlag header.flags .unencrypted = !packet.encrypted

/-- A new packet reads as what it was made of. -/
theorem reads_of_createPacket (hcrypto : env.crypto.openSsl.Documented)
    (hmac : env.crypto.sharedMac.length = 8) (h : Headed type flags)
    (hmade : createPacket env encrypted type flags data t = .ok packet t) :
    ∃ header, Reads env.crypto packet header data ∧ header.flags = wireFlags encrypted flags ∧
      packet.position = positionOf type (t.sequences.outgoing type) := by
  cases encrypted with
  | false =>
    obtain rfl : createUnencryptedPacket env t.clientId type flags data
        (t.sequences.outgoing type) = packet := by
      cases hmade
      rfl
    let header : ClientPacketHeader :=
      { mac := env.crypto.sharedMac
        packetId := (t.sequences.outgoing type).packetId
        clientId := t.clientId
        type
        flags := wireFlags false flags }
    have hflags : header.flags &&& 0x0f = 0 := by
      change (flags ||| PacketFlags.unencrypted) &&& 0x0f = 0
      rw [or_and_distrib, h.flags_low]
      rfl
    have hplain : hasFlag header.flags .unencrypted = true := hasFlag_wireFlags false h
    exact ⟨header, ⟨SessionCrypto.readClient_eq_ok (parseClient_write hmac h.named hflags data)
      (SessionCrypto.openClient_of_plain hplain rfl), rfl, rfl, hplain⟩, rfl, rfl⟩
  | true =>
    cases hcreate : createEncryptedPacket env t.clientId type flags data
        (t.sequences.outgoing type) with
    | error failure =>
      change Exec.lift (createEncryptedPacket ..) t = _ at hmade
      rw [hcreate] at hmade
      cases hmade
    | ok made =>
      change Exec.lift (createEncryptedPacket ..) t = _ at hmade
      rw [hcreate] at hmade
      obtain rfl : made = packet := by cases hmade; rfl
      obtain ⟨encrypted, hencrypt, hpacket⟩ := bind_eq_ok hcreate
      obtain rfl := Except.ok.inj hpacket
      let header : ClientPacketHeader :=
        { mac := encrypted.mac
          packetId := (t.sequences.outgoing type).packetId
          clientId := t.clientId
          type
          flags }
      have hlength : header.mac.length = 8 :=
        (SessionCrypto.encryptClient_eq_ok hcrypto hencrypt).choose_spec.2.2.2
      have hopen : env.crypto.openClient (t.sequences.outgoing type).generationId header
          encrypted.data = .ok data := by
        rw [SessionCrypto.openClient_of_encrypted h.flags_unencrypted]
        exact SessionCrypto.decryptClient_encryptClient hcrypto hencrypt rfl
      exact ⟨header, ⟨SessionCrypto.readClient_eq_ok
        (parseClient_write hlength h.named h.flags_low encrypted.data) hopen, rfl, rfl,
        h.flags_unencrypted⟩, rfl, rfl⟩

/-- The packet can be read, and it is in the clear only if it is voice, a ping or a pong. -/
structure Readable (crypto : SessionCrypto) (packet : Packet) : Prop where
  reads : ∃ header plaintext, Reads crypto packet header plaintext
  clear : packet.encrypted = false →
    packet.position.type ∈ [PacketType.voice, .voiceWhisper, .ping, .pong]

theorem readable_of_made (hcrypto : env.crypto.openSsl.Documented)
    (hmac : env.crypto.sharedMac.length = 8) : New env (Readable env.crypto) := by
  intro kind hused data packet hmade
  obtain ⟨t, hmade⟩ := hmade
  obtain ⟨header, hreads, hflags, hposition⟩ := reads_of_createPacket hcrypto hmac hused.headed hmade
  refine ⟨⟨header, data, hreads⟩, fun hclear => ?_⟩
  have hflag : hasFlag header.flags .unencrypted = true := by rw [hreads.unencrypted, hclear]; rfl
  rw [hflags, hasFlag_wireFlags _ hused.headed] at hflag
  rw [hposition]
  cases hused with
  | command _ => cases hflag
  | voice _ => simp [positionOf]
  | voiceWhisper _ => simp [positionOf]
  | ack => cases hflag
  | ackLow => cases hflag
  | ping => simp [positionOf]
  | pong => simp [positionOf]

/-- **Readability.** Whatever the client does and whenever `Send` fails, a party with the secrets
reads every datagram that went out, at its position. -/
theorem sent_readable (env : Environment) (hcrypto : env.crypto.openSsl.Documented)
    (hmac : env.crypto.sharedMac.length = 8) (sequences : PacketSequenceState)
    (operations : List Operation) :
    ∀ packet ∈ (run env { sequences } operations).sent, Readable env.crypto packet :=
  (holds_run (readable_of_made hcrypto hmac) sequences operations).1

/-- The first call of `Send` fails, and the clock ticks every 600 ms. -/
def resendingEnvironment : Environment where
  crypto := { recordedCrypto with openSsl := .continued }
  sendErrors attempt := if attempt = 0 then some "Network is unreachable" else none
  clock ticks := 600000000 * ticks

/-- The command `a`, for which `Send` throws, goes out with the timers, and voice follows in the
clear. -/
def resendingRun : List Operation :=
  [.sendCommand [97], .processTimers, .sendVoice 4 [1] false false]

theorem sent_readable_resent :
    (run resendingEnvironment {} resendingRun).sent.map (·.position.type) = [.command, .voice] ∧
      ∀ packet ∈ (run resendingEnvironment {} resendingRun).sent,
        Readable resendingEnvironment.crypto packet :=
  ⟨by decide +kernel, sent_readable resendingEnvironment OpenSsl.documented_continued rfl {} _⟩

end SessionTransport

end TsCli
