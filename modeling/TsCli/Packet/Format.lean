import TsCli.Packet.Sequence

/-!
# The packet format

A client packet is a message authentication code of eight bytes, the packet id, the client id, a
byte of type and flags, and the payload. A server packet has no client id. Ids are big-endian.
-/

namespace TsCli

/-! ## Types, flags and limits -/

/-- `PacketType`. The type travels in four bits, of which the enumeration names nine values. -/
inductive PacketType
  | voice
  | voiceWhisper
  | command
  | commandLow
  | ping
  | pong
  | ack
  | ackLow
  | init1
  /-- A value that the enumeration does not name. -/
  | unnamed (value : UInt8) (h : 9 ≤ value)
  deriving DecidableEq, Repr

namespace PacketType

/-- `static_cast<std::uint8_t>( type )`. -/
def value : PacketType → UInt8
  | voice => 0x00
  | voiceWhisper => 0x01
  | command => 0x02
  | commandLow => 0x03
  | ping => 0x04
  | pong => 0x05
  | ack => 0x06
  | ackLow => 0x07
  | init1 => 0x08
  | unnamed value _ => value

/-- `static_cast<PacketType>( value )`. -/
def ofValue (value : UInt8) : PacketType :=
  if value = 0x00 then voice
  else if value = 0x01 then voiceWhisper
  else if value = 0x02 then command
  else if value = 0x03 then commandLow
  else if value = 0x04 then ping
  else if value = 0x05 then pong
  else if value = 0x06 then ack
  else if value = 0x07 then ackLow
  else if h : 9 ≤ value then unnamed value h
  else init1

/-- The enumeration names this type. -/
def Named (type : PacketType) : Prop := type.value ≤ 8

instance (type : PacketType) : Decidable type.Named := inferInstanceAs (Decidable (_ ≤ _))

theorem ofValue_value (type : PacketType) : ofValue type.value = type := by
  cases type with
  | unnamed value h =>
    have hne : ∀ v : UInt8, v < 9 → value ≠ v := fun v hv e => by
      subst e; exact absurd h (UInt8.not_le.2 hv)
    unfold ofValue PacketType.value
    rw [if_neg (hne _ (by decide)), if_neg (hne _ (by decide)), if_neg (hne _ (by decide)),
      if_neg (hne _ (by decide)), if_neg (hne _ (by decide)), if_neg (hne _ (by decide)),
      if_neg (hne _ (by decide)), if_neg (hne _ (by decide)), dif_pos h]
  | _ => rfl

end PacketType

/-- `PacketFlags`: the upper half of the byte that carries type and flags. -/
abbrev PacketFlags := UInt8

namespace PacketFlags

def none : PacketFlags := 0x00
def fragmented : PacketFlags := 0x10
def newProtocol : PacketFlags := 0x20
def compressed : PacketFlags := 0x40
def unencrypted : PacketFlags := 0x80

end PacketFlags

/-- `HasFlag`. -/
def hasFlag (value flag : PacketFlags) : Bool := value &&& flag != 0

namespace PacketLimits

def maxDatagramSize : ℕ := 500
def clientHeaderSize : ℕ := 13
def serverHeaderSize : ℕ := 11
def maxClientPayload : ℕ := maxDatagramSize - clientHeaderSize
def maxServerPayload : ℕ := maxDatagramSize - serverHeaderSize
def maxCommandSize : ℕ := 64 * 1024
def udpHeaderSize : ℕ := 8
def ipv4HeaderSize : ℕ := 20
def ipv4UdpOverhead : ℕ := udpHeaderSize + ipv4HeaderSize

example : maxClientPayload = 487 ∧ maxServerPayload = 489 := by decide

end PacketLimits

/-! ## Reading and writing binary data -/

/-- A `BinaryReader`; the state is what remains to be read. -/
abbrev BinaryReader := EStateM Failure Bytes

namespace BinaryReader

/-- `BinaryReader::ReadBytes`. -/
def readBytes (count : ℕ) : BinaryReader Bytes := do
  let data ← get
  if data.length < count then
    throw (.runtimeError "BinaryReader exceeds buffer")
  set (data.drop count)
  return data.take count

/-- `BinaryReader::ReadU8`. -/
def readU8 : BinaryReader UInt8 := do
  let bytes ← readBytes 1
  return bytes.getD 0 0

/-- `BinaryReader::ReadU16`. -/
def readU16 : BinaryReader UInt16 := do
  let bytes ← readBytes 2
  return (bytes.getD 0 0).toUInt16 <<< 8 ||| (bytes.getD 1 0).toUInt16

theorem run_readBytes {count : ℕ} {data : Bytes} (h : count ≤ data.length) :
    readBytes count data = .ok (data.take count) (data.drop count) := by
  unfold readBytes
  rw [Exec.run_get_bind, Exec.run_ite, if_neg (not_lt.2 h)]
  rfl

theorem run_readU8 {data : Bytes} (h : 1 ≤ data.length) :
    readU8 data = .ok (data.getD 0 0) (data.drop 1) := by
  unfold readU8
  rw [Exec.run_bind_of_ok _ (run_readBytes h), Exec.run_pure, List.getD_eq_getElem?_getD,
    List.getElem?_take_of_lt one_pos, ← List.getD_eq_getElem?_getD]

theorem run_readU16 {data : Bytes} (h : 2 ≤ data.length) :
    readU16 data = .ok ((data.getD 0 0).toUInt16 <<< 8 ||| (data.getD 1 0).toUInt16)
      (data.drop 2) := by
  unfold readU16
  rw [Exec.run_bind_of_ok _ (run_readBytes h), Exec.run_pure]
  simp only [List.getD_eq_getElem?_getD]
  rw [List.getElem?_take_of_lt two_pos, List.getElem?_take_of_lt one_lt_two]

end BinaryReader

namespace BinaryWriter

/-- The bytes of `BinaryWriter::WriteU16`. -/
def writeU16 (value : UInt16) : Bytes := [((value >>> 8) &&& 0xff).toUInt8, (value &&& 0xff).toUInt8]

/-- The bytes of `BinaryWriter::WriteU32`. -/
def writeU32 (value : UInt32) : Bytes :=
  [((value >>> 24) &&& 0xff).toUInt8, ((value >>> 16) &&& 0xff).toUInt8,
    ((value >>> 8) &&& 0xff).toUInt8, (value &&& 0xff).toUInt8]

/-- The bytes of `BinaryWriter::WriteU64`. -/
def writeU64 (value : UInt64) : Bytes :=
  [((value >>> 56) &&& 0xff).toUInt8, ((value >>> 48) &&& 0xff).toUInt8,
    ((value >>> 40) &&& 0xff).toUInt8, ((value >>> 32) &&& 0xff).toUInt8,
    ((value >>> 24) &&& 0xff).toUInt8, ((value >>> 16) &&& 0xff).toUInt8,
    ((value >>> 8) &&& 0xff).toUInt8, (value &&& 0xff).toUInt8]

end BinaryWriter

/-! ## Client packets -/

/-- `ClientPacketHeader`. -/
structure ClientPacketHeader where
  mac : Bytes := List.replicate 8 0
  packetId : UInt16 := 0
  clientId : UInt16 := 0
  type : PacketType := .command
  flags : PacketFlags := .none
  deriving DecidableEq, Repr

/-- `PacketCodec::WriteClientMeta`. -/
def writeClientMeta (header : ClientPacketHeader) : Bytes :=
  BinaryWriter.writeU16 header.packetId ++ BinaryWriter.writeU16 header.clientId ++
    [header.type.value ||| header.flags]

/-- `PacketCodec::WriteClientHeader`. -/
def writeClientHeader (header : ClientPacketHeader) : Bytes :=
  header.mac ++ writeClientMeta header

@[simp] theorem length_writeU16 (value : UInt16) : (BinaryWriter.writeU16 value).length = 2 := rfl

/-! ## Server packets -/

/-- `ServerPacketHeader`. -/
structure ServerPacketHeader where
  mac : Bytes := List.replicate 8 0
  packetId : UInt16 := 0
  type : PacketType := .command
  flags : PacketFlags := .none
  deriving DecidableEq, Repr

/-- `PacketCodec::ReadServerHeader`. -/
def readServerHeader : BinaryReader ServerPacketHeader := do
  let mac ← BinaryReader.readBytes 8
  let packetId ← BinaryReader.readU16
  let typeAndFlags ← BinaryReader.readU8
  return {
    mac
    packetId
    type := .ofValue (typeAndFlags &&& 0x0f)
    flags := typeAndFlags &&& 0xf0 }

/-- `ServerPacket`. `metaData` is `m_Meta`: the bytes of id, type and flags as received. -/
structure ServerPacket where
  header : ServerPacketHeader := {}
  metaData : Bytes := List.replicate 3 0
  data : Bytes := []
  deriving DecidableEq, Repr

/-- `ServerPacket::Parse`. -/
def ServerPacket.parse (packet : Bytes) : Except Failure ServerPacket :=
  if packet.length < 11 then
    .error (.runtimeError "Server packet is too small")
  else
    match readServerHeader packet with
    | .ok header rest => .ok { header, metaData := (packet.drop 8).take 3, data := rest }
    | .error failure _ => .error failure

/-- Every datagram of at least the header's size parses. -/
theorem ServerPacket.parse_eq {packet : Bytes} (h : 11 ≤ packet.length) :
    ServerPacket.parse packet = .ok {
      header := {
        mac := packet.take 8
        packetId := (packet.getD 8 0).toUInt16 <<< 8 ||| (packet.getD 9 0).toUInt16
        type := .ofValue (packet.getD 10 0 &&& 0x0f)
        flags := packet.getD 10 0 &&& 0xf0 }
      metaData := (packet.drop 8).take 3
      data := packet.drop 11 } := by
  have hread : readServerHeader packet = .ok {
      mac := packet.take 8
      packetId := (packet.getD 8 0).toUInt16 <<< 8 ||| (packet.getD 9 0).toUInt16
      type := .ofValue (packet.getD 10 0 &&& 0x0f)
      flags := packet.getD 10 0 &&& 0xf0 } (packet.drop 11) := by
    unfold readServerHeader
    rw [Exec.run_bind_of_ok _ (BinaryReader.run_readBytes (by omega)),
      Exec.run_bind_of_ok _ (BinaryReader.run_readU16 (by rw [List.length_drop]; omega)),
      List.drop_drop, Exec.run_bind_of_ok _ (BinaryReader.run_readU8 (by rw [List.length_drop]; omega)),
      List.drop_drop, Exec.run_pure]
    simp only [List.getD_eq_getElem?_getD, List.getElem?_drop]
  unfold ServerPacket.parse
  rw [if_neg (by omega), hread]

theorem ServerPacket.parse_of_short {packet : Bytes} (h : packet.length < 11) :
    ServerPacket.parse packet = .error (.runtimeError "Server packet is too small") := if_pos h

end TsCli
