import TsCli.Crypto.BootstrapCrypto
import TsCli.Lib.OrderedMap
import TsCli.Session.SessionTransport

/-!
# The transport of the handshake

Between the Init1 exchange and the session, commands and acknowledgements travel under the fixed
bootstrap key. `ReceiveCommand` reassembles the server's first command from fragments that arrive
in any order, acknowledging each datagram; `ReceiveAck` waits for the acknowledgement of
`clientek`. The datagrams that are still to be received are a list of the state: `Receive` takes
its head, and times out when there is none.
-/

namespace TsCli

/-- What the transport of the handshake is given. -/
structure BootstrapEnvironment where
  openSsl : OpenSsl
  /-- The error of each call of `Transport::Send`, if it fails. -/
  sendErrors : ℕ → Option String

/-- The constructor's sequences. -/
def bootstrapSequences : PacketSequenceState :=
  PacketSequenceState.setIncoming .ack { packetId := 0 } <|
    PacketSequenceState.setIncoming .command { packetId := 0 } <|
    PacketSequenceState.setOutgoing .ack { packetId := 0 } <|
    PacketSequenceState.setOutgoing .command { packetId := 1 } {}

/-- `BootstrapTransport`, with what its transport has done and what it will receive. -/
structure BootstrapTransport where
  attempts : ℕ := 0
  sent : List Bytes := []
  inbox : List Bytes := []
  sequences : PacketSequenceState := bootstrapSequences

namespace BootstrapTransport

abbrev Bootstrap := EStateM Failure BootstrapTransport

def maxFragments : ℕ := 64
def maxCommandSize : ℕ := 64 * 1024
def maxClientPacketData : ℕ := 487

variable (env : BootstrapEnvironment)

/-! ## The transport below -/

/-- `Transport::Send`. -/
def send (datagram : Bytes) : Bootstrap Unit := do
  let t ← get
  match env.sendErrors t.attempts with
  | some error =>
    set { t with attempts := t.attempts + 1 }
    throw (.runtimeError ("Failed to send UDP packet: " ++ error))
  | none => set { t with attempts := t.attempts + 1, sent := t.sent ++ [datagram] }

/-- `Transport::Receive`. -/
def receive : Bootstrap Bytes := do
  let t ← get
  match t.inbox with
  | [] => throw (.runtimeError "Receive timed out")
  | datagram :: inbox =>
    set { t with inbox }
    return datagram

/-- Work on an outgoing sequence. -/
def onOutgoing {α : Type} (type : PacketType) (m : EStateM Failure PacketSequence α) :
    Bootstrap α :=
  Exec.zoom (·.sequences.outgoing type)
    (fun sequence t => { t with sequences := t.sequences.setOutgoing type sequence }) m

/-- Work on an incoming sequence. -/
def onIncoming {α : Type} (type : PacketType) (m : EStateM Failure PacketSequence α) :
    Bootstrap α :=
  Exec.zoom (·.sequences.incoming type)
    (fun sequence t => { t with sequences := t.sequences.setIncoming type sequence }) m

/-! ## Sending -/

/-- The datagram of `SendEncrypted`. -/
def encryptedDatagram (type : PacketType) (flags : PacketFlags) (packetId : UInt16) (data : Bytes) :
    Except Failure Bytes := do
  let header : ClientPacketHeader := { packetId, clientId := 0, type, flags }
  let encrypted ← BootstrapCrypto.encrypt env.openSsl (writeClientMeta header) data
  return writeClientHeader { header with mac := encrypted.mac } ++ encrypted.data

/-- `BootstrapTransport::SendEncrypted`. -/
def sendEncrypted (type : PacketType) (flags : PacketFlags) (data : Bytes) : Bootstrap Unit := do
  let t ← get
  let datagram ← Exec.lift
    (encryptedDatagram env type flags (t.sequences.outgoing type).packetId data)
  send env datagram
  onOutgoing type PacketSequence.advance

/-- `BootstrapTransport::SendAck`. -/
def sendAck (packet : ServerPacket) : Bootstrap Unit :=
  sendEncrypted env .ack .none (BinaryWriter.writeU16 packet.header.packetId)

/-- `BootstrapTransport::SendCommand`. -/
def sendCommand (data : Bytes) : Bootstrap UInt16 := do
  Exec.lift (throwIf (maxClientPacketData < data.length) "Bootstrap client command is too large")
  let t ← get
  let packetId := (t.sequences.outgoing .command).packetId
  sendEncrypted env .command .newProtocol data
  return packetId

/-! ## Receiving -/

/-- `BootstrapTransport::ReceivePacket`. -/
def receivePacket : Bootstrap ServerPacket := do
  let datagram ← receive
  Exec.lift (ServerPacket.parse datagram)

/-- What `ReceiveAck` does with the packet that it received. -/
def acceptAck (expectedCommandPacketId : UInt16) (packet : ServerPacket) : Bootstrap Unit := do
  Exec.lift (throwIf (packet.header.type ≠ .ack) "Expected bootstrap Ack packet")
  let t ← get
  Exec.lift (throwIf (packet.header.packetId ≠ (t.sequences.incoming .ack).packetId)
    "Unexpected bootstrap Ack sequence")
  let plaintext ← Exec.lift (BootstrapCrypto.decrypt env.openSsl packet)
  Exec.lift (throwIf (plaintext.length ≠ 2) "Unexpected bootstrap Ack payload size")
  let acknowledged ← Exec.lift (SessionTransport.readPacketId plaintext)
  Exec.lift (throwIf (acknowledged ≠ expectedCommandPacketId) "Unexpected bootstrap Ack packet ID")
  onIncoming .ack PacketSequence.advance

/-- `BootstrapTransport::ReceiveAck`. -/
def receiveAck (expectedCommandPacketId : UInt16) : Bootstrap Unit := do
  let packet ← receivePacket
  acceptAck env expectedCommandPacketId packet

/-- `Fragment`. -/
structure Fragment where
  flags : PacketFlags
  data : Bytes
  deriving DecidableEq, Repr

/-- The fragments received so far, by packet id. -/
abbrev Fragments := OrderedMap ℕ Fragment

/-- The loop over `lastId`: the end of the run of fragments behind the first one, if it is there. -/
def lastFragment? (fragments : Fragments) : ℕ → ℕ → Option ℕ
  | 0, _ => none
  | fuel + 1, lastId =>
    match fragments.find? lastId with
    | none => none
    | some current =>
      if !hasFlag current.flags .fragmented then lastFragment? fragments fuel (lastId + 1)
      else some lastId

/-- The loop over `id`: the data of the fragments one behind the other. -/
def joinFragments (fragments : Fragments) : List ℕ → Except Failure Bytes
  | [] => .ok []
  | id :: ids =>
    match fragments.find? id with
    | none => .error (.runtimeError "Missing bootstrap command fragment")
    | some fragment => do
      let data ← joinFragments fragments ids
      return fragment.data ++ data

/-- What `ReceiveCommand` does with the fragments when `packetId` has joined them: the id of the
last packet of the command and its data, once it is complete. -/
def completed? (fragments : Fragments) (packetId : ℕ) : Except Failure (Option (ℕ × Bytes)) :=
  match fragments.find? 0 with
  | none => .ok none
  | some first => do
    throwIf (hasFlag first.flags .compressed) "Compressed bootstrap commands are not supported"
    if !hasFlag first.flags .fragmented then return some (packetId, first.data)
    else match lastFragment? fragments (maxFragments - 1) 1 with
      | none => return none
      | some lastId => do
        let data ← joinFragments fragments (List.range (lastId + 1))
        return some (lastId, data)

/-- What a pass of `ReceiveCommand` ends with: more fragments to wait for, or the command. -/
inductive Reassembly
  | waiting (fragments : Fragments) (totalSize : ℕ)
  | command (lastId : ℕ) (data : Bytes)

/-- `ReceiveCommand` behind the acknowledgement of a packet. -/
def addFragment (fragments : Fragments) (totalSize : ℕ) (packet : ServerPacket)
    (plaintext : Bytes) : Except Failure Reassembly := do
  let packetId := packet.header.packetId.toNat
  if fragments.contains packetId then return .waiting fragments totalSize
  else
    throwIf (maxFragments ≤ fragments.size) "Too many bootstrap command fragments"
    throwIf (maxCommandSize - totalSize < plaintext.length) "Bootstrap command is too large"
    let totalSize := totalSize + plaintext.length
    let fragments := fragments.insert packetId { flags := packet.header.flags, data := plaintext }
    match ← completed? fragments packetId with
    | none => return .waiting fragments totalSize
    | some (lastId, data) => return .command lastId data

/-- One pass of the loop of `ReceiveCommand`; it takes a datagram. -/
def receivePass (fragments : Fragments) (totalSize : ℕ) : Bootstrap Reassembly := do
  let packet ← receivePacket
  Exec.lift (throwIf (packet.header.type ≠ .command) "Expected bootstrap Command packet")
  let plaintext ← Exec.lift (BootstrapCrypto.decrypt env.openSsl packet)
  sendAck env packet
  Exec.lift (addFragment fragments totalSize packet plaintext)

/-- The incoming commands go on behind `lastId`. -/
def continueBehind (lastId : ℕ) : Bootstrap Unit :=
  onIncoming .command do
    modify fun sequence => { sequence with packetId := UInt16.ofNat lastId }
    PacketSequence.advance

/-- The loop of `ReceiveCommand`. -/
def receiveLoop : ℕ → Fragments → ℕ → Bootstrap Bytes
  | 0, _, _ => throw .outOfFuel
  | fuel + 1, fragments, totalSize => do
    match ← receivePass env fragments totalSize with
    | .waiting fragments totalSize => receiveLoop fuel fragments totalSize
    | .command lastId data =>
      continueBehind lastId
      return data

/-- `BootstrapTransport::ReceiveCommand`. The pass behind the last datagram times out, so the
budget is never used up. -/
def receiveCommand : Bootstrap Bytes := do
  let t ← get
  receiveLoop env (t.inbox.length + 1) ∅ 0

variable {env}

theorem receiveLoop_of_waiting {fragments fragments' : Fragments} {totalSize totalSize' : ℕ}
    {t u : BootstrapTransport}
    (h : receivePass env fragments totalSize t = .ok (.waiting fragments' totalSize') u)
    (fuel : ℕ) :
    receiveLoop env (fuel + 1) fragments totalSize t = receiveLoop env fuel fragments' totalSize' u :=
  Exec.run_bind_of_ok t h

theorem receiveLoop_of_command {fragments : Fragments} {totalSize lastId : ℕ} {data : Bytes}
    {t u v : BootstrapTransport}
    (h : receivePass env fragments totalSize t = .ok (.command lastId data) u)
    (hbehind : continueBehind lastId u = .ok () v) (fuel : ℕ) :
    receiveLoop env (fuel + 1) fragments totalSize t = .ok data v := by
  unfold receiveLoop
  rw [Exec.run_bind_of_ok _ h]
  exact Exec.run_bind_of_ok _ hbehind

theorem receiveLoop_of_error {fragments : Fragments} {totalSize : ℕ} {failure : Failure}
    {t u : BootstrapTransport} (h : receivePass env fragments totalSize t = .error failure u)
    (fuel : ℕ) : receiveLoop env (fuel + 1) fragments totalSize t = .error failure u :=
  Exec.run_bind_of_error t h

end BootstrapTransport

end TsCli
