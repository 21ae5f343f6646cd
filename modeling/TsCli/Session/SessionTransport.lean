import TsCli.Crypto.SessionCrypto
import TsCli.Packet.CommandFragmenter
import TsCli.Reliability.CommandReceiveWindow
import TsCli.Reliability.ReliableCommandQueue
import TsCli.Session.ConnectionStatistics
import TsCli.Session.VoiceWireCodec

/-!
# The session transport

The transport numbers, encrypts and sends the packets of a session, keeps commands until they are
acknowledged, and checks, acknowledges and orders what the server sends. A call that throws leaves
the state that it reached, and the session goes on from there (`step`).

The socket and the clock are an `Environment`: the n-th call of `Transport::Send` fails when it has
an error for it, and the n-th call of `Clock::now` returns its n-th time.
-/

namespace TsCli

open PacketLimits

/-- `PacketSequenceState`: `m_Outgoing` and `m_Incoming`. The transport asks only for the types
that have a sequence. -/
structure PacketSequenceState where
  outgoing : PacketType → PacketSequence := fun _ => { packetId := 1 }
  incoming : PacketType → PacketSequence := fun _ => { packetId := 1 }

namespace PacketSequenceState

/-- The sequences after an outgoing one is replaced. -/
def setOutgoing (type : PacketType) (sequence : PacketSequence) (sequences : PacketSequenceState) :
    PacketSequenceState :=
  { sequences with outgoing := Function.update sequences.outgoing type sequence }

/-- The sequences after an incoming one is replaced. -/
def setIncoming (type : PacketType) (sequence : PacketSequence) (sequences : PacketSequenceState) :
    PacketSequenceState :=
  { sequences with incoming := Function.update sequences.incoming type sequence }

end PacketSequenceState

/-- What the transport is given, and what happens to it. -/
structure Environment where
  crypto : SessionCrypto
  /-- The error of each call of `Transport::Send`, if it fails. -/
  sendErrors : ℕ → Option String
  clock : ℕ → TimePoint

/-- `SessionTransport::PendingPing`. -/
structure PendingPing where
  packetId : UInt16 := 0
  sentAt : TimePoint
  deriving DecidableEq, Repr

/-- `SessionTransport`, with what its transport and its clock have done: `sent` are the datagrams
for which `Transport::Send` returned, out of `attempts` calls. -/
structure SessionTransport where
  attempts : ℕ := 0
  sent : List Packet := []
  ticks : ℕ := 0
  sequences : PacketSequenceState := {}
  reliableCommands : ReliableCommandQueue := ∅
  statistics : ConnectionStatistics := {}
  clientId : UInt16 := 0
  connected : Bool := false
  lastReceiveAt : TimePoint := 0
  pendingPing : Option PendingPing := none
  firstCommandPacketId : Option UInt16 := none
  commandWindow : CommandReceiveWindow := {}
  commandLowWindow : CommandReceiveWindow := {}
  readyCommands : List Bytes := []
  readyVoice : List VoiceFrame := []

namespace SessionTransport

abbrev Session := EStateM Failure SessionTransport

def pingInterval : ℤ := 1000000000

variable (env : Environment)

/-! ## The environment -/

/-- `Clock::now`. -/
def now : Session TimePoint :=
  modifyGet fun t => (env.clock t.ticks, { t with ticks := t.ticks + 1 })

/-- `Transport::Send`. -/
def send (packet : Packet) : Session Unit := do
  let t ← get
  match env.sendErrors t.attempts with
  | some error =>
    set { t with attempts := t.attempts + 1 }
    throw (.runtimeError ("Failed to send UDP packet: " ++ error))
  | none => set { t with attempts := t.attempts + 1, sent := t.sent ++ [packet] }

/-! ## Parts of the state -/

/-- Work on an outgoing sequence. -/
def onOutgoing {α : Type} (type : PacketType) (m : EStateM Failure PacketSequence α) : Session α :=
  Exec.zoom (·.sequences.outgoing type)
    (fun sequence t => { t with sequences := t.sequences.setOutgoing type sequence }) m

/-- Work on an incoming sequence. -/
def onIncoming {α : Type} (type : PacketType) (m : EStateM Failure PacketSequence α) : Session α :=
  Exec.zoom (·.sequences.incoming type)
    (fun sequence t => { t with sequences := t.sequences.setIncoming type sequence }) m

/-- Work on the queue of reliable commands. -/
def onReliableCommands {α : Type} (m : EStateM Failure ReliableCommandQueue α) : Session α :=
  Exec.zoom (·.reliableCommands) (fun queue t => { t with reliableCommands := queue }) m

/-- `m_Statistics.RecordSent`. -/
def recordSent (type : PacketType) (packet : Packet) : Session Unit := do
  let time ← now env
  modify fun t => { t with
    statistics := t.statistics.recordSent type (packet.size + ipv4UdpOverhead) time }

/-- `m_Statistics.RecordRtt`. -/
def recordRtt (rtt : ℤ) : Session Unit :=
  modify fun t => { t with statistics := t.statistics.recordRtt rtt }

/-! ## Creating packets -/

/-- The position of the next packet of a type. -/
def positionOf (type : PacketType) (sequence : PacketSequence) : PacketPosition where
  type := type
  generationId := sequence.generationId
  packetId := sequence.packetId

/-- `SessionTransport::CreateEncryptedPacket`. -/
def createEncryptedPacket (clientId : UInt16) (type : PacketType) (flags : PacketFlags)
    (data : Bytes) (sequence : PacketSequence) : Except Failure Packet := do
  let header : ClientPacketHeader := { packetId := sequence.packetId, clientId, type, flags }
  let encrypted ← env.crypto.encryptClient type sequence.packetId sequence.generationId
    (writeClientMeta header) data
  return {
    data := writeClientHeader { header with mac := encrypted.mac } ++ encrypted.data
    position := positionOf type sequence
    encrypted := true }

/-- `SessionTransport::CreateUnencryptedPacket`. -/
def createUnencryptedPacket (clientId : UInt16) (type : PacketType) (flags : PacketFlags)
    (data : Bytes) (sequence : PacketSequence) : Packet where
  data := writeClientHeader {
    mac := env.crypto.sharedMac
    packetId := sequence.packetId
    clientId
    type
    flags := flags ||| PacketFlags.unencrypted } ++ data
  position := positionOf type sequence
  encrypted := false

/-- The packet at the current position of its type. -/
def createPacket (encrypted : Bool) (type : PacketType) (flags : PacketFlags) (data : Bytes) :
    Session Packet := do
  let t ← get
  let sequence := t.sequences.outgoing type
  if encrypted then
    Exec.lift (createEncryptedPacket env t.clientId type flags data sequence)
  else
    return createUnencryptedPacket env t.clientId type flags data sequence

/-! ## Sending -/

/-- The end of every function that sends: send, count, and advance the sequence. -/
def transmit (type : PacketType) (packet : Packet) : Session Unit := do
  send env packet
  recordSent env type packet
  onOutgoing type PacketSequence.advance

/-- `SendEncrypted` and `SendUnencrypted`. -/
def sendPacket (encrypted : Bool) (type : PacketType) (flags : PacketFlags) (data : Bytes) :
    Session Unit := do
  if maxClientPayload < data.length then
    throw (.runtimeError "TeamSpeak client packet payload is too large")
  else
    let packet ← createPacket env encrypted type flags data
    transmit env type packet

/-- `SessionTransport::SendEncrypted`. -/
def sendEncrypted := sendPacket env true

/-- `SessionTransport::SendUnencrypted`. -/
def sendUnencrypted := sendPacket env false

/-- `SessionTransport::SendCommandPacket`. -/
def sendCommandPacket (data : Bytes) (flags : PacketFlags) : Session UInt16 := do
  let t ← get
  let sequence := t.sequences.outgoing .command
  let packet ← createPacket env true .command flags data
  let time ← now env
  onReliableCommands (ReliableCommandQueue.add sequence.packetId sequence.generationId packet time)
  modify fun t => { t with
    firstCommandPacketId := some (t.firstCommandPacketId.getD sequence.packetId) }
  transmit env .command packet
  return sequence.packetId

/-- The loop of `SendCommand`; the result is the id of the last packet. -/
def sendFragments (data : Bytes) : UInt16 → List CommandFragment → Session UInt16
  | lastPacketId, [] => return lastPacketId
  | _, fragment :: fragments => do
    let packetId ← sendCommandPacket env ((data.drop fragment.offset).take fragment.size)
      fragment.flags
    sendFragments data packetId fragments

/-- `SessionTransport::SendCommand`. -/
def sendCommand (data : Bytes) : Session UInt16 := do
  let fragments ← Exec.lift (CommandFragmenter.plan data.length)
  sendFragments env data 0 fragments

/-- The three functions that send voice, given the payload for the current packet id. -/
def sendVoicePayload (type : PacketType) (payload : UInt16 → Except Failure Bytes)
    (flags : PacketFlags) (encrypted : Bool) : Session Unit := do
  let t ← get
  let data ← Exec.lift (payload (t.sequences.outgoing type).packetId)
  let packet ← createPacket env encrypted type flags data
  transmit env type packet

/-- `SessionTransport::SendVoice`. -/
def sendVoice (codec : VoiceCodec) (data : Bytes) (encrypted talkStart : Bool) : Session Unit :=
  sendVoicePayload env .voice (fun voiceId => VoiceWireCodec.encodeClient voiceId codec data)
    (if talkStart then .compressed else .none) encrypted

/-- `SessionTransport::SendVoiceWhisper`. -/
def sendVoiceWhisper (codec : VoiceCodec) (channelIds : List UInt64) (clientIds : List UInt16)
    (data : Bytes) (encrypted talkStart : Bool) : Session Unit :=
  sendVoicePayload env .voiceWhisper
    (fun voiceId => VoiceWireCodec.encodeClientWhisper voiceId codec channelIds clientIds data)
    (if talkStart then .compressed else .none) encrypted

/-- `SessionTransport::SendGroupWhisper`. -/
def sendGroupWhisper (codec : VoiceCodec) (type : GroupWhisperType) (target : GroupWhisperTarget)
    (targetId : UInt64) (data : Bytes) (encrypted talkStart : Bool) : Session Unit :=
  sendVoicePayload env .voiceWhisper
    (fun voiceId => VoiceWireCodec.encodeClientGroupWhisper voiceId codec type target targetId data)
    (if talkStart then PacketFlags.newProtocol ||| PacketFlags.compressed
      else PacketFlags.newProtocol) encrypted

/-- `SessionTransport::ConfirmCommand`. -/
def confirmCommand (packetId : UInt16) : Session Unit := do
  let _ ← onReliableCommands (ReliableCommandQueue.acknowledge packetId)

/-- `SessionTransport::SendPing`. -/
def sendPing (time : TimePoint) : Session Unit := do
  let t ← get
  let packetId := (t.sequences.outgoing .ping).packetId
  sendUnencrypted env .ping .none []
  modify fun t => { t with pendingPing := some { packetId, sentAt := time } }

/-- `SessionTransport::SendAck`. -/
def sendAck (packet : ServerPacket) (ackType : PacketType) : Session Unit :=
  sendEncrypted env ackType .none (BinaryWriter.writeU16 packet.header.packetId)

/-- `SessionTransport::SendPong`. -/
def sendPong (pingPacketId : UInt16) : Session Unit :=
  sendUnencrypted env .pong .none (BinaryWriter.writeU16 pingPacketId)

/-! ## Receiving -/

/-- The MAC of an unencrypted packet is the shared one. -/
def checkSharedMac (packet : ServerPacket) (message : String) : Except Failure Unit :=
  throwIf (packet.header.mac ≠ env.crypto.sharedMac) message

/-- The payload of a packet that may be unencrypted. -/
def openPacket (packet : ServerPacket) (generationId : UInt32) (message : String) :
    Except Failure Bytes :=
  if hasFlag packet.header.flags .unencrypted then do
    checkSharedMac env packet message
    return packet.data
  else
    env.crypto.decryptServer packet generationId

/-- `BinaryReader( data ).ReadU16()`. -/
def readPacketId (data : Bytes) : Except Failure UInt16 :=
  match BinaryReader.readU16 data with
  | .ok packetId _ => .ok packetId
  | .error failure _ => .error failure

/-- The packet id in the payload of an acknowledgement. -/
def openAck (packet : ServerPacket) (generationId : UInt32) (macMessage sizeMessage : String) :
    Except Failure UInt16 := do
  let plaintext ← openPacket env packet generationId macMessage
  throwIf (plaintext.length ≠ 2) sizeMessage
  readPacketId plaintext

/-- `m_Statistics.RecordRtt( Clock::now() - sentAt )`. -/
def recordRttSince (sentAt : TimePoint) : Session Unit := do
  let time ← now env
  recordRtt (time - sentAt)

/-- `SessionTransport::HandleAck`. -/
def handleAck (packet : ServerPacket) : Session Unit := do
  let t ← get
  let packetId := packet.header.packetId
  let generationId ← Exec.lift (resolveGeneration (t.sequences.incoming .ack) packetId)
  if generationId = 0 ∧ packetId = 1 then
    -- the first Ack after clientinit is not decrypted and retires the first command
    match t.firstCommandPacketId with
    | some firstCommandPacketId =>
      let _ ← onReliableCommands (ReliableCommandQueue.acknowledge firstCommandPacketId)
    | none => pure ()
    onIncoming .ack (PacketSequence.accept packetId generationId)
  else
    let acknowledgedPacketId ← Exec.lift (openAck env packet generationId
      "Invalid server Ack MAC" "Unexpected server Ack payload size")
    let acknowledgement ← onReliableCommands
      (ReliableCommandQueue.acknowledge acknowledgedPacketId)
    match acknowledgement with
    | some acknowledgement =>
      if !acknowledgement.retransmitted then
        recordRttSince env acknowledgement.firstSent
    | none => pure ()
    onIncoming .ack (PacketSequence.accept packetId generationId)

/-- `SessionTransport::HandleAckLow`. -/
def handleAckLow (packet : ServerPacket) : Session Unit := do
  let t ← get
  let packetId := packet.header.packetId
  let generationId ← Exec.lift (resolveGeneration (t.sequences.incoming .ackLow) packetId)
  let plaintext ← Exec.lift (openPacket env packet generationId "Invalid server AckLow MAC")
  if plaintext.length ≠ 2 then
    throw (.runtimeError "Unexpected server AckLow payload size")
  else
    onIncoming .ackLow (PacketSequence.accept packetId generationId)

/-- `SessionTransport::HandlePing`. -/
def handlePing (packet : ServerPacket) : Session Unit := do
  Exec.lift (throwIf (¬ hasFlag packet.header.flags .unencrypted) "Server Ping packet is encrypted")
  Exec.lift (checkSharedMac env packet "Invalid server Ping MAC")
  sendPong env packet.header.packetId

/-- `SessionTransport::HandlePong`. -/
def handlePong (packet : ServerPacket) : Session Unit := do
  Exec.lift (throwIf (¬ hasFlag packet.header.flags .unencrypted) "Server Pong packet is encrypted")
  Exec.lift (checkSharedMac env packet "Invalid server Pong MAC")
  Exec.lift (throwIf (packet.data.length ≠ 2) "Unexpected server Pong payload size")
  let pingPacketId ← Exec.lift (readPacketId packet.data)
  let t ← get
  match t.pendingPing with
  | some pendingPing =>
    if pendingPing.packetId = pingPacketId then
      recordRttSince env pendingPing.sentAt
      modify fun t => { t with pendingPing := none }
  | none => pure ()

/-- A command stream of the server: the type of its packets and of their acknowledgements, and
its window. -/
structure CommandStream where
  dataType : PacketType
  ackType : PacketType
  window : SessionTransport → CommandReceiveWindow
  setWindow : CommandReceiveWindow → SessionTransport → SessionTransport

/-- The stream that `HandleCommand` names. -/
def commandStream : CommandStream where
  dataType := .command
  ackType := .ack
  window t := t.commandWindow
  setWindow window t := { t with commandWindow := window }

/-- The stream that `HandleCommandLow` names. -/
def commandLowStream : CommandStream where
  dataType := .commandLow
  ackType := .ackLow
  window t := t.commandLowWindow
  setWindow window t := { t with commandLowWindow := window }

namespace CommandStream

/-- The receiver of the stream: its incoming sequence and its window. -/
def receiver (stream : CommandStream) (t : SessionTransport) : Receiver where
  expected := t.sequences.incoming stream.dataType
  window := stream.window t

/-- Write the receiver of the stream back. -/
def setReceiver (stream : CommandStream) (receiver : Receiver) (t : SessionTransport) :
    SessionTransport :=
  stream.setWindow receiver.window { t with
    sequences := t.sequences.setIncoming stream.dataType receiver.expected }

end CommandStream

/-- `SessionTransport::ProcessIncomingCommand`. -/
def processIncomingCommand (stream : CommandStream) (packet : ServerPacket) : Session Unit := do
  let t ← get
  let packetId := packet.header.packetId
  let generationId ← Exec.lift (resolveGeneration (t.sequences.incoming stream.dataType) packetId)
  let plaintext ← Exec.lift (env.crypto.decryptServer packet generationId)
  sendAck env packet stream.ackType
  let readyCommands ← Exec.zoom stream.receiver stream.setReceiver
    (Receiver.feed packetId generationId packet.header.flags plaintext)
  modify fun t => { t with readyCommands := t.readyCommands ++ readyCommands }

/-- `SessionTransport::HandleCommand`. -/
def handleCommand := processIncomingCommand env commandStream

/-- `SessionTransport::HandleCommandLow`. -/
def handleCommandLow := processIncomingCommand env commandLowStream

/-- `SessionTransport::HandleVoice`. -/
def handleVoice (packet : ServerPacket) : Session Unit := do
  let t ← get
  let type := packet.header.type
  let packetId := packet.header.packetId
  let generationId ← Exec.lift (resolveGeneration (t.sequences.incoming type) packetId)
  let plaintext ← Exec.lift (openPacket env packet generationId "Invalid unencrypted server Voice MAC")
  let frame ← Exec.lift (VoiceWireCodec.decodeServer plaintext packet.header.flags
    (type = .voiceWhisper))
  modify fun t => { t with readyVoice := t.readyVoice ++ [frame] }
  onIncoming type (PacketSequence.accept packetId generationId)

/-- The `switch` of `ProcessPacket`. A type that the enumeration does not name has no case. -/
def dispatch (packet : ServerPacket) : Session Unit :=
  match packet.header.type with
  | .ack => handleAck env packet
  | .ping => handlePing env packet
  | .pong => handlePong env packet
  | .command => handleCommand env packet
  | .voice => handleVoice env packet
  | .voiceWhisper => handleVoice env packet
  | .commandLow => handleCommandLow env packet
  | .ackLow => handleAckLow env packet
  | .init1 => throw (.runtimeError "Unexpected Init1 packet in established session")
  | .unnamed _ _ => pure ()

/-- `SessionTransport::ProcessPacket`, for the datagram that `Transport::Receive` returns. -/
def processPacket (datagram : Bytes) : Session Unit := do
  let packet ← Exec.lift (ServerPacket.parse datagram)
  dispatch env packet
  let time ← now env
  modify fun t => { t with
    statistics := t.statistics.recordReceived packet.header.type packet.header.packetId
      (serverHeaderSize + packet.data.length + ipv4UdpOverhead) time
    lastReceiveAt := if t.connected then time else t.lastReceiveAt }

/-! ## Timers -/

/-- The loop of `ProcessTimers` over the packets that are due. -/
def sendDue : List Packet → Session Unit
  | [] => return ()
  | packet :: packets => do
    send env packet
    recordSent env .command packet
    sendDue packets

/-- The part of `ProcessTimers` that keeps the connection alive. -/
def keepAlive (time : TimePoint) : Session Unit := do
  let t ← get
  if !t.connected ∨ t.reliableCommands.pending.size ≠ 0 then
    return ()
  else
    match t.pendingPing with
    | some pendingPing =>
      if pendingPing.sentAt < t.lastReceiveAt then
        set { t with pendingPing := none }
      else if pingInterval ≤ time - pendingPing.sentAt then
        set { t with pendingPing := none }
        sendPing env time
    | none =>
      if pingInterval ≤ time - t.lastReceiveAt then
        sendPing env time

/-- `SessionTransport::ProcessTimers`. -/
def processTimers : Session Unit := do
  let time ← now env
  let packets ← onReliableCommands (ReliableCommandQueue.collectDue time)
  sendDue env packets
  keepAlive env time

/-! ## The rest of the interface -/

/-- `SessionTransport::TakeReadyCommand`. -/
def takeReadyCommand : Session Bytes := do
  let t ← get
  match t.readyCommands with
  | [] => throw (.runtimeError "No session command is ready")
  | command :: commands =>
    set { t with readyCommands := commands }
    return command

/-- `SessionTransport::TakeReadyVoice`. -/
def takeReadyVoice : Session VoiceFrame := do
  let t ← get
  match t.readyVoice with
  | [] => throw (.runtimeError "No voice frame is ready")
  | frame :: frames =>
    set { t with readyVoice := frames }
    return frame

/-- `SessionTransport::SetClientId`. -/
def setClientId (clientId : UInt16) : Session Unit := do
  if clientId = 0 then
    throw (.runtimeError "Invalid TeamSpeak client ID")
  else
    modify fun t => { t with clientId }

/-- `SessionTransport::SetConnected`. -/
def setConnected : Session Unit := do
  let time ← now env
  modify fun t => { t with
    connected := true
    statistics := .reset time
    lastReceiveAt := time
    pendingPing := none }

/-! ## Runs -/

/-- A call of the interface. -/
inductive Operation
  | sendCommand (data : Bytes)
  | sendVoice (codec : VoiceCodec) (data : Bytes) (encrypted talkStart : Bool)
  | sendVoiceWhisper (codec : VoiceCodec) (channelIds : List UInt64) (clientIds : List UInt16)
      (data : Bytes) (encrypted talkStart : Bool)
  | sendGroupWhisper (codec : VoiceCodec) (type : GroupWhisperType) (target : GroupWhisperTarget)
      (targetId : UInt64) (data : Bytes) (encrypted talkStart : Bool)
  | confirmCommand (packetId : UInt16)
  | processPacket (datagram : Bytes)
  | processTimers
  | takeReadyCommand
  | takeReadyVoice
  | setClientId (clientId : UInt16)
  | setConnected

/-- The call, without its result. -/
def perform : Operation → Session Unit
  | .sendCommand data => do let _ ← sendCommand env data
  | .sendVoice codec data encrypted talkStart => sendVoice env codec data encrypted talkStart
  | .sendVoiceWhisper codec channelIds clientIds data encrypted talkStart =>
    sendVoiceWhisper env codec channelIds clientIds data encrypted talkStart
  | .sendGroupWhisper codec type target targetId data encrypted talkStart =>
    sendGroupWhisper env codec type target targetId data encrypted talkStart
  | .confirmCommand packetId => confirmCommand packetId
  | .processPacket datagram => processPacket env datagram
  | .processTimers => processTimers env
  | .takeReadyCommand => do let _ ← takeReadyCommand
  | .takeReadyVoice => do let _ ← takeReadyVoice
  | .setClientId clientId => setClientId clientId
  | .setConnected => setConnected env

/-- The state after a call, which may have thrown. -/
def step (t : SessionTransport) (operation : Operation) : SessionTransport :=
  Exec.final (perform env operation) t

/-- The state after a sequence of calls. -/
def run (t : SessionTransport) (operations : List Operation) : SessionTransport :=
  operations.foldl (step env) t

end SessionTransport

end TsCli
