import TsCli.Session.TransportRules

/-!
# The two command streams

Only a Command packet moves the Command stream, and only a CommandLow packet the CommandLow stream:
every other call leaves the sequence and the window of a stream as they are (`sameStreams_step`),
and the packets of one stream do not touch the other (`receiver_of_other`).
-/

namespace TsCli.SessionTransport

open Exec PacketLimits

/-- The two streams of the server. -/
def IsStream (stream : CommandStream) : Prop := stream = commandStream ∨ stream = commandLowStream

/-- Neither stream has moved. -/
structure SameStreams (t t' : SessionTransport) : Prop where
  command : commandStream.receiver t' = commandStream.receiver t
  commandLow : commandLowStream.receiver t' = commandLowStream.receiver t

namespace SameStreams

theorem refl (t : SessionTransport) : SameStreams t t := ⟨rfl, rfl⟩

theorem trans (a b c : SessionTransport) (h : SameStreams a b) (h' : SameStreams b c) :
    SameStreams a c :=
  ⟨h'.command.trans h.command, h'.commandLow.trans h.commandLow⟩

theorem receiver_eq {t t' : SessionTransport} (h : SameStreams t t') {stream : CommandStream}
    (hstream : IsStream stream) : stream.receiver t' = stream.receiver t := by
  obtain rfl | rfl := hstream
  · exact h.command
  · exact h.commandLow

theorem of_transmitted {t t' : SessionTransport} {packet : Packet} (h : Transmitted t t' packet) :
    SameStreams t t' := by
  constructor
  · unfold CommandStream.receiver
    rw [h.incoming]
    exact congrArg _ h.commandWindow
  · unfold CommandStream.receiver
    rw [h.incoming]
    exact congrArg _ h.commandLowWindow

end SameStreams

section Frame

variable {env : Environment}

/-! ## Sending -/

theorem sameStreams_send (packet : Packet) : Moves SameStreams (send env packet) := by
  refine ⟨fun t => ?_⟩
  rw [wp_send]
  cases env.sendErrors t.attempts <;> exact ⟨rfl, rfl⟩

theorem sameStreams_recordSent (type : PacketType) (packet : Packet) :
    Moves SameStreams (recordSent env type packet) :=
  .bind .trans (.modifyGet fun _ => ⟨rfl, rfl⟩) fun _ => .modify fun _ => ⟨rfl, rfl⟩

theorem sameStreams_transmit (type : PacketType) (packet : Packet) :
    Moves SameStreams (transmit env type packet) :=
  .bind .trans (sameStreams_send packet) fun _ =>
    .bind .trans (sameStreams_recordSent type packet) fun _ => .zoom (fun _ _ => ⟨rfl, rfl⟩) _

theorem sameStreams_createPacket (encrypted : Bool) (type : PacketType) (flags : PacketFlags)
    (data : Bytes) : Moves SameStreams (createPacket env encrypted type flags data) :=
  .bind .trans (.get .refl) fun _ => .ite _ (.lift .refl _) (.pure .refl _)

theorem sameStreams_sendPacket (encrypted : Bool) (type : PacketType) (flags : PacketFlags)
    (data : Bytes) : Moves SameStreams (sendPacket env encrypted type flags data) :=
  .ite _ (.throw .refl _) (.bind .trans (sameStreams_createPacket _ _ _ _) fun _ =>
    sameStreams_transmit _ _)

theorem sameStreams_sendVoicePayload (type : PacketType) (payload : UInt16 → Except Failure Bytes)
    (flags : PacketFlags) (encrypted : Bool) :
    Moves SameStreams (sendVoicePayload env type payload flags encrypted) :=
  .bind .trans (.get .refl) fun _ => .bind .trans (.lift .refl _) fun _ =>
    .bind .trans (sameStreams_createPacket _ _ _ _) fun _ => sameStreams_transmit _ _

theorem sameStreams_onReliableCommands {α : Type} (m : EStateM Failure ReliableCommandQueue α) :
    Moves SameStreams (onReliableCommands m) := .zoom (fun _ _ => ⟨rfl, rfl⟩) m

theorem sameStreams_sendCommandPacket (data : Bytes) (flags : PacketFlags) :
    Moves SameStreams (sendCommandPacket env data flags) :=
  .bind .trans (.get .refl) fun _ => .bind .trans (sameStreams_createPacket _ _ _ _) fun _ =>
    .bind .trans (.modifyGet fun _ => ⟨rfl, rfl⟩) fun _ =>
      .bind .trans (sameStreams_onReliableCommands _) fun _ =>
        .bind .trans (.modify fun _ => ⟨rfl, rfl⟩) fun _ =>
          .bind .trans (sameStreams_transmit _ _) fun _ => .pure .refl _

theorem sameStreams_sendFragments (data : Bytes) : ∀ (fragments : List CommandFragment)
    (lastPacketId : UInt16), Moves SameStreams (sendFragments env data lastPacketId fragments)
  | [], _ => .pure .refl _
  | _ :: fragments, _ => .bind .trans (sameStreams_sendCommandPacket _ _)
      fun packetId => sameStreams_sendFragments data fragments packetId

theorem sameStreams_sendPing (time : TimePoint) : Moves SameStreams (sendPing env time) :=
  .bind .trans (.get .refl) fun _ => .bind .trans (sameStreams_sendPacket _ _ _ _) fun _ =>
    .modify fun _ => ⟨rfl, rfl⟩

/-! ## Timers -/

theorem sameStreams_sendDue : ∀ packets : List Packet, Moves SameStreams (sendDue env packets)
  | [] => .pure .refl _
  | packet :: packets => .bind .trans (sameStreams_send packet) fun _ =>
      .bind .trans (sameStreams_recordSent _ packet) fun _ => sameStreams_sendDue packets

theorem sameStreams_keepAlive (time : TimePoint) : Moves SameStreams (keepAlive env time) := by
  refine ⟨fun t => ?_⟩
  have hping : Moves SameStreams (sendPing env time) := sameStreams_sendPing time
  unfold keepAlive
  rw [wp_bind, wp_get, wp_ite]
  refine ⟨fun _ => .refl t, fun _ => ?_⟩
  cases t.pendingPing with
  | none => exact (Moves.ite _ hping (.pure .refl _)).apply t
  | some pendingPing =>
    dsimp only
    rw [wp_ite, wp_ite]
    refine ⟨fun _ => ⟨rfl, rfl⟩, fun _ => ⟨fun _ => ?_, fun _ => .refl t⟩⟩
    rw [wp_bind, wp_set]
    exact wp_mono (hping.apply { t with pendingPing := none })
      (fun _ _ h => ⟨h.command, h.commandLow⟩) fun _ _ h => ⟨h.command, h.commandLow⟩

theorem sameStreams_processTimers : Moves SameStreams (processTimers env) :=
  .bind .trans (.modifyGet fun _ => ⟨rfl, rfl⟩) fun time =>
    .bind .trans (sameStreams_onReliableCommands _) fun packets =>
      .bind .trans (sameStreams_sendDue packets) fun _ => sameStreams_keepAlive time

/-! ## The other packets -/

theorem sameStreams_onIncoming {α : Type} {type : PacketType} (hcommand : type ≠ .command)
    (hlow : type ≠ .commandLow) (m : EStateM Failure PacketSequence α) :
    Moves SameStreams (onIncoming type m) := by
  refine .zoom (fun sequence t => ⟨?_, ?_⟩) m
  · exact congrArg (Receiver.mk · _) (Function.update_of_ne hcommand.symm ..)
  · exact congrArg (Receiver.mk · _) (Function.update_of_ne hlow.symm ..)

theorem sameStreams_recordRttSince (sentAt : TimePoint) :
    Moves SameStreams (recordRttSince env sentAt) :=
  .bind .trans (.modifyGet fun _ => ⟨rfl, rfl⟩) fun _ => .modify fun _ => ⟨rfl, rfl⟩

theorem sameStreams_handleAck (packet : ServerPacket) :
    Moves SameStreams (handleAck env packet) := by
  have haccept : ∀ generationId, Moves SameStreams
      (onIncoming .ack (PacketSequence.accept packet.header.packetId generationId)) :=
    fun generationId => sameStreams_onIncoming (by decide) (by decide) _
  unfold handleAck
  refine .bind .trans (.get .refl) fun t => .bind .trans (.lift .refl _) fun generationId => ?_
  refine .ite _ ?_ (.bind .trans (.lift .refl _) fun packetId =>
    .bind .trans (sameStreams_onReliableCommands _) fun acknowledgement => ?_)
  · cases t.firstCommandPacketId with
    | none => exact haccept _
    | some packetId => exact .bind .trans (sameStreams_onReliableCommands _) fun _ => haccept _
  · cases acknowledgement with
    | none => exact haccept _
    | some acknowledgement =>
      exact .ite _ (.bind .trans (sameStreams_recordRttSince _) fun _ => haccept _) (haccept _)

theorem sameStreams_handleAckLow (packet : ServerPacket) :
    Moves SameStreams (handleAckLow env packet) := by
  unfold handleAckLow
  refine .bind .trans (.get .refl) fun t => .bind .trans (.lift .refl _) fun _ =>
    .bind .trans (.lift .refl _) fun _ => ?_
  exact .ite _ (.throw .refl _) (sameStreams_onIncoming (by decide) (by decide) _)

theorem sameStreams_handlePing (packet : ServerPacket) :
    Moves SameStreams (handlePing env packet) := by
  unfold handlePing sendPong sendUnencrypted
  exact .bind .trans (.lift .refl _) fun _ => .bind .trans (.lift .refl _) fun _ =>
    sameStreams_sendPacket _ _ _ _

theorem sameStreams_handlePong (packet : ServerPacket) :
    Moves SameStreams (handlePong env packet) := by
  unfold handlePong
  refine .bind .trans (.lift .refl _) fun _ => .bind .trans (.lift .refl _) fun _ =>
    .bind .trans (.lift .refl _) fun _ => .bind .trans (.lift .refl _) fun _ =>
      .bind .trans (.get .refl) fun t => ?_
  cases t.pendingPing with
  | none => exact .pure .refl _
  | some pendingPing =>
    exact .ite _ (.bind .trans (sameStreams_recordRttSince _) fun _ =>
      .modify fun _ => ⟨rfl, rfl⟩) (.pure .refl _)

theorem sameStreams_handleVoice {packet : ServerPacket} (hcommand : packet.header.type ≠ .command)
    (hlow : packet.header.type ≠ .commandLow) : Moves SameStreams (handleVoice env packet) := by
  unfold handleVoice
  refine .bind .trans (.get .refl) fun t => .bind .trans (.lift .refl _) fun _ =>
    .bind .trans (.lift .refl _) fun _ => .bind .trans (.lift .refl _) fun _ =>
      .bind .trans (.modify fun _ => ⟨rfl, rfl⟩) fun _ => ?_
  exact sameStreams_onIncoming hcommand hlow _

/-- A packet of no stream. -/
theorem sameStreams_dispatch {packet : ServerPacket} (hcommand : packet.header.type ≠ .command)
    (hlow : packet.header.type ≠ .commandLow) : Moves SameStreams (dispatch env packet) := by
  have hvoice : Moves SameStreams (handleVoice env packet) := sameStreams_handleVoice hcommand hlow
  unfold dispatch
  cases htype : packet.header.type with
  | command => exact absurd htype hcommand
  | commandLow => exact absurd htype hlow
  | ack => exact sameStreams_handleAck packet
  | ackLow => exact sameStreams_handleAckLow packet
  | ping => exact sameStreams_handlePing packet
  | pong => exact sameStreams_handlePong packet
  | voice => exact hvoice
  | voiceWhisper => exact hvoice
  | init1 => exact .throw .refl _
  | unnamed _ _ => exact .pure .refl _

/-! ## Packets of a stream -/

variable {stream other : CommandStream} {t : SessionTransport}

theorem receiver_setReceiver (hstream : IsStream stream) (receiver : Receiver)
    (t : SessionTransport) : stream.receiver (stream.setReceiver receiver t) = receiver := by
  obtain rfl | rfl := hstream
  · show Receiver.mk (Function.update t.sequences.incoming .command _ .command) _ = receiver
    rw [Function.update_self]
    rfl
  · show Receiver.mk (Function.update t.sequences.incoming .commandLow _ .commandLow) _ = receiver
    rw [Function.update_self]
    rfl

theorem receiver_setReceiver_of_ne (hstream : IsStream stream) (hother : IsStream other)
    (hne : stream.dataType ≠ other.dataType) (receiver : Receiver) (t : SessionTransport) :
    stream.receiver (other.setReceiver receiver t) = stream.receiver t := by
  obtain rfl | rfl := hstream <;> obtain rfl | rfl := hother
  · exact absurd rfl hne
  · show Receiver.mk (Function.update t.sequences.incoming commandLowStream.dataType
      receiver.expected commandStream.dataType) _ = _
    rw [Function.update_of_ne hne]
    rfl
  · show Receiver.mk (Function.update t.sequences.incoming commandStream.dataType
      receiver.expected commandLowStream.dataType) _ = _
    rw [Function.update_of_ne hne]
    rfl
  · exact absurd rfl hne

theorem SameStreams.moves {α : Type} {m : Session α} (h : Moves SameStreams m)
    (hstream : IsStream stream) : Moves (fun t t' => stream.receiver t' = stream.receiver t) m :=
  ⟨fun t => wp_mono (h.apply t) (fun _ _ h => h.receiver_eq hstream) fun _ _ h =>
    h.receiver_eq hstream⟩

/-- The packets of the other stream. -/
theorem receiver_of_other (hstream : IsStream stream) (hother : IsStream other)
    (hne : stream.dataType ≠ other.dataType) (packet : ServerPacket) :
    Moves (fun t t' => stream.receiver t' = stream.receiver t)
      (processIncomingCommand env other packet) := by
  have htrans : ∀ a b c : SessionTransport, stream.receiver b = stream.receiver a →
      stream.receiver c = stream.receiver b → stream.receiver c = stream.receiver a :=
    fun _ _ _ h h' => h'.trans h
  have hrefl : ∀ t : SessionTransport, stream.receiver t = stream.receiver t := fun _ => rfl
  have hack : Moves SameStreams (sendAck env packet other.ackType) := by
    unfold sendAck sendEncrypted
    exact sameStreams_sendPacket _ _ _ _
  have hready : ∀ readyCommands, Moves SameStreams
      (modify fun t => { t with readyCommands := t.readyCommands ++ readyCommands } :
        Session PUnit) := fun _ => .modify fun _ => ⟨rfl, rfl⟩
  unfold processIncomingCommand
  exact .bind htrans (.get hrefl) fun t => .bind htrans (.lift hrefl _) fun _ =>
    .bind htrans (.lift hrefl _) fun _ => .bind htrans (SameStreams.moves hack hstream) fun _ =>
      .bind htrans (.zoom (receiver_setReceiver_of_ne hstream hother hne) _) fun _ =>
        SameStreams.moves (hready _) hstream

theorem dispatch_of_stream (hstream : IsStream stream) {packet : ServerPacket}
    (htype : packet.header.type = stream.dataType) :
    dispatch env packet = processIncomingCommand env stream packet := by
  unfold dispatch
  obtain rfl | rfl := hstream
  · rw [htype]
    rfl
  · rw [htype]
    rfl

/-- Only a packet of the stream moves the stream. -/
theorem receiver_dispatch (hstream : IsStream stream) {packet : ServerPacket}
    (htype : packet.header.type ≠ stream.dataType) :
    Moves (fun t t' => stream.receiver t' = stream.receiver t) (dispatch env packet) := by
  by_cases hcommand : packet.header.type = commandStream.dataType
  · rw [dispatch_of_stream (.inl rfl) hcommand]
    exact receiver_of_other hstream (.inl rfl) (hcommand ▸ htype.symm) packet
  by_cases hlow : packet.header.type = commandLowStream.dataType
  · rw [dispatch_of_stream (.inr rfl) hlow]
    exact receiver_of_other hstream (.inr rfl) (hlow ▸ htype.symm) packet
  exact SameStreams.moves (sameStreams_dispatch hcommand hlow) hstream

/-- What `ProcessPacket` does behind the dispatch. -/
theorem wp_processPacket_of_parse {datagram : Bytes} {packet : ServerPacket}
    (hparse : ServerPacket.parse datagram = .ok packet) {P : SessionTransport → Prop}
    (hP : ∀ t t' : SessionTransport, SameStreams t t' → t'.sent = t.sent → P t → P t')
    (h : wp (dispatch env packet) (fun _ => P) (fun _ => P) t) :
    wp (processPacket env datagram) (fun _ => P) (fun _ => P) t := by
  unfold processPacket
  rw [hparse, wp_bind, wp_lift]
  refine ⟨fun packet' heq => ?_, nofun⟩
  cases heq
  rw [wp_bind]
  refine wp_mono h (fun _ t' ht' => ?_) fun _ _ h => h
  rw [wp_bind, wp_now]
  exact hP t' _ ⟨rfl, rfl⟩ rfl ht'

/-- **The frame of a stream**: a call that brings no packet of the stream leaves it alone. -/
theorem receiver_step (hstream : IsStream stream) {operation : Operation}
    (h : ∀ datagram packet, operation = .processPacket datagram →
      ServerPacket.parse datagram = .ok packet → packet.header.type ≠ stream.dataType) :
    stream.receiver (step env t operation) = stream.receiver t := by
  have hcall : ∀ {m : Session Unit}, Moves SameStreams m →
      wp m (fun _ t' => stream.receiver t' = stream.receiver t)
        (fun _ t' => stream.receiver t' = stream.receiver t) t :=
    fun hm => (SameStreams.moves hm hstream).apply t
  refine wp_final (P := fun t' => stream.receiver t' = stream.receiver t) |>.1 ?_
  cases operation with
  | processPacket datagram =>
    show wp (processPacket env datagram) _ _ _
    cases hparse : ServerPacket.parse datagram with
    | error failure =>
      unfold processPacket
      rw [hparse, wp_bind, wp_lift]
      exact ⟨nofun, fun _ _ => rfl⟩
    | ok packet =>
      refine wp_processPacket_of_parse hparse (fun a b hsame _ hb => ?_)
        ((receiver_dispatch hstream (h datagram packet rfl hparse)).apply t)
      exact (hsame.receiver_eq hstream).trans hb
  | sendCommand data =>
    refine hcall (.bind .trans (.bind .trans (.lift .refl _) fun fragments => ?_) fun _ =>
      .pure .refl _)
    exact sameStreams_sendFragments data fragments 0
  | sendVoice codec data encrypted talkStart =>
    rw [perform, sendVoice]
    exact hcall (sameStreams_sendVoicePayload _ _ _ _)
  | sendVoiceWhisper codec channelIds clientIds data encrypted talkStart =>
    rw [perform, sendVoiceWhisper]
    exact hcall (sameStreams_sendVoicePayload _ _ _ _)
  | sendGroupWhisper codec type target targetId data encrypted talkStart =>
    rw [perform, sendGroupWhisper]
    exact hcall (sameStreams_sendVoicePayload _ _ _ _)
  | confirmCommand packetId =>
    exact hcall (.bind .trans (sameStreams_onReliableCommands _) fun _ => .pure .refl _)
  | processTimers => exact hcall sameStreams_processTimers
  | takeReadyCommand =>
    show wp (takeReadyCommand >>= _) _ _ _
    rw [wp_bind, takeReadyCommand, wp_bind, wp_get]
    obtain rfl | rfl := hstream <;> cases t.readyCommands <;> rfl
  | takeReadyVoice =>
    show wp (takeReadyVoice >>= _) _ _ _
    rw [wp_bind, takeReadyVoice, wp_bind, wp_get]
    obtain rfl | rfl := hstream <;> cases t.readyVoice <;> rfl
  | setClientId clientId => exact hcall (.ite _ (.throw .refl _) (.modify fun _ => ⟨rfl, rfl⟩))
  | setConnected =>
    exact hcall (.bind .trans (.modifyGet fun _ => ⟨rfl, rfl⟩) fun _ =>
      .modify fun _ => ⟨rfl, rfl⟩)

end Frame

end TsCli.SessionTransport
