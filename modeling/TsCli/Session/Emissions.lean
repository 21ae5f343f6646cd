import TsCli.Session.TransportRules

/-!
# What a call sends

`Emits type` holds of two states when packets of one type went out in between and neither the ping
that is outstanding nor the round-trip times changed; commands are queued only while they are sent.
Every handler but those of Ack and Pong does no more than that, and these two do one thing more
(`handleAck_effect`, `handlePong_cases`). `Effect` puts it together: all that a call does to pings,
commands and round-trip times.
-/

namespace TsCli.SessionTransport

open Exec PacketLimits ReliableCommandQueue

/-- A type whose packets are neither pings nor commands. -/
def Plain (type : PacketType) : Prop := type ≠ .ping ∧ type ≠ .command

instance (type : PacketType) : Decidable (Plain type) := inferInstanceAs (Decidable (_ ∧ _))

theorem plain_pong : Plain .pong := by decide

theorem plain_ack : Plain .ack := by decide

theorem plain_ackLow : Plain .ackLow := by decide

theorem plain_voice : Plain .voice := by decide

theorem plain_voiceWhisper : Plain .voiceWhisper := by decide

/-- Packets of one type went out, and what pings and round-trip times depend on is as it was. -/
structure Emits (type : PacketType) (t t' : SessionTransport) : Prop where
  sent : ∃ more, t'.sent = t.sent ++ more ∧ ∀ packet ∈ more, packet.position.type = type
  outgoing : ∀ other, other ≠ type → t'.sequences.outgoing other = t.sequences.outgoing other
  ticks : t.ticks ≤ t'.ticks
  reliableCommands : type ≠ .command → t'.reliableCommands = t.reliableCommands
  connected : t'.connected = t.connected
  lastReceiveAt : t'.lastReceiveAt = t.lastReceiveAt
  pendingPing : t'.pendingPing = t.pendingPing
  rtt : t'.statistics.rtt = t.statistics.rtt

namespace Emits

variable {type : PacketType} {t t' : SessionTransport}

/-- Nothing went out. -/
theorem of_eq (hsent : t'.sent = t.sent) (hout : t'.sequences.outgoing = t.sequences.outgoing)
    (hticks : t.ticks ≤ t'.ticks)
    (hqueue : type ≠ .command → t'.reliableCommands = t.reliableCommands)
    (hconnected : t'.connected = t.connected) (hreceive : t'.lastReceiveAt = t.lastReceiveAt)
    (hpending : t'.pendingPing = t.pendingPing) (hrtt : t'.statistics.rtt = t.statistics.rtt) :
    Emits type t t' :=
  ⟨⟨[], by rw [hsent, List.append_nil], nofun⟩, fun _ _ => by rw [hout], hticks, hqueue, hconnected,
    hreceive, hpending, hrtt⟩

theorem refl (t : SessionTransport) : Emits type t t := of_eq rfl rfl le_rfl (fun _ => rfl) rfl rfl rfl rfl

theorem trans (a b c : SessionTransport) (h : Emits type a b) (h' : Emits type b c) :
    Emits type a c where
  sent := by
    obtain ⟨more, hsent, hmore⟩ := h.sent
    obtain ⟨more', hsent', hmore'⟩ := h'.sent
    refine ⟨more ++ more', by rw [hsent', hsent, List.append_assoc], fun packet hpacket => ?_⟩
    exact (List.mem_append.1 hpacket).elim (hmore packet) (hmore' packet)
  outgoing other hother := (h'.outgoing other hother).trans (h.outgoing other hother)
  ticks := h.ticks.trans h'.ticks
  reliableCommands htype := (h'.reliableCommands htype).trans (h.reliableCommands htype)
  connected := h'.connected.trans h.connected
  lastReceiveAt := h'.lastReceiveAt.trans h.lastReceiveAt
  pendingPing := h'.pendingPing.trans h.pendingPing
  rtt := h'.rtt.trans h.rtt

theorem of_transmitted {packet : Packet} (h : Transmitted t t' packet)
    (htype : packet.position.type = type)
    (hout : ∀ other, other ≠ type → t'.sequences.outgoing other = t.sequences.outgoing other) :
    Emits type t t' :=
  ⟨⟨[packet], h.sent, fun _ hmem => by rw [List.mem_singleton.1 hmem, htype]⟩, hout, h.ticks,
    fun _ => h.reliableCommands, h.connected, h.lastReceiveAt, h.pendingPing, h.rtt⟩

end Emits

variable {env : Environment} {t : SessionTransport} {type : PacketType}

/-! ## Sending -/

theorem wp_transmit_emits {packet : Packet} (htype : packet.position.type = type) :
    wp (transmit env type packet) (fun _ => Emits type t) (fun _ => Emits type t) t := by
  refine wp_transmit (fun _ _ => .of_eq rfl rfl le_rfl (fun _ => rfl) rfl rfl rfl rfl)
    (fun _ _ t' hsent hout => .of_transmitted hsent htype fun other hother => ?_)
    fun _ _ _ t' hsent hout => .of_transmitted hsent htype fun other _ => by rw [hout]
  rw [hout, Function.update_of_ne hother]

theorem emits_createTransmit {encrypted : Bool} {flags : PacketFlags} {data : Bytes} :
    Moves (Emits type) (createPacket env encrypted type flags data >>= transmit env type) := by
  refine ⟨fun t => ?_⟩
  rw [wp_bind]
  exact wp_createPacket (fun packet hposition =>
    wp_transmit_emits (congrArg PacketPosition.type hposition)) fun _ => .refl t

theorem emits_sendPacket (encrypted : Bool) (type : PacketType) (flags : PacketFlags) (data : Bytes) :
    Moves (Emits type) (sendPacket env encrypted type flags data) :=
  .ite _ (.throw .refl _) emits_createTransmit

theorem emits_sendVoicePayload (type : PacketType) (payload : UInt16 → Except Failure Bytes)
    (flags : PacketFlags) (encrypted : Bool) :
    Moves (Emits type) (sendVoicePayload env type payload flags encrypted) :=
  .bind .trans (.get .refl) fun _ => .bind .trans (.lift .refl _) fun _ => emits_createTransmit

/-- A command is queued and sent. -/
theorem emits_sendCommandPacket (data : Bytes) (flags : PacketFlags) :
    Moves (Emits .command) (sendCommandPacket env data flags) := by
  refine ⟨fun t => ?_⟩
  unfold sendCommandPacket
  rw [wp_bind, wp_get, wp_bind]
  refine wp_createPacket (fun packet hposition => ?_) fun _ => .refl t
  have hqueued : ∀ {α : Type} (m : EStateM Failure ReliableCommandQueue α),
      Moves (Emits .command) (onReliableCommands m) :=
    fun m => .zoom (fun _ _ => .of_eq rfl rfl le_rfl (absurd rfl) rfl rfl rfl rfl) m
  refine Moves.apply (Moves.bind .trans ?_ fun time => .bind .trans (hqueued _) fun _ =>
    .bind .trans ?_ fun _ => .bind .trans ?_ fun _ => .pure .refl _) t
  · exact .modifyGet fun _ => .of_eq rfl rfl (Nat.le_succ _) (absurd rfl) rfl rfl rfl rfl
  · exact .modify fun _ => .of_eq rfl rfl le_rfl (absurd rfl) rfl rfl rfl rfl
  · exact ⟨fun _ => wp_transmit_emits (congrArg PacketPosition.type hposition)⟩

theorem emits_sendFragments {data : Bytes} (fragments : List CommandFragment)
    (lastPacketId : UInt16) :
    Moves (Emits .command) (sendFragments env data lastPacketId fragments) := by
  induction fragments generalizing lastPacketId with
  | nil => exact .pure .refl _
  | cons fragment fragments ih =>
    exact .bind .trans (emits_sendCommandPacket _ _) fun packetId => ih packetId

theorem emits_sendCommand (data : Bytes) : Moves (Emits .command) (sendCommand env data) :=
  .bind .trans (.lift .refl _) fun fragments => emits_sendFragments fragments 0

/-! ## Receiving -/

theorem emits_onIncoming {α : Type} (other : PacketType) (m : EStateM Failure PacketSequence α) :
    Moves (Emits type) (onIncoming other m) :=
  .zoom (fun _ _ => .of_eq rfl rfl le_rfl (fun _ => rfl) rfl rfl rfl rfl) m

theorem emits_handlePing (packet : ServerPacket) : Moves (Emits .pong) (handlePing env packet) := by
  unfold handlePing sendPong sendUnencrypted
  exact .bind .trans (.lift .refl _) fun _ => .bind .trans (.lift .refl _) fun _ =>
    emits_sendPacket _ _ _ _

theorem emits_handleAckLow (packet : ServerPacket) :
    Moves (Emits .ackLow) (handleAckLow env packet) := by
  unfold handleAckLow
  refine .bind .trans (.get .refl) fun t => ?_
  dsimp only
  refine .bind .trans (.lift .refl _) fun _ => .bind .trans (.lift .refl _) fun _ => ?_
  exact .ite _ (.throw .refl _) (emits_onIncoming _ _)

theorem emits_handleVoice (packet : ServerPacket) :
    Moves (Emits .voice) (handleVoice env packet) := by
  unfold handleVoice
  refine .bind .trans (.get .refl) fun t => ?_
  dsimp only
  exact .bind .trans (.lift .refl _) fun _ => .bind .trans (.lift .refl _) fun _ =>
    .bind .trans (.lift .refl _) fun _ => .bind .trans
      (.modify fun _ => .of_eq rfl rfl le_rfl (fun _ => rfl) rfl rfl rfl rfl) fun _ => emits_onIncoming _ _

theorem emits_processIncomingCommand (stream : CommandStream)
    (hstream : ∀ {type : PacketType} receiver t, Emits type t (stream.setReceiver receiver t))
    (packet : ServerPacket) :
    Moves (Emits stream.ackType) (processIncomingCommand env stream packet) := by
  unfold processIncomingCommand sendAck sendEncrypted
  refine .bind .trans (.get .refl) fun t => ?_
  dsimp only
  exact .bind .trans (.lift .refl _) fun _ => .bind .trans (.lift .refl _) fun _ =>
    .bind .trans (emits_sendPacket _ _ _ _) fun _ => .bind .trans (.zoom hstream _) fun _ =>
      .modify fun _ => .of_eq rfl rfl le_rfl (fun _ => rfl) rfl rfl rfl rfl

/-- Every other handler only sends. -/
theorem exists_emits_dispatch {packet : ServerPacket} (hack : packet.header.type ≠ .ack)
    (hpong : packet.header.type ≠ .pong) :
    ∃ type, Plain type ∧ Moves (Emits type) (dispatch env packet) := by
  unfold dispatch
  cases htype : packet.header.type with
  | ack => exact absurd htype hack
  | pong => exact absurd htype hpong
  | ping => exact ⟨.pong, plain_pong, emits_handlePing packet⟩
  | command => exact ⟨.ack, plain_ack, emits_processIncomingCommand commandStream
      (fun _ _ => .of_eq rfl rfl le_rfl (fun _ => rfl) rfl rfl rfl rfl) packet⟩
  | commandLow => exact ⟨.ackLow, plain_ackLow, emits_processIncomingCommand commandLowStream
      (fun _ _ => .of_eq rfl rfl le_rfl (fun _ => rfl) rfl rfl rfl rfl) packet⟩
  | voice => exact ⟨.voice, plain_voice, emits_handleVoice packet⟩
  | voiceWhisper => exact ⟨.voice, plain_voice, emits_handleVoice packet⟩
  | ackLow => exact ⟨.ackLow, plain_ackLow, emits_handleAckLow packet⟩
  | init1 => exact ⟨.voice, plain_voice, .throw .refl _⟩
  | unnamed _ _ => exact ⟨.voice, plain_voice, .pure .refl _⟩

/-- A round-trip time is recorded. -/
def measure (env : Environment) (since : TimePoint) (t : SessionTransport) : SessionTransport :=
  { t with
    ticks := t.ticks + 1
    statistics := t.statistics.recordRtt (env.clock t.ticks - since) }

/-- A command leaves the queue. -/
def release (command : PendingCommand) (t : SessionTransport) : SessionTransport :=
  { t with reliableCommands := t.reliableCommands.erase command.key }

theorem wp_acknowledge {packetId : UInt16} {Q : Option Acknowledgement → SessionTransport → Prop}
    {E : Failure → SessionTransport → Prop} (hnone : Q none t)
    (hsome : ∀ command, t.reliableCommands.pending.find? command.key = some command →
      command.packetId = packetId →
      Q (some { firstSent := command.firstSent, retransmitted := command.retransmitted })
        (t.release command)) :
    wp (onReliableCommands (acknowledge packetId)) Q E t := by
  unfold onReliableCommands
  rw [wp_zoom]
  rcases t.reliableCommands.acknowledge_cases packetId with
    ⟨-, hrun⟩ | ⟨command, hfind, hid, hrun⟩
  · rw [wp_of_eq_ok hrun]
    exact hnone
  · rw [wp_of_eq_ok hrun]
    exact hsome command hfind hid

/-- The incoming Ack names the id, and is not the first one, which names none. -/
def AckNames (env : Environment) (t : SessionTransport) (packet : ServerPacket)
    (packetId : UInt16) : Prop :=
  ∃ generationId, resolveGeneration (t.sequences.incoming .ack) packet.header.packetId =
      .ok generationId ∧ ¬ (generationId = 0 ∧ packet.header.packetId = 1) ∧
    openAck env packet generationId "Invalid server Ack MAC" "Unexpected server Ack payload size" =
      .ok packetId

/-- **All that an Ack does**: it may take a command out of the queue, and when it names the command
and this was not retransmitted, it measures it. -/
theorem handleAck_effect {packet : ServerPacket} {P : SessionTransport → Prop}
    (hquiet : ∀ t', Emits .ack t t' → P t')
    (hrelease : ∀ command, t.reliableCommands.pending.find? command.key = some command →
      ∀ t', Emits .ack (t.release command) t' → P t')
    (hmeasure : ∀ command, AckNames env t packet command.packetId →
      t.reliableCommands.pending.find? command.key = some command →
      command.retransmitted = false →
      ∀ t', Emits .ack (measure env command.firstSent (t.release command)) t' → P t') :
    P (final (handleAck env packet) t) := by
  have haccept : ∀ {start : SessionTransport} generationId, (∀ t', Emits .ack start t' → P t') →
      wp (onIncoming .ack (PacketSequence.accept packet.header.packetId generationId))
        (fun _ => P) (fun _ => P) start := fun generationId h =>
    wp_mono ((emits_onIncoming .ack _).apply _) (fun _ => h) fun _ => h
  refine (wp_final (P := P)).1 ?_
  unfold handleAck
  rw [wp_bind, wp_get]
  dsimp only
  rw [wp_bind, wp_lift]
  refine ⟨fun generationId hresolve => ?_, fun _ _ => hquiet t (.refl t)⟩
  rw [wp_ite]
  refine ⟨fun _ => ?_, fun hfirst => ?_⟩
  · -- the first Ack names no command
    cases t.firstCommandPacketId with
    | none => exact haccept generationId hquiet
    | some packetId =>
      dsimp only
      rw [wp_bind]
      exact wp_acknowledge (haccept generationId hquiet) fun command hfind _ =>
        haccept generationId (hrelease command hfind)
  · rw [wp_bind, wp_lift]
    refine ⟨fun packetId hopen => ?_, fun _ _ => hquiet t (.refl t)⟩
    rw [wp_bind]
    refine wp_acknowledge (haccept generationId hquiet) fun command hfind hid => ?_
    dsimp only
    cases hretransmitted : command.retransmitted with
    | true => exact haccept generationId (hrelease command hfind)
    | false =>
      have hnames : AckNames env t packet command.packetId :=
        ⟨generationId, hresolve, hfirst, hid ▸ hopen⟩
      exact haccept generationId (hmeasure command hnames hfind hretransmitted)

/-- **All that a Pong does**: nothing, or it measures the pending ping that it names. -/
theorem handlePong_cases (env : Environment) (packet : ServerPacket) (t : SessionTransport) :
    ((∃ result, handlePong env packet t = .ok result t) ∨
        ∃ e, handlePong env packet t = .error e t) ∨
      ∃ pendingPing, t.pendingPing = some pendingPing ∧
        readPacketId packet.data = .ok pendingPing.packetId ∧
        handlePong env packet t =
          .ok () { measure env pendingPing.sentAt t with pendingPing := none } := by
  unfold handlePong
  cases hflag : throwIf (¬ hasFlag packet.header.flags .unencrypted)
    "Server Pong packet is encrypted" with
  | error e => exact .inl (.inr ⟨e, rfl⟩)
  | ok _ =>
  rw [run_lift_bind_ok rfl]
  cases hmac : checkSharedMac env packet "Invalid server Pong MAC" with
  | error e => exact .inl (.inr ⟨e, rfl⟩)
  | ok _ =>
  rw [run_lift_bind_ok rfl]
  cases hsize : throwIf (packet.data.length ≠ 2) "Unexpected server Pong payload size" with
  | error e => exact .inl (.inr ⟨e, rfl⟩)
  | ok _ =>
  rw [run_lift_bind_ok rfl]
  cases hread : readPacketId packet.data with
  | error e => exact .inl (.inr ⟨e, rfl⟩)
  | ok pingPacketId =>
  rw [run_lift_bind_ok rfl, run_get_bind]
  cases hpending : t.pendingPing with
  | none => exact .inl (.inl ⟨_, rfl⟩)
  | some pendingPing =>
    dsimp only
    by_cases hid : pendingPing.packetId = pingPacketId
    · rw [if_pos hid]
      exact .inr ⟨pendingPing, rfl, by rw [hid], rfl⟩
    · rw [if_neg hid]
      exact .inl (.inl ⟨_, rfl⟩)

/-! ## Packets as a whole -/

/-- A packet is counted, and its time is kept. -/
def hear (env : Environment) (packet : ServerPacket) (t : SessionTransport) : SessionTransport :=
  { t with
    ticks := t.ticks + 1
    statistics := t.statistics.recordReceived packet.header.type packet.header.packetId
      (serverHeaderSize + packet.data.length + ipv4UdpOverhead) (env.clock t.ticks)
    lastReceiveAt := if t.connected then env.clock t.ticks else t.lastReceiveAt }

theorem wp_processPacket {datagram : Bytes} {P : SessionTransport → Prop} (hfail : P t)
    (hpacket : ∀ packet, ServerPacket.parse datagram = .ok packet →
      wp (dispatch env packet) (fun _ t' => P (t'.hear env packet)) (fun _ => P) t) :
    wp (processPacket env datagram) (fun _ => P) (fun _ => P) t := by
  unfold processPacket
  rw [wp_bind, wp_lift]
  refine ⟨fun packet hparse => ?_, fun _ _ => hfail⟩
  rw [wp_bind]
  exact hpacket packet hparse

/-- Nothing but packets of other types went out, and something may have been heard. -/
structure Quiet (env : Environment) (t t' : SessionTransport) : Prop where
  sent : ∃ more, t'.sent = t.sent ++ more ∧ ∀ packet ∈ more, Plain packet.position.type
  outgoing : ∀ type, ¬ Plain type → t'.sequences.outgoing type = t.sequences.outgoing type
  ticks : t.ticks ≤ t'.ticks
  reliableCommands : t'.reliableCommands = t.reliableCommands
  connected : t'.connected = t.connected
  pendingPing : t'.pendingPing = t.pendingPing
  rtt : t'.statistics.rtt = t.statistics.rtt
  heard : t'.lastReceiveAt = t.lastReceiveAt ∨ t.connected = true ∧
    ∃ tick, t.ticks ≤ tick ∧ tick ≤ t'.ticks ∧ t'.lastReceiveAt = env.clock tick

theorem Emits.quiet (htype : Plain type) {t' : SessionTransport} (h : Emits type t t') :
    Quiet env t t' where
  sent := by
    obtain ⟨more, hsent, hmore⟩ := h.sent
    exact ⟨more, hsent, fun packet hpacket => hmore packet hpacket ▸ htype⟩
  outgoing other hother := h.outgoing other fun heq => hother (heq ▸ htype)
  ticks := h.ticks
  reliableCommands := h.reliableCommands htype.2
  connected := h.connected
  pendingPing := h.pendingPing
  rtt := h.rtt
  heard := .inl h.lastReceiveAt

theorem Quiet.hear {t' : SessionTransport} (h : Quiet env t t') (packet : ServerPacket) :
    Quiet env t (t'.hear env packet) where
  sent := h.sent
  outgoing := h.outgoing
  ticks := h.ticks.trans (Nat.le_succ _)
  reliableCommands := h.reliableCommands
  connected := h.connected
  pendingPing := h.pendingPing
  rtt := (ConnectionStatistics.rtt_recordReceived ..).trans h.rtt
  heard := by
    by_cases hconnected : t'.connected = true
    · exact .inr ⟨h.connected ▸ hconnected, t'.ticks, h.ticks, Nat.le_succ _, if_pos hconnected⟩
    · have hsame : (t'.hear env packet).lastReceiveAt = t'.lastReceiveAt := if_neg hconnected
      rw [hsame]
      exact h.heard.imp_right fun ⟨hc, tick, hle, hle', heq⟩ =>
        ⟨hc, tick, hle, hle'.trans (Nat.le_succ _), heq⟩

/-! ## Timers -/

/-- Some of the packets went out again. -/
structure Resends (packets : List Packet) (t t' : SessionTransport) : Prop where
  sent : ∃ front, front <+: packets ∧ t'.sent = t.sent ++ front
  outgoing : t'.sequences.outgoing = t.sequences.outgoing
  ticks : t.ticks ≤ t'.ticks
  reliableCommands : t'.reliableCommands = t.reliableCommands
  connected : t'.connected = t.connected
  lastReceiveAt : t'.lastReceiveAt = t.lastReceiveAt
  pendingPing : t'.pendingPing = t.pendingPing
  rtt : t'.statistics.rtt = t.statistics.rtt

theorem resends_sendDue (packets : List Packet) (t : SessionTransport) :
    wp (sendDue env packets) (fun _ => Resends packets t) (fun _ => Resends packets t) t := by
  induction packets generalizing t with
  | nil => exact ⟨⟨[], List.nil_prefix, (List.append_nil _).symm⟩, rfl, le_rfl, rfl, rfl, rfl, rfl, rfl⟩
  | cons packet packets ih =>
    rw [sendDue, wp_bind, wp_send]
    cases env.sendErrors t.attempts with
    | some error =>
      exact ⟨⟨[], List.nil_prefix, (List.append_nil _).symm⟩, rfl, le_rfl, rfl, rfl, rfl, rfl, rfl⟩
    | none =>
      dsimp only
      rw [wp_bind]
      refine wp_recordSent fun statistics hrtt => ?_
      have hcons : ∀ t', Resends packets { t with
          attempts := t.attempts + 1
          sent := t.sent ++ [packet]
          ticks := t.ticks + 1
          statistics } t' → Resends (packet :: packets) t t' := by
        intro t' h
        obtain ⟨front, hfront, hsent⟩ := h.sent
        refine ⟨⟨packet :: front, (List.prefix_cons_inj _).2 hfront, ?_⟩, h.outgoing,
          (Nat.le_succ _).trans h.ticks, h.reliableCommands, h.connected, h.lastReceiveAt,
          h.pendingPing, h.rtt.trans hrtt⟩
        rw [hsent, List.append_assoc, List.singleton_append]
      exact wp_mono (ih _) (fun _ => hcons) fun _ => hcons

/-- No ping is younger than the interval, and without one it was silent for so long. -/
def PingDue (time : TimePoint) (t : SessionTransport) : Prop :=
  (∀ pendingPing ∈ t.pendingPing, pingInterval ≤ time - pendingPing.sentAt) ∧
    (t.pendingPing = none → pingInterval ≤ time - t.lastReceiveAt)

/-- **All that `keepAlive` does**, while the pings have numbers left. -/
inductive Probes (time : TimePoint) (t : SessionTransport) : SessionTransport → Prop
  | idle : Probes time t t
  | retire {pendingPing : PendingPing} (hpending : t.pendingPing = some pendingPing)
      (hheard : pendingPing.sentAt < t.lastReceiveAt) : Probes time t { t with pendingPing := none }
  | fail (hdue : PingDue time t) :
      Probes time t { t with attempts := t.attempts + 1, pendingPing := none }
  | ping (hconnected : t.connected = true) (hempty : t.reliableCommands.pending.size = 0)
      (hdue : PingDue time t) {packet : Packet}
      (hposition : packet.position = positionOf .ping (t.sequences.outgoing .ping))
      {t' : SessionTransport} (hsent : Transmitted { t with pendingPing := none } t' packet)
      (hout : t'.sequences.outgoing = Function.update t.sequences.outgoing .ping
        (.ofKey (t.outgoingKey .ping + 1))) :
      Probes time t { t' with
        pendingPing := some { packetId := (t.sequences.outgoing .ping).packetId, sentAt := time } }

/-- A packet that is not encrypted is always created. -/
theorem wp_createPacket_unencrypted {Q : Packet → SessionTransport → Prop}
    {E : Failure → SessionTransport → Prop} {flags : PacketFlags} {data : Bytes}
    (hcreated : ∀ packet, packet.position = positionOf type (t.sequences.outgoing type) →
      Q packet t) : wp (createPacket env false type flags data) Q E t := by
  unfold createPacket
  rw [wp_bind, wp_get]
  exact hcreated _ rfl

theorem probes_sendPing {time : TimePoint} (hlt : t.outgoingKey .ping + 1 < 2 ^ 48)
    (hconnected : t.connected = true) (hempty : t.reliableCommands.pending.size = 0)
    (hdue : PingDue time t) :
    wp (sendPing env time) (fun _ => Probes time t) (fun _ => Probes time t)
      { t with pendingPing := none } := by
  have hsize : ¬ maxClientPayload < ([] : Bytes).length := Nat.not_lt_zero _
  unfold sendPing sendUnencrypted sendPacket
  rw [wp_bind, wp_get, wp_bind, if_neg hsize, wp_bind]
  refine wp_createPacket_unencrypted fun packet hposition => ?_
  refine wp_transmit (fun _ _ => .fail hdue) (fun _ _ t' hsent hout => ?_)
    fun _ hend => absurd hlt hend
  exact .ping hconnected hempty hdue hposition hsent hout

theorem probes_keepAlive {time : TimePoint} (hlt : t.outgoingKey .ping + 1 < 2 ^ 48) :
    wp (keepAlive env time) (fun _ => Probes time t) (fun _ => Probes time t) t := by
  unfold keepAlive
  rw [wp_bind, wp_get, wp_ite]
  refine ⟨fun _ => .idle, fun hactive => ?_⟩
  have hconnected : t.connected = true := by
    by_contra h
    exact hactive (.inl (by simpa using h))
  have hempty : t.reliableCommands.pending.size = 0 := not_not.1 fun h => hactive (.inr h)
  cases hpending : t.pendingPing with
  | some pendingPing =>
    dsimp only
    rw [wp_ite]
    refine ⟨fun hheard => .retire hpending hheard, fun _ => ?_⟩
    rw [wp_ite]
    refine ⟨fun hold => ?_, fun _ => .idle⟩
    rw [wp_bind, wp_set]
    refine probes_sendPing hlt hconnected hempty ⟨fun other hother => ?_, fun hnone => ?_⟩
    · rw [hpending] at hother
      exact Option.some.inj hother ▸ hold
    · rw [hpending] at hnone
      cases hnone
  | none =>
    dsimp only
    rw [wp_ite]
    refine ⟨fun hsilent => ?_, fun _ => .idle⟩
    have hsame : ({ t with pendingPing := none } : SessionTransport) = t := by rw [← hpending]
    have hdue : PingDue time t := by
      refine ⟨fun other hother => ?_, fun _ => hsilent⟩
      rw [hpending] at hother
      cases hother
    have hsend : wp (sendPing env time) (fun _ => Probes time t) (fun _ => Probes time t)
        { t with pendingPing := none } := probes_sendPing hlt hconnected hempty hdue
    rwa [hsame] at hsend

/-! ## Calls -/

/-- All that a call does to pings, commands and round-trip times. -/
inductive Effect (env : Environment) (t : SessionTransport) : Operation → SessionTransport → Prop
  | quiet {operation : Operation} {t' : SessionTransport} (h : Quiet env t t') :
      Effect env t operation t'
  | command {data : Bytes} {t' : SessionTransport} (h : Emits .command t t') :
      Effect env t (.sendCommand data) t'
  | release {operation : Operation} {command : PendingCommand} {t' : SessionTransport}
      (hpending : t.reliableCommands.pending.find? command.key = some command)
      (h : Quiet env (t.release command) t') : Effect env t operation t'
  | ack {datagram : Bytes} {packet : ServerPacket} {command : PendingCommand}
      {t' : SessionTransport} (hparse : ServerPacket.parse datagram = .ok packet)
      (htype : packet.header.type = .ack) (hnames : AckNames env t packet command.packetId)
      (hpending : t.reliableCommands.pending.find? command.key = some command)
      (hfresh : command.retransmitted = false)
      (h : Quiet env (measure env command.firstSent (t.release command)) t') :
      Effect env t (.processPacket datagram) t'
  | pong {datagram : Bytes} {packet : ServerPacket} {pendingPing : PendingPing}
      (hparse : ServerPacket.parse datagram = .ok packet) (htype : packet.header.type = .pong)
      (hnames : readPacketId packet.data = .ok pendingPing.packetId)
      (hpending : t.pendingPing = some pendingPing) :
      Effect env t (.processPacket datagram)
        (hear env packet { measure env pendingPing.sentAt t with pendingPing := none })
  | expired {failure : Failure} {queue : ReliableCommandQueue}
      (h : collectDue (env.clock t.ticks) t.reliableCommands = .error failure queue) :
      Effect env t .processTimers { t with ticks := t.ticks + 1, reliableCommands := queue }
  | timers {packets : List Packet} {queue : ReliableCommandQueue} {u t' : SessionTransport}
      (hcollect : collectDue (env.clock t.ticks) t.reliableCommands = .ok packets queue)
      (hresend : Resends packets { t with ticks := t.ticks + 1, reliableCommands := queue } u)
      (h : Probes (env.clock t.ticks) u t') : Effect env t .processTimers t'
  | connect : Effect env t .setConnected
      { t with
        ticks := t.ticks + 1
        connected := true
        statistics := .reset (env.clock t.ticks)
        lastReceiveAt := env.clock t.ticks
        pendingPing := none }

theorem effect_processPacket (datagram : Bytes) :
    Effect env t (.processPacket datagram) (step env t (.processPacket datagram)) := by
  have heffect : wp (processPacket env datagram) (fun _ => Effect env t (.processPacket datagram))
      (fun _ => Effect env t (.processPacket datagram)) t := ?_
  · exact wp_final.1 heffect
  refine wp_processPacket (.quiet (Emits.refl t |>.quiet plain_voice)) fun packet hparse => ?_
  by_cases hack : packet.header.type = .ack
  · have hquiet : ∀ {start t' : SessionTransport}, Emits .ack start t' → Quiet env start t' :=
      fun h => h.quiet plain_ack
    have hdispatch : dispatch env packet = handleAck env packet := by
      unfold dispatch
      rw [hack]
    have hboth := handleAck_effect (P := fun t' => Effect env t (.processPacket datagram) t' ∧
        Effect env t (.processPacket datagram) (t'.hear env packet))
      (fun t' h => ⟨.quiet (hquiet h), .quiet ((hquiet h).hear packet)⟩)
      (fun command hfind t' h =>
        ⟨.release hfind (hquiet h), .release hfind ((hquiet h).hear packet)⟩)
      fun command hnames hfind hfresh t' h =>
        ⟨.ack hparse hack hnames hfind hfresh (hquiet h),
          .ack hparse hack hnames hfind hfresh ((hquiet h).hear packet)⟩
    rw [hdispatch]
    -- the packet is heard only when the handler returns
    cases hrun : handleAck env packet t with
    | ok _ t' =>
      rw [final_of_eq_ok hrun] at hboth
      rw [wp_of_eq_ok hrun]
      exact hboth.2
    | error failure t' =>
      rw [final_of_eq_error hrun] at hboth
      rw [wp_of_eq_error hrun]
      exact hboth.1
  by_cases hpong : packet.header.type = .pong
  · have hdispatch : dispatch env packet = handlePong env packet := by
      unfold dispatch
      rw [hpong]
    rw [hdispatch]
    rcases handlePong_cases env packet t with
      (⟨_, hrun⟩ | ⟨_, hrun⟩) | ⟨pendingPing, hpending, hnames, hrun⟩
    · rw [wp_of_eq_ok hrun]
      exact .quiet ((Emits.refl t |>.quiet plain_voice).hear packet)
    · rw [wp_of_eq_error hrun]
      exact .quiet (Emits.refl t |>.quiet plain_voice)
    · rw [wp_of_eq_ok hrun]
      exact .pong hparse hpong hnames hpending
  · obtain ⟨type, htype, hmoves⟩ : ∃ type, Plain type ∧ Moves (Emits type) (dispatch env packet) :=
      exists_emits_dispatch hack hpong
    exact wp_mono (hmoves.apply t) (fun _ _ h => .quiet ((h.quiet htype).hear packet))
      fun _ _ h => .quiet (h.quiet htype)

theorem effect_processTimers (hlt : t.outgoingKey .ping + 1 < 2 ^ 48) :
    Effect env t .processTimers (step env t .processTimers) := by
  refine wp_final.1 ?_
  show wp (processTimers env) _ _ t
  unfold processTimers
  rw [wp_bind, wp_now, wp_bind]
  unfold onReliableCommands
  rw [wp_zoom]
  cases hcollect : collectDue (env.clock t.ticks) t.reliableCommands with
  | error failure queue =>
    rw [wp_of_eq_error hcollect]
    exact .expired hcollect
  | ok packets queue =>
    rw [wp_of_eq_ok hcollect, wp_bind]
    refine wp_mono (resends_sendDue packets _) (fun _ u hresend => ?_)
      fun _ u hresend => .timers hcollect hresend .idle
    have hkey : u.outgoingKey .ping = t.outgoingKey .ping := by
      unfold outgoingKey
      rw [hresend.outgoing]
    rw [← hkey] at hlt
    exact wp_mono (probes_keepAlive hlt) (fun _ _ h => .timers hcollect hresend h)
      fun _ _ h => .timers hcollect hresend h

/-- **All that a call does**, while the pings have numbers left. -/
theorem effect_step (hlt : t.outgoingKey .ping + 1 < 2 ^ 48) (operation : Operation) :
    Effect env t operation (step env t operation) := by
  have hquiet : ∀ {type : PacketType} {m : Session Unit}, Plain type → Moves (Emits type) m →
      Effect env t operation (final m t) := fun htype hmoves => .quiet ((hmoves.final t).quiet htype)
  have hsame : ∀ {m : Session Unit}, Moves (Emits .voice) m → Effect env t operation (final m t) :=
    hquiet plain_voice
  have hread : ∀ t' : SessionTransport, t' = { t with
      readyCommands := t'.readyCommands
      readyVoice := t'.readyVoice } → Emits .voice t t' := fun t' h => by
    rw [h]
    exact .of_eq rfl rfl le_rfl (fun _ => rfl) rfl rfl rfl rfl
  cases operation with
  | sendCommand data =>
    exact .command ((Moves.bind .trans (emits_sendCommand data) fun _ => .pure .refl _).final t)
  | sendVoice codec data encrypted talkStart => 
    rw [step, perform, sendVoice]
    exact hsame (emits_sendVoicePayload _ _ _ _)
  | sendVoiceWhisper codec channelIds clientIds data encrypted talkStart =>
    rw [step, perform, sendVoiceWhisper]
    exact hquiet plain_voiceWhisper (emits_sendVoicePayload _ _ _ _)
  | sendGroupWhisper codec type target targetId data encrypted talkStart =>
    rw [step, perform, sendGroupWhisper]
    exact hquiet plain_voiceWhisper (emits_sendVoicePayload _ _ _ _)
  | confirmCommand packetId =>
    refine wp_final.1 ?_
    show wp (onReliableCommands _ >>= _) _ _ _
    rw [wp_bind]
    refine wp_acknowledge (.quiet (Emits.refl t |>.quiet plain_voice)) fun command hfind _ => ?_
    exact .release hfind (Emits.refl _ |>.quiet plain_voice)
  | processPacket datagram => exact effect_processPacket datagram
  | processTimers => exact effect_processTimers hlt
  | takeReadyCommand =>
    refine wp_final.1 ?_
    show wp (takeReadyCommand >>= _) _ _ _
    rw [wp_bind, takeReadyCommand, wp_bind, wp_get]
    cases t.readyCommands with
    | nil => exact .quiet (Emits.refl t |>.quiet plain_voice)
    | cons command commands => exact .quiet (hread _ rfl |>.quiet plain_voice)
  | takeReadyVoice =>
    refine wp_final.1 ?_
    show wp (takeReadyVoice >>= _) _ _ _
    rw [wp_bind, takeReadyVoice, wp_bind, wp_get]
    cases t.readyVoice with
    | nil => exact .quiet (Emits.refl t |>.quiet plain_voice)
    | cons frame frames => exact .quiet (hread _ rfl |>.quiet plain_voice)
  | setClientId clientId =>
    exact hsame (.ite _ (.throw .refl _)
      (.modify fun _ => .of_eq rfl rfl le_rfl (fun _ => rfl) rfl rfl rfl rfl))
  | setConnected => exact .connect

end TsCli.SessionTransport
