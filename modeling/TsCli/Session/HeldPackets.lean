import TsCli.Lib.Runs
import TsCli.Session.TransportRules

/-!
# What all packets of a run satisfy

A packet comes into being in `createPacket`. It then goes out, and if it is a command it is queued
before and may go out again. So what every new packet satisfies is satisfied by all packets on the
wire and in the queue, whatever the transport does and whenever it throws (`holds_run`).
-/

namespace TsCli.SessionTransport

open Exec PacketLimits ReliableCommandQueue

/-- `createPacket` makes the packet, in some state. -/
def Made (env : Environment) (encrypted : Bool) (type : PacketType) (flags : PacketFlags)
    (data : Bytes) (packet : Packet) : Prop :=
  ∃ t : SessionTransport, createPacket env encrypted type flags data t = .ok packet t

/-- The kinds of packets that the transport makes. -/
structure Kind where
  encrypted : Bool
  type : PacketType
  flags : PacketFlags

/-- Commands and acknowledgements are encrypted, pings and pongs are not, and for voice the caller
decides. -/
inductive Kind.Used : Kind → Prop
  | command {flags : PacketFlags} (h : flags = .newProtocol ∨ flags = .newProtocol ||| .fragmented) :
      Used ⟨true, .command, flags⟩
  | voice {encrypted : Bool} {flags : PacketFlags} (h : flags = .none ∨ flags = .compressed) :
      Used ⟨encrypted, .voice, flags⟩
  | voiceWhisper {encrypted : Bool} {flags : PacketFlags} (h : flags ∈ [.none, .compressed,
      .newProtocol, .newProtocol ||| .compressed]) : Used ⟨encrypted, .voiceWhisper, flags⟩
  | ack : Used ⟨true, .ack, .none⟩
  | ackLow : Used ⟨true, .ackLow, .none⟩
  | ping : Used ⟨false, .ping, .none⟩
  | pong : Used ⟨false, .pong, .none⟩

/-- Every packet on the wire and in the queue satisfies `P`. -/
def Holds (P : Packet → Prop) (t : SessionTransport) : Prop :=
  (∀ packet ∈ t.sent, P packet) ∧
    ∀ k packet, t.reliableCommands.packet? k = some packet → P packet

/-- What a call that sends no command does: the packets still satisfy `P`, nothing is taken back
from the wire, and the commands are numbered as before. -/
structure Keeps (P : Packet → Prop) (t t' : SessionTransport) : Prop where
  holds : Holds P t → Holds P t'
  sent : t.sent <+: t'.sent
  command : t'.sequences.outgoing .command = t.sequences.outgoing .command

variable {env : Environment} {P : Packet → Prop} {t t' : SessionTransport}

theorem Holds.mono {P' : Packet → Prop} (h : Holds P t) (hP : ∀ packet, P packet → P' packet) :
    Holds P' t :=
  ⟨fun packet hpacket => hP packet (h.1 packet hpacket),
    fun k packet hpacket => hP packet (h.2 k packet hpacket)⟩

theorem Keeps.refl (t : SessionTransport) : Keeps P t t := ⟨id, List.prefix_rfl, rfl⟩

theorem Keeps.trans (a b c : SessionTransport) (h : Keeps P a b) (h' : Keeps P b c) :
    Keeps P a c :=
  ⟨h'.holds ∘ h.holds, h.sent.trans h'.sent, h'.command.trans h.command⟩

theorem Keeps.of_eq (hsent : t'.sent = t.sent)
    (hqueue : t'.reliableCommands.packet? = t.reliableCommands.packet?)
    (hcommand : t'.sequences.outgoing .command = t.sequences.outgoing .command) : Keeps P t t' := by
  refine ⟨fun h => ?_, hsent ▸ List.prefix_rfl, hcommand⟩
  unfold Holds
  rw [hsent, hqueue]
  exact h

theorem holds_empty (sequences : PacketSequenceState) : Holds P { sequences } := ⟨nofun, nofun⟩

/-! ## Creating and sending -/

/-- Creating a packet leaves the state alone. -/
theorem wp_createPacket_made {Q : Packet → SessionTransport → Prop}
    {E : Failure → SessionTransport → Prop} {encrypted : Bool} {type : PacketType}
    {flags : PacketFlags} {data : Bytes}
    (hmade : ∀ packet, createPacket env encrypted type flags data t = .ok packet t → Q packet t)
    (hfail : ∀ failure, E failure t) : wp (createPacket env encrypted type flags data) Q E t := by
  cases encrypted with
  | false => exact hmade _ rfl
  | true =>
    cases hcreate : createEncryptedPacket env t.clientId type flags data
      (t.sequences.outgoing type) with
    | ok packet =>
      have hrun : createPacket env true type flags data t = .ok packet t := by
        change lift (createEncryptedPacket ..) t = _
        rw [hcreate]
        rfl
      rw [wp_of_eq_ok hrun]
      exact hmade packet hrun
    | error failure =>
      have hrun : createPacket env true type flags data t = .error failure t := by
        change lift (createEncryptedPacket ..) t = _
        rw [hcreate]
        rfl
      rw [wp_of_eq_error hrun]
      exact hfail failure

theorem keeps_transmit {type : PacketType} (htype : type ≠ .command) {packet : Packet}
    (h : P packet) : Moves (Keeps P) (transmit env type packet) := by
  have hsent : ∀ {s s' : SessionTransport}, Transmitted s s' packet →
      s'.sequences.outgoing .command = s.sequences.outgoing .command → Keeps P s s' := by
    intro s s' htransmitted hcommand
    refine ⟨fun hs => ⟨fun other hother => ?_, ?_⟩, ?_, hcommand⟩
    · rw [htransmitted.sent, List.mem_append, List.mem_singleton] at hother
      rcases hother with hother | rfl
      · exact hs.1 other hother
      · exact h
    · rw [htransmitted.reliableCommands]
      exact hs.2
    · rw [htransmitted.sent]
      exact List.prefix_append ..
  refine ⟨fun s => wp_transmit (fun _ _ => .of_eq rfl rfl rfl) (fun _ _ s' hs hout => ?_)
    fun _ _ _ s' hs hout => hsent hs (by rw [hout])⟩
  exact hsent hs (by rw [hout, Function.update_of_ne htype.symm])

section Made

variable {encrypted : Bool} {type : PacketType} {flags : PacketFlags} {data : Bytes}

theorem keeps_createTransmit (htype : type ≠ .command)
    (h : ∀ packet, Made env encrypted type flags data packet → P packet) :
    Moves (Keeps P) (createPacket env encrypted type flags data >>= transmit env type) := by
  refine ⟨fun s => ?_⟩
  rw [wp_bind]
  exact wp_createPacket_made
    (fun packet hmade => (keeps_transmit htype (h packet ⟨s, hmade⟩)).apply s) fun _ => .refl s

theorem keeps_sendPacket (htype : type ≠ .command)
    (h : ∀ packet, Made env encrypted type flags data packet → P packet) :
    Moves (Keeps P) (sendPacket env encrypted type flags data) :=
  .ite _ (.throw .refl _) (keeps_createTransmit htype h)

theorem keeps_sendVoicePayload (htype : type ≠ .command)
    {payload : UInt16 → Except Failure Bytes}
    (h : ∀ data packet, Made env encrypted type flags data packet → P packet) :
    Moves (Keeps P) (sendVoicePayload env type payload flags encrypted) :=
  .bind .trans (.get .refl) fun _ => .bind .trans (.lift .refl _) fun _ =>
    keeps_createTransmit htype (h _)

end Made

/-! ## Commands -/

/-- A new packet of a command is in the queue, and on the wire unless `Send` failed. -/
structure Queues (t t' : SessionTransport) (packet : Packet) : Prop where
  sent : t'.sent = t.sent ∨ t'.sent = t.sent ++ [packet]
  queued : t'.reliableCommands.packet? =
    Function.update t.reliableCommands.packet? (t.outgoingKey .command) (some packet)

theorem Queues.holds {packet : Packet} (h : Queues t t' packet) (hpacket : P packet)
    (ht : Holds P t) : Holds P t' := by
  refine ⟨fun other hother => ?_, fun k other hother => ?_⟩
  · rcases h.sent with hsent | hsent <;> rw [hsent] at hother
    · exact ht.1 other hother
    · rcases List.mem_append.1 hother with hother | hother
      · exact ht.1 other hother
      · rwa [List.mem_singleton.1 hother]
  · rw [h.queued, Function.update_apply] at hother
    split_ifs at hother
    · cases hother
      exact hpacket
    · exact ht.2 k other hother

/-- `SendCommandPacket` returns when the packet is queued and sent and the sequence has advanced. -/
theorem wp_sendCommandPacket_made {data : Bytes} {flags : PacketFlags} :
    wp (sendCommandPacket env data flags)
      (fun _ t' => ∃ packet, createPacket env true .command flags data t = .ok packet t ∧
        Queues t t' packet ∧ packet ∈ t'.sent ∧ t.sent <+: t'.sent ∧
        t.outgoingKey .command + 1 < 2 ^ 48 ∧
        t'.sequences.outgoing .command = .ofKey (t.outgoingKey .command + 1))
      (fun _ t' => Holds P t → (∀ packet, Made env true .command flags data packet → P packet) →
        Holds P t') t := by
  unfold sendCommandPacket
  rw [wp_bind, wp_get, wp_bind]
  refine wp_createPacket_made (fun packet hmade => ?_) fun _ ht _ => ht
  rw [wp_bind, wp_now, wp_bind]
  unfold onReliableCommands
  rw [wp_zoom]
  rcases t.reliableCommands.add_cases (t.sequences.outgoing .command).packetId
    (t.sequences.outgoing .command).generationId packet (env.clock t.ticks) with
    ⟨-, failure, -, hrun⟩ | ⟨-, hid, hrun⟩
  · rw [wp_of_eq_error hrun]
    exact fun ht _ => ht
  · rw [wp_of_eq_ok hrun, wp_bind, wp_modify, wp_bind]
    have hqueues : ∀ {t' : SessionTransport}, (t'.sent = t.sent ∨ t'.sent = t.sent ++ [packet]) →
        t'.reliableCommands = t.reliableCommands.insert (newCommand
          (t.sequences.outgoing .command).packetId (t.sequences.outgoing .command).generationId
          packet (env.clock t.ticks)) hid → Queues t t' packet := by
      intro t' hsent hqueue
      refine ⟨hsent, ?_⟩
      rw [hqueue]
      exact packet?_insert hid
    have hholds : ∀ {t' : SessionTransport}, Queues t t' packet → Holds P t →
        (∀ packet, Made env true .command flags data packet → P packet) → Holds P t' :=
      fun h ht hnew => h.holds (hnew packet ⟨t, hmade⟩) ht
    refine wp_transmit (fun _ _ => hholds (hqueues (.inl rfl) rfl))
      (fun _ hlt t' hsent hout => ⟨packet, hmade, hqueues (.inr hsent.sent) hsent.reliableCommands,
        ?_, ?_, hlt, ?_⟩)
      fun _ _ _ t' hsent _ => hholds (hqueues (.inr hsent.sent) hsent.reliableCommands)
    · rw [hsent.sent]
      exact List.mem_append_right _ List.mem_cons_self
    · rw [hsent.sent]
      exact List.prefix_append ..
    · rw [hout, Function.update_self]
      rfl

theorem holds_sendFragments {data : Bytes} : ∀ (fragments : List CommandFragment)
    (lastPacketId : UInt16), (∀ fragment ∈ fragments, ∀ payload packet,
      Made env true .command fragment.flags payload packet → P packet) →
    Moves (fun t t' => Holds P t → Holds P t') (sendFragments env data lastPacketId fragments)
  | [], _, _ => .pure (fun _ => id) _
  | fragment :: fragments, _, h => by
    refine .bind (R := fun t t' => Holds P t → Holds P t') (fun _ _ _ h h' => h' ∘ h)
      ⟨fun t => ?_⟩ fun packetId =>
      holds_sendFragments fragments packetId fun other hother =>
        h other (List.mem_cons_of_mem _ hother)
    have hnew := h fragment List.mem_cons_self
    refine wp_mono (wp_sendCommandPacket_made (P := P)) (fun _ t' hmade ht => ?_) fun _ _ hfail ht =>
      hfail ht (hnew _)
    obtain ⟨packet, hmade, hqueues, -⟩ := hmade
    exact hqueues.holds (hnew _ packet ⟨t, hmade⟩) ht

/-! ## Acknowledging and resending -/

theorem keeps_acknowledge (packetId : UInt16) :
    Moves (Keeps P) (onReliableCommands (acknowledge packetId)) := by
  refine ⟨fun s => ?_⟩
  unfold onReliableCommands
  rw [wp_zoom]
  rcases s.reliableCommands.acknowledge_cases packetId with ⟨-, hrun⟩ | ⟨command, -, -, hrun⟩
  · rw [wp_of_eq_ok hrun]
    exact .refl s
  · rw [wp_of_eq_ok hrun]
    refine ⟨fun hs => ⟨hs.1, fun k packet hpacket => ?_⟩, List.prefix_rfl, rfl⟩
    rw [packet?_erase, Function.update_apply] at hpacket
    split_ifs at hpacket
    exact hs.2 k packet hpacket

theorem keeps_sendDue : ∀ packets : List Packet, (∀ packet ∈ packets, P packet) →
    Moves (Keeps P) (sendDue env packets)
  | [], _ => .pure .refl _
  | packet :: packets, h => by
    have hsend : Moves (Keeps P) (send env packet) := by
      refine ⟨fun s => ?_⟩
      rw [wp_send]
      cases env.sendErrors s.attempts with
      | some error => exact .of_eq rfl rfl rfl
      | none =>
        refine ⟨fun hs => ⟨fun other hother => ?_, hs.2⟩, List.prefix_append .., rfl⟩
        rcases List.mem_append.1 hother with hother | hother
        · exact hs.1 other hother
        · exact List.mem_singleton.1 hother ▸ h packet List.mem_cons_self
    have hrecord : Moves (Keeps P) (recordSent env .command packet) :=
      .bind .trans (.modifyGet fun _ => .of_eq rfl rfl rfl) fun _ =>
        .modify fun _ => .of_eq rfl rfl rfl
    exact .bind .trans hsend fun _ => .bind .trans hrecord fun _ =>
      keeps_sendDue packets fun other hother => h other (List.mem_cons_of_mem _ hother)

theorem keeps_onIncoming {α : Type} (type : PacketType) (m : EStateM Failure PacketSequence α) :
    Moves (Keeps P) (onIncoming type m) := .zoom (fun _ _ => .of_eq rfl rfl rfl) m

theorem keeps_recordRttSince (sentAt : TimePoint) :
    Moves (Keeps P) (recordRttSince env sentAt) :=
  .bind .trans (.modifyGet fun _ => .of_eq rfl rfl rfl) fun _ =>
    .modify fun _ => .of_eq rfl rfl rfl

/-! ## Calls -/

section Calls

-- new packets that are no commands satisfy `P`
variable (hother : ∀ kind : Kind, kind.Used → kind.type ≠ .command → ∀ data packet,
  Made env kind.encrypted kind.type kind.flags data packet → P packet)

include hother

theorem keeps_sendPing (time : TimePoint) : Moves (Keeps P) (sendPing env time) :=
  .bind .trans (.get .refl) fun _ => .bind .trans
    (keeps_sendPacket nofun (hother ⟨false, .ping, .none⟩ .ping nofun _)) fun _ =>
      .modify fun _ => .of_eq rfl rfl rfl

theorem keeps_keepAlive (time : TimePoint) : Moves (Keeps P) (keepAlive env time) := by
  refine ⟨fun s => ?_⟩
  unfold keepAlive
  rw [wp_bind, wp_get, wp_ite]
  refine ⟨fun _ => .refl s, fun _ => ?_⟩
  cases s.pendingPing with
  | none => exact (Moves.ite _ (keeps_sendPing hother time) (.pure .refl _)).apply s
  | some pendingPing =>
    dsimp only
    rw [wp_ite, wp_ite]
    refine ⟨fun _ => .of_eq rfl rfl rfl, fun _ => ⟨fun _ => ?_, fun _ => .refl s⟩⟩
    rw [wp_bind, wp_set]
    have hquiet : Keeps P s { s with pendingPing := none } := .of_eq rfl rfl rfl
    exact wp_mono ((keeps_sendPing hother time).apply _) (fun _ _ => .trans _ _ _ hquiet)
      fun _ _ => .trans _ _ _ hquiet

/-- What follows in `processTimers` once the due packets are known. -/
theorem keeps_resend {packets : List Packet} (h : ∀ packet ∈ packets, P packet)
    (time : TimePoint) : Moves (Keeps P) (do sendDue env packets; keepAlive env time) :=
  .bind .trans (keeps_sendDue packets h) fun _ => keeps_keepAlive hother time

theorem keeps_processTimers : Moves (Keeps P) (processTimers env) := by
  refine ⟨fun s => ?_⟩
  unfold processTimers onReliableCommands
  rw [wp_bind, wp_now, wp_bind, wp_zoom]
  refine wp_mono (wp_collectDue _ _) (fun packets queue h => ?_) fun _ queue hsame =>
    .of_eq rfl hsame rfl
  obtain ⟨hsame, hdue⟩ := h
  have hqueue : Keeps P s { s with ticks := s.ticks + 1, reliableCommands := queue } :=
    .of_eq rfl hsame rfl
  by_cases hs : Holds P s
  · -- what is sent again was in the queue
    have hpackets : ∀ packet ∈ packets, P packet := by
      intro packet hpacket
      obtain ⟨k, hk⟩ := hdue packet hpacket
      exact (hqueue.holds hs).2 k packet hk
    exact wp_mono ((keeps_resend hother hpackets _).apply _) (fun _ _ => .trans _ _ _ hqueue)
      fun _ _ => .trans _ _ _ hqueue
  · have hany : Moves (Keeps fun _ => True) (do sendDue env packets; keepAlive env _) :=
      keeps_resend (fun _ _ _ _ _ _ => trivial) (fun _ _ => trivial) (env.clock s.ticks)
    exact wp_mono (hany.apply _) (fun _ _ h => ⟨fun h => absurd h hs, h.sent, h.command⟩)
      fun _ _ h => ⟨fun h => absurd h hs, h.sent, h.command⟩

theorem keeps_dispatch (packet : ServerPacket) : Moves (Keeps P) (dispatch env packet) := by
  have hmodify : ∀ f : SessionTransport → SessionTransport, (∀ s, Keeps P s (f s)) →
      Moves (Keeps P) (modify f : Session PUnit) := fun f hf => .modify hf
  have hcommand : ∀ stream : CommandStream, (∀ receiver s,
      Keeps P s (stream.setReceiver receiver s)) →
      (⟨true, stream.ackType, .none⟩ : Kind).Used → stream.ackType ≠ .command →
      Moves (Keeps P) (processIncomingCommand env stream packet) := by
    intro stream hstream hused htype
    unfold processIncomingCommand sendAck sendEncrypted
    refine .bind .trans (.get .refl) fun s => ?_
    dsimp only
    refine .bind .trans (.lift .refl _) fun _ => .bind .trans (.lift .refl _) fun _ => .bind .trans
      (keeps_sendPacket htype (hother _ hused htype _)) fun _ => .bind .trans (.zoom (fun r s => ?_) _)
        fun _ => hmodify _ fun _ => .of_eq rfl rfl rfl
    exact hstream r s
  have hvoice : Moves (Keeps P) (handleVoice env packet) := by
    unfold handleVoice
    refine .bind .trans (.get .refl) fun s => ?_
    dsimp only
    exact .bind .trans (.lift .refl _) fun _ => .bind .trans (.lift .refl _) fun _ =>
      .bind .trans (.lift .refl _) fun _ => .bind .trans (hmodify _ fun _ => .of_eq rfl rfl rfl) fun _ =>
        keeps_onIncoming _ _
  unfold dispatch
  cases packet.header.type with
  | ack =>
    unfold handleAck
    refine .bind .trans (.get .refl) fun s => ?_
    dsimp only
    refine .bind .trans (.lift .refl _) fun generationId => .ite _ ?_ ?_
    · cases s.firstCommandPacketId with
      | none => exact keeps_onIncoming _ _
      | some packetId => exact .bind .trans (keeps_acknowledge _) fun _ => keeps_onIncoming _ _
    · refine .bind .trans (.lift .refl _) fun packetId => .bind .trans (keeps_acknowledge _)
        fun acknowledgement => ?_
      cases acknowledgement with
      | none => exact keeps_onIncoming _ _
      | some acknowledgement =>
        exact .ite _ (.bind .trans (keeps_recordRttSince _) fun _ => keeps_onIncoming _ _)
          (keeps_onIncoming _ _)
  | ping =>
    unfold handlePing sendPong sendUnencrypted
    exact .bind .trans (.lift .refl _) fun _ => .bind .trans (.lift .refl _) fun _ =>
      keeps_sendPacket nofun (hother ⟨false, .pong, .none⟩ .pong nofun _)
  | pong =>
    refine .bind .trans (.lift .refl _) fun _ => .bind .trans (.lift .refl _) fun _ =>
      .bind .trans (.lift .refl _) fun _ => .bind .trans (.lift .refl _) fun _ =>
        .bind .trans (.get .refl) fun s => ?_
    cases s.pendingPing with
    | none => exact .pure .refl _
    | some pendingPing =>
      exact .ite _ (.bind .trans (keeps_recordRttSince _) fun _ => hmodify _ fun _ => .of_eq rfl rfl rfl)
        (.pure .refl _)
  | command => exact hcommand commandStream (fun _ _ => .of_eq rfl rfl rfl) .ack nofun
  | commandLow => exact hcommand commandLowStream (fun _ _ => .of_eq rfl rfl rfl) .ackLow nofun
  | voice => exact hvoice
  | voiceWhisper => exact hvoice
  | ackLow =>
    unfold handleAckLow
    refine .bind .trans (.get .refl) fun s => ?_
    dsimp only
    refine .bind .trans (.lift .refl _) fun _ => .bind .trans (.lift .refl _) fun _ => ?_
    exact .ite _ (.throw .refl _) (keeps_onIncoming _ _)
  | init1 => exact .throw .refl _
  | unnamed value h => exact .pure .refl _

/-- Every call but `SendCommand`. -/
theorem keeps_perform {operation : Operation} (h : ∀ data, operation ≠ .sendCommand data) :
    Moves (Keeps P) (perform env operation) := by
  cases operation with
  | sendCommand data => exact absurd rfl (h data)
  | sendVoice codec data encrypted talkStart =>
    have hused : Kind.Used ⟨encrypted, .voice, if talkStart then .compressed else .none⟩ :=
      .voice (by cases talkStart <;> simp)
    have htype : PacketType.voice ≠ .command := by decide
    unfold perform sendVoice
    exact keeps_sendVoicePayload htype (hother _ hused htype)
  | sendVoiceWhisper codec channelIds clientIds data encrypted talkStart =>
    have hused : Kind.Used ⟨encrypted, .voiceWhisper, if talkStart then .compressed else .none⟩ :=
      .voiceWhisper (by cases talkStart <;> simp)
    have htype : PacketType.voiceWhisper ≠ .command := by decide
    unfold perform sendVoiceWhisper
    exact keeps_sendVoicePayload htype (hother _ hused htype)
  | sendGroupWhisper codec type target targetId data encrypted talkStart =>
    have hused : Kind.Used ⟨encrypted, .voiceWhisper, if talkStart then
        PacketFlags.newProtocol ||| PacketFlags.compressed else PacketFlags.newProtocol⟩ :=
      .voiceWhisper (by cases talkStart <;> simp)
    have htype : PacketType.voiceWhisper ≠ .command := by decide
    unfold perform sendGroupWhisper
    exact keeps_sendVoicePayload htype (hother _ hused htype)
  | confirmCommand packetId => exact .bind .trans (keeps_acknowledge _) fun _ => .pure .refl _
  | processPacket datagram =>
    exact .bind .trans (.lift .refl _) fun packet => .bind .trans (keeps_dispatch hother packet)
      fun _ => .bind .trans (.modifyGet fun _ => .of_eq rfl rfl rfl) fun _ =>
        .modify fun _ => .of_eq rfl rfl rfl
  | processTimers => exact keeps_processTimers hother
  | takeReadyCommand =>
    refine .bind .trans ⟨fun s => ?_⟩ fun _ => .pure .refl _
    rw [takeReadyCommand, wp_bind, wp_get]
    cases s.readyCommands with
    | nil => exact .refl s
    | cons command commands => exact .of_eq rfl rfl rfl
  | takeReadyVoice =>
    refine .bind .trans ⟨fun s => ?_⟩ fun _ => .pure .refl _
    rw [takeReadyVoice, wp_bind, wp_get]
    cases s.readyVoice with
    | nil => exact .refl s
    | cons frame frames => exact .of_eq rfl rfl rfl
  | setClientId clientId => exact .ite _ (.throw .refl _) (.modify fun _ => .of_eq rfl rfl rfl)
  | setConnected =>
    exact .bind .trans (.modifyGet fun _ => .of_eq rfl rfl rfl) fun _ => .modify fun _ => .of_eq rfl rfl rfl

end Calls

/-! ## Runs -/

/-- The packets of a command carry `NewProtocol`, and some `Fragmented`. -/
theorem flags_of_plan {commandSize : ℕ} {fragments : List CommandFragment}
    (h : CommandFragmenter.plan commandSize = .ok fragments) : ∀ fragment ∈ fragments,
      fragment.flags = .newProtocol ∨ fragment.flags = .newProtocol ||| .fragmented := by
  have hloop : ∀ fuel offset, ∀ fragment ∈ CommandFragmenter.planLoop commandSize fuel offset,
      fragment.flags = .newProtocol ∨ fragment.flags = .newProtocol ||| .fragmented := by
    intro fuel
    induction fuel with
    | zero => exact fun _ _ => nofun
    | succ fuel ih =>
      intro offset fragment hfragment
      rw [CommandFragmenter.planLoop] at hfragment
      split_ifs at hfragment with hoffset
      · rcases List.mem_cons.1 hfragment with rfl | hfragment
        · dsimp only
          split_ifs
          · exact .inr rfl
          · exact .inl rfl
        · exact ih _ fragment hfragment
      · cases hfragment
  unfold CommandFragmenter.plan at h
  split_ifs at h with hlarge hsmall
  · cases h
    intro fragment hfragment
    exact .inl (by rw [List.mem_singleton.1 hfragment])
  · cases h
    exact hloop _ _

/-- New packets satisfy `P`. -/
def New (env : Environment) (P : Packet → Prop) : Prop :=
  ∀ kind : Kind, kind.Used → ∀ data packet,
    Made env kind.encrypted kind.type kind.flags data packet → P packet

theorem holds_sendCommand (hnew : New env P) (data : Bytes) :
    Moves (fun t t' => Holds P t → Holds P t') (sendCommand env data) := by
  refine ⟨fun t => ?_⟩
  cases hplan : CommandFragmenter.plan data.length with
  | error failure =>
    unfold sendCommand wp
    rw [run_lift_bind_error hplan]
    exact id
  | ok fragments =>
    have hsend : Moves (fun t t' => Holds P t → Holds P t') (sendFragments env data 0 fragments) :=
      holds_sendFragments fragments 0 fun fragment hfragment => hnew ⟨true, .command, fragment.flags⟩
        (.command (flags_of_plan hplan fragment hfragment))
    unfold wp
    rw [sendCommand, run_lift_bind_ok hplan]
    exact hsend.apply t

theorem holds_step (hnew : New env P) (operation : Operation) (h : Holds P t) :
    Holds P (step env t operation) := by
  have hcall : Moves (fun t t' => Holds P t → Holds P t') (perform env operation) := by
    by_cases hcommand : ∃ data, operation = .sendCommand data
    · obtain ⟨data, rfl⟩ := hcommand
      exact .bind (R := fun t t' => Holds P t → Holds P t') (fun _ _ _ h h' => h' ∘ h)
        (holds_sendCommand hnew data) fun _ => .pure (fun _ => id) _
    · have hkeeps := keeps_perform (fun kind hused _ => hnew kind hused)
        fun data hdata => hcommand ⟨data, hdata⟩
      exact ⟨fun s => wp_mono (hkeeps.apply s) (fun _ _ hs => hs.holds) fun _ _ hs => hs.holds⟩
  exact hcall.final t h

/-- What holds of new packets holds of all packets of a run. -/
theorem holds_run (hnew : New env P) (sequences : PacketSequenceState)
    (operations : List Operation) : Holds P (run env { sequences } operations) :=
  Runs.invariant (fun _ operation h => holds_step hnew operation h) (holds_empty sequences) operations

end TsCli.SessionTransport
