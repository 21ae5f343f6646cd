import TsCli.Crypto.BootstrapCrypto
import TsCli.Lib.Numbering
import TsCli.Session.TransportRules

/-!
# No key and nonce for two plaintexts

Key and nonce of an encrypted packet are made from its type, generation and id, so no two datagrams
on the wire may differ at one position. The transport is a numbered sender whose reliable stream
are the commands, and every call keeps the invariant of that sender, with one exception: `Send` may
throw for a command that stays in the queue, and once a retransmission of it is acknowledged the
queue forgets it while its number is still the next one.
-/

namespace TsCli.SessionTransport

open Exec PacketLimits ReliableCommandQueue

/-- How packets are numbered: by generation and id, in each type. -/
def numbering : StreamNumbering PacketType Packet where
  stream packet := packet.position.type
  number packet := packet.position.key
  reliable := .command
  limit := 2 ^ 48

/-- The transport as a numbered sender. -/
def sender (t : SessionTransport) : NumberedSender PacketType Packet where
  next := t.outgoingKey
  wire := t.sent.toFinset
  held := t.reliableCommands.packet?

/-- What every step does for the numbering. -/
def Numbers (start : PacketType → ℕ) (t t' : SessionTransport) : Prop :=
  numbering.Sound start t.sender → numbering.Sound start t'.sender

variable {env : Environment} {start : PacketType → ℕ} {t t' : SessionTransport}

theorem Numbers.refl (t : SessionTransport) : Numbers start t t := id

theorem Numbers.trans (a b c : SessionTransport) (h : Numbers start a b)
    (h' : Numbers start b c) : Numbers start a c := h' ∘ h

/-! ## Parts of the sender -/

theorem sender_congr (hout : t'.sequences.outgoing = t.sequences.outgoing)
    (hsent : t'.sent = t.sent)
    (hqueue : t'.reliableCommands.packet? = t.reliableCommands.packet?) :
    t'.sender = t.sender := by
  unfold sender outgoingKey
  rw [hout, hsent, hqueue]

theorem sender_enqueue (command : PendingCommand)
    (h : ¬ t.reliableCommands.contains command.packetId = true) :
    (t.enqueue command h).sender = t.sender.hold command.key command.packet := by
  unfold sender NumberedSender.hold
  congr 1
  exact packet?_insert h

theorem sender_erase (k : ℕ) :
    ({ t with reliableCommands := t.reliableCommands.erase k } : SessionTransport).sender =
      t.sender.release k := by
  unfold sender NumberedSender.release
  congr 1
  exact packet?_erase k

theorem sender_of_transmitted {packet : Packet} {type : PacketType} {sequence : PacketSequence}
    (h : Transmitted t t' packet)
    (hout : t'.sequences.outgoing = Function.update t.sequences.outgoing type sequence) :
    t'.sender = t.sender.put type packet sequence.key := by
  unfold sender NumberedSender.put outgoingKey
  rw [hout, h.sent, h.reliableCommands]
  congr 1
  · funext a
    rw [Function.update_apply, Function.update_apply]
    split_ifs <;> rfl
  · rw [List.toFinset_append, Finset.union_comm]
    rfl

theorem Numbers.of_sender_eq (h : t'.sender = t.sender) : Numbers start t t' :=
  fun hsound => by rwa [h]

/-- What was done before `m` is put in front. -/
theorem Numbers.wp_trans {α : Type} {m : Session α} (h : Numbers start t t')
    (hm : wp m (fun _ => Numbers start t') (fun _ => Numbers start t') t') :
    wp m (fun _ => Numbers start t) (fun _ => Numbers start t) t' :=
  wp_mono hm (fun _ _ => .trans _ _ _ h) fun _ _ => .trans _ _ _ h

/-! ## Sending -/

/-- The packet at the current position of its type goes out; a command is queued before. -/
theorem numbers_transmit {type : PacketType} {packet : Packet}
    (hposition : packet.position = positionOf type (t.sequences.outgoing type))
    (hqueued : type = .command →
      t.sender.held (t.outgoingKey .command) = some packet) :
    wp (transmit env type packet) (fun _ => Numbers start t) (fun _ => Numbers start t) t := by
  have hstream : numbering.stream packet = type := congrArg PacketPosition.type hposition
  have hkey : packet.position.key = t.outgoingKey type := by rw [hposition, key_positionOf]
  have hnumber : numbering.number packet = t.sender.next (numbering.stream packet) := by
    rw [hstream]
    exact hkey
  have hheld : numbering.stream packet = numbering.reliable →
      t.sender.held (numbering.number packet) = some packet := fun hreliable => by
    rw [hstream] at hreliable
    rw [hnumber, hstream, hreliable]
    exact hqueued hreliable
  refine wp_transmit (fun _ _ => id) (fun _ hlt t' hsent hout hsound => ?_)
    fun _ hlt _ t' hsent hout hsound => ?_
  · rw [sender_of_transmitted hsent hout, PacketSequence.key_ofKey hlt, ← hstream]
    exact hsound.transmit hnumber hheld (.inl (by rw [hstream]; rfl))
  · rw [← Function.update_eq_self type t.sequences.outgoing] at hout
    rw [sender_of_transmitted hsent hout, ← hstream]
    refine hsound.transmit hnumber hheld (.inr ⟨rfl, ?_⟩)
    rw [hstream]
    exact not_lt.1 hlt

/-- A packet that is no command is made and goes out. -/
theorem moves_createTransmit {encrypted : Bool} {type : PacketType} {flags : PacketFlags}
    {data : Bytes} (htype : type ≠ .command) :
    Moves (Numbers start) (createPacket env encrypted type flags data >>= transmit env type) := by
  refine ⟨fun t => ?_⟩
  rw [wp_bind]
  exact wp_createPacket (fun packet hposition =>
    numbers_transmit hposition fun h => absurd h htype) fun _ => id

theorem moves_sendPacket {encrypted : Bool} {type : PacketType} {flags : PacketFlags}
    {data : Bytes} (htype : type ≠ .command) :
    Moves (Numbers start) (sendPacket env encrypted type flags data) :=
  .ite _ (.throw .refl _) (moves_createTransmit htype)

theorem moves_sendVoicePayload {type : PacketType} {payload : UInt16 → Except Failure Bytes}
    {flags : PacketFlags} {encrypted : Bool} (htype : type ≠ .command) :
    Moves (Numbers start) (sendVoicePayload env type payload flags encrypted) :=
  .bind .trans (.get .refl) fun _ => .bind .trans (.lift .refl _) fun _ =>
    moves_createTransmit htype

/-- A command packet is put into the queue under the next number, and then goes out. -/
theorem moves_sendCommandPacket {data : Bytes} {flags : PacketFlags}
    (hdata : data.length ≤ 2147483647) :
    Moves (Numbers start) (sendCommandPacket env data flags) := by
  refine ⟨fun t => ?_⟩
  refine wp_sendCommandPacket hdata (fun _ _ => id) fun _ command h hkey _ hposition _ => ?_
  have hheld : (t.enqueue command h).sender.held (t.outgoingKey .command) =
      some command.packet := by
    rw [sender_enqueue, ← hkey]
    exact Function.update_self ..
  have hqueued : Numbers start t (t.enqueue command h) := fun hsound => by
    have hnumber : numbering.number command.packet = command.key := by
      show command.packet.position.key = command.key
      rw [hposition, key_positionOf, hkey]
    have hfree : t.sender.held command.key = none :=
      congrArg (Option.map PendingCommand.packet) (find?_key_of_not_contains h)
    rw [sender_enqueue, ← hnumber]
    refine hsound.hold (congrArg PacketPosition.type hposition) ?_ (by rw [hnumber]; exact hfree)
    rw [hnumber]
    exact hkey
  exact hqueued.wp_trans (numbers_transmit hposition fun _ => hheld)

theorem moves_sendFragments {data : Bytes} (hdata : data.length ≤ maxCommandSize) :
    ∀ (fragments : List CommandFragment) (lastPacketId : UInt16),
      Moves (Numbers start) (sendFragments env data lastPacketId fragments)
  | [], _ => .pure .refl _
  | fragment :: fragments, _ => .bind .trans
      (moves_sendCommandPacket (length_fragment_le hdata fragment))
      fun packetId => moves_sendFragments hdata fragments packetId

theorem moves_sendCommand (data : Bytes) : Moves (Numbers start) (sendCommand env data) := by
  by_cases hlarge : maxCommandSize < data.length
  · refine ⟨fun t => ?_⟩
    rw [sendCommand, wp_bind, CommandFragmenter.plan_of_lt hlarge]
    exact id
  · exact .bind .trans (.lift .refl _) fun fragments =>
      moves_sendFragments (not_lt.1 hlarge) fragments 0

/-! ## Retransmitting -/

/-- Packets that are held go out again. -/
theorem numbers_sendDue : ∀ (packets : List Packet) (t : SessionTransport),
    (∀ packet ∈ packets, ∃ k, t.sender.held k = some packet) →
    wp (sendDue env packets) (fun _ => Numbers start t) (fun _ => Numbers start t) t
  | [], _, _ => id
  | packet :: packets, t, hheld => by
    rw [sendDue, wp_bind, wp_send]
    cases env.sendErrors t.attempts with
    | some error => exact id
    | none =>
      dsimp only
      rw [wp_bind]
      refine wp_recordSent fun statistics _ => ?_
      have hsent : Numbers start t { t with
          attempts := t.attempts + 1, sent := t.sent ++ [packet], ticks := t.ticks + 1, statistics } :=
        fun hsound => by
          obtain ⟨k, hk⟩ := hheld packet List.mem_cons_self
          have hresent := hsound.resend hk
          convert hresent using 1
          unfold sender NumberedSender.put outgoingKey
          congr 1
          · exact (Function.update_eq_self ..).symm
          · rw [List.toFinset_append, Finset.union_comm]
            rfl
      exact hsent.wp_trans (numbers_sendDue packets _ fun other hother =>
        hheld other (List.mem_cons_of_mem _ hother))

theorem moves_sendPing (time : TimePoint) : Moves (Numbers start) (sendPing env time) :=
  .bind .trans (.get .refl) fun _ => .bind .trans (moves_sendPacket (by decide)) fun _ =>
    .modify fun _ => id

theorem moves_keepAlive (time : TimePoint) : Moves (Numbers start) (keepAlive env time) := by
  refine ⟨fun t => ?_⟩
  unfold keepAlive
  rw [wp_bind, wp_get, wp_ite]
  refine ⟨fun _ => id, fun _ => ?_⟩
  cases t.pendingPing with
  | none => exact (Moves.ite _ (moves_sendPing time) (.pure .refl _)).apply t
  | some pendingPing =>
    dsimp only
    rw [wp_ite, wp_ite]
    refine ⟨fun _ => id, fun _ => ⟨fun _ => ?_, fun _ => id⟩⟩
    rw [wp_bind, wp_set]
    exact (moves_sendPing time).apply { t with pendingPing := none }

theorem moves_processTimers : Moves (Numbers start) (processTimers env) := by
  refine ⟨fun t => ?_⟩
  unfold processTimers onReliableCommands
  rw [wp_bind, wp_now, wp_bind, wp_zoom]
  refine wp_mono (wp_collectDue _ _) (fun packets queue h => ?_) fun _ queue hsame => ?_
  · obtain ⟨hsame, hdue⟩ := h
    have hqueue : Numbers start t { t with ticks := t.ticks + 1, reliableCommands := queue } :=
      .of_sender_eq (sender_congr rfl rfl hsame)
    refine hqueue.wp_trans ?_
    rw [wp_bind]
    exact wp_mono (numbers_sendDue packets _ hdue) (fun _ t' hsent =>
      hsent.wp_trans ((moves_keepAlive _).apply t')) fun _ _ => id
  · exact .of_sender_eq (sender_congr rfl rfl hsame)

/-! ## Acknowledging -/

-- what the generation of a packet is does not matter, and must not be computed
attribute [local irreducible] resolveGeneration

/-- The id that `HandleAck` acknowledges, if it gets as far. -/
def acknowledgedByAck (env : Environment) (t : SessionTransport) (packet : ServerPacket) :
    Option UInt16 :=
  match resolveGeneration (t.sequences.incoming .ack) packet.header.packetId with
  | .error _ => none
  | .ok generationId =>
    if generationId = 0 ∧ packet.header.packetId = 1 then
      t.firstCommandPacketId
    else
      (openAck env packet generationId "Invalid server Ack MAC"
        "Unexpected server Ack payload size").toOption

/-- The id that a call acknowledges. -/
def acknowledgedId (env : Environment) (t : SessionTransport) : Operation → Option UInt16
  | .confirmCommand packetId => some packetId
  | .processPacket datagram =>
    match ServerPacket.parse datagram with
    | .ok packet => if packet.header.type = .ack then acknowledgedByAck env t packet else none
    | .error _ => none
  | _ => none

/-- The id is not that of a pending command which is on the wire under the number that the next
command gets too. At the last number there is no next command. -/
def Releasable (t : SessionTransport) (packetId : UInt16) : Prop :=
  ∀ command, t.reliableCommands.pending.find? (t.outgoingKey .command) = some command →
    command.packetId = packetId → command.packet ∈ t.sent → 2 ^ 48 ≤ t.outgoingKey .command + 1

theorem numbers_acknowledge {packetId : UInt16} (h : t.Releasable packetId) :
    wp (onReliableCommands (acknowledge packetId)) (fun _ => Numbers start t)
      (fun _ => Numbers start t) t := by
  unfold onReliableCommands
  rw [wp_zoom]
  rcases t.reliableCommands.acknowledge_cases packetId with
    ⟨-, hrun⟩ | ⟨command, hfind, hid, hrun⟩
  · rw [wp_of_eq_ok hrun]
    exact id
  · rw [wp_of_eq_ok hrun]
    intro hsound
    rw [sender_erase]
    refine hsound.release fun packet hpacket hheld hcurrent => ?_
    have hkey : command.key = t.outgoingKey .command := hcurrent
    have hpending : packet = command.packet := by
      have := congrArg (Option.map PendingCommand.packet) hfind
      exact Option.some.inj (hheld.symm.trans this)
    subst hpending
    rw [hkey] at hfind ⊢
    exact h command hfind hid (List.mem_toFinset.1 hpacket)

theorem moves_onIncoming {α : Type} (type : PacketType) (m : EStateM Failure PacketSequence α) :
    Moves (Numbers start) (onIncoming type m) := .zoom (fun _ _ => id) m

theorem moves_recordRttSince (sentAt : TimePoint) :
    Moves (Numbers start) (recordRttSince env sentAt) :=
  .bind .trans (.modifyGet fun _ => id) fun _ => .modify fun _ => id

theorem numbers_handleAck {packet : ServerPacket}
    (h : ∀ packetId, acknowledgedByAck env t packet = some packetId → t.Releasable packetId) :
    wp (handleAck env packet) (fun _ => Numbers start t) (fun _ => Numbers start t) t := by
  have haccept : ∀ generationId, Moves (Numbers start)
      (onIncoming .ack (PacketSequence.accept packet.header.packetId generationId)) :=
    fun generationId => moves_onIncoming _ _
  unfold acknowledgedByAck at h
  unfold handleAck
  rw [wp_bind, wp_get]
  dsimp only
  cases hresolve : resolveGeneration (t.sequences.incoming .ack) packet.header.packetId with
  | error failure => exact id
  | ok generationId =>
    rw [hresolve] at h
    dsimp only at h
    rw [wp_bind]
    show wp (ite ..) _ _ _
    split_ifs at h ⊢ with hfirst
    · cases hcommand : t.firstCommandPacketId with
      | none => exact (haccept _).apply t
      | some packetId =>
        dsimp only
        rw [wp_bind]
        exact wp_mono (numbers_acknowledge (h packetId hcommand)) (fun _ t' hacknowledged =>
          hacknowledged.wp_trans ((haccept _).apply t')) fun _ _ => id
    · cases hopen : openAck env packet generationId "Invalid server Ack MAC"
        "Unexpected server Ack payload size" with
      | error failure => exact id
      | ok packetId =>
        rw [hopen] at h
        rw [wp_bind]
        show wp (_ >>= _) _ _ _
        rw [wp_bind]
        refine wp_mono (numbers_acknowledge (h packetId rfl)) (fun acknowledgement t'
          hacknowledged => hacknowledged.wp_trans ?_) fun _ _ => id
        cases acknowledgement with
        | none => exact (haccept _).apply t'
        | some acknowledgement =>
          refine (Moves.ite _ ?_ (haccept _)).apply t'
          exact .bind .trans (moves_recordRttSince _) fun _ => haccept _

/-! ## The other packets -/

theorem moves_handleAckLow (packet : ServerPacket) :
    Moves (Numbers start) (handleAckLow env packet) := by
  unfold handleAckLow
  refine .bind .trans (.get .refl) fun t => ?_
  dsimp only
  refine .bind .trans (.lift .refl _) fun _ => .bind .trans (.lift .refl _) fun _ => ?_
  exact .ite _ (.throw .refl _) (moves_onIncoming _ _)

theorem moves_handlePing (packet : ServerPacket) :
    Moves (Numbers start) (handlePing env packet) := by
  unfold handlePing sendPong sendUnencrypted
  exact .bind .trans (.lift .refl _) fun _ => .bind .trans (.lift .refl _) fun _ =>
    moves_sendPacket (by decide)

theorem moves_handlePong (packet : ServerPacket) :
    Moves (Numbers start) (handlePong env packet) := by
  unfold handlePong
  refine .bind .trans (.lift .refl _) fun _ => .bind .trans (.lift .refl _) fun _ =>
    .bind .trans (.lift .refl _) fun _ => .bind .trans (.lift .refl _) fun _ =>
      .bind .trans (.get .refl) fun t => ?_
  cases t.pendingPing with
  | none => exact .pure .refl _
  | some pendingPing =>
    refine .ite _ ?_ (.pure .refl _)
    exact .bind .trans (moves_recordRttSince _) fun _ => .modify fun _ => id

/-- The receiver of a stream is no part of the sender. -/
structure Receiving (stream : CommandStream) : Prop where
  ackType : stream.ackType ≠ .command
  sender : ∀ receiver t, (stream.setReceiver receiver t).sender = t.sender

theorem receiving_command : Receiving commandStream := ⟨by decide, fun _ _ => rfl⟩

theorem receiving_commandLow : Receiving commandLowStream := ⟨by decide, fun _ _ => rfl⟩

theorem moves_processIncomingCommand {stream : CommandStream} (h : Receiving stream)
    (packet : ServerPacket) : Moves (Numbers start) (processIncomingCommand env stream packet) := by
  unfold processIncomingCommand sendAck sendEncrypted
  refine .bind .trans (.get .refl) fun t => ?_
  dsimp only
  refine .bind .trans (.lift .refl _) fun generationId => .bind .trans (.lift .refl _)
    fun plaintext => .bind .trans (moves_sendPacket h.ackType) fun _ => .bind .trans
      (.zoom (fun _ t => ?_) _) fun _ => .modify fun _ => id
  exact .of_sender_eq (h.sender _ t)

theorem moves_handleVoice (packet : ServerPacket) :
    Moves (Numbers start) (handleVoice env packet) := by
  unfold handleVoice
  refine .bind .trans (.get .refl) fun t => ?_
  dsimp only
  exact .bind .trans (.lift .refl _) fun _ => .bind .trans (.lift .refl _) fun _ =>
    .bind .trans (.lift .refl _) fun _ => .bind .trans (.modify fun _ => id) fun _ =>
      moves_onIncoming _ _

/-- Only an Ack acknowledges. -/
theorem moves_dispatch {packet : ServerPacket} (h : packet.header.type ≠ .ack) :
    Moves (Numbers start) (dispatch env packet) := by
  unfold dispatch
  cases htype : packet.header.type with
  | ack => exact absurd htype h
  | ping => exact moves_handlePing packet
  | pong => exact moves_handlePong packet
  | command => exact moves_processIncomingCommand receiving_command packet
  | commandLow => exact moves_processIncomingCommand receiving_commandLow packet
  | voice => exact moves_handleVoice packet
  | voiceWhisper => exact moves_handleVoice packet
  | ackLow => exact moves_handleAckLow packet
  | init1 => exact .throw .refl _
  | unnamed _ _ => exact .pure .refl _

theorem numbers_processPacket {datagram : Bytes}
    (h : ∀ packetId, acknowledgedId env t (.processPacket datagram) = some packetId →
      t.Releasable packetId) :
    wp (processPacket env datagram) (fun _ => Numbers start t) (fun _ => Numbers start t) t := by
  unfold acknowledgedId at h
  dsimp only at h
  unfold processPacket
  rw [wp_bind]
  cases hparse : ServerPacket.parse datagram with
  | error failure => exact id
  | ok packet =>
    rw [hparse] at h
    dsimp only at h
    show wp (_ >>= _) _ _ _
    rw [wp_bind]
    have hdispatch : wp (dispatch env packet) (fun _ => Numbers start t)
        (fun _ => Numbers start t) t := by
      by_cases htype : packet.header.type = .ack
      · rw [if_pos htype] at h
        unfold dispatch
        rw [htype]
        dsimp only
        exact numbers_handleAck h
      · exact (moves_dispatch htype).apply t
    refine wp_mono hdispatch (fun _ t' hpacket => hpacket.wp_trans ?_) fun _ _ => id
    exact (Moves.bind .trans (.modifyGet fun _ => id) fun _ => .modify fun _ => id).apply t'

/-! ## Runs -/

/-- The call acknowledges no pending command that is on the wire under the next number. -/
def KeepsNumber (env : Environment) (t : SessionTransport) (operation : Operation) : Prop :=
  ∀ packetId, acknowledgedId env t operation = some packetId → t.Releasable packetId

/-- All calls of a run are such. -/
def KeepsNumbers (env : Environment) : SessionTransport → List Operation → Prop
  | _, [] => True
  | t, operation :: operations =>
    KeepsNumber env t operation ∧ KeepsNumbers env (step env t operation) operations

/-- One call keeps the numbering. -/
theorem numbers_step {operation : Operation} (h : KeepsNumber env t operation) :
    Numbers start t (step env t operation) := by
  refine wp_final.1 ?_
  cases operation with
  | sendCommand data =>
    exact (Moves.bind .trans (moves_sendCommand data) fun _ => .pure .refl _).apply t
  | sendVoice codec data encrypted talkStart =>
    rw [perform, sendVoice]
    exact (moves_sendVoicePayload (by decide : PacketType.voice ≠ .command)).apply t
  | sendVoiceWhisper codec channelIds clientIds data encrypted talkStart =>
    rw [perform, sendVoiceWhisper]
    exact (moves_sendVoicePayload (by decide : PacketType.voiceWhisper ≠ .command)).apply t
  | sendGroupWhisper codec type target targetId data encrypted talkStart =>
    rw [perform, sendGroupWhisper]
    exact (moves_sendVoicePayload (by decide : PacketType.voiceWhisper ≠ .command)).apply t
  | confirmCommand packetId =>
    show wp (onReliableCommands _ >>= _) _ _ _
    rw [wp_bind]
    exact wp_mono (numbers_acknowledge (h packetId rfl)) (fun _ _ => id) fun _ _ => id
  | processPacket datagram => exact numbers_processPacket h
  | processTimers => exact moves_processTimers.apply t
  | takeReadyCommand =>
    show wp (takeReadyCommand >>= _) _ _ _
    rw [wp_bind, takeReadyCommand, wp_bind, wp_get]
    cases t.readyCommands <;> exact id
  | takeReadyVoice =>
    show wp (takeReadyVoice >>= _) _ _ _
    rw [wp_bind, takeReadyVoice, wp_bind, wp_get]
    cases t.readyVoice <;> exact id
  | setClientId clientId =>
    exact (Moves.ite _ (.throw .refl _) (.modify fun _ => id)).apply t
  | setConnected =>
    exact (Moves.bind .trans (.modifyGet fun _ => id) fun _ => .modify fun _ => id).apply t

theorem numbers_run : ∀ (operations : List Operation) {t : SessionTransport},
    KeepsNumbers env t operations → Numbers start t (run env t operations)
  | [], _, _ => id
  | _ :: operations, _, h =>
    .trans _ _ _ (numbers_step h.1) (numbers_run operations h.2)

/-- How many packets of a type were sent. -/
def sentCount (t : SessionTransport) (type : PacketType) : ℕ :=
  (t.sent.toFinset.filter fun packet => packet.position.type = type).card

/-- Encrypted datagrams on the wire under one type, generation and id are the same. -/
def NoncesUnique (t : SessionTransport) : Prop :=
  ∀ packet ∈ t.sent, ∀ packet' ∈ t.sent, packet.encrypted → packet'.encrypted →
    packet.position = packet'.position → packet.data = packet'.data

/-- **No nonce is used twice.** In a run from the construction of a transport that acknowledges no
command on the wire under the next number, and that sends no more packets of a type than there are
numbers left, no two datagrams have key and nonce in common. -/
theorem nonces_unique (env : Environment) (sequences : PacketSequenceState)
    (operations : List Operation) (hkeeps : KeepsNumbers env { sequences } operations)
    (hcount : ∀ type, (sequences.outgoing type).key +
      (run env { sequences } operations).sentCount type ≤ 2 ^ 48) :
    NoncesUnique (run env { sequences } operations) := by
  have hsound := numbers_run operations hkeeps
    (numbering.sound_initial (sender { sequences }).next rfl (fun _ => rfl) rfl)
  intro packet hpacket packet' hpacket' _ _ hposition
  refine congrArg Packet.data (hsound.eq_of_mem hcount (List.mem_toFinset.2 hpacket)
    (List.mem_toFinset.2 hpacket') (congrArg PacketPosition.type hposition) ?_)
  exact congrArg PacketPosition.key hposition

theorem key_mk_one : ({ packetId := 1 } : PacketSequence).key = 1 := by decide

theorem sentCount_le (t : SessionTransport) (type : PacketType) : t.sentCount type ≤ t.sent.length :=
  (Finset.card_filter_le _ _).trans (List.toFinset_card_le _)

/-- An unencrypted Ack of the server for the command 1. -/
def ackOfFirstCommand : Bytes := [1, 2, 3, 4, 5, 6, 7, 8, 0, 2, 0x86, 0, 1]

/-- Every call of `Send` succeeds, and the clock ticks every 600 ms. -/
def quietEnvironment : Environment where
  crypto := recordedCrypto
  sendErrors _ := none
  clock ticks := 600000000 * ticks

/-- The run sends a command and gets it acknowledged. -/
theorem nonces_unique_acknowledged :
    NoncesUnique (run quietEnvironment {} [.sendCommand [97], .processPacket ackOfFirstCommand]) := by
  have hpending : (step quietEnvironment {} (.sendCommand [97])).reliableCommands.pending.find? 2 =
      none := by decide +kernel
  have hkey : (step quietEnvironment {} (.sendCommand [97])).outgoingKey .command = 2 := by
    decide +kernel
  have hlength : (run quietEnvironment {}
      [.sendCommand [97], .processPacket ackOfFirstCommand]).sent.length = 1 := by decide +kernel
  refine nonces_unique quietEnvironment {} _ ⟨nofun, fun packetId _ command hfind => ?_, trivial⟩
    fun type => ?_
  · rw [hkey, hpending] at hfind
    cases hfind
  · have hstart : (({} : PacketSequenceState).outgoing type).key = 1 := key_mk_one
    have hcount := sentCount_le (run quietEnvironment {}
      [.sendCommand [97], .processPacket ackOfFirstCommand]) type
    rw [hstart]
    omega

/-- The first call of `Send` fails, and the clock ticks every 600 ms. -/
def failingEnvironment : Environment where
  crypto := recordedCrypto
  sendErrors attempt := if attempt = 0 then some "Network is unreachable" else none
  clock ticks := 600000000 * ticks

/-- `Send` throws for the command `a`, a retransmission of it is acknowledged, and then the command
`b` goes out under the same number. -/
def reusingRun : List Operation :=
  [.sendCommand [97], .processTimers, .processPacket ackOfFirstCommand, .sendCommand [98]]

/-- A nonce is used twice. -/
theorem nonces_reused : ¬ ∀ (env : Environment) (sequences : PacketSequenceState)
    (operations : List Operation),
    (∀ type, (sequences.outgoing type).key + (run env { sequences } operations).sentCount type ≤
      2 ^ 48) → NoncesUnique (run env { sequences } operations) := by
  intro h
  have hsent : (run failingEnvironment {} reusingRun).sent = [
      { data := [192, 89, 171, 2, 215, 254, 212, 9, 0, 1, 0, 0, 34, 72]
        position := { type := .command, generationId := 0, packetId := 1 }
        encrypted := true },
      { data := [240, 118, 40, 32, 255, 25, 44, 21, 0, 1, 0, 0, 34, 75]
        position := { type := .command, generationId := 0, packetId := 1 }
        encrypted := true }] := by decide +kernel
  have hunique := h failingEnvironment {} reusingRun fun type => by
    have hstart : (({} : PacketSequenceState).outgoing type).key = 1 := key_mk_one
    have hcount := sentCount_le (run failingEnvironment {} reusingRun) type
    rw [hsent, List.length_cons, List.length_singleton] at hcount
    rw [hstart]
    omega
  unfold NoncesUnique at hunique
  rw [hsent] at hunique
  have hsame := hunique _ List.mem_cons_self _ (List.mem_cons_of_mem _ List.mem_cons_self) rfl rfl rfl
  exact absurd hsame (by decide)

end TsCli.SessionTransport
