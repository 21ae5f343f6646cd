import TsCli.Session.SessionTransport

/-!
# Rules for the session transport

One rule for each primitive of the transport: what it does to the state when it returns and when it
throws. Of the clock only the order of its calls is kept, and of the statistics the round-trip times.
-/

namespace TsCli.SessionTransport

open Exec PacketLimits

/-- The number of the next packet of a type. -/
def outgoingKey (t : SessionTransport) (type : PacketType) : ℕ := (t.sequences.outgoing type).key

theorem key_positionOf (t : SessionTransport) (type : PacketType) :
    (positionOf type (t.sequences.outgoing type)).key = t.outgoingKey type := rfl

theorem position_of_eq_ok {env : Environment} {clientId : UInt16} {type : PacketType}
    {flags : PacketFlags} {data : Bytes} {sequence : PacketSequence} {packet : Packet}
    (h : createEncryptedPacket env clientId type flags data sequence = .ok packet) :
    packet.position = positionOf type sequence := by
  unfold createEncryptedPacket at h
  dsimp only [bind, Except.bind] at h
  split at h
  · cases h
  · cases h; rfl

theorem createEncryptedPacket_eq_ok (env : Environment) (clientId : UInt16) (type : PacketType)
    (flags : PacketFlags) {data : Bytes} (sequence : PacketSequence)
    (h : data.length ≤ 2147483647) :
    ∃ packet, createEncryptedPacket env clientId type flags data sequence = .ok packet := by
  unfold createEncryptedPacket SessionCrypto.encryptClient AesEax.encrypt AesEax.cryptCtr
  dsimp only
  rw [throwIf_bind_of_not (by omega)]
  exact ⟨_, rfl⟩

/-- A packet of a command is small enough to be encrypted. -/
theorem length_fragment_le {data : Bytes} (hdata : data.length ≤ maxCommandSize)
    (fragment : CommandFragment) :
    ((data.drop fragment.offset).take fragment.size).length ≤ 2147483647 := by
  have hmax : maxCommandSize = 65536 := rfl
  rw [List.length_take, List.length_drop]
  omega

section Rules

variable {env : Environment} {t : SessionTransport} {α : Type}
  {Q : α → SessionTransport → Prop} {E : Failure → SessionTransport → Prop}

theorem wp_now {Q : TimePoint → SessionTransport → Prop} :
    wp (now env) Q E t ↔ Q (env.clock t.ticks) { t with ticks := t.ticks + 1 } := Iff.rfl

/-- A call of `Send` is counted, and is on the wire if it does not fail. -/
theorem wp_send {Q : Unit → SessionTransport → Prop} (packet : Packet) :
    wp (send env packet) Q E t ↔ match env.sendErrors t.attempts with
      | some error => E (.runtimeError ("Failed to send UDP packet: " ++ error))
          { t with attempts := t.attempts + 1 }
      | none => Q () { t with attempts := t.attempts + 1, sent := t.sent ++ [packet] } := by
  unfold send
  rw [wp_bind, wp_get]
  cases env.sendErrors t.attempts <;> rfl

theorem wp_recordSent {Q : Unit → SessionTransport → Prop} {type : PacketType} {packet : Packet}
    (h : ∀ statistics, statistics.rtt = t.statistics.rtt →
      Q () { t with ticks := t.ticks + 1, statistics }) :
    wp (recordSent env type packet) Q E t := h _ (ConnectionStatistics.rtt_recordSent ..)

/-- The state after a packet of a type was sent and counted, before the sequence advances. -/
structure Transmitted (t t' : SessionTransport) (packet : Packet) : Prop where
  attempts : t'.attempts = t.attempts + 1
  ticks : t.ticks ≤ t'.ticks
  sent : t'.sent = t.sent ++ [packet]
  incoming : t'.sequences.incoming = t.sequences.incoming
  reliableCommands : t'.reliableCommands = t.reliableCommands
  commandWindow : t'.commandWindow = t.commandWindow
  commandLowWindow : t'.commandLowWindow = t.commandLowWindow
  connected : t'.connected = t.connected
  lastReceiveAt : t'.lastReceiveAt = t.lastReceiveAt
  pendingPing : t'.pendingPing = t.pendingPing
  rtt : t'.statistics.rtt = t.statistics.rtt

/-- All that the end of a sending function does. Where the sequence is at its end, the packet is
sent and then the call throws. -/
theorem wp_transmit {Q : Unit → SessionTransport → Prop} {type : PacketType} {packet : Packet}
    (hfail : ∀ error, env.sendErrors t.attempts = some error →
      E (.runtimeError ("Failed to send UDP packet: " ++ error))
        { t with attempts := t.attempts + 1 })
    (hsent : env.sendErrors t.attempts = none → t.outgoingKey type + 1 < 2 ^ 48 →
      ∀ t', Transmitted t t' packet → t'.sequences.outgoing =
        Function.update t.sequences.outgoing type (.ofKey (t.outgoingKey type + 1)) → Q () t')
    (hend : env.sendErrors t.attempts = none → ¬ t.outgoingKey type + 1 < 2 ^ 48 →
      ∀ failure t', Transmitted t t' packet → t'.sequences.outgoing = t.sequences.outgoing →
        E failure t') :
    wp (transmit env type packet) Q E t := by
  unfold transmit
  rw [wp_bind, wp_send]
  cases herror : env.sendErrors t.attempts with
  | some error => exact hfail error herror
  | none =>
    dsimp only
    rw [wp_bind]
    refine wp_recordSent fun statistics hrtt => ?_
    unfold onOutgoing
    rw [wp_zoom]
    by_cases hlt : t.outgoingKey type + 1 < 2 ^ 48
    · rw [wp_of_eq_ok (PacketSequence.advance_of_lt hlt)]
      exact hsent herror hlt _
        ⟨rfl, Nat.le_succ _, rfl, rfl, rfl, rfl, rfl, rfl, rfl, rfl, hrtt⟩ rfl
    · rw [wp_of_eq_error (PacketSequence.advance_of_not_lt hlt)]
      refine hend herror hlt _ _
        ⟨rfl, Nat.le_succ _, rfl, rfl, rfl, rfl, rfl, rfl, rfl, rfl, hrtt⟩ ?_
      exact Function.update_eq_self ..

/-- A packet is created at the current position of its type. -/
theorem wp_createPacket {Q : Packet → SessionTransport → Prop} {encrypted : Bool}
    {type : PacketType} {flags : PacketFlags} {data : Bytes}
    (hcreated : ∀ packet, packet.position =
      positionOf type (t.sequences.outgoing type) → Q packet t)
    (hfail : ∀ failure, E failure t) : wp (createPacket env encrypted type flags data) Q E t := by
  unfold createPacket
  rw [wp_bind, wp_get]
  dsimp only
  cases encrypted with
  | false => exact hcreated _ rfl
  | true =>
    rw [if_pos rfl, wp_lift]
    exact ⟨fun packet hpacket => hcreated packet (position_of_eq_ok hpacket),
      fun failure _ => hfail failure⟩

/-- A packet with the size of a payload is created. -/
theorem wp_createPacket_of_le {Q : Packet → SessionTransport → Prop} {type : PacketType}
    {flags : PacketFlags} {data : Bytes} (h : data.length ≤ 2147483647)
    (hcreated : ∀ packet, packet.position =
      positionOf type (t.sequences.outgoing type) → Q packet t) :
    wp (createPacket env true type flags data) Q E t := by
  unfold createPacket
  rw [wp_bind, wp_get]
  dsimp only
  obtain ⟨packet, hpacket⟩ := createEncryptedPacket_eq_ok env t.clientId type flags
    (t.sequences.outgoing type) h
  rw [if_pos rfl, hpacket]
  exact hcreated packet (position_of_eq_ok hpacket)

/-- The state after a command packet is put into the queue. -/
def enqueue (t : SessionTransport) (command : PendingCommand)
    (h : ¬ t.reliableCommands.contains command.packetId = true) : SessionTransport :=
  { t with
    ticks := t.ticks + 1
    reliableCommands := t.reliableCommands.insert command h
    firstCommandPacketId := some (t.firstCommandPacketId.getD command.packetId) }

/-- The queue takes no packet at the current position of the commands. -/
def Refuses (t : SessionTransport) : Prop :=
  ReliableCommandQueue.maxPendingCommands ≤ t.reliableCommands.pending.size ∨
    t.reliableCommands.contains (t.sequences.outgoing .command).packetId = true

/-- A command packet is queued first and then sent. -/
theorem wp_sendCommandPacket {Q : UInt16 → SessionTransport → Prop} {data : Bytes}
    {flags : PacketFlags} (hdata : data.length ≤ 2147483647)
    (hrefused : t.Refuses → ∀ failure, E failure { t with ticks := t.ticks + 1 })
    (hqueued : ¬ t.Refuses → ∀ command h, command.key = t.outgoingKey .command →
      command.packetId = (t.sequences.outgoing .command).packetId →
      command.packet.position = positionOf .command (t.sequences.outgoing .command) →
      command.firstSent = env.clock t.ticks →
      wp (transmit env .command command.packet)
        (fun _ t' => Q (t.sequences.outgoing .command).packetId t') E (t.enqueue command h)) :
    wp (sendCommandPacket env data flags) Q E t := by
  unfold sendCommandPacket
  rw [wp_bind, wp_get, wp_bind]
  refine wp_createPacket_of_le hdata fun packet hpacket => ?_
  rw [wp_bind, wp_now, wp_bind]
  unfold onReliableCommands
  rw [wp_zoom]
  rcases t.reliableCommands.add_cases (t.sequences.outgoing .command).packetId
    (t.sequences.outgoing .command).generationId packet (env.clock t.ticks) with
    ⟨hcases, failure, -, hrun⟩ | ⟨hsize, hid, hrun⟩
  · rw [wp_of_eq_error hrun]
    exact hrefused hcases failure
  · rw [wp_of_eq_ok hrun, wp_bind, wp_modify, wp_bind]
    exact hqueued (not_or.2 ⟨by omega, hid⟩) _ hid rfl rfl hpacket rfl

end Rules

end TsCli.SessionTransport
