import TsCli.Crypto.BootstrapCrypto
import TsCli.Session.SessionTransport

/-!
# Datagrams that are not authentic

Every handler checks the MAC of a packet before it touches the state, with two exceptions: the
first server Ack is accepted unchecked, also after it was consumed, and a packet of a type that no
case of the `switch` names reaches the end of `ProcessPacket` unchecked.
-/

namespace TsCli.SessionTransport

open Exec

variable (env : Environment) (t : SessionTransport) {packet : ServerPacket}

/-- The MAC is neither the start of the EAX tag in the resolved generation nor, where that counts,
the shared MAC. -/
structure Forged (packet : ServerPacket) : Prop where
  tag : ∀ generationId,
    resolveGeneration (t.sequences.incoming packet.header.type) packet.header.packetId =
        .ok generationId →
      packet.header.mac ≠ (env.crypto.serverTag packet generationId).take 8
  shared : hasFlag packet.header.flags .unencrypted = true ∨ packet.header.type = .ping ∨
    packet.header.type = .pong → packet.header.mac ≠ env.crypto.sharedMac

/-- The packet looks like the first server Ack. -/
def LooksFirstAck (packet : ServerPacket) : Prop :=
  packet.header.type = .ack ∧ packet.header.packetId = 1 ∧
    resolveGeneration (t.sequences.incoming .ack) 1 = .ok 0

theorem length_mac_of_parse {datagram : Bytes} (h : ServerPacket.parse datagram = .ok packet) :
    packet.header.mac.length = 8 := by
  by_cases hlength : 11 ≤ datagram.length
  · rw [ServerPacket.parse_eq hlength] at h
    cases h
    rw [List.length_take]
    omega
  · rw [ServerPacket.parse_of_short (by omega)] at h
    cases h

/-- The call throws, and leaves the state alone. -/
def Rejects {α : Type} (m : Session α) (t : SessionTransport) : Prop :=
  ∃ message, m t = .error (.runtimeError message) t

section Forged

variable {env t}

theorem rejects_lift_bind {α β : Type} {x : Except Failure α} {message : String}
    (h : x = .error (.runtimeError message)) (f : α → Session β) : Rejects (lift x >>= f) t :=
  ⟨message, run_lift_bind_error h f t⟩

/-- Behind a computation that fails with a text at most. -/
theorem rejects_bind {α β : Type} {x : Except Failure α} {f : α → Session β}
    (hx : ∀ failure, x = .error failure → ∃ message, failure = .runtimeError message)
    (hf : ∀ a, x = .ok a → Rejects (f a) t) : Rejects (lift x >>= f) t := by
  cases h : x with
  | error failure =>
    obtain ⟨message, rfl⟩ := hx failure h
    exact rejects_lift_bind rfl f
  | ok a =>
    obtain ⟨message, hrun⟩ := hf a h
    exact ⟨message, (run_lift_bind_ok rfl f t).trans hrun⟩

theorem rejects_throwIf_bind {α : Type} {c : Prop} [Decidable c] {message : String}
    {f : Unit → Session α} (h : ¬ c → Rejects (f ()) t) :
    Rejects (lift (throwIf c message) >>= f) t := by
  by_cases hc : c
  · exact rejects_lift_bind (throwIf_of_pos message hc) f
  · obtain ⟨message', hrun⟩ := h hc
    exact ⟨message', (run_lift_bind_ok (throwIf_of_not message hc) f t).trans hrun⟩

theorem Forged.checkSharedMac (h : Forged env t packet)
    (hshared : hasFlag packet.header.flags .unencrypted = true ∨ packet.header.type = .ping ∨
      packet.header.type = .pong) (message : String) :
    checkSharedMac env packet message = .error (.runtimeError message) :=
  if_pos (h.shared hshared)

theorem Forged.openPacket (h : Forged env t packet) (hmac : packet.header.mac.length = 8)
    {generationId : UInt32}
    (hresolve : resolveGeneration (t.sequences.incoming packet.header.type) packet.header.packetId =
      .ok generationId) (message : String) :
    ∃ message', openPacket env packet generationId message = .error (.runtimeError message') := by
  unfold SessionTransport.openPacket
  split_ifs with hflag
  · rw [h.checkSharedMac (.inl hflag)]
    exact ⟨_, rfl⟩
  · exact ⟨_, env.crypto.decryptServer_of_ne hmac (h.tag generationId hresolve)⟩

/-- A handler that opens the packet first throws, and leaves the state alone. -/
theorem Forged.rejects_openPacket {α : Type} (h : Forged env t packet)
    (hmac : packet.header.mac.length = 8) (message : String)
    (f : UInt32 → Bytes → Session α) : Rejects (do
      let generationId ← lift (resolveGeneration (t.sequences.incoming packet.header.type)
        packet.header.packetId)
      let plaintext ← lift (SessionTransport.openPacket env packet generationId message)
      f generationId plaintext) t := by
  refine rejects_bind (fun _ => eq_of_resolveGeneration_error) fun generationId hresolve => ?_
  obtain ⟨message', hopen⟩ := h.openPacket hmac hresolve message
  exact rejects_lift_bind hopen _

/-- A handler that decrypts the packet first throws, and leaves the state alone. -/
theorem Forged.rejects_decryptServer {α : Type} (h : Forged env t packet)
    (hmac : packet.header.mac.length = 8) (f : UInt32 → Bytes → Session α) : Rejects (do
      let generationId ← lift (resolveGeneration (t.sequences.incoming packet.header.type)
        packet.header.packetId)
      let plaintext ← lift (env.crypto.decryptServer packet generationId)
      f generationId plaintext) t := by
  refine rejects_bind (fun _ => eq_of_resolveGeneration_error) fun generationId hresolve => ?_
  exact rejects_lift_bind (env.crypto.decryptServer_of_ne hmac (h.tag generationId hresolve)) _

end Forged

/-! ## Rejecting -/

section Reject

variable {env t}

theorem Forged.openAck (h : Forged env t packet) (hmac : packet.header.mac.length = 8)
    {generationId : UInt32}
    (hresolve : resolveGeneration (t.sequences.incoming packet.header.type) packet.header.packetId =
      .ok generationId) (macMessage sizeMessage : String) :
    ∃ message, openAck env packet generationId macMessage sizeMessage =
      .error (.runtimeError message) := by
  obtain ⟨message, hopen⟩ := h.openPacket hmac hresolve macMessage
  refine ⟨message, ?_⟩
  unfold SessionTransport.openAck
  rw [hopen]
  rfl

theorem Forged.handleAck (h : Forged env t packet) (hmac : packet.header.mac.length = 8)
    (htype : packet.header.type = .ack) (hfirst : ¬ LooksFirstAck t packet) :
    Rejects (handleAck env packet) t := by
  have hopen : ∀ generationId, resolveGeneration (t.sequences.incoming packet.header.type)
      packet.header.packetId = .ok generationId → ∀ macMessage sizeMessage, ∃ message,
        SessionTransport.openAck env packet generationId macMessage sizeMessage =
          .error (.runtimeError message) := fun _ => h.openAck hmac
  rw [htype] at hopen
  unfold SessionTransport.handleAck Rejects
  rw [run_get_bind]
  dsimp only
  refine rejects_bind (fun _ => eq_of_resolveGeneration_error) fun generationId hresolve => ?_
  have hnot : ¬ (generationId = 0 ∧ packet.header.packetId = 1) := by
    rintro ⟨rfl, hid⟩
    exact hfirst ⟨htype, hid, hid ▸ hresolve⟩
  rw [if_neg hnot]
  obtain ⟨message, herror⟩ := hopen generationId hresolve "Invalid server Ack MAC"
    "Unexpected server Ack payload size"
  exact rejects_lift_bind herror _

/-- All handlers but the one for the first Ack throw before they change the state. -/
theorem Forged.dispatch (h : Forged env t packet) (hmac : packet.header.mac.length = 8)
    (hnamed : packet.header.type.Named) (hfirst : ¬ LooksFirstAck t packet) :
    Rejects (dispatch env packet) t := by
  have hvoice := h.rejects_openPacket hmac (α := Unit)
  have hcommand := h.rejects_decryptServer hmac (α := Unit)
  have hping := h.checkSharedMac
  unfold SessionTransport.dispatch
  cases htype : packet.header.type <;> dsimp only <;> rw [htype] at hvoice hcommand hping
  case ack => exact h.handleAck hmac htype hfirst
  case ping =>
    refine rejects_throwIf_bind fun _ => ?_
    exact rejects_lift_bind (hping (.inr (.inl rfl)) _) _
  case pong =>
    refine rejects_throwIf_bind fun _ => ?_
    exact rejects_lift_bind (hping (.inr (.inr rfl)) _) _
  case command =>
    unfold handleCommand processIncomingCommand Rejects
    rw [run_get_bind]
    exact hcommand _
  case commandLow =>
    unfold handleCommandLow processIncomingCommand Rejects
    rw [run_get_bind]
    exact hcommand _
  case voice =>
    unfold handleVoice Rejects
    rw [run_get_bind, htype]
    exact hvoice _ _
  case voiceWhisper =>
    unfold handleVoice Rejects
    rw [run_get_bind, htype]
    exact hvoice _ _
  case ackLow =>
    unfold handleAckLow Rejects
    rw [run_get_bind]
    exact hvoice _ _
  case init1 => exact ⟨_, rfl⟩
  case unnamed value hvalue =>
    rw [htype] at hnamed
    exact absurd (UInt8.le_trans hvalue hnamed) (by decide)

end Reject

/-! ## Accepting -/

section Accept

variable {env t}

theorem run_onReliableCommands_acknowledge (packetId : UInt16) : ∃ acknowledgement t',
    onReliableCommands (ReliableCommandQueue.acknowledge packetId) t = .ok acknowledgement t' := by
  unfold onReliableCommands zoom
  rcases t.reliableCommands.acknowledge_cases packetId with ⟨-, hrun⟩ | ⟨command, -, -, hrun⟩ <;>
    rw [hrun] <;> exact ⟨_, _, rfl⟩

theorem run_onIncoming_accept_first {type : PacketType} :
    ∃ t', onIncoming type (PacketSequence.accept 1 0) t = .ok () t' := by
  have hadvance : PacketSequence.advance ⟨1, 0⟩ = .ok () ⟨2, 0⟩ := by decide
  unfold onIncoming zoom
  rw [PacketSequence.accept_spec, hadvance]
  split_ifs <;> exact ⟨_, rfl⟩

/-- The first Ack is accepted, whatever its MAC. -/
theorem handleAck_of_looksFirstAck (h : LooksFirstAck t packet) :
    ∃ t', handleAck env packet t = .ok () t' := by
  obtain ⟨-, hid, hresolve⟩ := h
  unfold handleAck
  rw [run_get_bind]
  dsimp only
  rw [hid, run_lift_bind_ok hresolve, if_pos ⟨rfl, rfl⟩]
  cases t.firstCommandPacketId with
  | none => exact run_onIncoming_accept_first
  | some firstCommandPacketId =>
    obtain ⟨acknowledgement, t', hrun⟩ :=
      run_onReliableCommands_acknowledge (t := t) firstCommandPacketId
    obtain ⟨t'', haccept⟩ : ∃ t'', onIncoming .ack (PacketSequence.accept 1 0) t' = .ok () t'' :=
      run_onIncoming_accept_first
    refine ⟨t'', ?_⟩
    dsimp only
    rw [run_bind_of_ok _ hrun]
    exact haccept

/-- A packet of a type without a name is accepted. -/
theorem dispatch_of_not_named (h : ¬ packet.header.type.Named) :
    dispatch env packet t = .ok () t := by
  unfold dispatch
  cases htype : packet.header.type with
  | unnamed value hvalue => rfl
  | _ => rw [htype] at h; exact absurd (by decide) h

/-- What is behind the dispatch does not throw. -/
theorem processPacket_of_dispatch {datagram : Bytes}
    (hparse : ServerPacket.parse datagram = .ok packet) {t' : SessionTransport}
    (h : dispatch env packet t = .ok () t') : ∃ t'', processPacket env datagram t = .ok () t'' := by
  unfold processPacket
  rw [run_lift_bind_ok hparse, run_bind_of_ok _ h]
  exact ⟨_, rfl⟩

end Accept

/-- **Unauthenticated datagrams.** A datagram whose MAC is not the right one is rejected, and
leaves the whole state unchanged, exactly when its type has a name and it does not look like the
first server Ack. -/
theorem rejected_iff {datagram : Bytes} (hparse : ServerPacket.parse datagram = .ok packet)
    (hforged : Forged env t packet) :
    (∃ failure, processPacket env datagram t = .error failure t) ↔
      packet.header.type.Named ∧ ¬ LooksFirstAck t packet := by
  constructor
  · rintro ⟨failure, hrun⟩
    have hdispatch : ∀ t', dispatch env packet t ≠ .ok () t' := fun t' h => by
      obtain ⟨t'', haccepted⟩ := processPacket_of_dispatch hparse h
      rw [hrun] at haccepted
      cases haccepted
    refine ⟨not_not.1 fun hnamed => hdispatch t (dispatch_of_not_named hnamed), fun hfirst => ?_⟩
    obtain ⟨t', hrun'⟩ : ∃ t', handleAck env packet t = .ok () t' := handleAck_of_looksFirstAck hfirst
    refine hdispatch t' ?_
    unfold dispatch
    rw [hfirst.1]
    exact hrun'
  · rintro ⟨hnamed, hfirst⟩
    obtain ⟨message, hrun⟩ := hforged.dispatch (length_mac_of_parse hparse) hnamed hfirst
    refine ⟨.runtimeError message, ?_⟩
    unfold processPacket
    rw [run_lift_bind_ok hparse, run_bind_of_error _ hrun]

/-- A session under the recorded crypto. -/
def recordedEnvironment : Environment where
  crypto := recordedCrypto
  sendErrors _ := none
  clock ticks := ticks

/-- The server's Command 66 with a MAC that is not its own. -/
def forgedCommand : ServerPacket where
  header := { mac := [0, 0, 0, 0, 0, 0, 0, 0], packetId := 66, type := .command, flags := 0x20 }
  metaData := [0, 66, 34]
  data := [151]

/-- It is rejected. -/
theorem rejected_forgedCommand : (∃ failure, processPacket recordedEnvironment
      [0, 0, 0, 0, 0, 0, 0, 0, 0, 66, 34, 151] {} = .error failure {}) ↔
    forgedCommand.header.type.Named ∧ ¬ LooksFirstAck {} forgedCommand := by
  refine rejected_iff recordedEnvironment {} (by decide +kernel) ⟨fun generationId hresolve => ?_, fun hshared => ?_⟩
  · have hgeneration : resolveGeneration (({} : SessionTransport).sequences.incoming
        forgedCommand.header.type) forgedCommand.header.packetId = .ok 0 := by decide +kernel
    rw [hgeneration] at hresolve
    cases hresolve
    decide +kernel
  · exact absurd hshared (by decide)

/-- The first server Ack, with a MAC that is not its own. -/
def forgedFirstAck : ServerPacket where
  header := { mac := [0, 0, 0, 0, 0, 0, 0, 0], packetId := 1, type := .ack, flags := 0 }
  metaData := [0, 1, 6]
  data := [0, 1]

/-- After the first Ack is consumed it is accepted once more, with any MAC. -/
theorem forgedFirstAck_accepted : ¬ ∀ (env : Environment) (operations : List Operation)
    (datagram : Bytes) (packet : ServerPacket), ServerPacket.parse datagram = .ok packet →
    1 < ((run env {} operations).sequences.incoming .ack).key →
    Forged env (run env {} operations) packet →
    ∃ failure, processPacket env datagram (run env {} operations) =
      .error failure (run env {} operations) := by
  intro h
  have hforged : Forged recordedEnvironment (run recordedEnvironment {}
      [.setConnected, .processPacket [0, 0, 0, 0, 0, 0, 0, 0, 0, 1, 6, 0, 1]]) forgedFirstAck := by
    refine ⟨fun generationId hresolve => ?_, fun hshared => absurd hshared (by decide)⟩
    have hgeneration : resolveGeneration ((run recordedEnvironment {}
        [.setConnected, .processPacket [0, 0, 0, 0, 0, 0, 0, 0, 0, 1, 6, 0, 1]]).sequences.incoming
          forgedFirstAck.header.type) forgedFirstAck.header.packetId = .ok 0 := by decide +kernel
    rw [hgeneration] at hresolve
    cases hresolve
    decide +kernel
  have haccepted : (match processPacket recordedEnvironment
      [0, 0, 0, 0, 0, 0, 0, 0, 0, 1, 6, 0, 1] (run recordedEnvironment {}
        [.setConnected, .processPacket [0, 0, 0, 0, 0, 0, 0, 0, 0, 1, 6, 0, 1]]) with
    | .ok _ _ => true
    | .error _ _ => false) = true := by decide +kernel
  obtain ⟨failure, hrun⟩ := h recordedEnvironment
    [.setConnected, .processPacket [0, 0, 0, 0, 0, 0, 0, 0, 0, 1, 6, 0, 1]]
    [0, 0, 0, 0, 0, 0, 0, 0, 0, 1, 6, 0, 1] forgedFirstAck (by decide +kernel) (by decide +kernel)
    hforged
  simp [hrun] at haccepted

end TsCli.SessionTransport
