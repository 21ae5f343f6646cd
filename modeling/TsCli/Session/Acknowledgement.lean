import TsCli.Lib.Runs
import TsCli.Reliability.KeptPackets
import TsCli.Session.Authentication
import TsCli.Session.CommandStreams

/-!
# Acknowledged packets are kept

`ProcessIncomingCommand` acknowledges a packet before it hands it to the window. The server never
sends an acknowledged packet again, so the window must keep it. It does as long as each packet that
is acknowledged lies inside the window, the reassembly takes what becomes processable, and no number
runs out (`KeepsArrival`). A packet further ahead is acknowledged and then lost.
-/

namespace TsCli.SessionTransport

open Exec PacketLimits

/-- The packet of the stream that a call brings, if it opens: its number and its payload. -/
def arrival? (env : Environment) (stream : CommandStream) (t : SessionTransport) :
    Operation → Option (ℕ × QueuedPacket)
  | .processPacket datagram =>
    match ServerPacket.parse datagram with
    | .error _ => none
    | .ok packet =>
      if packet.header.type = stream.dataType then
        match resolveGeneration (t.sequences.incoming stream.dataType) packet.header.packetId with
        | .error _ => none
        | .ok generationId =>
          match env.crypto.decryptServer packet generationId with
          | .error _ => none
          | .ok plaintext =>
            some (sequenceKey packet.header.packetId generationId, ⟨packet.header.flags, plaintext⟩)
      else none
  | _ => none

/-- The call brings a packet of the stream and sends its acknowledgement. -/
def Acknowledges (env : Environment) (stream : CommandStream) (t : SessionTransport)
    (operation : Operation) : Prop :=
  ∃ datagram packet ack, operation = .processPacket datagram ∧
    ServerPacket.parse datagram = .ok packet ∧ packet.header.type = stream.dataType ∧
    (step env t operation).sent = t.sent ++ [ack] ∧ ack.position.type = stream.ackType

section Run

variable (env : Environment) (server : PacketType → ℕ → QueuedPacket)
  (sequences : PacketSequenceState)

/-- What opens under a number is what the server sent under it. -/
def Authentic (t : SessionTransport) (operation : Operation) : Prop :=
  ∀ stream, IsStream stream → ∀ key packet, arrival? env stream t operation = some (key, packet) →
    server stream.dataType key = packet

/-- The packet is processed by the window of the stream, or held in it. -/
def KeptIn (stream : CommandStream) (t : SessionTransport) (key : ℕ) : Prop :=
  Receiver.Kept (server stream.dataType) (sequences.incoming stream.dataType).key
    (stream.receiver t) key

/-- A packet of a stream that opens is not acknowledged, because `Send` fails, or it is kept already,
or the window can keep it: it is not from before the stream's first packet and at most 64 ahead, the
reassembly takes what becomes processable with it, and the acknowledgement does not have the last
number. -/
def KeepsArrival (t : SessionTransport) (operation : Operation) : Prop :=
  ∀ stream, IsStream stream → ∀ key packet, arrival? env stream t operation = some (key, packet) →
    env.sendErrors t.attempts ≠ none ∨ KeptIn server sequences stream t key ∨
      t.outgoingKey stream.ackType + 1 < 2 ^ 48 ∧
      (sequences.incoming stream.dataType).key ≤ key ∧
      key ≤ (stream.receiver t).expected.key + 64 ∧
      (key = (stream.receiver t).expected.key →
        Receiver.AcceptsWith (server stream.dataType) (stream.receiver t)
          (· = (stream.receiver t).expected.key))

/-- The window of the stream has processed its packets in order, and waits for the next one. -/
structure Standing (stream : CommandStream) (t : SessionTransport) : Prop where
  inOrder : Receiver.InOrder (server stream.dataType) (sequences.incoming stream.dataType).key
    (stream.receiver t)
  waiting : (stream.receiver t).window.queued.find? (stream.receiver t).expected.key = none

end Run

section Steps

variable {env : Environment} {server : PacketType → ℕ → QueuedPacket}
  {sequences : PacketSequenceState} {stream : CommandStream} {t : SessionTransport}

/-- The acknowledgement goes out, or nothing does. -/
theorem wp_sendAck {Q : Unit → SessionTransport → Prop} {E : Failure → SessionTransport → Prop}
    {packet : ServerPacket} {ackType : PacketType}
    (hfail : ∀ error, env.sendErrors t.attempts = some error →
      E (.runtimeError ("Failed to send UDP packet: " ++ error))
        { t with attempts := t.attempts + 1 })
    (hsent : env.sendErrors t.attempts = none → t.outgoingKey ackType + 1 < 2 ^ 48 →
      ∀ t', SameStreams t t' → Q () t')
    (hend : env.sendErrors t.attempts = none → ¬ t.outgoingKey ackType + 1 < 2 ^ 48 →
      ∀ failure t', SameStreams t t' → E failure t') : wp (sendAck env packet ackType) Q E t := by
  unfold sendAck sendEncrypted sendPacket
  rw [wp_ite, length_writeU16]
  refine ⟨fun hlarge => absurd hlarge (by decide), fun _ => ?_⟩
  rw [wp_bind]
  refine wp_createPacket_of_le (by rw [length_writeU16]; decide) fun ack _ => ?_
  exact wp_transmit hfail (fun h hlt t' ht' _ => hsent h hlt t' (.of_transmitted ht'))
    fun h hend' failure t' ht' _ => hend h hend' failure t' (.of_transmitted ht')

theorem Standing.congr (h : Standing server sequences stream t) {t' : SessionTransport}
    (hreceiver : stream.receiver t' = stream.receiver t) : Standing server sequences stream t' := by
  obtain ⟨hinorder, hwaiting⟩ := h
  rw [← hreceiver] at hinorder hwaiting
  exact ⟨hinorder, hwaiting⟩

theorem KeptIn.congr {key : ℕ} (h : KeptIn server sequences stream t key) {t' : SessionTransport}
    (hreceiver : stream.receiver t' = stream.receiver t) : KeptIn server sequences stream t' key := by
  unfold KeptIn at h ⊢
  rwa [hreceiver]

/-- A packet that is kept meets the conditions of the window once more. -/
theorem Standing.near_of_kept (h : Standing server sequences stream t) {key : ℕ}
    (hkept : KeptIn server sequences stream t key) :
    (sequences.incoming stream.dataType).key ≤ key ∧
      key ≤ (stream.receiver t).expected.key + 64 ∧ key ≠ (stream.receiver t).expected.key := by
  obtain ⟨hstart, hbefore⟩ | hqueued := hkept
  · exact ⟨hstart, by omega, hbefore.ne⟩
  · obtain ⟨hle, hnear, -⟩ := h.inOrder.queued key _ hqueued
    refine ⟨h.inOrder.start_le.trans hle, hnear, fun he => ?_⟩
    rw [he] at hqueued
    exact absurd (h.waiting.symm.trans hqueued) nofun

/-- What a call does that brings a packet of the stream: no packet is given up, and where something
was sent the packet that came is kept. -/
structure Retains (env : Environment) (server : PacketType → ℕ → QueuedPacket)
    (sequences : PacketSequenceState) (stream : CommandStream) (operation : Operation)
    (t t' : SessionTransport) : Prop where
  standing : Standing server sequences stream t'
  kept : ∀ k, KeptIn server sequences stream t k → KeptIn server sequences stream t' k
  acknowledged : t'.sent = t.sent ∨ ∃ key packet,
    arrival? env stream t operation = some (key, packet) ∧ KeptIn server sequences stream t' key

theorem Retains.refl {operation : Operation} (h : Standing server sequences stream t) :
    Retains env server sequences stream operation t t :=
  ⟨h, fun _ => id, .inl rfl⟩

theorem Retains.congr {operation : Operation} {t' t'' : SessionTransport}
    (h : Retains env server sequences stream operation t t')
    (hreceiver : stream.receiver t'' = stream.receiver t') (hsent : t''.sent = t'.sent) :
    Retains env server sequences stream operation t t'' :=
  ⟨h.standing.congr hreceiver, fun k hk => (h.kept k hk).congr hreceiver,
    h.acknowledged.imp hsent.trans fun ⟨key, packet, harrival, hkept⟩ =>
      ⟨key, packet, harrival, hkept.congr hreceiver⟩⟩

/-- A packet of the stream, under the condition. -/
theorem retains_processPacket (hstream : IsStream stream) (h : Standing server sequences stream t)
    {datagram : Bytes} {packet : ServerPacket} (hparse : ServerPacket.parse datagram = .ok packet)
    (htype : packet.header.type = stream.dataType)
    (hauthentic : Authentic env server t (.processPacket datagram))
    (hkeeps : KeepsArrival env server sequences t (.processPacket datagram)) :
    wp (processPacket env datagram)
      (fun _ => Retains env server sequences stream (.processPacket datagram) t)
      (fun _ => Retains env server sequences stream (.processPacket datagram) t) t := by
  refine wp_processPacket_of_parse hparse (fun t₁ t₂ hsame hsent h₁ =>
    h₁.congr (hsame.receiver_eq hstream) hsent) ?_
  rw [dispatch_of_stream hstream htype]
  unfold processIncomingCommand
  rw [wp_bind, wp_get]
  dsimp only
  rw [wp_bind, wp_lift]
  refine ⟨fun generationId hresolve => ?_, fun _ _ => .refl h⟩
  rw [wp_bind, wp_lift]
  refine ⟨fun plaintext hopen => ?_, fun _ _ => .refl h⟩
  have harrival : arrival? env stream t (.processPacket datagram) =
      some (sequenceKey packet.header.packetId generationId, ⟨packet.header.flags, plaintext⟩) := by
    simp only [arrival?, hparse, htype, if_true, hresolve, hopen]
  have hpacket := hauthentic stream hstream _ _ harrival
  have hcondition := hkeeps stream hstream _ _ harrival
  rw [wp_bind]
  refine wp_sendAck (fun error _ => ?_) (fun hsend _ t₁ hsame => ?_)
    fun hsend hend failure t₁ hsame => ?_
  · refine (Retains.refl h).congr ?_ rfl
    obtain rfl | rfl := hstream <;> rfl
  · obtain ⟨hstart, hnear, haccepts⟩ := show _ ∧ _ ∧ _ from
      (hcondition.resolve_left (not_not.2 hsend)).elim
        (fun hkept => (h.near_of_kept hkept).imp_right (And.imp_right fun hne he => absurd he hne))
        And.right
    have hreceiver := hsame.receiver_eq hstream
    rw [wp_bind, wp_zoom, hreceiver]
    refine wp_mono (Receiver.feed_kept h.inOrder h.waiting rfl hpacket hstart hnear haccepts)
      (fun ready r hr => ?_) fun _ _ h => h.elim
    obtain ⟨hinorder, hwaiting, hkept, hmono⟩ := hr
    have hr' : stream.receiver (stream.setReceiver r t₁) = r := receiver_setReceiver hstream r t₁
    have hready : stream.receiver { stream.setReceiver r t₁ with
        readyCommands := (stream.setReceiver r t₁).readyCommands ++ ready } = r := by
      obtain rfl | rfl := hstream <;> exact hr'
    rw [wp_modify]
    refine ⟨⟨?_, ?_⟩, fun k hk => ?_, .inr ⟨_, _, harrival, ?_⟩⟩
    · rw [hready]
      exact hinorder
    · rw [hready]
      exact hwaiting
    · unfold KeptIn
      rw [hready]
      exact hmono k hk
    · unfold KeptIn
      rw [hready]
      exact hkept
  · have hkept := (hcondition.resolve_left (not_not.2 hsend)).resolve_right fun h => hend h.1
    have hreceiver := hsame.receiver_eq hstream
    exact ⟨h.congr hreceiver, fun k hk => hk.congr hreceiver,
      .inr ⟨_, _, harrival, hkept.congr hreceiver⟩⟩

/-- **One call** gives up no packet, and keeps the one that it acknowledges. -/
theorem retains_step (hstream : IsStream stream) (h : Standing server sequences stream t)
    {operation : Operation} (hauthentic : Authentic env server t operation)
    (hkeeps : KeepsArrival env server sequences t operation) :
    Standing server sequences stream (step env t operation) ∧
      (∀ k, KeptIn server sequences stream t k →
        KeptIn server sequences stream (step env t operation) k) ∧
      (Acknowledges env stream t operation → ∃ key packet,
        arrival? env stream t operation = some (key, packet) ∧
        KeptIn server sequences stream (step env t operation) key) := by
  by_cases hbrings : ∃ datagram packet, operation = .processPacket datagram ∧
      ServerPacket.parse datagram = .ok packet ∧ packet.header.type = stream.dataType
  · obtain ⟨datagram, packet, rfl, hparse, htype⟩ := hbrings
    have hretains : Retains env server sequences stream (.processPacket datagram) t
        (step env t (.processPacket datagram)) :=
      wp_final.1 (retains_processPacket hstream h hparse htype hauthentic hkeeps)
    refine ⟨hretains.standing, hretains.kept, fun hack => hretains.acknowledged.resolve_left ?_⟩
    obtain ⟨-, -, ack, -, -, -, hsent, -⟩ := hack
    rw [hsent]
    simp
  · have hreceiver : stream.receiver (step env t operation) = stream.receiver t :=
      receiver_step hstream fun datagram packet hoperation hparse htype =>
        hbrings ⟨datagram, packet, hoperation, hparse, htype⟩
    refine ⟨h.congr hreceiver, fun k hk => hk.congr hreceiver, fun hack => absurd ?_ hbrings⟩
    obtain ⟨datagram, packet, -, hoperation, hparse, htype, -⟩ := hack
    exact ⟨datagram, packet, hoperation, hparse, htype⟩

end Steps

/-! ## Runs -/

theorem standing_initial (server : PacketType → ℕ → QueuedPacket) (sequences : PacketSequenceState)
    {stream : CommandStream} (hstream : IsStream stream) :
    Standing server sequences stream { sequences } := by
  have hreceiver : stream.receiver { sequences } = ⟨sequences.incoming stream.dataType, {}⟩ := by
    obtain rfl | rfl := hstream <;> rfl
  constructor
  · rw [hreceiver]
    refine ⟨le_refl _, ?_, nofun⟩
    rw [Nat.sub_self]
    exact ⟨[], rfl⟩
  · rw [hreceiver]
    rfl

/-- **Acknowledged means kept.** In a run of authentic packets, among any other calls, in which the
window can keep each packet that is acknowledged, every packet for which an acknowledgement was sent
has been processed in order by the window of its stream or is held in it at the end. -/
theorem acknowledged_kept (env : Environment) (server : PacketType → ℕ → QueuedPacket)
    (sequences : PacketSequenceState) (operations : List Operation)
    (hauthentic : Runs.Along (step env) (Authentic env server) { sequences } operations)
    (hkeeps : Runs.Along (step env) (KeepsArrival env server sequences) { sequences } operations)
    (stream : CommandStream) (hstream : IsStream stream) :
    Standing server sequences stream (run env { sequences } operations) ∧
      ∀ front operation back, operations = front ++ operation :: back →
        Acknowledges env stream (run env { sequences } front) operation →
        ∃ key packet,
          arrival? env stream (run env { sequences } front) operation = some (key, packet) ∧
          KeptIn server sequences stream (run env { sequences } operations) key := by
  have hboth := Runs.along_and hauthentic hkeeps
  have hrun : ∀ {t : SessionTransport} {calls : List Operation},
      Runs.Along (step env) (fun t operation => Authentic env server t operation ∧
        KeepsArrival env server sequences t operation) t calls →
      Standing server sequences stream t → ∀ k, KeptIn server sequences stream t k →
        Standing server sequences stream (run env t calls) ∧
          KeptIn server sequences stream (run env t calls) k := by
    intro t calls halong hstanding k hk
    refine halong.invariant (I := fun t => Standing server sequences stream t ∧
      KeptIn server sequences stream t k) (fun t operation ht hstep => ?_) ⟨hstanding, hk⟩
    obtain ⟨hnext, hmono, -⟩ := retains_step hstream ht.1 hstep.1 hstep.2
    exact ⟨hnext, hmono k ht.2⟩
  have hstanding : ∀ {calls : List Operation}, Runs.Along (step env) (fun t operation =>
      Authentic env server t operation ∧ KeepsArrival env server sequences t operation)
        { sequences } calls →
      Standing server sequences stream (run env { sequences } calls) := fun halong =>
    halong.invariant (I := Standing server sequences stream)
      (fun t operation ht hstep => (retains_step hstream ht hstep.1 hstep.2).1)
      (standing_initial server sequences hstream)
  refine ⟨hstanding hboth, fun front operation back hsplit hack => ?_⟩
  subst hsplit
  obtain ⟨hfront, hoperation, hback⟩ := Runs.along_append.1 hboth
  obtain ⟨hnext, -, hkept⟩ := retains_step hstream (hstanding hfront) hoperation.1 hoperation.2
  obtain ⟨key, packet, harrival, hkey⟩ := hkept hack
  refine ⟨key, packet, harrival, ?_⟩
  rw [run, List.foldl_append, List.foldl_cons]
  exact (hrun hback hnext key hkey).2

/-- The server's Command 66 as it was recorded. -/
def command66 : Operation := .processPacket [156, 89, 37, 162, 12, 157, 37, 52, 0, 66, 34, 151]

/-- What it opens to. -/
def payload66 : QueuedPacket := { flags := 0x20, data := [99] }

/-- Its acknowledgement, as the first one of a session. -/
def ack66 : Packet where
  data := [106, 36, 116, 33, 58, 143, 52, 34, 0, 1, 0, 0, 6, 191, 240]
  position := { type := .ack, generationId := 0, packetId := 1 }
  encrypted := true

theorem acknowledges_command66 {t : SessionTransport} (ack : Packet)
    (hsent : (step recordedEnvironment t command66).sent = t.sent ++ [ack])
    (hack : ack.position.type = .ack) : Acknowledges recordedEnvironment commandStream t command66 :=
  ⟨_, { header := { mac := [156, 89, 37, 162, 12, 157, 37, 52], packetId := 66, type := .command,
                    flags := 0x20 }
        metaData := [0, 66, 34]
        data := [151] }, ack, rfl, by decide +kernel, rfl, hsent, hack⟩

theorem authentic_command66 {t : SessionTransport}
    (h : arrival? recordedEnvironment commandStream t command66 = some (66, payload66)) :
    Authentic recordedEnvironment (fun _ _ => payload66) t command66 := by
  intro stream hstream key packet harrival
  obtain rfl | rfl := hstream
  · rw [h] at harrival
    cases harrival
    rfl
  · have hnone : arrival? recordedEnvironment commandLowStream t command66 = none := by rfl
    rw [hnone] at harrival
    cases harrival

/-- A window that expects the command 66 processes it. -/
theorem acknowledged_kept_command66 :
    KeptIn (fun _ _ => payload66) { incoming := fun _ => { packetId := 66 } } commandStream
      (run recordedEnvironment { sequences := { incoming := fun _ => { packetId := 66 } } }
        [command66]) 66 := by
  have harrival : arrival? recordedEnvironment commandStream
      { sequences := { incoming := fun _ => { packetId := 66 } } } command66 =
      some (66, payload66) := by decide +kernel
  have hkeeps : KeepsArrival recordedEnvironment (fun _ _ => payload66)
      { incoming := fun _ => { packetId := 66 } }
      { sequences := { incoming := fun _ => { packetId := 66 } } } command66 := by
    intro stream hstream key packet h
    obtain rfl | rfl := hstream
    · rw [harrival] at h
      cases h
      refine .inr (.inr ⟨by decide, by decide, by decide, fun _ n hn => ?_⟩)
      match n with
      | 0 => exact ⟨by decide, [], {}, rfl⟩
      | 1 => exact ⟨by decide, [[99]], {}, by decide +kernel⟩
      | n + 2 => exact absurd (hn 1 (by omega)) (by decide)
    · have hnone : arrival? recordedEnvironment commandLowStream
          { sequences := { incoming := fun _ => { packetId := 66 } } } command66 = none := by rfl
      rw [hnone] at h
      cases h
  obtain ⟨-, hkept⟩ := acknowledged_kept recordedEnvironment (fun _ _ => payload66)
    { incoming := fun _ => { packetId := 66 } } [command66]
    ⟨authentic_command66 harrival, trivial⟩ ⟨hkeeps, trivial⟩ commandStream (.inl rfl)
  obtain ⟨key, packet, hkey, hresult⟩ := hkept [] command66 [] rfl
    (acknowledges_command66 ack66 (by decide +kernel) rfl)
  have hkey' := harrival.symm.trans hkey
  cases hkey'
  exact hresult

/-- A window that expects the command 1 acknowledges the command 66 and drops it. -/
theorem acknowledged_lost : ¬ ∀ (env : Environment) (server : PacketType → ℕ → QueuedPacket)
    (sequences : PacketSequenceState) (operations : List Operation),
    Runs.Along (step env) (Authentic env server) { sequences } operations →
    ∀ stream, IsStream stream → ∀ front operation back,
      operations = front ++ operation :: back →
      Acknowledges env stream (run env { sequences } front) operation →
      ∃ key packet,
        arrival? env stream (run env { sequences } front) operation = some (key, packet) ∧
        KeptIn server sequences stream (run env { sequences } operations) key := by
  intro h
  have harrival : arrival? recordedEnvironment commandStream {} command66 = some (66, payload66) := by
    decide +kernel
  obtain ⟨key, packet, hkey, hkept⟩ := h recordedEnvironment (fun _ _ => payload66) {} [command66]
    ⟨authentic_command66 harrival, trivial⟩ commandStream (.inl rfl) [] command66 [] rfl
    (acknowledges_command66 ack66 (by decide +kernel) rfl)
  have hkey' := harrival.symm.trans hkey
  cases hkey'
  have hlost : ¬ Receiver.Kept (fun _ => payload66) 1
      (commandStream.receiver (run recordedEnvironment {} [command66])) 66 := by decide +kernel
  exact hlost hkept

end TsCli.SessionTransport
