import TsCli.Reliability.Delivery
import TsCli.Session.SendAtomicity
import TsCli.Session.WireReading

/-!
# Commands from end to end

The commands for which `SendCommand` returned go out as one stream of numbered packets
(`exists_stream`): each packet of the stream is on the wire, and every command packet on the wire,
at whatever time it was sent, reads as one of the stream.

The other end of the protocol is not in the repository. It is taken to do with the commands of the
client what the client does with those of the server (`receiveDatagram`). The network loses,
repeats and reorders what was sent; the other end then hands over the first of the commands, in
order and once each, and all of them when a copy of every packet came through
(`commands_delivered`).
-/

namespace TsCli.SessionTransport

open Exec PacketLimits CommandFragmenter

/-! ## The other end -/

/-- What the other end does with a datagram: `ProcessIncomingCommand` in the other direction. -/
def receiveDatagram (crypto : SessionCrypto) (datagram : Bytes) :
    EStateM Failure Receiver (List Bytes) := do
  let packet ← Exec.lift (parseClient datagram)
  if packet.1.type = .command then
    let s ← get
    let generationId ← Exec.lift (resolveGeneration s.expected packet.1.packetId)
    let plaintext ← Exec.lift (crypto.openClient generationId packet.1 packet.2)
    Receiver.feed packet.1.packetId generationId packet.1.flags plaintext
  else
    return []

/-- Each command packet is, at its arrival, at most 64 numbers ahead of and less than 32768 numbers
behind the one that the other end expects. -/
def InReach (crypto : SessionCrypto) : Receiver → List Packet → Prop
  | _, [] => True
  | s, packet :: packets =>
    (packet.position.type = .command → packet.position.key ≤ s.expected.key + 64 ∧
      s.expected.key < packet.position.key + 32768) ∧
      InReach crypto (final (receiveDatagram crypto packet.data) s) packets

instance (crypto : SessionCrypto) : ∀ (packets : List Packet) (s : Receiver),
    Decidable (InReach crypto s packets)
  | [], _ => .isTrue trivial
  | packet :: packets, s =>
    have := instDecidableInReach crypto packets (final (receiveDatagram crypto packet.data) s)
    inferInstanceAs (Decidable (_ ∧ _))

/-! ## The stream -/

/-- The commands of a call: that of a `SendCommand` which returns. -/
def acceptedBy (env : Environment) (t : SessionTransport) : Operation → List Bytes
  | .sendCommand data => if (returned? (sendCommand env data) t).isSome then [data] else []
  | _ => []

/-- The commands of a run. -/
def accepted (env : Environment) : SessionTransport → List Operation → List Bytes
  | _, [] => []
  | t, operation :: operations =>
    acceptedBy env t operation ++ accepted env (step env t operation) operations

/-- The sequence in which the position stands. -/
def sequenceAt (position : PacketPosition) : PacketSequence :=
  ⟨position.packetId, position.generationId⟩

theorem key_sequenceAt (position : PacketPosition) : (sequenceAt position).key = position.key := rfl

/-- The packet can be read, and a command packet reads as one of the stream. -/
def Carried (crypto : SessionCrypto) (stream : List CommandPacket) (packet : Packet) : Prop :=
  ∃ header plaintext, Reads crypto packet header plaintext ∧ (packet.position.type = .command →
    (⟨sequenceAt packet.position, header.flags, plaintext⟩ : CommandPacket) ∈ stream)

variable {env : Environment} {t t' : SessionTransport} {stream : List CommandPacket}

theorem Carried.mono {crypto : SessionCrypto} {packet : Packet} {stream' : List CommandPacket}
    (hsub : ∀ p ∈ stream, p ∈ stream') (h : Carried crypto stream packet) :
    Carried crypto stream' packet := by
  obtain ⟨header, plaintext, hreads, hcommand⟩ := h
  exact ⟨header, plaintext, hreads, fun htype => hsub _ (hcommand htype)⟩

/-- The transport has sent the packets of these commands, and no other command packets. -/
structure Streams (env : Environment) (start : PacketSequence) (commands : List Bytes)
    (groups : List (List CommandPacket)) (t : SessionTransport) : Prop where
  packets : packetize commands start = .ok groups (t.sequences.outgoing .command)
  carried : Holds (Carried env.crypto groups.flatten) t
  sent : ∀ p ∈ groups.flatten, ∃ packet ∈ t.sent, packet.position.type = .command ∧
    sequenceAt packet.position = p.sequence

/-- One more command. -/
theorem packetize_concat {command : Bytes} {packets : List QueuedPacket}
    {group : List CommandPacket} {last : PacketSequence} (hcut : fragmentsOf command = .ok packets) :
    ∀ {commands : List Bytes} {start next : PacketSequence} {groups : List (List CommandPacket)},
      packetize commands start = .ok groups next → number packets next = .ok group last →
      packetize (commands ++ [command]) start = .ok (groups ++ [group]) last := by
  intro commands
  induction commands with
  | nil =>
    intro start next groups hgroups hgroup
    cases hgroups
    rw [List.nil_append, packetize, hcut, run_lift_bind_ok rfl, run_bind_of_ok _ hgroup]
    rfl
  | cons other commands ih =>
    intro start next groups hgroups hgroup
    rw [packetize] at hgroups
    obtain ⟨packets', s, hlift, hgroups⟩ := (run_bind_eq_ok_iff _).1 hgroups
    obtain ⟨group', s', hnumber, hgroups⟩ := (run_bind_eq_ok_iff _).1 hgroups
    obtain ⟨rest, s'', hrest, hgroups⟩ := (run_bind_eq_ok_iff _).1 hgroups
    cases hgroups
    rw [List.cons_append, packetize, run_bind_of_ok _ hlift, run_bind_of_ok _ hnumber,
      run_bind_of_ok _ (ih hrest hgroup)]
    rfl

section Sending

variable (hcrypto : env.crypto.openSsl.Documented) (hmac : env.crypto.sharedMac.length = 8)

include hcrypto hmac

/-- Packets that carry no command do not touch the stream. -/
theorem carried_of_made {kind : Kind} (hused : kind.Used) (htype : kind.type ≠ .command)
    (data : Bytes) (packet : Packet)
    (hmade : Made env kind.encrypted kind.type kind.flags data packet) :
    Carried env.crypto stream packet := by
  obtain ⟨s, hmade⟩ := hmade
  obtain ⟨header, hreads, -, hposition⟩ := reads_of_createPacket hcrypto hmac hused.headed hmade
  refine ⟨header, data, hreads, fun hcommand => absurd ?_ htype⟩
  rw [hposition] at hcommand
  exact hcommand

/-- The packets of a command get the next numbers, and each is sent. -/
theorem wp_sendFragments_stream (data : Bytes) : ∀ (fragments : List CommandFragment)
    (lastPacketId : UInt16) (stream : List CommandPacket) (t : SessionTransport),
    (∀ fragment ∈ fragments, Kind.Used ⟨true, .command, fragment.flags⟩) →
    Holds (Carried env.crypto stream) t →
    wp (sendFragments env data lastPacketId fragments)
      (fun _ t' => ∃ group, number (fragments.map fun fragment =>
          { flags := fragment.flags, data := (data.drop fragment.offset).take fragment.size })
          (t.sequences.outgoing .command) = .ok group (t'.sequences.outgoing .command) ∧
        Holds (Carried env.crypto (stream ++ group)) t' ∧ t.sent <+: t'.sent ∧
        ∀ p ∈ group, ∃ packet ∈ t'.sent, packet.position.type = .command ∧
          sequenceAt packet.position = p.sequence)
      (fun _ _ => True) t
  | [], _, stream, t, _, ht => ⟨[], rfl, by rwa [List.append_nil], List.prefix_rfl, nofun⟩
  | fragment :: fragments, _, stream, t, hused, ht => by
    rw [sendFragments, wp_bind]
    refine wp_mono (wp_sendCommandPacket_made (P := fun _ => True)) (fun packetId s h => ?_)
      fun _ _ _ => trivial
    obtain ⟨packet, hmade, hqueues, hpacket, hprefix, hlt, hnext⟩ := h
    have hheaded := (hused fragment List.mem_cons_self).headed
    obtain ⟨header, hreads, hflags, hposition⟩ := reads_of_createPacket hcrypto hmac hheaded hmade
    -- the packet of the stream that this one is
    let p : CommandPacket := ⟨t.sequences.outgoing .command, fragment.flags,
      (data.drop fragment.offset).take fragment.size⟩
    have hcarried : Carried env.crypto (stream ++ [p]) packet := by
      refine ⟨header, _, hreads, fun _ => ?_⟩
      rw [hposition, hflags]
      exact List.mem_append_right _ List.mem_cons_self
    have hs : Holds (Carried env.crypto (stream ++ [p])) s :=
      hqueues.holds hcarried (ht.mono fun _ => .mono fun _ => List.mem_append_left _)
    refine wp_mono (wp_sendFragments_stream data fragments packetId (stream ++ [p]) s
      (fun other hother => hused other (List.mem_cons_of_mem _ hother)) hs) (fun _ t' h => ?_)
      fun _ _ h => h
    obtain ⟨group, hgroup, ht', hprefix', hsent⟩ := h
    refine ⟨p :: group, ?_, ?_, hprefix.trans hprefix', fun q hq => ?_⟩
    · rw [List.map_cons, number, run_get_bind, run_bind_of_ok _ (PacketSequence.advance_of_lt hlt)]
      rw [hnext] at hgroup
      unfold outgoingKey at hgroup
      rw [run_bind_of_ok _ hgroup]
      rfl
    · rwa [List.append_assoc] at ht'
    · rcases List.mem_cons.1 hq with rfl | hq
      · exact ⟨packet, hprefix'.subset hpacket, by rw [hposition]; rfl, by rw [hposition]; rfl⟩
      · exact hsent q hq

/-- One call. A `SendCommand` either returns, or throws and leaves nothing behind. -/
theorem streams_step {start : PacketSequence} {commands : List Bytes}
    {groups : List (List CommandPacket)} {operation : Operation}
    (h : Streams env start commands groups t)
    (hatomic : ∀ data, operation = .sendCommand data → AtomicOnFailure env t data) :
    ∃ groups', Streams env start (commands ++ acceptedBy env t operation) groups'
      (step env t operation) := by
  by_cases hcommand : ∃ data, operation = .sendCommand data
  · obtain ⟨data, rfl⟩ := hcommand
    cases hrun : sendCommand env data t with
    | error failure t' =>
      have hstep : step env t (.sendCommand data) = t' := by
        unfold step perform
        rw [final_bind_pure, final_of_eq_error hrun]
      have hnone : acceptedBy env t (.sendCommand data) = [] := by
        simp [acceptedBy, returned?, hrun]
      obtain ⟨hqueue, hsequence, hsent⟩ := hatomic data rfl failure t' hrun
      have hkeeps : Keeps (Carried env.crypto groups.flatten) t t' :=
        .of_eq hsent (by rw [hqueue]) hsequence
      rw [hstep, hnone, List.append_nil]
      exact ⟨groups, by rw [hsequence]; exact h.packets, hkeeps.holds h.carried,
        by rw [hsent]; exact h.sent⟩
    | ok packetId t' =>
      have hstep : step env t (.sendCommand data) = t' := by
        unfold step perform
        rw [final_bind_pure, final_of_eq_ok hrun]
      have hsome : acceptedBy env t (.sendCommand data) = [data] := by
        simp [acceptedBy, returned?, hrun]
      unfold sendCommand at hrun
      obtain ⟨fragments, hplan, hfragments⟩ := run_lift_bind_eq_ok_iff.1 hrun
      have hwp := wp_sendFragments_stream hcrypto hmac data fragments 0 groups.flatten t
        (fun fragment hfragment => .command (flags_of_plan hplan fragment hfragment)) h.carried
      obtain ⟨group, hgroup, hcarried, hprefix, hsent⟩ := ok_of_wp hwp hfragments
      have hcut : fragmentsOf data = .ok (fragments.map fun fragment =>
          { flags := fragment.flags, data := (data.drop fragment.offset).take fragment.size }) := by
        unfold fragmentsOf
        rw [hplan]
        rfl
      rw [hstep, hsome]
      refine ⟨groups ++ [group], packetize_concat hcut h.packets hgroup, ?_, ?_⟩
      · rwa [List.flatten_append, List.flatten_singleton]
      · rw [List.flatten_append, List.flatten_singleton]
        intro p hp
        rcases List.mem_append.1 hp with hp | hp
        · obtain ⟨packet, hpacket, hat⟩ := h.sent p hp
          exact ⟨packet, hprefix.subset hpacket, hat⟩
        · exact hsent p hp
  · have hne : ∀ data, operation ≠ .sendCommand data := fun data hdata => hcommand ⟨data, hdata⟩
    have hkeeps : Keeps (Carried env.crypto groups.flatten) t (step env t operation) :=
      (keeps_perform (fun kind hused htype => carried_of_made hcrypto hmac hused htype) hne).final t
    have hnone : acceptedBy env t operation = [] := by
      cases operation <;> first | rfl | exact absurd rfl (hne _)
    rw [hnone, List.append_nil]
    refine ⟨groups, by rw [hkeeps.command]; exact h.packets, hkeeps.holds h.carried, fun p hp => ?_⟩
    obtain ⟨packet, hpacket, hat⟩ := h.sent p hp
    exact ⟨packet, hkeeps.sent.subset hpacket, hat⟩

/-- The commands of a run are the stream that the transport has sent. -/
theorem exists_stream {start : PacketSequence} : ∀ {operations : List Operation}
    {commands : List Bytes} {groups : List (List CommandPacket)} {t : SessionTransport},
    Streams env start commands groups t →
    Runs.Along (step env) (fun t operation => ∀ data, operation = .sendCommand data →
      AtomicOnFailure env t data) t operations →
    ∃ groups', Streams env start (commands ++ accepted env t operations) groups'
      (run env t operations) := by
  intro operations
  induction operations with
  | nil =>
    intro commands groups t h _
    exact ⟨groups, by rw [accepted, List.append_nil]; exact h⟩
  | cons operation operations ih =>
    intro commands groups t h halong
    obtain ⟨groups', h'⟩ := streams_step hcrypto hmac h halong.1
    obtain ⟨groups'', h''⟩ := ih h' halong.2
    exact ⟨groups'', by rw [accepted, ← List.append_assoc]; exact h''⟩

end Sending

theorem streams_initial (env : Environment) (sequences : PacketSequenceState) :
    Streams env (sequences.outgoing .command) [] [] { sequences } :=
  ⟨rfl, holds_empty sequences, nofun⟩

/-! ## Arrivals -/

section Arrivals

variable {crypto : SessionCrypto} {s : Receiver} {packet : Packet}

theorem Reads.parse {header : ClientPacketHeader} {plaintext : Bytes}
    (h : Reads crypto packet header plaintext) : ∃ data,
      parseClient packet.data = .ok (header, data) ∧
        crypto.openClient packet.position.generationId header data = .ok plaintext := by
  have hread := h.readClient
  unfold SessionCrypto.readClient at hread
  obtain ⟨⟨header', data⟩, hparse, hread⟩ := bind_eq_ok hread
  obtain ⟨plaintext', hopen, hread⟩ := bind_eq_ok hread
  cases hread
  exact ⟨data, hparse, hopen⟩

/-- A packet that carries no command. -/
theorem receiveDatagram_other (h : Carried crypto stream packet)
    (htype : packet.position.type ≠ .command) :
    receiveDatagram crypto packet.data s = .ok [] s := by
  obtain ⟨header, plaintext, hreads, -⟩ := h
  obtain ⟨data, hparse, -⟩ := hreads.parse
  unfold receiveDatagram
  rw [run_lift_bind_ok hparse]
  dsimp only
  rw [if_neg (by rw [hreads.type]; exact htype)]
  rfl

/-- A command packet arrives as a packet of the stream. -/
theorem receiveDatagram_command (h : Carried crypto stream packet)
    (htype : packet.position.type = .command)
    (hahead : packet.position.key ≤ s.expected.key + 64)
    (hbehind : s.expected.key < packet.position.key + 32768) :
    ∃ p ∈ stream, p.sequence = sequenceAt packet.position ∧
      receiveDatagram crypto packet.data s = Receiver.receive p s := by
  obtain ⟨header, plaintext, hreads, hcommand⟩ := h
  obtain ⟨data, hparse, hopen⟩ := hreads.parse
  refine ⟨_, hcommand htype, rfl, ?_⟩
  have hresolve : resolveGeneration s.expected packet.position.packetId =
      .ok packet.position.generationId := by
    have hsequence : PacketSequence.ofKey packet.position.key = sequenceAt packet.position :=
      key_sequenceAt packet.position ▸ PacketSequence.ofKey_key (sequenceAt packet.position)
    have hid : packetIdOf packet.position.key = packet.position.packetId :=
      congrArg PacketSequence.packetId hsequence
    have hgeneration : generationOf packet.position.key = packet.position.generationId :=
      congrArg PacketSequence.generationId hsequence
    have hlt : packet.position.key < 2 ^ 48 := sequenceKey_lt _ _
    have hclose : packet.position.key < s.expected.key + 32768 := by omega
    have hresolved := resolveGeneration_of_close hlt hclose hbehind
    rwa [hid, hgeneration] at hresolved
  unfold receiveDatagram Receiver.receive
  rw [run_lift_bind_ok hparse]
  dsimp only
  rw [if_pos (hreads.type.trans htype), hreads.packetId, run_get_bind, run_get_bind,
    run_lift_bind_ok hresolve, run_lift_bind_ok hopen]
  change _ = (lift (resolveGeneration s.expected packet.position.packetId) >>= _) s
  rw [hresolve]
  rfl

/-- What the other end does with datagrams is what it does with the packets of the stream in
them. -/
theorem exists_received : ∀ {arrivals : List Packet} {s : Receiver},
    (∀ packet ∈ arrivals, Carried crypto stream packet) → InReach crypto s arrivals →
    ∃ received : List CommandPacket, (∀ p ∈ received, p ∈ stream) ∧
      Receiver.Admissible s received ∧
      (∀ packet ∈ arrivals, packet.position.type = .command →
        ∃ p ∈ received, p.sequence = sequenceAt packet.position) ∧
      ∀ ready s', received.mapM Receiver.receive s = .ok ready s' →
        ∃ ready', (arrivals.map Packet.data).mapM (receiveDatagram crypto) s = .ok ready' s' ∧
          ready'.flatten = ready.flatten := by
  intro arrivals
  induction arrivals with
  | nil => exact fun _ _ => ⟨[], nofun, trivial, nofun, fun ready s' h => ⟨ready, h, rfl⟩⟩
  | cons packet arrivals ih =>
    intro s hcarried hreach
    obtain ⟨hnear, hrest⟩ := hreach
    have hpacket := hcarried packet List.mem_cons_self
    have harrivals : ∀ other ∈ arrivals, Carried crypto stream other :=
      fun other hother => hcarried other (List.mem_cons_of_mem _ hother)
    by_cases htype : packet.position.type = .command
    · obtain ⟨p, hp, hsequence, hreceive⟩ :=
        receiveDatagram_command hpacket htype (hnear htype).1 (hnear htype).2
      rw [final_congr hreceive] at hrest
      obtain ⟨received, hmem, hadm, hcover, hruns⟩ := ih harrivals hrest
      have hkey : p.key = packet.position.key := by
        unfold CommandPacket.key
        rw [hsequence]
        rfl
      refine ⟨p :: received, fun q hq => ?_, ⟨?_, ?_, hadm⟩, fun other hother hcommand => ?_,
        fun ready s' h => ?_⟩
      · rcases List.mem_cons.1 hq with rfl | hq
        · exact hp
        · exact hmem q hq
      · rw [hkey]
        exact (hnear htype).1
      · rw [hkey]
        exact (hnear htype).2
      · rcases List.mem_cons.1 hother with rfl | hother
        · exact ⟨p, List.mem_cons_self, hsequence⟩
        · obtain ⟨q, hq, hat⟩ := hcover other hother hcommand
          exact ⟨q, List.mem_cons_of_mem _ hq, hat⟩
      · rw [List.mapM_cons] at h
        obtain ⟨first, s₁, hfirst, h⟩ := (run_bind_eq_ok_iff _).1 h
        obtain ⟨rest, s₂, hrest', h⟩ := (run_bind_eq_ok_iff _).1 h
        cases h
        rw [final_of_eq_ok hfirst] at hruns
        obtain ⟨ready', hready', hflatten⟩ := hruns rest _ hrest'
        refine ⟨first :: ready', ?_, by rw [List.flatten_cons, List.flatten_cons, hflatten]⟩
        rw [List.map_cons, List.mapM_cons, run_bind_of_ok _ (hreceive.trans hfirst),
          run_bind_of_ok _ hready']
        rfl
    · have hother : receiveDatagram crypto packet.data s = .ok [] s :=
        receiveDatagram_other hpacket htype
      rw [final_of_eq_ok hother] at hrest
      obtain ⟨received, hmem, hadm, hcover, hruns⟩ := ih harrivals hrest
      refine ⟨received, hmem, hadm, fun other hmem' hcommand => ?_, fun ready s' h => ?_⟩
      · rcases List.mem_cons.1 hmem' with rfl | hmem'
        · exact absurd hcommand htype
        · exact hcover other hmem' hcommand
      · obtain ⟨ready', hready', hflatten⟩ := hruns ready s' h
        refine ⟨[] :: ready', ?_, by rw [List.flatten_cons, List.nil_append, hflatten]⟩
        rw [List.map_cons, List.mapM_cons, run_bind_of_ok _ hother, run_bind_of_ok _ hready']
        rfl

end Arrivals

/-- **Delivery of commands.** However what was sent is lost, repeated and reordered, the other end
does not throw and hands over a prefix of the commands for which `SendCommand` returned, and all of
them when a copy of each packet that went out came through. -/
theorem commands_delivered (env : Environment) (hcrypto : env.crypto.openSsl.Documented)
    (hmac : env.crypto.sharedMac.length = 8) (sequences : PacketSequenceState)
    (operations : List Operation)
    (hatomic : Runs.Along (step env) (fun t operation => ∀ data, operation = .sendCommand data →
      AtomicOnFailure env t data) { sequences } operations)
    (arrivals : List Packet)
    (harrivals : ∀ packet ∈ arrivals, packet ∈ (run env { sequences } operations).sent)
    (hreach : InReach env.crypto ⟨sequences.outgoing .command, {}⟩ arrivals) :
    ∃ ready receiver, (arrivals.map Packet.data).mapM (receiveDatagram env.crypto)
        ⟨sequences.outgoing .command, {}⟩ = .ok ready receiver ∧
      ready.flatten <+: accepted env { sequences } operations ∧
      ((∀ packet ∈ (run env { sequences } operations).sent, packet.position.type = .command →
        ∃ arrival ∈ arrivals, arrival.position = packet.position) →
        ready.flatten = accepted env { sequences } operations) := by
  obtain ⟨groups, hstreams⟩ := exists_stream hcrypto hmac (streams_initial env sequences) hatomic
  rw [List.nil_append] at hstreams
  obtain ⟨received, hmem, hadm, hcover, hruns⟩ :=
    exists_received (fun packet hpacket => hstreams.carried.1 packet (harrivals packet hpacket)) hreach
  obtain ⟨hcuts, hkeys, hlast⟩ := packetize_eq_ok hstreams.packets
  have hroom : (sequences.outgoing .command).key + groups.flatten.length < 2 ^ 48 :=
    hlast ▸ PacketSequence.key_lt _
  have hstart : Tracks (groups.flatten.map CommandPacket.queued) (sequences.outgoing .command).key
      (fun _ => False) [] 0 ⟨sequences.outgoing .command, {}⟩ :=
    ⟨rfl, Nat.zero_le _, rfl, nofun, fun key packet => ⟨nofun, fun ⟨i, _, h, _⟩ => h.elim⟩, nofun⟩
  have hall := assemble_stream hcuts
  obtain ⟨ready, n, s, hrun, htracks, hn⟩ := run_tracks hall hroom hkeys nofun hstart id hmem hadm
  rw [List.nil_append] at htracks
  obtain ⟨ready', hrun', hflatten⟩ := hruns ready s hrun
  refine ⟨ready', s, hrun', ?_, fun hcomplete => ?_⟩
  · -- what is handed over is what the processed packets assemble to
    rw [hflatten]
    rw [← List.take_append_drop n (groups.flatten.map CommandPacket.queued)] at hall
    obtain ⟨out, a, more, h1, -, hout⟩ := assemble_append_eq_ok_iff.1 hall
    rw [htracks.assembled] at h1
    cases h1
    exact ⟨more, hout.symm⟩
  · have hle : groups.flatten.length ≤ n := by
      by_contra hlt
      rw [not_le] at hlt
      obtain ⟨packet, hpacket, htype, hat⟩ := hstreams.sent _ (List.getElem_mem hlt)
      obtain ⟨arrival, harrival, hposition⟩ := hcomplete packet hpacket htype
      obtain ⟨p, hp, hsequence⟩ := hcover arrival harrival (by rw [hposition]; exact htype)
      refine hn (.inr ⟨p, hp, ?_⟩)
      rw [← key_getElem hkeys hlt]
      unfold CommandPacket.key
      rw [hsequence, hposition, hat]
    rw [hflatten]
    have hassembled := htracks.assembled
    rw [List.take_of_length_le (by rw [List.length_map]; exact hle), hall] at hassembled
    injection hassembled with hcommands
    exact hcommands.symm

theorem atomicOnFailure_of_returned {data : Bytes}
    (h : (returned? (sendCommand env data) t).isSome = true) : AtomicOnFailure env t data := by
  intro failure t' hrun
  obtain ⟨packetId, hreturned⟩ := Option.isSome_iff_exists.1 h
  rw [eq_ok_of_returned? hreturned] at hrun
  cases hrun

/-- Every call of `Send` succeeds, and the clock ticks every 600 ms. -/
def deliveringEnvironment : Environment where
  crypto := { recordedCrypto with openSsl := .continued }
  sendErrors _ := none
  clock ticks := 600000000 * ticks

/-- The command `a` goes out and once again with the timers, and voice follows. -/
def deliveringRun : List Operation :=
  [.sendCommand [97], .processTimers, .sendVoice 4 [1] false false]

/-- What was sent arrives in the other order. -/
theorem commands_delivered_reversed :
    (run deliveringEnvironment {} deliveringRun).sent.map (·.position.type) =
        [.command, .command, .voice] ∧
      ∃ ready receiver, ((run deliveringEnvironment {} deliveringRun).sent.reverse.map
          Packet.data).mapM (receiveDatagram deliveringEnvironment.crypto) ⟨{ packetId := 1 }, {}⟩ =
        .ok ready receiver ∧ ready.flatten = [[97]] := by
  have hreturned : (returned? (sendCommand deliveringEnvironment [97]) {}).isSome = true := by
    decide +kernel
  have hatomic : AtomicOnFailure deliveringEnvironment {} [97] :=
    atomicOnFailure_of_returned hreturned
  obtain ⟨ready, receiver, hrun, -, hall⟩ := commands_delivered deliveringEnvironment
    OpenSsl.documented_continued rfl {} deliveringRun
    ⟨fun data h => by cases h; exact hatomic, nofun, nofun, trivial⟩
    (run deliveringEnvironment {} deliveringRun).sent.reverse
    (fun packet => List.mem_reverse.1) (by decide +kernel)
  refine ⟨by decide +kernel, ready, receiver, hrun, ?_⟩
  rw [hall fun packet hpacket _ => ⟨packet, List.mem_reverse.2 hpacket, rfl⟩]
  decide +kernel

end TsCli.SessionTransport
