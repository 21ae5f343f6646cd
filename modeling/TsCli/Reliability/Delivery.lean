import TsCli.Reliability.Reassembly

/-!
# Delivery of commands

The sender cuts commands into fragments and numbers them (`packetize`); the packets arrive with
losses, duplicates and in any order. The receiver resolves the generation of each arrival and
feeds the window (`receive`).

`Tracks` says that the window has processed the first packets of the stream in order and queues
the others that arrived. Each arrival keeps it (`feed_tracks`), so the commands handed over are
those of the processed prefix (`assemble_prefix`), which is what arrived without a gap.
-/

namespace TsCli

open PacketLimits CommandFragmenter Exec

/-! ## The sender -/

/-- A numbered packet of the stream: `packet.sequence` is what the sender numbers it with. -/
structure CommandPacket where
  sequence : PacketSequence
  flags : PacketFlags
  payload : Bytes
  deriving DecidableEq, Repr

namespace CommandPacket

/-- The packet's place in the stream. -/
def key (packet : CommandPacket) : ℕ := packet.sequence.key

/-- What the window queues of the packet. -/
def queued (packet : CommandPacket) : QueuedPacket := ⟨packet.flags, packet.payload⟩

end CommandPacket

/-- Give the packets consecutive numbers. -/
def number : List QueuedPacket → EStateM Failure PacketSequence (List CommandPacket)
  | [] => pure []
  | packet :: packets => do
    let sequence ← get
    PacketSequence.advance
    let rest ← number packets
    return { sequence, flags := packet.flags, payload := packet.data } :: rest

/-- The packets of each command. -/
def packetize : List Bytes → EStateM Failure PacketSequence (List (List CommandPacket))
  | [] => pure []
  | command :: commands => do
    let group ← number (← Exec.lift (fragmentsOf command))
    let groups ← packetize commands
    return group :: groups

/-! ## The receiver -/

namespace Receiver

/-- An arrival: resolve the generation, then feed the window. -/
def receive (packet : CommandPacket) : EStateM Failure Receiver (List Bytes) := do
  let s ← get
  let generationId ← Exec.lift (resolveGeneration s.expected packet.sequence.packetId)
  feed packet.sequence.packetId generationId packet.flags packet.payload

/-- Each packet is, at its arrival, at most 64 numbers ahead of and less than 32768 numbers behind
the expected one. -/
def Admissible : Receiver → List CommandPacket → Prop
  | _, [] => True
  | s, packet :: packets =>
    packet.key ≤ s.expected.key + 64 ∧ s.expected.key < packet.key + 32768 ∧
      Admissible (final (receive packet) s) packets

instance : ∀ (packets : List CommandPacket) (s : Receiver), Decidable (Admissible s packets)
  | [], _ => .isTrue trivial
  | packet :: packets, s =>
    have := instDecidableAdmissible packets (final (receive packet) s)
    inferInstanceAs (Decidable (_ ∧ _ ∧ _))

end Receiver

/-- The commands all of whose packets are in `received`. -/
def completeIn (received : List CommandPacket) (commands : List Bytes)
    (groups : List (List CommandPacket)) : List Bytes :=
  ((commands.zip groups).filter fun command => ∀ packet ∈ command.2, packet ∈ received).map Prod.fst

open Receiver

/-! ## Reordering -/

/-- `n` packets of the stream are processed, with the result `out`, and the packets behind them
that arrived are queued. -/
structure Tracks (packets : List QueuedPacket) (base : ℕ) (arrived : ℕ → Prop) (out : List Bytes)
    (n : ℕ) (s : Receiver) : Prop where
  expected_eq : s.expected.key = base + n
  le_length : n ≤ packets.length
  assembled : assemble (packets.take n) {} = .ok out s.window.assembly
  arrived_of_lt : ∀ i < n, arrived i
  queued_iff : ∀ key packet, s.window.queued.find? key = some packet ↔
    ∃ i, n ≤ i ∧ arrived i ∧ key = base + i ∧ packets[i]? = some packet
  near : ∀ key packet, s.window.queued.find? key = some packet → key ≤ base + n + 64

section Reordering

variable {packets : List QueuedPacket} {base : ℕ} {arrived : ℕ → Prop} {out all : List Bytes}
  {n : ℕ} {s : Receiver} {last : Assembly}

/-- Processing packet `n`: the queue already holds what arrived behind it. -/
theorem consume_tracks (hall : assemble packets {} = .ok all last)
    (hroom : base + packets.length < 2 ^ 48) {packet : QueuedPacket}
    (hexpected : s.expected.key = base + n) (hpacket : packets[n]? = some packet)
    (hassembled : assemble (packets.take n) {} = .ok out s.window.assembly)
    (harrived : ∀ i ≤ n, arrived i)
    (hqueued : ∀ key packet, s.window.queued.find? key = some packet ↔
      ∃ i, n + 1 ≤ i ∧ arrived i ∧ key = base + i ∧ packets[i]? = some packet)
    (hnear : ∀ key packet, s.window.queued.find? key = some packet → key ≤ base + n + 64) :
    wp (consume packet) (fun more s' => Tracks packets base arrived (out ++ more) (n + 1) s')
      (fun _ _ => False) s := by
  obtain ⟨hlt, hget⟩ := List.getElem?_eq_some_iff.1 hpacket
  have hsplit : packets = packets.take n ++ packet :: packets.drop (n + 1) := by
    rw [← hget, List.getElem_cons_drop, List.take_append_drop]
  rw [hsplit] at hall
  obtain ⟨out', a, rest, h1, h2, -⟩ := assemble_append_eq_ok_iff.1 hall
  rw [hassembled] at h1
  cases h1
  obtain ⟨more, b, _, hprocess, -, -⟩ := assemble_cons_eq_ok_iff.1 h2
  have hkey : base + n + 1 < 2 ^ 48 := by omega
  rw [wp_consume, wp_of_eq_ok hprocess, hexpected, if_pos hkey]
  refine ⟨PacketSequence.key_ofKey hkey, hlt, ?_, fun i hi => harrived i (by omega), hqueued,
    fun key p h => (hnear key p h).trans (by omega)⟩
  rw [List.take_add_one, hpacket, Option.toList_some]
  exact assemble_append_eq_ok_iff.2 ⟨out, _, more, hassembled,
    assemble_cons_eq_ok_iff.2 ⟨more, b, [], hprocess, rfl, (List.append_nil _).symm⟩, rfl⟩

/-- The loop over the queue ends at the first packet that did not arrive. -/
theorem drain_tracks (hall : assemble packets {} = .ok all last)
    (hroom : base + packets.length < 2 ^ 48) (harrived : ∀ i, arrived i → i < packets.length)
    {fuel : ℕ} (hfuel : s.window.queued.size < fuel) (h : Tracks packets base arrived out n s) :
    wp (drain fuel) (fun more s' => ∃ n', Tracks packets base arrived (out ++ more) n' s' ∧
      ¬ arrived n') (fun _ _ => False) s := by
  have hloop := wp_drain (I := fun more s' => ∃ n', Tracks packets base arrived (out ++ more) n' s')
    (E := fun _ _ => False) (fun ready s packet hI hq => ?_) fuel [] s hfuel
    ⟨n, by rw [List.append_nil]; exact h⟩
  · refine wp_mono hloop (fun more s' h => ?_) fun _ _ h => h
    obtain ⟨⟨n', h'⟩, hnone⟩ := h
    refine ⟨n', h', fun hn' => ?_⟩
    have hq := (h'.queued_iff (base + n') _).2
      ⟨n', le_refl _, hn', rfl, List.getElem?_eq_getElem (harrived n' hn')⟩
    rw [h'.expected_eq, hq] at hnone
    cases hnone
  · obtain ⟨m, hm⟩ := hI
    rw [hm.expected_eq] at hq ⊢
    obtain ⟨i, -, hi, heq, hpacket⟩ := (hm.queued_iff _ _).1 hq
    obtain rfl : m = i := by omega
    simp only [← List.append_assoc]
    refine wp_mono (consume_tracks hall hroom hm.expected_eq hpacket hm.assembled
      (show ∀ j ≤ m, arrived j from fun j hj => ?_) (fun key p => ?_) fun key p hp => ?_)
      (fun more s' h => ⟨m + 1, h⟩) fun _ _ h => h
    · rcases hj.lt_or_eq with hj | rfl
      · exact hm.arrived_of_lt j hj
      · exact hi
    · rw [OrderedMap.find?_erase]
      by_cases hkey : key = base + m
      · rw [if_pos hkey]
        exact ⟨nofun, fun ⟨j, hj, _, hkey', _⟩ => by omega⟩
      · rw [if_neg hkey, hm.queued_iff]
        exact ⟨fun ⟨j, hj, h⟩ => ⟨j, by omega, h⟩, fun ⟨j, hj, h⟩ => ⟨j, by omega, h⟩⟩
    · refine hm.near key p ?_
      rw [OrderedMap.find?_erase] at hp
      split_ifs at hp
      exact hp

/-- The queue holds nothing but packets ahead of the one that did not arrive. -/
theorem Tracks.ahead (h : Tracks packets base arrived out n s) (hn : ¬ arrived n) : s.Ahead := by
  intro key packet hpacket
  obtain ⟨i, hi, harrived, rfl, -⟩ := (h.queued_iff key packet).1 hpacket
  have hne : n ≠ i := fun he => hn (he ▸ harrived)
  rw [h.expected_eq]
  exact ⟨by omega, h.near _ packet hpacket⟩

/-- A packet that is not new. -/
theorem Tracks.known (h : Tracks packets base arrived out n s) {i : ℕ} (hi : arrived i) :
    Tracks packets base (fun j => arrived j ∨ j = i) out n s := by
  have heq : (fun j => arrived j ∨ j = i) = arrived := by
    funext j
    refine propext ⟨?_, .inl⟩
    rintro (hj | rfl)
    · exact hj
    · exact hi
  rwa [heq]

/-- A packet that is queued for later. -/
theorem Tracks.hold (h : Tracks packets base arrived out n s) {i : ℕ} {packet : QueuedPacket}
    (hpacket : packets[i]? = some packet) (hi : n < i) (hnear : i ≤ n + 64) :
    Tracks packets base (fun j => arrived j ∨ j = i) out n
      { s with window.queued := s.window.queued.insert (base + i) packet } := by
  refine ⟨h.expected_eq, h.le_length, h.assembled, fun j hj => .inl (h.arrived_of_lt j hj),
    fun key p => ?_, fun key p hp => ?_⟩
  · show (s.window.queued.insert (base + i) packet).find? key = some p ↔ _
    rw [OrderedMap.find?_insert]
    by_cases hk : key = base + i
    · rw [if_pos hk]
      constructor
      · intro he
        cases he
        exact ⟨i, hi.le, .inr rfl, hk, hpacket⟩
      · rintro ⟨j, -, -, hkey, hp⟩
        obtain rfl : j = i := by omega
        rw [hpacket] at hp
        exact hp
    · rw [if_neg hk, h.queued_iff]
      refine exists_congr fun j => and_congr_right fun _ => and_congr_left fun hj => ?_
      exact ⟨.inl, fun h => h.resolve_right fun he => hk (by rw [hj.1, he])⟩
  · have hp' : (s.window.queued.insert (base + i) packet).find? key = some p := hp
    rw [OrderedMap.find?_insert] at hp'
    split_ifs at hp' with hk
    · omega
    · exact h.near key p hp'

/-- The packet that was missing, and the run of queued packets behind it. -/
theorem Tracks.advance (hall : assemble packets {} = .ok all last)
    (hroom : base + packets.length < 2 ^ 48) (harrived : ∀ i, arrived i → i < packets.length)
    (h : Tracks packets base arrived out n s) (hn : ¬ arrived n) {packet : QueuedPacket}
    (hpacket : packets[n]? = some packet) :
    wp (do
      let ready ← consume packet
      let more ← drain (s.window.queued.size + 1)
      return ready ++ more)
      (fun more s' => ∃ n', Tracks packets base (fun j => arrived j ∨ j = n) (out ++ more) n' s' ∧
        ¬ (arrived n' ∨ n' = n)) (fun _ _ => False) s := by
  have hlt := (List.getElem?_eq_some_iff.1 hpacket).1
  have hqueued : ∀ key p, s.window.queued.find? key = some p ↔
      ∃ j, n + 1 ≤ j ∧ (arrived j ∨ j = n) ∧ key = base + j ∧ packets[j]? = some p := by
    intro key p
    rw [h.queued_iff]
    refine exists_congr fun j => ?_
    constructor
    · rintro ⟨hle, hj, hkey⟩
      have hne : n ≠ j := fun he => hn (he ▸ hj)
      exact ⟨by omega, .inl hj, hkey⟩
    · rintro ⟨hle, hj, hkey⟩
      exact ⟨by omega, hj.resolve_right (by omega), hkey⟩
  rw [wp_bind]
  refine wp_mono (wp_and.2 ⟨consume_tracks hall hroom h.expected_eq hpacket h.assembled
    (show ∀ j ≤ n, arrived j ∨ j = n from fun j hj => hj.lt_or_eq.imp (h.arrived_of_lt j) id)
    hqueued h.near, consume_queued packet s⟩) (fun more s' h' => ?_) fun _ _ h' => h'.1
  have hfuel : s'.window.queued.size < s.window.queued.size + 1 := by
    rw [h'.2]
    exact Nat.lt_succ_self _
  have hdrain := drain_tracks hall hroom
    (show ∀ j, arrived j ∨ j = n → j < packets.length from
      fun j hj => hj.elim (harrived j) fun he => he ▸ hlt) hfuel h'.1
  rw [wp_bind]
  refine wp_mono hdrain (fun rest s'' h'' => ?_) fun _ _ h => h
  rw [wp_pure, ← List.append_assoc]
  exact h''

/-- One arrival, of any packet of the stream that is at most 64 numbers ahead. -/
theorem feed_tracks (hall : assemble packets {} = .ok all last)
    (hroom : base + packets.length < 2 ^ 48) (harrived : ∀ i, arrived i → i < packets.length)
    (h : Tracks packets base arrived out n s) (hn : ¬ arrived n) {i : ℕ} {packet : QueuedPacket}
    (hpacket : packets[i]? = some packet) (hnear : i ≤ n + 64) :
    wp (feed (packetIdOf (base + i)) (generationOf (base + i)) packet.flags packet.data)
      (fun more s' => ∃ n', Tracks packets base (fun j => arrived j ∨ j = i) (out ++ more) n' s' ∧
        ¬ (arrived n' ∨ n' = i)) (fun _ _ => False) s := by
  have hlt := (List.getElem?_eq_some_iff.1 hpacket).1
  have hkey : sequenceKey (packetIdOf (base + i)) (generationOf (base + i)) = base + i :=
    sequenceKey_of (by omega)
  have hcases := feed_cases (h.ahead hn) hkey packet.flags packet.data
  rw [h.expected_eq] at hcases
  rcases hcases with ⟨hbehind, hrun⟩ | ⟨hfar, -⟩ | ⟨⟨hgt, -⟩, ⟨hheld, hrun⟩ | ⟨-, hrun⟩⟩ |
    ⟨heq, hrun⟩
  · rw [wp_of_eq_ok hrun, List.append_nil]
    exact ⟨n, h.known (h.arrived_of_lt i (by omega)), not_or.2 ⟨hn, by omega⟩⟩
  · unfold maxQueuedPackets at hfar
    omega
  · obtain ⟨p, hp⟩ := OrderedMap.contains_iff.1 hheld
    obtain ⟨j, -, hj, hkey', -⟩ := (h.queued_iff _ _).1 hp
    obtain rfl : j = i := by omega
    rw [wp_of_eq_ok hrun, List.append_nil]
    exact ⟨n, h.known hj, not_or.2 ⟨hn, by omega⟩⟩
  · rw [wp_of_eq_ok hrun, List.append_nil]
    exact ⟨n, h.hold hpacket (by omega) hnear, not_or.2 ⟨hn, by omega⟩⟩
  · obtain rfl : i = n := by omega
    rw [wp_congr hrun]
    exact Tracks.advance hall hroom harrived h hn hpacket

end Reordering

/-! ## Numbering -/

theorem number_eq_ok {packets : List QueuedPacket} : ∀ {s t : PacketSequence}
    {group : List CommandPacket}, number packets s = .ok group t →
      group.map CommandPacket.queued = packets ∧
      group.map CommandPacket.key = List.range' s.key packets.length ∧
      t.key = s.key + packets.length := by
  induction packets with
  | nil =>
    intro s t group h
    rw [number, run_pure] at h
    cases h
    exact ⟨rfl, rfl, rfl⟩
  | cons packet packets ih =>
    intro s t group h
    rw [number, run_get_bind] at h
    obtain ⟨⟨⟩, s', hadvance, h⟩ := (run_bind_eq_ok_iff _).1 h
    obtain ⟨rest, _, hrest, h⟩ := (run_bind_eq_ok_iff _).1 h
    rw [run_pure] at h
    cases h
    obtain ⟨hlt, rfl⟩ := PacketSequence.advance_eq_ok_iff.1 hadvance
    obtain ⟨h1, h2, h3⟩ := ih hrest
    rw [PacketSequence.key_ofKey hlt] at h2 h3
    refine ⟨by rw [List.map_cons, h1]; rfl, ?_, by rw [h3, List.length_cons]; omega⟩
    rw [List.map_cons, h2, List.length_cons, List.range'_succ]
    rfl

/-- The sender's packets: each group is the cut of its command, and the numbers are consecutive. -/
theorem packetize_eq_ok {commands : List Bytes} : ∀ {s t : PacketSequence}
    {groups : List (List CommandPacket)}, packetize commands s = .ok groups t →
      List.Forall₂ (fun command group => Cuts (group.map CommandPacket.queued) command)
        commands groups ∧
      groups.flatten.map CommandPacket.key = List.range' s.key groups.flatten.length ∧
      t.key = s.key + groups.flatten.length := by
  induction commands with
  | nil =>
    intro s t groups h
    rw [packetize, run_pure] at h
    cases h
    exact ⟨.nil, rfl, rfl⟩
  | cons command commands ih =>
    intro s t groups h
    rw [packetize] at h
    obtain ⟨packets, s₁, hlift, h⟩ := (run_bind_eq_ok_iff _).1 h
    obtain ⟨group, s₂, hgroup, h⟩ := (run_bind_eq_ok_iff _).1 h
    obtain ⟨rest, s₃, hrest, h⟩ := (run_bind_eq_ok_iff _).1 h
    rw [run_pure] at h
    cases h
    cases hpackets : fragmentsOf command with
    | error e => rw [hpackets] at hlift; cases hlift
    | ok packets' =>
      rw [hpackets] at hlift
      cases hlift
      obtain ⟨h1, h2, h3⟩ := number_eq_ok hgroup
      obtain ⟨h4, h5, h6⟩ := ih hrest
      have hlength : group.length = packets.length := by rw [← h1, List.length_map]
      refine ⟨.cons (h1.symm ▸ cuts_fragmentsOf hpackets) h4, ?_, ?_⟩
      · rw [List.flatten_cons, List.map_append, h2, h5, h3, List.length_append, hlength,
          List.range'_append_1]
      · rw [h6, h3, List.flatten_cons, List.length_append, hlength, Nat.add_assoc]

/-! ## The commands of a prefix -/

theorem completeIn_cons (received : List CommandPacket) (command : Bytes) (commands : List Bytes)
    (group : List CommandPacket) (groups : List (List CommandPacket)) :
    completeIn received (command :: commands) (group :: groups) =
      if ∀ packet ∈ group, packet ∈ received then
        command :: completeIn received commands groups
      else completeIn received commands groups := by
  unfold completeIn
  rw [List.zip_cons_cons, List.filter_cons]
  split_ifs with h1 h2 h2 <;> simp_all

/-- Packets of other groups do not matter. -/
theorem completeIn_congr {received received' : List CommandPacket} :
    ∀ {commands : List Bytes} {groups : List (List CommandPacket)},
      (∀ packet ∈ groups.flatten, packet ∈ received ↔ packet ∈ received') →
      completeIn received commands groups = completeIn received' commands groups
  | [], _, _ => by simp [completeIn]
  | _ :: _, [], _ => by simp [completeIn]
  | command :: commands, group :: groups, h => by
    have hgroup : (∀ packet ∈ group, packet ∈ received) ↔ ∀ packet ∈ group, packet ∈ received' :=
      forall₂_congr fun packet hp => h packet (by simp [hp])
    rw [completeIn_cons, completeIn_cons, if_congr hgroup rfl rfl,
      completeIn_congr fun packet hp => h packet (by rw [List.flatten_cons]; exact List.mem_append_right _ hp)]

/-- Without one packet of each group, nothing is complete. -/
theorem completeIn_eq_nil {received : List CommandPacket} {commands : List Bytes}
    {groups : List (List CommandPacket)}
    (h : ∀ group ∈ groups, ∃ packet ∈ group, packet ∉ received) :
    completeIn received commands groups = [] := by
  unfold completeIn
  rw [List.map_eq_nil_iff, List.filter_eq_nil_iff]
  intro x hx
  obtain ⟨packet, hp, hr⟩ := h x.2 (List.of_mem_zip hx).2
  simpa using ⟨packet, hp, hr⟩

theorem ne_nil_of_cuts {commands : List Bytes} {groups : List (List CommandPacket)}
    (h : List.Forall₂ (fun command group => Cuts (group.map CommandPacket.queued) command)
      commands groups) : ∀ group ∈ groups, group ≠ [] := by
  induction h with
  | nil => nofun
  | cons hcut _ ih =>
    intro group hg
    rcases List.mem_cons.1 hg with rfl | hg
    · exact fun he => hcut.ne_nil (by rw [he, List.map_nil])
    · exact ih group hg

/-- All the packets of the stream, processed in order, give all the commands. -/
theorem assemble_stream {commands : List Bytes} {groups : List (List CommandPacket)}
    (h : List.Forall₂ (fun command group => Cuts (group.map CommandPacket.queued) command)
      commands groups) :
    assemble (groups.flatten.map CommandPacket.queued) {} = .ok commands {} := by
  induction h with
  | nil => rfl
  | cons hcut _ ih =>
    rw [List.flatten_cons, List.map_append]
    exact assemble_append_eq_ok_iff.2 ⟨[_], {}, _, hcut.assemble_eq, ih, rfl⟩

/-- The first packets of the stream, processed in order, give the commands that they complete. -/
theorem assemble_prefix {commands : List Bytes} {groups : List (List CommandPacket)}
    (h : List.Forall₂ (fun command group => Cuts (group.map CommandPacket.queued) command)
      commands groups) :
    groups.flatten.Nodup → ∀ {n : ℕ} {out : List Bytes} {a : Assembly},
      assemble ((groups.flatten.take n).map CommandPacket.queued) {} = .ok out a →
      out = completeIn (groups.flatten.take n) commands groups := by
  induction h with
  | nil =>
    intro _ n out a h
    rw [List.flatten_nil, List.take_nil, List.map_nil, assemble, run_pure] at h
    cases h
    rfl
  | @cons command group commands groups hcut hcuts ih =>
    intro hnodup n out a h
    rw [List.flatten_cons] at hnodup h ⊢
    obtain ⟨-, hnodup', hdisjoint⟩ := List.nodup_append.1 hnodup
    by_cases hn : group.length ≤ n
    · obtain ⟨m, rfl⟩ := Nat.exists_eq_add_of_le hn
      rw [List.take_length_add_append] at h ⊢
      rw [List.map_append] at h
      obtain ⟨ready, c, more, h1, h2, rfl⟩ := assemble_append_eq_ok_iff.1 h
      rw [hcut.assemble_eq] at h1
      cases h1
      rw [completeIn_cons, if_pos fun packet hp => List.mem_append_left _ hp, ih hnodup' h2]
      refine congrArg (command :: ·) (completeIn_congr fun packet hp => ?_)
      rw [List.mem_append]
      exact ⟨.inr, fun h => h.resolve_left fun hg => hdisjoint packet hg packet hp rfl⟩
    · rw [not_le] at hn
      rw [List.take_append_of_le_length hn.le] at h ⊢
      rw [List.map_take] at h
      rw [hcut.assemble_take (by rwa [List.length_map]) h, completeIn_eq_nil fun group' hg => ?_]
      rcases List.mem_cons.1 hg with rfl | hg
      · refine ⟨group'[n], List.getElem_mem hn, fun hmem => ?_⟩
        obtain ⟨i, hi, heq⟩ := List.getElem_of_mem hmem
        rw [List.getElem_take] at heq
        rw [List.length_take] at hi
        have := (List.Nodup.getElem_inj_iff (List.nodup_append.1 hnodup).1).1 heq
        omega
      · obtain ⟨packet, hp⟩ := List.exists_mem_of_ne_nil _ (ne_nil_of_cuts hcuts group' hg)
        exact ⟨packet, hp, fun hmem => hdisjoint packet (List.mem_of_mem_take hmem) packet
          (List.mem_flatten.2 ⟨group', hg, hp⟩) rfl⟩

/-! ## Runs -/

theorem key_getElem {packets : List CommandPacket} {base : ℕ}
    (hkeys : packets.map CommandPacket.key = List.range' base packets.length) {i : ℕ}
    (hi : i < packets.length) : packets[i].key = base + i := by
  have h := congrArg (·[i]?) hkeys
  simpa [hi] using h

/-- One arrival: the generation resolves to the sender's. -/
theorem receive_eq {s : Receiver} {packet : CommandPacket}
    (hahead : packet.key ≤ s.expected.key + 64) (hbehind : s.expected.key < packet.key + 32768) :
    receive packet s = feed (packetIdOf packet.key) (generationOf packet.key) packet.flags
      packet.payload s := by
  have hid : packet.sequence.packetId = packetIdOf packet.key := packet.sequence.packetId_eq
  have hres := resolveGeneration_of_close (T := packet.key) packet.sequence.key_lt
    (lt_of_le_of_lt hahead (by omega)) hbehind
  unfold receive
  rw [run_get_bind, hid, run_lift_bind_ok hres]

/-- The run over the arrivals, by induction on them. -/
theorem run_tracks {packets : List CommandPacket} {base : ℕ} {all : List Bytes} {last : Assembly}
    (hall : assemble (packets.map CommandPacket.queued) {} = .ok all last)
    (hroom : base + packets.length < 2 ^ 48)
    (hkeys : packets.map CommandPacket.key = List.range' base packets.length)
    {arrivals : List CommandPacket} : ∀ {arrived : ℕ → Prop} {out : List Bytes} {n : ℕ}
      {s : Receiver}, (∀ i, arrived i → i < packets.length) →
      Tracks (packets.map CommandPacket.queued) base arrived out n s → ¬ arrived n →
      (∀ packet ∈ arrivals, packet ∈ packets) → Admissible s arrivals →
      ∃ ready n' s', arrivals.mapM receive s = .ok ready s' ∧
        Tracks (packets.map CommandPacket.queued) base
          (fun i => arrived i ∨ ∃ packet ∈ arrivals, packet.key = base + i)
          (out ++ ready.flatten) n' s' ∧
        ¬ (arrived n' ∨ ∃ packet ∈ arrivals, packet.key = base + n') := by
  induction arrivals with
  | nil =>
    intro arrived out n s harrived h hn _ _
    refine ⟨[], n, s, rfl, ?_, by simpa using hn⟩
    simpa using h
  | cons packet arrivals ih =>
    intro arrived out n s harrived h hn hmem hadm
    obtain ⟨hahead, hbehind, hrest⟩ := hadm
    obtain ⟨i, hi, hget⟩ := List.getElem_of_mem (hmem packet List.mem_cons_self)
    have hkey : packet.key = base + i := hget ▸ key_getElem hkeys hi
    have hqueued : (packets.map CommandPacket.queued)[i]? = some packet.queued := by
      simp [hi, hget]
    have hfeed := feed_tracks hall (by rwa [List.length_map]) (by rwa [List.length_map]) h hn hqueued
      (by have := h.expected_eq; omega)
    rw [← hkey] at hfeed
    obtain ⟨ready, s₁, hrun, n₁, h₁, hn₁⟩ := exists_ok_of_wp hfeed
    have hreceive : receive packet s = .ok ready s₁ := (receive_eq hahead hbehind).trans hrun
    have hfinal : final (receive packet) s = s₁ := final_of_eq_ok hreceive
    obtain ⟨readies, n₂, s₂, hruns, h₂, hn₂⟩ := ih
      (fun j hj => hj.elim (harrived j) fun he => he ▸ hi) h₁ hn₁
      (fun p hp => hmem p (List.mem_cons_of_mem _ hp)) (hfinal ▸ hrest)
    have hset : (fun j => (arrived j ∨ j = i) ∨ ∃ packet ∈ arrivals, packet.key = base + j) =
        fun j => arrived j ∨ ∃ p ∈ packet :: arrivals, p.key = base + j := by
      funext j
      have hij : packet.key = base + j ↔ j = i := by omega
      simp only [List.mem_cons, exists_eq_or_imp, hij, or_assoc]
    refine ⟨ready :: readies, n₂, s₂, ?_, ?_, ?_⟩
    · rw [List.mapM_cons, run_bind_of_ok _ hreceive, run_bind_of_ok _ hruns, run_pure]
    · rw [List.flatten_cons, ← List.append_assoc, ← hset]
      exact h₂
    · rwa [← congrFun hset n₂]

/-- The longest prefix that arrived, from the first packet that did not. -/
theorem takeWhile_eq_take {α : Type} {p : α → Bool} : ∀ {l : List α} {n : ℕ}, n ≤ l.length →
    (∀ i, i < n → ∀ hl : i < l.length, p l[i]) → (∀ hl : n < l.length, ¬ p l[n]) →
    l.takeWhile p = l.take n
  | [], n, _, _, _ => by simp
  | a :: l, 0, _, _, h => by
    rw [List.takeWhile_cons_of_neg (a := a) (h (Nat.succ_pos _)), List.take_zero]
  | a :: l, n + 1, hn, h, h' => by
    rw [List.takeWhile_cons_of_pos (a := a) (h 0 (Nat.succ_pos _) (Nat.succ_pos _)),
      List.take_succ_cons, takeWhile_eq_take (Nat.le_of_succ_le_succ hn)
        (fun i hi hl => h (i + 1) (Nat.succ_lt_succ hi) (Nat.succ_lt_succ hl))
        fun hl => h' (Nat.succ_lt_succ hl)]

/-- **Exactly-once delivery in order.** However the packets of the commands are lost, duplicated
and reordered on the way, no arrival makes the receiver throw, and it hands over exactly the
commands that the unbroken prefix of received packets completes, once each and in order. -/
theorem exactly_once_in_order (commands : List Bytes) (expected last : PacketSequence)
    (groups : List (List CommandPacket)) (hgroups : packetize commands expected = .ok groups last)
    (arrivals : List CommandPacket) (harrivals : ∀ packet ∈ arrivals, packet ∈ groups.flatten)
    (hadm : Admissible ⟨expected, {}⟩ arrivals) :
    ∃ ready receiver, arrivals.mapM receive ⟨expected, {}⟩ = .ok ready receiver ∧
      ready.flatten =
        completeIn (groups.flatten.takeWhile (· ∈ arrivals)) commands groups := by
  obtain ⟨hcuts, hkeys, hlast⟩ := packetize_eq_ok hgroups
  have hroom : expected.key + groups.flatten.length < 2 ^ 48 := hlast ▸ last.key_lt
  have hnodup : groups.flatten.Nodup := .of_map CommandPacket.key (hkeys ▸ List.nodup_range')
  have hstart : Tracks (groups.flatten.map CommandPacket.queued) expected.key (fun _ => False) [] 0
      ⟨expected, {}⟩ :=
    ⟨rfl, Nat.zero_le _, rfl, nofun, fun key packet => ⟨nofun, fun ⟨i, _, h, _⟩ => h.elim⟩, nofun⟩
  obtain ⟨ready, n, s, hrun, htracks, hn⟩ := run_tracks (assemble_stream hcuts) hroom hkeys
    nofun hstart id harrivals hadm
  refine ⟨ready, s, hrun, ?_⟩
  have hmem : ∀ i (hi : i < groups.flatten.length), groups.flatten[i] ∈ arrivals ↔
      ∃ packet ∈ arrivals, packet.key = expected.key + i := fun i hi => by
    refine ⟨fun h => ⟨_, h, key_getElem hkeys hi⟩, fun ⟨packet, hp, he⟩ => ?_⟩
    obtain ⟨j, hj, rfl⟩ := List.getElem_of_mem (harrivals packet hp)
    rw [key_getElem hkeys hj] at he
    obtain rfl : j = i := by omega
    exact hp
  have hle : n ≤ groups.flatten.length := htracks.le_length.trans_eq (List.length_map _)
  have hconsumed : groups.flatten.takeWhile (· ∈ arrivals) = groups.flatten.take n := by
    refine takeWhile_eq_take hle (fun i hi hl => ?_) fun hl => ?_
    · simpa using (hmem i hl).2 ((htracks.arrived_of_lt i hi).resolve_left id)
    · simpa using fun h => hn (.inr ((hmem n hl).1 h))
  rw [hconsumed]
  refine assemble_prefix hcuts hnodup (a := s.window.assembly) ?_
  rw [List.map_take]
  exact htracks.assembled

/-- A command of two fragments and a short one, over a wrap of the packet id: the short one arrives
first, the fragments follow in the wrong order, and one of them twice. -/
theorem exactly_once_over_wrap :
    let long : Bytes := List.replicate 600 7
    let p : CommandPacket := ⟨⟨65534, 0⟩, 0x30, List.replicate 487 7⟩
    let q : CommandPacket := ⟨⟨65535, 0⟩, 0x30, List.replicate 113 7⟩
    let r : CommandPacket := ⟨⟨0, 1⟩, 0x20, [1]⟩
    ∃ ready receiver, [r, q, q, p].mapM receive ⟨⟨65534, 0⟩, {}⟩ = .ok ready receiver ∧
      ready.flatten = completeIn ([[p, q], [r]].flatten.takeWhile (· ∈ [r, q, q, p])) [long, [1]]
        [[p, q], [r]] := by
  intro long p q r
  exact exactly_once_in_order [long, [1]] ⟨65534, 0⟩ ⟨1, 1⟩ [[p, q], [r]]
    (by decide +kernel) [r, q, q, p]
    (by simp) (by decide +kernel)

end TsCli
