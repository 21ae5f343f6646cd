import TsCli.Reliability.Reassembly

/-!
# Packets that are kept

The server numbers the packets of a stream and sends each until it is acknowledged. A packet is kept
when the window has processed it in order or holds it for later. `InOrder` says that the window has
processed exactly the packets from its first number up to the expected one, and queues packets ahead
of that; no step gives up a kept packet as long as the processing does not throw.

`Accepts` is the condition for that: the reassembly takes the packets that become processable, and
the numbers do not run out.
-/

namespace TsCli.Receiver

open Exec

section Kept

variable (server : ℕ → QueuedPacket) (start : ℕ) (s : Receiver)

/-- The packets from `start` on are processed up to the expected one, and others wait ahead of it. -/
structure InOrder : Prop where
  start_le : start ≤ s.expected.key
  processed : ∃ out, assemble ((List.range' start (s.expected.key - start)).map server) {} =
    .ok out s.window.assembly
  queued : ∀ key packet, s.window.queued.find? key = some packet →
    s.expected.key ≤ key ∧ key ≤ s.expected.key + 64 ∧ packet = server key

/-- The packet is processed, or it is in the queue. -/
def Kept (key : ℕ) : Prop :=
  start ≤ key ∧ key < s.expected.key ∨ s.window.queued.find? key = some (server key)

instance (key : ℕ) : Decidable (Kept server start s key) := inferInstanceAs (Decidable (_ ∨ _))

/-- The reassembly takes the next `n` packets, and they have numbers. -/
def Accepts (n : ℕ) : Prop :=
  s.expected.key + n < 2 ^ 48 ∧
    ∃ out a, assemble ((List.range' s.expected.key n).map server) s.window.assembly = .ok out a

/-- The reassembly takes all packets at hand, when those in `hand` are there too. -/
def AcceptsWith (hand : ℕ → Prop) : Prop :=
  ∀ n, (∀ i < n, hand (s.expected.key + i) ∨
    s.window.queued.contains (s.expected.key + i) = true) → Accepts server s n

/-- The window with the next packet processed. -/
def advanced (a : Assembly) : Receiver :=
  ⟨.ofKey (s.expected.key + 1), { s.window with assembly := a }⟩

end Kept

section Steps

variable {server : ℕ → QueuedPacket} {start : ℕ} {s : Receiver}

/-- The first of the packets that the reassembly takes. -/
theorem Accepts.first {n : ℕ} (h : Accepts server s (n + 1)) :
    s.expected.key + 1 < 2 ^ 48 ∧ ∃ ready a,
      processOrdered (server s.expected.key).flags (server s.expected.key).data s.window.assembly =
        .ok ready a ∧ Accepts server (s.advanced a) n := by
  obtain ⟨hroom, out, c, hassemble⟩ := h
  have hlt : s.expected.key + 1 < 2 ^ 48 := by omega
  rw [List.range'_succ, List.map_cons] at hassemble
  obtain ⟨ready, a, more, hfirst, hrest, -⟩ := assemble_cons_eq_ok_iff.1 hassemble
  refine ⟨hlt, ready, a, hfirst, ?_, more, c, ?_⟩
  · show (PacketSequence.ofKey _).key + n < 2 ^ 48
    rw [PacketSequence.key_ofKey hlt]
    omega
  · show assemble ((List.range' (PacketSequence.ofKey _).key n).map server) a = _
    rw [PacketSequence.key_ofKey hlt]
    exact hrest

/-- With the next packet at hand the reassembly takes it, and then those that are left. -/
theorem AcceptsWith.advanced {hand : ℕ → Prop} (h : AcceptsWith server s hand)
    (hfirst : hand s.expected.key ∨ s.window.queued.contains s.expected.key = true) :
    s.expected.key + 1 < 2 ^ 48 ∧ ∃ ready a,
      processOrdered (server s.expected.key).flags (server s.expected.key).data s.window.assembly =
        .ok ready a ∧
      ∀ s₁ : Receiver, s₁.expected = s.expected →
        (∀ key, s₁.window.queued.contains key = true → s.window.queued.contains key = true) →
        AcceptsWith server (s₁.advanced a) fun _ => False := by
  obtain ⟨hlt, ready, a, hprocess, -⟩ := (h 1 fun i hi => by
    rw [Nat.lt_one_iff.1 hi]
    exact hfirst).first
  refine ⟨hlt, ready, a, hprocess, fun s₁ hexpected hqueued n hn => ?_⟩
  have hkey : (s₁.advanced a).expected.key = s.expected.key + 1 := by
    show (PacketSequence.ofKey (s₁.expected.key + 1)).key = _
    rw [hexpected, PacketSequence.key_ofKey hlt]
  have hmore := h (n + 1) fun i hi => by
    cases i with
    | zero => exact hfirst
    | succ i =>
      have hi' := (hn i (by omega)).resolve_left id
      rw [hkey] at hi'
      rw [show s.expected.key + (i + 1) = s.expected.key + 1 + i by omega]
      exact .inr (hqueued _ hi')
  obtain ⟨-, _, b, hprocess', hrest⟩ := hmore.first
  rw [hprocess] at hprocess'
  cases hprocess'
  unfold Receiver.advanced at hrest ⊢
  rw [hexpected]
  exact hrest

/-- Processing the next packet, when it is not in the queue any more. -/
theorem InOrder.advanced (h : InOrder server start s) {ready : List Bytes} {a : Assembly}
    (hnone : s.window.queued.find? s.expected.key = none) (hlt : s.expected.key + 1 < 2 ^ 48)
    (hprocess : processOrdered (server s.expected.key).flags (server s.expected.key).data
      s.window.assembly = .ok ready a) : InOrder server start (s.advanced a) := by
  have hkey : (s.advanced a).expected.key = s.expected.key + 1 := PacketSequence.key_ofKey hlt
  have hstart := h.start_le
  refine ⟨?_, ?_, fun key packet hqueued => ?_⟩
  · rw [hkey]
    omega
  · obtain ⟨out, hout⟩ := h.processed
    rw [hkey, show s.expected.key + 1 - start = s.expected.key - start + 1 by omega,
      List.range'_concat, List.map_append, Nat.one_mul, Nat.add_sub_cancel' hstart]
    refine ⟨out ++ ready, assemble_append_eq_ok_iff.2 ⟨out, _, ready, hout, ?_, rfl⟩⟩
    exact assemble_cons_eq_ok_iff.2 ⟨ready, a, [], hprocess, rfl, (List.append_nil _).symm⟩
  · rw [hkey]
    obtain ⟨hle, hnear, hpacket⟩ := h.queued key packet hqueued
    have hne : key ≠ s.expected.key := fun he => by
      rw [he] at hqueued
      exact absurd (hnone.symm.trans hqueued) nofun
    exact ⟨by omega, by omega, hpacket⟩

theorem Kept.advanced {key : ℕ} (h : Kept server start s key) (hlt : s.expected.key + 1 < 2 ^ 48)
    (a : Assembly) : Kept server start (s.advanced a) key := by
  have hkey : (s.advanced a).expected.key = s.expected.key + 1 := PacketSequence.key_ofKey hlt
  unfold Kept
  rw [hkey]
  exact h.imp_left fun ⟨hstart, hbefore⟩ => ⟨hstart, by omega⟩

/-- The next packet itself is kept once it is processed. -/
theorem InOrder.kept_next (h : InOrder server start s) (hlt : s.expected.key + 1 < 2 ^ 48)
    (a : Assembly) : Kept server start (s.advanced a) s.expected.key := by
  have hkey : (s.advanced a).expected.key = s.expected.key + 1 := PacketSequence.key_ofKey hlt
  refine .inl ⟨h.start_le, ?_⟩
  rw [hkey]
  exact Nat.lt_succ_self _

/-- The window after a packet is taken out of the queue. -/
def taken (s : Receiver) : Receiver :=
  { s with window.queued := s.window.queued.erase s.expected.key }

theorem find?_of_find?_taken {key : ℕ} {packet : QueuedPacket}
    (h : s.taken.window.queued.find? key = some packet) :
    s.window.queued.find? key = some packet := by
  have h' : (s.window.queued.erase s.expected.key).find? key = some packet := h
  rw [OrderedMap.find?_erase] at h'
  split_ifs at h'
  exact h'

theorem InOrder.taken (h : InOrder server start s) : InOrder server start s.taken :=
  ⟨h.start_le, h.processed, fun key packet hqueued =>
    h.queued key packet (find?_of_find?_taken hqueued)⟩

theorem Kept.taken {key : ℕ} (h : Kept server start s key) (hne : key ≠ s.expected.key) :
    Kept server start s.taken key :=
  h.imp_right fun hqueued => (OrderedMap.find?_erase_of_ne _ hne).trans hqueued

/-- **The loop over the queue** processes every packet that it takes out, so it gives up none. -/
theorem drain_kept (h : InOrder server start s) (haccepts : AcceptsWith server s fun _ => False)
    {fuel : ℕ} (hfuel : s.window.queued.size < fuel) :
    wp (drain fuel) (fun _ s' => InOrder server start s' ∧
        s'.window.queued.find? s'.expected.key = none ∧
        ∀ key, Kept server start s key → Kept server start s' key)
      (fun _ _ => False) s := by
  have hloop := wp_drain (E := fun _ _ => False) (I := fun _ s' => InOrder server start s' ∧
    AcceptsWith server s' (fun _ => False) ∧
    ∀ key, Kept server start s key → Kept server start s' key)
    (fun ready t packet hI hqueued => ?_) fuel [] s hfuel ⟨h, haccepts, fun _ => id⟩
  · exact wp_mono hloop (fun _ s' h' => ⟨h'.1.1, h'.2, h'.1.2.2⟩) fun _ _ h' => h'
  · obtain ⟨hinorder, haccepts, hkept⟩ := hI
    obtain ⟨-, -, rfl⟩ := hinorder.queued _ _ hqueued
    have hcontains : t.window.queued.contains t.expected.key = true :=
      OrderedMap.contains_iff.2 ⟨_, hqueued⟩
    obtain ⟨hlt, more, a, hprocess, hrest⟩ := haccepts.advanced (.inr hcontains)
    rw [wp_consume, wp_of_eq_ok hprocess, if_pos hlt]
    show InOrder server start (t.taken.advanced a) ∧
      AcceptsWith server (t.taken.advanced a) (fun _ => False) ∧
      ∀ key, Kept server start s key → Kept server start (t.taken.advanced a) key
    refine ⟨hinorder.taken.advanced (OrderedMap.find?_erase_self _ _) hlt hprocess,
      hrest t.taken rfl fun key hkey => ?_, ?_⟩
    · obtain ⟨packet, hfind⟩ := OrderedMap.contains_iff.1 hkey
      exact OrderedMap.contains_iff.2 ⟨packet, find?_of_find?_taken hfind⟩
    · intro key hs
      by_cases hne : key = t.expected.key
      · subst hne
        exact hinorder.taken.kept_next hlt a
      · exact ((hkept key hs).taken hne).advanced hlt a

/-- The queued packets are ahead of the expected one. -/
theorem InOrder.ahead (h : InOrder server start s)
    (hnone : s.window.queued.find? s.expected.key = none) : s.Ahead := by
  refine Near.ahead (fun key packet hpacket => ?_) hnone
  obtain ⟨hle, hnear, -⟩ := h.queued key packet hpacket
  exact ⟨hle, hnear⟩

/-- Holding a packet for later. -/
theorem InOrder.hold (h : InOrder server start s) {key : ℕ} (hkey : s.expected.key < key)
    (hnear : key ≤ s.expected.key + 64) : InOrder server start
      { s with window.queued := s.window.queued.insert key (server key) } := by
  refine ⟨h.start_le, h.processed, fun k packet hpacket => ?_⟩
  have hpacket' : (s.window.queued.insert key (server key)).find? k = some packet := hpacket
  rw [OrderedMap.find?_insert] at hpacket'
  split_ifs at hpacket' with hk
  · cases hpacket'
    subst hk
    exact ⟨hkey.le, hnear, rfl⟩
  · exact h.queued k packet hpacket'

theorem Kept.hold {k : ℕ} (h : Kept server start s k) (key : ℕ) : Kept server start
    { s with window.queued := s.window.queued.insert key (server key) } k := by
  refine h.imp_right fun hqueued => ?_
  show (s.window.queued.insert key (server key)).find? k = _
  rw [OrderedMap.find?_insert]
  split_ifs with hk
  · rw [hk]
  · exact hqueued

/-- **One packet**: under its conditions `Feed` does not throw, keeps the packet and gives up none
that it kept. -/
theorem feed_kept (h : InOrder server start s)
    (hnone : s.window.queued.find? s.expected.key = none) {packetId : UInt16}
    {generationId : UInt32} {flags : PacketFlags} {plaintext : Bytes} {key : ℕ}
    (hkey : sequenceKey packetId generationId = key) (hpacket : server key = ⟨flags, plaintext⟩)
    (hstart : start ≤ key) (hnear : key ≤ s.expected.key + 64)
    (haccepts : key = s.expected.key → AcceptsWith server s (· = s.expected.key)) :
    wp (feed packetId generationId flags plaintext) (fun _ s' => InOrder server start s' ∧
        s'.window.queued.find? s'.expected.key = none ∧ Kept server start s' key ∧
        ∀ k, Kept server start s k → Kept server start s' k)
      (fun _ _ => False) s := by
  rcases feed_cases (h.ahead hnone) hkey flags plaintext with ⟨hbehind, hrun⟩ | ⟨hfar, -⟩ |
    ⟨⟨hahead, -⟩, ⟨hheld, hrun⟩ | ⟨-, hrun⟩⟩ | ⟨heq, hrun⟩
  · rw [wp_of_eq_ok hrun]
    exact ⟨h, hnone, .inl ⟨hstart, hbehind⟩, fun _ => id⟩
  · unfold maxQueuedPackets at hfar
    omega
  · obtain ⟨packet, hfind⟩ := OrderedMap.contains_iff.1 hheld
    obtain ⟨-, -, rfl⟩ := h.queued key packet hfind
    rw [wp_of_eq_ok hrun]
    exact ⟨h, hnone, .inr hfind, fun _ => id⟩
  · rw [wp_of_eq_ok hrun, ← hpacket]
    refine ⟨h.hold hahead hnear, ?_, .inr (OrderedMap.find?_insert_self ..), fun k hk => hk.hold key⟩
    exact (OrderedMap.find?_insert_of_ne _ _ hahead.ne).trans hnone
  · subst heq
    obtain ⟨hlt, ready, a, hprocess, hrest⟩ := (haccepts rfl).advanced (.inl rfl)
    have hmore := hrest s rfl fun _ => id
    rw [hpacket] at hprocess
    rw [wp_congr hrun, wp_bind, wp_consume, wp_of_eq_ok hprocess, if_pos hlt]
    rw [← hpacket] at hprocess
    rw [wp_bind]
    refine wp_mono (drain_kept (h.advanced hnone hlt hprocess) hmore (Nat.lt_succ_self _))
      (fun _ s' hs' => ?_) fun _ _ h => h
    obtain ⟨hinorder, hnone', hkept⟩ := hs'
    exact ⟨hinorder, hnone', hkept _ (h.kept_next hlt a), fun k hk => hkept k (hk.advanced hlt a)⟩

end Steps

end TsCli.Receiver
