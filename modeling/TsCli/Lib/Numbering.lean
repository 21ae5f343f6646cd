import Mathlib.Data.Finset.Card
import Mathlib.Tactic

/-!
# Numbers that are used for one packet

A sender numbers the packets of each of its streams. The packets of one of them, the reliable
stream, are held under their numbers and sent again until they are released. A number may go on the
wire before the stream advances past it, so `Inv` accounts for one packet ahead of each stream: it
is the one that is held under the current number. Every operation keeps it, as long as no packet is
released whose number is current and on the wire.

The numbers of a stream end at `limit`, and a sender that is `Exhausted` has used more packets
than there are numbers.
-/

/-- How packets are numbered. -/
structure StreamNumbering (τ β : Type*) where
  stream : β → τ
  number : β → ℕ
  reliable : τ
  limit : ℕ

/-- A sender: the next number of each stream, the packets it has put on the wire, and the packets
it holds. -/
structure NumberedSender (τ β : Type*) where
  next : τ → ℕ
  wire : Finset β
  held : ℕ → Option β

namespace NumberedSender

variable {τ β : Type*}

/-- Put a packet on the wire, and let a stream go on at `n`. -/
def put [DecidableEq τ] [DecidableEq β] (s : NumberedSender τ β) (a : τ) (p : β) (n : ℕ) : NumberedSender τ β :=
  { s with next := Function.update s.next a n, wire := insert p s.wire }

/-- Hold a packet under a number. -/
def hold (s : NumberedSender τ β) (k : ℕ) (p : β) : NumberedSender τ β :=
  { s with held := Function.update s.held k (some p) }

/-- Release the packet under a number. -/
def release (s : NumberedSender τ β) (k : ℕ) : NumberedSender τ β :=
  { s with held := Function.update s.held k none }

end NumberedSender

namespace StreamNumbering

variable {τ β : Type*} [DecidableEq τ] (N : StreamNumbering τ β) (start : τ → ℕ)

/-- How many packets of a stream are on the wire. -/
def count (s : NumberedSender τ β) (a : τ) : ℕ := (s.wire.filter fun p => N.stream p = a).card

/-- The packets of a stream use all of its numbers. -/
def Full (s : NumberedSender τ β) (a : τ) : Prop := N.limit ≤ start a + N.count s a

/-- Some stream has more packets than numbers. -/
def Exhausted (s : NumberedSender τ β) : Prop := ∃ a, N.limit < start a + N.count s a

/-- A packet on the wire that its stream has not advanced past. -/
structure Ahead (s : NumberedSender τ β) (p : β) : Prop where
  number : N.number p = s.next (N.stream p)
  counted : s.next (N.stream p) + 1 ≤ start (N.stream p) + N.count s (N.stream p)
  stream : N.stream p = N.reliable
  held : s.held (N.number p) = some p

/-- No number is on the wire with two packets, and none will be. -/
structure Inv (s : NumberedSender τ β) : Prop where
  unique : ∀ p ∈ s.wire, ∀ q ∈ s.wire, N.stream p = N.stream q → N.number p = N.number q → p = q
  next_le : ∀ a, ¬ N.Full start s a → s.next a ≤ start a + N.count s a
  behind : ∀ p ∈ s.wire, ¬ N.Full start s (N.stream p) →
    N.number p < s.next (N.stream p) ∨ N.Ahead start s p
  held : ∀ k p, s.held k = some p →
    N.stream p = N.reliable ∧ N.number p = k ∧ k ≤ s.next N.reliable
  agree : ¬ N.Full start s N.reliable → ∀ p ∈ s.wire, N.stream p = N.reliable →
    ∀ q, s.held (N.number p) = some q → q = p

/-- What holds along a run: the invariant, until a stream is exhausted. -/
def Sound (s : NumberedSender τ β) : Prop := N.Inv start s ∨ N.Exhausted start s

/-- When a packet may go out: no other packet on the wire or held has its number, and its stream
stays where it is or goes from its number to the next one. If the stream does not get behind the
number, the packet is held or the number is the last one. -/
structure MayPut (s : NumberedSender τ β) (p : β) (n : ℕ) : Prop where
  next : n = s.next (N.stream p) ∨
    n = s.next (N.stream p) + 1 ∧ N.number p = s.next (N.stream p)
  free : ¬ N.Full start s (N.stream p) → ∀ q ∈ s.wire, N.stream q = N.stream p →
    N.number q = N.number p → q = p
  held : N.stream p = N.reliable → ∀ q, s.held (N.number p) = some q → q = p
  number : N.number p < n ∨ N.limit ≤ s.next (N.stream p) + 1 ∨
    N.number p = n ∧ N.stream p = N.reliable ∧ s.held (N.number p) = some p

/-! ## Counting -/

section Count

variable {N start} {s s' : NumberedSender τ β}

theorem count_mono (h : s.wire ⊆ s'.wire) (a : τ) : N.count s a ≤ N.count s' a :=
  Finset.card_le_card (Finset.filter_subset_filter _ h)

theorem Full.mono (h : s.wire ⊆ s'.wire) {a : τ} (hfull : N.Full start s a) :
    N.Full start s' a := by
  have := count_mono (N := N) h a
  unfold Full at *
  omega

theorem Exhausted.mono (h : s.wire ⊆ s'.wire) (hs : N.Exhausted start s) :
    N.Exhausted start s' := by
  obtain ⟨a, ha⟩ := hs
  have := count_mono (N := N) h a
  exact ⟨a, by omega⟩

theorem count_of_wire_eq (h : s'.wire = s.wire) (a : τ) : N.count s' a = N.count s a := by
  unfold count; rw [h]

theorem full_iff_of_wire_eq (h : s'.wire = s.wire) (a : τ) :
    N.Full start s' a ↔ N.Full start s a := by
  unfold Full; rw [count_of_wire_eq h]

theorem count_of_insert [DecidableEq β] {p : β} (h : s'.wire = insert p s.wire) (hp : p ∉ s.wire) :
    N.count s' (N.stream p) = N.count s (N.stream p) + 1 := by
  unfold count
  rw [h, Finset.filter_insert, if_pos rfl, Finset.card_insert_of_notMem]
  exact fun hmem => hp (Finset.mem_filter.1 hmem).1

end Count

/-! ## Operations -/

section Operations

variable {N start} {s : NumberedSender τ β} {p : β}

/-- What has the current number of a stream is the packet that is held under it. -/
theorem Inv.held_of_current (h : N.Inv start s) (hp : p ∈ s.wire)
    (hfull : ¬ N.Full start s (N.stream p)) (hnumber : N.number p = s.next (N.stream p)) :
    N.stream p = N.reliable ∧ s.held (N.number p) = some p := by
  rcases h.behind p hp hfull with hlt | hahead
  · omega
  · exact ⟨hahead.stream, hahead.held⟩

theorem Inv.free_of_current (h : N.Inv start s) (hnumber : N.number p = s.next (N.stream p))
    (hheld : N.stream p = N.reliable → s.held (N.number p) = some p)
    (hfull : ¬ N.Full start s (N.stream p)) (q : β) (hq : q ∈ s.wire)
    (hstream : N.stream q = N.stream p) (heq : N.number q = N.number p) : q = p := by
  obtain ⟨hreliable, hother⟩ := h.held_of_current hq (by rwa [hstream])
    (by rw [hstream, heq, hnumber])
  have hmine := hheld (hstream.symm.trans hreliable)
  rw [heq, hmine] at hother
  exact (Option.some.inj hother).symm

/-- What an operation that takes nothing back leaves behind the streams or ahead of them. -/
theorem behind_of_le {s' : NumberedSender τ β} {q : β}
    (h : N.number q < s.next (N.stream q) ∨ N.Ahead start s q)
    (hnext : s.next (N.stream q) ≤ s'.next (N.stream q)) (hwire : s.wire ⊆ s'.wire)
    (hheld : s'.held = s.held) :
    N.number q < s'.next (N.stream q) ∨ N.Ahead start s' q := by
  rcases h with hlt | hahead
  · exact .inl (hlt.trans_le hnext)
  · rcases hnext.lt_or_eq with hlt | heq
    · exact .inl (hahead.number.trans_lt hlt)
    · refine .inr ⟨hahead.number.trans heq, ?_, hahead.stream, hheld ▸ hahead.held⟩
      rw [← heq]
      exact hahead.counted.trans (Nat.add_le_add_left (count_mono hwire _) _)

section Put

variable [DecidableEq β] {n : ℕ}

theorem next_put_self : (s.put (N.stream p) p n).next (N.stream p) = n := Function.update_self ..

theorem next_put_of_ne {a : τ} (h : a ≠ N.stream p) :
    (s.put (N.stream p) p n).next a = s.next a := Function.update_of_ne h ..

theorem MayPut.next_le (h : N.MayPut start s p n) (a : τ) :
    s.next a ≤ (s.put (N.stream p) p n).next a := by
  by_cases ha : a = N.stream p
  · subst ha
    have := h.next
    rw [next_put_self]
    omega
  · exact (next_put_of_ne ha).ge

/-- A packet that is on the wire goes out again. -/
theorem Inv.put_of_mem (h : N.Inv start s) (hput : N.MayPut start s p n) (hmem : p ∈ s.wire) :
    N.Inv start (s.put (N.stream p) p n) := by
  have hwire : (s.put (N.stream p) p n).wire = s.wire := Finset.insert_eq_of_mem hmem
  have hfull : ∀ a, N.Full start (s.put (N.stream p) p n) a ↔ N.Full start s a :=
    full_iff_of_wire_eq hwire
  refine ⟨?_, fun a ha => ?_, fun q hq ha => ?_, fun k q hk => ?_, fun ha => ?_⟩
  · rw [hwire]
    exact h.unique
  · rw [hfull] at ha
    rw [count_of_wire_eq hwire]
    by_cases hap : a = N.stream p
    · subst hap
      rw [next_put_self]
      rcases hput.next with rfl | ⟨rfl, hlast⟩
      · exact h.next_le _ ha
      · -- the packet was ahead, so it is already counted
        rcases h.behind p hmem ha with hlt | hahead
        · omega
        · exact hahead.counted
    · rw [next_put_of_ne hap]
      exact h.next_le a ha
  · rw [hwire] at hq
    rw [hfull] at ha
    exact behind_of_le (h.behind q hq ha) (hput.next_le _) hwire.ge rfl
  · obtain ⟨hstream, hkey, hk⟩ := h.held k q hk
    exact ⟨hstream, hkey, hk.trans (hput.next_le _)⟩
  · rw [hfull] at ha
    rw [hwire]
    exact h.agree ha

/-- A packet goes out that is not on the wire, while its stream has numbers left. -/
theorem Inv.put_of_notMem (h : N.Inv start s) (hput : N.MayPut start s p n) (hmem : p ∉ s.wire)
    (hfull : ¬ N.Full start s (N.stream p)) : N.Inv start (s.put (N.stream p) p n) := by
  have hsub : s.wire ⊆ (s.put (N.stream p) p n).wire := Finset.subset_insert _ _
  have hcount : N.count (s.put (N.stream p) p n) (N.stream p) = N.count s (N.stream p) + 1 :=
    count_of_insert rfl hmem
  have hbefore := h.next_le _ hfull
  have hnext := hput.next
  refine ⟨fun q hq r hr hstream hnum => ?_, fun a ha => ?_, fun q hq ha => ?_,
    fun k q hk => ?_, fun ha q hq hstream r hr => ?_⟩
  · rcases Finset.mem_insert.1 hq with rfl | hq' <;> rcases Finset.mem_insert.1 hr with hr | hr
    · exact hr.symm
    · exact (hput.free hfull r hr hstream.symm hnum.symm).symm
    · subst hr
      exact hput.free hfull q hq' hstream hnum
    · exact h.unique q hq' r hr hstream hnum
  · by_cases hap : a = N.stream p
    · subst hap
      rw [next_put_self, hcount]
      omega
    · rw [next_put_of_ne hap]
      exact (h.next_le a (mt (Full.mono hsub) ha)).trans
        (Nat.add_le_add_left (count_mono hsub a) _)
  · rcases Finset.mem_insert.1 hq with rfl | hq
    · rw [next_put_self]
      rcases hput.number with hlt | hend | ⟨hlast, hstream, hheld⟩
      · exact .inl hlt
      · unfold Full at hfull ha
        rw [hcount] at ha
        omega
      · refine .inr ⟨hlast.trans next_put_self.symm, ?_, hstream, hheld⟩
        rw [next_put_self, hcount]
        omega
    · exact behind_of_le (h.behind q hq (mt (Full.mono hsub) ha)) (hput.next_le _) hsub rfl
  · obtain ⟨hstream, hkey, hk⟩ := h.held k q hk
    exact ⟨hstream, hkey, hk.trans (hput.next_le _)⟩
  · rcases Finset.mem_insert.1 hq with rfl | hq
    · exact hput.held hstream r hr
    · exact h.agree (mt (Full.mono hsub) ha) q hq hstream r hr

theorem Inv.put (h : N.Inv start s) (hput : N.MayPut start s p n) :
    N.Sound start (s.put (N.stream p) p n) := by
  by_cases hmem : p ∈ s.wire
  · exact .inl (h.put_of_mem hput hmem)
  by_cases hfull : N.Full start s (N.stream p)
  · have hcount : N.count (s.put (N.stream p) p n) (N.stream p) = N.count s (N.stream p) + 1 :=
      count_of_insert rfl hmem
    refine .inr ⟨N.stream p, ?_⟩
    unfold Full at hfull
    omega
  · exact .inl (h.put_of_notMem hput hmem hfull)

/-- The next packet of a stream goes out; one of the reliable stream is held before. At the last
number the stream does not advance. -/
theorem Sound.transmit (h : N.Sound start s) (hnumber : N.number p = s.next (N.stream p))
    (hheld : N.stream p = N.reliable → s.held (N.number p) = some p) {n : ℕ}
    (hn : n = s.next (N.stream p) + 1 ∨
      n = s.next (N.stream p) ∧ N.limit ≤ s.next (N.stream p) + 1) :
    N.Sound start (s.put (N.stream p) p n) := by
  rcases h with h | h
  · refine h.put ⟨?_, h.free_of_current hnumber hheld, fun hstream q hq => ?_, by omega⟩
    · rcases hn with rfl | ⟨rfl, -⟩
      · exact .inr ⟨rfl, hnumber⟩
      · exact .inl rfl
    · rw [hheld hstream] at hq
      exact (Option.some.inj hq).symm
  · exact .inr (h.mono (Finset.subset_insert _ _))

/-- A held packet goes out again, or for the first time. -/
theorem Sound.resend (h : N.Sound start s) {k : ℕ} (hheld : s.held k = some p) :
    N.Sound start (s.put (N.stream p) p (s.next (N.stream p))) := by
  rcases h with h | h
  · obtain ⟨hstream, rfl, hk⟩ := h.held k p hheld
    rw [← hstream] at hk
    refine h.put ⟨.inl rfl, fun hfull q hq hq' heq => ?_, fun _ q hq => ?_, ?_⟩
    · rw [hstream] at hfull hq'
      exact (h.agree hfull q hq hq' p (by rw [heq]; exact hheld)).symm
    · rw [hheld] at hq
      exact (Option.some.inj hq).symm
    · rcases hk.lt_or_eq with hlt | heq
      · exact .inl hlt
      · exact .inr (.inr ⟨heq, hstream, hheld⟩)
  · exact .inr (h.mono (Finset.subset_insert _ _))

end Put

/-- The next packet of the reliable stream is held, if its number is not in use. -/
theorem Sound.hold (h : N.Sound start s) (hstream : N.stream p = N.reliable)
    (hnumber : N.number p = s.next N.reliable) (hnone : s.held (N.number p) = none) :
    N.Sound start (s.hold (N.number p) p) := by
  rcases h with h | h
  · have hnot : ∀ q ∈ s.wire, ¬ N.Full start s (N.stream q) → ¬ N.Ahead start s q := by
      intro q _ _ hahead
      have hq := hahead.held
      rw [hahead.number, hahead.stream, ← hnumber, hnone] at hq
      cases hq
    refine .inl ⟨h.unique, h.next_le, fun q hq hfull => ?_, fun k q hk => ?_,
      fun hfull q hq hq' r hr => ?_⟩
    · exact .inl ((h.behind q hq hfull).resolve_right (hnot q hq hfull))
    · by_cases hkp : k = N.number p
      · subst hkp
        cases (Function.update_self ..).symm.trans hk
        exact ⟨hstream, rfl, hnumber.le⟩
      · exact h.held k q ((Function.update_of_ne hkp ..).symm.trans hk)
    · have hfull' : ¬ N.Full start s (N.stream q) := by rwa [hq']
      have hlt := (h.behind q hq hfull').resolve_right (hnot q hq hfull')
      rw [hq', ← hnumber] at hlt
      exact h.agree hfull q hq hq' r ((Function.update_of_ne hlt.ne ..).symm.trans hr)
  · exact .inr h

/-- A packet is released that has not gone out under the current number, unless the current number
is the last one. -/
theorem Sound.release (h : N.Sound start s) {k : ℕ}
    (hk : ∀ q ∈ s.wire, s.held k = some q → k = s.next N.reliable → N.limit ≤ k + 1) :
    N.Sound start (s.release k) := by
  rcases h with h | h
  · refine .inl ⟨h.unique, h.next_le, fun q hq hfull => ?_, fun i q hi => ?_,
      fun hfull q hq hq' r hr => ?_⟩
    · refine (h.behind q hq hfull).imp_right fun hahead => ?_
      have hne : N.number q ≠ k := by
        rintro rfl
        have hlimit := hk q hq hahead.held (hahead.stream ▸ hahead.number)
        have hcounted := hahead.counted
        rw [← hahead.number] at hcounted
        exact hfull (hlimit.trans hcounted)
      exact ⟨hahead.number, hahead.counted, hahead.stream,
        (Function.update_of_ne hne ..).trans hahead.held⟩
    · by_cases hik : i = k
      · subst hik
        cases (Function.update_self ..).symm.trans hi
      · exact h.held i q ((Function.update_of_ne hik ..).symm.trans hi)
    · by_cases hrk : N.number q = k
      · subst hrk
        cases (Function.update_self ..).symm.trans hr
      · exact h.agree hfull q hq hq' r ((Function.update_of_ne hrk ..).symm.trans hr)
  · exact .inr h

end Operations

/-- A number is on the wire with one packet, as long as no stream is exhausted. -/
theorem Sound.eq_of_mem {N : StreamNumbering τ β} {start : τ → ℕ} {s : NumberedSender τ β}
    (h : N.Sound start s) (hcount : ∀ a, start a + N.count s a ≤ N.limit) {p q : β}
    (hp : p ∈ s.wire) (hq : q ∈ s.wire) (hstream : N.stream p = N.stream q)
    (hnumber : N.number p = N.number q) : p = q := by
  rcases h with h | ⟨a, ha⟩
  · exact h.unique p hp q hq hstream hnumber
  · exact absurd (hcount a) (not_le.2 ha)

/-- A sender that has sent and holds nothing. -/
theorem sound_initial {s : NumberedSender τ β} (hwire : s.wire = ∅) (hheld : ∀ k, s.held k = none)
    (hnext : s.next = start) : N.Sound start s := by
  refine .inl ⟨?_, fun a _ => ?_, ?_, fun k p hk => ?_, ?_⟩
  · rw [hwire]; exact nofun
  · rw [hnext]; exact Nat.le_add_right ..
  · rw [hwire]; exact nofun
  · rw [hheld] at hk; cases hk
  · rw [hwire]; exact nofun

end StreamNumbering
