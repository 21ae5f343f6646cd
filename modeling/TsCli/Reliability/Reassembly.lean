import TsCli.Packet.CommandFragmenter
import TsCli.Reliability.CommandReceiveWindow

/-!
# Fragments in order

`assemble` processes packets one after the other, without the queue. What the fragmenter cuts out
of a command (`fragmentsOf`), processed so, gives the command with its last packet and nothing
before it (`cuts_fragmentsOf`).
-/

namespace TsCli

open PacketLimits CommandFragmenter Receiver Exec

/-- The flags and the payloads of a command's packets, as `SendCommand` cuts them. -/
def fragmentsOf (command : Bytes) : Except Failure (List QueuedPacket) := do
  let fragments ← plan command.length
  return fragments.map fun fragment =>
    { flags := fragment.flags, data := (command.drop fragment.offset).take fragment.size }

/-! ## Processing in order -/

/-- Process packets in order. -/
def assemble : List QueuedPacket → EStateM Failure Assembly (List Bytes)
  | [] => pure []
  | packet :: packets => do
    let ready ← processOrdered packet.flags packet.data
    let more ← assemble packets
    return ready ++ more

theorem assemble_cons_eq_ok_iff {packet : QueuedPacket} {packets : List QueuedPacket}
    {a c : Assembly} {out : List Bytes} :
    assemble (packet :: packets) a = .ok out c ↔
      ∃ ready b more, processOrdered packet.flags packet.data a = .ok ready b ∧
        assemble packets b = .ok more c ∧ out = ready ++ more := by
  rw [assemble, run_bind_eq_ok_iff]
  constructor
  · rintro ⟨ready, b, h, h'⟩
    obtain ⟨more, _, h', h''⟩ := (run_bind_eq_ok_iff _).1 h'
    rw [run_pure] at h''
    cases h''
    exact ⟨ready, b, more, h, h', rfl⟩
  · rintro ⟨ready, b, more, h, h', rfl⟩
    exact ⟨ready, b, h, by rw [run_bind_of_ok _ h', run_pure]⟩

/-- A list is processed without a throw when its two parts are, one after the other. -/
theorem assemble_append_eq_ok_iff {xs ys : List QueuedPacket} :
    ∀ {a c : Assembly} {out : List Bytes}, assemble (xs ++ ys) a = .ok out c ↔
      ∃ ready b more, assemble xs a = .ok ready b ∧ assemble ys b = .ok more c ∧
        out = ready ++ more := by
  induction xs with
  | nil =>
    intro a c out
    constructor
    · exact fun h => ⟨[], a, out, rfl, h, rfl⟩
    · rintro ⟨ready, b, more, h, h', rfl⟩
      rw [assemble, run_pure] at h
      cases h
      exact h'
  | cons x xs ih =>
    intro a c out
    rw [List.cons_append, assemble_cons_eq_ok_iff]
    constructor
    · rintro ⟨ready, b, more, h, h', rfl⟩
      obtain ⟨ready', b', more', h1, h2, rfl⟩ := ih.1 h'
      exact ⟨_, b', more', assemble_cons_eq_ok_iff.2 ⟨ready, b, ready', h, h1, rfl⟩, h2,
        (List.append_assoc ..).symm⟩
    · rintro ⟨_, b', more', h, h', rfl⟩
      obtain ⟨ready, b, ready', h1, h2, rfl⟩ := assemble_cons_eq_ok_iff.1 h
      exact ⟨ready, b, ready' ++ more', h1, ih.2 ⟨ready', b', more', h2, h', rfl⟩,
        List.append_assoc ..⟩

/-! ## Reassembly -/

/-- Processed in order, the packets give `command` with the last of them and nothing before. -/
def Cuts (packets : List QueuedPacket) (command : Bytes) : Prop :=
  ∃ first last a, packets = first ++ [last] ∧ assemble first {} = .ok [] a ∧
    processOrdered last.flags last.data a = .ok [command] {}

section Cutting

variable {data fragments command : Bytes}

theorem sizeSub_fragments (h : fragments.length + data.length ≤ maxCommandSize) :
    ¬ sizeSub maxCommandSize fragments.length < data.length := by
  rw [sizeSub_of_le (by omega) (by decide)]
  omega

theorem processOrdered_whole (h : data.length ≤ maxCommandSize) :
    processOrdered .newProtocol data {} = .ok [data] {} := by
  have hfits : ¬ sizeSub maxCommandSize ([] : Bytes).length < data.length :=
    sizeSub_fragments (by simpa using h)
  unfold processOrdered
  rw [run_get_bind, run_ite, if_neg hfits]
  rfl

theorem processOrdered_first (h : data.length ≤ maxCommandSize) :
    processOrdered (.newProtocol ||| .fragmented) data {} = .ok [] ⟨true, false, data⟩ := by
  have hfits : ¬ sizeSub maxCommandSize ([] : Bytes).length < data.length :=
    sizeSub_fragments (by simpa using h)
  unfold processOrdered
  rw [run_get_bind, run_ite, if_neg hfits]
  rfl

theorem processOrdered_middle (h : fragments.length + data.length ≤ maxCommandSize) :
    processOrdered .newProtocol data ⟨true, false, fragments⟩ =
      .ok [] ⟨true, false, fragments ++ data⟩ := by
  unfold processOrdered
  rw [run_get_bind, run_ite, if_neg (sizeSub_fragments h)]
  rfl

theorem processOrdered_last (h : fragments.length + data.length ≤ maxCommandSize) :
    processOrdered (.newProtocol ||| .fragmented) data ⟨true, false, fragments⟩ =
      .ok [fragments ++ data] {} := by
  unfold processOrdered
  rw [run_get_bind, run_ite, if_neg (sizeSub_fragments h)]
  rfl

/-- The packet of a fragment, as `SendCommand` takes it out of the command. -/
def packetOf (command : Bytes) (fragment : CommandFragment) : QueuedPacket :=
  { flags := fragment.flags, data := (command.drop fragment.offset).take fragment.size }

/-- The loop of `Plan` behind the first fragment, by induction on its turns: the window has
collected the command up to the offset. -/
theorem planLoop_cut (hsize : command.length ≤ maxCommandSize) :
    ∀ (fuel offset : ℕ), 0 < offset → offset < command.length → command.length - offset ≤ fuel →
      ∃ first last a, (planLoop command.length fuel offset).map (packetOf command) = first ++ [last] ∧
        assemble first ⟨true, false, command.take offset⟩ = .ok [] a ∧
        processOrdered last.flags last.data a = .ok [command] {} := by
  intro fuel
  induction fuel with
  | zero => intro offset h1 h2 h3; omega
  | succ fuel ih =>
    intro offset hpos hlt hfuel
    rw [planLoop, if_pos hlt]
    have hclient : 0 < maxClientPayload := by decide
    generalize hf : min maxClientPayload (command.length - offset) = fragmentSize
    have htake : command.take offset ++ (command.drop offset).take fragmentSize =
        command.take (offset + fragmentSize) := (List.take_add ..).symm
    have hlength : (command.take offset).length + ((command.drop offset).take fragmentSize).length ≤
        maxCommandSize := by
      rw [List.length_take, List.length_take, List.length_drop]; omega
    by_cases hlast : offset + fragmentSize = command.length
    · refine ⟨[], packetOf command ⟨offset, fragmentSize, .newProtocol ||| .fragmented⟩, _, ?_, rfl, ?_⟩
      · have hstop : planLoop command.length fuel command.length = [] := by
          cases fuel with
          | zero => rfl
          | succ fuel => rw [planLoop, if_neg (lt_irrefl _)]
        simp only [hlast, or_true, if_true, hstop]
        rfl
      · refine (processOrdered_last hlength).trans ?_
        rw [htake, hlast, List.take_length]
    · obtain ⟨first, last, a, h1, h2, h3⟩ := ih (offset + fragmentSize) (by omega) (by omega)
        (by omega)
      refine ⟨packetOf command ⟨offset, fragmentSize, .newProtocol⟩ :: first, last, a, ?_, ?_, h3⟩
      · simp only [hlast, hpos.ne', or_self, if_false]
        rw [List.map_cons, h1, List.cons_append]
      · refine assemble_cons_eq_ok_iff.2 ⟨[], _, [], processOrdered_middle hlength, ?_, rfl⟩
        show assemble first ⟨true, false, command.take offset ++
          (command.drop offset).take fragmentSize⟩ = _
        rw [htake]
        exact h2

/-- **Reassembly.** What the fragmenter cuts, the window joins. -/
theorem cuts_fragmentsOf {packets : List QueuedPacket} (h : fragmentsOf command = .ok packets) :
    Cuts packets command := by
  unfold fragmentsOf plan at h
  split_ifs at h with hlarge hsmall
  · cases h
  · cases h
    have hcut : (command.drop 0).take command.length = command := List.take_length
    exact ⟨[], _, {}, rfl, rfl, by
      show processOrdered .newProtocol ((command.drop 0).take command.length) {} = _
      rw [hcut]
      exact processOrdered_whole (not_lt.1 hlarge)⟩
  · cases h
    have hclient : 0 < maxClientPayload := by decide
    obtain ⟨fuel, hfuel⟩ : ∃ fuel, command.length = fuel + 1 := ⟨command.length - 1, by omega⟩
    have hmin : min maxClientPayload command.length = maxClientPayload := by omega
    obtain ⟨first, last, a, h1, h2, h3⟩ := planLoop_cut (not_lt.1 hlarge) fuel maxClientPayload
      hclient (by omega) (by omega)
    refine ⟨packetOf command ⟨0, maxClientPayload, .newProtocol ||| .fragmented⟩ :: first, last, a,
      ?_, ?_, h3⟩
    · have hunfold : planLoop command.length command.length 0 =
          ⟨0, maxClientPayload, .newProtocol ||| .fragmented⟩ ::
            planLoop command.length fuel maxClientPayload := by
        rw [hfuel, planLoop, if_pos (Nat.succ_pos _), ← hfuel]
        simp only [Nat.sub_zero, hmin, Nat.zero_add, true_or, if_true]
      show (planLoop command.length command.length 0).map (packetOf command) = _
      rw [hunfold, List.map_cons, h1, List.cons_append]
    · refine assemble_cons_eq_ok_iff.2 ⟨[], _, [], processOrdered_first ?_, h2, rfl⟩
      show ((command.drop 0).take maxClientPayload).length ≤ maxCommandSize
      rw [List.length_take]
      exact (min_le_left _ _).trans (by decide)

end Cutting

theorem Cuts.assemble_eq {packets : List QueuedPacket} {command : Bytes} (h : Cuts packets command) :
    assemble packets {} = .ok [command] {} := by
  obtain ⟨first, last, a, rfl, h1, h2⟩ := h
  exact assemble_append_eq_ok_iff.2 ⟨[], a, [command], h1,
    assemble_cons_eq_ok_iff.2 ⟨[command], {}, [], h2, rfl, rfl⟩, rfl⟩

/-- A part of the packets of a command gives nothing. -/
theorem Cuts.assemble_take {packets : List QueuedPacket} {command : Bytes} (h : Cuts packets command)
    {n : ℕ} (hn : n < packets.length) {out : List Bytes} {a : Assembly}
    (hrun : assemble (packets.take n) {} = .ok out a) : out = [] := by
  obtain ⟨first, last, b, rfl, h1, -⟩ := h
  rw [List.length_append, List.length_singleton] at hn
  rw [List.take_append_of_le_length (by omega)] at hrun
  rw [← List.take_append_drop n first] at h1
  obtain ⟨ready, c, more, h2, -, hnil⟩ := assemble_append_eq_ok_iff.1 h1
  rw [hrun] at h2
  cases h2
  exact (List.append_eq_nil_iff.1 hnil.symm).1

theorem Cuts.ne_nil {packets : List QueuedPacket} {command : Bytes} (h : Cuts packets command) :
    packets ≠ [] := by
  obtain ⟨first, last, b, rfl, -⟩ := h
  exact List.append_ne_nil_of_right_ne_nil _ (List.cons_ne_nil _ _)

end TsCli
