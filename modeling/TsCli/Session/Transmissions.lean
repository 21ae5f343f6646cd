import TsCli.Session.Emissions
import TsCli.Session.Retransmission

/-!
# How often a command was sent

`queuedAt` says for each number how much had been sent when the command pending under it was
queued. A command that was not handed out again was sent once since then, unless its number is still
that of the next command (`Counted.once`): then its own call of `Send` failed.
-/

namespace TsCli.SessionTransport

open Exec PacketLimits ReliableCommandQueue

/-- The log at the start of a call: what is pending keeps its place. -/
def logged (t : SessionTransport) (queuedAt : ℕ → ℕ) (k : ℕ) : ℕ :=
  if (t.reliableCommands.pending.find? k).isSome then queuedAt k else t.sent.length

/-- How often the packet of a pending command was sent since it was queued. -/
def transmissions (t : SessionTransport) (queuedAt : ℕ → ℕ) (command : PendingCommand) : ℕ :=
  (t.sent.drop (queuedAt command.key)).count command.packet

/-- The log is about the pending commands. -/
structure Counted (t : SessionTransport) (queuedAt : ℕ → ℕ) : Prop where
  position : ∀ k command, t.reliableCommands.pending.find? k = some command →
    command.packet.position.type = .command ∧ command.packet.position.key = command.key
  le : ∀ k, queuedAt k ≤ t.sent.length
  once : ∀ command, t.reliableCommands.pending.find? command.key = some command →
    command.retransmitted = false → command.key ≠ t.outgoingKey .command →
      t.transmissions queuedAt command = 1

/-- Under a number that is not pending, no command was sent since the log was written. -/
def Unused (t : SessionTransport) (queuedAt : ℕ → ℕ) : Prop :=
  ∀ k, t.reliableCommands.pending.find? k = none →
    ∀ packet ∈ t.sent.drop (queuedAt k), packet.position.type = .command → packet.position.key ≠ k

variable {env : Environment} {t t' : SessionTransport} {queuedAt : ℕ → ℕ}

theorem Counted.logged (h : Counted t queuedAt) : Counted t (t.logged queuedAt) where
  position := h.position
  le k := by
    unfold SessionTransport.logged
    split
    · exact h.le k
    · exact le_rfl
  once command hfind hfresh hkey := by
    have hsame : t.logged queuedAt command.key = queuedAt command.key := if_pos (by rw [hfind]; rfl)
    unfold transmissions
    rw [hsame]
    exact h.once command hfind hfresh hkey

theorem unused_logged (t : SessionTransport) (queuedAt : ℕ → ℕ) : Unused t (t.logged queuedAt) := by
  intro k hnone packet hpacket
  have hsame : t.logged queuedAt k = t.sent.length := if_neg (by rw [hnone]; exact Bool.false_ne_true)
  rw [hsame, List.drop_length] at hpacket
  cases hpacket

/-- More packets go out. -/
theorem transmissions_append (hle : ∀ k, queuedAt k ≤ t.sent.length) {more : List Packet}
    (hsent : t'.sent = t.sent ++ more) (command : PendingCommand) :
    t'.transmissions queuedAt command =
      t.transmissions queuedAt command + more.count command.packet := by
  unfold transmissions
  rw [hsent, List.drop_append_of_le_length (hle _), List.count_append]

/-! ## Calls that queue nothing -/

/-- A command that may have been handed out. -/
structure Remains (command command' : PendingCommand) : Prop where
  key : command'.key = command.key
  packet : command'.packet = command.packet
  firstSent : command'.firstSent = command.firstSent
  fresh : command'.retransmitted = false → command' = command

theorem Remains.refl (command : PendingCommand) : Remains command command :=
  ⟨rfl, rfl, rfl, fun _ => rfl⟩

/-- Nothing was queued, and what is still pending and was not handed out did not go out. -/
structure Carries (t t' : SessionTransport) : Prop where
  pending : ∀ k command', t'.reliableCommands.pending.find? k = some command' →
    ∃ command, t.reliableCommands.pending.find? k = some command ∧ Remains command command'
  sent : ∃ more, t'.sent = t.sent ++ more ∧
    ∀ command, t'.reliableCommands.pending.find? command.key = some command →
      command.retransmitted = false → command.packet ∉ more
  key : t'.outgoingKey .command = t.outgoingKey .command
  ticks : t.ticks ≤ t'.ticks

theorem Counted.carry (h : Counted t queuedAt) (hcarry : Carries t t') : Counted t' queuedAt := by
  obtain ⟨more, hsent, hmore⟩ := hcarry.sent
  refine ⟨fun k command' hfind => ?_, fun k => ?_, fun command hfind hfresh hkey => ?_⟩
  · obtain ⟨command, hfind', hremains⟩ := hcarry.pending k command' hfind
    rw [hremains.packet, hremains.key]
    exact h.position k command hfind'
  · rw [hsent, List.length_append]
    exact (h.le k).trans (Nat.le_add_right _ _)
  · obtain ⟨earlier, hfind', hremains⟩ := hcarry.pending _ command hfind
    rw [← hremains.fresh hfresh] at hfind'
    rw [hcarry.key] at hkey
    rw [transmissions_append h.le hsent, h.once command hfind' hfresh hkey,
      List.count_eq_zero_of_not_mem (hmore command hfind hfresh)]

theorem Carries.trans {t'' : SessionTransport} (h : Carries t t') (h' : Carries t' t'') :
    Carries t t'' where
  pending k command'' hfind := by
    obtain ⟨command', hfind', hremains'⟩ := h'.pending k command'' hfind
    obtain ⟨command, hfind'', hremains⟩ := h.pending k command' hfind'
    refine ⟨command, hfind'', hremains'.key.trans hremains.key,
      hremains'.packet.trans hremains.packet, hremains'.firstSent.trans hremains.firstSent,
      fun hfresh => ?_⟩
    have hsame := hremains'.fresh hfresh
    rw [hsame] at hfresh ⊢
    exact hremains.fresh hfresh
  sent := by
    obtain ⟨more, hsent, hmore⟩ := h.sent
    obtain ⟨more', hsent', hmore'⟩ := h'.sent
    refine ⟨more ++ more', by rw [hsent', hsent, List.append_assoc], fun command hfind hfresh => ?_⟩
    obtain ⟨earlier, hfind', hremains⟩ := h'.pending _ command hfind
    rw [← hremains.fresh hfresh] at hfind'
    rw [List.mem_append, not_or]
    exact ⟨hmore command hfind' hfresh, hmore' command hfind hfresh⟩
  key := h'.key.trans h.key
  ticks := h.ticks.trans h'.ticks

/-- What is pending stays the same. -/
theorem Carries.of_queue_eq (hqueue : t'.reliableCommands = t.reliableCommands)
    {more : List Packet} (hsent : t'.sent = t.sent ++ more)
    (hmore : ∀ packet ∈ more, packet.position.type ≠ .command)
    (hposition : ∀ k command, t.reliableCommands.pending.find? k = some command →
      command.packet.position.type = .command)
    (hkey : t'.outgoingKey .command = t.outgoingKey .command) (hticks : t.ticks ≤ t'.ticks) :
    Carries t t' where
  pending _ command hfind := ⟨command, hqueue ▸ hfind, .refl command⟩
  sent := ⟨more, hsent, fun command hfind _ hmem =>
    hmore _ hmem (hposition _ command (hqueue ▸ hfind))⟩
  key := hkey
  ticks := hticks

theorem SentInOrder.carry (h : SentInOrder env t) (hclock : Monotone env.clock)
    (hcarry : Carries t t') : SentInOrder env t' := by
  have hearlier : ∀ k command', t'.reliableCommands.pending.find? k = some command' →
      ∃ command, t.reliableCommands.pending.find? k = some command ∧
        command'.firstSent = command.firstSent := by
    intro k command' hfind
    obtain ⟨command, hfind', hremains⟩ := hcarry.pending k command' hfind
    exact ⟨command, hfind', hremains.firstSent⟩
  refine ⟨fun k k' c c' hk hk' hle => ?_, fun k c hk => ?_, fun k c hk => ?_⟩
  · obtain ⟨d, hd, hsame⟩ := hearlier k c hk
    obtain ⟨d', hd', hsame'⟩ := hearlier k' c' hk'
    rw [hsame, hsame']
    exact h.ordered k k' d d' hd hd' hle
  · obtain ⟨d, hd, -⟩ := hearlier k c hk
    rw [hcarry.key]
    exact h.key_le k d hd
  · obtain ⟨d, hd, hsame⟩ := hearlier k c hk
    rw [hsame]
    exact (h.firstSent_le k d hd).trans (hclock hcarry.ticks)

/-- Of a queue that a command left, the others stay. -/
theorem find?_of_release {command : PendingCommand} {k : ℕ} {other : PendingCommand}
    (h : (t.release command).reliableCommands.pending.find? k = some other) :
    t.reliableCommands.pending.find? k = some other := by
  have herase : (t.release command).reliableCommands.pending.find? k =
      if k = command.key then none else t.reliableCommands.pending.find? k := Registry.find?_erase ..
  rw [herase] at h
  split_ifs at h
  exact h

theorem Quiet.carries (hquiet : Quiet env t t')
    (hposition : ∀ k command, t.reliableCommands.pending.find? k = some command →
      command.packet.position.type = .command) : Carries t t' := by
  obtain ⟨more, hsent, hmore⟩ := hquiet.sent
  refine .of_queue_eq hquiet.reliableCommands hsent (fun packet hmem => (hmore packet hmem).2)
    hposition ?_ hquiet.ticks
  unfold outgoingKey
  rw [hquiet.outgoing .command (by decide)]

theorem Carries.of_release {command : PendingCommand} (h : Carries (t.release command) t') :
    Carries t t' where
  pending k command' hfind := by
    obtain ⟨earlier, hearlier, hsame⟩ := h.pending k command' hfind
    exact ⟨earlier, find?_of_release hearlier, hsame⟩
  sent := h.sent
  key := h.key
  ticks := h.ticks

/-- What is handed out are the packets of due commands. -/
theorem exists_due_of_mem {queue queue' : ReliableCommandQueue} {time : TimePoint}
    {packets : List Packet} (hcollect : collectDue time queue = .ok packets queue') {packet : Packet}
    (hmem : packet ∈ packets) :
    ∃ command, queue.pending.find? command.key = some command ∧ command.Due time ∧
      command.packet = packet := by
  rw [collectDue_eq] at hcollect
  split_ifs at hcollect
  cases hcollect
  obtain ⟨command, hcommand, hpacket⟩ := List.mem_map.1 hmem
  obtain ⟨hvalue, hdue⟩ := List.mem_filter.1 hcommand
  exact ⟨command, mem_values_iff.1 hvalue, of_decide_eq_true hdue, hpacket⟩

/-- The packets that are due go out again, and nothing else of the queue. -/
theorem carries_resend {packets : List Packet} {queue : ReliableCommandQueue}
    (hcounted : Counted t queuedAt)
    (hcollect : collectDue (env.clock t.ticks) t.reliableCommands = .ok packets queue)
    (hresend : Resends packets { t with ticks := t.ticks + 1, reliableCommands := queue } t') :
    Carries t t' where
  pending k command' hfind := by
    rw [hresend.reliableCommands, find?_collectDue_ok hcollect] at hfind
    obtain ⟨command, hcommand, rfl⟩ := Option.map_eq_some_iff.1 hfind
    refine ⟨command, hcommand, ?_⟩
    split_ifs with hdue
    · exact ⟨rfl, rfl, rfl, nofun⟩
    · exact .refl command
  sent := by
    obtain ⟨front, hfront, hsent⟩ := hresend.sent
    refine ⟨front, hsent, fun command hfind hfresh hmem => ?_⟩
    rw [hresend.reliableCommands, find?_collectDue_ok hcollect] at hfind
    obtain ⟨earlier, hearlier, hsame⟩ := Option.map_eq_some_iff.1 hfind
    split_ifs at hsame with hdue
    · -- a command that was handed out is not fresh
      rw [← hsame] at hfresh
      cases hfresh
    · subst hsame
      obtain ⟨due, hpending, hdue', hpacket⟩ := exists_due_of_mem hcollect (hfront.subset hmem)
      have hkey : due.key = earlier.key := by
        rw [← (hcounted.position _ due hpending).2, hpacket, (hcounted.position _ earlier hearlier).2]
      rw [hkey, hearlier] at hpending
      exact hdue (Option.some.inj hpending ▸ hdue')
  key := by
    unfold outgoingKey
    rw [hresend.outgoing]
  ticks := (Nat.le_succ _).trans hresend.ticks

theorem carries_probes {time : TimePoint} (h : Probes time t t')
    (hposition : ∀ k command, t.reliableCommands.pending.find? k = some command →
      command.packet.position.type = .command) : Carries t t' := by
  have hnothing : ∀ {t' : SessionTransport}, t'.reliableCommands = t.reliableCommands →
      t'.sent = t.sent → t'.sequences.outgoing = t.sequences.outgoing → t.ticks ≤ t'.ticks →
      Carries t t' := fun hqueue hsent hout hticks =>
    .of_queue_eq hqueue (hsent.trans (List.append_nil _).symm) nofun hposition
      (by unfold outgoingKey; rw [hout]) hticks
  cases h with
  | idle => exact hnothing rfl rfl rfl le_rfl
  | retire => exact hnothing rfl rfl rfl le_rfl
  | fail => exact hnothing rfl rfl rfl le_rfl
  | @ping _ _ _ packet hpacket u hsent hout =>
    refine .of_queue_eq hsent.reliableCommands hsent.sent (fun other hother => ?_) hposition ?_
      hsent.ticks
    · rw [List.mem_singleton.1 hother, hpacket]
      exact PacketType.noConfusion
    · show (u.sequences.outgoing .command).key = _
      rw [hout, Function.update_of_ne (by decide)]
      rfl

/-- Only `SendCommand` queues. -/
theorem Effect.carries {operation : Operation} (h : Effect env t operation t')
    (hcounted : Counted t queuedAt) (hordered : t.reliableCommands.Ordered)
    (hoperation : ∀ data, operation ≠ .sendCommand data) : Carries t t' := by
  have hposition : ∀ k command, t.reliableCommands.pending.find? k = some command →
      command.packet.position.type = .command := fun k command hfind =>
    (hcounted.position k command hfind).1
  have hreleased : ∀ {command : PendingCommand} k other,
      (t.release command).reliableCommands.pending.find? k = some other →
      other.packet.position.type = .command := fun k other hfind =>
    hposition k other (find?_of_release hfind)
  cases h with
  | quiet h => exact h.carries hposition
  | @command data => exact absurd rfl (hoperation data)
  | release _ h => exact (h.carries hreleased).of_release
  | ack _ _ _ _ _ h =>
    have hcarries := h.carries hreleased
    exact (Carries.of_release ⟨hcarries.pending, hcarries.sent, hcarries.key,
      (Nat.le_succ _).trans hcarries.ticks⟩)
  | pong =>
    exact .of_queue_eq rfl (List.append_nil _).symm nofun hposition rfl (Nat.le_add_right _ 2)
  | expired h =>
    have hsame := eq_of_collectDue_error hordered h
    exact .of_queue_eq hsame (List.append_nil _).symm nofun hposition rfl (Nat.le_succ _)
  | timers hcollect hresend h =>
    have hcarries := carries_resend hcounted hcollect hresend
    refine hcarries.trans (carries_probes h fun k command hfind => ?_)
    exact ((hcounted.carry hcarries).position k command hfind).1
  | connect => exact .of_queue_eq rfl (List.append_nil _).symm nofun hposition rfl (Nat.le_succ _)

/-! ## Sending a command -/

/-- A command is queued under the next number. -/
theorem counted_enqueue (h : Counted t queuedAt) {command : PendingCommand}
    (hid : ¬ t.reliableCommands.contains command.packetId = true)
    (hkey : command.key = t.outgoingKey .command)
    (hposition : command.packet.position =
      positionOf .command (t.sequences.outgoing .command)) :
    Counted (t.enqueue command hid) queuedAt := by
  have hfind : ∀ k, (t.enqueue command hid).reliableCommands.pending.find? k =
      if k = command.key then some command else t.reliableCommands.pending.find? k :=
    find?_insert hid
  refine ⟨fun k other hother => ?_, h.le, fun other hother hfresh hne => ?_⟩
  · rw [hfind] at hother
    split_ifs at hother
    · cases hother
      rw [hposition, key_positionOf, hkey]
      exact ⟨rfl, rfl⟩
    · exact h.position k other hother
  · rw [hfind] at hother
    split_ifs at hother with hnew
    · exact absurd (hnew.trans hkey) hne
    · exact h.once other hother hfresh hne

theorem unused_enqueue (h : Unused t queuedAt) {command : PendingCommand}
    (hid : ¬ t.reliableCommands.contains command.packetId = true) :
    Unused (t.enqueue command hid) queuedAt := by
  have hfind : ∀ k, (t.enqueue command hid).reliableCommands.pending.find? k =
      if k = command.key then some command else t.reliableCommands.pending.find? k :=
    find?_insert hid
  intro k hnone
  rw [hfind] at hnone
  split_ifs at hnone
  exact h k hnone

/-- The pending command with the next number goes out, for the first time when none did under this
number. -/
theorem counted_transmitted (h : Counted t queuedAt) {command : PendingCommand}
    (hpending : t.reliableCommands.pending.find? command.key = some command)
    (hkey : command.key = t.outgoingKey .command)
    (hfirst : t.transmissions queuedAt command = 0)
    (htransmitted : Transmitted t t' command.packet) : Counted t' queuedAt := by
  have hqueue := htransmitted.reliableCommands
  refine ⟨fun k other hother => h.position k other (hqueue ▸ hother), fun k => ?_,
    fun other hother hfresh hne => ?_⟩
  · rw [htransmitted.sent, List.length_append]
    exact (h.le k).trans (Nat.le_add_right _ _)
  · rw [hqueue] at hother
    rw [transmissions_append h.le htransmitted.sent]
    by_cases hsame : other.key = command.key
    · rw [hsame, hpending] at hother
      cases hother
      rw [hfirst, List.count_singleton_self]
    · have hother' := h.once other hother hfresh fun hnext => hsame (hnext.trans hkey.symm)
      have hpacket : other.packet ∉ [command.packet] := by
        intro hmem
        have hposition := (h.position _ other hother).2
        rw [List.mem_singleton.1 hmem, (h.position _ command hpending).2] at hposition
        exact hsame hposition.symm
      rw [hother', List.count_eq_zero_of_not_mem hpacket]

theorem unused_transmitted (h : Unused t queuedAt) (hle : ∀ k, queuedAt k ≤ t.sent.length)
    {command : PendingCommand}
    (hpending : t.reliableCommands.pending.find? command.key = some command)
    (hposition : command.packet.position.key = command.key)
    (htransmitted : Transmitted t t' command.packet) : Unused t' queuedAt := by
  intro k hnone packet hpacket htype
  rw [htransmitted.reliableCommands] at hnone
  rw [htransmitted.sent, List.drop_append_of_le_length (hle k)] at hpacket
  rcases List.mem_append.1 hpacket with hpacket | hpacket
  · exact h k hnone packet hpacket htype
  · rw [List.mem_singleton.1 hpacket, hposition]
    rintro rfl
    rw [hpending] at hnone
    cases hnone

/-- Nothing was sent under a number that is not in use. -/
theorem transmissions_eq_zero (h : Unused t queuedAt) {command : PendingCommand}
    (hnone : t.reliableCommands.pending.find? command.key = none)
    (htype : command.packet.position.type = .command)
    (hposition : command.packet.position.key = command.key) :
    t.transmissions queuedAt command = 0 :=
  List.count_eq_zero_of_not_mem fun hmem => h _ hnone _ hmem htype hposition

/-- `SendCommandPacket` keeps the log right, whether it returns or throws. -/
theorem wp_sendCommandPacket_counted {data : Bytes} {flags : PacketFlags}
    (hdata : data.length ≤ 2147483647) (h : Counted t queuedAt ∧ Unused t queuedAt) :
    wp (sendCommandPacket env data flags)
      (fun _ t' => Counted t' queuedAt ∧ Unused t' queuedAt)
      (fun _ t' => Counted t' queuedAt ∧ Unused t' queuedAt) t := by
  obtain ⟨hcounted, hunused⟩ := h
  refine wp_sendCommandPacket hdata
    (fun _ _ => ⟨⟨hcounted.position, hcounted.le, hcounted.once⟩, hunused⟩)
    fun _ command hid hkey _ hposition _ => ?_
  have hnone := find?_key_of_not_contains hid
  have henqueued := counted_enqueue hcounted hid hkey hposition
  have hunused' := unused_enqueue hunused hid
  have hpending : (t.enqueue command hid).reliableCommands.pending.find? command.key =
      some command := (find?_insert hid _).trans (if_pos rfl)
  have hpacket := henqueued.position _ command hpending
  have hfirst : (t.enqueue command hid).transmissions queuedAt command = 0 :=
    transmissions_eq_zero (t := t) hunused hnone hpacket.1 hpacket.2
  refine wp_transmit (fun _ _ => ⟨⟨henqueued.position, henqueued.le, henqueued.once⟩, hunused'⟩)
    (fun _ hlt t' htransmitted hout => ?_) fun _ _ _ t' htransmitted hout => ?_
  · refine ⟨counted_transmitted henqueued hpending hkey hfirst htransmitted,
      unused_transmitted hunused' henqueued.le hpending hpacket.2 htransmitted⟩
  · refine ⟨counted_transmitted henqueued hpending hkey hfirst htransmitted,
      unused_transmitted hunused' henqueued.le hpending hpacket.2 htransmitted⟩

theorem wp_sendFragments_counted {data : Bytes} (hdata : data.length ≤ maxCommandSize)
    (fragments : List CommandFragment) (lastPacketId : UInt16) {t : SessionTransport}
    (h : Counted t queuedAt ∧ Unused t queuedAt) :
    wp (sendFragments env data lastPacketId fragments)
      (fun _ t' => Counted t' queuedAt ∧ Unused t' queuedAt)
      (fun _ t' => Counted t' queuedAt ∧ Unused t' queuedAt) t := by
  induction fragments generalizing lastPacketId t with
  | nil => exact h
  | cons fragment fragments ih =>
    rw [sendFragments, wp_bind]
    refine wp_mono (wp_sendCommandPacket_counted (length_fragment_le hdata fragment) h)
      (fun packetId t' h' => ih packetId h') fun _ _ h' => h'

/-- The log that is written at the start of `SendCommand` is right at its end. -/
theorem Counted.sendCommand (h : Counted t queuedAt) (data : Bytes) :
    Counted (final (sendCommand env data) t) (t.logged queuedAt) := by
  have hboth : wp (SessionTransport.sendCommand env data)
      (fun _ t' => Counted t' (t.logged queuedAt) ∧ Unused t' (t.logged queuedAt))
      (fun _ t' => Counted t' (t.logged queuedAt) ∧ Unused t' (t.logged queuedAt)) t := by
    unfold SessionTransport.sendCommand
    rw [wp_bind, wp_lift]
    have hstart := And.intro h.logged (unused_logged t queuedAt)
    refine ⟨fun fragments hplan => ?_, fun _ _ => hstart⟩
    have hdata : data.length ≤ maxCommandSize := by
      by_contra hlong
      rw [CommandFragmenter.plan_of_lt (not_le.1 hlong)] at hplan
      cases hplan
    exact wp_sendFragments_counted hdata fragments 0 hstart
  exact (wp_final.1 hboth).1

/-! ## Calls -/

theorem step_sendCommand (t : SessionTransport) (data : Bytes) :
    step env t (.sendCommand data) = final (sendCommand env data) t := by
  show final (sendCommand env data >>= fun _ => pure ()) t = _
  unfold final
  cases hrun : sendCommand env data t with
  | ok packetId t' => rw [run_bind_of_ok t hrun]; rfl
  | error failure t' => rw [run_bind_of_error t hrun]

theorem carries_step (env : Environment) {operation : Operation} (hcounted : Counted t queuedAt)
    (hordered : t.reliableCommands.Ordered) (hlt : t.outgoingKey .ping + 1 < 2 ^ 48)
    (hoperation : ¬ ∃ data, operation = .sendCommand data) : Carries t (step env t operation) :=
  (effect_step hlt operation).carries hcounted hordered fun data heq => hoperation ⟨data, heq⟩

/-- A call keeps the order of the send times. -/
theorem SentInOrder.step (h : SentInOrder env t) (hclock : Monotone env.clock)
    (hcounted : Counted t queuedAt) (hlt : t.outgoingKey .ping + 1 < 2 ^ 48)
    (operation : Operation) : SentInOrder env (step env t operation) := by
  by_cases hoperation : ∃ data, operation = .sendCommand data
  · obtain ⟨data, rfl⟩ := hoperation
    rw [step_sendCommand]
    exact h.sendCommand hclock data
  · exact h.carry hclock (carries_step env hcounted h.ordered hlt hoperation)

/-- **The log is right after a call** when it was right before. -/
theorem Counted.step (h : Counted t queuedAt) (hordered : t.reliableCommands.Ordered)
    (hlt : t.outgoingKey .ping + 1 < 2 ^ 48) (operation : Operation) :
    Counted (step env t operation) (t.logged queuedAt) := by
  by_cases hoperation : ∃ data, operation = .sendCommand data
  · obtain ⟨data, rfl⟩ := hoperation
    rw [step_sendCommand]
    exact h.sendCommand data
  · exact h.logged.carry (carries_step env h hordered hlt hoperation)

end TsCli.SessionTransport
