import TsCli.Lib.Registry
import TsCli.Packet.Format

/-!
# The queue of unacknowledged commands

A command packet stays in the queue until its id is acknowledged, and is handed out again when it
is due. Pending packets have different ids, which `add` checks and the type states, so an
acknowledgement is never ambiguous (`acknowledge_eq`).
-/

namespace TsCli

/-- Where a packet stands in the numbering of its type. For an encrypted packet, key and nonce are
made from it. -/
structure PacketPosition where
  type : PacketType
  generationId : UInt32
  packetId : UInt16
  deriving DecidableEq, Repr

namespace PacketPosition

/-- The number of the packet in its type. -/
def key (position : PacketPosition) : ℕ := sequenceKey position.packetId position.generationId

end PacketPosition

/-- `Packet`: a datagram. The position is not a part of it, as the generation does not travel; it
says how the datagram was made. -/
structure Packet where
  data : Bytes
  position : PacketPosition
  encrypted : Bool
  deriving DecidableEq, Repr

/-- `Packet::Size`. -/
def Packet.size (packet : Packet) : ℕ := packet.data.length

/-- `ReliableCommandQueue::PendingCommand`. -/
structure PendingCommand where
  packetId : UInt16 := 0
  generationId : UInt32 := 0
  packet : Packet
  firstSent : TimePoint
  nextRetry : TimePoint
  retryDelay : ℤ := 0
  retransmitted : Bool := false
  deriving DecidableEq, Repr

/-- `SequenceKey( packetId, generationId )` of a pending command. -/
def PendingCommand.key (pending : PendingCommand) : ℕ :=
  sequenceKey pending.packetId pending.generationId

/-- `ReliableCommandQueue`: `m_Pending`, in which no packet id is pending twice. -/
structure ReliableCommandQueue where
  pending : Registry PendingCommand.key := ∅
  unique : ∀ k k' e e', pending.find? k = some e → pending.find? k' = some e' →
    e.packetId = e'.packetId → k = k'

/-- `ReliableCommandQueue::Acknowledgement`. -/
structure Acknowledgement where
  firstSent : TimePoint
  retransmitted : Bool := false
  deriving DecidableEq, Repr

namespace ReliableCommandQueue

instance : EmptyCollection ReliableCommandQueue where
  emptyCollection := ⟨∅, fun k _ _ _ h => by rw [Registry.find?_empty] at h; cases h⟩

def maxPendingCommands : ℕ := 1024

/-! Durations in nanoseconds. -/

def initialRetryDelay : ℤ := 500 * 1000000
def maxRetryDelay : ℤ := 4000 * 1000000
def commandTimeout : ℤ := 30 * 1000000000

variable {queue : ReliableCommandQueue} {k k' : ℕ} {e e' : PendingCommand}

@[ext] theorem ext {queue queue' : ReliableCommandQueue} (h : queue.pending = queue'.pending) :
    queue = queue' := by
  cases queue; cases queue'; cases h; rfl

theorem mem_values_iff : e ∈ queue.pending.values ↔ queue.pending.find? e.key = some e :=
  Registry.mem_values_iff

theorem mem_values_of_find? (h : queue.pending.find? k = some e) : e ∈ queue.pending.values := by
  rw [mem_values_iff, Registry.key_of_find? h]
  exact h

/-- `ReliableCommandQueue::Contains`. -/
def contains (packetId : UInt16) (queue : ReliableCommandQueue) : Bool :=
  queue.pending.values.any (·.packetId = packetId)

theorem contains_iff {packetId : UInt16} : queue.contains packetId = true ↔
    ∃ k e, queue.pending.find? k = some e ∧ e.packetId = packetId := by
  unfold contains
  rw [List.any_eq_true]
  constructor
  · exact fun ⟨e, he, hid⟩ => ⟨e.key, e, mem_values_iff.1 he, of_decide_eq_true hid⟩
  · exact fun ⟨k, e, he, hid⟩ => ⟨e, mem_values_of_find? he, decide_eq_true hid⟩

/-- The packet that is pending under a key. -/
def packet? (queue : ReliableCommandQueue) (k : ℕ) : Option Packet :=
  (queue.pending.find? k).map PendingCommand.packet

/-! ## Adding -/

/-- The queue with one more command, whose id is not pending. -/
def insert (queue : ReliableCommandQueue) (command : PendingCommand)
    (h : ¬ queue.contains command.packetId = true) : ReliableCommandQueue where
  pending := queue.pending.upsert command
  unique k k' e e' he he' hid := by
    rw [Registry.find?_upsert] at he he'
    split_ifs at he he' with hk hk' hk'
    · rw [hk, hk']
    · cases he
      exact absurd (contains_iff.2 ⟨k', e', he', hid.symm⟩) h
    · cases he'
      exact absurd (contains_iff.2 ⟨k, e, he, hid⟩) h
    · exact queue.unique k k' e e' he he' hid

/-- The command as `Add` stores it. -/
def newCommand (packetId : UInt16) (generationId : UInt32) (packet : Packet) (sentAt : TimePoint) :
    PendingCommand where
  packetId := packetId
  generationId := generationId
  packet := packet
  firstSent := sentAt
  nextRetry := sentAt + initialRetryDelay
  retryDelay := initialRetryDelay

/-- `ReliableCommandQueue::Add`. -/
def add (packetId : UInt16) (generationId : UInt32) (packet : Packet) (sentAt : TimePoint) :
    EStateM Failure ReliableCommandQueue Unit := do
  let queue ← get
  let command := newCommand packetId generationId packet sentAt
  if maxPendingCommands ≤ queue.pending.size then
    throw (.runtimeError "Reliable Command send queue is full")
  else if h : queue.contains command.packetId = true then
    throw (.runtimeError "Reliable Command packet ID wrapped while still pending")
  else if queue.pending.contains command.key then
    throw (.runtimeError "Reliable Command sequence is already pending")
  else
    set (queue.insert command h)

section Insert

variable {command : PendingCommand}

theorem find?_key_of_not_contains (h : ¬ queue.contains command.packetId = true) :
    queue.pending.find? command.key = none := by
  cases hfind : queue.pending.find? command.key with
  | none => rfl
  | some other =>
    have hkey : other.key = command.key := Registry.key_of_find? hfind
    exact absurd (contains_iff.2 ⟨_, other, hfind, (sequenceKey_inj.1 hkey).1⟩) h

theorem size_insert (h : ¬ queue.contains command.packetId = true) :
    (queue.insert command h).pending.size = queue.pending.size + 1 :=
  Registry.size_upsert_of_find?_none (find?_key_of_not_contains h)

theorem find?_insert (h : ¬ queue.contains command.packetId = true) (k : ℕ) :
    (queue.insert command h).pending.find? k =
      if k = command.key then some command else queue.pending.find? k := Registry.find?_upsert ..

theorem contains_insert (h : ¬ queue.contains command.packetId = true) (packetId : UInt16) :
    (queue.insert command h).contains packetId = true ↔
      command.packetId = packetId ∨ queue.contains packetId = true := by
  rw [contains_iff, contains_iff]
  constructor
  · rintro ⟨k, other, hfind, hid⟩
    rw [find?_insert] at hfind
    split_ifs at hfind
    · cases hfind; exact .inl hid
    · exact .inr ⟨k, other, hfind, hid⟩
  · rintro (hid | ⟨k, other, hfind, hid⟩)
    · exact ⟨_, command, (find?_insert h _).trans (if_pos rfl), hid⟩
    · refine ⟨k, other, ?_, hid⟩
      rw [find?_insert, if_neg, hfind]
      rintro rfl
      rw [find?_key_of_not_contains h] at hfind
      cases hfind

theorem packet?_insert (h : ¬ queue.contains command.packetId = true) :
    (queue.insert command h).packet? =
      Function.update queue.packet? command.key (some command.packet) := by
  funext k
  unfold packet?
  rw [find?_insert, Function.update_apply]
  split_ifs <;> rfl

end Insert

/-! ## Acknowledging -/

/-- The queue without one command. -/
def erase (queue : ReliableCommandQueue) (k : ℕ) : ReliableCommandQueue where
  pending := queue.pending.erase k
  unique i j e e' he he' hid := by
    rw [Registry.find?_erase] at he he'
    split_ifs at he he'
    exact queue.unique i j e e' he he' hid

theorem packet?_erase (k : ℕ) : (queue.erase k).packet? = Function.update queue.packet? k none := by
  funext j
  show ((queue.pending.erase k).find? j).map PendingCommand.packet = _
  rw [Registry.find?_erase, Function.update_apply]
  split_ifs <;> rfl

/-- `ReliableCommandQueue::Acknowledge`. -/
def acknowledge (packetId : UInt16) :
    EStateM Failure ReliableCommandQueue (Option Acknowledgement) := do
  let queue ← get
  match queue.pending.values.filter (·.packetId = packetId) with
  | [] => return none
  | [command] =>
    set (queue.erase command.key)
    return some { firstSent := command.firstSent, retransmitted := command.retransmitted }
  | _ => throw (.runtimeError "Ambiguous reliable Command acknowledgement")

/-! ## Handing out -/

/-- The command after it is handed out at `now`. -/
def retry (now : TimePoint) (command : PendingCommand) : PendingCommand :=
  let retryDelay := min (command.retryDelay * 2) maxRetryDelay
  { command with retransmitted := true, retryDelay, nextRetry := now + retryDelay }

theorem key_retry (now : TimePoint) (command : PendingCommand) :
    (retry now command).key = command.key := rfl

/-- The queue after the command under `k` is handed out at `now`. -/
def markRetried (queue : ReliableCommandQueue) (now : TimePoint) (k : ℕ) :
    ReliableCommandQueue where
  pending := queue.pending.modify k (retry now) (key_retry now)
  unique i j e e' he he' hid := by
    rw [Registry.find?_modify, Option.map_eq_some_iff] at he he'
    obtain ⟨d, hd, rfl⟩ := he
    obtain ⟨d', hd', rfl⟩ := he'
    refine queue.unique i j d d' hd hd' ?_
    split_ifs at hid <;> exact hid

theorem packet?_markRetried (now : TimePoint) (k : ℕ) :
    (queue.markRetried now k).packet? = queue.packet? := by
  funext j
  show ((queue.pending.modify k (retry now) (key_retry now)).find? j).map PendingCommand.packet = _
  rw [Registry.find?_modify, Option.map_map]
  unfold packet?
  congr 1
  funext e
  dsimp only [Function.comp_apply]
  split_ifs <;> rfl

/-- The loop of `CollectDue` over the pending commands. A throw keeps what the loop did before. -/
def collectLoop (now : TimePoint) :
    List PendingCommand → EStateM Failure ReliableCommandQueue (List Packet)
  | [] => return []
  | command :: commands => do
    if command.firstSent + commandTimeout ≤ now then
      throw (.runtimeError "Reliable Command acknowledgement timed out")
    else if now < command.nextRetry then
      collectLoop now commands
    else
      modify (·.markRetried now command.key)
      let rest ← collectLoop now commands
      return command.packet :: rest

/-- `ReliableCommandQueue::CollectDue`. -/
def collectDue (now : TimePoint) : EStateM Failure ReliableCommandQueue (List Packet) := do
  let queue ← get
  collectLoop now queue.pending.values

/-! ## What the operations do -/

section Rules

open Exec

/-- How `add` can fail. -/
def AddFailure (failure : Failure) : Prop :=
  failure = .runtimeError "Reliable Command send queue is full" ∨
    failure = .runtimeError "Reliable Command packet ID wrapped while still pending"

/-- All that `add` does: it throws, or inserts the command. -/
theorem add_cases (packetId : UInt16) (generationId : UInt32) (packet : Packet) (sentAt : TimePoint)
    (queue : ReliableCommandQueue) :
    ((maxPendingCommands ≤ queue.pending.size ∨ queue.contains packetId = true) ∧
        ∃ failure, AddFailure failure ∧
          add packetId generationId packet sentAt queue = .error failure queue) ∨
      (queue.pending.size < maxPendingCommands ∧ ∃ h : ¬ queue.contains packetId = true,
        add packetId generationId packet sentAt queue =
          .ok () (queue.insert (newCommand packetId generationId packet sentAt) h)) := by
  unfold add
  rw [run_get_bind]
  by_cases hsize : maxPendingCommands ≤ queue.pending.size
  · rw [if_pos hsize]
    exact .inl ⟨.inl hsize, _, .inl rfl, rfl⟩
  rw [if_neg hsize]
  by_cases hid : queue.contains packetId = true
  · refine .inl ⟨.inr hid, _, .inr rfl, ?_⟩
    exact congrFun (dif_pos hid) queue
  rw [dif_neg (show ¬ queue.contains (newCommand packetId generationId packet sentAt).packetId = true
    from hid), if_neg]
  · exact .inr ⟨not_le.1 hsize, hid, rfl⟩
  · -- a command under the same key would have the same id
    intro hkey
    obtain ⟨e, he⟩ := Registry.contains_iff.1 hkey
    have hsame : e.key = sequenceKey packetId generationId := Registry.key_of_find? he
    exact hid (contains_iff.2 ⟨_, e, he, (sequenceKey_inj.1 hsame).1⟩)

/-- All that `acknowledge` does: the command with the id, if there is one, leaves the queue. -/
theorem acknowledge_cases (packetId : UInt16) (queue : ReliableCommandQueue) :
    ((∀ k e, queue.pending.find? k = some e → e.packetId ≠ packetId) ∧
        acknowledge packetId queue = .ok none queue) ∨
      ∃ command, queue.pending.find? command.key = some command ∧ command.packetId = packetId ∧
        acknowledge packetId queue = .ok
          (some { firstSent := command.firstSent, retransmitted := command.retransmitted })
          (queue.erase command.key) := by
  unfold acknowledge
  rw [run_get_bind]
  have hmem : ∀ e, e ∈ queue.pending.values.filter (·.packetId = packetId) ↔
      queue.pending.find? e.key = some e ∧ e.packetId = packetId := fun e => by
    rw [List.mem_filter, mem_values_iff, decide_eq_true_iff]
  cases hfilter : queue.pending.values.filter (·.packetId = packetId) with
  | nil =>
    refine .inl ⟨fun k e he hid => ?_, rfl⟩
    have := (hmem e).2 ⟨by rw [Registry.key_of_find? he]; exact he, hid⟩
    rw [hfilter] at this
    cases this
  | cons command rest =>
    have hcommand := (hmem command).1 (by rw [hfilter]; exact List.mem_cons_self)
    cases rest with
    | nil => exact .inr ⟨command, hcommand.1, hcommand.2, rfl⟩
    | cons other rest =>
      -- two commands with one id would be one command, and no command is listed twice
      have hother := (hmem other).1 (by rw [hfilter]; simp)
      have hkeys := queue.unique _ _ _ _ hcommand.1 hother.1 (hcommand.2.trans hother.2.symm)
      have heq : command = other := by
        have hfind := hcommand.1
        rw [hkeys, hother.1] at hfind
        exact (Option.some.inj hfind).symm
      have hnodup := (List.Nodup.of_map _ queue.pending.nodup_map_key_values).filter
        (·.packetId = packetId)
      rw [hfilter, heq] at hnodup
      exact absurd (List.nodup_cons.1 hnodup).1 (by simp)

/-- What the loop hands out are packets of its commands, and the packets of the queue stay. -/
theorem wp_collectLoop {now : TimePoint} : ∀ (commands : List PendingCommand)
    (queue : ReliableCommandQueue),
    wp (collectLoop now commands)
      (fun packets queue' => queue'.packet? = queue.packet? ∧
        ∀ packet ∈ packets, ∃ command ∈ commands, packet = command.packet)
      (fun _ queue' => queue'.packet? = queue.packet?) queue
  | [], _ => ⟨rfl, nofun⟩
  | command :: commands, queue => by
    rw [collectLoop, wp_ite, wp_ite]
    refine ⟨fun _ => rfl, fun _ => ⟨fun _ => ?_, fun _ => ?_⟩⟩
    · exact wp_mono (wp_collectLoop commands queue) (fun packets queue' h => ⟨h.1, fun packet hp =>
        (h.2 packet hp).imp fun _ hc => ⟨List.mem_cons_of_mem _ hc.1, hc.2⟩⟩) fun _ _ h => h
    · rw [wp_bind, wp_modify, wp_bind]
      have hsame : (queue.markRetried now command.key).packet? = queue.packet? :=
        packet?_markRetried now command.key
      refine wp_mono (wp_collectLoop commands _) (fun packets queue' h =>
        ⟨h.1.trans hsame, fun packet hp => ?_⟩) fun _ _ h => h.trans hsame
      rcases List.mem_cons.1 hp with rfl | hp
      · exact ⟨command, List.mem_cons_self, rfl⟩
      · exact (h.2 packet hp).imp fun _ hc => ⟨List.mem_cons_of_mem _ hc.1, hc.2⟩

/-- Only pending packets are due, and they stay pending. -/
theorem wp_collectDue (now : TimePoint) (queue : ReliableCommandQueue) :
    wp (collectDue now) (fun packets queue' => queue'.packet? = queue.packet? ∧
        ∀ packet ∈ packets, ∃ k, queue'.packet? k = some packet)
      (fun _ queue' => queue'.packet? = queue.packet?) queue := by
  unfold collectDue
  rw [wp_bind, wp_get]
  refine wp_mono (wp_collectLoop _ queue) (fun packets queue' h => ⟨h.1, fun packet hp => ?_⟩)
    fun _ _ h => h
  obtain ⟨command, hcommand, rfl⟩ := h.2 packet hp
  refine ⟨command.key, ?_⟩
  rw [h.1]
  exact congrArg (Option.map PendingCommand.packet) (mem_values_iff.1 hcommand)

end Rules

end ReliableCommandQueue

end TsCli
