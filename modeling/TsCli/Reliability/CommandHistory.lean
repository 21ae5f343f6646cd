import TsCli.Lib.Runs
import TsCli.Reliability.DueCommands

/-!
# The history of a command queue

A `History` keeps, next to the queue, what was asked of it and what it answered: a `Sending` for
each `Add` that returned, with the times at which `CollectDue` returned its packet, and the
acknowledgement that ended it. `Tracks` says how the queue stands to its history; every call keeps
it, in which the retransmissions follow a `Schedule` and each sending is acknowledged at most once.
-/

namespace TsCli

open Exec PendingCommand

/-- An `Add` that returned, and when its packet was returned since, the latest time first. -/
structure Sending where
  serial : ℕ
  packetId : UInt16
  generationId : UInt32
  packet : Packet
  sentAt : TimePoint
  returned : List TimePoint := []
  deriving DecidableEq

/-- `SequenceKey( packetId, generationId )`. -/
def Sending.key (sending : Sending) : ℕ := sequenceKey sending.packetId sending.generationId

namespace ReliableCommandQueue

/-- A call. -/
inductive Operation
  | add (packetId : UInt16) (generationId : UInt32) (packet : Packet) (sentAt : TimePoint)
  | acknowledge (packetId : UInt16)
  | collectDue (now : TimePoint)

/-- A queue and what happened to it: the sendings that are not acknowledged, those that are, with
the acknowledgement, and the number of all. -/
structure History where
  queue : ReliableCommandQueue := ∅
  live : List Sending := []
  closed : List (Sending × Acknowledgement) := []
  added : ℕ := 0

namespace History

/-- `CollectDue` returns the packet of the sending, if it returns. -/
def Returns (h : History) (now : TimePoint) (sending : Sending) : Prop :=
  ∃ command ∈ h.queue.pending.find? sending.key, Due now command

instance (h : History) (now : TimePoint) : DecidablePred (h.Returns now) := fun sending =>
  decidable_of_iff ((h.queue.pending.find? sending.key).any fun command => Due now command) (by
    unfold Returns
    cases h.queue.pending.find? sending.key <;> simp)

/-- The sending after its packet was returned. -/
def returnedAt (now : TimePoint) (sending : Sending) : Sending :=
  { sending with returned := now :: sending.returned }

/-- One call. What it throws is caught, and the queue is what the call made of it. -/
def step (h : History) : Operation → History
  | .add packetId generationId packet sentAt =>
    match add packetId generationId packet sentAt h.queue with
    | .ok _ queue =>
      { h with
        queue
        live := h.live ++ [{ serial := h.added, packetId, generationId, packet, sentAt }]
        added := h.added + 1 }
    | .error _ queue => { h with queue }
  | .acknowledge packetId =>
    match acknowledge packetId h.queue with
    | .ok (some acknowledgement) queue =>
      { h with
        queue
        live := h.live.filter fun sending => sending.packetId ≠ packetId
        closed := h.closed ++ (h.live.filter fun sending => sending.packetId = packetId).map
          fun sending => (sending, acknowledgement) }
    | .ok none queue => { h with queue }
    | .error _ queue => { h with queue }
  | .collectDue now =>
    match collectDue now h.queue with
    | .ok _ queue =>
      { h with
        queue
        live := h.live.map fun sending =>
          if h.Returns now sending then returnedAt now sending else sending }
    | .error _ queue => { h with queue }

/-- The history of some calls on a new queue. -/
def of (operations : List Operation) : History := operations.foldl step {}

/-- All sendings. -/
def sendings (h : History) : List Sending := h.live ++ h.closed.map Prod.fst

end History

/-! ## The schedule -/

/-- The least time before the `k + 1`-th retransmission, since the `k`-th one or the sending. -/
def retryGap (k : ℕ) : ℤ := min (initialRetryDelay * 2 ^ k) maxRetryDelay

/-- The retransmissions of a packet keep their distances, and end 30 s after it was sent. -/
def Schedule (sentAt : TimePoint) : List TimePoint → Prop
  | [] => True
  | now :: earlier =>
    earlier.headD sentAt + retryGap earlier.length ≤ now ∧ now < sentAt + commandTimeout ∧
      Schedule sentAt earlier

/-- The least time that `k` retransmissions take. -/
def retrySpan (k : ℕ) : ℤ := ((List.range k).map retryGap).sum

theorem retrySpan_succ (k : ℕ) : retrySpan (k + 1) = retrySpan k + retryGap k := by
  unfold retrySpan
  rw [List.range_succ, List.map_append, List.sum_append, List.map_singleton, List.sum_singleton]

theorem retryGap_nonneg (k : ℕ) : 0 ≤ retryGap k := by
  unfold retryGap initialRetryDelay maxRetryDelay
  exact le_min (by positivity) (by norm_num)

theorem Schedule.retrySpan_le {sentAt : TimePoint} : ∀ {returned : List TimePoint},
    Schedule sentAt returned → sentAt + retrySpan returned.length ≤ returned.headD sentAt
  | [], _ => by simp [retrySpan]
  | now :: earlier, h => by
    have hearlier := Schedule.retrySpan_le h.2.2
    have hgap := h.1
    show sentAt + retrySpan (earlier.length + 1) ≤ now
    rw [retrySpan_succ]
    linarith

theorem retrySpan_mono : Monotone retrySpan :=
  monotone_nat_of_le_succ fun k => by
    rw [retrySpan_succ]
    exact le_add_of_nonneg_right (retryGap_nonneg k)

/-- There is time for nine. -/
theorem Schedule.length_le {sentAt : TimePoint} {returned : List TimePoint}
    (h : Schedule sentAt returned) : returned.length ≤ 9 := by
  by_contra hlong
  have hspan := h.retrySpan_le
  have hten : retrySpan 10 ≤ retrySpan returned.length := retrySpan_mono (by omega)
  have hvalue : commandTimeout ≤ retrySpan 10 := by decide +kernel
  cases returned with
  | nil => exact hlong (by simp)
  | cons now earlier =>
    have hlast := h.2.1
    rw [List.headD_cons] at hspan
    linarith

theorem retryGap_succ_le (k : ℕ) {delay : ℤ} (h : retryGap k ≤ delay) :
    retryGap (k + 1) ≤ min (delay * 2) maxRetryDelay := by
  refine le_min ?_ (min_le_right _ _)
  refine le_trans ?_ (mul_le_mul_of_nonneg_right h (by norm_num))
  unfold retryGap
  rw [min_mul_of_nonneg _ _ (by norm_num), pow_succ, ← mul_assoc]
  exact min_le_min le_rfl (by unfold maxRetryDelay; norm_num)

/-! ## How the queue stands to its history -/

/-- A pending command is that of the sending, and is not retried too early. -/
structure Follows (sending : Sending) (command : PendingCommand) : Prop where
  packetId : command.packetId = sending.packetId
  packet : command.packet = sending.packet
  firstSent : command.firstSent = sending.sentAt
  retryDelay : retryGap sending.returned.length ≤ command.retryDelay
  retryDelay_le : command.retryDelay ≤ maxRetryDelay
  nextRetry : sending.returned.headD sending.sentAt + retryGap sending.returned.length ≤
    command.nextRetry
  retransmitted : sending.returned ≠ [] → command.retransmitted = true

section Follows

variable {sending : Sending} {command : PendingCommand} {now : TimePoint}

theorem follows_newCommand (serial : ℕ) (packetId : UInt16) (generationId : UInt32)
    (packet : Packet) (sentAt : TimePoint) :
    Follows { serial, packetId, generationId, packet, sentAt }
      (newCommand packetId generationId packet sentAt) where
  packetId := rfl
  packet := rfl
  firstSent := rfl
  retryDelay := by
    show retryGap 0 ≤ initialRetryDelay
    decide +kernel
  retryDelay_le := by
    show initialRetryDelay ≤ maxRetryDelay
    decide +kernel
  nextRetry := by
    show sentAt + retryGap 0 ≤ sentAt + initialRetryDelay
    exact add_le_add_right (by decide +kernel) sentAt
  retransmitted h := absurd rfl h

/-- In a call that throws, the command is retried and its packet is lost. -/
theorem Follows.retry (h : Follows sending command) (hdue : Due now command) :
    Follows sending (retry now command) where
  packetId := h.packetId
  packet := h.packet
  firstSent := h.firstSent
  retryDelay := by
    refine h.retryDelay.trans (le_min ?_ h.retryDelay_le)
    have := (retryGap_nonneg _).trans h.retryDelay
    linarith
  retryDelay_le := min_le_right _ _
  nextRetry := by
    have hdelay : 0 ≤ min (command.retryDelay * 2) maxRetryDelay :=
      (retryGap_nonneg _).trans (retryGap_succ_le _ h.retryDelay)
    exact (h.nextRetry.trans hdue).trans (le_add_of_nonneg_right hdelay)
  retransmitted _ := rfl

theorem Follows.returned (h : Follows sending command) :
    Follows (History.returnedAt now sending) (ReliableCommandQueue.retry now command) where
  packetId := h.packetId
  packet := h.packet
  firstSent := h.firstSent
  retryDelay := retryGap_succ_le _ h.retryDelay
  retryDelay_le := min_le_right _ _
  nextRetry := add_le_add_right (retryGap_succ_le _ h.retryDelay) now
  retransmitted _ := rfl

/-- A due command is returned on schedule. -/
theorem Follows.schedule (h : Follows sending command) (hdue : Due now command)
    (halive : Alive now command) (hschedule : Schedule sending.sentAt sending.returned) :
    Schedule sending.sentAt (now :: sending.returned) := by
  unfold Alive at halive
  rw [h.firstSent] at halive
  exact ⟨h.nextRetry.trans hdue, halive, hschedule⟩

end Follows

namespace History

/-- The pending commands are those of the live sendings, and nothing is forgotten. -/
structure Tracks (h : History) : Prop where
  nodup : (h.live.map Sending.key).Nodup
  pending : ∀ sending ∈ h.live,
    ∃ command, h.queue.pending.find? sending.key = some command ∧ Follows sending command
  live : ∀ k command, h.queue.pending.find? k = some command → ∃ sending ∈ h.live, sending.key = k
  schedule : ∀ sending ∈ h.sendings, Schedule sending.sentAt sending.returned
  serials : (h.sendings.map Sending.serial).Perm (List.range h.added)
  firstSent : ∀ entry ∈ h.closed, entry.2.firstSent = entry.1.sentAt
  retransmitted : ∀ entry ∈ h.closed, entry.1.returned ≠ [] → entry.2.retransmitted = true
  size : h.queue.pending.size ≤ maxPendingCommands

variable {h : History}

theorem Tracks.follows (ht : h.Tracks) {sending : Sending} (hs : sending ∈ h.live)
    {command : PendingCommand} (hfind : h.queue.pending.find? sending.key = some command) :
    Follows sending command := by
  obtain ⟨command', hfind', hfollows⟩ := ht.pending sending hs
  rwa [Option.some.inj (hfind'.symm.trans hfind)] at hfollows

theorem tracks_new : ({} : History).Tracks where
  nodup := List.nodup_nil
  pending := nofun
  live k command hfind := by
    rw [show ({} : History).queue.pending.find? k = none from rfl] at hfind
    cases hfind
  schedule := nofun
  serials := .refl _
  firstSent := nofun
  retransmitted := nofun
  size := Nat.zero_le _

theorem Tracks.add (ht : h.Tracks) (packetId : UInt16) (generationId : UInt32) (packet : Packet)
    (sentAt : TimePoint) : (h.step (.add packetId generationId packet sentAt)).Tracks := by
  unfold step
  obtain ⟨-, failure, -, hrun⟩ | ⟨hsize, hid, hrun⟩ :=
    h.queue.add_cases packetId generationId packet sentAt
  · simp only [hrun]
    exact ht
  simp only [hrun]
  let command := newCommand packetId generationId packet sentAt
  have hnew : h.queue.pending.find? command.key = none := find?_key_of_not_contains hid
  have hfind : ∀ k, (h.queue.insert command hid).pending.find? k =
      if k = command.key then some command else h.queue.pending.find? k := find?_insert hid
  have hne : ∀ sending ∈ h.live, sending.key ≠ command.key := fun sending hs hkey => by
    obtain ⟨other, hother, -⟩ := ht.pending sending hs
    rw [hkey, hnew] at hother
    cases hother
  refine ⟨?_, fun sending hs => ?_, fun k other hother => ?_, fun sending hs => ?_, ?_, ht.firstSent,
    ht.retransmitted, (size_insert hid).trans_le hsize⟩
  · rw [List.map_append, List.nodup_append]
    refine ⟨ht.nodup, List.nodup_singleton _, fun k hk k' hk' => ?_⟩
    obtain ⟨sending, hs, rfl⟩ := List.mem_map.1 hk
    rw [List.mem_singleton.1 hk']
    exact hne sending hs
  · show ∃ other, (h.queue.insert command hid).pending.find? sending.key = some other ∧ _
    rcases List.mem_append.1 hs with hs | hs
    · rw [hfind, if_neg (hne sending hs)]
      exact ht.pending sending hs
    · rw [List.mem_singleton.1 hs]
      exact ⟨command, (hfind _).trans (if_pos rfl), follows_newCommand ..⟩
  · replace hother := (hfind k).symm.trans hother
    by_cases hk : k = command.key
    · exact ⟨_, List.mem_append_right _ (List.mem_singleton_self _), hk.symm⟩
    · rw [if_neg hk] at hother
      obtain ⟨sending, hs, hkey⟩ := ht.live k other hother
      exact ⟨sending, List.mem_append_left _ hs, hkey⟩
  · rcases List.mem_append.1 hs with hs | hs
    · rcases List.mem_append.1 hs with hs | hs
      · exact ht.schedule sending (List.mem_append_left _ hs)
      · rw [List.mem_singleton.1 hs]
        trivial
    · exact ht.schedule sending (List.mem_append_right _ hs)
  · have hperm := (ht.serials.append_right [h.added])
    rw [← List.range_succ] at hperm
    refine List.Perm.trans ?_ hperm
    unfold sendings
    simp only [List.map_append, List.map_cons, List.map_nil, List.append_assoc]
    exact List.perm_append_comm.append_left _

theorem find?_erase (queue : ReliableCommandQueue) (k j : ℕ) :
    (queue.erase k).pending.find? j = if j = k then none else queue.pending.find? j :=
  Registry.find?_erase ..

/-- The sendings with an id are the one of the pending command with that id. -/
theorem Tracks.filter_packetId (ht : h.Tracks) {command : PendingCommand}
    (hfind : h.queue.pending.find? command.key = some command) :
    ∃ sending ∈ h.live, sending.key = command.key ∧ Follows sending command ∧
      h.live.filter (fun sending => sending.packetId = command.packetId) = [sending] := by
  obtain ⟨sending, hs, hkey⟩ := ht.live _ command hfind
  have hfollows : Follows sending command := ht.follows hs (hkey.symm ▸ hfind)
  refine ⟨sending, hs, hkey, hfollows, ?_⟩
  have hnodup : h.live.Nodup := .of_map _ ht.nodup
  refine List.perm_singleton.1 ((List.perm_ext_iff_of_nodup (hnodup.filter _)
    (List.nodup_singleton _)).2 fun other => ?_)
  rw [List.mem_filter, List.mem_singleton, decide_eq_true_iff]
  constructor
  · rintro ⟨hother, hid⟩
    obtain ⟨command', hfind', hfollows'⟩ := ht.pending other hother
    have hsame := h.queue.unique _ _ _ _ hfind' hfind (hfollows'.packetId.trans hid)
    exact List.inj_on_of_nodup_map ht.nodup hother hs (hsame.trans hkey.symm)
  · rintro rfl
    exact ⟨hs, hfollows.packetId.symm⟩

theorem Tracks.acknowledge (ht : h.Tracks) (packetId : UInt16) :
    (h.step (.acknowledge packetId)).Tracks := by
  unfold step
  obtain ⟨-, hrun⟩ | ⟨command, hfind, rfl, hrun⟩ := h.queue.acknowledge_cases packetId
  · simp only [hrun]
    exact ht
  simp only [hrun]
  obtain ⟨acked, hacked, hkey, hfollows, hfilter⟩ := ht.filter_packetId hfind
  rw [hfilter]
  have hkept : ∀ sending ∈ h.live, sending.packetId ≠ command.packetId →
      sending.key ≠ command.key := fun sending hs hid hk => by
    obtain ⟨other, hother, hfollows'⟩ := ht.pending sending hs
    rw [hk, hfind] at hother
    exact hid ((Option.some.inj hother) ▸ hfollows'.packetId.symm)
  have hsub : ∀ sending, sending ∈ h.live.filter (fun sending =>
      sending.packetId ≠ command.packetId) ↔
        sending ∈ h.live ∧ sending.packetId ≠ command.packetId := fun sending => by
    rw [List.mem_filter, decide_eq_true_iff]
  -- the sendings are the same ones, up to their order
  have hperm : (h.live.filter (fun sending => sending.packetId ≠ command.packetId) ++
      (h.closed ++ [(acked, ({ firstSent := command.firstSent
                               retransmitted := command.retransmitted } : Acknowledgement))]).map
        Prod.fst).Perm h.sendings := by
    have hsplit := List.filter_append_perm
      (fun sending : Sending => decide (sending.packetId = command.packetId)) h.live
    rw [hfilter] at hsplit
    have hrest : h.live.filter (fun sending => !decide (sending.packetId = command.packetId)) =
        h.live.filter (fun sending => sending.packetId ≠ command.packetId) :=
      List.filter_congr fun sending _ => (decide_not ..).symm
    rw [hrest] at hsplit
    rw [List.map_append, List.map_singleton, ← List.append_assoc]
    refine List.perm_append_comm.trans ?_
    rw [← List.append_assoc]
    exact hsplit.append_right _
  refine ⟨?_, fun sending hs => ?_, fun k other hother => ?_, fun sending hs => ?_, ?_,
    fun entry he => ?_, fun entry he => ?_, (OrderedMap.size_erase_le _ _).trans ht.size⟩
  · exact ht.nodup.sublist (List.filter_sublist.map _)
  · obtain ⟨hs, hid⟩ := (hsub sending).1 hs
    obtain ⟨other, hother, hfollows'⟩ := ht.pending sending hs
    exact ⟨other, (find?_erase ..).trans ((if_neg (hkept sending hs hid)).trans hother), hfollows'⟩
  · replace hother := (find?_erase h.queue command.key k).symm.trans hother
    by_cases hk : k = command.key
    · rw [if_pos hk] at hother
      cases hother
    · rw [if_neg hk] at hother
      obtain ⟨sending, hs, rfl⟩ := ht.live k other hother
      refine ⟨sending, (hsub sending).2 ⟨hs, fun hid => hk ?_⟩, rfl⟩
      have hother' := (ht.follows hs hother).packetId
      exact h.queue.unique _ _ _ _ hother hfind (hother'.trans hid)
  · exact ht.schedule sending (hperm.mem_iff.1 hs)
  · exact (hperm.map Sending.serial).trans ht.serials
  · rcases List.mem_append.1 he with he | he
    · exact ht.firstSent entry he
    · rw [List.mem_singleton.1 he]
      exact hfollows.firstSent
  · rcases List.mem_append.1 he with he | he
    · exact ht.retransmitted entry he
    · rw [List.mem_singleton.1 he]
      exact hfollows.retransmitted

/-- Of a sending that is returned, only what was returned of it changes. -/
theorem map_returnedAt {α : Type} {now : TimePoint} {f : Sending → α}
    (hf : ∀ sending, f (returnedAt now sending) = f sending) :
    (h.live.map fun sending => if h.Returns now sending then returnedAt now sending else sending).map
      f = h.live.map f := by
  rw [List.map_map]
  refine List.map_congr_left fun sending _ => ?_
  rw [Function.comp_apply]
  split_ifs
  · exact hf sending
  · rfl

theorem returns_iff {now : TimePoint} {sending : Sending} {command : PendingCommand}
    (hcommand : h.queue.pending.find? sending.key = some command) :
    h.Returns now sending ↔ Due now command := by
  constructor
  · rintro ⟨other, hother, hdue⟩
    rwa [Option.some.inj (hother.symm.trans hcommand)] at hdue
  · exact fun hdue => ⟨command, hcommand, hdue⟩

/-- A call that throws has retried some of the due commands. -/
theorem Tracks.collectDue_error (ht : h.Tracks) {now : TimePoint} {failure : Failure}
    {queue : ReliableCommandQueue}
    (hrun : ReliableCommandQueue.collectDue now h.queue = .error failure queue) :
    Tracks { h with queue } := by
  have hsize := size_collectDue now h.queue
  rw [final_of_eq_error hrun] at hsize
  have hfind := find?_collectDue_error hrun
  refine ⟨ht.nodup, fun sending hs => ?_, fun k other hother => ?_, ht.schedule, ht.serials,
    ht.firstSent, ht.retransmitted, hsize.trans_le ht.size⟩
  · obtain ⟨command, hcommand, hfollows⟩ := ht.pending sending hs
    obtain hsame | ⟨command', hcommand', hdue, hretried⟩ := hfind sending.key
    · exact ⟨command, hsame.trans hcommand, hfollows⟩
    · rw [Option.some.inj (hcommand'.symm.trans hcommand)] at hdue hretried
      exact ⟨_, hretried, hfollows.retry hdue⟩
  · obtain hsame | ⟨command', hcommand', -⟩ := hfind k
    · exact ht.live k other (hsame.symm.trans hother)
    · exact ht.live k command' hcommand'

/-- A call that returns has retried all due commands, and returned their packets. -/
theorem Tracks.collectDue_ok (ht : h.Tracks) {now : TimePoint} {packets : List Packet}
    {queue : ReliableCommandQueue}
    (hrun : ReliableCommandQueue.collectDue now h.queue = .ok packets queue) :
    Tracks { h with
      queue
      live := h.live.map fun sending =>
        if h.Returns now sending then returnedAt now sending else sending } := by
  have hsize := size_collectDue now h.queue
  rw [final_of_eq_ok hrun] at hsize
  have hfind := find?_collectDue_ok hrun
  have halive : ∀ command ∈ h.queue.pending.values, Alive now command := by
    rw [collectDue_eq] at hrun
    split_ifs at hrun with halive
    exact halive
  refine ⟨?_, fun sending hs => ?_, fun k other hother => ?_, fun sending hs => ?_, ?_,
    ht.firstSent, ht.retransmitted, hsize.trans_le ht.size⟩
  · rw [map_returnedAt fun _ => rfl]
    exact ht.nodup
  · obtain ⟨old, hold, rfl⟩ := List.mem_map.1 hs
    obtain ⟨command, hcommand, hfollows⟩ := ht.pending old hold
    by_cases hdue : Due now command
    · rw [if_pos ((returns_iff hcommand).2 hdue)]
      refine ⟨retry now command, (hfind _).trans ?_, hfollows.returned⟩
      show (h.queue.pending.find? old.key).map _ = _
      rw [hcommand, Option.map_some, if_pos hdue]
    · rw [if_neg (mt (returns_iff hcommand).1 hdue)]
      refine ⟨command, (hfind _).trans ?_, hfollows⟩
      rw [hcommand, Option.map_some, if_neg hdue]
  · replace hother := (hfind k).symm.trans hother
    obtain ⟨command, hcommand, -⟩ := Option.map_eq_some_iff.1 hother
    obtain ⟨sending, hs, rfl⟩ := ht.live k command hcommand
    refine ⟨_, List.mem_map_of_mem hs, ?_⟩
    split_ifs <;> rfl
  · rcases List.mem_append.1 hs with hs | hs
    · obtain ⟨old, hold, rfl⟩ := List.mem_map.1 hs
      have hschedule := ht.schedule old (List.mem_append_left _ hold)
      obtain ⟨command, hcommand, hfollows⟩ := ht.pending old hold
      by_cases hdue : Due now command
      · rw [if_pos ((returns_iff hcommand).2 hdue)]
        exact hfollows.schedule hdue (halive command (mem_values_of_find? hcommand)) hschedule
      · rw [if_neg (mt (returns_iff hcommand).1 hdue)]
        exact hschedule
    · exact ht.schedule sending (List.mem_append_right _ hs)
  · unfold sendings
    rw [List.map_append, map_returnedAt fun _ => rfl, ← List.map_append]
    exact ht.serials

theorem Tracks.collectDue (ht : h.Tracks) (now : TimePoint) :
    (h.step (.collectDue now)).Tracks := by
  unfold step
  cases hrun : ReliableCommandQueue.collectDue now h.queue with
  | error failure queue =>
    simp only [hrun]
    exact ht.collectDue_error hrun
  | ok packets queue =>
    simp only [hrun]
    exact ht.collectDue_ok hrun

theorem Tracks.step (ht : h.Tracks) (operation : Operation) : (h.step operation).Tracks := by
  cases operation with
  | add packetId generationId packet sentAt => exact ht.add packetId generationId packet sentAt
  | acknowledge packetId => exact ht.acknowledge packetId
  | collectDue now => exact ht.collectDue now

/-- Every history is tracked. -/
theorem tracks_of (operations : List Operation) : (of operations).Tracks :=
  Runs.invariant (I := Tracks) (fun _ operation ht => ht.step operation) tracks_new operations

/-! ## What is returned -/

/-- Pending commands are known by their sendings. -/
theorem Tracks.exists_sendings (ht : h.Tracks) {commands : List PendingCommand}
    (hpending : ∀ command ∈ commands, h.queue.pending.find? command.key = some command) :
    ∃ returned : List Sending, returned.map Sending.key = commands.map PendingCommand.key ∧
      returned.map Sending.packet = commands.map PendingCommand.packet ∧
        ∀ sending ∈ returned, sending ∈ h.live := by
  induction commands with
  | nil => exact ⟨[], rfl, rfl, nofun⟩
  | cons command commands ih =>
    obtain ⟨returned, hkeys, hpackets, hlive⟩ :=
      ih fun c hc => hpending c (List.mem_cons_of_mem _ hc)
    have hfind := hpending command List.mem_cons_self
    obtain ⟨sending, hs, hkey⟩ := ht.live _ command hfind
    have hfollows := ht.follows hs (hkey.symm ▸ hfind)
    refine ⟨sending :: returned, ?_, ?_, List.forall_mem_cons.2 ⟨hs, hlive⟩⟩
    · rw [List.map_cons, List.map_cons, hkey, hkeys]
    · rw [List.map_cons, List.map_cons, hfollows.packet, hpackets]

/-- The packets that a call returns are those of the sendings that it returns, in key order. -/
theorem Tracks.exists_returned (ht : h.Tracks) {now : TimePoint} {packets : List Packet}
    {queue' : ReliableCommandQueue}
    (hrun : ReliableCommandQueue.collectDue now h.queue = .ok packets queue') :
    ∃ returned : List Sending, returned.Perm (h.live.filter fun sending => h.Returns now sending) ∧
      (returned.map Sending.key).Pairwise (· < ·) ∧ packets = returned.map Sending.packet := by
  rw [collectDue_eq] at hrun
  split_ifs at hrun
  cases hrun
  have hdue : ∀ command, command ∈ h.queue.pending.values.filter (fun command => Due now command) ↔
      h.queue.pending.find? command.key = some command ∧ Due now command := fun command => by
    rw [List.mem_filter, mem_values_iff, decide_eq_true_iff]
  obtain ⟨returned, hkeys, hpackets, hlive⟩ := ht.exists_sendings fun command hc =>
    ((hdue command).1 hc).1
  have hsorted : (returned.map Sending.key).Pairwise (· < ·) := by
    rw [hkeys, List.pairwise_map]
    exact h.queue.pending.pairwise_values.sublist List.filter_sublist
  refine ⟨returned, ?_, hsorted, hpackets.symm⟩
  have hnodup : returned.Nodup := .of_map Sending.key (hsorted.imp fun hlt => hlt.ne)
  have hnodup' : h.live.Nodup := .of_map Sending.key ht.nodup
  refine (List.perm_ext_iff_of_nodup hnodup (hnodup'.filter _)).2 fun sending => ?_
  rw [List.mem_filter, decide_eq_true_iff]
  constructor
  · intro hs
    refine ⟨hlive sending hs, ?_⟩
    have hkey := List.mem_map_of_mem (f := Sending.key) hs
    rw [hkeys] at hkey
    obtain ⟨command, hc, hkey⟩ := List.mem_map.1 hkey
    obtain ⟨hfind, hdue⟩ := (hdue command).1 hc
    exact ⟨command, hkey ▸ hfind, hdue⟩
  · rintro ⟨hs, command, hfind, hisDue⟩
    have hkey : command.key = sending.key := Registry.key_of_find? hfind
    have hmem := List.mem_map_of_mem (f := PendingCommand.key)
      ((hdue command).2 ⟨hkey.symm ▸ hfind, hisDue⟩)
    rw [← hkeys] at hmem
    obtain ⟨other, hother, hsame⟩ := List.mem_map.1 hmem
    rwa [← List.inj_on_of_nodup_map ht.nodup (hlive other hother) hs (hsame.trans hkey)]

/-! ## What an acknowledgement reports -/

/-- A command is marked only when its packet was returned. -/
structure Exact (h : History) : Prop where
  pending : ∀ sending ∈ h.live, ∀ command, h.queue.pending.find? sending.key = some command →
    command.retransmitted = true → sending.returned ≠ []
  closed : ∀ entry ∈ h.closed, entry.2.retransmitted = true → entry.1.returned ≠ []

theorem Exact.add (hx : h.Exact) (packetId : UInt16) (generationId : UInt32)
    (packet : Packet) (sentAt : TimePoint) :
    (h.step (.add packetId generationId packet sentAt)).Exact := by
  unfold step
  obtain ⟨-, failure, -, hrun⟩ | ⟨hsize, hid, hrun⟩ :=
    h.queue.add_cases packetId generationId packet sentAt
  · simp only [hrun]
    exact hx
  simp only [hrun]
  refine ⟨fun sending hs command hcommand => ?_, hx.closed⟩
  replace hcommand := (find?_insert hid _).symm.trans hcommand
  split_ifs at hcommand with hkey
  · cases hcommand
    exact nofun
  · rcases List.mem_append.1 hs with hs | hs
    · exact hx.pending sending hs command hcommand
    · rw [List.mem_singleton.1 hs] at hkey
      exact absurd rfl hkey

theorem Exact.acknowledge (hx : h.Exact) (ht : h.Tracks) (packetId : UInt16) :
    (h.step (.acknowledge packetId)).Exact := by
  unfold step
  obtain ⟨-, hrun⟩ | ⟨command, hfind, rfl, hrun⟩ := h.queue.acknowledge_cases packetId
  · simp only [hrun]
    exact hx
  simp only [hrun]
  obtain ⟨acked, hacked, hkey, -, hfilter⟩ := ht.filter_packetId hfind
  rw [hfilter]
  refine ⟨fun sending hs other hother => ?_, fun entry he => ?_⟩
  · replace hother := (find?_erase ..).symm.trans hother
    split_ifs at hother
    exact hx.pending sending (List.mem_filter.1 hs).1 other hother
  · rcases List.mem_append.1 he with he | he
    · exact hx.closed entry he
    · rw [List.mem_singleton.1 he]
      exact hx.pending acked hacked command (hkey.symm ▸ hfind)

theorem Exact.collectDue (hx : h.Exact) (hordered : h.queue.Ordered) (now : TimePoint) :
    (h.step (.collectDue now)).Exact := by
  unfold step
  cases hrun : ReliableCommandQueue.collectDue now h.queue with
  | error failure queue =>
    simp only [hrun, eq_of_collectDue_error hordered hrun]
    exact hx
  | ok packets queue =>
    simp only [hrun]
    have hfind := find?_collectDue_ok hrun
    refine ⟨fun sending hs command hcommand => ?_, hx.closed⟩
    obtain ⟨old, hold, rfl⟩ := List.mem_map.1 hs
    by_cases hreturns : h.Returns now old
    · rw [if_pos hreturns]
      exact fun _ => List.cons_ne_nil _ _
    · rw [if_neg hreturns] at hcommand ⊢
      replace hcommand := (hfind _).symm.trans hcommand
      obtain ⟨before, hbefore, rfl⟩ := Option.map_eq_some_iff.1 hcommand
      rw [if_neg fun hdue => hreturns ⟨before, hbefore, hdue⟩]
      exact hx.pending old hold before hbefore

/-- While the send times are ordered, the marks are exact. -/
theorem exact_of {operations : List Operation}
    (hordered : Runs.Along step (fun h _ => h.queue.Ordered) {} operations) :
    (of operations).Exact := by
  have hnew : ({} : History).Tracks ∧ ({} : History).Exact := ⟨tracks_new, nofun, nofun⟩
  refine (hordered.invariant (I := fun h => h.Tracks ∧ h.Exact) ?_ hnew).2
  rintro h operation ⟨ht, hx⟩ hordered
  refine ⟨ht.step operation, ?_⟩
  cases operation with
  | add packetId generationId packet sentAt => exact hx.add packetId generationId packet sentAt
  | acknowledge packetId => exact hx.acknowledge ht packetId
  | collectDue now => exact hx.collectDue hordered now

end History

/-! ## Acknowledgements -/

theorem nodup_packetIds (queue : ReliableCommandQueue) :
    (queue.pending.values.map PendingCommand.packetId).Nodup := by
  refine (List.nodup_map_iff_inj_on queue.pending.nodup_values).2 fun a ha b hb hid => ?_
  have hkeys := queue.unique _ _ _ _ (mem_values_iff.1 ha) (mem_values_iff.1 hb) hid
  have hfind := mem_values_iff.1 ha
  rw [hkeys, mem_values_iff.1 hb] at hfind
  exact (Option.some.inj hfind).symm

/-- An `Add` that throws changes nothing. -/
theorem eq_of_add_error {queue queue' : ReliableCommandQueue} {packetId : UInt16}
    {generationId : UInt32} {packet : Packet} {sentAt : TimePoint} {failure : Failure}
    (hrun : add packetId generationId packet sentAt queue = .error failure queue') :
    AddFailure failure ∧ queue' = queue := by
  obtain ⟨-, failure', hfailure, hrun'⟩ | ⟨-, hid, hrun'⟩ :=
    queue.add_cases packetId generationId packet sentAt
  · cases hrun.symm.trans hrun'
    exact ⟨hfailure, rfl⟩
  · cases hrun.symm.trans hrun'

/-- Without the command of `k`, what is left are the commands with another packet id. -/
theorem find?_erase_eq_filter {queue : ReliableCommandQueue} {command : PendingCommand}
    (hfind : queue.pending.find? command.key = some command) (k : ℕ) :
    (if k = command.key then none else queue.pending.find? k) =
      (queue.pending.find? k).filter fun other => other.packetId ≠ command.packetId := by
  by_cases hk : k = command.key
  · rw [if_pos hk, hk, hfind]
    simp [Option.filter]
  · rw [if_neg hk]
    cases hother : queue.pending.find? k with
    | none => rfl
    | some other =>
      have hid : other.packetId ≠ command.packetId := fun hid =>
        hk (queue.unique _ _ _ _ hother hfind hid)
      simp [Option.filter, hid]

/-- An acknowledgement takes out the command with its packet id, when one is pending. -/
theorem exists_acknowledge (queue : ReliableCommandQueue) (packetId : UInt16) :
    ∃ acknowledgement queue', acknowledge packetId queue = .ok acknowledgement queue' ∧
      (acknowledgement = none ↔ ∀ command ∈ queue.pending.values, command.packetId ≠ packetId) ∧
      ∀ k, queue'.pending.find? k =
        (queue.pending.find? k).filter fun command => command.packetId ≠ packetId := by
  obtain ⟨hnone, hrun⟩ | ⟨command, hfind, rfl, hrun⟩ := queue.acknowledge_cases packetId
  · refine ⟨_, _, hrun, iff_of_true rfl fun command hc => hnone _ _ (mem_values_iff.1 hc),
      fun k => ?_⟩
    cases hk : queue.pending.find? k with
    | none => rfl
    | some other => simp [Option.filter, hnone k other hk]
  · refine ⟨_, _, hrun, iff_of_false nofun fun hnone => ?_,
      fun k => (History.find?_erase ..).trans (find?_erase_eq_filter hfind k)⟩
    exact hnone command (mem_values_of_find? hfind) rfl

/-- An acknowledgement that finds a command reports the send time of its one live sending. -/
theorem History.Tracks.exists_acknowledged {h : History} (ht : h.Tracks) {packetId : UInt16}
    {acknowledgement : Acknowledgement} {queue' : ReliableCommandQueue}
    (hrun : ReliableCommandQueue.acknowledge packetId h.queue = .ok (some acknowledgement) queue') :
    ∃ sending, h.live.filter (fun sending => sending.packetId = packetId) = [sending] ∧
      acknowledgement.firstSent = sending.sentAt := by
  obtain ⟨-, hrun'⟩ | ⟨command, hfind, rfl, hrun'⟩ := h.queue.acknowledge_cases packetId
  · cases hrun.symm.trans hrun'
  · cases hrun.symm.trans hrun'
    obtain ⟨sending, -, -, hfollows, hfilter⟩ := ht.filter_packetId hfind
    exact ⟨sending, hfilter, hfollows.firstSent⟩

/-- **Acknowledgements retire exactly one command.** After any calls: packet ids are pending once,
so no acknowledgement is ambiguous and an `Add` that throws changes nothing; an acknowledgement
takes out the command with its id and leaves the others; each sending was acknowledged at most
once, with its own send time, and while the send times were ordered it reports whether the packet
was returned. -/
theorem acknowledgements_retire_one (operations : List Operation) :
    let h := History.of operations
    ((h.queue.pending.values.map PendingCommand.packetId).Nodup ∧
      h.queue.pending.values.length ≤ maxPendingCommands) ∧
    (∀ packetId generationId packet sentAt failure queue',
      add packetId generationId packet sentAt h.queue = .error failure queue' →
        AddFailure failure ∧ queue' = h.queue) ∧
    (∀ packetId, ∃ acknowledgement queue', acknowledge packetId h.queue = .ok acknowledgement queue' ∧
      (acknowledgement = none ↔ ∀ command ∈ h.queue.pending.values, command.packetId ≠ packetId) ∧
      ∀ k, queue'.pending.find? k =
        (h.queue.pending.find? k).filter fun command => command.packetId ≠ packetId) ∧
    (∀ packetId acknowledgement queue',
      acknowledge packetId h.queue = .ok (some acknowledgement) queue' →
        ∃ sending, h.live.filter (fun sending => sending.packetId = packetId) = [sending] ∧
          acknowledgement.firstSent = sending.sentAt) ∧
    ((h.sendings.map Sending.serial).Perm (List.range h.added) ∧
      ∀ entry ∈ h.closed, entry.2.firstSent = entry.1.sentAt) ∧
    (Runs.Along History.step (fun h _ => h.queue.Ordered) {} operations →
      ∀ entry ∈ h.closed, (entry.2.retransmitted = true ↔ entry.1.returned ≠ [])) := by
  intro h
  have ht : h.Tracks := History.tracks_of operations
  refine ⟨⟨h.queue.nodup_packetIds, ?_⟩, ?_, h.queue.exists_acknowledge, ?_,
    ⟨ht.serials, ht.firstSent⟩, ?_⟩
  · rw [Registry.length_values]
    exact ht.size
  · intro packetId generationId packet sentAt failure queue' hrun
    exact eq_of_add_error hrun
  · intro packetId acknowledgement queue' hrun
    exact ht.exists_acknowledged hrun
  · intro hordered entry he
    exact ⟨(History.exact_of hordered).closed entry he, ht.retransmitted entry he⟩

end ReliableCommandQueue

end TsCli
