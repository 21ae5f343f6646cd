import TsCli.Reliability.ReliableCommandQueue

/-!
# Due commands

What `CollectDue` does, without its loop: it throws when a command is expired, and otherwise hands
out the due ones (`collectDue_eq`). `NextDeadline` is the first time at which it does one or the
other (`lt_nextDeadline_iff`).
-/

namespace TsCli

namespace PendingCommand

/-- `now < pending.firstSent + CommandTimeout`. -/
def Alive (now : TimePoint) (command : PendingCommand) : Prop :=
  now < command.firstSent + ReliableCommandQueue.commandTimeout

instance (now : TimePoint) : DecidablePred (Alive now) :=
  fun _ => inferInstanceAs (Decidable (_ < _))

/-- `now >= pending.nextRetry`. -/
def Due (now : TimePoint) (command : PendingCommand) : Prop := command.nextRetry ≤ now

instance (now : TimePoint) : DecidablePred (Due now) := fun _ => inferInstanceAs (Decidable (_ ≤ _))

end PendingCommand

namespace ReliableCommandQueue

open PendingCommand Exec

variable {queue : ReliableCommandQueue} {now : TimePoint}

/-- The queue after the due ones among some commands are handed out. -/
def retryAll (now : TimePoint) (commands : List PendingCommand) (queue : ReliableCommandQueue) :
    ReliableCommandQueue :=
  (commands.filter fun command => Due now command).foldl
    (fun queue command => queue.markRetried now command.key) queue

theorem find?_markRetried (queue : ReliableCommandQueue) (now : TimePoint) (k j : ℕ) :
    (queue.markRetried now k).pending.find? j =
      (queue.pending.find? j).map fun command => if j = k then retry now command else command :=
  Registry.find?_modify _ k (retry now) (key_retry now) j

theorem retryAll_cons (command : PendingCommand) (commands : List PendingCommand) :
    queue.retryAll now (command :: commands) =
      if Due now command then (queue.markRetried now command.key).retryAll now commands
      else queue.retryAll now commands := by
  unfold retryAll
  by_cases h : Due now command
  · rw [List.filter_cons_of_pos (by simpa using h), if_pos h, List.foldl_cons]
  · rw [List.filter_cons_of_neg (by simpa using h), if_neg h]

/-- Each command is retried once. -/
theorem find?_retryAll (commands : List PendingCommand)
    (hnodup : (commands.map PendingCommand.key).Nodup) (queue : ReliableCommandQueue) (j : ℕ) :
    (queue.retryAll now commands).pending.find? j = (queue.pending.find? j).map fun command =>
      if ∃ c ∈ commands, Due now c ∧ c.key = j then retry now command else command := by
  induction commands generalizing queue with
  | nil =>
    show queue.pending.find? j = _
    cases queue.pending.find? j with
    | none => rfl
    | some command => simp
  | cons first commands ih =>
    obtain ⟨hfirst, hnodup⟩ := List.nodup_cons.1 hnodup
    have hrest : first.key = j → ¬ ∃ c ∈ commands, Due now c ∧ c.key = j := by
      rintro rfl ⟨c, hc, -, hkey⟩
      exact hfirst (hkey ▸ List.mem_map_of_mem hc)
    rw [retryAll_cons]
    by_cases hdue : Due now first
    · rw [if_pos hdue, ih hnodup, find?_markRetried, Option.map_map]
      congr 1
      funext command
      by_cases hj : first.key = j
      · have hmem : ∃ c ∈ first :: commands, Due now c ∧ c.key = j :=
          ⟨first, List.mem_cons_self, hdue, hj⟩
        simp only [Function.comp_apply, if_pos hmem, if_neg (hrest hj), if_pos hj.symm]
      · have hsame : (∃ c ∈ first :: commands, Due now c ∧ c.key = j) ↔
            ∃ c ∈ commands, Due now c ∧ c.key = j := by simp [hj]
        simp only [Function.comp_apply, hsame, if_neg (Ne.symm hj)]
    · have hsame : (∃ c ∈ first :: commands, Due now c ∧ c.key = j) ↔
          ∃ c ∈ commands, Due now c ∧ c.key = j := by simp [hdue]
      rw [if_neg hdue, ih hnodup]
      simp only [hsame]

/-- How `CollectDue` fails. -/
def timedOut : Failure := .runtimeError "Reliable Command acknowledgement timed out"

/-- The loop hands out the due commands, up to the first one that is expired. -/
theorem collectLoop_eq (commands : List PendingCommand) (queue : ReliableCommandQueue) :
    collectLoop now commands queue =
      if ∀ command ∈ commands, Alive now command then
        .ok ((commands.filter fun command => Due now command).map PendingCommand.packet)
          (queue.retryAll now commands)
      else
        .error timedOut (queue.retryAll now (commands.takeWhile fun command => Alive now command)) := by
  induction commands generalizing queue with
  | nil => rfl
  | cons first commands ih =>
    rw [collectLoop]
    by_cases halive : Alive now first
    · have hnot : ¬ first.firstSent + commandTimeout ≤ now := not_le.2 halive
      have hall : (∀ command ∈ first :: commands, Alive now command) ↔
          ∀ command ∈ commands, Alive now command := by simp [halive]
      rw [if_neg hnot, List.takeWhile_cons_of_pos (by simpa using halive), retryAll_cons,
        retryAll_cons]
      by_cases hdue : Due now first
      · rw [if_neg (not_lt.2 hdue), if_pos hdue, if_pos hdue,
          List.filter_cons_of_pos (by simpa using hdue)]
        show EStateM.bind (collectLoop now commands) _ (queue.markRetried now first.key) = _
        unfold EStateM.bind
        rw [ih]
        by_cases h : ∀ command ∈ commands, Alive now command
        · rw [if_pos h, if_pos (hall.2 h)]
          rfl
        · rw [if_neg h, if_neg (mt hall.1 h)]
      · rw [if_pos (not_le.1 hdue), if_neg hdue, if_neg hdue,
          List.filter_cons_of_neg (by simpa using hdue), ih]
        by_cases h : ∀ command ∈ commands, Alive now command
        · rw [if_pos h, if_pos (hall.2 h)]
        · rw [if_neg h, if_neg (mt hall.1 h)]
    · have hexpired : first.firstSent + commandTimeout ≤ now := not_lt.1 halive
      rw [if_pos hexpired, if_neg (fun h => halive (h first List.mem_cons_self)),
        List.takeWhile_cons_of_neg (by simpa using halive)]
      rfl

/-- **`CollectDue`** -/
theorem collectDue_eq (now : TimePoint) (queue : ReliableCommandQueue) :
    collectDue now queue =
      if ∀ command ∈ queue.pending.values, Alive now command then
        .ok ((queue.pending.values.filter fun command => Due now command).map PendingCommand.packet)
          (queue.retryAll now queue.pending.values)
      else
        .error timedOut
          (queue.retryAll now (queue.pending.values.takeWhile fun command => Alive now command)) := by
  unfold collectDue
  rw [run_get_bind, collectLoop_eq]

/-- What a call leaves of a command: it may have been retried. -/
theorem find?_collectDue_ok {packets : List Packet} {queue' : ReliableCommandQueue}
    (h : collectDue now queue = .ok packets queue') (j : ℕ) :
    queue'.pending.find? j = (queue.pending.find? j).map fun command =>
      if Due now command then retry now command else command := by
  rw [collectDue_eq] at h
  split_ifs at h with halive
  cases h
  rw [find?_retryAll _ queue.pending.nodup_map_key_values]
  cases hfind : queue.pending.find? j with
  | none => rfl
  | some command =>
    have hkey : command.key = j := Registry.key_of_find? hfind
    have hiff : (∃ c ∈ queue.pending.values, Due now c ∧ c.key = j) ↔ Due now command := by
      constructor
      · rintro ⟨c, hc, hdue, rfl⟩
        have hsame := (mem_values_iff.1 hc).symm.trans hfind
        rwa [Option.some.inj hsame] at hdue
      · exact fun hdue => ⟨command, mem_values_of_find? hfind, hdue, hkey⟩
    rw [Option.map_some, Option.map_some, if_congr hiff rfl rfl]

/-- In a call that throws, only due commands were retried. -/
theorem find?_collectDue_error {failure : Failure} {queue' : ReliableCommandQueue}
    (h : collectDue now queue = .error failure queue') (j : ℕ) :
    queue'.pending.find? j = queue.pending.find? j ∨
      ∃ command, queue.pending.find? j = some command ∧ Due now command ∧
        queue'.pending.find? j = some (retry now command) := by
  rw [collectDue_eq] at h
  split_ifs at h with halive
  cases h
  have hnodup := queue.pending.nodup_map_key_values.sublist
    ((List.takeWhile_sublist fun command => decide (Alive now command)).map PendingCommand.key)
  rw [find?_retryAll _ hnodup]
  cases hfind : queue.pending.find? j with
  | none => exact .inl rfl
  | some command =>
    rw [Option.map_some]
    split_ifs with hmem
    · obtain ⟨c, hc, hdue, rfl⟩ := hmem
      have hc' := mem_values_iff.1 ((List.takeWhile_sublist _).subset hc)
      rw [Option.some.inj (hc'.symm.trans hfind)] at hdue
      exact .inr ⟨command, rfl, hdue, rfl⟩
    · exact .inl rfl

/-- Handing out keeps the commands in the queue. -/
theorem size_retryAll (commands : List PendingCommand) (queue : ReliableCommandQueue) :
    (queue.retryAll now commands).pending.size = queue.pending.size := by
  induction commands generalizing queue with
  | nil => rfl
  | cons command commands ih =>
    rw [retryAll_cons]
    split_ifs
    · exact (ih _).trans (OrderedMap.size_mapValues ..)
    · exact ih queue

theorem size_collectDue (now : TimePoint) (queue : ReliableCommandQueue) :
    (final (collectDue now) queue).pending.size = queue.pending.size := by
  unfold final
  rw [collectDue_eq]
  by_cases h : ∀ command ∈ queue.pending.values, Alive now command
  · rw [if_pos h]
    exact size_retryAll _ queue
  · rw [if_neg h]
    exact size_retryAll _ queue

/-- The send times do not decrease with generation and packet id. -/
def Ordered (queue : ReliableCommandQueue) : Prop :=
  ∀ k k' command command', queue.pending.find? k = some command →
    queue.pending.find? k' = some command' → k ≤ k' → command.firstSent ≤ command'.firstSent

/-- In such a queue the first command is expired when some command is, so a call that throws has
not changed anything. -/
theorem eq_of_collectDue_error (hordered : queue.Ordered) {failure : Failure}
    {queue' : ReliableCommandQueue} (h : collectDue now queue = .error failure queue') :
    queue' = queue := by
  rw [collectDue_eq] at h
  split_ifs at h with halive
  cases h
  push Not at halive
  obtain ⟨expired, hmem, hexpired⟩ := halive
  have hnone : queue.pending.values.takeWhile (fun command => Alive now command) = [] := by
    cases hvalues : queue.pending.values with
    | nil => rfl
    | cons first commands =>
      refine List.takeWhile_cons_of_neg ?_
      rw [decide_eq_true_iff]
      intro hfirst
      have hle : first.key ≤ expired.key := by
        rw [hvalues] at hmem
        rcases List.mem_cons.1 hmem with rfl | hmem
        · exact le_refl _
        · have hsorted := queue.pending.pairwise_values
          rw [hvalues] at hsorted
          exact ((List.pairwise_cons.1 hsorted).1 expired hmem).le
      have hsent : first.firstSent ≤ expired.firstSent := hordered _ _ first expired
        (mem_values_iff.1 (hvalues ▸ List.mem_cons_self)) (mem_values_iff.1 hmem) hle
      exact hexpired (hfirst.trans_le (by gcongr))
  rw [hnone]
  rfl

/-! ## The next deadline -/

/-- `ReliableCommandQueue::NextDeadline`. -/
def nextDeadline (queue : ReliableCommandQueue) : Option TimePoint :=
  (queue.pending.values.map fun pending =>
    min pending.nextRetry (pending.firstSent + commandTimeout)).min?

/-- Before the deadline nothing is due and nothing is expired. -/
theorem lt_nextDeadline_iff : (∀ deadline ∈ queue.nextDeadline, now < deadline) ↔
    ∀ command ∈ queue.pending.values, Alive now command ∧ ¬ Due now command := by
  have hcommand : ∀ command : PendingCommand,
      (now < min command.nextRetry (command.firstSent + commandTimeout)) ↔
        Alive now command ∧ ¬ Due now command := fun command => by
    rw [lt_min_iff, and_comm]
    exact and_congr_right fun _ => not_le.symm
  unfold nextDeadline
  constructor
  · intro h command hc
    refine (hcommand command).1 ?_
    cases hmin : (queue.pending.values.map fun pending =>
        min pending.nextRetry (pending.firstSent + commandTimeout)).min? with
    | none =>
      rw [List.min?_eq_none_iff, List.map_eq_nil_iff] at hmin
      rw [hmin] at hc
      cases hc
    | some deadline =>
      have hle := (List.min?_eq_some_iff.1 hmin).2 _ (List.mem_map_of_mem hc)
      exact (h deadline hmin).trans_le hle
  · intro h deadline hdeadline
    obtain ⟨command, hc, rfl⟩ := List.mem_map.1 (List.min?_eq_some_iff.1 hdeadline).1
    exact (hcommand command).2 (h command hc)

/-- A call that returns nothing found nothing due, and nothing expired. -/
theorem collectDue_eq_nil_iff {queue' : ReliableCommandQueue} :
    collectDue now queue = .ok [] queue' ↔
      (∀ deadline ∈ queue.nextDeadline, now < deadline) ∧ queue' = queue := by
  rw [lt_nextDeadline_iff, collectDue_eq]
  constructor
  · intro h
    split_ifs at h with halive
    have hnone : queue.pending.values.filter (fun command => Due now command) = [] := by
      injection h with hpackets
      exact List.map_eq_nil_iff.1 hpackets
    have hsame : queue.retryAll now queue.pending.values = queue := by
      unfold retryAll
      rw [hnone]
      rfl
    rw [hsame] at h
    injection h with _ hqueue
    refine ⟨fun command hc => ⟨halive command hc, fun hdue => ?_⟩, hqueue.symm⟩
    exact List.filter_eq_nil_iff.1 hnone command hc (decide_eq_true hdue)
  · rintro ⟨h, rfl⟩
    have hnone : queue'.pending.values.filter (fun command => Due now command) = [] :=
      List.filter_eq_nil_iff.2 fun command hc hdue => (h command hc).2 (of_decide_eq_true hdue)
    rw [if_pos fun command hc => (h command hc).1]
    unfold retryAll
    rw [hnone]
    rfl

/-- The call retransmits, or reports the timeout. -/
def MakesProgress (now : TimePoint) (queue : ReliableCommandQueue) : Prop :=
  (∃ packet packets queue', collectDue now queue = .ok (packet :: packets) queue') ∨
    ∃ queue', collectDue now queue = .error timedOut queue'

/-- From the deadline on a call makes progress. -/
theorem makesProgress_of_le {deadline : TimePoint} (hdeadline : queue.nextDeadline = some deadline)
    (h : deadline ≤ now) : queue.MakesProgress now := by
  cases hrun : collectDue now queue with
  | ok packets queue' =>
    cases packets with
    | nil =>
      have hlt := (collectDue_eq_nil_iff.1 hrun).1 deadline hdeadline
      exact absurd hlt (not_lt.2 h)
    | cons packet packets => exact .inl ⟨packet, packets, queue', hrun⟩
  | error failure queue' =>
    refine .inr ⟨queue', ?_⟩
    rw [hrun]
    rw [collectDue_eq] at hrun
    split_ifs at hrun
    cases hrun
    rfl

end ReliableCommandQueue

end TsCli
