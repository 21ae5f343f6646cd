import TsCli.Reliability.CommandHistory
import TsCli.Session.Connection
import TsCli.Session.TransportRules

/-!
# Retransmission in the session

The transport puts commands into the queue in the order of their numbers and, by a clock that does
not go back, of their times (`SentInOrder`), so that a timeout is reported before anything is
retried. Between two looks at the queue the connection waits for its next deadline, rounded up to
milliseconds: what it wakes up for is there.
-/

namespace TsCli

open Exec

namespace SessionTransport

open ReliableCommandQueue PacketLimits

variable {env : Environment} {t : SessionTransport}

/-! ## The order of the send times -/

/-- The pending commands were sent in the order of their keys, by now, and none is numbered behind
the next one. -/
structure SentInOrder (env : Environment) (t : SessionTransport) : Prop where
  ordered : t.reliableCommands.Ordered
  key_le : ∀ k command, t.reliableCommands.pending.find? k = some command →
    k ≤ t.outgoingKey .command
  firstSent_le : ∀ k command, t.reliableCommands.pending.find? k = some command →
    command.firstSent ≤ env.clock t.ticks

/-- Time passes and the sequence advances. -/
theorem SentInOrder.later (h : SentInOrder env t) (hclock : Monotone env.clock)
    {t' : SessionTransport} (hqueue : t'.reliableCommands = t.reliableCommands)
    (hkey : t.outgoingKey .command ≤ t'.outgoingKey .command) (hticks : t.ticks ≤ t'.ticks) :
    SentInOrder env t' where
  ordered := hqueue ▸ h.ordered
  key_le k command hfind := (h.key_le k command (hqueue ▸ hfind)).trans hkey
  firstSent_le k command hfind := (h.firstSent_le k command (hqueue ▸ hfind)).trans (hclock hticks)

theorem SentInOrder.enqueue (h : SentInOrder env t) (hclock : Monotone env.clock)
    (command : PendingCommand) (hid : ¬ t.reliableCommands.contains command.packetId = true)
    (hkey : command.key = t.outgoingKey .command) (hsent : command.firstSent = env.clock t.ticks) :
    SentInOrder env (t.enqueue command hid) := by
  have hfind : ∀ k, (t.enqueue command hid).reliableCommands.pending.find? k =
      if k = command.key then some command else t.reliableCommands.pending.find? k :=
    find?_insert hid
  have hnow : env.clock t.ticks ≤ env.clock (t.ticks + 1) := hclock (Nat.le_succ _)
  refine ⟨fun k k' c c' hk hk' hle => ?_, fun k c hk => ?_, fun k c hk => ?_⟩
  · rw [hfind] at hk hk'
    split_ifs at hk hk' with hnew hnew' hnew'
    · cases hk
      cases hk'
      exact le_refl _
    · -- the new command has the greatest key
      have hge := h.key_le k' c' hk'
      rw [← hkey, ← hnew] at hge
      exact absurd (hnew ▸ le_antisymm hge hle) hnew'
    · cases hk'
      rw [hsent]
      exact h.firstSent_le k c hk
    · exact h.ordered k k' c c' hk hk' hle
  · rw [hfind] at hk
    split_ifs at hk with hnew
    · exact (hnew.trans hkey).le
    · exact h.key_le k c hk
  · rw [hfind] at hk
    split_ifs at hk with hnew
    · cases hk
      exact hsent.trans_le hnow
    · exact (h.firstSent_le k c hk).trans hnow

/-- `SendCommandPacket` keeps the order, whether it returns or throws. -/
theorem wp_sendCommandPacket_inOrder (h : SentInOrder env t) (hclock : Monotone env.clock)
    {data : Bytes} {flags : PacketFlags} (hdata : data.length ≤ 2147483647) :
    wp (sendCommandPacket env data flags) (fun _ t' => SentInOrder env t')
      (fun _ t' => SentInOrder env t') t := by
  refine wp_sendCommandPacket hdata (fun _ _ => h.later hclock rfl le_rfl (Nat.le_succ _))
    fun _ command hid hkey _ _ hsent => ?_
  have henqueued := h.enqueue hclock command hid hkey hsent
  refine wp_transmit (fun _ _ => henqueued.later hclock rfl le_rfl le_rfl)
    (fun _ hlt t' htransmitted hout => ?_) fun _ _ _ t' htransmitted hout => ?_
  · refine henqueued.later hclock htransmitted.reliableCommands ?_ htransmitted.ticks
    unfold outgoingKey
    rw [hout, Function.update_self, PacketSequence.key_ofKey hlt]
    exact Nat.le_succ _
  · refine henqueued.later hclock htransmitted.reliableCommands ?_ htransmitted.ticks
    unfold outgoingKey
    rw [hout]

theorem wp_sendFragments_inOrder (hclock : Monotone env.clock) {data : Bytes}
    (hdata : data.length ≤ maxCommandSize) (fragments : List CommandFragment)
    (lastPacketId : UInt16) {t : SessionTransport} (h : SentInOrder env t) :
    wp (sendFragments env data lastPacketId fragments) (fun _ t' => SentInOrder env t')
      (fun _ t' => SentInOrder env t') t := by
  induction fragments generalizing lastPacketId t with
  | nil => exact h
  | cons fragment fragments ih =>
    rw [sendFragments, wp_bind]
    refine wp_mono (wp_sendCommandPacket_inOrder h hclock (length_fragment_le hdata fragment))
      (fun packetId t' h' => ih packetId h') fun _ _ h' => h'

/-- `SendCommand` keeps the order as well. -/
theorem SentInOrder.sendCommand (h : SentInOrder env t) (hclock : Monotone env.clock) (data : Bytes) :
    SentInOrder env (final (sendCommand env data) t) := by
  refine wp_final.1 ?_
  unfold SessionTransport.sendCommand
  rw [wp_bind, wp_lift]
  refine ⟨fun fragments hplan => ?_, fun _ _ => h⟩
  have hdata : data.length ≤ maxCommandSize := by
    by_contra hlong
    rw [CommandFragmenter.plan_of_lt (not_le.1 hlong)] at hplan
    cases hplan
  exact wp_sendFragments_inOrder hclock hdata fragments 0 h

/-- **The retransmission schedule.** After any calls, each sending was returned at most nine times,
on schedule and before the timeout; a call returns the packets of its sendings as they were added;
while the send times are ordered, a call that throws has changed nothing; and `SendCommand` keeps
them ordered. -/
theorem retransmission_schedule (operations : List ReliableCommandQueue.Operation) :
    let h := History.of operations
    (∀ sending ∈ h.sendings, sending.returned.length ≤ 9 ∧
      Schedule sending.sentAt sending.returned) ∧
    (∀ now packets queue', collectDue now h.queue = .ok packets queue' →
      ∃ returned : List Sending,
        returned.Perm (h.live.filter fun sending => h.Returns now sending) ∧
        (returned.map Sending.key).Pairwise (· < ·) ∧ packets = returned.map Sending.packet) ∧
    (∀ now failure queue', h.queue.Ordered → collectDue now h.queue = .error failure queue' →
      queue' = h.queue) ∧
    ∀ (env : Environment) (t : SessionTransport) (data : Bytes), Monotone env.clock →
      SentInOrder env t → SentInOrder env (final (sendCommand env data) t) := by
  intro h
  have ht : h.Tracks := History.tracks_of operations
  refine ⟨fun sending hs => ?_, fun now packets queue' hrun => ht.exists_returned hrun,
    fun now failure queue' hordered hrun => eq_of_collectDue_error hordered hrun,
    fun env t data hclock horder => horder.sendCommand hclock data⟩
  have hschedule := ht.schedule sending hs
  exact ⟨hschedule.length_le, hschedule⟩

/-! ## Waking up -/

/-- Rounding up to milliseconds adds less than one. -/
theorem ceilMilliseconds_bounds (duration : ℤ) :
    duration ≤ ceilMilliseconds duration ∧ ceilMilliseconds duration < duration + milliseconds 1 := by
  unfold ceilMilliseconds milliseconds
  omega

/-- The wait that both `Poll` and `WaitTimeout` compute at a time. -/
def waitAt (queue : ReliableCommandQueue) (maximum : ℤ) (now : TimePoint) : ℤ :=
  match queue.nextDeadline with
  | none => maximum
  | some deadline => if deadline ≤ now then 0 else min maximum (ceilMilliseconds (deadline - now))

theorem waitTimeout_eq {maximum wait : ℤ} {t' : SessionTransport}
    (h : waitTimeout env maximum t = .ok wait t') :
    wait = waitAt t.reliableCommands maximum (env.clock t.ticks) ∧
      t'.reliableCommands = t.reliableCommands := by
  unfold waitTimeout at h
  rw [run_get_bind] at h
  unfold waitAt
  have hdeadline : t.nextDeadline = t.reliableCommands.nextDeadline := rfl
  rw [← hdeadline]
  cases hnext : t.nextDeadline with
  | none =>
    rw [hnext] at h
    cases h
    exact ⟨rfl, rfl⟩
  | some deadline =>
    rw [hnext] at h
    cases h
    exact ⟨rfl, rfl⟩

theorem pollWait_eq {session session' : TsCli.Session} {maximum wait : ℤ}
    (h : TsCli.Session.waitTimeout env maximum session = .ok wait session') :
    wait = waitAt session.transport.reliableCommands maximum (env.clock session.transport.ticks) ∧
      session'.transport.reliableCommands = session.transport.reliableCommands := by
  unfold TsCli.Session.waitTimeout at h
  rw [run_get_bind] at h
  unfold waitAt
  have hdeadline : session.transport.nextDeadline =
      session.transport.reliableCommands.nextDeadline := rfl
  rw [← hdeadline]
  cases hnext : session.transport.nextDeadline with
  | none =>
    rw [hnext] at h
    cases h
    exact ⟨rfl, rfl⟩
  | some deadline =>
    rw [hnext] at h
    cases h
    exact ⟨rfl, rfl⟩

/-- A wait that is not cut off at the maximum ends when the queue has something to do, less than a
millisecond late; and without a wait it has so at once. -/
theorem waitAt_spec (queue : ReliableCommandQueue) (maximum : ℤ) (now : TimePoint) :
    (waitAt queue maximum now < maximum →
      ∀ later, now + waitAt queue maximum now ≤ later → queue.MakesProgress later) ∧
    (∀ deadline, queue.nextDeadline = some deadline → now < deadline →
      now + waitAt queue maximum now < deadline + milliseconds 1) ∧
    (0 < maximum → waitAt queue maximum now = 0 → queue.MakesProgress now) := by
  unfold waitAt
  cases hnext : queue.nextDeadline with
  | none => exact ⟨fun h => absurd h (lt_irrefl _), nofun, fun h h' => absurd h' h.ne'⟩
  | some deadline =>
    obtain ⟨hle, hlt⟩ := ceilMilliseconds_bounds (deadline - now)
    dsimp only
    by_cases hdue : deadline ≤ now
    · rw [if_pos hdue]
      refine ⟨fun _ later hlater => ?_, fun _ h h' => ?_, fun _ _ => makesProgress_of_le hnext hdue⟩
      · rw [add_zero] at hlater
        exact makesProgress_of_le hnext (hdue.trans hlater)
      · cases h
        exact absurd hdue (not_le.2 h')
    · rw [if_neg hdue]
      refine ⟨fun hcut later hlater => makesProgress_of_le hnext ?_, fun _ h h' => ?_,
        fun hpos hzero => ?_⟩
      · rw [min_eq_right ((min_lt_iff.1 hcut).resolve_left (lt_irrefl _)).le] at hlater
        linarith
      · cases h
        have := min_le_right maximum (ceilMilliseconds (deadline - now))
        linarith
      · have hwait : 0 < ceilMilliseconds (deadline - now) := by
          have := not_le.1 hdue
          linarith
        exact absurd hzero (lt_min hpos hwait).ne'

/-- **The wake-up deadline.** `CollectDue` returns nothing exactly before the next deadline, and
then it changes nothing. A wait of `Poll` or `WaitTimeout` that runs to its end before the maximum
ends at the deadline, rounded up to milliseconds, when `CollectDue` makes progress. -/
theorem deadline_exact (queue : ReliableCommandQueue) :
    (∀ now, (∃ queue', collectDue now queue = .ok [] queue') ↔
      queue.pending.size = 0 ∨ ∃ deadline, queue.nextDeadline = some deadline ∧ now < deadline) ∧
    (∀ now queue', collectDue now queue = .ok [] queue' → queue' = queue) ∧
    ∀ (env : Environment) (maximum wait : ℤ) (now : TimePoint),
      (∃ t t', t.reliableCommands = queue ∧ env.clock t.ticks = now ∧
          waitTimeout env maximum t = .ok wait t') ∨
        (∃ session session' : TsCli.Session, session.transport.reliableCommands = queue ∧
          env.clock session.transport.ticks = now ∧
          TsCli.Session.waitTimeout env maximum session = .ok wait session') →
      (wait < maximum → ∀ later, now + wait ≤ later → queue.MakesProgress later) ∧
      (∀ deadline, queue.nextDeadline = some deadline → now < deadline →
        now + wait < deadline + milliseconds 1) ∧
      (0 < maximum → wait = 0 → queue.MakesProgress now) := by
  have hsize : queue.nextDeadline = none ↔ queue.pending.size = 0 := by
    unfold ReliableCommandQueue.nextDeadline
    rw [List.min?_eq_none_iff, List.map_eq_nil_iff, ← Registry.length_values,
      List.length_eq_zero_iff]
  refine ⟨fun now => ?_, fun now queue' h => (collectDue_eq_nil_iff.1 h).2,
    fun env maximum wait now h => ?_⟩
  · simp only [collectDue_eq_nil_iff]
    rw [← hsize]
    cases hnext : queue.nextDeadline with
    | none => simp
    | some deadline => simp
  · have hwait : wait = waitAt queue maximum now := by
      obtain ⟨t, t', rfl, rfl, h⟩ | ⟨session, session', rfl, rfl, h⟩ := h
      · exact (waitTimeout_eq h).1
      · exact (pollWait_eq h).1
    rw [hwait]
    exact waitAt_spec queue maximum now

end SessionTransport

end TsCli
