import TsCli.Lib.Prober
import TsCli.Session.NonceReuse
import TsCli.Session.Transmissions

/-!
# Keepalive

A `Record` keeps what a run of the transport has done: when it sent pings, which of them a Pong
measured, and how much it had sent when each pending command was queued. To it the transport is a
`Prober`, whose probes are the pings: every call is one of its steps (`exists_prober_step`). The
pings carry consecutive numbers, of which there are more than a clock of 64 bits has seconds.
-/

namespace TsCli.SessionTransport

open Exec PacketLimits

/-- The pings that were sent. -/
def pings (t : SessionTransport) : List Packet :=
  t.sent.filter fun packet => packet.position.type = .ping

/-- A transport and what it has done. -/
structure Record where
  transport : SessionTransport
  /-- The times at which the pings were sent. -/
  pingTimes : List TimePoint := []
  /-- Those among them of the pings that a Pong measured. -/
  measured : List TimePoint := []
  queuedAt : ℕ → ℕ := fun _ => 0

/-- A call measures the ping that was outstanding. -/
def MeasuresPing (t t' : SessionTransport) : Prop :=
  t'.statistics.rtt.length = t.statistics.rtt.length + 1 ∧ t'.pendingPing = none

instance (t t' : SessionTransport) : Decidable (MeasuresPing t t') :=
  inferInstanceAs (Decidable (_ ∧ _))

namespace Record

/-- The record when a call leads to a state. A call that sends a ping sends it at its first look at
the clock. -/
def advance (env : Environment) (r : Record) (t' : SessionTransport) : Record where
  transport := t'
  pingTimes := r.pingTimes ++
    List.replicate (t'.pings.length - r.transport.pings.length) (env.clock r.transport.ticks)
  measured := r.measured ++
    if MeasuresPing r.transport t' then (r.transport.pendingPing.map PendingPing.sentAt).toList
    else []
  queuedAt := r.transport.logged r.queuedAt

/-- The record after a call. -/
def step (env : Environment) (r : Record) (operation : Operation) : Record :=
  r.advance env (r.transport.step env operation)

/-- The record of a run from the construction of the transport. -/
def of (env : Environment) (sequences : PacketSequenceState) (operations : List Operation) : Record :=
  operations.foldl (Record.step env) { transport := { sequences } }

/-- The transport as a side that probes. -/
def prober (r : Record) : Prober TimePoint where
  active := r.transport.connected
  heard := r.transport.lastReceiveAt
  outstanding := r.transport.pendingPing.map PendingPing.sentAt
  probes := r.pingTimes
  measured := r.measured

end Record

variable {env : Environment} {t t' : SessionTransport} {queuedAt : ℕ → ℕ} {operation : Operation}

/-! ## The pings of a call -/

/-- Packets of other types are no pings. -/
theorem pings_eq {more : List Packet} (hsent : t'.sent = t.sent ++ more)
    (hmore : ∀ packet ∈ more, packet.position.type ≠ .ping) : t'.pings = t.pings := by
  have hnone : more.filter (fun packet => packet.position.type = .ping) = [] :=
    List.filter_eq_nil_iff.2 fun packet hmem htype => hmore packet hmem (of_decide_eq_true htype)
  unfold pings
  rw [hsent, List.filter_append, hnone, List.append_nil]

theorem pings_append {ping : Packet} (hsent : t'.sent = t.sent ++ [ping])
    (htype : ping.position.type = .ping) : t'.pings = t.pings ++ [ping] := by
  have hone : [ping].filter (fun packet => packet.position.type = .ping) = [ping] :=
    List.filter_cons_of_pos (decide_eq_true htype)
  unfold pings
  rw [hsent, List.filter_append, hone]

/-- No ping is sent by the call, and none becomes outstanding. -/
structure NoPing (t t' : SessionTransport) : Prop where
  pings : t'.pings = t.pings
  key : t'.outgoingKey .ping = t.outgoingKey .ping
  pendingPing : ∀ pendingPing, t'.pendingPing = some pendingPing → t.pendingPing = some pendingPing

/-- One ping is sent by the call, and is outstanding. -/
structure OnePing (time : TimePoint) (ping : Packet) (t t' : SessionTransport) : Prop where
  connected : t.connected = true
  empty : t.reliableCommands.pending.size = 0
  pings : t'.pings = t.pings ++ [ping]
  position : ping.position = positionOf .ping (t.sequences.outgoing .ping)
  key : t'.outgoingKey .ping = t.outgoingKey .ping + 1
  pendingPing : t'.pendingPing = some { packetId := ping.position.packetId, sentAt := time }

theorem Quiet.noPing (h : Quiet env t t') : NoPing t t' where
  pings := by
    obtain ⟨more, hsent, hmore⟩ := h.sent
    exact pings_eq hsent fun packet hmem => (hmore packet hmem).1
  key := by
    unfold outgoingKey
    rw [h.outgoing .ping (by decide)]
  pendingPing _ hpending := h.pendingPing ▸ hpending

theorem Emits.noPing {type : PacketType} (h : Emits type t t') (htype : type ≠ .ping) :
    NoPing t t' where
  pings := by
    obtain ⟨more, hsent, hmore⟩ := h.sent
    exact pings_eq hsent fun packet hmem => hmore packet hmem ▸ htype
  key := by
    unfold outgoingKey
    rw [h.outgoing .ping htype.symm]
  pendingPing _ hpending := h.pendingPing ▸ hpending

theorem probes_pings {time : TimePoint} (hlt : t.outgoingKey .ping + 1 < 2 ^ 48)
    (h : Probes time t t') : NoPing t t' ∨ ∃ ping, OnePing time ping t t' := by
  cases h with
  | idle => exact .inl ⟨rfl, rfl, fun _ => id⟩
  | retire => exact .inl ⟨rfl, rfl, nofun⟩
  | fail => exact .inl ⟨rfl, rfl, nofun⟩
  | @ping hconnected hempty _ packet hposition u hsent hout =>
    refine .inr ⟨packet, hconnected, hempty, pings_append hsent.sent (by rw [hposition]; rfl),
      hposition, ?_, by rw [hposition]; rfl⟩
    show (u.sequences.outgoing .ping).key = _
    rw [hout, Function.update_self, PacketSequence.key_ofKey hlt]

/-- The packets that are handed out are no pings. -/
theorem resend_noPing {packets : List Packet} {queue : ReliableCommandQueue}
    (hcounted : Counted t queuedAt)
    (hcollect : ReliableCommandQueue.collectDue (env.clock t.ticks) t.reliableCommands =
      .ok packets queue)
    (hresend : Resends packets { t with ticks := t.ticks + 1, reliableCommands := queue } t') :
    NoPing t t' where
  pings := by
    obtain ⟨front, hfront, hsent⟩ := hresend.sent
    refine pings_eq (t := t) hsent fun packet hmem => ?_
    obtain ⟨command, hpending, -, rfl⟩ := exists_due_of_mem hcollect (hfront.subset hmem)
    rw [(hcounted.position _ command hpending).1]
    exact PacketType.noConfusion
  key := by
    unfold outgoingKey
    rw [hresend.outgoing]
  pendingPing _ hpending := hresend.pendingPing ▸ hpending

/-- **The pings of a call**: only `ProcessTimers` sends one. -/
theorem Effect.pings (h : Effect env t operation t') (hcounted : Counted t queuedAt)
    (hlt : t.outgoingKey .ping + 1 < 2 ^ 48) :
    NoPing t t' ∨ operation = .processTimers ∧ ∃ ping, OnePing (env.clock t.ticks) ping t t' := by
  cases h with
  | quiet h => exact .inl h.noPing
  | command h => exact .inl (h.noPing (by decide))
  | release _ h => exact .inl ⟨h.noPing.pings, h.noPing.key, h.noPing.pendingPing⟩
  | ack _ _ _ _ _ h => exact .inl ⟨h.noPing.pings, h.noPing.key, h.noPing.pendingPing⟩
  | pong => exact .inl ⟨rfl, rfl, nofun⟩
  | expired => exact .inl ⟨rfl, rfl, fun _ => id⟩
  | @timers packets queue u _ hcollect hresend h =>
    have hresent := resend_noPing hcounted hcollect hresend
    rw [← hresent.key] at hlt
    rcases probes_pings hlt h with hnone | ⟨ping, hone⟩
    · exact .inl ⟨hnone.pings.trans hresent.pings, hnone.key.trans hresent.key,
        fun pendingPing hpending => hresent.pendingPing _ (hnone.pendingPing _ hpending)⟩
    · refine .inr ⟨rfl, ping, ?_⟩
      have hsize : queue.pending.size = t.reliableCommands.pending.size := by
        have := ReliableCommandQueue.size_collectDue (env.clock t.ticks) t.reliableCommands
        rwa [final_of_eq_ok hcollect] at this
      refine ⟨hresend.connected ▸ hone.connected, ?_, by rw [hone.pings, hresent.pings], ?_,
        by rw [hone.key, hresent.key], hone.pendingPing⟩
      · have hempty := hone.empty
        rw [hresend.reliableCommands] at hempty
        exact hsize.symm.trans hempty
      · rw [hone.position, hresend.outgoing]
  | connect => exact .inl ⟨rfl, rfl, nofun⟩

/-! ## The invariant -/

/-- What holds of a record whose pings are numbered from `first`. -/
structure Record.Sound (env : Environment) (first : ℕ) (r : Record) : Prop where
  prober : Prober.Good pingInterval (env.clock r.transport.ticks) r.prober
  since : ∀ time ∈ r.pingTimes, env.clock 0 ≤ time
  counted : r.pingTimes.length = r.transport.pings.length
  outgoing : r.transport.outgoingKey .ping = first + r.transport.pings.length
  keys : r.transport.pings.map (fun ping => ping.position.key) =
    List.range' first r.transport.pings.length
  outstanding : ∀ pendingPing, r.transport.pendingPing = some pendingPing →
    ∃ ping, r.transport.pings.getLast? = some ping ∧
      ping.position.packetId = pendingPing.packetId
  inOrder : SentInOrder env r.transport
  log : Counted r.transport r.queuedAt

/-- At the start no command is pending. -/
theorem find?_start_ne (sequences : PacketSequenceState) (k : ℕ) (command : PendingCommand) :
    ({ sequences } : SessionTransport).reliableCommands.pending.find? k ≠ some command := by
  have hempty : ({ sequences } : SessionTransport).reliableCommands.pending.find? k = none :=
    Registry.find?_empty k
  rw [hempty]
  exact Option.some_ne_none command |>.symm

theorem sound_start (env : Environment) (sequences : PacketSequenceState) :
    Record.Sound env (sequences.outgoing .ping).key { transport := { sequences } } where
  prober := Prober.good_start ..
  since := nofun
  counted := rfl
  outgoing := (Nat.add_zero _).symm
  keys := rfl
  outstanding := nofun
  inOrder :=
    ⟨fun k _ command _ hfind => absurd hfind (find?_start_ne sequences k command),
      fun k command hfind => absurd hfind (find?_start_ne sequences k command),
      fun k command hfind => absurd hfind (find?_start_ne sequences k command)⟩
  log :=
    ⟨fun k command hfind => absurd hfind (find?_start_ne sequences k command), fun _ => le_rfl,
      fun command hfind => absurd hfind (find?_start_ne sequences command.key command)⟩

variable {r : Record} {first : ℕ}

/-- In the time that 64 bits can tell, the pings do not run out of numbers. -/
theorem Record.Sound.outgoing_lt (h : r.Sound env first)
    (hrange : ∀ tick, -2 ^ 63 ≤ env.clock tick ∧ env.clock tick < 2 ^ 63) (hfirst : first ≤ 2 ^ 47) :
    r.transport.outgoingKey .ping + 1 < 2 ^ 48 := by
  have hlength : (r.pingTimes.length : ℤ) ≤ 2 ^ 35 := by
    by_cases hempty : r.pingTimes = []
    · rw [hempty]
      norm_num
    · have hspan := nsmul_le_of_spaced h.prober.spaced (fun time htime =>
        ⟨h.since time htime, h.prober.past time htime⟩) hempty
      have hlow := (hrange 0).1
      have hhigh := (hrange r.transport.ticks).2
      have hinterval : pingInterval = 1000000000 := rfl
      rw [hinterval] at hspan
      have hprobes : r.prober.probes = r.pingTimes := rfl
      rw [hprobes] at hspan
      norm_num at hlow hhigh ⊢
      linarith
  rw [h.outgoing, ← h.counted]
  have hnat : r.pingTimes.length ≤ 2 ^ 35 := by exact_mod_cast hlength
  norm_num at hnat hfirst ⊢
  omega

theorem rtt_measure {since : TimePoint} (h : since ≤ env.clock t.ticks) :
    (measure env since t).statistics.rtt = t.statistics.rtt ++ [env.clock t.ticks - since] := by
  have hnonneg : ¬ env.clock t.ticks - since < 0 := not_lt.2 (sub_nonneg.2 h)
  show (t.statistics.recordRtt _).rtt = _
  unfold ConnectionStatistics.recordRtt
  rw [if_neg hnonneg]

/-- The outstanding ping is the last one. -/
theorem Record.Sound.getLast? (h : r.Sound env first) {pendingPing : PendingPing}
    (hpending : r.transport.pendingPing = some pendingPing) :
    r.pingTimes.getLast? = some pendingPing.sentAt := by
  refine h.prober.last pendingPing.sentAt ?_
  show r.transport.pendingPing.map PendingPing.sentAt = _
  rw [hpending]
  rfl

theorem Record.Sound.sentAt_le (h : r.Sound env first) {pendingPing : PendingPing}
    (hpending : r.transport.pendingPing = some pendingPing) :
    pendingPing.sentAt ≤ env.clock r.transport.ticks :=
  h.prober.past _ (List.mem_of_getLast? (h.getLast? hpending))

/-- A ping was sent, so that the transport is connected. -/
theorem Record.Sound.connected (h : r.Sound env first) {pendingPing : PendingPing}
    (hpending : r.transport.pendingPing = some pendingPing) : r.transport.connected = true := by
  by_contra hconnected
  have hprobes : r.pingTimes = [] := h.prober.inactive (Bool.not_eq_true _ ▸ hconnected)
  have hlast := h.getLast? hpending
  rw [hprobes] at hlast
  cases hlast

/-! ## The transport is a prober -/

/-- A call that sends no ping and measures none. -/
theorem prober_advance (env : Environment) (hpings : t'.pings = r.transport.pings)
    (hmeasured : MeasuresPing r.transport t' → r.transport.pendingPing = none) :
    (r.advance env t').prober =
      { r.prober with
        active := t'.connected
        heard := t'.lastReceiveAt
        outstanding := t'.pendingPing.map PendingPing.sentAt } := by
  have hnone : (if MeasuresPing r.transport t' then
      (r.transport.pendingPing.map PendingPing.sentAt).toList else []) = [] := by
    split_ifs with h
    · rw [hmeasured h]
      rfl
    · rfl
  unfold Record.advance Record.prober
  rw [hnone, hpings, Nat.sub_self, List.replicate_zero, List.append_nil, List.append_nil]

/-- A call that sends one ping, which is outstanding then. -/
theorem prober_ping (env : Environment) (ping : Packet) (packetId : UInt16) {time : TimePoint}
    (hpings : t'.pings = r.transport.pings ++ [ping])
    (hconnected : t'.connected = r.transport.connected)
    (hheard : t'.lastReceiveAt = r.transport.lastReceiveAt)
    (hpending : t'.pendingPing = some { packetId, sentAt := time }) :
    (r.advance env t').prober =
      { r.prober with
        outstanding := some time
        probes := r.pingTimes ++ [env.clock r.transport.ticks] } := by
  have hmeasures : ¬ MeasuresPing r.transport t' := fun h => by
    have hnone := h.2
    rw [hpending] at hnone
    cases hnone
  unfold Record.advance Record.prober
  rw [if_neg hmeasures, hpings, List.length_append, Nat.add_sub_cancel_left, List.append_nil,
    hconnected, hheard, hpending]
  rfl

/-- The step of the prober that a call is. -/
def ProberStep (env : Environment) (r : Record) (t' : SessionTransport) : Prop :=
  ∃ time, env.clock r.transport.ticks ≤ time ∧ time ≤ env.clock t'.ticks ∧
    Prober.Step pingInterval time r.prober (r.advance env t').prober

/-- A call that at most hears something. -/
theorem proberStep_of_heard (hclock : Monotone env.clock) (hpings : t'.pings = r.transport.pings)
    (hconnected : t'.connected = r.transport.connected)
    (hpending : t'.pendingPing = r.transport.pendingPing) (hticks : r.transport.ticks ≤ t'.ticks)
    (hheard : t'.lastReceiveAt = r.transport.lastReceiveAt ∨ r.transport.connected = true ∧
      ∃ tick, r.transport.ticks ≤ tick ∧ tick ≤ t'.ticks ∧ t'.lastReceiveAt = env.clock tick) :
    ProberStep env r t' := by
  have hprober := prober_advance env hpings fun h => hpending ▸ h.2
  rw [hconnected, hpending] at hprober
  rcases hheard with hsame | ⟨hactive, tick, hle, hle', htime⟩
  · rw [hsame] at hprober
    refine ⟨_, le_rfl, hclock hticks, ?_⟩
    rw [hprober]
    exact .idle _
  · rw [htime] at hprober
    refine ⟨_, hclock hle, hclock hle', ?_⟩
    rw [hprober]
    exact .hear hactive

/-- A call that takes the outstanding ping away, if there is one. -/
theorem prober_clear (env : Environment) (hpings : t'.pings = r.transport.pings)
    (hconnected : t'.connected = r.transport.connected)
    (hheard : t'.lastReceiveAt = r.transport.lastReceiveAt)
    (hrtt : t'.statistics.rtt = r.transport.statistics.rtt) (hpending : t'.pendingPing = none) :
    (r.advance env t').prober = { r.prober with outstanding := none } := by
  have hprober := prober_advance env hpings fun h : MeasuresPing r.transport t' =>
    absurd h.1 (by rw [hrtt]; exact (Nat.succ_ne_self _).symm)
  rw [hconnected, hheard, hpending] at hprober
  exact hprober

/-- What a Pong does. -/
theorem proberStep_pong (h : r.Sound env first) (hclock : Monotone env.clock)
    (packet : ServerPacket) {pendingPing : PendingPing}
    (hpending : r.transport.pendingPing = some pendingPing) :
    ProberStep env r
      (hear env packet { measure env pendingPing.sentAt r.transport with pendingPing := none }) := by
  have hconnected := h.connected hpending
  have hmeasures : MeasuresPing r.transport
      (hear env packet { measure env pendingPing.sentAt r.transport with pendingPing := none }) := by
    refine ⟨?_, rfl⟩
    rw [hear, ConnectionStatistics.rtt_recordReceived]
    show (measure env pendingPing.sentAt r.transport).statistics.rtt.length = _
    rw [rtt_measure (h.sentAt_le hpending), List.length_append, List.length_singleton]
  have hprober : (r.advance env (hear env packet
      { measure env pendingPing.sentAt r.transport with pendingPing := none })).prober =
      { r.prober with
        heard := env.clock (r.transport.ticks + 1)
        outstanding := none
        measured := r.measured ++ [pendingPing.sentAt] } := by
    unfold Record.advance Record.prober
    rw [if_pos hmeasures, hpending]
    have hheard : (hear env packet { measure env pendingPing.sentAt r.transport with
        pendingPing := none }).lastReceiveAt = env.clock (r.transport.ticks + 1) := if_pos hconnected
    have hpings : (hear env packet { measure env pendingPing.sentAt r.transport with
        pendingPing := none }).pings = r.transport.pings := rfl
    rw [hpings, Nat.sub_self, List.replicate_zero, List.append_nil, hheard]
    rfl
  refine ⟨_, hclock (Nat.le_succ _), hclock (Nat.le_succ _), ?_⟩
  rw [hprober]
  exact .answer (by unfold Record.prober; rw [hpending]; rfl)

/-- What is due for the transport is due for the prober. -/
theorem pingDue_prober {time : TimePoint} {u : SessionTransport}
    (hpending : u.pendingPing = r.transport.pendingPing)
    (hheard : u.lastReceiveAt = r.transport.lastReceiveAt) (h : PingDue time u) :
    (∀ sent ∈ r.prober.outstanding, sent + pingInterval ≤ time) ∧
      (r.prober.outstanding = none → r.prober.heard + pingInterval ≤ time) := by
  obtain ⟨hold, hsilent⟩ := h
  rw [hpending] at hold hsilent
  rw [hheard] at hsilent
  constructor
  · intro sent hsent
    obtain ⟨pendingPing, hmem, rfl⟩ := Option.map_eq_some_iff.1 hsent
    have hgap := hold pendingPing hmem
    linarith
  · intro hnone
    have hgap := hsilent (Option.map_eq_none_iff.1 hnone)
    show r.transport.lastReceiveAt + pingInterval ≤ time
    linarith

/-- What `ProcessTimers` does. -/
theorem proberStep_timers (h : r.Sound env first) (hclock : Monotone env.clock)
    {packets : List Packet} {queue : ReliableCommandQueue} {u : SessionTransport}
    (hcollect : ReliableCommandQueue.collectDue (env.clock r.transport.ticks)
      r.transport.reliableCommands = .ok packets queue)
    (hresend : Resends packets
      { r.transport with ticks := r.transport.ticks + 1, reliableCommands := queue } u)
    (hprobes : Probes (env.clock r.transport.ticks) u t') : ProberStep env r t' := by
  have hpings := (resend_noPing h.log hcollect hresend).pings
  have hticks : r.transport.ticks ≤ u.ticks := (Nat.le_succ _).trans hresend.ticks
  have hcleared : ∀ attempts, (r.advance env { u with attempts, pendingPing := none }).prober =
      { r.prober with outstanding := none } := fun _ =>
    prober_clear env hpings hresend.connected hresend.lastReceiveAt hresend.rtt rfl
  cases hprobes with
  | idle =>
    exact proberStep_of_heard hclock hpings hresend.connected hresend.pendingPing hticks
      (.inl hresend.lastReceiveAt)
  | @retire pendingPing hpending hheard =>
    rw [hresend.pendingPing] at hpending
    rw [hresend.lastReceiveAt] at hheard
    have houtstanding : r.prober.outstanding = some pendingPing.sentAt := by
      unfold Record.prober
      rw [hpending]
      rfl
    refine ⟨_, le_rfl, hclock hticks, ?_⟩
    rw [hcleared u.attempts]
    exact .retire houtstanding hheard
  | fail hdue =>
    obtain ⟨hold, -⟩ := pingDue_prober hresend.pendingPing hresend.lastReceiveAt hdue
    refine ⟨_, le_rfl, hclock hticks, ?_⟩
    rw [hcleared (u.attempts + 1)]
    cases houtstanding : r.prober.outstanding with
    | some sent => exact .fail houtstanding (hold sent houtstanding)
    | none =>
      rw [← houtstanding]
      exact .idle _
  | @ping hconnected _ hdue packet hposition v hsent hout =>
    obtain ⟨hold, hsilent⟩ := pingDue_prober hresend.pendingPing hresend.lastReceiveAt hdue
    have hactive : r.prober.active = true := hresend.connected.symm.trans hconnected
    refine ⟨_, le_rfl, hclock (hticks.trans hsent.ticks), ?_⟩
    have hprober : (r.advance env { v with pendingPing := some {
        packetId := (u.sequences.outgoing .ping).packetId
        sentAt := env.clock r.transport.ticks } }).prober = { r.prober with
          outstanding := some (env.clock r.transport.ticks)
          probes := r.pingTimes ++ [env.clock r.transport.ticks] } := by
      have hping := pings_append (t := u) hsent.sent (by rw [hposition]; rfl)
      refine prober_ping env packet (u.sequences.outgoing .ping).packetId ?_ ?_ ?_ ?_
      · exact hping.trans (by rw [hpings])
      · exact hsent.connected.trans hresend.connected
      · exact hsent.lastReceiveAt.trans hresend.lastReceiveAt
      · rfl
    rw [hprober]
    exact .probe hactive hold hsilent

/-- **Every call is a step of the prober.** -/
theorem proberStep_effect (h : r.Sound env first) (hclock : Monotone env.clock)
    (hconnect : operation = .setConnected → r.transport.connected = false)
    (heffect : Effect env r.transport operation t') : ProberStep env r t' := by
  cases heffect with
  | quiet h =>
    exact proberStep_of_heard hclock h.noPing.pings h.connected h.pendingPing h.ticks h.heard
  | command h =>
    exact proberStep_of_heard hclock (h.noPing (by decide)).pings h.connected h.pendingPing h.ticks
      (.inl h.lastReceiveAt)
  | release _ h =>
    exact proberStep_of_heard hclock h.noPing.pings h.connected h.pendingPing h.ticks h.heard
  | ack _ _ _ _ _ h =>
    refine proberStep_of_heard hclock h.noPing.pings h.connected h.pendingPing
      ((Nat.le_succ _).trans h.ticks) ?_
    exact h.heard.imp_right fun ⟨hactive, tick, hle, hle', htime⟩ =>
      ⟨hactive, tick, (Nat.le_succ _).trans hle, hle', htime⟩
  | pong _ _ _ hpending => exact proberStep_pong h hclock _ hpending
  | expired => exact proberStep_of_heard hclock rfl rfl rfl (Nat.le_succ _) (.inl rfl)
  | timers hcollect hresend hprobes =>
    exact proberStep_timers h hclock hcollect hresend hprobes
  | connect =>
    refine ⟨env.clock r.transport.ticks, le_rfl, hclock (Nat.le_succ _), ?_⟩
    have hrtt : ([] : List ℤ).length ≠ r.transport.statistics.rtt.length + 1 :=
      (Nat.succ_ne_zero _).symm
    rw [prober_advance env]
    · exact .start (hconnect rfl)
    · rfl
    · exact fun h => absurd h.1 hrtt

/-- **A call keeps the invariant**, when `SetConnected` is called only before it. -/
theorem Record.Sound.step (h : r.Sound env first) (hclock : Monotone env.clock)
    (hlt : r.transport.outgoingKey .ping + 1 < 2 ^ 48)
    (hconnect : operation = .setConnected → r.transport.connected = false) :
    (r.step env operation).Sound env first := by
  have heffect : Effect env r.transport operation (r.transport.step env operation) :=
    effect_step hlt operation
  obtain ⟨time, hle, hle', hprober⟩ := proberStep_effect h hclock hconnect heffect
  have hinterval : (0 : ℤ) ≤ pingInterval := by decide
  have hpings := heffect.pings h.log hlt
  refine ⟨((h.prober.later hle).step hinterval hprober).later hle', ?_, ?_, ?_, ?_, ?_,
    h.inOrder.step hclock h.log hlt operation, h.log.step h.inOrder.ordered hlt operation⟩
  · intro sentAt hmem
    rcases List.mem_append.1 hmem with hmem | hmem
    · exact h.since _ hmem
    · rw [List.eq_of_mem_replicate hmem]
      exact hclock (Nat.zero_le _)
  · show (r.pingTimes ++ List.replicate _ _).length = _
    rw [List.length_append, List.length_replicate, h.counted]
    refine Nat.add_sub_cancel' ?_
    rcases hpings with hnone | ⟨-, ping, hone⟩
    · rw [hnone.pings]
    · rw [hone.pings, List.length_append]
      exact Nat.le_add_right _ _
  · show (r.transport.step env operation).outgoingKey .ping =
      first + (r.transport.step env operation).pings.length
    rcases hpings with hnone | ⟨-, ping, hone⟩
    · rw [hnone.pings, hnone.key, h.outgoing]
    · rw [hone.pings, hone.key, h.outgoing, List.length_append, List.length_singleton, add_assoc]
  · show (r.transport.step env operation).pings.map _ =
      List.range' first (r.transport.step env operation).pings.length
    rcases hpings with hnone | ⟨-, ping, hone⟩
    · rw [hnone.pings, h.keys]
    · rw [hone.pings, List.map_append, h.keys, List.length_append, List.length_singleton,
        List.range'_1_concat, List.map_singleton, hone.position, key_positionOf, h.outgoing]
  · intro pendingPing hpending
    show ∃ ping, (r.transport.step env operation).pings.getLast? = some ping ∧ _
    rcases hpings with hnone | ⟨-, ping, hone⟩
    · rw [hnone.pings]
      exact h.outstanding pendingPing (hnone.pendingPing pendingPing hpending)
    · refine ⟨ping, by rw [hone.pings, List.getLast?_concat], ?_⟩
      have hsame := hone.pendingPing.symm.trans hpending
      rw [← Option.some.inj hsame]

/-! ## The discipline -/

/-- A Pong takes the outstanding ping away and measures it: the last one, which went out once. -/
structure PongSample (env : Environment) (t : SessionTransport) (operation : Operation)
    (t' : SessionTransport) (pendingPing : PendingPing) : Prop where
  pong : ∃ datagram packet, operation = .processPacket datagram ∧
    ServerPacket.parse datagram = .ok packet ∧ packet.header.type = .pong ∧
    readPacketId packet.data = .ok pendingPing.packetId
  outstanding : t.pendingPing = some pendingPing
  retired : t'.pendingPing = none
  rtt : t'.statistics.rtt = t.statistics.rtt ++ [env.clock t.ticks - pendingPing.sentAt]
  nonneg : 0 ≤ env.clock t.ticks - pendingPing.sentAt
  once : ∃ ping, t.pings.getLast? = some ping ∧ ping.position.packetId = pendingPing.packetId ∧
    t.sent.count ping = 1

/-- An Ack takes a pending command away and measures it. -/
structure AckSample (env : Environment) (t : SessionTransport) (operation : Operation)
    (t' : SessionTransport) (command : PendingCommand) : Prop where
  ack : ∃ datagram packet, operation = .processPacket datagram ∧
    ServerPacket.parse datagram = .ok packet ∧ packet.header.type = .ack ∧
    AckNames env t packet command.packetId
  pending : t.reliableCommands.pending.find? command.key = some command
  fresh : command.retransmitted = false
  released : t'.reliableCommands.pending.find? command.key = none
  rtt : t'.statistics.rtt = t.statistics.rtt ++ [env.clock t.ticks - command.firstSent]
  nonneg : 0 ≤ env.clock t.ticks - command.firstSent

/-- What is asked of a call, but how often a measured command went out. -/
structure Disciplined (env : Environment) (t : SessionTransport) (operation : Operation)
    (t' : SessionTransport) : Prop where
  pings : t'.pings = t.pings ∨ operation = .processTimers ∧ t.connected = true ∧
    t.reliableCommands.pending.size = 0 ∧ ∃ ping, t'.pings = t.pings ++ [ping] ∧
      t'.pendingPing = some { packetId := ping.position.packetId, sentAt := env.clock t.ticks }
  samples : t'.statistics.rtt = t.statistics.rtt ∨
    (operation = .setConnected ∧ t'.statistics.rtt = []) ∨
    (∃ pendingPing, PongSample env t operation t' pendingPing) ∨
    ∃ command, AckSample env t operation t' command

/-- The last ping went out once. -/
theorem Record.Sound.count_eq_one (h : r.Sound env first) {ping : Packet}
    (hlast : r.transport.pings.getLast? = some ping) : r.transport.sent.count ping = 1 := by
  have hmem : ping ∈ r.transport.pings := List.mem_of_getLast? hlast
  have hnodup : r.transport.pings.Nodup := by
    refine List.Nodup.of_map (fun ping => ping.position.key) ?_
    rw [h.keys]
    exact List.nodup_range'
  have hsame : r.transport.pings.count ping = r.transport.sent.count ping :=
    List.count_filter (List.mem_filter.1 hmem).2
  rw [← hsame, List.count_eq_one_of_mem hnodup hmem]

theorem Record.Sound.pongSample (h : r.Sound env first) {datagram : Bytes} {packet : ServerPacket}
    {pendingPing : PendingPing} (hparse : ServerPacket.parse datagram = .ok packet)
    (htype : packet.header.type = .pong)
    (hnames : readPacketId packet.data = .ok pendingPing.packetId)
    (hpending : r.transport.pendingPing = some pendingPing) :
    PongSample env r.transport (.processPacket datagram)
      (hear env packet { measure env pendingPing.sentAt r.transport with pendingPing := none })
      pendingPing where
  pong := ⟨datagram, packet, rfl, hparse, htype, hnames⟩
  outstanding := hpending
  retired := rfl
  rtt := by
    rw [hear, ConnectionStatistics.rtt_recordReceived]
    exact rtt_measure (h.sentAt_le hpending)
  nonneg := sub_nonneg.2 (h.sentAt_le hpending)
  once := by
    obtain ⟨ping, hlast, hid⟩ := h.outstanding pendingPing hpending
    exact ⟨ping, hlast, hid, h.count_eq_one hlast⟩

theorem Record.Sound.ackSample (h : r.Sound env first) {datagram : Bytes} {packet : ServerPacket}
    {command : PendingCommand} (hparse : ServerPacket.parse datagram = .ok packet)
    (htype : packet.header.type = .ack)
    (hnames : AckNames env r.transport packet command.packetId)
    (hpending : r.transport.reliableCommands.pending.find? command.key = some command)
    (hfresh : command.retransmitted = false)
    (hquiet : Quiet env (measure env command.firstSent (r.transport.release command)) t') :
    AckSample env r.transport (.processPacket datagram) t' command where
  ack := ⟨datagram, packet, rfl, hparse, htype, hnames⟩
  pending := hpending
  fresh := hfresh
  released := by
    rw [hquiet.reliableCommands]
    exact (Registry.find?_erase ..).trans (if_pos rfl)
  rtt := by
    have hsent := h.inOrder.firstSent_le _ command hpending
    rw [hquiet.rtt]
    exact rtt_measure hsent
  nonneg := sub_nonneg.2 (h.inOrder.firstSent_le _ command hpending)

/-- **Every call is disciplined.** -/
theorem Record.Sound.disciplined (h : r.Sound env first)
    (hlt : r.transport.outgoingKey .ping + 1 < 2 ^ 48)
    (heffect : Effect env r.transport operation t') :
    Disciplined env r.transport operation t' where
  pings := by
    rcases heffect.pings h.log hlt with hnone | ⟨hoperation, ping, hone⟩
    · exact .inl hnone.pings
    · exact .inr ⟨hoperation, hone.connected, hone.empty, ping, hone.pings, hone.pendingPing⟩
  samples := by
    cases heffect with
    | quiet hquiet => exact .inl hquiet.rtt
    | command hemits => exact .inl hemits.rtt
    | release _ hquiet => exact .inl hquiet.rtt
    | ack hparse htype hnames hpending hfresh hquiet =>
      exact .inr (.inr (.inr ⟨_, h.ackSample hparse htype hnames hpending hfresh hquiet⟩))
    | pong hparse htype hnames hpending =>
      exact .inr (.inr (.inl ⟨_, h.pongSample hparse htype hnames hpending⟩))
    | expired => exact .inl rfl
    | timers _ hresend hprobes =>
      refine .inl ?_
      cases hprobes with
      | idle => exact hresend.rtt
      | retire => exact hresend.rtt
      | fail => exact hresend.rtt
      | ping _ _ _ _ hsent _ => exact hsent.rtt.trans hresend.rtt
    | connect => exact .inr (.inl ⟨rfl, rfl⟩)

/-! ## Runs -/

variable {sequences : PacketSequenceState} {operations : List Operation}

theorem Record.of_concat (env : Environment) (sequences : PacketSequenceState)
    (operations : List Operation) (operation : Operation) :
    Record.of env sequences (operations ++ [operation]) =
      (Record.of env sequences operations).step env operation := List.foldl_concat ..

theorem run_concat (env : Environment) (t : SessionTransport) (operations : List Operation)
    (operation : Operation) :
    run env t (operations ++ [operation]) = step env (run env t operations) operation :=
  List.foldl_concat ..

theorem Record.transport_of (env : Environment) (sequences : PacketSequenceState)
    (operations : List Operation) :
    (Record.of env sequences operations).transport = run env { sequences } operations := by
  induction operations using List.reverseRecOn with
  | nil => rfl
  | append_singleton operations operation ih =>
    rw [Record.of_concat, run_concat, ← ih]
    rfl

/-- `SetConnected` is called at most once. -/
def ConnectsOnce (operations : List Operation) : Prop :=
  operations.Pairwise fun earlier later => ¬ (earlier = .setConnected ∧ later = .setConnected)

theorem ConnectsOnce.concat (h : ConnectsOnce (operations ++ [operation])) :
    ConnectsOnce operations ∧ (operation = .setConnected → .setConnected ∉ operations) := by
  obtain ⟨hfront, -, hlast⟩ := List.pairwise_append.1 h
  refine ⟨hfront, fun hoperation hmem => ?_⟩
  exact hlast _ hmem operation List.mem_cons_self ⟨rfl, hoperation⟩

theorem Effect.connected (h : Effect env t operation t') (hoperation : operation ≠ .setConnected) :
    t'.connected = t.connected := by
  cases h with
  | quiet h => exact h.connected
  | command h => exact h.connected
  | release _ h => exact h.connected
  | ack _ _ _ _ _ h => exact h.connected
  | pong => rfl
  | expired => rfl
  | timers _ hresend h =>
    cases h with
    | idle => exact hresend.connected
    | retire => exact hresend.connected
    | fail => exact hresend.connected
    | ping _ _ _ _ hsent _ => exact hsent.connected.trans hresend.connected
  | connect => exact absurd rfl hoperation

/-- Only `SetConnected` connects. -/
theorem connected_step (hlt : t.outgoingKey .ping + 1 < 2 ^ 48) :
    (step env t operation).connected = true ↔ t.connected = true ∨ operation = .setConnected := by
  by_cases hoperation : operation = .setConnected
  · subst hoperation
    exact ⟨fun _ => .inr rfl, fun _ => rfl⟩
  · rw [(effect_step hlt operation).connected hoperation]
    exact ⟨.inl, fun h => h.resolve_right hoperation⟩

/-- The invariant holds of every run. -/
theorem sound_of (hclock : Monotone env.clock)
    (hrange : ∀ tick, -2 ^ 63 ≤ env.clock tick ∧ env.clock tick < 2 ^ 63)
    (hfirst : (sequences.outgoing .ping).key ≤ 2 ^ 47) (honce : ConnectsOnce operations) :
    (Record.of env sequences operations).Sound env (sequences.outgoing .ping).key ∧
      ((Record.of env sequences operations).transport.connected = true ↔
        .setConnected ∈ operations) := by
  induction operations using List.reverseRecOn with
  | nil => exact ⟨sound_start env sequences, nofun, nofun⟩
  | append_singleton operations operation ih =>
    obtain ⟨hfront, hlast⟩ := honce.concat
    obtain ⟨hsound, hconnected⟩ := ih hfront
    have hlt := hsound.outgoing_lt hrange hfirst
    rw [Record.of_concat]
    refine ⟨hsound.step hclock hlt fun hoperation => ?_, ?_⟩
    · rw [← Bool.not_eq_true, hconnected]
      exact hlast hoperation
    · rw [List.mem_append, List.mem_singleton, eq_comm (a := Operation.setConnected), ← hconnected]
      exact connected_step hlt

/-! ## The claim -/

/-- What holds of the pings and the samples of a run. -/
structure Keepalive (env : Environment) (sequences : PacketSequenceState)
    (operations : List Operation) : Prop where
  connected : (run env { sequences } operations).connected = true ↔ .setConnected ∈ operations
  counted : (Record.of env sequences operations).pingTimes.length =
    (run env { sequences } operations).pings.length
  spaced : (Record.of env sequences operations).pingTimes.Pairwise fun earlier later =>
    earlier + pingInterval ≤ later
  outstanding : ∀ pendingPing, (run env { sequences } operations).pendingPing = some pendingPing →
    ∃ ping, (run env { sequences } operations).pings.getLast? = some ping ∧
      ping.position.packetId = pendingPing.packetId ∧
      (Record.of env sequences operations).pingTimes.getLast? = some pendingPing.sentAt
  measured : (Record.of env sequences operations).measured.Sublist
    (Record.of env sequences operations).pingTimes
  calls : ∀ front operation back, operations = front ++ operation :: back →
    Disciplined env (run env { sequences } front) operation
      (step env (run env { sequences } front) operation)

/-- Every command that an Ack measures went out once since it was queued. -/
def CommandsOnce (env : Environment) (sequences : PacketSequenceState)
    (operations : List Operation) : Prop :=
  ∀ front operation back command, operations = front ++ operation :: back →
    AckSample env (run env { sequences } front) operation
      (step env (run env { sequences } front) operation) command →
    (run env { sequences } front).transmissions (Record.of env sequences front).queuedAt command = 1

/-- The command was not handed out again, and its number is still that of the next command, as when
its own call of `Send` failed. -/
structure Unsent (t : SessionTransport) (command : PendingCommand) : Prop where
  pending : t.reliableCommands.pending.find? command.key = some command
  fresh : command.retransmitted = false
  current : command.key = t.outgoingKey .command

/-- No Ack of the run names such a command. -/
def AcksSent (env : Environment) (sequences : PacketSequenceState)
    (operations : List Operation) : Prop :=
  ∀ front datagram back packet command, operations = front ++ .processPacket datagram :: back →
    ServerPacket.parse datagram = .ok packet → packet.header.type = .ack →
    AckNames env (run env { sequences } front) packet command.packetId →
    ¬ (run env { sequences } front).Unsent command

/-- **Keepalive discipline.** In every run that connects at most once, no ping is sent before
`SetConnected` or while a command is pending, pings are sent by `ProcessTimers` and at least a second
apart, the outstanding ping is the last one, a Pong measures no other, each at most once, and round-trip
times are not negative. A ping that is measured went out once, and so did a command, when no Ack
names one whose call of `Send` failed. -/
theorem keepalive_discipline (env : Environment) (hclock : Monotone env.clock)
    (hrange : ∀ tick, -2 ^ 63 ≤ env.clock tick ∧ env.clock tick < 2 ^ 63)
    (sequences : PacketSequenceState) (hfirst : (sequences.outgoing .ping).key ≤ 2 ^ 47)
    (operations : List Operation) (honce : ConnectsOnce operations) :
    Keepalive env sequences operations ∧
      (AcksSent env sequences operations → CommandsOnce env sequences operations) := by
  have hsound : ∀ front back, operations = front ++ back →
      (Record.of env sequences front).Sound env (sequences.outgoing .ping).key := fun front back heq =>
    (sound_of hclock hrange hfirst (List.pairwise_append.1 (heq ▸ honce)).1).1
  obtain ⟨hrun, hconnected⟩ := sound_of hclock hrange hfirst honce
  have htransport := Record.transport_of env sequences operations
  refine ⟨⟨htransport ▸ hconnected, htransport ▸ hrun.counted, hrun.prober.spaced,
    fun pendingPing hpending => ?_, ?_, fun front operation back heq => ?_⟩, ?_⟩
  · rw [← htransport] at hpending ⊢
    obtain ⟨ping, hlast, hid⟩ := hrun.outstanding pendingPing hpending
    exact ⟨ping, hlast, hid, hrun.getLast? hpending⟩
  · exact (List.sublist_append_left _ _).trans hrun.prober.measured
  · have hfront := hsound front _ heq
    have hlt := hfront.outgoing_lt hrange hfirst
    have hdisciplined := hfront.disciplined hlt (effect_step hlt operation)
    rwa [Record.transport_of] at hdisciplined
  · intro hacks front operation back command heq hsample
    have hfront := hsound front _ heq
    obtain ⟨datagram, packet, rfl, hparse, htype, hnames⟩ := hsample.ack
    rw [← Record.transport_of] at hsample ⊢
    refine hfront.log.once command hsample.pending hsample.fresh fun hcurrent => ?_
    refine hacks front datagram back packet command heq hparse htype hnames ?_
    rw [← Record.transport_of]
    exact ⟨hsample.pending, hsample.fresh, hcurrent⟩

/-- While no command is pending under the next number, no Ack names an unsent one. -/
theorem acksSent_of_none (h : ∀ n < operations.length,
    (run env { sequences } (operations.take n)).reliableCommands.pending.find?
      ((run env { sequences } (operations.take n)).outgoingKey .command) = none) :
    AcksSent env sequences operations := by
  intro front datagram back packet command heq _ _ _ hunsent
  have hlt : front.length < operations.length := by
    rw [heq, List.length_append, List.length_cons]
    exact Nat.lt_add_of_pos_right (Nat.succ_pos _)
  have hnone := h front.length hlt
  rw [heq, List.take_left, ← hunsent.current, hunsent.pending] at hnone
  cases hnone

/-- A clock that ticks every 600 ms, for a minute. -/
def minuteClock (tick : ℕ) : TimePoint := 600000000 * min tick 100

theorem monotone_minuteClock : Monotone minuteClock := fun _ _ hle =>
  mul_le_mul_of_nonneg_left (by exact_mod_cast min_le_min_right 100 hle) (by decide)

theorem minuteClock_range (tick : ℕ) : -2 ^ 63 ≤ minuteClock tick ∧ minuteClock tick < 2 ^ 63 := by
  have hle : ((min tick 100 : ℕ) : ℤ) ≤ 100 := by exact_mod_cast min_le_right tick 100
  have hnonneg : (0 : ℤ) ≤ ((min tick 100 : ℕ) : ℤ) := Int.natCast_nonneg _
  unfold minuteClock
  push_cast at hle hnonneg ⊢
  constructor <;> linarith

/-- An unencrypted Pong of the server for the ping 1. -/
def pongOfFirstPing : Bytes := [1, 2, 3, 4, 5, 6, 7, 8, 0, 2, 0x85, 0, 1]

/-- `quietEnvironment`, by this clock. -/
def quietMinute : Environment := { quietEnvironment with clock := minuteClock }

/-- `failingEnvironment`, by this clock. -/
def failingMinute : Environment := { failingEnvironment with clock := minuteClock }

/-- A command and then a ping are sent and answered. -/
def probingRun : List Operation :=
  [.setConnected, .sendCommand [97], .processPacket ackOfFirstCommand, .processTimers,
    .processTimers, .processPacket pongOfFirstPing]

theorem keepalive_discipline_probing :
    Keepalive quietMinute {} probingRun ∧ CommandsOnce quietMinute {} probingRun ∧
      (Record.of quietMinute {} probingRun).measured = [3600000000] := by
  have honce : ConnectsOnce probingRun := by simp [ConnectsOnce, probingRun]
  have hkey : (({} : PacketSequenceState).outgoing .ping).key ≤ 2 ^ 47 := by decide
  obtain ⟨hkeepalive, hcommands⟩ := keepalive_discipline quietMinute monotone_minuteClock
    minuteClock_range {} hkey probingRun honce
  exact ⟨hkeepalive, hcommands (acksSent_of_none (by decide +kernel)), by decide +kernel⟩

/-- The packet of `ackOfFirstCommand`. -/
def parsedAck : ServerPacket where
  header := {
    mac := [1, 2, 3, 4, 5, 6, 7, 8]
    packetId := 2
    type := .ack
    flags := PacketFlags.unencrypted }
  metaData := [0, 2, 0x86]
  data := [0, 1]

/-- The command that is queued when `Send` throws. -/
def lostCommand : PendingCommand where
  packetId := 1
  packet := {
    data := [192, 89, 171, 2, 215, 254, 212, 9, 0, 1, 0, 0, 34, 72]
    position := { type := .command, generationId := 0, packetId := 1 }
    encrypted := true }
  firstSent := 0
  nextRetry := 500000000
  retryDelay := 500000000

/-- An Ack measures a command that did not go out. -/
theorem keepalive_undisciplined : ¬ ∀ (env : Environment), Monotone env.clock →
    (∀ tick, -2 ^ 63 ≤ env.clock tick ∧ env.clock tick < 2 ^ 63) →
    ∀ sequences : PacketSequenceState, (sequences.outgoing .ping).key ≤ 2 ^ 47 →
    ∀ operations : List Operation, ConnectsOnce operations →
      Keepalive env sequences operations ∧ CommandsOnce env sequences operations := by
  intro h
  have honce : ConnectsOnce [.sendCommand [97], .processPacket ackOfFirstCommand] := by
    simp [ConnectsOnce]
  have hkey : (({} : PacketSequenceState).outgoing .ping).key ≤ 2 ^ 47 := by decide
  obtain ⟨-, hcommands⟩ := h failingMinute monotone_minuteClock minuteClock_range {} hkey
    [.sendCommand [97], .processPacket ackOfFirstCommand] honce
  have hsample : AckSample failingMinute (run failingMinute {} [.sendCommand [97]])
      (.processPacket ackOfFirstCommand)
      (run failingMinute {} [.sendCommand [97], .processPacket ackOfFirstCommand]) lostCommand := by
    have hnames : AckNames failingMinute (run failingMinute {} [.sendCommand [97]]) parsedAck
        lostCommand.packetId := ⟨0, rfl, by decide, rfl⟩
    refine ⟨⟨ackOfFirstCommand, parsedAck, rfl, rfl, rfl, hnames⟩, ?_, rfl, ?_, ?_, ?_⟩
    all_goals decide +kernel
  have hcount := hcommands [.sendCommand [97]] _ [] lostCommand rfl hsample
  exact absurd hcount (by decide +kernel)

end TsCli.SessionTransport
