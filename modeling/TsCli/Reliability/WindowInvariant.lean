import TsCli.Lib.Runs
import TsCli.Reliability.Delivery

/-!
# What the receive window always satisfies

A call of `Feed` may process many packets and then throw, with some of the queue taken and some
kept. On every exit the queued keys lie in the window ahead of the expected one, so a packet that
the window admits finds room; the fragments fit the limit of a command, so the difference in the
size check does not wrap; and there are none while no command is assembled. The expected key moves
by one for each packet that went through `ProcessOrdered`.
-/

namespace TsCli

open PacketLimits Exec

/-! ## The reassembly -/

namespace Assembly

/-- The fragments fit a command, and belong to one. -/
structure Sound (a : Assembly) : Prop where
  length_le : a.fragments.length ≤ maxCommandSize
  eq_nil : a.assembling = false → a.fragments = []

theorem sound_empty : Sound {} := ⟨Nat.zero_le _, fun _ => rfl⟩

variable {a : Assembly}

/-- The size check computes with the true difference. -/
theorem Sound.sizeSub_eq (h : a.Sound) :
    sizeSub maxCommandSize a.fragments.length = maxCommandSize - a.fragments.length :=
  sizeSub_of_le h.length_le (by decide)

theorem Sound.length_append_le (h : a.Sound) {data : Bytes}
    (hfits : ¬ sizeSub maxCommandSize a.fragments.length < data.length) :
    (a.fragments ++ data).length ≤ maxCommandSize := by
  have hle := h.length_le
  rw [h.sizeSub_eq] at hfits
  rw [List.length_append]
  omega

/-- Processing a packet, on a return and on a throw. -/
theorem Sound.wp_processOrdered (h : a.Sound) (flags : PacketFlags) (data : Bytes) :
    wp (Receiver.processOrdered flags data) (fun _ => Sound) (fun _ => Sound) a := by
  unfold Receiver.processOrdered
  rw [wp_bind, wp_get, wp_ite]
  refine ⟨fun _ => h, fun hfits => ?_⟩
  have hlength := h.length_append_le hfits
  cases hassembling : a.assembling with
  | false =>
    have hnil := h.eq_nil hassembling
    rw [hnil, List.nil_append] at hlength
    simp only [Bool.not_false, if_true]
    split_ifs
    · rw [wp_bind]
      unfold wp
      cases decompress data maxCommandSize <;> exact h
    · exact h
    · exact ⟨hlength, nofun⟩
  | true =>
    have hsound : Sound { a with fragments := a.fragments ++ data } :=
      ⟨hlength, fun hnot => absurd (hassembling.symm.trans hnot) Bool.noConfusion⟩
    rw [hassembling] at hsound
    simp only [Bool.not_true, Bool.false_eq_true, if_false]
    rw [wp_bind, wp_set]
    split_ifs
    · exact hsound
    · simp only [wp_bind]
      unfold wp
      cases decompress (a.fragments ++ data) maxCommandSize with
      | ok command => exact sound_empty
      | error failure => exact hsound
    · exact sound_empty

end Assembly

namespace Receiver

/-! ## Turns -/

/-- A call of `ProcessOrdered` and `Advance`: the packet, and the receiver before it. -/
structure Turn where
  packet : QueuedPacket
  before : Receiver

/-- Whether `ProcessOrdered` returned. -/
def Turn.processed (turn : Turn) : Bool :=
  match processOrdered turn.packet.flags turn.packet.data turn.before.window.assembly with
  | .ok _ _ => true
  | .error _ _ => false

/-- A turn, and the turns that follow when it returned. -/
def turnThen (packet : QueuedPacket) (s : Receiver) (rest : Receiver → List Turn) : List Turn :=
  { packet, before := s } ::
    match consume packet s with
    | .ok _ s' => rest s'
    | .error _ _ => []

/-- The turns of the loop over the queue. -/
def drainTurns : ℕ → Receiver → List Turn
  | 0, _ => []
  | fuel + 1, s =>
    match s.window.queued.find? s.expected.key with
    | none => []
    | some packet =>
      turnThen packet { s with window.queued := s.window.queued.erase s.expected.key }
        (drainTurns fuel)

/-- `Feed`, on the number and the content of a packet. -/
def feedPacket (packet : CommandPacket) : EStateM Failure Receiver (List Bytes) :=
  feed packet.sequence.packetId packet.sequence.generationId packet.flags packet.payload

/-- The turns of a call of `Feed`. -/
def feedTurns (packet : CommandPacket) (s : Receiver) : List Turn :=
  if packet.key = s.expected.key then
    turnThen packet.queued s (drainTurns (s.window.queued.size + 1))
  else []

/-- The receiver after a call, whether it returned or threw. -/
def step (s : Receiver) (packet : CommandPacket) : Receiver := final (feedPacket packet) s

/-- The receiver after some calls on an empty window. -/
def after (start : PacketSequence) (packets : List CommandPacket) : Receiver :=
  packets.foldl step { expected := start }

/-- What a turn can do. -/
theorem consume_cases (packet : QueuedPacket) (s : Receiver) :
    (∃ ready a, processOrdered packet.flags packet.data s.window.assembly = .ok ready a ∧
      s.expected.key + 1 < 2 ^ 48 ∧ consume packet s =
        .ok ready ⟨.ofKey (s.expected.key + 1), { s.window with assembly := a }⟩) ∨
    (∃ ready a, processOrdered packet.flags packet.data s.window.assembly = .ok ready a ∧
      consume packet s = .error (.runtimeError "Packet generation overflow")
        ⟨s.expected, { s.window with assembly := a }⟩) ∨
    ∃ failure a, processOrdered packet.flags packet.data s.window.assembly = .error failure a ∧
      consume packet s = .error failure ⟨s.expected, { s.window with assembly := a }⟩ := by
  have hrun : wp (consume packet) (fun ready s' => consume packet s = .ok ready s')
      (fun failure s' => consume packet s = .error failure s') s := by
    unfold wp
    cases consume packet s <;> rfl
  rw [wp_consume] at hrun
  cases hprocess : processOrdered packet.flags packet.data s.window.assembly with
  | ok ready a =>
    rw [wp_of_eq_ok hprocess] at hrun
    split_ifs at hrun with hroom
    · exact .inl ⟨ready, a, rfl, hroom, hrun⟩
    · exact .inr (.inl ⟨ready, a, rfl, hrun⟩)
  | error failure a => exact .inr (.inr ⟨failure, a, rfl, (wp_of_eq_error hprocess).1 hrun⟩)

/-! ## The invariant -/

structure Invariant (s : Receiver) : Prop where
  ahead : s.Ahead
  sound : s.window.assembly.Sound

variable {s : Receiver}

theorem invariant_empty (start : PacketSequence) : Invariant { expected := start } where
  ahead key packet hpacket := by cases hpacket
  sound := Assembly.sound_empty

theorem Near.erase (h : s.Near) :
    Ahead { s with window.queued := s.window.queued.erase s.expected.key } := by
  refine Near.ahead (fun key packet hpacket => ?_) (OrderedMap.find?_erase_self ..)
  have hpacket' : (s.window.queued.erase s.expected.key).find? key = some packet := hpacket
  rw [OrderedMap.find?_erase] at hpacket'
  split_ifs at hpacket'
  exact h key packet hpacket'

/-- The expected key moves on. -/
theorem Ahead.near (h : s.Ahead) (hroom : s.expected.key + 1 < 2 ^ 48) (a : Assembly) :
    Near ⟨.ofKey (s.expected.key + 1), { s.window with assembly := a }⟩ := by
  intro key packet hpacket
  obtain ⟨hlt, hnear⟩ := h key packet hpacket
  dsimp only
  rw [PacketSequence.key_ofKey hroom]
  omega

/-- **A turn.** It moves the expected key by one, or throws and leaves it. -/
theorem Invariant.wp_consume (h : s.Invariant) (packet : QueuedPacket) :
    wp (consume packet) (fun _ s' => s'.Near ∧ s'.window.assembly.Sound)
      (fun _ => Invariant) s := by
  have hsound := h.sound.wp_processOrdered packet.flags packet.data
  rcases consume_cases packet s with ⟨ready, a, hprocess, hroom, hrun⟩ |
    ⟨ready, a, hprocess, hrun⟩ | ⟨failure, a, hprocess, hrun⟩
  · rw [wp_of_eq_ok hrun]
    exact ⟨h.ahead.near hroom a, ok_of_wp hsound hprocess⟩
  · rw [wp_of_eq_error hrun]
    exact ⟨h.ahead, ok_of_wp hsound hprocess⟩
  · rw [wp_of_eq_error hrun]
    exact ⟨h.ahead, error_of_wp hsound hprocess⟩

/-- The loop, which a throw may leave with some of the queue taken. -/
theorem wp_drain_invariant {fuel : ℕ} (hfuel : s.window.queued.size < fuel) (hnear : s.Near)
    (hsound : s.window.assembly.Sound) :
    wp (drain fuel) (fun _ => Invariant) (fun _ => Invariant) s := by
  have hloop := wp_drain (I := fun _ s => s.Near ∧ s.window.assembly.Sound)
    (E := fun _ => Invariant)
    (fun _ s packet h _ => Invariant.wp_consume ⟨h.1.erase, h.2⟩ packet)
    fuel [] s hfuel ⟨hnear, hsound⟩
  exact wp_mono hloop (fun _ _ h => ⟨h.1.1.ahead h.2, h.1.2⟩) fun _ _ h => h

theorem Invariant.hold (h : s.Invariant) {key : ℕ} (hkey : s.expected.key < key)
    (hnear : key ≤ s.expected.key + maxQueuedPackets) (packet : QueuedPacket) :
    Invariant { s with window.queued := s.window.queued.insert key packet } := by
  refine ⟨fun k p hp => ?_, h.sound⟩
  have hp' : (s.window.queued.insert key packet).find? k = some p := hp
  rw [OrderedMap.find?_insert] at hp'
  split_ifs at hp' with hk
  · subst hk
    exact ⟨hkey, hnear⟩
  · exact h.ahead k p hp'

/-! ## A call -/

/-- What a call does, by the place of its packet. -/
theorem feedPacket_cases (h : s.Invariant) (packet : CommandPacket) :
    (packet.key < s.expected.key ∧ feedPacket packet s = .ok [] s) ∨
    (s.expected.key + maxQueuedPackets < packet.key ∧ feedPacket packet s =
      .error (.runtimeError "Server Command packet is outside the receive window") s) ∨
    ((s.expected.key < packet.key ∧ packet.key ≤ s.expected.key + maxQueuedPackets) ∧
      ((s.window.queued.contains packet.key = true ∧ feedPacket packet s = .ok [] s) ∨
        (s.window.queued.contains packet.key = false ∧ feedPacket packet s = .ok []
          { s with window.queued := s.window.queued.insert packet.key packet.queued }))) ∨
    (packet.key = s.expected.key ∧ feedPacket packet s = (do
      let ready ← consume packet.queued
      let more ← drain (s.window.queued.size + 1)
      return ready ++ more) s) :=
  feed_cases h.ahead rfl packet.flags packet.payload

/-- **A call** keeps the invariant, on a return and on a throw. -/
theorem Invariant.wp_feedPacket (h : s.Invariant) (packet : CommandPacket) :
    wp (feedPacket packet) (fun _ => Invariant) (fun _ => Invariant) s := by
  rcases feedPacket_cases h packet with ⟨-, hrun⟩ | ⟨-, hrun⟩ |
    ⟨⟨hlt, hnear⟩, ⟨-, hrun⟩ | ⟨-, hrun⟩⟩ | ⟨-, hrun⟩
  · exact (wp_of_eq_ok hrun).2 h
  · exact (wp_of_eq_error hrun).2 h
  · exact (wp_of_eq_ok hrun).2 h
  · exact (wp_of_eq_ok hrun).2 (h.hold hlt hnear packet.queued)
  · rw [wp_congr hrun, wp_bind]
    refine wp_mono (wp_and.2 ⟨h.wp_consume packet.queued, consume_queued packet.queued s⟩)
      (fun ready s' hs' => ?_) fun _ _ hs' => hs'.1
    obtain ⟨⟨hnear, hsound⟩, hqueued⟩ := hs'
    rw [wp_bind]
    have hsize : s'.window.queued.size < s.window.queued.size + 1 := by
      rw [hqueued]
      exact Nat.lt_succ_self _
    exact wp_drain_invariant hsize hnear hsound

theorem Invariant.step (h : s.Invariant) (packet : CommandPacket) : Invariant (s.step packet) :=
  wp_final.1 (h.wp_feedPacket packet)

theorem invariant_after (start : PacketSequence) (packets : List CommandPacket) :
    Invariant (after start packets) :=
  Runs.invariant (fun _ packet h => h.step packet) (invariant_empty start) packets

/-! ## The turns of a call -/

/-- The turns are those of the program: it ends where the last of them ends, the expected key moved
by one for each that went through, and every one of them started from a sound reassembly. -/
structure Traced (program : EStateM Failure Receiver (List Bytes)) (s : Receiver)
    (turns : List Turn) : Prop where
  last_eq : ∀ turn, turns.getLast? = some turn →
    final program s = final (consume turn.packet) turn.before
  nil_eq : turns = [] → (final program s).expected = s.expected ∧
    (final program s).window.assembly = s.window.assembly
  key_le : s.expected.key ≤ (final program s).expected.key
  key_eq : thrown? program s ≠ some (.runtimeError "Packet generation overflow") →
    (final program s).expected.key = s.expected.key + turns.countP Turn.processed
  sound : s.window.assembly.Sound → ∀ turn ∈ turns, turn.before.window.assembly.Sound

variable {program : EStateM Failure Receiver (List Bytes)}

/-- What the first steps of a program may change beside the expected sequence and the reassembly. -/
theorem Traced.congr {program' : EStateM Failure Receiver (List Bytes)} {s' : Receiver}
    {turns : List Turn} (h : Traced program' s' turns) (hrun : program s = program' s')
    (hexpected : s'.expected = s.expected)
    (hassembly : s'.window.assembly = s.window.assembly) : Traced program s turns := by
  have hfinal := final_congr hrun
  have hthrown := thrown?_congr hrun
  refine ⟨?_, ?_, ?_, ?_, ?_⟩
  · rw [hfinal]
    exact h.last_eq
  · rw [hfinal, ← hexpected, ← hassembly]
    exact h.nil_eq
  · rw [hfinal, ← hexpected]
    exact h.key_le
  · rw [hfinal, hthrown, ← hexpected]
    exact h.key_eq
  · rw [← hassembly]
    exact h.sound

/-- A call that processes nothing. -/
theorem traced_nil {s' : Receiver} (hfinal : final program s = s')
    (hexpected : s'.expected = s.expected) (hassembly : s'.window.assembly = s.window.assembly) :
    Traced program s [] where
  last_eq _ h := by cases h
  nil_eq _ := by
    rw [hfinal]
    exact ⟨hexpected, hassembly⟩
  key_le := by rw [hfinal, hexpected]
  key_eq _ := by
    rw [hfinal, hexpected]
    rfl
  sound _ _ h := by cases h

/-- A turn that threw: not by `ProcessOrdered`, unless the generation ran over. -/
theorem traced_throw {packet : QueuedPacket} {failure : Failure} {s' : Receiver}
    (hrun : program s = .error failure s') (hconsume : consume packet s = .error failure s')
    (hexpected : s'.expected = s.expected)
    (hfailure : failure = .runtimeError "Packet generation overflow" ∨
      Turn.processed ⟨packet, s⟩ = false) : Traced program s [⟨packet, s⟩] := by
  have hfinal := final_of_eq_error hrun
  refine ⟨fun turn hturn => ?_, nofun, ?_, fun hroom => ?_, fun h turn hturn => ?_⟩
  · cases hturn
    rw [hfinal]
    exact (final_of_eq_error hconsume).symm
  · rw [hfinal, hexpected]
  · have hprocessed := hfailure.resolve_left fun hoverflow =>
      hroom (hoverflow ▸ thrown?_of_eq_error hrun)
    rw [hfinal, hexpected, List.countP_cons_of_neg (by rw [hprocessed]; exact Bool.noConfusion)]
    rfl
  · cases List.mem_singleton.1 hturn
    exact h

/-- The loop stops at once when it has no turn. -/
theorem drain_of_nil {fuel : ℕ} (hfuel : s.window.queued.size < fuel)
    (hnil : drainTurns fuel s = []) : drain fuel s = .ok [] s := by
  cases fuel with
  | zero => exact absurd hfuel (Nat.not_lt_zero _)
  | succ fuel =>
    unfold drainTurns at hnil
    unfold drain
    rw [run_get_bind]
    cases hfind : s.window.queued.find? s.expected.key with
    | none => rfl
    | some packet =>
      rw [hfind] at hnil
      cases hnil

theorem turnThen_of_ok {packet : QueuedPacket} {ready : List Bytes} {s' : Receiver}
    (h : consume packet s = .ok ready s') (rest : Receiver → List Turn) :
    turnThen packet s rest = ⟨packet, s⟩ :: rest s' := by
  unfold turnThen
  rw [h]

theorem turnThen_of_error {packet : QueuedPacket} {failure : Failure} {s' : Receiver}
    (h : consume packet s = .error failure s') (rest : Receiver → List Turn) :
    turnThen packet s rest = [⟨packet, s⟩] := by
  unfold turnThen
  rw [h]

/-- A turn that returned, and the loop behind it. -/
theorem traced_cons {packet : QueuedPacket} {fuel : ℕ} {ready : List Bytes} {s' : Receiver}
    (hrun : consume packet s = .ok ready s')
    (hprogram : program s = (drain fuel >>= fun more => pure (ready ++ more)) s')
    (hexpected : s'.expected.key = s.expected.key + 1)
    (hprocessed : Turn.processed ⟨packet, s⟩ = true)
    (hsound : s.window.assembly.Sound → s'.window.assembly.Sound)
    (hfuel : s'.window.queued.size < fuel) (hrest : Traced (drain fuel) s' (drainTurns fuel s')) :
    Traced program s (⟨packet, s⟩ :: drainTurns fuel s') := by
  have hfinal := (final_congr hprogram).trans (final_bind_pure ..)
  have hthrown := (thrown?_congr hprogram).trans (thrown?_bind_pure ..)
  refine ⟨fun turn hturn => ?_, nofun, ?_, fun hoverflow => ?_, fun h turn hturn => ?_⟩
  · rw [hfinal]
    rw [List.getLast?_cons] at hturn
    cases hlast : (drainTurns fuel s').getLast? with
    | none =>
      rw [hlast] at hturn
      cases hturn
      rw [final_of_eq_ok (drain_of_nil hfuel (List.getLast?_eq_none_iff.1 hlast))]
      exact (final_of_eq_ok hrun).symm
    | some last =>
      rw [hlast] at hturn
      cases hturn
      exact hrest.last_eq last hlast
  · have hle := hrest.key_le
    rw [hexpected] at hle
    rw [hfinal]
    exact (Nat.le_succ _).trans hle
  · rw [hthrown] at hoverflow
    rw [hfinal, hrest.key_eq hoverflow, hexpected, List.countP_cons_of_pos hprocessed]
    omega
  · rcases List.mem_cons.1 hturn with rfl | hturn
    · exact h
    · exact hrest.sound (hsound h) turn hturn

/-- A turn, and the loop when it returned. -/
theorem traced_turn {packet : QueuedPacket} {fuel : ℕ} (hfuel : s.window.queued.size < fuel)
    (hdrain : ∀ s' : Receiver, s'.window.queued.size < fuel →
      Traced (drain fuel) s' (drainTurns fuel s'))
    (hprogram : program s = (do
      let ready ← consume packet
      let more ← drain fuel
      return ready ++ more) s) :
    Traced program s (turnThen packet s (drainTurns fuel)) := by
  rcases consume_cases packet s with ⟨ready, a, hprocess, hroom, hrun⟩ |
    ⟨ready, a, hprocess, hrun⟩ | ⟨failure, a, hprocess, hrun⟩
  · rw [turnThen_of_ok hrun]
    refine traced_cons hrun (hprogram.trans (run_bind_of_ok s hrun))
      (PacketSequence.key_ofKey hroom) ?_
      (fun h => ok_of_wp (h.wp_processOrdered packet.flags packet.data) hprocess) hfuel
      (hdrain _ hfuel)
    unfold Turn.processed
    rw [hprocess]
  · rw [turnThen_of_error hrun]
    exact traced_throw (hprogram.trans (run_bind_of_error s hrun)) hrun rfl (.inl rfl)
  · rw [turnThen_of_error hrun]
    refine traced_throw (hprogram.trans (run_bind_of_error s hrun)) hrun rfl (.inr ?_)
    unfold Turn.processed
    rw [hprocess]

theorem traced_drain {fuel : ℕ} (hfuel : s.window.queued.size < fuel) :
    Traced (drain fuel) s (drainTurns fuel s) := by
  induction fuel generalizing s with
  | zero => exact absurd hfuel (Nat.not_lt_zero _)
  | succ fuel ih =>
    cases hfind : s.window.queued.find? s.expected.key with
    | none =>
      have hnil : drainTurns (fuel + 1) s = [] := by
        unfold drainTurns
        rw [hfind]
      rw [hnil]
      exact traced_nil (final_of_eq_ok (drain_of_nil hfuel hnil)) rfl rfl
    | some packet =>
      have hsize := OrderedMap.size_erase_of_find? hfind
      have hsmaller : (s.window.queued.erase s.expected.key).size < fuel := by omega
      have hturns : drainTurns (fuel + 1) s = turnThen packet
          { s with window.queued := s.window.queued.erase s.expected.key } (drainTurns fuel) := by
        rw [drainTurns, hfind]
      have hrun : drain (fuel + 1) s = (do
          let ready ← consume packet
          let more ← drain fuel
          return ready ++ more)
          { s with window.queued := s.window.queued.erase s.expected.key } := by
        rw [drain, run_get_bind]
        dsimp only
        rw [hfind]
        rfl
      rw [hturns]
      exact (traced_turn hsmaller (fun _ => ih) rfl).congr hrun rfl rfl

theorem traced_feedPacket (h : s.Invariant) (packet : CommandPacket) :
    Traced (feedPacket packet) s (feedTurns packet s) := by
  unfold feedTurns
  rcases feedPacket_cases h packet with ⟨hlt, hrun⟩ | ⟨hgt, hrun⟩ |
    ⟨⟨hgt, -⟩, ⟨-, hrun⟩ | ⟨-, hrun⟩⟩ | ⟨heq, hrun⟩
  · rw [if_neg hlt.ne]
    exact traced_nil (final_of_eq_ok hrun) rfl rfl
  · rw [if_neg (by omega)]
    exact traced_nil (final_of_eq_error hrun) rfl rfl
  · rw [if_neg hgt.ne']
    exact traced_nil (final_of_eq_ok hrun) rfl rfl
  · rw [if_neg hgt.ne']
    exact traced_nil (final_of_eq_ok hrun) rfl rfl
  · rw [if_pos heq]
    exact traced_turn (Nat.lt_succ_self _) (fun _ => traced_drain) hrun

/-- What holds of a receiver, and of the next call. -/
structure FeedSound (s : Receiver) (packet : CommandPacket) : Prop where
  queued : ∀ key queued, s.window.queued.find? key = some queued →
    s.expected.key < key ∧ key ≤ s.expected.key + maxQueuedPackets
  /-- Where the size of the queue is looked at, it is below its limit, and the packet is queued. -/
  room : s.expected.key < packet.key → packet.key - s.expected.key ≤ maxQueuedPackets →
    s.window.queued.contains packet.key = false → s.window.queued.size < maxQueuedPackets ∧
      feedPacket packet s = .ok []
        { s with window.queued := s.window.queued.insert packet.key packet.queued }
  key_le : s.expected.key ≤ (s.step packet).expected.key
  /-- One for each packet that goes through `ProcessOrdered`. -/
  key_eq : thrown? (feedPacket packet) s ≠ some (.runtimeError "Packet generation overflow") →
    (s.step packet).expected.key = s.expected.key + (feedTurns packet s).countP Turn.processed
  last_turn : ∀ turn, (feedTurns packet s).getLast? = some turn →
    s.step packet = final (consume turn.packet) turn.before
  /-- The size check of every `ProcessOrdered` computes with the true difference. -/
  no_underflow : ∀ turn ∈ feedTurns packet s,
    turn.before.window.assembly.fragments.length ≤ maxCommandSize ∧
      sizeSub maxCommandSize turn.before.window.assembly.fragments.length =
        maxCommandSize - turn.before.window.assembly.fragments.length
  fragments_le : s.window.assembly.fragments.length ≤ maxCommandSize
  fragments_eq_nil : s.window.assembly.assembling = false → s.window.assembly.fragments = []

theorem Invariant.feedSound (h : s.Invariant) (packet : CommandPacket) : FeedSound s packet := by
  have htraced := traced_feedPacket h packet
  refine ⟨h.ahead, fun hlt hnear hnew => ?_, htraced.key_le, htraced.key_eq, htraced.last_eq,
    fun turn hturn => ?_, h.sound.length_le, h.sound.eq_nil⟩
  · have hsize := h.ahead.size_lt hlt (by omega) (OrderedMap.contains_eq_false_iff.1 hnew)
    refine ⟨hsize, ?_⟩
    rcases feedPacket_cases h packet with ⟨hbehind, -⟩ | ⟨hfar, -⟩ |
      ⟨-, ⟨hheld, -⟩ | ⟨-, hrun⟩⟩ | ⟨heq, -⟩
    · exact absurd hbehind hlt.not_gt
    · omega
    · rw [hnew] at hheld
      cases hheld
    · exact hrun
    · omega
  · have hsound := htraced.sound h.sound turn hturn
    exact ⟨hsound.length_le, hsound.sizeSub_eq⟩

/-- **The receive window** after any calls, and in the next one. -/
theorem feedSound_after (start : PacketSequence) (packets : List CommandPacket)
    (packet : CommandPacket) : FeedSound (after start packets) packet :=
  (invariant_after start packets).feedSound packet

end Receiver

end TsCli
