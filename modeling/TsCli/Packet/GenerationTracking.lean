import TsCli.Packet.Sequence

/-!
# Tracking the generation of a lossy stream

Voice and acknowledgement packets arrive with losses, duplicates and in any order. The receiver
keeps one expected sequence, resolves each id against it, and moves it past every packet that is
not behind it (`receive`). As long as each packet is, when it arrives, less than half an id range
away from the expected number, the receiver and the sender agree on every generation, over any
number of wraps (`generation_tracking`).
-/

namespace TsCli.PacketSequence

/-- Resolve the generation of a packet and move the expected sequence, as `HandleVoice` does. -/
def receive (packetId : UInt16) : EStateM Failure PacketSequence UInt32 := do
  let generationId ← Exec.lift (resolveGeneration (← get) packetId)
  accept packetId generationId
  return generationId

/-- The expected number after packet `T`. -/
def nextKey (E T : ℕ) : ℕ := if E ≤ T then T + 1 else E

theorem le_nextKey (E T : ℕ) : E ≤ nextKey E T := by
  unfold nextKey; split_ifs <;> omega

/-- Every packet of the stream is, at its arrival, less than half an id range away from the
expected number, and its successor has a number. -/
def Close (E : ℕ) : List ℕ → Prop
  | [] => True
  | T :: Ts => T + 1 < 2 ^ 48 ∧ T < E + 32768 ∧ E < T + 32768 ∧ Close (nextKey E T) Ts

theorem accept_packetIdOf (expected : PacketSequence) {T : ℕ} (hT : T + 1 < 2 ^ 48) :
    accept (packetIdOf T) (generationOf T) expected =
      .ok () (ofKey (nextKey expected.key T)) := by
  have hkey : sequenceKey (packetIdOf T) (generationOf T) = T := sequenceKey_of (by omega)
  simp only [accept, Exec.run_get_bind, Exec.run_ite, hkey, Exec.run_pure]
  unfold nextKey
  split_ifs with h
  · have hT' : (PacketSequence.mk (packetIdOf T) (generationOf T)).key = T := hkey
    rw [Exec.run_bind_of_ok _ (Exec.run_set _ _), advance_of_lt (by rw [hT']; exact hT), hT']
  · rw [ofKey_key]

/-- One arrival: the generation is the sender's and the expected number moves as it should. -/
theorem receive_of_close {expected : PacketSequence} {T : ℕ} (hT : T + 1 < 2 ^ 48)
    (hahead : T < expected.key + 32768) (hbehind : expected.key < T + 32768) :
    receive (packetIdOf T) expected = .ok (generationOf T) (ofKey (nextKey expected.key T)) := by
  have hres := resolveGeneration_of_close (by omega) hahead hbehind
  unfold receive
  rw [Exec.run_get_bind, Exec.run_lift_bind_ok hres,
    Exec.run_bind_of_ok _ (accept_packetIdOf _ hT), Exec.run_pure]

theorem key_nextKey (expected : PacketSequence) {T : ℕ} (hT : T + 1 < 2 ^ 48) :
    (ofKey (nextKey expected.key T)).key = nextKey expected.key T := by
  refine key_ofKey ?_
  have := expected.key_lt
  unfold nextKey; split_ifs <;> omega

/-- The whole stream, by induction on the arrivals: the expected number is the invariant that
carries the distance condition from one packet to the next. -/
theorem receive_stream {Ts : List ℕ} : ∀ {expected : PacketSequence}, Close expected.key Ts →
    (Ts.map packetIdOf).mapM receive expected =
      .ok (Ts.map generationOf) (ofKey (Ts.foldl nextKey expected.key)) := by
  induction Ts with
  | nil => intro expected _; simp [ofKey_key]
  | cons T Ts ih =>
    intro expected h
    obtain ⟨hT, hahead, hbehind, hTs⟩ := h
    have hkey := key_nextKey expected hT
    have hrest := ih (by rw [hkey]; exact hTs)
    rw [hkey] at hrest
    rw [List.map_cons, List.mapM_cons,
      Exec.run_bind_of_ok _ (receive_of_close hT hahead hbehind), Exec.run_bind_of_ok _ hrest,
      Exec.run_pure, List.map_cons, List.foldl_cons]

theorem close_append : ∀ {Ts Ts' : List ℕ} {E : ℕ},
    Close E (Ts ++ Ts') ↔ Close E Ts ∧ Close (Ts.foldl nextKey E) Ts'
  | [], Ts', E => by simp [Close]
  | T :: Ts, Ts', E => by
    simp only [List.cons_append, Close, List.foldl_cons, close_append, and_assoc]

theorem le_foldl_nextKey : ∀ (Ts : List ℕ) (E : ℕ), E ≤ Ts.foldl nextKey E
  | [], E => le_refl E
  | T :: Ts, E => (le_nextKey E T).trans (le_foldl_nextKey Ts _)

theorem foldl_nextKey_lt {Ts : List ℕ} : ∀ {E : ℕ}, E < 2 ^ 48 → Close E Ts →
    Ts.foldl nextKey E < 2 ^ 48 := by
  induction Ts with
  | nil => intro E h _; exact h
  | cons T Ts ih =>
    intro E h hc
    refine ih ?_ hc.2.2.2
    have := hc.1
    unfold nextKey; split_ifs <;> omega

/-- **Generation tracking.** However the stream is lost, duplicated and reordered, the receiver
resolves every packet to the generation the sender gave it, never throws, and its expected number
never decreases. -/
theorem generation_tracking (expected : PacketSequence) (Ts Ts' : List ℕ)
    (h : Close expected.key (Ts ++ Ts')) :
    ∃ middle final : PacketSequence,
      (Ts.map packetIdOf).mapM receive expected = .ok (Ts.map generationOf) middle ∧
      (Ts'.map packetIdOf).mapM receive middle = .ok (Ts'.map generationOf) final ∧
      ((Ts ++ Ts').map packetIdOf).mapM receive expected =
        .ok ((Ts ++ Ts').map generationOf) final ∧
      middle.key = Ts.foldl nextKey expected.key ∧
      expected.key ≤ middle.key ∧ middle.key ≤ final.key := by
  obtain ⟨h1, h2⟩ := close_append.1 h
  have hlt := foldl_nextKey_lt expected.key_lt h1
  have hmid : (ofKey (Ts.foldl nextKey expected.key)).key = Ts.foldl nextKey expected.key :=
    key_ofKey hlt
  have hend : (ofKey (Ts'.foldl nextKey (Ts.foldl nextKey expected.key))).key =
      Ts'.foldl nextKey (Ts.foldl nextKey expected.key) := key_ofKey (foldl_nextKey_lt hlt h2)
  refine ⟨ofKey (Ts.foldl nextKey expected.key), ofKey (Ts'.foldl nextKey (Ts.foldl nextKey
    expected.key)), receive_stream h1, ?_, ?_, hmid, ?_, ?_⟩
  · have := receive_stream (by rw [hmid]; exact h2)
    rwa [hmid] at this
  · have := receive_stream h
    rwa [List.foldl_append] at this
  · rw [hmid]; exact le_foldl_nextKey _ _
  · rw [hmid, hend]; exact le_foldl_nextKey _ _

/-- A run over a wrap of the id: a late packet, a jump over the wrap and a duplicate. -/
theorem generation_tracking_over_wrap :
    [65533, 65540, 65540].map generationOf = [0, 1, 1] ∧
    ∃ middle final : PacketSequence,
      ([65533, 65540].map packetIdOf).mapM receive (ofKey 65534) =
        .ok ([65533, 65540].map generationOf) middle ∧
      ([65540].map packetIdOf).mapM receive middle = .ok ([65540].map generationOf) final ∧
      (([65533, 65540] ++ [65540]).map packetIdOf).mapM receive (ofKey 65534) =
        .ok (([65533, 65540] ++ [65540]).map generationOf) final ∧
      middle.key = [65533, 65540].foldl nextKey (ofKey 65534).key ∧
      (ofKey 65534).key ≤ middle.key ∧ middle.key ≤ final.key :=
  ⟨by decide, generation_tracking (ofKey 65534) [65533, 65540] [65540] (by
    rw [key_ofKey (by norm_num)]
    simp only [List.cons_append, List.nil_append, Close, nextKey]
    norm_num)⟩

end TsCli.PacketSequence
