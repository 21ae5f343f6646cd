import TsCli.Lib.OrderedMap
import TsCli.Compression.QuickLz
import TsCli.Packet.Format

/-!
# The receive window of a command stream

`feed` takes a packet of known generation. A packet behind the expected one is dropped, a packet
up to 64 ahead of it is queued, and the expected packet is processed together with the run of
queued packets behind it. Processing reassembles and decompresses, and returns the commands that
became complete. The expected sequence belongs to the caller; `Receiver` joins it to the window.
-/

namespace TsCli

open PacketLimits

/-- `CommandReceiveWindow::QueuedPacket`. -/
structure QueuedPacket where
  flags : PacketFlags := .none
  data : Bytes := []
  deriving DecidableEq, Repr

/-- The reassembly of fragments: `m_Assembling`, `m_Compressed` and `m_Fragments`. -/
structure Assembly where
  assembling : Bool := false
  compressed : Bool := false
  fragments : Bytes := []
  deriving DecidableEq, Repr

/-- `CommandReceiveWindow`. -/
structure CommandReceiveWindow where
  queued : OrderedMap ℕ QueuedPacket := ∅
  assembly : Assembly := {}

/-- A window with the expected sequence that its caller passes to `Feed` by reference. -/
structure Receiver where
  expected : PacketSequence
  window : CommandReceiveWindow := {}

/-- A difference of `std::size_t`. -/
def sizeSub (a b : ℕ) : ℕ := (a + 2 ^ 64 - b) % 2 ^ 64

theorem sizeSub_of_le {a b : ℕ} (h : b ≤ a) (ha : a < 2 ^ 64) : sizeSub a b = a - b := by
  unfold sizeSub; omega

namespace Receiver

def maxQueuedPackets : ℕ := 64

/-- `CommandReceiveWindow::ProcessOrdered`; the result is what it appends to `ready`. -/
def processOrdered (flags : PacketFlags) (data : Bytes) : EStateM Failure Assembly (List Bytes) := do
  let s ← get
  if sizeSub maxCommandSize s.fragments.length < data.length then
    throw (.runtimeError "Session command is too large")
  else if !s.assembling then
    if !hasFlag flags .fragmented then
      if hasFlag flags .compressed then
        return [← Exec.lift (decompress data maxCommandSize)]
      else
        return [data]
    else
      set { assembling := true, compressed := hasFlag flags .compressed, fragments := data : Assembly }
      return []
  else
    set { s with fragments := s.fragments ++ data }
    if !hasFlag flags .fragmented then
      return []
    else
      -- a throw of the decompression leaves the fragments and the flags in place
      let command ← if s.compressed then
          Exec.lift (decompress (s.fragments ++ data) maxCommandSize)
        else
          pure (s.fragments ++ data)
      set ({ assembling := false, compressed := false, fragments := [] } : Assembly)
      return [command]

/-- `ProcessOrdered` and `expected.Advance()`, as `Feed` calls them for each packet in order. -/
def consume (packet : QueuedPacket) : EStateM Failure Receiver (List Bytes) := do
  let ready ← Exec.zoom (·.window.assembly) (fun a s => { s with window.assembly := a })
    (processOrdered packet.flags packet.data)
  Exec.zoom (·.expected) (fun e s => { s with expected := e }) PacketSequence.advance
  return ready

/-- The loop of `Feed` over the queued packets that follow. -/
def drain : ℕ → EStateM Failure Receiver (List Bytes)
  | 0 => throw .outOfFuel
  | fuel + 1 => do
    let s ← get
    match s.window.queued.find? s.expected.key with
    | none => return []
    | some queuedPacket =>
      set { s with window.queued := s.window.queued.erase s.expected.key }
      let ready ← consume queuedPacket
      let more ← drain fuel
      return ready ++ more

/-- `CommandReceiveWindow::Feed`. Each turn of its loop takes a packet out of the queue. -/
def feed (packetId : UInt16) (generationId : UInt32) (flags : PacketFlags) (plaintext : Bytes) :
    EStateM Failure Receiver (List Bytes) := do
  let s ← get
  let packetKey := sequenceKey packetId generationId
  let expectedKey := s.expected.key
  if packetKey < expectedKey then
    return []
  else if expectedKey < packetKey then
    let distance := packetKey - expectedKey
    if maxQueuedPackets < distance then
      throw (.runtimeError "Server Command packet is outside the receive window")
    else if !s.window.queued.contains packetKey then
      if maxQueuedPackets ≤ s.window.queued.size then
        throw (.runtimeError "Server Command receive queue is full")
      else
        set { s with window.queued :=
          s.window.queued.insert packetKey { flags, data := plaintext } }
        return []
    else
      return []
  else
    let ready ← consume { flags, data := plaintext }
    let more ← drain (s.window.queued.size + 1)
    return ready ++ more

/-! ## Processing one packet -/

section Rules

open Exec

variable {Q : List Bytes → Receiver → Prop} {E : Failure → Receiver → Prop} {s : Receiver}

/-- A packet in order goes through the reassembly and moves the expected sequence by one. -/
theorem wp_consume (packet : QueuedPacket) :
    wp (consume packet) Q E s ↔ wp (processOrdered packet.flags packet.data)
      (fun ready a => if s.expected.key + 1 < 2 ^ 48 then
          Q ready ⟨.ofKey (s.expected.key + 1), { s.window with assembly := a }⟩
        else E (.runtimeError "Packet generation overflow")
          ⟨s.expected, { s.window with assembly := a }⟩)
      (fun e a => E e ⟨s.expected, { s.window with assembly := a }⟩) s.window.assembly := by
  unfold consume
  simp only [wp_bind, wp_zoom, wp_pure]
  have hadvance : ∀ (ready : List Bytes) (a : Assembly),
      wp PacketSequence.advance
        (fun _ e => Q ready ⟨e, { s.window with assembly := a }⟩)
        (fun f e => E f ⟨e, { s.window with assembly := a }⟩) s.expected ↔
      if s.expected.key + 1 < 2 ^ 48 then
        Q ready ⟨.ofKey (s.expected.key + 1), { s.window with assembly := a }⟩
      else E (.runtimeError "Packet generation overflow")
        ⟨s.expected, { s.window with assembly := a }⟩ := fun ready a => by
    by_cases h : s.expected.key + 1 < 2 ^ 48
    · rw [if_pos h, wp_of_eq_ok (PacketSequence.advance_of_lt h)]
    · rw [if_neg h, wp_of_eq_error (PacketSequence.advance_of_not_lt h)]
  constructor
  · exact fun h => wp_mono h (fun ready a h => (hadvance ready a).1 h) fun _ _ h => h
  · exact fun h => wp_mono h (fun ready a h => (hadvance ready a).2 h) fun _ _ h => h

/-- The queue is not touched by the processing. -/
theorem consume_queued (packet : QueuedPacket) (s : Receiver) :
    wp (consume packet) (fun _ s' => s'.window.queued = s.window.queued)
      (fun _ s' => s'.window.queued = s.window.queued) s := by
  rw [wp_consume]
  refine wp_mono (Q := fun _ _ => True) (E := fun _ _ => True) ?_ (fun _ a _ => ?_) fun _ _ _ => rfl
  · unfold wp; split <;> trivial
  · split_ifs <;> rfl

/-! ## The loop over the queue -/

/-- The rule for `drain`: what each queued packet preserves, the whole loop preserves, and after
it the expected packet is not queued. The queue's size bounds the turns. -/
theorem wp_drain {I : List Bytes → Receiver → Prop}
    (hstep : ∀ ready s packet, I ready s → s.window.queued.find? s.expected.key = some packet →
      wp (consume packet) (fun more s' => I (ready ++ more) s') E
        { s with window.queued := s.window.queued.erase s.expected.key }) :
    ∀ (fuel : ℕ) (ready : List Bytes) (s : Receiver), s.window.queued.size < fuel → I ready s →
      wp (drain fuel) (fun more s' => I (ready ++ more) s' ∧
        s'.window.queued.find? s'.expected.key = none) E s := by
  intro fuel
  induction fuel with
  | zero => intro ready s h; omega
  | succ fuel ih =>
    intro ready s hsize hI
    unfold drain
    rw [wp_bind, wp_get]
    cases hq : s.window.queued.find? s.expected.key with
    | none =>
      show wp (pure []) _ _ s
      rw [wp_pure, List.append_nil]
      exact ⟨hI, hq⟩
    | some packet =>
      have hsize' := OrderedMap.size_erase_of_find? hq
      simp only [wp_bind, wp_set, wp_pure]
      have hlt : (s.window.queued.erase s.expected.key).size < fuel := by omega
      have h := wp_and.2 ⟨hstep ready s packet hI hq, consume_queued packet _⟩
      refine wp_mono h (fun more s' h => ?_) fun _ _ h => h.1
      refine wp_mono (ih (ready ++ more) s' (by rw [h.2]; exact hlt) h.1)
        (fun rest s'' h => ?_) fun _ _ h => h
      rwa [List.append_assoc] at h

/-! ## The window -/

/-- The queued keys lie in the window, from the expected key on. -/
def Near (s : Receiver) : Prop :=
  ∀ key packet, s.window.queued.find? key = some packet →
    s.expected.key ≤ key ∧ key ≤ s.expected.key + maxQueuedPackets

/-- The queued keys lie in the window, and the expected packet is not queued. -/
def Ahead (s : Receiver) : Prop :=
  ∀ key packet, s.window.queued.find? key = some packet →
    s.expected.key < key ∧ key ≤ s.expected.key + maxQueuedPackets

theorem Near.ahead (h : s.Near) (hnone : s.window.queued.find? s.expected.key = none) :
    s.Ahead := by
  intro key packet hpacket
  obtain ⟨hle, hnear⟩ := h key packet hpacket
  have hne : s.expected.key ≠ key := by
    rintro rfl
    rw [hnone] at hpacket
    cases hpacket
  exact ⟨lt_of_le_of_ne hle hne, hnear⟩

/-- A packet of the window that is not queued finds room. -/
theorem Ahead.size_lt (h : s.Ahead) {key : ℕ} (hkey : s.expected.key < key)
    (hnear : key ≤ s.expected.key + maxQueuedPackets)
    (hnew : s.window.queued.find? key = none) : s.window.queued.size < maxQueuedPackets := by
  have hsize : s.window.queued.size ≤
      ((Finset.Ioc s.expected.key (s.expected.key + maxQueuedPackets)).erase key).card := by
    refine OrderedMap.size_le_card fun k packet hpacket => ?_
    have hne : k ≠ key := by
      rintro rfl
      rw [hnew] at hpacket
      cases hpacket
    exact Finset.mem_erase.2 ⟨hne, Finset.mem_Ioc.2 (h k packet hpacket)⟩
  rw [Finset.card_erase_of_mem (Finset.mem_Ioc.2 ⟨hkey, hnear⟩), Nat.card_Ioc] at hsize
  unfold maxQueuedPackets at *
  omega

/-- What `Feed` does, by the place of its packet. -/
theorem feed_cases (h : s.Ahead) {packetId : UInt16} {generationId : UInt32} {key : ℕ}
    (hkey : sequenceKey packetId generationId = key) (flags : PacketFlags) (plaintext : Bytes) :
    (key < s.expected.key ∧ feed packetId generationId flags plaintext s = .ok [] s) ∨
    (s.expected.key + maxQueuedPackets < key ∧ feed packetId generationId flags plaintext s =
      .error (.runtimeError "Server Command packet is outside the receive window") s) ∨
    ((s.expected.key < key ∧ key ≤ s.expected.key + maxQueuedPackets) ∧
      ((s.window.queued.contains key = true ∧
          feed packetId generationId flags plaintext s = .ok [] s) ∨
        (s.window.queued.contains key = false ∧ feed packetId generationId flags plaintext s =
          .ok [] { s with window.queued :=
            s.window.queued.insert key { flags, data := plaintext } }))) ∨
    (key = s.expected.key ∧ feed packetId generationId flags plaintext s = (do
      let ready ← consume { flags, data := plaintext }
      let more ← drain (s.window.queued.size + 1)
      return ready ++ more) s) := by
  unfold feed
  rw [run_get_bind]
  dsimp only
  rw [run_ite, run_ite, run_ite, run_ite, run_ite, hkey]
  rcases lt_trichotomy key s.expected.key with hlt | heq | hgt
  · exact .inl ⟨hlt, if_pos hlt⟩
  · refine .inr (.inr (.inr ⟨heq, ?_⟩))
    rw [if_neg heq.not_lt, if_neg heq.not_gt]
  · rw [if_neg hgt.not_gt, if_pos hgt]
    by_cases hfar : maxQueuedPackets < key - s.expected.key
    · exact .inr (.inl ⟨by omega, if_pos hfar⟩)
    · rw [if_neg hfar]
      refine .inr (.inr (.inl ⟨⟨hgt, by omega⟩, ?_⟩))
      cases hcontains : s.window.queued.contains key with
      | true => exact .inl ⟨rfl, if_neg Bool.noConfusion⟩
      | false =>
        have hsize := h.size_lt hgt (by omega) (OrderedMap.contains_eq_false_iff.1 hcontains)
        refine .inr ⟨rfl, ?_⟩
        rw [if_pos (by rfl), if_neg (not_le.2 hsize)]
        rfl

end Rules

end Receiver

end TsCli
