import TsCli.Basic

/-!
# Packet sequences

A stream numbers its packets with a 16-bit id and a 32-bit generation that counts the wraps of
the id; only the id travels. `key` reads the pair as one 48-bit number, `advance` adds one to it
(`advance_eq_ok_iff`), and `resolveGeneration` recovers the generation of an id whose true number
lies within half an id range of the expected one (`resolveGeneration_of_close`).
-/

namespace TsCli

/-- The next packet of a stream: `PacketSequence`. -/
structure PacketSequence where
  packetId : UInt16 := 0
  generationId : UInt32 := 0
  deriving DecidableEq, Repr

/-- `SequenceKey( packetId, generationId )`. -/
def sequenceKey (packetId : UInt16) (generationId : UInt32) : ℕ :=
  (generationId.toNat <<< 16) ||| packetId.toNat

namespace PacketSequence

/-- `SequenceKey( sequence )`. -/
def key (sequence : PacketSequence) : ℕ := sequenceKey sequence.packetId sequence.generationId

/-- `PacketSequence::Advance`. -/
def advance : EStateM Failure PacketSequence Unit := do
  let sequence ← get
  if sequence.packetId = 65535 then
    if sequence.generationId = 4294967295 then
      throw (.runtimeError "Packet generation overflow")
    set (PacketSequence.mk 0 (sequence.generationId + 1))
  else
    set { sequence with packetId := sequence.packetId + 1 }

/-- The update of an incoming sequence by an authenticated packet, as `HandleAck`, `HandleAckLow`
and `HandleVoice` each spell it out. -/
def accept (packetId : UInt16) (generationId : UInt32) : EStateM Failure PacketSequence Unit := do
  let expected ← get
  if expected.key ≤ sequenceKey packetId generationId then
    set (PacketSequence.mk packetId generationId)
    advance

end PacketSequence

/-- `ResolveGeneration`. -/
def resolveGeneration (expected : PacketSequence) (packetId : UInt16) : Except Failure UInt32 :=
  let sequenceSize : UInt32 := 65536
  let halfSequenceSize : UInt32 := sequenceSize / 2
  let expectedId : UInt32 := expected.packetId.toUInt32
  let receivedId : UInt32 := packetId.toUInt32
  let forwardDistance := (receivedId + sequenceSize - expectedId) % sequenceSize
  if forwardDistance = 0 then
    .ok expected.generationId
  else if forwardDistance = halfSequenceSize then
    .error (.runtimeError "Ambiguous server packet generation")
  else if forwardDistance < halfSequenceSize then
    if packetId < expected.packetId then
      if expected.generationId = 4294967295 then
        .error (.runtimeError "Packet generation overflow")
      else
        .ok (expected.generationId + 1)
    else
      .ok expected.generationId
  else if expected.packetId < packetId then
    if expected.generationId = 0 then
      .error (.runtimeError "Server packet belongs to an invalid previous generation")
    else
      .ok (expected.generationId - 1)
  else
    .ok expected.generationId

/-- A generation that cannot be told fails with a text. -/
theorem eq_of_resolveGeneration_error {expected : PacketSequence} {packetId : UInt16}
    {failure : Failure} (h : resolveGeneration expected packetId = .error failure) :
    ∃ message, failure = .runtimeError message := by
  unfold resolveGeneration at h
  dsimp only at h
  split_ifs at h <;> cases h <;> exact ⟨_, rfl⟩

/-! ## Keys -/

theorem sequenceKey_eq (packetId : UInt16) (generationId : UInt32) :
    sequenceKey packetId generationId = generationId.toNat * 65536 + packetId.toNat := by
  have h : packetId.toNat < 2 ^ 16 := packetId.toNat_lt
  unfold sequenceKey
  rw [← Nat.shiftLeft_add_eq_or_of_lt h, Nat.shiftLeft_eq]

theorem sequenceKey_lt (packetId : UInt16) (generationId : UInt32) :
    sequenceKey packetId generationId < 2 ^ 48 := by
  have h1 := packetId.toNat_lt
  have h2 := generationId.toNat_lt
  rw [sequenceKey_eq]
  omega

theorem sequenceKey_inj {i j : UInt16} {g g' : UInt32} :
    sequenceKey i g = sequenceKey j g' ↔ i = j ∧ g = g' := by
  constructor
  · intro h
    have h1 := i.toNat_lt
    have h2 := j.toNat_lt
    rw [sequenceKey_eq, sequenceKey_eq] at h
    exact ⟨UInt16.toNat_inj.1 (by omega), UInt32.toNat_inj.1 (by omega)⟩
  · rintro ⟨rfl, rfl⟩; rfl

/-- The id in the packet of number `T`. -/
def packetIdOf (T : ℕ) : UInt16 := UInt16.ofNat (T % 65536)

/-- The generation of the packet of number `T`. -/
def generationOf (T : ℕ) : UInt32 := UInt32.ofNat (T / 65536)

theorem toNat_packetIdOf (T : ℕ) : (packetIdOf T).toNat = T % 65536 := by
  exact UInt16.toNat_ofNat_of_lt' (Nat.mod_lt _ (by norm_num))

theorem toNat_generationOf {T : ℕ} (h : T < 2 ^ 48) : (generationOf T).toNat = T / 65536 := by
  refine UInt32.toNat_ofNat_of_lt' ?_
  show T / 65536 < 2 ^ 32
  omega

theorem sequenceKey_of {T : ℕ} (h : T < 2 ^ 48) :
    sequenceKey (packetIdOf T) (generationOf T) = T := by
  rw [sequenceKey_eq, toNat_packetIdOf, toNat_generationOf h]
  omega

namespace PacketSequence

theorem key_eq (s : PacketSequence) :
    s.key = s.generationId.toNat * 65536 + s.packetId.toNat := sequenceKey_eq _ _

theorem key_lt (s : PacketSequence) : s.key < 2 ^ 48 := sequenceKey_lt _ _

theorem key_inj {s t : PacketSequence} : s.key = t.key ↔ s = t := by
  unfold key
  rw [sequenceKey_inj]
  cases s; cases t
  simp

/-- The sequence that stands at number `T`. -/
def ofKey (T : ℕ) : PacketSequence := ⟨packetIdOf T, generationOf T⟩

theorem key_ofKey {T : ℕ} (h : T < 2 ^ 48) : (ofKey T).key = T := sequenceKey_of h

theorem ofKey_key (s : PacketSequence) : ofKey s.key = s := key_inj.1 (key_ofKey s.key_lt)

theorem packetId_eq (s : PacketSequence) : s.packetId = packetIdOf s.key :=
  congrArg PacketSequence.packetId (ofKey_key s).symm

/-! ## Advancing -/

/-- `advance` adds one to the key, and throws with the sequence unchanged at the last key. -/
theorem advance_spec (s : PacketSequence) :
    advance s = if s.key + 1 < 2 ^ 48 then .ok () (ofKey (s.key + 1))
      else .error (.runtimeError "Packet generation overflow") s := by
  obtain ⟨i, g⟩ := s
  have h1 := i.toNat_lt
  have h2 := g.toNat_lt
  have hi : i = 65535 ↔ i.toNat = 65535 := by rw [← UInt16.toNat_inj]; rfl
  have hg : g = 4294967295 ↔ g.toNat = 4294967295 := by rw [← UInt32.toNat_inj]; rfl
  have hkey : (PacketSequence.mk i g).key = g.toNat * 65536 + i.toNat := key_eq _
  have hrun : advance ⟨i, g⟩ = if i = 65535 then
      if g = 4294967295 then .error (.runtimeError "Packet generation overflow") ⟨i, g⟩
      else .ok () ⟨0, g + 1⟩
    else .ok () ⟨i + 1, g⟩ := by
    simp only [advance, Exec.run_get_bind, Exec.run_ite, Exec.run_throw_bind, Exec.run_set]
  rw [hrun]
  by_cases h : i = 65535
  · rw [if_pos h]
    by_cases h' : g = 4294967295
    · rw [if_pos h', if_neg (by rw [hkey, hi.1 h, hg.1 h']; omega)]
    · have hlt : g.toNat + 1 < 2 ^ 32 := by
        have := mt hg.2 h'
        omega
      rw [if_neg h', if_pos (by rw [hkey]; omega)]
      congr 1
      refine key_inj.1 ?_
      rw [key_ofKey (by rw [hkey]; omega), hkey, key_eq, hi.1 h]
      simp only [UInt32.toNat_add, UInt32.toNat_one, UInt16.toNat_zero]
      omega
  · rw [if_neg h, if_pos (by rw [hkey]; have := mt hi.2 h; omega)]
    congr 1
    refine key_inj.1 ?_
    have := mt hi.2 h
    rw [key_ofKey (by rw [hkey]; omega), hkey, key_eq]
    simp only [UInt16.toNat_add, UInt16.toNat_one]
    omega

theorem advance_of_lt {s : PacketSequence} (h : s.key + 1 < 2 ^ 48) :
    advance s = .ok () (ofKey (s.key + 1)) := by rw [advance_spec, if_pos h]

theorem advance_of_not_lt {s : PacketSequence} (h : ¬ s.key + 1 < 2 ^ 48) :
    advance s = .error (.runtimeError "Packet generation overflow") s := by
  rw [advance_spec, if_neg h]

theorem advance_eq_ok_iff {s t : PacketSequence} :
    advance s = .ok () t ↔ s.key + 1 < 2 ^ 48 ∧ t = ofKey (s.key + 1) := by
  by_cases h : s.key + 1 < 2 ^ 48
  · rw [advance_of_lt h]
    exact ⟨fun he => by cases he; exact ⟨h, rfl⟩, fun he => by rw [he.2]⟩
  · rw [advance_of_not_lt h]
    exact ⟨nofun, fun he => absurd he.1 h⟩

/-- `accept` ignores a packet behind the expected one, and goes behind any other. -/
theorem accept_spec (packetId : UInt16) (generationId : UInt32) (s : PacketSequence) :
    accept packetId generationId s = if s.key ≤ sequenceKey packetId generationId then
      advance ⟨packetId, generationId⟩ else .ok () s := by
  unfold accept
  rw [Exec.run_get_bind, Exec.run_ite]
  rfl

end PacketSequence

/-! ## Resolving the generation -/

/-- A packet whose true number is less than half an id range away from the expected one, on
either side, gets its true generation. -/
theorem resolveGeneration_of_close {expected : PacketSequence} {T : ℕ} (hT : T < 2 ^ 48)
    (hahead : T < expected.key + 32768) (hbehind : expected.key < T + 32768) :
    resolveGeneration expected (packetIdOf T) = .ok (generationOf T) := by
  have hx := toNat_packetIdOf T
  have hg := toNat_generationOf hT
  have hy := expected.packetId.toNat_lt
  have hg' := expected.generationId.toNat_lt
  have hkey := expected.key_eq
  -- the distance travelled from the expected id, computed in 32 bits without overflow
  have hd : (((packetIdOf T).toUInt32 + 65536 - expected.packetId.toUInt32) % 65536).toNat =
      (T % 65536 + 65536 - expected.packetId.toNat) % 65536 := by
    rw [UInt32.toNat_mod, UInt32.toNat_sub_of_le, UInt32.toNat_add]
    · simp only [UInt16.toNat_toUInt32, hx, UInt32.reduceToNat]
      omega
    · rw [UInt32.le_iff_toNat_le, UInt32.toNat_add]
      simp only [UInt16.toNat_toUInt32, hx, UInt32.reduceToNat]
      omega
  unfold resolveGeneration
  simp only [← UInt32.toNat_inj, UInt32.lt_iff_toNat_lt, UInt16.lt_iff_toNat_lt, hd, hx,
    UInt32.reduceToNat, UInt32.reduceDiv]
  split_ifs with h1 h2 h3 h4 h5 h6 h7
  · exact congrArg Except.ok (UInt32.toNat_inj.1 (by omega))
  · omega
  · omega
  · refine congrArg Except.ok (UInt32.toNat_inj.1 ?_)
    rw [UInt32.toNat_add, UInt32.toNat_one]; omega
  · exact congrArg Except.ok (UInt32.toNat_inj.1 (by omega))
  · omega
  · refine congrArg Except.ok (UInt32.toNat_inj.1 ?_)
    rw [UInt32.toNat_sub_of_le, UInt32.toNat_one]
    · omega
    · rw [UInt32.le_iff_toNat_le, UInt32.toNat_one]; omega
  · exact congrArg Except.ok (UInt32.toNat_inj.1 (by omega))

end TsCli
