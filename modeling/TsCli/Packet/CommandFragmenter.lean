import TsCli.Packet.Format

/-!
# Cutting commands into packets

A command that fits one client payload travels in one packet. A longer one is cut into full
payloads and a rest, and the first and the last of these packets carry the flag `Fragmented`.
-/

namespace TsCli

/-- `CommandFragment`. -/
structure CommandFragment where
  offset : ℕ := 0
  size : ℕ := 0
  flags : PacketFlags := .none
  deriving DecidableEq, Repr

namespace CommandFragmenter

open PacketLimits

/-- The loop of `Plan`; `fuel` bounds its turns, of which each advances the offset. -/
def planLoop (commandSize : ℕ) : ℕ → ℕ → List CommandFragment
  | 0, _ => []
  | fuel + 1, offset =>
    if offset < commandSize then
      let fragmentSize := min maxClientPayload (commandSize - offset)
      let firstFragment := offset = 0
      let lastFragment := offset + fragmentSize = commandSize
      let flags := if firstFragment ∨ lastFragment then
        PacketFlags.newProtocol ||| PacketFlags.fragmented else PacketFlags.newProtocol
      { offset, size := fragmentSize, flags } ::
        planLoop commandSize fuel (offset + fragmentSize)
    else
      []

/-- `CommandFragmenter::Plan`. -/
def plan (commandSize : ℕ) : Except Failure (List CommandFragment) :=
  if maxCommandSize < commandSize then
    .error (.runtimeError "Session client command is too large")
  else if commandSize ≤ maxClientPayload then
    .ok [{ offset := 0, size := commandSize, flags := .newProtocol }]
  else
    .ok (planLoop commandSize commandSize 0)

/-- How many packets a command takes. -/
def packetCount (commandSize : ℕ) : ℕ :=
  if commandSize ≤ maxClientPayload then 1
  else (commandSize + maxClientPayload - 1) / maxClientPayload

theorem length_planLoop {commandSize : ℕ} : ∀ {fuel offset : ℕ}, commandSize - offset ≤ fuel →
    (planLoop commandSize fuel offset).length =
      (commandSize - offset + maxClientPayload - 1) / maxClientPayload := by
  have hpayload : maxClientPayload = 487 := rfl
  rw [hpayload]
  intro fuel
  induction fuel with
  | zero => intro offset h; rw [planLoop, List.length_nil]; omega
  | succ fuel ih =>
    intro offset h
    rw [planLoop]
    by_cases hlt : offset < commandSize
    · rw [if_pos hlt]
      dsimp only
      rw [hpayload, List.length_cons, ih (by omega)]
      omega
    · rw [if_neg hlt, List.length_nil]
      omega

/-- A plan has that many fragments. -/
theorem length_plan {commandSize : ℕ} {fragments : List CommandFragment}
    (h : plan commandSize = .ok fragments) : fragments.length = packetCount commandSize := by
  unfold plan at h
  unfold packetCount
  split_ifs at h ⊢ with hlarge hsmall
  · cases h; rfl
  · cases h; exact length_planLoop (by omega)

theorem plan_of_lt {commandSize : ℕ} (h : maxCommandSize < commandSize) :
    plan commandSize = .error (.runtimeError "Session client command is too large") := if_pos h

theorem exists_plan {commandSize : ℕ} (h : commandSize ≤ maxCommandSize) :
    ∃ fragments, plan commandSize = .ok fragments := by
  unfold plan
  rw [if_neg (by omega)]
  split_ifs <;> exact ⟨_, rfl⟩

theorem packetCount_pos (commandSize : ℕ) : 0 < packetCount commandSize := by
  have hpayload : maxClientPayload = 487 := rfl
  unfold packetCount
  rw [hpayload]
  split_ifs <;> omega

end CommandFragmenter

end TsCli
