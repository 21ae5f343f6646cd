import TsCli.Basic
import TsCli.Lib.BigEndian
import TsCli.Lib.RepeatedSquaring

/-!
# The puzzle of the server

The client shows that it has spent time by squaring a number of the server's choice `level` times
modulo another one. The numbers are those of OpenSSL, which is a parameter. Each squaring also
reduces its result; at level zero there is none, so a start that is not below the modulus is
returned as it is.
-/

namespace TsCli

open BigEndian RepeatedSquaring

/-- The functions on `BIGNUM` that the source calls. A status is the `int` that they return. -/
structure BigNumbers (BN : Type) where
  /-- `BN_bin2bn`; `none` is a null pointer. -/
  bin2bn : Bytes → Option BN
  /-- Whether `BN_CTX_new` returns a context. -/
  ctxNew : Bool
  /-- `BN_mod_sqr`: value and modulus; the status and the result. -/
  modSqr : BN → BN → ℤ × BN
  /-- `BN_bn2binpad`: the number and the buffer; the status and the buffer. -/
  bn2binpad : BN → Bytes → ℤ × Bytes

namespace BigNumbers

variable {BN : Type}

/-- What the manual says of the functions, when memory suffices. -/
structure Documented (lib : BigNumbers BN) (number : BN → ℕ) : Prop where
  bin2bn : ∀ bytes, ∃ a, lib.bin2bn bytes = some a ∧ number a = value bytes
  ctxNew : lib.ctxNew = true
  modSqr : ∀ a m, number m ≠ 0 →
    (lib.modSqr a m).1 = 1 ∧ number (lib.modSqr a m).2 = number a ^ 2 % number m
  bn2binpad : ∀ a buffer, number a < 256 ^ buffer.length →
    lib.bn2binpad a buffer = ((buffer.length : ℤ), fixed buffer.length (number a))

end BigNumbers

namespace PuzzleSolver

variable {BN : Type} (lib : BigNumbers BN)

/-- `PuzzleSolver::FromBytes`. -/
def fromBytes (data : Bytes) : Except Failure BN :=
  match lib.bin2bn data with
  | none => .error (.runtimeError "Failed to create BIGNUM")
  | some value => .ok value

/-- The loop of `PuzzleSolver::Solve`, with the number of turns that are left. -/
def solveLoop (modulus : BN) : ℕ → BN → Except Failure BN
  | 0, value => .ok value
  | remaining + 1, value => do
    let (status, value) := lib.modSqr value modulus
    throwIf (status ≠ 1) "Failed to solve TeamSpeak puzzle"
    solveLoop modulus remaining value

/-- `PuzzleSolver::Solve`. -/
def solve (x n : Bytes) (level : UInt32) : Except Failure Bytes := do
  let value ← fromBytes lib x
  let modulus ← fromBytes lib n
  throwIf (lib.ctxNew = false) "Failed to create BIGNUM context"
  let value ← solveLoop lib modulus level.toNat value
  let (written, result) := lib.bn2binpad value (List.replicate 64 0)
  throwIf (written ≠ 64) "Failed to serialize puzzle result"
  return result

/-- `SolvePuzzle`. -/
def solvePuzzle (x n : Bytes) (level : UInt32) : Except Failure Bytes := solve lib x n level

variable {lib} {number : BN → ℕ}

theorem fromBytes_spec (h : lib.Documented number) (data : Bytes) :
    ∃ a, fromBytes lib data = .ok a ∧ number a = value data := by
  obtain ⟨a, hrun, ha⟩ := h.bin2bn data
  refine ⟨a, ?_, ha⟩
  unfold fromBytes
  rw [hrun]

/-- The loop squares once for each turn. -/
theorem solveLoop_spec (h : lib.Documented number) {modulus : BN} (hm : number modulus ≠ 0) (k : ℕ)
    (a : BN) : ∃ b, solveLoop lib modulus k a = .ok b ∧
      number b = (squareMod (number modulus))^[k] (number a) := by
  induction k generalizing a with
  | zero => exact ⟨a, rfl, rfl⟩
  | succ k ih =>
    obtain ⟨hstatus, hsquare⟩ := h.modSqr a modulus hm
    obtain ⟨b, hrun, hb⟩ := ih (lib.modSqr a modulus).2
    refine ⟨b, ?_, ?_⟩
    · rw [solveLoop]
      dsimp only
      rw [throwIf_bind_of_not (not_not.2 hstatus), hrun]
    · rw [hb, hsquare, Function.iterate_succ_apply]
      rfl

/-- What `SolvePuzzle` returns, at every level. -/
theorem solvePuzzle_eq (h : lib.Documented number) {x n : Bytes} (hx : x.length = 64)
    (hn : n.length = 64) (hpos : value n ≠ 0) (level : UInt32) :
    solvePuzzle lib x n level =
      .ok (fixed 64 ((squareMod (value n))^[level.toNat] (value x))) := by
  obtain ⟨a, ha, hax⟩ := fromBytes_spec h x
  obtain ⟨m, hm, hmn⟩ := fromBytes_spec h n
  obtain ⟨b, hb, hnumber⟩ := solveLoop_spec h (hmn.trans_ne hpos) level.toNat a
  rw [hmn, hax] at hnumber
  have hfits : number b < 256 ^ (List.replicate 64 (0 : UInt8)).length := by
    rw [hnumber, List.length_replicate]
    refine iterate_lt_of_lt (Nat.pos_of_ne_zero hpos) ?_ ?_
    · exact hx ▸ value_lt x
    · exact hn ▸ (value_lt n).le
  unfold solvePuzzle solve
  rw [ha, hm]
  show (throwIf _ _ >>= fun _ => solveLoop lib m level.toNat a >>= _) = _
  rw [throwIf_bind_of_not (by rw [h.ctxNew]; exact Bool.noConfusion), hb]
  have hpad := h.bn2binpad b _ hfits
  rw [List.length_replicate, hnumber] at hpad
  show (throwIf ((lib.bn2binpad b (List.replicate 64 0)).1 ≠ 64) _ >>= fun _ =>
    .ok (lib.bn2binpad b (List.replicate 64 0)).2) = _
  rw [throwIf_bind_of_not (by rw [hpad]; exact not_not.2 rfl), hpad]

/-- **The solution is `x ^ 2 ^ level mod n`**, but for a start that level zero leaves unreduced. -/
theorem solvePuzzle_exact_iff (h : lib.Documented number) {x n : Bytes} (hx : x.length = 64)
    (hn : n.length = 64) (hpos : value n ≠ 0) (level : UInt32) :
    solvePuzzle lib x n level = .ok (fixed 64 (value x ^ 2 ^ level.toNat % value n)) ↔
      level ≠ 0 ∨ value x < value n := by
  have hlevel : level ≠ 0 ↔ level.toNat ≠ 0 := not_congr UInt32.toNat_inj.symm
  have hn0 := Nat.pos_of_ne_zero hpos
  have hwidth : value n ≤ 256 ^ 64 := hn ▸ (value_lt n).le
  rw [solvePuzzle_eq h hx hn hpos, hlevel, ← iterate_eq_iff hn0]
  refine ⟨fun heq => ?_, fun heq => by rw [heq]⟩
  have hvalue := congrArg value (Except.ok.inj heq)
  rwa [value_fixed (iterate_lt_of_lt hn0 (hx ▸ value_lt x) hwidth),
    value_fixed ((Nat.mod_lt _ hn0).trans_le hwidth)] at hvalue

/-! ## Natural numbers as the library -/

/-- Unbounded numbers. -/
def natural : BigNumbers ℕ where
  bin2bn bytes := some (value bytes)
  ctxNew := true
  modSqr a m := if m = 0 then (0, a) else (1, a ^ 2 % m)
  bn2binpad a buffer :=
    if a < 256 ^ buffer.length then (buffer.length, fixed buffer.length a) else (-1, buffer)

theorem documented_natural : natural.Documented id where
  bin2bn bytes := ⟨value bytes, rfl, rfl⟩
  ctxNew := rfl
  modSqr a m hm := by
    show (if m = 0 then ((0 : ℤ), a) else (1, a ^ 2 % m)).1 = 1 ∧
      (if m = 0 then ((0 : ℤ), a) else (1, a ^ 2 % m)).2 = a ^ 2 % m
    have hm' : ¬ m = 0 := hm
    rw [if_neg hm']
    exact ⟨rfl, rfl⟩
  bn2binpad a buffer h := if_pos h

/-- The modulus is one, so the solution is zero; level zero returns the two that it started with. -/
theorem solvePuzzle_unreduced :
    natural.Documented id ∧ (fixed 64 2).length = 64 ∧ (fixed 64 1).length = 64 ∧
      value (fixed 64 1) ≠ 0 ∧
      solvePuzzle natural (fixed 64 2) (fixed 64 1) 0 = .ok (fixed 64 2) ∧
      solvePuzzle natural (fixed 64 2) (fixed 64 1) 0 ≠
        .ok (fixed 64 (value (fixed 64 2) ^ 2 ^ (0 : UInt32).toNat % value (fixed 64 1))) := by
  have htwo : value (fixed 64 2) = 2 := value_fixed (by norm_num)
  have hone : value (fixed 64 1) = 1 := value_fixed (by norm_num)
  have hrun : solvePuzzle natural (fixed 64 2) (fixed 64 1) 0 = .ok (fixed 64 2) := by
    rw [solvePuzzle_eq documented_natural (length_fixed 64 2) (length_fixed 64 1)
      (hone.trans_ne one_ne_zero), htwo]
    rfl
  refine ⟨documented_natural, length_fixed 64 2, length_fixed 64 1, hone.trans_ne one_ne_zero, hrun,
    ?_⟩
  rw [hrun, hone, Nat.mod_one]
  intro h
  have hvalue := congrArg value (Except.ok.inj h)
  rw [htwo, value_fixed (by norm_num)] at hvalue
  cases hvalue

/-- Level two, with a start above the modulus: `5 ^ 4 mod 3`. -/
theorem solvePuzzle_exact_iff_five :
    value (fixed 64 3) ≠ 0 ∧
      solvePuzzle natural (fixed 64 5) (fixed 64 3) 2 =
        .ok (fixed 64 (value (fixed 64 5) ^ 2 ^ (2 : UInt32).toNat % value (fixed 64 3))) := by
  have hthree : value (fixed 64 3) ≠ 0 := (value_fixed (by norm_num)).trans_ne (by decide)
  exact ⟨hthree, (solvePuzzle_exact_iff documented_natural (length_fixed 64 5) (length_fixed 64 3)
    hthree 2).2 (.inl (by decide))⟩

end PuzzleSolver

end TsCli
