import Mathlib.Data.List.GetD
import TsCli.Compression.QuickLz
import TsCli.Lib.LatestIndex

/-!
# The level-1 QuickLZ format

What a compressed payload stands for, stated without a decoder: the bytes after the header are a
stream of tokens, and the tokens are expanded from the left. A control bit says whether the next
token is a literal or a match; control bits come from words of 32 bits, low to high, and the highest
bit of a word only marks its end. The last ten bytes of the output are literals.

A match names the 12-bit hash of three bytes. It stands for the greatest position hashed so far
whose three bytes have that hash. Hashed are the positions whose three bytes are all decoded, except
those strictly inside an earlier match. This is a search through everything decoded so far, for each
match anew: there is no table here.
-/

namespace TsCli.QuickLzFormat

/-- One element of the stream. -/
inductive Token
  | literal (value : UInt8)
  | reference (hash length : ℕ)
  deriving DecidableEq, Repr

/-! ## Reading the tokens -/

/-- A control word, in little-endian order. Zero is none: it has no end marker. -/
def readWord : Bytes → Option (ℕ × Bytes)
  | b0 :: b1 :: b2 :: b3 :: source =>
    let value := b0.toNat + 2 ^ 8 * b1.toNat + 2 ^ 16 * b2.toNat + 2 ^ 24 * b3.toNat
    if value = 0 then none else some (value, source)
  | _ => none

/-- A match: twelve bits of hash over four bits of length. The length `n + 2` is written `n` in
short form; in long form the four bits are zero and a byte follows. -/
def readReference : Bytes → Option (ℕ × ℕ × Bytes)
  | low :: high :: source =>
    let encoded := low.toNat + 2 ^ 8 * high.toNat
    if encoded % 16 ≠ 0 then
      some (encoded / 16, encoded % 16 + 2, source)
    else
      match source with
      | length :: source => some (encoded / 16, length.toNat, source)
      | [] => none
  | _ => none

/-- The literals at the end. The control words among them are passed over: each counts for the 31
bits below its marker, whatever it says. -/
def tail : ℕ → ℕ → Bytes → Option Bytes
  | 0, _, _ => some []
  | remaining + 1, control, source => do
    let (control, source) ←
      if control = 1 then
        if source.length < 4 then none else some (2 ^ 31, source.drop 4)
      else some (control, source)
    match source with
    | value :: source => return value :: (← tail remaining (control / 2) source)
    | [] => none

theorem tail_of_bits {control : ℕ} (h : control ≠ 1) (remaining : ℕ) (value : UInt8)
    (source : Bytes) : tail (remaining + 1) control (value :: source) =
      (tail remaining (control / 2) source).map (value :: ·) := by
  rw [tail, if_neg h]
  show (tail remaining (control / 2) source).bind _ = _
  rw [Option.map_eq_bind]
  rfl

theorem tail_of_word {word source : Bytes} (h : word.drop 4 = value :: source) (remaining : ℕ) :
    tail (remaining + 1) 1 word = (tail remaining (2 ^ 30) source).map (value :: ·) := by
  have hlen := congrArg List.length h
  rw [List.length_drop, List.length_cons] at hlen
  rw [tail, if_pos rfl, if_neg (by omega), h]
  show (tail remaining (2 ^ 31 / 2) source).bind _ = _
  rw [Option.map_eq_bind]
  rfl

/-- The control bits not used yet, under their end marker: the marker alone calls for the next
word. -/
def fetch (control : ℕ) (source : Bytes) : Option (ℕ × Bytes) :=
  if control = 1 then readWord source else some (control, source)

/-- The tokens of a stream that has `remaining` bytes of output to come. -/
def tokens (remaining control : ℕ) (source : Bytes) : Option (List Token) :=
  if remaining = 0 then some []
  else do
    let (control, source) ← fetch control source
    if control % 2 = 1 then
      let (hash, length, source) ← readReference source
      if h : 3 ≤ length ∧ length ≤ remaining then
        return .reference hash length :: (← tokens (remaining - length) (control / 2) source)
      else none
    else if remaining ≤ 10 then
      return (← tail remaining control source).map .literal
    else
      match source with
      | value :: source => return .literal value :: (← tokens (remaining - 1) (control / 2) source)
      | [] => none
termination_by remaining

section Equations

variable {remaining control bits : ℕ} {source source' : Bytes} (hremaining : remaining ≠ 0)
  (hfetch : fetch control source = some (bits, source'))

include hremaining hfetch

theorem tokens_of_reference {hash length : ℕ} {rest : Bytes} (hbit : bits % 2 = 1)
    (href : readReference source' = some (hash, length, rest))
    (hlen : 3 ≤ length ∧ length ≤ remaining) :
    tokens remaining control source =
      (tokens (remaining - length) (bits / 2) rest).map (.reference hash length :: ·) := by
  rw [tokens, if_neg hremaining, hfetch]
  simp [hbit, href, hlen, Option.map_eq_bind]

theorem tokens_of_tail (hbit : bits % 2 ≠ 1) (hle : remaining ≤ 10) :
    tokens remaining control source = (tail remaining bits source').map (·.map .literal) := by
  rw [tokens, if_neg hremaining, hfetch]
  simp [hbit, hle, Option.map_eq_bind]

theorem tokens_of_literal {value : UInt8} {rest : Bytes} (hbit : bits % 2 ≠ 1)
    (hgt : ¬ remaining ≤ 10) (hsource : source' = value :: rest) :
    tokens remaining control source =
      (tokens (remaining - 1) (bits / 2) rest).map (.literal value :: ·) := by
  rw [tokens, if_neg hremaining, hfetch]
  simp [hbit, hgt, hsource, Option.map_eq_bind]

end Equations

/-! ## Expanding the tokens -/

/-- A match of the output: where it starts and how long it is. -/
structure Match where
  start : ℕ
  length : ℕ
  deriving DecidableEq, Repr

/-- `p` lies strictly inside the match. -/
def Match.Interior (m : Match) (p : ℕ) : Prop := m.start < p ∧ p < m.start + m.length

instance (m : Match) : DecidablePred m.Interior := fun _ => inferInstanceAs (Decidable (_ ∧ _))

/-- The bytes decoded so far and the matches among them. -/
structure Decoded where
  bytes : Bytes := []
  references : List Match := []
  deriving DecidableEq, Repr

/-- The 12-bit hash of the three bytes at `p`. -/
def hashAt (bytes : Bytes) (p : ℕ) : ℕ :=
  QuickLzDecoder.hash ((bytes.getD p 0).toUInt32 ||| ((bytes.getD (p + 1) 0).toUInt32 <<< 8) |||
    ((bytes.getD (p + 2) 0).toUInt32 <<< 16))

/-- The byte-by-byte copy of a match: a byte copied early may be copied again. -/
def copy : Bytes → ℕ → ℕ → Bytes
  | bytes, _, 0 => bytes
  | bytes, position, count + 1 => copy (bytes ++ [bytes.getD position 0]) (position + 1) count

theorem hashAt_append {bytes : Bytes} (more : Bytes) {p : ℕ} (h : p + 3 ≤ bytes.length) :
    hashAt (bytes ++ more) p = hashAt bytes p := by
  unfold hashAt
  rw [List.getD_append _ _ _ _ (by omega), List.getD_append _ _ _ _ (by omega),
    List.getD_append _ _ _ _ (by omega)]

theorem hashAt_take {bytes : Bytes} {p n : ℕ} (h : p + 3 ≤ n) (hn : n ≤ bytes.length) :
    hashAt (bytes.take n) p = hashAt bytes p := by
  conv_rhs => rw [← List.take_append_drop n bytes]
  exact (hashAt_append _ (by rw [List.length_take]; omega)).symm

/-- A copy leaves what was there and adds its bytes behind it. -/
theorem copy_eq_append (bytes : Bytes) (position count : ℕ) :
    ∃ more, copy bytes position count = bytes ++ more ∧ more.length = count := by
  induction count generalizing bytes position with
  | zero => exact ⟨[], by simp [copy], rfl⟩
  | succ count ih =>
    obtain ⟨more, hcopy, hlen⟩ := ih (bytes ++ [bytes.getD position 0]) (position + 1)
    exact ⟨bytes.getD position 0 :: more, by rw [copy, hcopy, List.append_assoc]; rfl, by simp [hlen]⟩

@[simp] theorem length_copy (bytes : Bytes) (position count : ℕ) :
    (copy bytes position count).length = bytes.length + count := by
  obtain ⟨more, hcopy, hlen⟩ := copy_eq_append bytes position count
  rw [hcopy, List.length_append, hlen]

namespace Decoded

/-- `p` is hashed: its three bytes are decoded and it is not strictly inside a match. -/
def Hashed (d : Decoded) (p : ℕ) : Prop :=
  p + 3 ≤ d.bytes.length ∧ ∀ m ∈ d.references, ¬ m.Interior p

instance (d : Decoded) : DecidablePred d.Hashed :=
  fun p => inferInstanceAs (Decidable (p + 3 ≤ d.bytes.length ∧ ∀ m ∈ d.references, ¬ m.Interior p))

/-- The greatest hashed position whose three bytes have the hash. -/
def reference? (d : Decoded) (hash : ℕ) : Option ℕ :=
  LatestIndex.search ((List.range d.bytes.length).filter (d.Hashed ·)) (hashAt d.bytes) hash

/-- The expansion of one token. -/
def append (d : Decoded) : Token → Option Decoded
  | .literal value => some { d with bytes := d.bytes ++ [value] }
  | .reference hash length => do
    let position ← d.reference? hash
    return { bytes := copy d.bytes position length
             references := d.references ++ [⟨d.bytes.length, length⟩] }

/-- The expansion of a list of tokens. -/
def expand (d : Decoded) (tokens : List Token) : Option Decoded := tokens.foldlM append d

/-- The search for a reference finds the greatest hashed position with the hash. -/
theorem isLatest_reference? (d : Decoded) :
    LatestIndex.IsLatest {p | d.Hashed p} (hashAt d.bytes) d.reference? := by
  refine LatestIndex.isLatest_search fun p => ?_
  simp only [List.mem_filter, List.mem_range, decide_eq_true_eq, Set.mem_ofPred_eq]
  exact ⟨fun h => h.2, fun h => ⟨by have := h.1; omega, h⟩⟩

@[simp] theorem expand_nil (d : Decoded) : d.expand [] = some d := rfl

theorem expand_cons (d : Decoded) (token : Token) (tokens : List Token) :
    d.expand (token :: tokens) = (d.append token).bind fun d => d.expand tokens := rfl

theorem expand_concat (d : Decoded) (tokens : List Token) (token : Token) :
    d.expand (tokens ++ [token]) = (d.expand tokens).bind fun d => d.append token := by
  show List.foldlM append d (tokens ++ [token]) = _
  rw [List.foldlM_append]
  simp [expand]

theorem expand_literals (d : Decoded) (values : Bytes) :
    d.expand (values.map .literal) = some { d with bytes := d.bytes ++ values } := by
  induction values generalizing d with
  | nil => simp
  | cons value values ih =>
    rw [List.map_cons, expand_cons]
    show expand { d with bytes := d.bytes ++ [value] } _ = _
    rw [ih]
    simp

end Decoded

end TsCli.QuickLzFormat
