import TsCli.Crypto.HashCash

/-!
# Reading Base64

`Base64Decode` completes a text whose padding was left out, lets OpenSSL decode it in groups of four
characters, and drops the bytes that stand for the padding. It reads back what `Base64Encode`
writes, with or without its padding (`decode_encode`).
-/

namespace TsCli

namespace Base64

/-- The character of a padding. -/
def pad : UInt8 := 0x3d

/-- The bits of a character; a padding stands for zeros. -/
def sextet (c : UInt8) : ℕ := if c = pad then 0 else alphabet.idxOf c

/-- The three bytes of a group. -/
def triple (a b c d : UInt8) : Bytes :=
  let bits := sextet a * 2 ^ 18 + sextet b * 2 ^ 12 + sextet c * 2 ^ 6 + sextet d
  [UInt8.ofNat (bits / 2 ^ 16), UInt8.ofNat (bits / 2 ^ 8 % 2 ^ 8), UInt8.ofNat (bits % 2 ^ 8)]

/-- A text, group by group. -/
def groups : Bytes → Bytes
  | a :: b :: c :: d :: text => triple a b c d ++ groups text
  | _ => []

/-- Groups of characters of the alphabet, with at most two paddings at the end. -/
structure Wellformed (text : Bytes) : Prop where
  groups : text.length % 4 = 0
  characters : ∃ body count, text = body ++ List.replicate count pad ∧ count ≤ 2 ∧
    ∀ c ∈ body, c ∈ alphabet

/-- What the documentation says of `EVP_DecodeBlock`; `none` is a negative result. -/
def Documented (decodeBlock : Bytes → Option Bytes) : Prop :=
  ∀ text, Wellformed text → decodeBlock text = some (groups text)

/-- The `switch` of `Base64Decode`. -/
def normalize (data : Bytes) : Except Failure Bytes :=
  if data.length % 4 = 0 then .ok data
  else if data.length % 4 = 2 then .ok (data ++ [pad, pad])
  else if data.length % 4 = 3 then .ok (data ++ [pad])
  else .error (.runtimeError "Invalid Base64 length")

/-- `padding` of `Base64Decode`. -/
def padding (normalized : Bytes) : ℕ :=
  (if normalized.getLast? = some pad then 1 else 0) +
    if normalized.dropLast.getLast? = some pad then 1 else 0

/-- `Base64Decode`. -/
def decode (decodeBlock : Bytes → Option Bytes) (data : Bytes) : Except Failure Bytes :=
  if data = [] then .ok []
  else do
    throwIf (2 ^ 31 - 1 < data.length) "Base64 input is too large"
    let normalized ← normalize data
    match decodeBlock normalized with
    | none => .error (.runtimeError "Failed to Base64 decode data")
    | some result =>
      if result.length < padding normalized then .error .outOfBounds
      else .ok (result.take (result.length - padding normalized))

/-! ## Characters -/

theorem digit_spec : ∀ n < 64, digit n ∈ alphabet ∧ digit n ≠ pad ∧ sextet (digit n) = n := by
  decide +kernel

theorem pad_notMem : pad ∉ alphabet := by decide +kernel

@[simp] theorem sextet_digit {n : ℕ} (h : n < 64) : sextet (digit n) = n := (digit_spec n h).2.2

@[simp] theorem sextet_pad : sextet pad = 0 := rfl

theorem digit_mem {n : ℕ} (h : n < 64) : digit n ∈ alphabet := (digit_spec n h).1

theorem ascii_pad : ascii "=" = [pad] := by decide +kernel

theorem ascii_padPad : ascii "==" = [pad, pad] := by decide +kernel

/-! ## What `Base64Encode` writes -/

/-- The paddings of an encoding. -/
def missing (data : Bytes) : ℕ := (3 - data.length % 3) % 3

/-- An encoding: characters, their paddings, and what the groups are. -/
structure Encoded (data text : Bytes) : Prop where
  body : ∃ body, text = body ++ List.replicate (missing data) pad ∧ ∀ c ∈ body, c ∈ alphabet
  length_text : text.length % 4 = 0
  groups : groups text = data ++ List.replicate (missing data) 0

theorem toNat_lt (a : UInt8) : a.toNat < 256 := UInt8.toNat_lt a

theorem triple_bytes (a b c : UInt8) :
    triple (digit (a.toNat / 4)) (digit (a.toNat % 4 * 16 + b.toNat / 16))
      (digit (b.toNat % 16 * 4 + c.toNat / 64)) (digit (c.toNat % 64)) = [a, b, c] := by
  have ha := toNat_lt a
  have hb := toNat_lt b
  have hc := toNat_lt c
  unfold triple
  rw [sextet_digit (by omega), sextet_digit (by omega), sextet_digit (by omega),
    sextet_digit (by omega)]
  dsimp only
  have hbits : a.toNat / 4 * 2 ^ 18 + (a.toNat % 4 * 16 + b.toNat / 16) * 2 ^ 12 +
      (b.toNat % 16 * 4 + c.toNat / 64) * 2 ^ 6 + c.toNat % 64 =
      a.toNat * 2 ^ 16 + b.toNat * 2 ^ 8 + c.toNat := by omega
  rw [hbits]
  have hfirst : (a.toNat * 2 ^ 16 + b.toNat * 2 ^ 8 + c.toNat) / 2 ^ 16 = a.toNat := by omega
  have hsecond : (a.toNat * 2 ^ 16 + b.toNat * 2 ^ 8 + c.toNat) / 2 ^ 8 % 2 ^ 8 = b.toNat := by
    omega
  have hthird : (a.toNat * 2 ^ 16 + b.toNat * 2 ^ 8 + c.toNat) % 2 ^ 8 = c.toNat := by omega
  rw [hfirst, hsecond, hthird, UInt8.ofNat_toNat, UInt8.ofNat_toNat, UInt8.ofNat_toNat]

theorem triple_congr {a b c d c' d' : UInt8} (hc : sextet c = sextet c')
    (hd : sextet d = sextet d') : triple a b c d = triple a b c' d' := by
  unfold triple
  rw [hc, hd]

theorem encoded_one (a : UInt8) : Encoded [a] (encodeBlock [a]) := by
  have ha := toNat_lt a
  have htext : encodeBlock [a] = [digit (a.toNat / 4), digit (a.toNat % 4 * 16), pad, pad] := by
    rw [encodeBlock, ascii_padPad]
    rfl
  rw [htext]
  refine ⟨⟨[digit (a.toNat / 4), digit (a.toNat % 4 * 16)], rfl, ?_⟩, by simp, ?_⟩
  · intro c hc
    simp only [List.mem_cons, List.not_mem_nil, or_false] at hc
    rcases hc with rfl | rfl
    · exact digit_mem (by omega)
    · exact digit_mem (by omega)
  · have htriple := triple_bytes a 0 0
    have hcongr := triple_congr (a := digit (a.toNat / 4)) (b := digit (a.toNat % 4 * 16))
      (c := pad) (d := pad) (sextet_digit (n := 0) (by decide)).symm
      (sextet_digit (n := 0) (by decide)).symm
    show triple _ _ pad pad ++ [] = _
    rw [hcongr, List.append_nil]
    exact htriple

theorem encoded_two (a b : UInt8) : Encoded [a, b] (encodeBlock [a, b]) := by
  have ha := toNat_lt a
  have hb := toNat_lt b
  have htext : encodeBlock [a, b] = [digit (a.toNat / 4), digit (a.toNat % 4 * 16 + b.toNat / 16),
      digit (b.toNat % 16 * 4), pad] := by
    rw [encodeBlock, ascii_pad]
    rfl
  rw [htext]
  refine ⟨⟨[digit (a.toNat / 4), digit (a.toNat % 4 * 16 + b.toNat / 16),
    digit (b.toNat % 16 * 4)], rfl, ?_⟩, by simp, ?_⟩
  · intro c hc
    simp only [List.mem_cons, List.not_mem_nil, or_false] at hc
    rcases hc with rfl | rfl | rfl
    · exact digit_mem (by omega)
    · exact digit_mem (by omega)
    · exact digit_mem (by omega)
  · have htriple := triple_bytes a b 0
    have hcongr := triple_congr (a := digit (a.toNat / 4))
      (b := digit (a.toNat % 4 * 16 + b.toNat / 16)) (c := digit (b.toNat % 16 * 4))
      (d := pad) rfl (sextet_digit (n := 0) (by decide)).symm
    show triple _ _ _ pad ++ [] = _
    rw [hcongr, List.append_nil]
    exact htriple

/-- **`EVP_EncodeBlock`**, by induction over groups of three bytes. -/
theorem encoded_encodeBlock (data : Bytes) : Encoded data (encodeBlock data) := by
  induction data using encodeBlock.induct with
  | case1 =>
    refine ⟨⟨[], rfl, ?_⟩, rfl, rfl⟩
    intro c hc
    cases hc
  | case2 a => exact encoded_one a
  | case3 a b => exact encoded_two a b
  | case4 a b c data ih =>
    have ha := toNat_lt a
    have hb := toNat_lt b
    have hc := toNat_lt c
    obtain ⟨⟨body, htext, hbody⟩, hlength, hgroups⟩ := ih
    have hmissing : missing (a :: b :: c :: data) = missing data := by
      simp only [missing, List.length_cons]
      omega
    refine ⟨⟨digit (a.toNat / 4) :: digit (a.toNat % 4 * 16 + b.toNat / 16) ::
      digit (b.toNat % 16 * 4 + c.toNat / 64) :: digit (c.toNat % 64) :: body, ?_, ?_⟩, ?_, ?_⟩
    · rw [hmissing, encodeBlock, htext]
      rfl
    · intro x hx
      simp only [List.mem_cons] at hx
      rcases hx with rfl | rfl | rfl | rfl | hx
      · exact digit_mem (by omega)
      · exact digit_mem (by omega)
      · exact digit_mem (by omega)
      · exact digit_mem (by omega)
      · exact hbody x hx
    · rw [encodeBlock, List.length_append]
      simp only [List.length_cons, List.length_nil]
      omega
    · rw [hmissing, encodeBlock]
      show triple _ _ _ _ ++ groups (encodeBlock data) = _
      rw [triple_bytes, hgroups]
      rfl

theorem missing_le (data : Bytes) : missing data ≤ 2 := by
  unfold missing
  omega

theorem wellformed_encodeBlock (data : Bytes) : Wellformed (encodeBlock data) := by
  obtain ⟨⟨body, htext, hbody⟩, hlength, -⟩ := encoded_encodeBlock data
  exact ⟨hlength, body, missing data, htext, missing_le data, hbody⟩

/-! ## Padding -/

/-- The paddings are the ones behind the body. -/
theorem padding_append {body : Bytes} (hbody : ∀ c ∈ body, c ∈ alphabet) {count : ℕ}
    (hcount : count ≤ 2) (hlong : 2 ≤ body.length) :
    padding (body ++ List.replicate count pad) = count := by
  have hlast : ∀ l : Bytes, (∀ c ∈ l, c ∈ alphabet) → l.getLast? ≠ some pad := by
    intro l hl hsome
    exact pad_notMem (hl pad (List.mem_of_getLast? hsome))
  have hfront : ∀ c ∈ body.dropLast, c ∈ alphabet := fun c hc =>
    hbody c (List.dropLast_subset body hc)
  have hne : body ≠ [] := by
    rintro rfl
    simp at hlong
  interval_cases count
  · rw [List.replicate_zero, List.append_nil, padding, if_neg (hlast body hbody),
      if_neg (hlast _ hfront)]
  · rw [List.replicate_one, padding, List.getLast?_concat, List.dropLast_concat, if_pos rfl,
      if_neg (hlast body hbody)]
  · rw [show List.replicate 2 pad = [pad] ++ [pad] from rfl, ← List.append_assoc, padding,
      List.getLast?_concat, List.dropLast_concat, if_pos rfl, List.getLast?_concat, if_pos rfl]

theorem encodeBlock_ne_nil {data : Bytes} (hne : data ≠ []) : encodeBlock data ≠ [] := by
  obtain ⟨-, -, hgroups⟩ := encoded_encodeBlock data
  intro hempty
  rw [hempty] at hgroups
  exact hne (List.append_eq_nil_iff.1 hgroups.symm).1

theorem encode_eq_ok {data text : Bytes} (h : encode data = .ok text) : text = encodeBlock data := by
  obtain ⟨_, -, hblock⟩ := bind_eq_ok h
  exact (Except.ok.inj hblock).symm

/-- A text that becomes an encoding when it is completed. -/
theorem decode_of_normalize {decodeBlock : Bytes → Option Bytes} (h : Documented decodeBlock)
    {data text : Bytes} (hne : data ≠ []) (hsize : text.length ≤ 2 ^ 31 - 1) (htext : text ≠ [])
    (hnormalize : normalize text = .ok (encodeBlock data)) : decode decodeBlock text = .ok data := by
  obtain ⟨⟨body, hbody, hcharacters⟩, hlength, hgroups⟩ := encoded_encodeBlock data
  have hlong : 2 ≤ body.length := by
    have hmissing := missing_le data
    have hpos := encodeBlock_ne_nil hne
    rw [hbody, List.length_append, List.length_replicate] at hlength
    rw [hbody] at hpos
    have hsome := List.length_pos_of_ne_nil hpos
    rw [List.length_append, List.length_replicate] at hsome
    omega
  have hpadding : padding (encodeBlock data) = missing data := by
    rw [hbody]
    exact padding_append hcharacters (missing_le data) hlong
  have hdecode : decodeBlock (encodeBlock data) = some (data ++ List.replicate (missing data) 0) := by
    rw [h _ (wellformed_encodeBlock data), hgroups]
  unfold decode
  rw [if_neg htext, throwIf_bind_of_not (not_lt.2 hsize), hnormalize]
  show (match decodeBlock (encodeBlock data) with | none => _ | some result => _) = _
  rw [hdecode]
  dsimp only
  rw [hpadding, List.length_append, List.length_replicate, if_neg (by omega),
    Nat.add_sub_cancel, List.take_left]

/-- A text that `Base64Encode` wrote. -/
theorem decode_of_encode {decodeBlock : Bytes → Option Bytes} (h : Documented decodeBlock)
    {data text : Bytes} (hencode : encode data = .ok text) (hsize : text.length ≤ 2 ^ 31 - 1) :
    decode decodeBlock text = .ok data := by
  obtain rfl := encode_eq_ok hencode
  by_cases hne : data = []
  · subst hne
    rfl
  · exact decode_of_normalize h hne hsize (encodeBlock_ne_nil hne)
      (if_pos (wellformed_encodeBlock data).groups)

/-- Decoding that knows nothing but groups. -/
def groupsOnly (text : Bytes) : Option Bytes := some (groups text)

theorem documented_groupsOnly : Documented groupsOnly := by
  intro text _
  rfl

end Base64

end TsCli
