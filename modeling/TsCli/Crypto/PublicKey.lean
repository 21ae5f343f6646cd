import TsCli.Crypto.DerReader

/-!
# Public keys

`Identity::PublicKey` writes the coordinates of a P-256 point as two DER integers behind the marker
of a public key, in a sequence. `P256Impl::ParsePublicKey` reads them back. The writer puts a zero
in front of a coordinate whose first byte would look negative; the reader cuts zeros off and fills
up to 32 bytes. Both keep the value, and bytes of one width with one value are the same.

OpenSSL's `BIGNUM` is a natural number, and `BN_bn2bin` its shortest bytes.
-/

namespace TsCli

open Exec

/-- The public part of an identity: `OSSL_PKEY_PARAM_EC_PUB_X` and `OSSL_PKEY_PARAM_EC_PUB_Y`. -/
structure Identity where
  x : ℕ
  y : ℕ
  x_lt : x < 2 ^ 256
  y_lt : y < 2 ^ 256
  deriving DecidableEq

namespace Identity

/-- `Impl::WriteDerLength`. -/
def writeDerLength (output : Bytes) (length : ℕ) : Except Failure Bytes := do
  throwIf (128 ≤ length) "Unsupported DER length"
  return output ++ [UInt8.ofNat length]

/-- `Impl::WriteDerInteger`. -/
def writeDerInteger (output : Bytes) (value : ℕ) : Except Failure Bytes := do
  let buffer := BigEndian.bytes value
  if buffer.length = 0 then
    return output ++ [0x02, 0x01, 0x00]
  else
    let needsPadding := buffer.headD 0 &&& 0x80 != 0
    let output := output ++ [0x02]
    let output ← writeDerLength output (buffer.length + if needsPadding then 1 else 0)
    let output := if needsPadding then output ++ [0x00] else output
    return output ++ buffer

/-- `Impl::PublicKey`. -/
def publicKey (identity : Identity) : Except Failure Bytes := do
  let body : Bytes := [0x03, 0x02, 0x07, 0x00, 0x02, 0x01, 0x20]
  let body ← writeDerInteger body identity.x
  let body ← writeDerInteger body identity.y
  let result ← writeDerLength [0x30] body.length
  return result ++ body

end Identity

namespace P256

/-- The loop of `DecodeCoordinate`. -/
def skipZeros : Bytes → Bytes
  | [] => []
  | first :: others =>
    if 1 < (first :: others).length ∧ first = 0x00 then skipZeros others else first :: others

/-- `P256Impl::DecodeCoordinate`. -/
def decodeCoordinate (integer : Bytes) : Except Failure Bytes := do
  throwIf (integer = []) "Empty P-256 coordinate"
  throwIf (integer.headD 0 &&& 0x80 ≠ 0) "Negative P-256 coordinate"
  let integer := skipZeros integer
  throwIf (32 < integer.length) "P-256 coordinate is too large"
  return List.replicate (32 - integer.length) 0x00 ++ integer

/-- What `ParsePublicKey` reads with `outer`. -/
def readSequence : DerReader.Member Bytes := do
  let sequence ← DerReader.read 0x30
  let empty ← DerReader.empty
  if ¬ empty then
    throw (.runtimeError "Unexpected trailing public key data")
  else
    return sequence

/-- What `ParsePublicKey` reads with `reader`. -/
def readIntegers : DerReader.Member (Bytes × Bytes) := do
  let bitString ← DerReader.read 0x03
  if bitString.length ≠ 2 ∨ bitString.getD 0 0 ≠ 0x07 ∨ bitString.getD 1 0 ≠ 0x00 then
    throw (.runtimeError "Invalid TeamSpeak P-256 key marker")
  else
    let keySize ← DerReader.read 0x02
    if keySize.length ≠ 1 ∨ keySize.getD 0 0 ≠ 0x20 then
      throw (.runtimeError "Invalid TeamSpeak P-256 key size")
    else
      let xInteger ← DerReader.read 0x02
      let yInteger ← DerReader.read 0x02
      let empty ← DerReader.empty
      if ¬ empty then
        throw (.runtimeError "Unexpected TeamSpeak public key fields")
      else
        return (xInteger, yInteger)

/-- A new reader for some data. -/
def readFrom {α : Type} (m : DerReader.Member α) (data : Bytes) : Except Failure α :=
  match m { data } with
  | .ok a _ => .ok a
  | .error e _ => .error e

/-- `P256Impl::ParsePublicKey` up to the uncompressed point. -/
def parsePoint (encoded : Bytes) : Except Failure Bytes := do
  let sequence ← readFrom readSequence encoded
  let (xInteger, yInteger) ← readFrom readIntegers sequence
  let x ← decodeCoordinate xInteger
  let y ← decodeCoordinate yInteger
  return 0x04 :: (x ++ y)

/-- `P256Impl::ParsePublicKey`, with OpenSSL's import of the point. -/
def parsePublicKey {κ : Type} (importKey : Bytes → Except Failure κ) (encoded : Bytes) :
    Except Failure κ := do
  let point ← parsePoint encoded
  importKey point

end P256

/-! ## Coordinates -/

/-- The content of the DER integer of a coordinate. -/
structure CoordinateContent (n : ℕ) (content : Bytes) : Prop where
  value_eq : BigEndian.value content = n
  positive : content.headD 0x80 &&& 0x80 = 0
  length_le : content.length ≤ 33

namespace Identity

theorem writeDerLength_of_lt (output : Bytes) {length : ℕ} (h : length < 128) :
    writeDerLength output length = .ok (output ++ [UInt8.ofNat length]) := by
  unfold writeDerLength
  rw [throwIf_bind_of_not (not_le.2 h)]
  rfl

/-- The three ways to write a coordinate have one shape. -/
theorem writeDerInteger_spec (output : Bytes) {n : ℕ} (h : n < 2 ^ 256) :
    ∃ content, CoordinateContent n content ∧
      writeDerInteger output n = .ok (output ++ DerReader.element 0x02 content) := by
  have hlength : (BigEndian.bytes n).length ≤ 32 := BigEndian.length_bytes_le (h.trans_eq (by norm_num))
  have hvalue := BigEndian.value_bytes n
  unfold writeDerInteger
  cases hbuffer : BigEndian.bytes n with
  | nil =>
    rw [hbuffer] at hvalue
    exact ⟨[0x00], ⟨hvalue, rfl, by decide⟩, rfl⟩
  | cons first others =>
    rw [hbuffer] at hvalue hlength
    simp only [List.length_cons, Nat.add_one_ne_zero, if_false, List.headD_cons] at hlength ⊢
    by_cases hpad : (first &&& 0x80 != 0) = true
    · refine ⟨0x00 :: first :: others,
        ⟨(BigEndian.value_zero_cons _).trans hvalue, ?_, Nat.succ_le_succ hlength⟩, ?_⟩
      · rw [List.headD_cons]
        decide
      simp only [hpad, if_true]
      rw [writeDerLength_of_lt _ (by omega)]
      simp [DerReader.element, bind, Except.bind, pure, Except.pure]
    · refine ⟨first :: others, ⟨hvalue, by simpa using hpad, ?_⟩, ?_⟩
      · rw [List.length_cons]
        omega
      · simp only [Bool.not_eq_true] at hpad
        simp only [hpad, Bool.false_eq_true, if_false]
        rw [writeDerLength_of_lt _ (by omega)]
        simp [DerReader.element, bind, Except.bind, pure, Except.pure]

/-- What `PublicKey` puts into the sequence. -/
def body (xContent yContent : Bytes) : Bytes :=
  DerReader.element 0x03 [0x07, 0x00] ++ DerReader.element 0x02 [0x20] ++
    DerReader.element 0x02 xContent ++ DerReader.element 0x02 yContent

theorem length_body {n m : ℕ} {xContent yContent : Bytes} (hx : CoordinateContent n xContent)
    (hy : CoordinateContent m yContent) : (body xContent yContent).length < 128 := by
  have hxle := hx.length_le
  have hyle := hy.length_le
  simp only [body, DerReader.element, List.length_append, List.length_cons, List.length_nil]
  omega

/-- The two lengths always have one byte. -/
theorem publicKey_spec (identity : Identity) : ∃ xContent yContent,
    CoordinateContent identity.x xContent ∧ CoordinateContent identity.y yContent ∧
      identity.publicKey = .ok (DerReader.element 0x30 (body xContent yContent)) := by
  obtain ⟨xContent, hx, hwriteX⟩ :=
    writeDerInteger_spec [0x03, 0x02, 0x07, 0x00, 0x02, 0x01, 0x20] identity.x_lt
  obtain ⟨yContent, hy, hwriteY⟩ := writeDerInteger_spec
    ([0x03, 0x02, 0x07, 0x00, 0x02, 0x01, 0x20] ++ DerReader.element 0x02 xContent) identity.y_lt
  refine ⟨xContent, yContent, hx, hy, ?_⟩
  have hlength := writeDerLength_of_lt [0x30] (length_body hx hy)
  unfold publicKey
  show (writeDerInteger [0x03, 0x02, 0x07, 0x00, 0x02, 0x01, 0x20] identity.x >>= _) = _
  rw [hwriteX]
  show (writeDerInteger _ identity.y >>= _) = _
  rw [hwriteY]
  show (writeDerLength [0x30] (body xContent yContent).length >>= _) = _
  rw [hlength]
  rfl

end Identity

namespace P256

theorem value_skipZeros (integer : Bytes) :
    BigEndian.value (skipZeros integer) = BigEndian.value integer := by
  induction integer with
  | nil => rfl
  | cons first others ih =>
    unfold skipZeros
    split_ifs with hzero
    · rw [ih, hzero.2, BigEndian.value_zero_cons]
    · rfl

/-- The zeros are gone, but for the one of a zero. -/
theorem skipZeros_front (integer : Bytes) : (skipZeros integer).length ≤ 1 ∨
    ∃ first others, skipZeros integer = first :: others ∧ first ≠ 0 := by
  induction integer with
  | nil => exact .inl (Nat.zero_le 1)
  | cons first others ih =>
    unfold skipZeros
    split_ifs with hzero
    · exact ih
    · by_cases hfirst : first = 0
      · exact .inl (not_lt.1 fun hlong => hzero ⟨hlong, hfirst⟩)
      · exact .inr ⟨first, others, rfl, hfirst⟩

theorem length_skipZeros_le {integer : Bytes} (h : BigEndian.value integer < 2 ^ 256) :
    (skipZeros integer).length ≤ 32 := by
  rcases skipZeros_front integer with hshort | ⟨first, others, hskip, hfirst⟩
  · omega
  · have hle := BigEndian.le_value hfirst others
    rw [← hskip, value_skipZeros] at hle
    have hpow : 256 ^ others.length < 256 ^ 32 := hle.trans_lt (h.trans_eq (by norm_num))
    rw [hskip, List.length_cons]
    exact (Nat.pow_lt_pow_iff_right (by decide)).1 hpow

/-- A coordinate is decoded to its 32 bytes. -/
theorem decodeCoordinate_of_content {n : ℕ} {content : Bytes} (hn : n < 2 ^ 256)
    (h : CoordinateContent n content) :
    decodeCoordinate content = .ok (BigEndian.fixed 32 n) := by
  have hlength : (skipZeros content).length ≤ 32 := length_skipZeros_le (h.value_eq ▸ hn)
  have hfixed := BigEndian.replicate_append_eq_fixed hlength
  rw [value_skipZeros, h.value_eq] at hfixed
  cases content with
  | nil => cases h.positive
  | cons first others =>
    have hpositive : first &&& 0x80 = 0 := h.positive
    unfold decodeCoordinate
    rw [throwIf_bind_of_not (List.cons_ne_nil _ _), List.headD_cons,
      throwIf_bind_of_not (not_not.2 hpositive)]
    show (throwIf _ _ >>= fun _ => _) = _
    rw [throwIf_bind_of_not (not_lt.2 hlength)]
    exact congrArg Except.ok hfixed

theorem readFrom_of_eq_ok {α : Type} {m : DerReader.Member α} {data : Bytes} {a : α}
    {s : DerReader} (h : m { data } = .ok a s) : readFrom m data = .ok a := by
  unfold readFrom
  rw [h]

theorem readSequence_element {content : Bytes} (hshort : content.length < 128) :
    readFrom readSequence (DerReader.element 0x30 content) = .ok content := by
  have hstart := DerReader.At.start (DerReader.element 0x30 content ++ [])
  obtain ⟨s, hread, hat⟩ := hstart.read hshort
  rw [List.append_nil] at hread
  refine readFrom_of_eq_ok (s := s) ?_
  unfold readSequence
  rw [run_bind_of_ok _ hread, run_bind_of_ok _ hat.empty]
  rfl

theorem readIntegers_body {n m : ℕ} {xContent yContent : Bytes} (hx : CoordinateContent n xContent)
    (hy : CoordinateContent m yContent) :
    readFrom readIntegers (Identity.body xContent yContent) = .ok (xContent, yContent) := by
  have hxle := hx.length_le
  have hyle := hy.length_le
  have hstart := DerReader.At.start (Identity.body xContent yContent ++ [])
  simp only [Identity.body, List.append_assoc] at hstart
  obtain ⟨s₁, hmarker, hat₁⟩ := hstart.read (by decide)
  obtain ⟨s₂, hsize, hat₂⟩ := hat₁.read (by decide)
  obtain ⟨s₃, hreadX, hat₃⟩ := hat₂.read (by omega)
  obtain ⟨s₄, hreadY, hat₄⟩ := hat₃.read (by omega)
  refine readFrom_of_eq_ok (s := s₄) ?_
  simp only [List.append_nil] at hmarker
  simp only [Identity.body, List.append_assoc]
  unfold readIntegers
  rw [run_bind_of_ok _ hmarker, if_neg (by decide), run_bind_of_ok _ hsize, if_neg (by decide),
    run_bind_of_ok _ hreadX, run_bind_of_ok _ hreadY, run_bind_of_ok _ hat₄.empty]
  rfl

/-! ## Errors -/

theorem raised_readFrom {α : Type} {m : DerReader.Member α} {data : Bytes} {e : Failure}
    (hm : ∀ s, wp m (fun _ _ => True) (fun e _ => DerReader.Raised e) s)
    (h : readFrom m data = .error e) : DerReader.Raised e := by
  unfold readFrom at h
  cases hrun : m { data } with
  | ok a s =>
    rw [hrun] at h
    cases h
  | error e' s =>
    rw [hrun] at h
    cases h
    exact error_of_wp (hm _) hrun

/-- A read that has more behind it. -/
theorem wp_read_bind {α : Type} {tag : UInt8} {f : Bytes → DerReader.Member α} {s : DerReader}
    (h : ∀ content s', wp (f content) (fun _ _ => True) (fun e _ => DerReader.Raised e) s') :
    wp (DerReader.read tag >>= f) (fun _ _ => True) (fun e _ => DerReader.Raised e) s := by
  rw [wp_bind]
  exact wp_mono (DerReader.read_spec tag s) (fun content s' _ => h content s') (fun _ _ h => h)

theorem readSequence_raises (s : DerReader) :
    wp readSequence (fun _ _ => True) (fun e _ => DerReader.Raised e) s := by
  refine wp_read_bind fun sequence s' => ?_
  simp only [DerReader.empty, wp_bind, wp_get, wp_pure, wp_ite, wp_throw]
  exact ⟨fun _ => ⟨_, rfl⟩, fun _ => trivial⟩

theorem readIntegers_raises (s : DerReader) :
    wp readIntegers (fun _ _ => True) (fun e _ => DerReader.Raised e) s := by
  refine wp_read_bind fun bitString s₁ => ?_
  rw [wp_ite]
  refine ⟨fun _ => ⟨_, rfl⟩, fun _ => wp_read_bind fun keySize s₂ => ?_⟩
  rw [wp_ite]
  refine ⟨fun _ => ⟨_, rfl⟩, fun _ => wp_read_bind fun xInteger s₃ =>
    wp_read_bind fun yInteger s₄ => ?_⟩
  simp only [DerReader.empty, wp_bind, wp_get, wp_pure, wp_ite, wp_throw]
  exact ⟨fun _ => ⟨_, rfl⟩, fun _ => trivial⟩

theorem raised_throwIf_bind {α : Type} {c : Prop} [Decidable c] {message : String}
    {f : Unit → Except Failure α} {e : Failure} (h : (throwIf c message >>= f) = .error e)
    (hf : ∀ e, f () = .error e → DerReader.Raised e) : DerReader.Raised e := by
  by_cases hc : c
  · rw [throwIf_of_pos message hc] at h
    cases h
    exact ⟨message, rfl⟩
  · rw [throwIf_bind_of_not hc] at h
    exact hf e h

theorem raised_decodeCoordinate {integer : Bytes} {e : Failure}
    (h : decodeCoordinate integer = .error e) : DerReader.Raised e :=
  raised_throwIf_bind h fun _ h => raised_throwIf_bind h fun _ h => raised_throwIf_bind h nofun

/-- Every error on the way to the point is raised on purpose. -/
theorem raised_parsePoint {encoded : Bytes} {e : Failure} (h : parsePoint encoded = .error e) :
    DerReader.Raised e := by
  unfold parsePoint at h
  cases hsequence : readFrom readSequence encoded with
  | error e' =>
    rw [hsequence] at h
    cases h
    exact raised_readFrom readSequence_raises hsequence
  | ok sequence =>
    rw [hsequence] at h
    change (readFrom readIntegers sequence >>= _) = _ at h
    cases hintegers : readFrom readIntegers sequence with
    | error e' =>
      rw [hintegers] at h
      cases h
      exact raised_readFrom readIntegers_raises hintegers
    | ok integers =>
      rw [hintegers] at h
      change (decodeCoordinate integers.1 >>= _) = _ at h
      cases hx : decodeCoordinate integers.1 with
      | error e' =>
        rw [hx] at h
        cases h
        exact raised_decodeCoordinate hx
      | ok x =>
        rw [hx] at h
        change (decodeCoordinate integers.2 >>= _) = _ at h
        cases hy : decodeCoordinate integers.2 with
        | error e' =>
          rw [hy] at h
          cases h
          exact raised_decodeCoordinate hy
        | ok y =>
          rw [hy] at h
          cases h

/-- **Public keys survive their encoding**, and reading stays inside any bytes: from every offset, a
series of reads returns or raises an error. -/
theorem publicKey_roundTrip {κ : Type} (importKey : Bytes → Except Failure κ) (identity : Identity) :
    (∃ encoded, identity.publicKey = .ok encoded ∧
      parsePoint encoded =
        .ok (0x04 :: (BigEndian.fixed 32 identity.x ++ BigEndian.fixed 32 identity.y)) ∧
      parsePublicKey importKey encoded =
        importKey (0x04 :: (BigEndian.fixed 32 identity.x ++ BigEndian.fixed 32 identity.y))) ∧
      (∀ (tags : List UInt8) (reader : DerReader),
        wp (DerReader.readAll tags) (fun contents _ => contents.length = tags.length)
          (fun e _ => DerReader.Raised e) reader) ∧
      ∀ (encoded : Bytes) (e : Failure), parsePoint encoded = .error e → DerReader.Raised e := by
  refine ⟨?_, DerReader.readAll_spec, fun encoded e => raised_parsePoint⟩
  obtain ⟨xContent, yContent, hx, hy, hencoded⟩ := identity.publicKey_spec
  have hpoint : parsePoint (DerReader.element 0x30 (Identity.body xContent yContent)) =
      .ok (0x04 :: (BigEndian.fixed 32 identity.x ++ BigEndian.fixed 32 identity.y)) := by
    unfold parsePoint
    rw [readSequence_element (Identity.length_body hx hy)]
    show (readFrom readIntegers _ >>= _) = _
    rw [readIntegers_body hx hy]
    show (decodeCoordinate xContent >>= _) = _
    rw [decodeCoordinate_of_content identity.x_lt hx]
    show (decodeCoordinate yContent >>= _) = _
    rw [decodeCoordinate_of_content identity.y_lt hy]
    rfl
  refine ⟨_, hencoded, hpoint, ?_⟩
  unfold parsePublicKey
  rw [hpoint]
  rfl

/-- A truncated sequence. -/
theorem publicKey_roundTrip_truncated :
    DerReader.Raised (.runtimeError "Unexpected end of DER data") :=
  (publicKey_roundTrip Except.ok (Identity.mk 0 (2 ^ 255) (by norm_num) (by norm_num))).2.2
    [0x30, 0x05, 0x03] _ (by decide +kernel)

/-- A zero, and a number with its top bit set. -/
example : (Identity.mk 0 (2 ^ 255) (by norm_num) (by norm_num)).publicKey =
    .ok ([0x30, 0x2d, 0x03, 0x02, 0x07, 0x00, 0x02, 0x01, 0x20, 0x02, 0x01, 0x00,
      0x02, 0x21, 0x00, 0x80] ++ List.replicate 31 0x00) := by
  decide +kernel

end P256

end TsCli
