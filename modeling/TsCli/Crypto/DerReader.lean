import TsCli.Basic
import TsCli.Lib.BigEndian

/-!
# The DER reader

`DerReader` reads elements of a byte string: a tag, a length in short or long form, and that many
bytes. `Reads` says what an element looks like. A read returns exactly the elements, and raises an
error on everything else; no read goes outside the string.
-/

namespace TsCli

/-- `P256Impl::DerReader`. -/
structure DerReader where
  data : Bytes
  offset : ℕ := 0
  deriving DecidableEq

namespace DerReader

open Exec

/-- The code of a member function. -/
abbrev Member := EStateM Failure DerReader

/-- `Require`. -/
def require (count : ℕ) : Member Unit := do
  let s ← get
  if s.data.length < s.offset ∨ s.data.length - s.offset < count then
    throw (.runtimeError "Unexpected end of DER data")

/-- `m_Data[m_Offset++]`. -/
def next : Member UInt8 := do
  let s ← get
  match s.data[s.offset]? with
  | some byte => do
    set { s with offset := s.offset + 1 }
    return byte
  | none => throw .outOfBounds

/-- The loop of `ReadLength`. -/
def readLengthBytes : ℕ → UInt64 → Member UInt64
  | 0, result => return result
  | count + 1, result => do
    let byte ← next
    readLengthBytes count ((result <<< 8) ||| byte.toUInt64)

/-- `ReadLength`. -/
def readLength : Member ℕ := do
  require 1
  let first ← next
  if first &&& 0x80 = 0 then
    return first.toNat
  else
    let byteCount := (first &&& 0x7f).toNat
    if byteCount = 0 ∨ 8 < byteCount then
      throw (.runtimeError "Unsupported DER length")
    else
      require byteCount
      let result ← readLengthBytes byteCount 0
      return result.toNat

/-- `m_Data.subspan( m_Offset, length )`. -/
def subspan (length : ℕ) : Member Bytes := do
  let s ← get
  if s.offset + length ≤ s.data.length then
    return (s.data.drop s.offset).take length
  else
    throw .outOfBounds

/-- `Read`. -/
def read (expectedTag : UInt8) : Member Bytes := do
  require 1
  let tag ← next
  if tag ≠ expectedTag then
    throw (.runtimeError "Unexpected DER tag")
  else
    let length ← readLength
    require length
    let result ← subspan length
    modify fun s => { s with offset := s.offset + length }
    return result

/-- `Empty`. -/
def empty : Member Bool := do
  let s ← get
  return s.offset = s.data.length

/-- One `Read` after the other. -/
def readAll : List UInt8 → Member (List Bytes)
  | [] => return []
  | tag :: tags => do
    let content ← read tag
    let contents ← readAll tags
    return content :: contents

/-! ## Elements -/

/-- The two forms of a length. -/
inductive LengthForm : ℕ → Bytes → Prop
  | short {first : UInt8} (h : first.toNat < 128) : LengthForm first.toNat [first]
  | long {bytes : Bytes} (hpos : 0 < bytes.length) (hle : bytes.length ≤ 8) :
      LengthForm (BigEndian.value bytes) (UInt8.ofNat (128 + bytes.length) :: bytes)

/-- What is in front of the reader. -/
def unread (s : DerReader) : Bytes := s.data.drop s.offset

/-- The reader behind the next `count` bytes. -/
def skip (s : DerReader) (count : ℕ) : DerReader := { s with offset := s.offset + count }

/-- From `s` to `s'` the reader has read one element. -/
structure Reads (tag : UInt8) (s : DerReader) (content : Bytes) (s' : DerReader) : Prop where
  data_eq : s'.data = s.data
  offset_lt : s.offset < s'.offset
  offset_le : s'.offset ≤ s.data.length
  element : ∃ header, LengthForm content.length header ∧
    s.unread = tag :: (header ++ content) ++ s'.unread

/-- The errors that the reader raises itself. -/
def Raised (e : Failure) : Prop := ∃ message, e = .runtimeError message

theorem unread_skip (s : DerReader) (count : ℕ) : (s.skip count).unread = s.unread.drop count := by
  unfold unread skip
  rw [List.drop_drop]

theorem skip_skip (s : DerReader) (count count' : ℕ) :
    (s.skip count).skip count' = s.skip (count + count') := by
  unfold skip
  rw [Nat.add_assoc]

/-- The reader behind the front of what it has before it. -/
theorem skip_of_unread {s : DerReader} {front back : Bytes} (h : s.unread = front ++ back) :
    (s.skip front.length).unread = back := by
  rw [unread_skip, h, List.drop_left]

theorem le_of_unread {s : DerReader} (hinside : s.offset ≤ s.data.length) {front back : Bytes}
    (h : s.unread = front ++ back) : s.offset + front.length ≤ s.data.length := by
  have hlength := congrArg List.length h
  rw [unread, List.length_drop, List.length_append] at hlength
  omega

/-! ## The first byte of a length -/

theorem and_128_eq_zero_iff (byte : UInt8) : byte &&& 0x80 = 0 ↔ byte.toNat < 128 := by
  have h : ∀ n < 256, (UInt8.ofNat n &&& 0x80 = 0 ↔ n < 128) := by decide +kernel
  simpa using h byte.toNat byte.toNat_lt

theorem toNat_and_127 {byte : UInt8} (h : 128 ≤ byte.toNat) :
    (byte &&& 0x7f).toNat = byte.toNat - 128 := by
  have h' : ∀ n < 256, 128 ≤ n → (UInt8.ofNat n &&& 0x7f).toNat = n - 128 := by decide +kernel
  simpa using h' byte.toNat byte.toNat_lt h

/-- A byte is shifted in at the low end. -/
theorem toNat_shiftIn {result : UInt64} (h : result.toNat < 256 ^ 7) (byte : UInt8) :
    ((result <<< 8) ||| byte.toUInt64).toNat = result.toNat * 256 + byte.toNat := by
  have hbyte : byte.toNat < 2 ^ 8 := byte.toNat_lt
  have hshift : (result <<< 8).toNat = result.toNat <<< 8 := by
    rw [UInt64.toNat_shiftLeft, Nat.mod_eq_of_lt]
    · rfl
    · rw [Nat.shiftLeft_eq]
      show result.toNat * 2 ^ 8 < 2 ^ 64
      omega
  rw [UInt64.toNat_or, hshift, UInt8.toNat_toUInt64, ← Nat.shiftLeft_add_eq_or_of_lt hbyte,
    Nat.shiftLeft_eq]

/-! ## What the members do -/

section Rules

variable {s : DerReader}

theorem wp_require {count : ℕ} {Q : Unit → DerReader → Prop}
    (hQ : s.offset + count ≤ s.data.length → Q () s) :
    wp (require count) Q (fun e _ => Raised e) s := by
  simp only [require, wp_bind, wp_get, wp_ite, wp_throw, wp_pure]
  exact ⟨fun _ => ⟨_, rfl⟩, fun h => hQ (by omega)⟩

theorem require_of_le {count : ℕ} (h : s.offset + count ≤ s.data.length) :
    require count s = .ok () s := by
  unfold require
  rw [run_get_bind, if_neg (by omega)]
  rfl

theorem next_of_unread {byte : UInt8} {back : Bytes} (h : s.unread = byte :: back) :
    next s = .ok byte (s.skip 1) := by
  have hbyte : s.data[s.offset]? = some byte := by
    rw [← Nat.add_zero s.offset, ← List.getElem?_drop]
    exact congrArg (·[0]?) h
  unfold next
  rw [run_get_bind, hbyte]
  rfl

theorem wp_next {Q : UInt8 → DerReader → Prop} {E : Failure → DerReader → Prop}
    (h : s.offset < s.data.length)
    (hQ : ∀ byte, s.unread = byte :: (s.skip 1).unread → Q byte (s.skip 1)) : wp next Q E s := by
  have hunread : s.unread = s.data[s.offset] :: (s.skip 1).unread := List.drop_eq_getElem_cons h
  rw [wp_of_eq_ok (next_of_unread hunread)]
  exact hQ _ hunread

/-- The loop shifts in the next bytes; eight bytes fit. -/
theorem readLengthBytes_of_unread {result : UInt64} {bytes back : Bytes} {k : ℕ}
    (hresult : result.toNat < 256 ^ k) (hk : k + bytes.length ≤ 8) (h : s.unread = bytes ++ back) :
    ∃ total, readLengthBytes bytes.length result s = .ok total (s.skip bytes.length) ∧
      total.toNat = result.toNat * 256 ^ bytes.length + BigEndian.value bytes := by
  induction bytes generalizing s result k with
  | nil =>
    refine ⟨result, rfl, ?_⟩
    rw [List.length_nil, pow_zero, mul_one, BigEndian.value_nil, Nat.add_zero]
  | cons byte bytes ih =>
    rw [List.length_cons] at hk
    have hsmall : result.toNat < 256 ^ 7 :=
      hresult.trans_le (Nat.pow_le_pow_right (by decide) (by omega))
    have hshift := toNat_shiftIn hsmall byte
    have hmore : ((result <<< 8) ||| byte.toUInt64).toNat < 256 ^ (k + 1) := by
      have hbyte := byte.toNat_lt
      rw [hshift, pow_succ]
      omega
    have hrest : (s.skip 1).unread = bytes ++ back := 
      skip_of_unread (show s.unread = [byte] ++ (bytes ++ back) from h)
    obtain ⟨total, hrun, htotal⟩ := ih hmore (by omega) hrest
    refine ⟨total, ?_, ?_⟩
    · rw [List.length_cons, readLengthBytes, run_bind_of_ok _ (next_of_unread h), hrun, skip_skip,
        Nat.add_comm]
    · have hvalue : BigEndian.value (byte :: bytes) =
          byte.toNat * 256 ^ bytes.length + BigEndian.value bytes := by
        have hsplit := BigEndian.value_append [byte] bytes
        rwa [show BigEndian.value [byte] = byte.toNat from Nat.zero_add _] at hsplit
      rw [htotal, hshift, hvalue, List.length_cons, pow_succ']
      ring

/-- A length in front of the reader is read. -/
theorem readLength_of_unread {length : ℕ} {header back : Bytes} (hform : LengthForm length header)
    (hinside : s.offset ≤ s.data.length) (h : s.unread = header ++ back) :
    readLength s = .ok length (s.skip header.length) := by
  have hle' := le_of_unread hinside h
  unfold readLength
  cases hform with
  | short hfirst =>
    have hrequire : require 1 s = .ok () s := require_of_le hle'
    rw [run_bind_of_ok _ hrequire, run_bind_of_ok _ (next_of_unread h),
      if_pos ((and_128_eq_zero_iff _).2 hfirst)]
    rfl
  | @long bytes hpos hle =>
    rw [List.length_cons] at hle'
    have hfirst : (UInt8.ofNat (128 + bytes.length)).toNat = 128 + bytes.length := by
      rw [UInt8.toNat_ofNat']
      omega
    have hcount : (UInt8.ofNat (128 + bytes.length) &&& 0x7f).toNat = bytes.length := by
      rw [toNat_and_127 (by omega), hfirst, Nat.add_sub_cancel_left]
    have hlong : ¬ UInt8.ofNat (128 + bytes.length) &&& 0x80 = 0 := by
      rw [and_128_eq_zero_iff]
      omega
    have hrest : (s.skip 1).unread = bytes ++ back :=
      skip_of_unread (show s.unread = [UInt8.ofNat (128 + bytes.length)] ++ (bytes ++ back) from h)
    obtain ⟨total, hrun, htotal⟩ := readLengthBytes_of_unread (k := 0)
      (show (0 : UInt64).toNat < _ by decide) (by omega) hrest
    have htotal' : total.toNat = BigEndian.value bytes := by
      rw [htotal]
      exact (congrArg (· + _) (Nat.zero_mul _)).trans (Nat.zero_add _)
    have hrequire : require 1 s = .ok () s := require_of_le (by omega)
    have hrequire' : require bytes.length (s.skip 1) = .ok () (s.skip 1) :=
      require_of_le (by show s.offset + 1 + bytes.length ≤ s.data.length; omega)
    rw [run_bind_of_ok _ hrequire, run_bind_of_ok _ (next_of_unread h), if_neg hlong]
    simp only [hcount]
    rw [if_neg (by omega), run_bind_of_ok _ hrequire', run_bind_of_ok _ hrun, skip_skip, htotal',
      List.length_cons, Nat.add_comm]
    rfl

/-- An element in front of the reader is read. -/
theorem read_of_unread {tag : UInt8} {header content back : Bytes}
    (hform : LengthForm content.length header) (hinside : s.offset ≤ s.data.length)
    (h : s.unread = tag :: (header ++ content) ++ back) :
    read tag s = .ok content (s.skip (1 + (header.length + content.length))) := by
  have hle := le_of_unread hinside h
  rw [List.length_cons, List.length_append] at hle
  have hrest : (s.skip 1).unread = header ++ (content ++ back) := by
    rw [← List.append_assoc]
    exact skip_of_unread (show s.unread = [tag] ++ _ from h)
  have hlength := readLength_of_unread hform (by show s.offset + 1 ≤ s.data.length; omega) hrest
  have hcontent : ((s.skip 1).skip header.length).unread = content ++ back := skip_of_unread hrest
  have hrequire : require 1 s = .ok () s := require_of_le (by omega)
  have hbound : ((s.skip 1).skip header.length).offset + content.length ≤
      ((s.skip 1).skip header.length).data.length := by
    show s.offset + 1 + header.length + content.length ≤ s.data.length
    omega
  have hsubspan : subspan content.length ((s.skip 1).skip header.length) =
      .ok content ((s.skip 1).skip header.length) := by
    unfold subspan
    rw [run_get_bind, if_pos hbound]
    refine congrArg (EStateM.Result.ok · _) ?_
    show ((s.skip 1).skip header.length).unread.take content.length = content
    rw [hcontent, List.take_left]
  unfold read
  rw [run_bind_of_ok _ hrequire, run_bind_of_ok _ (next_of_unread h), if_neg (not_not.2 rfl),
    run_bind_of_ok _ hlength, run_bind_of_ok _ (require_of_le hbound), run_bind_of_ok _ hsubspan]
  show EStateM.Result.ok content (((s.skip 1).skip header.length).skip content.length) = _
  rw [skip_skip, skip_skip]

/-! ## What the members accept -/

/-- The length is one of the two forms. -/
theorem readLength_spec (s : DerReader) :
    wp readLength (fun length s' => ∃ header, LengthForm length header ∧
      s.unread = header ++ s'.unread ∧ s' = s.skip header.length ∧ s'.offset ≤ s.data.length)
      (fun e _ => Raised e) s := by
  unfold readLength
  rw [wp_bind]
  refine wp_require fun hone => ?_
  rw [wp_bind]
  refine wp_next hone fun first hfirst => ?_
  rw [wp_ite]
  refine ⟨fun hshort => ?_, fun hlong => ?_⟩
  · rw [and_128_eq_zero_iff] at hshort
    exact ⟨[first], .short hshort, hfirst, rfl, hone⟩
  · rw [and_128_eq_zero_iff, not_lt] at hlong
    have hcount := toNat_and_127 hlong
    rw [wp_ite]
    refine ⟨fun _ => ⟨_, rfl⟩, fun hrange => ?_⟩
    rw [wp_bind]
    refine wp_require fun hmore => ?_
    -- the bytes that the loop will read
    obtain ⟨bytes, hbytes⟩ : ∃ bytes, bytes = (s.skip 1).unread.take (first &&& 0x7f).toNat :=
      ⟨_, rfl⟩
    have hlength : bytes.length = (first &&& 0x7f).toNat := by
      rw [hbytes, List.length_take, unread, List.length_drop]
      have hdata : (s.skip 1).data = s.data := rfl
      omega
    have hsplit : (s.skip 1).unread = bytes ++ ((s.skip 1).skip bytes.length).unread := by
      rw [unread_skip _ bytes.length, hlength, hbytes, List.take_append_drop]
    obtain ⟨total, hrun, htotal⟩ := readLengthBytes_of_unread (k := 0)
      (show (0 : UInt64).toNat < _ by decide) (by omega) hsplit
    rw [← hlength] at hmore hrange ⊢
    rw [wp_bind, wp_of_eq_ok hrun]
    have hvalue : total.toNat = BigEndian.value bytes := by
      rw [htotal]
      exact (congrArg (· + _) (Nat.zero_mul _)).trans (Nat.zero_add _)
    have hbyte : first = UInt8.ofNat (128 + bytes.length) := by
      rw [← UInt8.toNat_inj, UInt8.toNat_ofNat']
      have hsize := first.toNat_lt
      omega
    show ∃ header, LengthForm total.toNat header ∧ _
    refine ⟨first :: bytes, ?_, ?_, ?_, hmore⟩
    · rw [hvalue, hbyte]
      exact .long (by omega) (by omega)
    · rw [hfirst, hsplit]
      rfl
    · rw [skip_skip, List.length_cons, Nat.add_comm]

/-- A read returns an element or raises an error; it never goes outside the data. -/
theorem read_spec (tag : UInt8) (s : DerReader) :
    wp (read tag) (fun content s' => Reads tag s content s') (fun e _ => Raised e) s := by
  unfold read
  rw [wp_bind]
  refine wp_require fun hone => ?_
  rw [wp_bind]
  refine wp_next hone fun first hfirst => ?_
  rw [wp_ite]
  refine ⟨fun _ => ⟨_, rfl⟩, fun htag => ?_⟩
  rw [wp_bind]
  refine wp_mono (readLength_spec (s.skip 1)) ?_ (fun _ _ h => h)
  rintro length s' ⟨header, hform, hheader, rfl, hinside⟩
  rw [wp_bind]
  refine wp_require fun hlength => ?_
  rw [wp_bind, subspan, wp_bind, wp_get, wp_ite]
  refine ⟨fun _ => ?_, fun hout => absurd hlength hout⟩
  have hle : s.offset + 1 + header.length + length ≤ s.data.length := hlength
  have hunread : ((s.skip 1).skip header.length).unread.length = s.data.length -
      (s.offset + 1 + header.length) := List.length_drop
  have hcontent : (((s.skip 1).skip header.length).unread.take length).length = length := by
    rw [List.length_take]
    omega
  simp only [wp_pure, wp_bind, wp_modify]
  refine ⟨rfl, ?_, hle, header, ?_, ?_⟩
  · show s.offset < s.offset + 1 + header.length + length
    omega
  · show LengthForm (((s.skip 1).skip header.length).unread.take length).length header
    rw [hcontent]
    exact hform
  · show s.unread = tag :: (header ++ ((s.skip 1).skip header.length).unread.take length) ++
      (((s.skip 1).skip header.length).skip length).unread
    rw [hfirst, hheader, unread_skip _ length, not_not.1 htag, List.cons_append, List.append_assoc,
      List.take_append_drop]

end Rules

/-- **What a read accepts.** -/
theorem read_eq_ok_iff {tag : UInt8} {s s' : DerReader} {content : Bytes} :
    read tag s = .ok content s' ↔ Reads tag s content s' := by
  refine ⟨fun h => ok_of_wp (read_spec tag s) h, fun h => ?_⟩
  obtain ⟨header, hform, hunread⟩ := h.element
  have hlt := h.offset_lt
  have hle := h.offset_le
  have hlength := congrArg List.length hunread
  rw [unread, List.length_drop, List.length_append, unread, List.length_drop, List.length_cons,
    List.length_append, h.data_eq] at hlength
  have hskip : s.skip (1 + (header.length + content.length)) = s' := by
    have hoffset : s.offset + (1 + (header.length + content.length)) = s'.offset := by omega
    rw [skip, hoffset, ← h.data_eq]
  rw [read_of_unread hform (by omega) hunread, hskip]

/-- A short element: a tag, a length of one byte, and the content. -/
def element (tag : UInt8) (content : Bytes) : Bytes :=
  tag :: UInt8.ofNat content.length :: content

/-- The reader is inside its data, with some bytes before it. -/
structure At (bytes : Bytes) (s : DerReader) : Prop where
  inside : s.offset ≤ s.data.length
  unread_eq : s.unread = bytes

theorem At.start (data : Bytes) : At data { data } := ⟨Nat.zero_le _, rfl⟩

/-- The element before the reader is read. -/
theorem At.read {s : DerReader} {tag : UInt8} {content back : Bytes}
    (h : At (element tag content ++ back) s) (hshort : content.length < 128) :
    ∃ s', DerReader.read tag s = .ok content s' ∧ At back s' := by
  have hlength : (UInt8.ofNat content.length).toNat = content.length := by
    rw [UInt8.toNat_ofNat']
    omega
  have hform : LengthForm content.length [UInt8.ofNat content.length] := by
    have hform := LengthForm.short (show (UInt8.ofNat content.length).toNat < 128 by omega)
    rwa [hlength] at hform
  have hle := le_of_unread h.inside h.unread_eq
  have hsize : (element tag content).length = 1 + (1 + content.length) := by
    rw [element, List.length_cons, List.length_cons]
    omega
  refine ⟨_, read_of_unread hform h.inside h.unread_eq, ?_, ?_⟩
  · rw [hsize] at hle
    exact hle
  · have hrest := skip_of_unread h.unread_eq
    rwa [hsize] at hrest

theorem At.empty {s : DerReader} (h : At [] s) : DerReader.empty s = .ok true s := by
  have hend : s.offset = s.data.length :=
    le_antisymm h.inside (List.drop_eq_nil_iff.1 h.unread_eq)
  unfold DerReader.empty
  rw [run_get_bind, hend]
  simp

/-- Reads in any order return or raise an error, from any offset. -/
theorem readAll_spec (tags : List UInt8) (s : DerReader) :
    wp (readAll tags) (fun contents _ => contents.length = tags.length) (fun e _ => Raised e) s := by
  induction tags generalizing s with
  | nil => rfl
  | cons tag tags ih =>
    rw [readAll, wp_bind]
    refine wp_mono (read_spec tag s) (fun content s' _ => ?_) (fun _ _ h => h)
    rw [wp_bind]
    exact wp_mono (ih s') (fun contents _ h => congrArg (· + 1) h) (fun _ _ h => h)

end DerReader

end TsCli
