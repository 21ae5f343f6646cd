import TsCli.Handshake.License

/-!
# What a license is

`Layout` describes the six layouts of a block, and `Chain` what a license is made of. The members of
the cursor recognize the parts of a block, so the parser of a block recognizes its layout; the loop
over the blocks reads one block after the other without a gap. So the parser accepts exactly the
chains.
-/

namespace TsCli

open Exec Cursor

/-- The errors that the parser raises itself. -/
def LicenseRaised (e : Failure) : Prop := ∃ message, e = .runtimeError message

namespace LicenseBlock

/-- A text with the zero behind it. -/
def Issuer (bytes : Bytes) : Prop := ∃ name : Bytes, 0 ∉ name ∧ bytes = name ++ [0]

/-- The content of a property has the form of its data type; contents of other types are free. -/
structure Content (dataType : UInt8) (content : Bytes) : Prop where
  text : dataType = 0x00 → content.getLast? = some 0x00
  word : dataType = 0x01 ∨ dataType = 0x03 → content.length = 4
  long : dataType = 0x02 ∨ dataType = 0x04 → content.length = 8

/-- A property: the length of what follows, an id, a data type and the content. -/
inductive Property : Bytes → Prop
  | intro {dataType : UInt8} {content : Bytes} (id : UInt8) (hlength : content.length + 2 < 256)
      (h : Content dataType content) :
      Property (UInt8.ofNat (content.length + 2) :: id :: dataType :: content)

/-- What follows the dates of a block of each type. -/
inductive Body : LicenseBlockType → Bytes → Prop
  | intermediate {unknown issuer : Bytes} (hunknown : unknown.length = 4) (h : Issuer issuer) :
      Body .intermediate (unknown ++ issuer)
  | website {issuer : Bytes} (h : Issuer issuer) : Body .website issuer
  | code {issuer : Bytes} (h : Issuer issuer) : Body .code issuer
  | ts3Server {maximumClients issuer : Bytes} (licenseType : UInt8)
      (hmaximum : maximumClients.length = 4) (h : Issuer issuer) :
      Body .ts3Server (licenseType :: (maximumClients ++ issuer))
  | ts5Server {properties : List Bytes} (licenseType : UInt8) (hcount : properties.length < 256)
      (h : ∀ property ∈ properties, Property property) :
      Body .ts5Server (licenseType :: UInt8.ofNat properties.length :: properties.flatten)
  | ephemeral : Body .ephemeral []

/-- The layout behind the type of a block: two dates and the body. -/
def Dated (publicKey : Bytes) (type : LicenseBlockType) (bytes : Bytes) (block : LicenseBlock) :
    Prop :=
  block.type = type ∧ block.publicKey = publicKey ∧ ∃ before after body : Bytes,
    bytes = before ++ (after ++ body) ∧ before.length = 4 ∧ after.length = 4 ∧
      block.notValidBefore.toNat = BigEndian.value before + timestampOffset.toNat ∧
      block.notValidAfter.toNat = BigEndian.value after + timestampOffset.toNat ∧
      block.notValidBefore ≤ block.notValidAfter ∧ Body type body

/-- The layout of a block. -/
def Layout (bytes : Bytes) (block : LicenseBlock) : Prop :=
  block.publicKey.length = 32 ∧ ∃ dated,
    bytes = 0x00 :: (block.publicKey ++ block.type.value :: dated) ∧
      Dated block.publicKey block.type dated block

/-- The validity of the inner block lies within that of the outer one. -/
def Within (outer inner : LicenseBlock) : Prop :=
  outer.notValidBefore ≤ inner.notValidBefore ∧ inner.notValidAfter ≤ outer.notValidAfter

end LicenseBlock

/-- What a license consists of. -/
structure License.Chain (data : Bytes) (license : License) : Prop where
  version : license.version = 0 ∨ license.version = 1
  raw : license.raw = data
  data_eq : data = license.version :: license.blocks.flatMap LicenseBlock.raw
  count : 2 ≤ license.blocks.length ∧ license.blocks.length ≤ 8
  layout : ∀ block ∈ license.blocks, LicenseBlock.Layout block.raw block
  room : ∀ front block back, license.blocks = front ++ block :: back →
    LicenseBlock.minimumBlockSize ≤ ((block :: back).flatMap LicenseBlock.raw).length
  within : license.blocks.Pairwise LicenseBlock.Within
  ends : ∃ front server last, license.blocks = front ++ [server, last] ∧
    server.isServer = true ∧ last.type = .ephemeral

/-! ## The members of the cursor -/

namespace LicenseCursor

theorem remaining_eq (s : LicenseCursor) : remaining s = s.unread.length :=
  (length_unread s).symm

theorem readBytes_of_le {s : LicenseCursor} {count : ℕ} (h : count ≤ s.unread.length) :
    readBytes count s = .ok (s.unread.take count) (s.skip count) := by
  have hfit : s.offset + count ≤ s.data.length := by
    have hle := s.offset_le
    rw [length_unread] at h
    omega
  have hrequire : require count s = .ok () s := by
    unfold require
    rw [run_get_bind, remaining_eq, if_neg (not_lt.2 h)]
    rfl
  have hskip : ({ s with offset := s.offset + count, offset_le := hfit } : LicenseCursor) =
      s.skip count := by
    unfold skip
    simp only [min_eq_left hfit]
  have htake : take count s = .ok (s.unread.take count) (s.skip count) := by
    unfold take
    rw [run_get_bind, dif_pos hfit, ← hskip]
    rfl
  unfold readBytes
  rw [run_bind_of_ok s hrequire, htake]

theorem readBytes_of_lt {s : LicenseCursor} {count : ℕ} (h : s.unread.length < count) :
    readBytes count s = .error (.runtimeError "Unexpected end of license data") s := by
  have hrequire : require count s =
      .error (.runtimeError "Unexpected end of license data") s := by
    unfold require
    rw [run_get_bind, remaining_eq, if_pos h]
    rfl
  unfold readBytes
  rw [run_bind_of_error s hrequire]

theorem recognizes_readBytes (count : ℕ) :
    Recognizes LicenseRaised (readBytes count) fun front bytes => front.length = count ∧
      bytes = front where
  sound s := by
    rcases le_or_gt count s.unread.length with hle | hlt
    · rw [wp_of_eq_ok (readBytes_of_le hle)]
      have hlength : (s.unread.take count).length = count := List.length_take_of_le hle
      refine ⟨s.unread.take count, ⟨hlength, rfl⟩, ?_, by rw [hlength]⟩
      rw [unread_skip, List.take_append_drop]
    · rw [wp_of_eq_error (readBytes_of_lt hlt)]
      exact ⟨_, rfl⟩
  complete := by
    rintro s front back bytes hunread ⟨rfl, rfl⟩
    rw [readBytes_of_le (by rw [hunread, List.length_append]; omega), hunread, List.take_left]

theorem recognizes_readU8 :
    Recognizes LicenseRaised readU8 fun front byte => front = [byte] := by
  have hread : readU8 = readBytes 1 >>= fun bytes => pure (bytes.headD 0) :=
    (bind_assoc _ _ _).symm
  rw [hread]
  refine ((recognizes_readBytes 1).bind fun bytes _ _ => .pure (bytes.headD 0)).of_iff
    fun front byte => ?_
  constructor
  · rintro ⟨bytes, first, second, rfl, ⟨hlength, rfl⟩, rfl, rfl⟩
    obtain ⟨b, rfl⟩ := List.length_eq_one_iff.1 hlength
    rfl
  · rintro rfl
    exact ⟨[byte], [byte], [], rfl, ⟨rfl, rfl⟩, rfl, rfl⟩

/-- A byte is put behind a number, both shifted. -/
theorem shiftLeft_or_shiftLeft (high k : ℕ) (byte : UInt8) :
    high <<< (k + 8) ||| byte.toNat <<< k = (high * 256 + byte.toNat) <<< k := by
  have hlow : byte.toNat <<< k < 2 ^ (k + 8) := by
    rw [Nat.shiftLeft_eq, pow_add, mul_comm]
    exact Nat.mul_lt_mul_of_pos_left byte.toNat_lt (Nat.two_pow_pos k)
  rw [← Nat.shiftLeft_add_eq_or_of_lt hlow, Nat.shiftLeft_eq, Nat.shiftLeft_eq, Nat.shiftLeft_eq,
    pow_add]
  ring

theorem toNat_word (a b c d : UInt8) :
    ((a.toUInt32 <<< 24) ||| (b.toUInt32 <<< 16) ||| (c.toUInt32 <<< 8) ||| d.toUInt32).toNat =
      BigEndian.value [a, b, c, d] := by
  have hshift : ∀ (byte : UInt8) {k : ℕ}, k ≤ 24 →
      byte.toNat <<< k % 2 ^ 32 = byte.toNat <<< k := fun byte k hk => by
    have hpow : 2 ^ k ≤ 2 ^ 24 := Nat.pow_le_pow_right (by decide) hk
    rw [Nat.shiftLeft_eq]
    refine Nat.mod_eq_of_lt ?_
    calc byte.toNat * 2 ^ k ≤ byte.toNat * 2 ^ 24 := Nat.mul_le_mul_left _ hpow
      _ < 2 ^ 8 * 2 ^ 24 := Nat.mul_lt_mul_of_pos_right byte.toNat_lt (Nat.two_pow_pos 24)
  have hword : a.toNat <<< 24 ||| b.toNat <<< 16 ||| c.toNat <<< 8 ||| d.toNat =
      ((a.toNat * 256 + b.toNat) * 256 + c.toNat) * 256 + d.toNat :=
    calc a.toNat <<< 24 ||| b.toNat <<< 16 ||| c.toNat <<< 8 ||| d.toNat
        = (a.toNat * 256 + b.toNat) <<< 16 ||| c.toNat <<< 8 ||| d.toNat := by
          rw [shiftLeft_or_shiftLeft a.toNat 16 b]
      _ = ((a.toNat * 256 + b.toNat) * 256 + c.toNat) <<< 8 ||| d.toNat <<< 0 := by
          rw [shiftLeft_or_shiftLeft _ 8 c, Nat.shiftLeft_zero]
      _ = ((a.toNat * 256 + b.toNat) * 256 + c.toNat) * 256 + d.toNat := by
          rw [shiftLeft_or_shiftLeft _ 0 d, Nat.shiftLeft_zero]
  have hvalue : BigEndian.value [a, b, c, d] =
      ((a.toNat * 256 + b.toNat) * 256 + c.toNat) * 256 + d.toNat := by
    simp [BigEndian.value]
  rw [hvalue, ← hword, ← hshift a (le_refl 24), ← hshift b (by decide), ← hshift c (by decide)]
  rw [UInt32.toNat_or, UInt32.toNat_or, UInt32.toNat_or, UInt32.toNat_shiftLeft,
    UInt32.toNat_shiftLeft, UInt32.toNat_shiftLeft, UInt8.toNat_toUInt32, UInt8.toNat_toUInt32,
    UInt8.toNat_toUInt32, UInt8.toNat_toUInt32]
  rfl

theorem recognizes_readU32 :
    Recognizes LicenseRaised readU32 fun front word => front.length = 4 ∧
      word.toNat = BigEndian.value front := by
  refine (recognizes_readU8.bind fun a _ _ => recognizes_readU8.bind fun b _ _ =>
    recognizes_readU8.bind fun c _ _ => recognizes_readU8.bind fun d _ _ => .pure _).of_iff
    fun front word => ?_
  constructor
  · rintro ⟨a, _, _, rfl, rfl, b, _, _, rfl, rfl, c, _, _, rfl, rfl, d, _, _, rfl, rfl, rfl, rfl⟩
    exact ⟨rfl, toNat_word a b c d⟩
  · rintro ⟨hlength, hword⟩
    obtain ⟨a, b, c, d, rfl⟩ : ∃ a b c d, front = [a, b, c, d] := by
      match front, hlength with
      | [a, b, c, d], _ => exact ⟨a, b, c, d, rfl⟩
    refine ⟨a, [a], _, rfl, rfl, b, [b], _, rfl, rfl, c, [c], _, rfl, rfl, d, [d], [], rfl, rfl, rfl, ?_⟩
    rw [← UInt32.toNat_inj, toNat_word, hword]

theorem exists_word {bytes : Bytes} (h : bytes.length = 4) :
    ∃ word : UInt32, word.toNat = BigEndian.value bytes := by
  have hlt := BigEndian.value_lt bytes
  rw [h] at hlt
  refine ⟨UInt32.ofNat (BigEndian.value bytes), ?_⟩
  rw [UInt32.toNat_ofNat']
  exact Nat.mod_eq_of_lt hlt

/-- A zero ends the loop. -/
theorem skipLoop_of_unread {fuel : ℕ} {name back : Bytes} {s : LicenseCursor} (hname : 0 ∉ name)
    (hfuel : name.length < fuel) (h : s.unread = name ++ 0 :: back) :
    skipLoop fuel s = .ok () (s.skip (name.length + 1)) := by
  induction name generalizing fuel s with
  | nil =>
    obtain ⟨fuel, rfl⟩ := Nat.exists_eq_succ_of_ne_zero hfuel.ne'
    have hread := recognizes_readU8.complete (show s.unread = [0] ++ back from h) rfl
    rw [skipLoop, run_bind_of_ok s hread, if_pos rfl]
    rfl
  | cons byte name ih =>
    obtain ⟨fuel, rfl⟩ := Nat.exists_eq_succ_of_ne_zero (Nat.ne_zero_of_lt hfuel)
    have hread := recognizes_readU8.complete
      (show s.unread = [byte] ++ (name ++ 0 :: back) from h) rfl
    have hbyte : ¬ byte = 0 := fun hzero => hname (hzero ▸ List.mem_cons_self)
    have hrest : (s.skip 1).unread = name ++ 0 :: back := 
      unread_skip_of_eq (show s.unread = [byte] ++ (name ++ 0 :: back) from h)
    rw [skipLoop, run_bind_of_ok s hread, if_neg hbyte]
    show skipLoop fuel (s.skip 1) = _
    rw [ih (fun hmem => hname (List.mem_cons_of_mem _ hmem)) (Nat.lt_of_succ_lt_succ hfuel) hrest,
      skip_skip, Nat.add_comm 1, List.length_cons]

/-- Without a zero the loop runs into the end. -/
theorem skipLoop_of_not_mem {fuel : ℕ} {s : LicenseCursor} (hfuel : s.unread.length < fuel)
    (h : 0 ∉ s.unread) : ∃ e s', skipLoop fuel s = .error e s' ∧ LicenseRaised e := by
  induction fuel generalizing s with
  | zero => exact absurd hfuel (Nat.not_lt_zero _)
  | succ fuel ih =>
    have hsound := recognizes_readU8.sound s
    unfold wp at hsound
    cases hread : readU8 s with
    | error e s' =>
      rw [hread] at hsound
      refine ⟨e, s', ?_, hsound⟩
      rw [skipLoop, run_bind_of_error s hread]
    | ok byte s' =>
      rw [hread] at hsound
      obtain ⟨front, rfl, hunread, rfl⟩ := hsound
      have hbyte : ¬ byte = 0 := fun hzero => h (by rw [hunread, hzero]; exact List.mem_cons_self)
      have hlength := congrArg List.length hunread
      rw [List.length_append, List.length_singleton] at hlength
      obtain ⟨e, s', hrun, he⟩ := ih (s := s.skip 1) (by omega) fun hmem =>
        h (by rw [hunread]; exact List.mem_cons_of_mem _ hmem)
      refine ⟨e, s', ?_, he⟩
      rw [skipLoop, run_bind_of_ok s hread, if_neg hbyte]
      exact hrun

theorem recognizes_skipNullTerminated :
    Recognizes LicenseRaised skipNullTerminated fun front _ => LicenseBlock.Issuer front where
  sound s := by
    have hfuel : s.unread.length < remaining s + 1 := by
      rw [remaining_eq]
      exact Nat.lt_succ_self _
    show wp (skipLoop (remaining s + 1)) _ _ s
    by_cases hzero : 0 ∈ s.unread
    · obtain ⟨name, back, hunread, hname⟩ := List.eq_append_cons_of_mem hzero
      have hlength := congrArg List.length hunread
      rw [List.length_append] at hlength
      rw [wp_of_eq_ok (skipLoop_of_unread hname (by omega) hunread)]
      have hfront : s.unread = (name ++ [0]) ++ back := by rw [hunread, List.append_assoc]; rfl
      refine ⟨name ++ [0], ⟨name, hname, rfl⟩, ?_, ?_⟩
      · have hrest := unread_skip_of_eq hfront
        rw [List.length_append, List.length_singleton] at hrest
        rw [hrest, hfront]
      · rw [List.length_append, List.length_singleton]
    · obtain ⟨e, s', hrun, he⟩ := skipLoop_of_not_mem hfuel hzero
      rw [wp_of_eq_error hrun]
      exact he
  complete := by
    rintro s front back u hunread ⟨name, hname, rfl⟩
    have hfuel : name.length < remaining s + 1 := by
      rw [remaining_eq, hunread]
      simp only [List.length_append]
      omega
    rw [List.append_assoc] at hunread
    show skipLoop (remaining s + 1) s = _
    rw [skipLoop_of_unread hname hfuel hunread, List.length_append, List.length_singleton]

end LicenseCursor

namespace LicenseBlock

open LicenseCursor

/-! ## The layouts -/

theorem checkContent_eq_ok_iff {dataType : UInt8} {content : Bytes} :
    checkContent dataType content = .ok () ↔ Content dataType content := by
  have hthrow : ∀ {c : Prop} [Decidable c] {message : String},
      throwIf c message = .ok () ↔ ¬ c := fun {c} _ {message} =>
    ⟨not_of_throwIf, throwIf_of_not message⟩
  unfold checkContent
  split_ifs with htext hword hlong
  · subst htext
    rw [hthrow]
    constructor
    · intro h
      exact ⟨fun _ => not_not.1 fun hlast => h (.inr hlast), fun h0 => absurd h0 (by decide),
        fun h0 => absurd h0 (by decide)⟩
    · rintro ⟨htext, -, -⟩ (rfl | hlast)
      · cases htext rfl
      · exact hlast (htext rfl)
  · rw [hthrow, not_not]
    refine ⟨fun h => ⟨fun h0 => absurd h0 htext, fun _ => h, fun hlong => ?_⟩, fun h => h.word hword⟩
    rcases hword with rfl | rfl <;> rcases hlong with hlong | hlong <;> cases hlong
  · rw [hthrow, not_not]
    exact ⟨fun h => ⟨fun h0 => absurd h0 htext, fun hword' => absurd hword' hword, fun _ => h⟩,
      fun h => h.long hlong⟩
  · exact ⟨fun _ => ⟨fun h0 => absurd h0 htext, fun hword' => absurd hword' hword,
      fun hlong' => absurd hlong' hlong⟩, fun _ => rfl⟩

theorem raised_throwIf {c : Prop} [Decidable c] {message : String} {e : Failure}
    (h : throwIf c message = .error e) : LicenseRaised e := by
  unfold throwIf at h
  split_ifs at h
  cases h
  exact ⟨message, rfl⟩

theorem raised_checkProperty {property : Bytes} (hlength : 2 ≤ property.length) {e : Failure}
    (h : checkProperty property = .error e) : LicenseRaised e := by
  match property, hlength with
  | _ :: dataType :: content, _ =>
    change checkContent dataType content = .error e at h
    unfold checkContent at h
    split_ifs at h
    · exact raised_throwIf h
    · exact raised_throwIf h
    · exact raised_throwIf h

theorem checkProperty_eq_ok_iff {property : Bytes} : checkProperty property = .ok () ↔
    ∃ id dataType content, property = id :: dataType :: content ∧ Content dataType content := by
  constructor
  · intro h
    match property, h with
    | id :: dataType :: content, h => exact ⟨id, dataType, content, rfl, checkContent_eq_ok_iff.1 h⟩
  · rintro ⟨id, dataType, content, rfl, h⟩
    exact checkContent_eq_ok_iff.2 h

/-- The properties, one after the other. -/
theorem recognizes_readProperties (count : ℕ) : Recognizes LicenseRaised (readProperties count)
    fun front _ => ∃ properties : List Bytes, properties.length = count ∧
      (∀ property ∈ properties, Property property) ∧ front = properties.flatten := by
  induction count with
  | zero =>
    refine (Recognizes.pure ()).of_iff fun front _ => ?_
    constructor
    · rintro ⟨rfl, -⟩
      exact ⟨[], rfl, nofun, rfl⟩
    · rintro ⟨properties, hlength, -, rfl⟩
      rw [List.length_eq_zero_iff.1 hlength]
      exact ⟨rfl, rfl⟩
  | succ count ih =>
    refine (recognizes_readU8.bind fun propertyLength _ _ => .guard ⟨_, rfl⟩ fun hlength =>
      (recognizes_readBytes _).bind fun property first hproperty =>
        (Recognizes.lift fun e => raised_checkProperty ?_).bind fun _ _ _ => ih).of_iff
          fun front u => ?_
    · rw [UInt8.lt_iff_toNat_lt, not_lt] at hlength
      rw [hproperty.2, hproperty.1]
      exact hlength
    · constructor
      · rintro ⟨propertyLength, _, _, rfl, rfl, hlength, property, _, _, rfl, ⟨hcount, rfl⟩, _, _, _,
          rfl, ⟨rfl, hcheck⟩, properties, rfl, hproperties, rfl⟩
        obtain ⟨id, dataType, content, rfl, hcontent⟩ := checkProperty_eq_ok_iff.1 hcheck
        have hsize : content.length + 2 = propertyLength.toNat := hcount
        have hlt := propertyLength.toNat_lt
        have hfirst : UInt8.ofNat (content.length + 2) = propertyLength := by
          rw [hsize]
          exact UInt8.ofNat_toNat
        refine ⟨(propertyLength :: id :: dataType :: content) :: properties, rfl, ?_, rfl⟩
        intro property hmem
        rcases List.mem_cons.1 hmem with rfl | hmem
        · rw [← hfirst]
          exact .intro id (by omega) hcontent
        · exact hproperties property hmem
      · rintro ⟨properties, hlength, hproperties, rfl⟩
        match properties, hlength with
        | property :: properties, hlength =>
          obtain ⟨id, hsize, hcontent⟩ := hproperties property List.mem_cons_self
          rename_i dataType content
          have hfirst : (UInt8.ofNat (content.length + 2)).toNat = content.length + 2 := by
            rw [UInt8.toNat_ofNat']
            exact Nat.mod_eq_of_lt hsize
          refine ⟨_, [_], _, rfl, rfl, ?_, id :: dataType :: content, id :: dataType :: content,
            properties.flatten, rfl, ⟨?_, rfl⟩, (), [], properties.flatten, rfl,
            ⟨rfl, checkProperty_eq_ok_iff.2 ⟨id, dataType, content, rfl, hcontent⟩⟩, properties,
            Nat.succ.inj hlength, fun property hmem =>
              hproperties property (List.mem_cons_of_mem _ hmem), rfl⟩
          · rw [UInt8.lt_iff_toNat_lt, hfirst, not_lt]
            exact Nat.le_add_left 2 _
          · rw [hfirst]
            rfl

/-- The reader of a body recognizes the bodies of its type. -/
theorem recognizes_readBody (type : LicenseBlockType) :
    Recognizes LicenseRaised (readBody type) fun front _ => Body type front := by
  cases type with
  | intermediate =>
    refine (recognizes_readU32.bind fun _ _ _ => recognizes_skipNullTerminated).of_iff
      fun front _ => ?_
    constructor
    · rintro ⟨_, unknown, issuer, rfl, ⟨hunknown, -⟩, hissuer⟩
      exact .intermediate hunknown hissuer
    · rintro ⟨hunknown, hissuer⟩
      obtain ⟨word, hword⟩ := exists_word hunknown
      exact ⟨word, _, _, rfl, ⟨hunknown, hword⟩, hissuer⟩
  | website =>
    refine recognizes_skipNullTerminated.of_iff fun front _ => ⟨.website, fun h => ?_⟩
    cases h
    assumption
  | code =>
    refine recognizes_skipNullTerminated.of_iff fun front _ => ⟨.code, fun h => ?_⟩
    cases h
    assumption
  | ts3Server =>
    refine (recognizes_readU8.bind fun _ _ _ => recognizes_readU32.bind fun _ _ _ =>
      recognizes_skipNullTerminated).of_iff fun front _ => ?_
    constructor
    · rintro ⟨licenseType, _, _, rfl, rfl, _, maximumClients, issuer, rfl, ⟨hmaximum, -⟩, hissuer⟩
      show Body .ts3Server (licenseType :: (maximumClients ++ issuer))
      exact .ts3Server licenseType hmaximum hissuer
    · intro h
      cases h with | ts3Server licenseType hmaximum hissuer => ?_
      obtain ⟨word, hword⟩ := exists_word hmaximum
      exact ⟨licenseType, [licenseType], _, rfl, rfl, word, _, _, rfl, ⟨hmaximum, hword⟩, hissuer⟩
  | ts5Server =>
    refine (recognizes_readU8.bind fun _ _ _ => recognizes_readU8.bind fun count _ _ =>
      recognizes_readProperties count.toNat).of_iff fun front _ => ?_
    constructor
    · rintro ⟨licenseType, _, _, rfl, rfl, count, _, _, rfl, rfl, properties, hcount, hproperties, rfl⟩
      have hlt := count.toNat_lt
      have hbyte : UInt8.ofNat properties.length = count := by
        rw [hcount]
        exact UInt8.ofNat_toNat
      have hbody := Body.ts5Server licenseType (by omega) hproperties
      rwa [hbyte] at hbody
    · intro h
      cases h with | ts5Server licenseType hcount hproperties => ?_
      refine ⟨licenseType, [licenseType], _, rfl, rfl, _, [_], _, rfl, rfl, _, ?_, hproperties, rfl⟩
      rw [UInt8.toNat_ofNat']
      exact (Nat.mod_eq_of_lt hcount).symm
  | ephemeral =>
    refine (Recognizes.pure ()).of_iff fun front _ => ⟨fun h => ?_, fun h => ?_⟩
    · rw [h.1]
      exact .ephemeral
    · cases h
      exact ⟨rfl, rfl⟩

theorem toNat_date {word : UInt32} {bytes : Bytes} (h : word.toNat = BigEndian.value bytes) :
    (word.toUInt64 + timestampOffset).toNat = BigEndian.value bytes + timestampOffset.toNat := by
  have hlt := word.toNat_lt
  have hoffset : timestampOffset.toNat = 0x50e22700 := rfl
  rw [UInt64.toNat_add, UInt32.toNat_toUInt64, h, Nat.mod_eq_of_lt]
  omega

theorem recognizes_readDated (publicKey : Bytes) (type : LicenseBlockType) :
    Recognizes LicenseRaised (readDated publicKey type)
      fun front block => Dated publicKey type front block ∧ block.raw = [] := by
  refine (recognizes_readU32.bind fun before _ _ => recognizes_readU32.bind fun after _ _ =>
    .guard ⟨_, rfl⟩ fun _ => (recognizes_readBody type).bind fun _ _ _ => .pure _).of_iff
      fun front block => ?_
  constructor
  · rintro ⟨before, beforeBytes, _, rfl, ⟨hbeforeLength, hbefore⟩, after, afterBytes, _, rfl,
      ⟨hafterLength, hafter⟩, hrange, _, body, _, rfl, hbody, rfl, rfl⟩
    exact ⟨⟨rfl, rfl, beforeBytes, afterBytes, body, by rw [List.append_nil], hbeforeLength,
      hafterLength, toNat_date hbefore, toNat_date hafter, UInt64.not_lt.1 hrange, hbody⟩, rfl⟩
  · rintro ⟨⟨rfl, rfl, beforeBytes, afterBytes, body, rfl, hbeforeLength, hafterLength, hbefore,
      hafter, hrange, hbody⟩, hraw⟩
    obtain ⟨before, hbeforeWord⟩ := exists_word hbeforeLength
    obtain ⟨after, hafterWord⟩ := exists_word hafterLength
    have hbeforeEq : before.toUInt64 + timestampOffset = block.notValidBefore :=
      UInt64.toNat_inj.1 ((toNat_date hbeforeWord).trans hbefore.symm)
    have hafterEq : after.toUInt64 + timestampOffset = block.notValidAfter :=
      UInt64.toNat_inj.1 ((toNat_date hafterWord).trans hafter.symm)
    refine ⟨before, beforeBytes, _, rfl, ⟨hbeforeLength, hbeforeWord⟩, after, afterBytes, body, rfl,
      ⟨hafterLength, hafterWord⟩, ?_, (), body, [], (List.append_nil _).symm, hbody, rfl, ?_⟩
    · rw [hbeforeEq, hafterEq]
      exact UInt64.not_lt.2 hrange
    · rw [hbeforeEq, hafterEq, ← hraw]

/-- The switch over the type. -/
theorem recognizes_typed (publicKey : Bytes) (blockType : UInt8) :
    Recognizes LicenseRaised
      (match LicenseBlockType.ofByte? blockType with
        | none => throw (.runtimeError "Unsupported license block type")
        | some type => readDated publicKey type)
      fun front block => blockType = block.type.value ∧ Dated publicKey block.type front block ∧
        block.raw = [] := by
  cases htype : LicenseBlockType.ofByte? blockType with
  | none =>
    refine (Recognizes.throw ⟨_, rfl⟩).of_iff fun front block => ⟨False.elim, fun h => ?_⟩
    rw [LicenseBlockType.ofByte?_eq_some_iff.2 h.1] at htype
    cases htype
  | some type =>
    have hvalue := LicenseBlockType.ofByte?_eq_some_iff.1 htype
    refine (recognizes_readDated publicKey type).of_iff fun front block => ⟨fun h => ?_, fun h => ?_⟩
    · obtain ⟨hdated, hraw⟩ := h
      have hblock := hdated.1
      subst hblock
      exact ⟨hvalue, hdated, hraw⟩
    · have hsame := LicenseBlockType.ofByte?_eq_some_iff.2 h.1
      rw [htype] at hsame
      cases hsame
      exact h.2

/-- **The reader of a block recognizes the layout of a block**, whose raw bytes it leaves empty. -/
theorem recognizes_readFields : Recognizes LicenseRaised readFields
    fun front block => Layout front block ∧ block.raw = [] := by
  refine (recognizes_readU8.bind fun keyType _ _ => .guard ⟨_, rfl⟩ fun _ =>
    (recognizes_readBytes 32).bind fun publicKey _ _ => recognizes_readU8.bind fun blockType _ _ =>
      recognizes_typed publicKey blockType).of_iff fun front block => ?_
  constructor
  · rintro ⟨keyType, _, _, rfl, rfl, hkey, publicKey, _, _, rfl, ⟨hlength, rfl⟩, blockType, _, dated,
      rfl, rfl, rfl, hdated, hraw⟩
    have hpublicKey := hdated.2.1
    subst hpublicKey
    rw [not_not.1 hkey]
    exact ⟨⟨hlength, dated, rfl, hdated⟩, hraw⟩
  · rintro ⟨⟨hlength, dated, rfl, hdated⟩, hraw⟩
    exact ⟨0x00, [0x00], _, rfl, rfl, not_not.2 rfl, block.publicKey, block.publicKey, _, rfl,
      ⟨hlength, rfl⟩, block.type.value, [block.type.value], dated, rfl, rfl, rfl, hdated, hraw⟩

theorem Layout.length_le {bytes : Bytes} {block : LicenseBlock} (h : Layout bytes block) :
    minimumBlockSize ≤ bytes.length := by
  obtain ⟨hkey, dated, rfl, -, -, before, after, body, rfl, hbefore, hafter, -⟩ := h
  simp only [List.length_cons, List.length_append, hkey, hbefore, hafter, minimumBlockSize]
  omega

/-- The cursor that `Parse` starts with. -/
def startCursor (blockData : Bytes) : LicenseCursor :=
  { data := blockData, offset_le := Nat.zero_le _ }

theorem offset_skip_startCursor {blockData front back : Bytes} (h : blockData = front ++ back) :
    ((startCursor blockData).skip front.length).offset = front.length :=
  (offset_skip_of_eq (s := startCursor blockData) h).trans (Nat.zero_add _)

/-- A text that is too short is refused before the fields are read. -/
theorem parse_of_short {data : Bytes} {offset : ℕ}
    (h : data.length < offset ∨ data.length - offset < minimumBlockSize) :
    parse data offset = .error (.runtimeError "License block is too short") := by
  unfold parse
  rw [throwIf_of_pos _ h]
  rfl

theorem parse_of_read {data : Bytes} {offset : ℕ} {fields : LicenseBlock} {s : LicenseCursor}
    (hlong : ¬ (data.length < offset ∨ data.length - offset < minimumBlockSize))
    (hread : readFields (startCursor (data.drop offset)) = .ok fields s) : parse data offset =
      .ok ({ fields with raw := (data.drop offset).take s.offset }, offset + s.offset) := by
  unfold startCursor at hread
  unfold parse
  rw [throwIf_bind_of_not hlong]
  dsimp only
  rw [hread]

theorem parse_of_raised {data : Bytes} {offset : ℕ} {e : Failure} {s : LicenseCursor}
    (hlong : ¬ (data.length < offset ∨ data.length - offset < minimumBlockSize))
    (hread : readFields (startCursor (data.drop offset)) = .error e s) :
    parse data offset = .error e := by
  unfold startCursor at hread
  unfold parse
  rw [throwIf_bind_of_not hlong]
  dsimp only
  rw [hread]

/-- **What a block parser accepts**, and how far it comes. -/
theorem parse_eq_ok_iff {data : Bytes} {offset offset' : ℕ} {block : LicenseBlock} :
    parse data offset = .ok (block, offset') ↔ ∃ back, data.drop offset = block.raw ++ back ∧
      Layout block.raw block ∧ offset' = offset + block.raw.length := by
  constructor
  · intro h
    have hlong : ¬ (data.length < offset ∨ data.length - offset < minimumBlockSize) := by
      intro hshort
      rw [parse_of_short hshort] at h
      cases h
    have hsound := recognizes_readFields.sound (startCursor (data.drop offset))
    unfold wp at hsound
    cases hread : readFields (startCursor (data.drop offset)) with
    | error e s =>
      rw [parse_of_raised hlong hread] at h
      cases h
    | ok fields s =>
      rw [hread] at hsound
      obtain ⟨front, ⟨hlayout, -⟩, hunread, rfl⟩ := hsound
      have hdrop : data.drop offset =
          front ++ ((startCursor (data.drop offset)).skip front.length).unread := hunread
      have hoffset := offset_skip_startCursor hdrop
      have htake : (data.drop offset).take front.length = front := by
        rw [hdrop, List.take_left]
      rw [parse_of_read hlong hread] at h
      simp only [hoffset, htake] at h
      cases h
      exact ⟨_, hdrop, hlayout, rfl⟩
  · rintro ⟨back, hdrop, hlayout, rfl⟩
    have hsize := congrArg List.length hdrop
    rw [List.length_drop, List.length_append] at hsize
    have hroom := hlayout.length_le
    have hread := recognizes_readFields.complete (s := startCursor (data.drop offset))
      (a := { block with raw := [] }) hdrop ⟨hlayout, rfl⟩
    have hlong : ¬ (data.length < offset ∨ data.length - offset < minimumBlockSize) := by
      unfold minimumBlockSize at hroom ⊢
      omega
    have htake : (data.drop offset).take block.raw.length = block.raw := by
      rw [hdrop, List.take_left]
    rw [parse_of_read hlong hread]
    simp only [offset_skip_startCursor hdrop, htake]

theorem raised_parse {data : Bytes} {offset : ℕ} {e : Failure}
    (h : parse data offset = .error e) : LicenseRaised e := by
  by_cases hshort : data.length < offset ∨ data.length - offset < minimumBlockSize
  · rw [parse_of_short hshort] at h
    cases h
    exact ⟨_, rfl⟩
  · have hsound := recognizes_readFields.sound (startCursor (data.drop offset))
    unfold wp at hsound
    cases hread : readFields (startCursor (data.drop offset)) with
    | ok fields s =>
      rw [parse_of_read hshort hread] at h
      cases h
    | error e' s =>
      rw [parse_of_raised hshort hread] at h
      rw [hread] at hsound
      cases h
      exact hsound

end LicenseBlock

namespace License

open LicenseBlock

/-! ## The chain -/

/-- The bounds that `Parse` keeps of the last block. -/
def bounds (blocks : List LicenseBlock) : Option (UInt64 × UInt64) :=
  blocks.getLast?.map fun block => (block.notValidBefore, block.notValidAfter)

theorem bounds_concat (blocks : List LicenseBlock) (block : LicenseBlock) :
    bounds (blocks ++ [block]) = some (block.notValidBefore, block.notValidAfter) := by
  unfold bounds
  rw [List.getLast?_concat]
  rfl

/-- The check lets exactly those blocks pass that go on with the chain. -/
theorem checkParent_eq_ok_iff {blocks : List LicenseBlock} (hchain : blocks.IsChain Within)
    (block : LicenseBlock) :
    checkParent (bounds blocks) block = .ok () ↔ (blocks ++ [block]).IsChain Within := by
  rw [List.isChain_append]
  unfold bounds
  cases hlast : blocks.getLast? with
  | none => simpa [checkParent] using hchain
  | some outer =>
    have hthrow : checkParent (some (outer.notValidBefore, outer.notValidAfter)) block = .ok () ↔
        Within outer block := by
      unfold Within
      constructor
      · intro h
        obtain ⟨hbefore, hafter⟩ := not_or.1 (not_of_throwIf h)
        exact ⟨UInt64.not_lt.1 hbefore, UInt64.not_lt.1 hafter⟩
      · rintro ⟨hbefore, hafter⟩
        exact throwIf_of_not _ (not_or.2 ⟨UInt64.not_lt.2 hbefore, UInt64.not_lt.2 hafter⟩)
    simpa [hchain] using hthrow

/-- **One pass**: the next block is read, there is room for it, and it goes on with the chain. -/
theorem parseBlocks_succ_eq_ok_iff {data : Bytes} {fuel offset : ℕ}
    {blocks result : List LicenseBlock} (hlt : offset < data.length)
    (hchain : blocks.IsChain Within) :
    parseBlocks data (fuel + 1) offset blocks (bounds blocks) = .ok result ↔
      ∃ block back, data.drop offset = block.raw ++ back ∧ Layout block.raw block ∧
        blocks.length < 8 ∧ (blocks ++ [block]).IsChain Within ∧
        parseBlocks data fuel (offset + block.raw.length) (blocks ++ [block])
          (bounds (blocks ++ [block])) = .ok result := by
  rw [parseBlocks, if_pos hlt]
  constructor
  · intro h
    obtain ⟨u, hroom, h⟩ := bind_eq_ok h
    obtain ⟨⟨block, offset'⟩, hblock, h⟩ := bind_eq_ok h
    obtain ⟨u', hparent, h⟩ := bind_eq_ok h
    obtain ⟨back, hdrop, hlayout, rfl⟩ := parse_eq_ok_iff.1 hblock
    rw [← bounds_concat blocks block] at h
    exact ⟨block, back, hdrop, hlayout, not_le.1 (not_of_throwIf hroom),
      (checkParent_eq_ok_iff hchain block).1 hparent, h⟩
  · rintro ⟨block, back, hdrop, hlayout, hroom, hfront, h⟩
    have hparse := parse_eq_ok_iff.2 ⟨back, hdrop, hlayout, rfl⟩
    rw [throwIf_bind_of_not (not_le.2 hroom), hparse]
    show (checkParent (bounds blocks) block >>= _) = _
    rw [(checkParent_eq_ok_iff hchain block).2 hfront]
    rwa [bounds_concat blocks block] at h

/-- Blocks take up room. -/
theorem eq_nil_of_flatMap_raw {blocks : List LicenseBlock}
    (hlayouts : ∀ block ∈ blocks, Layout block.raw block)
    (h : blocks.flatMap LicenseBlock.raw = []) : blocks = [] := by
  cases blocks with
  | nil => rfl
  | cons block blocks =>
    have hroom := (hlayouts block List.mem_cons_self).length_le
    have hlength := congrArg List.length h
    rw [List.flatMap_cons, List.length_append, List.length_nil] at hlength
    unfold minimumBlockSize at hroom
    omega

/-- **What the loop accepts**: more blocks, one after the other up to the end of the data, each
within the one before. By induction on the passes; nine are enough. -/
theorem parseBlocks_eq_ok_iff {data : Bytes} {fuel offset : ℕ} {blocks result : List LicenseBlock}
    (hfuel : 9 ≤ fuel + blocks.length) (hcount : blocks.length ≤ 8)
    (hchain : blocks.IsChain Within) :
    parseBlocks data fuel offset blocks (bounds blocks) = .ok result ↔
      ∃ more, result = blocks ++ more ∧ data.drop offset = more.flatMap LicenseBlock.raw ∧
        (∀ block ∈ more, Layout block.raw block) ∧ result.IsChain Within ∧ result.length ≤ 8 := by
  induction fuel generalizing offset blocks with
  | zero => omega
  | succ fuel ih =>
    by_cases hend : offset < data.length
    · rw [parseBlocks_succ_eq_ok_iff hend hchain]
      constructor
      · rintro ⟨block, back, hdrop, hlayout, hroom, hfront, h⟩
        have hconcat : (blocks ++ [block]).length = blocks.length + 1 := List.length_append
        rw [ih (by omega) (by omega) hfront] at h
        obtain ⟨more, rfl, hmore, hlayouts, hrest⟩ := h
        refine ⟨block :: more, List.append_assoc blocks [block] more, ?_,
          List.forall_mem_cons.2 ⟨hlayout, hlayouts⟩, hrest⟩
        rw [← List.drop_drop, hdrop, List.drop_left] at hmore
        rw [List.flatMap_cons, ← hmore, hdrop]
      · rintro ⟨more, rfl, hdrop, hlayouts, hchain', hcount'⟩
        cases more with
        | nil => exact absurd (List.drop_eq_nil_iff.1 hdrop) (not_le.2 hend)
        | cons block more =>
          rw [List.flatMap_cons] at hdrop
          have hassoc : blocks ++ block :: more = blocks ++ [block] ++ more :=
            (List.append_assoc blocks [block] more).symm
          obtain ⟨hlayout, hlayouts⟩ := List.forall_mem_cons.1 hlayouts
          have hlength : blocks.length + (more.length + 1) ≤ 8 := by
            rwa [List.length_append, List.length_cons] at hcount'
          have hconcat : (blocks ++ [block]).length = blocks.length + 1 := List.length_append
          have hfront := (List.isChain_append.1 (hassoc ▸ hchain')).1
          refine ⟨block, _, hdrop, hlayout, by omega, hfront, (ih (by omega) (by omega) hfront).2
            ⟨more, hassoc, ?_, hlayouts, hchain', hcount'⟩⟩
          rw [← List.drop_drop, hdrop, List.drop_left]
    · rw [parseBlocks, if_neg hend]
      have hnil : data.drop offset = [] := List.drop_eq_nil_of_le (not_lt.1 hend)
      constructor
      · intro h
        cases h
        exact ⟨[], (List.append_nil _).symm, hnil, nofun, hchain, hcount⟩
      · rintro ⟨more, rfl, hdrop, hlayouts, -⟩
        rw [eq_nil_of_flatMap_raw hlayouts (hdrop.symm.trans hnil), List.append_nil]

theorem raised_parseBlocks {data : Bytes} {fuel offset : ℕ} {blocks : List LicenseBlock}
    {parent : Option (UInt64 × UInt64)} {e : Failure} (hfuel : 9 ≤ fuel + blocks.length)
    (hcount : blocks.length ≤ 8) (h : parseBlocks data fuel offset blocks parent = .error e) :
    LicenseRaised e := by
  induction fuel generalizing offset blocks parent with
  | zero => omega
  | succ fuel ih =>
    rw [parseBlocks] at h
    by_cases hend : offset < data.length
    · rw [if_pos hend] at h
      by_cases hroom : 8 ≤ blocks.length
      · rw [throwIf_of_pos _ hroom] at h
        cases h
        exact ⟨_, rfl⟩
      · rw [throwIf_bind_of_not hroom] at h
        cases hblock : LicenseBlock.parse data offset with
        | error e' =>
          rw [hblock] at h
          cases h
          exact raised_parse hblock
        | ok parsed =>
          rw [hblock] at h
          change (checkParent parent parsed.1 >>= _) = _ at h
          cases hparent : checkParent parent parsed.1 with
          | error e' =>
            rw [hparent] at h
            cases h
            unfold checkParent at hparent
            split at hparent
            · cases hparent
            · exact raised_throwIf hparent
          | ok u =>
            rw [hparent] at h
            exact ih (by rw [List.length_append, List.length_singleton]; omega)
              (by rw [List.length_append, List.length_singleton]; omega) h
    · rw [if_neg hend] at h
      cases h

instance : Trans Within Within Within where
  trans h h' := ⟨UInt64.le_trans h.1 h'.1, UInt64.le_trans h'.2 h.2⟩

theorem exists_ends {blocks : List LicenseBlock} (h : 2 ≤ blocks.length) :
    ∃ front server last, blocks = front ++ [server, last] := by
  rcases List.eq_nil_or_concat' blocks with rfl | ⟨init, last, rfl⟩
  · cases h
  rcases List.eq_nil_or_concat' init with rfl | ⟨front, server, rfl⟩
  · rw [List.nil_append, List.length_singleton] at h
    omega
  · exact ⟨front, server, last, List.append_assoc front [server] [last]⟩

/-- The block in front of the last one. -/
theorem getElem?_server (front : List LicenseBlock) (server last : LicenseBlock) :
    (front ++ [server, last])[(front ++ [server, last]).length - 2]? = some server := by
  rw [List.length_append, List.length_cons, List.length_singleton, Nat.add_sub_cancel,
    List.getElem?_append_right (le_refl _), Nat.sub_self]
  rfl

theorem getLast?_ends (front : List LicenseBlock) (server last : LicenseBlock) :
    (front ++ [server, last]).getLast? = some last := by
  rw [List.getLast?_append]
  rfl

/-- The loop from the first block on. -/
theorem parseBlocks_start_iff {data : Bytes} {blocks : List LicenseBlock} :
    parseBlocks data 9 1 [] none = .ok blocks ↔
      data.drop 1 = blocks.flatMap LicenseBlock.raw ∧ (∀ block ∈ blocks, Layout block.raw block) ∧
        blocks.Pairwise Within ∧ blocks.length ≤ 8 := by
  have hnil : ([] : List LicenseBlock).IsChain Within := List.isChain_nil
  have hloop : parseBlocks data 9 1 [] none = .ok blocks ↔ _ :=
    parseBlocks_eq_ok_iff (le_refl 9) (Nat.zero_le 8) hnil
  rw [← List.isChain_iff_pairwise]
  constructor
  · intro h
    obtain ⟨more, rfl, hrest⟩ := hloop.1 h
    exact hrest
  · intro h
    exact hloop.2 ⟨blocks, rfl, h⟩

/-- **What the parser accepts are the chains.** -/
theorem parse_eq_ok {data : Bytes} {license : License} :
    parse data = .ok license ↔ Chain data license := by
  constructor
  · intro h
    obtain ⟨u, hempty, h⟩ := bind_eq_ok h
    obtain ⟨u', hversion, h⟩ := bind_eq_ok h
    obtain ⟨blocks, hblocks, h⟩ := bind_eq_ok h
    obtain ⟨u'', hfew, h⟩ := bind_eq_ok h
    obtain ⟨hdata, hlayout, hwithin, hlength⟩ := parseBlocks_start_iff.1 hblocks
    obtain ⟨front, server, last, rfl⟩ := exists_ends (not_lt.1 (not_of_throwIf hfew))
    rw [getElem?_server, getLast?_ends] at h
    obtain ⟨v, hserver, h⟩ := bind_eq_ok h
    obtain ⟨v', hlast, h⟩ := bind_eq_ok h
    cases h
    cases data with
    | nil => exact absurd rfl (not_of_throwIf hempty)
    | cons version rest =>
      refine ⟨?_, rfl, ?_, ⟨not_lt.1 (not_of_throwIf hfew), hlength⟩, hlayout, ?_, hwithin,
        front, server, last, rfl, ?_, ?_⟩
      · have hnot := not_of_throwIf hversion
        by_cases hzero : version = 0
        · exact .inl hzero
        · exact .inr (not_not.1 fun hone => hnot ⟨hzero, hone⟩)
      · show version :: rest = version :: _
        rw [← hdata]
        rfl
      · intro earlier block back hsplit
        have hmem : block ∈ front ++ [server, last] := by
          rw [show front ++ [server, last] = earlier ++ block :: back from hsplit]
          exact List.mem_append_right _ List.mem_cons_self
        have hroom := (hlayout block hmem).length_le
        rw [List.flatMap_cons, List.length_append]
        omega
      · exact not_not.1 (not_of_throwIf hserver)
      · exact not_not.1 (not_of_throwIf hlast)
  · rintro ⟨hversion, rfl, hdata, ⟨hfew, hmany⟩, hlayout, -, hwithin, front, server, last, hends,
      hserver, hlast⟩
    obtain ⟨version, raw, blocks⟩ := license
    simp only at hversion hdata hfew hmany hlayout hwithin hends
    subst hends
    have hdrop : raw.drop 1 = (front ++ [server, last]).flatMap LicenseBlock.raw := by
      rw [hdata]
      rfl
    have hblocks := parseBlocks_start_iff.2 ⟨hdrop, hlayout, hwithin, hmany⟩
    have hhead : raw.headD 0 = version := by rw [hdata]; rfl
    have hnot : ¬ (version ≠ 0 ∧ version ≠ 1) := by
      rintro ⟨hzero, hone⟩
      exact hversion.elim hzero hone
    unfold parse
    rw [throwIf_bind_of_not (by rw [hdata]; nofun), hhead, throwIf_bind_of_not hnot, hblocks]
    show (throwIf _ _ >>= _) = _
    rw [throwIf_bind_of_not (not_lt.2 hfew), getElem?_server, getLast?_ends]
    show (throwIf _ _ >>= _) = _
    rw [throwIf_bind_of_not (not_not.2 hserver), throwIf_bind_of_not (not_not.2 hlast)]

theorem raised_bind {α β : Type} {x : Except Failure α} {f : α → Except Failure β} {e : Failure}
    (h : (x >>= f) = .error e) (hx : x = .error e → LicenseRaised e)
    (hf : ∀ a, x = .ok a → f a = .error e → LicenseRaised e) : LicenseRaised e := by
  cases x with
  | error e' =>
    cases h
    exact hx rfl
  | ok a => exact hf a rfl h

/-- Neither a read outside of the data nor an endless loop. -/
theorem raised_of_parse {data : Bytes} {e : Failure} (h : parse data = .error e) :
    LicenseRaised e := by
  refine raised_bind h raised_throwIf fun _ _ h => ?_
  refine raised_bind h raised_throwIf fun _ _ h => ?_
  refine raised_bind h (raised_parseBlocks (le_refl 9) (Nat.zero_le 8)) fun blocks _ h => ?_
  refine raised_bind h raised_throwIf fun _ hfew h => ?_
  obtain ⟨front, server, last, rfl⟩ := exists_ends (not_lt.1 (not_of_throwIf hfew))
  rw [getElem?_server, getLast?_ends] at h
  refine raised_bind h raised_throwIf fun _ _ h => ?_
  refine raised_bind h raised_throwIf fun _ _ h => ?_
  cases h

/-- **The parser accepts exactly its grammar.** It returns a license just when the data is the chain
of blocks that the license describes, whose raw bytes then fill the data behind the version; every
other input ends in an error of the parser's own. -/
theorem parse_grammar (data : Bytes) :
    (∀ license, parse data = .ok license ↔ Chain data license) ∧
      (∀ license, parse data = .ok license →
        license.blocks.flatMap LicenseBlock.raw = data.drop 1) ∧
      ∀ e, parse data = .error e → LicenseRaised e := by
  refine ⟨fun license => parse_eq_ok, fun license h => ?_, fun e h => raised_of_parse h⟩
  rw [(parse_eq_ok.1 h).data_eq]
  rfl

/-- A server block with an empty issuer, and an ephemeral block within its validity. -/
example : ((parse (0x01 :: (0x00 :: List.replicate 32 0x11 ++ [0x02, 0, 0, 0, 5, 0, 0, 0, 9, 0x05,
    0, 0, 0, 64, 0]) ++ (0x00 :: List.replicate 32 0x22 ++ [0x20, 0, 0, 0, 6, 0, 0, 0, 9]))).toOption.map
      fun license => license.blocks.map fun block => block.raw.length) = some [48, 42] := by
  decide +kernel

end License

end TsCli
