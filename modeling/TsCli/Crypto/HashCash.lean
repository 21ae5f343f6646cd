import TsCli.Config.Config

/-!
# Hash cash

The level of a key offset is the number of zero bits in front of the first one bit of a digest,
when its bytes are read in order and each from its low bit on. `FindOffset` tries one offset after
the other, up to the last one of 64 bits, and looks now and then whether it should stop.

SHA-1 is any function. The progress callback may throw.
-/

namespace TsCli

/-! ## Base64 -/

namespace Base64

def alphabet : Bytes := ascii "ABCDEFGHIJKLMNOPQRSTUVWXYZabcdefghijklmnopqrstuvwxyz0123456789+/"

def digit (n : ℕ) : UInt8 := alphabet.getD n 0

/-- `EVP_EncodeBlock`. -/
def encodeBlock : Bytes → Bytes
  | [] => []
  | [a] => [digit (a.toNat / 4), digit (a.toNat % 4 * 16)] ++ ascii "=="
  | [a, b] => [digit (a.toNat / 4), digit (a.toNat % 4 * 16 + b.toNat / 16),
      digit (b.toNat % 16 * 4)] ++ ascii "="
  | a :: b :: c :: rest => [digit (a.toNat / 4), digit (a.toNat % 4 * 16 + b.toNat / 16),
      digit (b.toNat % 16 * 4 + c.toNat / 64), digit (c.toNat % 64)] ++ encodeBlock rest

/-- `Base64Encode`. -/
def encode (data : Bytes) : Except Failure Bytes := do
  throwIf (2 ^ 31 - 1 < data.length) "Base64 input is too large"
  return encodeBlock data

example : encode (ascii "level") = .ok (ascii "bGV2ZWw=") := by decide +kernel

end Base64

namespace HashCash

/-- `ProgressInterval`. -/
def progressInterval : UInt64 := (1 : UInt64) <<< 16

/-- `std::numeric_limits<std::uint64_t>::max()`. -/
def maxOffset : UInt64 := 0xffffffffffffffff

/-- The inner loop of `GetLevel`. A byte that is not zero ends it within eight turns. -/
def countLowZeros : ℕ → UInt8 → UInt8 → Except Failure UInt8
  | 0, _, _ => .error .outOfFuel
  | fuel + 1, level, byte =>
    if byte &&& 0x01 = 0 then countLowZeros fuel (level + 1) (byte >>> 1) else .ok level

/-- The loop of `GetLevel` over the digest. -/
def levelLoop : UInt8 → Bytes → Except Failure UInt8
  | level, [] => .ok level
  | level, byte :: hash => if byte = 0 then levelLoop (level + 8) hash else countLowZeros 8 level byte

/-- The callback that is told the next offset, if there is one. -/
abbrev ProgressCallback := Option (UInt64 → Except Failure Unit)

section Search

variable (sha1 : Bytes → Vector UInt8 20)

/-- `HashCashImpl::GetLevel`. -/
def getLevel (encodedPublicKey : Bytes) (offset : UInt64) : Except Failure UInt8 :=
  levelLoop 0 (sha1 (encodedPublicKey ++ numberText 10 offset.toNat)).toList

variable (targetLevel : UInt8) (start : UInt64) (stop : UInt64 → Bool) (progress : ProgressCallback)

/-- The loop of `HashCashImpl::FindOffset`. `stop offset` is what `stop_requested` says at that
offset. -/
def findLoop (encodedPublicKey : Bytes) : ℕ → UInt64 → Except Failure (Option UInt64)
  | 0, _ => .error .outOfFuel
  | fuel + 1, offset => do
    let level ← getLevel sha1 encodedPublicKey offset
    if targetLevel ≤ level then
      return some offset
    else if offset = maxOffset then
      throw (.runtimeError "Unable to find identity key offset")
    else if (offset - start + 1) % progressInterval = 0 then
      if stop offset then
        return none
      else
        match progress with
        | none => findLoop encodedPublicKey fuel (offset + 1)
        | some report => do
          report (offset + 1)
          findLoop encodedPublicKey fuel (offset + 1)
    else
      findLoop encodedPublicKey fuel (offset + 1)

/-- `HashCash::FindOffset`, with a start. -/
def findOffset (publicKey : Bytes) : Except Failure (Option UInt64) := do
  let encodedPublicKey ← Base64.encode publicKey
  findLoop sha1 targetLevel start stop progress encodedPublicKey (2 ^ 64 - start.toNat) start

/-- `HashCash::FindOffset`, from zero on. -/
def findFirstOffset (publicKey : Bytes) : Except Failure UInt64 := do
  match ← findOffset sha1 targetLevel 0 (fun _ => false) none publicKey with
  | some offset => return offset
  | none => throw .outOfBounds

end Search

/-! ## Levels -/

/-- The bits of some bytes, the low bit of each first. -/
def bits (bytes : Bytes) : List Bool := bytes.flatMap fun byte => (List.range 8).map byte.toNat.testBit

/-- The number of zero bits in front. -/
def trailingZeros (bytes : Bytes) : ℕ := ((bits bytes).takeWhile (!·)).length

/-- The number of zero bits below the first one, among the low bits of a number. -/
def lowZeros (count n : ℕ) : ℕ := (((List.range count).map n.testBit).takeWhile (!·)).length

/-- The offset has the level for the key. -/
def Reaches (sha1 : Bytes → Vector UInt8 20) (publicKey : Bytes) (level : UInt8) (offset : UInt64) :
    Prop :=
  ∃ encoded, Base64.encode publicKey = .ok encoded ∧
    level.toNat ≤ trailingZeros (sha1 (encoded ++ numberText 10 offset.toNat)).toList

theorem lowZeros_succ (count n : ℕ) :
    lowZeros (count + 1) n = if n.testBit 0 then 0 else lowZeros count (n / 2) + 1 := by
  have hbits : (List.range count).map (n.testBit ∘ Nat.succ) =
      (List.range count).map (n / 2).testBit :=
    List.map_congr_left fun i _ => Nat.testBit_succ n i
  unfold lowZeros
  rw [List.range_succ_eq_map, List.map_cons, List.map_map, hbits, List.takeWhile_cons]
  cases n.testBit 0 <;> rfl

theorem lowZeros_zero (count : ℕ) : lowZeros count 0 = count := by
  induction count with
  | zero => rfl
  | succ count ih => rw [lowZeros_succ, Nat.zero_testBit, Nat.zero_div, ih, if_neg nofun]

theorem testBit_zero_iff (byte : UInt8) : byte.toNat.testBit 0 = true ↔ ¬ byte &&& 0x01 = 0 := by
  rw [← UInt8.toNat_inj, UInt8.toNat_and, Nat.testBit_zero]
  show _ ↔ ¬ byte.toNat &&& 1 = 0
  rw [Nat.and_one_is_mod]
  simp

/-- The inner loop counts the zeros below the first one, by induction on the bits left. -/
theorem countLowZeros_spec {count : ℕ} {level byte : UInt8} (hbyte : byte.toNat ≠ 0)
    (hlt : byte.toNat < 2 ^ count) (hlevel : level.toNat + count ≤ 256) :
    lowZeros count byte.toNat < count ∧ ∃ total, countLowZeros count level byte = .ok total ∧
      total.toNat = level.toNat + lowZeros count byte.toNat := by
  induction count generalizing level byte with
  | zero => exact absurd (Nat.lt_one_iff.1 hlt) hbyte
  | succ count ih =>
    rw [lowZeros_succ, countLowZeros]
    by_cases hbit : byte &&& 0x01 = 0
    · have hfalse : ¬ byte.toNat.testBit 0 = true := fun h => (testBit_zero_iff byte).1 h hbit
      have hmod : byte.toNat % 2 = 0 := by simpa [Nat.testBit_zero] using hfalse
      have hshift : (byte >>> 1).toNat = byte.toNat / 2 := by
        rw [UInt8.toNat_shiftRight]
        exact Nat.shiftRight_one _
      rw [pow_succ] at hlt
      have hcount : count ≠ 0 := by
        rintro rfl
        omega
      have hnext : (level + 1).toNat = level.toNat + 1 := by
        rw [UInt8.toNat_add]
        exact Nat.mod_eq_of_lt (by show level.toNat + 1 < 256; omega)
      obtain ⟨hzeros, total, hrun, htotal⟩ :=
        @ih (level + 1) (byte >>> 1) (by omega) (by omega) (by omega)
      rw [if_neg hfalse, if_pos hbit]
      rw [hshift] at hzeros htotal
      exact ⟨Nat.succ_lt_succ hzeros, total, hrun, by omega⟩
    · have htrue : byte.toNat.testBit 0 = true := (testBit_zero_iff byte).2 hbit
      rw [if_pos htrue, if_neg hbit]
      exact ⟨Nat.succ_pos count, level, rfl, rfl⟩

theorem trailingZeros_cons (byte : UInt8) (hash : Bytes) : trailingZeros (byte :: hash) =
    if lowZeros 8 byte.toNat = 8 then 8 + trailingZeros hash else lowZeros 8 byte.toNat := by
  unfold trailingZeros bits
  rw [List.flatMap_cons, List.takeWhile_append, List.length_map, List.length_range]
  show (if lowZeros 8 byte.toNat = 8 then _ else _ : List Bool).length = _
  split_ifs
  · rw [List.length_append, List.length_map, List.length_range]
  · rfl

/-- The loop over the digest counts its zeros. -/
theorem levelLoop_spec {level : UInt8} {hash : Bytes} (h : level.toNat + 8 * hash.length < 256) :
    ∃ total, levelLoop level hash = .ok total ∧ total.toNat = level.toNat + trailingZeros hash := by
  induction hash generalizing level with
  | nil => exact ⟨level, rfl, rfl⟩
  | cons byte hash ih =>
    rw [List.length_cons] at h
    rw [levelLoop, trailingZeros_cons]
    by_cases hzero : byte = 0
    · have hwhole : lowZeros 8 byte.toNat = 8 := by
        rw [hzero]
        exact lowZeros_zero 8
      have hnext : (level + 8).toNat = level.toNat + 8 := by
        rw [UInt8.toNat_add]
        exact Nat.mod_eq_of_lt (by show level.toNat + 8 < 256; omega)
      obtain ⟨total, hrun, htotal⟩ := @ih (level + 8) (by omega)
      rw [if_pos hzero, if_pos hwhole]
      exact ⟨total, hrun, by omega⟩
    · have hbyte : byte.toNat ≠ 0 := fun h => hzero (UInt8.toNat_inj.1 h)
      obtain ⟨hzeros, total, hrun, htotal⟩ :=
        countLowZeros_spec hbyte byte.toNat_lt (show level.toNat + 8 ≤ 256 by omega)
      rw [if_neg hzero, if_neg hzeros.ne]
      exact ⟨total, hrun, htotal⟩

theorem getLevel_spec (sha1 : Bytes → Vector UInt8 20) (encoded : Bytes) (offset : UInt64) :
    ∃ total, getLevel sha1 encoded offset = .ok total ∧
      total.toNat = trailingZeros (sha1 (encoded ++ numberText 10 offset.toNat)).toList := by
  obtain ⟨total, hrun, htotal⟩ := @levelLoop_spec 0
    (sha1 (encoded ++ numberText 10 offset.toNat)).toList (by rw [Vector.length_toList]; decide)
  exact ⟨total, hrun, htotal.trans (Nat.zero_add _)⟩

/-! ## The search -/

/-- How a search can end that looks for an offset with `P` from `offset` on. -/
def Searched (P : UInt64 → Prop) (stop : UInt64 → Bool) (progress : ProgressCallback)
    (offset : UInt64) : Except Failure (Option UInt64) → Prop
  | .ok (some found) => IsLeast {candidate | offset ≤ candidate ∧ P candidate} found
  | .ok none => ∃ asked, stop asked = true
  | .error e => (∀ candidate, offset ≤ candidate → ¬ P candidate) ∨
      ∃ report, progress = some report ∧ ∃ reported, report reported = .error e

theorem toNat_add_one {offset : UInt64} (h : offset ≠ maxOffset) :
    (offset + 1).toNat = offset.toNat + 1 := by
  have hne : offset.toNat ≠ 2 ^ 64 - 1 := fun heq => h (UInt64.toNat_inj.1 heq)
  have hlt := offset.toNat_lt
  rw [UInt64.toNat_add]
  exact Nat.mod_eq_of_lt (by show offset.toNat + 1 < 2 ^ 64; omega)

/-- From one offset to the next. -/
theorem Searched.step {P : UInt64 → Prop} {stop : UInt64 → Bool} {progress : ProgressCallback}
    {offset : UInt64} {result : Except Failure (Option UInt64)} (hP : ¬ P offset)
    (hmax : offset ≠ maxOffset) (h : Searched P stop progress (offset + 1) result) :
    Searched P stop progress offset result := by
  have hnext := toNat_add_one hmax
  have hskip : ∀ candidate, offset ≤ candidate → P candidate → offset + 1 ≤ candidate := by
    intro candidate hle hcandidate
    have hne : offset.toNat ≠ candidate.toNat := by
      intro heq
      rw [UInt64.toNat_inj.1 heq] at hP
      exact hP hcandidate
    rw [UInt64.le_iff_toNat_le] at hle ⊢
    omega
  match result, h with
  | .ok (some found), ⟨⟨hle, hfound⟩, hleast⟩ =>
    refine ⟨⟨?_, hfound⟩, fun candidate hcandidate => ?_⟩
    · rw [UInt64.le_iff_toNat_le] at hle ⊢
      omega
    · exact hleast ⟨hskip candidate hcandidate.1 hcandidate.2, hcandidate.2⟩
  | .ok none, h => exact h
  | .error e, .inl hnone =>
    exact .inl fun candidate hle hcandidate =>
      hnone candidate (hskip candidate hle hcandidate) hcandidate
  | .error e, .inr hthrown => exact .inr hthrown

/-- The loop tries every offset from the one it is at, by induction on the offsets left. -/
theorem findLoop_spec (sha1 : Bytes → Vector UInt8 20) (targetLevel : UInt8) (start : UInt64)
    (stop : UInt64 → Bool) (progress : ProgressCallback) (encoded : Bytes) {fuel : ℕ}
    {offset : UInt64} (hfuel : fuel = 2 ^ 64 - offset.toNat) :
    Searched (fun candidate => targetLevel.toNat ≤
        trailingZeros (sha1 (encoded ++ numberText 10 candidate.toNat)).toList) stop progress offset
      (findLoop sha1 targetLevel start stop progress encoded fuel offset) := by
  induction fuel generalizing offset with
  | zero =>
    have hlt := offset.toNat_lt
    omega
  | succ fuel ih =>
    obtain ⟨level, hlevel, hzeros⟩ := getLevel_spec sha1 encoded offset
    show Searched _ _ _ _ (getLevel sha1 encoded offset >>= _)
    rw [hlevel]
    show Searched _ _ _ _ (if targetLevel ≤ level then _ else _)
    by_cases hfound : targetLevel ≤ level
    · rw [if_pos hfound]
      rw [UInt8.le_iff_toNat_le, hzeros] at hfound
      exact ⟨⟨UInt64.le_refl offset, hfound⟩, fun candidate hcandidate => hcandidate.1⟩
    have hnot : ¬ targetLevel.toNat ≤
        trailingZeros (sha1 (encoded ++ numberText 10 offset.toNat)).toList := by
      rwa [UInt8.le_iff_toNat_le, hzeros] at hfound
    rw [if_neg hfound]
    by_cases hmax : offset = maxOffset
    · rw [if_pos hmax]
      refine .inl fun candidate hle hcandidate => hnot ?_
      have hlast : candidate = offset := by
        rw [hmax, UInt64.le_iff_toNat_le] at hle
        rw [hmax, ← UInt64.toNat_inj]
        have hlt := candidate.toNat_lt
        have hvalue : maxOffset.toNat = 2 ^ 64 - 1 := rfl
        omega
      rwa [← hlast]
    have hnext := toNat_add_one hmax
    have hrest := (@ih (offset + 1) (by omega)).step hnot hmax
    rw [if_neg hmax]
    split_ifs with hask hstop
    · exact ⟨offset, hstop⟩
    · -- the callback is told the next offset, and may throw
      cases progress with
      | none => exact hrest
      | some report =>
        cases hreport : report (offset + 1) with
        | ok u =>
          show Searched _ _ _ _ (report (offset + 1) >>= _)
          rw [hreport]
          exact hrest
        | error e =>
          show Searched _ _ _ _ (report (offset + 1) >>= _)
          rw [hreport]
          exact .inr ⟨report, rfl, offset + 1, hreport⟩
    · exact hrest

/-- **The search finds the first offset** that has the level, unless it is stopped or the callback
throws. -/
theorem findOffset_spec (sha1 : Bytes → Vector UInt8 20) (targetLevel : UInt8) (start : UInt64)
    (stop : UInt64 → Bool) (progress : ProgressCallback) (publicKey : Bytes) :
    Searched (Reaches sha1 publicKey targetLevel) stop progress start
      (findOffset sha1 targetLevel start stop progress publicKey) := by
  unfold findOffset
  cases hencode : Base64.encode publicKey with
  | error e =>
    refine .inl fun candidate _ ⟨encoded, hencoded, _⟩ => ?_
    rw [hencode] at hencoded
    cases hencoded
  | ok encoded =>
    have hreaches : Reaches sha1 publicKey targetLevel = fun candidate => targetLevel.toNat ≤
        trailingZeros (sha1 (encoded ++ numberText 10 candidate.toNat)).toList := by
      funext candidate
      refine propext ⟨fun ⟨encoded', hencoded, hlevel⟩ => ?_, fun hlevel => ⟨encoded, hencode, hlevel⟩⟩
      rw [hencode] at hencoded
      cases hencoded
      exact hlevel
    rw [hreaches]
    exact findLoop_spec sha1 targetLevel start stop progress encoded rfl

/-- Without a stop, and with a callback that returns, nothing else ends the search. -/
theorem findOffset_exact (sha1 : Bytes → Vector UInt8 20) (targetLevel : UInt8) (start : UInt64)
    {progress : ProgressCallback}
    (hprogress : ∀ report, progress = some report → ∀ offset, report offset = .ok ())
    (publicKey : Bytes) :
    (∀ offset, findOffset sha1 targetLevel start (fun _ => false) progress publicKey =
        .ok (some offset) ↔
      IsLeast {candidate | start ≤ candidate ∧ Reaches sha1 publicKey targetLevel candidate} offset) ∧
    ((∃ e, findOffset sha1 targetLevel start (fun _ => false) progress publicKey = .error e) ↔
      ∀ candidate, start ≤ candidate → ¬ Reaches sha1 publicKey targetLevel candidate) := by
  have hspec := findOffset_spec sha1 targetLevel start (fun _ => false) progress publicKey
  generalize findOffset sha1 targetLevel start (fun _ => false) progress publicKey = result at hspec ⊢
  match result, hspec with
  | .ok (some found), hleast =>
    refine ⟨fun offset => ⟨fun h => ?_, fun h => ?_⟩, fun ⟨e, h⟩ => ?_, fun h => ?_⟩
    · cases h
      exact hleast
    · rw [UInt64.le_antisymm (hleast.2 h.1) (h.2 hleast.1)]
    · cases h
    · exact absurd hleast.1.2 (h found hleast.1.1)
  | .ok none, ⟨asked, h⟩ => cases h
  | .error e, .inl hnone =>
    refine ⟨fun offset => ⟨fun h => ?_, fun h => ?_⟩, fun _ => hnone, fun _ => ⟨e, rfl⟩⟩
    · cases h
    · exact absurd h.1.2 (hnone offset h.1.1)
  | .error e, .inr ⟨report, hreport, reported, hthrown⟩ =>
    rw [hprogress report hreport reported] at hthrown
    cases hthrown

theorem findFirstOffset_spec (sha1 : Bytes → Vector UInt8 20) (targetLevel : UInt8)
    {publicKey : Bytes} {offset : UInt64}
    (h : findFirstOffset sha1 targetLevel publicKey = .ok offset) :
    IsLeast {candidate | Reaches sha1 publicKey targetLevel candidate} offset := by
  have hspec := findOffset_spec sha1 targetLevel 0 (fun _ => false) none publicKey
  obtain ⟨result, hresult, hoffset⟩ := bind_eq_ok h
  rw [hresult] at hspec
  cases result with
  | none => cases hoffset
  | some found =>
    cases hoffset
    obtain ⟨⟨-, hfound⟩, hleast⟩ := hspec
    exact ⟨hfound, fun candidate hcandidate =>
      hleast ⟨UInt64.le_iff_toNat_le.2 (Nat.zero_le _), hcandidate⟩⟩

end HashCash

end TsCli
