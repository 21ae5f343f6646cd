import TsCli.Lib.Decimal

/-!
# Single precision

A `float` is a sign and 31 bits of exponent and fraction, which are ordered as the magnitudes they
stand for. The magnitudes are multiples of `2 ^ -149`, so they are natural numbers here, and a
quotient is rounded to the nearest of them. A number next to a decimal one with few digits is read
back from its text with as many decimals (`fromChars_fixedText`): rounding moves the decimal number
by less than half of its last place. With all their decimals, all finite numbers are
(`fromChars_exact`).
-/

/-- A `float`. -/
structure Binary32 where
  negative : Bool
  /-- The exponent, and the fraction behind it. -/
  bits : ℕ
  bits_lt : bits < 2 ^ 31
  deriving DecidableEq, Repr

namespace Binary32

/-- The bits of the infinity; no number has more. -/
def infinity : ℕ := 0xff * 2 ^ 23

theorem infinity_lt : infinity < 2 ^ 31 := by decide

/-- What bits stand for, in units of `2 ^ -149`. -/
def magnitude (bits : ℕ) : ℕ :=
  if bits < 2 ^ 23 then bits else (2 ^ 23 + bits % 2 ^ 23) * 2 ^ (bits / 2 ^ 23 - 1)

/-- `std::isfinite`. -/
def isFinite (x : Binary32) : Bool := x.bits < infinity

/-- The number in units of `2 ^ -149`. -/
def units (x : Binary32) : ℤ := if x.negative then -magnitude x.bits else magnitude x.bits

/-- Neither of the two is `NaN`. -/
def ordered (x y : Binary32) : Bool := x.bits ≤ infinity && y.bits ≤ infinity

/-- `<`. -/
def lt (x y : Binary32) : Bool := ordered x y && x.units < y.units

/-- `<=`. -/
def le (x y : Binary32) : Bool := ordered x y && x.units ≤ y.units

/-- `==`. -/
def eq (x y : Binary32) : Bool := ordered x y && x.units = y.units

/-! ## Rounding -/

/-- The natural number next to a quotient, the even one of two. -/
def roundHalfEven (num den : ℕ) : ℕ :=
  let quotient := num / den
  let twice := 2 * (num % den)
  if twice < den ∨ twice = den ∧ quotient % 2 = 0 then quotient else quotient + 1

/-- The bits of the magnitude next to a quotient, the even ones of two. -/
def nearest (num den : ℕ) : ℕ :=
  let shift := Nat.log2 (num / den) - 23
  roundHalfEven num (den * 2 ^ shift) + shift * 2 ^ 23

/-- The magnitude is next to a decimal number. -/
def IsDecimal (places : ℕ) (x : Binary32) : Prop :=
  ∃ n, x.bits = nearest (n * 2 ^ 149) (10 ^ places)

theorem roundHalfEven_eq {num den k : ℕ} (hlow : 2 * (k * den) < 2 * num + den)
    (hhigh : 2 * num < 2 * (k * den) + den) : roundHalfEven num den = k := by
  have hden : 0 < den := by omega
  have hdiv := Nat.div_add_mod num den
  have hmod := Nat.mod_lt num hden
  have hmul : den * (num / den) = num / den * den := mul_comm _ _
  rcases lt_trichotomy (num / den) k with hlt | heq | hgt
  · have hstep : (num / den + 1) * den ≤ k * den := Nat.mul_le_mul_right den hlt
    have hsame : num / den + 1 = k := by
      by_contra hne
      have hnext : (num / den + 2) * den ≤ k * den := Nat.mul_le_mul_right den (by omega)
      rw [add_mul] at hnext
      omega
    rw [add_mul, one_mul] at hstep
    unfold roundHalfEven
    rw [if_neg (by rintro (h | h) <;> omega), hsame]
  · unfold roundHalfEven
    rw [← heq] at hhigh ⊢
    rw [if_pos (by left; omega)]
  · have hstep : (k + 1) * den ≤ num / den * den := Nat.mul_le_mul_right den hgt
    rw [add_mul, one_mul] at hstep
    omega

/-- Rounding moves a quotient by one half at most. -/
theorem roundHalfEven_near (num : ℕ) {den : ℕ} (hden : 0 < den) :
    2 * (roundHalfEven num den * den) ≤ 2 * num + den ∧
      2 * num ≤ 2 * (roundHalfEven num den * den) + den := by
  have hdiv := Nat.div_add_mod num den
  have hmod := Nat.mod_lt num hden
  have hmul : den * (num / den) = num / den * den := mul_comm _ _
  unfold roundHalfEven
  dsimp only
  split_ifs with h
  · omega
  · rw [add_mul, one_mul]
    omega

/-- The bits of a rounded magnitude stand for it. -/
theorem magnitude_add {m shift : ℕ} (hm : m ≤ 2 ^ 24) (hshift : shift = 0 ∨ 2 ^ 23 ≤ m) :
    magnitude (m + shift * 2 ^ 23) = m * 2 ^ shift := by
  unfold magnitude
  rcases lt_or_ge m (2 ^ 23) with hlt | hge
  · obtain rfl := hshift.resolve_right (not_le.2 hlt)
    rw [zero_mul, add_zero, if_pos hlt, pow_zero, mul_one]
  · rw [if_neg (by omega)]
    rcases hm.lt_or_eq with hlt | rfl
    · have hquotient : (m + shift * 2 ^ 23) / 2 ^ 23 = shift + 1 := by omega
      have hrest : (m + shift * 2 ^ 23) % 2 ^ 23 = m - 2 ^ 23 := by omega
      rw [hquotient, hrest, Nat.add_sub_cancel, Nat.add_sub_cancel' hge]
    · have hquotient : (2 ^ 24 + shift * 2 ^ 23) / 2 ^ 23 = shift + 2 := by omega
      have hrest : (2 ^ 24 + shift * 2 ^ 23) % 2 ^ 23 = 0 := by omega
      rw [hquotient, hrest, add_zero, show shift + 2 - 1 = shift + 1 from rfl, pow_succ 2 shift]
      ring

/-- Rounding moves a quotient by half a step at most, and the steps are small against it. -/
theorem nearest_near (num : ℕ) {den : ℕ} (hden : 0 < den) : ∃ shift,
    (shift = 0 ∨ den * 2 ^ shift * 2 ^ 23 ≤ num) ∧
      2 * (magnitude (nearest num den) * den) ≤ 2 * num + den * 2 ^ shift ∧
      2 * num ≤ 2 * (magnitude (nearest num den) * den) + den * 2 ^ shift := by
  have hstep : ∀ shift, 0 < den * 2 ^ shift := fun shift => Nat.mul_pos hden (Nat.two_pow_pos shift)
  obtain ⟨shift, hdef⟩ : ∃ shift, shift = Nat.log2 (num / den) - 23 := ⟨_, rfl⟩
  have hlarge : shift = 0 ∨ den * 2 ^ shift * 2 ^ 23 ≤ num := by
    rcases Nat.eq_zero_or_pos shift with h0 | hpos
    · exact .inl h0
    right
    have hlog : shift + 23 = Nat.log2 (num / den) := by omega
    have hquotient : num / den ≠ 0 := by
      intro h
      rw [h, Nat.log2_zero] at hlog
      omega
    have hle := Nat.log2_self_le hquotient
    rw [← hlog, Nat.le_div_iff_mul_le hden] at hle
    calc den * 2 ^ shift * 2 ^ 23 = 2 ^ (shift + 23) * den := by rw [pow_add]; ring
      _ ≤ num := hle
  have hsmall : num < den * 2 ^ shift * 2 ^ 24 := by
    have hlt : num / den < 2 ^ (shift + 24) :=
      Nat.lt_log2_self.trans_le (Nat.pow_le_pow_right (by decide) (by omega))
    calc num < 2 ^ (shift + 24) * den := (Nat.div_lt_iff_lt_mul hden).1 hlt
      _ = den * 2 ^ shift * 2 ^ 24 := by rw [pow_add]; ring
  obtain ⟨hlow, hhigh⟩ := roundHalfEven_near num (hstep shift)
  have hle : roundHalfEven num (den * 2 ^ shift) ≤ 2 ^ 24 := by
    by_contra hgt
    have hmul := Nat.mul_le_mul_right (den * 2 ^ shift) (not_le.1 hgt)
    have := hstep shift
    rw [Nat.succ_mul, mul_comm (2 ^ 24)] at hmul
    omega
  have hge : shift = 0 ∨ 2 ^ 23 ≤ roundHalfEven num (den * 2 ^ shift) := by
    refine hlarge.imp_right fun h => ?_
    by_contra hlt
    have hmul := Nat.mul_le_mul_right (den * 2 ^ shift) (Nat.succ_le_of_lt (not_le.1 hlt))
    have := hstep shift
    rw [Nat.succ_mul, mul_comm (2 ^ 23)] at hmul
    omega
  have hnearest : magnitude (nearest num den) * den =
      roundHalfEven num (den * 2 ^ shift) * (den * 2 ^ shift) := by
    show magnitude (roundHalfEven num (den * 2 ^ (Nat.log2 (num / den) - 23)) +
      (Nat.log2 (num / den) - 23) * 2 ^ 23) * den = _
    rw [← hdef, magnitude_add hle hge]
    ring
  rw [hnearest]
  exact ⟨shift, hlarge, hlow, hhigh⟩

/-- **A decimal number with few digits is found again** behind its rounding. -/
theorem roundHalfEven_nearest {places n : ℕ} (hn : n < 2 ^ 23) (hplaces : 10 ^ places < 2 ^ 149) :
    roundHalfEven (magnitude (nearest (n * 2 ^ 149) (10 ^ places)) * 10 ^ places) (2 ^ 149) = n := by
  obtain ⟨shift, hlarge, hlow, hhigh⟩ :=
    nearest_near (n * 2 ^ 149) (Nat.pow_pos (show 0 < 10 by decide) : 0 < 10 ^ places)
  have hstep : 10 ^ places * 2 ^ shift < 2 ^ 149 := by
    rcases hlarge with rfl | hlarge
    · rwa [pow_zero, mul_one]
    · have hlt : n * 2 ^ 149 < 2 ^ 149 * 2 ^ 23 := by
        rw [mul_comm]
        exact Nat.mul_lt_mul_of_pos_left hn (Nat.two_pow_pos 149)
      exact Nat.lt_of_mul_lt_mul_right (hlarge.trans_lt hlt)
  exact roundHalfEven_eq (by omega) (by omega)

/-- A magnitude that is small enough is next to a number with few digits. -/
theorem lt_of_magnitude_lt {places n : ℕ} (hplaces : 10 ^ places < 2 ^ 149)
    (h : magnitude (nearest (n * 2 ^ 149) (10 ^ places)) * 10 ^ places < 2 ^ 22 * 2 ^ 149) :
    n < 2 ^ 23 := by
  obtain ⟨shift, hlarge, -, hhigh⟩ :=
    nearest_near (n * 2 ^ 149) (Nat.pow_pos (show 0 < 10 by decide) : 0 < 10 ^ places)
  by_contra hge
  have hmul := Nat.mul_le_mul_right (2 ^ 149) (not_lt.1 hge)
  rcases hlarge with rfl | hlarge
  · rw [pow_zero, mul_one] at hhigh
    omega
  · omega

/-! ## Texts -/

def minus : UInt8 := 0x2d

/-- `stream << std::fixed << std::setprecision( places ) << x`, with one place at least. -/
def fixedText (places : ℕ) (x : Binary32) : List UInt8 :=
  (if x.negative then [minus] else []) ++
    if x.bits < infinity then
      Decimal.fixedPoint places (roundHalfEven (magnitude x.bits * 10 ^ places) (2 ^ 149))
    else if x.bits = infinity then [0x69, 0x6e, 0x66]
    else [0x6e, 0x61, 0x6e]

/-- `std::from_chars` for a finite number: the number, and the text behind it. Numbers out of range
have no result. -/
def fromChars (text : List UInt8) : Option (Binary32 × List UInt8) :=
  let negative := text.head? = some minus
  match Decimal.readNumber (if negative then text.tail else text) with
  | none => none
  | some (digits, decimals, behind) =>
    let (exponent, rest) := Decimal.readExponent behind
    let scale := exponent - decimals
    let bits := nearest (digits * 10 ^ scale.toNat * 2 ^ 149) (10 ^ (-scale).toNat)
    if h : bits < infinity ∧ (bits = 0 → digits = 0) then
      some (⟨negative, bits, h.1.trans infinity_lt⟩, rest)
    else none

theorem head?_fixedPoint (places n : ℕ) : (Decimal.fixedPoint places n).head? ≠ some minus := by
  intro h
  have hminus : Decimal.isDigit minus = false := by decide
  obtain ⟨c, digits, hwhole⟩ := List.exists_cons_of_ne_nil (Decimal.whole_ne_nil (n / 10 ^ places))
  have hdigit : Decimal.isDigit c = true :=
    Decimal.isDigit_of_mem_whole (hwhole ▸ List.mem_cons_self)
  unfold Decimal.fixedPoint at h
  rw [hwhole] at h
  obtain rfl : c = minus := Option.some.inj h
  rw [hminus] at hdigit
  cases hdigit

theorem mem_fixedText {places : ℕ} {x : Binary32} {c : UInt8} (hfinite : x.bits < infinity)
    (h : c ∈ fixedText places x) : c = minus ∨ c = Decimal.point ∨ Decimal.isDigit c = true := by
  unfold fixedText at h
  rw [if_pos hfinite] at h
  rcases List.mem_append.1 h with h | h
  · split_ifs at h
    · exact .inl (List.mem_singleton.1 h)
    · cases h
  · exact .inr (Decimal.mem_fixedPoint h)

/-- A number of at least one is not rounded to zero. -/
theorem nearest_ne_zero {num den : ℕ} (hden : 0 < den) (h : den ≤ num) : nearest num den ≠ 0 := by
  intro h0
  obtain ⟨shift, hlarge, -, hhigh⟩ := nearest_near num hden
  rw [h0, show magnitude 0 = 0 from rfl, zero_mul, mul_zero, zero_add] at hhigh
  rcases hlarge with rfl | hlarge
  · rw [pow_zero, mul_one] at hhigh
    omega
  · omega

/-- **A number next to a decimal one with few digits is read back from its text.** -/
theorem fromChars_fixedText {places n : ℕ} {x : Binary32} (hn : n < 2 ^ 23)
    (hplaces : 10 ^ places < 2 ^ 149) (hx : x.bits = nearest (n * 2 ^ 149) (10 ^ places))
    (hfinite : x.bits < infinity) : fromChars (fixedText places x) = some (x, []) := by
  obtain ⟨negative, bits, hbits⟩ := x
  simp only at hx hfinite
  have htext : fixedText places ⟨negative, bits, hbits⟩ =
      (if negative then [minus] else []) ++ Decimal.fixedPoint places n := by
    have hround := roundHalfEven_nearest hn hplaces
    rw [← hx] at hround
    unfold fixedText
    rw [if_pos hfinite, hround]
  have hnegative : decide ((fixedText places ⟨negative, bits, hbits⟩).head? = some minus) = negative := by
    rw [htext]
    cases negative
    · exact decide_eq_false (head?_fixedPoint places n)
    · rfl
  have hnumber : (if (fixedText places ⟨negative, bits, hbits⟩).head? = some minus then
      (fixedText places ⟨negative, bits, hbits⟩).tail else fixedText places ⟨negative, bits, hbits⟩) =
        Decimal.fixedPoint places n := by
    rw [htext]
    cases negative
    · exact if_neg (head?_fixedPoint places n)
    · rfl
  have hzero : bits = 0 → n = 0 := by
    intro h0
    by_contra hne
    refine nearest_ne_zero (Nat.pow_pos (show 0 < 10 by decide)) ?_ (hx.symm.trans h0)
    calc 10 ^ places ≤ 1 * 2 ^ 149 := by omega
      _ ≤ n * 2 ^ 149 := Nat.mul_le_mul_right _ (Nat.one_le_iff_ne_zero.2 hne)
  have hscale : ((0 : ℤ) - places).toNat = 0 ∧ (-((0 : ℤ) - places)).toNat = places := by omega
  have hnearest : nearest (n * 10 ^ ((0 : ℤ) - places).toNat * 2 ^ 149)
      (10 ^ (-((0 : ℤ) - places)).toNat) = bits := by
    rw [hscale.1, hscale.2, pow_zero, mul_one, hx]
  unfold fromChars
  simp only [hnumber, Decimal.readNumber_fixedPoint, Decimal.readExponent, hnearest, hnegative]
  rw [dif_pos ⟨hfinite, hzero⟩]

/-! ## Exact texts -/

theorem roundHalfEven_mul (k : ℕ) {den : ℕ} (hden : 0 < den) : roundHalfEven (k * den) den = k :=
  roundHalfEven_eq (by omega) (by omega)

theorem log2_magnitude {bits : ℕ} (h : 2 ^ 23 ≤ bits) :
    Nat.log2 (magnitude bits) = bits / 2 ^ 23 - 1 + 23 := by
  have hfraction : 2 ^ 23 ≤ 2 ^ 23 + bits % 2 ^ 23 ∧ 2 ^ 23 + bits % 2 ^ 23 < 2 ^ 24 := by omega
  have hstep : 0 < 2 ^ (bits / 2 ^ 23 - 1) := Nat.two_pow_pos _
  have hne : (2 ^ 23 + bits % 2 ^ 23) * 2 ^ (bits / 2 ^ 23 - 1) ≠ 0 :=
    Nat.mul_ne_zero (by omega) hstep.ne'
  unfold magnitude
  rw [if_neg (not_lt.2 h), Nat.log2_eq_iff hne, pow_succ 2 (_ + 23), pow_add]
  constructor
  · rw [mul_comm]
    exact Nat.mul_le_mul_right _ hfraction.1
  · calc (2 ^ 23 + bits % 2 ^ 23) * 2 ^ (bits / 2 ^ 23 - 1)
        < 2 ^ 24 * 2 ^ (bits / 2 ^ 23 - 1) := Nat.mul_lt_mul_of_pos_right hfraction.2 hstep
      _ = 2 ^ (bits / 2 ^ 23 - 1) * 2 ^ 23 * 2 := by ring

/-- A magnitude is next to itself. -/
theorem nearest_magnitude (bits : ℕ) {den : ℕ} (hden : 0 < den) :
    nearest (magnitude bits * den) den = bits := by
  unfold nearest
  rw [Nat.mul_div_cancel _ hden]
  dsimp only
  rcases lt_or_ge bits (2 ^ 23) with hlt | hge
  · have hmagnitude : magnitude bits = bits := if_pos hlt
    have hlog : Nat.log2 bits - 23 = 0 := by
      rcases Nat.eq_zero_or_pos bits with rfl | hpos
      · rfl
      · have := (Nat.log2_lt hpos.ne').2 hlt
        omega
    rw [hmagnitude, hlog]
    simp only [pow_zero, mul_one, zero_mul, add_zero]
    exact roundHalfEven_mul bits hden
  · have hmagnitude : magnitude bits =
        (2 ^ 23 + bits % 2 ^ 23) * 2 ^ (bits / 2 ^ 23 - 1) := if_neg (not_lt.2 hge)
    have hround := roundHalfEven_mul (2 ^ 23 + bits % 2 ^ 23)
      (Nat.mul_pos hden (Nat.two_pow_pos (bits / 2 ^ 23 - 1)))
    rw [log2_magnitude hge, Nat.add_sub_cancel, hmagnitude, mul_assoc,
      mul_comm (2 ^ (bits / 2 ^ 23 - 1)) den, hround]
    omega

/-- A sign and the text of a number that is rounded to the bits. -/
theorem fromChars_sign {negative : Bool} {places n bits : ℕ} (hbits : bits < 2 ^ 31)
    (hnearest : nearest (n * 2 ^ 149) (10 ^ places) = bits) (hfinite : bits < infinity)
    (hzero : bits = 0 → n = 0) :
    fromChars ((if negative then [minus] else []) ++ Decimal.fixedPoint places n) =
      some (⟨negative, bits, hbits⟩, []) := by
  obtain ⟨text, htext⟩ : ∃ text,
    text = (if negative then [minus] else []) ++ Decimal.fixedPoint places n := ⟨_, rfl⟩
  have hsign : decide (text.head? = some minus) = negative := by
    rw [htext]
    cases negative
    · exact decide_eq_false (head?_fixedPoint places n)
    · rfl
  have hnumber : (if text.head? = some minus then text.tail else text) =
      Decimal.fixedPoint places n := by
    rw [htext]
    cases negative
    · exact if_neg (head?_fixedPoint places n)
    · rfl
  have hscale : ((0 : ℤ) - places).toNat = 0 ∧ (-((0 : ℤ) - places)).toNat = places := by omega
  have hscaled : nearest (n * 10 ^ ((0 : ℤ) - places).toNat * 2 ^ 149)
      (10 ^ (-((0 : ℤ) - places)).toNat) = bits := by
    rw [hscale.1, hscale.2, pow_zero, mul_one, hnearest]
  rw [← htext]
  unfold fromChars
  simp only [hnumber, Decimal.readNumber_fixedPoint, Decimal.readExponent, hscaled, hsign]
  rw [dif_pos ⟨hfinite, hzero⟩]

/-- **Every finite number is read back from its text with all its decimals.** -/
theorem fromChars_exact {x : Binary32} (hfinite : x.isFinite = true) :
    fromChars (fixedText 149 x) = some (x, []) := by
  obtain ⟨negative, bits, hbits⟩ := x
  have hlt : bits < infinity := of_decide_eq_true hfinite
  have hten : (10 : ℕ) ^ 149 = 5 ^ 149 * 2 ^ 149 := by rw [← Nat.mul_pow]
  have hdigits : roundHalfEven (magnitude bits * 10 ^ 149) (2 ^ 149) = magnitude bits * 5 ^ 149 := by
    rw [hten, ← mul_assoc]
    exact roundHalfEven_mul _ (Nat.two_pow_pos 149)
  have htext : fixedText 149 ⟨negative, bits, hbits⟩ =
      (if negative then [minus] else []) ++ Decimal.fixedPoint 149 (magnitude bits * 5 ^ 149) := by
    unfold fixedText
    rw [if_pos hlt, hdigits]
  rw [htext]
  refine fromChars_sign hbits ?_ hlt ?_
  · rw [mul_assoc, ← hten]
    exact nearest_magnitude bits (Nat.pow_pos (by decide))
  · rintro rfl
    exact Nat.zero_mul _

end Binary32
