import Mathlib.Data.List.TakeWhile
import Mathlib.Data.Nat.Digits.Lemmas
import Mathlib.Tactic

/-!
# Decimal texts

A number with a fixed count of decimals, as a text, and the reader of such texts, which also knows
exponents. What is written is read back as the same digits with the same count of decimals
(`readNumber_fixedPoint`); what the digits mean to a number format is left to the format.
-/

namespace Decimal

def point : UInt8 := 0x2e

/-- The last digit of a number. -/
def digit (n : ℕ) : UInt8 := UInt8.ofNat (0x30 + n % 10)

def isDigit (c : UInt8) : Bool := 0x30 ≤ c && c ≤ 0x39

/-- The number that the digits stand for. -/
def value (digits : List UInt8) : ℕ := digits.foldl (fun n c => n * 10 + (c.toNat - 0x30)) 0

/-- The digits of a number, at least one. -/
def whole (n : ℕ) : List UInt8 :=
  if n = 0 then [digit 0] else ((Nat.digits 10 n).map digit).reverse

/-- The last digits of a number. -/
def fixed : ℕ → ℕ → List UInt8
  | 0, _ => []
  | places + 1, n => fixed places (n / 10) ++ [digit n]

/-- The text of `n / 10 ^ places`. -/
def fixedPoint (places n : ℕ) : List UInt8 :=
  whole (n / 10 ^ places) ++ point :: fixed places n

/-- Digits in front of a text, with a point between or behind them: their number, how many of them
are decimals, and the text behind them. -/
def readNumber (text : List UInt8) : Option (ℕ × ℕ × List UInt8) :=
  let front := text.takeWhile isDigit
  let behind := text.dropWhile isDigit
  let (decimals, rest) :=
    if behind.head? = some point then
      (behind.tail.takeWhile isDigit, behind.tail.dropWhile isDigit)
    else ([], behind)
  if front ++ decimals = [] then none
  else some (value (front ++ decimals), decimals.length, rest)

/-- An exponent in front of a text, if there is a whole one, and the text behind it. -/
def readExponent (text : List UInt8) : ℤ × List UInt8 :=
  match text with
  | [] => (0, [])
  | mark :: behind =>
    let sign := behind.head?
    let digits := if sign = some 0x2b ∨ sign = some 0x2d then behind.tail else behind
    let exponent := (value (digits.takeWhile isDigit) : ℤ)
    if (mark = 0x65 ∨ mark = 0x45) ∧ digits.takeWhile isDigit ≠ [] then
      (if sign = some 0x2d then -exponent else exponent, digits.dropWhile isDigit)
    else (0, text)

/-! ## Digits -/

theorem toNat_digit (n : ℕ) : (digit n).toNat = 0x30 + n % 10 := by
  unfold digit
  rw [UInt8.toNat_ofNat']
  have := Nat.mod_lt n (show 0 < 10 by decide)
  omega

theorem isDigit_digit (n : ℕ) : isDigit (digit n) = true := by
  have hdigit := toNat_digit n
  have hlt := Nat.mod_lt n (show 0 < 10 by decide)
  have hle : (0x30 : UInt8) ≤ digit n := UInt8.le_iff_toNat_le.2 (by rw [hdigit]; exact Nat.le_add_right _ _)
  have hge : digit n ≤ 0x39 := UInt8.le_iff_toNat_le.2 (by
    rw [hdigit]
    show _ ≤ 57
    omega)
  simp [isDigit, hle, hge]

@[simp] theorem value_nil : value [] = 0 := rfl

@[simp] theorem value_concat (front : List UInt8) (c : UInt8) :
    value (front ++ [c]) = value front * 10 + (c.toNat - 0x30) := by
  unfold value
  rw [List.foldl_append]
  rfl

theorem value_append (front back : List UInt8) :
    value (front ++ back) = value front * 10 ^ back.length + value back := by
  induction back using List.reverseRecOn with
  | nil => rw [List.append_nil, value_nil, List.length_nil, pow_zero, mul_one, add_zero]
  | append_singleton back c ih =>
    rw [← List.append_assoc, value_concat, value_concat, ih, List.length_append,
      List.length_singleton, pow_succ]
    ring

theorem value_reverse_digits {digits : List ℕ} (h : ∀ d ∈ digits, d < 10) :
    value (digits.map digit).reverse = Nat.ofDigits 10 digits := by
  induction digits with
  | nil => rfl
  | cons d digits ih =>
    obtain ⟨hd, hdigits⟩ := List.forall_mem_cons.1 h
    rw [List.map_cons, List.reverse_cons, value_concat, ih hdigits, toNat_digit,
      Nat.add_sub_cancel_left, Nat.mod_eq_of_lt hd, Nat.ofDigits_cons]
    ring

theorem value_whole (n : ℕ) : value (whole n) = n := by
  unfold whole
  split_ifs with h
  · rw [h]
    rfl
  · rw [value_reverse_digits fun d hd => Nat.digits_lt_base (by decide) hd, Nat.ofDigits_digits]

theorem isDigit_of_mem_whole {n : ℕ} {c : UInt8} (h : c ∈ whole n) : isDigit c = true := by
  unfold whole at h
  split_ifs at h
  · rw [List.mem_singleton.1 h]
    exact isDigit_digit 0
  · obtain ⟨d, -, rfl⟩ := List.mem_map.1 (List.mem_reverse.1 h)
    exact isDigit_digit d

theorem whole_ne_nil (n : ℕ) : whole n ≠ [] := by
  unfold whole
  split_ifs with h
  · exact List.cons_ne_nil _ _
  · rw [Ne, List.reverse_eq_nil_iff, List.map_eq_nil_iff]
    exact Nat.digits_ne_nil_iff_ne_zero.2 h

@[simp] theorem length_fixed (places n : ℕ) : (fixed places n).length = places := by
  induction places generalizing n with
  | zero => rfl
  | succ places ih => rw [fixed, List.length_append, ih, List.length_singleton]

theorem value_fixed (places n : ℕ) : value (fixed places n) = n % 10 ^ places := by
  induction places generalizing n with
  | zero => rw [fixed, value_nil, pow_zero, Nat.mod_one]
  | succ places ih =>
    rw [fixed, value_concat, ih, toNat_digit, Nat.add_sub_cancel_left, pow_succ', Nat.mod_mul]
    ring

theorem isDigit_of_mem_fixed {places n : ℕ} {c : UInt8} (h : c ∈ fixed places n) :
    isDigit c = true := by
  induction places generalizing n with
  | zero => cases h
  | succ places ih =>
    rcases List.mem_append.1 h with h | h
    · exact ih h
    · rw [List.mem_singleton.1 h]
      exact isDigit_digit n

theorem mem_fixedPoint {places n : ℕ} {c : UInt8} (h : c ∈ fixedPoint places n) :
    c = point ∨ isDigit c = true := by
  rcases List.mem_append.1 h with h | h
  · exact .inr (isDigit_of_mem_whole h)
  · exact (List.mem_cons.1 h).imp_right isDigit_of_mem_fixed

/-! ## Reading what was written -/

/-- **The digits and the count of decimals are read back.** -/
theorem readNumber_fixedPoint (places n : ℕ) :
    readNumber (fixedPoint places n) = some (n, places, []) := by
  have hpoint : ¬ isDigit point = true := by decide
  have hfront : (fixedPoint places n).takeWhile isDigit = whole (n / 10 ^ places) := by
    unfold fixedPoint
    rw [List.takeWhile_append_of_pos fun c hc => isDigit_of_mem_whole hc,
      List.takeWhile_cons_of_neg hpoint, List.append_nil]
  have hbehind : (fixedPoint places n).dropWhile isDigit = point :: fixed places n := by
    unfold fixedPoint
    rw [List.dropWhile_append_of_pos fun c hc => isDigit_of_mem_whole hc,
      List.dropWhile_cons_of_neg hpoint]
  have hdecimals : (fixed places n).takeWhile isDigit = fixed places n :=
    List.takeWhile_eq_self_iff.2 fun c hc => isDigit_of_mem_fixed hc
  have hrest : (fixed places n).dropWhile isDigit = [] :=
    List.dropWhile_eq_nil_iff.2 fun c hc => isDigit_of_mem_fixed hc
  have hvalue : value (whole (n / 10 ^ places) ++ fixed places n) = n := by
    rw [value_append, value_whole, value_fixed, length_fixed, Nat.div_add_mod']
  unfold readNumber
  simp only [hfront, hbehind, List.head?_cons, if_true, List.tail_cons, hdecimals, hrest]
  rw [if_neg (List.append_ne_nil_of_left_ne_nil (whole_ne_nil _) _), hvalue, length_fixed]

end Decimal
