import Mathlib.Data.Nat.Digits.Lemmas
import Mathlib.Tactic

/-!
# Big-endian numbers

The value of a string of bytes, the shortest string with a given value, and the string of a given
width with that value. Strings of one width are equal when their values are (`eq_fixed`), so code
that cuts leading zero bytes off and code that pads with them need not be compared byte by byte.
-/

namespace BigEndian

/-- The number that the bytes stand for. -/
def value (bytes : List UInt8) : ℕ := bytes.foldl (fun n byte => n * 256 + byte.toNat) 0

/-- The shortest bytes of a number. -/
def bytes (n : ℕ) : List UInt8 := ((Nat.digits 256 n).map UInt8.ofNat).reverse

/-- The bytes of a number in a field of the given width. -/
def fixed : ℕ → ℕ → List UInt8
  | 0, _ => []
  | width + 1, n => fixed width (n / 256) ++ [UInt8.ofNat n]

/-! ## Values -/

@[simp] theorem value_nil : value [] = 0 := rfl

@[simp] theorem value_concat (front : List UInt8) (byte : UInt8) :
    value (front ++ [byte]) = value front * 256 + byte.toNat := by
  unfold value
  rw [List.foldl_append]
  rfl

theorem value_lt (string : List UInt8) : value string < 256 ^ string.length := by
  induction string using List.reverseRecOn with
  | nil => exact Nat.one_pos
  | append_singleton front byte ih =>
    rw [value_concat, List.length_append, List.length_singleton, pow_succ]
    have hbyte := byte.toNat_lt
    omega

theorem value_append (front back : List UInt8) :
    value (front ++ back) = value front * 256 ^ back.length + value back := by
  induction back using List.reverseRecOn with
  | nil => rw [List.append_nil, value_nil, List.length_nil, pow_zero, mul_one, add_zero]
  | append_singleton back byte ih =>
    rw [← List.append_assoc, value_concat, value_concat, ih, List.length_append,
      List.length_singleton, pow_succ]
    ring

/-- A zero in front does not count. -/
@[simp] theorem value_zero_cons (string : List UInt8) : value (0 :: string) = value string := rfl

/-- A string that starts with another byte than zero is as large as its length says. -/
theorem le_value {first : UInt8} (h : first ≠ 0) (others : List UInt8) :
    256 ^ others.length ≤ value (first :: others) := by
  have hfirst : 1 ≤ first.toNat := Nat.one_le_iff_ne_zero.2 fun h0 => h (UInt8.toNat_inj.1 h0)
  have hvalue : value [first] = first.toNat := Nat.zero_add _
  calc 256 ^ others.length ≤ first.toNat * 256 ^ others.length := Nat.le_mul_of_pos_left _ hfirst
    _ ≤ value ([first] ++ others) := by
      rw [value_append, hvalue]
      exact Nat.le_add_right _ _

/-! ## Bytes of a width -/

@[simp] theorem length_fixed (width n : ℕ) : (fixed width n).length = width := by
  induction width generalizing n with
  | zero => rfl
  | succ width ih => rw [fixed, List.length_append, ih, List.length_singleton]

theorem value_fixed {width n : ℕ} (h : n < 256 ^ width) : value (fixed width n) = n := by
  induction width generalizing n with
  | zero => exact (Nat.lt_one_iff.1 h).symm
  | succ width ih =>
    have hquotient : n / 256 < 256 ^ width := Nat.div_lt_of_lt_mul (by rwa [pow_succ'] at h)
    rw [fixed, value_concat, ih hquotient, UInt8.toNat_ofNat']
    exact Nat.div_add_mod' n 256

/-- A string is the string of its width with its value. -/
theorem eq_fixed (string : List UInt8) : string = fixed string.length (value string) := by
  induction string using List.reverseRecOn with
  | nil => rfl
  | append_singleton front byte ih =>
    have hquotient : (value front * 256 + byte.toNat) / 256 = value front := by
      have hbyte := byte.toNat_lt
      omega
    have hlast : UInt8.ofNat (value front * 256 + byte.toNat) = byte := by
      rw [← UInt8.toNat_inj, UInt8.toNat_ofNat', Nat.mul_add_mod_of_lt byte.toNat_lt]
    rw [List.length_append, List.length_singleton, fixed, value_concat, hquotient, hlast, ← ih]

/-- Zeros in front, up to the width. -/
theorem replicate_append_eq_fixed {width : ℕ} {string : List UInt8} (h : string.length ≤ width) :
    List.replicate (width - string.length) 0 ++ string = fixed width (value string) := by
  have hzeros : ∀ count, value (List.replicate count 0 ++ string) = value string := fun count => by
    induction count with
    | zero => rfl
    | succ count ih => exact ih
  have hstring := eq_fixed (List.replicate (width - string.length) 0 ++ string)
  rwa [hzeros, List.length_append, List.length_replicate, Nat.sub_add_cancel h] at hstring

/-! ## Shortest bytes -/

theorem bytes_zero : bytes 0 = [] := by
  rw [bytes, Nat.digits_zero]
  rfl

theorem bytes_of_pos {n : ℕ} (h : 0 < n) : bytes n = bytes (n / 256) ++ [UInt8.ofNat n] := by
  have hlast : UInt8.ofNat (n % 256) = UInt8.ofNat n := by
    rw [← UInt8.toNat_inj, UInt8.toNat_ofNat', UInt8.toNat_ofNat', Nat.mod_mod]
  rw [bytes, Nat.digits_def' (by decide) h, List.map_cons, List.reverse_cons, hlast]
  rfl

theorem value_bytes (n : ℕ) : value (bytes n) = n := by
  induction n using Nat.strong_induction_on with
  | _ n ih =>
    rcases Nat.eq_zero_or_pos n with rfl | hpos
    · rw [bytes_zero, value_nil]
    · rw [bytes_of_pos hpos, value_concat, ih _ (Nat.div_lt_self hpos (by decide)),
        UInt8.toNat_ofNat']
      exact Nat.div_add_mod' n 256

theorem length_bytes_le {n width : ℕ} (h : n < 256 ^ width) : (bytes n).length ≤ width := by
  rw [bytes, List.length_reverse, List.length_map]
  exact (Nat.digits_length_le_iff (by decide) n).2 h

end BigEndian
