import Mathlib.Data.Nat.ModEq
import Mathlib.Tactic

/-!
# Repeated squaring

Squaring `k` times modulo `m` gives the residue of the power with exponent `2 ^ k`. The first
squaring is also the first reduction, so for `k = 0` the result is only a residue when the start
was one.
-/

namespace RepeatedSquaring

/-- One squaring modulo `m`. -/
def squareMod (m value : ℕ) : ℕ := value ^ 2 % m

variable {m : ℕ}

theorem iterate_modEq (k x : ℕ) : (squareMod m)^[k] x ≡ x ^ 2 ^ k [MOD m] := by
  induction k with
  | zero =>
    rw [Function.iterate_zero_apply, pow_zero, pow_one]
  | succ k ih =>
    rw [Function.iterate_succ_apply', pow_succ, pow_mul]
    exact (Nat.mod_modEq _ m).trans (ih.pow 2)

theorem iterate_lt (hm : 0 < m) {k x : ℕ} (h : k ≠ 0 ∨ x < m) : (squareMod m)^[k] x < m := by
  cases k with
  | zero =>
    rw [Function.iterate_zero_apply]
    exact h.resolve_left fun h0 => h0 rfl
  | succ k =>
    rw [Function.iterate_succ_apply']
    exact Nat.mod_lt _ hm

theorem iterate_eq (hm : 0 < m) {k x : ℕ} (h : k ≠ 0 ∨ x < m) :
    (squareMod m)^[k] x = x ^ 2 ^ k % m := by
  rw [← Nat.mod_eq_of_lt (iterate_lt hm h)]
  exact iterate_modEq k x

/-- The result is the reduced power exactly when a squaring took place or the start was reduced. -/
theorem iterate_eq_iff (hm : 0 < m) {k x : ℕ} :
    (squareMod m)^[k] x = x ^ 2 ^ k % m ↔ k ≠ 0 ∨ x < m := by
  refine ⟨fun heq => ?_, iterate_eq hm⟩
  rcases Nat.eq_zero_or_pos k with rfl | hk
  · right
    rw [Function.iterate_zero_apply] at heq
    rw [heq]
    exact Nat.mod_lt _ hm
  · exact .inl hk.ne'

/-- What fits in a width before the squarings fits after them. -/
theorem iterate_lt_of_lt (hm : 0 < m) {k x bound : ℕ} (hx : x < bound) (hbound : m ≤ bound) :
    (squareMod m)^[k] x < bound := by
  rcases Nat.eq_zero_or_pos k with rfl | hk
  · exact hx
  · exact (iterate_lt hm (.inl hk.ne')).trans_le hbound

end RepeatedSquaring
