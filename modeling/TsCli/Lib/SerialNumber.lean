import Mathlib.Tactic

/-!
# Serial numbers

Numbers of 16 bits that wrap around. `ahead a b` is how many steps lead from `a` to `b`; the number
is ahead when they are less than half of all, and behind otherwise.
-/

/-- The order of the values, in which a map visits its keys. -/
instance linearOrderUInt16 : LinearOrder UInt16 where
  le_refl := UInt16.le_refl
  le_trans _ _ _ := UInt16.le_trans
  lt_iff_le_not_ge a b := by
    simp only [UInt16.lt_iff_toNat_lt, UInt16.le_iff_toNat_le]
    omega
  le_antisymm _ _ := UInt16.le_antisymm
  le_total := UInt16.le_total
  toDecidableLE := inferInstance
  toDecidableEq := inferInstance
  toDecidableLT := inferInstance

namespace SerialNumber

/-- The steps from `a` to `b`. -/
def ahead (a b : UInt16) : ℕ := (b - a).toNat

variable {a b c : UInt16}

@[simp] theorem ahead_self (a : UInt16) : ahead a a = 0 := by
  unfold ahead
  rw [UInt16.sub_self]
  rfl

/-- The steps, as numbers. -/
theorem ahead_eq (a b : UInt16) : ahead a b = (65536 + b.toNat - a.toNat) % 65536 := by
  have ha := a.toNat_lt
  unfold ahead
  rw [UInt16.toNat_sub]
  omega

theorem ahead_eq_zero_iff : ahead a b = 0 ↔ a = b := by
  refine ⟨fun h => UInt16.toNat_inj.1 ?_, fun h => h ▸ ahead_self a⟩
  have ha := a.toNat_lt
  have hb := b.toNat_lt
  rw [ahead_eq] at h
  omega

/-- Steps add up, until they go around. -/
theorem ahead_add (h : ahead a b + ahead b c < 65536) : ahead a c = ahead a b + ahead b c := by
  have ha := a.toNat_lt
  have hb := b.toNat_lt
  have hc := c.toNat_lt
  rw [ahead_eq, ahead_eq] at h
  rw [ahead_eq, ahead_eq, ahead_eq]
  omega

/-- The way back is the rest of the way around. -/
theorem ahead_swap (h : a ≠ b) : ahead a b + ahead b a = 65536 := by
  have hne : a.toNat ≠ b.toNat := fun heq => h (UInt16.toNat_inj.1 heq)
  have ha := a.toNat_lt
  have hb := b.toNat_lt
  rw [ahead_eq, ahead_eq]
  omega

theorem ahead_succ_self (a : UInt16) : ahead a (a + 1) = 1 := by
  have ha := a.toNat_lt
  have hone : (1 : UInt16).toNat = 1 := rfl
  rw [ahead_eq, UInt16.toNat_add, hone]
  omega

/-- One step less. -/
theorem ahead_succ (h : a ≠ b) : ahead (a + 1) b + 1 = ahead a b := by
  have hne : a.toNat ≠ b.toNat := fun heq => h (UInt16.toNat_inj.1 heq)
  have ha := a.toNat_lt
  have hb := b.toNat_lt
  have hone : (1 : UInt16).toNat = 1 := rfl
  rw [ahead_eq, ahead_eq, UInt16.toNat_add, hone]
  omega

end SerialNumber
