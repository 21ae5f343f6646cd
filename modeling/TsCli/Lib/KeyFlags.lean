import TsCli.Lib.Registry

/-!
# Flags that copy a set of keys

A set of keys is kept beside a registry, and each value repeats in a flag whether its key is in the
set. The set may know a key that has no value yet, so a value that is stored, again or for the first
time, takes its flag from the set; every other rewrite of a value keeps the flag, or changes the set
at that key alone.
-/

namespace Registry

variable {κ β : Type*} [LinearOrder κ] {key : β → κ}

/-- The flag of each value says whether its key is in the set. -/
def Mirrors (flag : β → Bool) (r : Registry key) (keys : Finset κ) : Prop :=
  ∀ k v, r.find? k = some v → (flag v = true ↔ k ∈ keys)

variable {flag : β → Bool} {r : Registry key} {keys keys' : Finset κ} {k : κ}

theorem mirrors_empty : Mirrors flag (∅ : Registry key) keys := by
  intro j v hv
  cases hv

theorem Mirrors.upsert (h : Mirrors flag r keys) {v : β} (hv : flag v = true ↔ key v ∈ keys) :
    Mirrors flag (r.upsert v) keys := by
  intro j w hw
  rw [find?_upsert] at hw
  split_ifs at hw with hj
  · cases hw
    rw [hj]
    exact hv
  · exact h j w hw

theorem Mirrors.mapValues (h : Mirrors flag r keys) {f : κ → β → β}
    (hf : ∀ k v, key (f k v) = key v) (hflag : ∀ k v, flag (f k v) = flag v) :
    Mirrors flag (r.mapValues f hf) keys := by
  intro j w hw
  rw [find?_mapValues, Option.map_eq_some_iff] at hw
  obtain ⟨v, hv, rfl⟩ := hw
  rw [hflag]
  exact h j v hv

theorem Mirrors.modifyFirst (h : Mirrors flag r keys) {p : κ → β → Bool} {f : β → β}
    (hf : ∀ v, key (f v) = key v) (hflag : ∀ v, flag (f v) = flag v) :
    Mirrors flag (r.modifyFirst p f hf) keys := by
  intro j w hw
  obtain ⟨v, hv, rfl | rfl⟩ := find?_modifyFirst_cases hw
  · exact h j w hv
  · rw [hflag]
    exact h j v hv

/-- A rewrite at one key, beside a change of the set at that key. -/
theorem Mirrors.modify (h : Mirrors flag r keys) {f : β → β} (hf : ∀ v, key (f v) = key v)
    (hflag : ∀ v, r.find? k = some v → (flag (f v) = true ↔ k ∈ keys'))
    (hkeys : ∀ j ≠ k, (j ∈ keys' ↔ j ∈ keys)) : Mirrors flag (r.modify k f hf) keys' := by
  intro j w hw
  rw [find?_modify, Option.map_eq_some_iff] at hw
  obtain ⟨v, hv, rfl⟩ := hw
  split_ifs with hj
  · subst hj
    exact hflag v hv
  · rw [hkeys j hj]
    exact h j v hv

theorem Mirrors.erase (h : Mirrors flag r keys) (k : κ) :
    Mirrors flag (r.erase k) (keys.erase k) := by
  intro j v hv
  rw [find?_erase] at hv
  split_ifs at hv with hj
  rw [Finset.mem_erase, h j v hv, and_iff_right hj]

/-- A key without a value may leave the set. -/
theorem Mirrors.erase_key (h : Mirrors flag r keys) (hk : r.find? k = none) :
    Mirrors flag r (keys.erase k) := by
  intro j v hv
  have hj : j ≠ k := by
    rintro rfl
    rw [hk] at hv
    cases hv
  rw [Finset.mem_erase, h j v hv, and_iff_right hj]

end Registry
