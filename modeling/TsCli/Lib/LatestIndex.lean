import Mathlib.Order.Bounds.Basic
import Mathlib.Data.List.MinMax

/-!
# Indexes of latest positions

Every position of a set carries a key. `IsLatest S key table` says that `table` gives, for each key,
the greatest position of `S` with that key. There is one such table, and adding a position above all
others overwrites a single entry: an index filled in ascending order by overwriting is the index
that a search through all positions would compute.
-/

namespace LatestIndex

variable {α κ : Type*} [LinearOrder α] {S T : Set α} {key key' : α → κ} {table table' : κ → Option α}

/-- `table k` is the greatest position of `S` with the key `k`, if there is one. -/
def IsLatest (S : Set α) (key : α → κ) (table : κ → Option α) : Prop :=
  ∀ k p, table k = some p ↔ IsGreatest {q | q ∈ S ∧ key q = k} p

theorem isLatest_empty (key : α → κ) : IsLatest ∅ key (fun _ => none) := by
  intro k p
  simp [IsGreatest]

theorem IsLatest.unique (h : IsLatest S key table) (h' : IsLatest S key table') :
    table = table' := by
  funext k
  ext p
  rw [h k p, h' k p]

/-- Only the keys of the positions in `S` count. -/
theorem IsLatest.congr (h : IsLatest S key table) (hkey : ∀ q ∈ S, key q = key' q) :
    IsLatest S key' table := by
  intro k p
  have hset : {q | q ∈ S ∧ key' q = k} = {q | q ∈ S ∧ key q = k} := by
    ext q
    exact and_congr_right fun hq => by rw [hkey q hq]
  rw [hset]
  exact h k p

/-- A new position above all others becomes the entry of its key. -/
theorem IsLatest.add [DecidableEq κ] (h : IsLatest S key table) {p : α} (hp : ∀ q ∈ S, q < p) :
    IsLatest (insert p S) key (Function.update table (key p) (some p)) := by
  intro k q
  by_cases hk : k = key p
  · subst hk
    rw [Function.update_self, Option.some_inj]
    constructor
    · rintro rfl
      refine ⟨⟨.inl rfl, rfl⟩, ?_⟩
      rintro r ⟨rfl | hr, -⟩
      · exact le_rfl
      · exact (hp r hr).le
    · rintro ⟨⟨rfl | hq, -⟩, hmax⟩
      · rfl
      · exact absurd (hp q hq) (not_lt.2 (hmax ⟨.inl rfl, rfl⟩))
  · rw [Function.update_of_ne hk, h k q]
    have hset : {r | r ∈ insert p S ∧ key r = k} = {r | r ∈ S ∧ key r = k} := by
      ext r
      constructor
      · rintro ⟨rfl | hr, hkey⟩
        · exact absurd hkey.symm hk
        · exact ⟨hr, hkey⟩
      · exact fun hr => ⟨.inr hr.1, hr.2⟩
    rw [hset]

/-- The entry of `k` by a search through all positions. -/
def search [DecidableEq κ] (positions : List α) (key : α → κ) (k : κ) : Option α :=
  (positions.filter (key · = k)).max?

theorem isLatest_search [DecidableEq κ] {positions : List α} (hS : ∀ q, q ∈ positions ↔ q ∈ S) :
    IsLatest S key (search positions key) := by
  intro k p
  unfold search
  rw [List.max?_eq_some_iff]
  simp [IsGreatest, upperBounds, hS]

end LatestIndex
