import Mathlib.Algebra.BigOperators.Group.List.Basic
import Mathlib.Data.List.TakeWhile
import Mathlib.Tactic

/-!
# Windows over timed samples

A window keeps the samples of the last time in the order in which they came, and drops older ones
from its front. `Retains` compares it with the list of all samples: nothing that is not older than
the retention is dropped, so a query that looks no further back does not see the difference.
-/

namespace TimeWindow

variable {σ : Type*}

/-- The samples from the front on that are older than the retention are dropped. -/
def prune (time : σ → ℤ) (retention now : ℤ) (samples : List σ) : List σ :=
  samples.dropWhile fun s => retention < now - time s

/-- A window and all samples: those that it dropped were older than the retention by then. -/
def Retains (time : σ → ℤ) (retention now : ℤ) (window samples : List σ) : Prop :=
  ∃ dropped, samples = dropped ++ window ∧ ∀ s ∈ dropped, retention < now - time s

variable {time : σ → ℤ} {retention now : ℤ} {window samples : List σ}

theorem retains_self (samples : List σ) : Retains time retention now samples samples :=
  ⟨[], rfl, by simp⟩

theorem Retains.later (h : Retains time retention now window samples) {later : ℤ}
    (hle : now ≤ later) : Retains time retention later window samples := by
  obtain ⟨dropped, rfl, hdropped⟩ := h
  refine ⟨dropped, rfl, fun s hs => ?_⟩
  have := hdropped s hs
  omega

theorem Retains.prune (h : Retains time retention now window samples) :
    Retains time retention now (prune time retention now window) samples := by
  obtain ⟨dropped, rfl, hdropped⟩ := h
  refine ⟨dropped ++ window.takeWhile fun s => retention < now - time s, ?_, fun s hs => ?_⟩
  · unfold TimeWindow.prune
    rw [List.append_assoc, List.takeWhile_append_dropWhile]
  · rcases List.mem_append.1 hs with hs | hs
    · exact hdropped s hs
    · simpa using List.mem_takeWhile_imp hs

theorem Retains.append (h : Retains time retention now window samples) (new : List σ) :
    Retains time retention now (window ++ new) (samples ++ new) := by
  obtain ⟨dropped, rfl, hdropped⟩ := h
  exact ⟨dropped, List.append_assoc _ _ _, hdropped⟩

/-- **A query within the retention** does not see what was dropped. -/
theorem Retains.filter_eq (h : Retains time retention now window samples) {p : σ → Bool}
    (hp : ∀ s, p s = true → now - time s ≤ retention) : window.filter p = samples.filter p := by
  obtain ⟨dropped, rfl, hdropped⟩ := h
  have hnone : dropped.filter p = [] := by
    apply List.filter_eq_nil_iff.2
    intro s hs hps
    exact absurd (hp s hps) (not_le.2 (hdropped s hs))
  rw [List.filter_append, hnone, List.nil_append]

/-- Samples that count nothing may be left out of a sum. -/
theorem sum_map_filter {M : Type*} [AddCommMonoid M] {f : σ → M} {p : σ → Bool}
    (h : ∀ s, p s = false → f s = 0) (samples : List σ) :
    ((samples.filter p).map f).sum = (samples.map f).sum := by
  induction samples with
  | nil => rfl
  | cons s samples ih =>
    rw [List.map_cons, List.sum_cons, ← ih]
    cases hp : p s with
    | true => rw [List.filter_cons_of_pos hp, List.map_cons, List.sum_cons]
    | false => rw [List.filter_cons_of_neg (by simp [hp]), h s hp, zero_add]

end TimeWindow
