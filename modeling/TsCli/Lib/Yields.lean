import Mathlib.Tactic

/-!
# Code that returns

`Yields m Q` says that a computation which can throw returns, and with a value in `Q`. It is closed
under sequencing, branches and loops over a list, so that a function is shown not to throw part by
part, with what each part leaves behind.
-/

universe u v

variable {ε : Type u} {α β : Type v}

/-- `m` returns, with a value in `Q`. -/
def Yields (m : Except ε α) (Q : α → Prop) : Prop := ∃ a, m = .ok a ∧ Q a

namespace Yields

variable {m : Except ε α} {Q Q' : α → Prop} {f : α → Except ε β} {R : β → Prop}

theorem ok {a : α} (h : Q a) : Yields (.ok a : Except ε α) Q := ⟨a, rfl, h⟩

theorem of_eq_ok {a : α} (h : m = .ok a) (hQ : Q a) : Yields m Q := ⟨a, h, hQ⟩

theorem mono (h : Yields m Q) (hQ : ∀ a, Q a → Q' a) : Yields m Q' := by
  obtain ⟨a, hm, ha⟩ := h
  exact ⟨a, hm, hQ a ha⟩

theorem bind (h : Yields m Q) (hf : ∀ a, Q a → Yields (f a) R) : Yields (m >>= f) R := by
  obtain ⟨a, rfl, ha⟩ := h
  exact hf a ha

theorem ite {c : Prop} [Decidable c] {m' : Except ε α} (hpos : c → Yields m Q)
    (hneg : ¬ c → Yields m' Q) : Yields (if c then m else m') Q := by
  split_ifs with h
  · exact hpos h
  · exact hneg h

/-- A loop over a list, by an invariant. -/
theorem foldlM {γ : Type*} {step : β → γ → Except ε β} {l : List γ}
    (hstep : ∀ b, R b → ∀ c ∈ l, Yields (step b c) R) {b : β} (hb : R b) :
    Yields (l.foldlM step b) R := by
  induction l generalizing b with
  | nil => exact .ok hb
  | cons c l ih =>
    rw [List.foldlM_cons]
    refine bind (hstep b hb c List.mem_cons_self) ?_
    intro b' hb'
    exact ih (fun b'' hb'' c' hc' => hstep b'' hb'' c' (List.mem_cons_of_mem c hc')) hb'

end Yields
