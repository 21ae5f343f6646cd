import Mathlib.Tactic

/-!
# Machines that answer calls

A machine takes one call at a time, answers it and moves to its next state. When a function from
the states of one machine to the states of another commutes with every call, the two give the same
answers to every sequence of calls.
-/

namespace Machine

variable {σ τ ι ο α : Type*} (step : σ → ι → ο × σ)

/-- The state after the calls. -/
def run : σ → List ι → σ
  | s, [] => s
  | s, call :: calls => run (step s call).2 calls

/-- What the calls return, in order. -/
def answers : σ → List ι → List ο
  | _, [] => []
  | s, call :: calls => (step s call).1 :: answers (step s call).2 calls

/-- What `f` sees of each call in the state before it, in order. -/
def collect (f : σ → ι → List α) : σ → List ι → List α
  | _, [] => []
  | s, call :: calls => f s call ++ collect f (step s call).2 calls

variable {step}

section Abstraction

variable {abs : σ → τ} {step' : τ → ι → ο × τ}

theorem answers_eq_of_commutes (h : ∀ s call, step' (abs s) call = (step s call).map id abs)
    (s : σ) (calls : List ι) : answers step s calls = answers step' (abs s) calls := by
  induction calls generalizing s with
  | nil => rfl
  | cons call calls ih =>
    rw [answers, answers, h, ih]
    rfl

theorem abs_run_of_commutes (h : ∀ s call, step' (abs s) call = (step s call).map id abs)
    (s : σ) (calls : List ι) : abs (run step s calls) = run step' (abs s) calls := by
  induction calls generalizing s with
  | nil => rfl
  | cons call calls ih =>
    rw [run, run, h, ih]
    rfl

end Abstraction

/-- What is held at first and what goes in is what comes out and what is held at last, in order. -/
theorem held_append_collect {held : σ → List α} {inward outward : σ → ι → List α}
    (h : ∀ s call, held s ++ inward s call = outward s call ++ held (step s call).2) (s : σ)
    (calls : List ι) :
    held s ++ collect step inward s calls =
      collect step outward s calls ++ held (run step s calls) := by
  induction calls generalizing s with
  | nil => simp [collect, run]
  | cons call calls ih =>
    rw [collect, collect, run, ← List.append_assoc, h, List.append_assoc, ih, List.append_assoc]

theorem collect_sublist {f g : σ → ι → List α} (h : ∀ s call, (f s call).Sublist (g s call)) (s : σ)
    (calls : List ι) : (collect step f s calls).Sublist (collect step g s calls) := by
  induction calls generalizing s with
  | nil => exact List.Sublist.refl _
  | cons call calls ih => exact (h s call).append (ih _)

theorem collect_congr {f g : σ → ι → List α} {calls : List ι}
    (h : ∀ s, ∀ call ∈ calls, f s call = g s call) (s : σ) :
    collect step f s calls = collect step g s calls := by
  induction calls generalizing s with
  | nil => rfl
  | cons call calls ih =>
    rw [collect, collect, h s call List.mem_cons_self]
    congr 1
    exact ih (fun s call hcall => h s call (List.mem_cons_of_mem _ hcall)) _

/-- What can be read off a call and its answer. -/
theorem collect_of_answers {f : σ → ι → List α} {g : ι → ο → List α}
    (h : ∀ s call, f s call = g call (step s call).1) (s : σ) (calls : List ι) :
    collect step f s calls = (List.zipWith g calls (answers step s calls)).flatten := by
  induction calls generalizing s with
  | nil => rfl
  | cons call calls ih => rw [collect, answers, List.zipWith_cons_cons, List.flatten_cons, h, ih]

end Machine
