import TsCli.Lib.Exec

/-!
# Runs under a condition

A run applies a step function to a list of inputs. `Along step P s inputs` says that every step of
the run from `s` meets `P` in the state before it. What each such step preserves holds at the end
of the run, and so, since a prefix of a run is a run, in every state that it reaches.
-/

namespace Runs

variable {σ ι : Type*} (step : σ → ι → σ) (P : σ → ι → Prop)

/-- Every step of the run from `s` meets `P`. -/
def Along : σ → List ι → Prop
  | _, [] => True
  | s, i :: inputs => P s i ∧ Along (step s i) inputs

instance Along.decidable [∀ s, DecidablePred (P s)] : ∀ s inputs, Decidable (Along step P s inputs)
  | _, [] => .isTrue trivial
  | s, i :: inputs =>
    have := Along.decidable (step s i) inputs
    inferInstanceAs (Decidable (P s i ∧ Along step P (step s i) inputs))

variable {step P}

theorem along_append {s : σ} {front back : List ι} :
    Along step P s (front ++ back) ↔
      Along step P s front ∧ Along step P (front.foldl step s) back := by
  induction front generalizing s with
  | nil => simp [Along]
  | cons i front ih => simp [Along, ih, and_assoc]

theorem along_and {Q : σ → ι → Prop} {s : σ} {inputs : List ι} (h : Along step P s inputs)
    (h' : Along step Q s inputs) : Along step (fun s i => P s i ∧ Q s i) s inputs := by
  induction inputs generalizing s with
  | nil => trivial
  | cons i inputs ih => exact ⟨⟨h.1, h'.1⟩, ih h.2 h'.2⟩

/-- **Induction over a run**: what every step under the condition preserves. -/
theorem Along.invariant {I : σ → Prop} (hstep : ∀ s i, I s → P s i → I (step s i)) {s : σ}
    {inputs : List ι} (h : Along step P s inputs) (hs : I s) : I (inputs.foldl step s) := by
  induction inputs generalizing s with
  | nil => exact hs
  | cons i inputs ih => exact ih h.2 (hstep s i hs h.1)

/-- When the condition is exactly what keeps `I`, the runs that meet it are those that stay in `I`. -/
theorem along_iff_forall_prefix {I : σ → Prop} (hstep : ∀ s i, I s → (I (step s i) ↔ P s i)) {s : σ}
    (hs : I s) (inputs : List ι) :
    (∀ front, front <+: inputs → I (front.foldl step s)) ↔ Along step P s inputs := by
  induction inputs generalizing s with
  | nil =>
    refine iff_of_true (fun front hfront => ?_) trivial
    rw [List.prefix_nil.1 hfront]
    exact hs
  | cons i inputs ih =>
    constructor
    · intro h
      have hnext : I (step s i) := h [i] ⟨inputs, rfl⟩
      refine ⟨(hstep s i hs).1 hnext, (ih hnext).1 fun front hfront => ?_⟩
      exact h (i :: front) ((List.prefix_cons_inj i).2 hfront)
    · rintro ⟨hi, hrest⟩ front hfront
      obtain rfl | ⟨front, rfl, htail⟩ := List.prefix_cons_iff.1 hfront
      · exact hs
      · exact (ih ((hstep s i hs).2 hi)).2 hrest front htail

/-- What every step preserves without a condition. -/
theorem invariant {I : σ → Prop} (hstep : ∀ s i, I s → I (step s i)) {s : σ} (hs : I s)
    (inputs : List ι) : I (inputs.foldl step s) := by
  induction inputs generalizing s with
  | nil => exact hs
  | cons i inputs ih => exact ih (hstep s i hs)

/-- The same over the steps of a program that throws. -/
theorem Along.wp_forM {ε : Type*} {σ ι : Type _} {program : ι → EStateM ε σ PUnit}
    {P : σ → ι → Prop} {I : σ → Prop}
    (hstep : ∀ s i, I s → P s i → Exec.wp (program i) (fun _ => I) (fun _ _ => True) s) {s : σ}
    {inputs : List ι} (h : Along (fun s i => Exec.final (program i) s) P s inputs) (hs : I s) :
    Exec.wp (inputs.forM program) (fun _ => I) (fun _ _ => True) s := by
  induction inputs generalizing s with
  | nil => exact hs
  | cons i inputs ih =>
    obtain ⟨hi, hrest⟩ := h
    show Exec.wp (program i >>= fun _ => inputs.forM program) _ _ s
    rw [Exec.wp_bind]
    cases hrun : program i s with
    | ok u s' =>
      have hfinal : Exec.final (program i) s = s' := Exec.final_of_eq_ok hrun
      have hnext : I s' := Exec.ok_of_wp (hstep s i hs hi) hrun
      exact (Exec.wp_of_eq_ok hrun).2 (ih (hfinal ▸ hrest) hnext)
    | error e s' => exact (Exec.wp_of_eq_error hrun).2 trivial

/-- A run of such a program that returned is the run over its states. -/
theorem foldl_final_of_forM {ε : Type*} {σ ι : Type _} {program : ι → EStateM ε σ PUnit} {s s' : σ}
    {u : PUnit} {inputs : List ι} (h : inputs.forM program s = .ok u s') :
    inputs.foldl (fun s i => Exec.final (program i) s) s = s' := by
  induction inputs generalizing s with
  | nil =>
    cases h
    rfl
  | cons i inputs ih =>
    obtain ⟨_, s₁, hi, hrest⟩ := (Exec.run_bind_eq_ok_iff s).1 h
    have hfinal : Exec.final (program i) s = s₁ := Exec.final_of_eq_ok hi
    rw [List.foldl_cons, hfinal]
    exact ih hrest

end Runs
