import Mathlib.Tactic

/-!
# Weakest preconditions of code that throws

A program of type `EStateM ε σ α` updates a state and either returns a value or throws. A throw
keeps the state reached so far: nothing is rolled back. `wp m Q E s` says that from `s` the
program `m` returns into `Q` or throws into `E`; the simp set below computes it along `do` blocks.

`Moves R m` bounds what a program does to its state on either exit by a relation `R`. A preorder
`R` is closed under sequencing, so a frame condition or an invariant is proved once for each
primitive and composed from there.
-/

namespace Exec

universe u

variable {ε σ τ α β : Type u}

/-- The outcomes of two runs can be compared. -/
instance decidableEqResult [DecidableEq ε] [DecidableEq σ] [DecidableEq α] : DecidableEq (EStateM.Result ε σ α)
  | .ok a s, .ok b t => decidable_of_iff (a = b ∧ s = t) (by simp)
  | .error e s, .error f t => decidable_of_iff (e = f ∧ s = t) (by simp)
  | .ok _ _, .error _ _ => .isFalse nofun
  | .error _ _, .ok _ _ => .isFalse nofun

/-- From `s`, `m` returns into `Q` or throws into `E`. -/
def wp (m : EStateM ε σ α) (Q : α → σ → Prop) (E : ε → σ → Prop) (s : σ) : Prop :=
  match m s with
  | .ok a s' => Q a s'
  | .error e s' => E e s'

section Rules

variable {Q Q' : α → σ → Prop} {E E' : ε → σ → Prop} {s : σ}

theorem wp_of_eq_ok {m : EStateM ε σ α} {a : α} {s' : σ} (h : m s = .ok a s') :
    wp m Q E s ↔ Q a s' := by
  unfold wp; rw [h]

theorem wp_of_eq_error {m : EStateM ε σ α} {e : ε} {s' : σ} (h : m s = .error e s') :
    wp m Q E s ↔ E e s' := by
  unfold wp; rw [h]

theorem wp_congr {m m' : EStateM ε σ α} {s' : σ} (h : m s = m' s') :
    wp m Q E s ↔ wp m' Q E s' := by
  unfold wp; rw [h]

@[simp] theorem wp_pure (a : α) : wp (pure a) Q E s ↔ Q a s := Iff.rfl

@[simp] theorem wp_throw (e : ε) : wp (throw e : EStateM ε σ α) Q E s ↔ E e s := Iff.rfl

@[simp] theorem wp_get {Q : σ → σ → Prop} : wp (get : EStateM ε σ σ) Q E s ↔ Q s s := Iff.rfl

@[simp] theorem wp_set {Q : PUnit → σ → Prop} (s' : σ) :
    wp (set s' : EStateM ε σ PUnit) Q E s ↔ Q ⟨⟩ s' := Iff.rfl

@[simp] theorem wp_modify {Q : PUnit → σ → Prop} (f : σ → σ) :
    wp (modify f : EStateM ε σ PUnit) Q E s ↔ Q ⟨⟩ (f s) := Iff.rfl

@[simp] theorem wp_modifyGet (f : σ → α × σ) :
    wp (modifyGet f : EStateM ε σ α) Q E s ↔ Q (f s).1 (f s).2 := Iff.rfl

@[simp] theorem wp_bind {Q : β → σ → Prop} (m : EStateM ε σ α) (f : α → EStateM ε σ β) :
    wp (m >>= f) Q E s ↔ wp m (fun a s' => wp (f a) Q E s') E s := by
  show wp (EStateM.bind m f) Q E s ↔ _
  unfold wp EStateM.bind
  cases m s <;> rfl

@[simp] theorem wp_map {Q : β → σ → Prop} (f : α → β) (m : EStateM ε σ α) :
    wp (f <$> m) Q E s ↔ wp m (fun a s' => Q (f a) s') E s := by
  show wp (EStateM.map f m) Q E s ↔ _
  unfold wp EStateM.map
  cases m s <;> rfl

@[simp] theorem wp_ite (c : Prop) [Decidable c] (m n : EStateM ε σ α) :
    wp (if c then m else n) Q E s ↔ (c → wp m Q E s) ∧ (¬ c → wp n Q E s) := by
  by_cases h : c <;> simp [h]

theorem wp_mono {m : EStateM ε σ α} (h : wp m Q E s) (hQ : ∀ a s', Q a s' → Q' a s')
    (hE : ∀ e s', E e s' → E' e s') : wp m Q' E' s := by
  unfold wp at *
  cases hm : m s with
  | ok a s' => rw [hm] at h; exact hQ a s' h
  | error e s' => rw [hm] at h; exact hE e s' h

theorem wp_and {m : EStateM ε σ α} :
    wp m (fun a s' => Q a s' ∧ Q' a s') (fun e s' => E e s' ∧ E' e s') s ↔
      wp m Q E s ∧ wp m Q' E' s := by
  unfold wp; cases m s <;> rfl

/-- What a run that returned satisfies. -/
theorem ok_of_wp {m : EStateM ε σ α} {a : α} {s' : σ} (h : wp m Q E s) (hm : m s = .ok a s') :
    Q a s' := (wp_of_eq_ok hm).1 h

/-- What a run that threw satisfies. -/
theorem error_of_wp {m : EStateM ε σ α} {e : ε} {s' : σ} (h : wp m Q E s)
    (hm : m s = .error e s') : E e s' := (wp_of_eq_error hm).1 h

/-- A program that cannot throw returns. -/
theorem exists_ok_of_wp {m : EStateM ε σ α} (h : wp m Q (fun _ _ => False) s) :
    ∃ a s', m s = .ok a s' ∧ Q a s' := by
  unfold wp at h
  cases hm : m s with
  | ok a s' => rw [hm] at h; exact ⟨a, s', rfl, h⟩
  | error e s' => rw [hm] at h; exact h.elim

end Rules

/-! ## Runs -/

section Run

variable (s : σ)

@[simp] theorem run_pure (a : α) : (pure a : EStateM ε σ α) s = .ok a s := rfl

@[simp] theorem run_set (s' : σ) : (set s' : EStateM ε σ PUnit) s = .ok ⟨⟩ s' := rfl

@[simp] theorem run_get_bind (f : σ → EStateM ε σ β) : (get >>= f) s = f s s := rfl

@[simp] theorem run_throw_bind (e : ε) (f : α → EStateM ε σ β) :
    (throw e >>= f) s = .error e s := rfl

@[simp] theorem run_ite (c : Prop) [Decidable c] (m n : EStateM ε σ α) :
    (if c then m else n) s = if c then m s else n s := by split <;> rfl

theorem run_bind_of_ok {m : EStateM ε σ α} {f : α → EStateM ε σ β} {a : α} {s' : σ}
    (h : m s = .ok a s') : (m >>= f) s = f a s' := by
  show EStateM.bind m f s = _
  unfold EStateM.bind; rw [h]

theorem run_bind_of_error {m : EStateM ε σ α} {f : α → EStateM ε σ β} {e : ε} {s' : σ}
    (h : m s = .error e s') : (m >>= f) s = .error e s' := by
  show EStateM.bind m f s = _
  unfold EStateM.bind; rw [h]

/-- A sequence that returned: the first part returned, and the second one from there. -/
theorem run_bind_eq_ok_iff {m : EStateM ε σ α} {f : α → EStateM ε σ β} {b : β} {t : σ} :
    (m >>= f) s = .ok b t ↔ ∃ a s', m s = .ok a s' ∧ f a s' = .ok b t := by
  show EStateM.bind m f s = _ ↔ _
  unfold EStateM.bind
  cases m s with
  | ok a s' =>
    constructor
    · exact fun h => ⟨a, s', rfl, h⟩
    · rintro ⟨_, _, h, h'⟩; cases h; exact h'
  | error e s' =>
    constructor
    · rintro ⟨⟩
    · rintro ⟨_, _, ⟨⟩, _⟩

end Run

/-! ## Running on a part of the state -/

/-- Run `m` on the part of the state that `get` reads and `put` writes. -/
def zoom (get : σ → τ) (put : τ → σ → σ) (m : EStateM ε τ α) : EStateM ε σ α := fun s =>
  match m (get s) with
  | .ok a t => .ok a (put t s)
  | .error e t => .error e (put t s)

@[simp] theorem wp_zoom (get : σ → τ) (put : τ → σ → σ) (m : EStateM ε τ α)
    {Q : α → σ → Prop} {E : ε → σ → Prop} {s : σ} :
    wp (zoom get put m) Q E s ↔
      wp m (fun a t => Q a (put t s)) (fun e t => E e (put t s)) (get s) := by
  unfold wp zoom
  cases m (get s) <;> rfl

/-- A computation without a state, run in any state. -/
def lift (x : Except ε α) : EStateM ε σ α :=
  match x with
  | .ok a => pure a
  | .error e => throw e

@[simp] theorem wp_lift (x : Except ε α) {Q : α → σ → Prop} {E : ε → σ → Prop} {s : σ} :
    wp (lift x) Q E s ↔ (∀ a, x = .ok a → Q a s) ∧ (∀ e, x = .error e → E e s) := by
  cases x <;> simp [lift]

theorem run_lift_bind_ok {x : Except ε α} {a : α} (h : x = .ok a) (f : α → EStateM ε σ β) (s : σ) :
    (lift x >>= f) s = f a s := by
  subst h; rfl

theorem run_lift_bind_error {x : Except ε α} {e : ε} (h : x = .error e)
    (f : α → EStateM ε σ β) (s : σ) : (lift x >>= f) s = .error e s := by
  subst h; rfl

/-- A sequence behind a computation without a state that returned. -/
theorem run_lift_bind_eq_ok_iff {x : Except ε α} {f : α → EStateM ε σ β} {s : σ} {b : β} {t : σ} :
    (lift x >>= f) s = .ok b t ↔ ∃ a, x = .ok a ∧ f a s = .ok b t := by
  cases x with
  | ok a =>
    rw [run_lift_bind_ok rfl]
    exact ⟨fun h => ⟨a, rfl, h⟩, fun ⟨_, h, h'⟩ => by cases h; exact h'⟩
  | error e =>
    rw [run_lift_bind_error rfl]
    exact ⟨nofun, fun ⟨_, h, _⟩ => by cases h⟩

/-! ## Bounding the effect on the state -/

/-- The state a run ends in, whether it returned or threw. -/
def final (m : EStateM ε σ α) (s : σ) : σ :=
  match m s with
  | .ok _ s' => s'
  | .error _ s' => s'

theorem final_of_eq_ok {m : EStateM ε σ α} {a : α} {s s' : σ} (h : m s = .ok a s') :
    final m s = s' := by
  unfold final; rw [h]

theorem final_of_eq_error {m : EStateM ε σ α} {e : ε} {s s' : σ} (h : m s = .error e s') :
    final m s = s' := by
  unfold final; rw [h]

theorem final_congr {m m' : EStateM ε σ α} {s s' : σ} (h : m s = m' s') :
    final m s = final m' s' := by
  unfold final; rw [h]

theorem final_bind_pure (m : EStateM ε σ α) (f : α → β) (s : σ) :
    final (m >>= fun a => pure (f a)) s = final m s := by
  show final (EStateM.bind m _) s = _
  unfold final EStateM.bind
  cases m s <;> rfl

theorem final_ite (c : Prop) [Decidable c] (m n : EStateM ε σ α) (s : σ) :
    final (if c then m else n) s = if c then final m s else final n s := by split <;> rfl

theorem final_lift_bind_ok {x : Except ε α} {a : α} (h : x = .ok a) (f : α → EStateM ε σ β) (s : σ) :
    final (lift x >>= f) s = final (f a) s := by
  unfold final; rw [run_lift_bind_ok h]

theorem final_lift_bind_error {x : Except ε α} {e : ε} (h : x = .error e) (f : α → EStateM ε σ β)
    (s : σ) : final (lift x >>= f) s = s := by
  unfold final; rw [run_lift_bind_error h]

/-- What a run returns, if it does. -/
def returned? (m : EStateM ε σ α) (s : σ) : Option α :=
  match m s with
  | .ok a _ => some a
  | .error _ _ => none

/-- What a run throws, if it does. -/
def thrown? (m : EStateM ε σ α) (s : σ) : Option ε :=
  match m s with
  | .ok _ _ => none
  | .error e _ => some e

theorem eq_ok_of_returned? {m : EStateM ε σ α} {a : α} {s : σ} (h : returned? m s = some a) :
    m s = .ok a (final m s) := by
  unfold returned? at h
  unfold final
  cases hm : m s with
  | ok b s' => rw [hm] at h; cases h; rfl
  | error e s' => rw [hm] at h; cases h

theorem thrown?_congr {m m' : EStateM ε σ α} {s s' : σ} (h : m s = m' s') :
    thrown? m s = thrown? m' s' := by
  unfold thrown?; rw [h]

theorem thrown?_of_eq_error {m : EStateM ε σ α} {e : ε} {s s' : σ} (h : m s = .error e s') :
    thrown? m s = some e := by
  unfold thrown?; rw [h]

theorem thrown?_bind_pure (m : EStateM ε σ α) (f : α → β) (s : σ) :
    thrown? (m >>= fun a => pure (f a)) s = thrown? m s := by
  show thrown? (EStateM.bind m _) s = _
  unfold thrown? EStateM.bind
  cases m s <;> rfl

theorem eq_error_of_thrown? {m : EStateM ε σ α} {e : ε} {s : σ} (h : thrown? m s = some e) :
    m s = .error e (final m s) := by
  unfold thrown? at h
  unfold final
  cases hm : m s with
  | ok b s' => rw [hm] at h; cases h
  | error e' s' => rw [hm] at h; cases h; rfl

theorem wp_final {m : EStateM ε σ α} {P : σ → Prop} {s : σ} :
    wp m (fun _ => P) (fun _ => P) s ↔ P (final m s) := by
  unfold wp final; cases m s <;> rfl

/-- On both exits `m` moves the state along `R`. -/
structure Moves (R : σ → σ → Prop) (m : EStateM ε σ α) : Prop where
  apply : ∀ s, wp m (fun _ s' => R s s') (fun _ s' => R s s') s

namespace Moves

variable {R : σ → σ → Prop}

theorem final {m : EStateM ε σ α} (h : Moves R m) (s : σ) : R s (Exec.final m s) :=
  wp_final.1 (h.apply s)

theorem pure (hR : ∀ s, R s s) (a : α) : Moves R (pure a : EStateM ε σ α) := ⟨hR⟩

theorem throw (hR : ∀ s, R s s) (e : ε) : Moves R (throw e : EStateM ε σ α) := ⟨hR⟩

theorem get (hR : ∀ s, R s s) : Moves R (get : EStateM ε σ σ) := ⟨hR⟩

theorem lift (hR : ∀ s, R s s) (x : Except ε α) : Moves R (lift x : EStateM ε σ α) :=
  ⟨fun s => by rw [wp_lift]; exact ⟨fun _ _ => hR s, fun _ _ => hR s⟩⟩

theorem modify {f : σ → σ} (h : ∀ s, R s (f s)) : Moves R (modify f : EStateM ε σ PUnit) := ⟨h⟩

theorem modifyGet {f : σ → α × σ} (h : ∀ s, R s (f s).2) :
    Moves R (modifyGet f : EStateM ε σ α) := ⟨h⟩

theorem bind (hR : ∀ a b c, R a b → R b c → R a c) {m : EStateM ε σ α}
    {f : α → EStateM ε σ β} (hm : Moves R m) (hf : ∀ a, Moves R (f a)) : Moves R (m >>= f) := by
  refine ⟨fun s => ?_⟩
  rw [wp_bind]
  refine wp_mono (hm.apply s) (fun a s' h => ?_) (fun _ _ h => h)
  exact wp_mono ((hf a).apply s') (fun _ _ => hR _ _ _ h) (fun _ _ => hR _ _ _ h)

theorem ite (c : Prop) [Decidable c] {m n : EStateM ε σ α} (hm : Moves R m) (hn : Moves R n) :
    Moves R (if c then m else n) := by
  split
  · exact hm
  · exact hn

/-- Work on a part of the state, when writing that part moves along `R`. -/
theorem zoom {get : σ → τ} {put : τ → σ → σ} (h : ∀ t s, R s (put t s)) (m : EStateM ε τ α) :
    Moves R (Exec.zoom get put m) := by
  refine ⟨fun s => ?_⟩
  unfold wp Exec.zoom
  cases m (get s) <;> exact h _ s

end Moves

end Exec
