import TsCli.Lib.Exec

/-!
# Recognizers over a cursor

A cursor stands somewhere in its data. A program over cursors recognizes a language `G` when it
returns `a` exactly behind a front of what is unread that `G` relates to `a`, and throws one of the
errors in `E` when there is none. The language of a sequence is the product of languages, so that of
a parser is found by following its text; `of_iff` then puts it into the form a reader wants.
-/

/-- A position in some data. -/
structure Cursor (τ : Type*) where
  data : List τ
  offset : ℕ := 0
  offset_le : offset ≤ data.length

namespace Cursor

open Exec

section Positions

variable {τ : Type*}

/-- What is behind the cursor. -/
def unread (s : Cursor τ) : List τ := s.data.drop s.offset

/-- The cursor some places on, at most at the end. -/
def skip (s : Cursor τ) (count : ℕ) : Cursor τ where
  data := s.data
  offset := min (s.offset + count) s.data.length
  offset_le := min_le_right _ _

theorem length_unread (s : Cursor τ) : s.unread.length = s.data.length - s.offset :=
  List.length_drop

theorem unread_skip (s : Cursor τ) (count : ℕ) : (s.skip count).unread = s.unread.drop count := by
  show s.data.drop (min (s.offset + count) s.data.length) = (s.data.drop s.offset).drop count
  rw [List.drop_drop]
  rcases le_total (s.offset + count) s.data.length with hle | hle
  · rw [min_eq_left hle]
  · rw [min_eq_right hle, List.drop_length, List.drop_eq_nil_of_le hle]

theorem skip_skip (s : Cursor τ) (count count' : ℕ) :
    (s.skip count).skip count' = s.skip (count + count') := by
  have hoffset : min (min (s.offset + count) s.data.length + count') s.data.length =
      min (s.offset + (count + count')) s.data.length := by omega
  unfold skip
  simp only [hoffset]

theorem skip_zero (s : Cursor τ) : s.skip 0 = s := by
  obtain ⟨data, offset, hle⟩ := s
  unfold skip
  simp only [Nat.add_zero, min_eq_left hle]

/-- Behind the front of what is unread. -/
theorem unread_skip_of_eq {s : Cursor τ} {front back : List τ} (h : s.unread = front ++ back) :
    (s.skip front.length).unread = back := by
  rw [unread_skip, h, List.drop_left]

theorem offset_skip_of_eq {s : Cursor τ} {front back : List τ} (h : s.unread = front ++ back) :
    (s.skip front.length).offset = s.offset + front.length := by
  have hlength := congrArg List.length h
  rw [length_unread, List.length_append] at hlength
  have hle := s.offset_le
  show min (s.offset + front.length) s.data.length = _
  omega

end Positions

universe u

variable {τ ε α β : Type u} {E : ε → Prop}

/-- The program returns exactly behind the fronts in `G`, and throws in `E` otherwise. -/
structure Recognizes (E : ε → Prop) (m : EStateM ε (Cursor τ) α) (G : List τ → α → Prop) :
    Prop where
  sound : ∀ s, wp m (fun a s' => ∃ front, G front a ∧ s.unread = front ++ s'.unread ∧
    s' = s.skip front.length) (fun e _ => E e) s
  complete : ∀ {s front back a}, s.unread = front ++ back → G front a →
    m s = .ok a (s.skip front.length)

namespace Recognizes

theorem pure (a : α) :
    Recognizes E (pure a : EStateM ε (Cursor τ) α) fun front b => front = [] ∧ b = a where
  sound s := ⟨[], ⟨rfl, rfl⟩, rfl, (skip_zero s).symm⟩
  complete := by
    rintro s front back b - ⟨rfl, rfl⟩
    rw [List.length_nil, skip_zero]
    rfl

theorem throw {e : ε} (h : E e) :
    Recognizes E (throw e : EStateM ε (Cursor τ) α) fun _ _ => False where
  sound _ := h
  complete _ hG := hG.elim

/-- The language of a sequence. -/
theorem bind {m : EStateM ε (Cursor τ) α} {f : α → EStateM ε (Cursor τ) β} {G : List τ → α → Prop}
    {H : α → List τ → β → Prop} (hm : Recognizes E m G)
    (hf : ∀ a first, G first a → Recognizes E (f a) (H a)) :
    Recognizes E (m >>= f) fun front b =>
      ∃ a first second, front = first ++ second ∧ G first a ∧ H a second b where
  sound s := by
    rw [wp_bind]
    refine wp_mono (hm.sound s) ?_ fun _ _ h => h
    rintro a s' ⟨first, hG, hfirst, rfl⟩
    refine wp_mono ((hf a first hG).sound _) ?_ fun _ _ h => h
    rintro b s'' ⟨second, hH, hsecond, rfl⟩
    refine ⟨first ++ second, ⟨a, first, second, rfl, hG, hH⟩, ?_, ?_⟩
    · rw [hfirst, hsecond, List.append_assoc]
    · rw [skip_skip, List.length_append]
  complete := by
    rintro s front back b hunread ⟨a, first, second, rfl, hG, hH⟩
    rw [List.append_assoc] at hunread
    rw [run_bind_of_ok s (hm.complete hunread hG),
      (hf a first hG).complete (unread_skip_of_eq hunread) hH, skip_skip, List.length_append]

/-- A computation without a cursor. -/
theorem lift {x : Except ε α} (h : ∀ e, x = .error e → E e) :
    Recognizes E (Exec.lift x : EStateM ε (Cursor τ) α) fun front a => front = [] ∧ x = .ok a where
  sound s := by
    rw [wp_lift]
    exact ⟨fun a ha => ⟨[], ⟨rfl, ha⟩, rfl, (skip_zero s).symm⟩, h⟩
  complete := by
    rintro s front back a - ⟨rfl, rfl⟩
    rw [List.length_nil, skip_zero]
    rfl

/-- A check in front of the rest. -/
theorem guard {c : Prop} [Decidable c] {e : ε} (he : E e) {m : EStateM ε (Cursor τ) α}
    {G : List τ → α → Prop} (hm : ¬ c → Recognizes E m G) :
    Recognizes E (if c then MonadExcept.throw e else m) fun front a => ¬ c ∧ G front a := by
  by_cases hc : c
  · rw [if_pos hc]
    exact ⟨fun _ => he, fun _ hG => absurd hc hG.1⟩
  · rw [if_neg hc]
    exact ⟨fun s => wp_mono ((hm hc).sound s)
      (fun _ _ ⟨front, hG, hrest⟩ => ⟨front, ⟨hc, hG⟩, hrest⟩) fun _ _ h => h,
      fun hunread hG => (hm hc).complete hunread hG.2⟩

/-- The language in another form. -/
theorem of_iff {m : EStateM ε (Cursor τ) α} {G H : List τ → α → Prop} (hm : Recognizes E m G)
    (h : ∀ front a, G front a ↔ H front a) : Recognizes E m H where
  sound s := wp_mono (hm.sound s) (fun _ _ ⟨front, hG, hrest⟩ => ⟨front, (h front _).1 hG, hrest⟩)
    fun _ _ h => h
  complete hunread hH := hm.complete hunread ((h _ _).2 hH)

end Recognizes

end Cursor
