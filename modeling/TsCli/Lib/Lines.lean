import Mathlib.Data.List.DropRight
import Mathlib.Tactic

/-!
# Lines and blanks

A text is cut at a separator into lines; the last line needs no separator behind it. Lines that
are written one after the other, each with the separator behind it, are read back as they are
exactly when none of them holds the separator (`splitLines_join`). Trimming drops what satisfies a
predicate at both ends.
-/

namespace Lines

variable {α : Type*}

/-! ## Lines -/

section Split

variable [DecidableEq α] (sep : α)

/-- The lines of a text. -/
def splitLines : List α → List (List α)
  | [] => []
  | c :: text =>
    if c = sep then [] :: splitLines text
    else match splitLines text with
      | [] => [[c]]
      | line :: lines => (c :: line) :: lines

/-- Lines, each with the separator behind it. -/
def join (lines : List (List α)) : List α := lines.flatMap (· ++ [sep])

variable {sep}

theorem splitLines_append {line : List α} (h : sep ∉ line) (text : List α) :
    splitLines sep (line ++ sep :: text) = line :: splitLines sep text := by
  induction line with
  | nil => simp [splitLines]
  | cons c line ih =>
    obtain ⟨hc, hline⟩ := List.ne_and_not_mem_of_not_mem_cons h
    simp [splitLines, hc.symm, ih hline]

/-- Lines without a separator are read back as they were written. -/
theorem splitLines_join {lines : List (List α)} (h : ∀ line ∈ lines, sep ∉ line) :
    splitLines sep (join sep lines) = lines := by
  induction lines with
  | nil => rfl
  | cons line lines ih =>
    obtain ⟨hline, hlines⟩ := List.forall_mem_cons.1 h
    show splitLines sep ((line ++ [sep]) ++ join sep lines) = _
    rw [List.append_assoc, List.singleton_append, splitLines_append hline, ih hlines]

/-- No line holds the separator. -/
theorem notMem_of_mem_splitLines {line : List α} :
    ∀ {text : List α}, line ∈ splitLines sep text → sep ∉ line
  | [], h => by simp [splitLines] at h
  | c :: text, h => by
    have ih : ∀ l ∈ splitLines sep text, sep ∉ l := fun _ hl => notMem_of_mem_splitLines hl
    rw [splitLines] at h
    by_cases hc : c = sep
    · rw [if_pos hc] at h
      rcases List.mem_cons.1 h with rfl | h
      · simp
      · exact ih line h
    · rw [if_neg hc] at h
      cases hlines : splitLines sep text with
      | nil =>
        rw [hlines] at h
        rw [List.mem_singleton.1 h]
        simpa using Ne.symm hc
      | cons first lines =>
        rw [hlines] at h ih
        rcases List.mem_cons.1 h with rfl | h
        · exact fun hmem => (List.mem_cons.1 hmem).elim (Ne.symm hc)
            (ih first List.mem_cons_self)
        · exact ih line (List.mem_cons_of_mem _ h)

end Split

/-! ## Trimming -/

section Trim

variable (p : α → Bool)

/-- Drop what satisfies `p` at both ends. -/
def trim (text : List α) : List α := (text.dropWhile p).rdropWhile p

variable {p}

theorem trim_sublist (text : List α) : (trim p text).Sublist text :=
  (List.rdropWhile_prefix p _).sublist.trans (List.dropWhile_suffix p).sublist

/-- A text is its own trimming exactly when `p` fails at both of its ends. -/
theorem trim_eq_self_iff {text : List α} :
    trim p text = text ↔ (∀ c ∈ text.head?, p c = false) ∧ ∀ c ∈ text.getLast?, p c = false := by
  constructor
  · intro h
    have hlength : (text.dropWhile p).length = text.length := by
      refine le_antisymm (List.dropWhile_suffix p).length_le ?_
      have := (List.rdropWhile_prefix p (text.dropWhile p)).length_le
      rwa [show (text.dropWhile p).rdropWhile p = text from h] at this
    have hdrop : text.dropWhile p = text := (List.dropWhile_suffix p).eq_of_length hlength
    have hrdrop : text.rdropWhile p = text := by
      have h' : (text.dropWhile p).rdropWhile p = text := h
      rwa [hdrop] at h'
    refine ⟨fun c hc => ?_, fun c hc => ?_⟩
    · cases text with
      | nil => simp at hc
      | cons d rest =>
        obtain rfl : d = c := by simpa using hc
        simpa using List.dropWhile_eq_self_iff.1 hdrop
    · obtain ⟨hne, rfl⟩ := List.mem_getLast?_eq_getLast hc
      simpa using List.rdropWhile_eq_self_iff.1 hrdrop hne
  · rintro ⟨hhead, hlast⟩
    have hdrop : text.dropWhile p = text := by
      cases text with
      | nil => rfl
      | cons c rest => simp [hhead c rfl]
    have hrdrop : text.rdropWhile p = text :=
      List.rdropWhile_eq_self_iff.2 fun hne => by
        simp [hlast _ (List.getLast?_eq_some_getLast hne)]
    rw [trim, hdrop, hrdrop]

/-- A trimmed text is trimmed. -/
theorem trim_trim (text : List α) : trim p (trim p text) = trim p text := by
  rw [trim_eq_self_iff]
  constructor
  · intro c hc
    have hhead : c ∈ (text.dropWhile p).head? := by
      obtain ⟨rest, hrest⟩ := List.rdropWhile_prefix p (text.dropWhile p)
      rw [← hrest]
      exact List.mem_head?_append_of_mem_head? hc
    have hnot := List.head?_dropWhile_not p text
    rw [Option.mem_def.1 hhead] at hnot
    exact hnot
  · intro c hc
    obtain ⟨hne, rfl⟩ := List.mem_getLast?_eq_getLast hc
    exact Bool.eq_false_iff.2 (List.rdropWhile_last_not p _ hne)

/-- Only what follows the last element that stays is dropped at the end. -/
theorem rdropWhile_append_cons {c : α} (hc : p c = false) (front text : List α) :
    (front ++ c :: text).rdropWhile p = front ++ c :: text.rdropWhile p := by
  induction text using List.reverseRecOn with
  | nil => simp [hc]
  | append_singleton text d ih =>
    rw [show front ++ c :: (text ++ [d]) = (front ++ c :: text) ++ [d] by simp,
      List.rdropWhile_concat, List.rdropWhile_concat, ih]
    split_ifs <;> simp

end Trim

end Lines
