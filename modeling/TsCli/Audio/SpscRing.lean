import TsCli.Basic

/-!
# The ring between two threads

`SpscRing` hands values from one thread to another through an array and two indices. Each call is
one step of the model. What a reader sees is the list `contents`; a push appends to it unless the
ring is full, a pop takes its head, and one cell always stays free.
-/

namespace TsCli

/-- `SpscRing<T, Capacity>`. -/
structure SpscRing (α : Type) (capacity : ℕ) where
  data : ℕ → α
  write : ℕ := 0
  read : ℕ := 0
  write_lt : write < capacity
  read_lt : read < capacity

namespace SpscRing

variable {α : Type} {capacity : ℕ}

/-- A ring whose cells hold a default value. -/
def new [Inhabited α] (h : 0 < capacity) : SpscRing α capacity where
  data _ := default
  write_lt := h
  read_lt := h

/-- `SpscRing::Next`. -/
def next (capacity value : ℕ) : ℕ := (value + 1) % capacity

theorem next_lt {value : ℕ} (h : value < capacity) : next capacity value < capacity :=
  Nat.mod_lt _ (Nat.zero_lt_of_lt h)

/-- `SpscRing::Size`. -/
def size (r : SpscRing α capacity) : ℕ := (r.write + capacity - r.read) % capacity

/-- `SpscRing::TryPush`: whether the value was stored. -/
def tryPush (r : SpscRing α capacity) (value : α) : Bool × SpscRing α capacity :=
  if next capacity r.write = r.read then (false, r)
  else (true, { r with
    data := Function.update r.data r.write value
    write := next capacity r.write
    write_lt := next_lt r.write_lt })

/-- `SpscRing::TryPop`: the value, unless the ring is empty. -/
def tryPop (r : SpscRing α capacity) : Option α × SpscRing α capacity :=
  if r.read = r.write then (none, r)
  else (some (r.data r.read), { r with
    read := next capacity r.read
    read_lt := next_lt r.read_lt })

/-- The loop of `SpscRing::Clear`. -/
def clearLoop : ℕ → SpscRing α capacity → SpscRing α capacity
  | 0, r => r
  | fuel + 1, r =>
    match r.tryPop with
    | (none, r) => r
    | (some _, r) => clearLoop fuel r

/-- `SpscRing::Clear`. -/
def clear (r : SpscRing α capacity) : SpscRing α capacity := clearLoop capacity r

/-- What a reader can still pop, in order. -/
def contents (r : SpscRing α capacity) : List α :=
  (List.range r.size).map fun i => r.data ((r.read + i) % capacity)

/-! ## Indices -/

theorem next_of_lt {value : ℕ} (h : value < capacity) :
    next capacity value = if value + 1 = capacity then 0 else value + 1 := by
  unfold next
  split_ifs with hlast
  · rw [hlast, Nat.mod_self]
  · exact Nat.mod_eq_of_lt (by omega)

theorem size_eq (r : SpscRing α capacity) :
    r.size = if r.read ≤ r.write then r.write - r.read else r.write + capacity - r.read := by
  have hw := r.write_lt
  have hr := r.read_lt
  unfold size
  split_ifs with h
  · rw [show r.write + capacity - r.read = r.write - r.read + capacity by omega,
      Nat.add_mod_right]
    exact Nat.mod_eq_of_lt (by omega)
  · exact Nat.mod_eq_of_lt (by omega)

theorem size_lt (r : SpscRing α capacity) : r.size < capacity :=
  Nat.mod_lt _ (Nat.zero_lt_of_lt r.read_lt)

@[simp] theorem length_contents (r : SpscRing α capacity) : r.contents.length = r.size := by
  simp [contents]

/-- The writer's cell is the one behind the last value. -/
theorem read_add_size (r : SpscRing α capacity) : (r.read + r.size) % capacity = r.write := by
  have hw := r.write_lt
  have hr := r.read_lt
  rw [size_eq]
  split_ifs with h
  · rw [Nat.mod_eq_of_lt (by omega)]
    omega
  · rw [show r.read + (r.write + capacity - r.read) = r.write + capacity by omega,
      Nat.add_mod_right, Nat.mod_eq_of_lt hw]

theorem next_write_eq_read_iff (r : SpscRing α capacity) :
    next capacity r.write = r.read ↔ r.size + 1 = capacity := by
  have hw := r.write_lt
  have hr := r.read_lt
  rw [next_of_lt hw, size_eq]
  split_ifs <;> omega

theorem read_eq_write_iff (r : SpscRing α capacity) : r.read = r.write ↔ r.size = 0 := by
  have hw := r.write_lt
  have hr := r.read_lt
  rw [size_eq]
  split_ifs <;> omega

/-! ## Operations -/

@[simp] theorem contents_new [Inhabited α] (h : 0 < capacity) :
    (new h : SpscRing α capacity).contents = [] := by
  simp [contents, new, size]

/-- A push is refused by a full ring, and appends otherwise. -/
theorem tryPush_cases (r : SpscRing α capacity) (value : α) :
    r.contents.length + 1 = capacity ∧ r.tryPush value = (false, r) ∨
      r.contents.length + 1 < capacity ∧ (r.tryPush value).1 = true ∧
        (r.tryPush value).2.contents = r.contents ++ [value] := by
  have hlt := r.size_lt
  rw [length_contents]
  by_cases hfull : r.size + 1 = capacity
  · exact .inl ⟨hfull, if_pos (r.next_write_eq_read_iff.2 hfull)⟩
  · have hroom : next capacity r.write ≠ r.read := fun h => hfull (r.next_write_eq_read_iff.1 h)
    refine .inr ⟨by omega, ?_, ?_⟩
    · rw [tryPush, if_neg hroom]
    · have hsize : (r.tryPush value).2.size = r.size + 1 := by
        have hw := r.write_lt
        have hr := r.read_lt
        rw [tryPush, if_neg hroom, size_eq, size_eq]
        rw [size_eq] at hfull
        simp only [next_of_lt hw] at hroom ⊢
        split_ifs at * <;> omega
      have hcell : ∀ i < r.size, (r.read + i) % capacity ≠ r.write := by
        intro i hi heq
        have hw := r.write_lt
        have hr := r.read_lt
        rw [size_eq] at hi
        by_cases hwrap : r.read + i < capacity
        · rw [Nat.mod_eq_of_lt hwrap] at heq
          split_ifs at hi <;> omega
        · rw [Nat.mod_eq_sub_mod (by omega), Nat.mod_eq_of_lt (by split_ifs at hi <;> omega)] at heq
          split_ifs at hi <;> omega
      unfold contents
      rw [hsize, List.range_succ, List.map_append]
      rw [tryPush, if_neg hroom]
      refine congrArg₂ _ (List.map_congr_left fun i hi => ?_) ?_
      · exact Function.update_of_ne (hcell i (List.mem_range.1 hi)) ..
      · simp [read_add_size]

theorem tryPop_eq_none_iff {r : SpscRing α capacity} :
    r.tryPop.1 = none ↔ r.contents = [] := by
  rw [← List.length_eq_zero_iff, length_contents, ← read_eq_write_iff, tryPop]
  split_ifs with h <;> simp [h]

/-- A pop of an empty ring leaves it as it is; another one takes the head. -/
theorem tryPop_cases (r : SpscRing α capacity) :
    r.contents = [] ∧ r.tryPop = (none, r) ∨
      ∃ value, r.tryPop.1 = some value ∧ r.contents = value :: r.tryPop.2.contents := by
  by_cases hempty : r.read = r.write
  · refine .inl ⟨?_, if_pos hempty⟩
    rw [← List.length_eq_zero_iff, length_contents, ← read_eq_write_iff]
    exact hempty
  · refine .inr ⟨r.data r.read, ?_, ?_⟩
    · rw [tryPop, if_neg hempty]
    · have hsize : r.size = r.tryPop.2.size + 1 := by
        have hw := r.write_lt
        have hr := r.read_lt
        rw [tryPop, if_neg hempty, size_eq, size_eq]
        simp only [next_of_lt hr]
        split_ifs <;> omega
      unfold contents
      rw [hsize, List.range_succ_eq_map, List.map_cons, List.map_map]
      rw [tryPop, if_neg hempty]
      refine congrArg₂ _ ?_ (List.map_congr_left fun i _ => ?_)
      · rw [Nat.add_zero, Nat.mod_eq_of_lt r.read_lt]
      · show r.data ((r.read + (i + 1)) % capacity) = r.data ((next capacity r.read + i) % capacity)
        rw [next, Nat.mod_add_mod, Nat.add_right_comm, Nat.add_assoc]

theorem contents_clear (r : SpscRing α capacity) : r.clear.contents = [] := by
  have hloop : ∀ (fuel : ℕ) (r : SpscRing α capacity), r.contents.length ≤ fuel →
      (clearLoop fuel r).contents = [] := by
    intro fuel
    induction fuel with
    | zero => exact fun r h => List.length_eq_zero_iff.1 (Nat.le_zero.1 h)
    | succ fuel ih =>
      intro r h
      rcases r.tryPop_cases with ⟨hempty, hpop⟩ | ⟨value, hvalue, hcontents⟩
      · rw [clearLoop, hpop]
        exact hempty
      · have hpop : r.tryPop = (some value, r.tryPop.2) := Prod.ext hvalue rfl
        rw [clearLoop, hpop]
        refine ih _ ?_
        rw [hcontents, List.length_cons] at h
        omega
  exact hloop capacity r (by rw [length_contents]; exact r.size_lt.le)

end SpscRing

end TsCli
