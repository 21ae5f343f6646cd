import TsCli.Audio.SpscRing
import TsCli.Lib.BoundedQueue

/-!
# The ring is a bounded queue

Each call is one step, whichever thread makes it. Under `queue`, which forgets the indices, every
call of the ring is a call of a queue that holds one value less than there are cells, so any order
of calls gets the answers of that queue.
-/

namespace TsCli

namespace SpscRing

variable {α : Type} {capacity : ℕ}

/-! ## The loop of `Clear` -/

/-- `while ( TryPop( ignored ) )`: the loop ends in `r'` after it has dropped some values. -/
inductive Clears : SpscRing α capacity → List α → SpscRing α capacity → Prop
  | done {r r' : SpscRing α capacity} (h : r.tryPop = (none, r')) : Clears r [] r'
  | next {r r' r'' : SpscRing α capacity} {value : α} {values : List α}
      (h : r.tryPop = (some value, r')) (rest : Clears r' values r'') :
      Clears r (value :: values) r''

/-- A budget of one pop for each value is enough for the loop. -/
theorem clears_clearLoop {fuel : ℕ} {r : SpscRing α capacity} (h : r.contents.length < fuel) :
    Clears r r.contents (clearLoop fuel r) := by
  induction fuel generalizing r with
  | zero => exact absurd h (Nat.not_lt_zero _)
  | succ fuel ih =>
    rcases r.tryPop_cases with ⟨hempty, hpop⟩ | ⟨value, hvalue, hcontents⟩
    · rw [clearLoop, hpop, hempty]
      exact .done hpop
    · have hpop : r.tryPop = (some value, r.tryPop.2) := Prod.ext hvalue rfl
      rw [clearLoop, hpop, hcontents]
      refine .next hpop (ih ?_)
      rw [hcontents, List.length_cons] at h
      omega

/-- `Clear` terminates, and drops what the ring held, in order. -/
theorem clears_clear (r : SpscRing α capacity) : Clears r r.contents r.clear :=
  clears_clearLoop (by rw [length_contents]; exact r.size_lt)

/-! ## Index arithmetic

`std::size_t` has 64 bits, and an array of more than half of that range does not exist. Then the
sums and the difference of the source stay in range. -/

theorem toNat_size_of_le (r : SpscRing α capacity) (h : capacity ≤ 2 ^ 63) :
    ((UInt64.ofNat r.write + UInt64.ofNat capacity - UInt64.ofNat r.read) %
      UInt64.ofNat capacity).toNat = r.size := by
  have hw := r.write_lt
  have hr := r.read_lt
  have hread : UInt64.ofNat r.read ≤ UInt64.ofNat r.write + UInt64.ofNat capacity := by
    rw [UInt64.le_iff_toNat_le, UInt64.toNat_add, UInt64.toNat_ofNat', UInt64.toNat_ofNat',
      UInt64.toNat_ofNat']
    omega
  rw [UInt64.toNat_mod, UInt64.toNat_sub_of_le _ _ hread, UInt64.toNat_add, UInt64.toNat_ofNat',
    UInt64.toNat_ofNat', UInt64.toNat_ofNat', Nat.mod_eq_of_lt (a := r.write) (by omega),
    Nat.mod_eq_of_lt (a := capacity) (by omega), Nat.mod_eq_of_lt (a := r.read) (by omega),
    Nat.mod_eq_of_lt (a := r.write + capacity) (by omega), size]

theorem toNat_next_of_le {value : ℕ} (hvalue : value < capacity) (h : capacity ≤ 2 ^ 63) :
    ((UInt64.ofNat value + 1) % UInt64.ofNat capacity).toNat = next capacity value := by
  rw [UInt64.toNat_mod, UInt64.toNat_add, UInt64.toNat_ofNat', UInt64.toNat_ofNat',
    UInt64.toNat_one, Nat.mod_eq_of_lt (a := value) (by omega),
    Nat.mod_eq_of_lt (a := capacity) (by omega), Nat.mod_eq_of_lt (a := value + 1) (by omega), next]

/-! ## The queue -/

/-- What the ring holds, as a queue. -/
def queue (r : SpscRing α capacity) : BoundedQueue α (capacity - 1) where
  items := r.contents
  length_le := by
    rw [length_contents]
    exact Nat.le_sub_one_of_lt r.size_lt

open BoundedQueue (Call Answer)

/-- One call of the ring. -/
def step (r : SpscRing α capacity) : Call α → Answer α × SpscRing α capacity
  | .push value => (r.tryPush value).map .pushed id
  | .pop => r.tryPop.map .popped id
  | .clear => (.cleared, r.clear)
  | .size => (.size r.size, r)

theorem push_queue (r : SpscRing α capacity) (value : α) :
    r.queue.push value = (r.tryPush value).map id queue := by
  unfold BoundedQueue.push
  rcases r.tryPush_cases value with ⟨hfull, hpush⟩ | ⟨hroom, haccepted, hcontents⟩
  · rw [dif_neg (by show ¬ r.contents.length < _; omega), hpush]
    rfl
  · rw [dif_pos (by show r.contents.length < _; omega)]
    refine Prod.ext haccepted.symm (BoundedQueue.ext ?_)
    exact hcontents.symm

theorem pop_queue (r : SpscRing α capacity) : r.queue.pop = r.tryPop.map id queue := by
  rcases r.tryPop_cases with ⟨hempty, hpop⟩ | ⟨value, hvalue, hcontents⟩
  · have hqueue : r.queue = ⟨[], Nat.zero_le _⟩ := BoundedQueue.ext hempty
    rw [hpop, hqueue]
    show (none, _) = (none, r.queue)
    rw [hqueue]
  · have hle : (value :: r.tryPop.2.contents).length ≤ capacity - 1 := hcontents ▸ r.queue.length_le
    have hqueue : r.queue = ⟨value :: r.tryPop.2.contents, hle⟩ := BoundedQueue.ext hcontents
    rw [hqueue]
    exact Prod.ext hvalue.symm rfl

/-- **One call**: the ring answers as the queue does, and holds the same. -/
theorem step_queue (r : SpscRing α capacity) (call : Call α) :
    BoundedQueue.step r.queue call = (r.step call).map id queue := by
  cases call with
  | push value => rw [BoundedQueue.step, push_queue]; rfl
  | pop => rw [BoundedQueue.step, pop_queue]; rfl
  | clear => exact Prod.ext rfl (BoundedQueue.ext r.contents_clear.symm)
  | size => exact Prod.ext (congrArg Answer.size r.length_contents) rfl

/-- A ring that has been called. -/
abbrev run (r : SpscRing α capacity) (calls : List (Call α)) : SpscRing α capacity :=
  Machine.run step r calls

/-- What the calls returned. -/
abbrev answers (r : SpscRing α capacity) (calls : List (Call α)) : List (Answer α) :=
  Machine.answers step r calls

theorem queue_new [Inhabited α] (h : 0 < capacity) :
    (new h : SpscRing α capacity).queue = ∅ :=
  BoundedQueue.ext (contents_new h)

section Runs

variable (r : SpscRing α capacity) (calls : List (Call α))

theorem answers_queue : r.answers calls = Machine.answers BoundedQueue.step r.queue calls :=
  Machine.answers_eq_of_commutes step_queue r calls

theorem queue_run : (r.run calls).queue = Machine.run BoundedQueue.step r.queue calls :=
  Machine.abs_run_of_commutes step_queue r calls

theorem contents_run :
    (r.run calls).contents = (Machine.run BoundedQueue.step r.queue calls).items :=
  congrArg BoundedQueue.items (r.queue_run calls)

end Runs

/-- A push fails exactly when one cell is free, and then it changes nothing. -/
theorem tryPush_eq_false_iff (r : SpscRing α capacity) (value : α) :
    (r.tryPush value).1 = false ↔ r.contents.length = capacity - 1 := by
  have hlt : r.contents.length < capacity := by
    rw [length_contents]
    exact r.size_lt
  rcases r.tryPush_cases value with ⟨hfull, hpush⟩ | ⟨hroom, haccepted, -⟩
  · rw [hpush]
    exact iff_of_true rfl (by omega)
  · rw [haccepted]
    exact iff_of_false Bool.noConfusion (by omega)

theorem tryPush_of_eq_false {r : SpscRing α capacity} {value : α}
    (h : (r.tryPush value).1 = false) : (r.tryPush value).2 = r := by
  rcases r.tryPush_cases value with ⟨-, hpush⟩ | ⟨-, haccepted, -⟩
  · rw [hpush]
  · rw [haccepted] at h
    cases h

theorem tryPop_of_eq_none {r : SpscRing α capacity} (h : r.tryPop.1 = none) : r.tryPop.2 = r := by
  rcases r.tryPop_cases with ⟨-, hpop⟩ | ⟨value, hvalue, -⟩
  · rw [hpop]
  · rw [hvalue] at h
    cases h

/-- What a ring does that was empty and has been called. -/
structure FifoAfter (start : SpscRing α capacity) (calls : List (Call α)) : Prop where
  /-- It answered as a queue of `capacity - 1` values, which holds what the ring holds. -/
  answers_eq : start.answers calls =
    Machine.answers BoundedQueue.step (∅ : BoundedQueue α (capacity - 1)) calls
  contents_eq : (start.run calls).contents =
    (Machine.run BoundedQueue.step (∅ : BoundedQueue α (capacity - 1)) calls).items
  length_le : (start.run calls).contents.length ≤ capacity - 1
  /-- A push fails exactly on a full ring. -/
  push_fails : ∀ value, ((start.run calls).tryPush value).1 = false ↔
    (start.run calls).contents.length = capacity - 1
  push_failed : ∀ value, ((start.run calls).tryPush value).1 = false →
    ((start.run calls).tryPush value).2 = start.run calls
  /-- A pop fails exactly on an empty ring. -/
  pop_fails : (start.run calls).tryPop.1 = none ↔ (start.run calls).contents = []
  pop_failed : (start.run calls).tryPop.1 = none → (start.run calls).tryPop.2 = start.run calls
  /-- The accepted values are, in order, those that left the ring and those in it. -/
  accepted_eq : BoundedQueue.accepted calls (start.answers calls) =
    BoundedQueue.taken (∅ : BoundedQueue α (capacity - 1)) calls ++ (start.run calls).contents
  /-- The popped values are those that left, but for those that a `Clear` dropped. -/
  popped_sublist : (BoundedQueue.popped calls (start.answers calls)).Sublist
    (BoundedQueue.taken (∅ : BoundedQueue α (capacity - 1)) calls)
  popped_eq : Call.clear ∉ calls → BoundedQueue.popped calls (start.answers calls) =
    BoundedQueue.taken (∅ : BoundedQueue α (capacity - 1)) calls
  size_eq : (start.run calls).size = (start.run calls).contents.length
  /-- `Clear` terminates, drops what the ring holds and leaves it empty. -/
  clear_ends : Clears (start.run calls) (start.run calls).contents (start.run calls).clear
  clear_empties : (start.run calls).clear.contents = []

/-- **The ring is a bounded first-in, first-out queue**, in every order of calls. -/
theorem bounded_fifo [Inhabited α] (h : 2 ≤ capacity) (calls : List (Call α)) :
    FifoAfter (new (Nat.zero_lt_of_lt h) : SpscRing α capacity) calls := by
  have hempty := queue_new (α := α) (Nat.zero_lt_of_lt h)
  have hanswers := answers_queue (new (Nat.zero_lt_of_lt h) : SpscRing α capacity) calls
  have hcontents := contents_run (new (Nat.zero_lt_of_lt h) : SpscRing α capacity) calls
  rw [hempty] at hanswers hcontents
  exact {
    answers_eq := hanswers
    contents_eq := hcontents
    length_le := (queue (run _ calls)).length_le
    push_fails := tryPush_eq_false_iff _
    push_failed := fun _ => tryPush_of_eq_false
    pop_fails := tryPop_eq_none_iff
    pop_failed := tryPop_of_eq_none
    accepted_eq := by
      rw [hanswers, hcontents]
      exact BoundedQueue.accepted_eq ∅ calls
    popped_sublist := by
      rw [hanswers]
      exact BoundedQueue.popped_sublist_taken ∅ calls
    popped_eq := by
      rw [hanswers]
      exact BoundedQueue.popped_eq_taken ∅ calls
    size_eq := (length_contents _).symm
    clear_ends := clears_clear _
    clear_empties := contents_clear _ }

/-- A ring of four cells, which refuses a fourth value. -/
theorem bounded_fifo_four :
    (new (by decide) : SpscRing ℕ 4).answers
        [.push 1, .push 2, .pop, .size, .push 3, .push 4, .size, .push 5] =
      [.pushed true, .pushed true, .popped (some 1), .size 1, .pushed true, .pushed true, .size 3,
        .pushed false] :=
  (bounded_fifo (by decide) _).answers_eq.trans rfl

end SpscRing

end TsCli
