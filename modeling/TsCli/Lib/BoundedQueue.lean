import TsCli.Lib.Machine

/-!
# Bounded queues

A first-in, first-out queue that holds at most `bound` values. A push is refused when it is full, a
pop when it is empty. The values that were accepted are those that left the queue and those that it
holds, in one order (`accepted_eq`); the values that left are the popped ones, but for those that a
`clear` has dropped.
-/

@[ext] structure BoundedQueue (α : Type*) (bound : ℕ) where
  items : List α
  length_le : items.length ≤ bound

namespace BoundedQueue

variable {α : Type*} {bound : ℕ}

instance : EmptyCollection (BoundedQueue α bound) := ⟨⟨[], Nat.zero_le _⟩⟩

/-- Whether there was room for the value, and the queue that it is the last of. -/
def push (q : BoundedQueue α bound) (value : α) : Bool × BoundedQueue α bound :=
  if h : q.items.length < bound then
    (true, ⟨q.items ++ [value], by simpa using h⟩)
  else (false, q)

/-- The first value, if there is one, and the queue without it. -/
def pop : BoundedQueue α bound → Option α × BoundedQueue α bound
  | ⟨[], h⟩ => (none, ⟨[], h⟩)
  | ⟨value :: items, h⟩ => (some value, ⟨items, (Nat.le_succ _).trans h⟩)

/-! ## Calls -/

inductive Call (α : Type*)
  | push (value : α)
  | pop
  | clear
  | size
  deriving DecidableEq

inductive Answer (α : Type*)
  | pushed (accepted : Bool)
  | popped (value : Option α)
  | cleared
  | size (n : ℕ)
  deriving DecidableEq

/-- One call of the queue. -/
def step (q : BoundedQueue α bound) : Call α → Answer α × BoundedQueue α bound
  | .push value => (q.push value).map .pushed id
  | .pop => q.pop.map .popped id
  | .clear => (.cleared, ∅)
  | .size => (.size q.items.length, q)

/-- What a push brings in, by its answer. -/
def Call.accepted : Call α → Answer α → List α
  | .push value, .pushed true => [value]
  | _, _ => []

/-- What a pop returns, by its answer. -/
def Call.popped : Call α → Answer α → List α
  | .pop, .popped (some value) => [value]
  | _, _ => []

/-- The values that the pushes brought in, in order. -/
def accepted (calls : List (Call α)) (answers : List (Answer α)) : List α :=
  (List.zipWith Call.accepted calls answers).flatten

/-- The values that the pops returned, in order. -/
def popped (calls : List (Call α)) (answers : List (Answer α)) : List α :=
  (List.zipWith Call.popped calls answers).flatten

/-- What a call takes out of the queue. -/
def left (q : BoundedQueue α bound) : Call α → List α
  | .pop => q.items.head?.toList
  | .clear => q.items
  | _ => []

/-- The values that left the queue, in order. -/
def taken (q : BoundedQueue α bound) (calls : List (Call α)) : List α :=
  Machine.collect step left q calls

/-- One call: what was held and what came in is what left and what is held. -/
theorem items_append_accepted (q : BoundedQueue α bound) (call : Call α) :
    q.items ++ call.accepted (step q call).1 = left q call ++ (step q call).2.items := by
  cases call with
  | push value =>
    unfold step push
    split_ifs
    · rfl
    · exact List.append_nil _
  | pop =>
    obtain ⟨_ | ⟨value, items⟩, h⟩ := q
    · rfl
    · exact List.append_nil _
  | clear => rfl
  | size => exact List.append_nil _

theorem popped_sublist_left (q : BoundedQueue α bound) (call : Call α) :
    (call.popped (step q call).1).Sublist (left q call) := by
  cases call with
  | pop =>
    obtain ⟨_ | ⟨value, items⟩, h⟩ := q
    · exact List.Sublist.refl _
    · exact List.Sublist.refl _
  | push | clear | size => exact List.nil_sublist _

theorem popped_eq_left (q : BoundedQueue α bound) {call : Call α} (h : call ≠ .clear) :
    call.popped (step q call).1 = left q call := by
  cases call with
  | pop =>
    obtain ⟨_ | ⟨value, items⟩, h⟩ := q
    · rfl
    · rfl
  | clear => exact absurd rfl h
  | push | size => rfl

section Runs

variable (q : BoundedQueue α bound) (calls : List (Call α))

/-- **First in, first out.** -/
theorem accepted_eq :
    q.items ++ accepted calls (Machine.answers step q calls) =
      taken q calls ++ (Machine.run step q calls).items := by
  unfold accepted taken
  rw [← Machine.collect_of_answers (f := fun q call => call.accepted (step q call).1)
    (fun _ _ => rfl)]
  exact Machine.held_append_collect items_append_accepted q calls

theorem popped_sublist_taken :
    (popped calls (Machine.answers step q calls)).Sublist (taken q calls) := by
  unfold popped taken
  rw [← Machine.collect_of_answers (f := fun q call => call.popped (step q call).1)
    (fun _ _ => rfl)]
  exact Machine.collect_sublist popped_sublist_left q calls

/-- Without a `clear`, every value that left was popped. -/
theorem popped_eq_taken (h : Call.clear ∉ calls) :
    popped calls (Machine.answers step q calls) = taken q calls := by
  unfold popped taken
  rw [← Machine.collect_of_answers (f := fun q call => call.popped (step q call).1)
    (fun _ _ => rfl)]
  refine Machine.collect_congr (fun q call hcall => popped_eq_left q ?_) q
  rintro rfl
  exact h hcall

end Runs

end BoundedQueue
