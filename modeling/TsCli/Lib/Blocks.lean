import Mathlib.Data.List.Basic
import Mathlib.Tactic

/-!
# Streams in blocks

A stream that is cut into blocks of a fixed size leaves a rest that is shorter than a block. Cutting
a stream that goes on is cutting its front, and then the rest of the front with what follows
(`blocks_append`, `rest_append`); so the blocks do not depend on the pieces in which it arrives.
-/

namespace Blocks

variable {α : Type*} {size : ℕ}

/-- What is left behind the full blocks. -/
def rest (size : ℕ) (stream : List α) : List α := stream.drop (size * (stream.length / size))

/-- The full blocks, in order. -/
def blocks (size : ℕ) (stream : List α) : List (List α) :=
  (List.range (stream.length / size)).map fun i => (stream.drop (size * i)).take size

theorem length_rest (size : ℕ) (stream : List α) :
    (rest size stream).length = stream.length % size := by
  have h := Nat.div_add_mod stream.length size
  rw [rest, List.length_drop]
  omega

theorem blocks_of_lt {stream : List α} (h : stream.length < size) : blocks size stream = [] := by
  rw [blocks, Nat.div_eq_of_lt h]
  rfl

theorem rest_of_lt {stream : List α} (h : stream.length < size) : rest size stream = stream := by
  rw [rest, Nat.div_eq_of_lt h]
  rfl

/-- A block in front of a stream. -/
theorem blocks_block_append {block : List α} (hblock : block.length = size) (hsize : 0 < size)
    (stream : List α) : blocks size (block ++ stream) = block :: blocks size stream := by
  have hcount : (block ++ stream).length / size = stream.length / size + 1 := by
    rw [List.length_append, hblock, Nat.add_comm, Nat.add_div_right _ hsize]
  rw [blocks, hcount, List.range_succ_eq_map, List.map_cons, List.map_map]
  refine congrArg₂ _ ?_ (List.map_congr_left fun i _ => ?_)
  · rw [Nat.mul_zero, List.drop_zero, List.take_append_of_le_length hblock.ge,
      List.take_of_length_le hblock.le]
  · have hdrop : (block ++ stream).drop (size * (i + 1)) = stream.drop (size * i) := by
      rw [Nat.mul_succ, Nat.add_comm, ← List.drop_drop, List.drop_left' hblock]
    exact congrArg _ hdrop

theorem rest_block_append {block : List α} (hblock : block.length = size) (hsize : 0 < size)
    (stream : List α) : rest size (block ++ stream) = rest size stream := by
  have hcount : (block ++ stream).length / size = stream.length / size + 1 := by
    rw [List.length_append, hblock, Nat.add_comm, Nat.add_div_right _ hsize]
  rw [rest, hcount, Nat.mul_succ, Nat.add_comm, ← List.drop_drop, List.drop_left' hblock]
  rfl

/-- A stream of one block. -/
theorem blocks_of_length {block : List α} (hblock : block.length = size) (hsize : 0 < size) :
    blocks size block = [block] ∧ rest size block = [] := by
  have hblocks := blocks_block_append hblock hsize []
  have hrest := rest_block_append hblock hsize []
  rw [List.append_nil] at hblocks hrest
  rw [hblocks, hrest, blocks_of_lt (List.length_nil.trans_lt hsize),
    rest_of_lt (List.length_nil.trans_lt hsize)]
  exact ⟨rfl, rfl⟩

/-- **Cutting a stream piece by piece**: the next piece is cut together with the rest. -/
theorem blocks_append (hsize : 0 < size) (front back : List α) :
    blocks size (front ++ back) = blocks size front ++ blocks size (rest size front ++ back) ∧
      rest size (front ++ back) = rest size (rest size front ++ back) := by
  induction h : front.length using Nat.strongRecOn generalizing front with
  | _ n ih =>
    by_cases hlt : front.length < size
    · rw [blocks_of_lt hlt, rest_of_lt hlt]
      exact ⟨rfl, rfl⟩
    · have htake : (front.take size).length = size := by
        rw [List.length_take]
        omega
      have hdrop : (front.drop size).length < n := by
        rw [List.length_drop]
        omega
      obtain ⟨hblocks, hrest⟩ := ih _ hdrop (front.drop size) rfl
      rw [← List.take_append_drop size front, List.append_assoc,
        blocks_block_append htake hsize, blocks_block_append htake hsize,
        rest_block_append htake hsize, rest_block_append htake hsize, hblocks, hrest]
      exact ⟨rfl, rfl⟩

end Blocks
