import TsCli.Lib.Exec

/-!
# Bytes and failures

The source signals every error by throwing `std::runtime_error` with a text. The model keeps the
text, and adds the two ways in which C++ code can go wrong without throwing: an access outside an
array or a span, and a loop that does not end.
-/

namespace TsCli

/-- A `std::vector<std::byte>`, a `std::span<const std::byte>` or a `std::string`. -/
abbrev Bytes := List UInt8

/-- What a run over all bytes decides. -/
theorem forall_byte {P : UInt8 → Prop} (h : ∀ n : Fin 256, P (UInt8.ofNat n.val)) (byte : UInt8) :
    P byte := by
  have hbyte := h ⟨byte.toNat, byte.toNat_lt⟩
  rwa [UInt8.ofNat_toNat] at hbyte

/-- How a call can fail to return. -/
inductive Failure
  /-- `throw std::runtime_error( message )`. -/
  | runtimeError (message : String)
  /-- An access past the end of an array, a span or a vector. -/
  | outOfBounds
  /-- The loop budget of the model is used up. -/
  | outOfFuel
  deriving DecidableEq, Repr

/-- `if ( c ) throw std::runtime_error( message )`. -/
def throwIf (c : Prop) [Decidable c] (message : String) : Except Failure Unit :=
  if c then .error (.runtimeError message) else .ok ()

theorem throwIf_of_not {c : Prop} [Decidable c] (message : String) (h : ¬ c) :
    throwIf c message = .ok () := if_neg h

theorem throwIf_of_pos {c : Prop} [Decidable c] (message : String) (h : c) :
    throwIf c message = .error (.runtimeError message) := if_pos h

theorem throwIf_bind_of_not {c : Prop} [Decidable c] {message : String} {α : Type}
    (h : ¬ c) (f : Unit → Except Failure α) : (throwIf c message >>= f) = f () := by
  rw [throwIf_of_not message h]
  rfl

theorem bind_eq_ok {α β : Type} {x : Except Failure α} {f : α → Except Failure β} {b : β}
    (h : (x >>= f) = .ok b) : ∃ a, x = .ok a ∧ f a = .ok b := by
  cases x with
  | error e => cases h
  | ok a => exact ⟨a, rfl, h⟩

theorem not_of_throwIf {c : Prop} [Decidable c] {message : String} {u : Unit}
    (h : throwIf c message = .ok u) : ¬ c := by
  intro hc
  rw [throwIf_of_pos message hc] at h
  cases h

/-- A point of `std::chrono::steady_clock`, in nanoseconds. -/
abbrev TimePoint := ℤ

end TsCli
