import Mathlib.Algebra.Order.Ring.Int

/-!
# Signed 64-bit arithmetic

A signed 64-bit integer is the unbounded integer it stands for. What differs from unbounded
arithmetic is what becomes of a result: `wrap` keeps its low 64 bits, and `checked` ends the
computation, where the language leaves a result that does not fit undefined.

Both are the exact operation on results that fit (`wrap_of_fits`, `checked_bind_of_fits`).
-/

namespace PokerServer.Signed64

/-- The values of 64 bits in two's complement. -/
def Fits (x : Int) : Prop := -2 ^ 63 ≤ x ∧ x < 2 ^ 63

instance (x : Int) : Decidable (Fits x) := inferInstanceAs (Decidable (_ ∧ _))

/-- The value of the low 64 bits. -/
def wrap (x : Int) : Int := (x + 2 ^ 63) % 2 ^ 64 - 2 ^ 63

/-- The result, if it fits. -/
def checked {ε : Type} (overflow : ε) (x : Int) : Except ε Int :=
  if Fits x then .ok x else .error overflow

variable {x : Int}

theorem wrap_of_fits (h : Fits x) : wrap x = x := by
  unfold Fits at h
  unfold wrap
  omega

/-- A result up to twice too large loses its sign. -/
theorem wrap_of_large (hlarge : 2 ^ 63 ≤ x) (hsmall : x < 2 ^ 64) : wrap x = x - 2 ^ 64 := by
  unfold wrap
  omega

theorem checked_of_fits {ε : Type} {overflow : ε} (h : Fits x) : checked overflow x = .ok x :=
  if_pos h

/-- A computation goes on with the result of an operation that fits. -/
theorem checked_bind_of_fits {ε α : Type} {overflow : ε} {f : Int → Except ε α} (h : Fits x) :
    (checked overflow x >>= f) = f x := by
  rw [checked_of_fits h]
  rfl

end PokerServer.Signed64
