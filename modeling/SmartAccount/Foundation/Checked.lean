import Mathlib.Algebra.Order.Group.Nat

/-!
# Arithmetic with overflow checks

A program built with overflow checks stops at a sum that needs more bits than a machine word
has and at a difference below zero.  Its results are natural numbers, `Stop` is what it stops
with, and `exactly` runs a computation that has no arithmetic to check.
-/

namespace Foundation

/-- The operation that overflowed. -/
inductive Overflow where
  | add
  | sub
deriving DecidableEq

/-- What a program stops with: an error that it raises itself, or an overflow. -/
inductive Stop (ε : Type) where
  | raised (error : ε)
  | overflow (operation : Overflow)
deriving DecidableEq

variable {ε α β : Type}

/-- The sum of two words of `w` bits. -/
def checkedAdd (w a b : Nat) : Except (Stop ε) Nat :=
  if a + b < 2 ^ w then .ok (a + b) else .error (.overflow .add)

/-- The difference of two words. -/
def checkedSub (a b : Nat) : Except (Stop ε) Nat :=
  if b ≤ a then .ok (a - b) else .error (.overflow .sub)

/-- A computation without checked arithmetic. -/
def exactly (x : Except ε α) : Except (Stop ε) α := x.mapError .raised

theorem checkedAdd_of_lt {w a b : Nat} (fits : a + b < 2 ^ w) :
    (checkedAdd w a b : Except (Stop ε) Nat) = .ok (a + b) := if_pos fits

theorem checkedSub_of_le {a b : Nat} (fits : b ≤ a) :
    (checkedSub a b : Except (Stop ε) Nat) = .ok (a - b) := if_pos fits

theorem checkedSub_of_lt {a b : Nat} (short : a < b) :
    (checkedSub a b : Except (Stop ε) Nat) = .error (.overflow .sub) :=
  if_neg (Nat.not_le_of_lt short)

@[simp] theorem exactly_ok (a : α) : exactly (.ok a : Except ε α) = .ok a := rfl

theorem exactly_eq_ok {x : Except ε α} {a : α} : exactly x = .ok a ↔ x = .ok a := by
  cases x with
  | error e => exact iff_of_false nofun nofun
  | ok a' =>
      constructor
      · rintro ⟨⟩
        rfl
      · rintro ⟨⟩
        rfl

/-- A computation without checked arithmetic does not overflow. -/
theorem exactly_ne_overflow (x : Except ε α) (operation : Overflow) :
    exactly x ≠ .error (.overflow operation) := by
  cases x <;> nofun

/-- Where what follows never overflows, the whole does not. -/
theorem exactly_bind {x : Except ε α} {f : α → Except ε β} {g : α → Except (Stop ε) β}
    (onwards : ∀ a, x = .ok a → g a = exactly (f a)) : (exactly x >>= g) = exactly (x >>= f) := by
  cases x with
  | error e => rfl
  | ok a => exact onwards a rfl

end Foundation
