/-
# `Sponge.Cpp` — the C++ vocabulary the model is written in.

Strings are lists of bytes, `size_t` and `uint64_t` values are natural numbers, and the operations
on them that can leave the 64-bit range are the wrapping ones below.  A counter that only grows by
the length of real data, and the clock of a connection, stay plain natural numbers.  Code that throws
returns in `Except Exception`.
-/
import Mathlib.Algebra.GroupWithZero.Nat
import Mathlib.Tactic.Common

namespace Sponge

/-- A `std::string` (or a view of one) is its bytes. -/
abbrev Bytes := List UInt8

/-- The standard exceptions that the library throws, with their `what()` text. -/
inductive Exception where
  | runtimeError (what : String)
  | outOfRange (what : String)
  | lengthError (what : String)
  deriving DecidableEq, Repr

/-! ## Code that throws -/

/-- A computation that goes on after a fallible one returned iff that one did. -/
theorem bind_ok {α β : Type} {x : Except Exception α} {k : α → Except Exception β} {b : β} :
    x.bind k = .ok b ↔ ∃ a, x = .ok a ∧ k a = .ok b := by
  cases x with
  | error e => simp [Except.bind]
  | ok a => simp [Except.bind]

theorem map_ok {α β : Type} {x : Except Exception α} {g : α → β} {b : β} :
    x.map g = .ok b ↔ ∃ a, x = .ok a ∧ g a = b := by
  cases x with
  | error e => simp [Except.map]
  | ok a => simp [Except.map]

/-- The computation returns, and what it returns passes the test. -/
def returns {α : Type} (x : Except Exception α) (test : α → Bool) : Bool :=
  match x with
  | .ok a => test a
  | .error _ => false

theorem returns_iff {α : Type} {x : Except Exception α} {test : α → Bool} :
    returns x test = true ↔ ∃ a, x = .ok a ∧ test a = true := by
  cases x with
  | error e => simp [returns]
  | ok a => simp [returns]

/-! ## 64-bit arithmetic -/

/-- `a + b` on `uint64_t`. -/
def add64 (a b : Nat) : Nat := (a + b) % 2 ^ 64

/-- `a - b` on `uint64_t` operands. -/
def sub64 (a b : Nat) : Nat := if b ≤ a then a - b else a + 2 ^ 64 - b

theorem add64_of_lt {a b : Nat} (h : a + b < 2 ^ 64) : add64 a b = a + b :=
  Nat.mod_eq_of_lt h

theorem sub64_of_le {a b : Nat} (h : b ≤ a) : sub64 a b = a - b := if_pos h

/-! ## Strings -/

/-- `std::string::max_size()`, as the library of g++ 8 has it, the first that `etc/cflags.cmake` admits. -/
def maxSize : Nat := 2 ^ 63 - 1

/-- `std::string::reserve(n)`. -/
def reserve (n : Nat) : Except Exception Unit :=
  if n > maxSize then .error (.lengthError "basic_string::_M_create") else .ok ()

theorem reserve_of_le {n : Nat} (h : n ≤ maxSize) : reserve n = .ok () := if_neg (Nat.not_lt.mpr h)

theorem reserve_of_lt {n : Nat} (h : maxSize < n) : reserve n = .error (.lengthError "basic_string::_M_create") :=
  if_pos h

/-- `std::string::substr(pos, n)` and `std::string_view::substr(pos, n)`: a start beyond the end
throws, a length beyond the end is clamped. -/
def substr (s : Bytes) (pos n : Nat) : Except Exception Bytes :=
  if pos > s.length then .error (.outOfRange "basic_string::substr")
  else .ok ((s.drop pos).take n)

theorem substr_of_le {s : Bytes} {pos : Nat} (h : pos ≤ s.length) (n : Nat) :
    substr s pos n = .ok ((s.drop pos).take n) := by
  rw [substr, if_neg (by omega)]

end Sponge
