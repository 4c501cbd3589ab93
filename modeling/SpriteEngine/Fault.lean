/-!
# Faults

A fault ends a computation: an address or a counter left its word, an index left its memory, or
tiles were given back that are free already. It is not an answer to the caller (those are the causes
in `Failure`), and it says nothing about the state reached before it.

`Checked α` is a computation that ends in an `α` or in a fault, and `halfWord` is the guard of every
16-bit sum.
-/

namespace SpriteEngine

/-- Why a computation is cut short. -/
inductive Fault where
  /-- A sum does not fit into 16 bits, or an identifier not into 32. -/
  | overflow
  /-- An index is outside of a memory, a table or a buffer. -/
  | outOfBounds
  /-- A range of tiles was given back while part of it is free. -/
  | doubleRelease
  /-- A division by zero. -/
  | divisionByZero
deriving DecidableEq, Repr

/-- A computation that may fault. -/
abbrev Checked (α : Type) := Except Fault α

/-- A computation that ends in `a` hands `a` on. -/
theorem Checked.ok_bind {α β : Type} (a : α) (f : α → Checked β) :
    ((.ok a : Checked α) >>= f) = f a :=
  rfl

/-- A sum that is to be kept in 16 bits. -/
def halfWord (n : Nat) : Checked Nat :=
  if n < 65536 then .ok n else .error .overflow

theorem halfWord_of_lt {n : Nat} (h : n < 65536) : halfWord n = .ok n :=
  if_pos h

end SpriteEngine
