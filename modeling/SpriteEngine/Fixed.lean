/-!
# Fixed-point numbers

Positions and scales have 24 integer bits and 8 fraction bits in a 32-bit word (`Fixed`). Sums and
products wrap around. What reaches the hardware is read off the bits: the whole pixels of a position
in a screen that wraps around (`Fixed.wholeMod`), and the reciprocal of a scale
(`Fixed.reciprocal`).
-/

namespace SpriteEngine

/-- A number with 8 fraction bits: the word `bits` stands for `bits / 256`. -/
structure Fixed where
  bits : Int32
deriving DecidableEq, Repr

namespace Fixed

/-- The number 0. -/
def zero : Fixed :=
  ⟨0⟩

/-- The number 1. -/
def one : Fixed :=
  ⟨256⟩

/-- The sum, modulo the word. -/
def add (a b : Fixed) : Fixed :=
  ⟨a.bits + b.bits⟩

/-- The product with an integer, modulo the word. -/
def scale (a : Fixed) (n : Nat) : Fixed :=
  ⟨a.bits * Int32.ofNat n⟩

/-- The whole part of the number, rounded down, modulo `m`. -/
def wholeMod (a : Fixed) (m : Nat) : Nat :=
  (a.bits.toInt % (256 * m) / 256).toNat

/-- The reciprocal with 8 fraction bits, rounded toward zero and cut to its lowest 16 bits. The
reciprocal of 0 is 0. -/
def reciprocal (a : Fixed) : UInt16 :=
  UInt16.ofInt (Int.tdiv 65536 a.bits.toInt)

end Fixed

end SpriteEngine
