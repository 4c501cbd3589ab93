/-!
# The pool of affine groups

Scaled sprites need one of the 32 affine groups each. `AffinePool` marks the groups in use and hands
out the first free one among the first `count` groups.
-/

namespace SpriteEngine

/-- Which affine groups are in use, and how many may be handed out. -/
structure AffinePool where
  used : Vector Bool 32
  count : Nat
deriving DecidableEq

namespace AffinePool

/-- A pool of free groups. The hardware has no more than 32. -/
def new (count : Nat) : AffinePool :=
  ⟨Vector.replicate 32 false, min count 32⟩

/-- Make every group free. -/
def reset (p : AffinePool) : AffinePool :=
  { p with used := Vector.replicate 32 false }

/-- Whether a group is in use. -/
def isUsed (p : AffinePool) (group : Nat) : Bool :=
  p.used[group]?.getD false

/-- Mark a group. -/
def mark (p : AffinePool) (group : Nat) (inUse : Bool) : AffinePool :=
  { p with used := p.used.setIfInBounds group inUse }

/-- Take the first free group, if there is one. -/
def reserve (p : AffinePool) : Option (Nat × AffinePool) :=
  ((List.range p.count).find? fun g => !p.isUsed g).map fun g => (g, p.mark g true)

/-- Give a group back. -/
def release (p : AffinePool) (group : Nat) : AffinePool :=
  p.mark group false

/-- The number of groups in use. -/
def usedCount (p : AffinePool) : Nat :=
  p.used.toList.countP id

/-- Which of the groups that may be handed out are in use. -/
def flags (p : AffinePool) : List Bool :=
  p.used.toList.take p.count

end AffinePool

end SpriteEngine
