import SpriteEngine.Failure
import SpriteEngine.Fault

/-!
# The pool of tiles

Tiles are handed out in runs. `TilePool` keeps the free ones as a list of zones in ascending order.
A run is taken from the front of the first zone that is long enough (`TilePool.reserve`), and a run
that is given back is joined with the zones it touches (`TilePool.release`), so that two zones never
touch.

Seen from outside the pool is a set of free tiles: `TilePool.IsFree`. The zones of a pool in order
are `Zone.Ascending`: none is empty, and between one and the next lies at least one tile.
-/

namespace SpriteEngine

/-- A run of free tiles. -/
structure Zone where
  start : Nat
  length : Nat
deriving DecidableEq, Repr

namespace Zone

/-- The tile after the last one of the zone, as a 16-bit number. -/
def stop (z : Zone) : Checked Nat :=
  halfWord (z.start + z.length)

/-- The tile `t` lies in the zone. -/
def Covers (z : Zone) (t : Nat) : Prop :=
  z.start ≤ t ∧ t < z.start + z.length

instance (z : Zone) (t : Nat) : Decidable (z.Covers t) :=
  inferInstanceAs (Decidable (_ ∧ _))

/-- No zone is empty, and each ends before the next begins, with a tile between them. -/
def Ascending (zones : List Zone) : Prop :=
  (∀ z ∈ zones, 0 < z.length) ∧ zones.Pairwise fun a b => a.start + a.length < b.start

/-! ### Taking a run -/

/-- Take `n` tiles from the front of the first zone that has them, and return the first tile taken
with the zones that are left. -/
def take (n : Nat) : List Zone → Checked (Option (Nat × List Zone))
  | [] => .ok none
  | z :: zs =>
    if n ≤ z.length then
      if z.length = n then
        .ok (some (z.start, zs))
      else do
        let rest ← halfWord (z.start + n)
        return some (z.start, ⟨rest, z.length - n⟩ :: zs)
    else do
      let taken ← take n zs
      return taken.map fun (start, rest) => (start, z :: rest)

/-! ### Giving a run back -/

/-- Put a zone in front of others, as one with the first of them if they touch. -/
def join (z : Zone) : List Zone → Checked (List Zone)
  | [] => .ok [z]
  | y :: ys =>
    if z.start + z.length = y.start then do
      let length ← halfWord (z.length + y.length)
      return ⟨z.start, length⟩ :: ys
    else
      .ok (z :: y :: ys)

/-- Put a zone to its place among others. It may touch them but not overlap. -/
def insert (z : Zone) : List Zone → Checked (List Zone)
  | [] => .ok [z]
  | y :: ys =>
    if y.start ≤ z.start then do
      let stop ← y.stop
      if stop ≤ z.start then y.join (← insert z ys) else .error .doubleRelease
    else if z.start + z.length ≤ y.start then
      z.join (y :: ys)
    else
      .error .doubleRelease

end Zone

/-- The free tiles among the first `capacity` ones. -/
structure TilePool where
  capacity : Nat
  zones : List Zone
deriving DecidableEq, Repr

namespace TilePool

/-- The zones of a pool in which every tile is free. -/
def allFree (capacity : Nat) : List Zone :=
  if 0 < capacity then [⟨0, capacity⟩] else []

/-- A pool in which every tile is free. -/
def new (capacity : Nat) : TilePool :=
  ⟨capacity, allFree capacity⟩

/-- Make every tile free. -/
def reset (p : TilePool) : TilePool :=
  { p with zones := allFree p.capacity }

/-- The tile `t` is free. -/
def IsFree (p : TilePool) (t : Nat) : Prop :=
  ∃ z ∈ p.zones, z.Covers t

/-- Take `n` consecutive tiles, the first possible ones, and return the first of them. -/
def reserve (p : TilePool) (n : Nat) : Checked (Except PoolError (Nat × TilePool)) :=
  if n = 0 then
    .ok (.error .emptyRange)
  else do
    match ← Zone.take n p.zones with
    | some (start, zones) => return .ok (start, { p with zones })
    | none => return .error .outOfTiles

/-- Give `n` tiles back, from tile `start` on. -/
def release (p : TilePool) (start n : Nat) : Checked (Except PoolError TilePool) :=
  if n = 0 then
    .ok (.error .emptyRange)
  else do
    let _ ← halfWord (start + n)
    let zones ← Zone.insert ⟨start, n⟩ p.zones
    return .ok { p with zones }

/-- The number of free tiles, as a 16-bit number. -/
def freeUnits (p : TilePool) : Checked Nat :=
  p.zones.foldlM (fun sum z => halfWord (sum + z.length)) 0

/-- The length of the longest run that can be taken. -/
def largestZone (p : TilePool) : Nat :=
  p.zones.foldl (fun longest z => max longest z.length) 0

end TilePool

end SpriteEngine
