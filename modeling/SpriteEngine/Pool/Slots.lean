import SpriteEngine.Grid
import SpriteEngine.Memory.Oam
import SpriteEngine.Pool.Tiles
import SpriteEngine.Traced

/-!
# The table of descriptor slots

A slot is the right to use one descriptor. A slot in use also owns a run of tiles, as many as an
object of its size has. `SlotTable` keeps an entry for each slot, together with the two resources
behind them: the pool of tiles and object attribute memory.

* `SlotTable.take` takes the first free slot and its tiles.
* `SlotTable.free` hides the object of a slot and gives slot and tiles back.
* `SlotTable.takeGrid` takes the slots for a grid of cells, all or none.
* `SlotTable.describe` writes a descriptor and remembers what was written.
-/

namespace SpriteEngine

/-- What is known about a slot. -/
structure SlotEntry where
  free : Bool := true
  /-- The first tile of the run that the slot owns. -/
  tile : Nat := 0
  size : ObjectSize := .tile
  /-- What was last written to the descriptor. -/
  attrs : Attributes := {}
deriving DecidableEq, Repr

/-- The slots, the tiles they own and the memory they describe objects in. -/
structure SlotTable where
  entries : List SlotEntry
  tiles : TilePool
  oam : Oam
deriving DecidableEq

namespace SlotTable

/-- A table of free slots over zeroed memory. The hardware has no more than 128 slots. -/
def new (slots tiles : Nat) : SlotTable :=
  ⟨List.replicate (min slots 128) {}, .new tiles, .blank⟩

/-- Make every slot free and hide every object. The pool of tiles is left alone. -/
def reset (t : SlotTable) : SlotTable :=
  { t with entries := t.entries.map fun _ => {}, oam := t.oam.hideAll }

/-- The number of slots in use. -/
def usedCount (t : SlotTable) : Nat :=
  t.entries.countP fun e => !e.free

/-! ### One slot -/

/-- Take the first free slot for an object of the given size, with the tiles for it. -/
def take (t : SlotTable) (size : ObjectSize) : Traced (Except PoolError Nat × SlotTable) :=
  match t.entries.findIdx? (·.free) with
  | none => do
    Traced.note .slotsExhausted
    return (.error .outOfSlots, t)
  | some slot => do
    match ← t.tiles.reserve size.tiles with
    | .error cause => return (.error cause, t)
    | .ok (tile, tiles) =>
      Traced.note (.slotTaken slot size tile)
      let entries := t.entries.set slot { free := false, tile, size }
      return (.ok slot, { t with entries, tiles })

/-- Hide the object of a slot, give its tiles back and make it free. A slot that is free, or does
not exist, is left alone. -/
def free (t : SlotTable) (slot : Nat) : Traced SlotTable :=
  match t.entries[slot]? with
  | none => return t
  | some entry =>
    if entry.free then
      return t
    else do
      let oam ← t.oam.write slot .hidden
      let tiles ←
        match ← t.tiles.release entry.tile entry.size.tiles with
        | .ok tiles => pure tiles
        | .error cause => do
          Traced.note (.tilesRefused slot cause)
          pure t.tiles
      Traced.note (.slotFreed slot)
      return { entries := t.entries.set slot {}, tiles, oam }

/-- Free the slots of a list in order. -/
def freeAll (t : SlotTable) (slots : List Nat) : Traced SlotTable :=
  slots.foldlM free t

/-- Write a descriptor and remember what was written. A slot that does not exist is left alone. -/
def describe (t : SlotTable) (slot : Nat) (attrs : Attributes) : Checked SlotTable :=
  match t.entries[slot]? with
  | none => return t
  | some entry => do
    let oam ← t.oam.write slot attrs.encode
    return { t with entries := t.entries.set slot { entry with attrs }, oam }

/-! ### A grid of slots -/

/-- Add a slot to a list of slots, which has room for 128. -/
def push (slots : List Nat) (slot : Nat) : Checked (List Nat) :=
  if slots.length < 128 then .ok (slots ++ [slot]) else .error .outOfBounds

/-- Take slots for objects of the given sizes, after those in `taken`. If one cannot be taken, all
of `taken` is given back. -/
def takeRest (t : SlotTable) (taken : List Nat) :
    List ObjectSize → Traced (Except PoolError (List Nat) × SlotTable)
  | [] => return (.ok taken, t)
  | size :: sizes => do
    match ← t.take size with
    | (.ok slot, t) => t.takeRest (← push taken slot) sizes
    | (.error cause, t) =>
      Traced.note (.gridAbandoned taken.length cause)
      return (.error cause, ← t.freeAll taken)

/-- Take slots for the cells of a grid, row by row, all or none. -/
def takeGrid (t : SlotTable) (g : Grid) : Traced (Except PoolError (List Nat) × SlotTable) :=
  if 128 < g.columns * g.rows then
    return (.error .outOfSlots, t)
  else
    t.takeRest [] g.sizes

end SlotTable

end SpriteEngine
