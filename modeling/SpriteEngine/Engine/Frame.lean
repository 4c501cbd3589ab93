import SpriteEngine.Engine.Basic
import SpriteEngine.Sprite
import SpriteEngine.Upload

/-!
# Uploading frames

`Engine.upload` puts the pixels of a frame into the tiles of a loaded sprite, cell by cell. A frame
that is there already is not uploaded again.
-/

namespace SpriteEngine.Engine

/-- Upload the cells of a frame into the tiles of the given slots, the first of which has the number
`i`. Slots that do not exist are passed over. -/
def uploadCells (entries : List SlotEntry) (t : Texture) (frame : Nat) (colors : List UInt8)
    (ram : TileRam) (i : Nat) : List Nat → Checked (Except TransferError Unit × TileRam)
  | [] => return (.ok (), ram)
  | slot :: slots =>
    match entries[slot]? with
    | none => uploadCells entries t frame colors ram (i + 1) slots
    | some entry => do
      let (column, row) ← t.grid.position i
      let image ← t.cellImage frame column row entry.size colors
      match ram.copy entry.tile image.toList with
      | .error cause => return (.error cause, ram)
      | .ok ram => uploadCells entries t frame colors ram (i + 1) slots

/-- Upload a frame of a loaded sprite. The answer is whether there was anything to do. -/
def upload (e : Engine) (s : Sprite) (frame : Nat) :
    Checked (Except PoolError Bool × Engine × Sprite) :=
  match s.held with
  | none => return (.error .notLoaded, e, s)
  | some held =>
    if s.texture.frames ≤ frame then
      return (.error (.invalidFrame frame s.texture.frames), e, s)
    else if held.frame = some frame then
      return (.ok false, e, s)
    else do
      match ← uploadCells e.slots.entries s.texture frame held.colors e.tileRam 0 held.slots with
      | (.error cause, tileRam) => return (.error (.transfer cause), { e with tileRam }, s)
      | (.ok (), tileRam) =>
        return (.ok true, { e with tileRam }, { s with held := some { held with frame } })

end SpriteEngine.Engine
