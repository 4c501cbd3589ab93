import SpriteEngine.Memory.TileRam
import SpriteEngine.Texture

/-!
# Pixels for tile RAM

The pixels of a texture name colors of the texture, those in tile RAM name colors of the palette.
`Texture.cellImage` prepares what is transferred for one cell of the grid: the tiles of the cell,
with their pixels renamed, laid out in rows as wide as the object that shows the cell. Tiles of the
object that the cell does not reach are transparent.
-/

namespace SpriteEngine

/-- The palette index for a pixel of a texture whose colors are bound to `colors`. The pixel 0 is
transparent, and so is one without a color. -/
def paletteIndex (colors : Array UInt8) (pixel : UInt8) : UInt8 :=
  if pixel = 0 then 0 else colors[pixel.toNat - 1]?.getD 0

/-- The tiles of a cell of the given size, row by row, as pairs of column and row. -/
def Grid.cellTiles (width height : Nat) : List (Nat × Nat) :=
  (List.range height).flatMap fun y => (List.range width).map fun x => (x, y)

/-- Write the 64 bytes of tile `index` of a buffer. -/
def placeTile (buffer : Array UInt8) (index : Nat) (pixels : List UInt8) : Checked (Array UInt8) :=
  if 64 * (index + 1) ≤ buffer.size then
    .ok (overwriteBytes buffer (64 * index) pixels)
  else
    .error .outOfBounds

/-- The bytes that show one cell of a frame by an object of the given size. -/
def Texture.cellImage (t : Texture) (frame column row : Nat) (size : ObjectSize)
    (colors : List UInt8) : Checked (Array UInt8) :=
  let table := colors.toArray
  (Grid.cellTiles (t.grid.cellWidth column) (t.grid.cellHeight row)).foldlM
    (fun buffer (x, y) => do
      let pixels ← t.tile frame (column * 8 + x) (row * 8 + y)
      placeTile buffer (y * size.widthTiles + x) (pixels.toList.map (paletteIndex table)))
    (Array.replicate size.bytes 0)

end SpriteEngine
