import SpriteEngine.Failure
import SpriteEngine.Fault
import SpriteEngine.Grid

/-!
# Textures

A texture is a sequence of frames of equal size with a palette of its own. Its pixels are stored
frame by frame, each frame as rows of tiles, each tile as 64 pixels. The pixel 0 is transparent and
the pixel `n` has the color number `n - 1` of the texture.

`Texture.create` is the only way to make one, and its checks are kept as fields: a texture has
pixels and frames, at most 255 colors, and exactly the bytes its size asks for. `Texture.tile` reads
the 64 pixels of one tile.
-/

namespace SpriteEngine

/-- The number of tiles along an edge of the given length in pixels; a part of a tile counts as a
whole one. -/
def Texture.tilesAlong (px : UInt16) : Nat :=
  (px.toNat + 7) / 8

open Texture (tilesAlong)

/-- Frames of indexed pixels, with their colors. -/
structure Texture where
  width : UInt16
  height : UInt16
  frameCount : UInt16
  colors : List UInt16
  pixels : Array UInt8
  width_ne_zero : width ≠ 0
  height_ne_zero : height ≠ 0
  frameCount_ne_zero : frameCount ≠ 0
  length_colors_le : colors.length ≤ 255
  size_pixels : pixels.size = tilesAlong width * tilesAlong height * 64 * frameCount.toNat
deriving DecidableEq

namespace Texture

/-- Make a texture, or say what is wrong with its parts. -/
def create (width height frameCount : UInt16) (colors : List UInt16) (pixels : Array UInt8) :
    Except TextureError Texture :=
  if hw : width = 0 then .error .empty
  else if hh : height = 0 then .error .empty
  else if hf : frameCount = 0 then .error .empty
  else if hc : colors.length ≤ 255 then
    let expected := tilesAlong width * tilesAlong height * 64 * frameCount.toNat
    if hp : pixels.size = expected then
      .ok ⟨width, height, frameCount, colors, pixels, hw, hh, hf, hc, hp⟩
    else
      .error (.dataLength expected pixels.size)
  else
    .error (.tooManyColors colors.length)

/-- The width in tiles. -/
def tilesWide (t : Texture) : Nat :=
  tilesAlong t.width

/-- The height in tiles. -/
def tilesHigh (t : Texture) : Nat :=
  tilesAlong t.height

/-- The grid of cells that shows the texture. -/
def grid (t : Texture) : Grid :=
  ⟨t.tilesWide, t.tilesHigh⟩

/-- The number of frames. -/
def frames (t : Texture) : Nat :=
  t.frameCount.toNat

/-- The place of a tile in the sequence of all tiles of all frames. -/
def tileIndex (t : Texture) (frame x y : Nat) : Nat :=
  frame * t.tilesWide * t.tilesHigh + y * t.tilesWide + x

/-- The 64 pixels of the tile at column `x` and row `y` of a frame. Only the end of the pixel data
is checked: past the edge of a row the next tiles of the sequence are read. -/
def tile (t : Texture) (frame x y : Nat) : Checked (Array UInt8) :=
  let start := t.tileIndex frame x y * 64
  if start + 64 ≤ t.pixels.size then
    .ok (t.pixels.extract start (start + 64))
  else
    .error .outOfBounds

end Texture

end SpriteEngine
