import SpriteEngine.Memory.Oam
import SpriteEngine.Memory.TileRam

/-!
# Video memory

The three memories of one display engine, and the operations on them in one place: object attribute
memory, 256 palette colors and tile RAM.
-/

namespace SpriteEngine

/-- Palette RAM: 256 colors, of which color 0 is never shown. -/
abbrev PaletteRam := Vector UInt16 256

/-- The color at an index. -/
def PaletteRam.color (ram : PaletteRam) (index : UInt8) : UInt16 :=
  ram.get ⟨index.toNat, index.toNat_lt⟩

/-- Replace the color at an index. -/
def PaletteRam.setColor (ram : PaletteRam) (index : UInt8) (color : UInt16) : PaletteRam :=
  ram.set index.toNat color index.toNat_lt

/-- The memories of one display engine. -/
structure VideoMemory where
  oam : Oam
  palette : PaletteRam
  tiles : TileRam
deriving DecidableEq

namespace VideoMemory

/-- Memories full of zeros, with room for the given number of tiles. -/
def blank (units : Nat) : VideoMemory :=
  ⟨.blank, Vector.replicate 256 0, .blank units⟩

/-- Write the words of a descriptor. -/
def writeDescriptor (m : VideoMemory) (slot : Nat) (w : Words) : Checked VideoMemory := do
  return { m with oam := ← m.oam.write slot w }

/-- Write the linear map of an affine group. -/
def writeAffine (m : VideoMemory) (group : Nat) (a : AffineMatrix) : Checked VideoMemory := do
  return { m with oam := ← m.oam.writeAffine group a }

/-- Write a palette color. -/
def writeColor (m : VideoMemory) (index : UInt8) (color : UInt16) : VideoMemory :=
  { m with palette := m.palette.setColor index color }

/-- Transfer words into tile RAM. -/
def copyWords (m : VideoMemory) (dest : Nat) (words : List UInt32) :
    Except TransferError VideoMemory := do
  return { m with tiles := ← m.tiles.copyWords dest words }

end VideoMemory

end SpriteEngine
