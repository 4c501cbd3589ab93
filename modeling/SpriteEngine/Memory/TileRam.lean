import SpriteEngine.Failure

/-!
# Tile RAM

`TileRam` holds the pixels of all objects, 64 bytes for each tile. It is read tile by tile
(`TileRam.tiles?`) and filled by transfers of whole tiles (`TileRam.copy`), which are refused if
they do not fit. Transfers move 32-bit words, the lowest byte first (`TileRam.copyWords`).
-/

namespace SpriteEngine

/-- Write bytes into a buffer, from position `pos` on. Bytes past its end are lost. -/
def overwriteBytes (buffer : Array UInt8) (pos : Nat) : List UInt8 → Array UInt8
  | [] => buffer
  | b :: bs => overwriteBytes (buffer.setIfInBounds pos b) (pos + 1) bs

@[simp] theorem size_overwriteBytes (buffer : Array UInt8) (pos : Nat) (bs : List UInt8) :
    (overwriteBytes buffer pos bs).size = buffer.size := by
  induction bs generalizing buffer pos with
  | nil => rfl
  | cons b bs ih => simp [overwriteBytes, ih]

/-- The bytes of a word, lowest first. -/
def wordBytes (w : UInt32) : List UInt8 :=
  [w.toUInt8, (w >>> 8).toUInt8, (w >>> 16).toUInt8, (w >>> 24).toUInt8]

/-- The memory that holds the pixels of objects. -/
structure TileRam where
  bytes : Array UInt8
deriving DecidableEq

namespace TileRam

/-- Memory for the given number of tiles, full of zeros. -/
def blank (units : Nat) : TileRam :=
  ⟨Array.replicate (64 * units) 0⟩

/-- The bytes of `count` tiles from tile `start` on, if all of them exist. -/
def tiles? (ram : TileRam) (start count : Nat) : Option (Array UInt8) :=
  if 64 * (start + count) ≤ ram.bytes.size then
    some (ram.bytes.extract (64 * start) (64 * (start + count)))
  else
    none

/-- Transfer whole tiles to tile `dest` and the tiles after it. -/
def copy (ram : TileRam) (dest : Nat) (data : List UInt8) : Except TransferError TileRam :=
  if ram.bytes.size ≤ 64 * dest then
    .error .invalidOffset
  else if data.length % 64 ≠ 0 ∨ ram.bytes.size < 64 * dest + data.length then
    .error .invalidSize
  else
    .ok ⟨overwriteBytes ram.bytes (64 * dest) data⟩

/-- Transfer words to tile `dest` and the tiles after it. -/
def copyWords (ram : TileRam) (dest : Nat) (words : List UInt32) : Except TransferError TileRam :=
  ram.copy dest (words.flatMap wordBytes)

end TileRam

end SpriteEngine
