/-!
# Why an operation fails

A failure is an answer: the operation was refused, and its cause is one of the constructors below.
The wording of each cause stands in one place, its `message`.

* `TransferError`: a transfer into tile RAM does not fit.
* `PoolError`: an operation on a sprite, or on one of the pools, is refused.
* `TextureError`: the parts of a texture do not fit together.
-/

namespace SpriteEngine

/-- Why a transfer into tile RAM is refused. -/
inductive TransferError where
  /-- The first tile of the destination does not exist. -/
  | invalidOffset
  /-- The data is no whole number of tiles, or runs past the end of tile RAM. -/
  | invalidSize
deriving DecidableEq, Repr

/-- The text of a transfer error. -/
def TransferError.message : TransferError → String
  | .invalidOffset => "VRAMError: Destination is outside of tile memory"
  | .invalidSize => "VRAMError: Transfer doesn't fit into tile memory"

/-- Why an operation on a sprite or a pool is refused. -/
inductive PoolError where
  /-- The sprite already holds hardware resources. -/
  | alreadyLoaded
  /-- The sprite holds no hardware resources. -/
  | notLoaded
  /-- Every descriptor slot is in use. -/
  | outOfSlots
  /-- No free zone of tile memory is long enough. -/
  | outOfTiles
  /-- The color is not stored, and every palette entry is referenced. -/
  | outOfColors
  /-- The texture has no frame of that number. -/
  | invalidFrame (frame count : Nat)
  /-- A range of tiles is empty. -/
  | emptyRange
  /-- No sprite is registered under the identifier. -/
  | unknownSprite
  /-- The pixels could not be transferred into tile RAM. -/
  | transfer (cause : TransferError)
deriving DecidableEq, Repr

/-- The text of a pool error. -/
def PoolError.message : PoolError → String
  | .alreadyLoaded => "OamError: Sprite is already loaded"
  | .notLoaded => "OamError: Sprite is not loaded"
  | .outOfSlots => "OamError: Can't create sprite because OAM is full"
  | .outOfTiles =>
    "OamError: No contiguous free block of tile memory available to allocate hardware sprite"
  | .outOfColors => "OamError: No matching or unreferenced palette slot available"
  | .invalidFrame frame count =>
    s!"OamError: Frame {frame} is out of range (texture has {count} frames)"
  | .emptyRange => "OamError: Tile ranges must not be empty"
  | .unknownSprite => "OamError: No sprite registered under that ID"
  | .transfer cause => "OamError: Tile upload failed: " ++ cause.message

/-- Why the parts of a texture do not fit together. -/
inductive TextureError where
  /-- The pixel data has the wrong length. -/
  | dataLength (expected actual : Nat)
  /-- There are more colors than a palette has entries. -/
  | tooManyColors (count : Nat)
  /-- The texture has no pixels or no frames. -/
  | empty
deriving DecidableEq, Repr

/-- The text of a texture error. -/
def TextureError.message : TextureError → String
  | .dataLength expected actual =>
    s!"TextureError: Expected {expected} bytes of tile data, got {actual}"
  | .tooManyColors count => s!"TextureError: {count} colors don't fit into a 255 entry palette"
  | .empty => "TextureError: Texture has no pixels or no frames"

end SpriteEngine
