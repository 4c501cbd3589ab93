import SpriteEngine.Fixed
import SpriteEngine.ObjectSize

/-!
# Descriptors

Object attribute memory describes an object by three 16-bit words and a linear map by four. This
module gives the records and their words:

* `Attributes` is everything a descriptor can say, `Attributes.encode` packs it into `Words`, and
  `Words.decode` reads it back.
* `AffineMatrix` is the map from screen to texture space; `AffineMatrix.ofScale` is the one for a
  pure scaling.

The fields of a word occupy disjoint ranges of bits, so a word is the sum of its shifted fields:

| word | field, and its lowest bit |
|---|---|
| `attr0` | row 0, affine 8, disabled 9, 256 colors 13, shape 14 |
| `attr1` | column 0, affine group 9, size 14 |
| `attr2` | first tile 0, priority 10 |
-/

namespace SpriteEngine

/-- The three words of a descriptor. -/
structure Words where
  attr0 : UInt16
  attr1 : UInt16
  attr2 : UInt16
deriving DecidableEq, Repr

/-- The words of an object that is not shown: nothing but the disable bit. -/
def Words.hidden : Words :=
  ⟨512, 0, 0⟩

/-- What a descriptor says about an object. Fields may be wider than their place in the words. -/
structure Attributes where
  y : UInt8 := 0
  x : UInt16 := 0
  affineIndex : Option UInt8 := none
  disabled : Bool := false
  color256 : Bool := false
  shape : Shape := .square
  size : Fin 4 := ObjectSize.tile.size
  tileStart : UInt16 := 0
  priority : UInt8 := 0
deriving DecidableEq, Repr

namespace Attributes

/-- Give the object a size. -/
def withSize (a : Attributes) (s : ObjectSize) : Attributes :=
  { a with shape := s.shape, size := s.size }

/-- Put the object on a layer. Only the lowest two bits of the layer count. -/
def withLayer (a : Attributes) (layer : UInt8) : Attributes :=
  { a with priority := layer % 4 }

/-- Pack a record into its words. Of each field only the bits that have a place are kept. -/
def encode (a : Attributes) : Words where
  attr0 := .ofNat (a.y.toNat + 256 * a.affineIndex.isSome.toNat + 512 * a.disabled.toNat
    + 8192 * a.color256.toNat + 16384 * a.shape.code)
  attr1 := .ofNat (a.x.toNat % 512 + 512 * (a.affineIndex.elim 0 fun i => i.toNat % 32)
    + 16384 * a.size.val)
  attr2 := .ofNat (a.tileStart.toNat % 1024 + 1024 * (a.priority.toNat % 4))

end Attributes

/-- Whether a bit of a word is set. -/
def Words.bit (w : UInt16) (i : Nat) : Bool :=
  w.toNat.testBit i

/-- Read a record off its words. Bits without a meaning are dropped. -/
def Words.decode (w : Words) : Attributes where
  y := .ofNat (w.attr0.toNat % 256)
  x := .ofNat (w.attr1.toNat % 512)
  affineIndex := if bit w.attr0 8 then some (.ofNat (w.attr1.toNat / 512 % 32)) else none
  disabled := bit w.attr0 9
  color256 := bit w.attr0 13
  shape := .ofCode (w.attr0.toNat / 16384)
  size := ⟨w.attr1.toNat / 16384 % 4, Nat.mod_lt _ (by decide)⟩
  tileStart := .ofNat (w.attr2.toNat % 1024)
  priority := .ofNat (w.attr2.toNat / 1024 % 4)

/-- A linear map with entries of 8 fraction bits. -/
structure AffineMatrix where
  pa : UInt16
  pb : UInt16
  pc : UInt16
  pd : UInt16
deriving DecidableEq, Repr

/-- The map for a scaling. The hardware maps the screen to the texture, so the diagonal holds the
reciprocals of the scales. -/
def AffineMatrix.ofScale (x y : Fixed) : AffineMatrix :=
  ⟨x.reciprocal, 0, 0, y.reciprocal⟩

end SpriteEngine
