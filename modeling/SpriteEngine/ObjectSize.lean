/-!
# The sizes of a hardware object

An object is a rectangle of 8×8 pixel tiles. The hardware knows three shapes (`Shape`) with four
sizes each, so there are twelve object sizes (`ObjectSize`), all with edges of 1, 2, 4 or 8 tiles.

* `ObjectSize.widthTiles` and `ObjectSize.heightTiles` are the table of edges.
* `ObjectSize.ofTiles?` finds the size with exactly the given edges.
* `ObjectSize.cover` rounds a rectangle of at most 8×8 tiles up to an object size.
-/

namespace SpriteEngine

/-- The outline of an object: a square, or a rectangle that is longer in one direction. -/
inductive Shape where
  | square
  | horizontal
  | vertical
deriving DecidableEq, Repr

/-- The two-bit code of a shape in a descriptor. The code 3 stands for no shape. -/
def Shape.code : Shape → Nat
  | .square => 0
  | .horizontal => 1
  | .vertical => 2

/-- The shape with the given code; a code that stands for no shape reads as a square. -/
def Shape.ofCode : Nat → Shape
  | 1 => .horizontal
  | 2 => .vertical
  | _ => .square

/-- One of the twelve object sizes: a shape and one of its four sizes. -/
structure ObjectSize where
  shape : Shape
  size : Fin 4
deriving DecidableEq, Repr

namespace ObjectSize

/-- The edge of the square of the given size, in tiles. -/
def squareEdge : Fin 4 → Nat
  | 0 => 1
  | 1 => 2
  | 2 => 4
  | 3 => 8

/-- The longer edge of a rectangle of the given size, in tiles. -/
def longEdge : Fin 4 → Nat
  | 0 => 2
  | 1 => 4
  | 2 => 4
  | 3 => 8

/-- The shorter edge of a rectangle of the given size, in tiles. -/
def shortEdge : Fin 4 → Nat
  | 0 => 1
  | 1 => 1
  | 2 => 2
  | 3 => 4

/-- The width of an object in tiles. -/
def widthTiles : ObjectSize → Nat
  | ⟨.square, k⟩ => squareEdge k
  | ⟨.horizontal, k⟩ => longEdge k
  | ⟨.vertical, k⟩ => shortEdge k

/-- The height of an object in tiles. -/
def heightTiles : ObjectSize → Nat
  | ⟨.square, k⟩ => squareEdge k
  | ⟨.horizontal, k⟩ => shortEdge k
  | ⟨.vertical, k⟩ => longEdge k

/-- The number of tiles of an object. -/
def tiles (s : ObjectSize) : Nat :=
  s.widthTiles * s.heightTiles

/-- The pixel data of an object in bytes: a tile has 64 pixels of one byte. -/
def bytes (s : ObjectSize) : Nat :=
  s.tiles * 64

/-- The width of an object in pixels. -/
def widthPx (s : ObjectSize) : Nat :=
  s.widthTiles * 8

/-- The height of an object in pixels. -/
def heightPx (s : ObjectSize) : Nat :=
  s.heightTiles * 8

/-- The smallest object, a single tile. -/
def tile : ObjectSize :=
  ⟨.square, 0⟩

/-- The largest object, 8×8 tiles. -/
def full : ObjectSize :=
  ⟨.square, 3⟩

/-- All twelve object sizes. -/
def all : List ObjectSize :=
  [Shape.square, .horizontal, .vertical].flatMap fun shape =>
    [0, 1, 2, 3].map fun size => ⟨shape, size⟩

/-- The object size with exactly these edges, if there is one. -/
def ofTiles? (width height : Nat) : Option ObjectSize :=
  all.find? fun s => s.widthTiles == width && s.heightTiles == height

/-- Round an edge up to 1, 2, 4 or 8 tiles. Edges beyond 8 tiles become 8. -/
def roundEdge (n : Nat) : Nat :=
  if 4 < n then 8 else if 2 < n then 4 else if 1 < n then 2 else 1

/-- The object size for a rectangle: both edges are rounded up, and next to an edge of 8 tiles the
other edge is at least 4, because the hardware has no longer rectangles. -/
def cover (width height : Nat) : ObjectSize :=
  let w := roundEdge width
  let h := roundEdge height
  let h := if w = 8 ∧ h < 8 then 4 else h
  let w := if h = 8 ∧ w < 8 then 4 else w
  (ofTiles? w h).getD full

/-- The name of an edge, by its length in pixels. -/
def edgeName : Nat → String
  | 1 => "Eight"
  | 2 => "Sixteen"
  | 4 => "ThirtyTwo"
  | _ => "SixtyFour"

/-- The name of an object size: width by height, in pixels. -/
def name (s : ObjectSize) : String :=
  edgeName s.widthTiles ++ "By" ++ edgeName s.heightTiles

end ObjectSize

end SpriteEngine
