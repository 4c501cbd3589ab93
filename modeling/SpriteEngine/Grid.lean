import SpriteEngine.Fault
import SpriteEngine.ObjectSize

/-!
# Grids of objects

An object has at most 8×8 tiles, so a larger picture is cut into a grid of cells. Every cell has 8×8
tiles, except that the last column and the last row have what is left. The cells are numbered row by
row, and each is shown by the smallest object that covers it.
-/

namespace SpriteEngine

/-- A picture of the given size in tiles, cut into cells. -/
structure Grid where
  width : Nat
  height : Nat
deriving DecidableEq, Repr

namespace Grid

/-- The number of cells along an edge of the given number of tiles. -/
def cellsAlong (tiles : Nat) : Nat :=
  (tiles + 7) / 8

/-- How many of the tiles along an edge are in cell `i`. -/
def cellEdge (tiles i : Nat) : Nat :=
  if i + 1 = cellsAlong tiles then tiles - (cellsAlong tiles - 1) * 8 else 8

/-- The number of columns. -/
def columns (g : Grid) : Nat :=
  cellsAlong g.width

/-- The number of rows. -/
def rows (g : Grid) : Nat :=
  cellsAlong g.height

/-- The width in tiles of the cells of a column. -/
def cellWidth (g : Grid) (column : Nat) : Nat :=
  cellEdge g.width column

/-- The height in tiles of the cells of a row. -/
def cellHeight (g : Grid) (row : Nat) : Nat :=
  cellEdge g.height row

/-- The size of the object that shows a cell. -/
def cellSize (g : Grid) (column row : Nat) : ObjectSize :=
  .cover (g.cellWidth column) (g.cellHeight row)

/-- The object sizes of all cells, row by row. -/
def sizes (g : Grid) : List ObjectSize :=
  (List.range g.rows).flatMap fun row =>
    (List.range g.columns).map fun column => g.cellSize column row

/-- Column and row of the cell with number `i`. -/
def position (g : Grid) (i : Nat) : Checked (Nat × Nat) :=
  if g.columns = 0 then .error .divisionByZero else .ok (i % g.columns, i / g.columns)

end Grid

end SpriteEngine
