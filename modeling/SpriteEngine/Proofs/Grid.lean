import Mathlib.Data.List.Basic
import SpriteEngine.Texture

/-!
# Cells, tiles and pixels

The arithmetic of grids. A tile of a picture is in one cell, at a place inside of that cell
(`Grid.place_lt`), and every place of a cell is a tile of the picture (`Grid.tile_lt`). Cell `k` is
the one at column `k % columns` and row `k / columns` (`Grid.getElem?_sizes`), and the object that
shows it is large enough (`Grid.cellWidth_le`, `Grid.cellHeight_le`).

Tables stored row by row are addressed by `row * width + column`; `rowMajor_lt` and `rowMajor_inj`
are the two facts about such addresses. `Texture.tile_spec` uses the first: the tiles of a frame are
in the pixel data.
-/

namespace SpriteEngine

/-! ### Addresses row by row -/

/-- A place in a rectangle has a number below its area. -/
theorem rowMajor_lt {width height x y : Nat} (hx : x < width) (hy : y < height) :
    y * width + x < height * width := by
  calc y * width + x < y * width + width := Nat.add_lt_add_left hx _
    _ = (y + 1) * width := (Nat.succ_mul y width).symm
    _ ≤ height * width := Nat.mul_le_mul_right width hy

/-- Places are counted row by row, and no two have the same number. -/
theorem rowMajor_inj {width x y x' y' : Nat} (hx : x < width) (hx' : x' < width)
    (h : y * width + x = y' * width + x') : x = x' ∧ y = y' := by
  have hpos : 0 < width := Nat.zero_lt_of_lt hx
  have hmod := congrArg (· % width) h
  have hdiv := congrArg (· / width) h
  simp only [Nat.mul_add_mod_self_right, Nat.mod_eq_of_lt hx, Nat.mod_eq_of_lt hx'] at hmod
  simp only [Nat.mul_comm _ width, Nat.mul_add_div hpos, Nat.div_eq_of_lt hx,
    Nat.div_eq_of_lt hx', Nat.add_zero] at hdiv
  exact ⟨hmod, hdiv⟩

theorem rowMajor_mod {width x : Nat} (hx : x < width) (y : Nat) : (y * width + x) % width = x := by
  rw [Nat.add_comm, Nat.add_mul_mod_self_right, Nat.mod_eq_of_lt hx]

theorem rowMajor_div {width x : Nat} (hx : x < width) (y : Nat) : (y * width + x) / width = y := by
  rw [Nat.add_comm, Nat.add_mul_div_right _ _ (Nat.zero_lt_of_lt hx), Nat.div_eq_of_lt hx,
    Nat.zero_add]

/-- A list made row by row, as a list over the numbers of the places. -/
private theorem flatMap_range_map {α : Type} (f : Nat → Nat → α) (width height : Nat) :
    ((List.range height).flatMap fun y => (List.range width).map fun x => f x y) =
      (List.range (height * width)).map fun k => f (k % width) (k / width) := by
  induction height with
  | zero => simp
  | succ y ih =>
    rw [List.range_succ, List.flatMap_append, ih, Nat.succ_mul, List.range_add, List.map_append,
      List.map_map]
    congr 1
    rw [List.flatMap_singleton]
    refine List.map_congr_left fun x hx => ?_
    rw [List.mem_range] at hx
    have hpos : 0 < width := Nat.zero_lt_of_lt hx
    rw [Function.comp_apply, Nat.mul_add_mod_self_right, Nat.mod_eq_of_lt hx, Nat.mul_comm y,
      Nat.mul_add_div hpos, Nat.div_eq_of_lt hx, Nat.add_zero]

/-! ### Object sizes -/

/-- An object that covers a cell is at least as large. -/
private theorem ObjectSize.le_cover {width height : Nat} (hw : width ≤ 8) (hh : height ≤ 8) :
    width ≤ (cover width height).widthTiles ∧ height ≤ (cover width height).heightTiles := by
  have hall : ∀ w < 9, ∀ h < 9, w ≤ (cover w h).widthTiles ∧ h ≤ (cover w h).heightTiles := by
    decide +kernel
  exact hall width (by omega) height (by omega)

namespace Grid

variable {g : Grid}

/-! ### Cells along an edge -/

section Edge

variable {tiles x i : Nat}

theorem cellEdge_le (tiles i : Nat) : cellEdge tiles i ≤ 8 := by
  rw [cellEdge, cellsAlong]
  split <;> omega

/-- A tile along the edge is inside of its cell. -/
theorem place_lt (hx : x < tiles) : x / 8 < cellsAlong tiles ∧ x % 8 < cellEdge tiles (x / 8) := by
  rw [cellEdge, cellsAlong]
  constructor
  · omega
  · split <;> omega

/-- What is inside of a cell is a tile along the edge. -/
theorem tile_lt (hi : i < cellsAlong tiles) (hx : x < cellEdge tiles i) : i * 8 + x < tiles := by
  rw [cellEdge, cellsAlong] at *
  split at hx <;> omega

end Edge

/-! ### Cells of the grid -/

theorem cellWidth_le (g : Grid) (column row : Nat) :
    g.cellWidth column ≤ (g.cellSize column row).widthTiles :=
  (ObjectSize.le_cover (cellEdge_le ..) (cellEdge_le ..)).1

theorem cellHeight_le (g : Grid) (column row : Nat) :
    g.cellHeight row ≤ (g.cellSize column row).heightTiles :=
  (ObjectSize.le_cover (cellEdge_le ..) (cellEdge_le ..)).2

/-- The cells are numbered row by row. -/
theorem sizes_eq (g : Grid) : g.sizes =
    (List.range (g.rows * g.columns)).map fun k => g.cellSize (k % g.columns) (k / g.columns) :=
  flatMap_range_map (fun column row => g.cellSize column row) g.columns g.rows

theorem length_sizes (g : Grid) : g.sizes.length = g.rows * g.columns := by
  rw [sizes_eq, List.length_map, List.length_range]

/-- The size of cell `k`, which is a cell of the grid. -/
theorem getElem?_sizes {k : Nat} {size : ObjectSize} (h : g.sizes[k]? = some size) :
    k % g.columns < g.columns ∧ k / g.columns < g.rows ∧
      size = g.cellSize (k % g.columns) (k / g.columns) := by
  obtain ⟨hk, hsize⟩ := List.getElem?_eq_some_iff.mp h
  rw [length_sizes] at hk
  have hpos : 0 < g.columns := Nat.pos_of_mul_pos_left (Nat.zero_lt_of_lt hk)
  refine ⟨Nat.mod_lt k hpos, (Nat.div_lt_iff_lt_mul hpos).mpr hk, ?_⟩
  simp only [sizes_eq, List.getElem_map, List.getElem_range] at hsize
  exact hsize.symm

end Grid

namespace Texture

variable (t : Texture)

theorem tilesAlong_pos {px : UInt16} (h : px ≠ 0) : 0 < tilesAlong px := by
  have h0 : px.toNat ≠ 0 := fun h0 => h (UInt16.toNat_inj.mp h0)
  rw [tilesAlong]
  omega

/-- A texture has at least one cell. -/
theorem columns_pos : 0 < t.grid.columns := by
  have := tilesAlong_pos t.width_ne_zero
  change 0 < (tilesAlong t.width + 7) / 8
  omega

theorem rows_pos : 0 < t.grid.rows := by
  have := tilesAlong_pos t.height_ne_zero
  change 0 < (tilesAlong t.height + 7) / 8
  omega

theorem position_eq (k : Nat) :
    t.grid.position k = .ok (k % t.grid.columns, k / t.grid.columns) :=
  if_neg (Nat.pos_iff_ne_zero.mp t.columns_pos)

/-- The tiles are counted frame by frame, and row by row in each frame. -/
theorem tileIndex_eq (frame x y : Nat) : t.tileIndex frame x y =
    frame * (t.tilesHigh * t.tilesWide) + (y * t.tilesWide + x) := by
  rw [tileIndex, Nat.mul_assoc, Nat.mul_comm t.tilesWide t.tilesHigh, Nat.add_assoc]

/-- The size of the pixel data, with the tiles in the order of their places. -/
theorem size_pixels_eq : t.pixels.size = t.frames * (t.tilesHigh * t.tilesWide) * 64 := by
  rw [t.size_pixels]
  change t.tilesWide * t.tilesHigh * 64 * t.frames = _
  ac_rfl

/-- The tiles of a frame are in the pixel data. -/
theorem tileIndex_lt {frame x y : Nat} (hf : frame < t.frames) (hx : x < t.tilesWide)
    (hy : y < t.tilesHigh) : (t.tileIndex frame x y + 1) * 64 ≤ t.pixels.size := by
  have hrow : y * t.tilesWide + x < t.tilesHigh * t.tilesWide := rowMajor_lt hx hy
  have hframe := rowMajor_lt hrow hf
  rw [size_pixels_eq, tileIndex_eq]
  exact Nat.mul_le_mul_right 64 hframe

/-- Reading a tile of a frame. -/
theorem tile_spec {frame x y : Nat} (hf : frame < t.frames) (hx : x < t.tilesWide)
    (hy : y < t.tilesHigh) : ∃ pixels, t.tile frame x y = .ok pixels ∧ pixels.size = 64 ∧
      ∀ i, i < 64 → pixels[i]? = t.pixels[t.tileIndex frame x y * 64 + i]? := by
  have hle := t.tileIndex_lt hf hx hy
  refine ⟨_, if_pos (by omega), ?_, fun i hi => ?_⟩
  · rw [Array.size_extract]
    omega
  · rw [Array.getElem?_extract, if_pos (by omega)]

end Texture

end SpriteEngine
