import Mathlib.Order.Interval.Finset.Nat
import SpriteEngine.Proofs.Grid

/-!
# The tiles of a texture

The pixels of a texture are stored in one sequence: frame by frame, in each frame row by row, in
each row tile by tile. A tile is named by its frame, column and row (`Texture.TilePlace`), and its
`window` is where its 64 bytes are. Reading checks no more than the end of the sequence, so a wrong
stride would show a neighbour and not fail. The windows are where they should be because counting
the tiles is a bijection: `TilePlace.ofIndex` takes a number apart again by division, and places
with the same number are the same (`TilePlace.ext_index`).

The numbers on the way to an address are products of up to four numbers. They are far below the
word of 64 bits that they are computed in (`Texture.SizeFits`, `TilePlace.addressFits`).
-/

namespace SpriteEngine

namespace Texture

/-! ### Sizes -/

/-- The numbers on the way to the size of the pixel data fit the words in which they are computed:
32 and 16 bits for an edge, 64 bits for the products. -/
structure SizeFits (width height frameCount : UInt16) : Prop where
  columns : width.toNat + 7 < 2 ^ 32 ∧ tilesAlong width < 2 ^ 16
  rows : height.toNat + 7 < 2 ^ 32 ∧ tilesAlong height < 2 ^ 16
  tiles : tilesAlong width * tilesAlong height < 2 ^ 64
  frame : tilesAlong width * tilesAlong height * 64 < 2 ^ 64
  all : tilesAlong width * tilesAlong height * 64 * frameCount.toNat < 2 ^ 64

/-- An edge in pixels has 16 bits, so there are few tiles along it. -/
private theorem tilesAlong_le (px : UInt16) : tilesAlong px ≤ 2 ^ 13 := by
  have hlt := px.toNat_lt
  rw [tilesAlong]
  omega

/-- No product on the way to the size of a texture is out of range. -/
theorem sizeFits (width height frameCount : UInt16) : SizeFits width height frameCount := by
  have hw := tilesAlong_le width
  have hh := tilesAlong_le height
  have hf := frameCount.toNat_lt
  have hwidth := width.toNat_lt
  have hheight := height.toNat_lt
  have htiles : tilesAlong width * tilesAlong height ≤ 2 ^ 13 * 2 ^ 13 := Nat.mul_le_mul hw hh
  have hall : tilesAlong width * tilesAlong height * 64 * frameCount.toNat ≤
      2 ^ 13 * 2 ^ 13 * 64 * 2 ^ 16 :=
    Nat.mul_le_mul (Nat.mul_le_mul_right 64 htiles) (Nat.le_of_lt hf)
  exact ⟨by omega, by omega, by omega, by omega, by omega⟩

private theorem create_self (t : Texture) :
    create t.width t.height t.frameCount t.colors t.pixels = .ok t := by
  rw [create, dif_neg t.width_ne_zero, dif_neg t.height_ne_zero, dif_neg t.frameCount_ne_zero,
    dif_pos t.length_colors_le]
  exact dif_pos t.size_pixels

/-- A texture is made of the parts that it is created from. -/
private theorem create_parts {width height frameCount : UInt16} {colors : List UInt16}
    {pixels : Array UInt8} {t : Texture}
    (h : create width height frameCount colors pixels = .ok t) :
    t.width = width ∧ t.height = height ∧ t.frameCount = frameCount ∧ t.colors = colors ∧
      t.pixels = pixels := by
  rw [create] at h
  dsimp only at h
  split_ifs at h
  obtain rfl := Except.ok.inj h
  exact ⟨rfl, rfl, rfl, rfl, rfl⟩

/-- What it takes to make a texture. Of the colors and the pixels only the number is checked. -/
theorem exists_create_iff {width height frameCount : UInt16} {colors : List UInt16}
    {pixels : Array UInt8} : (∃ t, create width height frameCount colors pixels = .ok t) ↔
      width ≠ 0 ∧ height ≠ 0 ∧ frameCount ≠ 0 ∧ colors.length ≤ 255 ∧
        pixels.size = tilesAlong width * tilesAlong height * frameCount.toNat * 64 := by
  rw [Nat.mul_right_comm _ _ 64]
  constructor
  · rintro ⟨t, ht⟩
    obtain ⟨rfl, rfl, rfl, rfl, rfl⟩ := create_parts ht
    exact ⟨t.width_ne_zero, t.height_ne_zero, t.frameCount_ne_zero, t.length_colors_le,
      t.size_pixels⟩
  · rintro ⟨hwidth, hheight, hframes, hcolors, hpixels⟩
    exact ⟨_, create_self ⟨width, height, frameCount, colors, pixels, hwidth, hheight, hframes,
      hcolors, hpixels⟩⟩

/-! ### Places -/

/-- The place of a tile: its frame, and its column and row there. -/
@[ext] structure TilePlace (t : Texture) where
  frame : Nat
  column : Nat
  row : Nat
  frame_lt : frame < t.frames
  column_lt : column < t.tilesWide
  row_lt : row < t.tilesHigh

namespace TilePlace

variable {t : Texture}

/-- The number of the tile in the sequence of all tiles. -/
def index (p : t.TilePlace) : Nat :=
  t.tileIndex p.frame p.column p.row

/-- The bytes of the pixel data that the tile is made of. -/
def window (p : t.TilePlace) : Finset Nat :=
  Finset.Ico (p.index * 64) (p.index * 64 + 64)

/-- The window of a tile has the bytes of its index, 64 for each index. -/
theorem mem_window {p : t.TilePlace} {b : Nat} : b ∈ p.window ↔ b / 64 = p.index := by
  rw [window, Finset.mem_Ico]
  omega

/-- Tiles with the same number are the same. -/
theorem ext_index {p q : t.TilePlace} (h : p.index = q.index) : p = q := by
  rw [index, index, tileIndex_eq, tileIndex_eq] at h
  obtain ⟨hplace, hframe⟩ := rowMajor_inj (rowMajor_lt p.column_lt p.row_lt)
    (rowMajor_lt q.column_lt q.row_lt) h
  obtain ⟨hcolumn, hrow⟩ := rowMajor_inj p.column_lt q.column_lt hplace
  exact TilePlace.ext hframe hcolumn hrow

/-- The tile with the given number. -/
def ofIndex (t : Texture) (i : Nat) (h : i < t.frames * (t.tilesHigh * t.tilesWide)) :
    t.TilePlace where
  frame := i / (t.tilesHigh * t.tilesWide)
  column := i % (t.tilesHigh * t.tilesWide) % t.tilesWide
  row := i % (t.tilesHigh * t.tilesWide) / t.tilesWide
  frame_lt := Nat.div_lt_of_lt_mul (Nat.lt_of_lt_of_eq h (Nat.mul_comm ..))
  column_lt := Nat.mod_lt _ (tilesAlong_pos t.width_ne_zero)
  row_lt := Nat.div_lt_of_lt_mul (Nat.lt_of_lt_of_eq
    (Nat.mod_lt _ (Nat.mul_pos (tilesAlong_pos t.height_ne_zero) (tilesAlong_pos t.width_ne_zero)))
    (Nat.mul_comm ..))

private theorem index_ofIndex {i : Nat} (h : i < t.frames * (t.tilesHigh * t.tilesWide)) :
    (ofIndex t i h).index = i := by
  rw [index, tileIndex_eq, ofIndex, Nat.div_add_mod', Nat.div_add_mod']

/-- Every byte is in the window of exactly one tile. -/
theorem existsUnique_mem_window {b : Nat} (hb : b < t.pixels.size) :
    ∃! p : t.TilePlace, b ∈ p.window := by
  rw [t.size_pixels_eq] at hb
  refine ⟨ofIndex t (b / 64) (Nat.div_lt_of_lt_mul (Nat.lt_of_lt_of_eq hb (Nat.mul_comm ..))), ?_,
    fun p hp => ?_⟩
  · exact mem_window.mpr (index_ofIndex _).symm
  · refine ext_index ?_
    rw [index_ofIndex, mem_window.mp hp]

/-- The windows are inside of the pixel data. -/
theorem window_subset (p : t.TilePlace) : p.window ⊆ Finset.range t.pixels.size := by
  intro b hb
  have hle := t.tileIndex_lt p.frame_lt p.column_lt p.row_lt
  have hindex := mem_window.mp hb
  rw [index] at hindex
  rw [Finset.mem_range]
  omega

/-- No two tiles share a byte. -/
theorem disjoint_window {p q : t.TilePlace} (h : p ≠ q) : Disjoint p.window q.window := by
  refine Finset.disjoint_left.mpr fun b hp hq => h ?_
  exact (existsUnique_mem_window (Finset.mem_range.mp (p.window_subset hp))).unique hp hq

/-- The numbers on the way to the address of a tile fit into 64 bits. -/
structure AddressFits (p : t.TilePlace) : Prop where
  row : p.frame * t.tilesWide < 2 ^ 64
  frame : p.frame * t.tilesWide * t.tilesHigh < 2 ^ 64
  column : p.row * t.tilesWide < 2 ^ 64
  stop : p.index * 64 + 64 < 2 ^ 64

/-- No product on the way to the address of a tile is out of range. -/
theorem addressFits (p : t.TilePlace) : p.AddressFits := by
  have hstop := t.tileIndex_lt p.frame_lt p.column_lt p.row_lt
  have hall := (sizeFits t.width t.height t.frameCount).all
  rw [← t.size_pixels] at hall
  have hrow : p.frame * t.tilesWide ≤ p.frame * t.tilesWide * t.tilesHigh :=
    Nat.le_mul_of_pos_right _ (tilesAlong_pos t.height_ne_zero)
  have hindex : p.index = p.frame * t.tilesWide * t.tilesHigh + p.row * t.tilesWide + p.column :=
    rfl
  rw [← index] at hstop
  exact ⟨by omega, by omega, by omega, by omega⟩

end TilePlace

/-! ### Creating and reading -/

/-- A texture is created exactly if it has pixels, frames, no more than 255 colors and 64 bytes for
each tile of each frame, and none of the numbers that this takes overflows. Each of its tiles can be
read and has 64 bytes, which are those of its window. The windows of different tiles are disjoint,
and every byte is in exactly one of them. -/
theorem create_partitions_pixels (width height frameCount : UInt16) (colors : List UInt16)
    (pixels : Array UInt8) :
    SizeFits width height frameCount ∧
    ((∃ t, create width height frameCount colors pixels = .ok t) ↔
      width ≠ 0 ∧ height ≠ 0 ∧ frameCount ≠ 0 ∧ colors.length ≤ 255 ∧
        pixels.size = tilesAlong width * tilesAlong height * frameCount.toNat * 64) ∧
    ∀ t, create width height frameCount colors pixels = .ok t →
      (t.frames = frameCount.toNat ∧ t.tilesWide = tilesAlong width ∧
        t.tilesHigh = tilesAlong height) ∧
      (∀ p : t.TilePlace, p.AddressFits ∧ ∃ bytes,
        t.tile p.frame p.column p.row = .ok bytes ∧ bytes.size = 64 ∧
          ∀ i < 64, p.index * 64 + i ∈ p.window ∧ bytes[i]? = pixels[p.index * 64 + i]?) ∧
      (∀ p q : t.TilePlace, p ≠ q → Disjoint p.window q.window) ∧
      (∀ p : t.TilePlace, p.window ⊆ Finset.range pixels.size) ∧
      ∀ b < pixels.size, ∃! p : t.TilePlace, b ∈ p.window := by
  refine ⟨sizeFits .., exists_create_iff, fun t ht => ?_⟩
  obtain ⟨rfl, rfl, rfl, rfl, rfl⟩ := create_parts ht
  refine ⟨⟨rfl, rfl, rfl⟩, fun p => ⟨p.addressFits, ?_⟩, fun p q => TilePlace.disjoint_window,
    TilePlace.window_subset, fun b => TilePlace.existsUnique_mem_window⟩
  obtain ⟨bytes, hbytes, hsize, hpixels⟩ := t.tile_spec p.frame_lt p.column_lt p.row_lt
  refine ⟨bytes, hbytes, hsize, fun i hi => ⟨?_, hpixels i hi⟩⟩
  rw [TilePlace.mem_window]
  omega

/-- Two frames of 9×17 pixels, which are 2×3 tiles each. Byte 500 is in the second tile of the
second frame and in no other one. -/
theorem create_partitions_pixels_partialTiles :
    ∃ t, create 9 17 2 [] (Array.replicate 768 0) = .ok t ∧ ∃ p : t.TilePlace,
      (p.frame, p.column, p.row) = (1, 1, 0) ∧ 500 ∈ p.window ∧ ∀ q, 500 ∈ q.window → q = p := by
  obtain ⟨-, hcreate, hall⟩ := create_partitions_pixels 9 17 2 [] (Array.replicate 768 0)
  obtain ⟨t, ht⟩ := hcreate.mpr (by simp [tilesAlong])
  obtain ⟨⟨hframes, hwide, hhigh⟩, -, -, -, hbytes⟩ := hall t ht
  obtain ⟨p₀, -, hunique⟩ := hbytes 500 (by simp)
  let p : t.TilePlace := ⟨1, 1, 0, by simp [hframes], by simp [hwide, tilesAlong],
    by simp [hhigh, tilesAlong]⟩
  have hp : 500 ∈ p.window := by
    rw [TilePlace.mem_window, TilePlace.index, tileIndex, hwide, hhigh]
    rfl
  exact ⟨t, ht, p, rfl, hp, fun q hq => (hunique q hq).trans (hunique p hp).symm⟩

end Texture

end SpriteEngine
