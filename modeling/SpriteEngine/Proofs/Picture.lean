import SpriteEngine.Engine.Frame
import SpriteEngine.Proofs.Grid
import SpriteEngine.Proofs.Slots

/-!
# Pictures in tile RAM

`Texture.Shows` says byte by byte what the tiles of an object hold while they show one cell of a
frame: the pixels of the cell, renamed to palette indices and laid out in rows as wide as the
object, and zeros wherever the cell does not reach. `Texture.cellImage_spec` says that the image
prepared for a cell is of this kind, and that preparing it reads and writes inside of its buffers.

`Engine.uploadCells_spec` is about all cells of a frame. As objects have tiles of their own, each
cell stays as it was uploaded while the others follow, and no byte of any other tile changes.
-/

namespace SpriteEngine

namespace Texture

variable {t : Texture} {frame column row : Nat} {size : ObjectSize} {colors : List UInt8}

/-- The tile of the cell at column `x` and row `y` has its pixels, in rows as wide as the object. -/
def HasTile (t : Texture) (frame column row : Nat) (size : ObjectSize) (colors : List UInt8)
    (image : Array UInt8) (x y : Nat) : Prop :=
  ∀ i < 64, image[64 * (y * size.widthTiles + x) + i]? =
    t.pixels[t.tileIndex frame (column * 8 + x) (row * 8 + y) * 64 + i]?.map
      (paletteIndex colors.toArray)

/-- The image is transparent where the cell does not reach. -/
def IsClear (t : Texture) (column row : Nat) (size : ObjectSize) (image : Array UInt8) : Prop :=
  ∀ j < 64 * size.tiles, (∀ x < t.grid.cellWidth column, ∀ y < t.grid.cellHeight row,
    j / 64 ≠ y * size.widthTiles + x) → image[j]? = some 0

/-- The image shows a cell of a frame by an object of the given size. -/
structure Shows (t : Texture) (frame column row : Nat) (size : ObjectSize) (colors : List UInt8)
    (image : Array UInt8) : Prop where
  size_eq : image.size = 64 * size.tiles
  tile : ∀ x < t.grid.cellWidth column, ∀ y < t.grid.cellHeight row,
    t.HasTile frame column row size colors image x y
  rest : t.IsClear column row size image

/-- The tiles of a cell are those within its edges. -/
private theorem mem_cellTiles {width height x y : Nat} :
    (x, y) ∈ Grid.cellTiles width height ↔ x < width ∧ y < height := by
  simp [Grid.cellTiles, and_comm]

/-- What holds of the buffer while the tiles in `left` have not been placed yet. -/
private structure Placed (t : Texture) (frame column row : Nat) (size : ObjectSize)
    (colors : List UInt8) (left : List (Nat × Nat)) (buffer : Array UInt8) : Prop where
  left_lt : ∀ p ∈ left, p.1 < t.grid.cellWidth column ∧ p.2 < t.grid.cellHeight row
  size_eq : buffer.size = 64 * size.tiles
  tile : ∀ x < t.grid.cellWidth column, ∀ y < t.grid.cellHeight row,
    (x, y) ∈ left ∨ t.HasTile frame column row size colors buffer x y
  rest : t.IsClear column row size buffer

/-- At the start no tile is placed and the whole image is transparent. -/
private theorem Placed.start : Placed t frame column row size colors
    (Grid.cellTiles (t.grid.cellWidth column) (t.grid.cellHeight row))
    (Array.replicate size.bytes 0) where
  left_lt := by
    rintro ⟨x, y⟩ hp
    exact mem_cellTiles.mp hp
  size_eq := by
    rw [Array.size_replicate, ObjectSize.bytes, Nat.mul_comm]
  tile x hx y hy := .inl (mem_cellTiles.mpr ⟨hx, hy⟩)
  rest j hj _ := by
    have hlt : j < size.bytes := by
      rw [ObjectSize.bytes]
      omega
    simp [hlt]

/-- One turn of the loop: the pixels of the next tile are put at its place in the image. -/
private theorem Placed.step {x y : Nat} {left : List (Nat × Nat)} {buffer : Array UInt8}
    (hf : frame < t.frames) (hc : column < t.grid.columns) (hr : row < t.grid.rows)
    (hw : t.grid.cellWidth column ≤ size.widthTiles)
    (hh : t.grid.cellHeight row ≤ size.heightTiles)
    (h : Placed t frame column row size colors ((x, y) :: left) buffer) :
    ∃ buffer', (do
      let pixels ← t.tile frame (column * 8 + x) (row * 8 + y)
      placeTile buffer (y * size.widthTiles + x)
        (pixels.toList.map (paletteIndex colors.toArray))) = .ok buffer' ∧
      Placed t frame column row size colors left buffer' := by
  obtain ⟨hx, hy⟩ := h.left_lt (x, y) List.mem_cons_self
  obtain ⟨pixels, hpixels, hsize, hget⟩ :=
    t.tile_spec hf (Grid.tile_lt hc hx) (Grid.tile_lt hr hy)
  have hplace : y * size.widthTiles + x < size.tiles := by
    have := rowMajor_lt (Nat.lt_of_lt_of_le hx hw) (Nat.lt_of_lt_of_le hy hh)
    rwa [Nat.mul_comm size.heightTiles] at this
  rw [hpixels, Checked.ok_bind, placeTile, if_pos (by rw [h.size_eq]; omega)]
  refine ⟨_, rfl, fun p hp => h.left_lt p (List.mem_cons_of_mem _ hp), ?_, ?_, ?_⟩
  · rw [size_overwriteBytes, h.size_eq]
  · intro x' hx' y' hy'
    by_cases hxy : x' = x ∧ y' = y
    · -- the tile that is placed now
      obtain ⟨rfl, rfl⟩ := hxy
      refine .inr fun i hi => ?_
      rw [getElem?_overwriteBytes, if_pos (by simp [hsize, h.size_eq]; omega),
        Nat.add_sub_cancel_left, List.getElem?_map, Array.getElem?_toList, hget i hi]
    · -- a tile placed before keeps its place, as no two tiles have the same one
      refine (h.tile x' hx' y' hy').imp (fun hmem => ?_) fun hplaced i hi => ?_
      · rcases List.mem_cons.mp hmem with heq | hmem
        · exact absurd (Prod.mk.inj heq) hxy
        · exact hmem
      · have hne : y' * size.widthTiles + x' ≠ y * size.widthTiles + x := fun heq =>
          hxy (rowMajor_inj (Nat.lt_of_lt_of_le hx' hw) (Nat.lt_of_lt_of_le hx hw) heq)
        rw [getElem?_overwriteBytes, if_neg (by simp [hsize]; omega)]
        exact hplaced i hi
  · intro j hj hfree
    have hne := hfree x hx y hy
    rw [getElem?_overwriteBytes, if_neg (by simp [hsize]; omega)]
    exact h.rest j hj hfree

/-- The image prepared for a cell shows the cell. -/
theorem cellImage_spec (colors : List UInt8) (hf : frame < t.frames) (hc : column < t.grid.columns)
    (hr : row < t.grid.rows) (hw : t.grid.cellWidth column ≤ size.widthTiles)
    (hh : t.grid.cellHeight row ≤ size.heightTiles) :
    ∃ image, t.cellImage frame column row size colors = .ok image ∧
      t.Shows frame column row size colors image := by
  obtain ⟨image, himage, hplaced⟩ := Checked.foldlM_ok (Placed t frame column row size colors)
    (fun p left buffer h => Placed.step hf hc hr hw hh h) Placed.start
  refine ⟨image, himage, hplaced.size_eq, fun x hx y hy => ?_, hplaced.rest⟩
  exact (hplaced.tile x hx y hy).resolve_left List.not_mem_nil

end Texture

/-! ### All cells -/

/-- The slots of a list are in use, for objects of the given sizes. -/
def SlotTable.Fits (t : SlotTable) (slots : List Nat) (sizes : List ObjectSize) : Prop :=
  List.Forall₂ (fun slot size => ∃ tile, t.object? slot = some (tile, size)) slots sizes

/-- The tile belongs to one of the slots in a list. -/
def SlotTable.OwnedBy (t : SlotTable) (slots : List Nat) (x : Nat) : Prop :=
  ∃ slot ∈ slots, ∃ tile size, t.object? slot = some (tile, size) ∧
    Zone.Covers ⟨tile, size.tiles⟩ x

/-- Uploading a frame puts every cell into the tiles of its slot and changes no other tile. -/
theorem Engine.uploadCells_spec {table : SlotTable} {t : Texture} {frame i : Nat}
    {colors : List UInt8} {ram : TileRam} {slots : List Nat} (htable : table.Sound)
    (hram : ram.bytes.size = 64 * table.tiles.capacity) (hf : frame < t.frames)
    (hnodup : slots.Nodup) (hfits : table.Fits slots (t.grid.sizes.drop i)) :
    ∃ ram', uploadCells table.entries t frame colors ram i slots = .ok (.ok (), ram') ∧
      ram'.bytes.size = ram.bytes.size ∧
      (∀ k slot tile size, slots[k]? = some slot → table.object? slot = some (tile, size) →
        ∃ image, t.Shows frame ((i + k) % t.grid.columns) ((i + k) / t.grid.columns) size colors
          image ∧ ram'.Holds tile image) ∧
      ∀ b, ¬ table.OwnedBy slots (b / 64) → ram'.bytes[b]? = ram.bytes[b]? := by
  induction slots generalizing ram i with
  | nil => exact ⟨ram, rfl, rfl, fun k slot tile size hk => by simp at hk, fun b _ => rfl⟩
  | cons slot slots ih =>
    obtain ⟨size, rest, ⟨tile, hobject⟩, hfits', hdrop⟩ := List.forall₂_cons_left_iff.mp hfits
    obtain ⟨hnew, hnodup'⟩ := List.nodup_cons.mp hnodup
    have hsize : t.grid.sizes[i]? = some size := by
      rw [← List.head?_drop, hdrop, List.head?_cons]
    have hrest : rest = t.grid.sizes.drop (i + 1) := by
      rw [← List.tail_drop, hdrop, List.tail_cons]
    obtain ⟨hcolumn, hrow, hcell⟩ := Grid.getElem?_sizes hsize
    obtain ⟨entry, hentry, -, htile, hsize'⟩ := SlotTable.object?_eq_some.mp hobject
    -- the image of this cell, and its transfer
    obtain ⟨image, himage, hshows⟩ := Texture.cellImage_spec colors hf hcolumn hrow
      (hcell ▸ t.grid.cellWidth_le ..) (hcell ▸ t.grid.cellHeight_le ..)
    have hle := htable.object_le hobject
    obtain ⟨ram₁, hcopy, hsize₁, hholds, hkeep⟩ := ram.copy_spec tile size.tiles_pos hshows.size_eq
      (by rw [hram]; omega)
    obtain ⟨ram', hupload, hsize'', hshown, hkeep'⟩ :=
      ih (hsize₁.trans hram) hnodup' (hrest ▸ hfits')
    -- the cells that follow have other tiles
    have hother : ∀ x, Zone.Covers ⟨tile, size.tiles⟩ x → ¬ table.OwnedBy slots x := by
      rintro x hx ⟨slot', hslot', tile', size', hobject', hx'⟩
      exact hnew (htable.object_unique hobject hobject' hx hx' ▸ hslot')
    refine ⟨ram', ?_, hsize''.trans hsize₁, ?_, ?_⟩
    · rw [uploadCells, hentry]
      subst htile hsize'
      simp only [t.position_eq, Checked.ok_bind, himage, hcopy]
      exact hupload
    · rintro (_ | k) slot' tile' size' hk hobject'
      · obtain rfl : slot = slot' := by simpa using hk
        obtain ⟨rfl, rfl⟩ : tile = tile' ∧ size = size' := by
          simpa using hobject.symm.trans hobject'
        refine ⟨image, hshows, hholds.congr fun j hj => hkeep' _ (hother _ ⟨?_, ?_⟩)⟩
        · change tile ≤ (64 * tile + j) / 64
          omega
        · change (64 * tile + j) / 64 < tile + size.tiles
          rw [hshows.size_eq] at hj
          omega
      · have := hshown k slot' tile' size' (by simpa using hk) hobject'
        rwa [show i + 1 + k = i + (k + 1) by omega] at this
    · intro b hb
      have hb' : ¬ table.OwnedBy slots (b / 64) := by
        rintro ⟨slot', hslot', howned⟩
        exact hb ⟨slot', List.mem_cons_of_mem _ hslot', howned⟩
      rw [hkeep' b hb', hkeep b]
      intro hin
      refine hb ⟨slot, List.mem_cons_self, tile, size, hobject, ?_, ?_⟩
      · change tile ≤ b / 64
        omega
      · change b / 64 < tile + size.tiles
        omega

end SpriteEngine
