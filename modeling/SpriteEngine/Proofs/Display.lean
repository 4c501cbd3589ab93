import SpriteEngine.Proofs.Stage

/-!
# What is in video memory

`Engine.Displays e t held frame` describes the picture of a frame in video memory the way hardware
reads it. For each pixel of each tile of the texture it names the slot of the cell that the tile is
in, the place of the tile among those of the slot, where rows are as wide as the object, and the
byte there. That byte is 0 for a pixel without a color (`Engine.ShowsPixel`), and otherwise it is
the index of a palette entry with the color of the pixel. Every other byte of the slots is 0.

The picture is put together from the invariant (`Engine.Sound.displays`): the cells of a frame stay
in tile RAM as they were uploaded, and colors that are referenced stay in palette RAM. So it holds
of every sprite at any time of any run, whatever happened to other sprites since the upload.
-/

namespace SpriteEngine

namespace Engine

variable {c : Config} {e : Engine} {s : Sprite} {sprites : List Sprite} {held : Holding}
  {frame : Nat}

/-- The byte `b` shows the pixel `p` of the texture. -/
structure ShowsPixel (e : Engine) (t : Texture) (held : Holding) (p b : UInt8) : Prop where
  transparent : p = 0 ∨ t.colors.length < p.toNat → b = 0
  colored : p ≠ 0 → p.toNat ≤ t.colors.length → b ≠ 0 ∧ held.colors[p.toNat - 1]? = some b ∧
    t.colors[p.toNat - 1]? = some (e.palette.ram.color b)

/-- The tile at column `x` and row `y` of the texture is tile `place` of tile RAM. -/
def MapsTo (e : Engine) (t : Texture) (held : Holding) (x y place : Nat) : Prop :=
  ∃ slot entry, held.slots[y / 8 * t.grid.columns + x / 8]? = some slot ∧
    e.slots.entries[slot]? = some entry ∧
    place = entry.tile + y % 8 * entry.size.widthTiles + x % 8

/-- Video memory has the picture of a frame. -/
structure Displays (e : Engine) (t : Texture) (held : Holding) (frame : Nat) : Prop where
  /-- Every pixel of every tile is shown at the place of the tile. -/
  pixel : ∀ x < t.tilesWide, ∀ y < t.tilesHigh, ∃ place pixels, e.MapsTo t held x y place ∧
    t.tile frame x y = .ok pixels ∧ ∀ i < 64, ∃ p b, pixels[i]? = some p ∧
      e.tileRam.bytes[64 * place + i]? = some b ∧ e.ShowsPixel t held p b
  /-- The other tiles of the slots are transparent. -/
  rest : ∀ slot ∈ held.slots, ∀ entry, e.slots.entries[slot]? = some entry →
    ∀ j, Zone.Covers ⟨entry.tile, entry.size.tiles⟩ (j / 64) →
      (∀ x < t.tilesWide, ∀ y < t.tilesHigh, ¬ e.MapsTo t held x y (j / 64)) →
        e.tileRam.bytes[j]? = some 0

/-- A pixel is renamed to the index of its color. -/
private theorem Sound.showsPixel (h : Sound c e sprites) (hs : s ∈ sprites)
    (hheld : s.held = some held) (p : UInt8) :
    e.ShowsPixel s.texture held p (paletteIndex held.colors.toArray p) := by
  have hlength := (h.intact s hs held hheld).length_colors
  constructor
  · rintro (rfl | hlt)
    · rfl
    · have hge : held.colors.length ≤ p.toNat - 1 := by omega
      simp [paletteIndex, hge]
  · intro hne hle
    have hpos : p.toNat ≠ 0 := fun h0 => hne (UInt8.toNat_inj.mp h0)
    have hlt : p.toNat - 1 < s.texture.colors.length := by omega
    have hlt' : p.toNat - 1 < held.colors.length := by omega
    have hindex : paletteIndex held.colors.toArray p = held.colors[p.toNat - 1] := by
      simp [paletteIndex, hne, hlt']
    -- the pixel has a reference, and that is to an entry with its color
    have hmem : (held.colors[p.toNat - 1], s.texture.colors[p.toNat - 1]) ∈
        sprites.flatMap Sprite.references := by
      refine List.mem_flatMap.mpr ⟨s, hs, ?_⟩
      rw [Sprite.references_of_some hheld, ← List.getElem_zip (h := by simp; omega)]
      exact List.getElem_mem _
    obtain ⟨i, hi, hstored⟩ := PaletteBank.eq_indexOf_of_color? (h.palette.stored _ hmem)
    dsimp only at hi hstored
    rw [List.getElem?_eq_getElem hlt, List.getElem?_eq_getElem hlt', hindex, hi, h.palette.shown,
      hstored]
    exact ⟨PaletteBank.indexOf_ne_zero i, rfl, rfl⟩

/-! ### The cell of a tile -/

/-- Number `k` of the slots shows the cell in column `k % columns` and row `k / columns`. -/
private theorem Sound.cell (h : Sound c e sprites) (hs : s ∈ sprites) (hheld : s.held = some held)
    (hframe : held.frame = some frame) {k : Nat} (hk : k < held.slots.length) :
    ∃ entry image, e.slots.entries[held.slots[k]]? = some entry ∧
      k % s.texture.grid.columns < s.texture.grid.columns ∧
      k / s.texture.grid.columns < s.texture.grid.rows ∧
      s.texture.Shows frame (k % s.texture.grid.columns) (k / s.texture.grid.columns) entry.size
        held.colors image ∧ e.tileRam.Holds entry.tile image := by
  have hintact := h.intact s hs held hheld
  obtain ⟨hlength, hobjects⟩ := List.forall₂_iff_get.mp hintact.fits
  have hk' : k < s.texture.grid.sizes.length := hlength ▸ hk
  obtain ⟨tile, hobject⟩ := hobjects k hk hk'
  obtain ⟨image, hshows, hholds⟩ := hintact.shown frame hframe k _ tile _
    (List.getElem?_eq_getElem hk) hobject
  obtain ⟨entry, hentry, -, rfl, hsize⟩ := SlotTable.object?_eq_some.mp hobject
  obtain ⟨hcolumn, hrow, -⟩ := Grid.getElem?_sizes (List.getElem?_eq_getElem hk')
  exact ⟨entry, image, hentry, hcolumn, hrow, hsize ▸ hshows, hholds⟩

/-- Where a tile of the texture is, and what the bytes there are. -/
private theorem Sound.displays_tile (h : Sound c e sprites) (hs : s ∈ sprites)
    (hheld : s.held = some held) (hframe : held.frame = some frame) {x y : Nat}
    (hx : x < s.texture.tilesWide) (hy : y < s.texture.tilesHigh) :
    ∃ place pixels, e.MapsTo s.texture held x y place ∧
      s.texture.tile frame x y = .ok pixels ∧ pixels.size = 64 ∧
      ∀ i < 64, e.tileRam.bytes[64 * place + i]? =
        pixels[i]?.map (paletteIndex held.colors.toArray) := by
  have hintact := h.intact s hs held hheld
  obtain ⟨hcolumn, hx'⟩ : x / 8 < s.texture.grid.columns ∧
      x % 8 < s.texture.grid.cellWidth (x / 8) := Grid.place_lt hx
  obtain ⟨hrow, hy'⟩ : y / 8 < s.texture.grid.rows ∧
      y % 8 < s.texture.grid.cellHeight (y / 8) := Grid.place_lt hy
  have hk : y / 8 * s.texture.grid.columns + x / 8 < held.slots.length := by
    rw [hintact.fits.length_eq, Grid.length_sizes]
    exact rowMajor_lt hcolumn hrow
  obtain ⟨entry, image, hentry, -, -, hshows, hholds⟩ := h.cell hs hheld hframe hk
  -- column and row of the cell, read off its number
  rw [rowMajor_mod hcolumn, rowMajor_div hcolumn] at hshows
  obtain ⟨pixels, hpixels, hsize, hget⟩ :=
    s.texture.tile_spec (hintact.frame_lt frame hframe) hx hy
  refine ⟨_, pixels, ⟨_, entry, List.getElem?_eq_getElem hk, hentry, rfl⟩, hpixels, hsize, ?_⟩
  intro i hi
  have hi' : i < pixels.size := by omega
  have htile := hshows.tile (x % 8) hx' (y % 8) hy' i hi
  rw [Nat.div_add_mod', Nat.div_add_mod', ← hget i hi] at htile
  have hlt : 64 * (y % 8 * entry.size.widthTiles + x % 8) + i < image.size := by
    rw [Array.getElem?_eq_getElem hi'] at htile
    exact (Array.getElem?_eq_some_iff.mp htile).1
  rw [← htile, ← hholds _ hlt]
  congr 1
  omega

/-- What the bytes are in the tiles of a slot that the texture does not reach. -/
private theorem Sound.displays_rest (h : Sound c e sprites) (hs : s ∈ sprites)
    (hheld : s.held = some held) (hframe : held.frame = some frame) {k j : Nat}
    (hk : k < held.slots.length) {entry : SlotEntry}
    (hentry : e.slots.entries[held.slots[k]]? = some entry)
    (hj : Zone.Covers ⟨entry.tile, entry.size.tiles⟩ (j / 64))
    (hfree : ∀ x < s.texture.tilesWide, ∀ y < s.texture.tilesHigh,
      ¬ e.MapsTo s.texture held x y (j / 64)) : e.tileRam.bytes[j]? = some 0 := by
  obtain ⟨entry', image, hentry', hcolumn, hrow, hshows, hholds⟩ := h.cell hs hheld hframe hk
  obtain rfl : entry' = entry := Option.some.inj (hentry'.symm.trans hentry)
  obtain ⟨hle, hlt⟩ := hj
  dsimp only at hle hlt
  have hrest := hshows.rest (j - 64 * entry'.tile) (by omega) ?_
  · rw [← hrest, ← hholds _ (by rw [hshows.size_eq]; omega)]
    congr 1
    omega
  · -- a tile of the cell that is there would be a tile of the texture
    intro x hx y hy heq
    have hx8 := Nat.lt_of_lt_of_le hx (Grid.cellEdge_le ..)
    have hy8 := Nat.lt_of_lt_of_le hy (Grid.cellEdge_le ..)
    refine hfree _ (Grid.tile_lt hcolumn hx) _ (Grid.tile_lt hrow hy)
      ⟨_, entry', ?_, hentry, ?_⟩
    · rw [rowMajor_div hx8, rowMajor_div hy8, Nat.div_add_mod', List.getElem?_eq_getElem hk]
    · rw [rowMajor_mod hx8, rowMajor_mod hy8]
      omega

theorem Sound.displays (h : Sound c e sprites) (hs : s ∈ sprites) (hheld : s.held = some held)
    (hframe : held.frame = some frame) : e.Displays s.texture held frame := by
  constructor
  · intro x hx y hy
    obtain ⟨place, pixels, hplace, hpixels, hsize, hbytes⟩ := h.displays_tile hs hheld hframe hx hy
    refine ⟨place, pixels, hplace, hpixels, fun i hi => ?_⟩
    have hi' : i < pixels.size := by omega
    refine ⟨pixels[i], _, Array.getElem?_eq_getElem hi', ?_, h.showsPixel hs hheld _⟩
    rw [hbytes i hi, Array.getElem?_eq_getElem hi', Option.map_some]
  · intro slot hslot entry hentry j hj hfree
    obtain ⟨k, hk, rfl⟩ := List.mem_iff_getElem.mp hslot
    exact h.displays_rest hs hheld hframe hk hentry hj hfree

/-! ### Tiles in one color -/

/-- The place of a tile, from the object of its cell. -/
private theorem mapsTo_iff {t : Texture} {x y place slot tile : Nat} {size : ObjectSize}
    (hslot : held.slots[y / 8 * t.grid.columns + x / 8]? = some slot)
    (hobject : e.slots.object? slot = some (tile, size)) :
    e.MapsTo t held x y place ↔ place = tile + y % 8 * size.widthTiles + x % 8 := by
  obtain ⟨entry, hentry, -, rfl, rfl⟩ := SlotTable.object?_eq_some.mp hobject
  constructor
  · rintro ⟨slot', entry', hslot', hentry', rfl⟩
    obtain rfl : slot = slot' := Option.some.inj (hslot.symm.trans hslot')
    obtain rfl : entry = entry' := Option.some.inj (hentry.symm.trans hentry')
    rfl
  · rintro rfl
    exact ⟨slot, entry, hslot, hentry, rfl⟩

/-- A tile in one color is shown by the index of the color. -/
private theorem Displays.solid {t : Texture} (h : e.Displays t held frame)
    (hframe : frame < t.frames) {x y place : Nat} (hx : x < t.tilesWide) (hy : y < t.tilesHigh)
    (hplace : ∀ place', e.MapsTo t held x y place' → place' = place) {p b : UInt8} (hp : p ≠ 0)
    (hcolor : p.toNat ≤ t.colors.length) (hb : held.colors[p.toNat - 1]? = some b)
    (hpixels : ∀ i < 64, t.pixels[t.tileIndex frame x y * 64 + i]? = some p) :
    t.colors[p.toNat - 1]? = some (e.palette.ram.color b) ∧
      ∀ i < 64, e.tileRam.bytes[64 * place + i]? = some b := by
  obtain ⟨place', pixels, hplace', htile, hshown⟩ := h.pixel x hx y hy
  obtain ⟨pixels', htile', -, hget⟩ := t.tile_spec hframe hx hy
  obtain rfl : pixels = pixels' := Except.ok.inj (htile.symm.trans htile')
  obtain rfl := hplace place' hplace'
  have hbyte : ∀ i < 64, e.tileRam.bytes[64 * place' + i]? = some b ∧
      t.colors[p.toNat - 1]? = some (e.palette.ram.color b) := by
    intro i hi
    obtain ⟨p', b', hp', hb', hshows⟩ := hshown i hi
    obtain rfl : p' = p := by simpa [hp', hpixels i hi] using hget i hi
    obtain ⟨-, hindex, hcolor'⟩ := hshows.colored hp hcolor
    obtain rfl : b' = b := Option.some.inj (hindex.symm.trans hb)
    exact ⟨hb', hcolor'⟩
  exact ⟨(hbyte 0 (by decide)).2, fun i hi => (hbyte i hi).1⟩

/-- The pixels of the banded texture, from the first frame to the last. -/
private theorem getElem?_pixels_banded {i : Nat} (h : i < 15552) :
    Texture.banded.pixels[i]? = some (if i < 5184 then 0 else if i < 14976 then 1 else 2) := by
  simp only [Texture.banded, Array.getElem?_append, Array.getElem?_replicate, Array.size_append,
    Array.size_replicate]
  split_ifs
  · rfl
  · rfl
  · omega
  · omega
  · rfl
  · omega

/-- The tile after the first one at the right edge is the place of no tile of the texture. -/
private theorem not_mapsTo_banded (hslots : held.slots = [1, 2, 3, 4])
    (hobjects : Stage.HasBanded e.slots) {x y : Nat} (hx : x < 9) (hy : y < 9) :
    ¬ e.MapsTo .banded held x y 66 := by
  intro hmaps
  have hcolumn : x / 8 = 0 ∨ x = 8 := by omega
  have hrow : y / 8 = 0 ∨ y = 8 := by omega
  -- one case for each of the four cells
  rcases hcolumn with hx' | rfl <;> rcases hrow with hy' | rfl
  · have hplace := (mapsTo_iff (by rw [hslots, hx', hy']; rfl) hobjects.full).mp hmaps
    change 66 = 1 + y % 8 * 8 + x % 8 at hplace
    omega
  · have hplace := (mapsTo_iff (by rw [hslots, hx']; rfl) hobjects.below).mp hmaps
    omega
  · have hplace := (mapsTo_iff (by rw [hslots, hy']; rfl) hobjects.right).mp hmaps
    change 66 = 65 + y % 8 * 4 + 0 at hplace
    omega
  · have hplace := (mapsTo_iff (by rw [hslots]; rfl) hobjects.corner).mp hmaps
    omega

/-- So that tile is transparent, although it belongs to the object at the right edge. -/
private theorem Displays.banded_rest (h : e.Displays .banded held frame)
    (hslots : held.slots = [1, 2, 3, 4]) (hobjects : Stage.HasBanded e.slots) {i : Nat}
    (hi : i < 64) : e.tileRam.bytes[64 * 66 + i]? = some 0 := by
  obtain ⟨entry, hentry, -, htile, hsize⟩ := SlotTable.object?_eq_some.mp hobjects.right
  have hplace : (64 * 66 + i) / 64 = 66 := by omega
  refine h.rest 2 (by simp [hslots]) entry hentry _ ?_ ?_
  · rw [htile, hsize, hplace]
    exact ⟨by decide, by decide⟩
  · rw [hplace]
    exact fun x hx y hy => not_mapsTo_banded hslots hobjects hx hy

/-- Where the third frame of the banded texture is, with its cells in the slots after the first. -/
private theorem Displays.banded (h : e.Displays .banded held 2) (hslots : held.slots = [1, 2, 3, 4])
    (hcolors : held.colors = [2, 3]) (hobjects : Stage.HasBanded e.slots) :
    (∀ i < 64, e.tileRam.bytes[64 * 69 + i]? = some 2) ∧
      (∀ i < 64, e.tileRam.bytes[64 * 66 + i]? = some 0) ∧
      (∀ i < 64, e.tileRam.bytes[64 * 100 + i]? = some 3) ∧
      e.palette.ram.color 2 = 31 ∧ e.palette.ram.color 3 = 992 := by
  have hedge : ∀ place, e.MapsTo .banded held 8 1 place → place = 69 := fun place hplace =>
    (mapsTo_iff (by rw [hslots]; rfl) hobjects.right).mp hplace
  have hlast : ∀ place, e.MapsTo .banded held 3 8 place → place = 100 := fun place hplace =>
    (mapsTo_iff (by rw [hslots]; rfl) hobjects.below).mp hplace
  obtain ⟨hcolor, hbytes⟩ := h.solid (p := 1) (b := 2) (by decide) (by decide) (by decide) hedge
    (by decide) (by decide) (by rw [hcolors]; rfl) fun i hi => by
      -- there are 179 tiles before this one: two frames, one row and eight tiles
      change Texture.banded.pixels[179 * 64 + i]? = some 1
      rw [getElem?_pixels_banded (by omega), if_neg (by omega), if_pos (by omega)]
  obtain ⟨hcolor', hbytes'⟩ := h.solid (p := 2) (b := 3) (by decide) (by decide) (by decide) hlast
    (by decide) (by decide) (by rw [hcolors]; rfl) fun i hi => by
      change Texture.banded.pixels[237 * 64 + i]? = some 2
      rw [getElem?_pixels_banded (by omega), if_neg (by omega), if_neg (by omega)]
  exact ⟨hbytes, fun i hi => h.banded_rest hslots hobjects hi, hbytes',
    (Option.some.inj hcolor).symm, (Option.some.inj hcolor').symm⟩

end Engine

/-! ### Along runs -/

namespace Stage

/-- Wherever a run has led a stage, video memory has the picture of every sprite whose frame was
uploaded. -/
theorem run_displays {c : Config} {e : Engine} (he : Engine.new c = .ok e)
    (textures : List Texture) (calls : List (Nat × Call)) :
    ∃ w, ((start e textures).run calls).outcome = .ok w ∧
      ∀ s ∈ w.sprites, ∀ held, s.held = some held → ∀ frame, held.frame = some frame →
        w.engine.Displays s.texture held frame := by
  obtain ⟨w, hw, hsound⟩ := exists_run he textures calls
  refine ⟨w, hw, ?_⟩
  intro s hs held hheld frame hframe
  exact hsound.displays hs hheld hframe

/-- The third frame of a sprite of four cells, next to another sprite. The second tile at its right
edge comes four tiles after the first one, because that is the width of the object, and the tile
after the first one is transparent. The last row is shown by the index of the second color. -/
theorem run_displays_fourCells : ∃ w, ((start (.ofConfig ⟨130, 5, 1⟩) [.blackTile, .banded]).run
      [(0, .load), (1, .load), (1, .upload 2)]).outcome = .ok w ∧
    ∃ s ∈ w.sprites, ∃ held, s.held = some held ∧ held.frame = some 2 ∧
      w.engine.Displays s.texture held 2 ∧
      (∀ i < 64, w.engine.tileRam.bytes[64 * 69 + i]? = some 2) ∧
      (∀ i < 64, w.engine.tileRam.bytes[64 * 66 + i]? = some 0) ∧
      (∀ i < 64, w.engine.tileRam.bytes[64 * 100 + i]? = some 3) ∧
      w.engine.palette.ram.color 2 = 31 ∧ w.engine.palette.ram.color 3 = 992 := by
  obtain ⟨w, w₁, hw, -, -, hload, hs, -, hobjects⟩ := load_banded
  have hrun := run_concat hw hload
  have hsound : Sound ⟨130, 5, 1⟩ w₁ := (run_spec (.start rfl _) _).of_outcome hrun
  obtain ⟨-, ⟨_, w₂⟩, hupload, rfl, ⟨ram, hengine⟩, hsprites⟩ :=
    step_upload hsound hs rfl (by decide : 2 < Texture.banded.frames)
  obtain ⟨w', hw', hdisplays⟩ := run_displays (c := ⟨130, 5, 1⟩) rfl [.blackTile, .banded]
    [(0, .load), (1, .load), (1, .upload 2)]
  obtain rfl : w₂ = w' := Except.ok.inj ((run_concat hrun hupload).symm.trans hw')
  have hmem := List.mem_of_getElem? (hsprites ▸ List.getElem?_set_self
    (List.getElem?_eq_some_iff.mp hs).1)
  have hd := hdisplays _ hmem _ rfl 2 rfl
  exact ⟨w₂, hw', _, hmem, _, rfl, rfl, hd, hd.banded rfl rfl (by rw [hengine]; exact hobjects)⟩

end Stage

end SpriteEngine
