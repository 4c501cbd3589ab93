import Mathlib.Data.List.Nodup
import Mathlib.Data.List.Perm.Subperm
import SpriteEngine.Proofs.Affine
import SpriteEngine.Proofs.Palette
import SpriteEngine.Proofs.Picture

/-!
# Who owns what

An engine divides its resources among sprites, and nobody but the sprites themselves keeps a list of
the owners. `Engine.Sound c e sprites` is the invariant that ties the four pools of the engine `e`
to what the loaded sprites among `sprites` hold: slots and affine groups are in use exactly if one
sprite holds them, palette entries have as many references as sprites have to them, and each sprite
holds what its texture needs (`Holding.Intact`), with its frame still in tile RAM.

The invariant does not depend on the order of the sprites (`Engine.Sound.perm`), so an operation on
one sprite is specified for a list in which it comes first. `Engine.Sound.length_references_le` is
the bound that keeps the reference counts of the palette in 16 bits: every loaded sprite has a slot
of its own, and there are at most 128.
-/

namespace SpriteEngine

/-! ### What a sprite holds -/

namespace Sprite

/-- The slots that a sprite holds. -/
def heldSlots (s : Sprite) : List Nat :=
  s.held.elim [] Holding.slots

/-- The palette indices that a sprite holds. -/
def heldColors (s : Sprite) : List UInt8 :=
  s.held.elim [] Holding.colors

/-- The affine group that a sprite holds. -/
def heldGroup (s : Sprite) : Option Nat :=
  s.held.bind Holding.affine

/-- The references of a sprite to the palette, each with the color it was obtained for. -/
def references (s : Sprite) : List (UInt8 × UInt16) :=
  s.heldColors.zip s.texture.colors

variable {s : Sprite} {held : Holding}

@[simp] theorem heldSlots_of_none (h : s.held = none) : s.heldSlots = [] := by
  rw [heldSlots, h]
  rfl

@[simp] theorem heldColors_of_none (h : s.held = none) : s.heldColors = [] := by
  rw [heldColors, h]
  rfl

@[simp] theorem heldGroup_of_none (h : s.held = none) : s.heldGroup = none := by
  rw [heldGroup, h]
  rfl

@[simp] theorem references_of_none (h : s.held = none) : s.references = [] := by
  rw [references, heldColors_of_none h, List.zip_nil_left]

theorem heldSlots_of_some (h : s.held = some held) : s.heldSlots = held.slots := by
  rw [heldSlots, h]
  rfl

theorem heldColors_of_some (h : s.held = some held) : s.heldColors = held.colors := by
  rw [heldColors, h]
  rfl

theorem heldGroup_of_some (h : s.held = some held) : s.heldGroup = held.affine := by
  rw [heldGroup, h]
  rfl

theorem references_of_some (h : s.held = some held) :
    s.references = held.colors.zip s.texture.colors := by
  rw [references, heldColors_of_some h]

/-- The affine groups of a sprite and of others. -/
theorem heldGroup_cons (s : Sprite) (rest : List Sprite) : (s :: rest).filterMap heldGroup =
    s.heldGroup.toList ++ rest.filterMap heldGroup := by
  cases hg : s.heldGroup with
  | none => rw [List.filterMap_cons_none hg, Option.toList_none, List.nil_append]
  | some g => rw [List.filterMap_cons_some hg, Option.toList_some, List.singleton_append]

end Sprite

/-- The holding is what the texture needs: a slot of the right size for each cell, an index for each
color, and in the tiles of the slots the cells of the frame, if one was uploaded. Without a frame
there is no affine group. -/
structure Holding.Intact (held : Holding) (t : Texture) (table : SlotTable) (ram : TileRam) :
    Prop where
  fits : table.Fits held.slots t.grid.sizes
  length_colors : held.colors.length = t.colors.length
  frame_lt : ∀ frame, held.frame = some frame → frame < t.frames
  shown : ∀ frame, held.frame = some frame → ∀ k slot tile size, held.slots[k]? = some slot →
    table.object? slot = some (tile, size) →
      ∃ image, t.Shows frame (k % t.grid.columns) (k / t.grid.columns) size held.colors image ∧
        ram.Holds tile image
  unframed : held.frame = none → held.affine = none

/-- Only the slots of a holding and the tiles that belong to them matter. -/
theorem Holding.Intact.congr {held : Holding} {t : Texture} {table table' : SlotTable}
    {ram ram' : TileRam} (h : held.Intact t table ram)
    (hobject : ∀ slot ∈ held.slots, table'.object? slot = table.object? slot)
    (hram : ∀ b, table.OwnedBy held.slots (b / 64) → ram'.bytes[b]? = ram.bytes[b]?) :
    held.Intact t table' ram' where
  fits := by
    refine ((List.forall₂_and_left ..).mpr ⟨hobject, h.fits⟩).imp ?_
    rintro slot size ⟨hslot, tile, htile⟩
    exact ⟨tile, hslot.trans htile⟩
  length_colors := h.length_colors
  frame_lt := h.frame_lt
  shown frame hframe k slot tile size hk hslot := by
    have hmem := List.mem_of_getElem? hk
    rw [hobject slot hmem] at hslot
    obtain ⟨image, hshows, hholds⟩ := h.shown frame hframe k slot tile size hk hslot
    -- the bytes of the image are in tiles of the slot
    refine ⟨image, hshows, hholds.congr fun j hj => hram _ ⟨slot, hmem, tile, size, hslot, ?_, ?_⟩⟩
    · change tile ≤ (64 * tile + j) / 64
      omega
    · change (64 * tile + j) / 64 < tile + size.tiles
      rw [hshows.size_eq] at hj
      omega
  unframed := h.unframed

/-! ### The invariant -/

namespace Engine

/-- The engine has the resources of a config, and those in use are held by the sprites of a list. -/
structure Sound (c : Config) (e : Engine) (sprites : List Sprite) : Prop where
  capacity : e.slots.tiles.capacity = c.tileUnits
  length : e.slots.entries.length = c.oamSlots
  count : e.affine.count = c.affineSlots
  ram : e.tileRam.bytes.size = 64 * c.tileUnits
  table : e.slots.Sound
  /-- A slot in use occurs once in what the sprites hold, and a free one does not occur. -/
  slots : ∀ i, (sprites.flatMap Sprite.heldSlots).count i = (e.slots.isUsed i).toNat
  palette : e.palette.Accounts (sprites.flatMap Sprite.references)
  affine : e.affine.Accounts (sprites.filterMap Sprite.heldGroup)
  intact : ∀ s ∈ sprites, ∀ held, s.held = some held → held.Intact s.texture e.slots e.tileRam

variable {c : Config} {e e' : Engine} {s : Sprite} {sprites rest : List Sprite} {held : Holding}

/-- The order of the sprites does not matter. -/
theorem Sound.perm {sprites' : List Sprite} (h : Sound c e sprites) (hp : sprites.Perm sprites') :
    Sound c e sprites' where
  capacity := h.capacity
  length := h.length
  count := h.count
  ram := h.ram
  table := h.table
  slots i := ((hp.flatMap_right _).count_eq i).symm.trans (h.slots i)
  palette := h.palette.perm (hp.flatMap_right _)
  affine := h.affine.perm (hp.filterMap _)
  intact s hs := h.intact s (hp.mem_iff.mpr hs)

/-- A new engine is sound with sprites that are not loaded. -/
theorem Sound.new (he : Engine.new c = .ok e) (hs : ∀ s ∈ sprites, s.held = none) :
    Sound c e sprites := by
  obtain ⟨hvalid, rfl⟩ := new_eq_ok_iff.mp he
  obtain ⟨htiles, hslots, hgroups⟩ := Config.validate_eq_ok_iff.mp hvalid
  have hlt : c.tileUnits < 65536 := by omega
  have hnone : ∀ s ∈ sprites, s.heldSlots = [] ∧ s.references = [] ∧ s.heldGroup = none :=
    fun s hs' => ⟨Sprite.heldSlots_of_none (hs s hs'), Sprite.references_of_none (hs s hs'),
      Sprite.heldGroup_of_none (hs s hs')⟩
  refine ⟨rfl, ?_, Nat.min_eq_left hgroups, ?_, .start hlt, fun i => ?_, ?_, ?_, ?_⟩
  · simp [ofConfig, Engine.reset, SlotTable.reset, SlotTable.new, Nat.min_eq_left hslots]
  · simp [ofConfig, Engine.reset, TileRam.blank]
  · rw [List.flatMap_eq_nil_iff.mpr fun s hs' => (hnone s hs').1]
    exact (congrArg Bool.toNat (SlotTable.isUsed_start c.oamSlots c.tileUnits i)).symm
  · rw [List.flatMap_eq_nil_iff.mpr fun s hs' => (hnone s hs').2.1]
    exact PaletteBank.Accounts.start
  · rw [List.filterMap_eq_nil_iff.mpr fun s hs' => (hnone s hs').2.2]
    exact AffinePool.Accounts.new
  · intro s hs' held hheld
    exact absurd ((hs s hs').symm.trans hheld) (by simp)

/-- Sprites that are not loaded do not matter to the engine. -/
theorem sound_cons_iff (hs : s.held = none) : Sound c e (s :: rest) ↔ Sound c e rest := by
  have hslots : (s :: rest).flatMap Sprite.heldSlots = rest.flatMap Sprite.heldSlots := by
    rw [List.flatMap_cons, Sprite.heldSlots_of_none hs, List.nil_append]
  have hrefs : (s :: rest).flatMap Sprite.references = rest.flatMap Sprite.references := by
    rw [List.flatMap_cons, Sprite.references_of_none hs, List.nil_append]
  have hgroups : (s :: rest).filterMap Sprite.heldGroup = rest.filterMap Sprite.heldGroup := by
    rw [Sprite.heldGroup_cons, Sprite.heldGroup_of_none hs, Option.toList_none, List.nil_append]
  constructor
  · intro h
    refine ⟨h.capacity, h.length, h.count, h.ram, h.table, hslots ▸ h.slots, hrefs ▸ h.palette,
      hgroups ▸ h.affine, ?_⟩
    intro s' hs'
    exact h.intact s' (List.mem_cons_of_mem s hs')
  · intro h
    refine ⟨h.capacity, h.length, h.count, h.ram, h.table, hslots ▸ h.slots, hrefs ▸ h.palette,
      hgroups ▸ h.affine, ?_⟩
    intro s' hs' held hheld
    rcases List.mem_cons.mp hs' with rfl | hs'
    · exact absurd (hs.symm.trans hheld) (by simp)
    · exact h.intact s' hs' held hheld

/-! ### Disjointness -/

/-- No slot is held twice. -/
theorem Sound.nodup_slots (h : Sound c e sprites) : (sprites.flatMap Sprite.heldSlots).Nodup := by
  rw [List.nodup_iff_count_le_one]
  intro i
  rw [h.slots]
  exact Bool.toNat_le _

/-- What is held is in use. -/
theorem Sound.isUsed (h : Sound c e sprites) {i : Nat}
    (hi : i ∈ sprites.flatMap Sprite.heldSlots) : e.slots.isUsed i = true := by
  have hpos := List.count_pos_iff.mpr hi
  rw [h.slots] at hpos
  cases hused : e.slots.isUsed i with
  | true => rfl
  | false => simp [hused] at hpos

/-- The slots of a sprite are in use. -/
theorem Sound.isUsed_of_held (h : Sound c e sprites) (hs : s ∈ sprites)
    (hheld : s.held = some held) {i : Nat} (hi : i ∈ held.slots) : e.slots.isUsed i = true := by
  rw [← Sprite.heldSlots_of_some hheld] at hi
  exact h.isUsed (List.mem_flatMap.mpr ⟨s, hs, hi⟩)

/-- What is in use is held. -/
theorem Sound.exists_holder (h : Sound c e sprites) {i : Nat} (hi : e.slots.isUsed i = true) :
    ∃ s ∈ sprites, ∃ held, s.held = some held ∧ i ∈ held.slots := by
  have hpos : 0 < (sprites.flatMap Sprite.heldSlots).count i := by
    rw [h.slots, hi]
    exact Nat.one_pos
  obtain ⟨s, hs, hi⟩ := List.mem_flatMap.mp (List.count_pos_iff.mp hpos)
  cases hheld : s.held with
  | none => simp [hheld] at hi
  | some held => exact ⟨s, hs, held, hheld, by rwa [Sprite.heldSlots_of_some hheld] at hi⟩

/-- The slots of one sprite are not those of another. -/
theorem Sound.slots_disjoint (h : Sound c e (s :: rest)) {s' : Sprite} (hs' : s' ∈ rest) {i : Nat}
    (hi : i ∈ s'.heldSlots) : i ∉ s.heldSlots := by
  intro hi'
  have hnodup := h.nodup_slots
  rw [List.flatMap_cons, List.nodup_append] at hnodup
  exact hnodup.2.2 i hi' i (List.mem_flatMap.mpr ⟨s', hs', hi⟩) rfl

/-- The tiles of one sprite are not those of another. -/
theorem Sound.tiles_disjoint (h : Sound c e (s :: rest)) {s' : Sprite} (hs' : s' ∈ rest) {x : Nat}
    (hx : e.slots.OwnedBy s'.heldSlots x) : ¬ e.slots.OwnedBy s.heldSlots x := by
  rintro ⟨slot, hslot, tile, size, hobject, hcovers⟩
  obtain ⟨slot', hslot', tile', size', hobject', hcovers'⟩ := hx
  have heq := h.table.object_unique hobject hobject' hcovers hcovers'
  exact h.slots_disjoint hs' hslot' (heq ▸ hslot)

/-- The affine group of one sprite is not that of another. -/
theorem Sound.group_ne (h : Sound c e (s :: rest)) {s' : Sprite} (hs' : s' ∈ rest) {g : Nat}
    (hg : s'.heldGroup = some g) : s.heldGroup ≠ some g := by
  intro hg'
  have hcount := h.affine.count g
  have hpos : 0 < (rest.filterMap Sprite.heldGroup).count g :=
    List.count_pos_iff.mpr (List.mem_filterMap.mpr ⟨s', hs', hg⟩)
  have hle := Bool.toNat_le (e.affine.isUsed g)
  rw [List.filterMap_cons_some hg', List.count_cons_self] at hcount
  omega

/-- What is held are groups of the engine. -/
theorem Sound.group_lt (h : Sound c e sprites) (hs : s ∈ sprites) {g : Nat}
    (hg : s.heldGroup = some g) : g < c.affineSlots ∧ g < 32 := by
  have hlt := h.affine.lt g (List.mem_filterMap.mpr ⟨s, hs, hg⟩)
  exact ⟨h.count ▸ hlt, Nat.lt_of_lt_of_le hlt h.affine.count_le⟩

/-- An affine group in use is held by a sprite. -/
theorem Sound.exists_scaled (h : Sound c e sprites) {g : Nat} (hg : e.affine.isUsed g = true) :
    ∃ b ∈ sprites, ∃ held, b.held = some held ∧ held.affine = some g := by
  obtain ⟨b, hb, hg⟩ := List.mem_filterMap.mp (h.affine.mem_iff.mpr hg)
  obtain ⟨held, hheld, hg⟩ := Option.bind_eq_some_iff.mp hg
  exact ⟨b, hb, held, hheld, hg⟩

/-- The references of the sprites are to the indices that they hold. -/
theorem Sound.map_references (h : Sound c e sprites) :
    (sprites.flatMap Sprite.references).map Prod.fst = sprites.flatMap Sprite.heldColors := by
  rw [List.map_flatMap]
  refine List.flatMap_congr fun s hs => ?_
  cases hheld : s.held with
  | none => rw [Sprite.references_of_none hheld, Sprite.heldColors_of_none hheld, List.map_nil]
  | some held =>
    have hlength := (h.intact s hs held hheld).length_colors
    rw [Sprite.references_of_some hheld, Sprite.heldColors_of_some hheld,
      List.map_fst_zip (Nat.le_of_eq hlength)]

/-! ### Changes to one sprite -/

/-- A sprite is uploaded or drawn anew. It keeps its slots and its references, its objects and their
tiles are its own, and the groups in use are those that the sprites have now. -/
theorem Sound.update (h : Sound c e (s :: rest)) {s' : Sprite} {slots groups : List Nat}
    (htable : e.slots.Redrawn slots groups e'.slots) (hpalette : e'.palette = e.palette)
    (hcount : e'.affine.count = e.affine.count)
    (hram : e'.tileRam.bytes.size = e.tileRam.bytes.size) (hslots : s'.heldSlots = s.heldSlots)
    (hrefs : s'.references = s.references)
    (hgroups : e'.affine.Accounts ((s' :: rest).filterMap Sprite.heldGroup))
    (hintact : ∀ held, s'.held = some held → held.Intact s'.texture e'.slots e'.tileRam)
    (hkeep : ∀ b, ¬ e.slots.OwnedBy s.heldSlots (b / 64) →
      e'.tileRam.bytes[b]? = e.tileRam.bytes[b]?) : Sound c e' (s' :: rest) where
  capacity := by rw [htable.tiles, h.capacity]
  length := htable.length.trans h.length
  count := hcount.trans h.count
  ram := hram.trans h.ram
  table := htable.sound
  slots i := by
    rw [List.flatMap_cons, hslots, htable.isUsed]
    exact h.slots i
  palette := by
    rw [List.flatMap_cons, hrefs, hpalette]
    exact h.palette
  affine := hgroups
  intact := by
    intro s₁ hs₁ held hheld
    rcases List.mem_cons.mp hs₁ with rfl | hs₁
    · exact hintact held hheld
    · refine (h.intact s₁ (List.mem_cons_of_mem s hs₁) held hheld).congr
        (fun slot _ => htable.object slot) fun b hb => hkeep b (h.tiles_disjoint hs₁ ?_)
      rwa [Sprite.heldSlots_of_some hheld]

/-- How and where a sprite is shown does not matter to the engine. -/
theorem Sound.restyle (h : Sound c e (s :: rest)) {s' : Sprite} (ht : s'.texture = s.texture)
    (hh : s'.held = s.held) : Sound c e (s' :: rest) := by
  have hgroup : s'.heldGroup = s.heldGroup := by rw [Sprite.heldGroup, hh, Sprite.heldGroup]
  refine h.update (.refl h.table [] []) rfl rfl rfl ?_ ?_ ?_ ?_ fun b _ => rfl
  · rw [Sprite.heldSlots, hh, Sprite.heldSlots]
  · rw [Sprite.references, Sprite.heldColors, hh, ht, Sprite.references, Sprite.heldColors]
  · rw [Sprite.heldGroup_cons, hgroup, ← Sprite.heldGroup_cons]
    exact h.affine
  · intro held hheld
    rw [ht]
    exact h.intact s List.mem_cons_self held (hh ▸ hheld)

/-! ### How much is held -/

/-- A loaded sprite has at least one slot. -/
private theorem Sound.slots_ne_nil (h : Sound c e sprites) (hs : s ∈ sprites)
    (hheld : s.held = some held) : 0 < held.slots.length := by
  have hlength := (h.intact s hs held hheld).fits.length_eq
  rw [Grid.length_sizes] at hlength
  rw [hlength]
  exact Nat.mul_pos s.texture.rows_pos s.texture.columns_pos

private theorem Sound.length_slots_le (h : Sound c e sprites) :
    (sprites.flatMap Sprite.heldSlots).length ≤ 128 := by
  have hsub : sprites.flatMap Sprite.heldSlots ⊆ List.range 128 := by
    intro i hi
    have hused := h.isUsed hi
    rw [← SlotTable.isSome_object?] at hused
    obtain ⟨⟨tile, size⟩, hobject⟩ := Option.isSome_iff_exists.mp hused
    exact List.mem_range.mpr (h.table.slot_lt hobject)
  have hle := (List.subperm_of_subset h.nodup_slots hsub).length_le
  rwa [List.length_range] at hle

/-- There are at most 128 loaded sprites, each with at most 255 references. -/
theorem Sound.length_references_le (h : Sound c e sprites) :
    (sprites.flatMap Sprite.references).length ≤ 255 * 128 := by
  -- sprite by sprite, there are at most 255 references for each slot
  have hsum : ∀ l : List Sprite, (∀ s ∈ l, s ∈ sprites) →
      (l.flatMap Sprite.references).length ≤ 255 * (l.flatMap Sprite.heldSlots).length := by
    intro l
    induction l with
    | nil => simp
    | cons s l ih =>
      intro hmem
      have hrest := ih fun s' hs' => hmem s' (List.mem_cons_of_mem s hs')
      have hfirst : s.references.length ≤ 255 * s.heldSlots.length := by
        cases hheld : s.held with
        | none => simp [hheld]
        | some held =>
          have hpos := h.slots_ne_nil (hmem s List.mem_cons_self) hheld
          have hcolors := s.texture.length_colors_le
          rw [Sprite.references_of_some hheld, Sprite.heldSlots_of_some hheld, List.length_zip]
          omega
      rw [List.flatMap_cons, List.flatMap_cons, List.length_append, List.length_append]
      omega
  have hle := hsum sprites fun s hs => hs
  have := h.length_slots_le
  omega

end Engine

end SpriteEngine
