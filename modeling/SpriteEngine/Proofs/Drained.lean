import SpriteEngine.Proofs.FirstFit
import SpriteEngine.Proofs.Reservations
import SpriteEngine.Proofs.Stage

/-!
# An engine without loaded sprites is as good as new

When no sprite is loaded, every slot and every tile is free and the palette has no references. What
was loaded, drawn and freed before makes no difference to the next load: it succeeds if the engine
is large enough for the sprite at all.

A table is *packed* if the slots and tiles in use are those at the front (`SlotTable.Packed`).
Taking a slot takes the next one and the next tiles, and the table is packed again
(`SlotTable.Packed.take`). So the slots that are taken for the cells of a grid are those from slot 0
on, and their tiles lie back to back (`SlotTable.Packed.takeRest`).

Nothing is in use, so there is nothing to reset either (`Engine.Sound.reset_eq`): the engine differs
from a new one only in what its memories hold without anybody looking at it.
-/

namespace SpriteEngine

namespace SlotTable

variable {t t' : SlotTable} {k tile : Nat} {size : ObjectSize}

/-! ### Packed tables -/

/-- The slots in use are those before slot `k`, and the tiles in use are those before `tile`. -/
structure Packed (t : SlotTable) (k tile : Nat) : Prop where
  sound : t.tiles.Sound
  freeSlots : t.freeSlots = List.range' k (t.entries.length - k)
  isFree : ∀ x, t.tiles.IsFree x ↔ tile ≤ x ∧ x < t.tiles.capacity

/-- The first run of free tiles starts at the first free tile. -/
private theorem Packed.isLeast (h : t.Packed k tile)
    (hroom : tile + size.tiles ≤ t.tiles.capacity) :
    IsLeast { start | t.HasRun start size.tiles } tile := by
  constructor
  · intro x hx
    obtain ⟨hle, hlt⟩ : tile ≤ x ∧ x < tile + size.tiles := hx
    exact (h.isFree x).mpr ⟨hle, by omega⟩
  · intro start hstart
    have hpos := size.tiles_pos
    exact ((h.isFree start).mp (hstart start ⟨Nat.le_refl _, Nat.lt_add_of_pos_right hpos⟩)).1

/-- If there is a slot left and there are tiles enough, the next ones are taken. -/
theorem Packed.take (h : t.Packed k tile) (size : ObjectSize) (hk : k < t.entries.length)
    (hroom : tile + size.tiles ≤ t.tiles.capacity) :
    ∃ t', (t.take size).outcome = .ok (.ok k, t') ∧ t'.Packed (k + 1) (tile + size.tiles) ∧
      t'.entries = t.entries.set k { free := false, tile, size } ∧
      t'.tiles.capacity = t.tiles.capacity := by
  have hleast := h.isLeast hroom
  have hfree : t.freeSlots = k :: List.range' (k + 1) (t.entries.length - (k + 1)) := by
    rw [h.freeSlots, ← List.range'_succ]
    congr 1
    omega
  obtain ⟨-, r, hr, ⟨-, hnil⟩ | ⟨-, hnone⟩ | ⟨slot, start, t', rfl, ht⟩⟩ := take_cases h.sound size
  · simp [hfree] at hnil
  · exact absurd hleast.1 (hnone tile)
  · obtain rfl : start = tile := ht.first.unique hleast
    obtain ⟨rfl, hrest⟩ := List.cons.inj (hfree.symm.trans ht.freeSlots)
    refine ⟨t', hr, ⟨ht.sound, ?_, fun x => ?_⟩, ht.entries, ht.capacity⟩
    · rw [← hrest, ht.entries, List.length_set]
    · rw [ht.isFree, h.isFree, ht.capacity]
      change _ ∧ ¬ (start ≤ x ∧ x < start + size.tiles) ↔ _
      omega

/-- Slots are taken one after the other, as long as there are slots and tiles. -/
theorem Packed.takeRest (h : t.Packed k tile) (sizes : List ObjectSize)
    (hlength : k + sizes.length ≤ t.entries.length) (hlength' : k + sizes.length ≤ 128)
    (hroom : tile + (sizes.map ObjectSize.tiles).sum ≤ t.tiles.capacity) :
    ∃ t', (t.takeRest (List.range k) sizes).outcome =
        .ok (.ok (List.range (k + sizes.length)), t') ∧
      (∀ i < k, t'.object? i = t.object? i) ∧ ∀ j size, sizes[j]? = some size →
        t'.object? (k + j) = some (tile + ((sizes.take j).map ObjectSize.tiles).sum, size) := by
  induction sizes generalizing t k tile with
  | nil => exact ⟨t, rfl, fun _ _ => rfl, fun j size hj => by simp at hj⟩
  | cons size sizes ih =>
    rw [List.length_cons] at hlength hlength'
    rw [List.map_cons, List.sum_cons] at hroom
    obtain ⟨t₁, htake, h₁, hentries, hcap⟩ := h.take size (by omega) (by omega)
    have hobject := object?_set (List.getElem?_eq_getElem (by omega)) hentries
    obtain ⟨t', hrest, hbefore, hafter⟩ := ih h₁ (by rw [hentries, List.length_set]; omega)
      (by omega) (by rw [hcap]; omega)
    refine ⟨t', ?_, fun i hi => ?_, fun j size' hj => ?_⟩
    · have hpush : push (List.range k) k = .ok (List.range (k + 1)) := by
        rw [push, if_pos (by rw [List.length_range]; omega), List.range_succ]
      rw [SlotTable.takeRest, Traced.outcome_bind htake]
      dsimp only
      rw [hpush, List.length_cons, Nat.add_comm sizes.length, ← Nat.add_assoc]
      exact hrest
    · rw [hbefore i (by omega), hobject, if_neg (by omega)]
    · cases j with
      | zero =>
        obtain rfl : size = size' := by simpa using hj
        rw [Nat.add_zero, hbefore k (Nat.lt_succ_self k), hobject, if_pos rfl]
        simp
      | succ j =>
        rw [List.getElem?_cons_succ] at hj
        rw [Nat.add_comm j, ← Nat.add_assoc, hafter j size' hj, Nat.add_comm 1 j,
          List.take_succ_cons, List.map_cons, List.sum_cons, Nat.add_assoc]

/-! ### Tables without slots in use -/

section Unused

variable (h : t.Sound) (hused : ∀ i, t.isUsed i = false)

include h hused

private theorem Sound.eq_blank (e : SlotEntry) (he : e ∈ t.entries) : e = {} := by
  obtain ⟨i, hi⟩ := List.mem_iff_getElem?.mp he
  have hfree := isUsed_of_entry hi
  rw [hused i] at hfree
  exact h.blank e he (by simpa using hfree.symm)

/-- Without a slot in use every tile is free. -/
private theorem Sound.isFree_of_unused (x : Nat) : t.tiles.IsFree x ↔ x < t.tiles.capacity := by
  have howners : t.owners x = 0 := by
    rw [owners, List.countP_eq_zero]
    intro e he
    simp [h.eq_blank hused e he, SlotEntry.Owns]
  rw [h.isFree_iff, howners]
  exact and_iff_left rfl

/-- Without a slot in use nothing is taken, and the rest is in one piece. -/
private theorem Sound.packed : t.Packed 0 0 where
  sound := h.tiles
  freeSlots := by
    rw [Nat.sub_zero, ← List.range_eq_range', freeSlots, List.filter_eq_self]
    intro i hi
    rw [h.entry_of_unused (hused i), if_pos (List.mem_range.mp hi)]
    rfl
  isFree x := by rw [h.isFree_of_unused hused, and_iff_right (Nat.zero_le x)]

/-- There is nothing to reset. -/
theorem Sound.reset_eq : { t with tiles := t.tiles.reset }.reset = t := by
  have hentries : t.entries.map (fun _ => {}) = t.entries := by
    conv_rhs => rw [← List.map_id t.entries]
    exact List.map_congr_left fun e he => (h.eq_blank hused e he).symm
  have htiles : t.tiles.reset = t.tiles := by
    refine (TilePool.Sound.new h.tiles.capacity_lt).ext h.tiles rfl fun x => ?_
    rw [TilePool.isFree_new, h.isFree_of_unused hused]
  have hoam : t.oam.hideAll = t.oam := by
    refine Oam.ext_tables (fun s => ?_) fun g => t.oam.matrix_hideAll g
    rw [Oam.words3_hideAll, h.hidden s (hused s)]
  rw [reset, hentries, htiles, hoam]

end Unused

end SlotTable

/-! ### Room for a grid -/

namespace Grid

/-- The number of tiles of the objects that show the first `k` cells. -/
def tilesBefore (g : Grid) (k : Nat) : Nat :=
  ((List.range k).map fun j => (g.cellSize (j % g.columns) (j / g.columns)).tiles).sum

private theorem sum_take_sizes (g : Grid) {k : Nat} (hk : k ≤ g.columns * g.rows) :
    ((g.sizes.take k).map ObjectSize.tiles).sum = g.tilesBefore k := by
  rw [tilesBefore, sizes_eq, ← List.map_take, List.take_range, Nat.mul_comm g.rows,
    Nat.min_eq_left hk, List.map_map]
  rfl

private theorem sum_sizes (g : Grid) :
    (g.sizes.map ObjectSize.tiles).sum = g.tilesBefore (g.columns * g.rows) := by
  rw [← sum_take_sizes g (Nat.le_refl _), Nat.mul_comm, ← length_sizes, List.take_length]

end Grid

/-- The engine has as many slots as the grid has cells, and as many tiles as their objects have. -/
def Config.HasRoom (c : Config) (g : Grid) : Prop :=
  g.columns * g.rows ≤ c.oamSlots ∧ g.tilesBefore (g.columns * g.rows) ≤ c.tileUnits

instance (c : Config) (g : Grid) : Decidable (c.HasRoom g) :=
  inferInstanceAs (Decidable (_ ∧ _))

/-- The cells of the grid have the slots from slot 0 on, and the tiles of these slots lie back to
back from tile 0 on. -/
def SlotTable.Fronts (t : SlotTable) (g : Grid) : Prop :=
  ∀ k < g.columns * g.rows,
    t.object? k = some (g.tilesBefore k, g.cellSize (k % g.columns) (k / g.columns))

/-- From a table in one piece, a grid gets the slots and the tiles at the front. -/
private theorem SlotTable.Packed.takeGrid {t : SlotTable} {g : Grid} (h : t.Packed 0 0)
    (hcells : g.columns * g.rows ≤ t.entries.length) (hlength : t.entries.length ≤ 128)
    (htiles : g.tilesBefore (g.columns * g.rows) ≤ t.tiles.capacity) :
    ∃ t', (t.takeGrid g).outcome = .ok (.ok (List.range (g.columns * g.rows)), t') ∧
      t'.Fronts g := by
  have hsizes : g.sizes.length = g.columns * g.rows := by rw [g.length_sizes, Nat.mul_comm]
  obtain ⟨t', htake, -, hobject⟩ := h.takeRest g.sizes (by omega) (by omega)
    (by rw [g.sum_sizes]; omega)
  rw [hsizes, Nat.zero_add] at htake
  refine ⟨t', ?_, fun k hk => ?_⟩
  · rw [SlotTable.takeGrid, if_neg (by omega)]
    exact htake
  · obtain ⟨size, hsize⟩ : ∃ size, g.sizes[k]? = some size :=
      ⟨_, List.getElem?_eq_getElem (by omega)⟩
    have hk' := hobject k size hsize
    obtain ⟨-, -, rfl⟩ := Grid.getElem?_sizes hsize
    rwa [g.sum_take_sizes (Nat.le_of_lt hk), Nat.zero_add, Nat.zero_add] at hk'

/-- The slots and tiles of a grid were there to be taken. -/
private theorem SlotTable.le_of_takeGrid {t t' : SlotTable} {g : Grid} {slots : List Nat}
    (h : t.tiles.Sound) (htake : (t.takeGrid g).outcome = .ok (.ok slots, t')) :
    g.columns * g.rows ≤ t.entries.length ∧
      g.tilesBefore (g.columns * g.rows) ≤ t.tiles.capacity := by
  obtain ⟨-, objects, hsizes, htaken⟩ := takeGrid_takenFirst h htake
  have hlength := congrArg List.length hsizes
  rw [List.length_map, g.length_sizes, Nat.mul_comm] at hlength
  have hslots := congrArg List.length htaken.freeSlots
  rw [List.length_append, htaken.object.length_eq, hlength] at hslots
  have hunits := htaken.units
  rw [← Function.comp_def ObjectSize.tiles, ← List.map_map, hsizes, g.sum_sizes] at hunits
  have := t.length_freeSlots_le
  have := t.tiles.card_freeTiles_le
  omega

/-! ### Engines without loaded sprites -/

private theorem AffinePool.Accounts.reset_eq {p : AffinePool} (h : p.Accounts []) :
    p.reset = p := by
  have hused : p.used = Vector.replicate 32 false := by
    refine Vector.ext fun g hg => ?_
    have hcount := h.count g
    simpa [isUsed, hg] using hcount.symm
  rw [reset, ← hused]

/-- Without references there are none for a reset to drop. -/
private theorem PaletteBank.Accounts.reset_eq {b : PaletteBank} (h : b.Accounts []) :
    b.reset = b := by
  refine b.sameColors_reset.eq fun i => ?_
  rw [refs_reset, h.refs]
  rfl

/-- Next to no color in use there is room for any colors that a texture may have. -/
private theorem PaletteBank.Accounts.fits {b : PaletteBank} (h : b.Accounts [])
    {colors : List UInt16} (hcolors : colors.length ≤ 255) : b.Fits colors := by
  have hlive : b.liveColors = ∅ := by
    ext color
    rw [mem_liveColors]
    simp [h.refs]
  rw [Fits, hlive, Finset.empty_union]
  exact (List.toFinset_card_le colors).trans hcolors

namespace Engine

variable {c : Config} {e : Engine} {s : Sprite} {sprites : List Sprite}

/-- What loading a sprite leads to if no sprite is loaded: the slots and tiles at the front, or an
error if there are not enough of them. -/
def LoadsFirst (c : Config) (s : Sprite) : Except PoolError Unit × Engine × Sprite → Prop
  | (.error cause, _, _) =>
    ¬ c.HasRoom s.texture.grid ∧ (cause = .outOfSlots ∨ cause = .outOfTiles)
  | (.ok (), e', s') => c.HasRoom s.texture.grid ∧ e'.slots.Fronts s.texture.grid ∧
    s'.heldSlots = List.range (s.texture.grid.columns * s.texture.grid.rows)

section Drained

variable (h : Sound c e sprites) (hsprites : ∀ s ∈ sprites, s.held = none)

include h hsprites

private theorem Sound.isUsed_eq_false (i : Nat) : e.slots.isUsed i = false := by
  refine Bool.eq_false_iff.mpr fun hused => ?_
  obtain ⟨s, hs, held, hheld, -⟩ := h.exists_holder hused
  exact absurd ((hsprites s hs).symm.trans hheld) (by simp)

private theorem Sound.accounts_nil : e.palette.Accounts [] := by
  have hrefs : sprites.flatMap Sprite.references = [] :=
    List.flatMap_eq_nil_iff.mpr fun s hs => Sprite.references_of_none (hsprites s hs)
  exact hrefs ▸ h.palette

/-- Nothing is in use, so that a reset changes nothing. -/
theorem Sound.reset_eq : e.reset = e := by
  have haffine := h.affine
  rw [List.filterMap_eq_nil_iff.mpr fun s hs => Sprite.heldGroup_of_none (hsprites s hs)] at haffine
  rw [reset, h.table.reset_eq (h.isUsed_eq_false hsprites), (h.accounts_nil hsprites).reset_eq,
    haffine.reset_eq]

/-- Slots and tiles are all that a load depends on. -/
private theorem Sound.load_first (hs : s.held = none) : (e.load s).Yields (LoadsFirst c s) := by
  have hpacked := h.table.packed (h.isUsed_eq_false hsprites)
  have hroom : c.HasRoom s.texture.grid ↔
      s.texture.grid.columns * s.texture.grid.rows ≤ e.slots.entries.length ∧
        s.texture.grid.tilesBefore (s.texture.grid.columns * s.texture.grid.rows) ≤
          e.slots.tiles.capacity := by
    rw [h.length, h.capacity, Config.HasRoom]
  have hpalette := h.accounts_nil hsprites
  have hcolors := s.texture.length_colors_le
  have hfew : ([] : List (UInt8 × UInt16)).length + s.texture.colors.length < 65536 := by
    rw [List.length_nil]
    omega
  rw [load, if_neg (by simp [Sprite.isLoaded, hs])]
  refine ((PaletteBank.bindAll_spec hpalette hfew).and
    (PaletteBank.bindAll_fits hpalette (hpalette.not_overflows hfew))).bind ?_
  rintro ⟨cause | k, palette⟩ ⟨hk, hfits⟩
  · exact absurd (hpalette.fits hcolors) hfits.1
  · refine (SlotTable.takeGrid_spec h.table _).outcome.bind ?_
    rintro ⟨cause | slots, table⟩ ⟨ht, htake⟩
    · refine (PaletteBank.cancel_spec hk.2.1).bind fun palette' _ => .pure ⟨fun hfull => ?_, ht.2⟩
      obtain ⟨hcells, htiles⟩ := hroom.mp hfull
      obtain ⟨table', htake', -⟩ := hpacked.takeGrid hcells h.table.length_le htiles
      simp [htake] at htake'
    · have hfull := SlotTable.le_of_takeGrid h.table.tiles htake
      obtain ⟨table', htake', hfronts⟩ := hpacked.takeGrid hfull.1 h.table.length_le hfull.2
      obtain ⟨rfl, rfl⟩ : slots = _ ∧ table = table' := by simpa [htake] using htake'
      exact .note_bind id (.pure ⟨hroom.mpr hfull, hfronts, rfl⟩)

end Drained

end Engine

namespace Stage

variable {c : Config} {e : Engine}

/-- Wherever a run has led a stage, if no sprite is loaded, then a reset would change nothing, and a
sprite can be loaded exactly if the engine has a slot for each of its cells and tiles for their
objects. The cells get the slots from slot 0 on, row by row, with tiles that lie back to back from
tile 0 on. The palette is never in the way. -/
theorem drained_loads_as_new (he : Engine.new c = .ok e) (textures : List Texture)
    (calls : List (Nat × Call)) :
    ∃ w, ((start e textures).run calls).outcome = .ok w ∧ ((∀ s ∈ w.sprites, s.held = none) →
      w.engine.reset = w.engine ∧ ∀ s : Sprite, s.held = none → ∃ answer e' s',
        (w.engine.load s).outcome = .ok (answer, e', s') ∧
        (answer = .ok () ↔ c.HasRoom s.texture.grid) ∧
        (∀ cause, answer = .error cause → cause = .outOfSlots ∨ cause = .outOfTiles) ∧
        (answer = .ok () → e'.slots.Fronts s.texture.grid ∧
          s'.heldSlots = List.range (s.texture.grid.columns * s.texture.grid.rows))) := by
  obtain ⟨w, hw, hsound⟩ := exists_run he textures calls
  refine ⟨w, hw, fun hsprites => ⟨Engine.Sound.reset_eq hsound hsprites, fun s hs => ?_⟩⟩
  obtain ⟨-, ⟨answer, e', s'⟩, hload, hfirst⟩ := Engine.Sound.load_first hsound hsprites hs
  refine ⟨answer, e', s', hload, ?_⟩
  cases answer with
  | error cause =>
    refine ⟨iff_of_false (by simp) hfirst.1, ?_, by simp⟩
    rintro _ ⟨⟩
    exact hfirst.2
  | ok => exact ⟨iff_of_true rfl hfirst.1, by simp, fun _ => hfirst.2⟩

/-- After a sprite was loaded, drawn and freed, another one gets all the tiles there are. -/
theorem drained_loads_as_new_allTiles :
    ∃ w, ((start (.ofConfig ⟨33, 2, 1⟩) [.blackTile]).run
      [(0, .load), (0, .restyle { scaleX := .zero }), (0, .draw), (0, .free)]).outcome = .ok w ∧
      (∀ s ∈ w.sprites, s.held = none) ∧ ∃ e' s',
        (w.engine.load { texture := .blackRow }).outcome = .ok (.ok (), e', s') ∧
        s'.heldSlots = [0, 1] ∧ e'.slots.object? 0 = some (0, ⟨.horizontal, 3⟩) ∧
        e'.slots.object? 1 = some (32, .tile) := by
  have hfreed : (((start (.ofConfig ⟨33, 2, 1⟩) [.blackTile]).run
      [(0, .load), (0, .restyle { scaleX := .zero }), (0, .draw), (0, .free)]).outcome.map
        fun w => w.sprites.all fun s => s.held.isNone) = .ok true := by decide +kernel
  have hroom : Config.HasRoom ⟨33, 2, 1⟩ Texture.blackRow.grid := by decide +kernel
  obtain ⟨w, hw, hdrained⟩ := drained_loads_as_new (c := ⟨33, 2, 1⟩) rfl [.blackTile]
    [(0, .load), (0, .restyle { scaleX := .zero }), (0, .draw), (0, .free)]
  rw [hw] at hfreed
  have hsprites : ∀ s ∈ w.sprites, s.held = none := by
    simpa using Except.ok.inj hfreed
  obtain ⟨-, hloads⟩ := hdrained hsprites
  obtain ⟨answer, e', s', hload, hanswer, -, hfirst⟩ := hloads { texture := .blackRow } rfl
  obtain rfl := hanswer.mpr hroom
  obtain ⟨hfronts, hslots⟩ := hfirst rfl
  exact ⟨w, hw, hsprites, e', s', hload, hslots, hfronts 0 (by decide), hfronts 1 (by decide)⟩

end Stage

end SpriteEngine
