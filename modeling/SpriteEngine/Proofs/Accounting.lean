import SpriteEngine.Proofs.Stage

/-!
# The accounts of a stage are exact

The pools of an engine know what is in use and the sprites know what they hold.
`Stage.AccountsExactly` says that the two agree in every detail: for slots, tiles, palette entries
and affine groups. It speaks about the entries, the zones, the counts and the flags themselves, and
`Stage.Sound.accountsExactly` derives it from the invariant of the stage.

For tiles this says more than that none is lost. The free zones are kept in a list that merges zones
when they touch, and whatever the order in which tiles were given back, that list is the same: it is
the only list of zones in ascending order, none of them empty and no two of them touching, that has
the tiles which no slot owns.
-/

namespace SpriteEngine.Stage

variable {c : Config} {e : Engine} {w : Stage}

/-- The tile exists and belongs to no slot in use. -/
def IsSpare (c : Config) (w : Stage) (tile : Nat) : Prop :=
  tile < c.tileUnits ∧ ∀ entry ∈ w.engine.slots.entries, ¬ entry.Owns tile

/-- What the pools of the engine say is in use is what the sprites of the stage hold. -/
structure AccountsExactly (c : Config) (w : Stage) : Prop where
  /-- A slot in use is held once among all sprites, and a free slot is not held. -/
  slots : ∀ (slot : Nat) entry, w.engine.slots.entries[slot]? = some entry →
    (w.sprites.flatMap Sprite.heldSlots).count slot = if entry.free then 0 else 1
  /-- What is held are slots of the engine. -/
  slots_lt : ∀ slot ∈ w.sprites.flatMap Sprite.heldSlots, slot < w.engine.slots.entries.length
  /-- Every tile is in one zone or belongs to one slot in use, and never both. -/
  tiles : ∀ tile, w.engine.slots.entries.countP (·.Owns tile) +
    w.engine.slots.tiles.zones.countP (·.Covers tile) = if tile < c.tileUnits then 1 else 0
  /-- There is one list of zones in ascending order that has exactly the spare tiles. -/
  zones : ∀ zones, zones = w.engine.slots.tiles.zones ↔
    Zone.Ascending zones ∧ ∀ tile, Zone.Covered zones tile ↔ w.IsSpare c tile
  /-- The zones are the runs of spare tiles that cannot be extended. -/
  maximal : ∀ zone, zone ∈ w.engine.slots.tiles.zones ↔ 0 < zone.length ∧
    (∀ tile, zone.Covers tile → w.IsSpare c tile) ∧ ¬ w.IsSpare c (zone.start + zone.length) ∧
      (0 < zone.start → ¬ w.IsSpare c (zone.start - 1))
  /-- A palette entry has as many references as there are sprites' colors bound to it. -/
  colors : ∀ index ≠ 0, w.engine.palette.refCount index =
    (w.sprites.flatMap Sprite.heldColors).count index
  /-- An affine group in use is held by one sprite, and a free one by none. -/
  groups : ∀ group, w.sprites.countP (·.heldGroup = some group) =
    (w.engine.affine.isUsed group).toNat

/-- The zones cover the spare tiles. -/
private theorem Sound.covered_iff (h : Sound c w) (tile : Nat) :
    Zone.Covered w.engine.slots.tiles.zones tile ↔ w.IsSpare c tile := by
  change w.engine.slots.tiles.IsFree tile ↔ _
  rw [h.table.isFree_iff, h.capacity, SlotTable.owners, List.countP_eq_zero]
  simp only [decide_eq_true_eq, IsSpare]

theorem Sound.accountsExactly (h : Sound c w) : AccountsExactly c w where
  slots slot entry hentry := by
    rw [h.slots, SlotTable.isUsed_of_entry hentry]
    cases entry.free <;> rfl
  slots_lt := by
    intro slot hslot
    have hused := h.isUsed hslot
    by_contra hlt
    simp [SlotTable.isUsed, List.getElem?_eq_none (Nat.not_lt.mp hlt)] at hused
  tiles := by
    intro tile
    have hshared := h.table.shared tile
    rw [h.capacity] at hshared
    rw [h.table.tiles.ascending.countP_covers]
    exact hshared
  zones := by
    intro zones
    constructor
    · rintro rfl
      exact ⟨h.table.tiles.ascending, h.covered_iff⟩
    · rintro ⟨hascending, hcovered⟩
      refine hascending.eq_of_covered h.table.tiles.ascending fun tile => ?_
      rw [hcovered, h.covered_iff]
  maximal := by
    intro zone
    rw [h.table.tiles.ascending.mem_iff]
    simp only [h.covered_iff]
  colors := by
    intro index hindex
    obtain ⟨i, rfl⟩ := PaletteBank.exists_indexOf hindex
    rw [PaletteBank.refCount_indexOf, h.palette.refs, h.map_references]
  groups := by
    intro group
    rw [← h.affine.count, List.count_filterMap]
    exact List.countP_congr fun s _ => by simp

/-- Wherever a run has led a stage, the accounts are exact. The run itself always ends. -/
theorem run_accountsExactly (he : Engine.new c = .ok e) (textures : List Texture)
    (calls : List (Nat × Call)) :
    ∃ w, ((start e textures).run calls).outcome = .ok w ∧ AccountsExactly c w := by
  obtain ⟨w, hw, hsound⟩ := exists_run he textures calls
  exact ⟨w, hw, hsound.accountsExactly⟩

/-- With three tiles and two slots, one of three sprites is refused and another freed. -/
theorem run_accountsExactly_threeTiles :
    ∃ w, ((start (.ofConfig ⟨3, 2, 1⟩) [.blackTile, .blackTile, .blackTile]).run [(0, .load),
      (1, .load), (2, .load), (1, .restyle { scaleX := .zero }), (1, .draw), (0, .free)]).outcome =
        .ok w ∧ AccountsExactly ⟨3, 2, 1⟩ w :=
  run_accountsExactly rfl _ _

end SpriteEngine.Stage
