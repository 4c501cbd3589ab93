import SpriteEngine.Proofs.FirstFit

/-!
# The objects of a grid cover the picture

The object of a cell has its upper left corner at the upper left corner of the cell. `Grid.Shows`
says which tiles of the picture are inside of it. An object is large enough for a cell if it shows
every tile of the picture that is in the cell (`Grid.FitsCell`), and the size chosen for a cell is
one with the fewest tiles among those that are (`Grid.fitsCell_cellSize`, `Grid.cellSize_le`).

`SlotTable.FillsGrid` is all that follows for the slots of a grid. Their objects show each tile of
the picture once, with as few tiles as possible, and these tiles are taken from the free ones.
-/

namespace SpriteEngine

/-! ### Object sizes -/

private theorem ObjectSize.edges_le (s : ObjectSize) : s.widthTiles ≤ 8 ∧ s.heightTiles ≤ 8 := by
  obtain ⟨shape, size⟩ := s
  cases shape <;> revert size <;> decide

/-- No object that is large enough for a rectangle has fewer tiles than the one chosen for it. -/
private theorem ObjectSize.cover_le {width height : Nat} {s : ObjectSize}
    (hw : width ≤ s.widthTiles) (hh : height ≤ s.heightTiles) :
    (cover width height).tiles ≤ s.tiles := by
  have hall : ∀ shape ∈ [Shape.square, .horizontal, .vertical], ∀ size : Fin 4,
      ∀ w ≤ widthTiles ⟨shape, size⟩, ∀ h ≤ heightTiles ⟨shape, size⟩,
        (cover w h).tiles ≤ tiles ⟨shape, size⟩ := by
    decide +kernel
  exact hall s.shape (by cases s.shape <;> decide) s.size width hw height hh

namespace Grid

variable {g : Grid} {k x y : Nat} {size : ObjectSize}

/-! ### Objects and cells -/

/-- The tile of the picture in column `x` and row `y` is inside of an object that has the upper left
corner of cell `k`. -/
def Shows (g : Grid) (k : Nat) (size : ObjectSize) (x y : Nat) : Prop :=
  (k % g.columns * 8 ≤ x ∧ x < k % g.columns * 8 + size.widthTiles) ∧
    k / g.columns * 8 ≤ y ∧ y < k / g.columns * 8 + size.heightTiles

/-- An object of the given size shows every tile of the picture that is in cell `k`. -/
def FitsCell (g : Grid) (k : Nat) (size : ObjectSize) : Prop :=
  ∀ x < g.width, ∀ y < g.height, x / 8 = k % g.columns → y / 8 = k / g.columns → g.Shows k size x y

/-- An object shows tiles of its own cell only. -/
private theorem Shows.cell (h : g.Shows k size x y) :
    x / 8 = k % g.columns ∧ y / 8 = k / g.columns := by
  obtain ⟨⟨hx, hx'⟩, hy, hy'⟩ := h
  have hedges := size.edges_le
  omega

/-- Column and row determine the cell. -/
private theorem cell_inj {j : Nat} (hmod : j % g.columns = k % g.columns)
    (hdiv : j / g.columns = k / g.columns) : j = k := by
  rw [← Nat.div_add_mod j g.columns, hmod, hdiv, Nat.div_add_mod]

private theorem cellEdge_pos (tiles i : Nat) : 0 < cellEdge tiles i := by
  rw [cellEdge, cellsAlong]
  split <;> omega

/-- An object is large enough for a cell if its edges are. -/
theorem fitsCell_iff (hcolumn : k % g.columns < g.columns) (hrow : k / g.columns < g.rows) :
    g.FitsCell k size ↔ g.cellWidth (k % g.columns) ≤ size.widthTiles ∧
      g.cellHeight (k / g.columns) ≤ size.heightTiles := by
  rw [cellWidth, cellHeight]
  constructor
  · intro h
    have hw := cellEdge_pos g.width (k % g.columns)
    have hw8 := cellEdge_le g.width (k % g.columns)
    have hh := cellEdge_pos g.height (k / g.columns)
    have hh8 := cellEdge_le g.height (k / g.columns)
    -- the tile in the lower right corner of the cell is the one that decides
    obtain ⟨⟨-, hx⟩, -, hy⟩ := h _ (tile_lt hcolumn (Nat.sub_lt hw Nat.one_pos)) _
      (tile_lt hrow (Nat.sub_lt hh Nat.one_pos)) (by omega) (by omega)
    omega
  · rintro ⟨hwidth, hheight⟩ x hx y hy hxcell hycell
    have hplace := (place_lt hx).2
    have hplace' := (place_lt hy).2
    rw [hxcell] at hplace
    rw [hycell] at hplace'
    constructor <;> omega

theorem fitsCell_cellSize (hcolumn : k % g.columns < g.columns) (hrow : k / g.columns < g.rows) :
    g.FitsCell k (g.cellSize (k % g.columns) (k / g.columns)) :=
  (fitsCell_iff hcolumn hrow).mpr ⟨g.cellWidth_le .., g.cellHeight_le ..⟩

/-- The size of a cell is one with the fewest tiles among those that are large enough. -/
theorem cellSize_le (hcolumn : k % g.columns < g.columns) (hrow : k / g.columns < g.rows)
    (h : g.FitsCell k size) : (g.cellSize (k % g.columns) (k / g.columns)).tiles ≤ size.tiles := by
  obtain ⟨hwidth, hheight⟩ := (fitsCell_iff hcolumn hrow).mp h
  exact ObjectSize.cover_le hwidth hheight

/-- The objects of the cells show each tile of the picture once. -/
private theorem exists_shows (hx : x < g.width) (hy : y < g.height) :
    ∃ k, k % g.columns = x / 8 ∧ k / g.columns = y / 8 ∧
      ∀ j, (∃ size, g.sizes[j]? = some size ∧ g.Shows j size x y) ↔ j = k := by
  have hcolumn : x / 8 < g.columns := (place_lt hx).1
  have hrow : y / 8 < g.rows := (place_lt hy).1
  have hmod := rowMajor_mod hcolumn (y / 8)
  have hdiv := rowMajor_div hcolumn (y / 8)
  refine ⟨y / 8 * g.columns + x / 8, hmod, hdiv, fun j => ⟨?_, ?_⟩⟩
  · rintro ⟨size, -, hshows⟩
    obtain ⟨hxcell, hycell⟩ := hshows.cell
    exact cell_inj (hxcell.symm.trans hmod.symm) (hycell.symm.trans hdiv.symm)
  · rintro rfl
    obtain ⟨size, hsize⟩ : ∃ size, g.sizes[y / 8 * g.columns + x / 8]? = some size :=
      ⟨_, List.getElem?_eq_getElem (by rw [length_sizes]; exact rowMajor_lt hcolumn hrow)⟩
    obtain ⟨hcolumn', hrow', rfl⟩ := getElem?_sizes hsize
    exact ⟨_, hsize, fitsCell_cellSize hcolumn' hrow' x hx y hy hmod.symm hdiv.symm⟩

end Grid

namespace SlotTable

variable {t t' : SlotTable} {g : Grid} {slots : List Nat} {objects : List (Nat × ObjectSize)}

/-! ### The slots of a grid -/

/-- The table `t'` is `t` after the given slots were taken for the cells of a grid. The objects are
the first tiles and the sizes of the slots, cell by cell. -/
structure FillsGrid (t : SlotTable) (g : Grid) (slots : List Nat)
    (objects : List (Nat × ObjectSize)) (t' : SlotTable) : Prop where
  length : slots.length = g.columns * g.rows
  length_le : slots.length ≤ 128
  ascending : slots.Pairwise (· < ·)
  /-- The slots are the first of those that were free, and the others are free still. -/
  freeSlots : t.freeSlots = slots ++ t'.freeSlots
  entries : ∀ i, i ∉ slots → t'.entries[i]? = t.entries[i]?
  object : List.Forall₂ (fun slot object => t'.object? slot = some object) slots objects
  /-- A tile of the picture is inside of one object, the one of its cell. -/
  shows : ∀ x < g.width, ∀ y < g.height, ∃ k, k % g.columns = x / 8 ∧ k / g.columns = y / 8 ∧
    ∀ j, (∃ object, objects[j]? = some object ∧ g.Shows j object.2 x y) ↔ j = k
  /-- Objects that would do for a cell as well do not have fewer tiles. -/
  fewest : ∀ k object, objects[k]? = some object → g.FitsCell k object.2 ∧
    ∀ size, g.FitsCell k size → object.2.tiles ≤ size.tiles
  disjoint : objects.Pairwise fun object other => ∀ x, ¬ (Occupies object x ∧ Occupies other x)
  /-- The tiles of the objects were free, and the other free tiles are free still. -/
  wasFree : ∀ x, t.tiles.IsFree x ↔ t'.tiles.IsFree x ∨ ∃ object ∈ objects, Occupies object x
  notFree : ∀ object ∈ objects, ∀ x, Occupies object x → ¬ t'.tiles.IsFree x
  units : ∃ n, t'.tiles.freeUnits = .ok n ∧
    t.tiles.freeUnits = .ok (n + (objects.map fun object => object.2.tiles).sum)

/-- Objects that were taken one after the other have no tile in common. -/
private theorem TakenFirst.disjoint (h : TakenFirst t slots objects t') :
    objects.Pairwise fun object other => ∀ x, ¬ (Occupies object x ∧ Occupies other x) := by
  rw [List.pairwise_iff_getElem]
  rintro i j hi hj hlt x ⟨hx, hx'⟩
  have hle : objects.countP (Occupies · x) ≤ 1 := by
    have := h.shared x
    split at this <;> split at this <;> omega
  have := getElem?_unique hle (List.getElem?_eq_getElem hi) (List.getElem?_eq_getElem hj)
    (decide_eq_true hx) (decide_eq_true hx')
  omega

/-- Slots are taken in order, as they are the first free ones. -/
private theorem TakenFirst.ascending (h : TakenFirst t slots objects t') :
    slots.Pairwise (· < ·) := by
  have hfree := t.pairwise_freeSlots
  rw [h.freeSlots] at hfree
  exact (List.pairwise_append.mp hfree).1

private theorem countP_occupies_pos {x : Nat} :
    0 < objects.countP (Occupies · x) ↔ ∃ object ∈ objects, Occupies object x := by
  simp [List.countP_pos_iff]

/-- The tiles that were free are those still free and those of the objects. -/
private theorem TakenFirst.wasFree_iff (h : TakenFirst t slots objects t') (x : Nat) :
    t.tiles.IsFree x ↔ t'.tiles.IsFree x ∨ ∃ object ∈ objects, Occupies object x := by
  have hshared := h.shared x
  rw [← countP_occupies_pos]
  grind

private theorem TakenFirst.not_isFree (h : TakenFirst t slots objects t')
    {object : Nat × ObjectSize} (hmem : object ∈ objects) {x : Nat} (hx : Occupies object x) :
    ¬ t'.tiles.IsFree x := by
  have hshared := h.shared x
  have hpos := countP_occupies_pos.mpr ⟨object, hmem, hx⟩
  grind

/-- What the loop has taken, one after the other, covers the grid. -/
private theorem TakenFirst.fillsGrid (h : TakenFirst t slots objects t') (ht : t.tiles.Sound)
    (hsizes : objects.map Prod.snd = g.sizes) (hle : g.columns * g.rows ≤ 128) :
    t.FillsGrid g slots objects t' := by
  have hlength : slots.length = g.columns * g.rows := by
    rw [h.object.length_eq, ← List.length_map Prod.snd, hsizes, g.length_sizes, Nat.mul_comm]
  have hsize : ∀ (k : Nat) size, g.sizes[k]? = some size ↔
      ∃ tile, objects[k]? = some (tile, size) := by
    intro k size
    simp [← hsizes]
  refine ⟨hlength, hlength ▸ hle, h.ascending, h.freeSlots, h.entries, h.object,
    fun x hx y hy => ?_, fun k object hobject => ?_, h.disjoint, h.wasFree_iff,
    fun object hmem x => h.not_isFree hmem, ?_⟩
  · obtain ⟨k, hcolumn, hrow, hk⟩ := Grid.exists_shows hx hy
    refine ⟨k, hcolumn, hrow, fun j => ?_⟩
    rw [← hk]
    constructor
    · rintro ⟨⟨tile, size⟩, hobject, hshows⟩
      exact ⟨size, (hsize j size).mpr ⟨tile, hobject⟩, hshows⟩
    · rintro ⟨size, hobject, hshows⟩
      obtain ⟨tile, hobject⟩ := (hsize j size).mp hobject
      exact ⟨(tile, size), hobject, hshows⟩
  · obtain ⟨hcolumn, hrow, heq⟩ := Grid.getElem?_sizes ((hsize k object.2).mpr ⟨_, hobject⟩)
    rw [heq]
    exact ⟨Grid.fitsCell_cellSize hcolumn hrow, fun size => Grid.cellSize_le hcolumn hrow⟩
  · exact ⟨_, h.sound.freeUnits_eq_card, h.units ▸ ht.freeUnits_eq_card⟩

/-- The objects of a grid cover the picture exactly and with as few tiles as possible, whatever is
in use in the table and however the pool of tiles came about. -/
theorem takeGrid_fillsGrid {capacity : Nat} (hcap : capacity < 65536) {calls : List TileCall}
    (hcalls : ∀ call ∈ calls, call.InRange capacity) {answers : List TileAnswer}
    (hpool : session TilePool.serve (.new capacity) calls = .ok (answers, t.tiles))
    (htake : (t.takeGrid g).outcome = .ok (.ok slots, t')) :
    ∃ objects, t.FillsGrid g slots objects t' := by
  have ht : t.tiles.Sound := by
    obtain ⟨_, _, _, hp, -, hmirrors⟩ | ⟨hp, -⟩ :=
      TilePool.session_mirrors (TilePool.Mirrors.new hcap) hcalls
    · obtain ⟨-, heq⟩ := Prod.mk.inj (Except.ok.inj (hpool.symm.trans hp))
      exact heq ▸ hmirrors.sound
    · simp [hpool] at hp
  obtain ⟨hle, objects, hsizes, h⟩ := takeGrid_takenFirst ht htake
  exact ⟨objects, h.fillsGrid ht hsizes hle⟩

/-- Slot 1 is in use and the free tiles are in two pieces. The object of the first cell is too large
for the first of them, where the object of the second cell is. -/
theorem takeGrid_fillsGrid_fragmented :
    let t : SlotTable := ⟨[{}, { free := false, tile := 3, size := ⟨.horizontal, 0⟩ }, {}, {}],
      ⟨100, [⟨0, 3⟩, ⟨5, 95⟩]⟩, .blank⟩
    let t' : SlotTable := ⟨[{ free := false, tile := 5, size := ⟨.horizontal, 3⟩ },
      { free := false, tile := 3, size := ⟨.horizontal, 0⟩ }, { free := false }, {}],
      ⟨100, [⟨1, 2⟩, ⟨37, 63⟩]⟩, .blank⟩
    (∃ answers, session TilePool.serve (.new 100) [.reserve 3, .reserve 2, .release 0 3] =
      .ok (answers, t.tiles)) ∧ (t.takeGrid ⟨9, 1⟩).outcome = .ok (.ok [0, 2], t') ∧
        ∃ objects, t.FillsGrid ⟨9, 1⟩ [0, 2] objects t' := by
  intro t t'
  have hpool : session TilePool.serve (.new 100) [.reserve 3, .reserve 2, .release 0 3] =
      .ok ([.ok (some 0), .ok (some 3), .ok none], t.tiles) := by decide +kernel
  have htake : (t.takeGrid ⟨9, 1⟩).outcome = .ok (.ok [0, 2], t') := rfl
  have hcalls : ∀ call ∈ [TileCall.reserve 3, .reserve 2, .release 0 3], call.InRange 100 := by
    simp [TileCall.InRange]
  exact ⟨⟨_, hpool⟩, htake, takeGrid_fillsGrid (by decide) hcalls hpool htake⟩

end SlotTable

end SpriteEngine
