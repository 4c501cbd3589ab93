import SpriteEngine.Proofs.Layout

/-!
# Sprites that are drawn without an affine group

Without an affine group the hardware shows the objects of a sprite in their own size. Cells that are
64 pixels apart then touch, and `Sprite.PlacesUnscaled` says that a cell stands there.

A sprite that is not scaled has no group and is laid out in this way. But a scaled sprite may have
none either, if all groups are in use when it is drawn. Its cells are laid out with its scale all
the same, while their objects are shown without it. `Sprite.KeepsPlace` is the exact condition under
which the scale does not move a cell: what it adds to the fraction of the position does not make up
a pixel, up to multiples of the screen. `Stage.DrawsUngrouped` says when a draw leads to this case,
and that it is announced.
-/

namespace SpriteEngine

/-! ### Positions with and without the scale -/

namespace Sprite

variable {s : Sprite} {group : Option Nat} {column row : Nat} {attrs attrs' : Attributes}

/-- The attributes put the cell at the given column and row where it stands without a scale. -/
structure PlacesUnscaled (s : Sprite) (column row : Nat) (attrs : Attributes) : Prop where
  x : (attrs.x.toNat : Int) = (s.x.bits.toInt / 256 + 64 * column) % 512
  y : (attrs.y.toNat : Int) = (s.y.bits.toInt / 256 + 64 * row) % 256

/-- The scale of the sprite moves the cell at the given column and row by less than a pixel, up to
multiples of the screen. -/
structure KeepsPlace (s : Sprite) (column row : Nat) : Prop where
  x : (s.x.bits.toInt % 256 + 64 * column * (s.scaleX.bits.toInt - 256)) % (256 * 512) < 256
  y : (s.y.bits.toInt % 256 + 64 * row * (s.scaleY.bits.toInt - 256)) % (256 * 256) < 256

/-- A position is rounded to the same pixel with and without a scale exactly if the fraction of the
origin and what the scale adds to it are less than a pixel together. -/
private theorem scaled_position_eq_iff (origin scale cell : Int) {m : Int} (hm : 0 < m) :
    (origin + 64 * cell * scale) / 256 % m = (origin / 256 + 64 * cell) % m ↔
      (origin % 256 + 64 * cell * (scale - 256)) % (256 * m) < 256 := by
  have hsplit : origin + 64 * cell * scale =
      origin % 256 + 64 * cell * (scale - 256) + 256 * (origin / 256 + 64 * cell) := by
    have := Int.emod_add_mul_ediv origin 256
    rw [Int.mul_sub]
    omega
  rw [hsplit, Int.add_mul_ediv_left _ _ (by decide), Int.add_comm,
    Int.emod_eq_emod_iff_emod_sub_eq_zero, add_sub_cancel_left, ← Fixed.emod_mul_ediv]
  have hnonneg : 0 ≤ (origin % 256 + 64 * cell * (scale - 256)) % (256 * m) :=
    Int.emod_nonneg _ (by omega)
  omega

/-- A cell is where it stands without a scale exactly if the scale does not move it. -/
private theorem Places.unscaled_iff (h : s.Places group column row attrs) :
    s.PlacesUnscaled column row attrs ↔ s.KeepsPlace column row := by
  have hx := scaled_position_eq_iff s.x.bits.toInt s.scaleX.bits.toInt column (m := 512) (by decide)
  have hy := scaled_position_eq_iff s.y.bits.toInt s.scaleY.bits.toInt row (m := 256) (by decide)
  rw [← h.x] at hx
  rw [← h.y] at hy
  exact ⟨fun hplaces => ⟨hx.mp hplaces.x, hy.mp hplaces.y⟩,
    fun hkeeps => ⟨hx.mpr hkeeps.x, hy.mpr hkeeps.y⟩⟩

/-- The cells of a sprite that is not scaled keep their places. -/
private theorem keepsPlace_of_not_isScaled (h : s.isScaled = false) (column row : Nat) :
    s.KeepsPlace column row := by
  obtain ⟨hx, hy⟩ : s.scaleX = .one ∧ s.scaleY = .one := by simpa [isScaled] using h
  have hone : Fixed.one.bits.toInt - 256 = 0 := by decide
  constructor
  · rw [hx, hone, Int.mul_zero, Int.add_zero]
    omega
  · rw [hy, hone, Int.mul_zero, Int.add_zero]
    omega

/-- The cell in the next column starts 64 pixels further on, around the screen. -/
private theorem PlacesUnscaled.next_column (h : s.PlacesUnscaled column row attrs)
    (h' : s.PlacesUnscaled (column + 1) row attrs') :
    (attrs.x.toNat + 64) % 512 = attrs'.x.toNat := by
  have hx := h.x
  have hx' := h'.x
  push_cast at hx'
  omega

/-- The cell in the next row starts 64 pixels further down, around the screen. -/
private theorem PlacesUnscaled.next_row (h : s.PlacesUnscaled column row attrs)
    (h' : s.PlacesUnscaled column (row + 1) attrs') :
    (attrs.y.toNat + 64) % 256 = attrs'.y.toNat := by
  have hy := h.y
  have hy' := h'.y
  push_cast at hy'
  omega

end Sprite

/-! ### Neighbours -/

private theorem ObjectSize.cover_eight {n : Nat} (hn : n ≤ 8) :
    (cover 8 n).widthPx = 64 ∧ (cover n 8).heightPx = 64 := by
  have hall : ∀ n < 9, (cover 8 n).widthPx = 64 ∧ (cover n 8).heightPx = 64 := by decide +kernel
  exact hall n (by omega)

namespace Grid

variable {g : Grid} {column row : Nat}

/-- An object is as wide as the cells are apart, if it is not in the last column. -/
private theorem widthPx_cellSize (h : column + 1 < g.columns) :
    (g.cellSize column row).widthPx = 64 := by
  have hwidth : g.cellWidth column = 8 := if_neg (Nat.ne_of_lt h)
  rw [cellSize, hwidth]
  exact (ObjectSize.cover_eight (cellEdge_le ..)).1

/-- An object is as high as the cells are apart, if it is not in the last row. -/
private theorem heightPx_cellSize (h : row + 1 < g.rows) :
    (g.cellSize column row).heightPx = 64 := by
  have hheight : g.cellHeight row = 8 := if_neg (Nat.ne_of_lt h)
  rw [cellSize, hheight]
  exact (ObjectSize.cover_eight (cellEdge_le ..)).2

end Grid

/-- The size of the object that the attributes describe. -/
def Attributes.objectSize (attrs : Attributes) : ObjectSize :=
  ⟨attrs.shape, attrs.size⟩

/-- The cells of a sprite, which have the given slots, are laid out with its scale, but shown in
their own size. -/
structure SlotTable.LaysOut (t : SlotTable) (slots : List Nat) (s : Sprite) : Prop where
  slot_lt : ∀ slot ∈ slots, slot < 128
  places : ∀ (k : Nat) (slot : Fin 128), slots[k]? = some slot.val →
    s.Places none (k % s.texture.grid.columns) (k / s.texture.grid.columns)
      (t.oam.words3 slot).decode
  /-- A cell stands where it does without a scale exactly if the scale does not move it. -/
  unscaled_iff : ∀ (k : Nat) (slot : Fin 128), slots[k]? = some slot.val →
    (s.PlacesUnscaled (k % s.texture.grid.columns) (k / s.texture.grid.columns)
        (t.oam.words3 slot).decode ↔
      s.KeepsPlace (k % s.texture.grid.columns) (k / s.texture.grid.columns))
  unscaled : s.isScaled = false → ∀ (k : Nat) (slot : Fin 128), slots[k]? = some slot.val →
    s.PlacesUnscaled (k % s.texture.grid.columns) (k / s.texture.grid.columns)
      (t.oam.words3 slot).decode
  /-- Where an object ends, the one in the next column begins. -/
  beside : s.isScaled = false → ∀ (k j : Nat) (slot next : Fin 128), slots[k]? = some slot.val →
    slots[j]? = some next.val → j % s.texture.grid.columns = k % s.texture.grid.columns + 1 →
      j / s.texture.grid.columns = k / s.texture.grid.columns →
        ((t.oam.words3 slot).decode.x.toNat + (t.oam.words3 slot).decode.objectSize.widthPx) %
          512 = (t.oam.words3 next).decode.x.toNat
  /-- Where an object ends, the one in the next row begins. -/
  below : s.isScaled = false → ∀ (k j : Nat) (slot next : Fin 128), slots[k]? = some slot.val →
    slots[j]? = some next.val → j % s.texture.grid.columns = k % s.texture.grid.columns →
      j / s.texture.grid.columns = k / s.texture.grid.columns + 1 →
        ((t.oam.words3 slot).decode.y.toNat + (t.oam.words3 slot).decode.objectSize.heightPx) %
          256 = (t.oam.words3 next).decode.y.toNat

namespace Engine

variable {c : Config} {e e' : Engine} {s s' : Sprite} {rest : List Sprite} {held : Holding}
  {groups : List Nat}

/-- What a descriptor says after a draw: the place of its cell, and the size of the object that
shows the cell. -/
private theorem Draws.cell (h : Sound c e (s :: rest)) (h' : Sound c e' (s' :: rest))
    (hd : e.Draws s groups (.ok (), e', s')) (hheld : s'.held = some held) (htidy : e'.Tidy held)
    (hframe : held.frame ≠ none) {k : Nat} {slot : Fin 128} (hk : held.slots[k]? = some slot.val) :
    k % s.texture.grid.columns < s.texture.grid.columns ∧
      k / s.texture.grid.columns < s.texture.grid.rows ∧
      s.Places held.affine (k % s.texture.grid.columns) (k / s.texture.grid.columns)
        (e'.slots.oam.words3 slot).decode ∧
      (e'.slots.oam.words3 slot).decode.objectSize =
        s.texture.grid.cellSize (k % s.texture.grid.columns) (k / s.texture.grid.columns) := by
  obtain ⟨hlt, hslot⟩ := List.getElem?_eq_some_iff.mp hk
  obtain ⟨slot', entry, hk', hentry, hplaces, hshown⟩ := hd.places h h' hheld htidy hframe hlt
  obtain rfl : slot' = slot := Fin.ext (Option.some.inj (hk'.symm.trans hk))
  have hfits := (h'.intact s' List.mem_cons_self held hheld).fits
  rw [hd.texture] at hfits
  obtain ⟨hlength, hobjects⟩ := List.forall₂_iff_get.mp hfits
  obtain ⟨tile, hobject⟩ := hobjects k hlt (hlength ▸ hlt)
  obtain ⟨entry', hentry', -, -, hsize⟩ := SlotTable.object?_eq_some.mp hobject
  rw [List.get_eq_getElem, hslot] at hentry'
  obtain rfl : entry = entry' := Option.some.inj (hentry.symm.trans hentry')
  obtain ⟨hcolumn, hrow, heq⟩ := Grid.getElem?_sizes (List.getElem?_eq_getElem (hlength ▸ hlt))
  exact ⟨hcolumn, hrow, hplaces, hshown.size.trans (hsize.trans heq)⟩

/-- A draw lays out the cells with the scale of the sprite, even if it has no group to show them
with that scale. -/
private theorem Draws.laysOut (h : Sound c e (s :: rest)) (h' : Sound c e' (s' :: rest))
    (hd : e.Draws s groups (.ok (), e', s')) (hheld : s'.held = some held) (htidy : e'.Tidy held)
    (hframe : held.frame ≠ none) (hgroup : held.affine = none) :
    e'.slots.LaysOut held.slots s := by
  have hplaces : ∀ (k : Nat) (slot : Fin 128), held.slots[k]? = some slot.val →
      s.Places none (k % s.texture.grid.columns) (k / s.texture.grid.columns)
        (e'.slots.oam.words3 slot).decode := fun k slot hk =>
    hgroup ▸ (hd.cell h h' hheld htidy hframe hk).2.2.1
  have hunscaled : s.isScaled = false → ∀ (k : Nat) (slot : Fin 128),
      held.slots[k]? = some slot.val →
        s.PlacesUnscaled (k % s.texture.grid.columns) (k / s.texture.grid.columns)
          (e'.slots.oam.words3 slot).decode := fun hscaled k slot hk =>
    (hplaces k slot hk).unscaled_iff.mpr (Sprite.keepsPlace_of_not_isScaled hscaled _ _)
  refine ⟨fun slot hslot => ?_, hplaces, fun k slot hk => (hplaces k slot hk).unscaled_iff,
    hunscaled, ?_, ?_⟩
  · obtain ⟨k, hk⟩ := List.mem_iff_getElem?.mp hslot
    obtain ⟨hlt, -⟩ := List.getElem?_eq_some_iff.mp hk
    obtain ⟨slot', -, hk', -⟩ := hd.places h h' hheld htidy hframe hlt
    rw [Option.some.inj (hk.symm.trans hk')]
    exact slot'.isLt
  · intro hscaled k j slot next hk hj hcolumn hrow
    obtain ⟨-, -, -, hsize⟩ := hd.cell h h' hheld htidy hframe hk
    obtain ⟨hlt, -⟩ := hd.cell h h' hheld htidy hframe hj
    have hnext := hunscaled hscaled j next hj
    rw [hcolumn] at hlt hnext
    rw [hrow] at hnext
    rw [hsize, Grid.widthPx_cellSize hlt]
    exact (hunscaled hscaled k slot hk).next_column hnext
  · intro hscaled k j slot next hk hj hcolumn hrow
    obtain ⟨-, -, -, hsize⟩ := hd.cell h h' hheld htidy hframe hk
    obtain ⟨-, hlt, -⟩ := hd.cell h h' hheld htidy hframe hj
    have hnext := hunscaled hscaled j next hj
    rw [hrow] at hlt hnext
    rw [hcolumn] at hnext
    rw [hsize, Grid.heightPx_cellSize hlt]
    exact (hunscaled hscaled k slot hk).next_row hnext

/-! ### Running out of groups -/

/-- A sprite has no group after a draw if it is not scaled, or if it had none and none was free. -/
private theorem Regroups.eq_none_iff {pool pool' : AffinePool} {scaled : Bool}
    {group group' : Option Nat} (hr : Regroups pool scaled group (pool', group')) :
    group' = none ↔ scaled = false ∨ group = none ∧ ∀ g < pool.count, pool.isUsed g = true := by
  cases hr with
  | idle => simp
  | released => simp
  | kept => simp
  | taken hfree =>
    obtain ⟨hlt, hunused, -⟩ := AffinePool.reserve_eq_some hfree
    simp only [reduceCtorEq, false_or, true_and, false_iff, not_forall]
    exact ⟨_, hlt, by simp [hunused]⟩
  | denied hfull => simpa using fun g => AffinePool.reserve_eq_none hfull

/-- A scaled sprite is left without a group only with an announcement. -/
private theorem updateAffine_announces {pool pool' : AffinePool} {group : Option Nat}
    (h : (updateAffine pool true group).outcome = .ok (pool', none)) :
    .affineExhausted ∈ (updateAffine pool true group).events := by
  obtain ⟨rfl, -, hfull⟩ := ((updateAffine_spec pool true group).of_outcome h).eq_denied
  rw [updateAffine, hfull]
  exact Traced.mem_events_bind_left List.mem_cons_self _

private theorem describe_announces {held' : Holding} (hscaled : s.isScaled = true)
    (h : (e.describe s held).outcome = .ok (e', held')) (hgroup : held'.affine = none) :
    .affineExhausted ∈ (e.describe s held).events := by
  rw [describe] at *
  obtain ⟨slots, hslots, h⟩ := Traced.exists_of_outcome_bind h
  obtain ⟨⟨pool, group⟩, hpool, h⟩ := Traced.exists_of_outcome_bind h
  obtain ⟨_, -, h⟩ := Traced.exists_of_outcome_bind h
  obtain ⟨_, -, h⟩ := Traced.exists_of_outcome_bind h
  obtain ⟨-, rfl⟩ : _ = e' ∧ _ = held' := by simpa [Traced.pure_def] using h
  obtain rfl : group = none := hgroup
  rw [hscaled] at *
  exact Traced.mem_events_bind_right hslots
    (Traced.mem_events_bind_left (updateAffine_announces hpool) _)

private theorem draw_announces (h : Sound c e (s :: rest)) (hscaled : s.isScaled = true)
    (hdraw : (e.draw s).outcome = .ok (.ok (), e', s')) (hheld : s'.held = some held)
    (hframe : held.frame ≠ none) (hgroup : held.affine = none) :
    .affineExhausted ∈ (e.draw s).events := by
  rw [draw] at *
  split at hdraw
  · rename_i hloaded
    rw [if_pos hloaded]
    obtain ⟨⟨e₁, s₁⟩, hrefresh, hdraw⟩ := Traced.exists_of_outcome_bind hdraw
    refine Traced.mem_events_bind_right hrefresh ?_
    have hr := (refresh_spec (h.restyle tick_texture tick_held)).of_outcome hrefresh
    have hscaled₁ : s₁.isScaled = true := by
      rw [hr.eq.2, ← hscaled]
      exact tick_isScaled
    dsimp only at hdraw ⊢
    cases hheld₁ : s₁.held with
    | none =>
      rw [hheld₁] at hdraw
      obtain ⟨-, rfl⟩ : e₁ = e' ∧ s₁ = s' := by simpa [Traced.pure_def] using hdraw
      simp [hheld₁] at hheld
    | some held₁ =>
      rw [hheld₁] at hdraw
      dsimp only at hdraw ⊢
      split at hdraw
      · rename_i hnone
        obtain ⟨-, rfl⟩ : e₁ = e' ∧ s₁ = s' := by simpa [Traced.pure_def] using hdraw
        obtain rfl : held₁ = held := Option.some.inj (hheld₁.symm.trans hheld)
        exact absurd (Option.isNone_iff_eq_none.mp hnone) hframe
      · rename_i hsome
        rw [if_neg hsome]
        obtain ⟨⟨e₂, held₂⟩, hdescribe, hdraw⟩ := Traced.exists_of_outcome_bind hdraw
        obtain ⟨-, rfl⟩ : e₂ = e' ∧ _ = s' := by simpa [Traced.pure_def] using hdraw
        obtain rfl : held₂ = held := Option.some.inj hheld
        exact Traced.mem_events_bind_left (describe_announces hscaled₁ hdescribe hgroup) _
  · simp [Traced.pure_def] at hdraw

end Engine

/-! ### Along runs -/

namespace Stage

variable {c : Config} {e : Engine} {w : Stage}

/-- What the draw of a sprite leads to if it has no affine group afterwards. -/
def DrawsUngrouped (c : Config) (w : Stage) (i : Nat) (s : Sprite) (held : Holding) : Prop :=
  ∃ w' s' held', (w.step i .draw).outcome = .ok (.ok (), w') ∧ w'.sprites[i]? = some s' ∧
    s'.held = some held' ∧ held'.slots = held.slots ∧
    (s.tick.currentFrame < s.texture.frames → held'.frame ≠ none) ∧
    (held'.frame ≠ none →
      (held'.affine = none ↔ s.isScaled = false ∨
        held.affine = none ∧ ∀ g < c.affineSlots, w.engine.affine.isUsed g = true) ∧
      (held'.affine = none →
        (s.isScaled = true → .affineExhausted ∈ (w.step i .draw).events) ∧
        w'.engine.slots.LaysOut held'.slots s))

private theorem Sound.drawsUngrouped (h : Sound c w) (hc : c.tileUnits ≤ 1024) (htidy : w.Tidy)
    {i : Nat} {s : Sprite} {held : Holding} (hs : w.sprites[i]? = some s)
    (hheld : s.held = some held) : DrawsUngrouped c w i s held := by
  have hfront := h.front hs
  obtain ⟨-, ⟨answer, e', sprites'⟩, hstep, ⟨-, htidy'⟩, s', hs', hperforms, hdraw⟩ :=
    (step_tidy h hc htidy i .draw).and
      (step_own hs (Engine.perform_cases hfront .draw).outcome)
  cases hperforms with
  | refused hnone => exact nomatch hheld.symm.trans (hnone rfl)
  | draw hd =>
    obtain ⟨held', hheld'⟩ := Option.isSome_iff_exists.mp hd.isLoaded
    refine ⟨_, s', held', hstep, hs', hheld', hd.slots_eq hheld hheld',
      hd.frame_ne_none hfront hheld', fun hframe => ⟨?_, fun hgroup => ⟨fun hscaled => ?_, ?_⟩⟩⟩
    · obtain ⟨hnone, -⟩ | ⟨-, hregroups⟩ := hd.regroups hfront hheld hheld'
      · exact absurd hnone hframe
      · rw [hregroups.eq_none_iff, hfront.count]
    · rw [step, hs]
      exact Traced.mem_events_bind_left
        (Engine.draw_announces hfront hscaled hdraw hheld' hframe hgroup) _
    · exact hd.laysOut hfront (hfront.draws hd) hheld' (htidy' i s' hs' held' hheld') hframe hgroup

/-- Wherever a run has led a stage, a loaded sprite can be drawn. If it has a frame afterwards, it
has no affine group exactly if it is not scaled, or if it had no group and all of them were in use,
which is announced. Without a group, each of its cells stands where it does without a scale exactly
if the scale does not move it. If the sprite is not scaled, this is the case for all cells, and
neighbours touch. -/
theorem draw_ungrouped_laysOut (he : Engine.new c = .ok e) (textures : List Texture)
    (calls : List (Nat × Call)) :
    ∃ w, ((start e textures).run calls).outcome = .ok w ∧ ∀ i s held, w.sprites[i]? = some s →
      s.held = some held → DrawsUngrouped c w i s held := by
  obtain ⟨w, hw, hsound, htidy⟩ := exists_run_tidy he textures calls
  exact ⟨w, hw, fun i s held => hsound.drawsUngrouped (Engine.tileUnits_le he) htidy⟩

/-- A sprite of two cells that is not scaled, a fraction of a pixel off the screen. The first cell
has gone around the screen, and the second one starts where it ends. -/
theorem draw_ungrouped_laysOut_offScreen :
    ∃ w, ((start (.ofConfig ⟨33, 2, 0⟩) [.blackRow]).run
      [(0, .load), (0, .restyle { x := ⟨-1⟩ })]).outcome = .ok w ∧
      ∃ w', (w.step 0 .draw).outcome = .ok (.ok (), w') ∧
        (w'.engine.slots.oam.words3 0).decode.x.toNat = 511 ∧
        (w'.engine.slots.oam.words3 1).decode.x.toNat = 63 := by
  have hfacts : (((start (.ofConfig ⟨33, 2, 0⟩) [.blackRow]).run
      [(0, .load), (0, .restyle { x := ⟨-1⟩ })]).outcome.map fun w => w.sprites[0]?.map fun s =>
        (decide (s.x = ⟨-1⟩ ∧ s.isScaled = false ∧ s.texture.grid.columns = 2 ∧
          s.tick.currentFrame < s.texture.frames), s.held.map (·.slots))) =
      .ok (some (true, some [0, 1])) := by decide +kernel
  obtain ⟨w, hw, hsprites⟩ := draw_ungrouped_laysOut (c := ⟨33, 2, 0⟩) rfl [.blackRow]
    [(0, .load), (0, .restyle { x := ⟨-1⟩ })]
  rw [hw] at hfacts
  obtain ⟨s, hs, hfacts⟩ := Option.map_eq_some_iff.mp (Except.ok.inj hfacts)
  simp only [Prod.mk.injEq, decide_eq_true_eq] at hfacts
  obtain ⟨⟨hx, hscaled, hcolumns, hframe⟩, hslots⟩ := hfacts
  obtain ⟨held, hheld, hslots⟩ := Option.map_eq_some_iff.mp hslots
  obtain ⟨w', s', held', hstep, -, -, hsame, hhas, hdrawn⟩ := hsprites 0 s held hs hheld
  obtain ⟨hgroup, hlays⟩ := hdrawn (hhas hframe)
  have hunscaled := (hlays (hgroup.mpr (.inl hscaled))).2.unscaled hscaled
  rw [hsame, hslots, hcolumns] at hunscaled
  have hfirst := (hunscaled 0 0 rfl).x
  have hsecond := (hunscaled 1 1 rfl).x
  rw [hx] at hfirst hsecond
  exact ⟨w, hw, w', hstep, Int.ofNat.inj hfirst, Int.ofNat.inj hsecond⟩

/-- There is one affine group, and two sprites are twice as wide as their textures. The second one
is announced to be drawn without its scale. It has a frame and no group, but its second cell is 128
pixels to the right of the first one, which is 64 pixels wide. -/
theorem draw_ungrouped_doubled :
    ∃ w w' s s' held', ((start (.ofConfig ⟨34, 3, 1⟩) [.blackTile, .blackRow]).run
        [(0, .load), (1, .load), (0, .restyle { scaleX := ⟨512⟩ }),
          (1, .restyle { scaleX := ⟨512⟩ }), (0, .draw)]).outcome = .ok w ∧
      w.sprites[1]? = some s ∧ s.x = .zero ∧ s.texture.grid.columns = 2 ∧
      (w.step 1 .draw).outcome = .ok (.ok (), w') ∧
      .affineExhausted ∈ (w.step 1 .draw).events ∧ w'.sprites[1]? = some s' ∧
      s'.held = some held' ∧ held'.slots = [1, 2] ∧ held'.frame ≠ none ∧ held'.affine = none ∧
      (w'.engine.slots.oam.words3 1).decode.x.toNat = 0 ∧
      (w'.engine.slots.oam.words3 2).decode.x.toNat = 128 ∧
      ¬ s.PlacesUnscaled 1 0 (w'.engine.slots.oam.words3 2).decode := by
  have hfacts : (((start (.ofConfig ⟨34, 3, 1⟩) [.blackTile, .blackRow]).run
      [(0, .load), (1, .load), (0, .restyle { scaleX := ⟨512⟩ }),
        (1, .restyle { scaleX := ⟨512⟩ }), (0, .draw)]).outcome.map fun w =>
          w.sprites[1]?.map fun s => (decide (w.engine.affine.isUsed 0 = true ∧ s.x = .zero ∧
            s.scaleX = ⟨512⟩ ∧ s.isScaled = true ∧ s.texture.grid.columns = 2 ∧
            s.tick.currentFrame < s.texture.frames),
            s.held.map fun held => (held.slots, held.affine))) =
      .ok (some (true, some ([1, 2], none))) := by decide +kernel
  obtain ⟨w, hw, hsound, htidy⟩ := exists_run_tidy (c := ⟨34, 3, 1⟩) rfl [.blackTile, .blackRow]
    [(0, .load), (1, .load), (0, .restyle { scaleX := ⟨512⟩ }), (1, .restyle { scaleX := ⟨512⟩ }),
      (0, .draw)]
  rw [hw] at hfacts
  obtain ⟨s, hs, hfacts⟩ := Option.map_eq_some_iff.mp (Except.ok.inj hfacts)
  simp only [Prod.mk.injEq, decide_eq_true_eq] at hfacts
  obtain ⟨⟨hused, hx, hscale, hscaled, hcolumns, hframe⟩, hslots⟩ := hfacts
  obtain ⟨held, hheld, hslots⟩ := Option.map_eq_some_iff.mp hslots
  obtain ⟨hslots, hnone⟩ := Prod.mk.inj hslots
  obtain ⟨w', s', held', hstep, hs', hheld', hsame, hhas, hdrawn⟩ :=
    hsound.drawsUngrouped (by decide) htidy hs hheld
  obtain ⟨hgroup, hlays⟩ := hdrawn (hhas hframe)
  have hdenied : held'.affine = none := by
    refine hgroup.mpr (.inr ⟨hnone, fun g hg => ?_⟩)
    obtain rfl : g = 0 := Nat.lt_one_iff.mp hg
    exact hused
  obtain ⟨hevent, hlaysOut⟩ := hlays hdenied
  have hplaces := hlaysOut.places
  rw [hsame, hslots, hcolumns] at hplaces
  have hfirst := (hplaces 0 1 rfl).x
  have hsecond := (hplaces 1 2 rfl).x
  rw [hx, hscale] at hfirst hsecond
  refine ⟨w, w', s, s', held', hw, hs, hx, hcolumns, hstep, hevent hscaled, hs', hheld',
    hsame.trans hslots, hhas hframe, hdenied, Int.ofNat.inj hfirst, Int.ofNat.inj hsecond, ?_⟩
  intro hunscaled
  have hcolumn := hunscaled.x
  rw [hsecond, hx] at hcolumn
  exact absurd hcolumn (by decide)

end Stage

end SpriteEngine
