import Mathlib.Data.Int.ModEq
import SpriteEngine.Proofs.Descriptors
import SpriteEngine.Proofs.DrawPass

/-!
# Where a draw puts the cells of a sprite

The cells of a sprite stand 64 pixels apart, times its scale. Their positions are computed in words
that wrap around, so that both the product and the sum may be off by a multiple of `2 ^ 32`. This is
never seen: the screen wraps around as well, after a number of pixels that divides the word
(`Engine.cellPosition_eq`). What a descriptor says is the position in unbounded integers, rounded
down to whole pixels and taken modulo the screen.

`Sprite.Places` has this position together with the other attributes that the sprite decides. Those
which the slot decides are in `SlotEntry.IsShownBy`. A descriptor is read back without loss
(`Engine.Tidy.faithful`), so both hold of what can be read in object attribute memory after a draw.
-/

namespace SpriteEngine

/-! ### Positions -/

namespace Fixed

/-- Rounding down before or after the remainder makes no difference. -/
theorem emod_mul_ediv (x m : Int) : x % (256 * m) / 256 = x / 256 % m := by
  rw [Int.emod_def, Int.emod_def, ← Int.ediv_ediv_of_nonneg (by decide), Int.mul_assoc,
    Int.sub_mul_ediv_left _ _ (by decide)]

private theorem wholeMod_eq (a : Fixed) {m : Nat} (hm : 0 < m) :
    (a.wholeMod m : Int) = a.bits.toInt / 256 % m := by
  rw [wholeMod, emod_mul_ediv, Int.toNat_of_nonneg (Int.emod_nonneg _ (by omega))]

private theorem bmod_modEq (x : Int) : x.bmod (2 ^ 32) ≡ x [ZMOD 2 ^ 32] :=
  Int.bmod_emod

/-- Up to multiples of the word, sums and products are those of integers. -/
private theorem add_scale_modEq (a b : Fixed) (n : Nat) :
    (a.add (b.scale n)).bits.toInt ≡ a.bits.toInt + n * b.bits.toInt [ZMOD 2 ^ 32] :=
  calc (a.bits + b.bits * Int32.ofNat n).toInt
      = (a.bits.toInt + (b.bits * Int32.ofNat n).toInt).bmod (2 ^ 32) := Int32.toInt_add ..
    _ ≡ a.bits.toInt + (b.bits * Int32.ofNat n).toInt [ZMOD 2 ^ 32] := bmod_modEq _
    _ = a.bits.toInt + (b.bits.toInt * (Int32.ofNat n).toInt).bmod (2 ^ 32) := by
      rw [Int32.toInt_mul]
    _ ≡ a.bits.toInt + b.bits.toInt * (Int32.ofNat n).toInt [ZMOD 2 ^ 32] :=
      (bmod_modEq _).add_left _
    _ = a.bits.toInt + b.bits.toInt * (n : Int).bmod (2 ^ 32) := by
      rw [Int32.toInt_ofNat']
      rfl
    _ ≡ a.bits.toInt + b.bits.toInt * n [ZMOD 2 ^ 32] :=
      ((bmod_modEq _).mul_left _).add_left _
    _ = a.bits.toInt + n * b.bits.toInt := by rw [Int.mul_comm]

end Fixed

/-- The attributes put the cell at the given column and row where the sprite wants it, on its layer
and with the given affine group. -/
structure Sprite.Places (s : Sprite) (group : Option Nat) (column row : Nat) (attrs : Attributes) :
    Prop where
  x : (attrs.x.toNat : Int) = (s.x.bits.toInt + 64 * column * s.scaleX.bits.toInt) / 256 % 512
  y : (attrs.y.toNat : Int) = (s.y.bits.toInt + 64 * row * s.scaleY.bits.toInt) / 256 % 256
  priority : attrs.priority.toNat = s.layer.toNat % 4
  affineIndex : attrs.affineIndex.map UInt8.toNat = group

namespace Engine

variable {c : Config} {e e' : Engine} {s s' : Sprite} {rest : List Sprite} {held : Holding}
  {held' : Holding} {group : Option Nat} {groups : List Nat}

/-- The position of a cell is that in unbounded integers if the screen divides the word. -/
theorem cellPosition_eq (origin scale : Fixed) (cell : Nat) {m : Nat} (hm : 0 < m)
    (hdvd : (256 * m : Int) ∣ 2 ^ 32) : (cellPosition origin scale cell m : Int) =
      (origin.bits.toInt + 64 * cell * scale.bits.toInt) / 256 % m := by
  have hmod := (Fixed.add_scale_modEq origin scale (cell * 64)).of_dvd hdvd
  -- the remainder forgets the overflow, and the division comes after it
  rw [cellPosition, Fixed.wholeMod_eq _ hm, ← Fixed.emod_mul_ediv, hmod, Fixed.emod_mul_ediv]
  push_cast
  rw [Int.mul_comm (cell : Int) 64]

/-- The attributes of a cell have the position that the rule asks for. -/
private theorem places_cellAttributes (attrs : Attributes) (s : Sprite)
    (hgroup : ∀ g ∈ group, g < 32) (column row : Nat) :
    s.Places group column row (cellAttributes attrs s group column row) where
  x := by
    have hx := cellPosition_eq s.x s.scaleX column (m := 512) (by decide) (by decide)
    have hlt : cellPosition s.x s.scaleX column 512 < 512 := Fixed.wholeMod_lt _ (by decide)
    exact (congrArg Nat.cast (UInt16.toNat_ofNat_of_lt' (by change _ < 65536; omega))).trans hx
  y := by
    have hy := cellPosition_eq s.y s.scaleY row (m := 256) (by decide) (by decide)
    have hlt : cellPosition s.y s.scaleY row 256 < 256 := Fixed.wholeMod_lt _ (by decide)
    exact (congrArg Nat.cast (UInt8.toNat_ofNat_of_lt' hlt)).trans hy
  priority := UInt8.toNat_mod ..
  affineIndex := by
    change (group.map UInt8.ofNat).map UInt8.toNat = group
    cases hg : group with
    | none => rfl
    | some g =>
      have hlt := hgroup g hg
      rw [Option.map_some, Option.map_some, UInt8.toNat_ofNat_of_lt' (by change _ < 256; omega)]

/-- A draw does not move the sprite. -/
private theorem Draws.places_iff (hd : e.Draws s groups (.ok (), e', s')) {column row : Nat}
    {attrs : Attributes} : s'.Places group column row attrs ↔ s.Places group column row attrs := by
  rw [hd.eq, Sprite.tick, Sprite.followAnimation]
  split <;>
    exact ⟨fun h => ⟨h.x, h.y, h.priority, h.affineIndex⟩,
      fun h => ⟨h.x, h.y, h.priority, h.affineIndex⟩⟩

theorem Draws.slots_eq (hd : e.Draws s groups (.ok (), e', s')) (hheld : s.held = some held)
    (hheld' : s'.held = some held') : held'.slots = held.slots := by
  obtain ⟨e₁, s₁, held₁, -, hr, hheld₁, hs'⟩ := hd
  obtain ⟨-, frame, hframe⟩ := hr.exists_held (tick_held.trans hheld)
  obtain rfl : { held with frame } = held₁ := Option.some.inj (hframe.symm.trans hheld₁)
  obtain ⟨-, -, rfl⟩ | ⟨-, held₂, hd, rfl⟩ := hs'
  · obtain rfl : _ = held' := Option.some.inj (hheld₁.symm.trans hheld')
    rfl
  · obtain rfl : held₂ = held' := Option.some.inj hheld'
    have hheld₂ : held₂ = { held with frame, described := true, affine := held₂.affine } := hd.held
    rw [hheld₂]

/-- If the animation has led to a frame that exists, the sprite has a frame after the draw. -/
theorem Draws.frame_ne_none (h : Sound c e (s :: rest)) (hd : e.Draws s groups (.ok (), e', s'))
    (hheld : s'.held = some held) (hframe : s.tick.currentFrame < s.texture.frames) :
    held.frame ≠ none := by
  have hframe' : s'.currentFrame = s.tick.currentFrame := by rw [hd.eq]
  rcases (hd.drawn h hheld).current with hcurrent | hinvalid
  · simp [hcurrent]
  · rw [hd.texture] at hinvalid
    omega

/-- After a draw with a frame, the descriptors of a sprite say where its cells are and show their
objects. -/
theorem Draws.places (h : Sound c e (s :: rest))
    (h' : Sound c e' (s' :: rest)) (hd : e.Draws s groups (.ok (), e', s'))
    (hheld : s'.held = some held) (htidy : e'.Tidy held) (hframe : held.frame ≠ none)
    {k : Nat} (hk : k < held.slots.length) :
    ∃ (slot : Fin 128) (entry : SlotEntry), held.slots[k]? = some slot.val ∧
      e'.slots.entries[slot.val]? = some entry ∧
      s.Places held.affine (k % s.texture.grid.columns) (k / s.texture.grid.columns)
        (e'.slots.oam.words3 slot).decode ∧
      entry.IsShownBy (e'.slots.oam.words3 slot).decode := by
  have hdrawn := hd.drawn h hheld
  have hslot := List.getElem_mem hk
  obtain ⟨entry, hentry, hfree⟩ :=
    SlotTable.exists_entry (h'.isUsed_of_held List.mem_cons_self hheld hslot)
  have hlt : held.slots[k] < 128 :=
    h'.table.slot_lt (SlotTable.object?_eq_some.mpr ⟨entry, hentry, hfree, rfl, rfl⟩)
  have hfaithful : e'.slots.Faithful ⟨held.slots[k], hlt⟩ :=
    htidy.faithful (hdrawn.described hframe) hslot
  obtain ⟨entry', hentry', -, hdecode, hshown⟩ := hfaithful
  obtain rfl : entry = entry' := Option.some.inj (hentry.symm.trans hentry')
  refine ⟨⟨held.slots[k], hlt⟩, entry, List.getElem?_eq_getElem hk, hentry, ?_, ?_⟩
  · have hgroup : ∀ g ∈ held.affine, g < 32 := fun g hg =>
      (h'.group_lt List.mem_cons_self ((Sprite.heldGroup_of_some hheld).trans hg)).2
    have hplaces := places_cellAttributes entry.attrs s' hgroup (k % s'.texture.grid.columns)
      (k / s'.texture.grid.columns)
    -- drawing once more would change nothing, so these are the attributes of the entry
    rw [hdrawn.attrs hframe k _ entry (List.getElem?_eq_getElem hk) hentry, hd.places_iff,
      hd.texture] at hplaces
    rw [hdecode]
    exact hplaces
  · rw [hdecode]
    exact hshown

end Engine

/-! ### Along runs -/

namespace Stage

variable {c : Config} {e : Engine}

/-- Wherever a run has led a stage, a loaded sprite can be drawn. It keeps its slots, and it has a
frame afterwards if the animation has led to one that exists. With a frame, each of its descriptors
says the following. The cell is at its place in the grid, counted row by row, which is computed in
unbounded integers and taken modulo the screen. It has the layer and the affine group of the sprite,
and it shows the object of its slot. -/
theorem draw_places_cells (he : Engine.new c = .ok e) (textures : List Texture)
    (calls : List (Nat × Call)) :
    ∃ w, ((start e textures).run calls).outcome = .ok w ∧
      ∀ i s held, w.sprites[i]? = some s → s.held = some held →
        ∃ w' s' held', (w.step i .draw).outcome = .ok (.ok (), w') ∧
          w'.sprites[i]? = some s' ∧ s'.held = some held' ∧ held'.slots = held.slots ∧
          (s.tick.currentFrame < s.texture.frames → held'.frame ≠ none) ∧
          (held'.frame ≠ none → ∀ k < held'.slots.length, ∃ (slot : Fin 128) (entry : SlotEntry),
            held'.slots[k]? = some slot.val ∧ w'.engine.slots.entries[slot.val]? = some entry ∧
            s.Places held'.affine (k % s.texture.grid.columns) (k / s.texture.grid.columns)
              (w'.engine.slots.oam.words3 slot).decode ∧
            entry.IsShownBy (w'.engine.slots.oam.words3 slot).decode) := by
  obtain ⟨w, hw, hsound, htidy⟩ := exists_run_tidy he textures calls
  refine ⟨w, hw, fun i s held hs hheld => ?_⟩
  have hfront := hsound.front hs
  obtain ⟨-, ⟨answer, e', sprites'⟩, hstep, ⟨-, htidy'⟩, s', hs', hperforms⟩ :=
    (step_tidy hsound (Engine.tileUnits_le he) htidy i .draw).and
      (step_own hs (Engine.perform_cases hfront .draw))
  cases hperforms with
  | refused hnone => exact nomatch hheld.symm.trans (hnone rfl)
  | draw hd =>
    obtain ⟨held', hheld'⟩ := Option.isSome_iff_exists.mp hd.isLoaded
    have htidy := htidy' i s' hs' held' hheld'
    refine ⟨_, s', held', hstep, hs', hheld', hd.slots_eq hheld hheld',
      hd.frame_ne_none hfront hheld', fun hframe k hk => ?_⟩
    exact hd.places hfront (hfront.draws hd) hheld' htidy hframe hk

/-- The second cell of a sprite that is a fraction of a pixel off the screen and has the largest
scale there is. Its position before the division has 37 bits. -/
theorem draw_places_cells_largestScale :
    ∃ w, ((start (.ofConfig ⟨33, 2, 1⟩) [.blackRow]).run
      [(0, .load), (0, .restyle { x := ⟨-1⟩, scaleX := ⟨2147483647⟩, layer := 7 })]).outcome =
        .ok w ∧
      ∃ w' slot, (w.step 0 .draw).outcome = .ok (.ok (), w') ∧
        ((w'.engine.slots.oam.words3 slot).decode.x.toNat : Int) =
          (-1 + 64 * 1 * 2147483647) / 256 % 512 ∧
        (w'.engine.slots.oam.words3 slot).decode.priority.toNat = 3 ∧
        (w'.engine.slots.oam.words3 slot).decode.disabled = false := by
  have hfacts : (((start (.ofConfig ⟨33, 2, 1⟩) [.blackRow]).run
      [(0, .load), (0, .restyle { x := ⟨-1⟩, scaleX := ⟨2147483647⟩, layer := 7 })]).outcome.map
        fun w => w.sprites[0]?.map fun s =>
          ((s.x, s.scaleX, s.layer), s.texture.grid.columns,
            decide (s.tick.currentFrame < s.texture.frames), s.held.map (·.slots.length))) =
      .ok (some ((⟨-1⟩, ⟨2147483647⟩, 7), 2, true, some 2)) := by decide +kernel
  obtain ⟨w, hw, hsprites⟩ := draw_places_cells (c := ⟨33, 2, 1⟩) rfl [.blackRow]
    [(0, .load), (0, .restyle { x := ⟨-1⟩, scaleX := ⟨2147483647⟩, layer := 7 })]
  rw [hw] at hfacts
  obtain ⟨s, hs, hfacts⟩ := Option.map_eq_some_iff.mp (Except.ok.inj hfacts)
  simp only [Prod.mk.injEq, decide_eq_true_eq] at hfacts
  obtain ⟨⟨hx, hscale, hlayer⟩, hcolumns, hframe, hslots⟩ := hfacts
  obtain ⟨held, hheld, hlength⟩ := Option.map_eq_some_iff.mp hslots
  obtain ⟨w', s', held', hstep, -, -, hsame, hhas, hcells⟩ := hsprites 0 s held hs hheld
  obtain ⟨slot, entry, -, -, hplaces, hshown⟩ := hcells (hhas hframe) 1 (by rw [hsame]; omega)
  refine ⟨w, hw, w', slot, hstep, ?_, ?_, hshown.disabled⟩
  · rw [hplaces.x, hx, hscale, hcolumns]
    rfl
  · rw [hplaces.priority, hlayer]
    rfl

end Stage

end SpriteEngine
