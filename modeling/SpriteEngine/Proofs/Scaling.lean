import SpriteEngine.Proofs.DrawPass

/-!
# The linear map of a scaled sprite

The hardware maps the screen to the texture, so the map of a scaled sprite has the reciprocals of
its scales on the diagonal, as signed numbers of 16 bits with 8 fraction bits. The quotient is
computed in 32 bits, rounded toward zero, and cut to its lowest 16 bits (`Fixed.signed_reciprocal`).
This loses nothing unless the quotient is 128 or more, or less than -128, which the scales 1/256,
2/256 and -1/256 lead to, and no others (`Fixed.signed_reciprocal_eq_iff`).

A draw writes the map of the group that the sprite has afterwards, for the scale that it was drawn
with (`Engine.Draws.inverts`).
-/

namespace SpriteEngine

/-! ### Reciprocals -/

namespace Fixed

/-- The quotient fits into 16 bits with a sign, unless the scale is very small. -/
private theorem tdiv_fits_iff (b : Int) :
    -32768 ≤ Int.tdiv 65536 b ∧ Int.tdiv 65536 b < 32768 ↔ b ≠ -1 ∧ b ≠ 1 ∧ b ≠ 2 := by
  rcases Int.lt_trichotomy b 0 with hneg | rfl | hpos
  · obtain ⟨n, rfl⟩ : ∃ n, b = -n := ⟨-b, by omega⟩
    rw [Int.tdiv_neg, Int.tdiv_eq_ediv_of_nonneg (by decide)]
    by_cases hone : n = 1
    · subst hone
      decide
    · have hnonneg : 0 ≤ 65536 / n := Int.ediv_nonneg (by decide) (by omega)
      have hlt : 65536 / n < 32769 := Int.ediv_lt_of_lt_mul (by omega) (by omega)
      omega
  · decide
  · rw [Int.tdiv_eq_ediv_of_nonneg (by decide)]
    by_cases hsmall : b < 3
    · obtain rfl | rfl : b = 1 ∨ b = 2 := by omega
      · decide
      · decide
    · have hnonneg : 0 ≤ 65536 / b := Int.ediv_nonneg (by decide) (by omega)
      have hlt : 65536 / b < 32768 := Int.ediv_lt_of_lt_mul hpos (by omega)
      omega

/-- The reciprocal with its sign is the quotient, up to multiples of the half word. -/
theorem signed_reciprocal (a : Fixed) :
    a.reciprocal.toInt16.toInt = (Int.tdiv 65536 a.bits.toInt).bmod 65536 := by
  rw [reciprocal, UInt16.ofInt, UInt16.toInt16_ofNat', Int16.toInt_ofNat',
    Int.toNat_of_nonneg (Int.emod_nonneg _ (by decide))]
  exact Int.emod_bmod _ 65536

/-- The reciprocal is exact for all scales but three. -/
theorem signed_reciprocal_eq_iff (a : Fixed) :
    a.reciprocal.toInt16.toInt = Int.tdiv 65536 a.bits.toInt ↔
      a.bits.toInt ≠ -1 ∧ a.bits.toInt ≠ 1 ∧ a.bits.toInt ≠ 2 := by
  rw [signed_reciprocal, ← tdiv_fits_iff, Int.bmod_eq_iff (by decide)]
  omega

end Fixed

/-- The word is the reciprocal of a scale, as far as it fits. With its sign it is the quotient,
rounded toward zero, up to multiples of the half word, and exactly the quotient for all scales but
1/256, 2/256 and -1/256. -/
structure Fixed.IsReciprocal (a : Fixed) (word : UInt16) : Prop where
  wraps : word.toInt16.toInt = (Int.tdiv 65536 a.bits.toInt).bmod 65536
  exact_iff : word.toInt16.toInt = Int.tdiv 65536 a.bits.toInt ↔
    a.bits.toInt ≠ -1 ∧ a.bits.toInt ≠ 1 ∧ a.bits.toInt ≠ 2

/-- The map undoes the scales of a sprite and does nothing else. -/
structure AffineMatrix.Inverts (m : AffineMatrix) (s : Sprite) : Prop where
  pa : s.scaleX.IsReciprocal m.pa
  pb : m.pb = 0
  pc : m.pc = 0
  pd : s.scaleY.IsReciprocal m.pd

/-- The map of a scale has its reciprocals on the diagonal. -/
private theorem AffineMatrix.inverts_ofScale (s : Sprite) :
    (AffineMatrix.ofScale s.scaleX s.scaleY).Inverts s where
  pa := ⟨s.scaleX.signed_reciprocal, s.scaleX.signed_reciprocal_eq_iff⟩
  pb := rfl
  pc := rfl
  pd := ⟨s.scaleY.signed_reciprocal, s.scaleY.signed_reciprocal_eq_iff⟩

/-! ### Drawing -/

namespace Engine

variable {c : Config} {e e' : Engine} {s s' : Sprite} {rest : List Sprite} {held : Holding}
  {groups : List Nat}

private theorem tick_scales : s.tick.scaleX = s.scaleX ∧ s.tick.scaleY = s.scaleY := by
  rw [Sprite.tick, Sprite.followAnimation]
  split <;> exact ⟨rfl, rfl⟩

/-- After a draw, the map of the group that the sprite has can be read, and undoes its scales. -/
theorem Draws.inverts (h : Sound c e (s :: rest)) (h' : Sound c e' (s' :: rest))
    (hd : e.Draws s groups (.ok (), e', s')) (hheld : s'.held = some held) {g : Nat}
    (hg : held.affine = some g) : ∃ m, e'.slots.oam.readAffine g = .ok m ∧ m.Inverts s := by
  obtain ⟨-, hlt⟩ := h'.group_lt List.mem_cons_self ((Sprite.heldGroup_of_some hheld).trans hg)
  have hscales : s'.scaleX = s.scaleX ∧ s'.scaleY = s.scaleY := by
    rw [hd.eq]
    exact tick_scales
  have hmatrix := (hd.drawn h hheld).matrix ⟨g, hlt⟩ hg
  rw [hscales.1, hscales.2] at hmatrix
  exact ⟨_, dif_pos hlt, hmatrix ▸ AffineMatrix.inverts_ofScale s⟩

end Engine

namespace Stage

variable {c : Config} {e : Engine} {w : Stage}

/-- The sprite can be drawn, and if it has an affine group afterwards, the map of that group undoes
the scales of the sprite. -/
def DrawInverts (w : Stage) (i : Nat) (s : Sprite) : Prop :=
  ∃ w' s' held', (w.step i .draw).outcome = .ok (.ok (), w') ∧ w'.sprites[i]? = some s' ∧
    s'.held = some held' ∧ ∀ g, held'.affine = some g →
      ∃ m, w'.engine.slots.oam.readAffine g = .ok m ∧ m.Inverts s

private theorem Sound.drawInverts (h : Sound c w) {i : Nat} {s : Sprite}
    (hs : w.sprites[i]? = some s) (hloaded : s.isLoaded = true) : w.DrawInverts i s := by
  have hfront := h.front hs
  obtain ⟨-, ⟨answer, w'⟩, hstep, rfl, s', held', hs', hheld', hd⟩ := step_draw h hs hloaded
  exact ⟨w', s', held', hstep, hs', hheld', fun g hg =>
    hd.inverts hfront (hfront.draws hd) hheld' hg⟩

private theorem DrawInverts.exists_map {i g : Nat} {s : Sprite} (h : w.DrawInverts i s)
    (hgroup : ((w.step i .draw).outcome.map fun r => r.2.sprites[i]?.bind Sprite.heldGroup) =
      .ok (some g)) : ∃ w' s' held' m, (w.step i .draw).outcome = .ok (.ok (), w') ∧
        w'.sprites[i]? = some s' ∧ s'.held = some held' ∧ held'.affine = some g ∧
        w'.engine.slots.oam.readAffine g = .ok m ∧ m.Inverts s := by
  obtain ⟨w', s', held', hstep, hs', hheld', hinverts⟩ := h
  rw [hstep] at hgroup
  obtain ⟨s₁, hs₁, hgroup⟩ := Option.bind_eq_some_iff.mp (Except.ok.inj hgroup)
  obtain rfl : s' = s₁ := Option.some.inj (hs'.symm.trans hs₁)
  rw [Sprite.heldGroup_of_some hheld'] at hgroup
  obtain ⟨m, hm, hm'⟩ := hinverts g hgroup
  exact ⟨w', s', held', m, hstep, hs', hheld', hgroup, hm, hm'⟩

/-- Wherever a run has led a stage, drawing a loaded sprite leaves a map in its affine group, if it
has one then, that undoes the scales of the sprite. -/
theorem draw_inverts_scale (he : Engine.new c = .ok e) (textures : List Texture)
    (calls : List (Nat × Call)) :
    ∃ w, ((start e textures).run calls).outcome = .ok w ∧
      ∀ i s, w.sprites[i]? = some s → s.isLoaded = true → w.DrawInverts i s := by
  obtain ⟨w, hw, hsound⟩ := exists_run he textures calls
  exact ⟨w, hw, fun i s => hsound.drawInverts⟩

/-- The largest reciprocal that is exact is that of -2/256, here next to one that is rounded. -/
theorem draw_inverts_scale_mirrored :
    ∃ w, ((start (.ofConfig ⟨1, 1, 1⟩) [.blackTile]).run
      [(0, .load), (0, .restyle { scaleX := ⟨-2⟩, scaleY := ⟨-300⟩ })]).outcome = .ok w ∧
      ∃ w' m, (w.step 0 .draw).outcome = .ok (.ok (), w') ∧
        w'.engine.slots.oam.readAffine 0 = .ok m ∧ m.pa.toInt16.toInt = -32768 ∧
        m.pd.toInt16.toInt = -218 := by
  have hbefore : (((start (.ofConfig ⟨1, 1, 1⟩) [.blackTile]).run
      [(0, .load), (0, .restyle { scaleX := ⟨-2⟩, scaleY := ⟨-300⟩ })]).outcome.map fun w =>
        w.sprites[0]?.map fun s => (s.isLoaded, s.scaleX, s.scaleY)) =
      .ok (some (true, ⟨-2⟩, ⟨-300⟩)) := by decide +kernel
  have hafter : (((start (.ofConfig ⟨1, 1, 1⟩) [.blackTile]).run
      [(0, .load), (0, .restyle { scaleX := ⟨-2⟩, scaleY := ⟨-300⟩ })]).outcome >>= fun w =>
        (w.step 0 .draw).outcome.map fun r => r.2.sprites[0]?.bind Sprite.heldGroup) =
      .ok (some 0) := by decide +kernel
  obtain ⟨w, hw, hsprites⟩ := draw_inverts_scale (c := ⟨1, 1, 1⟩) rfl [.blackTile]
    [(0, .load), (0, .restyle { scaleX := ⟨-2⟩, scaleY := ⟨-300⟩ })]
  rw [hw] at hbefore hafter
  obtain ⟨s, hs, hlook⟩ := Option.map_eq_some_iff.mp (Except.ok.inj hbefore)
  obtain ⟨hloaded, hx, hy⟩ : s.isLoaded = true ∧ s.scaleX = ⟨-2⟩ ∧ s.scaleY = ⟨-300⟩ := by
    simpa using hlook
  obtain ⟨w', -, -, m, hstep, -, -, -, hm, hm'⟩ := (hsprites 0 s hs hloaded).exists_map hafter
  refine ⟨w, hw, w', m, hstep, hm, ?_, ?_⟩
  · rw [hm'.pa.wraps, hx]
    decide
  · rw [hm'.pd.wraps, hy]
    decide

/-- A sprite with the scale 1/256 along its width is drawn with a group. With 8 fraction bits the
reciprocal is 65536, and the map has a 0 in its place. -/
theorem draw_loses_reciprocal :
    ∃ w w' s s' held' m, ((start (.ofConfig ⟨1, 1, 1⟩) [.blackTile]).run
        [(0, .load), (0, .restyle { scaleX := ⟨1⟩ })]).outcome = .ok w ∧
      w.sprites[0]? = some s ∧ s.isLoaded = true ∧ s.scaleX = ⟨1⟩ ∧ s.scaleY = .one ∧
      (w.step 0 .draw).outcome = .ok (.ok (), w') ∧ w'.sprites[0]? = some s' ∧
      s'.held = some held' ∧ held'.affine = some 0 ∧
      w'.engine.slots.oam.readAffine 0 = .ok m ∧ m.pa.toInt16.toInt = 0 ∧
      m.pa.toInt16.toInt ≠ Int.tdiv 65536 s.scaleX.bits.toInt := by
  have hbefore : (((start (.ofConfig ⟨1, 1, 1⟩) [.blackTile]).run
      [(0, .load), (0, .restyle { scaleX := ⟨1⟩ })]).outcome.map fun w =>
        w.sprites[0]?.map fun s => (s.isLoaded, s.scaleX, s.scaleY)) =
      .ok (some (true, ⟨1⟩, .one)) := by decide +kernel
  have hafter : (((start (.ofConfig ⟨1, 1, 1⟩) [.blackTile]).run
      [(0, .load), (0, .restyle { scaleX := ⟨1⟩ })]).outcome >>= fun w =>
        (w.step 0 .draw).outcome.map fun r => r.2.sprites[0]?.bind Sprite.heldGroup) =
      .ok (some 0) := by decide +kernel
  obtain ⟨w, hw, hsound⟩ := exists_run (c := ⟨1, 1, 1⟩) rfl [.blackTile]
    [(0, .load), (0, .restyle { scaleX := ⟨1⟩ })]
  rw [hw] at hbefore hafter
  obtain ⟨s, hs, hlook⟩ := Option.map_eq_some_iff.mp (Except.ok.inj hbefore)
  obtain ⟨hloaded, hx, hy⟩ : s.isLoaded = true ∧ s.scaleX = ⟨1⟩ ∧ s.scaleY = .one := by
    simpa using hlook
  obtain ⟨w', s', held', m, hstep, hs', hheld', hgroup, hm, hm'⟩ :=
    (hsound.drawInverts hs hloaded).exists_map hafter
  have hzero : m.pa.toInt16.toInt = 0 := by
    rw [hm'.pa.wraps, hx]
    decide
  refine ⟨w, w', s, s', held', m, hw, hs, hloaded, hx, hy, hstep, hs', hheld', hgroup, hm, hzero,
    ?_⟩
  rw [hzero, hx]
  decide

end Stage

end SpriteEngine
