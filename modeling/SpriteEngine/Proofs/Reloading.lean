import SpriteEngine.Proofs.Lifetime
import SpriteEngine.Proofs.Reservations

/-!
# Loading a sprite again

A sprite that is freed gives everything back, and if it is loaded again with nothing else in
between, it gets the very same slots, tiles and palette indices.

For slots and tiles this is because freeing brings back the table from before the first load, except
for the linear maps in object attribute memory, which taking slots does not look at
(`SlotTable.takeGrid_withOam`). The palette is not brought back: the colors of the first load are
still stored, and with them in place the second load goes another way through the palette, to the
same indices (`PaletteBank.bindAll_again`). What this takes is that nothing but loading and freeing
touches the palette (`Engine.perform_palette`).
-/

namespace SpriteEngine

/-! ### What taking slots depends on -/

namespace SlotTable

variable {t t' : SlotTable} {slots taken : List Nat} {sizes : List ObjectSize}

/-- The table over another object attribute memory. -/
def withOam (t : SlotTable) (oam : Oam) : SlotTable :=
  { t with oam }

/-- Taking a slot does not look at object attribute memory. -/
private theorem take_withOam (t : SlotTable) (oam : Oam) (size : ObjectSize) :
    (t.withOam oam).take size = (fun r => (r.1, r.2.withOam oam)) <$> t.take size := by
  rw [take, take, withOam]
  dsimp only
  split
  · simp [withOam]
  · rw [map_bind]
    congr 1
    funext r
    rcases r with cause | ⟨tile, tiles⟩ <;> simp [withOam]

/-- Neither does taking slots one after the other, unless it fails. -/
private theorem takeRest_withOam (oam : Oam)
    (h : (t.takeRest taken sizes).outcome = .ok (.ok slots, t')) :
    ((t.withOam oam).takeRest taken sizes).outcome = .ok (.ok slots, t'.withOam oam) := by
  induction sizes generalizing t taken with
  | nil =>
    obtain ⟨rfl, rfl⟩ : taken = slots ∧ t = t' := by simpa [takeRest, Traced.pure_def] using h
    rfl
  | cons size sizes ih =>
    rw [takeRest] at h ⊢
    obtain ⟨⟨cause | slot, t₁⟩, htake, hrest⟩ := Traced.exists_of_outcome_bind h
    · -- what was taken is given back, and there are no slots to return
      obtain ⟨_, -, hrest⟩ := Traced.exists_of_outcome_bind hrest
      obtain ⟨_, -, hrest⟩ := Traced.exists_of_outcome_bind hrest
      simp [Traced.pure_def] at hrest
    · obtain ⟨taken', hpush, hrest⟩ := Traced.exists_of_outcome_bind hrest
      have htake' : ((t.withOam oam).take size).outcome = .ok (.ok slot, t₁.withOam oam) := by
        rw [take_withOam, map_eq_pure_bind, Traced.outcome_bind htake]
        rfl
      rw [Traced.outcome_bind htake', Traced.outcome_bind hpush]
      exact ih hrest

/-- So taking slots for a grid gives the same slots over any memory. -/
theorem takeGrid_withOam (oam : Oam) {g : Grid}
    (h : (t.takeGrid g).outcome = .ok (.ok slots, t')) :
    ((t.withOam oam).takeGrid g).outcome = .ok (.ok slots, t'.withOam oam) := by
  rw [takeGrid] at h ⊢
  split at h
  · simp [Traced.pure_def] at h
  · rename_i hcells
    rw [if_neg hcells]
    exact takeRest_withOam oam h

end SlotTable

/-! ### What loading depends on -/

namespace Engine

variable {c : Config} {e e' e₁ : Engine} {s s' s₁ : Sprite} {rest : List Sprite}

/-- A sprite is loaded again, where the slots and the references to the palette are as before the
first load, and the colors of the palette as after it. Then it gets the same holding again. -/
private theorem load_again (h : Sound c e rest) (hload : (e.load s).outcome = .ok (.ok (), e₁, s₁))
    (hentries : e'.slots.entries = e.slots.entries) (htiles : e'.slots.tiles = e.slots.tiles)
    (hrefs : e'.palette.refs = e.palette.refs) (hcolors : e'.palette.SameColors e₁.palette)
    (htexture : s'.texture = s.texture) (hheld : s'.held = none) :
    (e'.load s').outcome = .ok (.ok (),
      { e' with palette := e₁.palette, slots := e₁.slots.withOam e'.slots.oam },
      { s' with held := s₁.held }) := by
  obtain ⟨-, k, slots, hbind, htake, -, rfl⟩ := load_eq_ok_iff.mp hload
  have hroom := h.length_references_le
  have hfew := s.texture.length_colors_le
  have hbinds := (PaletteBank.bindAll_spec h.palette (by omega)).of_outcome hbind
  -- this binding shares all of its entries, so that its log of replaced colors is empty
  obtain ⟨-, _, hagain, rfl⟩ :=
    PaletteBank.bindAll_again hbinds (by omega) hcolors (congrFun hrefs)
  have hslots : e'.slots = e.slots.withOam e'.slots.oam := by
    rw [SlotTable.withOam, ← hentries, ← htiles]
  refine load_eq_ok_iff.mpr ⟨by simp [Sprite.isLoaded, hheld], { indices := k.indices }, slots, ?_,
    ?_, rfl, rfl⟩
  · rw [htexture]
    exact hagain
  · rw [htexture, hslots]
    exact SlotTable.takeGrid_withOam _ htake

/-! ### What using a loaded sprite keeps -/

private theorem Uploads.palette {frame : Nat} {fresh : Bool}
    (hu : e.Uploads s frame (.ok fresh, e', s')) : e'.palette = e.palette := by
  obtain ⟨held, ram, -, -, rfl, -⟩ := hu
  rfl

private theorem Refreshes.palette (hr : e.Refreshes s (e', s')) : e'.palette = e.palette := by
  obtain ⟨heq, -⟩ | ⟨⟨fresh, hu⟩, -⟩ := hr
  · obtain ⟨rfl, -⟩ : e' = e ∧ s' = s := by simpa using heq
    rfl
  · exact hu.palette

private theorem Draws.palette {groups : List Nat} (hd : e.Draws s groups (.ok (), e', s')) :
    e'.palette = e.palette := by
  obtain ⟨e₁, s₁, held, -, hr, -, ⟨-, rfl, -⟩ | ⟨-, held', hd, -⟩⟩ := hd
  · exact hr.palette
  · exact hd.palette.trans hr.palette

/-- Until a loaded sprite is freed, no call on it touches the palette. -/
theorem perform_palette (h : Sound c e (s :: rest)) (hs : s.isLoaded = true) {call : Call}
    (hcall : call ≠ .free) : (e.perform s call).Yields fun r =>
      r.2.1.palette = e.palette ∧ r.2.2.texture = s.texture := by
  refine (perform_cases h call).mono fun r hr => ?_
  cases hr with
  | refused => exact ⟨rfl, rfl⟩
  | load hl => simp [Sprite.isLoaded, hl.1] at hs
  | upload hu => exact ⟨hu.palette, hu.texture⟩
  | free => exact absurd rfl hcall
  | draw hd => exact ⟨hd.palette, hd.texture⟩
  | restyle => exact ⟨rfl, rfl⟩

end Engine

/-! ### Along runs -/

namespace Stage

variable {c : Config} {e : Engine} {w w' w₁ : Stage} {i : Nat} {s s₁ : Sprite}

/-- The second stage has the palette colors of the first one, and the sprite its texture. -/
structure Retains (w : Stage) (i : Nat) (w' : Stage) : Prop where
  colors : w'.engine.palette.SameColors w.engine.palette
  texture : w'.sprites[i]?.map Sprite.texture = w.sprites[i]?.map Sprite.texture

theorem Retains.trans {w₂ : Stage} (h : w.Retains i w₁) (h' : w₁.Retains i w₂) : w.Retains i w₂ :=
  ⟨h'.colors.trans h.colors, h'.texture.trans h.texture⟩

/-- The step of the induction, for any call but a free. -/
private theorem InUse.step_retains (h : InUse c w i w₁) {call : Call} (hcall : call ≠ .free) :
    (w₁.step i call).Yields fun r => InUse c w i r.2 ∧ w₁.Retains i r.2 := by
  obtain ⟨s, hs, hloaded⟩ := h.loaded
  have hkeeps := step_own hs (Engine.perform_palette (h.sound.front hs) hloaded hcall)
  refine ((h.step hcall).and hkeeps).mono ?_
  rintro ⟨answer, w₂⟩ ⟨h₂, s₂, hs₂, hpalette, htexture⟩
  dsimp only at hs₂ hpalette htexture
  refine ⟨h₂, ?_, by simp [hs, hs₂, htexture]⟩
  rw [hpalette]
  exact .refl _

/-- By induction along the uses of the sprite. -/
private theorem InUse.run_retains (h : InUse c w i w₁) {uses : List Call}
    (huses : ∀ call ∈ uses, call ≠ .free) :
    (w₁.run (uses.map fun call => (i, call))).Yields fun w₂ =>
      InUse c w i w₂ ∧ w₁.Retains i w₂ := by
  refine uses_yields (fun w₂ h₂ call hcall => ?_) ⟨h, .refl _, rfl⟩ huses
  exact (h₂.1.step_retains hcall).mono fun r hr => ⟨hr.1, h₂.2.trans hr.2⟩

/-- Freeing a sprite leaves its colors in the palette. -/
private theorem free_retains (h : Sound c w) (hs : w.sprites[i]? = some s) :
    (w.step i .free).Yields fun r => w.Retains i r.2 := by
  refine (step_own hs (Engine.perform_cases (h.front hs) .free)).mono ?_
  rintro ⟨answer, ⟨e', sprites'⟩⟩ ⟨s', hs', hf⟩
  cases hf with
  | refused => exact ⟨.refl _, by simp_all⟩
  | free hf =>
    obtain ⟨held, -, rfl, -, -, hcolors, -⟩ := hf
    exact ⟨hcolors, by simp_all⟩

/-- The sprite holds the same on both stages, and has the same tiles and sizes in its slots. Between
the engines there is no difference in the pools, the palette and the descriptors. -/
structure Reloaded (w : Stage) (i : Nat) (w' : Stage) : Prop where
  held : ∃ held, w.sprites[i]?.bind Sprite.held = some held ∧
    w'.sprites[i]?.bind Sprite.held = some held
  entries : w'.engine.slots.entries = w.engine.slots.entries
  usage : w'.engine.usage = w.engine.usage
  palette : w'.engine.palette = w.engine.palette
  words : ∀ slot : Fin 128, w'.engine.slots.oam.words3 slot = w.engine.slots.oam.words3 slot

/-- A sprite was loaded and is not loaded any more. If no other sprite was disturbed since and the
colors of the palette were left alone, the sprite can be loaded again and gets the same. -/
private theorem load_reloaded {w₃ : Stage} {s₃ : Sprite} (h : Sound c w)
    (hs : w.sprites[i]? = some s) (hload : (w.engine.load s).outcome = .ok (.ok (), w₁.engine, s₁))
    (hs₁ : w₁.sprites[i]? = some s₁) (h₃ : Sound c w₃) (hundisturbed : w.Undisturbed i w₃)
    (hs₃ : w₃.sprites[i]? = some s₃) (hheld₃ : s₃.held = none) (hretains : w₁.Retains i w₃) :
    (w₃.step i .load).Yields fun r => r.1 = .ok () ∧ Reloaded w₁ i r.2 := by
  have hloads := (Engine.load_spec (h.front hs)).of_outcome hload
  have hheld := hloads.1
  -- the other sprites are the same as before the first load, and they determine the pools
  have hrest := (Engine.sound_cons_iff hheld).mp (h.front hs)
  have hrest₃ := (Engine.sound_cons_iff hheld₃).mp (h₃.front hs₃)
  rw [hundisturbed.eraseIdx_eq] at hrest₃
  have hrestored := hundisturbed.restored h h₃ hs hheld hs₃ hheld₃
  have htexture : s₃.texture = s.texture := by
    have htexture₁ : s₃.texture = s₁.texture := by simpa [hs₁, hs₃] using hretains.texture
    exact htexture₁.trans hloads.texture
  have hagain := Engine.load_again hrest hload hrestored.entries
    (hrest.tiles_eq hrest₃ hrestored.entries) (hrest.refs_eq hrest₃) hretains.colors htexture hheld₃
  refine (step_own hs₃ (Engine.perform_cases (h₃.front hs₃) .load).outcome).mono ?_
  rintro ⟨answer, ⟨e₄, sprites⟩⟩ ⟨s₄, hs₄, -, hload₄⟩
  obtain ⟨rfl, rfl, rfl⟩ : answer = _ ∧ e₄ = _ ∧ s₄ = _ := by
    simpa using hload₄.symm.trans hagain
  obtain ⟨-, slots, k, rfl, htaken, -, haffine, -⟩ := hloads
  have hflags : w₃.engine.affine.flags = w₁.engine.affine.flags := by
    rw [haffine]
    exact congrArg Usage.affineUsed hrestored.usage
  dsimp only at hs₄
  refine ⟨rfl, ⟨{ slots, colors := k.indices.toList }, by simp [hs₁], by simp [hs₄]⟩, rfl, ?_, rfl,
    fun slot => ?_⟩
  · rw [Engine.usage, Engine.usage, hflags]
    rfl
  · rw [htaken.oam]
    exact hrestored.words slot

/-- Wherever a run has led a stage, if a sprite can be loaded there, then after any use of it and
after it was freed it can be loaded again, and this brings back what it got from the first load. -/
theorem reload_brings_back_holding (he : Engine.new c = .ok e) (textures : List Texture)
    (calls : List (Nat × Call)) :
    ∃ w, ((start e textures).run calls).outcome = .ok w ∧
      ∀ i s, w.sprites[i]? = some s →
        ∃ answer w₁, (w.step i .load).outcome = .ok (answer, w₁) ∧
          (answer = .ok () → ∀ uses : List Call, (∀ call ∈ uses, call ≠ .free) →
            ∃ w₂ w₃ w₄, (w₁.run (uses.map fun call => (i, call))).outcome = .ok w₂ ∧
              (w₂.step i .free).outcome = .ok (.ok (), w₃) ∧
              (w₃.step i .load).outcome = .ok (.ok (), w₄) ∧ w₁.Reloaded i w₄) := by
  obtain ⟨w, hw, hsound⟩ := exists_run he textures calls
  refine ⟨w, hw, fun i s hs => ?_⟩
  obtain ⟨-, ⟨answer, w₁⟩, hload, hinUse, s₁, hs₁, -, hperform⟩ := (load_inUse hsound hs).and
    (step_own hs (Engine.perform_cases (hsound.front hs) .load).outcome)
  refine ⟨answer, w₁, hload, ?_⟩
  rintro rfl uses huses
  obtain ⟨-, h₁⟩ := hinUse rfl
  obtain ⟨-, w₂, hrun, h₂, hretains₂⟩ := h₁.run_retains huses
  obtain ⟨s₂, hs₂, -⟩ := h₂.loaded
  obtain ⟨-, ⟨_, w₃⟩, hfree, ⟨rfl, h₃, hundisturbed, s₃, hs₃, hheld₃⟩, hretains₃⟩ :=
    h₂.free.and (free_retains h₂.sound hs₂)
  obtain ⟨-, ⟨_, w₄⟩, hreload, rfl, hreloaded⟩ := load_reloaded hsound hs hperform hs₁ h₃
    hundisturbed hs₃ hheld₃ (hretains₂.trans hretains₃)
  exact ⟨w₂, w₃, w₄, hrun, hfree, hreload, hreloaded⟩

/-- Next to a black tile, a sprite of four cells is drawn with a scale, freed and loaded again. The
first load replaces the color of an entry, and the second one finds the new color stored there. -/
theorem reload_brings_back_holding_replacedColors :
    ∃ w, ((start (.ofConfig ⟨130, 5, 1⟩) [.blackTile, .banded]).run [(0, .load)]).outcome = .ok w ∧
      ∃ w₁ w₂ w₃ w₄, (w.step 1 .load).outcome = .ok (.ok (), w₁) ∧
        (w₁.run [(1, .upload 2), (1, .restyle { scaleX := .zero }), (1, .draw)]).outcome = .ok w₂ ∧
        (w₂.step 1 .free).outcome = .ok (.ok (), w₃) ∧
        (w₃.step 1 .load).outcome = .ok (.ok (), w₄) ∧ w₁.Reloaded 1 w₄ ∧
        w.engine.palette.color? 2 = some 0 ∧ w₃.engine.palette.color? 2 = some 31 := by
  obtain ⟨w, w₁, hw, hs, hold, hload, -, hnew, -⟩ := load_banded
  have hsound : Sound ⟨130, 5, 1⟩ w := (run_spec (.start rfl _) _).of_outcome hw
  obtain ⟨-, h₁⟩ := (load_inUse hsound hs).of_outcome hload rfl
  obtain ⟨w', hw', hsprites⟩ := reload_brings_back_holding (c := ⟨130, 5, 1⟩) rfl
    [.blackTile, .banded] [(0, .load)]
  obtain rfl : w = w' := Except.ok.inj (hw.symm.trans hw')
  obtain ⟨answer, w₁', hload', hreload⟩ := hsprites 1 _ hs
  obtain ⟨rfl, rfl⟩ : .ok () = answer ∧ w₁ = w₁' := by simpa using hload.symm.trans hload'
  have huses : ∀ call ∈ [.upload 2, .restyle { scaleX := .zero }, .draw], call ≠ Call.free := by
    simp
  obtain ⟨w₂, w₃, w₄, hrun, hfree, hload₄, hreloaded⟩ := hreload rfl _ huses
  -- neither the calls nor the free change the colors of the palette
  obtain ⟨h₂, hretains₂⟩ := (h₁.run_retains huses).of_outcome hrun
  obtain ⟨s₂, hs₂, -⟩ := h₂.loaded
  have hretains₃ := (free_retains h₂.sound hs₂).of_outcome hfree
  have hstored := (hretains₂.trans hretains₃).colors.stored 1
  refine ⟨w, hw, w₁, w₂, w₃, w₄, hload, hrun, hfree, hload₄, hreloaded, hold, ?_⟩
  calc w₃.engine.palette.color? (PaletteBank.indexOf 1)
    _ = some (w₃.engine.palette.stored 1) := PaletteBank.color?_indexOf _ 1
    _ = some (w₁.engine.palette.stored 1) := congrArg some hstored
    _ = w₁.engine.palette.color? (PaletteBank.indexOf 1) := (PaletteBank.color?_indexOf _ 1).symm
    _ = some 31 := hnew

end Stage

end SpriteEngine
