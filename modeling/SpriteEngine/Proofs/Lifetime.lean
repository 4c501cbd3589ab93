import SpriteEngine.Proofs.Isolation

/-!
# What a sprite leaves behind

A sprite is loaded, used for a while and freed again. `Engine.Restored` says what the engine looks
like then: the pools are as before, and so is every part of video memory that was in use before. The
parts that were free may have been written to, except for descriptors, which are all as before.

This does not follow from undoing the calls one by one, since uploading and drawing have no inverse.
It follows from two facts about the other sprites: they are the same before and after, so that the
accounts are the same (`Engine.Sound.restored`), and nothing that was done in between has disturbed
them (`Stage.Undisturbed`). What nobody holds is blank in both engines.
-/

namespace SpriteEngine

/-! ### Engines with the same sprites -/

namespace Engine

variable {c : Config} {e e' : Engine} {s : Sprite} {sprites rest : List Sprite}

/-- The second engine has the pools of the first one, all of its entries and descriptors, and
whatever else was in use. -/
structure Restored (e e' : Engine) : Prop where
  usage : e'.usage = e.usage
  entries : e'.slots.entries = e.slots.entries
  words : ∀ slot : Fin 128, e'.slots.oam.words3 slot = e.slots.oam.words3 slot
  stored : ∀ index, e.palette.refCount index ≠ 0 →
    e'.palette.color? index = e.palette.color? index
  shown : ∀ index, e.palette.refCount index ≠ 0 →
    e'.palette.ram.color index = e.palette.ram.color index
  tiles : ∀ j, ¬ e.slots.tiles.IsFree (j / 64) → e'.tileRam.bytes[j]? = e.tileRam.bytes[j]?
  matrix : ∀ g : Fin 32, e.affine.isUsed g.val = true →
    e'.slots.oam.matrix g = e.slots.oam.matrix g

/-- An index with references is held by a sprite. -/
private theorem Sound.exists_referrer (h : Sound c e sprites) {index : UInt8}
    (hindex : e.palette.refCount index ≠ 0) :
    ∃ b ∈ sprites, ∃ held, b.held = some held ∧ index ∈ held.colors := by
  obtain ⟨i, hi⟩ : ∃ i, PaletteBank.entryOf? index = some i := by
    cases hi : PaletteBank.entryOf? index with
    | none => simp [PaletteBank.refCount, hi] at hindex
    | some i => exact ⟨i, rfl⟩
  obtain rfl := PaletteBank.eq_indexOf_of_entryOf? hi
  rw [PaletteBank.refCount_indexOf, h.palette.refs, h.map_references] at hindex
  obtain ⟨b, hb, hcolor⟩ := List.mem_flatMap.mp (List.count_pos_iff.mp (Nat.pos_of_ne_zero hindex))
  cases hheld : b.held with
  | none => simp [hheld] at hcolor
  | some held => exact ⟨b, hb, held, hheld, by rwa [Sprite.heldColors_of_some hheld] at hcolor⟩

private theorem eq_of_toNat_eq {a b : Bool} (h : a.toNat = b.toNat) : a = b := by
  revert a b
  decide

/-- The sprites determine which slots are in use. -/
private theorem Sound.isUsed_eq (h : Sound c e sprites) (h' : Sound c e' sprites) (i : Nat) :
    e'.slots.isUsed i = e.slots.isUsed i :=
  eq_of_toNat_eq ((h'.slots i).symm.trans (h.slots i))

/-- The sprites determine the entries, but for what the descriptors of their slots say. -/
private theorem Sound.entries_eq (h : Sound c e sprites) (h' : Sound c e' sprites)
    (hspares : ∀ b ∈ sprites, ∀ held, b.held = some held → e.Spares held e') :
    e'.slots.entries = e.slots.entries := by
  refine List.ext_getElem? fun i => ?_
  cases hi : e.slots.isUsed i with
  | true =>
    obtain ⟨b, hb, held, hheld, hslot⟩ := h.exists_holder hi
    exact (hspares b hb held hheld).entries i hslot
  | false =>
    rw [h.table.entry_of_unused hi, h'.table.entry_of_unused ((h.isUsed_eq h' i).trans hi),
      h.length, h'.length]

/-- The sprites determine how many references there are to each palette entry. -/
theorem Sound.refs_eq (h : Sound c e sprites) (h' : Sound c e' sprites) :
    e'.palette.refs = e.palette.refs :=
  funext fun i => (h'.palette.refs i).trans (h.palette.refs i).symm

/-- The entries determine which tiles are free. -/
theorem Sound.tiles_eq (h : Sound c e sprites) (h' : Sound c e' sprites)
    (hentries : e'.slots.entries = e.slots.entries) : e'.slots.tiles = e.slots.tiles :=
  h'.table.tiles_eq h.table hentries (h'.capacity.trans h.capacity.symm)

/-- The entries and the sprites determine the pools. -/
private theorem Sound.usage_eq (h : Sound c e sprites) (h' : Sound c e' sprites)
    (hentries : e'.slots.entries = e.slots.entries) : e'.usage = e.usage := by
  have hused : e'.affine.isUsed = e.affine.isUsed :=
    funext fun g => eq_of_toNat_eq ((h'.affine.count g).symm.trans (h.affine.count g))
  rw [usage, usage, h.tiles_eq h' hentries, hentries, PaletteBank.map_refs_entries,
    PaletteBank.map_refs_entries, h.refs_eq h', AffinePool.flags_eq h'.affine.count_le,
    AffinePool.flags_eq h.affine.count_le, hused, h'.count, h.count]

/-- A byte of a tile that is not free is in a slot of one of the sprites, or nowhere. -/
private theorem Sound.bytes_eq (h : Sound c e sprites) (h' : Sound c e' sprites)
    (hspares : ∀ b ∈ sprites, ∀ held, b.held = some held → e.Spares held e') {j : Nat}
    (hj : ¬ e.slots.tiles.IsFree (j / 64)) : e'.tileRam.bytes[j]? = e.tileRam.bytes[j]? := by
  rw [h.table.isFree_iff, h.capacity, not_and] at hj
  by_cases hlt : j / 64 < c.tileUnits
  · obtain ⟨entry, hentry, howns⟩ := List.countP_pos_iff.mp (Nat.pos_of_ne_zero (hj hlt))
    obtain ⟨hused, hcovers⟩ := of_decide_eq_true howns
    obtain ⟨slot, hslot⟩ := List.mem_iff_getElem?.mp hentry
    obtain ⟨b, hb, held, hheld, hmem⟩ := h.exists_holder (i := slot) (by
      rw [SlotTable.isUsed_of_entry hslot, hused]
      rfl)
    exact (hspares b hb held hheld).tiles slot hmem entry hslot j hcovers
  · rw [Array.getElem?_eq_none (by rw [h'.ram]; omega),
      Array.getElem?_eq_none (by rw [h.ram]; omega)]

/-- Two engines with the same sprites, in which these show the same, agree on all that is in use. -/
theorem Sound.restored (h : Sound c e sprites) (h' : Sound c e' sprites)
    (hspares : ∀ b ∈ sprites, ∀ held, b.held = some held → e.Spares held e') : e.Restored e' where
  usage := h.usage_eq h' (h.entries_eq h' hspares)
  entries := h.entries_eq h' hspares
  words slot := by
    cases hslot : e.slots.isUsed slot with
    | true =>
      obtain ⟨b, hb, held, hheld, hmem⟩ := h.exists_holder hslot
      exact (hspares b hb held hheld).words slot hmem
    | false =>
      rw [h.table.hidden slot hslot, h'.table.hidden slot ((h.isUsed_eq h' slot).trans hslot)]
  stored index hindex := by
    obtain ⟨b, hb, held, hheld, hmem⟩ := h.exists_referrer hindex
    exact (hspares b hb held hheld).stored index hmem
  shown index hindex := by
    obtain ⟨b, hb, held, hheld, hmem⟩ := h.exists_referrer hindex
    exact (hspares b hb held hheld).shown index hmem
  tiles _ hj := h.bytes_eq h' hspares hj
  matrix g hg := by
    obtain ⟨b, hb, held, hheld, hgroup⟩ := h.exists_scaled hg
    exact (hspares b hb held hheld).matrix g hgroup

/-! ### Use of a loaded sprite -/

/-- A loaded sprite stays loaded until it is freed. -/
theorem perform_isLoaded (h : Sound c e (s :: rest)) (hs : s.isLoaded = true) {call : Call}
    (hcall : call ≠ .free) : (e.perform s call).Yields fun r => r.2.2.isLoaded = true := by
  refine (perform_cases h call).mono fun r hr => ?_
  cases hr with
  | refused => exact hs
  | load hl =>
    obtain ⟨-, slots, k, rfl, -⟩ := hl
    rfl
  | upload hu =>
    obtain ⟨held, ram, -, -, -, rfl, -⟩ := hu
    rfl
  | free => exact absurd rfl hcall
  | draw hd => exact hd.isLoaded
  | restyle => exact hs

end Engine

/-! ### Along runs -/

namespace Stage

variable {c : Config} {e : Engine} {w w' : Stage} {i : Nat} {s : Sprite}

/-- The other sprites are the same on both stages. -/
theorem Undisturbed.eraseIdx_eq (h : w.Undisturbed i w') :
    w'.sprites.eraseIdx i = w.sprites.eraseIdx i := by
  refine List.ext_getElem? fun j => ?_
  rw [List.getElem?_eraseIdx, List.getElem?_eraseIdx]
  split
  · exact h.sprites j (by omega)
  · exact h.sprites (j + 1) (by omega)

/-- If a sprite is not loaded before and after calls that disturb no other, the engine is
restored. -/
theorem Undisturbed.restored (hw : w.Undisturbed i w') (h : Sound c w) (h' : Sound c w')
    {s' : Sprite} (hs : w.sprites[i]? = some s) (hheld : s.held = none)
    (hs' : w'.sprites[i]? = some s') (hheld' : s'.held = none) :
    w.engine.Restored w'.engine := by
  have hrest := (Engine.sound_cons_iff hheld).mp (h.front hs)
  have hrest' := (Engine.sound_cons_iff hheld').mp (h'.front hs')
  rw [hw.eraseIdx_eq] at hrest'
  refine hrest.restored hrest' fun b hb held hheld => ?_
  obtain ⟨j, hj, hb⟩ := List.mem_eraseIdx_iff_getElem?.mp hb
  exact hw.spares j hj b hb held hheld

/-- What every call on a sprite except freeing it preserves is preserved by using it. -/
theorem uses_yields {P : Stage → Prop}
    (hstep : ∀ w, P w → ∀ call, call ≠ .free → (w.step i call).Yields fun r => P r.2)
    (h : P w) {uses : List Call} (huses : ∀ call ∈ uses, call ≠ .free) :
    (w.run (uses.map fun call => (i, call))).Yields P := by
  induction uses generalizing w with
  | nil => exact .pure h
  | cons call uses ih =>
    obtain ⟨hcall, huses⟩ := List.forall_mem_cons.mp huses
    rw [List.map_cons, run, List.foldlM_cons, map_eq_pure_bind]
    refine ((hstep w h call hcall).bind fun r hr => .pure hr).bind fun w₁ h₁ => ?_
    exact ih h₁ huses

/-- What is known of a stage on which the given sprite has been loaded since the stage was `w`. -/
structure InUse (c : Config) (w : Stage) (i : Nat) (w' : Stage) : Prop where
  sound : Sound c w'
  undisturbed : w.Undisturbed i w'
  loaded : ∃ s, w'.sprites[i]? = some s ∧ s.isLoaded = true

/-- A load that works begins the time of use. -/
theorem load_inUse (h : Sound c w) (hs : w.sprites[i]? = some s) :
    (w.step i .load).Yields fun r => r.1 = .ok () → s.held = none ∧ InUse c w i r.2 := by
  refine ((step_undisturbed h i .load).and (step_own hs (Engine.load_spec (h.front hs)))).mono ?_
  rintro ⟨answer, w'⟩ ⟨⟨hsound, hundisturbed⟩, s', hs', hl⟩ rfl
  obtain ⟨hheld, slots, k, rfl, -⟩ := hl
  exact ⟨hheld, hsound, hundisturbed, _, hs', rfl⟩

/-- Any call but a free goes on with it. -/
theorem InUse.step (h : InUse c w i w') {call : Call} (hcall : call ≠ .free) :
    (w'.step i call).Yields fun r => InUse c w i r.2 := by
  obtain ⟨s, hs, hloaded⟩ := h.loaded
  have hstays := step_own hs (Engine.perform_isLoaded (h.sound.front hs) hloaded hcall)
  refine ((step_undisturbed h.sound i call).and hstays).mono ?_
  rintro r ⟨⟨hsound, hundisturbed⟩, hloaded⟩
  exact ⟨hsound, h.undisturbed.trans hundisturbed, hloaded⟩

private theorem InUse.run (h : InUse c w i w') {uses : List Call}
    (huses : ∀ call ∈ uses, call ≠ .free) :
    (w'.run (uses.map fun call => (i, call))).Yields (InUse c w i) :=
  uses_yields (fun _ h₁ _ hcall => h₁.step hcall) h huses

/-- A free ends it, and never fails. -/
theorem InUse.free (h : InUse c w i w') :
    (w'.step i .free).Yields fun r => r.1 = .ok () ∧ Sound c r.2 ∧ w.Undisturbed i r.2 ∧
      ∃ s, r.2.sprites[i]? = some s ∧ s.held = none := by
  obtain ⟨s, hs, hloaded⟩ := h.loaded
  refine ((step_undisturbed h.sound i .free).and
    (step_own hs (Engine.free_spec (h.sound.front hs)))).mono ?_
  rintro ⟨cause | _, w''⟩ ⟨⟨hsound, hundisturbed⟩, s', hs', hf⟩
  · -- a loaded sprite can be freed
    exact absurd (hloaded.symm.trans hf.2.2.1) (by simp)
  · obtain ⟨held, -, rfl, -⟩ := hf
    exact ⟨rfl, hsound, h.undisturbed.trans hundisturbed, _, hs', rfl⟩

/-- Wherever a run has led a stage, if a sprite can be loaded there, then it can be used in any way
and freed, which restores the engine. The sprite holds nothing any more, and no other sprite was
disturbed. -/
theorem lifetime_leaves_engine_restored (he : Engine.new c = .ok e) (textures : List Texture)
    (calls : List (Nat × Call)) :
    ∃ w, ((start e textures).run calls).outcome = .ok w ∧
      ∀ i s, w.sprites[i]? = some s →
        ∃ answer w₁, (w.step i .load).outcome = .ok (answer, w₁) ∧
          (answer = .ok () → ∀ uses : List Call, (∀ call ∈ uses, call ≠ .free) →
            ∃ w₂ w₃ s₃, (w₁.run (uses.map fun call => (i, call))).outcome = .ok w₂ ∧
              (w₂.step i .free).outcome = .ok (.ok (), w₃) ∧ w.engine.Restored w₃.engine ∧
              w₃.sprites[i]? = some s₃ ∧ s₃.held = none ∧ w.Undisturbed i w₃) := by
  obtain ⟨w, hw, hsound⟩ := exists_run he textures calls
  refine ⟨w, hw, fun i s hs => ?_⟩
  obtain ⟨-, ⟨answer, w₁⟩, hload, hloaded⟩ := load_inUse hsound hs
  refine ⟨answer, w₁, hload, fun hok uses huses => ?_⟩
  obtain ⟨hheld, h₁⟩ := hloaded hok
  obtain ⟨-, w₂, hrun, h₂⟩ := h₁.run huses
  obtain ⟨-, ⟨_, w₃⟩, hfree, rfl, hsound₃, hundisturbed, s₃, hs₃, hheld₃⟩ := h₂.free
  have hrestored := hundisturbed.restored hsound hsound₃ hs hheld hs₃ hheld₃
  exact ⟨w₂, w₃, s₃, hrun, hfree, hrestored, hs₃, hheld₃, hundisturbed⟩

/-- Next to a sprite that is drawn with a scale, another one gains an affine group and loses it. -/
theorem lifetime_leaves_engine_restored_scaled :
    ∃ w, ((start (.ofConfig ⟨2, 2, 2⟩) [.blackTile, .blackTile]).run
      [(0, .load), (0, .restyle { scaleX := .zero }), (0, .draw)]).outcome = .ok w ∧
      ∃ w₁ w₂ w₃, (w.step 1 .load).outcome = .ok (.ok (), w₁) ∧
        (w₁.run [(1, .restyle { scaleX := .zero }), (1, .draw), (1, .restyle {}),
          (1, .draw)]).outcome = .ok w₂ ∧
        (w₂.step 1 .free).outcome = .ok (.ok (), w₃) ∧ w.engine.Restored w₃.engine := by
  have hanswer : (((start (.ofConfig ⟨2, 2, 2⟩) [.blackTile, .blackTile]).run
      [(0, .load), (0, .restyle { scaleX := .zero }), (0, .draw)]).outcome >>= fun w =>
        (w.step 1 .load).outcome.map fun r => (w.sprites[1]?.isSome, r.1)) =
          .ok (true, .ok ()) := by decide +kernel
  obtain ⟨w, hw, hsprites⟩ := lifetime_leaves_engine_restored (c := ⟨2, 2, 2⟩) rfl
    [.blackTile, .blackTile] [(0, .load), (0, .restyle { scaleX := .zero }), (0, .draw)]
  rw [hw, Checked.ok_bind] at hanswer
  cases hs : w.sprites[1]? with
  | none =>
    rw [hs] at hanswer
    cases hstep : (w.step 1 .load).outcome <;> simp [hstep, Except.map] at hanswer
  | some s =>
    obtain ⟨answer, w₁, hload, hrestored⟩ := hsprites 1 s hs
    rw [hload] at hanswer
    obtain ⟨-, rfl⟩ := Prod.mk.inj (Except.ok.inj hanswer)
    obtain ⟨w₂, w₃, s₃, hrun, hfree, hengine, -⟩ := hrestored rfl
      [.restyle { scaleX := .zero }, .draw, .restyle {}, .draw] (by simp)
    exact ⟨w, hw, w₁, w₂, w₃, hload, hrun, hfree, hengine⟩

end Stage

end SpriteEngine
