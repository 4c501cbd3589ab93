import SpriteEngine.Proofs.Stage

/-!
# Sprites leave each other alone

All sprites share object attribute memory, the palette and tile RAM, yet nothing that is done with
one sprite changes what another one shows. `Engine.Spares e held e'` lists what that is: the entries
and descriptors of its slots, the bytes of their tiles, its colors, as stored and as shown, and its
linear map.

The argument has two halves. An operation writes only to what its sprite holds, before or after
(`Engine.Confined`), and by the accounts that is disjoint from what any other sprite holds
(`Engine.Sound.spares`). Colors are the exception, because sprites share them. For these no
operation is looked at: an entry that is referenced has the color of the reference, before as well
as after.

`Stage.Undisturbed` says it for all the other sprites of a stage at once. It is a preorder, so it
extends from one call to all the calls on a sprite.
-/

namespace SpriteEngine

/-! ### Where an operation writes -/

namespace Engine

variable {c : Config} {e e' e'' : Engine} {s s' b : Sprite} {rest : List Sprite} {held : Holding}

/-- Nothing was written but slots that the sprite held or holds now, tiles that belonged to it, and
the linear map that it has now. -/
structure Confined (e : Engine) (s : Sprite) (e' : Engine) (s' : Sprite) : Prop where
  entries : ∀ slot, slot ∉ s.heldSlots → slot ∉ s'.heldSlots →
    e'.slots.entries[slot]? = e.slots.entries[slot]?
  words : ∀ slot : Fin 128, slot.val ∉ s.heldSlots → slot.val ∉ s'.heldSlots →
    e'.slots.oam.words3 slot = e.slots.oam.words3 slot
  tiles : ∀ j, ¬ e.slots.OwnedBy s.heldSlots (j / 64) →
    e'.tileRam.bytes[j]? = e.tileRam.bytes[j]?
  matrix : ∀ g : Fin 32, s'.heldGroup ≠ some g.val →
    e'.slots.oam.matrix g = e.slots.oam.matrix g

theorem Confined.refl (e : Engine) (s s' : Sprite) : Confined e s e s' :=
  ⟨fun _ _ _ => rfl, fun _ _ _ => rfl, fun _ _ => rfl, fun _ _ => rfl⟩

/-- A load changes nothing but the palette and the slots that it takes. -/
private theorem Loads.confined {refs : List (UInt8 × UInt16)}
    (hl : e.Loads s refs (.ok (), e', s')) : e.Confined s e' s' := by
  obtain ⟨-, slots, k, rfl, ht, -, -, hram⟩ := hl
  exact ⟨fun slot _ hslot => ht.entries slot hslot, fun _ _ _ => by rw [ht.oam],
    fun _ _ => by rw [hram], fun _ _ => by rw [ht.oam]⟩

/-- A free hides and gives back slots that the sprite held. -/
private theorem Frees.confined {refs : List (UInt8 × UInt16)}
    (hf : e.Frees s refs (.ok (), e', s')) : e.Confined s e' s' := by
  obtain ⟨held, hheld, rfl, ht, -, -, -, hram⟩ := hf
  rw [← Sprite.heldSlots_of_some hheld] at ht
  exact ⟨fun slot hslot _ => by rw [ht.entries, if_neg hslot],
    fun slot hslot _ => by rw [ht.words, if_neg hslot], fun _ _ => by rw [hram],
    fun g _ => ht.matrix g⟩

/-- An upload writes to the tiles of the sprite and leaves the slots. -/
private theorem Uploads.confined {frame : Nat} {fresh : Bool}
    (hu : e.Uploads s frame (.ok fresh, e', s')) : e'.slots = e.slots ∧ e.Confined s e' s' := by
  obtain ⟨held, ram, hheld, -, rfl, -, -, -, hkeep⟩ := hu
  rw [← Sprite.heldSlots_of_some hheld] at hkeep
  exact ⟨rfl, fun _ _ _ => rfl, fun _ _ _ => rfl, hkeep, fun _ _ => rfl⟩

private theorem Refreshes.confined (hr : e.Refreshes s (e', s')) :
    e'.slots = e.slots ∧ e.Confined s e' s' := by
  obtain ⟨heq, -⟩ | ⟨⟨fresh, hu⟩, -⟩ := hr
  · obtain ⟨rfl, rfl⟩ : e' = e ∧ s' = s := by simpa using heq
    exact ⟨rfl, .refl ..⟩
  · exact hu.confined

/-- A draw writes to the tiles, the descriptors and the group of the sprite. -/
theorem Draws.confined {groups : List Nat} (hd : e.Draws s groups (.ok (), e', s')) :
    e.Confined s e' s' := by
  obtain ⟨e₁, s₁, held, hloaded, hr, hheld, hs'⟩ := hd
  obtain ⟨held₀, hheld₀⟩ := Option.isSome_iff_exists.mp hloaded
  obtain ⟨-, frame, hheld₁⟩ := hr.exists_held (tick_held.trans hheld₀)
  obtain rfl : { held₀ with frame } = held := Option.some.inj (hheld₁.symm.trans hheld)
  obtain ⟨hslots, hconfined⟩ := hr.confined
  have htick : s.tick.heldSlots = s.heldSlots := by
    rw [Sprite.heldSlots, tick_held, Sprite.heldSlots]
  have htiles := hconfined.tiles
  rw [htick] at htiles
  obtain ⟨-, rfl, rfl⟩ | ⟨-, held', hd, rfl⟩ := hs'
  · exact ⟨fun slot h => hconfined.entries slot (htick ▸ h),
      fun slot h => hconfined.words slot (htick ▸ h), htiles, hconfined.matrix⟩
  · -- what was described are the slots that the sprite has had all the time
    have hredrawn := hd.slots
    rw [hslots] at hredrawn
    have hs : s.heldSlots = held₀.slots := Sprite.heldSlots_of_some hheld₀
    refine ⟨fun slot hslot _ => hredrawn.entries slot (hs ▸ hslot),
      fun slot hslot _ => hredrawn.words slot (hs ▸ hslot), fun j hj => ?_,
      fun g hg => hredrawn.matrix g ?_⟩
    · rw [hd.tileRam, htiles j hj]
    · rw [Sprite.heldGroup_of_some rfl] at hg
      simpa [eq_comm] using hg

/-- Every call is confined to its sprite. -/
private theorem perform_confined (h : Sound c e (s :: rest)) (call : Call) :
    (e.perform s call).Yields fun r => e.Confined s r.2.1 r.2.2 := by
  refine (perform_cases h call).mono fun r hr => ?_
  cases hr with
  | refused => exact .refl ..
  | load hl => exact hl.confined
  | upload hu => exact hu.confined.2
  | free hf => exact hf.confined
  | draw hd => exact hd.confined
  | restyle => exact .refl ..

/-! ### What other sprites keep -/

/-- Everything that a sprite with the given holding shows is the same in both engines. -/
structure Spares (e : Engine) (held : Holding) (e' : Engine) : Prop where
  entries : ∀ slot ∈ held.slots, e'.slots.entries[slot]? = e.slots.entries[slot]?
  words : ∀ slot : Fin 128, slot.val ∈ held.slots →
    e'.slots.oam.words3 slot = e.slots.oam.words3 slot
  tiles : ∀ slot ∈ held.slots, ∀ entry, e.slots.entries[slot]? = some entry →
    ∀ j, Zone.Covers ⟨entry.tile, entry.size.tiles⟩ (j / 64) →
      e'.tileRam.bytes[j]? = e.tileRam.bytes[j]?
  stored : ∀ index ∈ held.colors, e'.palette.color? index = e.palette.color? index
  shown : ∀ index ∈ held.colors, e'.palette.ram.color index = e.palette.ram.color index
  matrix : ∀ g : Fin 32, held.affine = some g.val →
    e'.slots.oam.matrix g = e.slots.oam.matrix g

theorem Spares.refl (e : Engine) (held : Holding) : Spares e held e :=
  ⟨fun _ _ => rfl, fun _ _ => rfl, fun _ _ _ _ _ _ => rfl, fun _ _ => rfl, fun _ _ => rfl,
    fun _ _ => rfl⟩

theorem Spares.trans (h : Spares e held e') (h' : Spares e' held e'') : Spares e held e'' where
  entries slot hslot := (h'.entries slot hslot).trans (h.entries slot hslot)
  words slot hslot := (h'.words slot hslot).trans (h.words slot hslot)
  tiles slot hslot entry hentry j hj :=
    (h'.tiles slot hslot entry ((h.entries slot hslot).trans hentry) j hj).trans
      (h.tiles slot hslot entry hentry j hj)
  stored index hindex := (h'.stored index hindex).trans (h.stored index hindex)
  shown index hindex := (h'.shown index hindex).trans (h.shown index hindex)
  matrix g hg := (h'.matrix g hg).trans (h.matrix g hg)

/-- A color that a sprite holds is the one it was bound for. -/
private theorem Sound.exists_color {sprites : List Sprite} (h : Sound c e sprites)
    (hb : b ∈ sprites) (hheld : b.held = some held) {index : UInt8} (hindex : index ∈ held.colors) :
    ∃ color, (index, color) ∈ b.references := by
  obtain ⟨k, hk, rfl⟩ := List.mem_iff_getElem.mp hindex
  have hlength := (h.intact b hb held hheld).length_colors
  refine ⟨b.texture.colors[k], ?_⟩
  rw [Sprite.references_of_some hheld, ← List.getElem_zip (h := by simp; omega)]
  exact List.getElem_mem _

/-- What is confined to one sprite spares the others. -/
theorem Sound.spares (h : Sound c e (s :: rest)) (h' : Sound c e' (s' :: rest))
    (hc : e.Confined s e' s') (hb : b ∈ rest) (hheld : b.held = some held) : e.Spares held e' := by
  have hslots : ∀ slot ∈ held.slots, slot ∉ s.heldSlots ∧ slot ∉ s'.heldSlots := by
    intro slot hslot
    rw [← Sprite.heldSlots_of_some hheld] at hslot
    exact ⟨h.slots_disjoint hb hslot, h'.slots_disjoint hb hslot⟩
  -- both palettes account for the references of the sprite
  have hcolors : ∀ index ∈ held.colors, ∃ color, e.palette.color? index = some color ∧
      e.palette.ram.color index = color ∧ e'.palette.color? index = some color ∧
      e'.palette.ram.color index = color := by
    intro index hindex
    obtain ⟨color, hcolor⟩ := h.exists_color (List.mem_cons_of_mem s hb) hheld hindex
    obtain ⟨hstored, hshown⟩ := h.palette.color_of_mem
      (List.mem_flatMap.mpr ⟨b, List.mem_cons_of_mem s hb, hcolor⟩)
    obtain ⟨hstored', hshown'⟩ := h'.palette.color_of_mem
      (List.mem_flatMap.mpr ⟨b, List.mem_cons_of_mem s' hb, hcolor⟩)
    exact ⟨color, hstored, hshown, hstored', hshown'⟩
  refine ⟨fun slot hslot => hc.entries slot (hslots slot hslot).1 (hslots slot hslot).2,
    fun slot hslot => hc.words slot (hslots slot hslot).1 (hslots slot hslot).2, ?_, ?_, ?_, ?_⟩
  · intro slot hslot entry hentry j hj
    have hused := h.isUsed_of_held (List.mem_cons_of_mem s hb) hheld hslot
    rw [SlotTable.isUsed_of_entry hentry, Bool.not_eq_true'] at hused
    refine hc.tiles j (h.tiles_disjoint hb ⟨slot, ?_, entry.tile, entry.size, ?_, hj⟩)
    · rwa [Sprite.heldSlots_of_some hheld]
    · exact SlotTable.object?_eq_some.mpr ⟨entry, hentry, hused, rfl, rfl⟩
  · intro index hindex
    obtain ⟨color, hstored, -, hstored', -⟩ := hcolors index hindex
    rw [hstored, hstored']
  · intro index hindex
    obtain ⟨color, -, hshown, -, hshown'⟩ := hcolors index hindex
    rw [hshown, hshown']
  · intro g hg
    exact hc.matrix g (h'.group_ne hb ((Sprite.heldGroup_of_some hheld).trans hg))

end Engine

/-! ### Along runs -/

namespace Stage

variable {c : Config} {e : Engine} {w w' w'' : Stage} {i : Nat}

/-- All sprites but the one with the given number are the same and show the same. -/
structure Undisturbed (w : Stage) (i : Nat) (w' : Stage) : Prop where
  sprites : ∀ j, j ≠ i → w'.sprites[j]? = w.sprites[j]?
  spares : ∀ j, j ≠ i → ∀ b, w.sprites[j]? = some b → ∀ held, b.held = some held →
    w.engine.Spares held w'.engine

theorem Undisturbed.refl (w : Stage) (i : Nat) : Undisturbed w i w :=
  ⟨fun _ _ => rfl, fun _ _ _ _ held _ => .refl w.engine held⟩

theorem Undisturbed.trans (h : Undisturbed w i w') (h' : Undisturbed w' i w'') :
    Undisturbed w i w'' where
  sprites j hj := (h'.sprites j hj).trans (h.sprites j hj)
  spares j hj b hb held hheld :=
    (h.spares j hj b hb held hheld).trans
      (h'.spares j hj b ((h.sprites j hj).trans hb) held hheld)

/-- A step keeps the stage sound and disturbs no other sprite. -/
theorem step_undisturbed (h : Sound c w) (i : Nat) (call : Call) :
    (w.step i call).Yields fun r => Sound c r.2 ∧ w.Undisturbed i r.2 := by
  cases hs : w.sprites[i]? with
  | none =>
    rw [step, hs]
    exact .pure ⟨h, .refl w i⟩
  | some s =>
    have hfront := h.front hs
    refine step_yields hs (((Engine.perform_spec hfront call).and
      (Engine.perform_confined hfront call)).mono ?_)
    rintro ⟨answer, e', s'⟩ ⟨⟨hsound, -⟩, hconfined⟩
    refine ⟨.back hs hsound, fun j hj => List.getElem?_set_ne (Ne.symm hj),
      fun j hj b hb held hheld => ?_⟩
    exact hfront.spares hsound hconfined (List.mem_eraseIdx_iff_getElem?.mpr ⟨j, hj, hb⟩) hheld

/-- Wherever a run has led a stage, any call on one of the sprites has an answer and, whatever that
is, disturbs no other sprite. -/
theorem call_disturbs_no_other (he : Engine.new c = .ok e) (textures : List Texture)
    (calls : List (Nat × Call)) :
    ∃ w, ((start e textures).run calls).outcome = .ok w ∧
      ∀ i call, ∃ answer w', (w.step i call).outcome = .ok (answer, w') ∧ w.Undisturbed i w' := by
  obtain ⟨w, hw, hsound⟩ := exists_run he textures calls
  refine ⟨w, hw, fun i call => ?_⟩
  obtain ⟨-, ⟨answer, w'⟩, hstep, -, hundisturbed⟩ := step_undisturbed hsound i call
  exact ⟨answer, w', hstep, hundisturbed⟩

/-- Of two sprites with the same color, one is freed and the other keeps it. -/
theorem call_disturbs_no_other_sharedColor :
    ∃ w, ((start (.ofConfig ⟨2, 2, 1⟩) [.blackTile, .blackTile]).run
      [(0, .load), (0, .draw), (1, .load)]).outcome = .ok w ∧
      ∃ w', (w.step 1 .free).outcome = .ok (.ok (), w') ∧
        ∃ b held, w.sprites[0]? = some b ∧ b.held = some held ∧ w'.sprites[0]? = some b ∧
          w.engine.Spares held w'.engine := by
  have hanswer : (((start (.ofConfig ⟨2, 2, 1⟩) [.blackTile, .blackTile]).run
      [(0, .load), (0, .draw), (1, .load)]).outcome >>= fun w => (w.step 1 .free).outcome.map
        fun r => (w.sprites[0]?.any Sprite.isLoaded, r.1)) = .ok (true, .ok ()) := by
    decide +kernel
  obtain ⟨w, hw, hcalls⟩ := call_disturbs_no_other (c := ⟨2, 2, 1⟩) rfl [.blackTile, .blackTile]
    [(0, .load), (0, .draw), (1, .load)]
  obtain ⟨answer, w', hstep, hundisturbed⟩ := hcalls 1 .free
  rw [hw, Checked.ok_bind, hstep] at hanswer
  obtain ⟨hloaded, rfl⟩ : w.sprites[0]?.any Sprite.isLoaded = true ∧ answer = .ok () :=
    Prod.mk.inj (Except.ok.inj hanswer)
  obtain ⟨b, hb, hheld⟩ := (Option.any_eq_true ..).mp hloaded
  obtain ⟨held, hheld⟩ := Option.isSome_iff_exists.mp hheld
  exact ⟨w, hw, w', hstep, b, held, hb, hheld, (hundisturbed.sprites 0 (by decide)).trans hb,
    hundisturbed.spares 0 (by decide) b hb held hheld⟩

end Stage

end SpriteEngine
