import SpriteEngine.Proofs.Codec
import SpriteEngine.Proofs.Isolation
import SpriteEngine.Proofs.Registry

/-!
# Affine groups in a draw pass

There are fewer affine groups than sprites that may want one. In a draw pass the loaded sprites have
their turns one after the other. A sprite that is not scaled any more gives its group back, and a
scaled one that has none takes the first group that is free at its turn. So what a sprite gets
depends on all those before it, and what it gets must survive all those after it.

For the second part, `Engine.Drawn` collects what a draw leaves behind for its sprite: descriptors
that are up to date, the linear map of its group and the right frame. As the draws of other sprites
spare all of that (`Engine.Spares.drawn`), it still holds at the end of the pass. For the first part
the turn of a sprite is cut out of the pass (`Scene.Turn`). What happens to its group then is
`Engine.Draws.regroups`.

`Scene.FollowsScale` is the outcome for one sprite.
-/

namespace SpriteEngine

/-! ### The group of a sprite -/

namespace Engine

section Regroups

variable {pool pool' : AffinePool} {group : Option Nat} {r : AffinePool × Option Nat} {g : Nat}

private theorem Regroups.unscaled (hr : Regroups pool false group r) : r.2 = none := by
  cases hr <;> rfl

private theorem Regroups.eq_released (hr : Regroups pool false (some g) r) :
    r = (pool.release g, none) := by
  cases hr
  rfl

private theorem Regroups.eq_kept (hr : Regroups pool true (some g) r) : r = (pool, some g) := by
  cases hr
  rfl

/-- A scaled sprite is left without a group only if it had none and the pool is exhausted. -/
theorem Regroups.eq_denied (hr : Regroups pool true group (pool', none)) :
    group = none ∧ pool' = pool ∧ pool.reserve = none := by
  cases hr with
  | denied h => exact ⟨rfl, rfl, h⟩

end Regroups

/-! ### What a draw leaves behind -/

variable {c : Config} {e e' : Engine} {s s' : Sprite} {rest : List Sprite} {held held' : Holding}
  {groups : List Nat}

theorem tick_isScaled : s.tick.isScaled = s.isScaled := by
  rw [Sprite.tick, Sprite.followAnimation]
  split <;> rfl

/-- A refresh touches neither the pool of groups nor anything of the sprite but its holding. -/
theorem Refreshes.eq (hr : e.Refreshes s (e', s')) :
    e'.affine = e.affine ∧ s' = { s with held := s'.held } := by
  obtain ⟨heq, -⟩ | ⟨⟨fresh, hu⟩, -⟩ := hr
  · obtain ⟨rfl, rfl⟩ : e' = e ∧ s' = s := by simpa using heq
    exact ⟨rfl, rfl⟩
  · obtain ⟨-, ram, -, -, rfl, rfl, -⟩ := hu
    exact ⟨rfl, rfl⟩

/-- After a refresh the frame in tile RAM is the current one, if that exists. -/
private theorem Refreshes.isCurrent (hr : e.Refreshes s (e', s')) (hheld : s'.held = some held) :
    IsCurrent s' held := by
  obtain ⟨heq, hcurrent⟩ | ⟨⟨fresh, hu⟩, -⟩ := hr
  · obtain ⟨rfl, rfl⟩ : e' = e ∧ s' = s := by simpa using heq
    exact hcurrent held hheld
  · obtain ⟨held₀, ram, -, -, -, rfl, -⟩ := hu
    obtain rfl : _ = held := Option.some.inj hheld
    exact .inl rfl

/-- A draw changes a sprite only by a tick and in what it holds. -/
theorem Draws.eq (hd : e.Draws s groups (.ok (), e', s')) :
    s' = { s.tick with held := s'.held } := by
  obtain ⟨e₁, s₁, held, -, hr, -, ⟨-, -, rfl⟩ | ⟨-, held', -, rfl⟩⟩ := hd
  · exact hr.eq.2
  · rw [hr.eq.2]

theorem Draws.isScaled (hd : e.Draws s groups (.ok (), e', s')) : s'.isScaled = s.isScaled := by
  rw [hd.eq]
  exact tick_isScaled

/-- A sprite without a frame has no group, before and after a draw. With a frame, its group is
brought in line with its scale. -/
theorem Draws.regroups (h : Sound c e (s :: rest)) (hd : e.Draws s groups (.ok (), e', s'))
    (hheld : s.held = some held) (hheld' : s'.held = some held') :
    held'.frame = none ∧ e'.affine = e.affine ∧ held.affine = none ∧ held'.affine = none ∨
      held'.frame ≠ none ∧ Regroups e.affine s.isScaled held.affine (e'.affine, held'.affine) := by
  obtain ⟨e₁, s₁, held₁, -, hr, hheld₁, hs'⟩ := hd
  have h₁ := (h.restyle tick_texture tick_held).refreshes hr
  obtain ⟨-, frame, hframe⟩ := hr.exists_held (tick_held.trans hheld)
  obtain rfl : { held with frame } = held₁ := Option.some.inj (hframe.symm.trans hheld₁)
  obtain ⟨haffine, hs₁⟩ := hr.eq
  obtain ⟨hnone, rfl, rfl⟩ | ⟨hsome, held₂, hd, rfl⟩ := hs'
  · obtain rfl : _ = held' := Option.some.inj (hheld₁.symm.trans hheld')
    have hgroup : held.affine = none :=
      (h₁.intact s' List.mem_cons_self _ hheld₁).unframed hnone
    exact .inl ⟨hnone, haffine, hgroup, hgroup⟩
  · obtain rfl : held₂ = held' := Option.some.inj hheld'
    have hscaled : s₁.isScaled = s.isScaled := by
      rw [hs₁]
      exact tick_isScaled
    have hregroups := hd.regroups
    have hheld₂ := hd.held
    rw [haffine, hscaled] at hregroups
    dsimp only at hheld₂
    exact .inr ⟨by rw [hheld₂]; exact hsome, hregroups⟩

/-- The sprite is as a draw leaves it. It has its current frame, if that exists, and with a frame
its descriptors are such that bringing them up to date would change nothing. Its linear map is that
of its scale, and it has no group without being scaled. -/
structure Drawn (e : Engine) (s : Sprite) (held : Holding) : Prop where
  current : IsCurrent s held
  described : held.frame ≠ none → held.described = true
  unscaled : s.isScaled = false → held.affine = none
  matrix : ∀ g : Fin 32, held.affine = some g.val →
    e.slots.oam.matrix g = .ofScale s.scaleX s.scaleY
  attrs : held.frame ≠ none → ∀ (k slot : Nat) entry, held.slots[k]? = some slot →
    e.slots.entries[slot]? = some entry →
      cellAttributes entry.attrs s held.affine (k % s.texture.grid.columns)
        (k / s.texture.grid.columns) = entry.attrs
  words : held.frame ≠ none → ∀ (slot : Fin 128) entry, slot.val ∈ held.slots →
    e.slots.entries[slot.val]? = some entry → e.slots.oam.words3 slot = entry.attrs.encode

/-- What spares a sprite leaves its picture. -/
theorem Spares.drawn (hs : e.Spares held e') (h : e.Drawn s held) : e'.Drawn s held where
  current := h.current
  described := h.described
  unscaled := h.unscaled
  matrix g hg := (hs.matrix g hg).trans (h.matrix g hg)
  attrs hframe k slot entry hk hentry := by
    rw [hs.entries slot (List.mem_of_getElem? hk)] at hentry
    exact h.attrs hframe k slot entry hk hentry
  words hframe slot entry hslot hentry := by
    rw [hs.entries slot hslot] at hentry
    exact (hs.words slot hslot).trans (h.words hframe slot entry hslot hentry)

/-- Bringing descriptors up to date leaves them up to date. -/
private theorem Describes.drawn (h : Sound c e (s :: rest)) (hheld : s.held = some held)
    (hcurrent : IsCurrent s held) (hd : e.Describes s held groups (e', held')) :
    e'.Drawn { s with held := some held' } held' := by
  have hheld' : held' = { held with described := true, affine := held'.affine } := hd.held
  have hslots : held'.slots = held.slots := by rw [hheld']
  have hwritten : ∀ (k slot : Nat) entry', held.slots[k]? = some slot →
      e'.slots.entries[slot]? = some entry' → ∃ attrs,
        entry'.attrs = cellAttributes attrs s held'.affine (k % s.texture.grid.columns)
          (k / s.texture.grid.columns) ∧
        ∀ i : Fin 128, i.val = slot → e'.slots.oam.words3 i = entry'.attrs.encode := by
    intro k slot entry' hk hentry'
    have hused := h.isUsed_of_held List.mem_cons_self hheld (List.mem_of_getElem? hk)
    obtain ⟨entry, hentry, -⟩ := SlotTable.exists_entry hused
    obtain ⟨hnew, hwords⟩ := hd.written k slot entry hk hentry
    obtain rfl := Option.some.inj (hnew.symm.trans hentry')
    exact ⟨_, rfl, hwords⟩
  refine ⟨?_, ?_, ?_, hd.matrix, ?_, ?_⟩
  · rw [hheld']
    exact hcurrent
  · intro _
    rw [hheld']
  · intro hscaled
    have hregroups := hd.regroups
    rw [show s.isScaled = false from hscaled] at hregroups
    exact hregroups.unscaled
  · intro _ k slot entry' hk hentry'
    rw [hslots] at hk
    obtain ⟨attrs, hattrs, -⟩ := hwritten k slot entry' hk hentry'
    rw [hattrs]
    rfl
  · intro _ slot entry' hslot hentry'
    rw [hslots] at hslot
    obtain ⟨k, hk⟩ := List.mem_iff_getElem?.mp hslot
    obtain ⟨attrs, -, hwords⟩ := hwritten k slot entry' hk hentry'
    exact hwords slot rfl

/-- A sprite that was drawn is on the screen as it should be. -/
theorem Draws.drawn (h : Sound c e (s :: rest)) (hd : e.Draws s groups (.ok (), e', s'))
    (hheld : s'.held = some held) : e'.Drawn s' held := by
  obtain ⟨e₁, s₁, held₁, -, hr, hheld₁, hs'⟩ := hd
  have h₁ := (h.restyle tick_texture tick_held).refreshes hr
  have hcurrent := hr.isCurrent hheld₁
  obtain ⟨hnone, rfl, rfl⟩ | ⟨-, held', hd, rfl⟩ := hs'
  · obtain rfl : held₁ = held := Option.some.inj (hheld₁.symm.trans hheld)
    have hgroup := (h₁.intact s' List.mem_cons_self held₁ hheld₁).unframed hnone
    refine ⟨hcurrent, fun hframe => absurd hnone hframe, fun _ => hgroup, fun g hg => ?_,
      fun hframe => absurd hnone hframe, fun hframe => absurd hnone hframe⟩
    simp [hgroup] at hg
  · obtain rfl : held' = held := Option.some.inj hheld
    exact hd.drawn h₁ hheld₁ hcurrent

/-- The affine bit of a descriptor is set if the sprite has a group, and the index is that group. -/
private theorem Drawn.affineIndex {sprites : List Sprite} (h : Sound c e sprites) (hs : s ∈ sprites)
    (hheld : s.held = some held) (hdrawn : e.Drawn s held) (hframe : held.frame ≠ none) {slot : Nat}
    (hslot : slot ∈ held.slots) : ∃ w, e.slots.oam.read slot = .ok w ∧
      Words.bit w.attr0 8 = held.affine.isSome ∧
      w.decode.affineIndex = held.affine.map UInt8.ofNat := by
  obtain ⟨k, hk⟩ := List.mem_iff_getElem?.mp hslot
  obtain ⟨entry, hentry, hfree⟩ := SlotTable.exists_entry (h.isUsed_of_held hs hheld hslot)
  have hlt : slot < 128 :=
    h.table.slot_lt (SlotTable.object?_eq_some.mpr ⟨entry, hentry, hfree, rfl, rfl⟩)
  have hwords := hdrawn.words hframe ⟨slot, hlt⟩ entry hslot hentry
  have hindex : entry.attrs.affineIndex = held.affine.map UInt8.ofNat := by
    rw [← hdrawn.attrs hframe k slot entry hk hentry]
    rfl
  refine ⟨_, dif_pos hlt, ?_, ?_⟩
  · rw [hwords, entry.attrs.bits_attr0.1, hindex, Option.isSome_map]
  · rw [hwords, Attributes.decode_encode, Attributes.narrow, hindex]
    cases hg : held.affine with
    | none => rfl
    | some g =>
      have hg32 := (h.group_lt hs ((Sprite.heldGroup_of_some hheld).trans hg)).2
      have hsmall : UInt8.ofNat g % 32 = UInt8.ofNat g := by
        rw [← UInt8.toNat_inj, UInt8.toNat_mod, UInt8.toNat_ofNat_of_lt' (by change _ < 256; omega)]
        exact Nat.mod_eq_of_lt hg32
      simp [hsmall]

end Engine

/-! ### Turns -/

namespace Scene

variable {cfg : Config} {c c' c'' c₁ c₂ : Scene} {e : Engine} {s s' s₂ : Sprite} {id : Nat}
  {ids before after : List Nat} {held : Holding}

theorem mem_sprites_iff : s ∈ c.sprites.toList.reduceOption ↔ ∃ id, c.sprite? id = some s := by
  rw [List.reduceOption_mem_iff, List.mem_iff_getElem?]
  simp only [sprite?_eq_some, Array.getElem?_toList]

/-- The sprite under another identifier is one of the others. -/
private theorem mem_others {j : Nat} (hs : c.sprite? j = some s) (hj : j ≠ id) :
    s ∈ c.others id := by
  rw [others, List.reduceOption_mem_iff, List.mem_eraseIdx_iff_getElem?]
  rw [sprite?_eq_some, ← Array.getElem?_toList] at hs
  exact ⟨j, hj, hs⟩

/-- All sprites but those in a list are the same, and nothing of what they show has changed. -/
structure Undisturbed (c : Scene) (ids : List Nat) (c' : Scene) : Prop where
  sprites : ∀ j, j ∉ ids → c'.sprite? j = c.sprite? j
  spares : ∀ j, j ∉ ids → ∀ b, c.sprite? j = some b → ∀ held, b.held = some held →
    c.engine.Spares held c'.engine

theorem Undisturbed.refl (c : Scene) (ids : List Nat) : Undisturbed c ids c :=
  ⟨fun _ _ => rfl, fun _ _ _ _ held _ => .refl c.engine held⟩

theorem Undisturbed.trans (h : Undisturbed c ids c') (h' : Undisturbed c' ids c'') :
    Undisturbed c ids c'' where
  sprites j hj := (h'.sprites j hj).trans (h.sprites j hj)
  spares j hj b hb held hheld := (h.spares j hj b hb held hheld).trans
    (h'.spares j hj b ((h.sprites j hj).trans hb) held hheld)

theorem Undisturbed.mono {ids' : List Nat} (h : Undisturbed c ids c') (hsub : ids ⊆ ids') :
    Undisturbed c ids' c' :=
  ⟨fun j hj => h.sprites j fun hj' => hj (hsub hj'),
    fun j hj => h.spares j fun hj' => hj (hsub hj')⟩

/-- A draw disturbs no sprite but its own. -/
theorem Sound.undisturbed (hc : Sound cfg c) (hs : c.sprite? id = some s)
    (hd : c.engine.Draws s ((c.others id).filterMap Sprite.heldGroup) (.ok (), e, s')) :
    Undisturbed c [id] ({ c with engine := e }.setSprite id s') where
  sprites j hj := by
    rw [List.mem_singleton] at hj
    exact (sprite?_setSprite (c := { c with engine := e }) hs s' j).trans (if_neg (Ne.symm hj))
  spares j hj b hb held hheld := by
    rw [List.mem_singleton] at hj
    have hfront := hc.front hs
    exact hfront.spares (hfront.draws hd) hd.confined (mem_others hb hj) hheld

/-- By induction along the pass: no sprite outside it is disturbed. -/
theorem pass_spec (hc : Sound cfg c) (hids : ∀ id ∈ ids, c.isLoaded id = true) :
    (c.pass ids).Yields fun c' => Sound cfg c' ∧ SameRegistry c c' ∧ Undisturbed c ids c' := by
  refine (pass_yields (fun left c' => left ⊆ ids ∧ Undisturbed c ids c') ?_ hc hids
    ⟨List.Subset.refl ids, .refl c ids⟩).mono fun c' hc' => ⟨hc'.1, hc'.2.1, hc'.2.2.2⟩
  rintro id left c₁ s e' s' hc₁ hs hd ⟨hsub, hundisturbed⟩
  obtain ⟨hid, hleft⟩ := List.cons_subset.mp hsub
  have hlast := (hc₁.undisturbed hs hd).mono (List.cons_subset.mpr ⟨hid, List.nil_subset ids⟩)
  exact ⟨hleft, hundisturbed.trans hlast⟩

/-- The turn of a sprite in a pass over `before ++ id :: after`. In the scene `c₁` those before it
have been drawn, and in `c₂` it has been drawn too. -/
structure Turn (cfg : Config) (c : Scene) (before : List Nat) (id : Nat) (c₁ : Scene) (s : Sprite)
    (c₂ : Scene) (s₂ : Sprite) : Prop where
  outcome : (c.pass before).outcome = .ok c₁
  sound : Sound cfg c₁
  undisturbed : Undisturbed c before c₁
  sprite : c₁.sprite? id = some s
  loaded : s.isLoaded = true
  draws : c₁.engine.Draws s ((c₁.others id).filterMap Sprite.heldGroup) (.ok (), c₂.engine, s₂)
  eq : c₂ = { c₁ with engine := c₂.engine }.setSprite id s₂

private theorem Turn.sprite_after (h : Turn cfg c before id c₁ s c₂ s₂) :
    c₂.sprite? id = some s₂ := by
  rw [h.eq]
  exact (sprite?_setSprite (c := { c₁ with engine := c₂.engine }) h.sprite s₂ id).trans (if_pos rfl)

/-- A turn disturbs no other sprite. -/
private theorem Turn.undisturbed_others (h : Turn cfg c before id c₁ s c₂ s₂) :
    Undisturbed c₁ [id] c₂ := by
  rw [h.eq]
  exact h.sound.undisturbed h.sprite h.draws

/-- Every sprite that is to be drawn has its turn. -/
private theorem exists_turn (hc : Sound cfg c)
    (hids : ∀ j ∈ before ++ id :: after, c.isLoaded j = true) :
    ∃ c₁ s c₂ s₂ c', Turn cfg c before id c₁ s c₂ s₂ ∧ Sound cfg c₂ ∧
      (∀ j ∈ after, c₂.isLoaded j = true) ∧ (c₂.pass after).outcome = .ok c' ∧ Sound cfg c' ∧
      Undisturbed c₂ after c' ∧ (c.pass (before ++ id :: after)).outcome = .ok c' := by
  have hbefore : ∀ j ∈ before, c.isLoaded j = true := fun j hj => hids j (List.mem_append_left _ hj)
  obtain ⟨-, c₁, hpass₁, hc₁, hsame₁, hundisturbed₁⟩ := pass_spec hc hbefore
  have hloaded₁ : ∀ j ∈ id :: after, c₁.isLoaded j = true := fun j hj => by
    rw [hsame₁.loaded]
    exact hids j (List.mem_append_right _ hj)
  obtain ⟨s, hs, hloaded⟩ := exists_sprite?_of_isLoaded (hloaded₁ id List.mem_cons_self)
  obtain ⟨-, c₂, hdraw, e₂, s₂, hd, rfl⟩ := drawSprite_cases hc₁ hs hloaded
  have hc₂ := hc₁.draws hs hd
  have hsame₂ := SameRegistry.setSprite hs hd.texture (hd.isLoaded.trans hloaded.symm) e₂
  have hloaded₂ : ∀ j ∈ after, isLoaded ({ c₁ with engine := e₂ }.setSprite id s₂) j = true :=
    fun j hj => by
      rw [hsame₂.loaded]
      exact hloaded₁ j (List.mem_cons_of_mem id hj)
  obtain ⟨-, c', hpass, hc', -, hundisturbed⟩ := pass_spec hc₂ hloaded₂
  refine ⟨c₁, s, _, s₂, c', ⟨hpass₁, hc₁, hundisturbed₁, hs, hloaded, hd, rfl⟩, hc₂, hloaded₂,
    hpass, hc', hundisturbed, ?_⟩
  rw [pass_append, Traced.outcome_bind hpass₁, pass_cons, Traced.outcome_bind hdraw, hpass]

/-! ### The groups after a pass -/

/-- A group in use is held by a sprite of the scene. -/
private theorem Sound.exists_heldGroup (hc : Sound cfg c) {g : Nat}
    (hg : c.engine.affine.isUsed g = true) :
    ∃ j b, c.sprite? j = some b ∧ b.heldGroup = some g := by
  obtain ⟨b, hb, held, hheld, hgroup⟩ := hc.engine.exists_scaled hg
  obtain ⟨j, hj⟩ := mem_sprites_iff.mp hb
  exact ⟨j, b, hj, (Sprite.heldGroup_of_some hheld).trans hgroup⟩

private theorem Sound.isUsed_of_heldGroup (hc : Sound cfg c) (hs : c.sprite? id = some s) {g : Nat}
    (hg : s.heldGroup = some g) : c.engine.affine.isUsed g = true :=
  hc.engine.affine.mem_iff.mp (List.mem_filterMap.mpr ⟨s, mem_sprites_iff.mpr ⟨id, hs⟩, hg⟩)

/-- What a draw pass from `c` to `c'` does with the affine group of a sprite, in view of the scene
`c₁` that it found at its turn and of the sprites `after` it. The sprite and its holding are those
after the pass. -/
structure FollowsScale (cfg : Config) (c c₁ c' : Scene) (id : Nat) (after : List Nat) (s : Sprite)
    (held : Holding) : Prop where
  /-- Without a scale there is no group, and the descriptors do not ask for one. -/
  unscaled : s.isScaled = false → held.affine = none ∧ ∀ slot ∈ held.slots, ∃ w,
    c'.engine.slots.oam.read slot = .ok w ∧ Words.bit w.attr0 8 = false
  /-- A group belongs to one sprite, whose descriptors name it, and its map is that of the scale. -/
  scaled : s.isScaled = true → ∀ g, held.affine = some g → g < cfg.affineSlots ∧
    (∀ j b, j ≠ id → c'.sprite? j = some b → b.heldGroup ≠ some g) ∧
    (∀ slot ∈ held.slots, ∃ w, c'.engine.slots.oam.read slot = .ok w ∧
      w.decode.affineIndex = some (.ofNat g)) ∧
    c'.engine.slots.oam.readAffine g = .ok (.ofScale s.scaleX s.scaleY)
  kept : s.isScaled = true → ∀ s₀ g, c.sprite? id = some s₀ → s₀.heldGroup = some g →
    held.affine = some g
  /-- A scaled sprite goes without only if all groups were taken. -/
  denied : s.isScaled = true → held.affine = none → ∀ g < cfg.affineSlots,
    ∃ j b, c₁.sprite? j = some b ∧ b.heldGroup = some g
  /-- If a group was given back, a scaled sprite after this one goes without only if that group was
  taken by a sprite in between. -/
  passedOn : ∀ s₀ g, c.sprite? id = some s₀ → s₀.heldGroup = some g → held.affine = none →
    ∀ mid id' rest, after = mid ++ id' :: rest → ∀ s' held', c'.sprite? id' = some s' →
      s'.held = some held' → held'.frame ≠ none → s'.isScaled = true → held'.affine = none →
        ∃ j ∈ mid, ∃ b, c'.sprite? j = some b ∧ b.heldGroup = some g

/-- A scaled sprite with a frame that has no group after its turn has found none free. -/
private theorem Turn.denied (h : Turn cfg c before id c₁ s c₂ s₂) (hheld : s₂.held = some held)
    (hframe : held.frame ≠ none) (hscaled : s₂.isScaled = true) (hgroup : held.affine = none)
    {g : Nat} (hg : g < cfg.affineSlots) : ∃ j b, c₁.sprite? j = some b ∧ b.heldGroup = some g := by
  obtain ⟨held₀, hheld₀⟩ := Option.isSome_iff_exists.mp h.loaded
  have hfront := h.sound.front h.sprite
  obtain ⟨hnone, -⟩ | ⟨-, hregroups⟩ := h.draws.regroups hfront hheld₀ hheld
  · exact absurd hnone hframe
  · rw [← h.draws.isScaled, hscaled, hgroup] at hregroups
    obtain ⟨-, -, hfull⟩ := hregroups.eq_denied
    exact h.sound.exists_heldGroup (AffinePool.reserve_eq_none hfull (hfront.count.symm ▸ hg))

/-- A group that a sprite had before its turn, but not after, is free. -/
private theorem Turn.released (h : Turn cfg c before id c₁ s c₂ s₂) (hheld : s₂.held = some held)
    {g : Nat} (hg : s.heldGroup = some g) (hgroup : held.affine = none) :
    c₂.engine.affine.isUsed g = false := by
  obtain ⟨held₀, hheld₀⟩ := Option.isSome_iff_exists.mp h.loaded
  have hfront := h.sound.front h.sprite
  have hlt := (hfront.group_lt List.mem_cons_self hg).2
  rw [Sprite.heldGroup_of_some hheld₀] at hg
  obtain ⟨-, -, hnone, -⟩ | ⟨-, hregroups⟩ := h.draws.regroups hfront hheld₀ hheld
  · simp [hg] at hnone
  · rw [hg, hgroup] at hregroups
    cases hscaled : s.isScaled with
    | true =>
      rw [hscaled] at hregroups
      exact nomatch hregroups.eq_denied.1
    | false =>
      rw [hscaled] at hregroups
      obtain ⟨haffine, -⟩ := Prod.mk.inj hregroups.eq_released
      rw [haffine, AffinePool.release, AffinePool.isUsed_mark, if_pos ⟨rfl, hlt⟩]

/-- A scaled sprite that has a group keeps it. -/
private theorem Turn.kept (h : Turn cfg c before id c₁ s c₂ s₂) (hheld : s₂.held = some held)
    (hframe : held.frame ≠ none) (hscaled : s₂.isScaled = true) {g : Nat}
    (hg : s.heldGroup = some g) : held.affine = some g := by
  obtain ⟨held₀, hheld₀⟩ := Option.isSome_iff_exists.mp h.loaded
  obtain ⟨hnone, -⟩ | ⟨-, hregroups⟩ :=
    h.draws.regroups (h.sound.front h.sprite) hheld₀ hheld
  · exact absurd hnone hframe
  · rw [← h.draws.isScaled, hscaled, ← Sprite.heldGroup_of_some hheld₀, hg] at hregroups
    exact (Prod.mk.inj hregroups.eq_kept).2

/-- What is given back can be taken by the sprites whose turn comes later. -/
private theorem Turn.passedOn (h : Turn cfg c before id c₁ s c₂ s₂) (hheld : s₂.held = some held)
    (hc₂ : Sound cfg c₂) (hafter : ∀ j ∈ after, c₂.isLoaded j = true) (hnodup : after.Nodup)
    (hpass : (c₂.pass after).outcome = .ok c') {g : Nat} (hg : s.heldGroup = some g)
    (hgroup : held.affine = none) {mid rest : List Nat} {id' : Nat}
    (hmid : after = mid ++ id' :: rest) {held' : Holding} (hs' : c'.sprite? id' = some s')
    (hheld' : s'.held = some held') (hframe : held'.frame ≠ none) (hscaled : s'.isScaled = true)
    (hnone : held'.affine = none) :
    ∃ j ∈ mid, ∃ b, c'.sprite? j = some b ∧ b.heldGroup = some g := by
  subst hmid
  obtain ⟨c₃, s₃, c₄, s₄, c₅, hturn, -, -, -, -, hundisturbed, hpass'⟩ := exists_turn hc₂ hafter
  obtain rfl : c₅ = c' := Except.ok.inj (hpass'.symm.trans hpass)
  obtain ⟨-, hrest, hdisjoint⟩ := List.nodup_append.mp hnodup
  have hid' := (List.nodup_cons.mp hrest).1
  -- at its turn, the group is held, and by a sprite that was drawn in between
  obtain rfl : s₄ = s' := Option.some.inj
    ((hturn.sprite_after.symm.trans (hundisturbed.sprites id' hid').symm).trans hs')
  have hlt := ((h.sound.front h.sprite).group_lt List.mem_cons_self hg).1
  obtain ⟨j, b, hj, hb⟩ := hturn.denied hheld' hframe hscaled hnone hlt
  have hjmid : j ∈ mid := by
    by_contra hnot
    rw [hturn.undisturbed.sprites j hnot] at hj
    have hused := hc₂.isUsed_of_heldGroup hj hb
    rw [h.released hheld hg hgroup] at hused
    exact nomatch hused
  refine ⟨j, hjmid, b, ?_, hb⟩
  have hne : j ∉ [id'] := fun hmem =>
    hdisjoint j hjmid id' List.mem_cons_self (List.mem_singleton.mp hmem)
  have hnotin : j ∉ rest := fun hmem =>
    hdisjoint j hjmid j (List.mem_cons_of_mem id' hmem) rfl
  rw [hundisturbed.sprites j hnotin, hturn.undisturbed_others.sprites j hne, hj]

/-- After its turn and all those that follow, the group of a sprite is in line with its scale. -/
private theorem Turn.followsScale (h : Turn cfg c before id c₁ s c₂ s₂) (hc₂ : Sound cfg c₂)
    (hafter : ∀ j ∈ after, c₂.isLoaded j = true) (hnodup : (before ++ id :: after).Nodup)
    (hpass : (c₂.pass after).outcome = .ok c') (hc' : Sound cfg c')
    (hundisturbed : Undisturbed c₂ after c') (hheld : s₂.held = some held)
    (hframe : held.frame ≠ none) : FollowsScale cfg c c₁ c' id after s₂ held := by
  obtain ⟨-, hrest, hdisjoint⟩ := List.nodup_append.mp hnodup
  obtain ⟨hid, hnodup'⟩ := List.nodup_cons.mp hrest
  have hid₀ : id ∉ before := fun hmem => hdisjoint id hmem id List.mem_cons_self rfl
  have hs₂ : c'.sprite? id = some s₂ := (hundisturbed.sprites id hid).trans h.sprite_after
  have hs : c.sprite? id = some s := (h.undisturbed.sprites id hid₀).symm.trans h.sprite
  have hmem := mem_sprites_iff.mpr ⟨id, hs₂⟩
  have hdrawn : c'.engine.Drawn s₂ held :=
    (hundisturbed.spares id hid s₂ h.sprite_after held hheld).drawn
      (h.draws.drawn (h.sound.front h.sprite) hheld)
  refine ⟨fun hscaled => ?_, fun _ g hg => ?_, fun hscaled s₀ g hs₀ hg => ?_,
    fun hscaled hgroup g hg => h.denied hheld hframe hscaled hgroup hg,
    fun s₀ g hs₀ hg hgroup mid id' rest hmid s' held' hs' hheld' => ?_⟩
  · have hgroup := hdrawn.unscaled hscaled
    refine ⟨hgroup, fun slot hslot => ?_⟩
    obtain ⟨w, hw, hbit, -⟩ := hdrawn.affineIndex hc'.engine hmem hheld hframe hslot
    exact ⟨w, hw, by rw [hbit, hgroup]; rfl⟩
  · have hg₂ : s₂.heldGroup = some g := (Sprite.heldGroup_of_some hheld).trans hg
    obtain ⟨hlt, hlt32⟩ := hc'.engine.group_lt hmem hg₂
    refine ⟨hlt, fun j b hj hb hgb => ?_, fun slot hslot => ?_, ?_⟩
    · exact (hc'.front hs₂).group_ne (mem_others hb hj) hgb hg₂
    · obtain ⟨w, hw, -, hindex⟩ := hdrawn.affineIndex hc'.engine hmem hheld hframe hslot
      exact ⟨w, hw, by rw [hindex, hg]; rfl⟩
    · rw [Oam.readAffine, dif_pos hlt32, hdrawn.matrix ⟨g, hlt32⟩ hg]
  · obtain rfl : s = s₀ := Option.some.inj (hs.symm.trans hs₀)
    exact h.kept hheld hframe hscaled hg
  · obtain rfl : s = s₀ := Option.some.inj (hs.symm.trans hs₀)
    exact h.passedOn hheld hc₂ hafter hnodup' hpass hg hgroup hmid hs' hheld'

/-- Wherever requests have led a new scene, the next draw brings the affine groups of all sprites in
line with their scales. -/
theorem draw_follows_scale (hnew : Scene.new cfg = .ok c) (requests : List Request)
    (hadds : requests.countP Request.isAdd < 4294967296) :
    ∃ answers c₀ c', (c.serveAll requests).outcome = .ok (answers, c₀) ∧
      c₀.draw.outcome = .ok c' ∧ c'.active = c₀.active ∧
      ∀ before id after, c₀.active = before ++ id :: after →
        ∃ c₁ s held, (c₀.pass before).outcome = .ok c₁ ∧ c'.sprite? id = some s ∧
          s.held = some held ∧
          (held.frame ≠ none → FollowsScale cfg c₀ c₁ c' id after s held) := by
  obtain ⟨-, ⟨answers, c₀⟩, hserve, hc₀, h, ho⟩ := serveAll_orderly hnew requests hadds
  obtain ⟨-, c', hdraw, -, hsame⟩ := draw_spec hc₀
  refine ⟨answers, c₀, c', hserve, hdraw, hsame.active, fun before id after hactive => ?_⟩
  have hloaded := hc₀.active
  have hnodup := ho.nodup_active
  rw [hactive] at hloaded hnodup
  obtain ⟨c₁, s, c₂, s₂, c₃, hturn, hc₂, hafter, hpass, hc₃, hundisturbed, hall⟩ :=
    exists_turn hc₀ hloaded
  obtain rfl : c₃ = c' := by
    rw [← hactive] at hall
    exact Except.ok.inj (hall.symm.trans hdraw)
  obtain ⟨held, hheld⟩ := Option.isSome_iff_exists.mp hturn.draws.isLoaded
  have hid := (List.nodup_cons.mp (List.nodup_append.mp hnodup).2.1).1
  exact ⟨c₁, s₂, held, hturn.outcome, (hundisturbed.sprites id hid).trans hturn.sprite_after, hheld,
    hturn.followsScale hc₂ hafter hnodup hpass hc₃ hundisturbed hheld⟩

/-- The first sprite gives up the only group, and the second one takes it in the same pass. -/
theorem draw_follows_scale_passedOn :
    let requests : List Request := [.add .blackTile, .add .blackTile, .load 0, .load 1,
      .restyle 0 { scaleX := Fixed.one.add .one }, .draw, .restyle 0 {},
      .restyle 1 { scaleY := Fixed.one.add .one }]
    ∃ answers c₀ c', (serveAll { engine := .ofConfig ⟨2, 2, 1⟩ } requests).outcome =
      .ok (answers, c₀) ∧ c₀.draw.outcome = .ok c' ∧
      (c₀.sprite? 0).bind Sprite.heldGroup = some 0 ∧
      (c'.sprite? 1).bind Sprite.heldGroup = some 0 ∧
      ∃ c₁ s held, c'.sprite? 0 = some s ∧ s.held = some held ∧ held.affine = none ∧
        FollowsScale ⟨2, 2, 1⟩ c₀ c₁ c' 0 [1] s held := by
  intro requests
  have hgroups : ((serveAll { engine := .ofConfig ⟨2, 2, 1⟩ } requests).outcome >>= fun r =>
      r.2.draw.outcome.map fun c' => (r.2.active, (r.2.sprite? 0).bind Sprite.heldGroup,
        (c'.sprite? 1).bind Sprite.heldGroup, ((c'.sprite? 0).bind Sprite.held).map fun held =>
          (held.frame, held.affine))) = .ok ([0, 1], some 0, some 0, some (some 0, none)) := by
    decide +kernel
  have hnew : Scene.new ⟨2, 2, 1⟩ = .ok { engine := .ofConfig ⟨2, 2, 1⟩ } := rfl
  obtain ⟨answers, c₀, c', hserve, hdraw, -, hturns⟩ := draw_follows_scale hnew requests (by decide)
  rw [hserve, Checked.ok_bind, hdraw] at hgroups
  obtain ⟨hactive, hbefore, hpassed, hheld⟩ : c₀.active = [0, 1] ∧
      (c₀.sprite? 0).bind Sprite.heldGroup = some 0 ∧
      (c'.sprite? 1).bind Sprite.heldGroup = some 0 ∧
      ((c'.sprite? 0).bind Sprite.held).map (fun held => (held.frame, held.affine)) =
        some (some 0, none) := by
    simpa [Except.map] using hgroups
  obtain ⟨c₁, s, held, -, hs, hheld', hfollows⟩ := hturns [] 0 [1] hactive
  obtain ⟨hframe, haffine⟩ : held.frame = some 0 ∧ held.affine = none := by
    simpa [hs, hheld'] using hheld
  exact ⟨answers, c₀, c', hserve, hdraw, hbefore, hpassed, c₁, s, held, hs, hheld', haffine,
    hfollows (by rw [hframe]; exact Option.some_ne_none 0)⟩

end Scene

end SpriteEngine
