import SpriteEngine.Proofs.DrawPass

/-!
# Still scenes settle

If nothing moves by itself, drawing a scene again and again should change nothing from some point
on. One pass is not enough: a scaled sprite may have its turn before another one gives its group
back. Two passes are enough (`Scene.draw_settles`).

The first pass leaves every sprite as a draw leaves it (`Scene.AllDrawn`). From then on no sprite
has a group without being scaled, so no group is given back any more, and groups are only taken. A
sprite that gets none in the second pass has found none free, and then none will be free later. So
after the second pass the scene is settled (`Scene.Settled`), and a draw of a sprite in a settled
scene changes nothing at all (`Engine.Draws.eq_self`).

The groups in use can be counted then: as many as there are sprites that want one, or else all.
-/

namespace SpriteEngine

/-! ### Sprites that do not move by themselves -/

/-- The sprite has no animation with frames. -/
def Sprite.isStill (s : Sprite) : Bool :=
  s.animation.all (·.frames.isEmpty)

private theorem Sprite.tick_of_isStill {s : Sprite} (h : s.isStill = true) : s.tick = s := by
  have hidle : s.animation.map Animation.tick = s.animation ∧
      s.animation.bind Animation.currentFrame? = none := by
    cases ha : s.animation with
    | none => exact ⟨rfl, rfl⟩
    | some a =>
      have hframes : a.frames = [] := by simpa [isStill, ha] using h
      simp [Animation.tick, Animation.currentFrame?, hframes]
  rw [tick, hidle.1]
  change s.followAnimation = s
  rw [followAnimation, hidle.2]

namespace Engine

variable {c : Config} {e e' : Engine} {s s' : Sprite} {rest : List Sprite} {held held' : Holding}
  {groups : List Nat}

/-- If no group has to be given back and none can be taken, nothing happens. -/
private theorem Regroups.eq_self {pool : AffinePool} {scaled : Bool} {group : Option Nat}
    {r : AffinePool × Option Nat} (hr : Regroups pool scaled group r)
    (hunscaled : scaled = false → group = none)
    (hfull : scaled = true → group = none → pool.reserve = none) : r = (pool, group) := by
  cases hr with
  | idle => rfl
  | released => exact nomatch hunscaled rfl
  | kept => rfl
  | taken hr => exact nomatch hr.symm.trans (hfull rfl rfl)
  | denied => rfl

/-- If no group is free, none becomes free by drawing a sprite that has one only if it is scaled. -/
private theorem Draws.affine_eq_of_full (h : Sound c e (s :: rest))
    (hd : e.Draws s groups (.ok (), e', s')) (hheld : s.held = some held) (hdrawn : e.Drawn s held)
    (hfull : e.affine.reserve = none) : e'.affine = e.affine := by
  obtain ⟨held', hheld'⟩ := Option.isSome_iff_exists.mp hd.isLoaded
  obtain ⟨-, haffine, -⟩ | ⟨-, hregroups⟩ := hd.regroups h hheld hheld'
  · exact haffine
  · exact (Prod.mk.inj (hregroups.eq_self hdrawn.unscaled fun _ _ => hfull)).1

/-- Descriptors that are up to date stay as they are. -/
private theorem Describes.slots_eq (h : Sound c e (s :: rest)) (hheld : s.held = some held)
    (hd : e.Describes s held groups (e', held')) (hdrawn : e.Drawn s held)
    (hframe : held.frame ≠ none) (hgroup : held'.affine = held.affine) : e'.slots = e.slots := by
  have hwritten : ∀ slot ∈ held.slots, ∃ entry, e.slots.entries[slot]? = some entry ∧
      e'.slots.entries[slot]? = some entry ∧
      ∀ i : Fin 128, i.val = slot → e'.slots.oam.words3 i = entry.attrs.encode := by
    intro slot hslot
    obtain ⟨k, hk⟩ := List.mem_iff_getElem?.mp hslot
    have hused := h.isUsed_of_held List.mem_cons_self hheld hslot
    obtain ⟨entry, hentry, -⟩ := SlotTable.exists_entry hused
    have hattrs := hdrawn.attrs hframe k slot entry hk hentry
    have hbase : baseAttributes held entry = entry.attrs := if_pos (hdrawn.described hframe)
    obtain ⟨hnew, hwords⟩ := hd.written k slot entry hk hentry
    simp only [hbase, hgroup, hattrs] at hnew hwords
    exact ⟨entry, hentry, hnew, hwords⟩
  have hentries : e'.slots.entries = e.slots.entries := by
    refine List.ext_getElem? fun slot => ?_
    by_cases hslot : slot ∈ held.slots
    · obtain ⟨entry, hentry, hnew, -⟩ := hwritten slot hslot
      rw [hentry, hnew]
    · exact hd.slots.entries slot hslot
  have hoam : e'.slots.oam = e.slots.oam := by
    refine Oam.ext_tables (fun slot => ?_) fun g => ?_
    · by_cases hslot : slot.val ∈ held.slots
      · obtain ⟨entry, hentry, -, hwords⟩ := hwritten slot hslot
        rw [hwords slot rfl, hdrawn.words hframe slot entry hslot hentry]
      · exact hd.slots.words slot hslot
    · by_cases hg : held'.affine = some g.val
      · rw [hd.matrix g hg, hdrawn.matrix g (hgroup ▸ hg)]
      · exact hd.slots.matrix g (by simpa [eq_comm] using hg)
  exact hd.slots.sound.ext h.table hentries (by rw [hd.slots.tiles]) hoam

/-- Drawing a sprite that is up to date changes nothing, if it has the group that it wants or there
is none. -/
theorem Draws.eq_self (h : Sound c e (s :: rest)) (hd : e.Draws s groups (.ok (), e', s'))
    (hstill : s.isStill = true) (hheld : s.held = some held) (hdrawn : e.Drawn s held)
    (hfull : held.frame ≠ none → s.isScaled = true → held.affine = none →
      e.affine.reserve = none) : e' = e ∧ s' = s := by
  obtain ⟨e₁, s₁, held₁, -, hr, hheld₁, hs'⟩ := hd
  rw [Sprite.tick_of_isStill hstill] at hr
  obtain ⟨heq, -⟩ | ⟨-, hold⟩ := hr
  swap
  · exact absurd hdrawn.current (hold held hheld)
  obtain ⟨rfl, rfl⟩ : e₁ = e ∧ s₁ = s := by simpa using heq
  obtain rfl : held = held₁ := Option.some.inj (hheld.symm.trans hheld₁)
  obtain ⟨-, rfl, rfl⟩ | ⟨hframe, held', hd, rfl⟩ := hs'
  · exact ⟨rfl, rfl⟩
  · obtain ⟨haffine, hgroup⟩ :=
      Prod.mk.inj (hd.regroups.eq_self hdrawn.unscaled (hfull hframe))
    have hslots := hd.slots_eq h hheld hdrawn hframe hgroup
    have hheld' : held' = held := by
      have hnew : held' = { held with described := true, affine := held'.affine } := hd.held
      rw [hnew, hgroup, ← hdrawn.described hframe]
    obtain ⟨slots, palette, affine, ram⟩ := e'
    obtain rfl : slots = e₁.slots := hslots
    obtain rfl : palette = e₁.palette := hd.palette
    obtain rfl : affine = e₁.affine := haffine
    obtain rfl : ram = e₁.tileRam := hd.tileRam
    rw [hheld', ← hheld]
    exact ⟨rfl, rfl⟩

end Engine

/-! ### Passes over a scene -/

namespace Scene

variable {cfg : Config} {c c' : Scene} {e : Engine} {s s' : Sprite} {id : Nat} {held : Holding}

/-- No loaded sprite has an animation with frames. -/
def Still (c : Scene) : Prop :=
  ∀ id s, c.sprite? id = some s → s.isLoaded = true → s.isStill = true

/-- Every loaded sprite is as a draw leaves it. -/
def AllDrawn (c : Scene) : Prop :=
  ∀ id s held, c.sprite? id = some s → s.held = some held → c.engine.Drawn s held

/-- Every loaded sprite is as a draw leaves it, and a scaled sprite with a frame has a group, unless
none is free. -/
structure Settled (c : Scene) : Prop where
  drawn : c.AllDrawn
  full : ∀ id s held, c.sprite? id = some s → s.held = some held → held.frame ≠ none →
    s.isScaled = true → held.affine = none → c.engine.affine.reserve = none

private theorem isLoaded_of_held (hs : c.sprite? id = some s) (hheld : s.held = some held) :
    c.isLoaded id = true := by
  rw [isLoaded_of_sprite? hs, Sprite.isLoaded, hheld]
  rfl

/-- A sprite of the scene after a draw is the one that was drawn, or it is another one. -/
private theorem sprite?_draws {t : Sprite} {j : Nat} (hs : c.sprite? id = some s)
    (ht : ({ c with engine := e }.setSprite id s').sprite? j = some t) :
    j = id ∧ t = s' ∨ j ≠ id ∧ c.sprite? j = some t := by
  rw [sprite?_setSprite (c := { c with engine := e }) hs] at ht
  split at ht
  · rename_i hj
    exact .inl ⟨hj.symm, (Option.some.inj ht).symm⟩
  · rename_i hj
    exact .inr ⟨Ne.symm hj, ht⟩

/-- A draw leaves its own sprite drawn, and all those that were drawn before. -/
private theorem Sound.drawn {t : Sprite} {j : Nat} (hc : Sound cfg c) (hs : c.sprite? id = some s)
    (hd : c.engine.Draws s ((c.others id).filterMap Sprite.heldGroup) (.ok (), e, s'))
    (ht : ({ c with engine := e }.setSprite id s').sprite? j = some t) (hheld : t.held = some held)
    (hbefore : j ≠ id → c.sprite? j = some t → c.engine.Drawn t held) : e.Drawn t held := by
  obtain ⟨rfl, rfl⟩ | ⟨hne, ht⟩ := sprite?_draws hs ht
  · exact hd.drawn (hc.front hs) hheld
  · have hspares := (hc.undisturbed hs hd).spares j (by simpa using hne) t ht held hheld
    exact hspares.drawn (hbefore hne ht)

private theorem draw_still (hc : Sound cfg c) (hstill : c.Still) : c.draw.Yields Still := by
  refine (pass_yields (fun _ c' => c'.Still) ?_ hc hc.active hstill).mono fun c' hc' => hc'.2.2
  intro id left c₁ s e' s' hc₁ hs hd hstill₁ j t ht hloaded
  obtain ⟨rfl, rfl⟩ | ⟨-, ht⟩ := sprite?_draws hs ht
  · have hstill := hstill₁ j s hs hd.wasLoaded
    rw [hd.eq, Sprite.tick_of_isStill hstill]
    exact hstill
  · exact hstill₁ j t ht hloaded

/-- The first pass draws every sprite. -/
private theorem draw_allDrawn (hc : Sound cfg c)
    (hactive : ∀ id, c.isLoaded id = true → id ∈ c.active) : c.draw.Yields AllDrawn := by
  refine (pass_yields (fun left c' => ∀ id s held, id ∉ left → c'.sprite? id = some s →
    s.held = some held → c'.engine.Drawn s held) ?_ hc hc.active ?_).mono
      fun c' hc' id s held => hc'.2.2 id s held List.not_mem_nil
  · intro id left c₁ s e' s' hc₁ hs hd hdrawn j t held hj ht hheld
    exact hc₁.drawn hs hd ht hheld fun hne ht => hdrawn j t held (by simp [hne, hj]) ht hheld
  · intro id s held hid hs hheld
    exact absurd (hactive id (isLoaded_of_held hs hheld)) hid

/-- In the second pass groups are only taken. -/
private theorem draw_settled (hc : Sound cfg c)
    (hactive : ∀ id, c.isLoaded id = true → id ∈ c.active) (hdrawn : c.AllDrawn) :
    c.draw.Yields Settled := by
  refine (pass_yields (fun left c' => c'.AllDrawn ∧ ∀ id s held, id ∉ left →
    c'.sprite? id = some s → s.held = some held → held.frame ≠ none → s.isScaled = true →
      held.affine = none → c'.engine.affine.reserve = none) ?_ hc hc.active ⟨hdrawn, ?_⟩).mono
        fun c' hc' => ⟨hc'.2.2.1, fun id s held => hc'.2.2.2 id s held List.not_mem_nil⟩
  · rintro id left c₁ s e' s' hc₁ hs hd ⟨hdrawn₁, hfull⟩
    obtain ⟨held₀, hheld₀⟩ := Option.isSome_iff_exists.mp hd.wasLoaded
    refine ⟨fun j t held ht hheld => hc₁.drawn hs hd ht hheld fun _ ht => hdrawn₁ j t held ht hheld,
      fun j t held hj ht hheld hframe hscaled hgroup => ?_⟩
    change e'.affine.reserve = none
    obtain ⟨rfl, rfl⟩ | ⟨hne, ht⟩ := sprite?_draws hs ht
    · -- the sprite was denied a group just now
      obtain ⟨hnone, -⟩ | ⟨-, hregroups⟩ := hd.regroups (hc₁.front hs) hheld₀ hheld
      · exact absurd hnone hframe
      · rw [← hd.isScaled, hscaled, hgroup] at hregroups
        obtain ⟨-, haffine, hreserve⟩ := hregroups.eq_denied
        rw [haffine, hreserve]
    · -- or earlier, and no group has been given back since
      have hreserve := hfull j t held (by simp [hne, hj]) ht hheld hframe hscaled hgroup
      rw [hd.affine_eq_of_full (hc₁.front hs) hheld₀ (hdrawn₁ id s held₀ hs hheld₀) hreserve,
        hreserve]
  · intro id s held hid hs hheld
    exact absurd (hactive id (isLoaded_of_held hs hheld)) hid

/-- Another pass changes nothing. -/
private theorem Settled.draw_eq (hsettled : c.Settled) (hc : Sound cfg c) (hstill : c.Still) :
    c.draw.outcome = .ok c := by
  have hpass : c.draw.Yields fun c' => c' = c := by
    refine (pass_yields (fun _ c' => c' = c) ?_ hc hc.active rfl).mono fun c' hc' => hc'.2.2
    rintro id left c₁ s e' s' hc₁ hs hd rfl
    obtain ⟨held, hheld⟩ := Option.isSome_iff_exists.mp hd.wasLoaded
    obtain ⟨rfl, rfl⟩ := hd.eq_self (hc₁.front hs) (hstill id s hs hd.wasLoaded) hheld
      (hsettled.drawn id s held hs hheld) (hsettled.full id s held hs hheld)
    exact setSprite_self hs
  obtain ⟨-, c', hdraw, rfl⟩ := hpass
  exact hdraw

/-! ### Counting groups -/

/-- The number of loaded sprites that are scaled and have a frame. -/
def scaledCount (c : Scene) : Nat :=
  c.sprites.toList.reduceOption.countP fun s => s.isScaled && s.held.any (·.frame.isSome)

private theorem Sound.usedCount_eq (hc : Sound cfg c) : c.engine.affine.usedCount =
    c.sprites.toList.reduceOption.countP fun s => s.heldGroup.isSome := by
  rw [hc.engine.affine.usedCount_eq, List.length_filterMap_eq_countP]

private theorem Sound.usedCount_le (hc : Sound cfg c) :
    c.engine.affine.usedCount ≤ cfg.affineSlots := by
  have hsub : c.sprites.toList.reduceOption.filterMap Sprite.heldGroup ⊆
      List.range cfg.affineSlots := by
    intro g hg
    obtain ⟨s, hs, hgroup⟩ := List.mem_filterMap.mp hg
    exact List.mem_range.mpr (hc.engine.group_lt hs hgroup).1
  have hle := (List.subperm_of_subset hc.engine.affine.nodup hsub).length_le
  rwa [← hc.engine.affine.usedCount_eq, List.length_range] at hle

/-- If no group is free, all of them are in use. -/
private theorem Sound.le_usedCount (hc : Sound cfg c) (hfull : c.engine.affine.reserve = none) :
    cfg.affineSlots ≤ c.engine.affine.usedCount := by
  have hsub : List.range cfg.affineSlots ⊆
      c.sprites.toList.reduceOption.filterMap Sprite.heldGroup := by
    intro g hg
    rw [List.mem_range, ← hc.engine.count] at hg
    exact hc.engine.affine.mem_iff.mpr (AffinePool.reserve_eq_none hfull hg)
  have hle := (List.subperm_of_subset List.nodup_range hsub).length_le
  rwa [← hc.engine.affine.usedCount_eq, List.length_range] at hle

/-- Only a scaled sprite with a frame has a group. -/
private theorem AllDrawn.usedCount_le (hdrawn : c.AllDrawn) (hc : Sound cfg c) :
    c.engine.affine.usedCount ≤ c.scaledCount := by
  rw [hc.usedCount_eq, scaledCount]
  refine List.countP_mono_left fun s hs hgroup => ?_
  obtain ⟨id, hid⟩ := mem_sprites_iff.mp hs
  obtain ⟨g, hg⟩ := Option.isSome_iff_exists.mp hgroup
  obtain ⟨held, hheld, hg⟩ := Option.bind_eq_some_iff.mp hg
  have hscaled : s.isScaled = true := by
    by_contra hnot
    have hnone := (hdrawn id s held hid hheld).unscaled (by simpa using hnot)
    simp [hg] at hnone
  have hframe : held.frame ≠ none := by
    intro hnone
    have hgroup := (hc.engine.intact s hs held hheld).unframed hnone
    simp [hg] at hgroup
  simpa [hscaled, hheld, Option.isSome_iff_ne_none] using hframe

/-- In a settled scene every sprite that wants a group has one, or all groups are in use. -/
private theorem Settled.usedCount_eq_min (hsettled : c.Settled) (hc : Sound cfg c) :
    c.engine.affine.usedCount = min cfg.affineSlots c.scaledCount := by
  have hle := hsettled.drawn.usedCount_le hc
  have hlimit := hc.usedCount_le
  by_cases hfull : c.engine.affine.reserve = none
  · have hall := hc.le_usedCount hfull
    omega
  · have hserved : c.scaledCount ≤ c.engine.affine.usedCount := by
      rw [hc.usedCount_eq, scaledCount]
      refine List.countP_mono_left fun s hs hwants => ?_
      obtain ⟨id, hid⟩ := mem_sprites_iff.mp hs
      obtain ⟨hscaled, held, hheld, hframe⟩ : s.isScaled = true ∧ ∃ held, s.held = some held ∧
          held.frame.isSome = true := by
        simpa [Option.any_eq_true] using hwants
      rw [Sprite.heldGroup_of_some hheld, Option.isSome_iff_ne_none]
      exact fun hnone => hfull (hsettled.full id s held hid hheld
        (Option.isSome_iff_ne_none.mp hframe) hscaled hnone)
    omega

/-- Wherever requests have led a new scene, if nothing in it moves by itself, it is the same after
three draws as after two. Then there are as many groups in use as there are sprites that want one,
or else all. -/
theorem draw_settles (hnew : Scene.new cfg = .ok c) (requests : List Request)
    (hadds : requests.countP Request.isAdd < 4294967296) :
    ∃ answers c₀, (c.serveAll requests).outcome = .ok (answers, c₀) ∧ (c₀.Still →
      ∃ c₁ c₂, c₀.draw.outcome = .ok c₁ ∧ c₁.draw.outcome = .ok c₂ ∧ c₂.draw.outcome = .ok c₂ ∧
        c₂.engine.affine.usedCount = min cfg.affineSlots c₂.scaledCount) := by
  obtain ⟨-, ⟨answers, c₀⟩, hserve, hc₀, h, ho⟩ := serveAll_orderly hnew requests hadds
  refine ⟨answers, c₀, hserve, fun hstill₀ => ?_⟩
  have hactive₀ : ∀ id, c₀.isLoaded id = true → id ∈ c₀.active := fun _ => ho.mem_active_iff.mpr
  obtain ⟨-, c₁, hdraw₁, ⟨⟨hc₁, hsame⟩, hdrawn⟩, hstill₁⟩ :=
    ((draw_spec hc₀).and (draw_allDrawn hc₀ hactive₀)).and (draw_still hc₀ hstill₀)
  have hactive₁ : ∀ id, c₁.isLoaded id = true → id ∈ c₁.active := by
    intro id hid
    rw [hsame.loaded] at hid
    rw [hsame.active]
    exact hactive₀ id hid
  obtain ⟨-, c₂, hdraw₂, ⟨⟨hc₂, -⟩, hsettled⟩, hstill₂⟩ :=
    ((draw_spec hc₁).and (draw_settled hc₁ hactive₁ hdrawn)).and (draw_still hc₁ hstill₁)
  exact ⟨c₁, c₂, hdraw₁, hdraw₂, hsettled.draw_eq hc₂ hstill₂, hsettled.usedCount_eq_min hc₂⟩

/-- The only group is given back after the turn of the sprite that wants it, which has to wait for
the second pass. -/
theorem draw_settles_secondPass :
    let requests : List Request := [.add .blackTile, .add .blackTile, .load 0, .load 1,
      .restyle 1 { scaleX := Fixed.one.add .one }, .draw, .restyle 1 {},
      .restyle 0 { scaleX := Fixed.one.add .one }]
    ∃ answers c₀ c₁ c₂, (serveAll { engine := .ofConfig ⟨2, 2, 1⟩ } requests).outcome =
      .ok (answers, c₀) ∧ c₀.Still ∧ c₀.draw.outcome = .ok c₁ ∧ c₁.draw.outcome = .ok c₂ ∧
      c₂.draw.outcome = .ok c₂ ∧ c₂.engine.affine.usedCount = 1 ∧
      (c₁.sprite? 0).bind Sprite.heldGroup = none ∧
      (c₂.sprite? 0).bind Sprite.heldGroup = some 0 := by
  intro requests
  have hanimations : (serveAll { engine := .ofConfig ⟨2, 2, 1⟩ } requests).outcome.map (fun r =>
      r.2.sprites.toList.reduceOption.all Sprite.isStill) = .ok true := by decide +kernel
  have hgroups : ((serveAll { engine := .ofConfig ⟨2, 2, 1⟩ } requests).outcome >>= fun r =>
      r.2.draw.outcome >>= fun c₁ => c₁.draw.outcome.map fun c₂ => (c₂.scaledCount,
        (c₁.sprite? 0).bind Sprite.heldGroup, (c₂.sprite? 0).bind Sprite.heldGroup)) =
          .ok (1, none, some 0) := by decide +kernel
  have hnew : Scene.new ⟨2, 2, 1⟩ = .ok { engine := .ofConfig ⟨2, 2, 1⟩ } := rfl
  obtain ⟨answers, c₀, hserve, hsettles⟩ := draw_settles hnew requests (by decide)
  rw [hserve] at hanimations
  have hstill : c₀.Still := fun id s hs _ =>
    List.all_eq_true.mp (Except.ok.inj hanimations) s (mem_sprites_iff.mpr ⟨id, hs⟩)
  obtain ⟨c₁, c₂, hdraw₁, hdraw₂, hdraw₃, hcount⟩ := hsettles hstill
  rw [hserve, Checked.ok_bind, hdraw₁, Checked.ok_bind, hdraw₂] at hgroups
  obtain ⟨hscaled, hgroup₁, hgroup₂⟩ : c₂.scaledCount = 1 ∧
      (c₁.sprite? 0).bind Sprite.heldGroup = none ∧
      (c₂.sprite? 0).bind Sprite.heldGroup = some 0 := by
    simpa [Except.map] using hgroups
  rw [hscaled] at hcount
  exact ⟨answers, c₀, c₁, c₂, hserve, hstill, hdraw₁, hdraw₂, hdraw₃, hcount, hgroup₁, hgroup₂⟩

end Scene

end SpriteEngine
