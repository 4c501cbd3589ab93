import SpriteEngine.Engine.Draw
import SpriteEngine.Proofs.Loading

/-!
# Uploading and drawing keep the accounts

Uploading a frame writes to the tiles of a sprite and nowhere else (`Engine.Uploads`). The transfer
is never refused, because the tiles of an object lie in tile RAM. Describing the objects of a sprite
writes their descriptors and the linear map of the group that the sprite has, or has just taken
(`Engine.Describes`, with `Engine.Regroups` for what becomes of the group). Neither changes who owns
a slot, so the engine stays sound (`Engine.Sound.uploads`, `Engine.Sound.describes`).

A draw is made of these two, after the animation has moved on (`Engine.Draws`). It is refused only
for a sprite that is not loaded: a frame that does not exist is reported, and the old one is kept.
Without an old one the sprite is not described.
-/

namespace SpriteEngine.Engine

variable {c : Config} {e e' : Engine} {s s' : Sprite} {rest : List Sprite} {held held' : Holding}

/-! ### Uploading -/

/-- What uploading a frame leads to. -/
def Uploads (e : Engine) (s : Sprite) (frame : Nat) :
    Except PoolError Bool × Engine × Sprite → Prop
  | (.error cause, e', s') => e' = e ∧ s' = s ∧ (s.isLoaded = false ∧ cause = .notLoaded ∨
      s.texture.frames ≤ frame ∧ cause = .invalidFrame frame s.texture.frames)
  | (.ok _, e', s') => ∃ held ram, s.held = some held ∧ frame < s.texture.frames ∧
      e' = { e with tileRam := ram } ∧ s' = { s with held := some { held with frame } } ∧
      ram.bytes.size = e.tileRam.bytes.size ∧
      (∀ k slot tile size, held.slots[k]? = some slot →
        e.slots.object? slot = some (tile, size) → ∃ image,
          s.texture.Shows frame (k % s.texture.grid.columns) (k / s.texture.grid.columns) size
            held.colors image ∧ ram.Holds tile image) ∧
      ∀ b, ¬ e.slots.OwnedBy held.slots (b / 64) → ram.bytes[b]? = e.tileRam.bytes[b]?

/-- Uploading a frame has an answer. It is refused only if the sprite is not loaded or has no such
frame. -/
theorem upload_spec (h : Sound c e (s :: rest)) (frame : Nat) :
    ∃ r, e.upload s frame = .ok r ∧ e.Uploads s frame r := by
  rw [upload]
  cases hheld : s.held with
  | none => exact ⟨_, rfl, rfl, rfl, .inl ⟨by simp [Sprite.isLoaded, hheld], rfl⟩⟩
  | some held =>
    have hintact := h.intact s List.mem_cons_self held hheld
    by_cases hframe : s.texture.frames ≤ frame
    · simp only [if_pos hframe]
      exact ⟨_, rfl, rfl, rfl, .inr ⟨hframe, rfl⟩⟩
    · rw [Nat.not_le] at hframe
      simp only [if_neg (Nat.not_le.mpr hframe)]
      by_cases hsame : held.frame = some frame
      · -- the frame is there already, so the holding does not change either
        simp only [if_pos hsame]
        refine ⟨_, rfl, held, e.tileRam, hheld, hframe, rfl, ?_, rfl,
          hintact.shown frame hsame, fun b _ => rfl⟩
        rw [← hsame, ← hheld]
      · simp only [if_neg hsame]
        have hnodup := h.nodup_slots
        rw [List.flatMap_cons, Sprite.heldSlots_of_some hheld] at hnodup
        have hcapacity : e.tileRam.bytes.size = 64 * e.slots.tiles.capacity := by
          rw [h.ram, h.capacity]
        obtain ⟨ram, hram, hsize, hshown, hkeep⟩ := uploadCells_spec (i := 0) h.table hcapacity
          hframe (List.nodup_append.mp hnodup).1 hintact.fits
        rw [hram, Checked.ok_bind]
        refine ⟨_, rfl, held, ram, hheld, hframe, rfl, rfl, hsize, ?_, hkeep⟩
        simpa using hshown

/-- The transfer stays in the tiles of the sprite, so what the others show is kept. -/
theorem Sound.uploads (h : Sound c e (s :: rest)) {frame : Nat} {fresh : Bool}
    (hu : e.Uploads s frame (.ok fresh, e', s')) : Sound c e' (s' :: rest) := by
  obtain ⟨held, ram, hheld, hframe, rfl, rfl, hsize, hshown, hkeep⟩ := hu
  have hintact := h.intact s List.mem_cons_self held hheld
  refine h.update (.refl h.table [] []) rfl rfl hsize ?_ ?_ ?_ ?_ ?_
  · rw [Sprite.heldSlots_of_some hheld, Sprite.heldSlots_of_some rfl]
  · rw [Sprite.references_of_some hheld, Sprite.references_of_some rfl]
  · have hgroups := h.affine
    rw [Sprite.heldGroup_cons, Sprite.heldGroup_of_some hheld] at hgroups
    rw [Sprite.heldGroup_cons, Sprite.heldGroup_of_some rfl]
    exact hgroups
  · intro held' hheld'
    obtain rfl : _ = held' := Option.some.inj hheld'
    refine ⟨hintact.fits, hintact.length_colors, ?_, ?_, fun hnone => (nomatch hnone)⟩
    · rintro _ ⟨⟩
      exact hframe
    · rintro _ ⟨⟩
      exact hshown
  · rwa [Sprite.heldSlots_of_some hheld]

theorem Uploads.texture {frame : Nat} {fresh : Bool}
    (hu : e.Uploads s frame (.ok fresh, e', s')) : s'.texture = s.texture := by
  obtain ⟨held, ram, -, -, -, rfl, -⟩ := hu
  rfl

theorem Uploads.isLoaded {frame : Nat} {fresh : Bool}
    (hu : e.Uploads s frame (.ok fresh, e', s')) : s'.isLoaded = true := by
  obtain ⟨held, ram, -, -, -, rfl, -⟩ := hu
  rfl

/-! ### Describing -/

/-- A sprite that is scaled gets an affine group if there is one, and a sprite that is not scaled
gives its group back. -/
inductive Regroups (pool : AffinePool) : Bool → Option Nat → AffinePool × Option Nat → Prop
  | idle : Regroups pool false none (pool, none)
  | released {g : Nat} : Regroups pool false (some g) (pool.release g, none)
  | kept {g : Nat} : Regroups pool true (some g) (pool, some g)
  | taken {g : Nat} {pool' : AffinePool} (h : pool.reserve = some (g, pool')) :
    Regroups pool true none (pool', some g)
  | denied (h : pool.reserve = none) : Regroups pool true none (pool, none)

/-- What becomes of a group is one of these cases, by the scale, the group and what the pool has. -/
theorem updateAffine_spec (pool : AffinePool) (scaled : Bool) (group : Option Nat) :
    (updateAffine pool scaled group).Yields (Regroups pool scaled group) := by
  cases scaled with
  | false =>
    cases group with
    | none => exact .pure .idle
    | some g => exact .pure .released
  | true =>
    cases group with
    | some g => exact .pure .kept
    | none =>
      rw [updateAffine]
      cases hr : pool.reserve with
      | none => exact .note_bind id (.pure (.denied hr))
      | some r => exact .pure (.taken hr)

/-- The groups in use are those that the sprites have now. -/
private theorem Regroups.accounts {pool : AffinePool} {scaled : Bool} {group : Option Nat}
    {r : AffinePool × Option Nat} {groups : List Nat} (hr : Regroups pool scaled group r)
    (h : pool.Accounts (group.toList ++ groups)) :
    r.1.Accounts (r.2.toList ++ groups) ∧ r.1.count = pool.count := by
  cases hr with
  | idle => exact ⟨h, rfl⟩
  | released => exact ⟨h.release, rfl⟩
  | kept => exact ⟨h, rfl⟩
  | taken hr =>
    obtain ⟨-, -, -, rfl⟩ := AffinePool.reserve_eq_some hr
    exact ⟨h.reserve hr, rfl⟩
  | denied => exact ⟨h, rfl⟩

/-- What the descriptor of a slot says before a draw brings it up to date. -/
def baseAttributes (held : Holding) (entry : SlotEntry) : Attributes :=
  if held.described then entry.attrs else fixedAttributes entry

/-- The loop over the slots writes to each descriptor what it says for good. -/
private theorem describeFixed_spec {t : SlotTable} {slots : List Nat} (h : t.Sound)
    (hused : ∀ slot ∈ slots, t.isUsed slot = true) (hnodup : slots.Nodup) :
    ∃ t', slots.foldlM describeFixed t = .ok t' ∧ t.Redrawn slots [] t' ∧
      t.Written slots (fun _ => fixedAttributes) t' := by
  induction slots generalizing t with
  | nil => exact ⟨t, rfl, .refl h [] [], .nil⟩
  | cons slot slots ih =>
    have hslot := hused slot List.mem_cons_self
    obtain ⟨hnew, hnodup⟩ := List.nodup_cons.mp hnodup
    obtain ⟨entry, hentry, -⟩ := SlotTable.exists_entry hslot
    obtain ⟨t₁, ht₁, h₁, hw₁⟩ := SlotTable.describe_spec h hslot (fixedAttributes entry)
    obtain ⟨t', ht', h', hw'⟩ := ih h₁.sound (fun slot' hslot' =>
      (h₁.isUsed slot').trans (hused slot' (List.mem_cons_of_mem slot hslot'))) hnodup
    refine ⟨t', ?_, h₁.cons h', .cons hentry h₁ hw₁ h' hw' hnew⟩
    rw [List.foldlM_cons, describeFixed, hentry]
    dsimp only
    rw [ht₁, Checked.ok_bind, ht']

/-- Afterwards the entries have the attributes that a draw starts from. -/
private theorem describeOnce_spec {t : SlotTable} (h : t.Sound)
    (hused : ∀ slot ∈ held.slots, t.isUsed slot = true) (hnodup : held.slots.Nodup) :
    ∃ t', describeOnce t held = .ok t' ∧ t.Redrawn held.slots [] t' ∧
      ∀ slot ∈ held.slots, ∀ entry, t.entries[slot]? = some entry →
        t'.entries[slot]? = some { entry with attrs := baseAttributes held entry } := by
  rw [describeOnce]
  cases hdescribed : held.described with
  | true =>
    refine ⟨t, rfl, .refl h .., fun slot _ entry hentry => ?_⟩
    rw [hentry, baseAttributes, if_pos hdescribed]
  | false =>
    obtain ⟨t', ht', h', hw⟩ := describeFixed_spec h hused hnodup
    refine ⟨t', ht', h', fun slot hslot entry hentry => ?_⟩
    obtain ⟨k, hk⟩ := List.mem_iff_getElem?.mp hslot
    rw [(hw k slot entry hk hentry).1, baseAttributes, if_neg (by simp [hdescribed])]

/-- A group gets the linear map of the scale. Without a group nothing is written. -/
private theorem writeScale_spec {t : SlotTable} {group : Option Nat} (h : t.Sound)
    (hgroup : ∀ g ∈ group, g < 32) :
    ∃ t', writeScale t s group = .ok t' ∧ t.Redrawn [] group.toList t' ∧
      ∀ g : Fin 32, group = some g.val → t'.oam.matrix g = .ofScale s.scaleX s.scaleY := by
  cases group with
  | none => exact ⟨t, rfl, .refl h .., fun _ hg => (nomatch hg)⟩
  | some g =>
    rw [writeScale, Oam.writeAffine_of_lt _ (hgroup g rfl)]
    refine ⟨_, rfl, .setMatrix h ⟨g, hgroup g rfl⟩ _, fun g' hg' => ?_⟩
    obtain rfl : g = g'.val := Option.some.inj hg'
    rw [Oam.matrix_setMatrix, if_pos rfl]

/-- The loop over the cells, started at cell number `i`: the descriptor of each slot gets the
attributes of its own column and row. -/
private theorem describeCells_spec {t : SlotTable} {group : Option Nat} {i : Nat} {slots : List Nat}
    (h : t.Sound) (hused : ∀ slot ∈ slots, t.isUsed slot = true) (hnodup : slots.Nodup) :
    ∃ t', describeCells t s group i slots = .ok t' ∧ t.Redrawn slots [] t' ∧
      t.Written slots (fun k entry => cellAttributes entry.attrs s group
        ((i + k) % s.texture.grid.columns) ((i + k) / s.texture.grid.columns)) t' := by
  induction slots generalizing t i with
  | nil => exact ⟨t, rfl, .refl h [] [], .nil⟩
  | cons slot slots ih =>
    have hslot := hused slot List.mem_cons_self
    obtain ⟨hnew, hnodup⟩ := List.nodup_cons.mp hnodup
    obtain ⟨entry, hentry, -⟩ := SlotTable.exists_entry hslot
    obtain ⟨t₁, ht₁, h₁, hw₁⟩ := SlotTable.describe_spec h hslot (cellAttributes entry.attrs s group
      (i % s.texture.grid.columns) (i / s.texture.grid.columns))
    obtain ⟨t', ht', h', hw'⟩ := ih (i := i + 1) h₁.sound (fun slot' hslot' =>
      (h₁.isUsed slot').trans (hused slot' (List.mem_cons_of_mem slot hslot'))) hnodup
    refine ⟨t', ?_, h₁.cons h', .cons hentry h₁ hw₁ h' ?_ hnew⟩
    · rw [describeCells, hentry]
      simp only [s.texture.position_eq, Checked.ok_bind, ht₁]
      exact ht'
    · simpa only [Nat.add_assoc, Nat.add_comm 1] using hw'

/-- What bringing the descriptors of a sprite up to date leads to, if `groups` are the affine groups
of the other sprites. -/
structure Describes (e : Engine) (s : Sprite) (held : Holding) (groups : List Nat)
    (r : Engine × Holding) : Prop where
  slots : e.slots.Redrawn held.slots r.2.affine.toList r.1.slots
  written : e.slots.Written held.slots (fun k entry => cellAttributes (baseAttributes held entry) s
    r.2.affine (k % s.texture.grid.columns) (k / s.texture.grid.columns)) r.1.slots
  palette : r.1.palette = e.palette
  tileRam : r.1.tileRam = e.tileRam
  affine : r.1.affine.Accounts (r.2.affine.toList ++ groups)
  count : r.1.affine.count = e.affine.count
  regroups : Regroups e.affine s.isScaled held.affine (r.1.affine, r.2.affine)
  matrix : ∀ g : Fin 32, r.2.affine = some g.val →
    r.1.slots.oam.matrix g = .ofScale s.scaleX s.scaleY
  held : r.2 = { held with described := true, affine := r.2.affine }

/-- Describing a sprite cannot fail: its slots are in use, and the group that it has or gets is one
of the hardware. -/
theorem describe_spec {groups : List Nat} (h : e.slots.Sound)
    (hused : ∀ slot ∈ held.slots, e.slots.isUsed slot = true) (hnodup : held.slots.Nodup)
    (hgroups : e.affine.Accounts (held.affine.toList ++ groups)) :
    (e.describe s held).Yields (e.Describes s held groups) := by
  rw [describe]
  refine (Traced.Yields.lift (describeOnce_spec h hused hnodup)).bind ?_
  rintro t₁ ⟨h₁, hbase⟩
  refine (updateAffine_spec e.affine s.isScaled held.affine).bind ?_
  rintro ⟨affine, group⟩ hregroups
  obtain ⟨haccounts, hcount⟩ := hregroups.accounts hgroups
  have hlt : ∀ g ∈ group, g < 32 := by
    rintro g rfl
    exact Nat.lt_of_lt_of_le (haccounts.lt g List.mem_cons_self) haccounts.count_le
  -- the group is one of those in use now, so its map can be written
  refine (Traced.Yields.lift (writeScale_spec h₁.sound hlt)).bind ?_
  rintro t₂ ⟨h₂, hmatrix⟩
  have h₁₂ := h₁.trans h₂ (List.Subset.refl _) (List.nil_subset held.slots) (List.nil_subset _)
    (List.Subset.refl _)
  refine (Traced.Yields.lift (describeCells_spec h₂.sound (fun slot hslot =>
    (h₁₂.isUsed slot).trans (hused slot hslot)) hnodup)).bind ?_
  rintro t₃ ⟨h₃, hw⟩
  refine .pure ⟨h₁₂.trans h₃ (List.Subset.refl _) (List.Subset.refl _) (List.Subset.refl _)
    (List.nil_subset _), ?_, rfl, rfl, haccounts, hcount, hregroups, fun g hg => ?_, rfl⟩
  · intro k slot entry hk hentry
    have hentry₂ := (h₂.entries slot List.not_mem_nil).trans
      (hbase slot (List.mem_of_getElem? hk) entry hentry)
    simpa only [Nat.zero_add] using hw k slot _ hk hentry₂
  · exact (h₃.matrix g List.not_mem_nil).trans (hmatrix g hg)

/-- Describing a sprite changes the group it holds and what is written for its slots, and neither is
of concern to the other sprites. -/
theorem Sound.describes (h : Sound c e (s :: rest)) (hheld : s.held = some held)
    (hframe : held.frame ≠ none)
    (hd : e.Describes s held (rest.filterMap Sprite.heldGroup) (e', held')) :
    Sound c e' ({ s with held := some held' } :: rest) := by
  obtain ⟨hslots, -, hpalette, hram, haffine, hcount, -, -, hheld'⟩ := hd
  have hintact := h.intact s List.mem_cons_self held hheld
  dsimp only at hheld'
  refine h.update hslots hpalette hcount (by rw [hram]) ?_ ?_ ?_ ?_ fun b _ => by rw [hram]
  · rw [Sprite.heldSlots_of_some hheld, Sprite.heldSlots_of_some rfl, hheld']
  · rw [Sprite.references_of_some hheld, Sprite.references_of_some rfl, hheld']
  · rw [Sprite.heldGroup_cons, Sprite.heldGroup_of_some rfl]
    exact haffine
  · intro held₁ hheld₁
    obtain rfl : held' = held₁ := Option.some.inj hheld₁
    have hintact' : held.Intact s.texture e'.slots e.tileRam :=
      hintact.congr (fun slot _ => hslots.object slot) fun b _ => rfl
    rw [hram, hheld']
    exact ⟨hintact'.fits, hintact'.length_colors, hintact'.frame_lt, hintact'.shown,
      fun hnone => absurd hnone hframe⟩

/-! ### Drawing -/

theorem tick_texture : s.tick.texture = s.texture := by
  rw [Sprite.tick, Sprite.followAnimation]
  split <;> rfl

theorem tick_held : s.tick.held = s.held := by
  rw [Sprite.tick, Sprite.followAnimation]
  split <;> rfl

/-- The frame of the holding is the one that the sprite should show, or there is no such frame. -/
def IsCurrent (s : Sprite) (held : Holding) : Prop :=
  held.frame = some s.currentFrame ∨ s.texture.frames ≤ s.currentFrame

/-- What a refresh leads to: if the frame is the current one, nothing has changed, and otherwise the
current frame was uploaded. -/
def Refreshes (e : Engine) (s : Sprite) (r : Engine × Sprite) : Prop :=
  (r = (e, s) ∧ ∀ held, s.held = some held → IsCurrent s held) ∨
    (∃ fresh, e.Uploads s s.currentFrame (.ok fresh, r)) ∧
      ∀ held, s.held = some held → ¬ IsCurrent s held

/-- Bringing the current frame to tile RAM cannot fail. A frame that does not exist is reported, and
the old one stays. -/
theorem refresh_spec (h : Sound c e (s :: rest)) : (e.refresh s).Yields (e.Refreshes s) := by
  rw [refresh]
  split
  · rename_i hframe
    exact .pure (.inl ⟨rfl, fun held hheld => .inl (by simpa [hheld] using hframe)⟩)
  · rename_i hframe
    refine (Traced.Yields.lift (upload_spec h s.currentFrame)).bind ?_
    rintro ⟨cause | fresh, e', s'⟩ hu
    · -- a frame that does not exist is reported, which is no alarm
      obtain ⟨rfl, rfl, hcause⟩ := hu
      refine .note_bind id (.pure (.inl ⟨rfl, fun held hheld => .inr ?_⟩))
      obtain ⟨hunloaded, -⟩ | ⟨hinvalid, -⟩ := hcause
      · simp [Sprite.isLoaded, hheld] at hunloaded
      · exact hinvalid
    · refine .pure (.inr ⟨⟨fresh, hu⟩, fun held hheld hcurrent => ?_⟩)
      obtain ⟨-, -, -, hvalid, -⟩ := hu
      rcases hcurrent with hcurrent | hinvalid
      · exact hframe (by simpa [hheld] using hcurrent)
      · omega

/-- The engine stays sound, because at most a frame was uploaded. -/
theorem Sound.refreshes (h : Sound c e (s :: rest)) (hr : e.Refreshes s (e', s')) :
    Sound c e' (s' :: rest) := by
  obtain ⟨heq, -⟩ | ⟨⟨fresh, hu⟩, -⟩ := hr
  · obtain ⟨rfl, rfl⟩ : e' = e ∧ s' = s := by simpa using heq
    exact h
  · exact h.uploads hu

/-- Refreshing leaves a loaded sprite loaded, and its holding differs in the frame only. -/
theorem Refreshes.exists_held (hr : e.Refreshes s (e', s')) (hheld : s.held = some held) :
    s'.texture = s.texture ∧ ∃ frame, s'.held = some { held with frame } := by
  obtain ⟨heq, -⟩ | ⟨⟨fresh, hu⟩, -⟩ := hr
  · obtain ⟨rfl, rfl⟩ : e' = e ∧ s' = s := by simpa using heq
    exact ⟨rfl, held.frame, hheld⟩
  · obtain ⟨held', ram, hheld', -, -, rfl, -⟩ := hu
    obtain rfl : held = held' := Option.some.inj (hheld.symm.trans hheld')
    exact ⟨rfl, some s.currentFrame, rfl⟩

/-- What drawing a sprite leads to, if `groups` are the affine groups of the other sprites. A sprite
that has no frame even after the refresh is not described. -/
def Draws (e : Engine) (s : Sprite) (groups : List Nat) :
    Except PoolError Unit × Engine × Sprite → Prop
  | (.error cause, e', s') => e' = e ∧ s' = s ∧ s.isLoaded = false ∧ cause = .notLoaded
  | (.ok (), e', s') => ∃ e₁ s₁ held, s.isLoaded = true ∧ e.Refreshes s.tick (e₁, s₁) ∧
      s₁.held = some held ∧ (held.frame = none ∧ e' = e₁ ∧ s' = s₁ ∨
        held.frame ≠ none ∧ ∃ held', e₁.Describes s₁ held groups (e', held') ∧
          s' = { s₁ with held := some held' })

/-- Drawing is refused for a sprite that is not loaded, and for no other. -/
theorem draw_spec (h : Sound c e (s :: rest)) :
    (e.draw s).Yields (e.Draws s (rest.filterMap Sprite.heldGroup)) := by
  rw [draw]
  cases hheld : s.held with
  | none =>
    have hloaded : s.isLoaded = false := by simp [Sprite.isLoaded, hheld]
    rw [if_neg (by simp [hloaded])]
    exact .pure ⟨rfl, rfl, hloaded, rfl⟩
  | some held =>
    have hloaded : s.isLoaded = true := by simp [Sprite.isLoaded, hheld]
    have hticked := h.restyle tick_texture tick_held
    rw [if_pos hloaded]
    refine (refresh_spec hticked).bind ?_
    rintro ⟨e₁, s₁⟩ hr
    obtain ⟨-, frame, hheld₁⟩ := hr.exists_held (tick_held.trans hheld)
    have h₁ := hticked.refreshes hr
    simp only [hheld₁]
    split
    · -- there never was a frame that could be uploaded
      rename_i hframe
      exact .pure ⟨e₁, s₁, _, hloaded, hr, hheld₁, .inl ⟨by simpa using hframe, rfl, rfl⟩⟩
    · rename_i hframe
      have hnodup := h₁.nodup_slots
      rw [List.flatMap_cons, Sprite.heldSlots_of_some hheld₁] at hnodup
      have hgroups := h₁.affine
      rw [Sprite.heldGroup_cons, Sprite.heldGroup_of_some hheld₁] at hgroups
      have hused : ∀ slot ∈ _, e₁.slots.isUsed slot = true := fun slot hslot =>
        h₁.isUsed_of_held List.mem_cons_self hheld₁ hslot
      refine (describe_spec h₁.table hused (List.nodup_append.mp hnodup).1 hgroups).bind ?_
      rintro ⟨e₂, held₂⟩ hd
      exact .pure ⟨e₁, s₁, _, hloaded, hr, hheld₁, .inr ⟨by simpa using hframe, held₂, hd, rfl⟩⟩

/-- A draw is a refresh and a description, and each of them keeps the engine sound. -/
theorem Sound.draws (h : Sound c e (s :: rest))
    (hd : e.Draws s (rest.filterMap Sprite.heldGroup) (.ok (), e', s')) :
    Sound c e' (s' :: rest) := by
  obtain ⟨e₁, s₁, held, -, hr, hheld, ⟨-, rfl, rfl⟩ | ⟨hframe, held', hd, rfl⟩⟩ := hd
  · exact (h.restyle tick_texture tick_held).refreshes hr
  · exact ((h.restyle tick_texture tick_held).refreshes hr).describes hheld hframe hd

theorem Draws.texture {groups : List Nat} (hd : e.Draws s groups (.ok (), e', s')) :
    s'.texture = s.texture := by
  obtain ⟨e₁, s₁, held, hloaded, hr, hheld, hs'⟩ := hd
  obtain ⟨held₀, hheld₀⟩ := Option.isSome_iff_exists.mp hloaded
  have htexture := (hr.exists_held (tick_held.trans hheld₀)).1.trans tick_texture
  obtain ⟨-, rfl, rfl⟩ | ⟨-, held', -, rfl⟩ := hs' <;> exact htexture

/-- Only a loaded sprite can be drawn. -/
theorem Draws.wasLoaded {groups : List Nat} (hd : e.Draws s groups (.ok (), e', s')) :
    s.isLoaded = true := by
  obtain ⟨-, -, -, hloaded, -⟩ := hd
  exact hloaded

theorem Draws.isLoaded {groups : List Nat} (hd : e.Draws s groups (.ok (), e', s')) :
    s'.isLoaded = true := by
  obtain ⟨e₁, s₁, held, -, -, hheld, ⟨-, rfl, rfl⟩ | ⟨-, held', -, rfl⟩⟩ := hd
  · simp [Sprite.isLoaded, hheld]
  · rfl

end SpriteEngine.Engine
