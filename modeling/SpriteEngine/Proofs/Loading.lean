import SpriteEngine.Engine.Load
import SpriteEngine.Proofs.Ownership

/-!
# Loading and freeing keep the accounts

Loading first binds the colors and then takes the slots. `Engine.Loads` says what each pool looks
like afterwards, and `Engine.Sound.loads` that the accounts are right again: the slots were free, so
no sprite had them, and the references are one more for each color. `Engine.Frees` and
`Engine.Sound.frees` are the same for freeing. Where an operation is refused, it has changed nothing
at all.
-/

namespace SpriteEngine.Engine

variable {c : Config} {e e' : Engine} {s s' : Sprite} {rest : List Sprite}

/-! ### Loading -/

/-- What loading a sprite leads to, if `refs` are the references of the other sprites. -/
def Loads (e : Engine) (s : Sprite) (refs : List (UInt8 × UInt16)) :
    Except PoolError Unit × Engine × Sprite → Prop
  | (.error cause, e', s') => e' = e ∧ s' = s ∧ (s.isLoaded = true ∧ cause = .alreadyLoaded ∨
      s.isLoaded = false ∧ (cause = .outOfColors ∨ cause = .outOfSlots ∨ cause = .outOfTiles))
  | (.ok (), e', s') => s.held = none ∧ ∃ slots k,
      s' = { s with held := some { slots, colors := k.indices.toList } } ∧
      e.slots.Taken slots s.texture.grid.sizes e'.slots ∧
      e.palette.Binds refs s.texture.colors (.ok k, e'.palette) ∧
      e'.affine = e.affine ∧ e'.tileRam = e.tileRam

/-- Loading has an answer. If the slots cannot be taken, the colors that were bound before are given
back, so that nothing has changed. -/
theorem load_spec (h : Sound c e (s :: rest)) :
    (e.load s).Yields (e.Loads s (rest.flatMap Sprite.references)) := by
  rw [load]
  cases hheld : s.held with
  | some held =>
    have hloaded : s.isLoaded = true := by simp [Sprite.isLoaded, hheld]
    rw [if_pos hloaded]
    exact .pure ⟨rfl, rfl, .inl ⟨hloaded, rfl⟩⟩
  | none =>
    have hloaded : s.isLoaded = false := by simp [Sprite.isLoaded, hheld]
    have hpalette := h.palette
    have hroom := h.length_references_le
    rw [List.flatMap_cons, Sprite.references_of_none hheld, List.nil_append] at hpalette hroom
    have hcolors := s.texture.length_colors_le
    rw [if_neg (by simp [hloaded])]
    refine (PaletteBank.bindAll_spec hpalette (by omega)).bind ?_
    rintro ⟨cause | k, palette⟩ hk
    · obtain ⟨rfl, rfl⟩ := hk
      exact .pure ⟨rfl, rfl, .inr ⟨hloaded, .inl rfl⟩⟩
    · refine (SlotTable.takeGrid_spec h.table _).bind ?_
      rintro ⟨cause | slots, table⟩ ht
      · -- the colors are bound already and are given back
        obtain ⟨rfl, hcause⟩ := ht
        refine (PaletteBank.cancel_spec hk.2.1).bind ?_
        rintro _ rfl
        exact .pure ⟨rfl, rfl, .inr ⟨hloaded, .inr hcause⟩⟩
      · exact .note_bind id (.pure ⟨hheld, slots, k, rfl, ht, hk, rfl, rfl⟩)

/-- A load succeeds if the colors can be bound and the slots can be taken. -/
theorem load_eq_ok_iff : (e.load s).outcome = .ok (.ok (), e', s') ↔ s.isLoaded = false ∧
    ∃ k slots, (e.palette.bindAll s.texture.colors).outcome = .ok (.ok k, e'.palette) ∧
      (e.slots.takeGrid s.texture.grid).outcome = .ok (.ok slots, e'.slots) ∧
      e' = { e with palette := e'.palette, slots := e'.slots } ∧
      s' = { s with held := some { slots, colors := k.indices.toList } } := by
  rw [load]
  constructor
  · intro h
    split at h
    · simp [Traced.pure_def] at h
    · rename_i hloaded
      refine ⟨by simpa using hloaded, ?_⟩
      obtain ⟨⟨cause | k, palette⟩, hk, h⟩ := Traced.exists_of_outcome_bind h
      · simp [Traced.pure_def] at h
      · obtain ⟨⟨cause | slots, table⟩, ht, h⟩ := Traced.exists_of_outcome_bind h
        · -- the colors are given back, and the load is refused
          obtain ⟨_, -, h⟩ := Traced.exists_of_outcome_bind h
          simp [Traced.pure_def] at h
        · obtain ⟨⟨⟩, -, h⟩ := Traced.exists_of_outcome_bind h
          obtain ⟨rfl, rfl⟩ : _ = e' ∧ _ = s' := by simpa [Traced.pure_def] using h
          exact ⟨k, slots, hk, ht, rfl, rfl⟩
  · rintro ⟨hloaded, k, slots, hk, ht, he', rfl⟩
    rw [if_neg (by simp [hloaded]), Traced.outcome_bind hk]
    dsimp only
    rw [Traced.outcome_bind ht]
    dsimp only
    rw [he']
    rfl

/-- The sprites that were loaded before are intact after a load. -/
private theorem Sound.intact_loads (h : Sound c e (s :: rest)) {slots : List Nat}
    {sizes : List ObjectSize} (ht : e.slots.Taken slots sizes e'.slots)
    (hram : e'.tileRam = e.tileRam) {s' : Sprite} (hs' : s' ∈ rest) {held : Holding}
    (hheld : s'.held = some held) : held.Intact s'.texture e'.slots e'.tileRam := by
  refine (h.intact s' (List.mem_cons_of_mem s hs') held hheld).congr ?_ fun b _ => by rw [hram]
  intro slot hslot
  refine ht.object (h.isUsed (List.mem_flatMap.mpr ⟨s', List.mem_cons_of_mem s hs', ?_⟩))
  rwa [Sprite.heldSlots_of_some hheld]

/-- The accounts are right after a load: the slots that were taken had no owner before, and each
color has one more reference. -/
theorem Sound.loads (h : Sound c e (s :: rest))
    (hl : e.Loads s (rest.flatMap Sprite.references) (.ok (), e', s')) :
    Sound c e' (s' :: rest) := by
  obtain ⟨hheld, slots, k, rfl, ht, ⟨hsize, -, hpalette⟩, haffine, hram⟩ := hl
  refine ⟨ht.capacity.trans h.capacity, ht.length.trans h.length, ?_, ?_, ht.sound, fun i => ?_,
    hpalette, ?_, ?_⟩
  · rw [haffine, h.count]
  · rw [hram, h.ram]
  · have hi := h.slots i
    rw [List.flatMap_cons, Sprite.heldSlots_of_none hheld, List.nil_append] at hi
    rw [List.flatMap_cons, List.count_append, hi, ht.isUsed, Sprite.heldSlots_of_some rfl]
    -- a slot that was taken was not in use, and it was taken once
    by_cases hmem : i ∈ slots
    · rw [List.count_eq_one_of_mem ht.nodup hmem, ht.unused i hmem]
      simp [hmem]
    · rw [List.count_eq_zero_of_not_mem hmem]
      simp [hmem]
  · have hgroups := h.affine
    rw [Sprite.heldGroup_cons, Sprite.heldGroup_of_none hheld] at hgroups
    rw [Sprite.heldGroup_cons, Sprite.heldGroup_of_some rfl, haffine]
    exact hgroups
  · intro s' hs' held hheld'
    rcases List.mem_cons.mp hs' with rfl | hs'
    · obtain rfl : _ = held := Option.some.inj hheld'
      refine ⟨ht.objects.imp ?_, ?_, fun _ hf => (nomatch hf), fun _ hf => (nomatch hf),
        fun _ => rfl⟩
      · rintro slot size ⟨tile, hentry⟩
        exact ⟨tile, SlotTable.object?_eq_some.mpr ⟨_, hentry, rfl, rfl, rfl⟩⟩
      · rw [Array.length_toList]
        exact hsize
    · exact h.intact_loads ht hram hs' hheld'

theorem Loads.texture {refs : List (UInt8 × UInt16)} (hl : e.Loads s refs (.ok (), e', s')) :
    s'.texture = s.texture := by
  obtain ⟨-, slots, k, rfl, -⟩ := hl
  rfl

theorem Loads.isLoaded {refs : List (UInt8 × UInt16)} (hl : e.Loads s refs (.ok (), e', s')) :
    s'.isLoaded = true := by
  obtain ⟨-, slots, k, rfl, -⟩ := hl
  rfl

/-! ### Freeing -/

/-- What freeing a sprite leads to, if `refs` are the references of the other sprites. -/
def Frees (e : Engine) (s : Sprite) (refs : List (UInt8 × UInt16)) :
    Except PoolError Unit × Engine × Sprite → Prop
  | (.error cause, e', s') => e' = e ∧ s' = s ∧ s.isLoaded = false ∧ cause = .notLoaded
  | (.ok (), e', s') => ∃ held, s.held = some held ∧ s' = { s with held := none } ∧
      e.slots.Freed held.slots e'.slots ∧ e'.palette.Accounts refs ∧
      e'.palette.SameColors e.palette ∧ e'.affine = held.affine.elim e.affine e.affine.release ∧
      e'.tileRam = e.tileRam

/-- Freeing is refused for a sprite that is not loaded, and for no other. -/
theorem free_spec (h : Sound c e (s :: rest)) :
    (e.free s).Yields (e.Frees s (rest.flatMap Sprite.references)) := by
  rw [free]
  cases hheld : s.held with
  | none => exact .pure ⟨rfl, rfl, by simp [Sprite.isLoaded, hheld], rfl⟩
  | some held =>
    have hlength := (h.intact s List.mem_cons_self held hheld).length_colors
    have hpalette := h.palette
    rw [List.flatMap_cons, Sprite.references_of_some hheld] at hpalette
    refine (PaletteBank.releaseAll_spec hlength hpalette).bind fun palette hp => ?_
    refine (SlotTable.freeAll_spec h.table held.slots).bind fun slots ht => ?_
    exact .note_bind id (.pure ⟨held, hheld, rfl, ht, hp.1, hp.2, rfl, rfl⟩)

/-- The group of a sprite that is freed is not in use any more. -/
private theorem Sound.affine_frees (h : Sound c e (s :: rest)) {held : Holding}
    (hheld : s.held = some held) :
    (held.affine.elim e.affine e.affine.release).Accounts (rest.filterMap Sprite.heldGroup) ∧
      (held.affine.elim e.affine e.affine.release).count = e.affine.count := by
  have hgroups := h.affine
  rw [Sprite.heldGroup_cons, Sprite.heldGroup_of_some hheld] at hgroups
  cases hg : held.affine with
  | none =>
    rw [hg] at hgroups
    exact ⟨hgroups, rfl⟩
  | some g =>
    rw [hg] at hgroups
    exact ⟨hgroups.release, rfl⟩

/-- The accounts are right after a sprite was freed: its slots have no owner any more, and those of
other sprites keep theirs. -/
theorem Sound.frees (h : Sound c e (s :: rest))
    (hf : e.Frees s (rest.flatMap Sprite.references) (.ok (), e', s')) :
    Sound c e' (s' :: rest) := by
  obtain ⟨held, hheld, rfl, ht, hpalette, -, haffine, hram⟩ := hf
  obtain ⟨hgroups, hcount⟩ := h.affine_frees hheld
  rw [← haffine] at hgroups hcount
  refine ⟨ht.capacity.trans h.capacity, ht.length.trans h.length, hcount.trans h.count, ?_,
    ht.sound, fun i => ?_, hpalette, hgroups, ?_⟩
  · rw [hram, h.ram]
  · have hi := h.slots i
    rw [List.flatMap_cons, List.count_append, Sprite.heldSlots_of_some hheld] at hi
    rw [List.flatMap_cons, Sprite.heldSlots_of_none rfl, List.nil_append, ht.isUsed]
    -- a slot that is given back was held by this sprite and by no other
    by_cases hmem : i ∈ held.slots
    · have hpos := List.count_pos_iff.mpr hmem
      have hle := Bool.toNat_le (e.slots.isUsed i)
      simp only [hmem, not_true, decide_false, Bool.and_false, Bool.toNat_false]
      omega
    · rw [List.count_eq_zero_of_not_mem hmem, Nat.zero_add] at hi
      simpa [hmem] using hi
  · intro s' hs' held' hheld'
    rcases List.mem_cons.mp hs' with rfl | hs'
    · exact nomatch hheld'
    · refine (h.intact s' (List.mem_cons_of_mem s hs') held' hheld').congr ?_ fun b _ => by
        rw [hram]
      intro slot hslot
      rw [← Sprite.heldSlots_of_some hheld'] at hslot
      refine ht.object fun hmem => h.slots_disjoint hs' hslot ?_
      rwa [Sprite.heldSlots_of_some hheld]

/-- Freeing a sprite changes nothing of it but what it holds. -/
theorem Frees.eq {refs : List (UInt8 × UInt16)} (hf : e.Frees s refs (.ok (), e', s')) :
    s' = { s with held := none } := by
  obtain ⟨held, -, rfl, -⟩ := hf
  rfl

theorem Frees.isLoaded {refs : List (UInt8 × UInt16)} (hf : e.Frees s refs (.ok (), e', s')) :
    s'.isLoaded = false := by
  rw [hf.eq]
  rfl

end SpriteEngine.Engine
