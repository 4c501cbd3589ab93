import Mathlib.Data.List.Forall2
import Mathlib.Data.List.Perm.Basic
import SpriteEngine.Pool.Slots
import SpriteEngine.Proofs.Grid
import SpriteEngine.Proofs.Memory
import SpriteEngine.Proofs.Tiles
import SpriteEngine.Proofs.Yields

/-!
# Slots and the tiles they own

`SlotTable.Sound` is the invariant of a table: every tile below the capacity is free or belongs to
exactly one slot in use, a free slot has the entry of a new one, and its descriptor is hidden.

* `SlotTable.take_spec` and `SlotTable.free_spec` are the operations on one slot.
* `SlotTable.Taken` relates a table to the one before slots were taken from it for objects of given
  sizes, `SlotTable.Freed` to the one before slots were given back.
* `SlotTable.Taken.undo` says that giving back what was taken leads back to the same table. The
  entries and the descriptors are compared place by place; for the tiles it is enough that the free
  tiles are those that no entry owns, because they determine the list of zones.
* `SlotTable.takeGrid_spec`: the slots for a grid are taken, or the table is unchanged.
* `SlotTable.Redrawn` says what describing objects leaves alone, and `SlotTable.Written` what their
  entries and descriptors are afterwards.
-/

namespace SpriteEngine

theorem ObjectSize.tiles_pos (s : ObjectSize) : 0 < s.tiles := by
  obtain ⟨shape, size⟩ := s
  cases shape <;> revert size <;> decide

/-- The slot of the entry is in use and the tile belongs to it. -/
def SlotEntry.Owns (e : SlotEntry) (tile : Nat) : Prop :=
  e.free = false ∧ Zone.Covers ⟨e.tile, e.size.tiles⟩ tile

instance (e : SlotEntry) (tile : Nat) : Decidable (e.Owns tile) :=
  inferInstanceAs (Decidable (_ ∧ _))

namespace SlotTable

variable {t t' t₀ : SlotTable} {slot : Nat} {e e' : SlotEntry}

/-! ### Looking at the table -/

/-- Whether a slot is in use. -/
def isUsed (t : SlotTable) (slot : Nat) : Bool :=
  t.entries[slot]?.any (!·.free)

/-- The first tile and the size of the object of a slot in use. -/
def object? (t : SlotTable) (slot : Nat) : Option (Nat × ObjectSize) :=
  t.entries[slot]?.bind fun e => if e.free then none else some (e.tile, e.size)

/-- The number of slots that own a tile. -/
def owners (t : SlotTable) (tile : Nat) : Nat :=
  t.entries.countP (·.Owns tile)

theorem isUsed_of_entry (he : t.entries[slot]? = some e) : t.isUsed slot = !e.free := by
  simp [isUsed, he]

theorem exists_entry (h : t.isUsed slot = true) :
    ∃ e, t.entries[slot]? = some e ∧ e.free = false := by
  cases he : t.entries[slot]? with
  | none => simp [isUsed, he] at h
  | some e => exact ⟨e, rfl, by simpa [isUsed_of_entry he] using h⟩

/-- A slot has an object if it is in use. -/
theorem object?_eq_some {tile : Nat} {size : ObjectSize} : t.object? slot = some (tile, size) ↔
    ∃ e, t.entries[slot]? = some e ∧ e.free = false ∧ e.tile = tile ∧ e.size = size := by
  cases he : t.entries[slot]? with
  | none => simp [object?, he]
  | some e => cases hf : e.free <;> simp [object?, he, hf]

theorem isSome_object? (t : SlotTable) (slot : Nat) : (t.object? slot).isSome = t.isUsed slot := by
  cases he : t.entries[slot]? with
  | none => simp [object?, isUsed, he]
  | some e => cases hf : e.free <;> simp [object?, isUsed, he, hf]

/-- The invariant of a table of slots. -/
structure Sound (t : SlotTable) : Prop where
  length_le : t.entries.length ≤ 128
  tiles : t.tiles.Sound
  /-- A tile below the capacity is free or has one owner, and other tiles are neither. -/
  shared : ∀ tile, t.owners tile + (if t.tiles.IsFree tile then 1 else 0) =
    if tile < t.tiles.capacity then 1 else 0
  blank : ∀ e ∈ t.entries, e.free = true → e = {}
  hidden : ∀ s : Fin 128, t.isUsed s = false → t.oam.words3 s = .hidden

private theorem eq_blank_of_mem_reset {slots tiles : Nat}
    (he : e ∈ (new slots tiles).reset.entries) : e = {} := by
  obtain ⟨-, -, rfl⟩ := List.mem_map.mp he
  rfl

theorem isUsed_start (slots tiles i : Nat) : (new slots tiles).reset.isUsed i = false := by
  cases he : (new slots tiles).reset.entries[i]? with
  | none => simp [isUsed, he]
  | some e =>
    rw [isUsed_of_entry he, eq_blank_of_mem_reset (List.mem_of_getElem? he)]
    rfl

/-- In a table without slots in use every tile is free. -/
theorem Sound.start {slots tiles : Nat} (h : tiles < 65536) : (new slots tiles).reset.Sound where
  length_le := by
    rw [reset, new, List.length_map, List.length_replicate]
    exact Nat.min_le_right slots 128
  tiles := .new h
  shared tile := by
    have howners : (new slots tiles).reset.owners tile = 0 := by
      rw [owners, List.countP_eq_zero]
      intro e he
      simp [eq_blank_of_mem_reset he, SlotEntry.Owns]
    rw [howners, Nat.zero_add]
    exact if_congr TilePool.isFree_new rfl rfl
  blank e he _ := eq_blank_of_mem_reset he
  hidden s _ := by rw [reset, Oam.words3_hideAll]

/-- The tiles that are free are those that nobody owns. -/
theorem Sound.isFree_iff (h : t.Sound) (tile : Nat) :
    t.tiles.IsFree tile ↔ tile < t.tiles.capacity ∧ t.owners tile = 0 := by
  have := h.shared tile
  by_cases hf : t.tiles.IsFree tile <;> by_cases hc : tile < t.tiles.capacity <;>
    simp [hf, hc] at this ⊢ <;> omega

/-- The entries determine which tiles are free. -/
theorem Sound.tiles_eq (h : t.Sound) (h' : t'.Sound) (hentries : t.entries = t'.entries)
    (hcap : t.tiles.capacity = t'.tiles.capacity) : t.tiles = t'.tiles :=
  h.tiles.ext h'.tiles hcap fun tile => by
    rw [h.isFree_iff, h'.isFree_iff, hcap, owners, owners, hentries]

/-- Entries and object attribute memory determine the table. -/
theorem Sound.ext (h : t.Sound) (h' : t'.Sound) (hentries : t.entries = t'.entries)
    (hcap : t.tiles.capacity = t'.tiles.capacity) (hoam : t.oam = t'.oam) : t = t' := by
  have htiles := h.tiles_eq h' hentries hcap
  cases t
  cases t'
  simp_all

/-- A slot that is not in use has a blank entry. -/
theorem Sound.entry_of_unused (h : t.Sound) (hslot : t.isUsed slot = false) :
    t.entries[slot]? = if slot < t.entries.length then some {} else none := by
  split
  · rename_i hlt
    have he := List.getElem?_eq_getElem hlt
    have hfree : t.entries[slot].free = true := by simpa [isUsed_of_entry he] using hslot
    rw [he, h.blank _ (List.getElem_mem hlt) hfree]
  · rename_i hge
    exact List.getElem?_eq_none (Nat.not_lt.mp hge)

/-- Two entries that satisfy a predicate which holds at most once are the same entry. -/
theorem getElem?_unique {α : Type} {p : α → Bool} {l : List α} {i j : Nat} {a b : α}
    (h : l.countP p ≤ 1) (hi : l[i]? = some a) (hj : l[j]? = some b) (ha : p a) (hb : p b) :
    i = j := by
  by_contra hne
  obtain ⟨hlt, rfl⟩ := List.getElem?_eq_some_iff.mp hi
  have hrest : b ∈ l.eraseIdx i := List.mem_eraseIdx_iff_getElem?.mpr ⟨j, Ne.symm hne, hj⟩
  have hpos : 0 < (l.eraseIdx i).countP p := List.countP_pos_iff.mpr ⟨b, hrest, hb⟩
  rw [← (List.getElem_cons_eraseIdx_perm hlt).countP_eq, List.countP_cons_of_pos ha] at h
  omega

section Object

variable {i j x a b : Nat} {sa sb : ObjectSize}

private theorem owners_pos (hi : t.object? i = some (a, sa)) (hx : Zone.Covers ⟨a, sa.tiles⟩ x) :
    0 < t.owners x := by
  obtain ⟨e, he, hf, rfl, rfl⟩ := object?_eq_some.mp hi
  exact List.countP_pos_iff.mpr ⟨e, List.mem_of_getElem? he, decide_eq_true ⟨hf, hx⟩⟩

/-- A tile belongs to one slot only. -/
theorem Sound.object_unique (h : t.Sound) (hi : t.object? i = some (a, sa))
    (hj : t.object? j = some (b, sb)) (hxa : Zone.Covers ⟨a, sa.tiles⟩ x)
    (hxb : Zone.Covers ⟨b, sb.tiles⟩ x) : i = j := by
  obtain ⟨e, he, hf, rfl, rfl⟩ := object?_eq_some.mp hi
  obtain ⟨e', he', hf', rfl, rfl⟩ := object?_eq_some.mp hj
  have hle : t.owners x ≤ 1 := by
    have := h.shared x
    split at this <;> split at this <;> omega
  exact getElem?_unique hle he he' (decide_eq_true ⟨hf, hxa⟩) (decide_eq_true ⟨hf', hxb⟩)

/-- The tiles of an object are not free. -/
private theorem Sound.object_not_free (h : t.Sound) (hi : t.object? i = some (a, sa))
    (hx : Zone.Covers ⟨a, sa.tiles⟩ x) : ¬ t.tiles.IsFree x := fun hfree => by
  have := owners_pos hi hx
  have := ((h.isFree_iff x).mp hfree).2
  omega

/-- The tiles of an object are below the capacity. -/
theorem Sound.object_le (h : t.Sound) (hi : t.object? i = some (a, sa)) :
    a + sa.tiles ≤ t.tiles.capacity := by
  have hpos := sa.tiles_pos
  have howned := owners_pos (x := a + sa.tiles - 1) hi
    ⟨by change a ≤ _; omega, by change _ < a + sa.tiles; omega⟩
  have := h.shared (a + sa.tiles - 1)
  split at this <;> split at this <;> omega

/-- Slots in use are among those of the hardware. -/
theorem Sound.slot_lt (h : t.Sound) (hi : t.object? i = some (a, sa)) : i < 128 := by
  obtain ⟨e, he, -⟩ := object?_eq_some.mp hi
  obtain ⟨hlt, -⟩ := List.getElem?_eq_some_iff.mp he
  exact Nat.lt_of_lt_of_le hlt h.length_le

end Object

/-! ### Replacing one entry -/

private theorem isUsed_set (he : t.entries[slot]? = some e)
    (hentries : t'.entries = t.entries.set slot e') (i : Nat) :
    t'.isUsed i = if i = slot then !e'.free else t.isUsed i := by
  obtain ⟨hlt, -⟩ := List.getElem?_eq_some_iff.mp he
  rw [isUsed, hentries, List.getElem?_set]
  by_cases hi : i = slot
  · subst hi
    simp [hlt]
  · have hne : ¬ slot = i := fun h => hi h.symm
    simp [hi, hne, isUsed]

/-- Changing one entry leaves the objects of the others. -/
theorem object?_set (he : t.entries[slot]? = some e) (hentries : t'.entries = t.entries.set slot e')
    (i : Nat) : t'.object? i =
      if i = slot then if e'.free then none else some (e'.tile, e'.size) else t.object? i := by
  obtain ⟨hlt, -⟩ := List.getElem?_eq_some_iff.mp he
  rw [object?, hentries, List.getElem?_set]
  by_cases hi : i = slot
  · subst hi
    simp [hlt]
  · have hne : ¬ slot = i := fun h => hi h.symm
    simp [hi, hne, object?]

/-- What changes in the owners of a tile is what the entry owned before and owns afterwards. -/
private theorem owners_set (he : t.entries[slot]? = some e)
    (hentries : t'.entries = t.entries.set slot e') (tile : Nat) :
    t'.owners tile + (if e.Owns tile then 1 else 0) =
      t.owners tile + if e'.Owns tile then 1 else 0 := by
  obtain ⟨hlt, rfl⟩ := List.getElem?_eq_some_iff.mp he
  have hmem : (decide (t.entries[slot].Owns tile) = true) → 0 < t.entries.countP (·.Owns tile) :=
    fun h => List.countP_pos_iff.mpr ⟨_, List.getElem_mem hlt, h⟩
  rw [owners, hentries, List.countP_set hlt, owners]
  simp only [decide_eq_true_eq] at hmem ⊢
  split <;> split <;> grind

/-- One entry is replaced, and the tiles it owned or owns are free instead. -/
private theorem Sound.set (h : t.Sound) (he : t.entries[slot]? = some e)
    (hentries : t'.entries = t.entries.set slot e') (htiles : t'.tiles.Sound)
    (hcap : t'.tiles.capacity = t.tiles.capacity)
    (hshared : ∀ tile, (if e'.Owns tile then 1 else 0) + (if t'.tiles.IsFree tile then 1 else 0) =
      (if e.Owns tile then 1 else 0) + if t.tiles.IsFree tile then 1 else 0)
    (hblank : e'.free = true → e' = {})
    (hhidden : ∀ s : Fin 128, t'.isUsed s = false → t'.oam.words3 s = .hidden) : t'.Sound where
  length_le := by
    rw [hentries, List.length_set]
    exact h.length_le
  tiles := htiles
  shared tile := by
    have h1 := h.shared tile
    have h2 := hshared tile
    have h3 := owners_set he hentries tile
    rw [hcap]
    omega
  blank a ha hfree := by
    rw [hentries] at ha
    rcases List.mem_or_eq_of_mem_set ha with ha | rfl
    · exact h.blank a ha hfree
    · exact hblank hfree
  hidden := hhidden

/-! ### Taking a slot -/

/-- What taking a slot leads to: either nothing has changed, or a free slot has got the entry of an
object of the given size. -/
def Takes (t : SlotTable) (size : ObjectSize) : Except PoolError Nat × SlotTable → Prop
  | (.error cause, t') => t' = t ∧ (cause = .outOfSlots ∨ cause = .outOfTiles)
  | (.ok slot, t') => t'.Sound ∧ t'.tiles.capacity = t.tiles.capacity ∧ t'.oam = t.oam ∧
      slot < t.entries.length ∧ t.isUsed slot = false ∧
      ∃ tile, t'.entries = t.entries.set slot { free := false, tile, size }

/-- Taking a slot has an answer. The tiles that come with it were free, so they have no second
owner. -/
theorem take_spec (h : t.Sound) (size : ObjectSize) : (t.take size).Yields (t.Takes size) := by
  rw [take]
  cases hslot : t.entries.findIdx? (·.free) with
  | none => exact .note_bind id (.pure ⟨rfl, .inl rfl⟩)
  | some slot =>
    obtain ⟨hlt, hfree, -⟩ := List.findIdx?_eq_some_iff_getElem.mp hslot
    have he : t.entries[slot]? = some t.entries[slot] := List.getElem?_eq_getElem hlt
    rcases TilePool.reserve_spec h.tiles size.tiles_pos with
      ⟨hfull, -⟩ | ⟨tile, p, hp, hsound, hcap, ⟨hwas, -⟩, hnow⟩
    · exact .lift_bind hfull (.pure ⟨rfl, .inr rfl⟩)
    · refine .lift_bind hp (.note_bind id (.pure ?_))
      have hunused : t.isUsed slot = false := by rw [isUsed_of_entry he, hfree]; rfl
      refine ⟨?_, hcap, rfl, hlt, hunused, tile, rfl⟩
      refine h.set he rfl hsound hcap (fun x => ?_) (fun hf => absurd hf (by simp)) fun s hs => ?_
      · have hx := hnow x
        have hx' := hwas x
        simp only [SlotEntry.Owns, hfree]
        grind
      · rw [isUsed_set he rfl] at hs
        split at hs
        · simp at hs
        · exact h.hidden s hs

/-! ### Giving a slot back -/

/-- The table after giving back the slots of a list. -/
structure Freed (t : SlotTable) (slots : List Nat) (t' : SlotTable) : Prop where
  sound : t'.Sound
  capacity : t'.tiles.capacity = t.tiles.capacity
  entries : ∀ i, t'.entries[i]? =
    if i ∈ slots then t.entries[i]?.map fun _ => {} else t.entries[i]?
  words : ∀ s : Fin 128, t'.oam.words3 s = if s.val ∈ slots then .hidden else t.oam.words3 s
  matrix : ∀ g, t'.oam.matrix g = t.oam.matrix g

theorem Freed.nil (h : t.Sound) : Freed t [] t :=
  ⟨h, rfl, fun i => by simp, fun s => by simp, fun g => rfl⟩

theorem Freed.cons {slots : List Nat} {t₁ : SlotTable} (h : Freed t [slot] t₁)
    (h' : Freed t₁ slots t') : Freed t (slot :: slots) t' where
  sound := h'.sound
  capacity := h'.capacity.trans h.capacity
  entries i := by
    rw [h'.entries, h.entries]
    by_cases hi : i = slot <;> by_cases hs : i ∈ slots <;> simp [hi, hs, Function.comp_def]
  words s := by
    rw [h'.words, h.words]
    by_cases hi : s.val = slot <;> by_cases hs : s.val ∈ slots <;> simp [hi, hs]
  matrix g := (h'.matrix g).trans (h.matrix g)

theorem Freed.length {slots : List Nat} (h : Freed t slots t') :
    t'.entries.length = t.entries.length := by
  have hnone : ∀ i : Nat, t'.entries[i]? = none ↔ t.entries[i]? = none := by
    intro i
    rw [h.entries]
    split <;> simp
  have hle := (hnone t.entries.length).mpr (List.getElem?_eq_none (Nat.le_refl _))
  have hge := (hnone t'.entries.length).mp (List.getElem?_eq_none (Nat.le_refl _))
  rw [List.getElem?_eq_none_iff] at hle hge
  omega

/-- The slots that are given back are free, and the others as before. -/
theorem Freed.isUsed {slots : List Nat} (h : Freed t slots t') (i : Nat) :
    t'.isUsed i = (t.isUsed i && decide (i ∉ slots)) := by
  rw [SlotTable.isUsed, h.entries, SlotTable.isUsed]
  by_cases hi : i ∈ slots
  · cases t.entries[i]? <;> simp [hi]
  · simp [hi]

theorem Freed.object {slots : List Nat} (h : Freed t slots t') {i : Nat} (hi : i ∉ slots) :
    t'.object? i = t.object? i := by
  rw [object?, h.entries, if_neg hi, object?]

/-- A slot that is not in use, or does not exist, may be given back: it is blank and hidden. -/
private theorem Freed.unused (h : t.Sound) (hslot : t.isUsed slot = false) : Freed t [slot] t := by
  refine ⟨h, rfl, fun i => ?_, fun s => ?_, fun g => rfl⟩
  · by_cases hi : i = slot
    · subst hi
      cases he : t.entries[i]? with
      | none => simp
      | some e =>
        have hfree : e.free = true := by simpa [isUsed_of_entry he] using hslot
        simp [h.blank e (List.mem_of_getElem? he) hfree]
    · simp [hi]
  · by_cases hs : s.val = slot
    · simp [hs, h.hidden s (hs ▸ hslot)]
    · simp [hs]

/-- A slot in use is given back: its tiles are free, its entry is blank and its object is hidden. -/
private theorem Freed.used {p : TilePool} (h : t.Sound) (he : t.entries[slot]? = some e)
    (hf : e.free = false) (hlt : slot < 128) (hsound : p.Sound)
    (hcap : p.capacity = t.tiles.capacity)
    (hnow : ∀ x, p.IsFree x ↔ Zone.Covers ⟨e.tile, e.size.tiles⟩ x ∨ t.tiles.IsFree x) :
    Freed t [slot] { entries := t.entries.set slot {}, tiles := p,
                     oam := t.oam.setWords3 ⟨slot, hlt⟩ .hidden } := by
  have hobject : t.object? slot = some (e.tile, e.size) :=
    object?_eq_some.mpr ⟨e, he, hf, rfl, rfl⟩
  have hwords : ∀ s : Fin 128, (t.oam.setWords3 ⟨slot, hlt⟩ .hidden).words3 s =
      if s.val = slot then .hidden else t.oam.words3 s := by
    intro s
    rw [Oam.words3_setWords3]
    exact if_congr Fin.ext_iff rfl rfl
  refine ⟨?_, hcap, fun i => ?_, fun s => ?_, fun g => Oam.matrix_setWords3 ..⟩
  · refine h.set he rfl hsound hcap (fun x => ?_) (fun _ => rfl) fun s hs => ?_
    · have hx := hnow x
      have hx' := h.object_not_free (x := x) hobject
      simp only [SlotEntry.Owns, hf]
      grind
    · rw [isUsed_set he rfl] at hs
      rw [hwords]
      split
      · rfl
      · rename_i hne
        rw [if_neg hne] at hs
        exact h.hidden s hs
  · rw [List.getElem?_set]
    by_cases hi : i = slot
    · subst hi
      obtain ⟨hlt', -⟩ := List.getElem?_eq_some_iff.mp he
      simp [hlt']
    · have hne : ¬ slot = i := fun h => hi h.symm
      simp [hi, hne]
  · rw [hwords]
    exact if_congr List.mem_singleton.symm rfl rfl

/-- Freeing a slot cannot fail: the pool takes back its tiles, because none of them is free. -/
theorem free_spec (h : t.Sound) (slot : Nat) : (t.free slot).Yields (Freed t [slot]) := by
  rw [free]
  cases he : t.entries[slot]? with
  | none => exact .pure (.unused h (by simp [isUsed, he]))
  | some e =>
    by_cases hf : e.free = true
    · simp only [hf, if_true]
      exact .pure (.unused h (by simp [isUsed, he, hf]))
    · rw [Bool.not_eq_true] at hf
      have hobject : t.object? slot = some (e.tile, e.size) :=
        object?_eq_some.mpr ⟨e, he, hf, rfl, rfl⟩
      have hlt := h.slot_lt hobject
      -- nobody else has the tiles, so that they are not free yet and can be given back
      obtain ⟨p, hp, hsound, hcap, hnow⟩ := TilePool.release_spec h.tiles e.size.tiles_pos
        (h.object_le hobject) fun x => h.object_not_free hobject
      simp only [hf, Bool.false_eq_true, if_false]
      refine .lift_bind (Oam.write_of_lt _ hlt) (.lift_bind hp ?_)
      simp only [pure_bind]
      exact .note_bind id (.pure (.used h he hf hlt hsound hcap hnow))

/-- Slots can be given back one after the other. -/
theorem freeAll_spec (h : t.Sound) (slots : List Nat) :
    (t.freeAll slots).Yields (Freed t slots) := by
  induction slots generalizing t with
  | nil => exact .pure (.nil h)
  | cons slot slots ih =>
    rw [freeAll, List.foldlM_cons]
    refine (free_spec h slot).bind fun t₁ h₁ => ?_
    exact (ih h₁.sound).mono fun t' h' => h₁.cons h'

/-! ### Describing objects -/

/-- The table after the objects of some slots were described anew and the linear maps of some groups
were written. Which slots are in use, and for what objects, has not changed. -/
structure Redrawn (t : SlotTable) (slots groups : List Nat) (t' : SlotTable) : Prop where
  sound : t'.Sound
  tiles : t'.tiles = t.tiles
  length : t'.entries.length = t.entries.length
  object : ∀ i, t'.object? i = t.object? i
  entries : ∀ i, i ∉ slots → t'.entries[i]? = t.entries[i]?
  words : ∀ s : Fin 128, s.val ∉ slots → t'.oam.words3 s = t.oam.words3 s
  matrix : ∀ g : Fin 32, g.val ∉ groups → t'.oam.matrix g = t.oam.matrix g

theorem Redrawn.refl (h : t.Sound) (slots groups : List Nat) : Redrawn t slots groups t :=
  ⟨h, rfl, rfl, fun _ => rfl, fun _ _ => rfl, fun _ _ => rfl, fun _ _ => rfl⟩

/-- Changes that follow each other, to slots among `all` and groups among `every`. -/
theorem Redrawn.trans {slots slots' groups groups' all every : List Nat} {t₁ : SlotTable}
    (h : Redrawn t slots groups t₁) (h' : Redrawn t₁ slots' groups' t') (hslots : slots ⊆ all)
    (hslots' : slots' ⊆ all) (hgroups : groups ⊆ every) (hgroups' : groups' ⊆ every) :
    Redrawn t all every t' where
  sound := h'.sound
  tiles := h'.tiles.trans h.tiles
  length := h'.length.trans h.length
  object i := (h'.object i).trans (h.object i)
  entries i hi :=
    (h'.entries i fun hm => hi (hslots' hm)).trans (h.entries i fun hm => hi (hslots hm))
  words s hs :=
    (h'.words s fun hm => hs (hslots' hm)).trans (h.words s fun hm => hs (hslots hm))
  matrix g hg :=
    (h'.matrix g fun hm => hg (hgroups' hm)).trans (h.matrix g fun hm => hg (hgroups hm))

theorem Redrawn.isUsed {slots groups : List Nat} (h : Redrawn t slots groups t') (i : Nat) :
    t'.isUsed i = t.isUsed i := by
  rw [← isSome_object?, ← isSome_object?, h.object]

theorem Redrawn.cons {slots : List Nat} {t₁ : SlotTable} (h : Redrawn t [slot] [] t₁)
    (h' : Redrawn t₁ slots [] t') : Redrawn t (slot :: slots) [] t' :=
  h.trans h' (List.cons_subset.mpr ⟨List.mem_cons_self, List.nil_subset _⟩)
    (List.subset_cons_self ..) (List.Subset.refl _) (List.Subset.refl _)

/-- The objects of the slots in a list have got the attributes that `attrs` gives for the place in
the list and the entry, and their descriptors say so. -/
def Written (t : SlotTable) (slots : List Nat) (attrs : Nat → SlotEntry → Attributes)
    (t' : SlotTable) : Prop :=
  ∀ (k slot : Nat) entry, slots[k]? = some slot → t.entries[slot]? = some entry →
    t'.entries[slot]? = some { entry with attrs := attrs k entry } ∧
      ∀ s : Fin 128, s.val = slot → t'.oam.words3 s = (attrs k entry).encode

theorem Written.nil {attrs : Nat → SlotEntry → Attributes} : Written t [] attrs t' :=
  fun _ _ _ hk => absurd hk (by simp)

/-- One slot is described and then others, none of which is the same. -/
theorem Written.cons {slots : List Nat} {attrs : Nat → SlotEntry → Attributes} {t₁ : SlotTable}
    (he : t.entries[slot]? = some e) (hfirst : Redrawn t [slot] [] t₁)
    (h : Written t [slot] (fun _ _ => attrs 0 e) t₁) (hrest : Redrawn t₁ slots [] t')
    (h' : Written t₁ slots (fun k => attrs (k + 1)) t') (hnew : slot ∉ slots) :
    Written t (slot :: slots) attrs t' := by
  rintro (_ | k) i entry hk hentry
  · obtain rfl : slot = i := by simpa using hk
    obtain rfl : e = entry := Option.some.inj (he.symm.trans hentry)
    obtain ⟨hentry', hwords⟩ := h 0 slot e rfl he
    refine ⟨(hrest.entries slot hnew).trans hentry', fun s hs => ?_⟩
    rw [hrest.words s (hs ▸ hnew), hwords s hs]
  · have hk' : slots[k]? = some i := by simpa using hk
    have hne : i ∉ [slot] := fun hi =>
      hnew (List.mem_singleton.mp hi ▸ List.mem_of_getElem? hk')
    exact h' k i entry hk' ((hfirst.entries i hne).trans hentry)

/-- The descriptor of a slot in use can be written. -/
theorem describe_spec (h : t.Sound) (hslot : t.isUsed slot = true) (attrs : Attributes) :
    ∃ t', t.describe slot attrs = .ok t' ∧ Redrawn t [slot] [] t' ∧
      Written t [slot] (fun _ _ => attrs) t' := by
  obtain ⟨e, he, hf⟩ := exists_entry hslot
  have hlt := h.slot_lt (object?_eq_some.mpr ⟨e, he, hf, rfl, rfl⟩)
  let t' : SlotTable :=
    { t with
      entries := t.entries.set slot { e with attrs }
      oam := t.oam.setWords3 ⟨slot, hlt⟩ attrs.encode }
  have hentries : t'.entries = t.entries.set slot { e with attrs } := rfl
  have hobjects : ∀ i, t'.object? i = t.object? i := fun i => by
    rw [object?_set he hentries]
    split
    · rename_i hi
      simp [hi, object?, he]
    · rfl
  have hwords : ∀ s : Fin 128, s.val ≠ slot → t'.oam.words3 s = t.oam.words3 s := fun s hs => by
    rw [Oam.words3_setWords3, if_neg fun heq => hs (congrArg Fin.val heq)]
  refine ⟨t', ?_, ⟨?_, rfl, ?_, hobjects, fun i hi => ?_, fun s hs => ?_,
    fun g _ => Oam.matrix_setWords3 ..⟩, ?_⟩
  · rw [describe, he]
    change (t.oam.write slot attrs.encode >>= fun oam => _) = _
    rw [Oam.write_of_lt _ hlt]
    rfl
  · refine h.set he hentries h.tiles rfl (fun tile => rfl) (fun hfree => ?_) fun s hs => ?_
    · exact absurd (hfree.symm.trans hf) (by simp)
    · have hs' : t.isUsed s = false := by
        rw [← isSome_object?, ← hobjects, isSome_object?, hs]
      rw [hwords s fun heq => by simp [heq, hslot] at hs', h.hidden s hs']
  · rw [hentries, List.length_set]
  · rw [hentries, List.getElem?_set_ne fun heq => hi (by simp [heq])]
  · exact hwords s (by simpa using hs)
  · rintro k i entry hk hentry
    obtain rfl : i = slot := by simpa using List.mem_of_getElem? hk
    obtain rfl : e = entry := Option.some.inj (he.symm.trans hentry)
    obtain ⟨hlength, -⟩ := List.getElem?_eq_some_iff.mp he
    refine ⟨by rw [hentries, List.getElem?_set_self hlength], fun s hs => ?_⟩
    rw [Oam.words3_setWords3, if_pos (Fin.ext hs)]

/-- Writing a linear map leaves the slots alone. -/
theorem Redrawn.setMatrix (h : t.Sound) (g : Fin 32) (a : AffineMatrix) :
    Redrawn t [] [g.val] { t with oam := t.oam.setMatrix g a } where
  sound := ⟨h.length_le, h.tiles, h.shared, h.blank, fun s hs => by
    rw [Oam.words3_setMatrix]
    exact h.hidden s hs⟩
  tiles := rfl
  length := rfl
  object _ := rfl
  entries _ _ := rfl
  words s _ := Oam.words3_setMatrix ..
  matrix g' hg' := by
    rw [Oam.matrix_setMatrix, if_neg fun heq => hg' (by simp [heq])]

/-! ### A grid of slots -/

/-- The table `t` is `t₀` after the given slots were taken for objects of the given sizes. -/
structure Taken (t₀ : SlotTable) (slots : List Nat) (sizes : List ObjectSize) (t : SlotTable) :
    Prop where
  sound : t.Sound
  capacity : t.tiles.capacity = t₀.tiles.capacity
  oam : t.oam = t₀.oam
  length : t.entries.length = t₀.entries.length
  /-- Other entries have not changed. -/
  entries : ∀ i, i ∉ slots → t.entries[i]? = t₀.entries[i]?
  unused : ∀ i ∈ slots, t₀.isUsed i = false
  nodup : slots.Nodup
  objects : List.Forall₂
    (fun slot size => ∃ tile, t.entries[slot]? = some { free := false, tile, size }) slots sizes

theorem Taken.nil (h : t.Sound) : Taken t [] [] t :=
  ⟨h, rfl, rfl, rfl, fun _ _ => rfl, fun _ hi => absurd hi List.not_mem_nil, .nil, .nil⟩

variable {slots : List Nat} {sizes : List ObjectSize} {size : ObjectSize}

private theorem Taken.isUsed_of_mem (h : Taken t₀ slots sizes t) (hslot : slot ∈ slots) :
    t.isUsed slot = true := by
  obtain ⟨k, hk, rfl⟩ := List.mem_iff_getElem.mp hslot
  obtain ⟨hlength, hobjects⟩ := List.forall₂_iff_get.mp h.objects
  obtain ⟨tile, he⟩ := hobjects k hk (hlength ▸ hk)
  rw [List.get_eq_getElem] at he
  simp [isUsed_of_entry he]

/-- The slots that were taken are in use, and the others as before. -/
theorem Taken.isUsed (h : Taken t₀ slots sizes t) (i : Nat) :
    t.isUsed i = (t₀.isUsed i || decide (i ∈ slots)) := by
  by_cases hi : i ∈ slots
  · simp [h.isUsed_of_mem hi, hi]
  · simp [SlotTable.isUsed, h.entries i hi, hi]

/-- The slots that were in use before have kept their objects. -/
theorem Taken.object (h : Taken t₀ slots sizes t) (hslot : t₀.isUsed slot = true) :
    t.object? slot = t₀.object? slot := by
  have hnew : slot ∉ slots := by
    intro hmem
    simp [h.unused slot hmem] at hslot
  rw [object?, h.entries slot hnew, object?]

/-- One more slot is taken. -/
private theorem Taken.snoc (h : Taken t₀ slots sizes t) (ht : t.Takes size (.ok slot, t')) :
    Taken t₀ (slots ++ [slot]) (sizes ++ [size]) t' := by
  obtain ⟨hsound, hcap, hoam, hlt, hfree, tile, hentries⟩ := ht
  have hnew : slot ∉ slots := fun hmem => by simp [h.isUsed_of_mem hmem] at hfree
  have hkeep : ∀ i, i ≠ slot → t'.entries[i]? = t.entries[i]? := fun i hi => by
    rw [hentries, List.getElem?_set_ne (Ne.symm hi)]
  refine ⟨hsound, hcap.trans h.capacity, hoam.trans h.oam, ?_, fun i hi => ?_, fun i hi => ?_,
    ?_, ?_⟩
  · rw [hentries, List.length_set, h.length]
  · rw [List.mem_append, List.mem_singleton, not_or] at hi
    rw [hkeep i hi.2, h.entries i hi.1]
  · rcases List.mem_append.mp hi with hi | hi
    · exact h.unused i hi
    · rw [List.mem_singleton.mp hi, SlotTable.isUsed, ← h.entries slot hnew]
      exact hfree
  · refine List.nodup_append.mpr ⟨h.nodup, by simp, ?_⟩
    rintro a ha b hb rfl
    exact hnew (List.mem_singleton.mp hb ▸ ha)
  · -- the slots taken before keep their entries, as the new one is not among them
    refine List.rel_append ?_ (.cons ⟨tile, by rw [hentries, List.getElem?_set_self hlt]⟩ .nil)
    have hne : ∀ i ∈ slots, i ≠ slot := fun i hi heq => hnew (heq ▸ hi)
    refine ((List.forall₂_and_left ..).mpr ⟨hne, h.objects⟩).imp ?_
    rintro i _ ⟨hi, tile, he⟩
    exact ⟨tile, by rw [hkeep i hi, he]⟩

/-- Giving back what was taken leads back to the table from before. -/
theorem Taken.undo (h : Taken t₀ slots sizes t) (h₀ : t₀.Sound) (ht : Freed t slots t') :
    t' = t₀ := by
  refine ht.sound.ext h₀ (List.ext_getElem? fun i => ?_) (ht.capacity.trans h.capacity) ?_
  · rw [ht.entries]
    by_cases hi : i ∈ slots
    · -- a slot that could be taken was blank, like one that was given back
      rw [if_pos hi, h₀.entry_of_unused (h.unused i hi), ← h.length]
      by_cases hlt : i < t.entries.length <;> simp [hlt]
    · rw [if_neg hi, h.entries i hi]
  · refine Oam.ext_tables (fun s => ?_) fun g => ?_
    · rw [ht.words, h.oam]
      split
      · rename_i hs
        exact (h₀.hidden s (h.unused s hs)).symm
      · rfl
    · rw [ht.matrix, h.oam]

/-- What taking the slots for a list of sizes leads to: either nothing has changed, or there is a
slot for each size. -/
def TakesAll (t₀ : SlotTable) (sizes : List ObjectSize) :
    Except PoolError (List Nat) × SlotTable → Prop
  | (.error cause, t) => t = t₀ ∧ (cause = .outOfSlots ∨ cause = .outOfTiles)
  | (.ok slots, t) => Taken t₀ slots sizes t

/-- The induction along the sizes. The table at the start is `t₀`, and there are slots for the sizes
of `done` already. -/
private theorem takeRest_spec (done rest : List ObjectSize) (h₀ : t₀.Sound)
    (h : Taken t₀ slots done t) (hroom : done.length + rest.length ≤ 128) :
    (t.takeRest slots rest).Yields (TakesAll t₀ (done ++ rest)) := by
  induction rest generalizing t slots done with
  | nil => exact .pure (by simpa [TakesAll] using h)
  | cons size rest ih =>
    rw [List.length_cons] at hroom
    rw [takeRest]
    refine (take_spec h.sound size).bind ?_
    rintro ⟨cause | slot, t'⟩ ht
    · obtain ⟨rfl, hcause⟩ := ht
      refine .note_bind id ?_
      exact (freeAll_spec h.sound slots).bind fun t' ht' => .pure ⟨h.undo h₀ ht', hcause⟩
    · have hlength := h.objects.length_eq
      refine .lift_bind (if_pos (by omega)) ?_
      have hnext := ih (done ++ [size]) (h.snoc ht)
        (by rw [List.length_append, List.length_singleton]; omega)
      simpa using hnext

/-- The slots for the cells of a grid are taken, or the table has not changed. -/
theorem takeGrid_spec (h : t.Sound) (g : Grid) : (t.takeGrid g).Yields (TakesAll t g.sizes) := by
  rw [takeGrid]
  split
  · exact .pure ⟨rfl, .inl rfl⟩
  · refine takeRest_spec [] g.sizes h (.nil h) ?_
    rw [Grid.length_sizes, Nat.mul_comm, List.length_nil]
    omega

end SlotTable

end SpriteEngine
