import Mathlib.Data.List.Sort
import SpriteEngine.Proofs.Bitmap
import SpriteEngine.Proofs.Slots

/-!
# First fit

A slot that is taken is the first one that is free, and its tiles are the first run of free tiles
that is long enough. `SlotTable.take_cases` says this of one slot, together with the exact reasons
for taking none. Nothing is assumed about the entries of the table: they need not own the tiles that
are in use.

`SlotTable.TakenFirst` is what follows for several slots, one after the other. The slots taken are
the first of those that were free (`SlotTable.freeSlots`), in ascending order, and every tile that
was free is either free still or belongs to exactly one of the new objects.
-/

namespace SpriteEngine

namespace SlotTable

variable {t t' t₀ : SlotTable} {slot tile i : Nat} {e : SlotEntry} {size : ObjectSize}

/-! ### The free slots -/

/-- The free slots, in ascending order. -/
def freeSlots (t : SlotTable) : List Nat :=
  (List.range t.entries.length).filter fun i => t.entries[i]?.any (·.free)

/-- The free slots are those whose entry is marked so. -/
theorem mem_freeSlots : i ∈ t.freeSlots ↔ ∃ e, t.entries[i]? = some e ∧ e.free = true := by
  rw [freeSlots, List.mem_filter, List.mem_range]
  cases he : t.entries[i]? with
  | none => simp
  | some e =>
    obtain ⟨hlt, -⟩ := List.getElem?_eq_some_iff.mp he
    simp [hlt]

/-- Free slots are listed in order. -/
theorem pairwise_freeSlots (t : SlotTable) : t.freeSlots.Pairwise (· < ·) :=
  List.pairwise_lt_range.filter _

theorem length_freeSlots_le (t : SlotTable) : t.freeSlots.length ≤ t.entries.length := by
  have hle := List.length_filter_le (fun i => t.entries[i]?.any (·.free))
    (List.range t.entries.length)
  rwa [List.length_range] at hle

private theorem freeSlots_eq_nil (h : t.entries.findIdx? (·.free) = none) : t.freeSlots = [] := by
  rw [List.eq_nil_iff_forall_not_mem]
  intro i hi
  obtain ⟨e, he, hfree⟩ := mem_freeSlots.mp hi
  simp [List.findIdx?_eq_none_iff.mp h e (List.mem_of_getElem? he)] at hfree

/-- The first free slot gets the entry of a slot in use, and the others are free still. -/
private theorem freeSlots_eq_cons (h : t.entries.findIdx? (·.free) = some slot)
    (he : e.free = false) (hentries : t'.entries = t.entries.set slot e) :
    t.freeSlots = slot :: t'.freeSlots := by
  obtain ⟨hlt, hfree, hfirst⟩ := List.findIdx?_eq_some_iff_getElem.mp h
  have hslot : slot ∈ t.freeSlots := mem_freeSlots.mpr ⟨_, List.getElem?_eq_getElem hlt, hfree⟩
  have hmem : ∀ i, i ∈ t'.freeSlots ↔ i ≠ slot ∧ i ∈ t.freeSlots := by
    intro i
    rw [mem_freeSlots, mem_freeSlots, hentries, List.getElem?_set]
    by_cases hi : slot = i
    · subst hi
      simp [hlt, he]
    · simp [hi, Ne.symm hi]
  have hle : ∀ i ∈ t.freeSlots, slot ≤ i := by
    intro i hi
    obtain ⟨e', he', hfree'⟩ := mem_freeSlots.mp hi
    obtain ⟨hlt', rfl⟩ := List.getElem?_eq_some_iff.mp he'
    by_contra hlt
    simp [hfirst i (Nat.not_le.mp hlt)] at hfree'
  refine t.pairwise_freeSlots.eq_of_mem_iff
    (List.pairwise_cons.mpr ⟨fun i hi => ?_, t'.pairwise_freeSlots⟩) fun i => ?_
  · obtain ⟨hne, hi⟩ := (hmem i).mp hi
    exact Nat.lt_of_le_of_ne (hle i hi) (Ne.symm hne)
  · rw [List.mem_cons, hmem]
    by_cases hi : i = slot
    · simp [hi, hslot]
    · simp [hi]

/-! ### One slot -/

/-- All `n` tiles from tile `start` on are free. -/
def HasRun (t : SlotTable) (start n : Nat) : Prop :=
  ∀ x, Zone.Covers ⟨start, n⟩ x → t.tiles.IsFree x

/-- The table `t'` is `t` after the first free slot was taken for an object of the given size, with
the first run of tiles that has room for it. -/
structure TakesFirst (t : SlotTable) (size : ObjectSize) (slot tile : Nat) (t' : SlotTable) :
    Prop where
  sound : t'.tiles.Sound
  capacity : t'.tiles.capacity = t.tiles.capacity
  oam : t'.oam = t.oam
  freeSlots : t.freeSlots = slot :: t'.freeSlots
  entries : t'.entries = t.entries.set slot { free := false, tile, size }
  first : IsLeast { start | t.HasRun start size.tiles } tile
  isFree : ∀ x, t'.tiles.IsFree x ↔ t.tiles.IsFree x ∧ ¬ Zone.Covers ⟨tile, size.tiles⟩ x

/-- All that taking a slot can lead to, and why. -/
theorem take_cases (h : t.tiles.Sound) (size : ObjectSize) : (t.take size).Yields fun r =>
    (r = (.error .outOfSlots, t) ∧ t.freeSlots = []) ∨
    (r = (.error .outOfTiles, t) ∧ ∀ start, ¬ t.HasRun start size.tiles) ∨
    ∃ slot tile t', r = (.ok slot, t') ∧ t.TakesFirst size slot tile t' := by
  rw [take]
  cases hslot : t.entries.findIdx? (·.free) with
  | none => exact .note_bind id (.pure (.inl ⟨rfl, freeSlots_eq_nil hslot⟩))
  | some slot =>
    rcases TilePool.reserve_spec h size.tiles_pos with
      ⟨hfull, hnone⟩ | ⟨tile, p, hp, hsound, hcap, hfirst, hnow⟩
    · exact .lift_bind hfull (.pure (.inr (.inl ⟨rfl, hnone⟩)))
    · refine .lift_bind hp (.note_bind id (.pure (.inr (.inr ⟨slot, tile, _, rfl, ?_⟩))))
      exact ⟨hsound, hcap, rfl, freeSlots_eq_cons hslot rfl rfl, rfl, hfirst, hnow⟩

private theorem TakesFirst.slot_lt (h : t.TakesFirst size slot tile t') :
    slot < t.entries.length := by
  have hslot : slot ∈ t.freeSlots := h.freeSlots ▸ List.mem_cons_self
  obtain ⟨e, he, -⟩ := mem_freeSlots.mp hslot
  exact (List.getElem?_eq_some_iff.mp he).1

/-- The tiles of the new object have left the free tiles. -/
private theorem TakesFirst.card_freeTiles (h : t.TakesFirst size slot tile t')
    (ht : t.tiles.Sound) : t.tiles.freeTiles.card = t'.tiles.freeTiles.card + size.tiles :=
  ht.card_freeTiles h.sound h.first.1 h.isFree

/-! ### Several slots -/

/-- The tile belongs to an object with the given first tile and size. -/
def Occupies (object : Nat × ObjectSize) (x : Nat) : Prop :=
  Zone.Covers ⟨object.1, object.2.tiles⟩ x

instance (object : Nat × ObjectSize) (x : Nat) : Decidable (Occupies object x) :=
  inferInstanceAs (Decidable (Zone.Covers _ x))

/-- The table `t` is `t₀` after the given slots were taken for the given objects, the first free
slots there were. -/
structure TakenFirst (t₀ : SlotTable) (slots : List Nat) (objects : List (Nat × ObjectSize))
    (t : SlotTable) : Prop where
  sound : t.tiles.Sound
  freeSlots : t₀.freeSlots = slots ++ t.freeSlots
  /-- Other entries have not changed. -/
  entries : ∀ i, i ∉ slots → t.entries[i]? = t₀.entries[i]?
  object : List.Forall₂ (fun slot object => t.object? slot = some object) slots objects
  /-- A tile that was free is free still or belongs to one of the objects, and no other does. -/
  shared : ∀ x, objects.countP (Occupies · x) + (if t.tiles.IsFree x then 1 else 0) =
    if t₀.tiles.IsFree x then 1 else 0
  units : t₀.tiles.freeTiles.card =
    t.tiles.freeTiles.card + (objects.map fun object => object.2.tiles).sum

theorem TakenFirst.nil (h : t.tiles.Sound) : TakenFirst t [] [] t where
  sound := h
  freeSlots := rfl
  entries _ _ := rfl
  object := .nil
  shared _ := by rw [List.countP_nil, Nat.zero_add]
  units := rfl

variable {slots taken : List Nat} {objects : List (Nat × ObjectSize)} {sizes : List ObjectSize}

/-- One more slot is taken. -/
private theorem TakenFirst.snoc (h : TakenFirst t₀ slots objects t)
    (ht : t.TakesFirst size slot tile t') :
    TakenFirst t₀ (slots ++ [slot]) (objects ++ [(tile, size)]) t' := by
  have hfree : t₀.freeSlots = slots ++ [slot] ++ t'.freeSlots := by
    rw [h.freeSlots, ht.freeSlots, List.append_assoc, List.singleton_append]
  have hnew : slot ∉ slots := by
    have hnodup : t₀.freeSlots.Nodup := t₀.pairwise_freeSlots.imp Nat.ne_of_lt
    rw [hfree, List.append_assoc, List.nodup_append] at hnodup
    exact fun hmem => hnodup.2.2 slot hmem slot (by simp) rfl
  obtain ⟨e, he⟩ : ∃ e, t.entries[slot]? = some e := ⟨_, List.getElem?_eq_getElem ht.slot_lt⟩
  have hobject := object?_set he ht.entries
  refine ⟨ht.sound, hfree, fun i hi => ?_, ?_, fun x => ?_, ?_⟩
  · rw [List.mem_append, List.mem_singleton, not_or] at hi
    rw [ht.entries, List.getElem?_set_ne (Ne.symm hi.2), h.entries i hi.1]
  · -- the slots taken before keep their objects, as the new one is not among them
    refine List.rel_append ?_ (.cons (by simp [hobject]) .nil)
    have hne : ∀ i ∈ slots, i ≠ slot := fun i hi heq => hnew (heq ▸ hi)
    refine ((List.forall₂_and_left ..).mpr ⟨hne, h.object⟩).imp ?_
    rintro i object ⟨hi, hobject'⟩
    rw [hobject, if_neg hi, hobject']
  · have hx := h.shared x
    have hx' := ht.isFree x
    have hwas : Occupies (tile, size) x → t.tiles.IsFree x := ht.first.1 x
    rw [List.countP_append, List.countP_singleton, ← hx]
    simp only [Occupies] at *
    grind
  · rw [h.units, ht.card_freeTiles h.sound, List.map_append, List.sum_append, List.map_singleton,
      List.sum_singleton, Nat.add_assoc, Nat.add_comm size.tiles]

private theorem eq_of_push (h : push taken slot = .ok slots) : slots = taken ++ [slot] := by
  rw [push] at h
  split at h
  · exact (Except.ok.inj h).symm
  · simp at h

/-- Slots that were taken one after the other for objects of the given sizes are the first ones. -/
private theorem takeRest_takenFirst (h : TakenFirst t₀ taken objects t)
    (htake : (t.takeRest taken sizes).outcome = .ok (.ok slots, t')) :
    ∃ objects', objects'.map Prod.snd = sizes ∧ TakenFirst t₀ slots (objects ++ objects') t' := by
  induction sizes generalizing t taken objects with
  | nil =>
    obtain ⟨rfl, rfl⟩ : taken = slots ∧ t = t' := by simpa [takeRest, Traced.pure_def] using htake
    exact ⟨[], rfl, by rwa [List.append_nil]⟩
  | cons size sizes ih =>
    rw [takeRest] at htake
    obtain ⟨⟨answer, t₁⟩, hfirst, hrest⟩ := Traced.exists_of_outcome_bind htake
    obtain ⟨heq, -⟩ | ⟨heq, -⟩ | ⟨slot, tile, t₂, heq, ht⟩ :=
      (take_cases h.sound size).of_outcome hfirst
    -- in the first two cases what was taken is given back, and there are no slots to return
    · obtain ⟨rfl, rfl⟩ := Prod.mk.inj heq
      obtain ⟨_, -, hrest⟩ := Traced.exists_of_outcome_bind hrest
      obtain ⟨_, -, hrest⟩ := Traced.exists_of_outcome_bind hrest
      simp [Traced.pure_def] at hrest
    · obtain ⟨rfl, rfl⟩ := Prod.mk.inj heq
      obtain ⟨_, -, hrest⟩ := Traced.exists_of_outcome_bind hrest
      obtain ⟨_, -, hrest⟩ := Traced.exists_of_outcome_bind hrest
      simp [Traced.pure_def] at hrest
    · obtain ⟨rfl, rfl⟩ := Prod.mk.inj heq
      obtain ⟨taken', hpush, hrest⟩ := Traced.exists_of_outcome_bind hrest
      obtain rfl : taken' = taken ++ [slot] := eq_of_push hpush
      obtain ⟨objects', hsizes, hobjects⟩ := ih (h.snoc ht) hrest
      exact ⟨(tile, size) :: objects', by simp [hsizes], by simpa using hobjects⟩

/-- The slots for the cells of a grid are the first ones. -/
theorem takeGrid_takenFirst (h : t.tiles.Sound) {g : Grid}
    (htake : (t.takeGrid g).outcome = .ok (.ok slots, t')) :
    g.columns * g.rows ≤ 128 ∧
      ∃ objects, objects.map Prod.snd = g.sizes ∧ TakenFirst t slots objects t' := by
  rw [takeGrid] at htake
  split at htake
  · simp [Traced.pure_def] at htake
  · rename_i hle
    exact ⟨Nat.not_lt.mp hle, takeRest_takenFirst (.nil h) htake⟩

end SlotTable

end SpriteEngine
