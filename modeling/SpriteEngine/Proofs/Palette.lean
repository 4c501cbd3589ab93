import Mathlib.Data.List.Basic
import Mathlib.Data.List.Perm.Subperm
import SpriteEngine.Pool.Palette
import SpriteEngine.Proofs.Yields

/-!
# References to the palette

Who binds a color gets a reference: an index, obtained for that color. `PaletteBank.Accounts b held`
relates a palette to the list `held` of all references that are out. The count of each entry is the
number of references to it, every reference still finds its color, and palette RAM shows what is
stored. Entries without references keep colors that somebody once needed, so a color may be stored
more than once, but only the first of its entries has references (`PaletteBank.Accounts.first`).

* `PaletteBank.bind_cases` says what binding one color can do.
* `PaletteBank.bindAll_spec`: binding the colors of a list adds one reference for each color, or
  leaves the palette exactly as it was.
* `PaletteBank.releaseAll_spec`: references that are held can be dropped, without an alarm.
* `PaletteBank.cancel_spec`: undoing a binding brings the palette back exactly. The relation
  `PaletteBank.Bound` between the palettes before and after carries the induction: the counts differ
  by the indices of the binding, the colors by its log of replaced colors.
-/

namespace SpriteEngine

namespace PaletteBank

/-! ### Entries and their indices -/

/-- Indices are counted from 1, as 0 is transparent. -/
private theorem toNat_indexOf (i : Fin 255) : (indexOf i).toNat = i.val + 1 := by
  rw [indexOf, UInt8.toNat_ofNat_of_lt']
  have := i.isLt
  change i.val + 1 < 256
  omega

theorem indexOf_ne_zero (i : Fin 255) : indexOf i ≠ 0 := fun h => by
  have := congrArg UInt8.toNat h
  rw [toNat_indexOf] at this
  simp at this

@[simp] theorem indexOf_inj {i j : Fin 255} : indexOf i = indexOf j ↔ i = j := by
  rw [← UInt8.toNat_inj, toNat_indexOf, toNat_indexOf, Fin.ext_iff]
  omega

@[simp] theorem entryOf?_indexOf (i : Fin 255) : entryOf? (indexOf i) = some i := by
  rw [entryOf?, dif_neg (indexOf_ne_zero i), Option.some_inj, Fin.ext_iff]
  change (indexOf i).toNat - 1 = i.val
  rw [toNat_indexOf]
  omega

/-- An index belongs to the entry it was looked up as. -/
theorem eq_indexOf_of_entryOf? {index : UInt8} {i : Fin 255} (h : entryOf? index = some i) :
    index = indexOf i := by
  rw [entryOf?] at h
  split at h
  · exact absurd h (by simp)
  · rename_i h0
    rw [Option.some_inj, Fin.ext_iff] at h
    have hne : index.toNat ≠ 0 := fun h' => h0 (UInt8.toNat_inj.mp h')
    rw [← UInt8.toNat_inj, toNat_indexOf]
    change index.toNat - 1 = i.val at h
    omega

/-- Every index but 0 has an entry. -/
theorem exists_indexOf {index : UInt8} (h : index ≠ 0) : ∃ i, index = indexOf i := by
  obtain ⟨i, hi⟩ : ∃ i, entryOf? index = some i := by simp [entryOf?, h]
  exact ⟨i, eq_indexOf_of_entryOf? hi⟩

/-! ### Fields after a single step -/

/-- The number of references to an entry. -/
def refs (b : PaletteBank) (i : Fin 255) : Nat :=
  (b.entries.get i).refs

/-- The color stored in an entry. -/
def stored (b : PaletteBank) (i : Fin 255) : UInt16 :=
  (b.entries.get i).color

section Fields

variable (b : PaletteBank) (i j : Fin 255) (n : Nat) (c : UInt16)

private theorem get_set (v : Vector PaletteEntry 255) (entry : PaletteEntry) :
    (v.set i.val entry i.isLt).get j = if j = i then entry else v.get j := by
  change (v.set i.val entry i.isLt)[j.val] = _
  rw [Vector.getElem_set]
  by_cases h : j = i
  · rw [if_pos h, if_pos (congrArg Fin.val h.symm)]
  · rw [if_neg h, if_neg fun hv => h (Fin.ext hv.symm)]
    rfl

@[simp] theorem refs_setRefs : (b.setRefs i n).refs j = if j = i then n else b.refs j := by
  rw [refs, setRefs, get_set, apply_ite PaletteEntry.refs]
  rfl

@[simp] theorem stored_setRefs : (b.setRefs i n).stored j = b.stored j := by
  rw [stored, setRefs, get_set]
  split
  · rename_i h
    rw [h]
    rfl
  · rfl

@[simp] theorem ram_setRefs : (b.setRefs i n).ram = b.ram :=
  rfl

@[simp] theorem refs_store : (b.store i c).refs j = b.refs j := by
  rw [refs, store, get_set]
  split
  · rename_i h
    rw [h]
    rfl
  · rfl

@[simp] theorem stored_store : (b.store i c).stored j = if j = i then c else b.stored j := by
  rw [stored, store, get_set, apply_ite PaletteEntry.color]
  rfl

@[simp] theorem ram_store : (b.store i c).ram = b.ram.setColor (indexOf i) c :=
  rfl

@[simp] theorem refs_blank : blank.refs i = 0 := by
  simp [refs, blank, Vector.get]

@[simp] theorem stored_blank : blank.stored i = 0 := by
  simp [stored, blank, Vector.get]

@[simp] theorem color_blank (index : UInt8) : blank.ram.color index = 0 := by
  simp [blank, PaletteRam.color, Vector.get]

/-- In a blank palette there are no references to drop. -/
@[simp] theorem reset_blank : blank.reset = blank := by
  simp [reset, blank]

@[simp] theorem refCount_indexOf : b.refCount (indexOf i) = b.refs i := by
  rw [refCount, entryOf?_indexOf]
  rfl

/-- The reference counts of all entries, in order. -/
theorem map_refs_entries : b.entries.toList.map (·.refs) = (List.finRange 255).map b.refs := by
  refine List.ext_getElem (by simp) fun i hi hi' => ?_
  simp only [List.getElem_map, Vector.getElem_toList, List.getElem_finRange]
  rfl

@[simp] theorem color?_indexOf : b.color? (indexOf i) = some (b.stored i) := by
  rw [color?, entryOf?_indexOf]
  rfl

end Fields

variable {b b' : PaletteBank}

/-- An index with a color belongs to an entry that stores it. -/
theorem eq_indexOf_of_color? {index : UInt8} {c : UInt16} (h : b.color? index = some c) :
    ∃ i, index = indexOf i ∧ b.stored i = c := by
  obtain ⟨i, hi, rfl⟩ := Option.map_eq_some_iff.mp h
  exact ⟨i, eq_indexOf_of_entryOf? hi, rfl⟩

end PaletteBank

/-! ### Palette RAM -/

namespace PaletteRam

variable (ram : PaletteRam) (x y : UInt8) (c : UInt16)

@[simp] theorem color_setColor :
    (ram.setColor x c).color y = if y = x then c else ram.color y := by
  have hx := x.toNat_lt
  have hy := y.toNat_lt
  change (Vector.set ram x.toNat c)[y.toNat] = if y = x then c else ram[y.toNat]
  rw [Vector.getElem_set]
  simp only [UInt8.toNat_inj, eq_comm]

/-- Putting the old color back undoes a write. -/
private theorem setColor_setColor_color : (ram.setColor x c).setColor x (ram.color x) = ram := by
  have hx := x.toNat_lt
  change ((Vector.set ram x.toNat c).set x.toNat ram[x.toNat]) = ram
  simp

end PaletteRam

namespace PaletteBank

variable {b b' b₀ : PaletteBank} {held : List (UInt8 × UInt16)} {k : Binding}

/-! ### The color part -/

/-- Two palettes store and show the same colors. They may differ in the counts. -/
structure SameColors (b b' : PaletteBank) : Prop where
  stored : ∀ i, b.stored i = b'.stored i
  ram : b.ram = b'.ram

theorem SameColors.refl (b : PaletteBank) : SameColors b b :=
  ⟨fun _ => rfl, rfl⟩

theorem SameColors.trans {b₁ b₂ b₃ : PaletteBank} (h : SameColors b₁ b₂) (h' : SameColors b₂ b₃) :
    SameColors b₁ b₃ :=
  ⟨fun i => (h.stored i).trans (h'.stored i), h.ram.trans h'.ram⟩

theorem sameColors_setRefs (b : PaletteBank) (i : Fin 255) (n : Nat) :
    SameColors (b.setRefs i n) b :=
  ⟨fun j => stored_setRefs b i j n, rfl⟩

/-- Counts and colors are all there is. -/
theorem SameColors.eq (h : SameColors b b') (hrefs : ∀ i, b.refs i = b'.refs i) : b = b' := by
  have hentries : b.entries = b'.entries := by
    ext i hi
    have hcolor : b.entries[i].color = b'.entries[i].color := h.stored ⟨i, hi⟩
    have hcount : b.entries[i].refs = b'.entries[i].refs := hrefs ⟨i, hi⟩
    generalize b.entries[i] = e at hcolor hcount ⊢
    generalize b'.entries[i] = e' at hcolor hcount ⊢
    cases e
    cases e'
    simp_all
  have hram := h.ram
  cases b
  cases b'
  simp_all

private theorem SameColors.restore (h : SameColors b b') (old : UInt8 × UInt16) :
    SameColors (b.restore old) (b'.restore old) := by
  rw [PaletteBank.restore, PaletteBank.restore]
  cases entryOf? old.1 with
  | none => exact h
  | some i => exact ⟨fun j => by rw [stored_store, stored_store, h.stored j], by simp [h.ram]⟩

/-- Putting colors back goes the same way in palettes with the same colors. -/
theorem SameColors.foldl_restore (h : SameColors b b') (l : List (UInt8 × UInt16)) :
    SameColors (l.foldl PaletteBank.restore b) (l.foldl PaletteBank.restore b') := by
  induction l generalizing b b' with
  | nil => exact h
  | cons old l ih => exact ih (h.restore old)

/-- Putting colors back does not touch the reference counts. -/
theorem refs_foldl_restore (b : PaletteBank) (l : List (UInt8 × UInt16)) (i : Fin 255) :
    (l.foldl restore b).refs i = b.refs i := by
  induction l generalizing b with
  | nil => rfl
  | cons old l ih =>
    rw [List.foldl_cons, ih, restore]
    cases entryOf? old.1 with
    | none => rfl
    | some j => exact refs_store b j i old.2

/-! ### One color -/

theorem stored_of_holder? {c : UInt16} {i : Fin 255} (h : b.holder? c = some i) :
    b.stored i = c := by
  have := List.find?_some h
  exact eq_of_beq this

/-- A scan of the entries has passed over those before the one it has found. -/
private theorem eq_false_of_lt_find? {p : Fin 255 → Bool} {i j : Fin 255}
    (h : (List.finRange 255).find? p = some i) (hj : j < i) : p j = false := by
  obtain ⟨-, n, hn, hget, hbefore⟩ := List.find?_eq_some_iff_getElem.mp h
  have hval : n = i.val := by
    rw [List.getElem_finRange] at hget
    exact congrArg Fin.val hget
  have hpassed := hbefore j.val (by omega)
  rwa [List.getElem_finRange, Bool.not_eq_true'] at hpassed

/-- The holder of a color is the first entry that stores it. -/
theorem stored_ne_of_lt_holder? {c : UInt16} {i j : Fin 255} (h : b.holder? c = some i)
    (hj : j < i) : b.stored j ≠ c :=
  beq_eq_false_iff_ne.mp (eq_false_of_lt_find? h hj)

theorem stored_ne_of_holder?_eq_none {c : UInt16} (h : b.holder? c = none) (i : Fin 255) :
    b.stored i ≠ c := by
  have hne := List.find?_eq_none.mp h i (List.mem_finRange i)
  rw [beq_iff_eq] at hne
  exact hne

theorem refs_of_vacant? {i : Fin 255} (h : b.vacant? = some i) : b.refs i = 0 := by
  have := List.find?_some h
  exact eq_of_beq this

/-- The vacant entry is the first one without references. -/
private theorem refs_ne_zero_of_lt_vacant? {i j : Fin 255} (h : b.vacant? = some i) (hj : j < i) :
    b.refs j ≠ 0 :=
  beq_eq_false_iff_ne.mp (eq_false_of_lt_find? h hj)

theorem refs_ne_zero_of_vacant?_eq_none (h : b.vacant? = none) (i : Fin 255) : b.refs i ≠ 0 := by
  have hne := List.find?_eq_none.mp h i (List.mem_finRange i)
  rwa [beq_iff_eq] at hne

/-- A count that has room goes up by one. -/
private theorem retain_of_lt {i : Fin 255} (h : b.refs i + 1 < 65536) :
    b.retain i = .ok (b.setRefs i (b.refs i + 1)) := by
  change (halfWord (b.refs i + 1) >>= fun n => pure (b.setRefs i n)) = _
  rw [halfWord_of_lt h]
  rfl

private theorem retain_of_ge {i : Fin 255} (h : ¬ b.refs i + 1 < 65536) :
    b.retain i = .error .overflow := by
  change (halfWord (b.refs i + 1) >>= fun n => pure (b.setRefs i n)) = _
  rw [halfWord, if_neg h]
  rfl

/-- What binding a color can do: share the first entry that stores the color, unless its count is at
its end, replace the color of the first entry without references, or fail. -/
theorem bind_cases (b : PaletteBank) (c : UInt16) :
    (∃ i, b.holder? c = some i ∧ b.refs i + 1 < 65536 ∧
      b.bind c = .ok (.ok ((indexOf i, none), b.setRefs i (b.refs i + 1)))) ∨
    (∃ i, b.holder? c = some i ∧ 65535 ≤ b.refs i ∧ b.bind c = .error .overflow) ∨
    (∃ i, b.holder? c = none ∧ b.vacant? = some i ∧
      b.bind c = .ok (.ok ((indexOf i, some (b.stored i)), (b.store i c).setRefs i 1))) ∨
    (b.holder? c = none ∧ b.vacant? = none ∧ b.bind c = .ok (.error .outOfColors)) := by
  rw [bind]
  cases hh : b.holder? c with
  | some i =>
    by_cases hroom : b.refs i + 1 < 65536
    · refine .inl ⟨i, rfl, hroom, ?_⟩
      change (b.retain i >>= _) = _
      rw [retain_of_lt hroom]
      rfl
    · refine .inr (.inl ⟨i, rfl, by omega, ?_⟩)
      change (b.retain i >>= _) = _
      rw [retain_of_ge hroom]
      rfl
  | none =>
    cases hv : b.vacant? with
    | some i =>
      refine .inr (.inr (.inl ⟨i, rfl, rfl, ?_⟩))
      have hrefs : (b.store i c).refs i = 0 := by rw [refs_store, refs_of_vacant? hv]
      change ((b.store i c).retain i >>= _) = _
      rw [retain_of_lt (by omega), hrefs]
      rfl
    | none => exact .inr (.inr (.inr ⟨rfl, rfl, rfl⟩))

/-- A color that is not stored replaces the color of the first entry without references. -/
theorem bind_of_not_stored {c : UInt16} {i : Fin 255} (hstored : ∀ j, b.stored j ≠ c)
    (hbefore : ∀ j < i, b.refs j ≠ 0) (hfree : b.refs i = 0) :
    b.bind c = .ok (.ok ((indexOf i, some (b.stored i)), (b.store i c).setRefs i 1)) := by
  obtain ⟨j, hj, -⟩ | ⟨j, hj, -⟩ | ⟨j, -, hj, hb⟩ | ⟨-, hnone, -⟩ := b.bind_cases c
  · exact absurd (stored_of_holder? hj) (hstored j)
  · exact absurd (stored_of_holder? hj) (hstored j)
  · obtain rfl : j = i := by
      rcases Nat.lt_trichotomy j i with hlt | heq | hlt
      · exact absurd (refs_of_vacant? hj) (hbefore j hlt)
      · exact Fin.ext heq
      · exact absurd hfree (refs_ne_zero_of_lt_vacant? hj hlt)
    exact hb
  · exact absurd hfree (refs_ne_zero_of_vacant?_eq_none hnone i)

/-- A count that is at its end cannot be raised. -/
theorem bind_of_full {c : UInt16} {i : Fin 255} (hi : b.holder? c = some i)
    (hfull : 65535 ≤ b.refs i) : b.bind c = .error .overflow := by
  obtain ⟨j, hj, hroom, -⟩ | ⟨-, -, -, hb⟩ | ⟨-, hnone, -⟩ | ⟨hnone, -⟩ := b.bind_cases c
  · obtain rfl : i = j := Option.some.inj (hi.symm.trans hj)
    omega
  · exact hb
  · simp [hi] at hnone
  · simp [hi] at hnone

/-- What a color that could be bound has changed. -/
theorem bind_eq_ok {c : UInt16} {index : UInt8} {old : Option UInt16}
    (h : b.bind c = .ok (.ok ((index, old), b'))) :
    (∃ i, b.holder? c = some i ∧ index = indexOf i ∧ old = none ∧
      b' = b.setRefs i (b.refs i + 1)) ∨
    ∃ i, b.holder? c = none ∧ b.vacant? = some i ∧ index = indexOf i ∧
      old = some (b.stored i) ∧ b' = (b.store i c).setRefs i 1 := by
  obtain ⟨i, hi, -, hb⟩ | ⟨i, -, -, hb⟩ | ⟨i, hh, hi, hb⟩ | ⟨-, -, hb⟩ := b.bind_cases c
  · obtain ⟨⟨rfl, rfl⟩, rfl⟩ : (index = indexOf i ∧ old = none) ∧ b' = _ := by
      simpa [hb, eq_comm] using h
    exact .inl ⟨i, hi, rfl, rfl, rfl⟩
  · simp [hb] at h
  · obtain ⟨⟨rfl, rfl⟩, rfl⟩ : (index = indexOf i ∧ old = some (b.stored i)) ∧ b' = _ := by
      simpa [hb, eq_comm] using h
    exact .inr ⟨i, hh, hi, rfl, rfl, rfl⟩
  · simp [hb] at h

/-- A count above 0 goes down by one, without an alarm. -/
private theorem release_indexOf {i : Fin 255} (h : 0 < b.refs i) :
    b.release (indexOf i) = Pure.pure (b.setRefs i (b.refs i - 1)) := by
  obtain ⟨n, hn⟩ := Nat.exists_add_one_eq.mpr h
  have hrefs : b.entries[i].refs = n + 1 := hn.symm
  simp only [release, entryOf?_indexOf, hrefs]
  rw [← hn, Nat.add_sub_cancel]

/-! ### References -/

/-- The palette accounts for the references in `held`, each with the color it was obtained for. -/
structure Accounts (b : PaletteBank) (held : List (UInt8 × UInt16)) : Prop where
  refs : ∀ i, b.refs i = (held.map Prod.fst).count (indexOf i)
  stored : ∀ r ∈ held, b.color? r.1 = some r.2
  shown : ∀ i, b.ram.color (indexOf i) = b.stored i
  /-- Of the entries that store the same color, only the first one may have references. -/
  first : ∀ i j, i < j → b.stored i = b.stored j → b.refs j = 0

/-- A palette without references accounts for none. -/
theorem Accounts.start : blank.reset.Accounts [] where
  refs i := by simp
  stored r hr := absurd hr List.not_mem_nil
  shown i := by simp
  first i j _ _ := by simp

theorem Accounts.perm {held' : List (UInt8 × UInt16)} (h : b.Accounts held)
    (hp : held.Perm held') : b.Accounts held' where
  refs i := (h.refs i).trans ((hp.map Prod.fst).count_eq _)
  stored r hr := h.stored r (hp.mem_iff.mpr hr)
  shown := h.shown
  first := h.first

/-- With the same colors and fewer references a palette stays in order. -/
theorem Accounts.shrink {held' : List (UInt8 × UInt16)} (h : b.Accounts held)
    (hcolors : SameColors b' b) (hsub : held'.Subperm held)
    (hrefs : ∀ i, b'.refs i = (held'.map Prod.fst).count (indexOf i)) : b'.Accounts held' where
  refs := hrefs
  stored r hr := by
    have hr' := h.stored r (hsub.subset hr)
    obtain ⟨i, hi, hc⟩ := eq_indexOf_of_color? hr'
    rw [hi, color?_indexOf, hcolors.stored, hc]
  shown i := by rw [hcolors.ram, hcolors.stored, h.shown]
  first i j hij hs := by
    rw [hcolors.stored, hcolors.stored] at hs
    obtain ⟨l, hperm, hsublist⟩ := hsub
    have hle := (hsublist.map Prod.fst).count_le (indexOf j)
    rw [(hperm.map Prod.fst).count_eq, ← hrefs, ← h.refs, h.first i j hij hs] at hle
    exact Nat.le_zero.mp hle

/-- An index that is referenced stores and shows the color of the reference. -/
theorem Accounts.color_of_mem {r : UInt8 × UInt16} (h : b.Accounts held) (hr : r ∈ held) :
    b.color? r.1 = some r.2 ∧ b.ram.color r.1 = r.2 := by
  have hstored := h.stored r hr
  obtain ⟨i, hi, hcolor⟩ := eq_indexOf_of_color? hstored
  rw [hi, h.shown, hcolor, ← hi]
  exact ⟨hstored, rfl⟩

/-- No entry has more references than there are in all. -/
theorem Accounts.refs_le (h : b.Accounts held) (i : Fin 255) : b.refs i ≤ held.length := by
  rw [h.refs, ← List.length_map (f := Prod.fst)]
  exact List.count_le_length

/-- A reference that is held is counted. -/
theorem Accounts.refs_pos {r : UInt8 × UInt16} {i : Fin 255} (h : b.Accounts held) (hr : r ∈ held)
    (hi : r.1 = indexOf i) : 0 < b.refs i := by
  rw [h.refs, List.count_pos_iff, ← hi]
  exact List.mem_map_of_mem hr

/-- One more reference counts for its own entry only. -/
private theorem count_cons_indexOf {r : UInt8 × UInt16} {i : Fin 255} (hi : r.1 = indexOf i)
    (j : Fin 255) : ((r :: held).map Prod.fst).count (indexOf j) =
      (held.map Prod.fst).count (indexOf j) + if j = i then 1 else 0 := by
  rw [List.map_cons, List.count_cons, hi]
  by_cases h : j = i
  · simp [h]
  · have hne : ¬ i = j := fun hij => h hij.symm
    simp [h, hne]

/-- A bound color is one more reference, and no other reference loses its color. -/
theorem Accounts.bind {index : UInt8} {old : Option UInt16} {c : UInt16} (h : b.Accounts held)
    (hb : b.bind c = .ok (.ok ((index, old), b'))) : b'.Accounts ((index, c) :: held) := by
  obtain ⟨i, hi, rfl, -, rfl⟩ | ⟨i, hnone, hi, rfl, -, rfl⟩ := bind_eq_ok hb
  · -- an entry stores the color already, and only its count changes
    refine ⟨fun j => ?_, fun r hr => ?_, fun j => ?_, fun j l hjl hs => ?_⟩
    · rw [refs_setRefs, count_cons_indexOf rfl, h.refs, h.refs]
      by_cases hj : j = i <;> simp [hj]
    · rcases List.mem_cons.mp hr with rfl | hr
      · simp [stored_of_holder? hi]
      · obtain ⟨j, hj, hc⟩ := eq_indexOf_of_color? (h.stored r hr)
        rw [hj, color?_indexOf, stored_setRefs, hc]
    · rw [ram_setRefs, stored_setRefs, h.shown]
    · -- the entry that is shared is the first one with its color
      rw [stored_setRefs, stored_setRefs] at hs
      have hne : l ≠ i := by
        rintro rfl
        exact stored_ne_of_lt_holder? hi hjl (hs.trans (stored_of_holder? hi))
      rw [refs_setRefs, if_neg hne, h.first j l hjl hs]
  · have hvacant := refs_of_vacant? hi
    refine ⟨fun j => ?_, fun r hr => ?_, fun j => ?_, fun j l hjl hs => ?_⟩
    · rw [refs_setRefs, refs_store, count_cons_indexOf rfl, ← h.refs]
      by_cases hj : j = i <;> simp [hj, hvacant]
    · rcases List.mem_cons.mp hr with rfl | hr
      · simp
      · -- the entry whose color is replaced has no references
        obtain ⟨j, hj, hc⟩ := eq_indexOf_of_color? (h.stored r hr)
        have hpos := h.refs_pos hr hj
        have hne : j ≠ i := by
          rintro rfl
          omega
        rw [hj, color?_indexOf, stored_setRefs, stored_store, if_neg hne, hc]
    · simp [h.shown]
    · -- no other entry stores the new color
      have hnew := stored_ne_of_holder?_eq_none hnone
      rw [stored_setRefs, stored_setRefs, stored_store, stored_store] at hs
      by_cases hl : l = i
      · subst hl
        rw [if_neg (Fin.ne_of_lt hjl), if_pos rfl] at hs
        exact absurd hs (hnew j)
      · by_cases hj : j = i
        · rw [if_pos hj, if_neg hl] at hs
          exact absurd hs.symm (hnew l)
        · rw [if_neg hj, if_neg hl] at hs
          rw [refs_setRefs, if_neg hl, refs_store, h.first j l hjl hs]

/-- A reference that is held can be dropped. -/
theorem Accounts.release {r : UInt8 × UInt16} (h : b.Accounts (r :: held)) :
    (b.release r.1).Yields fun b' => b'.Accounts held ∧ SameColors b' b := by
  obtain ⟨i, hi, -⟩ := eq_indexOf_of_color? (h.stored r List.mem_cons_self)
  have hpos := h.refs_pos List.mem_cons_self hi
  have hcolors := sameColors_setRefs b i (b.refs i - 1)
  rw [hi, release_indexOf hpos]
  refine .pure ⟨h.shrink hcolors (List.sublist_cons_self ..).subperm fun j => ?_, hcolors⟩
  have hj := h.refs j
  rw [count_cons_indexOf hi] at hj
  rw [refs_setRefs]
  by_cases hji : j = i
  · subst hji
    rw [if_pos rfl] at hj ⊢
    omega
  · simpa [hji] using hj

/-- References that are held can be dropped one after the other. -/
theorem Accounts.releaseAll {dropped : List (UInt8 × UInt16)} (h : b.Accounts (dropped ++ held)) :
    (b.releaseAll (dropped.map Prod.fst)).Yields fun b' =>
      b'.Accounts held ∧ SameColors b' b := by
  induction dropped generalizing b with
  | nil => exact .pure ⟨h, .refl b⟩
  | cons r dropped ih =>
    rw [List.map_cons, PaletteBank.releaseAll, List.foldlM_cons]
    refine (Accounts.release h).bind fun b₁ hb₁ => ?_
    exact (ih hb₁.1).mono fun b' hb' => ⟨hb'.1, hb'.2.trans hb₁.2⟩

/-- The indices of a list can be dropped if there is a reference to each of them. -/
theorem releaseAll_spec {l : List UInt8} {cs : List UInt16} (hl : l.length = cs.length)
    (h : b.Accounts (l.zip cs ++ held)) :
    (b.releaseAll l).Yields fun b' => b'.Accounts held ∧ SameColors b' b := by
  have hdrop := h.releaseAll
  rwa [List.map_fst_zip (Nat.le_of_eq hl)] at hdrop

/-! ### Undoing a binding -/

/-- The palette `b` is `b₀` after the binding `k`. Its counts are higher by the indices of `k`, and
its colors are those of `b₀` once the replaced ones are put back. -/
structure Bound (b₀ : PaletteBank) (k : Binding) (b : PaletteBank) : Prop where
  refs : ∀ i, b.refs i = b₀.refs i + k.indices.toList.count (indexOf i)
  colors : SameColors (k.overwritten.toList.reverse.foldl restore b) b₀

theorem Bound.refl (b : PaletteBank) : Bound b {} b :=
  ⟨fun i => by simp, .refl b⟩

private theorem count_indices_push (k : Binding) (i j : Fin 255) (old : Option UInt16) :
    (k.push (indexOf i) old).indices.toList.count (indexOf j) =
      k.indices.toList.count (indexOf j) + if j = i then 1 else 0 := by
  rw [Binding.push, Array.toList_push, List.count_append, List.count_singleton, beq_eq_decide]
  by_cases h : j = i
  · simp [h]
  · have hne : ¬ i = j := fun hij => h hij.symm
    simp [h, hne]

/-- Binding one more color extends the binding. The color that was replaced is the one in palette
RAM, so putting it back undoes both writes. -/
theorem Bound.bind {index : UInt8} {old : Option UInt16} {c : UInt16} (h : Bound b₀ k b)
    (hshown : ∀ i, b.ram.color (indexOf i) = b.stored i)
    (hb : b.bind c = .ok (.ok ((index, old), b'))) : Bound b₀ (k.push index old) b' := by
  obtain ⟨i, hi, rfl, rfl, rfl⟩ | ⟨i, -, hi, rfl, rfl, rfl⟩ := bind_eq_ok hb
  · refine ⟨fun j => ?_, ?_⟩
    · rw [count_indices_push, refs_setRefs, ← Nat.add_assoc, ← h.refs]
      by_cases hj : j = i <;> simp [hj]
    · exact ((sameColors_setRefs b i _).foldl_restore _).trans h.colors
  · have hvacant := refs_of_vacant? hi
    refine ⟨fun j => ?_, ?_⟩
    · rw [count_indices_push, refs_setRefs, refs_store, ← Nat.add_assoc, ← h.refs]
      by_cases hj : j = i <;> simp [hj, hvacant]
    · have hback : SameColors (((b.store i c).setRefs i 1).restore (indexOf i, b.stored i)) b := by
        rw [restore, entryOf?_indexOf]
        refine ⟨fun j => ?_, ?_⟩
        · by_cases hji : j = i <;> simp [hji]
        · rw [ram_store, ram_setRefs, ram_store, ← hshown i, PaletteRam.setColor_setColor_color]
      rw [Binding.push, Option.elim_some, Array.toList_push, List.reverse_append]
      exact (hback.foldl_restore _).trans h.colors

/-- Dropping references that are counted lowers the counts and keeps the colors. -/
theorem releaseAll_refs {l : List UInt8} (hl : ∀ i, l.count (indexOf i) ≤ b.refs i) :
    (b.releaseAll l).Yields fun b' =>
      (∀ i, b'.refs i = b.refs i - l.count (indexOf i)) ∧ SameColors b' b := by
  induction l generalizing b with
  | nil => exact .pure ⟨fun i => by simp, .refl b⟩
  | cons x l ih =>
    rw [releaseAll, List.foldlM_cons]
    cases hx : entryOf? x with
    | none =>
      -- nothing is counted for the transparent index
      have hne : ∀ i, (x :: l).count (indexOf i) = l.count (indexOf i) := fun i => by
        rw [List.count_cons_of_ne]
        rintro rfl
        simp at hx
      have hrelease : b.release x = pure b := by rw [release, hx]
      rw [hrelease, pure_bind]
      exact (ih fun i => hne i ▸ hl i).mono fun b' hb' => ⟨fun i => hne i ▸ hb'.1 i, hb'.2⟩
    | some i =>
      obtain rfl := eq_indexOf_of_entryOf? hx
      have hi := hl i
      rw [List.count_cons_self] at hi
      rw [release_indexOf (by omega), pure_bind]
      have hcount : ∀ j, (b.setRefs i (b.refs i - 1)).refs j - l.count (indexOf j) =
          b.refs j - (indexOf i :: l).count (indexOf j) := by
        intro j
        rw [refs_setRefs]
        by_cases hj : j = i
        · subst hj
          rw [if_pos rfl, List.count_cons_self]
          omega
        · rw [if_neg hj, List.count_cons_of_ne (by simpa using Ne.symm hj)]
      refine (ih fun j => ?_).mono fun b' hb' =>
        ⟨fun j => (hb'.1 j).trans (hcount j), hb'.2.trans (sameColors_setRefs b i _)⟩
      have hj := hl j
      rw [refs_setRefs]
      by_cases hji : j = i
      · subst hji
        rw [if_pos rfl]
        omega
      · rwa [if_neg hji, ← List.count_cons_of_ne (a := indexOf j) (b := indexOf i)
          (by simpa using Ne.symm hji)]

/-- Undoing a binding brings back the palette from before. -/
theorem cancel_spec (h : Bound b₀ k b) : (b.cancel k).Yields (· = b₀) := by
  have hcount : ∀ i, k.indices.toList.count (indexOf i) ≤ b.refs i := fun i => by
    have := h.refs i
    omega
  refine (releaseAll_refs hcount).bind fun b' hb' => .pure ?_
  refine ((hb'.2.foldl_restore _).trans h.colors).eq fun i => ?_
  rw [refs_foldl_restore, hb'.1 i, h.refs i]
  omega

/-! ### Binding the colors of a list -/

/-- What binding a list of colors leads to, from the palette `b₀` with the references `held`: either
nothing has changed, or there is one more reference for each color. -/
def Binds (b₀ : PaletteBank) (held : List (UInt8 × UInt16)) (colors : List UInt16) :
    Except PoolError Binding × PaletteBank → Prop
  | (.error cause, b) => cause = .outOfColors ∧ b = b₀
  | (.ok k, b) => k.indices.size = colors.length ∧ Bound b₀ k b ∧
      b.Accounts (k.indices.toList.zip colors ++ held)

/-- Bound one after the other, the colors of the list come to one whose entry has as many references
as can be counted. -/
def Overflows (b : PaletteBank) : List UInt16 → Prop
  | [] => False
  | c :: colors => (∃ i, b.holder? c = some i ∧ 65535 ≤ b.refs i) ∨
      ∃ r b', b.bind c = .ok (.ok (r, b')) ∧ b'.Overflows colors

/-- The first color of a list is bound, and then the others. -/
theorem bindRest_of_bind {c : UInt16} {colors : List UInt16} {index : UInt8} {old : Option UInt16}
    (h : b.bind c = .ok (.ok ((index, old), b'))) (k : Binding) :
    b.bindRest k (c :: colors) = b'.bindRest (k.push index old) colors := by
  rw [bindRest, h]
  rfl

/-- A count that would overflow is a fault, wherever in the list its color stands. -/
theorem bindRest_of_overflows {colors : List UInt16} (h : b.Overflows colors) (k : Binding) :
    b.bindRest k colors = ⟨[], .error .overflow⟩ := by
  induction colors generalizing b k with
  | nil => exact h.elim
  | cons c colors ih =>
    rcases h with ⟨i, hi, hfull⟩ | ⟨⟨index, old⟩, b', hb, h⟩
    · rw [bindRest, bind_of_full hi hfull]
      rfl
    · rw [bindRest_of_bind hb]
      exact ih h (k.push index old)

/-- If nothing overflows, the first color has an answer. -/
theorem exists_bind {c : UInt16} {colors : List UInt16} (h : ¬ b.Overflows (c :: colors)) :
    ∃ r, b.bind c = .ok r := by
  obtain ⟨_, -, -, hr⟩ | ⟨i, hi, hfull, -⟩ | ⟨_, -, -, hr⟩ | ⟨-, -, hr⟩ := b.bind_cases c
  · exact ⟨_, hr⟩
  · exact absurd (.inl ⟨i, hi, hfull⟩) h
  · exact ⟨_, hr⟩
  · exact ⟨_, hr⟩

/-- The induction along the list. The palette at the start is `b₀`, and `bound` are the colors of
the list that are bound already. -/
private theorem bindRest_spec (bound colors : List UInt16) (hsize : k.indices.size = bound.length)
    (hbound : Bound b₀ k b) (hacc : b.Accounts (k.indices.toList.zip bound ++ held))
    (hroom : ¬ b.Overflows colors) :
    (b.bindRest k colors).Yields (Binds b₀ held (bound ++ colors)) := by
  induction colors generalizing b k bound with
  | nil => exact .pure (by simpa [Binds] using ⟨hsize, hbound, hacc⟩)
  | cons c colors ih =>
    obtain ⟨r, hr⟩ := exists_bind hroom
    rw [bindRest]
    refine Traced.Yields.bind (P := fun r => b.bind c = .ok r) (.lift ⟨r, hr, hr⟩) ?_
    rintro (cause | ⟨⟨index, old⟩, b'⟩) hb
    · refine (cancel_spec hbound).bind fun b' hb' => .pure ⟨?_, hb'⟩
      obtain ⟨-, -, hfull⟩ : b.holder? c = none ∧ b.vacant? = none ∧ cause = .outOfColors := by
        simpa [hb] using b.bind_cases c
      exact hfull
    · have hnext := ih (bound ++ [c]) (by simp [Binding.push, hsize])
        (hbound.bind hacc.shown hb) ((hacc.bind hb).perm ?_)
        fun hlater => hroom (.inr ⟨_, b', hb, hlater⟩)
      · simpa using hnext
      · rw [Binding.push, Array.toList_push, List.zip_append (by simpa using hsize)]
        simpa using List.perm_middle.symm

/-- Binding the colors of a list adds one reference for each of them, or changes nothing. -/
theorem bindAll_of_not_overflows {colors : List UInt16} (hacc : b.Accounts held)
    (hroom : ¬ b.Overflows colors) : (b.bindAll colors).Yields (Binds b held colors) :=
  bindRest_spec [] colors rfl (.refl b) (by simpa using hacc) hroom

/-- With few references nothing overflows. -/
theorem Accounts.not_overflows {colors : List UInt16} (h : b.Accounts held)
    (hroom : held.length + colors.length < 65536) : ¬ b.Overflows colors := by
  induction colors generalizing b held with
  | nil => exact id
  | cons c colors ih =>
    rw [List.length_cons] at hroom
    rintro (⟨i, -, hfull⟩ | ⟨⟨index, old⟩, b', hb, hlater⟩)
    · have := h.refs_le i
      omega
    · exact ih (h.bind hb) (by rw [List.length_cons]; omega) hlater

/-- Binding a list adds one reference for each color or changes nothing, as long as there are few
references. -/
theorem bindAll_spec {colors : List UInt16} (hacc : b.Accounts held)
    (hroom : held.length + colors.length < 65536) :
    (b.bindAll colors).Yields (Binds b held colors) :=
  bindAll_of_not_overflows hacc (hacc.not_overflows hroom)

end PaletteBank

end SpriteEngine
