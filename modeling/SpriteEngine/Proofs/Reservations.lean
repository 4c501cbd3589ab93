import Mathlib.Data.Finset.Card
import Mathlib.Data.Fintype.Card
import SpriteEngine.Proofs.PaletteClients

/-!
# Reservations of several colors

A list of colors is bound greedily. Each color in turn shares the first entry that stores it, used
or not, or else replaces the color of the first entry that nobody uses, which may be a color that
the list needs later on. This module shows that nothing is lost by that.

* **Capacity.** Whether there is room for a list depends only on the set `PaletteBank.liveColors` of
  the colors in use: it has to have at most 255 elements together with the colors of the list
  (`PaletteBank.bindAll_fits`). A bound color is in use and no color goes out of use, so the set
  grows by exactly one color in each step (`PaletteBank.liveColors_bind`), and when no entry is left
  the 255 entries have 255 different colors (`PaletteBank.Accounts.card_liveColors_of_full`).
* **Undoing.** What a binding has replaced can be put back even after references from before it were
  given up, and the result is what giving them up alone would have led to
  (`PaletteBank.Bound.releaseAll`).
* **Repeating.** Once its references are given up, a binding leaves its colors in the palette. The
  same list then finds them all in place and gets the same indices (`PaletteBank.bindAll_again`).
  The first entry that stores a color is the one that had the references, because of the entries
  with the same color only the first may have any.
-/

namespace SpriteEngine

namespace PaletteBank

variable {b b' b₀ b₁ : PaletteBank} {held : List (UInt8 × UInt16)} {k : Binding}
  {colors : List UInt16}

/-! ### The colors in use -/

/-- The colors in use: those of the entries with references. -/
def liveColors (b : PaletteBank) : Finset UInt16 :=
  (Finset.univ.filter fun i => b.refs i ≠ 0).image b.stored

theorem mem_liveColors {c : UInt16} : c ∈ b.liveColors ↔ ∃ i, b.refs i ≠ 0 ∧ b.stored i = c := by
  simp [liveColors]

private theorem card_liveColors_le (b : PaletteBank) : b.liveColors.card ≤ 255 :=
  calc b.liveColors.card ≤ (Finset.univ.filter fun i => b.refs i ≠ 0).card := Finset.card_image_le
    _ ≤ Fintype.card (Fin 255) := Finset.card_le_univ _
    _ = 255 := Fintype.card_fin 255

/-- No two entries in use store the same color. -/
private theorem Accounts.stored_injOn (h : b.Accounts held) :
    Set.InjOn b.stored { i | b.refs i ≠ 0 } := by
  intro i hi j hj hcolor
  rcases Nat.lt_trichotomy i j with hlt | heq | hlt
  · exact absurd (h.first i j hlt hcolor) hj
  · exact Fin.ext heq
  · exact absurd (h.first j i hlt hcolor.symm) hi

/-- If every entry is in use, there are 255 colors in use. -/
theorem Accounts.card_liveColors_of_full (h : b.Accounts held) (hfull : b.vacant? = none) :
    b.liveColors.card = 255 := by
  have hall : (Finset.univ.filter fun i => b.refs i ≠ 0) = Finset.univ :=
    Finset.filter_true_of_mem fun i _ => refs_ne_zero_of_vacant?_eq_none hfull i
  have hinj : Set.InjOn b.stored (Finset.univ : Finset (Fin 255)) := fun i _ j _ hcolor =>
    h.stored_injOn (refs_ne_zero_of_vacant?_eq_none hfull i)
      (refs_ne_zero_of_vacant?_eq_none hfull j) hcolor
  rw [liveColors, hall, Finset.card_image_of_injOn hinj, Finset.card_univ, Fintype.card_fin]

/-- Binding a color puts it in use and takes no color out of use. -/
theorem liveColors_bind {c : UInt16} {index : UInt8} {old : Option UInt16}
    (hb : b.bind c = .ok (.ok ((index, old), b'))) : b'.liveColors = insert c b.liveColors := by
  ext x
  rw [Finset.mem_insert, mem_liveColors, mem_liveColors]
  obtain ⟨i, hi, -, -, rfl⟩ | ⟨i, -, hi, -, -, rfl⟩ := bind_eq_ok hb
  · have hcolor := stored_of_holder? hi
    constructor
    · rintro ⟨j, hj, rfl⟩
      rw [refs_setRefs] at hj
      rw [stored_setRefs]
      by_cases hji : j = i
      · exact .inl (hji ▸ hcolor)
      · exact .inr ⟨j, by rwa [if_neg hji] at hj, rfl⟩
    · rintro (rfl | ⟨j, hj, rfl⟩)
      · exact ⟨i, by simp, by rw [stored_setRefs, hcolor]⟩
      · refine ⟨j, ?_, stored_setRefs ..⟩
        rw [refs_setRefs]
        split
        · exact Nat.succ_ne_zero _
        · exact hj
  · -- the color that is replaced was not in use
    have hvacant := refs_of_vacant? hi
    constructor
    · rintro ⟨j, hj, rfl⟩
      rw [refs_setRefs, refs_store] at hj
      rw [stored_setRefs, stored_store]
      by_cases hji : j = i
      · exact .inl (if_pos hji)
      · rw [if_neg hji] at hj ⊢
        exact .inr ⟨j, hj, rfl⟩
    · rintro (rfl | ⟨j, hj, rfl⟩)
      · exact ⟨i, by simp, by simp⟩
      · have hji : j ≠ i := by
          rintro rfl
          exact hj hvacant
        exact ⟨j, by rwa [refs_setRefs, if_neg hji, refs_store],
          by rw [stored_setRefs, stored_store, if_neg hji]⟩

/-! ### Capacity -/

/-- There is room for the colors of a list next to those in use. -/
def Fits (b : PaletteBank) (colors : List UInt16) : Prop :=
  (b.liveColors ∪ colors.toFinset).card ≤ 255

/-- A list fits if it does so after its first color was bound. -/
private theorem fits_cons_iff {c : UInt16} {index : UInt8} {old : Option UInt16}
    (hb : b.bind c = .ok (.ok ((index, old), b'))) : b.Fits (c :: colors) ↔ b'.Fits colors := by
  rw [Fits, Fits, liveColors_bind hb, List.toFinset_cons, Finset.union_insert, Finset.insert_union]

/-- If a color cannot be bound, no list fits that starts with it. -/
private theorem Accounts.not_fits (h : b.Accounts held) {c : UInt16} (hholder : b.holder? c = none)
    (hvacant : b.vacant? = none) : ¬ b.Fits (c :: colors) := by
  have hnew : c ∉ b.liveColors := by
    rw [mem_liveColors]
    rintro ⟨i, -, hi⟩
    exact stored_ne_of_holder?_eq_none hholder i hi
  have hsub : insert c b.liveColors ⊆ b.liveColors ∪ (c :: colors).toFinset := by
    rw [List.toFinset_cons, Finset.union_insert]
    exact Finset.insert_subset_insert c Finset.subset_union_left
  -- 255 colors are in use already
  have hle := Finset.card_le_card hsub
  rw [Finset.card_insert_of_notMem hnew, h.card_liveColors_of_full hvacant] at hle
  exact Nat.not_le.mpr hle

/-- The colors of a list can be bound. -/
def Admits (b : PaletteBank) (colors : List UInt16) : Prop :=
  ∃ k b', (b.bindAll colors).outcome = .ok (.ok k, b')

/-- What the answer to a reservation says: there is room for the colors, or not. -/
def Answers (b : PaletteBank) (colors : List UInt16) : Except PoolError Binding → Prop
  | .error cause => ¬ b.Fits colors ∧ cause = .outOfColors
  | .ok _ => b.Fits colors

private theorem bindRest_fits (hbound : Bound b₀ k b) (hacc : b.Accounts held)
    (hroom : ¬ b.Overflows colors) :
    (b.bindRest k colors).Yields fun r => b.Answers colors r.1 := by
  induction colors generalizing b k held with
  | nil =>
    refine .pure (?_ : (b.liveColors ∪ ∅).card ≤ 255)
    rw [Finset.union_empty]
    exact b.card_liveColors_le
  | cons c colors ih =>
    obtain ⟨r, hr⟩ := exists_bind hroom
    rw [bindRest]
    refine .lift_bind hr ?_
    rcases r with cause | ⟨⟨index, old⟩, b'⟩
    · obtain ⟨hholder, hvacant, hcause⟩ :
          b.holder? c = none ∧ b.vacant? = none ∧ cause = .outOfColors := by
        simpa [hr] using b.bind_cases c
      exact (cancel_spec hbound).bind fun _ _ => .pure ⟨hacc.not_fits hholder hvacant, hcause⟩
    · -- the color goes from the list to those in use, and the two together stay the same
      have hnext := ih (hbound.bind hacc.shown hr) (hacc.bind hr)
        fun hlater => hroom (.inr ⟨_, b', hr, hlater⟩)
      refine hnext.mono ?_
      rintro ⟨cause | k', _⟩ hanswer
      · exact ⟨fun hfits => hanswer.1 ((fits_cons_iff hr).mp hfits), hanswer.2⟩
      · exact (fits_cons_iff hr).mpr hanswer

/-- The colors of a list are bound if there is room for them, and refused otherwise. -/
theorem bindAll_fits (h : b.Accounts held) (hroom : ¬ b.Overflows colors) :
    (b.bindAll colors).Yields fun r => b.Answers colors r.1 :=
  bindRest_fits (.refl b) h hroom

/-- A reservation has an answer unless it drives a count past its end. -/
private theorem Accounts.exists_bindAll_iff (h : b.Accounts held) :
    (∃ r, (b.bindAll colors).outcome = .ok r) ↔ ¬ b.Overflows colors := by
  constructor
  · rintro ⟨r, hr⟩ hfull
    rw [bindAll, bindRest_of_overflows hfull] at hr
    exact nomatch hr
  · intro hroom
    obtain ⟨-, r, hr, -⟩ := bindAll_of_not_overflows h hroom
    exact ⟨r, hr⟩

/-! ### Undoing after references were given up -/

theorem SameColors.symm (h : SameColors b b') : SameColors b' b :=
  ⟨fun i => (h.stored i).symm, h.ram.symm⟩

/-- There are no more references to an index among those that are held than are counted. -/
private theorem Accounts.count_le_refs {dropped : List (UInt8 × UInt16)} (h : b.Accounts held)
    (hdropped : dropped.Subperm held) (i : Fin 255) :
    (dropped.map Prod.fst).count (indexOf i) ≤ b.refs i := by
  rw [h.refs, List.count_eq_countP, List.count_eq_countP, List.countP_map, List.countP_map]
  exact hdropped.countP_le _

/-- References from before a binding are given up on both sides of it. What is left is a binding
between the palettes that this leads to. -/
theorem Bound.releaseAll {l : List UInt8} (h : Bound b₀ k b)
    (hl : ∀ i, l.count (indexOf i) ≤ b₀.refs i) :
    (b₀.releaseAll l).Yields fun b₀' => (b.releaseAll l).Yields fun b' => Bound b₀' k b' := by
  have hl' : ∀ i, l.count (indexOf i) ≤ b.refs i := fun i => by
    rw [h.refs]
    exact Nat.le_add_right_of_le (hl i)
  refine (releaseAll_refs hl).mono fun b₀' ⟨hrefs₀, hcolors₀⟩ => ?_
  refine (releaseAll_refs hl').mono fun b' ⟨hrefs, hcolors⟩ => ⟨fun i => ?_, ?_⟩
  · rw [hrefs, hrefs₀, h.refs]
    exact Nat.sub_add_comm (hl i)
  · exact ((hcolors.foldl_restore _).trans h.colors).trans hcolors₀.symm

/-! ### Repeating a reservation -/

private theorem SameColors.holder?_eq (h : SameColors b b') (c : UInt16) :
    b.holder? c = b'.holder? c := by
  have hstored : b.stored = b'.stored := funext h.stored
  change (List.finRange 255).find? (fun i => b.stored i == c) = _
  rw [hstored]
  rfl

/-- The first entry with the color of an entry in use is that entry. -/
private theorem Accounts.holder?_stored (h : b.Accounts held) {i : Fin 255} (hi : 0 < b.refs i) :
    b.holder? (b.stored i) = some i := by
  obtain hnone | ⟨j, hj⟩ := Option.eq_none_or_eq_some (b.holder? (b.stored i))
  · exact absurd rfl (stored_ne_of_holder?_eq_none hnone i)
  · rcases Nat.lt_trichotomy i j with hlt | heq | hlt
    · exact absurd rfl (stored_ne_of_lt_holder? hj hlt)
    · rw [hj, Fin.ext heq]
    · exact absurd (h.first j i hlt (stored_of_holder? hj)) (Nat.ne_of_gt hi)

/-- A color that is stored is shared. -/
private theorem bind_of_holder? {c : UInt16} {i : Fin 255} (hi : b.holder? c = some i)
    (hroom : b.refs i + 1 < 65536) :
    b.bind c = .ok (.ok ((indexOf i, none), b.setRefs i (b.refs i + 1))) := by
  obtain ⟨j, hj, -, hb⟩ | ⟨j, hj, hfull, -⟩ | ⟨-, hnone, -⟩ | ⟨hnone, -⟩ := b.bind_cases c
  · obtain rfl : i = j := Option.some.inj (hi.symm.trans hj)
    exact hb
  · obtain rfl : i = j := Option.some.inj (hi.symm.trans hj)
    omega
  · simp [hi] at hnone
  · simp [hi] at hnone

/-- The palette `b` has the colors of `b₁`, in which the colors of a list are in use, and lacks the
references `l` to them. Binding the list leads to `b₁`. -/
private theorem bindRest_again {l : List UInt8} (h₁ : b₁.Accounts held)
    (hfew : held.length < 65536) (hcolors : SameColors b b₁)
    (hmem : ∀ r ∈ l.zip colors, r ∈ held) (hlength : l.length = colors.length)
    (hrefs : ∀ i, b₁.refs i = b.refs i + l.count (indexOf i)) (k : Binding) :
    (b.bindRest k colors).Yields fun r =>
      r = (.ok { k with indices := k.indices ++ l.toArray }, b₁) := by
  induction colors generalizing b l k with
  | nil =>
    obtain rfl := List.length_eq_zero_iff.mp hlength
    obtain rfl : b = b₁ := hcolors.eq fun i => by simpa using (hrefs i).symm
    exact .pure (by simp)
  | cons c colors ih =>
    obtain ⟨index, l, rfl⟩ := List.exists_cons_of_length_eq_add_one hlength
    rw [List.zip_cons_cons, List.forall_mem_cons] at hmem
    obtain ⟨i, rfl, rfl⟩ : ∃ i, index = indexOf i ∧ b₁.stored i = c :=
      eq_indexOf_of_color? (h₁.stored _ hmem.1)
    -- the color is found in `b` although its references are gone, and first where they were
    have hholder : b.holder? (b₁.stored i) = some i := by
      rw [hcolors.holder?_eq]
      exact h₁.holder?_stored (h₁.refs_pos hmem.1 rfl)
    have hi := hrefs i
    rw [List.count_cons_self] at hi
    have hroom : b.refs i + 1 < 65536 := by
      have := h₁.refs_le i
      omega
    have hrest : ∀ j, b₁.refs j =
        (b.setRefs i (b.refs i + 1)).refs j + l.count (indexOf j) := by
      intro j
      rw [refs_setRefs]
      by_cases hj : j = i
      · subst hj
        rw [if_pos rfl, hi]
        omega
      · rw [if_neg hj, hrefs j, List.count_cons_of_ne (by simpa using Ne.symm hj)]
    rw [bindRest_of_bind (bind_of_holder? hholder hroom)]
    have hnext := ih ((sameColors_setRefs b i _).trans hcolors) hmem.2 (by simpa using hlength)
      hrest (k.push (indexOf i) none)
    simpa [Binding.push] using hnext

/-- After a binding was made and its references were given up, the same colors are bound to the same
indices, and the palette is as it was after the binding. -/
theorem bindAll_again (h : b₀.Binds held colors (.ok k, b₁))
    (hfew : colors.length + held.length < 65536) (hcolors : SameColors b b₁)
    (hrefs : ∀ i, b.refs i = b₀.refs i) :
    (b.bindAll colors).Yields fun r => r = (.ok { indices := k.indices }, b₁) := by
  obtain ⟨hsize, hbound, hacc⟩ := h
  have hlength : k.indices.toList.length = colors.length := by simpa using hsize
  have hagain := bindRest_again hacc (by simp; omega) hcolors
    (fun r hr => List.mem_append_left _ hr) hlength (fun i => by rw [hbound.refs, hrefs]) {}
  simpa [bindAll] using hagain

end PaletteBank

/-! ### What a client can count on -/

namespace PaletteClient

variable {w : PaletteClient} {x : UInt16} {uses : List PaletteUse}

/-- Every run in which no count leaves its 16 bits ends, and with the books in order. -/
private theorem exists_run (huses : ¬ (start x).Overdraws uses) :
    ∃ w, ((start x).run uses).outcome = .ok w ∧ w.Sound x :=
  (run_spec (.start x) huses).2

private theorem Sound.admits_iff (h : w.Sound x) {colors : List UInt16}
    (hroom : ¬ w.bank.Overflows colors) : w.bank.Admits colors ↔ w.bank.Fits colors := by
  obtain ⟨-, ⟨cause | k, b⟩, hb, hanswer⟩ := PaletteBank.bindAll_fits h.accounts hroom
  · refine ⟨?_, fun hfits => absurd hfits hanswer.1⟩
    rintro ⟨k, b', hb'⟩
    exact nomatch hb.symm.trans hb'
  · exact ⟨fun _ => hanswer, fun _ => ⟨k, b, hb⟩⟩

/-- Wherever a client has come, a list of colors can be reserved exactly if the colors of the list
and the colors in use are at most 255 together, and is refused for lack of colors otherwise. So
neither the colors of entries without references nor the order of the list make a difference. -/
theorem reserveAll_uses_capacity (huses : ¬ (start x).Overdraws uses) :
    ∃ w, ((start x).run uses).outcome = .ok w ∧ ∀ colors, ¬ w.bank.Overflows colors →
      (w.bank.Admits colors ↔ (w.bank.liveColors ∪ colors.toFinset).card ≤ 255) ∧
      (¬ w.bank.Admits colors →
        ∃ b, (w.bank.bindAll colors).outcome = .ok (.error .outOfColors, b)) ∧
      ∀ x' uses' w' colors', ¬ (start x').Overdraws uses' →
        ((start x').run uses').outcome = .ok w' → ¬ w'.bank.Overflows colors' →
        w'.bank.liveColors = w.bank.liveColors → colors'.toFinset = colors.toFinset →
          (w'.bank.Admits colors' ↔ w.bank.Admits colors) := by
  obtain ⟨w, hw, hsound⟩ := exists_run huses
  refine ⟨w, hw, fun colors hroom => ⟨hsound.admits_iff hroom, fun hrefused => ?_, ?_⟩⟩
  · obtain ⟨-, ⟨cause | k, b⟩, hb, hanswer⟩ := PaletteBank.bindAll_fits hsound.accounts hroom
    · exact ⟨b, by rw [hb, hanswer.2]⟩
    · exact absurd ⟨k, b, hb⟩ hrefused
  · intro x' uses' w' colors' huses' hw' hroom' hlive hcolors
    have hsound' : w'.Sound x' := (run_spec (.start x') huses').of_outcome hw'
    rw [hsound'.admits_iff hroom', hsound.admits_iff hroom, PaletteBank.Fits, PaletteBank.Fits,
      hlive, hcolors]

/-- A color that nobody uses is replaced and then bound again, and a list of 256 different colors is
refused. -/
theorem reserveAll_uses_capacity_replaced :
    let uses := [.reserve 0, .release (1, 0)]
    let many := (List.range 256).map UInt16.ofNat
    ¬ (start 5).Overdraws uses ∧ ∃ w, ((start 5).run uses).outcome = .ok w ∧
      ¬ w.bank.Overflows [9, 0] ∧ w.bank.Admits [9, 0] ∧
      (w.bank.liveColors ∪ [9, 0].toFinset).card ≤ 255 ∧ ¬ w.bank.Overflows many ∧
      ∃ b, (w.bank.bindAll many).outcome = .ok (.error .outOfColors, b) := by
  intro uses many
  have hanswer : ((start 5).run uses).outcome.map (fun w => (w.held,
      (w.bank.bindAll [9, 0]).outcome.map fun r => r.1.toOption.map (·.indices))) =
        .ok ([], .ok (some #[1, 2])) := by
    decide +kernel
  have huses : ¬ (start 5).Overdraws uses := by
    intro hfull
    rw [run_of_overdraws hfull] at hanswer
    exact nomatch hanswer
  obtain ⟨w, hw, hcolors⟩ := reserveAll_uses_capacity huses
  have haccounts := ((run_spec (.start 5) huses).of_outcome hw).accounts
  rw [hw] at hanswer
  obtain ⟨hheld, hbound⟩ := Prod.mk.inj (Except.ok.inj hanswer)
  have hroom : ∀ colors, colors.length < 65536 → ¬ w.bank.Overflows colors :=
    fun colors hlength => haccounts.not_overflows (by simpa [hheld] using hlength)
  have hfew := hroom [9, 0] (by simp)
  have hmany := hroom many (by simp [many])
  have hadmits : w.bank.Admits [9, 0] := by
    obtain ⟨⟨cause | k, b⟩, hb⟩ := haccounts.exists_bindAll_iff.mpr hfew
    · rw [hb] at hbound
      exact nomatch hbound
    · exact ⟨k, b, hb⟩
  have hnodup : many.Nodup := by
    refine List.nodup_range.map_on fun i hi j hj heq => ?_
    rw [List.mem_range] at hi hj
    have htoNat := congrArg UInt16.toNat heq
    rwa [UInt16.toNat_ofNat_of_lt' (by change _ < 65536; omega),
      UInt16.toNat_ofNat_of_lt' (by change _ < 65536; omega)] at htoNat
  refine ⟨huses, w, hw, hfew, hadmits, (hcolors _ hfew).1.mp hadmits, hmany,
    (hcolors many hmany).2.1 fun hfits => ?_⟩
  have hle : many.toFinset.card ≤ (w.bank.liveColors ∪ many.toFinset).card :=
    Finset.card_le_card Finset.subset_union_right
  have hcard : many.toFinset.card = 256 := by
    rw [List.toFinset_card_of_nodup hnodup, List.length_map, List.length_range]
  have := (hcolors many hmany).1.mp hfits
  omega

/-- Wherever a client has come, a reservation of a list of colors that fails has changed nothing,
and one that succeeds can be undone, also after references from before it were given up: the palette
is exactly as if these had been given up without the reservation. -/
theorem cancel_undoes_reserveAll (huses : ¬ (start x).Overdraws uses) :
    ∃ w, ((start x).run uses).outcome = .ok w ∧ ∀ colors,
      ((∃ r, (w.bank.bindAll colors).outcome = .ok r) ↔ ¬ w.bank.Overflows colors) ∧
      ∀ answer b, (w.bank.bindAll colors).outcome = .ok (answer, b) →
        (∀ cause, answer = .error cause → b = w.bank) ∧
        ∀ k, answer = .ok k → ∀ dropped : List (UInt8 × UInt16), dropped.Subperm w.held →
          ∃ b' b₀, (b.releaseAll (dropped.map Prod.fst)).outcome = .ok b' ∧
            (b'.cancel k).outcome = .ok b₀ ∧
            (w.bank.releaseAll (dropped.map Prod.fst)).outcome = .ok b₀ := by
  obtain ⟨w, hw, hsound⟩ := exists_run huses
  refine ⟨w, hw, fun colors => ⟨hsound.accounts.exists_bindAll_iff, fun answer b hb => ?_⟩⟩
  have hroom := hsound.accounts.exists_bindAll_iff.mp ⟨_, hb⟩
  have hbinds := (PaletteBank.bindAll_of_not_overflows hsound.accounts hroom).of_outcome hb
  constructor
  · rintro cause rfl
    exact hbinds.2
  · rintro k rfl dropped hdropped
    obtain ⟨-, hbound, -⟩ := hbinds
    obtain ⟨-, b₀, hb₀, -, b', hb', hbound'⟩ :=
      hbound.releaseAll (hsound.accounts.count_le_refs hdropped)
    obtain ⟨-, b'', hcancel, rfl⟩ := PaletteBank.cancel_spec hbound'
    exact ⟨b', b'', hb', hcancel, hb₀⟩

/-- A color that is shared and one that is bound twice are undone, after the only reference from
before was given up. -/
theorem cancel_undoes_reserveAll_shared :
    ¬ (start 5).Overdraws [.reserve 0] ∧ ∃ w, ((start 5).run [.reserve 0]).outcome = .ok w ∧
      ∃ k b, (w.bank.bindAll [9, 0, 9]).outcome = .ok (.ok k, b) ∧ w.held = [(1, 0)] ∧
        ∃ b' b₀, (b.releaseAll [1]).outcome = .ok b' ∧ (b'.cancel k).outcome = .ok b₀ ∧
          (w.bank.releaseAll [1]).outcome = .ok b₀ := by
  have hanswer : ((start 5).run [.reserve 0]).outcome.map (fun w => (w.held,
      (w.bank.bindAll [9, 0, 9]).outcome.map fun r => r.1.toOption.map (·.indices))) =
        .ok ([(1, 0)], .ok (some #[2, 1, 2])) := by
    decide +kernel
  have huses : ¬ (start 5).Overdraws [.reserve 0] := by
    intro hfull
    rw [run_of_overdraws hfull] at hanswer
    exact nomatch hanswer
  obtain ⟨w, hw, hcolors⟩ := cancel_undoes_reserveAll huses
  rw [hw] at hanswer
  obtain ⟨hheld, hbound⟩ := Prod.mk.inj (Except.ok.inj hanswer)
  rcases hb : (w.bank.bindAll [9, 0, 9]).outcome with fault | ⟨cause | k, b⟩
  · rw [hb] at hbound
    exact nomatch hbound
  · rw [hb] at hbound
    exact nomatch hbound
  · obtain ⟨-, hundo⟩ := (hcolors _).2 _ b hb
    exact ⟨huses, w, hw, k, b, hb, hheld, hundo k rfl [(1, 0)] (by rw [hheld])⟩

end PaletteClient

end SpriteEngine
