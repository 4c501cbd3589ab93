import SpriteEngine.Proofs.Palette

/-!
# Clients of the palette

A client of the palette reserves colors, one at a time or as a list, and gives back what it has
reserved. It may also undo its last reservation of a list, as long as it holds all of it and has
reserved nothing since. A `PaletteClient` keeps the books that this takes: the references that it
holds, each with the color it was obtained for, and the binding that it may undo. What would break
the rules it does not do.

`PaletteClient.Consistent` says what such a client can rely on. The induction needs more than that:
undoing a binding writes old colors back, possibly after some of the references from before were
dropped, so the invariant `PaletteClient.Sound` remembers a palette that these colors are from.
Where the colors are the same and the references fewer, the palette stays in order
(`PaletteBank.Accounts.shrink`), which serves for giving back and for undoing alike.

The one thing that can go wrong is a count of references that leaves its 16 bits:
`PaletteClient.Overdraws` says when.
-/

namespace SpriteEngine

/-! ### The color that nobody is given -/

namespace PaletteBank

variable {b b' b₀ : PaletteBank} {k : Binding}

private theorem color_zero_restore (b : PaletteBank) (old : UInt8 × UInt16) :
    (b.restore old).ram.color 0 = b.ram.color 0 := by
  rw [restore]
  cases entryOf? old.1 with
  | none => rfl
  | some i => simp [(indexOf_ne_zero i).symm]

/-- Putting colors back never touches the transparent index. -/
private theorem color_zero_foldl_restore (b : PaletteBank) (l : List (UInt8 × UInt16)) :
    (l.foldl restore b).ram.color 0 = b.ram.color 0 := by
  induction l generalizing b with
  | nil => rfl
  | cons old l ih => rw [List.foldl_cons, ih, color_zero_restore]

/-- A binding does not write to index 0. -/
private theorem Bound.color_zero (h : Bound b₀ k b) : b.ram.color 0 = b₀.ram.color 0 := by
  rw [← color_zero_foldl_restore b k.overwritten.toList.reverse, h.colors.ram]

theorem sameColors_reset (b : PaletteBank) : SameColors b.reset b := by
  refine ⟨fun i => ?_, rfl⟩
  have hi : b.reset.entries.get i = { b.entries.get i with refs := 0 } := Vector.getElem_map ..
  rw [stored, hi, stored]

theorem refs_reset (b : PaletteBank) (i : Fin 255) : b.reset.refs i = 0 := by
  simp [refs, reset, Vector.get]

end PaletteBank

/-! ### Clients -/

/-- What a client of the palette can do. -/
inductive PaletteUse where
  | reserve (color : UInt16)
  | reserveAll (colors : List UInt16)
  | release (r : UInt8 × UInt16)
  | releaseAll (dropped : List (UInt8 × UInt16))
  /-- Undo the last reservation of a list. -/
  | cancel
  | reset

/-- The colors that are reserved. -/
def PaletteUse.colors : PaletteUse → List UInt16
  | .reserve color => [color]
  | .reserveAll colors => colors
  | _ => []

/-- A palette together with the books of its client. -/
structure PaletteClient where
  bank : PaletteBank
  /-- The references that the client holds, each with the color it was obtained for. -/
  held : List (UInt8 × UInt16) := []
  /-- The last reservation, if it was one of a list. -/
  last : Option (Binding × List UInt16) := none

namespace PaletteClient

open PaletteBank (Bound SameColors)

variable {w w' : PaletteClient} {x : UInt16} {use : PaletteUse} {uses : List PaletteUse}

/-- A client at the start. All that is in palette RAM is 0, except that the color at index 0, which
belongs to nobody, may be any. -/
def start (x : UInt16) : PaletteClient where
  bank := { PaletteBank.blank with ram := PaletteBank.blank.ram.setColor 0 x }

/-- Use the palette. References are given back only if they are held, and a binding is undone only
if all of its references are. A reservation that fails leaves the books alone. -/
def step (w : PaletteClient) : PaletteUse → Traced PaletteClient
  | .reserve color => do
    match ← w.bank.bind color with
    | .error _ => return w
    | .ok ((index, _), bank) => return { bank, held := (index, color) :: w.held }
  | .reserveAll colors => do
    match ← w.bank.bindAll colors with
    | (.error _, bank) => return { w with bank }
    | (.ok k, bank) =>
      let bound := k.indices.toList.zip colors
      return { bank, held := bound ++ w.held, last := some (k, colors) }
  | .release r =>
    if r ∈ w.held then do
      return { w with bank := ← w.bank.release r.1, held := w.held.erase r }
    else
      return w
  | .releaseAll dropped =>
    if dropped.Subperm w.held then do
      let bank ← w.bank.releaseAll (dropped.map Prod.fst)
      return { w with bank, held := w.held.diff dropped }
    else
      return w
  | .cancel =>
    match w.last with
    | none => return w
    | some (k, colors) =>
      let bound := k.indices.toList.zip colors
      if bound.Subperm w.held then do
        return { bank := ← w.bank.cancel k, held := w.held.diff bound }
      else
        return w
  | .reset => return { bank := w.bank.reset }

/-- Use the palette again and again. -/
def run (w : PaletteClient) (uses : List PaletteUse) : Traced PaletteClient :=
  uses.foldlM step w

/-- Along the uses a color is reserved whose entry has 65535 references already. -/
def Overdraws (w : PaletteClient) (uses : List PaletteUse) : Prop :=
  ∃ before use after w', uses = before ++ use :: after ∧ (w.run before).outcome = .ok w' ∧
    w'.bank.Overflows use.colors

/-! ### The invariant -/

/-- Once the colors that the binding has replaced are put back, the palette has the colors of one
that was in order. Of the references to that one and of those of the binding, the client has some
still. -/
def Undoable (w : PaletteClient) (k : Binding) (colors : List UInt16) : Prop :=
  k.indices.size = colors.length ∧ ∃ b₀ held₀, b₀.Accounts held₀ ∧
    SameColors (k.overwritten.toList.reverse.foldl PaletteBank.restore w.bank) b₀ ∧
    ∀ r, w.held.count r ≤ (k.indices.toList.zip colors).count r + held₀.count r

/-- The palette accounts for what the client holds, index 0 has its color still, and the last
binding can be undone. -/
structure Sound (x : UInt16) (w : PaletteClient) : Prop where
  accounts : w.bank.Accounts w.held
  zeroth : w.bank.ram.color 0 = x
  undoable : ∀ k colors, w.last = some (k, colors) → w.Undoable k colors

/-- A client that has done nothing holds no references. -/
theorem Sound.start (x : UInt16) : Sound x (start x) where
  accounts := by
    refine ⟨fun i => ?_, fun r hr => absurd hr List.not_mem_nil, fun i => ?_, fun i j _ _ => ?_⟩
    · exact PaletteBank.refs_blank i
    · rw [PaletteClient.start, PaletteRam.color_setColor, if_neg (PaletteBank.indexOf_ne_zero i)]
      exact (PaletteBank.color_blank _).trans (PaletteBank.stored_blank i).symm
    · exact PaletteBank.refs_blank j
  zeroth := by simp [PaletteClient.start]
  undoable _ _ hlast := nomatch hlast

/-- Some of the references are given back, and the colors stay. -/
private theorem Sound.drop {b : PaletteBank} {held : List (UInt8 × UInt16)} (h : w.Sound x)
    (hb : b.Accounts held) (hcolors : SameColors b w.bank)
    (hle : ∀ r, held.count r ≤ w.held.count r) : Sound x { w with bank := b, held } where
  accounts := hb
  zeroth := by rw [hcolors.ram, h.zeroth]
  undoable k colors hlast := by
    obtain ⟨hsize, b₀, held₀, h₀, hback, hcount⟩ := h.undoable k colors hlast
    exact ⟨hsize, b₀, held₀, h₀, (hcolors.foldl_restore _).trans hback,
      fun r => Nat.le_trans (hle r) (hcount r)⟩

/-- What is held in full can be told apart from the rest. -/
private theorem held_perm_append_diff {dropped : List (UInt8 × UInt16)}
    (h : dropped.Subperm w.held) : w.held.Perm (dropped ++ w.held.diff dropped) :=
  (List.subperm_append_diff_self_of_count_le (List.subperm_ext_iff.mp h)).symm

/-- A binding that is held in full is undone. The colors are those from before it was made, and what
is left of the references are some of those from before. -/
private theorem Sound.cancel {k : Binding} {colors : List UInt16} (h : w.Sound x)
    (hlast : w.last = some (k, colors))
    (hheld : (k.indices.toList.zip colors).Subperm w.held) :
    (w.bank.cancel k).Yields fun b =>
      Sound x { bank := b, held := w.held.diff (k.indices.toList.zip colors) } := by
  obtain ⟨hsize, b₀, held₀, h₀, hback, hcount⟩ := h.undoable k colors hlast
  have hlength : k.indices.toList.length = colors.length := by simpa using hsize
  have hsplit := held_perm_append_diff hheld
  refine (PaletteBank.releaseAll_spec hlength (h.accounts.perm hsplit)).bind ?_
  rintro b ⟨hb, hcolors⟩
  have hsame := (hcolors.foldl_restore k.overwritten.toList.reverse).trans hback
  have hleft : (w.held.diff (k.indices.toList.zip colors)).Subperm held₀ := by
    refine List.subperm_ext_iff.mpr fun r _ => ?_
    have hle := hcount r
    rw [hsplit.count_eq, List.count_append] at hle
    omega
  refine .pure ⟨h₀.shrink hsame hleft fun i => ?_, ?_, fun _ _ hnone => (nomatch hnone)⟩
  · rw [PaletteBank.refs_foldl_restore, hb.refs]
  · rw [PaletteBank.color_zero_foldl_restore, hcolors.ram, h.zeroth]

/-! ### Along runs -/

/-- Any use of the palette keeps the accounts, unless a count overflows. -/
theorem step_spec (h : w.Sound x) (hroom : ¬ w.bank.Overflows use.colors) :
    (w.step use).Yields (Sound x) := by
  cases use with
  | reserve color =>
    obtain ⟨r, hr⟩ := PaletteBank.exists_bind hroom
    refine .lift_bind hr ?_
    rcases r with cause | ⟨⟨index, old⟩, b⟩
    · exact .pure h
    · have hbound := (Bound.refl w.bank).bind h.accounts.shown hr
      exact .pure ⟨h.accounts.bind hr, hbound.color_zero.trans h.zeroth,
        fun _ _ hnone => (nomatch hnone)⟩
  | reserveAll colors =>
    refine (PaletteBank.bindAll_of_not_overflows h.accounts hroom).bind ?_
    rintro ⟨cause | k, b⟩ hk
    · obtain ⟨-, rfl⟩ := hk
      exact .pure h
    · obtain ⟨hsize, hbound, hb⟩ := hk
      refine .pure ⟨hb, hbound.color_zero.trans h.zeroth, ?_⟩
      rintro _ _ ⟨⟩
      exact ⟨hsize, w.bank, w.held, h.accounts, hbound.colors,
        fun r => Nat.le_of_eq List.count_append⟩
  | release r =>
    rw [step]
    split
    · rename_i hr
      have hperm := h.accounts.perm (List.perm_cons_erase hr)
      refine hperm.release.bind fun b hb => .pure (h.drop hb.1 hb.2 fun r' => ?_)
      exact List.erase_sublist.count_le r'
    · exact .pure h
  | releaseAll dropped =>
    rw [step]
    split
    · rename_i hheld
      have hacc := h.accounts.perm (held_perm_append_diff hheld)
      refine hacc.releaseAll.bind fun b hb => .pure (h.drop hb.1 hb.2 fun r => ?_)
      exact (List.diff_sublist ..).count_le r
    · exact .pure h
  | cancel =>
    rw [step]
    cases hlast : w.last with
    | none => exact .pure h
    | some last =>
      obtain ⟨k, colors⟩ := last
      dsimp only
      split
      · rename_i hheld
        exact (h.cancel hlast hheld).bind fun b hb => .pure hb
      · exact .pure h
  | reset =>
    refine .pure ⟨?_, h.zeroth, fun _ _ hnone => (nomatch hnone)⟩
    exact h.accounts.shrink (PaletteBank.sameColors_reset _) List.nil_subperm fun i => by
      rw [PaletteBank.refs_reset]
      rfl

/-- A use that drives a count past its end faults. -/
private theorem step_of_overflows (h : w.bank.Overflows use.colors) :
    w.step use = ⟨[], .error .overflow⟩ := by
  cases use with
  | reserve color =>
    obtain ⟨i, hi, hfull⟩ | ⟨_, _, -, hlater⟩ := h
    · rw [step, PaletteBank.bind_of_full hi hfull]
      rfl
    · exact hlater.elim
  | reserveAll colors =>
    have hfault : w.bank.bindAll colors = ⟨[], .error .overflow⟩ :=
      PaletteBank.bindRest_of_overflows h _
    rw [step, hfault]
    rfl
  | release r => exact h.elim
  | releaseAll dropped => exact h.elim
  | cancel => exact h.elim
  | reset => exact h.elim

theorem run_cons (w : PaletteClient) (use : PaletteUse) (uses : List PaletteUse) :
    w.run (use :: uses) = w.step use >>= fun w => w.run uses :=
  List.foldlM_cons ..

theorem run_append (w : PaletteClient) (before after : List PaletteUse) :
    w.run (before ++ after) = w.run before >>= fun w => w.run after :=
  List.foldlM_append ..

theorem run_spec (h : w.Sound x) (hroom : ¬ w.Overdraws uses) : (w.run uses).Yields (Sound x) := by
  induction uses generalizing w with
  | nil => exact .pure h
  | cons use uses ih =>
    have hstep := step_spec h fun hfull => hroom ⟨[], use, uses, w, rfl, rfl, hfull⟩
    rw [run_cons]
    refine hstep.outcome.bind fun w₁ hw₁ => ih hw₁.1 ?_
    rintro ⟨before, use', after, w₂, rfl, hw₂, hfull⟩
    refine hroom ⟨use :: before, use', after, w₂, rfl, ?_, hfull⟩
    rw [run_cons, Traced.outcome_bind hw₁.2, hw₂]

/-- A run that reserves a color whose count is at its end stops there. -/
theorem run_of_overdraws (h : w.Overdraws uses) : (w.run uses).outcome = .error .overflow := by
  obtain ⟨before, use, after, w', rfl, hw', hfull⟩ := h
  rw [run_append, Traced.outcome_bind hw', run_cons, step_of_overflows hfull, Traced.error_bind]

/-! ### What a client can rely on -/

/-- The palette is what its client thinks it is. -/
structure Consistent (x : UInt16) (w : PaletteClient) : Prop where
  /-- An index has as many references as the client holds to it. -/
  counted : ∀ index, w.bank.refCount index = (w.held.map Prod.fst).count index
  /-- Behind a reference there is still the color it was obtained for. -/
  kept : ∀ r ∈ w.held, w.bank.color? r.1 = some r.2 ∧ w.bank.ram.color r.1 = r.2
  /-- Nobody is given the transparent index, and its place in palette RAM is as it was. -/
  visible : ∀ r ∈ w.held, r.1 ≠ 0
  zeroth : w.bank.ram.color 0 = x
  /-- Palette RAM shows what is stored. -/
  shown : ∀ index ≠ 0, w.bank.color? index = some (w.bank.ram.color index)
  /-- Who needs the same color has the same index. -/
  shared : ∀ i j, w.bank.refCount i ≠ 0 → w.bank.refCount j ≠ 0 →
    w.bank.color? i = w.bank.color? j → i = j

/-- The invariant says all that a client can rely on. -/
private theorem Sound.consistent (h : w.Sound x) : w.Consistent x := by
  have hopaque : ∀ r ∈ w.held, r.1 ≠ 0 := by
    intro r hr
    obtain ⟨i, hi, -⟩ := PaletteBank.eq_indexOf_of_color? (h.accounts.stored r hr)
    rw [hi]
    exact PaletteBank.indexOf_ne_zero i
  have hzero : w.bank.refCount 0 = 0 := rfl
  refine ⟨fun index => ?_, fun r hr => h.accounts.color_of_mem hr, hopaque, h.zeroth,
    fun index hindex => ?_, fun index index' hindex hindex' hcolor => ?_⟩
  · by_cases hindex : index = 0
    · subst hindex
      rw [hzero, eq_comm, List.count_eq_zero]
      intro hmem
      obtain ⟨r, hr, hr0⟩ := List.mem_map.mp hmem
      exact hopaque r hr hr0
    · obtain ⟨i, rfl⟩ := PaletteBank.exists_indexOf hindex
      rw [PaletteBank.refCount_indexOf, h.accounts.refs]
  · obtain ⟨i, rfl⟩ := PaletteBank.exists_indexOf hindex
    rw [PaletteBank.color?_indexOf, h.accounts.shown]
  · have hne : ∀ i, w.bank.refCount i ≠ 0 → i ≠ 0 := fun i hi h0 => hi (h0 ▸ hzero)
    obtain ⟨i, rfl⟩ := PaletteBank.exists_indexOf (hne index hindex)
    obtain ⟨j, rfl⟩ := PaletteBank.exists_indexOf (hne index' hindex')
    rw [PaletteBank.refCount_indexOf] at hindex hindex'
    rw [PaletteBank.color?_indexOf, PaletteBank.color?_indexOf, Option.some_inj] at hcolor
    -- of two entries with the same color, the later one has no references
    rcases Nat.lt_trichotomy i j with hlt | heq | hlt
    · exact absurd (h.accounts.first i j hlt hcolor) hindex'
    · rw [Fin.ext heq]
    · exact absurd (h.accounts.first j i hlt hcolor.symm) hindex

/-- As long as no count leaves its 16 bits, a client can use the palette in any way, and finds it
consistent. Only colors in use are stored once: entries without references may repeat a color. -/
theorem run_consistent (x : UInt16) :
    (∀ uses, ¬ (start x).Overdraws uses → ((start x).run uses).Yields (Consistent x)) ∧
      ∃ uses w i j, ((start x).run uses).outcome = .ok w ∧ w.bank.refCount i ≠ 0 ∧
        w.bank.refCount j = 0 ∧ j ≠ 0 ∧ w.bank.color? i = w.bank.color? j := by
  constructor
  · intro uses hroom
    exact (run_spec (.start x) hroom).mono fun w hw => hw.consistent
  · exact ⟨[.reserve 0], _, 1, 2, rfl, Nat.one_ne_zero, rfl, by decide, rfl⟩

/-- Colors are shared, given back, undone and bound again. -/
theorem run_consistent_reserve_cancel :
    let uses := [.reserve 0, .reserveAll [7, 7, 0], .release (1, 0), .cancel, .reserve 9]
    ¬ (start 5).Overdraws uses ∧ ((start 5).run uses).Yields (Consistent 5) ∧
      ((start 5).run uses).outcome.toOption.map held = some [(1, 9)] := by
  intro uses
  have hheld : ((start 5).run uses).outcome.toOption.map held = some [(1, 9)] := by
    decide +kernel
  have hroom : ¬ (start 5).Overdraws uses := by
    intro hfull
    rw [run_of_overdraws hfull] at hheld
    exact nomatch hheld
  exact ⟨hroom, (run_consistent 5).1 uses hroom, hheld⟩

end PaletteClient

end SpriteEngine
