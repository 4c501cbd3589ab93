import Mathlib.Data.List.Induction
import SpriteEngine.Proofs.Codec
import SpriteEngine.Proofs.Isolation

/-!
# What the descriptors say

A descriptor is written when its slot is given back, when its sprite is drawn for the first time and
at every draw after that. Between these times nothing keeps it in order, and yet each of the 128
descriptors either hides its object or says exactly what the entry of its slot says
(`SlotTable.Faithful`).

`Engine.Tidy` is the invariant for the slots of one sprite. As long as the sprite has not been
described since it was loaded they are hidden, and from then on their descriptors are the words of
their entries, in which no field was cut. The calls on the sprite itself keep it because of what a
draw writes, and the calls on others because these leave the sprite alone (`Engine.Spares.tidy`).

The sprite remembers in its holding whether it was described. `Stage.described_iff_drawnSinceLoad`
says what that means in terms of the calls alone: it was drawn when it had a frame, and has been
loaded ever since (`Stage.DrawnSinceLoad`).
-/

namespace SpriteEngine

/-! ### The attributes of an object -/

theorem Fixed.wholeMod_lt (a : Fixed) {m : Nat} (hm : 0 < m) : a.wholeMod m < m := by
  have hpos : (0 : Int) < 256 * m := by omega
  have hnonneg := Int.emod_nonneg a.bits.toInt (Int.ne_of_gt hpos)
  have hlt := Int.emod_lt_of_pos a.bits.toInt hpos
  rw [wholeMod]
  omega

/-- The attributes show the object of an entry: its size and its tiles, in 256 colors. -/
structure SlotEntry.IsShownBy (entry : SlotEntry) (attrs : Attributes) : Prop where
  disabled : attrs.disabled = false
  color256 : attrs.color256 = true
  size : (⟨attrs.shape, attrs.size⟩ : ObjectSize) = entry.size
  tile : attrs.tileStart.toNat = entry.tile

/-- The descriptor of a slot is made of the attributes in its entry, which can be read off it again
and show the object of the entry. -/
def SlotTable.Faithful (t : SlotTable) (slot : Fin 128) : Prop :=
  ∃ entry, t.entries[slot.val]? = some entry ∧ t.oam.words3 slot = entry.attrs.encode ∧
    (t.oam.words3 slot).decode = entry.attrs ∧ entry.IsShownBy entry.attrs

namespace Engine

variable {c : Config} {e e' : Engine} {s s' : Sprite} {rest : List Sprite} {held held' : Holding}
  {entry : SlotEntry}

/-- The first description of a slot shows the object that it has. -/
private theorem isShownBy_fixedAttributes (h : entry.tile < 65536) :
    entry.IsShownBy (fixedAttributes entry) :=
  ⟨rfl, rfl, rfl, UInt16.toNat_ofNat_of_lt' h⟩

/-- A draw changes neither size nor tiles. -/
private theorem isShownBy_cellAttributes {attrs : Attributes} (h : entry.IsShownBy attrs)
    (s : Sprite) (group : Option Nat) (column row : Nat) :
    entry.IsShownBy (cellAttributes attrs s group column row) :=
  ⟨h.disabled, h.color256, h.size, h.tile⟩

/-- What a draw writes has room in the descriptor: positions wrap around, layers are cut, and there
are 32 groups. -/
private theorem isNarrow_cellAttributes {attrs : Attributes} {group : Option Nat} {column row : Nat}
    (htile : attrs.tileStart.toNat < 1024) (hgroup : ∀ g ∈ group, g < 32) :
    (cellAttributes attrs s group column row).IsNarrow where
  x := by
    have hlt : cellPosition s.x s.scaleX column 512 < 512 := Fixed.wholeMod_lt _ (by decide)
    change (UInt16.ofNat (cellPosition s.x s.scaleX column 512)).toNat < 512
    rw [UInt16.toNat_ofNat_of_lt' (by change _ < 65536; omega)]
    exact hlt
  affineIndex := by
    intro g hg
    obtain ⟨g', hg', rfl⟩ := Option.map_eq_some_iff.mp hg
    have hlt := hgroup g' hg'
    rw [UInt8.toNat_ofNat_of_lt' (by change _ < 256; omega)]
    exact hlt
  tileStart := htile
  priority := by
    change (s.layer % 4).toNat < 4
    rw [UInt8.toNat_mod]
    exact Nat.mod_lt _ (by decide)

/-! ### The slots of a sprite -/

/-- The slots of a sprite are hidden until it is described, and their descriptors are exact from
then on. -/
structure Tidy (e : Engine) (held : Holding) : Prop where
  hidden : held.described = false → ∀ slot : Fin 128, slot.val ∈ held.slots →
    e.slots.oam.words3 slot = .hidden
  written : held.described = true → ∀ slot : Fin 128, slot.val ∈ held.slots →
    ∃ entry, e.slots.entries[slot.val]? = some entry ∧
      e.slots.oam.words3 slot = entry.attrs.encode ∧ entry.IsShownBy entry.attrs ∧
      entry.attrs.IsNarrow

theorem Tidy.faithful (h : e.Tidy held) (hdescribed : held.described = true) {slot : Fin 128}
    (hslot : slot.val ∈ held.slots) : e.slots.Faithful slot := by
  obtain ⟨entry, hentry, hwords, hshown, hnarrow⟩ := h.written hdescribed slot hslot
  exact ⟨entry, hentry, hwords, by rw [hwords, hnarrow.decode_encode], hshown⟩

/-- What spares a sprite leaves its descriptors. -/
theorem Spares.tidy (hs : e.Spares held e') (h : e.Tidy held) : e'.Tidy held where
  hidden hdescribed slot hslot := (hs.words slot hslot).trans (h.hidden hdescribed slot hslot)
  written hdescribed slot hslot := by
    rw [hs.entries slot hslot, hs.words slot hslot]
    exact h.written hdescribed slot hslot

/-- What was not in use is hidden, also after it was taken. -/
private theorem Loads.tidy {refs : List (UInt8 × UInt16)} (h : Sound c e (s :: rest))
    (hl : e.Loads s refs (.ok (), e', s')) (hheld : s'.held = some held) : e'.Tidy held := by
  obtain ⟨-, slots, k, rfl, ht, -⟩ := hl
  obtain rfl : _ = held := Option.some.inj hheld
  refine ⟨fun _ slot hslot => ?_, fun hdescribed => (nomatch hdescribed)⟩
  rw [ht.oam]
  exact h.table.hidden slot (ht.unused slot hslot)

private theorem Uploads.tidy {frame : Nat} {fresh : Bool}
    (hu : e.Uploads s frame (.ok fresh, e', s')) (ht : ∀ held, s.held = some held → e.Tidy held)
    (hheld : s'.held = some held) :
    e'.Tidy held := by
  obtain ⟨held₀, ram, hheld₀, -, rfl, rfl, -⟩ := hu
  obtain rfl : { held₀ with frame } = held := Option.some.inj hheld
  exact ⟨(ht held₀ hheld₀).hidden, (ht held₀ hheld₀).written⟩

private theorem Refreshes.tidy (hr : e.Refreshes s (e', s'))
    (ht : ∀ held, s.held = some held → e.Tidy held) (hheld : s'.held = some held) :
    e'.Tidy held := by
  obtain ⟨heq, -⟩ | ⟨⟨fresh, hu⟩, -⟩ := hr
  · obtain ⟨rfl, rfl⟩ : e' = e ∧ s' = s := by simpa using heq
    exact ht held hheld
  · exact hu.tidy ht hheld

/-- Every descriptor of the sprite is written, and its numbers fit their bits. -/
private theorem Describes.tidy {groups : List Nat} (hd : e.Describes s held groups (e', held'))
    (htable : e.slots.Sound) (hcapacity : e.slots.tiles.capacity ≤ 1024)
    (hused : ∀ slot ∈ held.slots, e.slots.isUsed slot = true) (h : e.Tidy held) :
    e'.Tidy held' := by
  have hgroup : ∀ g ∈ held'.affine, g < 32 := fun g hg =>
    Nat.lt_of_lt_of_le (hd.affine.lt g (List.mem_append_left _ (by simpa using hg)))
      hd.affine.count_le
  have hheld : held' = { held with described := true, affine := held'.affine } := hd.held
  have hslots : held'.slots = held.slots := by rw [hheld]
  have hdescribed : held'.described = true := by rw [hheld]
  refine ⟨fun hnot => absurd (hnot.symm.trans hdescribed) (by simp), fun _ slot hslot => ?_⟩
  rw [hslots] at hslot
  obtain ⟨k, hk⟩ := List.mem_iff_getElem?.mp hslot
  obtain ⟨entry, hentry, hfree⟩ := SlotTable.exists_entry (hused slot hslot)
  have htile : entry.tile < 1024 := by
    have hle := htable.object_le (SlotTable.object?_eq_some.mpr ⟨entry, hentry, hfree, rfl, rfl⟩)
    have hpos := entry.size.tiles_pos
    omega
  -- the draw starts from attributes that show the object already
  have hbase : entry.IsShownBy (baseAttributes held entry) := by
    rw [baseAttributes]
    split
    · rename_i hbefore
      obtain ⟨entry', hentry', -, hshown, -⟩ := h.written hbefore slot hslot
      obtain rfl : entry = entry' := Option.some.inj (hentry.symm.trans hentry')
      exact hshown
    · exact isShownBy_fixedAttributes (by omega)
  obtain ⟨hentry', hwords⟩ := hd.written k slot entry hk hentry
  refine ⟨_, hentry', hwords slot rfl, ?_, ?_⟩
  · have hshown := isShownBy_cellAttributes hbase s held'.affine (k % s.texture.grid.columns)
      (k / s.texture.grid.columns)
    exact ⟨hshown.disabled, hshown.color256, hshown.size, hshown.tile⟩
  · exact isNarrow_cellAttributes (by rw [hbase.tile]; exact htile) hgroup

/-- A draw describes the sprite, or leaves its descriptors if it has no frame. -/
private theorem Draws.tidy {groups : List Nat} (h : Sound c e (s :: rest)) (hc : c.tileUnits ≤ 1024)
    (hd : e.Draws s groups (.ok (), e', s')) (ht : ∀ held, s.held = some held → e.Tidy held)
    (hheld : s'.held = some held) : e'.Tidy held := by
  obtain ⟨e₁, s₁, held₁, -, hr, hheld₁, hs'⟩ := hd
  have h₁ := (h.restyle tick_texture tick_held).refreshes hr
  have ht₁ := hr.tidy (fun held hheld => ht held (tick_held.symm.trans hheld)) hheld₁
  obtain ⟨-, rfl, rfl⟩ | ⟨-, held', hd, rfl⟩ := hs'
  · obtain rfl : held₁ = held := Option.some.inj (hheld₁.symm.trans hheld)
    exact ht₁
  · obtain rfl : held' = held := Option.some.inj hheld
    exact hd.tidy h₁.table (by rw [h₁.capacity]; exact hc)
      (fun slot hslot => h₁.isUsed_of_held List.mem_cons_self hheld₁ hslot) ht₁

/-- A call leaves the slots of its sprite tidy. -/
private theorem perform_tidy (h : Sound c e (s :: rest)) (hc : c.tileUnits ≤ 1024)
    (ht : ∀ held, s.held = some held → e.Tidy held) (call : Call) :
    (e.perform s call).Yields fun r => ∀ held, r.2.2.held = some held → r.2.1.Tidy held := by
  refine (perform_cases h call).mono fun r hr held hheld => ?_
  cases hr with
  | refused => exact ht held hheld
  | load hl => exact hl.tidy h hheld
  | upload hu => exact hu.tidy ht hheld
  | free hf =>
    obtain ⟨-, -, rfl, -⟩ := hf
    exact nomatch hheld
  | draw hd => exact hd.tidy h hc ht hheld
  | restyle => exact ht held hheld

/-- A descriptor can name every tile of an engine. -/
theorem tileUnits_le (he : Engine.new c = .ok e) : c.tileUnits ≤ 1024 :=
  (Config.validate_eq_ok_iff.mp (Engine.new_eq_ok_iff.mp he).1).1

end Engine

/-! ### Which sprites are described -/

/-- After a draw, a sprite counts as described if it did so before or has a frame. -/
private theorem Engine.Draws.described {e e' : Engine} {s s' : Sprite} {groups : List Nat}
    (hd : e.Draws s groups (.ok (), e', s')) {held : Holding} (hheld : s'.held = some held) :
    held.described = true ↔ s.held.any (·.described) = true ∨ held.frame ≠ none := by
  obtain ⟨e₁, s₁, held₁, hloaded, hr, hheld₁, hs'⟩ := hd
  obtain ⟨held₀, hheld₀⟩ := Option.isSome_iff_exists.mp hloaded
  obtain ⟨-, frame, hframe⟩ := hr.exists_held (tick_held.trans hheld₀)
  obtain rfl : { held₀ with frame } = held₁ := Option.some.inj (hframe.symm.trans hheld₁)
  obtain ⟨hnone, rfl, rfl⟩ | ⟨hsome, held', hd, rfl⟩ := hs'
  · obtain rfl : _ = held := Option.some.inj (hheld₁.symm.trans hheld)
    dsimp only at hnone ⊢
    simp [hheld₀, hnone]
  · obtain rfl : held' = held := Option.some.inj hheld
    have hheld' : held' = { held₀ with frame, described := true, affine := held'.affine } :=
      hd.held
    have hdescribed : held'.described = true := by rw [hheld']
    have hframe' : held'.frame = frame := by rw [hheld']
    simpa [hdescribed, hframe'] using .inr hsome

/-- A loaded sprite counts as described after a call if it did so before, or if the call has drawn
it with a frame. -/
private theorem Engine.perform_described {c : Config} {e : Engine} {s : Sprite} {rest : List Sprite}
    (h : Sound c e (s :: rest)) (call : Call) :
    (e.perform s call).Yields fun r => ∀ held, r.2.2.held = some held → (held.described = true ↔
      s.held.any (·.described) = true ∨ call = .draw ∧ held.frame ≠ none) := by
  refine (perform_cases h call).mono fun r hr held hheld => ?_
  cases hr with
  | refused hcall =>
    have hheld : s.held = some held := hheld
    have hdraw : call ≠ .draw := fun heq => by simp [hcall heq] at hheld
    simp [hheld, hdraw]
  | load hl =>
    obtain ⟨hnone, slots, k, rfl, -⟩ := hl
    obtain rfl : _ = held := Option.some.inj hheld
    simp [hnone]
  | upload hu =>
    obtain ⟨held₀, ram, hheld₀, -, -, rfl, -⟩ := hu
    obtain rfl : _ = held := Option.some.inj hheld
    simp [hheld₀]
  | free hf =>
    obtain ⟨-, -, rfl, -⟩ := hf
    exact nomatch hheld
  | draw hd => simpa using hd.described hheld
  | restyle =>
    have hheld : s.held = some held := hheld
    simp [hheld]

namespace Stage

variable {c : Config} {e : Engine} {w w' : Stage} {calls : List (Nat × Call)} {i : Nat}

/-- The sprite with the given number is loaded, and what it holds has the property `P`. -/
def Holds (w : Stage) (i : Nat) (P : Holding → Prop) : Prop :=
  ∃ s held, w.sprites[i]? = some s ∧ s.held = some held ∧ P held

/-- What a step changes: a sprite with a frame is described by a draw, and by nothing else. -/
private theorem step_described (h : Sound c w) (j : Nat) (call : Call) :
    (w.step j call).Yields fun r => ∀ i s held, r.2.sprites[i]? = some s → s.held = some held →
      (held.described = true ↔ w.Holds i (·.described = true) ∨
        (j, call) = (i, .draw) ∧ held.frame ≠ none) := by
  have hown : (w.step j call).Yields fun r => ∀ s held, r.2.sprites[j]? = some s →
      s.held = some held → (held.described = true ↔ w.Holds j (·.described = true) ∨
        (j, call) = (j, .draw) ∧ held.frame ≠ none) := by
    cases hs : w.sprites[j]? with
    | none =>
      rw [step, hs]
      refine .pure fun s held hs' => ?_
      exact absurd (hs.symm.trans hs') (by simp)
    | some s =>
      refine (step_own hs (Engine.perform_described (h.front hs) call)).mono ?_
      rintro r ⟨s', hs', hdescribed⟩ s₁ held hs₁ hheld
      obtain rfl : s' = s₁ := Option.some.inj (hs'.symm.trans hs₁)
      simpa [Holds, hs, Option.any_eq_true] using hdescribed held hheld
  refine (hown.and (step_undisturbed h j call)).mono ?_
  rintro r ⟨hown, -, hundisturbed⟩ i s held hs hheld
  by_cases hi : i = j
  · subst hi
    exact hown s held hs hheld
  · have hne : ¬ j = i := fun heq => hi heq.symm
    rw [hundisturbed.sprites i hi] at hs
    simp [Holds, hs, hheld, hne]

/-! ### Which sprites were drawn -/

/-- After the calls, the sprite with the given number is loaded, and what it holds has the
property `P`. -/
def HoldsAfter (w : Stage) (calls : List (Nat × Call)) (i : Nat) (P : Holding → Prop) : Prop :=
  ∃ w', (w.run calls).outcome = .ok w' ∧ w'.Holds i P

/-- Among the calls is a draw of the sprite after which it had a frame, and after that draw, as well
as after every call that followed it, the sprite was loaded. -/
def DrawnSinceLoad (w : Stage) (calls : List (Nat × Call)) (i : Nat) : Prop :=
  ∃ before after, calls = before ++ (i, .draw) :: after ∧
    w.HoldsAfter (before ++ [(i, .draw)]) i (·.frame ≠ none) ∧
    ∀ mid, mid <+: after → w.HoldsAfter (before ++ (i, .draw) :: mid) i fun _ => True

theorem holdsAfter_iff (hw : (w.run calls).outcome = .ok w') {P : Holding → Prop} :
    w.HoldsAfter calls i P ↔ w'.Holds i P := by
  constructor
  · rintro ⟨w₁, hw₁, hholds⟩
    obtain rfl : w' = w₁ := Except.ok.inj (hw.symm.trans hw₁)
    exact hholds
  · exact fun hholds => ⟨w', hw, hholds⟩

/-- With one more call, the sprite has to be loaded still, and it was drawn before or just now. -/
theorem drawnSinceLoad_concat {call : Nat × Call} :
    w.DrawnSinceLoad (calls ++ [call]) i ↔ w.HoldsAfter (calls ++ [call]) i (fun _ => True) ∧
      (w.DrawnSinceLoad calls i ∨
        call = (i, .draw) ∧ w.HoldsAfter (calls ++ [call]) i (·.frame ≠ none)) := by
  constructor
  · rintro ⟨before, after, hcalls, hframe, hloaded⟩
    rcases List.eq_nil_or_concat' after with rfl | ⟨after, last, rfl⟩
    · obtain ⟨rfl, rfl⟩ : calls = before ∧ call = (i, .draw) := by simpa using hcalls
      exact ⟨hloaded [] (List.prefix_refl _), .inr ⟨rfl, hframe⟩⟩
    · obtain ⟨rfl, rfl⟩ : calls = before ++ (i, .draw) :: after ∧ call = last := by
        rw [← List.cons_append, ← List.append_assoc] at hcalls
        simpa using List.append_inj' hcalls rfl
      refine ⟨?_, .inl ⟨before, after, rfl, hframe, fun mid hmid => ?_⟩⟩
      · simpa using hloaded (after ++ [call]) (List.prefix_refl _)
      · exact hloaded mid (hmid.trans (List.prefix_append ..))
  · rintro ⟨hloaded, ⟨before, after, rfl, hframe, hbefore⟩ | ⟨rfl, hframe⟩⟩
    · refine ⟨before, after ++ [call], by simp, hframe, fun mid hmid => ?_⟩
      rcases List.prefix_concat_iff.mp hmid with rfl | hmid
      · simpa using hloaded
      · exact hbefore mid hmid
    · refine ⟨calls, [], rfl, hframe, fun mid hmid => ?_⟩
      rw [List.prefix_nil.mp hmid]
      exact hloaded

/-- From a stage without loaded sprites, the sprites that count as described are those that were
drawn with a frame since they were loaded. -/
theorem described_iff_drawnSinceLoad (h : Sound c w) (hnone : ∀ s ∈ w.sprites, s.held = none)
    (calls : List (Nat × Call)) (i : Nat) :
    w.HoldsAfter calls i (·.described = true) ↔ w.DrawnSinceLoad calls i := by
  induction calls using List.reverseRecOn with
  | nil =>
    constructor
    · rintro ⟨_, ⟨⟩, s, held, hs, hheld, -⟩
      exact absurd ((hnone s (List.mem_of_getElem? hs)).symm.trans hheld) (by simp)
    · rintro ⟨before, after, hcalls, -⟩
      simp at hcalls
  | append_singleton calls call ih =>
    obtain ⟨-, w₁, hw₁, h₁⟩ := run_spec h calls
    obtain ⟨-, ⟨answer, w₂⟩, hstep, hdescribed⟩ := step_described h₁ call.1 call.2
    have hw₂ := run_concat hw₁ hstep
    rw [drawnSinceLoad_concat, ← ih, holdsAfter_iff hw₁, holdsAfter_iff hw₂, holdsAfter_iff hw₂,
      holdsAfter_iff hw₂]
    constructor
    · rintro ⟨s, held, hs, hheld, hflag⟩
      refine ⟨⟨s, held, hs, hheld, trivial⟩, ((hdescribed i s held hs hheld).mp hflag).imp_right ?_⟩
      exact fun hdraw => ⟨hdraw.1, s, held, hs, hheld, hdraw.2⟩
    · rintro ⟨⟨s, held, hs, hheld, -⟩, hor⟩
      refine ⟨s, held, hs, hheld, (hdescribed i s held hs hheld).mpr (hor.imp_right ?_)⟩
      rintro ⟨hdraw, s', held', hs', hheld', hframe⟩
      obtain rfl : s = s' := Option.some.inj (hs.symm.trans hs')
      obtain rfl : held = held' := Option.some.inj (hheld.symm.trans hheld')
      exact ⟨hdraw, hframe⟩

/-! ### Along runs -/

/-- The slots of every sprite are tidy. -/
def Tidy (w : Stage) : Prop :=
  ∀ (i : Nat) s, w.sprites[i]? = some s → ∀ held, s.held = some held → w.engine.Tidy held

/-- The step of the induction: the sprite of the call by what the call does, the others because they
are spared. -/
theorem step_tidy (h : Sound c w) (hc : c.tileUnits ≤ 1024) (ht : w.Tidy) (i : Nat) (call : Call) :
    (w.step i call).Yields fun r => Sound c r.2 ∧ r.2.Tidy := by
  have hown : (w.step i call).Yields fun r => ∀ s, r.2.sprites[i]? = some s →
      ∀ held, s.held = some held → r.2.engine.Tidy held := by
    cases hs : w.sprites[i]? with
    | none =>
      rw [step, hs]
      exact .pure (ht i)
    | some s =>
      refine (step_own hs (Engine.perform_tidy (h.front hs) hc (ht i s hs) call)).mono ?_
      rintro r ⟨s', hs', htidy⟩ s₁ hs₁
      obtain rfl : s' = s₁ := Option.some.inj (hs'.symm.trans hs₁)
      exact htidy
  refine (hown.and (step_undisturbed h i call)).mono ?_
  rintro r ⟨hown, hsound, hundisturbed⟩
  refine ⟨hsound, fun j s hs held hheld => ?_⟩
  by_cases hj : j = i
  · subst hj
    exact hown s hs held hheld
  · rw [hundisturbed.sprites j hj] at hs
    exact (hundisturbed.spares j hj s hs held hheld).tidy (ht j s hs held hheld)

private theorem run_tidy (h : Sound c w) (hc : c.tileUnits ≤ 1024) (ht : w.Tidy)
    (calls : List (Nat × Call)) : (w.run calls).Yields fun w' => Sound c w' ∧ w'.Tidy := by
  refine Traced.Yields.foldlM (fun _ w' => Sound c w' ∧ w'.Tidy) (fun call left w hw => ?_) ⟨h, ht⟩
  rw [map_eq_pure_bind]
  exact (step_tidy hw.1 hc hw.2 call.1 call.2).bind fun r hr => .pure hr

/-- Every run from the start ends, and in a sound stage whose slots are tidy. -/
theorem exists_run_tidy (he : Engine.new c = .ok e) (textures : List Texture)
    (calls : List (Nat × Call)) :
    ∃ w, ((start e textures).run calls).outcome = .ok w ∧ Sound c w ∧ w.Tidy := by
  have htidy : (start e textures).Tidy := by
    intro i s hs held hheld
    obtain ⟨texture, -, rfl⟩ := List.mem_map.mp (List.mem_of_getElem? hs)
    exact nomatch hheld
  exact (run_tidy (.start he textures) (Engine.tileUnits_le he) htidy calls).2

/-- Wherever a run has led a stage, each descriptor is in one of two situations: its slot belongs to
a sprite that was drawn with a frame since it was loaded, and then it says what its entry says, or
it hides its object. -/
theorem descriptors_show_what_was_drawn (he : Engine.new c = .ok e) (textures : List Texture)
    (calls : List (Nat × Call)) :
    ∃ w, ((start e textures).run calls).outcome = .ok w ∧ ∀ slot : Fin 128,
      (∃ i, w.Holds i (slot.val ∈ ·.slots) ∧ (start e textures).DrawnSinceLoad calls i) ∧
          w.engine.slots.Faithful slot ∨
        (¬ ∃ i, w.Holds i (slot.val ∈ ·.slots) ∧ (start e textures).DrawnSinceLoad calls i) ∧
          w.engine.slots.oam.words3 slot = .hidden := by
  have hstart := Sound.start he textures
  have hnone : ∀ s ∈ (start e textures).sprites, s.held = none := by
    intro s hs
    obtain ⟨texture, -, rfl⟩ := List.mem_map.mp hs
    rfl
  have htiles : c.tileUnits ≤ 1024 :=
    (Config.validate_eq_ok_iff.mp (Engine.new_eq_ok_iff.mp he).1).1
  have htidy : (start e textures).Tidy := fun i s hs held hheld =>
    absurd ((hnone s (List.mem_of_getElem? hs)).symm.trans hheld) (by simp)
  obtain ⟨-, w, hw, hsound, htidy⟩ := run_tidy hstart htiles htidy calls
  have hdrawn : ∀ i, w.Holds i (·.described = true) ↔ (start e textures).DrawnSinceLoad calls i :=
    fun i => (holdsAfter_iff hw).symm.trans (described_iff_drawnSinceLoad hstart hnone calls i)
  refine ⟨w, hw, fun slot => ?_⟩
  by_cases hbelongs : ∃ i, w.Holds i (slot.val ∈ ·.slots) ∧
      (start e textures).DrawnSinceLoad calls i
  · refine .inl ⟨hbelongs, ?_⟩
    obtain ⟨i, ⟨s, held, hs, hheld, hslot⟩, hi⟩ := hbelongs
    obtain ⟨s', held', hs', hheld', hdescribed⟩ := (hdrawn i).mpr hi
    obtain rfl : s = s' := Option.some.inj (hs.symm.trans hs')
    obtain rfl : held = held' := Option.some.inj (hheld.symm.trans hheld')
    exact (htidy i s hs held hheld).faithful hdescribed hslot
  · refine .inr ⟨hbelongs, ?_⟩
    cases hused : w.engine.slots.isUsed slot with
    | false => exact hsound.table.hidden slot hused
    | true =>
      obtain ⟨s, hs, held, hheld, hslot⟩ := Engine.Sound.exists_holder hsound hused
      obtain ⟨i, hs⟩ := List.mem_iff_getElem?.mp hs
      -- a sprite that is described was drawn
      refine (htidy i s hs held hheld).hidden ?_ slot hslot
      rw [← Bool.not_eq_true]
      exact fun hdescribed =>
        hbelongs ⟨i, ⟨s, held, hs, hheld, hslot⟩, (hdrawn i).mp ⟨s, held, hs, hheld, hdescribed⟩⟩

/-- Of two sprites that are loaded, one is drawn. -/
theorem descriptors_show_what_was_drawn_blackTile :
    ∃ w, ((start (.ofConfig ⟨2, 2, 1⟩) [.blackTile, .blackTile]).run
      [(0, .load), (1, .load), (0, .draw)]).outcome = .ok w ∧
      (∃ i, w.Holds i (0 ∈ ·.slots) ∧ (start (.ofConfig ⟨2, 2, 1⟩)
        [.blackTile, .blackTile]).DrawnSinceLoad [(0, .load), (1, .load), (0, .draw)] i) ∧
      w.engine.slots.Faithful 0 ∧ w.engine.slots.oam.words3 1 = .hidden := by
  have hwords : (((start (.ofConfig ⟨2, 2, 1⟩) [.blackTile, .blackTile]).run
      [(0, .load), (1, .load), (0, .draw)]).outcome.map fun w =>
        (w.engine.slots.oam.words3 0, w.engine.slots.oam.words3 1)) =
          .ok (⟨8192, 0, 0⟩, .hidden) := by decide +kernel
  obtain ⟨w, hw, hslots⟩ := descriptors_show_what_was_drawn (c := ⟨2, 2, 1⟩) rfl
    [.blackTile, .blackTile] [(0, .load), (1, .load), (0, .draw)]
  rw [hw] at hwords
  obtain ⟨hfirst, hsecond⟩ := Prod.mk.inj (Except.ok.inj hwords)
  refine ⟨w, hw, ?_⟩
  obtain ⟨hbelongs, hfaithful⟩ | ⟨-, hhidden⟩ := hslots 0
  · exact ⟨hbelongs, hfaithful, hsecond⟩
  · exact absurd (hfirst.symm.trans hhidden) (by decide)

end Stage

end SpriteEngine
