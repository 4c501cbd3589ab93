import Mathlib.Algebra.Ring.Nat
import Mathlib.Order.Interval.Finset.Nat
import SpriteEngine.Proofs.Tiles

/-!
# The pool of tiles is a bitmap

A `Bitmap` says of each tile whether it is free, and nothing else. `Bitmap.serve` is the obvious
machine over it: to reserve a run it tries one start after the other, and to give a run back it sets
bits. `TilePool.serve` is the same interface over the pool, which keeps zones in place of bits.

`TilePool.Mirrors p m` relates the two states by the tiles that are free in them.
`TilePool.serve_mirrors` is the step lemma: the two machines give the same answer to every call and
mirror each other again, or both of them fault. By induction they agree along every session
(`TilePool.session_mirrors`).

What the pool says about itself can then be said about the bitmap (`TilePool.Represents`): its zones
are the maximal runs of free tiles, their total length is the number of free tiles, and the longest
of them is the longest run that can be reserved. As a bitmap does not remember the order in which
its bits were set, neither does the pool.
-/

namespace SpriteEngine

/-! ### Calls -/

/-- What can be asked of a pool of tiles. -/
inductive TileCall where
  | reserve (n : Nat)
  | release (start n : Nat)
  | reset

/-- Give a range of tiles back, as a call. -/
def TileCall.giveBack (range : Nat × Nat) : TileCall :=
  .release range.1 range.2

/-- Tiles that are given back are below the capacity. -/
def TileCall.InRange (capacity : Nat) : TileCall → Prop
  | .release start n => start + n ≤ capacity
  | _ => True

/-- An answer to a call: the first tile, if tiles were reserved. -/
abbrev TileAnswer := Except PoolError (Option Nat)

/-- Carry out calls one after the other, up to a fault, and collect the answers. -/
def session {σ : Type} (serve : σ → TileCall → Checked (TileAnswer × σ)) (s : σ) :
    List TileCall → Checked (List TileAnswer × σ)
  | [] => .ok ([], s)
  | call :: calls => do
    let (answer, s) ← serve s call
    let (answers, s) ← session serve s calls
    return (answer :: answers, s)

/-- Carry out a call on a pool. -/
def TilePool.serve (p : TilePool) : TileCall → Checked (TileAnswer × TilePool)
  | .reserve n => do
    match ← p.reserve n with
    | .error cause => return (.error cause, p)
    | .ok (start, p) => return (.ok (some start), p)
  | .release start n => do
    match ← p.release start n with
    | .error cause => return (.error cause, p)
    | .ok p => return (.ok none, p)
  | .reset => return (.ok none, p.reset)

/-! ### Bitmaps -/

/-- A bit for each tile, which is set while the tile is free. -/
abbrev Bitmap (capacity : Nat) := Vector Bool capacity

namespace Bitmap

variable {capacity : Nat}

/-- A bitmap in which every tile is free. -/
def allFree (capacity : Nat) : Bitmap capacity :=
  Vector.replicate capacity true

/-- Whether a tile is free. Tiles from the capacity on are not. -/
def isFree (m : Bitmap capacity) (tile : Nat) : Bool :=
  m[tile]?.getD false

/-- All `n` tiles from tile `start` on are free. -/
def HasRun (m : Bitmap capacity) (start n : Nat) : Prop :=
  ∀ k < n, m.isFree (start + k)

/-- One of the `n` tiles from tile `start` on is free. -/
def MeetsRun (m : Bitmap capacity) (start n : Nat) : Prop :=
  ∃ k < n, m.isFree (start + k)

instance (m : Bitmap capacity) (start n : Nat) : Decidable (m.HasRun start n) :=
  inferInstanceAs (Decidable (∀ k < n, _))

instance (m : Bitmap capacity) (start n : Nat) : Decidable (m.MeetsRun start n) :=
  inferInstanceAs (Decidable (∃ k < n, _))

/-- Set or clear the bits of `n` tiles from tile `start` on. -/
def mark (m : Bitmap capacity) (start n : Nat) (free : Bool) : Bitmap capacity :=
  m.mapIdx fun tile bit => if start ≤ tile ∧ tile < start + n then free else bit

/-- Carry out a call on a bitmap. -/
def serve (m : Bitmap capacity) : TileCall → Checked (TileAnswer × Bitmap capacity)
  | .reserve n =>
    if n = 0 then .ok (.error .emptyRange, m)
    else match (List.range capacity).find? fun start => m.HasRun start n with
      | none => .ok (.error .outOfTiles, m)
      | some start => .ok (.ok (some start), m.mark start n false)
  | .release start n =>
    if n = 0 then .ok (.error .emptyRange, m)
    else if m.MeetsRun start n then .error .doubleRelease
    else .ok (.ok none, m.mark start n true)
  | .reset => .ok (.ok none, allFree capacity)

/-- The zone is a run of free tiles that cannot be made longer. -/
structure IsMaximal (m : Bitmap capacity) (z : Zone) : Prop where
  length_pos : 0 < z.length
  free : m.HasRun z.start z.length
  stop : m.isFree (z.start + z.length) = false
  pred : 0 < z.start → m.isFree (z.start - 1) = false

/-- The number of free tiles. -/
def freeCount (m : Bitmap capacity) : Nat :=
  ((Finset.range capacity).filter fun tile => m.isFree tile).card

variable {m : Bitmap capacity} {start n tile : Nat}

theorem isFree_allFree : (allFree capacity).isFree tile = decide (tile < capacity) := by
  by_cases h : tile < capacity <;> simp [isFree, allFree, h]

theorem isFree_mark (free : Bool) : (m.mark start n free).isFree tile =
    if tile < capacity ∧ start ≤ tile ∧ tile < start + n then free else m.isFree tile := by
  rw [isFree, mark, Vector.getElem?_mapIdx]
  by_cases h : tile < capacity
  · rw [isFree, Vector.getElem?_eq_getElem h]
    simp only [h, true_and, Option.map_some, Option.getD_some]
  · simp [isFree, h]

/-- A run is free if each of its tiles is. -/
theorem hasRun_iff : m.HasRun start n ↔ ∀ t, Zone.Covers ⟨start, n⟩ t → m.isFree t = true := by
  constructor
  · rintro h t ⟨hle, hlt⟩
    dsimp only at hle hlt
    have := h (t - start) (by omega)
    rwa [Nat.add_sub_cancel' hle] at this
  · intro h k hk
    exact h (start + k) ⟨Nat.le_add_right _ _, Nat.add_lt_add_left hk _⟩

theorem meetsRun_iff : m.MeetsRun start n ↔ ∃ t, Zone.Covers ⟨start, n⟩ t ∧ m.isFree t = true := by
  constructor
  · rintro ⟨k, hk, hfree⟩
    exact ⟨start + k, ⟨Nat.le_add_right _ _, Nat.add_lt_add_left hk _⟩, hfree⟩
  · rintro ⟨t, ⟨hle, hlt⟩, hfree⟩
    dsimp only at hle hlt
    exact ⟨t - start, by omega, by rwa [Nat.add_sub_cancel' hle]⟩

end Bitmap

/-! ### Sessions -/

section Session

variable {σ : Type} {serve : σ → TileCall → Checked (TileAnswer × σ)} {s s' : σ}
  {call : TileCall} {calls : List TileCall} {answers : List TileAnswer}

/-- A session ends well if its first call does and the rest of the session does. -/
private theorem session_cons_eq_ok : session serve s (call :: calls) = .ok (answers, s') ↔
    ∃ answer s₁ rest, serve s call = .ok (answer, s₁) ∧
      session serve s₁ calls = .ok (rest, s') ∧ answers = answer :: rest := by
  rw [session]
  rcases serve s call with fault | ⟨answer, s₁⟩
  · simp [bind, Except.bind]
  · rw [Checked.ok_bind]
    rcases hrest : session serve s₁ calls with fault | ⟨rest, s₂⟩
    · simp [bind, Except.bind, hrest]
    · simp [bind, Except.bind, pure, Except.pure, hrest, eq_comm, and_comm]

/-- A session faults if its first call does or the rest of the session does. -/
private theorem session_cons_eq_error {fault : Fault} :
    session serve s (call :: calls) = .error fault ↔ serve s call = .error fault ∨
      ∃ answer s₁, serve s call = .ok (answer, s₁) ∧ session serve s₁ calls = .error fault := by
  rw [session]
  rcases serve s call with fault' | ⟨answer, s₁⟩
  · simp [bind, Except.bind]
  · rw [Checked.ok_bind]
    rcases hrest : session serve s₁ calls with fault' | ⟨rest, s₂⟩
    · simp [bind, Except.bind, hrest]
    · simp [bind, Except.bind, pure, Except.pure, hrest]

/-- A session can be cut in two. -/
private theorem session_append_eq_ok {calls' : List TileCall} :
    session serve s (calls ++ calls') = .ok (answers, s') ↔
      ∃ first s₁ rest, session serve s calls = .ok (first, s₁) ∧
        session serve s₁ calls' = .ok (rest, s') ∧ answers = first ++ rest := by
  induction calls generalizing s answers with
  | nil => simp [session]
  | cons call calls ih =>
    rw [List.cons_append, session_cons_eq_ok]
    constructor
    · rintro ⟨answer, s₁, rest, hcall, hrest, rfl⟩
      obtain ⟨first, s₂, rest, hfirst, hrest', rfl⟩ := ih.mp hrest
      exact ⟨answer :: first, s₂, rest,
        session_cons_eq_ok.mpr ⟨answer, s₁, first, hcall, hfirst, rfl⟩, hrest', rfl⟩
    · rintro ⟨first, s₂, rest, hfirst, hrest, rfl⟩
      obtain ⟨answer, s₁, first, hcall, hfirst', rfl⟩ := session_cons_eq_ok.mp hfirst
      exact ⟨answer, s₁, first ++ rest, hcall, ih.mpr ⟨first, s₂, rest, hfirst', hrest, rfl⟩, rfl⟩

end Session

/-! ### The order of giving back -/

namespace Bitmap

variable {capacity : Nat} {m m' : Bitmap capacity} {answers : List TileAnswer}

/-- A run is given back if none of its tiles is free. To give back an empty run is refused, which
leaves the bitmap as if the empty run were marked. -/
private theorem serve_giveBack {range : Nat × Nat} {answer : TileAnswer} :
    m.serve (.giveBack range) = .ok (answer, m') ↔ ¬ m.MeetsRun range.1 range.2 ∧
      m' = m.mark range.1 range.2 true ∧
      answer = if range.2 = 0 then .error .emptyRange else .ok none := by
  have hempty : m.mark range.1 0 true = m := by
    refine Vector.ext fun tile htile => ?_
    rw [mark, Vector.getElem_mapIdx, if_neg (by omega)]
  rw [TileCall.giveBack, serve]
  by_cases hn : range.2 = 0
  · have hmeets : ¬ m.MeetsRun range.1 0 := by simp [MeetsRun]
    simp [hn, hmeets, hempty, eq_comm, and_comm]
  · by_cases hmeets : m.MeetsRun range.1 range.2
    · simp [hn, hmeets]
    · simp [hn, hmeets, eq_comm, and_comm]

/-- Tiles can be marked as free in any order. -/
private theorem mark_comm (range range' : Nat × Nat) :
    (m.mark range.1 range.2 true).mark range'.1 range'.2 true =
      (m.mark range'.1 range'.2 true).mark range.1 range.2 true := by
  refine Vector.ext fun tile htile => ?_
  simp only [mark, Vector.getElem_mapIdx]
  split <;> split <;> rfl

/-- Two runs can be given back in either order. -/
private theorem giveBack_comm {range range' : Nat × Nat}
    (h : ¬ m.MeetsRun range.1 range.2)
    (h' : ¬ (m.mark range.1 range.2 true).MeetsRun range'.1 range'.2) :
    ¬ m.MeetsRun range'.1 range'.2 ∧
      ¬ (m.mark range'.1 range'.2 true).MeetsRun range.1 range.2 := by
  simp only [MeetsRun, isFree_mark, not_exists, not_and, Bool.not_eq_true] at *
  constructor
  · intro k hk
    have := h' k hk
    split at this
    · simp at this
    · exact this
  · intro k hk
    split
    · -- a tile that is in both runs would be free when the second one is given back
      rename_i hin
      have := h' (range.1 + k - range'.1) (by omega)
      rw [Nat.add_sub_cancel' hin.2.1, if_pos (by omega)] at this
      exact absurd this (by simp)
    · exact h k hk

/-- Runs that can be given back in one order can be given back in any other, with the same
result. -/
theorem session_perm {ranges ranges' : List (Nat × Nat)} (hperm : ranges.Perm ranges')
    (h : session serve m (ranges.map .giveBack) = .ok (answers, m')) :
    ∃ answers', session serve m (ranges'.map .giveBack) = .ok (answers', m') := by
  induction hperm generalizing m answers with
  | nil => exact ⟨answers, h⟩
  | cons range _ ih =>
    obtain ⟨answer, m₁, rest, hfirst, hrest, -⟩ := session_cons_eq_ok.mp h
    obtain ⟨rest', hrest'⟩ := ih hrest
    exact ⟨answer :: rest', session_cons_eq_ok.mpr ⟨answer, m₁, rest', hfirst, hrest', rfl⟩⟩
  | swap range' range ranges =>
    obtain ⟨answer, m₁, rest, hfirst, hrest, -⟩ := session_cons_eq_ok.mp h
    obtain ⟨answer', m₂, rest, hsecond, hrest, -⟩ := session_cons_eq_ok.mp hrest
    obtain ⟨hmeets, rfl, -⟩ := serve_giveBack.mp hfirst
    obtain ⟨hmeets', rfl, -⟩ := serve_giveBack.mp hsecond
    obtain ⟨hmeets₁, hmeets₂⟩ := giveBack_comm hmeets hmeets'
    rw [mark_comm] at hrest
    have hboth := session_cons_eq_ok.mpr
      ⟨_, _, _, serve_giveBack.mpr ⟨hmeets₂, rfl, rfl⟩, hrest, rfl⟩
    exact ⟨_, session_cons_eq_ok.mpr
      ⟨_, _, _, serve_giveBack.mpr ⟨hmeets₁, rfl, rfl⟩, hboth, rfl⟩⟩
  | trans _ _ ih ih' =>
    obtain ⟨answers₁, h₁⟩ := ih h
    exact ih' h₁

end Bitmap

/-! ### The zones of a bitmap -/

/-- The zones of a list in ascending order have as many tiles together as they cover. -/
private theorem Zone.Ascending.sum_length {zs : List Zone} {b : Nat} (h : Ascending zs)
    (hb : ∀ t, Covered zs t → t < b) :
    (zs.map Zone.length).sum = ((Finset.range b).filter fun t => Covered zs t).card := by
  induction zs with
  | nil => simp
  | cons z zs ih =>
    obtain ⟨-, hlt, hzs⟩ := ascending_cons_iff.mp h
    have hstop := h.stop_le hb List.mem_cons_self
    -- the tiles of the first zone come before all the others
    have hsplit : ((Finset.range b).filter fun t => Covered (z :: zs) t) =
        Finset.Ico z.start (z.start + z.length) ∪
          (Finset.range b).filter fun t => Covered zs t := by
      ext t
      simp only [Finset.mem_filter, Finset.mem_range, Finset.mem_union, Finset.mem_Ico,
        covered_cons, covers_iff]
      constructor
      · rintro ⟨htb, ht | ht⟩
        · exact .inl ht
        · exact .inr ⟨htb, ht⟩
      · rintro (ht | ⟨htb, ht⟩)
        · exact ⟨by omega, .inl ht⟩
        · exact ⟨htb, .inr ht⟩
    have hdisjoint : Disjoint (Finset.Ico z.start (z.start + z.length))
        ((Finset.range b).filter fun t => Covered zs t) := by
      rw [Finset.disjoint_left]
      intro t ht ht'
      have := hlt t (Finset.mem_filter.mp ht').2
      have := (Finset.mem_Ico.mp ht).2
      omega
    rw [List.map_cons, List.sum_cons, ih hzs fun t ht => hb t (covered_cons.mpr (.inr ht)), hsplit,
      Finset.card_union_of_disjoint hdisjoint, Nat.card_Ico, Nat.add_sub_cancel_left]

namespace TilePool

variable {capacity : Nat} {p p' : TilePool} {m m' : Bitmap capacity} {n : Nat}

/-- The number of free tiles is the sum of the lengths of the zones, if that has 16 bits. -/
private theorem freeUnits_eq (h : (p.zones.map Zone.length).sum < 65536) :
    p.freeUnits = .ok (p.zones.map Zone.length).sum := by
  have hfold : ∀ (zones : List Zone) (sum : Nat), sum + (zones.map Zone.length).sum < 65536 →
      zones.foldlM (fun sum z => halfWord (sum + z.length)) sum =
        .ok (sum + (zones.map Zone.length).sum) := by
    intro zones
    induction zones with
    | nil => exact fun sum _ => rfl
    | cons z zones ih =>
      intro sum hsum
      rw [List.map_cons, List.sum_cons] at hsum ⊢
      rw [List.foldlM_cons, halfWord_of_lt (by omega), Checked.ok_bind, ih _ (by omega),
        Nat.add_assoc]
  rw [freeUnits, hfold p.zones 0 (by omega), Nat.zero_add]

/-- The free tiles, as a finite set. -/
def freeTiles (p : TilePool) : Finset Nat :=
  (Finset.range p.capacity).filter fun tile => p.IsFree tile

private theorem Sound.mem_freeTiles (hp : p.Sound) {tile : Nat} :
    tile ∈ p.freeTiles ↔ p.IsFree tile := by
  rw [freeTiles, Finset.mem_filter, Finset.mem_range]
  exact ⟨fun h => h.2, fun h => ⟨hp.lt_capacity tile h, h⟩⟩

theorem card_freeTiles_le (p : TilePool) : p.freeTiles.card ≤ p.capacity :=
  (Finset.card_filter_le _ _).trans_eq (Finset.card_range p.capacity)

/-- The number of free tiles has 16 bits. -/
theorem Sound.freeUnits_eq_card (hp : p.Sound) : p.freeUnits = .ok p.freeTiles.card := by
  have hsum : (p.zones.map Zone.length).sum = p.freeTiles.card :=
    hp.ascending.sum_length hp.lt_capacity
  have hle := p.card_freeTiles_le
  have hcap := hp.capacity_lt
  rw [freeUnits_eq (by omega), hsum]

/-- As many tiles have left the free ones as a run has that was taken out of them. -/
theorem Sound.card_freeTiles {start : Nat} (hp : p.Sound) (hp' : p'.Sound)
    (hwas : ∀ t, Zone.Covers ⟨start, n⟩ t → p.IsFree t)
    (hnow : ∀ t, p'.IsFree t ↔ p.IsFree t ∧ ¬ Zone.Covers ⟨start, n⟩ t) :
    p.freeTiles.card = p'.freeTiles.card + n := by
  have hrun : Finset.Ico start (start + n) ⊆ p.freeTiles := fun t ht =>
    hp.mem_freeTiles.mpr (hwas t (Finset.mem_Ico.mp ht))
  have hrest : p'.freeTiles = p.freeTiles \ Finset.Ico start (start + n) := by
    ext t
    rw [Finset.mem_sdiff, hp.mem_freeTiles, hp'.mem_freeTiles, Finset.mem_Ico]
    exact hnow t
  have hsplit := Finset.card_sdiff_add_card_eq_card hrun
  rw [← hrest, Nat.card_Ico, Nat.add_sub_cancel_left] at hsplit
  exact hsplit.symm

/-- A run fits into the largest zone if and only if it fits into any. -/
private theorem le_largestZone_iff (hn : 0 < n) :
    n ≤ p.largestZone ↔ ∃ z ∈ p.zones, n ≤ z.length := by
  have hfold : ∀ (zones : List Zone) (longest : Nat),
      n ≤ zones.foldl (fun longest z => max longest z.length) longest ↔
        n ≤ longest ∨ ∃ z ∈ zones, n ≤ z.length := by
    intro zones
    induction zones with
    | nil => simp
    | cons z zones ih =>
      intro longest
      rw [List.foldl_cons, ih, List.exists_mem_cons_iff, le_max_iff, or_assoc]
  rw [largestZone, hfold]
  simp only [Nat.le_zero, Nat.pos_iff_ne_zero.mp hn, false_or]

/-- A run can be reserved if there is a zone that is long enough. -/
private theorem exists_reserve_iff (hp : p.Sound) (hn : 0 < n) :
    (∃ start p', p.reserve n = .ok (.ok (start, p'))) ↔ ∃ z ∈ p.zones, n ≤ z.length := by
  rcases reserve_spec hp hn with ⟨hr, hnone⟩ | ⟨start, p', hr, -, -, ⟨hfree, -⟩, -⟩
  · refine iff_of_false (by simp [hr]) ?_
    rintro ⟨z, hz, hle⟩
    refine hnone z.start fun t ht => Zone.covered_of_mem hz ⟨ht.1, ?_⟩
    exact Nat.lt_of_lt_of_le ht.2 (Nat.add_le_add_left hle _)
  · refine iff_of_true ⟨start, p', hr⟩ ?_
    obtain ⟨z, hz, hle, hstop⟩ := hp.ascending.exists_of_run hn hfree
    exact ⟨z, hz, by omega⟩

/-! ### Pool and bitmap in step -/

/-- The tiles that are free in the pool are those that are free in the bitmap. -/
structure Mirrors (p : TilePool) (m : Bitmap capacity) : Prop where
  sound : p.Sound
  capacity_eq : p.capacity = capacity
  isFree_iff : ∀ t, p.IsFree t ↔ m.isFree t = true

private theorem Mirrors.lt_capacity (h : p.Mirrors m) {t : Nat} (ht : p.IsFree t) : t < capacity :=
  Nat.lt_of_lt_of_eq (h.sound.lt_capacity t ht) h.capacity_eq

/-- A bitmap is mirrored by one pool only. -/
private theorem Mirrors.unique (h : p.Mirrors m) (h' : p'.Mirrors m) : p = p' := by
  refine h.sound.ext h'.sound (h.capacity_eq.trans h'.capacity_eq.symm) fun t => ?_
  rw [h.isFree_iff, h'.isFree_iff]

theorem Mirrors.new (hcap : capacity < 65536) : (new capacity).Mirrors (.allFree capacity) where
  sound := .new hcap
  capacity_eq := rfl
  isFree_iff t := by
    rw [isFree_new, Bitmap.isFree_allFree, decide_eq_true_eq]

private theorem Mirrors.reset (h : p.Mirrors m) : p.reset.Mirrors (.allFree capacity) := by
  have hreset : p.reset = .new p.capacity := rfl
  have hcap := h.sound.capacity_lt
  rw [h.capacity_eq] at hreset hcap
  rw [hreset]
  exact .new hcap

/-- Pool and bitmap find the same run. -/
private theorem Mirrors.reserve (h : p.Mirrors m) (n : Nat) :
    ∃ answer p' m', p.serve (.reserve n) = .ok (answer, p') ∧
      m.serve (.reserve n) = .ok (answer, m') ∧ p'.Mirrors m' := by
  by_cases hn : n = 0
  · subst hn
    exact ⟨_, p, m, rfl, rfl, h⟩
  have hpos : 0 < n := Nat.pos_of_ne_zero hn
  have hrun : ∀ s, m.HasRun s n ↔ ∀ t, Zone.Covers ⟨s, n⟩ t → p.IsFree t := fun s => by
    simp only [Bitmap.hasRun_iff, h.isFree_iff]
  rcases reserve_spec h.sound hpos with
    ⟨hr, hnone⟩ | ⟨start, p', hr, hsound, hcap, ⟨hfree, hleast⟩, hnow⟩
  · refine ⟨.error .outOfTiles, p, m, by rw [serve, hr]; rfl, ?_, h⟩
    have hfind : ((List.range capacity).find? fun start => m.HasRun start n) = none := by
      rw [List.find?_range_eq_none]
      intro s _
      simpa [hrun] using hnone s
    simp only [Bitmap.serve, if_neg hn, hfind]
  · refine ⟨.ok (some start), p', m.mark start n false, by rw [serve, hr]; rfl, ?_, ?_⟩
    · have hlt : start < capacity :=
        h.lt_capacity (hfree start ⟨Nat.le_refl _, Nat.lt_add_of_pos_right hpos⟩)
      have hfind : ((List.range capacity).find? fun start => m.HasRun start n) = some start := by
        rw [List.find?_range_eq_some]
        refine ⟨by simpa [hrun] using hfree, List.mem_range.mpr hlt, fun s hs => ?_⟩
        -- a run that begins before would have been found first
        have hrun' : ¬ m.HasRun s n := fun hs' => by
          have := hleast ((hrun s).mp hs')
          omega
        simpa using hrun'
      simp only [Bitmap.serve, if_neg hn, hfind]
    · refine ⟨hsound, hcap.trans h.capacity_eq, fun t => ?_⟩
      have ht : p.IsFree t → t < capacity := h.lt_capacity
      rw [hnow, Bitmap.isFree_mark]
      rw [h.isFree_iff] at ht ⊢
      simp only [Zone.covers_iff]
      grind

/-- Pool and bitmap take the same runs back, and fault on the same. -/
private theorem Mirrors.release (h : p.Mirrors m) {start : Nat} (hle : start + n ≤ capacity) :
    (∃ answer p' m', p.serve (.release start n) = .ok (answer, p') ∧
      m.serve (.release start n) = .ok (answer, m') ∧ p'.Mirrors m') ∨
    (p.serve (.release start n) = .error .doubleRelease ∧
      m.serve (.release start n) = .error .doubleRelease) := by
  by_cases hn : n = 0
  · subst hn
    exact .inl ⟨_, p, m, rfl, rfl, h⟩
  have hpos : 0 < n := Nat.pos_of_ne_zero hn
  have hle' : start + n ≤ p.capacity := hle.trans_eq h.capacity_eq.symm
  by_cases hmeets : m.MeetsRun start n
  · obtain ⟨t, ht, hfree⟩ := Bitmap.meetsRun_iff.mp hmeets
    have hr := release_of_meets h.sound hle' ht ((h.isFree_iff t).mpr hfree)
    refine .inr ⟨by rw [serve, hr]; rfl, ?_⟩
    simp only [Bitmap.serve, if_neg hn, if_pos hmeets]
  · have hnew : ∀ t, Zone.Covers ⟨start, n⟩ t → ¬ p.IsFree t := fun t ht hfree =>
      hmeets (Bitmap.meetsRun_iff.mpr ⟨t, ht, (h.isFree_iff t).mp hfree⟩)
    obtain ⟨p', hr, hsound, hcap, hnow⟩ := release_spec h.sound hpos hle' hnew
    refine .inl ⟨.ok none, p', m.mark start n true, by rw [serve, hr]; rfl, ?_,
      hsound, hcap.trans h.capacity_eq, fun t => ?_⟩
    · simp only [Bitmap.serve, if_neg hn, if_neg hmeets]
    · rw [hnow, Bitmap.isFree_mark, h.isFree_iff]
      simp only [Zone.covers_iff]
      grind

/-- One step: the same answer and states that mirror each other again, or a fault on both sides. -/
theorem serve_mirrors (h : p.Mirrors m) {call : TileCall} (hcall : call.InRange capacity) :
    (∃ answer p' m', p.serve call = .ok (answer, p') ∧ m.serve call = .ok (answer, m') ∧
      p'.Mirrors m') ∨
    (p.serve call = .error .doubleRelease ∧ m.serve call = .error .doubleRelease) := by
  cases call with
  | reserve n => exact .inl (h.reserve n)
  | release start n => exact h.release hcall
  | reset => exact .inl ⟨_, _, _, rfl, rfl, h.reset⟩

/-- A whole session: the same answers and states that mirror each other, or a fault on both
sides. -/
theorem session_mirrors (h : p.Mirrors m) {calls : List TileCall}
    (hcalls : ∀ call ∈ calls, call.InRange capacity) :
    (∃ answers p' m', session serve p calls = .ok (answers, p') ∧
      session Bitmap.serve m calls = .ok (answers, m') ∧ p'.Mirrors m') ∨
    (session serve p calls = .error .doubleRelease ∧
      session Bitmap.serve m calls = .error .doubleRelease) := by
  induction calls generalizing p m with
  | nil => exact .inl ⟨[], p, m, rfl, rfl, h⟩
  | cons call calls ih =>
    obtain ⟨hcall, hcalls⟩ := List.forall_mem_cons.mp hcalls
    rcases serve_mirrors h hcall with ⟨answer, p₁, m₁, hp, hm, h₁⟩ | ⟨hp, hm⟩
    · rcases ih h₁ hcalls with ⟨answers, p', m', hp', hm', h'⟩ | ⟨hp', hm'⟩
      · exact .inl ⟨answer :: answers, p', m',
          session_cons_eq_ok.mpr ⟨answer, p₁, answers, hp, hp', rfl⟩,
          session_cons_eq_ok.mpr ⟨answer, m₁, answers, hm, hm', rfl⟩, h'⟩
      · exact .inr ⟨session_cons_eq_error.mpr (.inr ⟨answer, p₁, hp, hp'⟩),
          session_cons_eq_error.mpr (.inr ⟨answer, m₁, hm, hm'⟩)⟩
    · exact .inr ⟨session_cons_eq_error.mpr (.inl hp), session_cons_eq_error.mpr (.inl hm)⟩

/-- Runs that can be given back in one order can be given back in any other, with the same
result: the bitmap comes out the same, and it has only one pool. -/
theorem session_perm (h : p.Mirrors m) {ranges ranges' : List (Nat × Nat)}
    (hranges : ∀ range ∈ ranges, range.1 + range.2 ≤ capacity) (hperm : ranges.Perm ranges')
    {answers : List TileAnswer}
    (hp : session serve p (ranges.map .giveBack) = .ok (answers, p')) :
    ∃ answers', session serve p (ranges'.map .giveBack) = .ok (answers', p') := by
  have hcalls : ∀ call ∈ ranges.map TileCall.giveBack, call.InRange capacity := by
    intro call hcall
    obtain ⟨range, hrange, rfl⟩ := List.mem_map.mp hcall
    exact hranges range hrange
  have hcalls' : ∀ call ∈ ranges'.map TileCall.giveBack, call.InRange capacity := fun call hcall =>
    hcalls call ((hperm.map _).mem_iff.mpr hcall)
  obtain ⟨_, _, m₁, hp₁, hm₁, h₁⟩ | ⟨hp₁, -⟩ := session_mirrors h hcalls
  · obtain ⟨rfl, rfl⟩ : answers = _ ∧ p' = _ := by simpa [hp] using hp₁
    obtain ⟨answers', hm'⟩ := Bitmap.session_perm hperm hm₁
    obtain ⟨_, p₂, m₂, hp₂, hm₂, h₂⟩ | ⟨-, hm₂⟩ := session_mirrors h hcalls'
    · obtain ⟨rfl, rfl⟩ : answers' = _ ∧ m₁ = m₂ := by simpa [hm'] using hm₂
      exact ⟨answers', h₁.unique h₂ ▸ hp₂⟩
    · simp [hm'] at hm₂
  · simp [hp] at hp₁

/-! ### What the pool says about itself -/

/-- What the pool says about itself is true of the bitmap. -/
structure Represents (p : TilePool) (m : Bitmap capacity) : Prop where
  capacity_eq : p.capacity = capacity
  /-- No zone is empty, and no two of them touch. -/
  ascending : Zone.Ascending p.zones
  stop_le : ∀ z ∈ p.zones, z.start + z.length ≤ capacity
  mem_zones : ∀ z, z ∈ p.zones ↔ m.IsMaximal z
  freeUnits : p.freeUnits = .ok m.freeCount
  /-- The runs that can be reserved are those up to the longest zone. -/
  largestZone : ∀ n, 0 < n →
    (n ≤ p.largestZone ↔ ∃ start p', p.reserve n = .ok (.ok (start, p')))

/-- A pool whose free tiles are those of a bitmap says the same about itself. -/
private theorem Mirrors.represents (h : p.Mirrors m) : p.Represents m where
  capacity_eq := h.capacity_eq
  ascending := h.sound.ascending
  stop_le z hz := h.sound.ascending.stop_le (fun _ => h.lt_capacity) hz
  mem_zones z := by
    have hfree : ∀ t, Zone.Covered p.zones t ↔ m.isFree t = true := h.isFree_iff
    rw [h.sound.ascending.mem_iff]
    simp only [hfree, Bool.not_eq_true, ← Bitmap.hasRun_iff]
    constructor
    · rintro ⟨hpos, hrun, hstop, hpred⟩
      exact ⟨hpos, hrun, hstop, hpred⟩
    · rintro ⟨hpos, hrun, hstop, hpred⟩
      exact ⟨hpos, hrun, hstop, hpred⟩
  freeUnits := by
    rw [h.sound.freeUnits_eq_card, freeTiles, h.capacity_eq, Bitmap.freeCount]
    exact congrArg (Except.ok ·.card) (Finset.filter_congr fun t _ => h.isFree_iff t)
  largestZone n hn := by
    rw [le_largestZone_iff hn, exists_reserve_iff h.sound hn]

/-- Along every session the pool answers as the bitmap does and represents it, up to the first
fault, which is one for both. What is given back may be given back in any order: the pool that
results is the same. -/
theorem session_refines (hcap : capacity < 65536) (calls : List TileCall)
    (hcalls : ∀ call ∈ calls, call.InRange capacity) :
    ((∃ answers p m, session serve (new capacity) calls = .ok (answers, p) ∧
        session Bitmap.serve (.allFree capacity) calls = .ok (answers, m) ∧ p.Represents m) ∨
      (session serve (new capacity) calls = .error .doubleRelease ∧
        session Bitmap.serve (.allFree capacity) calls = .error .doubleRelease)) ∧
    ∀ ranges ranges' : List (Nat × Nat), ranges.Perm ranges' →
      (∀ range ∈ ranges, range.1 + range.2 ≤ capacity) → ∀ answers p,
        session serve (new capacity) (calls ++ ranges.map .giveBack) = .ok (answers, p) →
          ∃ answers', session serve (new capacity) (calls ++ ranges'.map .giveBack) =
            .ok (answers', p) := by
  have hnew := Mirrors.new hcap
  constructor
  · rcases session_mirrors hnew hcalls with ⟨answers, p, m, hp, hm, h⟩ | hfault
    · exact .inl ⟨answers, p, m, hp, hm, h.represents⟩
    · exact .inr hfault
  · intro ranges ranges' hperm hranges answers p hp
    obtain ⟨first, p₁, rest, hfirst, hrest, -⟩ := session_append_eq_ok.mp hp
    obtain ⟨_, _, m₁, hp₁, -, h⟩ | ⟨hp₁, -⟩ := session_mirrors hnew hcalls
    · obtain ⟨rfl, rfl⟩ : first = _ ∧ p₁ = _ := by simpa [hfirst] using hp₁
      obtain ⟨rest', hrest'⟩ := session_perm h hranges hperm hrest
      exact ⟨first ++ rest', session_append_eq_ok.mpr ⟨first, p₁, rest', hfirst, hrest', rfl⟩⟩
    · simp [hfirst] at hp₁

/-- Three runs of two tiles are given back, the one in the middle last. -/
theorem session_refines_sixTiles :
    let calls : List TileCall := [.reserve 2, .reserve 2, .reserve 2, .reserve 1, .release 4 0]
    (∃ answers p m, answers = [.ok (some 0), .ok (some 2), .ok (some 4), .error .outOfTiles,
        .error .emptyRange] ∧ session serve (new 6) calls = .ok (answers, p) ∧
      session Bitmap.serve (.allFree 6) calls = .ok (answers, m) ∧ p.Represents m) ∧
    ∃ answers answers' p,
      session serve (new 6) (calls ++ [(0, 2), (4, 2), (2, 2)].map .giveBack) = .ok (answers, p) ∧
      session serve (new 6) (calls ++ [(2, 2), (4, 2), (0, 2)].map .giveBack) =
        .ok (answers', p) ∧ p.zones = [⟨0, 6⟩] := by
  intro calls
  have hin : ∀ call ∈ calls, call.InRange 6 := by
    simp [calls, TileCall.InRange]
  obtain ⟨hagree, horder⟩ := session_refines (by decide) calls hin
  have hcalls : session serve (new 6) calls = .ok ([.ok (some 0), .ok (some 2), .ok (some 4),
      .error .outOfTiles, .error .emptyRange], ⟨6, []⟩) := by decide +kernel
  have hback : session serve (new 6) (calls ++ [(0, 2), (4, 2), (2, 2)].map .giveBack) =
      .ok ([.ok (some 0), .ok (some 2), .ok (some 4), .error .outOfTiles, .error .emptyRange,
        .ok none, .ok none, .ok none], ⟨6, [⟨0, 6⟩]⟩) := by decide +kernel
  constructor
  · obtain ⟨answers, p, m, hp, hm, hrep⟩ | ⟨hfault, -⟩ := hagree
    · rw [hcalls] at hp
      obtain ⟨rfl, rfl⟩ := Prod.mk.inj (Except.ok.inj hp)
      exact ⟨_, _, m, rfl, hcalls, hm, hrep⟩
    · rw [hcalls] at hfault
      exact nomatch hfault
  · obtain ⟨answers', hback'⟩ := horder _ [(2, 2), (4, 2), (0, 2)] (by decide) (by decide) _ _ hback
    exact ⟨_, answers', _, hback, hback', rfl⟩

end TilePool

end SpriteEngine
