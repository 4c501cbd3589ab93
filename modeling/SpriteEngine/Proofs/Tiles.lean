import Mathlib.Order.Bounds.Defs
import Mathlib.Tactic.ByContra
import SpriteEngine.Pool.Tiles

/-!
# Free tiles as a set

A list of zones is looked at through the set of tiles in it, `Zone.Covered`. For lists in
`Zone.Ascending` order the set says everything: there is one such list for each set
(`Zone.Ascending.eq_of_covered`), and its zones are the maximal runs of the set
(`Zone.Ascending.mem_iff`).

The two operations on zones are then set operations. `Zone.take_spec`: what is taken is the first
run of covered tiles that is long enough, and the rest is what is left. `Zone.insert_spec`: a run
that meets no zone is added. Neither of them faults as long as all tiles have numbers below
2^16 - 1. A run that meets a zone is a fault (`Zone.insert_of_meets`).

`TilePool.Sound` is the invariant of a pool. `TilePool.reserve_spec` and `TilePool.release_spec`
state the operations of a pool on its free tiles, `TilePool.release_of_meets` that no tile is given
back twice, and `TilePool.Sound.ext` says that the free tiles determine the pool, however they came
to be free.
-/

namespace SpriteEngine

namespace Zone

/-- The tile `t` lies in one of the zones. -/
def Covered (zones : List Zone) (t : Nat) : Prop :=
  ∃ z ∈ zones, z.Covers t

instance (zones : List Zone) (t : Nat) : Decidable (Covered zones t) :=
  inferInstanceAs (Decidable (∃ z ∈ zones, z.Covers t))

variable {z : Zone} {zs ys : List Zone} {n t : Nat}

theorem covers_iff : z.Covers t ↔ z.start ≤ t ∧ t < z.start + z.length :=
  Iff.rfl

@[simp] theorem not_covered_nil : ¬ Covered [] t := by
  rintro ⟨z, hz, -⟩
  exact List.not_mem_nil hz

@[simp] theorem covered_cons : Covered (z :: zs) t ↔ z.Covers t ∨ Covered zs t := by
  simp [Covered]

theorem covered_of_mem (hz : z ∈ zs) (ht : z.Covers t) : Covered zs t :=
  ⟨z, hz, ht⟩

/-! ### Ascending lists -/

theorem Ascending.nil : Ascending [] :=
  ⟨by simp, .nil⟩

/-- A list is in ascending order if the zones after the first are, and all their tiles lie behind
the first zone and the tile after it. -/
theorem ascending_cons_iff : Ascending (z :: zs) ↔
    0 < z.length ∧ (∀ t, Covered zs t → z.start + z.length < t) ∧ Ascending zs := by
  simp only [Ascending, List.forall_mem_cons, List.pairwise_cons]
  constructor
  · rintro ⟨⟨hz, hpos⟩, hlt, hzs⟩
    refine ⟨hz, ?_, hpos, hzs⟩
    rintro t ⟨y, hy, hty⟩
    exact Nat.lt_of_lt_of_le (hlt y hy) hty.1
  · rintro ⟨hz, hlt, hpos, hzs⟩
    refine ⟨⟨hz, hpos⟩, fun y hy => hlt y.start ⟨y, hy, Nat.le_refl _, ?_⟩, hzs⟩
    exact Nat.lt_add_of_pos_right (hpos y hy)

private theorem Ascending.length_pos (h : Ascending zs) (hz : z ∈ zs) : 0 < z.length :=
  h.1 z hz

/-- A zone of a list that covers no tile from `b` on ends at `b` or before. -/
theorem Ascending.stop_le {b : Nat} (h : Ascending zs) (hb : ∀ t, Covered zs t → t < b)
    (hz : z ∈ zs) : z.start + z.length ≤ b := by
  have hpos := h.length_pos hz
  have hlast : Covered zs (z.start + z.length - 1) :=
    covered_of_mem hz ⟨by omega, by omega⟩
  have := hb _ hlast
  omega

/-- The tile right behind a zone is in no zone. -/
private theorem Ascending.not_covered_stop (h : Ascending zs) (hz : z ∈ zs) :
    ¬ Covered zs (z.start + z.length) := by
  induction zs with
  | nil => simp
  | cons y ys ih =>
    obtain ⟨hpos, hlt, hys⟩ := ascending_cons_iff.mp h
    rw [covered_cons, not_or]
    rcases List.mem_cons.mp hz with rfl | hz
    · exact ⟨fun hc => by have := hc.2; omega, fun hc => by have := hlt _ hc; omega⟩
    · have hpos := hys.length_pos hz
      have hstart := hlt z.start (covered_of_mem hz ⟨Nat.le_refl _, by omega⟩)
      exact ⟨fun hc => by have := hc.2; omega, ih hys hz⟩

/-- Zones that share a tile are the same. -/
private theorem Ascending.eq_of_covers {y : Zone} (h : Ascending zs) (hy : y ∈ zs) (hz : z ∈ zs)
    (hyt : y.Covers t) (hzt : z.Covers t) : y = z := by
  induction zs with
  | nil => exact absurd hy List.not_mem_nil
  | cons x xs ih =>
    obtain ⟨-, hlt, hxs⟩ := ascending_cons_iff.mp h
    have hfirst : ∀ {a}, a ∈ xs → a.Covers t → ¬ x.Covers t := fun ha hat hxt => by
      have := hlt t (covered_of_mem ha hat)
      have := hxt.2
      omega
    rcases List.mem_cons.mp hy with rfl | hy' <;> rcases List.mem_cons.mp hz with rfl | hz'
    · rfl
    · exact absurd hyt (hfirst hz' hzt)
    · exact absurd hzt (hfirst hy' hyt)
    · exact ih hxs hy' hz'

/-- The tile right before a zone is in no zone. -/
private theorem Ascending.not_covered_pred (h : Ascending zs) (hz : z ∈ zs) (h0 : 0 < z.start) :
    ¬ Covered zs (z.start - 1) := by
  rintro ⟨y, hy, hle, hlt⟩
  have hpos := h.length_pos hz
  have hstop := h.not_covered_stop hy
  -- a zone before `z` would end inside of `z`, and one that reaches further would be `z`
  by_cases hyz : y.start + y.length < z.start + z.length
  · exact hstop (covered_of_mem hz ⟨by omega, hyz⟩)
  · obtain rfl := h.eq_of_covers (t := z.start) hy hz ⟨by omega, by omega⟩ ⟨Nat.le_refl _, by omega⟩
    omega

/-- The zones are the maximal runs of covered tiles: a zone is not empty, all its tiles are covered,
and the tiles right before and right behind it are not. -/
theorem Ascending.mem_iff (h : Ascending zs) : z ∈ zs ↔
    0 < z.length ∧ (∀ t, z.Covers t → Covered zs t) ∧ ¬ Covered zs (z.start + z.length) ∧
      (0 < z.start → ¬ Covered zs (z.start - 1)) := by
  constructor
  · intro hz
    exact ⟨h.length_pos hz, fun t ht => covered_of_mem hz ht, h.not_covered_stop hz,
      h.not_covered_pred hz⟩
  · rintro ⟨hpos, hall, hstop, hpred⟩
    obtain ⟨y, hy, hle, hlt⟩ := hall z.start ⟨Nat.le_refl _, by omega⟩
    -- the zone with the first tile of the run neither begins nor ends inside of it
    have hstart : y.start = z.start := by
      by_contra hne
      exact hpred (by omega) (covered_of_mem hy ⟨by omega, by omega⟩)
    have hlong : ¬ z.start + z.length < y.start + y.length := fun hlong =>
      hstop (covered_of_mem hy ⟨by omega, hlong⟩)
    have hshort : ¬ y.start + y.length < z.start + z.length := fun hshort =>
      h.not_covered_stop hy (hall _ ⟨by omega, hshort⟩)
    have hlength : y.length = z.length := by omega
    cases y
    cases z
    simp_all

/-- The zones of a list in ascending order are determined by the tiles in them. -/
theorem Ascending.eq_of_covered (hzs : Ascending zs) (hys : Ascending ys)
    (h : ∀ t, Covered zs t ↔ Covered ys t) : zs = ys := by
  induction zs generalizing ys with
  | nil =>
    cases ys with
    | nil => rfl
    | cons y ys =>
      have hpos := hys.length_pos List.mem_cons_self
      exact absurd ((h y.start).mpr (covered_of_mem List.mem_cons_self ⟨Nat.le_refl _, by omega⟩))
        not_covered_nil
  | cons z zs ih =>
    cases ys with
    | nil =>
      have hpos := hzs.length_pos List.mem_cons_self
      exact absurd ((h z.start).mp (covered_of_mem List.mem_cons_self ⟨Nat.le_refl _, by omega⟩))
        not_covered_nil
    | cons y ys =>
      obtain ⟨hzpos, hzlt, hzs'⟩ := ascending_cons_iff.mp hzs
      obtain ⟨hypos, hylt, hys'⟩ := ascending_cons_iff.mp hys
      simp only [covered_cons, covers_iff] at h
      -- both lists begin with the zone of the least tile
      have hstart : z.start = y.start := by
        have h1 := (h z.start).mp (.inl ⟨Nat.le_refl _, by omega⟩)
        have h2 := (h y.start).mpr (.inl ⟨Nat.le_refl _, by omega⟩)
        have h3 := hylt z.start
        have h4 := hzlt y.start
        grind
      have hstop : z.start + z.length = y.start + y.length := by
        have h1 := h (z.start + z.length)
        have h2 := h (y.start + y.length)
        have h3 := hylt (z.start + z.length)
        have h4 := hzlt (y.start + y.length)
        have h5 := hzlt (z.start + z.length)
        have h6 := hylt (y.start + y.length)
        grind
      have hrest : zs = ys := ih hzs' hys' fun t => by
        have h1 := h t
        have h2 := hzlt t
        have h3 := hylt t
        constructor <;> intro ht
        · have := h2 ht
          exact (h1.mp (.inr ht)).resolve_left (by omega)
        · have := h3 ht
          exact (h1.mpr (.inr ht)).resolve_left (by omega)
      have hfirst : z = y := by
        cases z
        cases y
        simp_all
      rw [hfirst, hrest]

/-- Every covered tile is in exactly one zone. -/
theorem Ascending.countP_covers (h : Ascending zs) (t : Nat) :
    zs.countP (·.Covers t) = if Covered zs t then 1 else 0 := by
  induction zs with
  | nil => simp
  | cons z zs ih =>
    obtain ⟨-, hlt, hzs⟩ := ascending_cons_iff.mp h
    rw [List.countP_cons, ih hzs]
    by_cases hz : z.Covers t
    · have hrest : ¬ Covered zs t := fun ht => by
        have := hlt t ht
        have := hz.2
        omega
      simp [hz, hrest]
    · simp [hz]

/-! ### Taking and giving back -/

/-- A run of covered tiles lies in one zone, because zones do not touch. -/
theorem Ascending.exists_of_run {s : Nat} (h : Ascending zs) (hn : 0 < n)
    (hrun : ∀ t, Covers ⟨s, n⟩ t → Covered zs t) :
    ∃ z ∈ zs, z.start ≤ s ∧ s + n ≤ z.start + z.length := by
  obtain ⟨z, hz, hle, hlt⟩ := hrun s ⟨Nat.le_refl _, Nat.lt_add_of_pos_right hn⟩
  refine ⟨z, hz, hle, ?_⟩
  -- otherwise the tile right behind the zone is one of the run
  by_contra hlong
  refine h.not_covered_stop hz (hrun _ ⟨Nat.le_of_lt hlt, ?_⟩)
  change z.start + z.length < s + n
  omega

/-- If no zone is long enough, nothing is taken. Otherwise the first run of covered tiles that is
long enough is taken, and what is left is covered by zones in ascending order. -/
theorem take_spec (hn : 0 < n) (h : Ascending zs) (hb : ∀ t, Covered zs t → t < 65535) :
    (take n zs = .ok none ∧ ∀ z ∈ zs, z.length < n) ∨
      ∃ start rest, take n zs = .ok (some (start, rest)) ∧ Ascending rest ∧
        IsLeast {s | ∀ t, Covers ⟨s, n⟩ t → Covered zs t} start ∧
        ∀ t, Covered rest t ↔ Covered zs t ∧ ¬ Covers ⟨start, n⟩ t := by
  induction zs with
  | nil => exact .inl ⟨rfl, by simp⟩
  | cons z zs ih =>
    obtain ⟨hpos, hlt, hzs⟩ := ascending_cons_iff.mp h
    have hstop := h.stop_le hb List.mem_cons_self
    rw [take]
    by_cases hle : n ≤ z.length
    · have hfirst : IsLeast {s | ∀ t, Covers ⟨s, n⟩ t → Covered (z :: zs) t} z.start := by
        refine ⟨fun t ht => covered_cons.mpr (.inl ⟨ht.1, ?_⟩), fun s hs => ?_⟩
        · exact Nat.lt_of_lt_of_le ht.2 (Nat.add_le_add_left hle _)
        · -- nothing is covered before the first zone
          rcases covered_cons.mp (hs s ⟨Nat.le_refl _, Nat.lt_add_of_pos_right hn⟩) with ht | ht
          · exact ht.1
          · have := hlt s ht
            omega
      refine .inr ?_
      rw [if_pos hle]
      by_cases heq : z.length = n
      · -- the zone is used up
        rw [if_pos heq]
        refine ⟨_, _, rfl, hzs, hfirst, fun t => ?_⟩
        simp only [covered_cons, covers_iff] at *
        have := hlt t
        grind
      · -- the zone keeps its end
        rw [if_neg heq, halfWord_of_lt (by omega)]
        refine ⟨_, _, rfl, ?_, hfirst, fun t => ?_⟩
        · refine ascending_cons_iff.mpr ⟨by change 0 < z.length - n; omega, fun t ht => ?_, hzs⟩
          have := hlt t ht
          change z.start + n + (z.length - n) < t
          omega
        · simp only [covered_cons, covers_iff] at *
          have := hlt t
          grind
    · rw [if_neg hle]
      rcases ih hzs fun t ht => hb t (covered_cons.mpr (.inr ht)) with
        ⟨hnone, hshort⟩ | ⟨start, rest, hsome, hasc, ⟨hcov, hleast⟩, hrest⟩
      · refine .inl ⟨by rw [hnone]; rfl, fun y hy => ?_⟩
        rcases List.mem_cons.mp hy with rfl | hy
        · omega
        · exact hshort y hy
      · refine .inr ⟨start, z :: rest, by rw [hsome]; rfl, ?_, ⟨fun t ht => ?_, fun s hs => ?_⟩,
          fun t => ?_⟩
        · exact ascending_cons_iff.mpr ⟨hpos, fun t ht => hlt t ((hrest t).mp ht).1, hasc⟩
        · exact covered_cons.mpr (.inr (hcov t ht))
        · -- the first zone is too short to have the run
          obtain ⟨y, hy, hys, hstop'⟩ := h.exists_of_run hn hs
          rcases List.mem_cons.mp hy with rfl | hy
          · omega
          · refine hleast fun t ht => covered_of_mem hy ⟨Nat.le_trans hys ht.1, ?_⟩
            exact Nat.lt_of_lt_of_le ht.2 hstop'
        · rw [covered_cons, covered_cons, hrest]
          have := hcov t
          have := hlt t
          simp only [covers_iff] at *
          grind

/-- A zone is put in front of zones that it may touch but not overlap. -/
theorem join_spec (hpos : 0 < z.length) (h : Ascending zs)
    (hle : ∀ t, Covered zs t → z.start + z.length ≤ t) (hb : ∀ t, Covered zs t → t < 65535) :
    ∃ r, z.join zs = .ok r ∧ Ascending r ∧ ∀ t, Covered r t ↔ z.Covers t ∨ Covered zs t := by
  cases zs with
  | nil => exact ⟨[z], rfl, ascending_cons_iff.mpr ⟨hpos, by simp, .nil⟩, by simp⟩
  | cons y ys =>
    obtain ⟨hypos, hlt, hys⟩ := ascending_cons_iff.mp h
    have hystop := h.stop_le hb List.mem_cons_self
    have hystart := hle y.start (covered_cons.mpr (.inl ⟨Nat.le_refl _, by omega⟩))
    rw [join]
    by_cases htouch : z.start + z.length = y.start
    · rw [if_pos htouch, halfWord_of_lt (by omega)]
      refine ⟨_, rfl, ?_, fun t => ?_⟩
      · have hlong : 0 < z.length + y.length := by omega
        refine ascending_cons_iff.mpr ⟨hlong, fun t ht => ?_, hys⟩
        have := hlt t ht
        change z.start + (z.length + y.length) < t
        omega
      · simp only [covered_cons, covers_iff]
        grind
    · rw [if_neg htouch]
      refine ⟨_, rfl, ascending_cons_iff.mpr ⟨hpos, fun t ht => ?_, h⟩, fun t => covered_cons⟩
      rcases covered_cons.mp ht with ht | ht
      · have := ht.1
        omega
      · have := hlt t ht
        omega

/-- A run that meets none of the zones is added to them. -/
theorem insert_spec (hpos : 0 < z.length) (hstop : z.start + z.length < 65536) (h : Ascending zs)
    (hb : ∀ t, Covered zs t → t < 65535) (hnew : ∀ t, z.Covers t → ¬ Covered zs t) :
    ∃ r, z.insert zs = .ok r ∧ Ascending r ∧ ∀ t, Covered r t ↔ z.Covers t ∨ Covered zs t := by
  induction zs with
  | nil => exact ⟨[z], rfl, ascending_cons_iff.mpr ⟨hpos, by simp, .nil⟩, by simp⟩
  | cons y ys ih =>
    obtain ⟨hypos, hlt, hys⟩ := ascending_cons_iff.mp h
    have hystop := h.stop_le hb List.mem_cons_self
    simp only [covered_cons, not_or] at hnew hb
    rw [insert]
    by_cases hle : y.start ≤ z.start
    · -- the run lies behind `y`, and joins it after it has been put to its place
      have hbehind : y.start + y.length ≤ z.start := by
        by_contra hlt'
        exact (hnew z.start ⟨Nat.le_refl _, by omega⟩).1 ⟨hle, by omega⟩
      obtain ⟨r, hr, hasc, hcov⟩ := ih hys (fun t ht => hb t (.inr ht)) fun t ht => (hnew t ht).2
      have hfrom : ∀ t, Covered r t → y.start + y.length ≤ t ∧ t < 65535 := by
        intro t ht
        rcases (hcov t).mp ht with ht | ht
        · exact ⟨by have := ht.1; omega, by have := ht.2; omega⟩
        · exact ⟨by have := hlt t ht; omega, hb t (.inr ht)⟩
      obtain ⟨r', hr', hasc', hcov'⟩ :=
        join_spec hypos hasc (fun t ht => (hfrom t ht).1) fun t ht => (hfrom t ht).2
      refine ⟨r', ?_, hasc', fun t => ?_⟩
      · rw [if_pos hle, stop, halfWord_of_lt (by omega)]
        change (if _ then _ else _) = _
        rw [if_pos hbehind, hr]
        exact hr'
      · rw [hcov', hcov, covered_cons]
        exact or_left_comm
    · -- the run lies before `y`
      have hbefore : z.start + z.length ≤ y.start := by
        by_contra hlt'
        exact (hnew y.start ⟨by omega, by omega⟩).1 ⟨Nat.le_refl _, by omega⟩
      rw [if_neg hle, if_pos hbefore]
      refine join_spec hpos h (fun t ht => ?_) fun t ht => hb t (covered_cons.mp ht)
      rcases covered_cons.mp ht with ht | ht
      · have := ht.1
        omega
      · have := hlt t ht
        omega

/-- A run that meets one of the zones cannot be added to them. -/
theorem insert_of_meets (h : Ascending zs) (hb : ∀ t, Covered zs t → t < 65535)
    (hz : z.Covers t) (ht : Covered zs t) : z.insert zs = .error .doubleRelease := by
  induction zs with
  | nil => exact absurd ht not_covered_nil
  | cons y ys ih =>
    obtain ⟨hypos, hlt, hys⟩ := ascending_cons_iff.mp h
    have hystop := h.stop_le hb List.mem_cons_self
    obtain ⟨hle, hstop⟩ := hz
    rw [insert]
    by_cases hstart : y.start ≤ z.start
    · rw [if_pos hstart, stop, halfWord_of_lt (by omega), Checked.ok_bind]
      by_cases hbehind : y.start + y.length ≤ z.start
      · -- the run lies behind `y`, so that it meets a later zone
        have hrest : Covered ys t := (covered_cons.mp ht).resolve_left fun hy => by
          have := hy.2
          omega
        rw [if_pos hbehind, ih hys (fun t ht => hb t (covered_cons.mpr (.inr ht))) hrest]
        rfl
      · rw [if_neg hbehind]
    · have hafter : y.start ≤ t := by
        rcases covered_cons.mp ht with hy | hrest
        · exact hy.1
        · have := hlt t hrest
          omega
      rw [if_neg hstart, if_neg (by omega)]

end Zone

/-! ### The pool -/

namespace TilePool

/-- The zones of a pool are in ascending order and stay below its capacity, a 16-bit number. -/
structure Sound (p : TilePool) : Prop where
  ascending : Zone.Ascending p.zones
  lt_capacity : ∀ t, p.IsFree t → t < p.capacity
  capacity_lt : p.capacity < 65536

instance (p : TilePool) (t : Nat) : Decidable (p.IsFree t) :=
  inferInstanceAs (Decidable (∃ z ∈ p.zones, z.Covers t))

variable {p q : TilePool} {n start : Nat}

/-- In a new pool every tile below the capacity is free. -/
theorem isFree_new {capacity t : Nat} : (new capacity).IsFree t ↔ t < capacity := by
  simp only [IsFree, new, allFree]
  split
  · simp [Zone.covers_iff]
  · simp
    omega

theorem Sound.new {capacity : Nat} (h : capacity < 65536) : (new capacity).Sound where
  ascending := by
    simp only [TilePool.new, allFree]
    split
    · rename_i hpos
      exact Zone.ascending_cons_iff.mpr ⟨hpos, by simp, .nil⟩
    · exact .nil
  lt_capacity _ := isFree_new.mp
  capacity_lt := h

/-- The free tiles determine the pool. -/
theorem Sound.ext (hp : p.Sound) (hq : q.Sound) (hcap : p.capacity = q.capacity)
    (h : ∀ t, p.IsFree t ↔ q.IsFree t) : p = q := by
  have hzones := hp.ascending.eq_of_covered hq.ascending h
  cases p
  cases q
  simp_all

private theorem Sound.lt_of_isFree (hp : p.Sound) {t : Nat} (ht : p.IsFree t) : t < 65535 := by
  have := hp.lt_capacity t ht
  have := hp.capacity_lt
  omega

/-- Tiles that are reserved are the first run of free tiles of that length, and no other tile
changes. If there is no such run, nothing is reserved. -/
theorem reserve_spec (hp : p.Sound) (hn : 0 < n) :
    (p.reserve n = .ok (.error .outOfTiles) ∧
        ∀ s, ¬ ∀ t, Zone.Covers ⟨s, n⟩ t → p.IsFree t) ∨
      ∃ start p', p.reserve n = .ok (.ok (start, p')) ∧ p'.Sound ∧ p'.capacity = p.capacity ∧
        IsLeast {s | ∀ t, Zone.Covers ⟨s, n⟩ t → p.IsFree t} start ∧
        ∀ t, p'.IsFree t ↔ p.IsFree t ∧ ¬ Zone.Covers ⟨start, n⟩ t := by
  rw [reserve, if_neg (by omega)]
  rcases Zone.take_spec hn hp.ascending fun t => hp.lt_of_isFree with
    ⟨hnone, hshort⟩ | ⟨start, rest, hsome, hasc, hleast, hrest⟩
  · refine .inl ⟨by rw [hnone]; rfl, fun s hs => ?_⟩
    obtain ⟨z, hz, hle, hstop⟩ := hp.ascending.exists_of_run hn hs
    have := hshort z hz
    omega
  · right
    refine ⟨start, { p with zones := rest }, by rw [hsome]; rfl,
      ⟨hasc, fun t ht => ?_, hp.capacity_lt⟩, rfl, hleast, hrest⟩
    exact hp.lt_capacity t ((hrest t).mp ht).1

/-- Tiles that are given back while none of them is free become free, and no other tile changes. -/
theorem release_spec (hp : p.Sound) (hn : 0 < n) (hle : start + n ≤ p.capacity)
    (hnew : ∀ t, Zone.Covers ⟨start, n⟩ t → ¬ p.IsFree t) :
    ∃ p', p.release start n = .ok (.ok p') ∧ p'.Sound ∧ p'.capacity = p.capacity ∧
      ∀ t, p'.IsFree t ↔ Zone.Covers ⟨start, n⟩ t ∨ p.IsFree t := by
  have hcap := hp.capacity_lt
  have hstop : start + n < 65536 := by omega
  obtain ⟨rest, hrest, hasc, hcov⟩ := Zone.insert_spec (z := ⟨start, n⟩) hn hstop hp.ascending
    (fun t => hp.lt_of_isFree) hnew
  rw [release, if_neg (by omega), halfWord_of_lt (by omega)]
  refine ⟨{ p with zones := rest }, ?_, ⟨hasc, fun t ht => ?_, hcap⟩, rfl, hcov⟩
  · rw [Checked.ok_bind, hrest]
    rfl
  · rcases (hcov t).mp ht with ht | ht
    · exact Nat.lt_of_lt_of_le ht.2 hle
    · exact hp.lt_capacity t ht

/-- Tiles that are given back while one of them is free are a fault. -/
theorem release_of_meets {t : Nat} (hp : p.Sound) (hle : start + n ≤ p.capacity)
    (ht : Zone.Covers ⟨start, n⟩ t) (hfree : p.IsFree t) :
    p.release start n = .error .doubleRelease := by
  have hcap := hp.capacity_lt
  have hn : 0 < n := by
    obtain ⟨hstart, hstop⟩ := ht
    dsimp only at hstart hstop
    omega
  rw [release, if_neg (by omega), halfWord_of_lt (by omega), Checked.ok_bind,
    Zone.insert_of_meets hp.ascending (fun t => hp.lt_of_isFree) ht hfree]
  rfl

end TilePool

end SpriteEngine
