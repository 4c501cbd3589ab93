import Mathlib.Data.List.Nodup
import SpriteEngine.Pool.Affine

/-!
# Affine groups in use

`AffinePool.Accounts p groups` says that the groups in use are those in the list `groups`, each
there once. It is kept when a group is taken (`AffinePool.Accounts.reserve`), which is the first one
that nobody has, and when one is given back (`AffinePool.Accounts.release`). The pool then counts as
many groups in use as the list has (`AffinePool.Accounts.usedCount_eq`).
-/

namespace SpriteEngine.AffinePool

variable {p p' : AffinePool} {groups : List Nat} {g : Nat}

theorem isUsed_mark (inUse : Bool) (h : Nat) :
    (p.mark g inUse).isUsed h = if g = h ∧ g < 32 then inUse else p.isUsed h := by
  rw [isUsed, mark, Vector.getElem?_setIfInBounds]
  by_cases hgh : g = h
  · subst hgh
    by_cases hg : g < 32 <;> simp [hg, isUsed]
  · simp [hgh, isUsed]

/-- The flags are those of the groups that may be handed out. -/
theorem flags_eq (h : p.count ≤ 32) : p.flags = (List.range p.count).map p.isUsed := by
  refine List.ext_getElem (by simp [flags, h]) fun g hg hg' => ?_
  have hlt : g < 32 := by
    rw [List.length_map, List.length_range] at hg'
    omega
  simp [flags, isUsed, hlt]

/-- The pool accounts for the groups in `groups`: each of them may be handed out and is in use, none
is there twice, and no other group is in use. -/
structure Accounts (p : AffinePool) (groups : List Nat) : Prop where
  count : ∀ g, groups.count g = (p.isUsed g).toNat
  lt : ∀ g ∈ groups, g < p.count
  count_le : p.count ≤ 32

theorem Accounts.perm {groups' : List Nat} (h : p.Accounts groups) (hp : groups.Perm groups') :
    p.Accounts groups' where
  count g := (hp.count_eq g).symm.trans (h.count g)
  lt g hg := h.lt g (hp.mem_iff.mpr hg)
  count_le := h.count_le

/-- No group has two holders. -/
theorem Accounts.nodup (h : p.Accounts groups) : groups.Nodup := by
  rw [List.nodup_iff_count_le_one]
  intro g
  rw [h.count]
  exact Bool.toNat_le _

/-- A group is held if and only if it is in use. -/
theorem Accounts.mem_iff (h : p.Accounts groups) : g ∈ groups ↔ p.isUsed g = true := by
  rw [← List.count_pos_iff, h.count]
  cases p.isUsed g <;> simp

/-- There are as many groups in use as the list has. -/
theorem Accounts.usedCount_eq (h : p.Accounts groups) : p.usedCount = groups.length := by
  have hflags : p.used.toList = (List.range 32).map p.isUsed := by
    refine List.ext_getElem (by simp) fun g hg hg' => ?_
    simp only [List.length_map, List.length_range] at hg'
    simp [isUsed, hg']
  have hperm : groups.Perm ((List.range 32).filter p.isUsed) := by
    refine (List.perm_ext_iff_of_nodup h.nodup (List.nodup_range.filter _)).mpr fun g => ?_
    rw [List.mem_filter, List.mem_range, h.mem_iff, iff_and_self]
    intro hg
    exact Nat.lt_of_lt_of_le (h.lt g (h.mem_iff.mpr hg)) h.count_le
  rw [usedCount, hflags, List.countP_map, hperm.length_eq, List.countP_eq_length_filter]
  rfl

theorem Accounts.new {count : Nat} : (new count).Accounts [] where
  count g := by
    rw [isUsed, AffinePool.new]
    by_cases hg : g < 32 <;> simp [hg]
  lt g hg := absurd hg List.not_mem_nil
  count_le := Nat.min_le_right count 32

/-- The group that is taken is the first one that is not in use. -/
theorem reserve_eq_some (h : p.reserve = some (g, p')) :
    g < p.count ∧ p.isUsed g = false ∧ (∀ g' < g, p.isUsed g' = true) ∧ p' = p.mark g true := by
  obtain ⟨g', hg', heq⟩ := Option.map_eq_some_iff.mp h
  obtain ⟨rfl, rfl⟩ : g' = g ∧ p.mark g' true = p' := by simpa using heq
  rw [List.find?_range_eq_some] at hg'
  obtain ⟨hfree, hmem, hbefore⟩ := hg'
  exact ⟨List.mem_range.mp hmem, by simpa using hfree, fun j hj => by simpa using hbefore j hj, rfl⟩

/-- If no group can be taken, all of them are in use. -/
theorem reserve_eq_none (h : p.reserve = none) (hg : g < p.count) : p.isUsed g = true := by
  rw [reserve, Option.map_eq_none_iff, List.find?_eq_none] at h
  simpa using h g (List.mem_range.mpr hg)

/-- The group that is taken was free, so nobody else holds it. -/
theorem Accounts.reserve (h : p.Accounts groups) (hr : p.reserve = some (g, p')) :
    p'.Accounts (g :: groups) := by
  obtain ⟨hlt, hfree, -, rfl⟩ := reserve_eq_some hr
  have hg : g < 32 := Nat.lt_of_lt_of_le hlt h.count_le
  refine ⟨fun j => ?_, fun j hj => ?_, h.count_le⟩
  · rw [List.count_cons, h.count, isUsed_mark]
    by_cases hgj : g = j
    · subst hgj
      simp [hfree, hg]
    · simp [hgj]
  · rcases List.mem_cons.mp hj with rfl | hj
    · exact hlt
    · exact h.lt j hj

/-- A group that is given back had one holder, and has none afterwards. -/
theorem Accounts.release (h : p.Accounts (g :: groups)) : (p.release g).Accounts groups := by
  have hg : g < 32 := Nat.lt_of_lt_of_le (h.lt g List.mem_cons_self) h.count_le
  refine ⟨fun j => ?_, fun j hj => h.lt j (List.mem_cons_of_mem g hj), h.count_le⟩
  have hj := h.count j
  rw [AffinePool.release, isUsed_mark]
  rw [List.count_cons] at hj
  by_cases hgj : g = j
  · subst hgj
    have := Bool.toNat_le (p.isUsed g)
    simp [hg] at hj ⊢
    omega
  · simpa [hgj] using hj

end SpriteEngine.AffinePool
