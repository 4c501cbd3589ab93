import SpriteEngine.Memory.Video

/-!
# Reading after writing

The laws of the memories, by place.

Object attribute memory is two tables in one array. `Oam.words3_setWords3` and
`Oam.matrix_setMatrix` are the laws of each table, `Oam.matrix_setWords3` and
`Oam.words3_setMatrix` say that neither touches the other, and by `Oam.ext_tables` there is nothing
else in the array.

Tile RAM is bytes. `TileRam.copy_spec` says that a transfer that fits replaces the bytes of its
tiles and no others; `TileRam.Holds` is the relation between a run of tiles and the bytes that were
transferred to it.
-/

namespace SpriteEngine

/-! ### Object attribute memory -/

namespace Oam

variable (m : Oam) (s : Fin 128) (g : Fin 32) (w : Words) (a : AffineMatrix)

/-- Writing the words of one slot leaves those of the others. -/
@[simp] theorem words3_setWords3 (s' : Fin 128) :
    (m.setWords3 s w).words3 s' = if s' = s then w else m.words3 s' := by
  have hs := s.isLt
  have hs' := s'.isLt
  by_cases h : s' = s
  · subst h
    simp [words3, setWords3]
  · have hne : s.val ≠ s'.val := fun hv => h (Fin.ext hv.symm)
    simp only [words3, setWords3, Vector.getElem_set, if_neg h, Words.mk.injEq]
    refine ⟨?_, ?_, ?_⟩ <;> (repeat rw [if_neg (by omega)])

/-- Slots and maps share no address, though their words alternate in memory. -/
@[simp] theorem matrix_setWords3 : (m.setWords3 s w).matrix g = m.matrix g := by
  simp only [matrix, setWords3, Vector.getElem_set, AffineMatrix.mk.injEq]
  refine ⟨?_, ?_, ?_, ?_⟩ <;> (repeat rw [if_neg (by omega)])

@[simp] theorem words3_setMatrix : (m.setMatrix g a).words3 s = m.words3 s := by
  simp only [words3, setMatrix, Vector.getElem_set, Words.mk.injEq]
  refine ⟨?_, ?_, ?_⟩ <;> (repeat rw [if_neg (by omega)])

@[simp] theorem matrix_setMatrix (g' : Fin 32) :
    (m.setMatrix g a).matrix g' = if g' = g then a else m.matrix g' := by
  have hg := g.isLt
  have hg' := g'.isLt
  by_cases h : g' = g
  · subst h
    simp [matrix, setMatrix]
  · have hne : g.val ≠ g'.val := fun hv => h (Fin.ext hv.symm)
    simp only [matrix, setMatrix, Vector.getElem_set, if_neg h, AffineMatrix.mk.injEq]
    refine ⟨?_, ?_, ?_, ?_⟩ <;> (repeat rw [if_neg (by omega)])

variable {m}

/-- Every word belongs to a descriptor or to a linear map, so the two tables are all there is. -/
theorem ext_tables {m' : Oam} (hw : ∀ s, m.words3 s = m'.words3 s)
    (hm : ∀ g, m.matrix g = m'.matrix g) : m = m' := by
  have hwords : m.words = m'.words := by
    refine Vector.ext fun i hi => ?_
    have h3 := hw ⟨i / 4, by omega⟩
    have h4 := hm ⟨i / 16, by omega⟩
    simp only [words3, matrix, Words.mk.injEq, AffineMatrix.mk.injEq] at h3 h4
    have hplace : ∀ j (hj : j < 512), i = j → m.words[j] = m'.words[j] →
        m.words[i] = m'.words[i] := by
      rintro j hj rfl h
      exact h
    -- the last two bits of the place select the table, the next two the entry of a map
    have hcases : i = 4 * (i / 4) ∨ i = 4 * (i / 4) + 1 ∨ i = 4 * (i / 4) + 2 ∨
        i = 16 * (i / 16) + 3 ∨ i = 16 * (i / 16) + 7 ∨ i = 16 * (i / 16) + 11 ∨
        i = 16 * (i / 16) + 15 := by omega
    rcases hcases with h | h | h | h | h | h | h
    · exact hplace _ _ h h3.1
    · exact hplace _ _ h h3.2.1
    · exact hplace _ _ h h3.2.2
    · exact hplace _ _ h h4.1
    · exact hplace _ _ h h4.2.1
    · exact hplace _ _ h h4.2.2.1
    · exact hplace _ _ h h4.2.2.2
  cases m
  cases m'
  simp_all

theorem write_of_lt {slot : Nat} (h : slot < 128) :
    m.write slot w = .ok (m.setWords3 ⟨slot, h⟩ w) :=
  dif_pos h

theorem writeAffine_of_lt {group : Nat} (h : group < 32) :
    m.writeAffine group a = .ok (m.setMatrix ⟨group, h⟩ a) :=
  dif_pos h

/-- The loop over the slots hides each of them. -/
@[simp] theorem words3_hideAll : m.hideAll.words3 s = .hidden := by
  have hfold : ∀ (l : List (Fin 128)) (m : Oam),
      (l.foldl (fun m s => m.setWords3 s .hidden) m).words3 s =
        if s ∈ l then .hidden else m.words3 s := by
    intro l
    induction l with
    | nil => simp
    | cons s' l ih =>
      intro m
      rw [List.foldl_cons, ih, words3_setWords3]
      by_cases hs : s = s' <;> simp [hs]
  rw [hideAll, hfold, if_pos (List.mem_finRange s)]

/-- Hiding the objects leaves the maps. -/
@[simp] theorem matrix_hideAll (g : Fin 32) : m.hideAll.matrix g = m.matrix g := by
  refine List.foldlRecOn (motive := fun m' : Oam => m'.matrix g = m.matrix g) _ _ rfl ?_
  intro m' hm' s _
  rw [matrix_setWords3, hm']

end Oam

/-! ### Tile RAM -/

/-- Bytes past the end of the buffer are dropped, and those outside the run are kept. -/
theorem getElem?_overwriteBytes (buffer : Array UInt8) (pos : Nat) (bs : List UInt8) (i : Nat) :
    (overwriteBytes buffer pos bs)[i]? =
      if pos ≤ i ∧ i < pos + bs.length ∧ i < buffer.size then bs[i - pos]? else buffer[i]? := by
  induction bs generalizing buffer pos with
  | nil => simp [overwriteBytes]; omega
  | cons b bs ih =>
    rw [overwriteBytes, ih, Array.size_setIfInBounds, Array.getElem?_setIfInBounds,
      List.length_cons]
    by_cases hpos : pos = i
    · -- the first byte, which is lost if the buffer ends here
      subst hpos
      rw [if_neg (by omega), if_pos rfl]
      by_cases hsize : pos < buffer.size
      · rw [if_pos hsize, if_pos (by omega), Nat.sub_self, List.getElem?_cons_zero]
      · rw [if_neg hsize, if_neg (by omega), Array.getElem?_eq_none (by omega)]
    · rw [if_neg hpos]
      by_cases hin : pos + 1 ≤ i ∧ i < pos + 1 + bs.length ∧ i < buffer.size
      · rw [if_pos hin, if_pos (by omega), show i - pos = i - (pos + 1) + 1 by omega,
          List.getElem?_cons_succ]
      · rw [if_neg hin, if_neg (by omega)]

namespace TileRam

/-- The tiles from tile `start` on hold the given bytes. -/
def Holds (ram : TileRam) (start : Nat) (image : Array UInt8) : Prop :=
  ∀ j, j < image.size → ram.bytes[64 * start + j]? = image[j]?

/-- A transfer of whole tiles that fits is done, and changes the bytes of its tiles only. -/
theorem copy_spec (ram : TileRam) (dest : Nat) {count : Nat} {image : Array UInt8}
    (hcount : 0 < count) (himage : image.size = 64 * count)
    (hfits : 64 * (dest + count) ≤ ram.bytes.size) :
    ∃ ram', ram.copy dest image.toList = .ok ram' ∧ ram'.bytes.size = ram.bytes.size ∧
      ram'.Holds dest image ∧
      ∀ i, ¬ (64 * dest ≤ i ∧ i < 64 * (dest + count)) → ram'.bytes[i]? = ram.bytes[i]? := by
  have hlength : image.toList.length = 64 * count := by simp [himage]
  refine ⟨⟨overwriteBytes ram.bytes (64 * dest) image.toList⟩, ?_, by simp, fun j hj => ?_,
    fun i hi => ?_⟩
  · rw [copy, if_neg (by omega), if_neg (by omega)]
  · rw [getElem?_overwriteBytes, if_pos (by omega), Nat.add_sub_cancel_left, Array.getElem?_toList]
  · rw [getElem?_overwriteBytes, if_neg (by omega)]

/-- Bytes elsewhere do not matter. -/
theorem Holds.congr {ram ram' : TileRam} {start : Nat} {image : Array UInt8}
    (h : ram.Holds start image)
    (hsame : ∀ j, j < image.size → ram'.bytes[64 * start + j]? = ram.bytes[64 * start + j]?) :
    ram'.Holds start image :=
  fun j hj => (hsame j hj).trans (h j hj)

end TileRam

end SpriteEngine
