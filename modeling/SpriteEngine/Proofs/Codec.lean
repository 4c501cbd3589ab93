import Mathlib.Algebra.Group.Nat.Defs
import SpriteEngine.Descriptor

/-!
# Descriptors survive their words

The fields of a descriptor have disjoint places in its three words. So what is read off the words of
a record is the record again, except that a field which is wider than its place is cut
(`Attributes.narrow`): that is `Attributes.decode_encode`. A record of which nothing is cut
(`Attributes.IsNarrow`) is read back as it was.

In the other direction words may have bits that say nothing, and packing what was read off them
clears these bits (`Words.canonical`): that is `Words.encode_decode`. The words that survive are
those of a record. The last theorem puts the two directions together.
-/

namespace SpriteEngine

private theorem Shape.code_lt (s : Shape) : s.code < 3 := by
  cases s <;> decide

@[simp] theorem Shape.ofCode_code (s : Shape) : ofCode s.code = s := by
  cases s <;> rfl

/-- The code that stands for no shape reads as a square, and its code is 0. -/
private theorem Shape.code_ofCode {n : Nat} (h : n < 4) :
    (ofCode n).code = if n = 3 then 0 else n := by
  revert n
  decide

namespace Attributes

/-- Cut every field to the bits that have a place in the words. -/
def narrow (a : Attributes) : Attributes :=
  { a with
    x := a.x % 512
    affineIndex := a.affineIndex.map (· % 32)
    tileStart := a.tileStart % 1024
    priority := a.priority % 4 }

/-- No field is wider than its place in the words. -/
structure IsNarrow (a : Attributes) : Prop where
  x : a.x.toNat < 512
  affineIndex : ∀ g ∈ a.affineIndex, g.toNat < 32
  tileStart : a.tileStart.toNat < 1024
  priority : a.priority.toNat < 4

variable (a : Attributes)

/-! ### The words as sums -/

/-- The fields of the first word do not overlap, so that the word is their sum. -/
private theorem toNat_attr0 : a.encode.attr0.toNat = a.y.toNat + 256 * a.affineIndex.isSome.toNat +
    512 * a.disabled.toNat + 8192 * a.color256.toNat + 16384 * a.shape.code := by
  have hy := a.y.toNat_lt
  have haffine := Bool.toNat_le a.affineIndex.isSome
  have hdisabled := Bool.toNat_le a.disabled
  have hcolor := Bool.toNat_le a.color256
  have hshape := a.shape.code_lt
  exact UInt16.toNat_ofNat_of_lt' (by change _ < 65536; omega)

private theorem affineBits_lt : (a.affineIndex.elim 0 fun i => i.toNat % 32) < 32 := by
  cases a.affineIndex with
  | none => exact Nat.zero_lt_succ 31
  | some g => exact Nat.mod_lt _ (Nat.zero_lt_succ 31)

private theorem toNat_attr1 : a.encode.attr1.toNat = a.x.toNat % 512 +
    512 * (a.affineIndex.elim 0 fun i => i.toNat % 32) + 16384 * a.size.val := by
  have hsize := a.size.isLt
  have haffine := a.affineBits_lt
  exact UInt16.toNat_ofNat_of_lt' (by change _ < 65536; omega)

private theorem toNat_attr2 : a.encode.attr2.toNat = a.tileStart.toNat % 1024 +
    1024 * (a.priority.toNat % 4) :=
  UInt16.toNat_ofNat_of_lt' (by change _ < 65536; omega)

/-- A flag is the bit at its place if what stands below the bit is smaller than the bit. -/
private theorem bit_eq {w : UInt16} {i : Nat} {b : Bool} (low high : Nat) (hlow : low < 2 ^ i)
    (hw : w.toNat = low + 2 ^ i * b.toNat + 2 ^ (i + 1) * high) : Words.bit w i = b := by
  have hdiv : w.toNat / 2 ^ i = b.toNat + 2 * high := by
    rw [hw, Nat.pow_succ, Nat.mul_assoc, Nat.add_assoc, ← Nat.mul_add,
      Nat.add_mul_div_left _ _ (Nat.two_pow_pos i), Nat.div_eq_of_lt hlow, Nat.zero_add]
  rw [Words.bit, Nat.testBit_eq_decide_div_mod_eq, hdiv, Nat.add_mul_mod_self_left]
  cases b <;> rfl

/-! ### Reading back -/

/-- The flags and the shape are those of the record. -/
theorem bits_attr0 : Words.bit a.encode.attr0 8 = a.affineIndex.isSome ∧
    Words.bit a.encode.attr0 9 = a.disabled ∧ Words.bit a.encode.attr0 13 = a.color256 ∧
    a.encode.attr0.toNat / 16384 = a.shape.code := by
  have hy := a.y.toNat_lt
  have haffine := Bool.toNat_le a.affineIndex.isSome
  have hdisabled := Bool.toNat_le a.disabled
  have hcolor := Bool.toNat_le a.color256
  have h0 := a.toNat_attr0
  refine ⟨bit_eq a.y.toNat (a.disabled.toNat + 16 * a.color256.toNat + 32 * a.shape.code) hy ?_,
    bit_eq (a.y.toNat + 256 * a.affineIndex.isSome.toNat)
      (8 * a.color256.toNat + 16 * a.shape.code) ?_ ?_,
    bit_eq (a.y.toNat + 256 * a.affineIndex.isSome.toNat + 512 * a.disabled.toNat) a.shape.code
      ?_ ?_, ?_⟩ <;> omega

/-- Decoding brings back the attributes, cut down to what has bits. -/
theorem decode_encode : a.encode.decode = a.narrow := by
  have hy := a.y.toNat_lt
  have h0 := a.toNat_attr0
  have h1 := a.toNat_attr1
  have h2 := a.toNat_attr2
  obtain ⟨hbit8, hbit9, hbit13, hcode⟩ := a.bits_attr0
  rw [Words.decode, narrow, hbit8, hbit9, hbit13, hcode, Shape.ofCode_code, Attributes.mk.injEq]
  refine ⟨?_, ?_, ?_, rfl, rfl, rfl, ?_, ?_, ?_⟩
  · rw [← UInt8.toNat_inj, UInt8.toNat_ofNat']
    omega
  · rw [← UInt16.toNat_inj, UInt16.toNat_ofNat', UInt16.toNat_mod]
    change _ = a.x.toNat % 512
    omega
  · cases hg : a.affineIndex with
    | none => rfl
    | some g =>
      rw [hg, Option.elim_some] at h1
      rw [Option.isSome_some, if_pos rfl, Option.map_some, Option.some_inj, ← UInt8.toNat_inj,
        UInt8.toNat_ofNat', UInt8.toNat_mod]
      change _ = g.toNat % 32
      omega
  · have haffine := a.affineBits_lt
    have hsize := a.size.isLt
    apply Fin.ext
    change a.encode.attr1.toNat / 16384 % 4 = a.size.val
    omega
  · rw [← UInt16.toNat_inj, UInt16.toNat_ofNat', UInt16.toNat_mod]
    change _ = a.tileStart.toNat % 1024
    omega
  · rw [← UInt8.toNat_inj, UInt8.toNat_ofNat', UInt8.toNat_mod]
    change _ = a.priority.toNat % 4
    omega

variable {a}

private theorem IsNarrow.narrow_eq (h : a.IsNarrow) : a.narrow = a := by
  have hx : a.x % 512 = a.x :=
    UInt16.toNat_inj.mp ((UInt16.toNat_mod ..).trans (Nat.mod_eq_of_lt h.x))
  have htile : a.tileStart % 1024 = a.tileStart :=
    UInt16.toNat_inj.mp ((UInt16.toNat_mod ..).trans (Nat.mod_eq_of_lt h.tileStart))
  have hpriority : a.priority % 4 = a.priority :=
    UInt8.toNat_inj.mp ((UInt8.toNat_mod ..).trans (Nat.mod_eq_of_lt h.priority))
  have haffine : a.affineIndex.map (· % 32) = a.affineIndex := by
    cases hg : a.affineIndex with
    | none => rfl
    | some g =>
      have hlt := h.affineIndex g hg
      rw [Option.map_some, Option.some_inj, ← UInt8.toNat_inj, UInt8.toNat_mod]
      exact Nat.mod_eq_of_lt hlt
  rw [narrow, hx, htile, hpriority, haffine]

/-- Attributes that fit the bits come back as they were. -/
theorem IsNarrow.decode_encode (h : a.IsNarrow) : a.encode.decode = a :=
  a.decode_encode.trans h.narrow_eq

/-- What is cut off a record does not show in its words. -/
theorem encode_narrow (a : Attributes) : a.narrow.encode = a.encode := by
  obtain ⟨y, x, affineIndex, disabled, color256, shape, size, tileStart, priority⟩ := a
  cases affineIndex <;> simp [encode, narrow, UInt16.toNat_mod, UInt8.toNat_mod]

end Attributes

/-! ### Packing what was read -/

namespace Words

/-- The words without the bits that say nothing. These are the bits 10 to 12 of the first word and
12 to 15 of the third, the shape if its code stands for none, and the affine group if the affine bit
is not set. -/
def canonical (w : Words) : Words where
  attr0 := if w.attr0 >>> 14 = 3 then w.attr0 &&& 0x23FF else w.attr0 &&& 0xE3FF
  attr1 := if bit w.attr0 8 then w.attr1 else w.attr1 &&& 0xC1FF
  attr2 := w.attr2 &&& 0x0FFF

variable (w : Words)

/-- Every descriptor reads as a record of which nothing is cut. -/
theorem isNarrow_decode : w.decode.IsNarrow where
  x := by
    rw [decode, UInt16.toNat_ofNat']
    omega
  affineIndex g hg := by
    rw [decode, Option.mem_def] at hg
    dsimp only at hg
    split at hg
    · rw [← Option.some.inj hg, UInt8.toNat_ofNat']
      omega
    · simp at hg
  tileStart := by
    rw [decode, UInt16.toNat_ofNat']
    omega
  priority := by
    rw [decode, UInt8.toNat_ofNat']
    omega

/-- A mask of two runs of ones keeps what stands under them. -/
private theorem and_two_runs (x low gap high : Nat) :
    x &&& (2 ^ (low + gap) * (2 ^ high - 1) + (2 ^ low - 1)) =
      2 ^ (low + gap) * (x / 2 ^ (low + gap) % 2 ^ high) + x % 2 ^ low := by
  have hlow : 2 ^ low - 1 < 2 ^ (low + gap) := by
    have := Nat.two_pow_pos low
    have := Nat.pow_le_pow_right (n := 2) (by decide) (Nat.le_add_right low gap)
    omega
  have hdiv : (2 ^ (low + gap) * (2 ^ high - 1) + (2 ^ low - 1)) / 2 ^ (low + gap) =
      2 ^ high - 1 := by
    rw [Nat.mul_add_div (Nat.two_pow_pos _), Nat.div_eq_of_lt hlow, Nat.add_zero]
  have hmod : (2 ^ (low + gap) * (2 ^ high - 1) + (2 ^ low - 1)) % 2 ^ (low + gap) =
      2 ^ low - 1 := by
    rw [Nat.mul_add_mod, Nat.mod_eq_of_lt hlow]
  rw [← Nat.div_add_mod (x &&& _) (2 ^ (low + gap)), Nat.and_div_two_pow, Nat.and_mod_two_pow, hdiv,
    hmod, Nat.and_two_pow_sub_one_eq_mod, Nat.and_two_pow_sub_one_eq_mod,
    Nat.mod_mod_of_dvd _ (Nat.pow_dvd_pow 2 (Nat.le_add_right low gap))]

/-- The first word comes back without the bits that have no field, and without a shape code that
stands for none. -/
private theorem attr0_encode_decode : w.decode.encode.attr0 = w.canonical.attr0 := by
  have hlt := w.attr0.toNat_lt
  have hbit : ∀ i, (bit w.attr0 i).toNat = w.attr0.toNat / 2 ^ i % 2 := fun i =>
    Nat.toNat_testBit ..
  have hsome : w.decode.affineIndex.isSome = bit w.attr0 8 := by
    rw [decode]
    cases bit w.attr0 8 <;> rfl
  have hy : w.decode.y.toNat = w.attr0.toNat % 256 := by
    rw [decode, UInt8.toNat_ofNat']
    omega
  have hcode : w.decode.shape.code =
      if w.attr0.toNat / 16384 = 3 then 0 else w.attr0.toNat / 16384 :=
    Shape.code_ofCode (by omega)
  have hnone : w.attr0 >>> 14 = 3 ↔ w.attr0.toNat / 16384 = 3 := by
    rw [← UInt16.toNat_inj, UInt16.toNat_shiftRight, Nat.shiftRight_eq_div_pow]
    rfl
  rw [← UInt16.toNat_inj, Attributes.toNat_attr0, hy, hsome, hcode]
  change _ + 512 * (bit w.attr0 9).toNat + 8192 * (bit w.attr0 13).toNat + _ = _
  rw [hbit, hbit, hbit, canonical]
  by_cases h : w.attr0.toNat / 16384 = 3
  · have hkept := and_two_runs w.attr0.toNat 10 3 1
    rw [if_pos h, if_pos (hnone.mpr h), UInt16.toNat_and]
    change _ = w.attr0.toNat &&& (2 ^ (10 + 3) * (2 ^ 1 - 1) + (2 ^ 10 - 1))
    omega
  · have hkept := and_two_runs w.attr0.toNat 10 3 3
    rw [if_neg h, if_neg fun h' => h (hnone.mp h'), UInt16.toNat_and]
    change _ = w.attr0.toNat &&& (2 ^ (10 + 3) * (2 ^ 3 - 1) + (2 ^ 10 - 1))
    omega

/-- The second word comes back, but for the group if the affine bit is not set. -/
private theorem attr1_encode_decode : w.decode.encode.attr1 = w.canonical.attr1 := by
  have hlt := w.attr1.toNat_lt
  have hx : w.decode.x.toNat = w.attr1.toNat % 512 := by
    rw [decode, UInt16.toNat_ofNat']
    omega
  have hsize : w.decode.size.val = w.attr1.toNat / 16384 % 4 := rfl
  have haffine : (w.decode.affineIndex.elim 0 fun i => i.toNat % 32) =
      if bit w.attr0 8 then w.attr1.toNat / 512 % 32 else 0 := by
    rw [decode]
    cases bit w.attr0 8 with
    | false => rfl
    | true =>
      change (UInt8.ofNat (w.attr1.toNat / 512 % 32)).toNat % 32 = _
      rw [UInt8.toNat_ofNat', if_pos rfl]
      omega
  rw [← UInt16.toNat_inj, Attributes.toNat_attr1, hx, hsize, haffine, canonical]
  cases bit w.attr0 8 with
  | true =>
    rw [if_pos rfl]
    change _ = w.attr1.toNat
    omega
  | false =>
    have hkept := and_two_runs w.attr1.toNat 9 5 2
    rw [if_neg Bool.false_ne_true, if_neg Bool.false_ne_true, UInt16.toNat_and]
    change _ = w.attr1.toNat &&& (2 ^ (9 + 5) * (2 ^ 2 - 1) + (2 ^ 9 - 1))
    omega

/-- The third word comes back without the bits that have no field. -/
private theorem attr2_encode_decode : w.decode.encode.attr2 = w.canonical.attr2 := by
  have htile : w.decode.tileStart.toNat = w.attr2.toNat % 1024 := by
    rw [decode, UInt16.toNat_ofNat']
    omega
  have hpriority : w.decode.priority.toNat = w.attr2.toNat / 1024 % 4 := by
    rw [decode, UInt8.toNat_ofNat']
    omega
  have hkept := Nat.and_two_pow_sub_one_eq_mod w.attr2.toNat 12
  rw [← UInt16.toNat_inj, Attributes.toNat_attr2, htile, hpriority, canonical, UInt16.toNat_and]
  change _ = w.attr2.toNat &&& (2 ^ 12 - 1)
  omega

/-- Packing what was read off words clears the bits that say nothing. -/
theorem encode_decode : w.decode.encode = w.canonical :=
  calc w.decode.encode
      = ⟨w.decode.encode.attr0, w.decode.encode.attr1, w.decode.encode.attr2⟩ := rfl
    _ = w.canonical := by rw [attr0_encode_decode, attr1_encode_decode, attr2_encode_decode]

/-- The words that survive are those of a record. -/
theorem encode_decode_eq_self_iff : w.decode.encode = w ↔ ∃ a : Attributes, a.encode = w := by
  constructor
  · exact fun h => ⟨w.decode, h⟩
  · rintro ⟨a, rfl⟩
    rw [a.decode_encode, a.encode_narrow]

end Words

/-- Reading the words of a record gives the record with each field cut to its place, and what is cut
off is in none of the words. So words and records without anything to cut determine each other.
Packing what was read off any words clears the bits that say nothing. A second time this changes
nothing, and the first time it leaves alone exactly the words of a record. -/
theorem descriptor_round_trips :
    (∀ a : Attributes, a.narrow.encode = a.encode ∧ a.encode.decode =
      { a with
        x := a.x % 512
        affineIndex := a.affineIndex.map (· % 32)
        tileStart := a.tileStart % 1024
        priority := a.priority % 4 }) ∧
    (∀ a : Attributes, a.encode.decode = a ↔ a.IsNarrow) ∧
    (∀ a b : Attributes, a.IsNarrow → b.IsNarrow → a.encode = b.encode → a = b) ∧
    (∀ w : Words, w.decode.encode = w.canonical) ∧
    (∀ w : Words, w.decode.encode.decode.encode = w.decode.encode) ∧
    ∀ w : Words, w.decode.encode = w ↔ ∃ a : Attributes, a.encode = w := by
  refine ⟨fun a => ⟨a.encode_narrow, a.decode_encode⟩, fun a => ⟨fun h => ?_, fun h => ?_⟩,
    fun a b ha hb h => ?_, Words.encode_decode, fun w => ?_, Words.encode_decode_eq_self_iff⟩
  · rw [← h]
    exact a.encode.isNarrow_decode
  · exact h.decode_encode
  · rw [← ha.decode_encode, h, hb.decode_encode]
  · rw [w.isNarrow_decode.decode_encode]

/-- A record in which every field is too wide, a record that fills its words, and words with all
bits set. -/
theorem descriptor_round_trips_allBits :
    let wide : Attributes := ⟨255, 65535, some 255, true, true, .vertical, 3, 65535, 255⟩
    let full : Attributes := ⟨255, 511, some 31, true, true, .vertical, 3, 1023, 3⟩
    let w : Words := ⟨0xFFFF, 0xFFFF, 0xFFFF⟩
    wide.encode.decode = full ∧ full.IsNarrow ∧ (∀ b : Attributes, b.IsNarrow →
      full.encode = b.encode → full = b) ∧ w.decode.encode = ⟨0x23FF, 0xFFFF, 0x0FFF⟩ ∧
      ¬ ∃ a : Attributes, a.encode = w := by
  intro wide full w
  obtain ⟨hread, hnarrow, hinj, hpack, -, hwords⟩ := descriptor_round_trips
  have hfull : full.IsNarrow := (hnarrow full).mp (by decide +kernel)
  have hcut : wide.narrow = full := by decide +kernel
  have hcanonical : w.canonical = ⟨0x23FF, 0xFFFF, 0x0FFF⟩ := by decide +kernel
  refine ⟨(hread wide).2.trans hcut, hfull, fun b => hinj full b hfull, (hpack w).trans hcanonical,
    fun hrecord => ?_⟩
  rw [← hwords, hpack, hcanonical] at hrecord
  exact absurd hrecord (by decide)

end SpriteEngine
