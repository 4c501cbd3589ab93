import Mathlib.Logic.ExistsUnique
import Mathlib.Tactic.SplitIfs
import SpriteEngine.Proofs.Memory

/-!
# Two tables in one memory

The words of object attribute memory are shared by the table of descriptors and the table of linear
maps, whose strides differ. This module says that the sharing cannot be seen, whatever was written
before.

A word of one of the tables is an `Oam.Place`. It has an `address`, from which it can be found again
(`Oam.Place.ofAddress`), so that every word of the memory belongs to exactly one place
(`Oam.Place.existsUnique_owns`).

A `VideoWrite` is anything that can be written to video memory. What a write leaves in a table is
what it writes there, if it does, and else what was there before (`VideoMemory.Follows`). This is
the step lemma, `VideoMemory.perform_follows`. By induction a table holds, at each of its places,
the last value of the history of writes that was meant for it (`VideoMemory.run_follows`).

Tile RAM is filled by transfers of words. `TileRam.words` reads its bytes as words, and
`TileRam.copyWords_spec` says which transfers are done (`TileRam.Admits`), and that they replace the
words at their destination.
-/

namespace SpriteEngine

/-! ### The places of object attribute memory -/

/-- One of the three words of a descriptor. -/
def Words.part (w : Words) : Fin 3 → UInt16
  | 0 => w.attr0
  | 1 => w.attr1
  | 2 => w.attr2

/-- One of the four entries of a linear map. -/
def AffineMatrix.part (a : AffineMatrix) : Fin 4 → UInt16
  | 0 => a.pa
  | 1 => a.pb
  | 2 => a.pc
  | 3 => a.pd

namespace Oam

/-- A word of the table of descriptors or an entry of the table of linear maps. -/
inductive Place where
  | descriptor (s : Fin 128) (k : Fin 3)
  | matrix (g : Fin 32) (k : Fin 4)

namespace Place

/-- What is read at a place. -/
def value (m : Oam) : Place → UInt16
  | descriptor s k => (m.words3 s).part k
  | matrix g k => (m.matrix g).part k

/-- The word belongs to the place: reading the place reads the word. -/
def Owns (p : Place) (i : Fin 512) : Prop :=
  ∀ m : Oam, p.value m = m.words[i.val]

/-- Where the word of a place is. -/
def address : Place → Fin 512
  | descriptor s k => ⟨4 * s.val + k.val, by omega⟩
  | matrix g k => ⟨16 * g.val + 4 * k.val + 3, by omega⟩

/-- The place of a word. The last two bits of the address select the table. -/
def ofAddress (i : Fin 512) : Place :=
  if h : i.val % 4 < 3 then descriptor ⟨i.val / 4, by omega⟩ ⟨i.val % 4, h⟩
  else matrix ⟨i.val / 16, by omega⟩ ⟨i.val % 16 / 4, by omega⟩

/-- Every address is the address of a place. -/
theorem address_ofAddress (i : Fin 512) : (ofAddress i).address = i := by
  rw [ofAddress]
  split <;> exact Fin.ext (by simp only [address]; omega)

/-- No two places have the same address. -/
theorem ofAddress_address (p : Place) : ofAddress p.address = p := by
  cases p with
  | descriptor s k =>
    have hk := k.isLt
    rw [ofAddress, dif_pos (by simp only [address]; omega)]
    simp only [address, descriptor.injEq, Fin.ext_iff]
    omega
  | matrix g k =>
    have hk := k.isLt
    rw [ofAddress, dif_neg (by simp only [address]; omega)]
    simp only [address, matrix.injEq, Fin.ext_iff]
    omega

/-- What is in a place is the word at its address. -/
private theorem value_eq (m : Oam) (p : Place) : p.value m = m.words[p.address.val] := by
  cases p with
  | descriptor s k =>
    match k with
    | 0 | 1 | 2 => rfl
  | matrix g k =>
    match k with
    | 0 | 1 | 2 | 3 => rfl

/-- A place owns the word at its address and no other. -/
theorem owns_iff {p : Place} {i : Fin 512} : p.Owns i ↔ p.address = i := by
  constructor
  · intro h
    -- in a memory that holds the addresses of its words, places show where they are
    have hread := h ⟨Vector.ofFn fun j => UInt16.ofNat j.val⟩
    rw [value_eq, Vector.getElem_ofFn, Vector.getElem_ofFn] at hread
    have hnat := congrArg UInt16.toNat hread
    rw [UInt16.toNat_ofNat', UInt16.toNat_ofNat'] at hnat
    dsimp only at hnat
    exact Fin.ext (by omega)
  · rintro rfl m
    exact value_eq m p

/-- Every word belongs to exactly one place. -/
theorem existsUnique_owns (i : Fin 512) : ∃! p : Place, p.Owns i := by
  refine ⟨ofAddress i, owns_iff.mpr (address_ofAddress i), fun p hp => ?_⟩
  rw [← owns_iff.mp hp, ofAddress_address]

end Place

private theorem words3_blank (s : Fin 128) : blank.words3 s = ⟨0, 0, 0⟩ := by
  simp [words3, blank]

private theorem matrix_blank (g : Fin 32) : blank.matrix g = ⟨0, 0, 0, 0⟩ := by
  simp [matrix, blank]

end Oam

/-! ### Tile RAM as words -/

/-- The word that is made of four bytes, the lowest first. -/
def wordOfBytes (a b c d : UInt8) : UInt32 :=
  .ofNat (a.toNat + 256 * b.toNat + 65536 * c.toNat + 16777216 * d.toNat)

/-- The four bytes of a word are its digits in base 256. -/
private theorem toNat_wordBytes (w : UInt32) : w.toUInt8.toNat = w.toNat % 256 ∧
    (w >>> 8).toUInt8.toNat = w.toNat / 256 % 256 ∧
    (w >>> 16).toUInt8.toNat = w.toNat / 65536 % 256 ∧
    (w >>> 24).toUInt8.toNat = w.toNat / 16777216 % 256 := by
  simp [Nat.shiftRight_eq_div_pow]

/-- Split into bytes and put together again, a word is the same. -/
private theorem wordOfBytes_wordBytes (w : UInt32) :
    wordOfBytes w.toUInt8 (w >>> 8).toUInt8 (w >>> 16).toUInt8 (w >>> 24).toUInt8 = w := by
  have hw := w.toNat_lt
  obtain ⟨ha, hb, hc, hd⟩ := toNat_wordBytes w
  rw [wordOfBytes, ← UInt32.toNat_inj, UInt32.toNat_ofNat', ha, hb, hc, hd]
  omega

private theorem wordBytes_wordOfBytes (a b c d : UInt8) :
    wordBytes (wordOfBytes a b c d) = [a, b, c, d] := by
  have ha := a.toNat_lt
  have hb := b.toNat_lt
  have hc := c.toNat_lt
  have hd := d.toNat_lt
  have hword : (wordOfBytes a b c d).toNat =
      a.toNat + 256 * b.toNat + 65536 * c.toNat + 16777216 * d.toNat :=
    UInt32.toNat_ofNat_of_lt' (by change _ < 4294967296; omega)
  obtain ⟨ha', hb', hc', hd'⟩ := toNat_wordBytes (wordOfBytes a b c d)
  simp only [wordBytes, List.cons.injEq, and_true, ← UInt8.toNat_inj, ha', hb', hc', hd', hword]
  omega

/-- Take bytes together to words. Up to three bytes at the end are no word. -/
def joinWords : List UInt8 → List UInt32
  | a :: b :: c :: d :: bytes => wordOfBytes a b c d :: joinWords bytes
  | _ => []

theorem joinWords_flatMap (ws : List UInt32) : joinWords (ws.flatMap wordBytes) = ws := by
  induction ws with
  | nil => rfl
  | cons w ws ih =>
    rw [List.flatMap_cons, wordBytes]
    simp only [List.cons_append, List.nil_append, joinWords]
    rw [wordOfBytes_wordBytes, ih]

/-- Bytes that were joined to words are split into the same bytes, if there are four for each. -/
theorem flatMap_joinWords {n : Nat} {bytes : List UInt8} (h : bytes.length = 4 * n) :
    (joinWords bytes).flatMap wordBytes = bytes := by
  induction n generalizing bytes with
  | zero =>
    obtain rfl := List.length_eq_zero_iff.mp h
    rfl
  | succ n ih =>
    match bytes, h with
    | a :: b :: c :: d :: bytes, h =>
      rw [joinWords, List.flatMap_cons, wordBytes_wordOfBytes, ih (by simp at h; omega)]
      rfl

private theorem length_flatMap_wordBytes (ws : List UInt32) :
    (ws.flatMap wordBytes).length = 4 * ws.length := by
  induction ws with
  | nil => rfl
  | cons w ws ih =>
    rw [List.flatMap_cons, List.length_append, ih, List.length_cons, wordBytes]
    simp only [List.length_cons, List.length_nil]
    omega

/-- Bytes replace as many bytes as they are. -/
private theorem overwriteBytes_append (front old new back : List UInt8)
    (h : old.length = new.length) :
    overwriteBytes (front ++ old ++ back).toArray front.length new =
      (front ++ new ++ back).toArray := by
  induction new generalizing front old with
  | nil =>
    obtain rfl := List.length_eq_zero_iff.mp h
    rfl
  | cons b new ih =>
    match old, h with
    | x :: old, h =>
      have hset : (front ++ (x :: old) ++ back).toArray.setIfInBounds front.length b =
          ((front ++ [b]) ++ old ++ back).toArray := by
        simp
      have htail := ih (front ++ [b]) old (by simpa using h)
      rw [overwriteBytes, hset]
      simpa using htail

namespace TileRam

/-- The words that the bytes of tile RAM make up. -/
def words (ram : TileRam) : List UInt32 :=
  joinWords ram.bytes.toList

/-- A transfer of `count` words to tile `dest` is possible in a tile RAM of `units` tiles: the tile
exists, the words are a whole number of tiles, and the last of them is inside. -/
structure Admits (units dest count : Nat) : Prop where
  dest_lt : dest < units
  whole : 16 ∣ count
  stop_le : 16 * dest + count ≤ 16 * units

variable {ram : TileRam} {units : Nat}

/-- The bytes of tile RAM are those of its words. -/
private theorem flatMap_words (h : ram.bytes.size = 64 * units) :
    ram.words.flatMap wordBytes = ram.bytes.toList :=
  flatMap_joinWords (n := 16 * units) (by rw [Array.length_toList]; omega)

private theorem length_words (h : ram.bytes.size = 64 * units) : ram.words.length = 16 * units := by
  have hlength := congrArg List.length (flatMap_words h)
  simp only [length_flatMap_wordBytes, Array.length_toList, h] at hlength
  omega

/-- Words that are written over the bytes of tile RAM replace as many words. -/
private theorem words_overwriteBytes (h : ram.bytes.size = 64 * units) {pos : Nat}
    {new : List UInt32} (hstop : pos + new.length ≤ 16 * units) :
    words ⟨overwriteBytes ram.bytes (4 * pos) (new.flatMap wordBytes)⟩ =
      ram.words.take pos ++ new ++ ram.words.drop (pos + new.length) := by
  have hlength := length_words h
  -- the words before, under and after the new ones
  have hsplit : ram.words = ram.words.take pos ++ (ram.words.drop pos).take new.length ++
      ram.words.drop (pos + new.length) := by
    rw [← List.drop_drop, List.append_assoc, List.take_append_drop, List.take_append_drop]
  have hbytes : ram.bytes = ((ram.words.take pos).flatMap wordBytes ++
      ((ram.words.drop pos).take new.length).flatMap wordBytes ++
      (ram.words.drop (pos + new.length)).flatMap wordBytes).toArray := by
    rw [← List.flatMap_append, ← List.flatMap_append, ← hsplit, flatMap_words h]
  have hfront : ((ram.words.take pos).flatMap wordBytes).length = 4 * pos := by
    rw [length_flatMap_wordBytes, List.length_take]
    omega
  have hold : (((ram.words.drop pos).take new.length).flatMap wordBytes).length =
      (new.flatMap wordBytes).length := by
    rw [length_flatMap_wordBytes, length_flatMap_wordBytes, List.length_take, List.length_drop]
    omega
  have hover := overwriteBytes_append ((ram.words.take pos).flatMap wordBytes) _ _
    ((ram.words.drop (pos + new.length)).flatMap wordBytes) hold
  rw [hfront, ← hbytes, ← List.flatMap_append, ← List.flatMap_append] at hover
  rw [hover, words, joinWords_flatMap]

/-- A transfer is done if it is possible, and then replaces the words at its destination. Else it is
refused. -/
theorem copyWords_spec (h : ram.bytes.size = 64 * units) (dest : Nat) (new : List UInt32) :
    (Admits units dest new.length ∧ ∃ ram', ram.copyWords dest new = .ok ram' ∧
      ram'.words = ram.words.take (16 * dest) ++ new ++ ram.words.drop (16 * dest + new.length)) ∨
    (¬ Admits units dest new.length ∧ ∃ cause, ram.copyWords dest new = .error cause) := by
  rw [copyWords, copy, h, length_flatMap_wordBytes]
  by_cases hdest : 64 * units ≤ 64 * dest
  · rw [if_pos hdest]
    refine .inr ⟨fun hadmits => ?_, _, rfl⟩
    have hlt := hadmits.dest_lt
    omega
  rw [if_neg hdest]
  by_cases hsize : 4 * new.length % 64 ≠ 0 ∨ 64 * units < 64 * dest + 4 * new.length
  · rw [if_pos hsize]
    refine .inr ⟨fun hadmits => ?_, _, rfl⟩
    have hwhole := hadmits.whole
    have hstop := hadmits.stop_le
    omega
  · rw [if_neg hsize]
    refine .inl ⟨⟨by omega, by omega, by omega⟩, _, rfl, ?_⟩
    rw [show 64 * dest = 4 * (16 * dest) by omega]
    exact words_overwriteBytes h (by omega)

private theorem size_of_copyWords {ram' : TileRam} {dest : Nat} {new : List UInt32}
    (h : ram.copyWords dest new = .ok ram') : ram'.bytes.size = ram.bytes.size := by
  rw [copyWords, copy] at h
  split_ifs at h
  obtain rfl := Except.ok.inj h
  exact size_overwriteBytes ..

end TileRam

/-! ### Histories of writes -/

/-- Anything that can be written to video memory. -/
inductive VideoWrite where
  | descriptor (slot : Fin 128) (words : Words)
  | affine (group : Fin 32) (map : AffineMatrix)
  | color (index : UInt8) (color : UInt16)
  | transfer (dest : Nat) (words : List UInt32)

namespace VideoWrite

/-- The words that are written to descriptor `s`. -/
def wordsFor (s : Fin 128) : VideoWrite → Option Words
  | descriptor slot words => if s = slot then some words else none
  | _ => none

/-- The linear map that is written to group `g`. -/
def matrixFor (g : Fin 32) : VideoWrite → Option AffineMatrix
  | affine group map => if g = group then some map else none
  | _ => none

end VideoWrite

/-- The last of the values that a history writes to some place, or else the value before it. -/
def lastOf {V : Type} (written : VideoWrite → Option V) (history : List VideoWrite) (before : V) :
    V :=
  (history.filterMap written).getLastD before

/-- What the first write leaves is what the rest of the history starts from. -/
private theorem lastOf_cons {V : Type} (written : VideoWrite → Option V) (write : VideoWrite)
    (history : List VideoWrite) (before : V) : lastOf written (write :: history) before =
      lastOf written history ((written write).getD before) := by
  rw [lastOf, List.filterMap_cons]
  cases written write with
  | none => rfl
  | some v => exact List.getLastD_cons

private theorem lastOf_singleton {V : Type} (written : VideoWrite → Option V) (write : VideoWrite)
    (before : V) : lastOf written [write] before = (written write).getD before :=
  lastOf_cons written write [] before

namespace VideoMemory

/-- Carry out a write. A transfer may be refused, and then leaves the memory as it is. -/
def perform (m : VideoMemory) : VideoWrite → Checked (Except TransferError Unit × VideoMemory)
  | .descriptor slot words => do return (.ok (), ← m.writeDescriptor slot words)
  | .affine group map => do return (.ok (), ← m.writeAffine group map)
  | .color index color => return (.ok (), m.writeColor index color)
  | .transfer dest words =>
    match m.copyWords dest words with
    | .error cause => return (.error cause, m)
    | .ok m => return (.ok (), m)

/-- Carry out writes one after the other. -/
def run (m : VideoMemory) (history : List VideoWrite) : Checked VideoMemory :=
  history.foldlM (fun m write => do return (← m.perform write).2) m

/-- The tables of `m'` are those of `m` after a history of writes. The size of tile RAM is the
same. -/
structure Follows (m : VideoMemory) (history : List VideoWrite) (m' : VideoMemory) : Prop where
  words3 : ∀ s, m'.oam.words3 s = lastOf (VideoWrite.wordsFor s) history (m.oam.words3 s)
  matrix : ∀ g, m'.oam.matrix g = lastOf (VideoWrite.matrixFor g) history (m.oam.matrix g)
  size : m'.tiles.bytes.size = m.tiles.bytes.size

/-- One write and then a history make a longer history. -/
private theorem Follows.cons {m m₁ m' : VideoMemory} {write : VideoWrite}
    {history : List VideoWrite} (h : Follows m [write] m₁) (h' : Follows m₁ history m') :
    Follows m (write :: history) m' where
  words3 s := by rw [h'.words3, h.words3, lastOf_singleton, lastOf_cons]
  matrix g := by rw [h'.matrix, h.matrix, lastOf_singleton, lastOf_cons]
  size := h'.size.trans h.size

variable (m : VideoMemory)

/-- A transfer that is refused leaves the memory as it is. -/
private theorem perform_transfer_of_error {dest : Nat} {words : List UInt32} {cause : TransferError}
    (h : m.tiles.copyWords dest words = .error cause) :
    m.perform (.transfer dest words) = .ok (.error cause, m) := by
  rw [perform, copyWords, h]
  rfl

/-- A transfer changes tile RAM and no other table. -/
private theorem perform_transfer_of_ok {dest : Nat} {words : List UInt32} {tiles : TileRam}
    (h : m.tiles.copyWords dest words = .ok tiles) :
    m.perform (.transfer dest words) = .ok (.ok (), { m with tiles := tiles }) := by
  rw [perform, copyWords, h]
  rfl

/-- A write is carried out, and each table has what it writes there. -/
theorem perform_follows (write : VideoWrite) :
    ∃ answer m', m.perform write = .ok (answer, m') ∧ m.Follows [write] m' := by
  cases write with
  | descriptor slot words =>
    refine ⟨.ok (), { m with oam := m.oam.setWords3 slot words }, ?_, fun s => ?_, fun g => ?_, rfl⟩
    · rw [perform, writeDescriptor, Oam.write_of_lt _ slot.isLt]
      rfl
    · rw [lastOf_singleton, Oam.words3_setWords3, VideoWrite.wordsFor]
      split <;> rfl
    · exact Oam.matrix_setWords3 ..
  | affine group map =>
    refine ⟨.ok (), { m with oam := m.oam.setMatrix group map }, ?_, fun s => ?_, fun g => ?_, rfl⟩
    · rw [perform, writeAffine, Oam.writeAffine_of_lt _ group.isLt]
      rfl
    · exact Oam.words3_setMatrix ..
    · rw [lastOf_singleton, Oam.matrix_setMatrix, VideoWrite.matrixFor]
      split <;> rfl
  | color index color => exact ⟨_, _, rfl, fun _ => rfl, fun _ => rfl, rfl⟩
  | transfer dest words =>
    cases h : m.tiles.copyWords dest words with
    | error cause =>
      exact ⟨_, _, m.perform_transfer_of_error h, fun _ => rfl, fun _ => rfl, rfl⟩
    | ok tiles =>
      exact ⟨_, _, m.perform_transfer_of_ok h, fun _ => rfl, fun _ => rfl,
        TileRam.size_of_copyWords h⟩

/-- By induction along the history: every table has what was last written to it, or what it had
before. -/
theorem run_follows (history : List VideoWrite) :
    ∃ m', m.run history = .ok m' ∧ m.Follows history m' := by
  induction history generalizing m with
  | nil => exact ⟨m, rfl, fun _ => rfl, fun _ => rfl, rfl⟩
  | cons write history ih =>
    obtain ⟨answer, m₁, hm₁, hstep⟩ := m.perform_follows write
    obtain ⟨m', hm', hrest⟩ := ih m₁
    refine ⟨m', ?_, hstep.cons hrest⟩
    rw [run, List.foldlM_cons, hm₁]
    exact hm'

/-- After any history of writes to blank memory, a descriptor reads as the last three words that
were written to it and an affine group as the last linear map, and as zeros if there were none,
although both are made of the same 512 words, each of which belongs to one place of one table. Tile
RAM is a sequence of words, 16 for each tile. A further transfer is done exactly if its first tile
exists, it consists of whole tiles and it ends inside of tile RAM; then it replaces the words at its
destination and nothing else. One that is refused changes nothing. -/
theorem run_separates_tables (units : Nat) (history : List VideoWrite) :
    ∃ m, (blank units).run history = .ok m ∧
      (∀ s : Fin 128, m.oam.read s =
        .ok (lastOf (VideoWrite.wordsFor s) history ⟨0, 0, 0⟩)) ∧
      (∀ g : Fin 32, m.oam.readAffine g =
        .ok (lastOf (VideoWrite.matrixFor g) history ⟨0, 0, 0, 0⟩)) ∧
      (∀ i : Fin 512, ∃! p : Oam.Place, p.Owns i) ∧
      m.tiles.words.length = 16 * units ∧
      m.tiles.words.flatMap wordBytes = m.tiles.bytes.toList ∧
      ∀ dest new, ∃ answer m', m.perform (.transfer dest new) = .ok (answer, m') ∧
        (answer = .ok () ↔ TileRam.Admits units dest new.length) ∧
        (answer = .ok () → m'.oam = m.oam ∧ m'.palette = m.palette ∧ m'.tiles.words =
          m.tiles.words.take (16 * dest) ++ new ++ m.tiles.words.drop (16 * dest + new.length)) ∧
        (answer ≠ .ok () → m' = m) := by
  obtain ⟨m, hm, hfollows⟩ := (blank units).run_follows history
  have hsize : m.tiles.bytes.size = 64 * units :=
    hfollows.size.trans Array.size_replicate
  refine ⟨m, hm, fun s => ?_, fun g => ?_, Oam.Place.existsUnique_owns, TileRam.length_words hsize,
    TileRam.flatMap_words hsize, fun dest new => ?_⟩
  · rw [Oam.read, dif_pos s.isLt, hfollows.words3, ← Oam.words3_blank s]
    rfl
  · rw [Oam.readAffine, dif_pos g.isLt, hfollows.matrix, ← Oam.matrix_blank g]
    rfl
  · obtain ⟨hadmits, tiles, htiles, hwords⟩ | ⟨hadmits, cause, hcause⟩ :=
      TileRam.copyWords_spec hsize dest new
    · exact ⟨_, _, m.perform_transfer_of_ok htiles, iff_of_true rfl hadmits,
        fun _ => ⟨rfl, rfl, hwords⟩, fun h => absurd rfl h⟩
    · exact ⟨_, _, m.perform_transfer_of_error hcause, iff_of_false (by simp) hadmits,
        fun h => by simp at h, fun _ => rfl⟩

/-- Descriptors 0 and 1 and group 0 are neighbours in memory. Descriptor 0 is written twice, group 0
in between and descriptor 1 not at all. Of two tiles the second one can be replaced, and two tiles
from the second one on cannot. -/
theorem run_separates_tables_neighbours :
    ∃ m, (blank 2).run [.descriptor 0 ⟨1, 2, 3⟩, .affine 0 ⟨4, 5, 6, 7⟩, .color 1 31,
        .transfer 2 [], .descriptor 0 ⟨8, 9, 10⟩] = .ok m ∧
      m.oam.read 0 = .ok ⟨8, 9, 10⟩ ∧ m.oam.read 1 = .ok ⟨0, 0, 0⟩ ∧
      m.oam.readAffine 0 = .ok ⟨4, 5, 6, 7⟩ ∧
      (∃ m', m.perform (.transfer 1 (List.replicate 16 11)) = .ok (.ok (), m') ∧
        m'.oam = m.oam ∧ m'.tiles.words = m.tiles.words.take 16 ++ List.replicate 16 11) ∧
      ∃ answer, m.perform (.transfer 1 (List.replicate 32 11)) = .ok (answer, m) := by
  obtain ⟨m, hm, hread, hreadAffine, -, hlength, -, htransfer⟩ := run_separates_tables 2
    [.descriptor 0 ⟨1, 2, 3⟩, .affine 0 ⟨4, 5, 6, 7⟩, .color 1 31, .transfer 2 [],
      .descriptor 0 ⟨8, 9, 10⟩]
  refine ⟨m, hm, hread 0, hread 1, hreadAffine 0, ?_, ?_⟩
  · obtain ⟨answer, m', hperform, hadmits, hdone, -⟩ := htransfer 1 (List.replicate 16 11)
    have hanswer := hadmits.mpr ⟨by decide, by decide, by decide⟩
    obtain ⟨hoam, -, hwords⟩ := hdone hanswer
    refine ⟨m', hanswer ▸ hperform, hoam, ?_⟩
    rw [hwords, List.length_replicate, List.drop_eq_nil_of_le (by omega), List.append_nil]
  · obtain ⟨answer, m', hperform, hadmits, -, hsame⟩ := htransfer 1 (List.replicate 32 11)
    obtain rfl := hsame fun h => absurd (hadmits.mp h).stop_le (by decide)
    exact ⟨answer, hperform⟩

end VideoMemory

end SpriteEngine
