import SpriteEngine.Descriptor
import SpriteEngine.Fault

/-!
# Object attribute memory

`Oam` is 512 words of 16 bits that two tables share. Descriptor `s` of 128 has three words in a row,
from word `4 * s` on. The fourth word of every descriptor belongs to the table of linear maps: four
descriptors in a row lend theirs to one of 32 affine groups, so that group `g` has the words
`16 * g + 3`, `16 * g + 7`, `16 * g + 11` and `16 * g + 15`.

Indices outside of a table fault, in reading and in writing.
-/

namespace SpriteEngine

/-- Object attribute memory. -/
structure Oam where
  words : Vector UInt16 512
deriving DecidableEq

namespace Oam

/-- Memory full of zeros. -/
def blank : Oam :=
  ⟨Vector.replicate 512 0⟩

/-! ### The table of descriptors -/

/-- The three words of descriptor `s`. -/
def words3 (m : Oam) (s : Fin 128) : Words :=
  ⟨m.words[4 * s.val], m.words[4 * s.val + 1], m.words[4 * s.val + 2]⟩

/-- Replace the three words of descriptor `s`. -/
def setWords3 (m : Oam) (s : Fin 128) (w : Words) : Oam :=
  ⟨((m.words.set (4 * s.val) w.attr0).set (4 * s.val + 1) w.attr1).set (4 * s.val + 2) w.attr2⟩

/-- The words of the descriptor with the given number. -/
def read (m : Oam) (slot : Nat) : Checked Words :=
  if h : slot < 128 then .ok (m.words3 ⟨slot, h⟩) else .error .outOfBounds

/-- Write the words of the descriptor with the given number. -/
def write (m : Oam) (slot : Nat) (w : Words) : Checked Oam :=
  if h : slot < 128 then .ok (m.setWords3 ⟨slot, h⟩ w) else .error .outOfBounds

/-- Hide every object. -/
def hideAll (m : Oam) : Oam :=
  (List.finRange 128).foldl (fun m s => m.setWords3 s .hidden) m

/-! ### The table of linear maps -/

/-- The linear map of affine group `g`. -/
def matrix (m : Oam) (g : Fin 32) : AffineMatrix :=
  ⟨m.words[16 * g.val + 3], m.words[16 * g.val + 7], m.words[16 * g.val + 11],
    m.words[16 * g.val + 15]⟩

/-- Replace the linear map of affine group `g`. -/
def setMatrix (m : Oam) (g : Fin 32) (a : AffineMatrix) : Oam :=
  ⟨(((m.words.set (16 * g.val + 3) a.pa).set (16 * g.val + 7) a.pb).set (16 * g.val + 11) a.pc).set
    (16 * g.val + 15) a.pd⟩

/-- The linear map of the group with the given number. -/
def readAffine (m : Oam) (group : Nat) : Checked AffineMatrix :=
  if h : group < 32 then .ok (m.matrix ⟨group, h⟩) else .error .outOfBounds

/-- Write the linear map of the group with the given number. -/
def writeAffine (m : Oam) (group : Nat) (a : AffineMatrix) : Checked Oam :=
  if h : group < 32 then .ok (m.setMatrix ⟨group, h⟩ a) else .error .outOfBounds

end Oam

end SpriteEngine
