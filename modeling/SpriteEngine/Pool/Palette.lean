import SpriteEngine.Memory.Video
import SpriteEngine.Traced

/-!
# The palette

All sprites share one palette. Its entries 1 to 255 are handed out by color: who asks for a color
gets an index, and everyone who asks for the same color gets the same index. A `PaletteBank` stores
the color of each entry and counts the references to it. An entry that nobody references keeps its
color until another color needs the place.

* `PaletteBank.bind` looks for the color first, and only then for an entry without references.
* `PaletteBank.bindAll` binds the colors of a texture, all or none, and returns a `Binding`.
* `PaletteBank.cancel` undoes a binding and puts back the colors it has replaced.
* `PaletteBank.release` drops one reference.
-/

namespace SpriteEngine

/-- A palette entry: the color stored last, and the number of references to it. -/
structure PaletteEntry where
  color : UInt16
  refs : Nat
deriving DecidableEq, Repr

/-- The palette and the memory that shows it. Entry `i` of the palette has the index `i + 1`. -/
structure PaletteBank where
  entries : Vector PaletteEntry 255
  ram : PaletteRam
deriving DecidableEq

/-- The result of binding a list of colors. -/
structure Binding where
  /-- The index of each color. -/
  indices : Array UInt8 := #[]
  /-- The entries that got a new color, with the color they had before. -/
  overwritten : Array (UInt8 × UInt16) := #[]
deriving DecidableEq, Repr

/-- Add one color to a binding: its index, and the color that it replaced. -/
def Binding.push (k : Binding) (index : UInt8) (old : Option UInt16) : Binding where
  indices := k.indices.push index
  overwritten := old.elim k.overwritten fun color => k.overwritten.push (index, color)

namespace PaletteBank

/-- The entry with the given index. Index 0 is transparent and has no entry. -/
def entryOf? (index : UInt8) : Option (Fin 255) :=
  if h : index = 0 then none
  else some ⟨index.toNat - 1, by
    have h0 : index.toNat ≠ 0 := fun h0 => h (UInt8.toNat_inj.mp h0)
    have hlt := index.toNat_lt
    omega⟩

/-- The index of an entry. -/
def indexOf (entry : Fin 255) : UInt8 :=
  .ofNat (entry.val + 1)

/-- A palette without references in which every color is 0. -/
def blank : PaletteBank :=
  ⟨Vector.replicate 255 ⟨0, 0⟩, Vector.replicate 256 0⟩

/-- Drop every reference. Colors stay. -/
def reset (b : PaletteBank) : PaletteBank :=
  { b with entries := b.entries.map fun e => { e with refs := 0 } }

/-! ### Looking at entries -/

/-- The number of references to an index. -/
def refCount (b : PaletteBank) (index : UInt8) : Nat :=
  match entryOf? index with
  | none => 0
  | some i => b.entries[i].refs

/-- The color stored at an index. -/
def color? (b : PaletteBank) (index : UInt8) : Option UInt16 :=
  (entryOf? index).map fun i => b.entries[i].color

/-- The first entry that stores the color, referenced or not. -/
def holder? (b : PaletteBank) (color : UInt16) : Option (Fin 255) :=
  (List.finRange 255).find? fun i => b.entries[i].color == color

/-- The first entry without references. -/
def vacant? (b : PaletteBank) : Option (Fin 255) :=
  (List.finRange 255).find? fun i => b.entries[i].refs == 0

/-! ### Single steps -/

/-- Store a color in an entry and show it. -/
def store (b : PaletteBank) (i : Fin 255) (color : UInt16) : PaletteBank where
  entries := b.entries.set i { b.entries[i] with color }
  ram := b.ram.setColor (indexOf i) color

/-- Set the number of references to an entry. -/
def setRefs (b : PaletteBank) (i : Fin 255) (refs : Nat) : PaletteBank :=
  { b with entries := b.entries.set i { b.entries[i] with refs } }

/-- Add a reference to an entry. The count has 16 bits. -/
def retain (b : PaletteBank) (i : Fin 255) : Checked PaletteBank := do
  return b.setRefs i (← halfWord (b.entries[i].refs + 1))

/-- Drop one reference to an index. An index without references is reported and left alone. -/
def release (b : PaletteBank) (index : UInt8) : Traced PaletteBank :=
  match entryOf? index with
  | none => return b
  | some i =>
    match b.entries[i].refs with
    | 0 => do
      Traced.note (.unreferencedColor index)
      return b
    | refs + 1 => return b.setRefs i refs

/-- Drop one reference to each index of a list. -/
def releaseAll (b : PaletteBank) (indices : List UInt8) : Traced PaletteBank :=
  indices.foldlM release b

/-! ### Binding colors -/

/-- Bind a color: share the first entry that stores it, or else replace the color of the first entry
without references. The answer is the index, with the color that was replaced if one was. -/
def bind (b : PaletteBank) (color : UInt16) :
    Checked (Except PoolError ((UInt8 × Option UInt16) × PaletteBank)) :=
  match b.holder? color with
  | some i => do
    return .ok ((indexOf i, none), ← b.retain i)
  | none =>
    match b.vacant? with
    | some i => do
      return .ok ((indexOf i, some b.entries[i].color), ← (b.store i color).retain i)
    | none => return .error .outOfColors

/-- Put a color back that a binding has replaced. -/
def restore (b : PaletteBank) (old : UInt8 × UInt16) : PaletteBank :=
  match entryOf? old.1 with
  | none => b
  | some i => b.store i old.2

/-- Undo a binding that nobody has used: drop its references, then put the replaced colors back, the
last one first. -/
def cancel (b : PaletteBank) (k : Binding) : Traced PaletteBank := do
  let b ← b.releaseAll k.indices.toList
  return k.overwritten.toList.reverse.foldl restore b

/-- Bind the colors of a list after those in `k`. If one cannot be bound, all of `k` is undone. -/
def bindRest (b : PaletteBank) (k : Binding) :
    List UInt16 → Traced (Except PoolError Binding × PaletteBank)
  | [] => return (.ok k, b)
  | color :: colors => do
    match ← b.bind color with
    | .ok ((index, old), b) => b.bindRest (k.push index old) colors
    | .error cause => return (.error cause, ← b.cancel k)

/-- Bind the colors of a list in order, all or none. -/
def bindAll (b : PaletteBank) (colors : List UInt16) :
    Traced (Except PoolError Binding × PaletteBank) :=
  b.bindRest {} colors

end PaletteBank

end SpriteEngine
