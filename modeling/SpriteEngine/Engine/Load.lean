import SpriteEngine.Engine.Basic
import SpriteEngine.Sprite

/-!
# Loading and freeing sprites

`Engine.load` binds the colors of a sprite and takes slots and tiles for it, or nothing at all.
`Engine.free` gives everything back.
-/

namespace SpriteEngine.Engine

/-- Bind the colors of a sprite and take slots and tiles for it. No frame is uploaded yet. If
anything is missing, what was taken is given back. -/
def load (e : Engine) (s : Sprite) : Traced (Except PoolError Unit × Engine × Sprite) :=
  if s.isLoaded then
    return (.error .alreadyLoaded, e, s)
  else do
    match ← e.palette.bindAll s.texture.colors with
    | (.error cause, palette) => return (.error cause, { e with palette }, s)
    | (.ok binding, palette) =>
      match ← e.slots.takeGrid s.texture.grid with
      | (.error cause, slots) =>
        let palette ← palette.cancel binding
        return (.error cause, { e with palette, slots }, s)
      | (.ok taken, slots) =>
        Traced.note (.spriteLoaded s.texture.tilesWide s.texture.tilesHigh taken.length)
        let held := { slots := taken, colors := binding.indices.toList }
        return (.ok (), { e with palette, slots }, { s with held := some held })

/-- Give back everything that a sprite holds: colors, slots with their tiles, affine group. -/
def free (e : Engine) (s : Sprite) : Traced (Except PoolError Unit × Engine × Sprite) :=
  match s.held with
  | none => return (.error .notLoaded, e, s)
  | some held => do
    let palette ← e.palette.releaseAll held.colors
    let slots ← e.slots.freeAll held.slots
    let affine := held.affine.elim e.affine e.affine.release
    Traced.note (.spriteFreed held.slots.length)
    return (.ok (), { e with palette, slots, affine }, { s with held := none })

end SpriteEngine.Engine
