import SpriteEngine.Engine.Frame

/-!
# Drawing sprites

`Engine.draw` is what happens to a loaded sprite once per picture. Its animation advances, its frame
is uploaded if it has changed (`Engine.refresh`), and its descriptors are brought up to date with
its position, scale and layer (`Engine.describe`). A sprite of several cells is laid out with the
cells 64 pixels apart, times the scale, on a screen that wraps around after 512 columns and 256
rows.
-/

namespace SpriteEngine.Engine

/-! ### The frame -/

/-- Upload the current frame of a sprite if another one is in tile RAM. If that fails, the old one
stays and the failure is reported. -/
def refresh (e : Engine) (s : Sprite) : Traced (Engine × Sprite) := do
  if s.held.bind (·.frame) = some s.currentFrame then
    return (e, s)
  else
    let (answer, e, s) ← e.upload s s.currentFrame
    if let .error cause := answer then
      Traced.note (.frameKept cause)
    return (e, s)

/-! ### The affine group -/

/-- Take an affine group for a sprite that is scaled and has none, give it back for one that is not
scaled any more. If no group is free, that is reported. -/
def updateAffine (pool : AffinePool) (scaled : Bool) (group : Option Nat) :
    Traced (AffinePool × Option Nat) :=
  match scaled, group with
  | true, some group => return (pool, some group)
  | true, none =>
    match pool.reserve with
    | some (group, pool) => return (pool, some group)
    | none => do
      Traced.note .affineExhausted
      return (pool, none)
  | false, some group => return (pool.release group, none)
  | false, none => return (pool, none)

/-! ### The descriptors -/

/-- What the descriptor of a slot says for good: size, colors and first tile. -/
def fixedAttributes (entry : SlotEntry) : Attributes :=
  { ({} : Attributes).withSize entry.size with color256 := true, tileStart := .ofNat entry.tile }

/-- Write the descriptor of a slot for the first time. A slot that does not exist is left alone. -/
def describeFixed (t : SlotTable) (slot : Nat) : Checked SlotTable :=
  match t.entries[slot]? with
  | none => return t
  | some entry => t.describe slot (fixedAttributes entry)

/-- Write the descriptors of a holding for the first time, if that has not happened yet. -/
def describeOnce (t : SlotTable) (held : Holding) : Checked SlotTable :=
  if held.described then return t else held.slots.foldlM describeFixed t

/-- Write the scale of a sprite to its affine group, if it has one. -/
def writeScale (t : SlotTable) (s : Sprite) : Option Nat → Checked SlotTable
  | none => return t
  | some group => do
    let oam ← t.oam.writeAffine group (.ofScale s.scaleX s.scaleY)
    return { t with oam }

/-- Where a cell stands on a screen that wraps around after `modulus` pixels. -/
def cellPosition (origin scale : Fixed) (cell modulus : Nat) : Nat :=
  (origin.add (scale.scale (cell * 64))).wholeMod modulus

/-- What the descriptor of the cell at the given column and row says after a draw. -/
def cellAttributes (attrs : Attributes) (s : Sprite) (group : Option Nat) (column row : Nat) :
    Attributes :=
  { attrs.withLayer s.layer with
    x := .ofNat (cellPosition s.x s.scaleX column 512)
    y := .ofNat (cellPosition s.y s.scaleY row 256)
    affineIndex := group.map UInt8.ofNat }

/-- Bring the descriptors of the given slots, the first of which has the number `i`, up to date. -/
def describeCells (t : SlotTable) (s : Sprite) (group : Option Nat) (i : Nat) :
    List Nat → Checked SlotTable
  | [] => return t
  | slot :: slots =>
    match t.entries[slot]? with
    | none => describeCells t s group (i + 1) slots
    | some entry => do
      let (column, row) ← s.texture.grid.position i
      let t ← t.describe slot (cellAttributes entry.attrs s group column row)
      describeCells t s group (i + 1) slots

/-- Bring descriptors and affine group of a sprite with the given holding up to date. -/
def describe (e : Engine) (s : Sprite) (held : Holding) : Traced (Engine × Holding) := do
  let slots ← describeOnce e.slots held
  let (affine, group) ← updateAffine e.affine s.isScaled held.affine
  let slots ← writeScale slots s group
  let slots ← describeCells slots s group 0 held.slots
  return ({ e with slots, affine }, { held with described := true, affine := group })

/-- Draw a loaded sprite: advance its animation, upload its frame if it has changed, and write its
descriptors. A sprite that never had a frame uploaded stays hidden. -/
def draw (e : Engine) (s : Sprite) : Traced (Except PoolError Unit × Engine × Sprite) :=
  if s.isLoaded then do
    let (e, s) ← e.refresh s.tick
    match s.held with
    | none => return (.ok (), e, s)
    | some held =>
      if held.frame.isNone then
        return (.ok (), e, s)
      else
        let (e, held) ← e.describe s held
        return (.ok (), e, { s with held := some held })
  else
    return (.error .notLoaded, e, s)

end SpriteEngine.Engine
