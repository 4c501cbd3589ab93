import SpriteEngine.Engine.Draw
import SpriteEngine.Engine.Load

/-!
# Scenes

A `Scene` owns an engine and the sprites shown by it. Sprites are registered under identifiers, and
those that are loaded are drawn in the order in which they were loaded.

Identifiers are counted up and never used again: sprite number `n` is entry `n` of the table of
sprites, and the entry of a sprite that was removed stays empty.
-/

namespace SpriteEngine

/-- An engine and its sprites. -/
structure Scene where
  engine : Engine
  /-- The sprites by identifier, `none` for those removed. -/
  sprites : Array (Option Sprite) := #[]
  /-- The identifiers of the loaded sprites, in drawing order. -/
  active : List Nat := []
deriving DecidableEq

namespace Scene

/-- An empty scene for a config that the hardware can meet. -/
def new (c : Config) : Except ConfigError Scene := do
  return { engine := ← Engine.new c }

/-- The sprite registered under an identifier. -/
def sprite? (c : Scene) (id : Nat) : Option Sprite :=
  c.sprites[id]?.join

/-- Replace the sprite under an identifier. -/
def setSprite (c : Scene) (id : Nat) (s : Sprite) : Scene :=
  { c with sprites := c.sprites.setIfInBounds id (some s) }

/-- Whether a loaded sprite is registered under an identifier. -/
def isLoaded (c : Scene) (id : Nat) : Bool :=
  (c.sprite? id).any (·.isLoaded)

/-! ### Registering -/

/-- Register a sprite under the next identifier, a 32-bit number. -/
def add (c : Scene) (s : Sprite) : Checked (Nat × Scene) :=
  if c.sprites.size + 1 < 4294967296 then
    .ok (c.sprites.size, { c with sprites := c.sprites.push (some s) })
  else
    .error .overflow

/-! ### Loading and freeing -/

/-- Load a sprite; from now on it is drawn, after those loaded before. -/
def load (c : Scene) (id : Nat) : Traced (Except PoolError Unit × Scene) :=
  match c.sprite? id with
  | none => return (.error .unknownSprite, c)
  | some s => do
    let (answer, engine, s) ← c.engine.load s
    let c := { c with engine }.setSprite id s
    match answer with
    | .error cause => return (.error cause, c)
    | .ok () => return (.ok (), { c with active := c.active ++ [id] })

/-- Upload a frame of a sprite now. -/
def upload (c : Scene) (id frame : Nat) : Checked (Except PoolError Bool × Scene) :=
  match c.sprite? id with
  | none => return (.error .unknownSprite, c)
  | some s => do
    let (answer, engine, s) ← c.engine.upload s frame
    return (answer, { c with engine }.setSprite id s)

/-- Free a sprite; it is not drawn any more. -/
def free (c : Scene) (id : Nat) : Traced (Except PoolError Unit × Scene) :=
  match c.sprite? id with
  | none => return (.error .unknownSprite, c)
  | some s => do
    let (answer, engine, s) ← c.engine.free s
    let c := { c with engine }.setSprite id s
    match answer with
    | .error cause => return (.error cause, c)
    | .ok () => return (.ok (), { c with active := c.active.filter (· ≠ id) })

/-- Free a sprite that is about to be removed, if it is loaded. A failure is reported. -/
def unload (c : Scene) (id : Nat) : Traced Scene :=
  if c.isLoaded id then do
    let (answer, c) ← c.free id
    if let .error cause := answer then
      Traced.note (.removalLeak id cause)
    return c
  else
    return c

/-- Remove a sprite from the scene and return it. A loaded sprite is freed first. -/
def remove (c : Scene) (id : Nat) : Traced (Option Sprite × Scene) := do
  let c ← c.unload id
  return (c.sprite? id, { c with sprites := c.sprites.setIfInBounds id none })

/-! ### Drawing -/

/-- Draw one sprite of the scene. An identifier without a sprite is passed over, and a failure is
reported. -/
def drawSprite (c : Scene) (id : Nat) : Traced Scene :=
  match c.sprite? id with
  | none => return c
  | some s => do
    let (answer, engine, s) ← c.engine.draw s
    if let .error cause := answer then
      Traced.note (.drawFailed id cause)
    return { c with engine }.setSprite id s

/-- Draw the loaded sprites in order. -/
def draw (c : Scene) : Traced Scene :=
  c.active.foldlM drawSprite c

end Scene

end SpriteEngine
