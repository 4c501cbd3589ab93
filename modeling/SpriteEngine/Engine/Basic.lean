import SpriteEngine.Config
import SpriteEngine.Pool.Affine
import SpriteEngine.Pool.Palette
import SpriteEngine.Pool.Slots

/-!
# The engine

`Engine` is the video memory of one display engine with the pools that divide it among sprites. This
module makes engines (`Engine.new`) and looks at them: `Engine.video` is the content of the
memories, `Engine.usage` is which resources are in use, and `Engine.report` lists them for the log.

The operations on sprites are in `Engine.Load`, `Engine.Frame` and `Engine.Draw`. They take a sprite
and return it as it is afterwards, next to the engine and the answer. An answer that is a failure
comes with the state that it leaves.
-/

namespace SpriteEngine

/-- The memories of a display engine and the pools over them. -/
structure Engine where
  slots : SlotTable
  palette : PaletteBank
  affine : AffinePool
  tileRam : TileRam
deriving DecidableEq

/-- Which resources are in use. -/
structure Usage where
  zones : List Zone
  slotFree : List Bool
  refCounts : List Nat
  affineUsed : List Bool
deriving DecidableEq, Repr

namespace Engine

/-- Make every resource free and hide every object. Sprites that are loaded are not told. -/
def reset (e : Engine) : Engine where
  slots := { e.slots with tiles := e.slots.tiles.reset }.reset
  palette := e.palette.reset
  affine := e.affine.reset
  tileRam := e.tileRam

/-- An engine with the resources of a config, all of them free. -/
def ofConfig (c : Config) : Engine :=
  reset
    { slots := .new c.oamSlots c.tileUnits
      palette := .blank
      affine := .new c.affineSlots
      tileRam := .blank c.tileUnits }

/-- An engine for a config that the hardware can meet. -/
def new (c : Config) : Except ConfigError Engine := do
  c.validate
  return ofConfig c

theorem new_eq_ok_iff {c : Config} {e : Engine} :
    new c = .ok e ↔ c.validate = .ok () ∧ e = ofConfig c := by
  cases h : c.validate <;> simp [new, h, bind, Except.bind, pure, Except.pure, eq_comm]

/-- The memories of the engine. -/
def video (e : Engine) : VideoMemory :=
  ⟨e.slots.oam, e.palette.ram, e.tileRam⟩

/-- The resources in use. -/
def usage (e : Engine) : Usage where
  zones := e.slots.tiles.zones
  slotFree := e.slots.entries.map (·.free)
  refCounts := e.palette.entries.toList.map (·.refs)
  affineUsed := e.affine.flags

/-- The free zones and the slots in use, as events for the log. -/
def report (e : Engine) : List Event :=
  e.slots.tiles.zones.map (fun z => .freeZone z.start z.length)
    ++ e.slots.entries.zipIdx.filterMap fun (entry, slot) =>
      if entry.free then none else some (.usedSlot slot entry.tile entry.size)

end Engine

end SpriteEngine
