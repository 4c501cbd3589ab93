import SpriteEngine.Failure
import SpriteEngine.ObjectSize

/-!
# The log

Operations report what they do as events. An event is data; `Event.lines` gives its lines in the
log. A debug event belongs to a `Subsystem` and is written only while that subsystem is enabled;
a warning is always written.
-/

namespace SpriteEngine

/-- A part of the engine that can write debug lines. -/
inductive Subsystem where
  | sprites
  | tiles
  | palette
  | affine
  | oam
  | dma
deriving DecidableEq, Repr

namespace Subsystem

/-- The name of a subsystem in the log. -/
def title : Subsystem → String
  | .sprites => "HW SPRITE"
  | .tiles => "TILE ALLOC"
  | .palette => "PALETTE"
  | .affine => "AFFINE"
  | .oam => "OAM"
  | .dma => "DMA"

/-- Debug lines are written for sprites and for object attribute memory only. -/
def enabled : Subsystem → Bool
  | .sprites | .oam => true
  | _ => false

/-- The log lines for a debug text of a subsystem: one if it is enabled, none otherwise. -/
def debugLines (s : Subsystem) (text : String) : List String :=
  if s.enabled then ["DEBUG " ++ s.title ++ ": " ++ text] else []

end Subsystem

/-- Something an operation reports. -/
inductive Event where
  /-- A slot was asked for while none is free. -/
  | slotsExhausted
  /-- A slot was taken for an object of the given size, whose tiles start at `tile`. -/
  | slotTaken (slot : Nat) (size : ObjectSize) (tile : Nat)
  /-- A slot was given back. -/
  | slotFreed (slot : Nat)
  /-- A slot was given back, but its tiles were refused. -/
  | tilesRefused (slot : Nat) (cause : PoolError)
  /-- A grid could not be completed, and its first `count` slots are given back. -/
  | gridAbandoned (count : Nat) (cause : PoolError)
  /-- A palette entry was given back although nothing referenced it. -/
  | unreferencedColor (index : UInt8)
  /-- A sprite of the given size in tiles was loaded into `slots` slots. -/
  | spriteLoaded (width height slots : Nat)
  /-- A sprite with `slots` slots was freed. -/
  | spriteFreed (slots : Nat)
  /-- The current frame of a sprite could not be uploaded. -/
  | frameKept (cause : PoolError)
  /-- A scaled sprite found no free affine group. -/
  | affineExhausted
  /-- A free zone, when the state is listed. -/
  | freeZone (start length : Nat)
  /-- A used slot, when the state is listed. -/
  | usedSlot (slot tile : Nat) (size : ObjectSize)
  /-- A sprite was removed from the scene but could not be freed. -/
  | removalLeak (id : Nat) (cause : PoolError)
  /-- A sprite on the list of loaded sprites could not be drawn. -/
  | drawFailed (id : Nat) (cause : PoolError)
deriving DecidableEq, Repr

namespace Event

/-- The subsystem a debug event belongs to, or `none` for a warning. -/
def subsystem? : Event → Option Subsystem
  | slotsExhausted | slotTaken .. | slotFreed _ | gridAbandoned .. => some .oam
  | spriteLoaded .. | spriteFreed _ | freeZone .. | usedSlot .. => some .sprites
  | tilesRefused .. | unreferencedColor _ | frameKept _ | affineExhausted | removalLeak ..
  | drawFailed .. => none

/-- The identifier of a sprite as the log writes it. -/
def spriteName (id : Nat) : String :=
  s!"SpriteId({id})"

/-- The text of an event. -/
def text : Event → String
  | slotsExhausted => "Attempt to reserve slot when OAM is full"
  | slotTaken slot size tile => s!"Reserved slot {slot} ({size.name}) at tile {tile}"
  | slotFreed slot => s!"Freed slot {slot}"
  | tilesRefused slot cause =>
    s!"Couldn't release tiles of OAM slot {slot}: {cause.message}"
  | gridAbandoned count cause => s!"Rolling back {count} slots after {cause.message}"
  | unreferencedColor index => s!"Releasing unreferenced palette index {index.toNat}"
  | spriteLoaded width height slots =>
    s!"Loaded {width}x{height} tile sprite into {slots} OAM slots"
  | spriteFreed slots => s!"Freed sprite with {slots} OAM slots"
  | frameKept cause => s!"Keeping previous frame of sprite: {cause.message}"
  | affineExhausted => "Out of affine slots, drawing sprite unscaled"
  | freeZone start length => s!"FREE ZONE {start} ({length} length)"
  | usedSlot slot tile size => s!"OAM {slot} start {tile} size {size.name}"
  | removalLeak id cause =>
    s!"Failed to free sprite {spriteName id} before removing it: {cause.message}"
  | drawFailed id cause => s!"Failed to draw sprite {spriteName id}: {cause.message}"

/-- The lines an event adds to the log. -/
def lines (e : Event) : List String :=
  match e.subsystem? with
  | some s => s.debugLines e.text
  | none => ["WARN " ++ e.text]

end Event

end SpriteEngine
