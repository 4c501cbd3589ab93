/-!
# Animations

An animation shows a list of frames one after the other, each for the same number of ticks. After
the last frame it starts again if it loops, and otherwise stays there. `Animation.tick` advances it
by one tick, and `Animation.currentFrame?` is the frame to show.

The ticks are counted in 16 bits. They are always fewer than a frame lasts, which is part of the
type, so the count cannot overflow.
-/

namespace SpriteEngine

/-- A list of frames and how far it has been played. -/
structure Animation where
  frames : List Nat
  ticksPerFrame : UInt16
  looping : Bool
  /-- Ticks since the current frame came up. -/
  ticks : Nat
  /-- The place of the current frame in the list. -/
  position : Nat
  ticks_lt : ticks < ticksPerFrame.toNat
deriving DecidableEq, Repr

namespace Animation

/-- An animation at its start. A frame is shown for at least one tick. -/
def start (frames : List Nat) (ticksPerFrame : UInt16) (looping : Bool) : Animation where
  frames
  ticksPerFrame := if ticksPerFrame = 0 then 1 else ticksPerFrame
  looping
  ticks := 0
  position := 0
  ticks_lt := by
    split
    · decide
    · rename_i h
      exact Nat.pos_of_ne_zero fun h0 => h (UInt16.toNat_inj.mp h0)

/-- The frame to show, if the animation has frames. -/
def currentFrame? (a : Animation) : Option Nat :=
  a.frames[a.position]?

/-- Whether the animation has come to its last frame and stays there. -/
def isFinished (a : Animation) : Bool :=
  !a.looping && a.frames.length ≤ a.position + 1

/-- Show the frame at the given place of the list, from its first tick on. -/
def jump (a : Animation) (position : Nat) : Animation :=
  { a with ticks := 0, position, ticks_lt := Nat.zero_lt_of_lt a.ticks_lt }

/-- The place of the frame that follows the current one. -/
def nextPosition (a : Animation) : Nat :=
  if a.position + 1 < a.frames.length then a.position + 1
  else if a.looping then 0
  else a.position

/-- Advance by one tick. Without frames nothing happens. -/
def tick (a : Animation) : Animation :=
  if a.frames.isEmpty then a
  else if h : a.ticks + 1 < a.ticksPerFrame.toNat then
    { a with ticks := a.ticks + 1, ticks_lt := h }
  else a.jump a.nextPosition

/-- Go back to the start. -/
def restart (a : Animation) : Animation :=
  a.jump 0

/-- The count of ticks stays below 2^16, also while it is advanced. -/
theorem ticks_add_one_lt (a : Animation) : a.ticks + 1 < 65536 :=
  Nat.lt_of_le_of_lt a.ticks_lt a.ticksPerFrame.toNat_lt

end Animation

end SpriteEngine
