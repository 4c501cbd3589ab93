import SpriteEngine.Animation
import SpriteEngine.Fixed
import SpriteEngine.Texture

/-!
# Sprites

A `Sprite` is a texture together with where and how to show it. While it is loaded it also has a
`Holding`: the hardware resources that are bound to it.
-/

namespace SpriteEngine

/-- The hardware resources of a loaded sprite. -/
structure Holding where
  /-- The descriptor slots that cover the sprite, row by row. -/
  slots : List Nat
  /-- The palette index of each color of the texture. -/
  colors : List UInt8
  /-- The frame whose pixels are in tile RAM. -/
  frame : Option Nat := none
  /-- Whether the descriptors have been written since the sprite was loaded. -/
  described : Bool := false
  /-- The affine group, while the sprite is scaled. -/
  affine : Option Nat := none
deriving DecidableEq, Repr

/-- A texture with where and how to show it. -/
structure Sprite where
  texture : Texture
  x : Fixed := .zero
  y : Fixed := .zero
  scaleX : Fixed := .one
  scaleY : Fixed := .one
  layer : UInt8 := 0
  currentFrame : Nat := 0
  animation : Option Animation := none
  /-- What the sprite holds while it is loaded. -/
  held : Option Holding := none
deriving DecidableEq

namespace Sprite

/-- Whether the sprite holds hardware resources. -/
def isLoaded (s : Sprite) : Bool :=
  s.held.isSome

/-- Whether the sprite needs a linear map to be drawn. -/
def isScaled (s : Sprite) : Bool :=
  s.scaleX ≠ .one || s.scaleY ≠ .one

/-- Take the current frame from the animation, if there is one with frames. -/
def followAnimation (s : Sprite) : Sprite :=
  match s.animation.bind Animation.currentFrame? with
  | some frame => { s with currentFrame := frame }
  | none => s

/-- Give the sprite an animation and show its current frame. -/
def setAnimation (s : Sprite) (a : Animation) : Sprite :=
  { s with animation := some a }.followAnimation

/-- Go back to the start of the animation. The frame follows with the next tick. -/
def restartAnimation (s : Sprite) : Sprite :=
  { s with animation := s.animation.map Animation.restart }

/-- Advance the animation by one tick and show its current frame. -/
def tick (s : Sprite) : Sprite :=
  { s with animation := s.animation.map Animation.tick }.followAnimation

end Sprite

end SpriteEngine
