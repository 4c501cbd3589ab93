import Mathlib.Data.Set.Card
import Mathlib.Order.Interval.Finset.Nat
import SpriteEngine.Proofs.DrawPass
import SpriteEngine.Proofs.Lifetime

/-!
# Playing animations

An animation has two counters, one for the ticks within a frame and one for the place in the list of
frames. `Animation.IsAt` gives both as functions of the number of ticks since the start: remainder
and quotient of that number by the length of a frame, with the quotient taken modulo the length of
the list or stopped at its end (`Animation.placeAfter`). A tick adds one to the number
(`Animation.IsAt.tick`), and what can be seen of the animation follows (`Animation.IsShownAfter`).

A draw advances the animation of its sprite by one tick before it looks for the frame to upload. So
a sprite that was given an animation is `n` ticks into it after `n` draws (`Sprite.Plays`), whatever
else happens, as long as it is not freed and nobody sets its frame or animation
(`Stage.LeavesAnimation`).
-/

namespace SpriteEngine

/-! ### Counting ticks -/

/-- Within a period, counting adds to the remainder. -/
private theorem succ_div_mod_of_lt {n t : Nat} (h : n % t + 1 < t) :
    (n + 1) / t = n / t ∧ (n + 1) % t = n % t + 1 := by
  have hn := Nat.mod_add_div n t
  rw [Nat.div_mod_unique (by omega)]
  exact ⟨by omega, h⟩

/-- At the end of a period, counting adds to the quotient. -/
private theorem succ_div_mod_of_eq {n t : Nat} (h : n % t + 1 = t) :
    (n + 1) / t = n / t + 1 ∧ (n + 1) % t = 0 := by
  have hn := Nat.mod_add_div n t
  rw [Nat.div_mod_unique (by omega), Nat.mul_succ]
  exact ⟨by omega, by omega⟩

namespace Animation

variable {a : Animation} {frames : List Nat} {ticksPerFrame : UInt16} {looping : Bool} {n : Nat}

/-- The place in a list of `length` frames after the frame has changed `changes` times. -/
def placeAfter (looping : Bool) (length changes : Nat) : Nat :=
  if looping then changes % length else min changes (length - 1)

private theorem placeAfter_lt (looping : Bool) {length : Nat} (h : 0 < length) (changes : Nat) :
    placeAfter looping length changes < length := by
  rw [placeAfter]
  split
  · exact Nat.mod_lt _ h
  · omega

private theorem placeAfter_zero (looping : Bool) (length : Nat) :
    placeAfter looping length 0 = 0 := by
  simp [placeAfter]

/-- The counters are those of an animation that has had `n` ticks since it was at its start. -/
structure IsAt (a : Animation) (n : Nat) : Prop where
  ticks : a.ticks = n % a.ticksPerFrame.toNat
  position : a.position = placeAfter a.looping a.frames.length (n / a.ticksPerFrame.toNat)

/-- A restart is as if there had been no ticks. -/
private theorem isAt_restart (a : Animation) : a.restart.IsAt 0 where
  ticks := (Nat.zero_mod _).symm
  position := by
    rw [Nat.zero_div, placeAfter_zero]
    rfl

/-- After one more change the next frame is shown. -/
private theorem nextPosition_eq {changes : Nat} (hne : a.frames ≠ [])
    (h : a.position = placeAfter a.looping a.frames.length changes) :
    a.nextPosition = placeAfter a.looping a.frames.length (changes + 1) := by
  have hpos : 0 < a.frames.length := List.length_pos_of_ne_nil hne
  rw [nextPosition, h]
  cases a.looping with
  | true =>
    have hlt := Nat.mod_lt changes hpos
    change (if changes % a.frames.length + 1 < _ then changes % a.frames.length + 1 else 0) =
      (changes + 1) % a.frames.length
    split
    · rename_i hnext
      exact (succ_div_mod_of_lt hnext).2.symm
    · exact (succ_div_mod_of_eq (by omega)).2.symm
  | false =>
    change (if min changes _ + 1 < _ then min changes _ + 1 else min changes _) =
      min (changes + 1) (a.frames.length - 1)
    split <;> omega

/-- A tick adds one to the number of ticks. -/
theorem IsAt.tick (h : a.IsAt n) (hne : a.frames ≠ []) : a.tick.IsAt (n + 1) := by
  have hlt := a.ticks_lt
  rw [h.ticks] at hlt
  rw [Animation.tick, if_neg (by simpa using hne)]
  split
  · rename_i hnext
    rw [h.ticks] at hnext
    obtain ⟨hdiv, hmod⟩ := succ_div_mod_of_lt hnext
    exact ⟨by rw [hmod, ← h.ticks], by rw [hdiv]; exact h.position⟩
  · rename_i hnext
    rw [h.ticks] at hnext
    obtain ⟨hdiv, hmod⟩ := succ_div_mod_of_eq (by omega : n % a.ticksPerFrame.toNat + 1 = _)
    exact ⟨by rw [jump, hmod], by rw [jump, hdiv]; exact nextPosition_eq hne h.position⟩

/-- The animation plays the given frames and has had `n` ticks since it was at its start. Without
frames the ticks are not counted. -/
structure Follows (a : Animation) (frames : List Nat) (ticksPerFrame : UInt16) (looping : Bool)
    (n : Nat) : Prop where
  frames : a.frames = frames
  period : a.ticksPerFrame.toNat = max ticksPerFrame.toNat 1
  looping : a.looping = looping
  isAt : a.frames ≠ [] → a.IsAt n

private theorem follows_start (frames : List Nat) (ticksPerFrame : UInt16) (looping : Bool) :
    (start frames ticksPerFrame looping).Follows frames ticksPerFrame looping 0 where
  frames := rfl
  period := by
    rw [start]
    dsimp only
    split
    · rename_i hzero
      rw [hzero]
      rfl
    · rename_i hne
      have hpos : ticksPerFrame.toNat ≠ 0 := fun h0 => hne (UInt16.toNat_inj.mp h0)
      omega
  looping := rfl
  isAt _ := isAt_restart (start frames ticksPerFrame looping)

private theorem Follows.restart (h : a.Follows frames ticksPerFrame looping n) :
    a.restart.Follows frames ticksPerFrame looping 0 :=
  ⟨h.frames, h.period, h.looping, fun _ => a.isAt_restart⟩

private theorem tick_track (a : Animation) : a.tick.frames = a.frames ∧
    a.tick.ticksPerFrame = a.ticksPerFrame ∧ a.tick.looping = a.looping := by
  rw [tick]
  split
  · exact ⟨rfl, rfl, rfl⟩
  · split <;> exact ⟨rfl, rfl, rfl⟩

/-- The step of the induction: one more tick. -/
private theorem Follows.tick (h : a.Follows frames ticksPerFrame looping n) :
    a.tick.Follows frames ticksPerFrame looping (n + 1) := by
  obtain ⟨hframes, hticks, hlooping⟩ := a.tick_track
  refine ⟨hframes.trans h.frames, hticks ▸ h.period, hlooping.trans h.looping, fun hne => ?_⟩
  rw [hframes] at hne
  exact (h.isAt hne).tick hne

/-! ### What can be seen -/

/-- What can be seen of an animation with frames of length `period` after `n` ticks. The count of
ticks can go on in 16 bits, and nothing happens without frames. -/
structure IsShownAfter (a : Animation) (frames : List Nat) (period : Nat) (looping : Bool)
    (n : Nat) : Prop where
  frame : a.currentFrame? = frames[placeAfter looping frames.length (n / period)]?
  isSome_frame : frames ≠ [] → a.currentFrame?.isSome = true
  finished : a.isFinished = true ↔ looping = false ∧ frames.length - 1 ≤ n / period
  ticks_lt : a.ticks + 1 < 2 ^ 16
  idle : frames = [] → a.tick = a ∧ a.currentFrame? = none

/-- What can be seen of an animation is up to its frames and the number of ticks. -/
private theorem Follows.isShownAfter (h : a.Follows frames ticksPerFrame looping n) :
    a.IsShownAfter frames (max ticksPerFrame.toNat 1) looping n := by
  obtain ⟨rfl, hperiod, rfl, hat⟩ := h
  rw [← hperiod]
  by_cases hne : a.frames = []
  · have hnone : a.currentFrame? = none := by simp [currentFrame?, hne]
    refine ⟨by simp [hnone, hne], fun h => absurd hne h, ?_, a.ticks_add_one_lt,
      fun _ => ⟨?_, hnone⟩⟩
    · simp [isFinished, hne]
    · simp [Animation.tick, hne]
  · have hpos : 0 < a.frames.length := List.length_pos_of_ne_nil hne
    have hplace := (hat hne).position
    have hlt := placeAfter_lt a.looping hpos (n / a.ticksPerFrame.toNat)
    refine ⟨by rw [currentFrame?, hplace], fun _ => ?_, ?_, a.ticks_add_one_lt,
      fun h => absurd h hne⟩
    · rw [currentFrame?, hplace, List.getElem?_eq_getElem hlt]
      rfl
    · rw [isFinished, hplace]
      cases a.looping with
      | true => simp
      | false =>
        simp only [placeAfter, Bool.not_false, Bool.true_and, decide_eq_true_eq, true_and,
          Bool.false_eq_true, if_false]
        omega

/-- What can happen to an animation. -/
inductive Move where
  | tick
  | restart

/-- Carry out what happens to an animation, one after the other. -/
def play (a : Animation) (moves : List Move) : Animation :=
  moves.foldl (fun a move => match move with
    | .tick => a.tick
    | .restart => a.restart) a

/-- The number of ticks after the last restart, if there were `n` before. -/
def ticksSince (n : Nat) (moves : List Move) : Nat :=
  moves.foldl (fun n move => match move with
    | .tick => n + 1
    | .restart => 0) n

/-- By induction along the moves: only the ticks since the last restart count. -/
private theorem Follows.play (h : a.Follows frames ticksPerFrame looping n) (moves : List Move) :
    (a.play moves).Follows frames ticksPerFrame looping (ticksSince n moves) := by
  induction moves generalizing a n with
  | nil => exact h
  | cons move moves ih =>
    cases move with
    | tick => exact ih h.tick
    | restart => exact ih h.restart

/-- The draws, counted from 1, that show the frame after the given number of changes. -/
def turn (period changes : Nat) : Set Nat :=
  {n | 0 < n ∧ n / period = changes}

/-- The first frame is up before the first draw, which is the one that is missing. -/
private theorem ncard_turn {period : Nat} (h : 0 < period) (changes : Nat) :
    (turn period changes).ncard = if changes = 0 then period - 1 else period := by
  have hturn : turn period changes =
      Finset.Ico (max 1 (changes * period)) ((changes + 1) * period) := by
    ext n
    rw [turn, Set.mem_ofPred_eq, Finset.coe_Ico, Set.mem_Ico, Nat.div_eq_iff h, Nat.succ_mul]
    omega
  rw [hturn, Set.ncard_coe_finset, Nat.card_Ico, Nat.succ_mul]
  split
  · rename_i hzero
    simp [hzero]
  · rename_i hne
    have hpos : 0 < changes * period := Nat.mul_pos (Nat.pos_of_ne_zero hne) h
    omega

end Animation

/-! ### Drawing sprites with an animation -/

namespace Sprite

variable {s s' : Sprite} {frames : List Nat} {ticksPerFrame : UInt16} {looping : Bool} {n : Nat}

/-- The sprite is `n` ticks into an animation of the given frames and shows its frame, if there is
one. -/
def Plays (s : Sprite) (frames : List Nat) (ticksPerFrame : UInt16) (looping : Bool) (n : Nat) :
    Prop :=
  ∃ a, s.animation = some a ∧ a.Follows frames ticksPerFrame looping n ∧
    ∀ frame, a.currentFrame? = some frame → s.currentFrame = frame

/-- Whether a sprite plays an animation depends on its animation and its current frame only. -/
theorem Plays.congr (h : s.Plays frames ticksPerFrame looping n)
    (hanimation : s'.animation = s.animation) (hframe : s'.currentFrame = s.currentFrame) :
    s'.Plays frames ticksPerFrame looping n := by
  obtain ⟨a, ha, hfollows, hcurrent⟩ := h
  exact ⟨a, hanimation.trans ha, hfollows, fun frame hf => hframe.trans (hcurrent frame hf)⟩

/-- A sprite that takes its frame from its animation plays it. -/
private theorem plays_followAnimation {a : Animation} (ha : s.animation = some a)
    (h : a.Follows frames ticksPerFrame looping n) :
    s.followAnimation.Plays frames ticksPerFrame looping n := by
  have hframe : s.animation.bind Animation.currentFrame? = a.currentFrame? := by
    rw [ha, Option.bind_some]
  rw [followAnimation, hframe]
  split
  · rename_i frame hframe
    exact ⟨a, ha, h, fun frame' hframe' => Option.some.inj (hframe.symm.trans hframe')⟩
  · rename_i hnone
    refine ⟨a, ha, h, fun frame hframe => ?_⟩
    simp [hnone] at hframe

private theorem plays_setAnimation (s : Sprite) (frames : List Nat) (ticksPerFrame : UInt16)
    (looping : Bool) : (s.setAnimation (.start frames ticksPerFrame looping)).Plays frames
      ticksPerFrame looping 0 :=
  plays_followAnimation rfl (Animation.follows_start ..)

/-- A tick of the sprite is a tick of its animation. -/
private theorem Plays.tick (h : s.Plays frames ticksPerFrame looping n) :
    s.tick.Plays frames ticksPerFrame looping (n + 1) := by
  obtain ⟨a, ha, hfollows, -⟩ := h
  refine plays_followAnimation (a := a.tick) ?_ hfollows.tick
  change s.animation.map Animation.tick = _
  rw [ha, Option.map_some]

private theorem setAnimation_texture {a : Animation} : (s.setAnimation a).texture = s.texture := by
  rw [setAnimation, followAnimation]
  split <;> rfl

private theorem setAnimation_held {a : Animation} : (s.setAnimation a).held = s.held := by
  rw [setAnimation, followAnimation]
  split <;> rfl

/-- The frame that the sprite shows is the one that the number of ticks leads to. -/
private theorem Plays.getElem? (h : s.Plays frames ticksPerFrame looping n) (hne : frames ≠ []) :
    frames[Animation.placeAfter looping frames.length (n / max ticksPerFrame.toNat 1)]? =
      some s.currentFrame := by
  obtain ⟨a, -, hfollows, hcurrent⟩ := h
  have hshown := hfollows.isShownAfter
  obtain ⟨frame, hframe⟩ := Option.isSome_iff_exists.mp (hshown.isSome_frame hne)
  rw [← hshown.frame, hframe, hcurrent frame hframe]

end Sprite

/-! ### Calls and animations -/

namespace Call

/-- The call is a draw. -/
def isDraw : Call → Bool
  | .draw => true
  | _ => false

/-- The call does not free its sprite and does not give it another frame or animation. -/
def LeavesAnimation (s : Sprite) : Call → Prop
  | .free => False
  | .restyle look => look.animation = s.animation ∧ look.currentFrame = s.currentFrame
  | .load | .upload _ | .draw => True

private theorem LeavesAnimation.ne_free {s : Sprite} {call : Call} (h : call.LeavesAnimation s) :
    call ≠ .free := by
  rintro rfl
  exact h

end Call

/-- A draw is a tick of the sprite, and other calls that leave its animation alone change neither
animation nor frame. -/
private theorem Engine.perform_animation {c : Config} {e : Engine} {s : Sprite} {rest : List Sprite}
    (h : Sound c e (s :: rest)) (hloaded : s.isLoaded = true) {call : Call}
    (hcall : call.LeavesAnimation s) :
    (e.perform s call).Yields fun r => r.2.2.texture = s.texture ∧
      r.2.2.animation = (if call.isDraw then s.tick else s).animation ∧
      r.2.2.currentFrame = (if call.isDraw then s.tick else s).currentFrame := by
  refine (perform_cases h call).mono fun r hr => ?_
  cases hr with
  | refused hnone =>
    cases call with
    | draw => simp [Sprite.isLoaded, hnone rfl] at hloaded
    | _ => exact ⟨rfl, rfl, rfl⟩
  | load hl =>
    obtain ⟨-, slots, k, rfl, -⟩ := hl
    exact ⟨rfl, rfl, rfl⟩
  | upload hu =>
    obtain ⟨held, ram, -, -, -, rfl, -⟩ := hu
    exact ⟨rfl, rfl, rfl⟩
  | free => exact absurd rfl hcall.ne_free
  | draw hd => exact ⟨hd.texture, by rw [hd.eq]; rfl, by rw [hd.eq]; rfl⟩
  | restyle => exact ⟨rfl, hcall.1, hcall.2⟩

namespace Stage

variable {c : Config} {e : Engine} {w : Stage} {i : Nat} {s : Sprite} {texture : Texture}
  {frames : List Nat} {ticksPerFrame : UInt16} {looping : Bool} {n : Nat}

/-- Give an animation to the sprite with the given number. -/
def animate (w : Stage) (i : Nat) (a : Animation) : Stage :=
  { w with sprites := w.sprites.modify i (·.setAnimation a) }

private theorem Sound.animate (h : Sound c w) (hs : w.sprites[i]? = some s) (a : Animation) :
    Sound c (w.animate i a) := by
  have hset : w.animate i a = ⟨w.engine, w.sprites.set i (s.setAnimation a)⟩ := by
    rw [Stage.animate, List.modify_eq_set_getElem?, hs]
    rfl
  rw [hset]
  exact .back hs ((h.front hs).restyle Sprite.setAnimation_texture Sprite.setAnimation_held)

/-- How often the sprite with the given number is drawn. -/
def drawsOf (i : Nat) (calls : List (Nat × Call)) : Nat :=
  calls.countP fun call => call.1 == i && call.2.isDraw

/-- None of the calls frees the sprite with the given number or gives it another frame or
animation. It may be drawn, uploaded or moved, and anything may happen to other sprites. -/
def LeavesAnimation (i : Nat) (w : Stage) : List (Nat × Call) → Prop
  | [] => True
  | (j, call) :: calls =>
    (j = i → ∀ s, w.sprites[i]? = some s → call.LeavesAnimation s) ∧
    ∀ answer w', (w.step j call).outcome = .ok (answer, w') → LeavesAnimation i w' calls

/-- The sprite with the given number is loaded and has the given texture, and it is `n` ticks into
an animation. -/
def Playing (w : Stage) (i : Nat) (texture : Texture) (frames : List Nat) (ticksPerFrame : UInt16)
    (looping : Bool) (n : Nat) : Prop :=
  ∃ s, w.sprites[i]? = some s ∧ s.isLoaded = true ∧ s.texture = texture ∧
    s.Plays frames ticksPerFrame looping n

private theorem playing_animate (hs : w.sprites[i]? = some s) (hloaded : s.isLoaded = true) :
    (w.animate i (.start frames ticksPerFrame looping)).Playing i s.texture frames ticksPerFrame
      looping 0 := by
  refine ⟨_, ?_, ?_, Sprite.setAnimation_texture, Sprite.plays_setAnimation ..⟩
  · rw [animate, List.getElem?_modify_eq, hs]
    rfl
  · rw [Sprite.isLoaded, Sprite.setAnimation_held]
    exact hloaded

/-- A call counts if it is a draw of the sprite. -/
private theorem Playing.step (h : Sound c w)
    (hplaying : w.Playing i texture frames ticksPerFrame looping n) {j : Nat} {call : Call}
    (hcall : j = i → ∀ s, w.sprites[i]? = some s → call.LeavesAnimation s) :
    (w.step j call).Yields fun r => Sound c r.2 ∧
      r.2.Playing i texture frames ticksPerFrame looping (n + drawsOf i [(j, call)]) := by
  obtain ⟨s, hs, hloaded, htexture, hplays⟩ := hplaying
  by_cases hj : j = i
  · subst hj
    have hleaves := hcall rfl s hs
    have hfront := h.front hs
    refine ((step_spec h j call).and (step_own hs
      ((Engine.perform_isLoaded hfront hloaded hleaves.ne_free).and
        (Engine.perform_animation hfront hloaded hleaves)))).mono ?_
    rintro r ⟨⟨hsound, -⟩, s', hs', hloaded', htexture', hanimation, hframe⟩
    refine ⟨hsound, s', hs', hloaded', htexture'.trans htexture, ?_⟩
    cases hdraw : call.isDraw with
    | true =>
      rw [hdraw] at hanimation hframe
      simpa [drawsOf, hdraw] using hplays.tick.congr hanimation hframe
    | false =>
      rw [hdraw] at hanimation hframe
      simpa [drawsOf, hdraw] using hplays.congr hanimation hframe
  · refine (step_undisturbed h j call).mono ?_
    rintro r ⟨hsound, hundisturbed⟩
    refine ⟨hsound, s, (hundisturbed.sprites i (Ne.symm hj)).trans hs, hloaded, htexture, ?_⟩
    simpa [drawsOf, hj] using hplays

/-- Along a run, the draws of the sprite are counted. -/
private theorem Playing.run {calls : List (Nat × Call)} (h : Sound c w)
    (hplaying : w.Playing i texture frames ticksPerFrame looping n)
    (hcalls : w.LeavesAnimation i calls) :
    (w.run calls).Yields fun w' => Sound c w' ∧
      w'.Playing i texture frames ticksPerFrame looping (n + drawsOf i calls) := by
  induction calls generalizing w n with
  | nil => exact .pure ⟨h, hplaying⟩
  | cons call calls ih =>
    obtain ⟨hcall, hcalls⟩ := hcalls
    have hcount : drawsOf i (call :: calls) = drawsOf i [call] + drawsOf i calls := by
      rw [← List.singleton_append, drawsOf, List.countP_append]
      rfl
    rw [run, List.foldlM_cons, map_eq_pure_bind, bind_assoc, hcount, ← Nat.add_assoc]
    refine (hplaying.step h hcall).outcome.bind fun r hr => ?_
    obtain ⟨⟨hsound, hplaying'⟩, hstep⟩ := hr
    rw [pure_bind]
    exact ih hsound hplaying' (hcalls r.1 r.2 hstep)

/-- The sprite with the given number is loaded, has the given texture and shows the frame that `n`
ticks since the start of an animation lead to. This is also the frame that was uploaded, if the
texture has all the frames of the animation. -/
def ShowsFrame (w : Stage) (i : Nat) (texture : Texture) (frames : List Nat) (period : Nat)
    (looping : Bool) (n : Nat) : Prop :=
  ∃ s held, w.sprites[i]? = some s ∧ s.held = some held ∧ s.texture = texture ∧ (frames ≠ [] →
    frames[Animation.placeAfter looping frames.length (n / period)]? = some s.currentFrame ∧
    ((∀ frame ∈ frames, frame < texture.frames) → held.frame = some s.currentFrame))

/-- A draw is one tick, and it brings the frame of that tick to tile RAM. -/
private theorem Playing.draw (h : Sound c w)
    (hplaying : w.Playing i texture frames ticksPerFrame looping n) :
    ∃ w', (w.step i .draw).outcome = .ok (.ok (), w') ∧
      w'.ShowsFrame i texture frames (max ticksPerFrame.toNat 1) looping (n + 1) := by
  obtain ⟨s, hs, hloaded, rfl, hplays⟩ := hplaying
  obtain ⟨-, ⟨answer, w'⟩, hstep, rfl, s', held', hs', hheld', hd⟩ := step_draw h hs hloaded
  have hplays' : s'.Plays frames ticksPerFrame looping (n + 1) :=
    hplays.tick.congr (by rw [hd.eq]) (by rw [hd.eq])
  refine ⟨w', hstep, s', held', hs', hheld', hd.texture, fun hne =>
    ⟨hplays'.getElem? hne, fun hframes => ?_⟩⟩
  -- a frame of the animation exists, so it was not refused
  refine (hd.drawn (h.front hs) hheld').current.resolve_right (Nat.not_le.mpr ?_)
  rw [hd.texture]
  exact hframes _ (List.mem_of_getElem? (hplays'.getElem? hne))

end Stage

/-- A texture of one black tile in two frames. -/
def Texture.twoFrames : Texture :=
  { blackTile with
    frameCount := 2
    pixels := Array.replicate 128 1
    frameCount_ne_zero := by decide
    size_pixels := by decide +kernel }

namespace Stage

variable {c : Config} {e : Engine}

/-- However an animation is ticked and restarted, it shows the frame that the ticks since the last
restart lead to. Wherever a run has led a stage, if a loaded sprite is given the animation, it shows
that frame after each of the draws that follow, whatever else happens in between, as long as the
sprite is not freed and nobody sets its frame or animation. So the first frame is shown by one draw
less than the others. -/
theorem draws_play_animation (he : Engine.new c = .ok e) (textures : List Texture)
    (calls : List (Nat × Call)) (frames : List Nat) (ticksPerFrame : UInt16) (looping : Bool) :
    (∀ moves, ((Animation.start frames ticksPerFrame looping).play moves).IsShownAfter frames
      (max ticksPerFrame.toNat 1) looping (Animation.ticksSince 0 moves)) ∧
    (∀ changes, (Animation.turn (max ticksPerFrame.toNat 1) changes).ncard =
      if changes = 0 then max ticksPerFrame.toNat 1 - 1 else max ticksPerFrame.toNat 1) ∧
    ∃ w, ((start e textures).run calls).outcome = .ok w ∧
      ∀ i s, w.sprites[i]? = some s → s.isLoaded = true →
        ∀ later, (w.animate i (.start frames ticksPerFrame looping)).LeavesAnimation i later →
          ∃ w', ((w.animate i (.start frames ticksPerFrame looping)).run
              (later ++ [(i, .draw)])).outcome = .ok w' ∧
            w'.ShowsFrame i s.texture frames (max ticksPerFrame.toNat 1) looping
              (drawsOf i later + 1) := by
  refine ⟨fun moves => ((Animation.follows_start ..).play moves).isShownAfter,
    Animation.ncard_turn (by omega), ?_⟩
  obtain ⟨w, hw, hsound⟩ := exists_run he textures calls
  refine ⟨w, hw, fun i s hs hloaded later hlater => ?_⟩
  obtain ⟨-, w₁, hrun, hsound₁, hplaying⟩ :=
    (playing_animate hs hloaded).run (hsound.animate hs _) hlater
  obtain ⟨w', hstep, hshows⟩ := hplaying.draw hsound₁
  rw [Nat.zero_add] at hshows
  exact ⟨w', run_concat hrun hstep, hshows⟩

/-- The second frame comes up with the second draw and is uploaded again with the third one, after
somebody has uploaded the first frame. -/
theorem draws_play_animation_uploadBetween :
    ∃ w, ((start (.ofConfig ⟨1, 1, 0⟩) [.twoFrames]).run [(0, .load)]).outcome = .ok w ∧
      ∃ w' s held, ((w.animate 0 (.start [0, 1] 2 false)).run
          [(0, .draw), (0, .draw), (0, .upload 0), (0, .draw)]).outcome = .ok w' ∧
        w'.sprites[0]? = some s ∧ s.held = some held ∧ s.currentFrame = 1 ∧
        held.frame = some 1 := by
  have hfacts : (((start (.ofConfig ⟨1, 1, 0⟩) [.twoFrames]).run [(0, .load)]).outcome.map fun w =>
      w.sprites[0]?.map fun s => (s.isLoaded, s.texture.frames)) = .ok (some (true, 2)) := by
    decide +kernel
  obtain ⟨-, -, w, hw, hsprites⟩ := draws_play_animation (c := ⟨1, 1, 0⟩) rfl [.twoFrames]
    [(0, .load)] [0, 1] 2 false
  rw [hw] at hfacts
  obtain ⟨s, hs, hlook⟩ := Option.map_eq_some_iff.mp (Except.ok.inj hfacts)
  obtain ⟨hloaded, hframes⟩ : s.isLoaded = true ∧ s.texture.frames = 2 := by simpa using hlook
  obtain ⟨w', hrun, s', held, hs', hheld, -, hshows⟩ := hsprites 0 s hs hloaded
    [(0, .draw), (0, .draw), (0, .upload 0)] ⟨fun _ _ _ => trivial, fun _ _ _ =>
      ⟨fun _ _ _ => trivial, fun _ _ _ => ⟨fun _ _ _ => trivial, fun _ _ _ => trivial⟩⟩⟩
  obtain ⟨hframe, hheldFrame⟩ := hshows (by simp)
  have hone : s'.currentFrame = 1 := (Option.some.inj hframe).symm
  refine ⟨w, hw, w', s', held, hrun, hs', hheld, hone, ?_⟩
  rw [hheldFrame (by simp [hframes]), hone]

end Stage

end SpriteEngine
