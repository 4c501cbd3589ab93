import Mathlib.Data.List.Perm.Basic
import SpriteEngine.Proofs.Drawing

/-!
# Runs of an engine with its sprites

A `Stage` is an engine together with all the sprites that are ever shown by it. A step of a stage is
one `Call` on one of the sprites: it is loaded, uploaded, freed or drawn, or somebody changes its
`Look`, the part of a sprite that is open to everybody. A call may be refused, and the run goes on
from there.

`Engine.Performs` lists all that a call can lead to, and what calls have in common is read off it.
`Stage.step_spec` says what one step preserves: the engine stays sound with the sprites, and a call
that is refused changes nothing. Every operation is specified for the sprite that comes first, so
the sprite of the call is moved to the front (`Stage.Sound.front`) and back again
(`Stage.Sound.back`). `Stage.run_spec` follows by induction along the run, from a new engine whose
sprites are not loaded.

The section on failures has the conclusion for calls that are refused: they leave no trace in the
state of the stage, wherever a run has led it. Before it stands an example that is used in what
follows, of a sprite with several cells whose colors replace others (`Stage.load_banded`).
-/

namespace SpriteEngine

/-! ### Calls -/

/-- Where and how a sprite is shown. -/
structure Look where
  x : Fixed := .zero
  y : Fixed := .zero
  scaleX : Fixed := .one
  scaleY : Fixed := .one
  layer : UInt8 := 0
  currentFrame : Nat := 0
  animation : Option Animation := none

/-- Show a sprite in another way. -/
def Sprite.restyle (s : Sprite) (look : Look) : Sprite where
  texture := s.texture
  x := look.x
  y := look.y
  scaleX := look.scaleX
  scaleY := look.scaleY
  layer := look.layer
  currentFrame := look.currentFrame
  animation := look.animation
  held := s.held

/-- What can be done with a sprite. -/
inductive Call where
  | load
  | upload (frame : Nat)
  | free
  | draw
  | restyle (look : Look)

/-- Carry out a call on a sprite. -/
def Engine.perform (e : Engine) (s : Sprite) :
    Call → Traced (Except PoolError Unit × Engine × Sprite)
  | .load => e.load s
  | .upload frame => do
    let (answer, e, s) ← e.upload s frame
    return (answer.map fun _ => (), e, s)
  | .free => e.free s
  | .draw => e.draw s
  | .restyle look => return (.ok (), e, s.restyle look)

namespace Engine

variable {α : Type} {c : Config} {e : Engine} {s : Sprite} {rest : List Sprite}

/-- What all calls have in common: the engine stays sound with the sprites, and a call that is
refused has changed nothing. -/
def Keeps (c : Config) (e : Engine) (s : Sprite) (rest : List Sprite)
    (r : Except PoolError α × Engine × Sprite) : Prop :=
  Sound c r.2.1 (r.2.2 :: rest) ∧ ∀ cause, r.1 = .error cause → r.2 = (e, s)

/-- All that a call on the sprite `s` next to the sprites of `rest` can lead to. -/
inductive Performs (e : Engine) (s : Sprite) (rest : List Sprite) :
    Call → Except PoolError Unit × Engine × Sprite → Prop
  | refused {call : Call} {cause : PoolError} (h : call = .draw → s.held = none) :
    Performs e s rest call (.error cause, e, s)
  | load {e' : Engine} {s' : Sprite}
    (h : e.Loads s (rest.flatMap Sprite.references) (.ok (), e', s')) :
    Performs e s rest .load (.ok (), e', s')
  | upload {frame : Nat} {fresh : Bool} {e' : Engine} {s' : Sprite}
    (h : e.Uploads s frame (.ok fresh, e', s')) :
    Performs e s rest (.upload frame) (.ok (), e', s')
  | free {e' : Engine} {s' : Sprite}
    (h : e.Frees s (rest.flatMap Sprite.references) (.ok (), e', s')) :
    Performs e s rest .free (.ok (), e', s')
  | draw {e' : Engine} {s' : Sprite}
    (h : e.Draws s (rest.filterMap Sprite.heldGroup) (.ok (), e', s')) :
    Performs e s rest .draw (.ok (), e', s')
  | restyle {look : Look} : Performs e s rest (.restyle look) (.ok (), e, s.restyle look)

/-- A call leads to one of these cases, without a fault or an alarm. -/
theorem perform_cases (h : Sound c e (s :: rest)) (call : Call) :
    (e.perform s call).Yields (e.Performs s rest call) := by
  cases call with
  | load =>
    refine (load_spec h).mono ?_
    rintro ⟨cause | _, e', s'⟩ hl
    · obtain ⟨rfl, rfl, -⟩ := hl
      exact .refused fun hcall => (nomatch hcall)
    · exact .load hl
  | upload frame =>
    rw [perform]
    refine (Traced.Yields.lift (upload_spec h frame)).bind ?_
    rintro ⟨cause | fresh, e', s'⟩ hu
    · obtain ⟨rfl, rfl, -⟩ := hu
      exact .pure (.refused fun hcall => (nomatch hcall))
    · exact .pure (.upload hu)
  | free =>
    refine (free_spec h).mono ?_
    rintro ⟨cause | _, e', s'⟩ hf
    · obtain ⟨rfl, rfl, -⟩ := hf
      exact .refused fun hcall => (nomatch hcall)
    · exact .free hf
  | draw =>
    refine (draw_spec h).mono ?_
    rintro ⟨cause | _, e', s'⟩ hd
    · obtain ⟨rfl, rfl, hloaded, -⟩ := hd
      exact .refused fun _ => by simpa [Sprite.isLoaded] using hloaded
    · exact .draw hd
  | restyle look => exact .pure .restyle

/-- Each of the cases keeps the engine sound. -/
theorem perform_spec (h : Sound c e (s :: rest)) (call : Call) :
    (e.perform s call).Yields (Keeps c e s rest) := by
  refine (perform_cases h call).mono fun r hr => ?_
  cases hr with
  | refused => exact ⟨h, fun _ _ => rfl⟩
  | load hl => exact ⟨h.loads hl, fun _ hcause => (nomatch hcause)⟩
  | upload hu => exact ⟨h.uploads hu, fun _ hcause => (nomatch hcause)⟩
  | free hf => exact ⟨h.frees hf, fun _ hcause => (nomatch hcause)⟩
  | draw hd => exact ⟨h.draws hd, fun _ hcause => (nomatch hcause)⟩
  | restyle => exact ⟨h.restyle rfl rfl, fun _ hcause => (nomatch hcause)⟩

end Engine

/-- A texture of one tile with black pixels. -/
def Texture.blackTile : Texture where
  width := 8
  height := 8
  frameCount := 1
  colors := [0]
  pixels := Array.replicate 64 1
  width_ne_zero := by decide
  height_ne_zero := by decide
  frameCount_ne_zero := by decide
  length_colors_le := by decide
  size_pixels := by decide

/-- A texture of two cells: nine tiles with black pixels, side by side. -/
def Texture.blackRow : Texture :=
  { blackTile with
    width := 72
    pixels := Array.replicate 576 1
    width_ne_zero := by decide
    size_pixels := by decide +kernel }

/-- A texture of four cells: nine by nine tiles, in two colors. The first of its frames is
transparent and the second one has the first color. In the third one the last row of tiles has the
second color. -/
def Texture.banded : Texture :=
  { blackTile with
    width := 72
    height := 72
    frameCount := 3
    colors := [31, 992]
    pixels := Array.replicate 5184 0 ++ Array.replicate 9792 1 ++ Array.replicate 576 2
    width_ne_zero := by decide
    height_ne_zero := by decide
    frameCount_ne_zero := by decide
    length_colors_le := by decide
    size_pixels := by simp [tilesAlong] }

/-! ### Stages -/

/-- An engine and the sprites that are shown by it. -/
structure Stage where
  engine : Engine
  sprites : List Sprite

namespace Stage

variable {c : Config} {e : Engine} {w : Stage}

/-- Call upon the sprite with the given number. Without such a sprite nothing happens. -/
def step (w : Stage) (i : Nat) (call : Call) : Traced (Except PoolError Unit × Stage) :=
  match w.sprites[i]? with
  | none => return (.ok (), w)
  | some s => do
    let (answer, engine, s) ← w.engine.perform s call
    return (answer, { engine, sprites := w.sprites.set i s })

/-- Carry out calls one after the other, whether or not they are refused. -/
def run (w : Stage) (calls : List (Nat × Call)) : Traced Stage :=
  calls.foldlM (fun w call => Prod.snd <$> w.step call.1 call.2) w

/-- An engine with new sprites for the given textures. -/
def start (e : Engine) (textures : List Texture) : Stage where
  engine := e
  sprites := textures.map fun texture => { texture }

/-- The engine is sound with the sprites of the stage. -/
def Sound (c : Config) (w : Stage) : Prop :=
  w.engine.Sound c w.sprites

theorem Sound.start (he : Engine.new c = .ok e) (textures : List Texture) :
    Sound c (start e textures) := by
  refine Engine.Sound.new he ?_
  intro s hs
  obtain ⟨texture, -, rfl⟩ := List.mem_map.mp hs
  rfl

/-- The stage is sound if the sprite with the given number is in front. -/
theorem Sound.front (h : Sound c w) {i : Nat} {s : Sprite} (hs : w.sprites[i]? = some s) :
    w.engine.Sound c (s :: w.sprites.eraseIdx i) := by
  obtain ⟨hi, rfl⟩ := List.getElem?_eq_some_iff.mp hs
  exact Engine.Sound.perm h (List.getElem_cons_eraseIdx_perm hi).symm

/-- The sprite in front goes back to its place. -/
theorem Sound.back {i : Nat} {s s' : Sprite} (hs : w.sprites[i]? = some s)
    (h : e.Sound c (s' :: w.sprites.eraseIdx i)) : Sound c ⟨e, w.sprites.set i s'⟩ := by
  obtain ⟨hi, -⟩ := List.getElem?_eq_some_iff.mp hs
  exact Engine.Sound.perm h (List.set_perm_cons_eraseIdx hi s').symm

/-- What a step leads to is what the call leads to, with the sprite put back. -/
theorem step_yields {i : Nat} {call : Call} {s : Sprite} (hs : w.sprites[i]? = some s)
    {P : Except PoolError Unit × Stage → Prop}
    (h : (w.engine.perform s call).Yields fun r => P (r.1, ⟨r.2.1, w.sprites.set i r.2.2⟩)) :
    (w.step i call).Yields P := by
  rw [step, hs]
  exact h.bind fun r hr => .pure hr

/-- After a step the sprite that was called upon is the one that the call leads to. -/
theorem step_own {i : Nat} {call : Call} {s : Sprite} (hs : w.sprites[i]? = some s)
    {P : Except PoolError Unit × Engine × Sprite → Prop}
    (h : (w.engine.perform s call).Yields P) :
    (w.step i call).Yields fun r => ∃ s', r.2.sprites[i]? = some s' ∧ P (r.1, r.2.engine, s') := by
  obtain ⟨hi, -⟩ := List.getElem?_eq_some_iff.mp hs
  exact step_yields hs (h.mono fun r hr => ⟨r.2.2, List.getElem?_set_self hi, hr⟩)

/-- A sprite whose colors can be bound and whose slots can be taken is loaded with them. -/
theorem step_load {i : Nat} {s : Sprite} {k : Binding} {palette : PaletteBank} {slots : List Nat}
    {table : SlotTable} (hs : w.sprites[i]? = some s) (hheld : s.held = none)
    (hbind : (w.engine.palette.bindAll s.texture.colors).outcome = .ok (.ok k, palette))
    (htake : (w.engine.slots.takeGrid s.texture.grid).outcome = .ok (.ok slots, table)) :
    (w.step i .load).outcome = .ok (.ok (),
      { engine := { w.engine with palette, slots := table },
        sprites := w.sprites.set i
          { s with held := some { slots, colors := k.indices.toList } } }) := by
  have hload : (w.engine.load s).outcome = .ok (.ok (),
      { w.engine with palette, slots := table },
      { s with held := some { slots, colors := k.indices.toList } }) :=
    Engine.load_eq_ok_iff.mpr ⟨by simp [Sprite.isLoaded, hheld], k, slots, hbind, htake, rfl, rfl⟩
  rw [step, hs]
  exact Traced.outcome_bind hload _

/-- A frame of a loaded sprite can be uploaded, and nothing changes but tile RAM and the frame. -/
theorem step_upload (h : Sound c w) {i frame : Nat} {s : Sprite} {held : Holding}
    (hs : w.sprites[i]? = some s) (hheld : s.held = some held) (hframe : frame < s.texture.frames) :
    (w.step i (.upload frame)).Yields fun r => r.1 = .ok () ∧
      (∃ ram, r.2.engine = { w.engine with tileRam := ram }) ∧
      r.2.sprites = w.sprites.set i { s with held := some { held with frame } } := by
  refine step_yields hs ?_
  rw [Engine.perform]
  refine (Traced.Yields.lift (Engine.upload_spec (h.front hs) frame)).bind ?_
  rintro ⟨cause | fresh, e', s'⟩ hu
  · obtain ⟨-, -, ⟨hloaded, -⟩ | ⟨hle, -⟩⟩ := hu
    · simp [Sprite.isLoaded, hheld] at hloaded
    · omega
  · obtain ⟨held', ram, hheld', -, rfl, rfl, -⟩ := hu
    obtain rfl : held = held' := Option.some.inj (hheld.symm.trans hheld')
    exact .pure ⟨rfl, ⟨ram, rfl⟩, rfl⟩

/-- A loaded sprite can be drawn. -/
theorem step_draw (h : Sound c w) {i : Nat} {s : Sprite} (hs : w.sprites[i]? = some s)
    (hloaded : s.isLoaded = true) :
    (w.step i .draw).Yields fun r => r.1 = .ok () ∧ ∃ s' held', r.2.sprites[i]? = some s' ∧
      s'.held = some held' ∧ w.engine.Draws s ((w.sprites.eraseIdx i).filterMap Sprite.heldGroup)
        (.ok (), r.2.engine, s') := by
  refine (step_own hs (Engine.perform_cases (h.front hs) .draw)).mono ?_
  rintro ⟨answer, e', sprites'⟩ ⟨s', hs', hperforms⟩
  cases hperforms with
  | refused hnone => simp [Sprite.isLoaded, hnone rfl] at hloaded
  | draw hd =>
    obtain ⟨held', hheld'⟩ := Option.isSome_iff_exists.mp hd.isLoaded
    exact ⟨rfl, s', held', hs', hheld', hd⟩

/-- A step keeps the stage sound, and one that is refused changes nothing. -/
theorem step_spec (h : Sound c w) (i : Nat) (call : Call) :
    (w.step i call).Yields fun r => Sound c r.2 ∧ ∀ cause, r.1 = .error cause → r.2 = w := by
  cases hs : w.sprites[i]? with
  | none =>
    rw [step, hs]
    exact .pure ⟨h, fun _ hcause => (nomatch hcause)⟩
  | some s =>
    refine step_yields hs ((Engine.perform_spec (h.front hs) call).mono ?_)
    rintro ⟨answer, e', s'⟩ ⟨hsound, hrefused⟩
    refine ⟨.back hs hsound, fun cause hcause => ?_⟩
    obtain ⟨rfl, rfl⟩ : e' = w.engine ∧ s' = s := by simpa using hrefused cause hcause
    obtain ⟨hi, rfl⟩ := List.getElem?_eq_some_iff.mp hs
    rw [List.set_getElem_self]

/-- A run from a sound stage does not fault, raises no alarm and ends in a sound stage. -/
theorem run_spec (h : Sound c w) (calls : List (Nat × Call)) :
    (w.run calls).Yields (Sound c) := by
  refine Traced.Yields.foldlM (fun _ => Sound c) (fun call left w hw => ?_) h
  rw [map_eq_pure_bind]
  exact (step_spec hw call.1 call.2).bind fun r hr => .pure hr.1

/-- A run with one more call at its end. -/
theorem run_concat {w₁ w₂ : Stage} {calls : List (Nat × Call)} {j : Nat} {call : Call}
    {answer : Except PoolError Unit} (hw : (w.run calls).outcome = .ok w₁)
    (hstep : (w₁.step j call).outcome = .ok (answer, w₂)) :
    (w.run (calls ++ [(j, call)])).outcome = .ok w₂ := by
  rw [run] at hw ⊢
  rw [List.foldlM_append, Traced.bind_def, hw]
  simp [Traced.bind_def, Traced.pure_def, map_eq_pure_bind, hstep]

/-- Every run from the start ends, and in a sound stage. -/
theorem exists_run (he : Engine.new c = .ok e) (textures : List Texture)
    (calls : List (Nat × Call)) :
    ∃ w, ((start e textures).run calls).outcome = .ok w ∧ Sound c w :=
  (run_spec (.start he textures) calls).2

/-! ### A sprite of several cells -/

/-- The palette of an engine whose first sprite is a black tile. -/
private def blackPalette : PaletteBank :=
  PaletteBank.blank.setRefs 0 1

/-- The colors of the second sprite replace those of the next two entries. -/
private theorem bindAll_banded : ∃ k b, (blackPalette.bindAll [31, 992]).outcome = .ok (.ok k, b) ∧
    k.indices = #[2, 3] ∧ b.color? 2 = some 31 := by
  have hfirst : blackPalette.bind 31 = .ok (.ok ((PaletteBank.indexOf 1, some 0),
      (blackPalette.store 1 31).setRefs 1 1)) := by
    rw [PaletteBank.bind_of_not_stored (i := 1) (by simp [blackPalette]) (fun j hj => ?_)
      (by simp [blackPalette])]
    · simp [blackPalette]
    · obtain rfl : j = 0 := by omega
      simp [blackPalette]
  have hsecond : ((blackPalette.store 1 31).setRefs 1 1).bind 992 =
      .ok (.ok ((PaletteBank.indexOf 2, some 0),
        (((blackPalette.store 1 31).setRefs 1 1).store 2 992).setRefs 2 1)) := by
    rw [PaletteBank.bind_of_not_stored (i := 2) (fun j => ?_) (fun j hj => ?_)
      (by simp [blackPalette])]
    · simp [blackPalette]
    · simp only [blackPalette, PaletteBank.stored_setRefs, PaletteBank.stored_store,
        PaletteBank.stored_blank]
      split <;> decide
    · obtain rfl | rfl : j = 0 ∨ j = 1 := by omega
      all_goals simp [blackPalette]
  have hboth : (blackPalette.bindAll [31, 992]).outcome = .ok
      (.ok { indices := #[2, 3], overwritten := #[(2, 0), (3, 0)] },
        (((blackPalette.store 1 31).setRefs 1 1).store 2 992).setRefs 2 1) := by
    rw [PaletteBank.bindAll, PaletteBank.bindRest_of_bind hfirst,
      PaletteBank.bindRest_of_bind hsecond]
    rfl
  exact ⟨_, _, hboth, rfl, (PaletteBank.color?_indexOf _ 1).trans (by simp [blackPalette])⟩

/-- The objects of the second sprite. At the right edge there is one column of tiles only, but an
object with that many rows is four tiles wide. -/
structure HasBanded (t : SlotTable) : Prop where
  full : t.object? 1 = some (1, .full)
  right : t.object? 2 = some (65, ⟨.vertical, 3⟩)
  below : t.object? 3 = some (97, ⟨.horizontal, 3⟩)
  corner : t.object? 4 = some (129, .tile)

/-- The cells of the second sprite get the next four slots. -/
private theorem takeGrid_banded :
    ∃ t t', ((Engine.ofConfig ⟨130, 5, 1⟩).slots.takeGrid ⟨1, 1⟩).outcome = .ok (.ok [0], t) ∧
      (t.takeGrid ⟨9, 9⟩).outcome = .ok (.ok [1, 2, 3, 4], t') ∧ HasBanded t' := by
  have hboth : ((Engine.ofConfig ⟨130, 5, 1⟩).slots.takeGrid ⟨1, 1⟩ >>= fun r =>
      r.2.takeGrid ⟨9, 9⟩ >>= fun r' => pure (r.1, r'.1, [1, 2, 3, 4].map r'.2.object?)).outcome =
        .ok (.ok [0], .ok [1, 2, 3, 4], [some (1, .full), some (65, ⟨.vertical, 3⟩),
          some (97, ⟨.horizontal, 3⟩), some (129, .tile)]) := by decide +kernel
  obtain ⟨⟨slots, t⟩, ht, hsecond⟩ := Traced.exists_of_outcome_bind hboth
  obtain ⟨⟨slots', t'⟩, ht', hpure⟩ := Traced.exists_of_outcome_bind hsecond
  obtain ⟨rfl, hrest⟩ := Prod.mk.inj (Except.ok.inj hpure)
  obtain ⟨rfl, hobjects⟩ := Prod.mk.inj hrest
  simp only [List.map_cons, List.map_nil, List.cons.injEq, and_true] at hobjects
  obtain ⟨hfull, hright, hbelow, hcorner⟩ := hobjects
  exact ⟨t, t', ht, ht', hfull, hright, hbelow, hcorner⟩

/-- After a black tile, a sprite of four cells and two new colors is loaded. -/
theorem load_banded :
    ∃ w w₁, ((start (.ofConfig ⟨130, 5, 1⟩) [.blackTile, .banded]).run [(0, .load)]).outcome =
        .ok w ∧
      w.sprites[1]? = some { texture := .banded } ∧ w.engine.palette.color? 2 = some 0 ∧
      (w.step 1 .load).outcome = .ok (.ok (), w₁) ∧
      w₁.sprites[1]? = some
        { texture := .banded, held := some { slots := [1, 2, 3, 4], colors := [2, 3] } } ∧
      w₁.engine.palette.color? 2 = some 31 ∧ HasBanded w₁.engine.slots := by
  obtain ⟨t, t', ht, ht', hobjects⟩ := takeGrid_banded
  obtain ⟨k, b, hbind, hindices, hcolor⟩ := bindAll_banded
  have hpalette : (Engine.ofConfig ⟨130, 5, 1⟩).palette = .blank := PaletteBank.reset_blank
  have hblack : ((Engine.ofConfig ⟨130, 5, 1⟩).palette.bindAll [0]).outcome =
      .ok (.ok { indices := #[1] }, blackPalette) := by
    rw [hpalette]
    rfl
  have hload := step_load (w := start (.ofConfig ⟨130, 5, 1⟩) [.blackTile, .banded]) (i := 0)
    (s := { texture := .blackTile }) rfl rfl hblack ht
  have hempty : ((start (.ofConfig ⟨130, 5, 1⟩) [.blackTile, .banded]).run []).outcome =
      .ok (start (.ofConfig ⟨130, 5, 1⟩) [.blackTile, .banded]) := rfl
  refine ⟨_, _, run_concat hempty hload, rfl, ?_,
    step_load (i := 1) (s := { texture := .banded }) rfl rfl hbind ht', ?_, hcolor, hobjects⟩
  · exact (PaletteBank.color?_indexOf _ 1).trans (by simp [blackPalette])
  · rw [hindices]
    rfl

/-! ### Failures -/

/-- Wherever a run has led a stage, any call on any sprite has an answer, and if it is refused, then
the engine with all of its memories and every sprite are as they were before. -/
theorem refused_leaves_no_trace (he : Engine.new c = .ok e) (textures : List Texture)
    (calls : List (Nat × Call)) (i : Nat) (call : Call) :
    ∃ w, ((start e textures).run calls).outcome = .ok w ∧
      ∃ answer w', (w.step i call).outcome = .ok (answer, w') ∧
        ∀ cause, answer = .error cause → w' = w := by
  obtain ⟨w, hw, hsound⟩ := exists_run he textures calls
  obtain ⟨-, ⟨answer, w'⟩, hstep, -, hrefused⟩ := step_spec hsound i call
  exact ⟨w, hw, answer, w', hstep, hrefused⟩

/-- The second of two sprites is refused when there is one tile only, after its color was bound. -/
theorem refused_leaves_no_trace_outOfTiles :
    ∃ w, ((start (.ofConfig ⟨1, 2, 1⟩) [.blackTile, .blackTile]).run [(0, .load)]).outcome = .ok w ∧
      (w.step 1 .load).outcome = .ok (.error .outOfTiles, w) := by
  have hanswer : (((start (.ofConfig ⟨1, 2, 1⟩) [.blackTile, .blackTile]).run
      [(0, .load)]).outcome >>= fun w => Prod.fst <$> (w.step 1 .load).outcome) =
        .ok (.error .outOfTiles) := by decide +kernel
  obtain ⟨w, hw, answer, w', hstep, hrefused⟩ := refused_leaves_no_trace (c := ⟨1, 2, 1⟩) rfl
    [.blackTile, .blackTile] [(0, .load)] 1 .load
  rw [hw, Checked.ok_bind, hstep] at hanswer
  obtain rfl : answer = .error .outOfTiles := Except.ok.inj hanswer
  rw [hrefused _ rfl] at hstep
  exact ⟨w, hw, hstep⟩

end Stage

end SpriteEngine
