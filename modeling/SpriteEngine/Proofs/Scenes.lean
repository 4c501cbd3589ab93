import Mathlib.Data.List.ReduceOption
import SpriteEngine.Proofs.Stage
import SpriteEngine.Scene

/-!
# Runs of a scene

A scene is asked to register sprites and to remove them, to load, upload, free and draw them, and to
let somebody change the way they look (`Request`). It may refuse a request, and then the next one
follows. `Scene.serveAll` carries out a list of requests and collects the answers.

`Scene.Sound` is the invariant: the engine is sound with the registered sprites, and the sprites to
be drawn are loaded. `Scene.serve_spec` says that every request keeps it, and by induction so does
every list of requests (`Scene.serveAll_spec`). As the specifications of the operations are of total
correctness, this rules out faults and alarms at the same time: nothing overflows, no index is out
of range, no tile is given back twice, and no sprite that is to be drawn or removed turns out to be
in the wrong state. The one number that has to be watched is that of identifiers, which are never
used again.

Drawing is a pass over the sprites to be drawn (`Scene.pass`). `Scene.pass_yields` is the rule for
what such a pass keeps: a draw changes neither which sprites are registered nor which are loaded
(`Scene.SameRegistry`), so every turn finds its sprite.
-/

namespace SpriteEngine

/-- What can be asked of a scene. -/
inductive Request where
  | add (texture : Texture)
  | remove (id : Nat)
  | load (id : Nat)
  | upload (id frame : Nat)
  | free (id : Nat)
  | draw
  | restyle (id : Nat) (look : Look)

/-- Whether a request is for a new identifier. -/
def Request.isAdd : Request → Bool
  | .add _ => true
  | _ => false

/-- The failure says that a pool or a memory was used in a way that it does not allow, and not that
a request is refused. -/
def PoolError.IsBreach : PoolError → Prop
  | .emptyRange | .transfer _ => True
  | _ => False

namespace Scene

variable {cfg : Config} {c c' : Scene} {e : Engine} {s s' : Sprite} {id : Nat}

/-- Change the look of a sprite, if there is one under the identifier. -/
def restyle (c : Scene) (id : Nat) (look : Look) : Scene :=
  match c.sprite? id with
  | none => c
  | some s => c.setSprite id (s.restyle look)

/-- Carry out a request. -/
def serve (c : Scene) : Request → Traced (Except PoolError Unit × Scene)
  | .add texture => do
    let (_, c) ← c.add { texture }
    return (.ok (), c)
  | .remove id => do
    let (_, c) ← c.remove id
    return (.ok (), c)
  | .load id => c.load id
  | .upload id frame => do
    let (answer, c) ← c.upload id frame
    return (answer.map fun _ => (), c)
  | .free id => c.free id
  | .draw => do
    let c ← c.draw
    return (.ok (), c)
  | .restyle id look => return (.ok (), c.restyle id look)

/-- Carry out requests one after the other, whether or not they are refused, and collect the
answers. -/
def serveAll (c : Scene) : List Request → Traced (List (Except PoolError Unit) × Scene)
  | [] => return ([], c)
  | request :: requests => do
    let (answer, c) ← c.serve request
    let (answers, c) ← c.serveAll requests
    return (answer :: answers, c)

/-! ### The invariant -/

/-- The sprites registered under other identifiers. -/
def others (c : Scene) (id : Nat) : List Sprite :=
  (c.sprites.toList.eraseIdx id).reduceOption

/-- The engine is sound with the registered sprites, and those to be drawn are loaded. -/
structure Sound (cfg : Config) (c : Scene) : Prop where
  engine : c.engine.Sound cfg c.sprites.toList.reduceOption
  active : ∀ id ∈ c.active, c.isLoaded id = true

theorem sprite?_eq_some : c.sprite? id = some s ↔ c.sprites[id]? = some (some s) := by
  rw [sprite?, Option.join_eq_some_iff]

theorem isLoaded_of_sprite? (hs : c.sprite? id = some s) : c.isLoaded id = s.isLoaded := by
  rw [isLoaded, hs]
  rfl

theorem exists_sprite?_of_isLoaded (h : c.isLoaded id = true) :
    ∃ s, c.sprite? id = some s ∧ s.isLoaded = true :=
  Option.any_eq_true _ _ |>.mp h

/-- Replacing one entry of the table, with the entry in front. -/
private theorem reduceOption_set_perm {l : List (Option Sprite)} {i : Nat} (hi : i < l.length)
    (entry : Option Sprite) :
    (l.set i entry).reduceOption.Perm (entry.toList ++ (l.eraseIdx i).reduceOption) := by
  have hperm : (l.set i entry).reduceOption.Perm (entry :: l.eraseIdx i).reduceOption :=
    (List.set_perm_cons_eraseIdx hi entry).filterMap _
  cases entry with
  | none => simpa using hperm
  | some s => simpa using hperm

/-- The engine is sound with what is under an identifier and the other sprites. -/
private theorem Sound.split (h : Sound cfg c) (hid : id < c.sprites.size) :
    c.engine.Sound cfg (c.sprites[id].toList ++ c.others id) := by
  have hperm := reduceOption_set_perm (l := c.sprites.toList) hid c.sprites[id]
  rw [← Array.getElem_toList hid, List.set_getElem_self] at hperm
  exact h.engine.perm hperm

/-- The engine is sound with a registered sprite in front of the others. -/
theorem Sound.front (h : Sound cfg c) (hs : c.sprite? id = some s) :
    c.engine.Sound cfg (s :: c.others id) := by
  obtain ⟨hlt, hget⟩ := Array.getElem?_eq_some_iff.mp (sprite?_eq_some.mp hs)
  have hsplit := h.split hlt
  rwa [hget] at hsplit

/-- The entry of a sprite is replaced, and only ids of loaded sprites are added to those to be
drawn. -/
private theorem Sound.replace (h : Sound cfg c) (hid : id < c.sprites.size) {entry : Option Sprite}
    {active : List Nat} (he : e.Sound cfg (entry.toList ++ c.others id))
    (hactive : ∀ j ∈ active, j ≠ id → j ∈ c.active)
    (hloaded : id ∈ active → entry.any (·.isLoaded) = true) :
    Sound cfg { engine := e, sprites := c.sprites.setIfInBounds id entry, active } where
  engine := by
    rw [Array.toList_setIfInBounds]
    exact he.perm (reduceOption_set_perm hid entry).symm
  active j hj := by
    rw [isLoaded, sprite?, Array.getElem?_setIfInBounds]
    by_cases hji : id = j
    · subst hji
      rw [if_pos rfl, if_pos hid]
      exact hloaded hj
    · rw [if_neg hji]
      exact h.active j (hactive j hj fun heq => hji heq.symm)

private theorem lt_size_of_sprite? (hs : c.sprite? id = some s) : id < c.sprites.size :=
  (Array.getElem?_eq_some_iff.mp (sprite?_eq_some.mp hs)).1

/-- Putting a sprite back as it is changes nothing. -/
theorem setSprite_self (hs : c.sprite? id = some s) : c.setSprite id s = c := by
  obtain ⟨hlt, hget⟩ := Array.getElem?_eq_some_iff.mp (sprite?_eq_some.mp hs)
  have hsprites : c.sprites.setIfInBounds id (some s) = c.sprites := by
    rw [← hget, ← Array.toList_inj, Array.toList_setIfInBounds, ← Array.getElem_toList hlt,
      List.set_getElem_self]
  rw [setSprite, hsprites]

/-- Replacing one sprite leaves the others. -/
theorem sprite?_setSprite (hs : c.sprite? id = some s) (s' : Sprite) (j : Nat) :
    (c.setSprite id s').sprite? j = if id = j then some s' else c.sprite? j := by
  rw [sprite?, setSprite, Array.getElem?_setIfInBounds, if_pos (lt_size_of_sprite? hs)]
  split <;> rfl

theorem texture_setSprite (hs : c.sprite? id = some s) (htexture : s'.texture = s.texture)
    (j : Nat) : ((c.setSprite id s').sprite? j).map Sprite.texture =
      (c.sprite? j).map Sprite.texture := by
  rw [sprite?_setSprite hs]
  split
  · rename_i hj
    rw [← hj, hs, Option.map_some, Option.map_some, htexture]
  · rfl

theorem isLoaded_setSprite (hs : c.sprite? id = some s) (s' : Sprite) (j : Nat) :
    (c.setSprite id s').isLoaded j = if id = j then s'.isLoaded else c.isLoaded j := by
  rw [isLoaded, sprite?_setSprite hs]
  split <;> rfl

/-! ### Requests about one sprite -/

/-- What a request leads to: the scene is sound and has as many entries, and if the request is
refused, then for a good reason. -/
structure Serves {α : Type} (cfg : Config) (c : Scene) (r : Except PoolError α × Scene) :
    Prop where
  sound : Sound cfg r.2
  size : r.2.sprites.size = c.sprites.size
  refused : ∀ cause, r.1 = .error cause → ¬ cause.IsBreach

/-- A request that is refused for a good reason leaves the scene. -/
private theorem Serves.error {α : Type} (h : Sound cfg c) {cause : PoolError}
    (hcause : ¬ cause.IsBreach) :
    Serves cfg c ((.error cause, c) : Except PoolError α × Scene) := by
  refine ⟨h, rfl, ?_⟩
  rintro _ ⟨⟩
  exact hcause

/-- The engine has done its work on a sprite. -/
private theorem Serves.ok {α : Type} (h : Sound cfg c) (hs : c.sprite? id = some s)
    {active : List Nat} (he : e.Sound cfg (s' :: c.others id))
    (hactive : ∀ j ∈ active, j ≠ id → j ∈ c.active)
    (hloaded : id ∈ active → s'.isLoaded = true) (a : α) :
    Serves cfg c (.ok a, { { c with engine := e }.setSprite id s' with active }) where
  sound := h.replace (lt_size_of_sprite? hs) he hactive hloaded
  size := by
    rw [setSprite, Array.size_setIfInBounds]
  refused _ hcause := (nomatch hcause)

/-- Loading is refused and has changed nothing, or the engine has loaded the sprite, which is drawn
last from now on. -/
theorem load_cases (h : Sound cfg c) (id : Nat) :
    (c.load id).Yields fun r => (∃ cause, ¬ cause.IsBreach ∧ r = (.error cause, c)) ∨
      ∃ s e' s', c.sprite? id = some s ∧
        c.engine.Loads s ((c.others id).flatMap Sprite.references) (.ok (), e', s') ∧
        r = (.ok (),
          { { c with engine := e' }.setSprite id s' with active := c.active ++ [id] }) := by
  rw [load]
  cases hs : c.sprite? id with
  | none => exact .pure (.inl ⟨.unknownSprite, fun hbreach => hbreach, rfl⟩)
  | some s =>
    refine (Engine.load_spec (h.front hs)).bind ?_
    rintro ⟨cause | _, e', s'⟩ hl
    · obtain ⟨rfl, rfl, hcause⟩ := hl
      have hbreach : ¬ cause.IsBreach := by
        obtain ⟨-, rfl⟩ | ⟨-, rfl | rfl | rfl⟩ := hcause <;> exact fun hbreach => hbreach
      dsimp only
      rw [setSprite_self hs]
      exact .pure (.inl ⟨cause, hbreach, rfl⟩)
    · exact .pure (.inr ⟨s, e', s', rfl, hl, rfl⟩)

theorem load_spec (h : Sound cfg c) (id : Nat) : (c.load id).Yields (Serves cfg c) := by
  refine (load_cases h id).mono ?_
  rintro _ (⟨cause, hbreach, rfl⟩ | ⟨s, e', s', hs, hl, rfl⟩)
  · exact .error h hbreach
  · refine .ok h hs ((h.front hs).loads hl) ?_ (fun _ => hl.isLoaded) ()
    intro j hj hne
    exact (List.mem_append.mp hj).resolve_right fun hmem => hne (List.mem_singleton.mp hmem)

/-- Uploading is refused and has changed nothing, or the engine has done it. -/
theorem upload_cases (h : Sound cfg c) (id frame : Nat) :
    ∃ r, c.upload id frame = .ok r ∧ ((∃ cause, ¬ cause.IsBreach ∧ r = (.error cause, c)) ∨
      ∃ s e' s' fresh, c.sprite? id = some s ∧
        c.engine.Uploads s frame (.ok fresh, e', s') ∧
        r = (.ok fresh, { c with engine := e' }.setSprite id s')) := by
  rw [upload]
  cases hs : c.sprite? id with
  | none => exact ⟨_, rfl, .inl ⟨.unknownSprite, fun hbreach => hbreach, rfl⟩⟩
  | some s =>
    obtain ⟨⟨cause | fresh, e', s'⟩, hr, hu⟩ := Engine.upload_spec (h.front hs) frame
    · obtain ⟨rfl, rfl, hcause⟩ := hu
      have hbreach : ¬ cause.IsBreach := by
        obtain ⟨-, rfl⟩ | ⟨-, rfl⟩ := hcause <;> exact fun hbreach => hbreach
      refine ⟨(.error cause, c), ?_, .inl ⟨cause, hbreach, rfl⟩⟩
      simp only [hr, Checked.ok_bind]
      rw [setSprite_self hs]
      rfl
    · exact ⟨_, by simp only [hr, Checked.ok_bind]; rfl, .inr ⟨s, e', s', fresh, rfl, hu, rfl⟩⟩

theorem upload_spec (h : Sound cfg c) (id frame : Nat) :
    ∃ r, c.upload id frame = .ok r ∧ Serves cfg c r := by
  obtain ⟨r, hr, ⟨cause, hbreach, rfl⟩ | ⟨s, e', s', fresh, hs, hu, rfl⟩⟩ := upload_cases h id frame
  · exact ⟨_, hr, .error h hbreach⟩
  · exact ⟨_, hr,
      .ok h hs ((h.front hs).uploads hu) (fun j hj _ => hj) (fun _ => hu.isLoaded) fresh⟩

/-- Freeing is refused for a sprite that is not loaded and has changed nothing, or the engine has
freed the sprite, which is not drawn any more. -/
theorem free_cases (h : Sound cfg c) (id : Nat) :
    (c.free id).Yields fun r =>
      (∃ cause, ¬ cause.IsBreach ∧ c.isLoaded id = false ∧ r = (.error cause, c)) ∨
      ∃ s e' s', c.sprite? id = some s ∧
        c.engine.Frees s ((c.others id).flatMap Sprite.references) (.ok (), e', s') ∧
        r = (.ok (),
          { { c with engine := e' }.setSprite id s' with active := c.active.filter (· ≠ id) }) := by
  rw [free]
  cases hs : c.sprite? id with
  | none =>
    have hunloaded : c.isLoaded id = false := by simp [isLoaded, hs]
    exact .pure (.inl ⟨.unknownSprite, fun hbreach => hbreach, hunloaded, rfl⟩)
  | some s =>
    refine (Engine.free_spec (h.front hs)).bind ?_
    rintro ⟨cause | _, e', s'⟩ hf
    · obtain ⟨rfl, rfl, hunloaded, rfl⟩ := hf
      rw [← isLoaded_of_sprite? hs] at hunloaded
      dsimp only
      rw [setSprite_self hs]
      exact .pure (.inl ⟨.notLoaded, fun hbreach => hbreach, hunloaded, rfl⟩)
    · exact .pure (.inr ⟨s, e', s', rfl, hf, rfl⟩)

/-- A sprite that is freed is not loaded any more, and it is freed if it was loaded. -/
theorem free_spec (h : Sound cfg c) (id : Nat) :
    (c.free id).Yields fun r => Serves cfg c r ∧ r.2.isLoaded id = false ∧
      (c.isLoaded id = true → r.1 = .ok ()) := by
  refine (free_cases h id).mono ?_
  rintro _ (⟨cause, hbreach, hunloaded, rfl⟩ | ⟨s, e', s', hs, hf, rfl⟩)
  · exact ⟨.error h hbreach, hunloaded, fun h' => by simp [hunloaded] at h'⟩
  · refine ⟨.ok h hs ((h.front hs).frees hf) ?_ ?_ (), ?_, fun _ => rfl⟩
    · intro j hj _
      exact (List.mem_filter.mp hj).1
    · intro hid
      simp at hid
    · have hlt := lt_size_of_sprite? hs
      simpa [isLoaded, sprite?, setSprite, hlt] using hf.isLoaded

/-! ### Removing -/

/-- After this step of a removal the sprite is not loaded, whether or not it was before. -/
theorem unload_spec (h : Sound cfg c) (id : Nat) :
    (c.unload id).Yields fun c' => Sound cfg c' ∧ c'.sprites.size = c.sprites.size ∧
      c'.isLoaded id = false := by
  rw [unload]
  split
  · rename_i hloaded
    refine (free_spec h id).bind ?_
    rintro ⟨answer, c'⟩ ⟨hserves, hunloaded, hok⟩
    -- what is loaded can be freed, so that nothing has to be reported
    obtain rfl := hok hloaded
    exact .pure ⟨hserves.sound, hserves.size, hunloaded⟩
  · rename_i hloaded
    exact .pure ⟨h, rfl, by simpa using hloaded⟩

/-- The entry of a sprite that is not loaded can be emptied. -/
private theorem Sound.clear (h : Sound cfg c) (hunloaded : c.isLoaded id = false) :
    Sound cfg { c with sprites := c.sprites.setIfInBounds id none } := by
  by_cases hid : id < c.sprites.size
  · refine h.replace hid ?_ (fun j hj _ => hj) ?_
    · have hsplit := h.split hid
      -- whether or not the entry is empty already, the others are all that is loaded
      cases hs : c.sprites[id] with
      | none => rwa [hs] at hsplit
      | some s =>
        have hheld : s.held = none := by
          rw [isLoaded_of_sprite? (sprite?_eq_some.mpr (hs ▸ Array.getElem?_eq_getElem hid))]
            at hunloaded
          simpa [Sprite.isLoaded] using hunloaded
        rw [hs] at hsplit
        exact (Engine.sound_cons_iff hheld).mp hsplit
    · intro hactive
      simp [h.active id hactive] at hunloaded
  · rwa [Array.setIfInBounds_eq_of_size_le (Nat.not_lt.mp hid)]

/-- Removing a sprite. Its place stays, without a sprite. -/
theorem remove_spec (h : Sound cfg c) (id : Nat) :
    (c.remove id).Yields fun r => Sound cfg r.2 ∧ r.2.sprites.size = c.sprites.size := by
  rw [remove]
  refine (unload_spec h id).bind fun c' hc' => .pure ⟨hc'.1.clear hc'.2.2, ?_⟩
  rw [Array.size_setIfInBounds, hc'.2.1]

/-! ### Drawing -/

/-- The sprites have the same textures, and the same ones are loaded and to be drawn. -/
structure SameRegistry (c c' : Scene) : Prop where
  size : c'.sprites.size = c.sprites.size
  active : c'.active = c.active
  texture : ∀ id, (c'.sprite? id).map Sprite.texture = (c.sprite? id).map Sprite.texture
  loaded : ∀ id, c'.isLoaded id = c.isLoaded id

theorem SameRegistry.refl (c : Scene) : SameRegistry c c :=
  ⟨rfl, rfl, fun _ => rfl, fun _ => rfl⟩

theorem SameRegistry.trans {c'' : Scene} (h : SameRegistry c c') (h' : SameRegistry c' c'') :
    SameRegistry c c'' where
  size := h'.size.trans h.size
  active := h'.active.trans h.active
  texture id := (h'.texture id).trans (h.texture id)
  loaded id := (h'.loaded id).trans (h.loaded id)

/-- The sprite has the same texture and is loaded or not, as before. -/
theorem SameRegistry.setSprite (hs : c.sprite? id = some s) (htexture : s'.texture = s.texture)
    (hloaded : s'.isLoaded = s.isLoaded) (e : Engine) :
    SameRegistry c ({ c with engine := e }.setSprite id s') where
  size := Array.size_setIfInBounds
  active := rfl
  texture j := texture_setSprite (c := { c with engine := e }) hs htexture j
  loaded j := by
    rw [isLoaded_setSprite (c := { c with engine := e }) hs]
    split
    · rename_i hj
      rw [← hj, isLoaded_of_sprite? hs, hloaded]
    · rfl

/-- A sprite that is loaded can be drawn, and the engine has done it. -/
theorem drawSprite_cases (h : Sound cfg c) (hs : c.sprite? id = some s)
    (hloaded : s.isLoaded = true) :
    (c.drawSprite id).Yields fun c' => ∃ e' s',
      c.engine.Draws s ((c.others id).filterMap Sprite.heldGroup) (.ok (), e', s') ∧
      c' = { c with engine := e' }.setSprite id s' := by
  rw [drawSprite, hs]
  refine (Engine.draw_spec (h.front hs)).bind ?_
  rintro ⟨cause | _, e', s'⟩ hd
  · exact absurd (hloaded.symm.trans hd.2.2.1) (by simp)
  · exact .pure ⟨e', s', hd, rfl⟩

theorem Sound.draws (h : Sound cfg c) (hs : c.sprite? id = some s)
    (hd : c.engine.Draws s ((c.others id).filterMap Sprite.heldGroup) (.ok (), e, s')) :
    Sound cfg ({ c with engine := e }.setSprite id s') :=
  h.replace (lt_size_of_sprite? hs) ((h.front hs).draws hd) (fun _ hj _ => hj) fun _ => hd.isLoaded

/-- The sprites in a list are drawn one after the other. -/
def pass (c : Scene) (ids : List Nat) : Traced Scene :=
  ids.foldlM drawSprite c

theorem pass_cons (c : Scene) (id : Nat) (ids : List Nat) :
    c.pass (id :: ids) = c.drawSprite id >>= fun c => c.pass ids :=
  List.foldlM_cons ..

theorem pass_append (c : Scene) (ids ids' : List Nat) :
    c.pass (ids ++ ids') = c.pass ids >>= fun c => c.pass ids' :=
  List.foldlM_append ..

/-- The rule for passes: `I ids c` holds of the scene `c` when the sprites in `ids` are left to be
drawn. They stay loaded until then, because drawing keeps the registry. -/
theorem pass_yields (I : List Nat → Scene → Prop)
    (hstep : ∀ id left c s e' s', Sound cfg c → c.sprite? id = some s →
      c.engine.Draws s ((c.others id).filterMap Sprite.heldGroup) (.ok (), e', s') →
      I (id :: left) c → I left ({ c with engine := e' }.setSprite id s'))
    {ids : List Nat} (hc : Sound cfg c) (hids : ∀ id ∈ ids, c.isLoaded id = true) (hI : I ids c) :
    (c.pass ids).Yields fun c' => Sound cfg c' ∧ SameRegistry c c' ∧ I [] c' := by
  induction ids generalizing c with
  | nil => exact .pure ⟨hc, .refl c, hI⟩
  | cons id ids ih =>
    obtain ⟨s, hs, hloaded⟩ := exists_sprite?_of_isLoaded (hids id List.mem_cons_self)
    rw [pass_cons]
    refine (drawSprite_cases hc hs hloaded).bind ?_
    rintro _ ⟨e', s', hd, rfl⟩
    have hsound := hc.draws hs hd
    have hsame := SameRegistry.setSprite hs hd.texture (hd.isLoaded.trans hloaded.symm) e'
    refine (ih hsound (fun j hj => ?_) (hstep id ids c s e' s' hc hs hd hI)).mono ?_
    · rw [hsame.loaded]
      exact hids j (List.mem_cons_of_mem id hj)
    · rintro c' ⟨hc', hsame', hI'⟩
      exact ⟨hc', hsame.trans hsame', hI'⟩

theorem draw_spec (h : Sound cfg c) :
    c.draw.Yields fun c' => Sound cfg c' ∧ SameRegistry c c' := by
  refine (pass_yields (fun _ _ => True) (fun _ _ _ _ _ _ _ _ _ _ => trivial) h h.active
    trivial).mono fun c' hc' => ⟨hc'.1, hc'.2.1⟩

/-! ### Registering -/

/-- A new sprite gets an identifier, as long as there are fewer than 32 bits can count. -/
theorem add_spec (h : Sound cfg c) (hs : s.held = none) (hroom : c.sprites.size + 1 < 4294967296) :
    ∃ r, c.add s = .ok r ∧ Sound cfg r.2 ∧ r.2.sprites.size = c.sprites.size + 1 := by
  refine ⟨_, if_pos hroom, ⟨?_, fun id hid => ?_⟩, Array.size_push _⟩
  · -- the new sprite comes last, and it is not loaded
    have hperm : (s :: c.sprites.toList.reduceOption).Perm
        (c.sprites.push (some s)).toList.reduceOption := by
      rw [Array.toList_push, List.reduceOption_append]
      exact (List.perm_append_singleton s _).symm
    exact ((Engine.sound_cons_iff hs).mpr h.engine).perm hperm
  · have hloaded := h.active id hid
    obtain ⟨s', hs', -⟩ := exists_sprite?_of_isLoaded hloaded
    have hlt := lt_size_of_sprite? hs'
    rwa [isLoaded, sprite?, Array.getElem?_push_lt hlt, ← Array.getElem?_eq_getElem hlt]

/-- The look of a sprite is of no concern to the engine. -/
private theorem Sound.restyle (h : Sound cfg c) (id : Nat) (look : Look) :
    Sound cfg (c.restyle id look) ∧ (c.restyle id look).sprites.size = c.sprites.size := by
  rw [Scene.restyle]
  cases hs : c.sprite? id with
  | none => exact ⟨h, rfl⟩
  | some s =>
    refine ⟨h.replace (lt_size_of_sprite? hs) ((h.front hs).restyle rfl rfl) (fun j hj _ => hj) ?_,
      Array.size_setIfInBounds ..⟩
    intro hid
    have hloaded := h.active id hid
    rwa [isLoaded_of_sprite? hs] at hloaded

/-! ### All requests -/

/-- A request keeps the scene sound, and one that is refused is refused for a good reason. -/
theorem serve_spec (h : Sound cfg c) (request : Request)
    (hroom : c.sprites.size + request.isAdd.toNat < 4294967296) :
    (c.serve request).Yields fun r => Sound cfg r.2 ∧
      r.2.sprites.size = c.sprites.size + request.isAdd.toNat ∧
      ∀ cause, r.1 = .error cause → ¬ cause.IsBreach := by
  cases request with
  | add texture =>
    refine (Traced.Yields.lift (add_spec h rfl hroom)).bind fun r hr => .pure ?_
    exact ⟨hr.1, hr.2, fun _ hcause => (nomatch hcause)⟩
  | remove id =>
    refine (remove_spec h id).bind fun r hr => .pure ?_
    exact ⟨hr.1, hr.2, fun _ hcause => (nomatch hcause)⟩
  | load id => exact (load_spec h id).mono fun r hr => ⟨hr.sound, hr.size, hr.refused⟩
  | upload id frame =>
    refine (Traced.Yields.lift (upload_spec h id frame)).bind ?_
    rintro ⟨cause | fresh, c'⟩ hr
    · refine .pure ⟨hr.sound, hr.size, ?_⟩
      rintro _ ⟨⟩
      exact hr.refused cause rfl
    · exact .pure ⟨hr.sound, hr.size, fun _ hcause => (nomatch hcause)⟩
  | free id => exact (free_spec h id).mono fun r hr => ⟨hr.1.sound, hr.1.size, hr.1.refused⟩
  | draw =>
    refine (draw_spec h).bind fun c' hc' => .pure ?_
    exact ⟨hc'.1, hc'.2.size, fun _ hcause => (nomatch hcause)⟩
  | restyle id look =>
    obtain ⟨hsound, hsize⟩ := h.restyle id look
    exact .pure ⟨hsound, hsize, fun _ hcause => (nomatch hcause)⟩

/-- By induction along the requests: the scene stays sound, and no refusal comes from a broken
invariant. -/
theorem serveAll_spec (h : Sound cfg c) (requests : List Request)
    (hroom : c.sprites.size + requests.countP Request.isAdd < 4294967296) :
    (c.serveAll requests).Yields fun r => Sound cfg r.2 ∧
      ∀ cause, .error cause ∈ r.1 → ¬ cause.IsBreach := by
  induction requests generalizing c with
  | nil => exact .pure ⟨h, fun _ hcause => absurd hcause List.not_mem_nil⟩
  | cons request requests ih =>
    have hcount : (request :: requests).countP Request.isAdd =
        requests.countP Request.isAdd + request.isAdd.toNat := by
      cases hadd : request.isAdd <;> simp [hadd]
    rw [hcount] at hroom
    rw [serveAll]
    refine (serve_spec h request (by omega)).bind ?_
    rintro ⟨answer, c₁⟩ ⟨hsound, hsize, hrefused⟩
    have hroom₁ : c₁.sprites.size + requests.countP Request.isAdd < 4294967296 := by
      dsimp only at hsize
      omega
    refine (ih hsound hroom₁).bind ?_
    rintro ⟨answers, c₂⟩ ⟨hsound₂, hrefused₂⟩
    refine .pure ⟨hsound₂, ?_⟩
    intro cause hcause
    rcases List.mem_cons.mp hcause with heq | hmem
    · exact hrefused cause heq.symm
    · exact hrefused₂ cause hmem

theorem exists_engine_of_new (hc : Scene.new cfg = .ok c) :
    ∃ e, Engine.new cfg = .ok e ∧ c = { engine := e } := by
  rw [Scene.new] at hc
  cases he : Engine.new cfg with
  | error cause => simp [he, bind, Except.bind] at hc
  | ok e => exact ⟨e, rfl, by simpa [he, bind, Except.bind, pure, Except.pure, eq_comm] using hc⟩

theorem Sound.new (hc : Scene.new cfg = .ok c) : Sound cfg c ∧ c.sprites.size = 0 := by
  obtain ⟨e, he, rfl⟩ := exists_engine_of_new hc
  exact ⟨⟨Engine.Sound.new he (by simp), by simp⟩, rfl⟩

/-- Whatever is asked of a new scene, it does not fault and raises no alarm, and no request is
answered by a breach, as long as there are fewer sprites than 32-bit numbers. -/
theorem serveAll_unbroken (hc : Scene.new cfg = .ok c) (requests : List Request)
    (hadds : requests.countP Request.isAdd < 4294967296) :
    (∃ answers c', (c.serveAll requests).outcome = .ok (answers, c') ∧
      ∀ cause, .error cause ∈ answers → ¬ cause.IsBreach) ∧
      ∀ event ∈ (c.serveAll requests).events, ¬ event.IsAlarm := by
  obtain ⟨hsound, hsize⟩ := Sound.new hc
  obtain ⟨hquiet, ⟨answers, c'⟩, houtcome, -, hrefused⟩ :=
    serveAll_spec hsound requests (by omega)
  exact ⟨⟨answers, c', houtcome, hrefused⟩, hquiet⟩

/-- Two sprites take turns on one tile. -/
theorem serveAll_unbroken_oneTile :
    let requests : List Request := [.add .blackTile, .add .blackTile, .load 0, .load 1, .upload 0 9,
      .draw, .remove 0, .load 1, .free 0]
    ∃ c', (Scene.serveAll { engine := .ofConfig ⟨1, 2, 1⟩ } requests).outcome =
      .ok ([.ok (), .ok (), .ok (), .error .outOfTiles, .error (.invalidFrame 9 1), .ok (), .ok (),
        .ok (), .error .unknownSprite], c') ∧
      ∀ event ∈ (Scene.serveAll { engine := .ofConfig ⟨1, 2, 1⟩ } requests).events,
        ¬ event.IsAlarm := by
  intro requests
  have hanswers : Prod.fst <$>
      (Scene.serveAll { engine := .ofConfig ⟨1, 2, 1⟩ } requests).outcome = .ok [.ok (), .ok (),
        .ok (), .error .outOfTiles, .error (.invalidFrame 9 1), .ok (), .ok (), .ok (),
          .error .unknownSprite] := by decide +kernel
  have hnew : Scene.new ⟨1, 2, 1⟩ = .ok { engine := .ofConfig ⟨1, 2, 1⟩ } := rfl
  obtain ⟨⟨answers, c', houtcome, -⟩, hquiet⟩ := serveAll_unbroken hnew requests (by decide)
  rw [houtcome] at hanswers
  obtain rfl := Except.ok.inj hanswers
  exact ⟨c', houtcome, hquiet⟩

end Scene

end SpriteEngine
