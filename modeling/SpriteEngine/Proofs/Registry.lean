import Mathlib.Data.List.Dedup
import SpriteEngine.Proofs.Scenes

/-!
# Identifiers and the order of drawing

A scene keeps three things in step: the table of registered sprites, the list of those to be drawn,
and in each sprite whether it is loaded. What they should be follows from the `History` of a scene,
the requests so far with the replies to them: which identifiers were given out (`History.issued`)
and taken back (`History.withdrawn`), and which sprites were loaded, and in which order
(`History.loads`). `Scene.Orderly` says that the scene is as its history tells. The sprites to be
drawn are those of `History.loads` that are loaded still, each at the place of its last load, which
is the one that `List.dedup` keeps.

`Scene.respond` is `Scene.serve` with the full replies. Each request adds one line to the history,
and the lemmas on `Scene.Orderly` say what that takes: nothing that the history tells of has changed
(`Scene.Orderly.same`), or a sprite was added, loaded, unloaded or removed.
-/

namespace SpriteEngine

/-! ### Replies -/

/-- What a scene replies to a request. -/
inductive Reply where
  | registered (id : Nat)
  | removed (sprite : Option Sprite)
  | loaded (answer : Except PoolError Unit)
  | uploaded (answer : Except PoolError Bool)
  | freed (answer : Except PoolError Unit)
  | done

/-- Whether a request was carried out. -/
def Reply.verdict : Reply → Except PoolError Unit
  | .loaded answer => answer
  | .uploaded answer => answer.map fun _ => ()
  | .freed answer => answer
  | _ => .ok ()

/-- The requests to a scene, in order, with the replies. -/
abbrev History :=
  List (Request × Reply)

namespace History

/-- The identifiers that were given out. -/
def issued (h : History) : List Nat :=
  h.filterMap fun
    | (_, .registered id) => some id
    | _ => none

/-- The identifiers of the sprites that were removed. -/
def withdrawn (h : History) : List Nat :=
  h.filterMap fun
    | (.remove id, .removed (some _)) => some id
    | _ => none

/-- The identifiers of the sprites that were loaded, for each time that this happened. -/
def loads (h : History) : List Nat :=
  h.filterMap fun
    | (.load id, .loaded (.ok ())) => some id
    | _ => none

variable {h h' : History}

@[simp] theorem issued_append : issued (h ++ h') = h.issued ++ h'.issued :=
  List.filterMap_append

@[simp] theorem withdrawn_append : withdrawn (h ++ h') = h.withdrawn ++ h'.withdrawn :=
  List.filterMap_append

@[simp] theorem loads_append : loads (h ++ h') = h.loads ++ h'.loads :=
  List.filterMap_append

end History

namespace Scene

variable {cfg : Config} {c c' : Scene} {e : Engine} {s s' : Sprite} {id : Nat} {h h' : History}

/-- Carry out a request and reply to it. -/
def respond (c : Scene) : Request → Traced (Reply × Scene)
  | .add texture => do
    let (id, c) ← c.add { texture }
    return (.registered id, c)
  | .remove id => do
    let (sprite, c) ← c.remove id
    return (.removed sprite, c)
  | .load id => do
    let (answer, c) ← c.load id
    return (.loaded answer, c)
  | .upload id frame => do
    let (answer, c) ← c.upload id frame
    return (.uploaded answer, c)
  | .free id => do
    let (answer, c) ← c.free id
    return (.freed answer, c)
  | .draw => do
    return (.done, ← c.draw)
  | .restyle id look => return (.done, c.restyle id look)

/-- Carry out requests one after the other and write down the replies. -/
def converse (c : Scene) : List Request → Traced (History × Scene)
  | [] => return ([], c)
  | request :: requests => do
    let (reply, c) ← c.respond request
    let (h, c) ← c.converse requests
    return ((request, reply) :: h, c)

/-- Serving a request is answering it and looking only at whether it worked. -/
private theorem serve_eq_respond (c : Scene) (request : Request) :
    c.serve request = (fun r => (r.1.verdict, r.2)) <$> c.respond request := by
  cases request <;> simp [serve, respond, Reply.verdict]

private theorem serveAll_eq_converse (c : Scene) (requests : List Request) :
    c.serveAll requests =
      (fun r => (r.1.map fun line => line.2.verdict, r.2)) <$> c.converse requests := by
  induction requests generalizing c with
  | nil => simp [serveAll, converse]
  | cons request requests ih => simp [serveAll, converse, serve_eq_respond, ih]

/-! ### The scene and its history -/

private theorem restyle_sameRegistry (c : Scene) (id : Nat) (look : Look) :
    SameRegistry c (c.restyle id look) := by
  rw [restyle]
  cases hs : c.sprite? id with
  | none => exact .refl c
  | some s =>
    have htexture : (s.restyle look).texture = s.texture := rfl
    exact .setSprite hs htexture rfl c.engine

/-- The scene is as its history tells. -/
structure Orderly (h : History) (c : Scene) : Prop where
  /-- Identifiers are counted up. -/
  issued : h.issued = List.range c.sprites.size
  /-- Only what was given out can be taken back. -/
  withdrawn : h.withdrawn ⊆ h.issued
  registered : ∀ id, (c.sprite? id).isSome ↔ id ∈ h.issued ∧ id ∉ h.withdrawn
  /-- An identifier leads to the sprite that was registered under it. -/
  origin : ∀ id s, c.sprite? id = some s → (.add s.texture, .registered id) ∈ h
  loaded : ∀ id, c.isLoaded id = true → id ∈ h.loads
  /-- The loaded sprites are drawn in the order in which they were last loaded. -/
  active : c.active = h.loads.dedup.filter c.isLoaded

/-- No sprite is in the draw order twice. -/
theorem Orderly.nodup_active (ho : Orderly h c) : c.active.Nodup := by
  rw [ho.active]
  exact (List.nodup_dedup _).filter _

/-- The sprites in the draw order are those that are loaded. -/
theorem Orderly.mem_active_iff (ho : Orderly h c) : id ∈ c.active ↔ c.isLoaded id = true := by
  rw [ho.active, List.mem_filter, List.mem_dedup]
  exact ⟨fun hid => hid.2, fun hid => ⟨ho.loaded id hid, hid⟩⟩

/-- The sprites are the same ones, and the history agrees about those that are loaded. -/
private theorem Orderly.revise (ho : Orderly h c) (hissued : h'.issued = h.issued)
    (hwithdrawn : h'.withdrawn = h.withdrawn) (hsub : h ⊆ h')
    (hsize : c'.sprites.size = c.sprites.size)
    (htexture : ∀ id, (c'.sprite? id).map Sprite.texture = (c.sprite? id).map Sprite.texture)
    (hloaded : ∀ id, c'.isLoaded id = true → id ∈ h'.loads)
    (hactive : c'.active = h'.loads.dedup.filter c'.isLoaded) : Orderly h' c' where
  issued := by rw [hissued, ho.issued, hsize]
  withdrawn := by
    rw [hissued, hwithdrawn]
    exact ho.withdrawn
  registered id := by
    have hsome : (c'.sprite? id).isSome = (c.sprite? id).isSome := by
      simpa using congrArg Option.isSome (htexture id)
    rw [hsome, ho.registered, hissued, hwithdrawn]
  origin id s hs := by
    have hs' := htexture id
    rw [hs, Option.map_some, eq_comm, Option.map_eq_some_iff] at hs'
    obtain ⟨s₀, hs₀, heq⟩ := hs'
    exact hsub (heq ▸ ho.origin id s₀ hs₀)
  loaded := hloaded
  active := hactive

/-- Where no sprite comes, goes, is loaded or freed, the registry stays in order. -/
theorem Orderly.same (ho : Orderly h c) (hsame : SameRegistry c c') : Orderly h c' := by
  refine ho.revise rfl rfl (List.Subset.refl h) hsame.size hsame.texture ?_ ?_
  · exact fun id hid => ho.loaded id (hsame.loaded id ▸ hid)
  · rw [hsame.active, ho.active]
    exact List.filter_congr fun id _ => (hsame.loaded id).symm

/-- A line of the history that tells nothing about the registry. -/
private theorem Orderly.skip (ho : Orderly h c) {line : Request × Reply}
    (hissued : History.issued [line] = []) (hwithdrawn : History.withdrawn [line] = [])
    (hloads : History.loads [line] = []) : Orderly (h ++ [line]) c := by
  have hl : History.loads (h ++ [line]) = h.loads := by
    rw [History.loads_append, hloads, List.append_nil]
  refine ho.revise ?_ ?_ (List.subset_append_left ..) rfl (fun _ => rfl) (hl ▸ ho.loaded)
    (hl ▸ ho.active)
  · rw [History.issued_append, hissued, List.append_nil]
  · rw [History.withdrawn_append, hwithdrawn, List.append_nil]

/-! ### Requests that change the registry -/

/-- What is appended takes the place of what was there before. -/
private theorem dedup_concat (l : List Nat) (a : Nat) :
    (l ++ [a]).dedup = l.dedup.filter (· ≠ a) ++ [a] := by
  induction l with
  | nil => simp
  | cons b l ih =>
    rw [List.cons_append]
    by_cases hb : b ∈ l
    · rw [List.dedup_cons_of_mem (List.mem_append_left _ hb), List.dedup_cons_of_mem hb, ih]
    · rw [List.dedup_cons_of_notMem hb]
      by_cases hba : b = a
      · rw [List.dedup_cons_of_mem (by simp [hba]), ih, List.filter_cons_of_neg (by simp [hba])]
      · rw [List.dedup_cons_of_notMem (by simp [hb, hba]), ih,
          List.filter_cons_of_pos (by simp [hba]), List.cons_append]

/-- A sprite that was not loaded is loaded, and goes to the end. -/
private theorem Orderly.load (ho : Orderly h c) (hunloaded : c.isLoaded id = false)
    (hsize : c'.sprites.size = c.sprites.size)
    (htexture : ∀ j, (c'.sprite? j).map Sprite.texture = (c.sprite? j).map Sprite.texture)
    (hloaded : ∀ j, c'.isLoaded j = if id = j then true else c.isLoaded j)
    (hactive : c'.active = c.active ++ [id]) :
    Orderly (h ++ [(.load id, .loaded (.ok ()))]) c' := by
  have hloads : History.loads (h ++ [(.load id, .loaded (.ok ()))]) = h.loads ++ [id] :=
    History.loads_append
  refine ho.revise ?_ ?_ (List.subset_append_left ..) hsize htexture ?_ ?_
  · rw [History.issued_append]
    exact List.append_nil _
  · rw [History.withdrawn_append]
    exact List.append_nil _
  · intro j hj
    rw [hloads, List.mem_append, List.mem_singleton]
    by_cases hid : id = j
    · exact .inr hid.symm
    · rw [hloaded, if_neg hid] at hj
      exact .inl (ho.loaded j hj)
  · have hkept : (h.loads.dedup.filter (· ≠ id)).filter c'.isLoaded = c.active := by
      rw [ho.active, List.filter_filter]
      refine List.filter_congr fun j _ => ?_
      rw [hloaded]
      by_cases hid : id = j
      · simp [← hid, hunloaded]
      · simp [hid, Ne.symm hid]
    have hlast : [id].filter c'.isLoaded = [id] :=
      List.filter_cons_of_pos ((hloaded id).trans (if_pos rfl))
    rw [hloads, dedup_concat, List.filter_append, hkept, hlast, hactive]

/-- A sprite is not loaded any more, and not drawn. -/
private theorem Orderly.unload (ho : Orderly h c) (hsize : c'.sprites.size = c.sprites.size)
    (htexture : ∀ j, (c'.sprite? j).map Sprite.texture = (c.sprite? j).map Sprite.texture)
    (hloaded : ∀ j, c'.isLoaded j = if id = j then false else c.isLoaded j)
    (hactive : c'.active = c.active.filter (· ≠ id)) : Orderly h c' := by
  refine ho.revise rfl rfl (List.Subset.refl h) hsize htexture (fun j hj => ?_) ?_
  · by_cases hid : id = j
    · simp [hloaded, hid] at hj
    · rw [hloaded, if_neg hid] at hj
      exact ho.loaded j hj
  · rw [hactive, ho.active, List.filter_filter]
    refine List.filter_congr fun j _ => ?_
    rw [hloaded]
    by_cases hid : id = j
    · simp [hid]
    · simp [hid, Ne.symm hid]

private theorem sprite?_clear (c : Scene) (id j : Nat) :
    sprite? { c with sprites := c.sprites.setIfInBounds id none } j =
      if id = j then none else c.sprite? j := by
  rw [sprite?, Array.getElem?_setIfInBounds]
  split
  · split <;> rfl
  · rfl

/-- A sprite that is not loaded is removed. -/
private theorem Orderly.withdraw (ho : Orderly h c) (hs : c.sprite? id = some s)
    (hunloaded : s.isLoaded = false) : Orderly (h ++ [(.remove id, .removed (some s))])
      { c with sprites := c.sprites.setIfInBounds id none } := by
  have hissued : History.issued (h ++ [(.remove id, .removed (some s))]) = h.issued := by
    rw [History.issued_append]
    exact List.append_nil _
  have hwithdrawn : History.withdrawn (h ++ [(.remove id, .removed (some s))]) =
      h.withdrawn ++ [id] :=
    History.withdrawn_append
  have hloads : History.loads (h ++ [(.remove id, .removed (some s))]) = h.loads := by
    rw [History.loads_append]
    exact List.append_nil _
  have hloaded : ∀ j, isLoaded { c with sprites := c.sprites.setIfInBounds id none } j =
      c.isLoaded j := by
    intro j
    rw [isLoaded, sprite?_clear]
    split
    · rename_i hj
      rw [← hj, isLoaded_of_sprite? hs, hunloaded]
      rfl
    · rfl
  refine ⟨?_, ?_, fun j => ?_, fun j s' hs' => ?_, ?_, ?_⟩
  · rw [hissued, ho.issued, Array.size_setIfInBounds]
  · rw [hissued, hwithdrawn]
    have hid := ((ho.registered id).mp (by rw [hs]; rfl)).1
    exact List.append_subset.mpr ⟨ho.withdrawn, List.cons_subset.mpr ⟨hid, List.nil_subset _⟩⟩
  · rw [hissued, hwithdrawn, sprite?_clear, List.mem_append, List.mem_singleton]
    split
    · rename_i hj
      exact iff_of_false (by simp) fun hmem => hmem.2 (.inr hj.symm)
    · rename_i hj
      rw [ho.registered, or_iff_left (Ne.symm hj)]
  · rw [sprite?_clear] at hs'
    split at hs'
    · simp at hs'
    · exact List.mem_append_left _ (ho.origin j s' hs')
  · rw [hloads]
    exact fun j hj => ho.loaded j (hloaded j ▸ hj)
  · rw [hloads]
    exact ho.active.trans (List.filter_congr fun j _ => (hloaded j).symm)

private theorem sprite?_push (c : Scene) (s : Sprite) (j : Nat) :
    sprite? { c with sprites := c.sprites.push (some s) } j =
      if j = c.sprites.size then some s else c.sprite? j := by
  rw [sprite?, Array.getElem?_push]
  split <;> rfl

/-- A sprite that is not loaded is registered under the next identifier. -/
private theorem Orderly.add (ho : Orderly h c) (texture : Texture) :
    Orderly (h ++ [(.add texture, .registered c.sprites.size)])
      { c with sprites := c.sprites.push (some { texture }) } := by
  have hnone : c.sprite? c.sprites.size = none := by simp [sprite?]
  have hloaded : ∀ id, isLoaded { c with sprites := c.sprites.push (some { texture }) } id =
      c.isLoaded id := by
    intro id
    rw [isLoaded, sprite?_push]
    split
    · rename_i hid
      rw [hid, isLoaded, hnone]
      rfl
    · rfl
  have hissued : History.issued (h ++ [(.add texture, .registered c.sprites.size)]) =
      h.issued ++ [c.sprites.size] :=
    History.issued_append
  have hwithdrawn : History.withdrawn (h ++ [(.add texture, .registered c.sprites.size)]) =
      h.withdrawn := by
    rw [History.withdrawn_append]
    exact List.append_nil _
  have hloads : History.loads (h ++ [(.add texture, .registered c.sprites.size)]) = h.loads := by
    rw [History.loads_append]
    exact List.append_nil _
  refine ⟨?_, ?_, fun id => ?_, fun id s hs => ?_, ?_, ?_⟩
  · rw [hissued, ho.issued, Array.size_push, List.range_succ]
  · rw [hissued, hwithdrawn]
    exact List.Subset.trans ho.withdrawn (List.subset_append_left ..)
  · rw [hissued, hwithdrawn, sprite?_push, List.mem_append, List.mem_singleton]
    split
    · rename_i hid
      -- the identifier is new, so it has not been taken back either
      have hnew : id ∉ h.withdrawn := by
        intro hmem
        have hlt := ho.withdrawn hmem
        rw [ho.issued, List.mem_range] at hlt
        omega
      exact iff_of_true rfl ⟨.inr hid, hnew⟩
    · rename_i hid
      rw [ho.registered, or_iff_left hid]
  · rw [sprite?_push] at hs
    split at hs
    · rename_i hid
      obtain rfl := Option.some.inj hs
      rw [hid]
      exact List.mem_append_right _ List.mem_cons_self
    · exact List.mem_append_left _ (ho.origin id s hs)
  · rw [hloads]
    exact fun id hid => ho.loaded id (hloaded id ▸ hid)
  · rw [hloads]
    exact ho.active.trans (List.filter_congr fun id _ => (hloaded id).symm)

/-! ### Requests that are about nobody -/

/-- What is asked about an identifier without a sprite is refused, and nothing changes. -/
structure Ignores (c : Scene) (id : Nat) : Prop where
  load : c.load id = pure (.error .unknownSprite, c)
  upload : ∀ frame, c.upload id frame = .ok (.error .unknownSprite, c)
  free : c.free id = pure (.error .unknownSprite, c)
  remove : c.remove id = pure (none, c)

private theorem setIfInBounds_none (hs : c.sprite? id = none) :
    c.sprites.setIfInBounds id none = c.sprites := by
  by_cases hid : id < c.sprites.size
  · rw [sprite?, Array.getElem?_eq_getElem hid, Option.join_some] at hs
    rw [← hs, Array.setIfInBounds_def, dif_pos hid, Array.set_getElem_self]
  · exact Array.setIfInBounds_eq_of_size_le (Nat.not_lt.mp hid)

/-- What is asked about an identifier without a sprite is answered before anything is touched. -/
private theorem ignores_of_none (hs : c.sprite? id = none) : c.Ignores id where
  load := by rw [load, hs]
  upload frame := by rw [upload, hs]; rfl
  free := by rw [free, hs]
  remove := by
    have hunloaded : c.isLoaded id = false := by rw [isLoaded, hs]; rfl
    rw [remove, unload, if_neg (by simp [hunloaded]), pure_bind, hs, setIfInBounds_none hs]

/-- Removing a sprite hands it back unloaded, and leaves the scene as freeing it does, except that
there is no sprite under the identifier any more. -/
def Surrenders (c : Scene) (id : Nat) (s : Sprite) : Prop :=
  ∃ answer c₁, (c.free id).outcome = .ok (answer, c₁) ∧
    (c.remove id).outcome = .ok (some { s with held := none },
      { c₁ with sprites := c₁.sprites.setIfInBounds id none })

/-- A removal frees the sprite first, and without a leak. -/
private theorem Sound.surrenders (h : Sound cfg c) (hs : c.sprite? id = some s) :
    c.Surrenders id s := by
  obtain ⟨-, r, hr, hcases⟩ := free_cases h id
  obtain ⟨cause, -, hunloaded, rfl⟩ | ⟨s₀, e', s', hs₀, hf, rfl⟩ := hcases
  · refine ⟨_, _, hr, ?_⟩
    have hheld : s.held = none := by
      rw [isLoaded_of_sprite? hs] at hunloaded
      simpa [Sprite.isLoaded] using hunloaded
    rw [remove, unload, if_neg (by simp [hunloaded]), pure_bind, hs, ← hheld]
    rfl
  · obtain rfl := Option.some.inj (hs.symm.trans hs₀)
    refine ⟨_, _, hr, ?_⟩
    have hloaded : c.isLoaded id = true := by
      rw [isLoaded_of_sprite? hs]
      obtain ⟨held, hheld, -⟩ := hf
      rw [Sprite.isLoaded, hheld]
      rfl
    have hunload : (c.unload id).outcome = .ok
        { { c with engine := e' }.setSprite id s' with active := c.active.filter (· ≠ id) } := by
      rw [unload, if_pos hloaded, Traced.outcome_bind hr]
      rfl
    rw [remove, Traced.outcome_bind hunload, ← hf.eq]
    exact congrArg (fun o => Except.ok (o, _))
      ((sprite?_setSprite (c := { c with engine := e' }) hs s' id).trans (if_pos rfl))

/-! ### Along a conversation -/

/-- A load puts a sprite at the end of the draw order, if it works. -/
private theorem load_orderly (hc : Sound cfg c) (ho : Orderly h c) (id : Nat) :
    (c.load id).Yields fun r => Orderly (h ++ [(.load id, .loaded r.1)]) r.2 := by
  refine (load_cases hc id).mono ?_
  rintro _ (⟨cause, -, rfl⟩ | ⟨s, e', s', hs, hl, rfl⟩)
  · exact ho.skip rfl rfl rfl
  · have hunloaded : c.isLoaded id = false := by
      rw [isLoaded_of_sprite? hs, Sprite.isLoaded, hl.1]
      rfl
    refine ho.load hunloaded Array.size_setIfInBounds
      (texture_setSprite (c := { c with engine := e' }) hs hl.texture) (fun j => ?_) rfl
    rw [← hl.isLoaded]
    exact isLoaded_setSprite (c := { c with engine := e' }) hs s' j

/-- A free takes a sprite out of the draw order, and its identifier stays valid. -/
private theorem free_orderly (hc : Sound cfg c) (ho : Orderly h c) (id : Nat) :
    (c.free id).Yields fun r => Orderly h r.2 := by
  refine (free_cases hc id).mono ?_
  rintro _ (⟨cause, -, -, rfl⟩ | ⟨s, e', s', hs, hf, rfl⟩)
  · exact ho
  · have htexture : s'.texture = s.texture := by rw [hf.eq]
    refine ho.unload Array.size_setIfInBounds
      (texture_setSprite (c := { c with engine := e' }) hs htexture) (fun j => ?_) rfl
    rw [← hf.isLoaded]
    exact isLoaded_setSprite (c := { c with engine := e' }) hs s' j

/-- A removal takes a sprite out of the draw order and withdraws its identifier. -/
private theorem remove_orderly (hc : Sound cfg c) (ho : Orderly h c) (id : Nat) :
    (c.remove id).Yields fun r => Orderly (h ++ [(.remove id, .removed r.1)]) r.2 := by
  have hunload : (c.unload id).Yields fun c₁ => Orderly h c₁ := by
    rw [unload]
    split
    · rename_i hloaded
      refine ((free_spec hc id).and (free_orderly hc ho id)).bind ?_
      rintro ⟨answer, c₁⟩ ⟨⟨-, -, hok⟩, ho₁⟩
      obtain rfl := hok hloaded
      exact .pure ho₁
    · exact .pure ho
  rw [remove]
  refine ((unload_spec hc id).and hunload).bind ?_
  rintro c₁ ⟨⟨-, -, hunloaded⟩, ho₁⟩
  refine .pure ?_
  cases hs : c₁.sprite? id with
  | none =>
    rw [setIfInBounds_none hs]
    exact ho₁.skip rfl rfl rfl
  | some s => exact ho₁.withdraw hs ((isLoaded_of_sprite? hs).symm.trans hunloaded)

/-- A request adds a line to the history, and the scene is again as its history tells. -/
private theorem respond_orderly (hc : Sound cfg c) (ho : Orderly h c) (request : Request)
    (hroom : c.sprites.size + request.isAdd.toNat < 4294967296) :
    (c.respond request).Yields fun r => Orderly (h ++ [(request, r.1)]) r.2 := by
  cases request with
  | add texture => exact .lift_bind (if_pos hroom) (.pure (ho.add texture))
  | remove id => exact (remove_orderly hc ho id).bind fun r hr => .pure hr
  | load id => exact (load_orderly hc ho id).bind fun r hr => .pure hr
  | upload id frame =>
    refine (Traced.Yields.lift (upload_cases hc id frame)).bind ?_
    rintro _ (⟨cause, -, rfl⟩ | ⟨s, e', s', fresh, hs, hu, rfl⟩)
    · exact .pure (ho.skip rfl rfl rfl)
    · have hloaded : s.isLoaded = true := by
        obtain ⟨held, -, hheld, -⟩ := hu
        rw [Sprite.isLoaded, hheld]
        rfl
      have hsame := SameRegistry.setSprite hs hu.texture (hu.isLoaded.trans hloaded.symm) e'
      exact .pure ((ho.same hsame).skip rfl rfl rfl)
  | free id => exact (free_orderly hc ho id).bind fun r hr => .pure (hr.skip rfl rfl rfl)
  | draw => exact (draw_spec hc).bind fun c' hc' => .pure ((ho.same hc'.2).skip rfl rfl rfl)
  | restyle id look =>
    exact .pure ((ho.same (restyle_sameRegistry c id look)).skip rfl rfl rfl)

/-- An answer keeps the scene sound, and the registry grows by the sprites that are added. -/
theorem respond_spec (hc : Sound cfg c) (request : Request)
    (hroom : c.sprites.size + request.isAdd.toNat < 4294967296) :
    (c.respond request).Yields fun r =>
      Sound cfg r.2 ∧ r.2.sprites.size = c.sprites.size + request.isAdd.toNat := by
  have hserve := serve_spec hc request hroom
  rw [serve_eq_respond, Traced.yields_map] at hserve
  exact hserve.mono fun r hr => ⟨hr.1, hr.2.1⟩

/-- By induction along the requests, from any history that has led to the scene. -/
theorem converse_spec (hc : Sound cfg c) (ho : Orderly h c) (requests : List Request)
    (hroom : c.sprites.size + requests.countP Request.isAdd < 4294967296) :
    (c.converse requests).Yields fun r =>
      r.1.map Prod.fst = requests ∧ Sound cfg r.2 ∧ Orderly (h ++ r.1) r.2 := by
  induction requests generalizing c h with
  | nil => exact .pure ⟨rfl, hc, by rwa [List.append_nil]⟩
  | cons request requests ih =>
    have hcount : (request :: requests).countP Request.isAdd =
        requests.countP Request.isAdd + request.isAdd.toNat := by
      cases hadd : request.isAdd <;> simp [hadd]
    rw [hcount] at hroom
    have hfirst : c.sprites.size + request.isAdd.toNat < 4294967296 := by omega
    rw [converse]
    refine ((respond_spec hc request hfirst).and (respond_orderly hc ho request hfirst)).bind ?_
    rintro ⟨reply, c₁⟩ ⟨⟨hc₁, hsize⟩, ho₁⟩
    have hroom₁ : c₁.sprites.size + requests.countP Request.isAdd < 4294967296 := by
      dsimp only at hsize
      omega
    refine (ih hc₁ ho₁ hroom₁).bind ?_
    rintro ⟨h', c₂⟩ ⟨hrequests, hc₂, ho₂⟩
    rw [List.append_assoc] at ho₂
    exact .pure ⟨congrArg (request :: ·) hrequests, hc₂, ho₂⟩

theorem Orderly.new (hc : Scene.new cfg = .ok c) : Orderly [] c := by
  obtain ⟨e, -, rfl⟩ := exists_engine_of_new hc
  exact ⟨rfl, List.nil_subset _, fun id => by simp [sprite?, History.issued],
    fun id s hs => (nomatch hs), fun id hid => (nomatch hid), rfl⟩

/-- Requests lead a new scene to one that has a history. -/
theorem serveAll_orderly (hc : Scene.new cfg = .ok c) (requests : List Request)
    (hadds : requests.countP Request.isAdd < 4294967296) :
    (c.serveAll requests).Yields fun r => Sound cfg r.2 ∧ ∃ h, Orderly h r.2 := by
  obtain ⟨hsound, hsize⟩ := Sound.new hc
  rw [serveAll_eq_converse, Traced.yields_map]
  exact (converse_spec hsound (.new hc) requests (by omega)).mono fun r hr => ⟨hr.2.1, r.1, hr.2.2⟩

/-- Whatever is asked of a new scene, it keeps its books. Identifiers are not used again, the loaded
sprites are drawn in the order in which they were last loaded, what is asked about an identifier
without a sprite is refused, and a sprite that is removed gives back what freeing it would. -/
theorem converse_orderly (hc : Scene.new cfg = .ok c) (requests : List Request)
    (hadds : requests.countP Request.isAdd < 4294967296) :
    ∃ h c', (c.converse requests).outcome = .ok (h, c') ∧ h.map Prod.fst = requests ∧
      Orderly h c' ∧ h.issued.Nodup ∧ c'.active.Nodup ∧
      (∀ id, id ∈ c'.active ↔ c'.isLoaded id = true) ∧
      (∀ id, c'.sprite? id = none → c'.Ignores id) ∧
      ∀ id s, c'.sprite? id = some s → c'.Surrenders id s := by
  obtain ⟨hsound, hsize⟩ := Sound.new hc
  obtain ⟨-, ⟨h, c'⟩, houtcome, hrequests, hsound', ho⟩ :=
    converse_spec hsound (.new hc) requests (by omega)
  rw [List.nil_append] at ho
  refine ⟨h, c', houtcome, hrequests, ho, ?_, ho.nodup_active, fun _ => ho.mem_active_iff,
    fun _ => ignores_of_none, fun _ _ => hsound'.surrenders⟩
  rw [ho.issued]
  exact List.nodup_range

/-- The first of two sprites is freed and loaded again, so it is drawn last. A third one is removed,
and its identifier leads nowhere. -/
theorem converse_orderly_reload :
    let requests : List Request := [.add .blackTile, .add .blackTile, .load 0, .load 1, .free 0,
      .load 0, .add .blackTile, .remove 2, .add .blackTile]
    ∃ h c', (converse { engine := .ofConfig ⟨2, 2, 1⟩ } requests).outcome = .ok (h, c') ∧
      h.issued = [0, 1, 2, 3] ∧ h.withdrawn = [2] ∧ c'.active = [1, 0] ∧ c'.Ignores 2 := by
  intro requests
  have hbooks : (fun r => (r.1.issued, r.1.withdrawn, r.2.active)) <$>
      (converse { engine := .ofConfig ⟨2, 2, 1⟩ } requests).outcome =
        .ok ([0, 1, 2, 3], [2], [1, 0]) := by decide +kernel
  have hnew : Scene.new ⟨2, 2, 1⟩ = .ok { engine := .ofConfig ⟨2, 2, 1⟩ } := rfl
  obtain ⟨h, c', houtcome, -, ho, -, -, -, hignores, -⟩ :=
    converse_orderly hnew requests (by decide)
  rw [houtcome] at hbooks
  obtain ⟨hissued, hwithdrawn, hactive⟩ :
      h.issued = [0, 1, 2, 3] ∧ h.withdrawn = [2] ∧ c'.active = [1, 0] := by
    simpa [Functor.map, Except.map] using hbooks
  refine ⟨h, c', houtcome, hissued, hwithdrawn, hactive, hignores 2 ?_⟩
  have hgone : ¬ (c'.sprite? 2).isSome := by simp [ho.registered, hwithdrawn]
  simpa using hgone

end Scene

end SpriteEngine
