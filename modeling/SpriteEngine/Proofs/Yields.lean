import SpriteEngine.Traced

/-!
# What a computation yields

`Traced.Yields x P` says that the computation `x` ends without a fault, that none of the events it
reports is an alarm, and that its result has the property `P`. This is total correctness: a
specification of the form `Yields` rules out faults and alarms along with describing the result.

An **alarm** (`Event.IsAlarm`) is a warning about a state that no sequence of operations should lead
to, as opposed to a warning about a resource that has run out.

The rules follow the way computations are written: `Yields.pure`, `Yields.bind`, `yields_map`,
`Yields.note_bind` for one event, `Yields.lift` and `Yields.lift_bind` for a computation without
events, and `Yields.foldlM` for a loop over a list, whose invariant speaks about the part of the
list that is left. `Checked.foldlM_ok` is the same rule for loops without events.
-/

namespace SpriteEngine

/-- The event reports a state that no sequence of operations should lead to. -/
def Event.IsAlarm : Event → Prop
  | .tilesRefused .. | .unreferencedColor _ | .removalLeak .. | .drawFailed .. => True
  | _ => False

namespace Traced

variable {α β ι : Type} {x : Traced α} {P Q : α → Prop} {R : β → Prop}

/-- The computation ends without a fault and without an alarm, in a result with the property `P`. -/
def Yields (x : Traced α) (P : α → Prop) : Prop :=
  (∀ e ∈ x.events, ¬ e.IsAlarm) ∧ ∃ a, x.outcome = .ok a ∧ P a

theorem Yields.mono (h : Yields x P) (hPQ : ∀ a, P a → Q a) : Yields x Q := by
  obtain ⟨hquiet, a, ha, hP⟩ := h
  exact ⟨hquiet, a, ha, hPQ a hP⟩

theorem Yields.and (h : Yields x P) (h' : Yields x Q) : Yields x fun a => P a ∧ Q a := by
  obtain ⟨hquiet, a, ha, hP⟩ := h
  obtain ⟨-, b, hb, hQ⟩ := h'
  obtain rfl : a = b := Except.ok.inj (ha.symm.trans hb)
  exact ⟨hquiet, a, ha, hP, hQ⟩

/-- What a computation yields is its outcome. -/
theorem Yields.outcome (h : Yields x P) : Yields x fun a => P a ∧ x.outcome = .ok a := by
  obtain ⟨hquiet, a, ha, hP⟩ := h
  exact ⟨hquiet, a, ha, hP, ha⟩

/-- What a computation yields holds of its result. -/
theorem Yields.of_outcome {a : α} (h : Yields x P) (ha : x.outcome = .ok a) : P a := by
  obtain ⟨-, b, hb, hP⟩ := h
  obtain rfl : b = a := Except.ok.inj (hb.symm.trans ha)
  exact hP

theorem outcome_bind {a : α} (hx : x.outcome = .ok a) (f : α → Traced β) :
    (x >>= f).outcome = (f a).outcome := by
  rw [bind_def, hx]

/-- The events of a computation are followed by those of the next one. -/
theorem mem_events_bind_left {e : Event} (he : e ∈ x.events) (f : α → Traced β) :
    e ∈ (x >>= f).events := by
  rw [bind_def]
  rcases x.outcome with fault | a
  · exact he
  · exact List.mem_append_left _ he

theorem mem_events_bind_right {a : α} {e : Event} {f : α → Traced β} (hx : x.outcome = .ok a)
    (he : e ∈ (f a).events) : e ∈ (x >>= f).events := by
  rw [bind_def, hx]
  exact List.mem_append_right _ he

/-- A computation that ends in a result has run on a result of the one before it. -/
theorem exists_of_outcome_bind {f : α → Traced β} {b : β} (h : (x >>= f).outcome = .ok b) :
    ∃ a, x.outcome = .ok a ∧ (f a).outcome = .ok b := by
  rw [bind_def] at h
  rcases hx : x.outcome with fault | a
  · simp [hx] at h
  · exact ⟨a, rfl, by simpa [hx] using h⟩

theorem Yields.pure {a : α} (h : P a) : Yields (Pure.pure a) P :=
  ⟨fun _ he => absurd he List.not_mem_nil, a, rfl, h⟩

/-- A computation runs on what the one before it yields. -/
theorem Yields.bind {f : α → Traced β} (hx : Yields x P) (hf : ∀ a, P a → Yields (f a) R) :
    Yields (x >>= f) R := by
  obtain ⟨hquiet, a, ha, hP⟩ := hx
  obtain ⟨hquiet', b, hb, hR⟩ := hf a hP
  rw [bind_def, ha]
  refine ⟨fun e he => ?_, b, hb, hR⟩
  rcases List.mem_append.mp he with he | he
  · exact hquiet e he
  · exact hquiet' e he

/-- A computation whose result is converted yields what the computation itself does. -/
theorem yields_map {f : α → β} : Yields (f <$> x) R ↔ Yields x fun a => R (f a) := by
  have hmap : f <$> x = x >>= fun a => Pure.pure (f a) := (bind_pure_comp f x).symm
  constructor
  · rintro ⟨hquiet, b, hb, hR⟩
    rw [hmap, bind_def] at hquiet hb
    cases ha : x.outcome with
    | error fault => simp [ha] at hb
    | ok a =>
      obtain rfl : f a = b := by simpa [ha, pure_def] using hb
      exact ⟨by simpa [ha, pure_def] using hquiet, a, ha, hR⟩
  · intro h
    rw [hmap]
    exact h.bind fun a ha => .pure ha

/-- An event that is no alarm may be reported anywhere. -/
theorem Yields.note_bind {e : Event} {f : Unit → Traced β} (he : ¬ e.IsAlarm)
    (h : Yields (f ()) R) : Yields (Traced.note e >>= f) R := by
  have hnote : Yields (Traced.note e) fun _ => True := by
    refine ⟨fun e' he' => ?_, (), rfl, trivial⟩
    rw [List.mem_singleton.mp he']
    exact he
  exact hnote.bind fun _ _ => h

/-- A computation without events yields the result that it ends in. -/
theorem Yields.lift {y : Checked α} (h : ∃ a, y = .ok a ∧ P a) : Yields (liftM y) P := by
  obtain ⟨a, rfl, hP⟩ := h
  exact ⟨fun _ he => absurd he List.not_mem_nil, a, rfl, hP⟩

/-- A computation without events hands its result on. -/
theorem Yields.lift_bind {y : Checked α} {a : α} {f : α → Traced β} (hy : y = .ok a)
    (h : Yields (f a) R) : Yields (liftM y >>= f) R := by
  subst hy
  exact (Yields.lift ⟨a, rfl, rfl⟩ : Yields (liftM (.ok a : Checked α)) (· = a)).bind
    fun _ hb => hb ▸ h

/-- The rule for loops: `I l a` holds of the state `a` when the list `l` is left to be done. -/
theorem Yields.foldlM {f : α → ι → Traced α} (I : List ι → α → Prop)
    (hstep : ∀ i l a, I (i :: l) a → Yields (f a i) (I l)) {l : List ι} {a : α} (h : I l a) :
    Yields (l.foldlM f a) (I []) := by
  induction l generalizing a with
  | nil => exact .pure h
  | cons i l ih =>
    rw [List.foldlM_cons]
    exact (hstep i l a h).bind fun b hb => ih hb

end Traced

/-- The rule for loops without events: `I l a` holds of the state `a` when the list `l` is left to
be done. -/
theorem Checked.foldlM_ok {α ι : Type} {f : α → ι → Checked α} (I : List ι → α → Prop)
    (hstep : ∀ i l a, I (i :: l) a → ∃ b, f a i = .ok b ∧ I l b) {l : List ι} {a : α}
    (h : I l a) : ∃ b, l.foldlM f a = .ok b ∧ I [] b := by
  induction l generalizing a with
  | nil => exact ⟨a, rfl, h⟩
  | cons i l ih =>
    obtain ⟨b, hb, hI⟩ := hstep i l a h
    rw [List.foldlM_cons, hb]
    exact ih hI

end SpriteEngine
