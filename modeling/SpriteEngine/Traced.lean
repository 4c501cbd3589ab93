import SpriteEngine.Event
import SpriteEngine.Fault

/-!
# Computations with a log

`Traced α` is a computation that reports events on its way to an `α` or to a fault. The events
before a fault are kept: a log shows how far a computation came.

It is a monad. `Traced.note` reports one event, and a `Checked` computation is a traced one that
reports nothing.
-/

namespace SpriteEngine

/-- The events of a computation, in order, and how it ends. -/
structure Traced (α : Type) where
  events : List Event
  outcome : Checked α

namespace Traced

variable {α β : Type}

/-- Run `f` on the result of `x`. After a fault of `x` nothing more happens. -/
protected def bind (x : Traced α) (f : α → Traced β) : Traced β :=
  match x.outcome with
  | .error fault => ⟨x.events, .error fault⟩
  | .ok a => ⟨x.events ++ (f a).events, (f a).outcome⟩

instance : Monad Traced where
  pure a := ⟨[], .ok a⟩
  bind := Traced.bind

/-- Report one event. -/
def note (e : Event) : Traced Unit :=
  ⟨[e], .ok ()⟩

instance : MonadLift (Except Fault) Traced where
  monadLift x := ⟨[], x⟩

@[ext] protected theorem ext {x y : Traced α} (he : x.events = y.events)
    (ho : x.outcome = y.outcome) : x = y := by
  cases x
  cases y
  simp_all

theorem pure_def (a : α) : (pure a : Traced α) = ⟨[], .ok a⟩ :=
  rfl

theorem bind_def (x : Traced α) (f : α → Traced β) :
    x >>= f = match x.outcome with
      | .error fault => ⟨x.events, .error fault⟩
      | .ok a => ⟨x.events ++ (f a).events, (f a).outcome⟩ :=
  rfl

/-- A computation that ends in `a` hands `a` on and puts its events in front. -/
theorem ok_bind (l : List Event) (a : α) (f : α → Traced β) :
    (⟨l, .ok a⟩ >>= f : Traced β) = ⟨l ++ (f a).events, (f a).outcome⟩ :=
  rfl

/-- A fault is final. -/
theorem error_bind (l : List Event) (fault : Fault) (f : α → Traced β) :
    (⟨l, .error fault⟩ >>= f : Traced β) = ⟨l, .error fault⟩ :=
  rfl

instance : LawfulMonad Traced := LawfulMonad.mk' Traced
  (by
    rintro α ⟨l, _ | a⟩
    · rfl
    · simp [Functor.map, Traced.bind])
  (by
    intro α β a f
    simp [pure_def, bind_def])
  (by
    rintro α β γ ⟨l, _ | a⟩ f g
    · rfl
    · rw [ok_bind]
      rcases hf : f a with ⟨l', _ | b⟩ <;> simp [bind_def, hf])

end Traced

end SpriteEngine
