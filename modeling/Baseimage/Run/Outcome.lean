import Mathlib

/-!
# Outcomes of code that throws and asserts

A piece of code returns a value, throws an exception that a caller may catch, or violates an
assertion, which ends the whole program and which nobody catches.
-/

universe u v

inductive Outcome (ε : Type u) (α : Type v) where
  | ok (a : α)
  | threw (e : ε)
  | aborted
  deriving DecidableEq, Repr

namespace Outcome

variable {ε : Type u} {α β : Type v}

protected def bind (x : Outcome ε α) (f : α → Outcome ε β) : Outcome ε β :=
  match x with
  | .ok a => f a
  | .threw e => .threw e
  | .aborted => .aborted

instance : Monad (Outcome ε) where
  pure := .ok
  bind := Outcome.bind

/-- Run the handler when the code throws. -/
def handle (x : Outcome ε α) (handler : ε → Outcome ε α) : Outcome ε α :=
  match x with
  | .threw e => handler e
  | other => other

def isOk : Outcome ε α → Bool
  | .ok _ => true
  | _ => false

/-- The value that was returned, if one was. -/
def toOption : Outcome ε α → Option α
  | .ok a => some a
  | _ => none

@[simp] theorem pure_eq (a : α) : (pure a : Outcome ε α) = .ok a := rfl

@[simp] theorem ok_bind (a : α) (f : α → Outcome ε β) : (Outcome.ok a >>= f) = f a := rfl

@[simp] theorem threw_bind (e : ε) (f : α → Outcome ε β) :
    ((Outcome.threw e : Outcome ε α) >>= f) = .threw e := rfl

@[simp] theorem aborted_bind (f : α → Outcome ε β) :
    ((Outcome.aborted : Outcome ε α) >>= f) = .aborted := rfl

/-- A sequence returns when both of its parts do. -/
theorem bind_eq_ok_iff {x : Outcome ε α} {f : α → Outcome ε β} {b : β} :
    (x >>= f) = .ok b ↔ ∃ a, x = .ok a ∧ f a = .ok b := by
  cases x with
  | ok a => simp
  | threw e => simp
  | aborted => simp

/-- What is returned, if anything is, meets the condition. -/
def Returns (Q : α → Prop) (x : Outcome ε α) : Prop := ∀ a, x = .ok a → Q a

theorem Returns.pure {Q : α → Prop} {a : α} (h : Q a) : Returns Q (pure a : Outcome ε α) := by
  intro b hb
  cases hb
  exact h

theorem Returns.bind {Q : β → Prop} {x : Outcome ε α} {f : α → Outcome ε β}
    (h : ∀ a, x = .ok a → Returns Q (f a)) : Returns Q (x >>= f) := by
  intro b hb
  obtain ⟨a, ha, hf⟩ := bind_eq_ok_iff.mp hb
  exact h a ha b hf

end Outcome

/-! ## Code that throws only -/

theorem Except.bind_eq_ok {ε α β : Type} {x : Except ε α} {f : α → Except ε β} {b : β}
    (h : (x >>= f) = .ok b) : ∃ a, x = .ok a ∧ f a = .ok b := by
  cases x with
  | error e => cases h
  | ok a => exact ⟨a, rfl, h⟩

theorem Except.map_eq_ok {ε α β : Type} {x : Except ε α} {f : α → β} {b : β}
    (h : x.map f = .ok b) : ∃ a, x = .ok a ∧ f a = b := by
  cases x with
  | error e => cases h
  | ok a => exact ⟨a, rfl, Except.ok.inj h⟩

theorem Except.bind_eq_error {ε α β : Type} {x : Except ε α} {f : α → Except ε β} {e : ε}
    (h : (x >>= f) = .error e) : x = .error e ∨ ∃ a, x = .ok a ∧ f a = .error e := by
  cases x with
  | error e' => exact .inl (Except.error.inj h ▸ rfl)
  | ok a => exact .inr ⟨a, rfl, h⟩

theorem Except.mapError_eq_ok {ε ε' α : Type} {x : Except ε α} {f : ε → ε'} {a : α}
    (h : x.mapError f = .ok a) : x = .ok a := by
  cases x with
  | error e => cases h
  | ok a => exact congrArg _ (Except.ok.inj h)

theorem Except.mapError_eq_error {ε ε' α : Type} {x : Except ε α} {f : ε → ε'} {e' : ε'}
    (h : x.mapError f = .error e') : ∃ e, e' = f e := by
  cases x with
  | error e => exact ⟨e, (Except.error.inj h).symm⟩
  | ok a => cases h
