import Baseimage.Run.Outcome

/-!
# Exceptions whose messages are limited

The message of an exception is a text of limited length: raising one that does not fit ends the
program. What a piece of code has to report is said here without the limit. A caller that wraps
the messages of its callee only makes them longer, so of a chain of messages the last one decides
whether all of them fit.
-/

universe u v

/-- What is wrong with the input: something to be reported with a text, or something that ends
the program. -/
inductive Problem (χ : Type u) where
  | fatal
  | message (text : List χ)
  deriving DecidableEq, Repr

namespace Problem

variable {χ : Type u} {α : Type v}

/-- Raise the exception. -/
def raise (limit : Nat) : Problem χ → Outcome (List χ) α
  | fatal => .aborted
  | message text => if text.length < limit then .threw text else .aborted

/-- The problem can be reported. -/
def Fits (limit : Nat) : Problem χ → Prop
  | fatal => False
  | message text => text.length < limit

instance (limit : Nat) (p : Problem χ) : Decidable (p.Fits limit) := by
  cases p <;> simp only [Fits] <;> infer_instance

/-- The problem as a caller reports it. -/
def within (wrap : List χ → List χ) : Problem χ → Problem χ
  | fatal => fatal
  | message text => message (wrap text)

theorem raise_of_fits {limit : Nat} {p : Problem χ} (h : p.Fits limit) :
    ∃ text, p = message text ∧ (p.raise limit : Outcome (List χ) α) = .threw text := by
  cases p with
  | fatal => exact h.elim
  | message text => exact ⟨text, rfl, if_pos h⟩

theorem raise_of_not_fits {limit : Nat} {p : Problem χ} (h : ¬ p.Fits limit) :
    (p.raise limit : Outcome (List χ) α) = .aborted := by
  cases p with
  | fatal => rfl
  | message text => exact if_neg h

theorem raise_bind {β : Type v} (limit : Nat) (p : Problem χ) (f : α → Outcome (List χ) β) :
    (p.raise limit : Outcome (List χ) α) >>= f = p.raise limit := by
  by_cases h : p.Fits limit
  · obtain ⟨text, rfl, -⟩ := raise_of_fits (α := α) h
    have short : text.length < limit := h
    simp only [raise, if_pos short, Outcome.threw_bind]
  · rw [raise_of_not_fits h, raise_of_not_fits h]
    rfl

/-- Catching a message and raising a longer one. -/
theorem raise_handle {limit : Nat} {wrap : List χ → List χ}
    (longer : ∀ text, text.length ≤ (wrap text).length) (p : Problem χ) :
    (p.raise limit : Outcome (List χ) α).handle (fun text => (message (wrap text)).raise limit) =
      (p.within wrap).raise limit := by
  cases p with
  | fatal => rfl
  | message text =>
      by_cases h : text.length < limit
      · simp only [raise, if_pos h, within, Outcome.handle]
      · have tooLong : ¬ (wrap text).length < limit := by
          have := longer text
          omega
        simp only [raise, if_neg h, within, if_neg tooLong, Outcome.handle]

end Problem

/-- The code returns where there is no problem, and raises the problem where there is one. -/
def Reports {χ : Type u} {α : Type v} (limit : Nat) (x : Outcome (List χ) α) :
    Option (Problem χ) → Prop
  | none => ∃ a, x = .ok a
  | some p => x = p.raise limit

namespace Reports

variable {χ : Type u} {α β : Type v} {limit : Nat} {x : Outcome (List χ) α}
  {p q : Option (Problem χ)}

theorem ok (a : α) : Reports limit (.ok a : Outcome (List χ) α) none := ⟨a, rfl⟩

theorem raise (p : Problem χ) : Reports limit (p.raise limit : Outcome (List χ) α) (some p) := rfl

theorem eq_raise {p : Problem χ} (h : Reports limit x (some p)) : x = p.raise limit := h

theorem eq_none_of_ok {a : α} (h : Reports limit (.ok a : Outcome (List χ) α) p) : p = none := by
  cases p with
  | none => rfl
  | some p =>
      by_cases fits : p.Fits limit
      · obtain ⟨text, -, raised⟩ := Problem.raise_of_fits (α := α) fits
        cases (eq_raise h).trans raised
      · cases (eq_raise h).trans (Problem.raise_of_not_fits fits)

theorem threw_fits {text : List χ} (h : Reports limit (.threw text : Outcome (List χ) α) p) :
    text.length < limit := by
  cases p with
  | none =>
      obtain ⟨a, returned⟩ := h
      cases returned
  | some p =>
      by_cases fits : p.Fits limit
      · obtain ⟨text', rfl, raised⟩ := Problem.raise_of_fits (α := α) fits
        cases (eq_raise h).trans raised
        exact fits
      · cases (eq_raise h).trans (Problem.raise_of_not_fits fits)

/-- What was thrown does not depend on what would have been returned. -/
theorem of_threw {text : List χ} (h : Reports limit (.threw text : Outcome (List χ) α) p) :
    Reports limit (.threw text : Outcome (List χ) β) p := by
  cases p with
  | none =>
      obtain ⟨a, returned⟩ := h
      cases returned
  | some p =>
      have raised := congrArg (fun x => x >>= fun _ => (.aborted : Outcome (List χ) β)) (eq_raise h)
      exact raised.trans (Problem.raise_bind limit p _)

theorem of_aborted (h : Reports limit (.aborted : Outcome (List χ) α) p) :
    Reports limit (.aborted : Outcome (List χ) β) p := by
  cases p with
  | none =>
      obtain ⟨a, returned⟩ := h
      cases returned
  | some p =>
      have raised := congrArg (fun x => x >>= fun _ => (.aborted : Outcome (List χ) β)) (eq_raise h)
      exact raised.trans (Problem.raise_bind limit p _)

/-- Code that does not return has a problem, and what comes behind it is not reached. -/
theorem orElse_of_ne_ok (h : Reports limit x p) (fails : ∀ a, x ≠ .ok a) :
    Reports limit x (p <|> q) := by
  cases p with
  | none =>
      obtain ⟨a, returned⟩ := h
      exact absurd returned (fails a)
  | some p => exact h

/-- A sequence reports the first problem of its parts. -/
theorem bind {f : α → Outcome (List χ) β} (first : Reports limit x p)
    (rest : ∀ a, x = .ok a → Reports limit (f a) q) : Reports limit (x >>= f) (p <|> q) := by
  cases p with
  | none =>
      obtain ⟨a, rfl⟩ := first
      exact rest a rfl
  | some p =>
      show x >>= f = p.raise limit
      rw [eq_raise first, Problem.raise_bind]

/-- A part that is done with what another one returned. -/
theorem map {f : α → Outcome (List χ) β} (first : Reports limit x p)
    (rest : ∀ a, x = .ok a → ∃ b, f a = .ok b) : Reports limit (x >>= f) p := by
  have both := bind (q := none) first rest
  cases p with
  | none => exact both
  | some p => exact both

/-- Code whose messages are wrapped by its caller. -/
theorem handle {wrap : List χ → List χ} (longer : ∀ text, text.length ≤ (wrap text).length)
    (h : Reports limit x p) :
    Reports limit (x.handle fun text => (Problem.message (wrap text)).raise limit)
      (p.map (Problem.within wrap)) := by
  cases p with
  | none =>
      obtain ⟨a, rfl⟩ := h
      exact ok a
  | some p =>
      rw [eq_raise h, Option.map_some]
      exact Problem.raise_handle longer p

/-- The code aborts exactly when it comes to a problem that cannot be reported. -/
theorem ne_aborted_iff (h : Reports limit x p) :
    x ≠ .aborted ↔ ∀ problem ∈ p, problem.Fits limit := by
  cases p with
  | none =>
      obtain ⟨a, rfl⟩ := h
      exact iff_of_true nofun nofun
  | some p =>
      rw [eq_raise h]
      by_cases fits : p.Fits limit
      · obtain ⟨text, -, raised⟩ := Problem.raise_of_fits (α := α) fits
        rw [raised]
        refine iff_of_true nofun fun problem member => ?_
        exact Option.mem_some_iff.mp member ▸ fits
      · rw [Problem.raise_of_not_fits fits]
        exact iff_of_false (fun ne => ne rfl) (fun all => fits (all p rfl))

end Reports
