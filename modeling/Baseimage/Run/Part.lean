import Baseimage.Run.Script

/-!
# Code that works on a part of the state

A script that knows a part of the state only, and some of the answers only, is run where there is
more of both. It takes the answers that are for it and leaves the rest of the state as it is.
-/

universe u v

namespace Script

variable {κ κ' σ τ ε : Type u} {α : Type v}

/-- A part of a state. -/
structure Part (τ σ : Type u) where
  get : τ → σ
  put : τ → σ → τ
  get_put : ∀ t s, get (put t s) = s

/-- The answers at the front that are for the part. -/
def answersFor (pick : κ' → Option κ) : List κ' → List κ
  | [] => []
  | k :: answers => (pick k).elim [] fun a => a :: answersFor pick answers

/-- The script is run on the part. -/
def onPart (pick : κ' → Option κ) (part : Part τ σ) (m : Script κ σ ε α) : Script κ' τ ε α where
  run answers t :=
    let mine := answersFor pick answers
    let inner := m.run mine (part.get t)
    ⟨inner.result, answers.drop (mine.length - inner.rest.length), part.put t inner.state⟩
  suffix answers _ := List.drop_suffix _ answers

variable {P : σ → Prop} {Q : α → σ → Prop} {E : ε → σ → Prop} {R : σ → Prop}

/-- What the script does to its part, next to what is not touched with the part. -/
theorem Spec.onPart (pick : κ' → Option κ) (part : Part τ σ) {m : Script κ σ ε α} {F : τ → Prop}
    (frame : ∀ t s, F t → F (part.put t s)) (h : Spec P m Q E R) :
    Spec (fun t => P (part.get t) ∧ F t) (m.onPart pick part) (fun a t => Q a (part.get t) ∧ F t)
      (fun e t => E e (part.get t) ∧ F t) fun t => R (part.get t) ∧ F t := by
  rintro answers t ⟨begun, kept⟩
  have ends := h (answersFor pick answers) (part.get t) begun
  have still := frame t (m.run (answersFor pick answers) (part.get t)).state kept
  unfold Ends at ends ⊢
  dsimp only [Script.onPart]
  split at ends <;> simp_all only [part.get_put, and_self]

end Script
