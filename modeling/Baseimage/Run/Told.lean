import Baseimage.Run.Script

/-!
# What a script was told

The rules here are those of partial correctness, where the conditions are about the state and the
answers the environment has given so far. The answers are kept for the proof only: a script cannot
look at them again.
-/

universe u v

namespace Script

variable {κ σ ε : Type u} {α β : Type v}
variable {P P' : List κ → σ → Prop} {Q Q' : α → List κ → σ → Prop} {E E' : ε → List κ → σ → Prop}
variable {R R' : List κ → σ → Prop}

/-- Every run that begins with such answers behind it and in such a state ends with what was
answered since in addition, and meets the condition for its end. -/
def Told (P : List κ → σ → Prop) (m : Script κ σ ε α) (Q : α → List κ → σ → Prop)
    (E : ε → List κ → σ → Prop) (R : List κ → σ → Prop) : Prop :=
  ∀ past taken answers s, P past s → answers = taken ++ (m.run answers s).rest →
    Ends (fun a => Q a (past ++ taken)) (fun e => E e (past ++ taken)) (R (past ++ taken))
      (m.run answers s)

namespace Told

/-- What holds at the end of a run, from its beginning on. -/
theorem ends {m : Script κ σ ε α} (h : Told P m Q E R) {answers : List κ} {s : σ} (hs : P [] s) :
    ∃ taken, answers = taken ++ (m.run answers s).rest ∧
      Ends (fun a => Q a taken) (fun e => E e taken) (R taken) (m.run answers s) := by
  obtain ⟨taken, split⟩ := m.suffix answers s
  exact ⟨taken, split.symm, h [] taken answers s hs split.symm⟩

theorem consequence {m : Script κ σ ε α} (h : Told P m Q E R) (pre : ∀ past s, P' past s → P past s)
    (ok : ∀ a past s, Q a past s → Q' a past s) (threw : ∀ e past s, E e past s → E' e past s)
    (stopped : ∀ past s, R past s → R' past s) : Told P' m Q' E' R' :=
  fun past taken answers s hs split => (h past taken answers s (pre past s hs) split).mono
    (fun a t => ok a _ t) (fun e t => threw e _ t) fun t => stopped _ t

theorem pre {m : Script κ σ ε α} (h : Told P m Q E R) (pre : ∀ past s, P' past s → P past s) :
    Told P' m Q E R :=
  h.consequence pre (fun _ _ _ h => h) (fun _ _ _ h => h) fun _ _ h => h

/-- Keep the answers and the state the run begins with. -/
theorem with_entry {m : Script κ σ ε α}
    (h : ∀ past s, P past s → Told (fun past' t => past' = past ∧ t = s) m Q E R) :
    Told P m Q E R :=
  fun past taken answers s hs split => h past s hs past taken answers s ⟨rfl, rfl⟩ split

theorem of_exists {ι : Sort*} {T : ι → List κ → σ → Prop} {m : Script κ σ ε α}
    (h : ∀ i, Told (T i) m Q E R) : Told (fun past s => ∃ i, T i past s) m Q E R :=
  fun past taken answers s ⟨i, hs⟩ split => h i past taken answers s hs split

/-- What a script does to the state, where the answers only matter in as far as there are more of
them. -/
theorem of_spec {I X Z : σ → Prop} {O : α → σ → Prop} {m : Script κ σ ε α} {K : List κ → Prop}
    (h : Spec I m O (fun _ => X) Z) (more : ∀ past taken, K past → K (past ++ taken)) :
    Told (fun past s => K past ∧ I s) m (fun a past s => K past ∧ O a s)
      (fun _ past s => K past ∧ X s) fun past s => K past ∧ Z s := by
  intro past taken answers s hs _
  have later := more past taken hs.1
  exact (h answers s hs.2).mono (fun _ _ ht => ⟨later, ht⟩) (fun _ _ ht => ⟨later, ht⟩)
    fun _ ht => ⟨later, ht⟩

theorem ofOutcome {result : Outcome ε α} (ok : ∀ a past s, result = .ok a → P past s → Q a past s)
    (threw : ∀ e past s, result = .threw e → P past s → E e past s)
    (stopped : ∀ past s, result = .aborted → P past s → R past s) :
    Told P (ofOutcome result) Q E R := by
  intro past taken answers s hs split
  obtain rfl : taken = [] := by simpa [Script.ofOutcome] using split
  rw [List.append_nil]
  cases result with
  | ok a => exact ok a past s rfl hs
  | threw e => exact threw e past s rfl hs
  | aborted => exact stopped past s rfl hs

theorem pure {a : α} (h : ∀ past s, P past s → Q a past s) :
    Told P (pure a : Script κ σ ε α) Q E R := by
  refine ofOutcome ?_ nofun nofun
  rintro _ past s ⟨⟩ hs
  exact h past s hs

theorem abort (h : ∀ past s, P past s → R past s) : Told P (abort : Script κ σ ε α) Q E R :=
  ofOutcome nofun nofun fun past s _ hs => h past s hs

theorem get {Q : σ → List κ → σ → Prop} (h : ∀ past s, P past s → Q s past s) :
    Told P (get : Script κ σ ε σ) Q E R := by
  intro past taken answers s hs split
  obtain rfl : taken = [] := by simpa [Script.get] using split
  rw [List.append_nil]
  exact h past s hs

theorem modify {Q : PUnit → List κ → σ → Prop} {f : σ → σ}
    (h : ∀ past s, P past s → Q ⟨⟩ past (f s)) :
    Told P (modify f : Script κ σ ε PUnit) Q E R := by
  intro past taken answers s hs split
  obtain rfl : taken = [] := by simpa [Script.modify] using split
  rw [List.append_nil]
  exact h past s hs

theorem ask {accept : σ → κ → Option (α × σ)} (stopped : ∀ past s, P past s → R past s)
    (answered : ∀ past s k a t, P past s → accept s k = some (a, t) → Q a (past ++ [k]) t) :
    Told P (ask accept : Script κ σ ε α) Q E R := by
  intro past taken answers s hs split
  cases answers with
  | nil =>
      obtain ⟨rfl, -⟩ := List.append_eq_nil_iff.mp split.symm
      rw [List.append_nil]
      exact stopped past s hs
  | cons k rest =>
      simp only [Ends, Script.ask] at split ⊢
      cases h : accept s k with
      | none =>
          rw [h] at split
          obtain rfl : taken = [] := by simpa using split
          rw [List.append_nil]
          exact stopped past s hs
      | some found =>
          rw [h] at split
          have same : [k] ++ rest = taken ++ rest := split
          obtain rfl := List.append_cancel_right same
          exact answered past s k found.1 found.2 hs h

theorem bind {m : Script κ σ ε α} {f : α → Script κ σ ε β} {M : α → List κ → σ → Prop}
    {Q : β → List κ → σ → Prop} (first : Told P m M E R) (rest : ∀ a, Told (M a) (f a) Q E R) :
    Told P (m >>= f) Q E R := by
  intro past taken answers s hs split
  obtain ⟨taken₁, split₁⟩ := m.suffix answers s
  have h := first past taken₁ answers s hs split₁.symm
  rw [bind_run] at split ⊢
  unfold Ends at h
  split at h
  · next a result =>
      rw [result] at split
      obtain ⟨taken₂, split₂⟩ := (f a).suffix (m.run answers s).rest (m.run answers s).state
      have same : taken = taken₁ ++ taken₂ := by
        refine List.append_cancel_right (split.symm.trans ?_)
        rw [List.append_assoc, split₂, split₁]
      rw [same, ← List.append_assoc]
      exact rest a _ taken₂ _ _ h split₂.symm
  all_goals
    next result =>
      rw [result] at split
      obtain rfl : taken₁ = taken := List.append_cancel_right (split₁.trans split)
      exact h

/-- A first part that gives back the condition it was given. -/
theorem step {m : Script κ σ ε α} {f : α → Script κ σ ε β} {Q : β → List κ → σ → Prop}
    (first : Told P m (fun _ => P) E R) (rest : ∀ a, Told P (f a) Q E R) :
    Told P (m >>= f) Q E R :=
  bind first rest

theorem tryCatch {m : Script κ σ ε α} {handler : ε → Script κ σ ε α}
    {T : ε → List κ → σ → Prop} (code : Told P m Q T R)
    (caught : ∀ e, Told (T e) (handler e) Q E R) : Told P (tryCatch m handler) Q E R := by
  intro past taken answers s hs split
  obtain ⟨taken₁, split₁⟩ := m.suffix answers s
  have h := code past taken₁ answers s hs split₁.symm
  rw [tryCatch_run] at split ⊢
  unfold Ends at h
  split at h
  · next a result =>
      rw [result] at split ⊢
      obtain rfl : taken₁ = taken := List.append_cancel_right (split₁.trans split)
      simpa only [Ends, result] using h
  · next e result =>
      rw [result] at split ⊢
      obtain ⟨taken₂, split₂⟩ := (handler e).suffix (m.run answers s).rest (m.run answers s).state
      have same : taken = taken₁ ++ taken₂ := by
        refine List.append_cancel_right (split.symm.trans ?_)
        rw [List.append_assoc, split₂, split₁]
      rw [same, ← List.append_assoc]
      exact caught e _ taken₂ _ _ h split₂.symm
  all_goals
    next result =>
      rw [result] at split ⊢
      obtain rfl : taken₁ = taken := List.append_cancel_right (split₁.trans split)
      simpa only [Ends, result] using h

theorem ite {c : Prop} [Decidable c] {m n : Script κ σ ε α} (yes : c → Told P m Q E R)
    (no : ¬c → Told P n Q E R) : Told P (if c then m else n) Q E R := by
  split
  · next h => exact yes h
  · next h => exact no h

theorem repeatUpTo {body : Script κ σ ε (Option α)} (stopped : ∀ past s, P past s → R past s)
    (step : Told P body (fun a past s => a.elim (P past s) fun a => Q a past s) E R) (n : Nat) :
    Told P (repeatUpTo body n) Q E R := by
  induction n with
  | zero =>
      intro past taken answers s hs split
      obtain rfl : taken = [] := by simpa [Script.repeatUpTo, stop] using split
      rw [List.append_nil]
      exact stopped past s hs
  | succ n ih =>
      refine bind step fun a => ?_
      cases a with
      | some a => exact pure fun _ _ hs => hs
      | none => exact ih

/-- A loop keeps an invariant until it gives a value. -/
theorem loop {body : Script κ σ ε (Option α)} (stopped : ∀ past s, P past s → R past s)
    (step : Told P body (fun a past s => a.elim (P past s) fun a => Q a past s) E R) :
    Told P (loop body) Q E R :=
  fun past taken answers => repeatUpTo stopped step (answers.length + 1) past taken answers

end Told

end Script
