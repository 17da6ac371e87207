import Mathlib

/-!
# Runs of parties that act one at a time

Several parties share a state and act in any order. A run is the list of the actions that
happened, and an action that is not possible in its state has no result. What every action keeps
is kept by every run, also when the actions are only known to keep it under a condition on the
state before them.
-/

namespace Actions

variable {σ α : Type*}

/-- Perform the actions one after the other; `none` if one of them is not possible. -/
def run (step : σ → α → Option σ) : σ → List α → Option σ
  | s, [] => some s
  | s, a :: as => (step s a).bind (fun t => run step t as)

/-- Every action of the run meets the condition in the state before it. -/
def Along (step : σ → α → Option σ) (ok : σ → α → Prop) : σ → List α → Prop
  | _, [] => True
  | s, a :: as => ok s a ∧ ∀ t ∈ step s a, Along step ok t as

instance decidableAlong (step : σ → α → Option σ) (ok : σ → α → Prop)
    [∀ s a, Decidable (ok s a)] : ∀ (s : σ) (as : List α), Decidable (Along step ok s as)
  | _, [] => inferInstanceAs (Decidable True)
  | s, a :: as =>
      have (t : σ) : Decidable (Along step ok t as) := decidableAlong step ok t as
      inferInstanceAs (Decidable (ok s a ∧ ∀ t ∈ step s a, Along step ok t as))

/-- The property holds in every state the run passes through, the first and the last one
included. -/
def Always (step : σ → α → Option σ) (property : σ → Prop) : σ → List α → Prop
  | s, [] => property s
  | s, a :: as => property s ∧ ∀ t ∈ step s a, Always step property t as

variable {step : σ → α → Option σ} {ok : σ → α → Prop} {invariant property : σ → Prop}

@[simp] theorem run_nil (s : σ) : run step s [] = some s := rfl

theorem run_cons (s : σ) (a : α) (as : List α) :
    run step s (a :: as) = (step s a).bind (fun t => run step t as) := rfl

theorem run_append (s : σ) (as bs : List α) :
    run step s (as ++ bs) = (run step s as).bind fun t => run step t bs := by
  induction as generalizing s with
  | nil => rfl
  | cons a as ih =>
      rw [List.cons_append, run_cons, run_cons, Option.bind_assoc]
      exact congrArg _ (funext ih)

theorem run_concat {s t u : σ} {as : List α} {a : α} (first : run step s as = some t)
    (last : step t a = some u) : run step s (as ++ [a]) = some u := by
  rw [run_append, first, Option.bind_some, run_cons, last]
  rfl

/-- Every action of a run was possible. -/
theorem possible_of_mem {s t : σ} {as : List α} (done : run step s as = some t) {a : α}
    (member : a ∈ as) : ∃ before after, step before a = some after := by
  induction as generalizing s with
  | nil => cases member
  | cons b as ih =>
      obtain ⟨middle, first, rest⟩ := Option.bind_eq_some_iff.mp done
      cases member with
      | head => exact ⟨s, middle, first⟩
      | tail _ member => exact ih rest member

/-- An invariant kept by every action that meets the condition holds after every run whose
actions all meet it. -/
theorem run_invariant_of_along
    (keeps : ∀ s a t, invariant s → ok s a → step s a = some t → invariant t)
    {s t : σ} {as : List α} (start : invariant s) (along : Along step ok s as)
    (done : run step s as = some t) : invariant t := by
  induction as generalizing s with
  | nil => exact Option.some.inj done ▸ start
  | cons a as ih =>
      obtain ⟨middle, first, rest⟩ := Option.bind_eq_some_iff.mp done
      exact ih (keeps s a middle start along.1 first) (along.2 middle first) rest

/-- An invariant kept by every action holds after every run. -/
theorem run_invariant (keeps : ∀ s a t, invariant s → step s a = some t → invariant t)
    {s t : σ} {as : List α} (start : invariant s) (done : run step s as = some t) :
    invariant t := by
  induction as generalizing s with
  | nil => exact Option.some.inj done ▸ start
  | cons a as ih =>
      obtain ⟨middle, first, rest⟩ := Option.bind_eq_some_iff.mp done
      exact ih (keeps s a middle start first) rest

theorem Always.head {s : σ} {as : List α} (h : Always step property s as) : property s := by
  cases as with
  | nil => exact h
  | cons a as => exact h.1

theorem Always.last {s t : σ} {as : List α} (h : Always step property s as)
    (done : run step s as = some t) : property t := by
  induction as generalizing s with
  | nil => exact Option.some.inj done ▸ h
  | cons a as ih =>
      obtain ⟨middle, first, rest⟩ := Option.bind_eq_some_iff.mp done
      exact ih (h.2 middle first) rest

theorem Always.mono {property' : σ → Prop} (weaker : ∀ s, property s → property' s) {s : σ}
    {as : List α} (h : Always step property s as) : Always step property' s as := by
  induction as generalizing s with
  | nil => exact weaker s h
  | cons a as ih => exact ⟨weaker s h.1, fun t ht => ih (h.2 t ht)⟩

/-- As `run_invariant_of_along`, for all the states on the way. -/
theorem always_of_along
    (keeps : ∀ s a t, invariant s → ok s a → step s a = some t → invariant t) {s : σ}
    {as : List α} (start : invariant s) (along : Along step ok s as) :
    Always step invariant s as := by
  induction as generalizing s with
  | nil => exact start
  | cons a as ih =>
      exact ⟨start, fun t ht => ih (keeps s a t start along.1 ht) (along.2 t ht)⟩

/-- Where an action that does not meet the condition leads to a state without the property, a
run with the property has no such action. -/
theorem along_of_always
    (only : ∀ s a t, invariant s → step s a = some t → property t → ok s a)
    (keeps : ∀ s a t, invariant s → step s a = some t → invariant t) {s u : σ} {as : List α}
    (start : invariant s) (done : run step s as = some u) (always : Always step property s as) :
    Along step ok s as := by
  induction as generalizing s with
  | nil => trivial
  | cons a as ih =>
      obtain ⟨middle, first, rest⟩ := Option.bind_eq_some_iff.mp done
      refine ⟨only s a middle start first (always.2 middle first).head, fun t ht => ?_⟩
      have same : middle = t := Option.some.inj (first.symm.trans ht)
      subst same
      exact ih (keeps s a middle start first) rest (always.2 middle first)

/-- Where every action takes one from a measure, a run is as long as what it took. -/
theorem run_measure (measure : σ → Nat) (lowers : ∀ s a t, step s a = some t →
    measure t + 1 = measure s) {s t : σ} {as : List α} (done : run step s as = some t) :
    as.length + measure t = measure s := by
  induction as generalizing s with
  | nil =>
      have same : s = t := Option.some.inj done
      rw [same, List.length_nil, Nat.zero_add]
  | cons a as ih =>
      obtain ⟨middle, first, rest⟩ := Option.bind_eq_some_iff.mp done
      have lower := lowers s a middle first
      have shorter := ih rest
      rw [List.length_cons]
      omega

/-- Where every action lowers a measure, each state can be run on to one without an action that is
possible. -/
theorem exists_run_stuck (measure : σ → Nat)
    (lowers : ∀ s a t, invariant s → step s a = some t → measure t < measure s)
    (keeps : ∀ s a t, invariant s → step s a = some t → invariant t) {s : σ} (start : invariant s) :
    ∃ as t, run step s as = some t ∧ invariant t ∧ ∀ a, step t a = none := by
  induction bound : measure s using Nat.strongRecOn generalizing s with
  | ind n ih =>
      by_cases possible : ∃ a t, step s a = some t
      · obtain ⟨a, t, first⟩ := possible
        have lower : measure t < n := bound ▸ lowers s a t start first
        obtain ⟨as, u, rest, ends⟩ := ih _ lower (keeps s a t start first) rfl
        refine ⟨a :: as, u, ?_, ends⟩
        rw [run_cons, first, Option.bind_some, rest]
      · refine ⟨[], s, rfl, start, fun a => ?_⟩
        cases next : step s a with
        | none => rfl
        | some t => exact absurd ⟨a, t, next⟩ possible

end Actions
