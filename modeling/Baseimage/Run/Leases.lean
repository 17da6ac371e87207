import Baseimage.Run.Actions

/-!
# Resources that are held for a time

A holder takes a resource and has it until the resource is given back. The rules are that a holder
has one resource at most, that a resource has one holder at most, and that a holder only uses what
it has. A log that follows them says by itself who has what: what was taken and not given back
since.
-/

namespace Leases

variable {ι κ : Type*} [DecidableEq ι] [DecidableEq κ]

inductive Action (ι κ : Type*) where
  | take (holder : ι) (resource : κ)
  | giveBack (resource : κ)
  | use (holder : ι) (resource : κ)
  /-- Something that has nothing to do with the resources. -/
  | aside

/-- The resources that are held, with their holders. -/
abbrev Held (ι κ : Type*) := List (κ × ι)

def step (held : Held ι κ) : Action ι κ → Option (Held ι κ)
  | .take holder resource =>
      if ∀ lease ∈ held, lease.1 ≠ resource ∧ lease.2 ≠ holder then
        some ((resource, holder) :: held)
      else none
  | .giveBack resource => some (held.filter fun lease => lease.1 != resource)
  | .use holder resource => if (resource, holder) ∈ held then some held else none
  | .aside => some held

variable {i j : ι} {p q : κ} {held held' : Held ι κ} {log before between after : List (Action ι κ)}

theorem step_take (free : ∀ lease ∈ held, lease.1 ≠ p ∧ lease.2 ≠ i) :
    step held (.take i p) = some ((p, i) :: held) := if_pos free

theorem step_use (own : (p, i) ∈ held) : step held (.use i p) = some held := if_pos own

/-- What an action makes of a lease that exists. -/
theorem mem_of_step {a : Action ι κ} (own : (p, i) ∈ held) (kept : a ≠ .giveBack p)
    (done : step held a = some held') : (p, i) ∈ held' := by
  cases a with
  | take holder resource =>
      obtain ⟨-, ⟨⟩⟩ := Option.ite_none_right_eq_some.mp done
      exact List.mem_cons_of_mem _ own
  | giveBack resource =>
      obtain rfl := Option.some.inj done
      have other : p ≠ resource := fun same => kept (same ▸ rfl)
      exact List.mem_filter.mpr ⟨own, bne_iff_ne.mpr other⟩
  | use holder resource =>
      obtain ⟨-, ⟨⟩⟩ := Option.ite_none_right_eq_some.mp done
      exact own
  | aside =>
      obtain rfl := Option.some.inj done
      exact own

/-- Where a lease comes from. -/
theorem of_mem_step {a : Action ι κ} (done : step held a = some held') (own : (p, i) ∈ held') :
    a = .take i p ∨ (a ≠ .giveBack p ∧ (p, i) ∈ held) := by
  cases a with
  | take holder resource =>
      obtain ⟨-, ⟨⟩⟩ := Option.ite_none_right_eq_some.mp done
      rcases List.mem_cons.mp own with new | old
      · obtain ⟨rfl, rfl⟩ := Prod.mk.inj new
        exact .inl rfl
      · exact .inr ⟨nofun, old⟩
  | giveBack resource =>
      obtain rfl := Option.some.inj done
      obtain ⟨old, other⟩ := List.mem_filter.mp own
      refine .inr ⟨?_, old⟩
      rintro ⟨rfl⟩
      simp at other
  | use holder resource =>
      obtain ⟨-, ⟨⟩⟩ := Option.ite_none_right_eq_some.mp done
      exact .inr ⟨nofun, own⟩
  | aside =>
      obtain rfl := Option.some.inj done
      exact .inr ⟨nofun, own⟩

/-- A lease lasts until the resource is given back. -/
theorem mem_of_run (own : (p, i) ∈ held) (kept : .giveBack p ∉ log)
    (done : Actions.run step held log = some held') : (p, i) ∈ held' := by
  induction log generalizing held with
  | nil => exact Option.some.inj done ▸ own
  | cons a log ih =>
      obtain ⟨next, first, rest⟩ := Option.bind_eq_some_iff.mp done
      have still := mem_of_step own (fun back => kept (back ▸ List.mem_cons_self)) first
      exact ih still (fun back => kept (List.mem_cons_of_mem _ back)) rest

/-- What is held was taken, and not given back since. -/
theorem taken_of_mem (done : Actions.run step [] log = some held) (own : (p, i) ∈ held) :
    ∃ before after, log = before ++ .take i p :: after ∧ .giveBack p ∉ after := by
  induction log using List.reverseRecOn generalizing held with
  | nil =>
      obtain rfl := Option.some.inj done
      exact absurd own List.not_mem_nil
  | append_singleton log a ih =>
      rw [Actions.run_append] at done
      obtain ⟨middle, first, rest⟩ := Option.bind_eq_some_iff.mp done
      obtain ⟨next, last, ⟨⟩⟩ := Option.bind_eq_some_iff.mp rest
      rcases of_mem_step last own with rfl | ⟨kept, old⟩
      · exact ⟨log, [], rfl, List.not_mem_nil⟩
      · obtain ⟨before, after, rfl, notBack⟩ := ih first old
        refine ⟨before, after ++ [a], by simp, fun back => ?_⟩
        rcases List.mem_append.mp back with back | back
        · exact notBack back
        · exact kept (List.mem_singleton.mp back).symm

/-- The state a run has come to before one of its actions. -/
theorem run_split {a : Action ι κ}
    (done : Actions.run step held (before ++ a :: after) = some held') :
    ∃ middle next, Actions.run step held before = some middle ∧ step middle a = some next ∧
      Actions.run step next after = some held' := by
  rw [Actions.run_append] at done
  obtain ⟨middle, first, rest⟩ := Option.bind_eq_some_iff.mp done
  obtain ⟨next, act, last⟩ := Option.bind_eq_some_iff.mp rest
  exact ⟨middle, next, first, act, last⟩

/-- Between two takes by one holder, or of one resource, the first resource is given back. -/
theorem giveBack_between
    (done : Actions.run step held (before ++ .take i p :: (between ++ .take j q :: after)) =
      some held') (clash : i = j ∨ p = q) : .giveBack p ∈ between := by
  by_contra kept
  obtain ⟨middle, next, -, taken, rest⟩ := run_split done
  obtain ⟨-, ⟨⟩⟩ := Option.ite_none_right_eq_some.mp taken
  obtain ⟨late, last, while', again, -⟩ := run_split rest
  have still := mem_of_run List.mem_cons_self kept while'
  obtain ⟨free, -⟩ := Option.ite_none_right_eq_some.mp again
  rcases clash with rfl | rfl
  · exact (free _ still).2 rfl
  · exact (free _ still).1 rfl

/-- Where nothing is held at the end, all that was taken was given back. -/
theorem giveBack_after (done : Actions.run step held (before ++ .take i p :: after) = some []) :
    .giveBack p ∈ after := by
  by_contra kept
  obtain ⟨middle, next, -, taken, rest⟩ := run_split done
  obtain ⟨-, ⟨⟩⟩ := Option.ite_none_right_eq_some.mp taken
  exact absurd (mem_of_run List.mem_cons_self kept rest) List.not_mem_nil

/-- A holder uses what it took last and has not given back. -/
theorem taken_before_use (done : Actions.run step [] (before ++ .use i p :: after) = some held') :
    ∃ earlier since, before = earlier ++ .take i p :: since ∧ .giveBack p ∉ since := by
  obtain ⟨middle, next, first, used, -⟩ := run_split done
  obtain ⟨own, -⟩ := Option.ite_none_right_eq_some.mp used
  exact taken_of_mem first own

/-- No resource has two holders. -/
theorem nodup_of_run (done : Actions.run step [] log = some held) :
    (held.map Prod.fst).Nodup := by
  have keeps : ∀ (s : Held ι κ) a t, (s.map Prod.fst).Nodup → step s a = some t →
      (t.map Prod.fst).Nodup := by
    intro s a t distinct act
    cases a with
    | take holder resource =>
        obtain ⟨free, ⟨⟩⟩ := Option.ite_none_right_eq_some.mp act
        refine List.nodup_cons.mpr ⟨fun member => ?_, distinct⟩
        obtain ⟨lease, old, same⟩ := List.mem_map.mp member
        exact (free lease old).1 same
    | giveBack resource =>
        obtain rfl := Option.some.inj act
        exact distinct.sublist (List.filter_sublist.map _)
    | use holder resource =>
        obtain ⟨-, ⟨⟩⟩ := Option.ite_none_right_eq_some.mp act
        exact distinct
    | aside =>
        obtain rfl := Option.some.inj act
        exact distinct
  exact Actions.run_invariant keeps (s := []) List.nodup_nil done

omit [DecidableEq ι] in
/-- Who has a resource is found by looking it up. -/
theorem lookup_iff (distinct : (held.map Prod.fst).Nodup) :
    held.lookup p = some i ↔ (p, i) ∈ held := by
  induction held with
  | nil => simp
  | cons lease held ih =>
      obtain ⟨q, j⟩ := lease
      obtain ⟨fresh, distinct⟩ := List.nodup_cons.mp distinct
      rw [List.lookup_cons, List.mem_cons, Prod.mk.injEq]
      by_cases same : p = q
      · subst same
        have notOlder : (p, i) ∉ held := fun old => fresh (List.mem_map.mpr ⟨_, old, rfl⟩)
        simp [notOlder, eq_comm]
      · rw [beq_false_of_ne same]
        simp [same, ih distinct]

end Leases
