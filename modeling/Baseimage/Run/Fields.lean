import Mathlib

/-!
# Records that are filled in from entries in any order

Code goes through the entries of a directory in the order in which they come, and each sets the
field of its name. No name comes twice, so an entry finds its field as it was in the beginning, and
what is set is not set again.
-/

namespace Fields

universe u v w

variable {σ : Type u} {α : Type v} {ν : Type w} {step : σ → α → Option σ} {name : α → ν}

/-- What the entries of other names leave as it is. -/
def Own (step : σ → α → Option σ) (name : α → ν) (field : σ → Prop) (key : ν) : Prop :=
  ∀ s a t, step s a = some t → name a ≠ key → (field s ↔ field t)

/-- A field for which there is no entry. -/
theorem untouched {field : σ → Prop} {key : ν} (own : Own step name field key) {entries : List α}
    (absent : ∀ a ∈ entries, name a ≠ key) {s t : σ} (done : entries.foldlM step s = some t) :
    field s ↔ field t := by
  induction entries generalizing s with
  | nil => rw [Option.some.inj done]
  | cons a entries ih =>
      rw [List.foldlM_cons] at done
      obtain ⟨u, first, rest⟩ := Option.bind_eq_some_iff.mp done
      exact (own s a u first (absent a List.mem_cons_self)).trans
        (ih (fun b member => absent b (List.mem_cons_of_mem a member)) rest)

/-- The entry of a field finds it as it was, and leaves it as it stays. -/
theorem touched {entries : List α} (nodup : (entries.map name).Nodup) {a : α} (member : a ∈ entries)
    {s t : σ} (done : entries.foldlM step s = some t) :
    ∃ u v, step u a = some v ∧ ∀ field : σ → Prop, Own step name field (name a) →
      (field s ↔ field u) ∧ (field v ↔ field t) := by
  obtain ⟨front, back, rfl⟩ := List.append_of_mem member
  rw [List.foldlM_append] at done
  obtain ⟨u, before, done⟩ := Option.bind_eq_some_iff.mp done
  rw [List.foldlM_cons] at done
  obtain ⟨v, first, after⟩ := Option.bind_eq_some_iff.mp done
  rw [List.map_append, List.map_cons] at nodup
  have inFront : ∀ b ∈ front, name b ≠ name a := by
    intro b inside same
    have apart := (List.nodup_append.mp nodup).2.2
    exact apart _ (List.mem_map_of_mem inside) _ List.mem_cons_self same
  have inBack : ∀ b ∈ back, name b ≠ name a := by
    intro b inside same
    have fresh := (List.nodup_cons.mp (List.nodup_append.mp nodup).2.1).1
    exact fresh (same ▸ List.mem_map_of_mem inside)
  exact ⟨u, v, first, fun field own => ⟨untouched own inFront before, untouched own inBack after⟩⟩

/-- Every entry can be taken where its own field is as it was in the beginning. -/
theorem complete {fresh : ν → σ → Prop} (own : ∀ key, Own step name (fresh key) key)
    {entries : List α} (nodup : (entries.map name).Nodup)
    (accepted : ∀ a ∈ entries, ∀ s, fresh (name a) s → ∃ t, step s a = some t) {s : σ}
    (begun : ∀ key, fresh key s) : ∃ t, entries.foldlM step s = some t := by
  suffices partially :
    ∀ s, (∀ a ∈ entries, fresh (name a) s) → ∃ t, entries.foldlM step s = some t from
    partially s fun a _ => begun (name a)
  clear begun
  induction entries with
  | nil => exact fun s _ => ⟨s, rfl⟩
  | cons a entries ih =>
      intro s begun
      rw [List.map_cons] at nodup
      obtain ⟨absent, nodup⟩ := List.nodup_cons.mp nodup
      obtain ⟨u, first⟩ := accepted a List.mem_cons_self s (begun a List.mem_cons_self)
      have onward : ∀ b ∈ entries, fresh (name b) u := by
        intro b member
        refine (own (name b) s a u first fun same => ?_).mp
          (begun b (List.mem_cons_of_mem a member))
        exact absent (same ▸ List.mem_map_of_mem member)
      obtain ⟨t, rest⟩ :=
        ih nodup (fun b member => accepted b (List.mem_cons_of_mem a member)) u onward
      refine ⟨t, ?_⟩
      rw [List.foldlM_cons, first]
      exact rest

end Fields
