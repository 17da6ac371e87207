import Mathlib

/-!
# Tables of slots

A table has a fixed number of slots, and a slot that is not in use holds a blank. Code that goes
through a table stops at the first slot that is not in use, so it only comes to all the slots in
use when these stand in front. Such a table is packed. It stays packed when the first free slot is
taken, and clearing its slots one by one while going through it leaves a blank table.
-/

universe u

namespace Slots

variable {α : Type u}

/-- The first slot that is not in use. -/
def firstFree (used : α → Bool) (slots : List α) : Option Nat := slots.findIdx? fun a => !used a

/-- What a loop that stops at the first slot not in use comes to. -/
def visited (used : α → Bool) (slots : List α) : List α := slots.takeWhile used

/-- A loop that works on the table itself: whether a slot is in use is looked at when the loop
comes to it. It stops behind the last slot. -/
def forEach (used : α → Bool) (body : Nat → List α → List α) : Nat → Nat → List α → List α
  | 0, _, slots => slots
  | left + 1, i, slots =>
      match slots[i]? with
      | none => slots
      | some a => if used a then forEach used body left (i + 1) (body i slots) else slots

/-- The slots in use stand in front of all others, which are blank. -/
structure Packed (used : α → Bool) (blank : α) (front slots : List α) : Prop where
  split : ∃ n, slots = front ++ List.replicate n blank
  inUse : ∀ a ∈ front, used a = true
  unused : used blank = false

theorem length_forEach {used : α → Bool} {body : Nat → List α → List α} {slots : List α}
    (keeps : ∀ i slots, (body i slots).length = slots.length) (left i : Nat) :
    (forEach used body left i slots).length = slots.length := by
  induction left generalizing i slots with
  | zero => rfl
  | succ left ih =>
      rw [forEach]
      split
      · rfl
      · split
        · rw [ih, keeps]
        · rfl

namespace Packed

variable {used : α → Bool} {blank : α} {front slots : List α}

theorem visited (h : Packed used blank front slots) : Slots.visited used slots = front := by
  obtain ⟨n, rfl⟩ := h.split
  rw [Slots.visited, List.takeWhile_append_of_pos h.inUse,
    List.takeWhile_replicate_eq_filter, List.filter_replicate_of_neg (by simp [h.unused]),
    List.append_nil]

theorem filter (h : Packed used blank front slots) : slots.filter used = front := by
  obtain ⟨n, rfl⟩ := h.split
  rw [List.filter_append, List.filter_eq_self.mpr h.inUse,
    List.filter_replicate_of_neg (by simp [h.unused]), List.append_nil]

/-- What is found under an index is in use, or it is blank. -/
theorem getElem? (h : Packed used blank front slots) {i : Nat} {a : α}
    (found : slots[i]? = some a) : front[i]? = some a ∨ a = blank := by
  obtain ⟨n, rfl⟩ := h.split
  rcases Nat.lt_or_ge i front.length with inside | behind
  · rw [List.getElem?_append_left inside] at found
    exact .inl found
  · rw [List.getElem?_append_right behind] at found
    exact .inr (List.eq_of_mem_replicate (List.mem_of_getElem? found))

theorem getElem?_front (h : Packed used blank front slots) {i : Nat} {a : α}
    (found : front[i]? = some a) : slots[i]? = some a := by
  obtain ⟨n, rfl⟩ := h.split
  rw [List.getElem?_append_left (List.getElem?_eq_some_iff.mp found).1, found]

theorem used_iff (h : Packed used blank front slots) {i : Nat} :
    (∃ a, slots[i]? = some a ∧ used a = true) ↔ i < front.length := by
  constructor
  · rintro ⟨a, found, named⟩
    rcases h.getElem? found with inside | rfl
    · exact (List.getElem?_eq_some_iff.mp inside).1
    · exact absurd (h.unused.symm.trans named) Bool.false_ne_true
  · intro inside
    have found : front[i]? = some front[i] := List.getElem?_eq_getElem inside
    exact ⟨front[i], h.getElem?_front found, h.inUse _ (List.getElem_mem inside)⟩

/-- The first free slot stands behind those in use; without one these are all slots. -/
theorem firstFree (h : Packed used blank front slots) :
    Slots.firstFree used slots =
      if slots.length = front.length then none else some front.length := by
  obtain ⟨n, rfl⟩ := h.split
  have skipped : front.findIdx? (fun a => !used a) = none :=
    List.findIdx?_eq_none_iff.mpr fun a member => by rw [h.inUse a member]; rfl
  rw [Slots.firstFree, List.findIdx?_append, skipped]
  cases n with
  | zero => simp
  | succ n => simp [List.replicate_succ, List.findIdx?_cons, h.unused]

section Taken

variable (h : Packed used blank front slots) {i : Nat} (taken : Slots.firstFree used slots = some i)

include h taken

theorem taken_eq : i = front.length ∧ ∃ n, slots = front ++ List.replicate (n + 1) blank := by
  obtain ⟨n, rfl⟩ := h.split
  rw [h.firstFree] at taken
  split at taken
  · cases taken
  · next room =>
      cases taken
      cases n with
      | zero => simp at room
      | succ n => exact ⟨rfl, n, rfl⟩

theorem taken_blank : slots[i]? = some blank := by
  obtain ⟨rfl, n, rfl⟩ := h.taken_eq taken
  rw [List.getElem?_append_right (Nat.le_refl _), Nat.sub_self]
  rfl

/-- A slot that was taken and is cleared again is as it was. -/
theorem set_set_blank (a : α) : (slots.set i a).set i blank = slots := by
  obtain ⟨inside, same⟩ := List.getElem?_eq_some_iff.mp (h.taken_blank taken)
  rw [List.set_set, ← same]
  exact List.set_getElem_self inside

/-- The table with one more slot in use. -/
theorem set {a : α} (inUse : used a = true) : Packed used blank (front ++ [a]) (slots.set i a) := by
  obtain ⟨rfl, n, rfl⟩ := h.taken_eq taken
  refine { split := ⟨n, ?_⟩, inUse := ?_, unused := h.unused }
  · rw [List.set_append_right _ _ (Nat.le_refl _), Nat.sub_self, List.append_assoc]
    rfl
  · intro b member
    rcases List.mem_append.mp member with old | new
    · exact h.inUse b old
    · rwa [List.mem_singleton.mp new]

end Taken

/-- The loop clears the slots in use one after the other, although those it has left behind are no
longer in use. -/
theorem forEach_clear_behind (inUse : ∀ a ∈ front, used a = true) (unused : used blank = false)
    {left : Nat} (enough : front.length ≤ left) (m n : Nat) :
    forEach used (fun i slots => slots.set i blank) left m
        (List.replicate m blank ++ (front ++ List.replicate n blank)) =
      List.replicate (m + (front.length + n)) blank := by
  induction front generalizing left m with
  | nil =>
      rw [List.nil_append, ← List.replicate_add, List.length_nil, Nat.zero_add]
      cases left with
      | zero => rfl
      | succ left =>
          rw [forEach]
          split
          · rfl
          · next a found =>
              rw [List.eq_of_mem_replicate (List.mem_of_getElem? found), unused]
              rfl
  | cons a front ih =>
      cases left with
      | zero => cases enough
      | succ left =>
          have here : (List.replicate m blank ++ (a :: front ++ List.replicate n blank))[m]? =
              some a := by
            rw [List.getElem?_append_right (by simp), List.length_replicate, Nat.sub_self]
            rfl
          have cleared :
              (List.replicate m blank ++ (a :: front ++ List.replicate n blank)).set m blank =
                List.replicate (m + 1) blank ++ (front ++ List.replicate n blank) := by
            rw [List.set_append_right _ _ (by simp), List.length_replicate, Nat.sub_self,
              List.cons_append, List.set_cons_zero, List.replicate_succ', List.append_assoc]
            rfl
          rw [forEach, here]
          simp only [inUse a List.mem_cons_self, if_true]
          rw [cleared, ih (fun b member => inUse b (List.mem_cons_of_mem _ member))
            (Nat.le_of_succ_le_succ enough), List.length_cons]
          congr 1
          omega

theorem forEach_clear (h : Packed used blank front slots) :
    forEach used (fun i slots => slots.set i blank) slots.length 0 slots =
      List.replicate slots.length blank := by
  obtain ⟨n, rfl⟩ := h.split
  have enough : front.length ≤ (front ++ List.replicate n blank).length := by
    rw [List.length_append]
    exact Nat.le_add_right ..
  have size : (front ++ List.replicate n blank).length = front.length + n := by
    rw [List.length_append, List.length_replicate]
  have cleared := forEach_clear_behind h.inUse h.unused enough 0 n
  rwa [List.replicate_zero, List.nil_append, Nat.zero_add, ← size] at cleared

end Packed

end Slots
