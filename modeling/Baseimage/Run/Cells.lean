import Mathlib

/-!
# Blocks of memory

A block is the list of its cells. Code that reads or stores outside of it has no result, so code
with a result stayed inside. The rules have the block cut where the code works on it.
-/

universe u

namespace Cells

variable {α : Type u}

/-- Read a cell. -/
def load (cells : List α) (i : Nat) : Option α := cells[i]?

/-- Store in a cell. -/
def store (cells : List α) (i : Nat) (a : α) : Option (List α) :=
  if i < cells.length then some (cells.set i a) else none

/-- Store in consecutive cells. -/
def storeAll (cells : List α) (i : Nat) : List α → Option (List α)
  | [] => some cells
  | a :: as => store cells i a >>= fun cells => storeAll cells (i + 1) as

@[simp] theorem load_append (before after : List α) (a : α) :
    load (before ++ a :: after) before.length = some a := by
  rw [load, List.getElem?_append_right (Nat.le_refl _), Nat.sub_self]
  rfl

/-- The cell behind a cell. -/
@[simp] theorem load_append_succ (before after : List α) (a b : α) :
    load (before ++ a :: b :: after) (before.length + 1) = some b := by
  have next := load_append (before ++ [a]) after b
  rwa [List.append_assoc, List.length_append] at next

@[simp] theorem store_append (before after : List α) (a b : α) :
    store (before ++ a :: after) before.length b = some (before ++ b :: after) := by
  rw [store, if_pos (by simp), List.set_append_right _ _ (Nat.le_refl _), Nat.sub_self]
  rfl

/-! Code that goes on with what it has read, or behind a store. -/

section Code

variable {β : Type u} (before after : List α) (a b : α)

theorem load_bind (f : α → Option β) :
    (load (before ++ a :: after) before.length >>= f) = f a := by
  rw [load_append]
  rfl

theorem load_succ_bind (f : α → Option β) :
    (load (before ++ a :: b :: after) (before.length + 1) >>= f) = f b := by
  rw [load_append_succ]
  rfl

theorem store_bind (f : List α → Option β) :
    (store (before ++ a :: after) before.length b >>= f) = f (before ++ b :: after) := by
  rw [store_append]
  rfl

end Code

theorem storeAll_append (before after old new : List α) (same : old.length = new.length) :
    storeAll (before ++ (old ++ after)) before.length new = some (before ++ (new ++ after)) := by
  induction new generalizing before old with
  | nil =>
      rw [List.eq_nil_of_length_eq_zero same]
      rfl
  | cons b new ih =>
      cases old with
      | nil => cases same
      | cons a old =>
          have rest := ih (before ++ [b]) _ (Nat.succ.inj same)
          rw [List.append_assoc, List.append_assoc, List.length_append] at rest
          rw [List.cons_append, storeAll, store_append]
          exact rest

end Cells
