import Baseimage.Run.Cells
import Baseimage.Text.CString

/-!
# C strings in blocks of memory

A string stands at the beginning of a block: its characters, a NUL, and further cells of which no
function on strings takes notice. Whatever the C library does to it, it does to the cells, and
where it would read or store outside of the block it has no result. A block that holds a string
and has the room for what is appended stays a block that holds a string.
-/

namespace CString

/-- `strlen`. -/
def strlen : Str → Option Nat
  | [] => none
  | c :: m => if c = nul then some 0 else (strlen m).map (· + 1)

/-- `strcat`: store a string and its NUL where the NUL of another one stands. -/
def strcat (m s : Str) : Option Str := strlen m >>= fun n => Cells.storeAll m n (s ++ [nul])

/-- `realloc` that succeeds. The cells that are new hold anything. -/
def realloc (m : Str) (size : Nat) (fresh : Nat → Char) : Str :=
  List.ofFn fun i : Fin size => m[i.val]?.getD (fresh i)

/-- A string stands at the beginning of the block. -/
structure Stands (m text : Str) : Prop where
  nulFree : NulFree text
  cells : ∃ rest, m = text ++ nul :: rest

section Stands

variable {m text s : Str}

theorem Stands.length_lt (h : Stands m text) : text.length < m.length := by
  obtain ⟨rest, rfl⟩ := h.cells
  rw [List.length_append, List.length_cons]
  omega

theorem Stands.ofBuffer (h : Stands m text) : ofBuffer m = text := by
  obtain ⟨rest, rfl⟩ := h.cells
  exact ofBuffer_append_nul h.nulFree rest

theorem Stands.unique {text' : Str} (h : Stands m text) (h' : Stands m text') : text = text' :=
  h.ofBuffer.symm.trans h'.ofBuffer

theorem strlen_append (free : NulFree text) (rest : Str) :
    strlen (text ++ nul :: rest) = some text.length := by
  induction text with
  | nil => rfl
  | cons c text ih =>
      have other : c ≠ nul := fun same => free (same ▸ List.mem_cons_self)
      have later : NulFree text := fun member => free (List.mem_cons_of_mem _ member)
      rw [List.cons_append, strlen, if_neg other, ih later]
      rfl

theorem Stands.strlen (h : Stands m text) : strlen m = some text.length := by
  obtain ⟨rest, rfl⟩ := h.cells
  exact strlen_append h.nulFree rest

/-- There is room for the string that is appended. -/
theorem Stands.strcat (h : Stands m text) (free : NulFree s)
    (room : text.length + s.length < m.length) :
    ∃ m', strcat m s = some m' ∧ m'.length = m.length ∧ Stands m' (text ++ s) := by
  obtain ⟨rest, rfl⟩ := h.cells
  rw [List.length_append, List.length_cons] at room
  -- The cells that are stored in: the old NUL and what stands behind it.
  let old := (nul :: rest).take (s.length + 1)
  let after := (nul :: rest).drop (s.length + 1)
  have cut : nul :: rest = old ++ after := (List.take_append_drop _ _).symm
  have same : old.length = (s ++ [nul]).length := by
    rw [List.length_take, List.length_append, List.length_cons, List.length_singleton]
    omega
  have stored := Cells.storeAll_append text after old (s ++ [nul]) same
  refine ⟨text ++ (s ++ [nul] ++ after), ?_, ?_, nulFree_append.mpr ⟨h.nulFree, free⟩, after, ?_⟩
  · rw [CString.strcat, h.strlen, cut]
    exact stored
  · rw [cut]
    simp only [List.length_append] at same ⊢
    rw [same]
  · rw [List.append_assoc, List.append_assoc]
    rfl

/-- Storing a NUL in the first cell makes the string empty. -/
theorem stands_store (room : 0 < m.length) :
    ∃ m', Cells.store m 0 nul = some m' ∧ m'.length = m.length ∧ Stands m' [] := by
  cases m with
  | nil => cases room
  | cons c m => exact ⟨nul :: m, rfl, rfl, List.not_mem_nil, m, rfl⟩

@[simp] theorem length_realloc (m : Str) (size : Nat) (fresh : Nat → Char) :
    (realloc m size fresh).length = size := List.length_ofFn

/-- The string is kept when the block grows. -/
theorem Stands.realloc (h : Stands m text) {size : Nat} (grows : m.length ≤ size)
    (fresh : Nat → Char) : Stands (realloc m size fresh) text := by
  obtain ⟨rest, rfl⟩ := h.cells
  have front : (text ++ nul :: rest) <+: CString.realloc (text ++ nul :: rest) size fresh := by
    rw [List.prefix_iff_getElem?]
    intro i inside
    rw [CString.realloc, List.getElem?_ofFn, dif_pos (Nat.lt_of_lt_of_le inside grows),
      List.getElem?_eq_getElem inside]
    rfl
  obtain ⟨more, whole⟩ := front
  refine ⟨h.nulFree, rest ++ more, ?_⟩
  rw [← whole, List.append_assoc]
  rfl

end Stands

end CString
