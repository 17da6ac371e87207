import Baseimage.Text.Lines

/-!
# C strings

A string is the list of its characters; the terminating NUL is not part of the list. A `Char`
stands for one byte. The functions of the C library that the sources use are given here under
their C names.
-/

/-- The bytes of a buffer, or the characters of a C string before its NUL. -/
abbrev Str := List Char

namespace CString

def nul : Char := Char.ofNat 0

/-- What a C function sees of a buffer: the characters before the first NUL. -/
def ofBuffer (buf : Str) : Str := buf.takeWhile (fun c => c != nul)

/-- `strchr`: split the string at the first occurrence of a character. -/
def strchr (c : Char) (s : Str) : Option (Str × Str) := Lines.splitFirst (fun x => x == c) s

/-- The string has no NUL inside, so C functions see all of it. -/
def NulFree (s : Str) : Prop := nul ∉ s

instance (s : Str) : Decidable (NulFree s) := inferInstanceAs (Decidable (nul ∉ s))

theorem nulFree_append {s t : Str} : NulFree (s ++ t) ↔ NulFree s ∧ NulFree t := by
  simp [NulFree]

theorem ofBuffer_of_nulFree {s : Str} (h : NulFree s) : ofBuffer s = s := by
  induction s with
  | nil => rfl
  | cons c cs ih =>
      obtain ⟨hc, hcs⟩ : nul ≠ c ∧ nul ∉ cs := by simpa [NulFree] using h
      simpa [ofBuffer, Ne.symm hc] using ih hcs

/-- The string that ends at a NUL. -/
theorem ofBuffer_append_nul {s : Str} (h : NulFree s) (after : Str) :
    ofBuffer (s ++ nul :: after) = s := by
  have visible : ∀ x ∈ s, (x != nul) = true :=
    fun x hx => bne_iff_ne.mpr fun same => h (same ▸ hx)
  rw [ofBuffer, List.takeWhile_append_of_pos visible, List.takeWhile_cons_of_neg (by simp),
    List.append_nil]

theorem strchr_eq_none_iff {c : Char} {s : Str} : strchr c s = none ↔ c ∉ s := by
  rw [strchr, Lines.splitFirst_eq_none_iff]
  simp only [Lines.Open, beq_eq_false_iff_ne]
  grind

/-- `strchr` finds the first occurrence: the part before it is free of the character. -/
theorem strchr_eq_some {c : Char} {s before after : Str} (h : strchr c s = some (before, after)) :
    s = before ++ c :: after ∧ c ∉ before := by
  obtain ⟨t, hs, ht, hbefore⟩ := Lines.splitFirst_eq_some h
  obtain rfl : t = c := by simpa using ht
  exact ⟨hs, fun member => absurd (hbefore t member) (by simp)⟩

theorem strchr_append_cons {c : Char} {before : Str} (h : c ∉ before) (after : Str) :
    strchr c (before ++ c :: after) = some (before, after) := by
  have apart : Lines.Open (fun x => x == c) before :=
    fun x hx => beq_false_of_ne fun same => h (same ▸ hx)
  exact Lines.splitFirst_append_cons apart (by simp) after

theorem strchr_length {c : Char} {s before after : Str} (h : strchr c s = some (before, after)) :
    after.length < s.length :=
  Lines.splitFirst_length h

/-- The length of a text that is put together from parts of known lengths. -/
theorem length_append_of {a b : Str} {m n : Nat} (ha : a.length = m) (hb : b.length = n) :
    (a ++ b).length = m + n := by
  rw [List.length_append, ha, hb]

end CString
