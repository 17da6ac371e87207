import Baseimage.Cinit.Utils
import Baseimage.Run.Cells

/-!
# Splitting a string in place

`remove_duplicated_char`, `remove_all_char` and `split` work in the buffer they are given. The two
filters move the rest of the string by one place whenever they drop a character, and call
themselves twice: on the string that is left and on its rest. `split` counts the tokens, allocates
a vector for them, and fills it while it puts NULs in the place of the delimiters.

They are given here as functions on a block of memory, where an access outside of the block has no
result. On the block of a string and its NUL they have a result, which is what the functions on
strings return.
-/

namespace Baseimage.Cinit

/-! ## The tokens of a string -/

/-- Runs of the character have become single ones, and nothing else has changed. -/
inductive RunsCollapsed (c : Char) : Str → Str → Prop
  | nil : RunsCollapsed c [] []
  | other {x : Char} {s t : Str} (different : x ≠ c) (rest : RunsCollapsed c s t) :
      RunsCollapsed c (x :: s) (x :: t)
  | run (n : Nat) {s t : Str} (maximal : s.head? ≠ some c) (rest : RunsCollapsed c s t) :
      RunsCollapsed c (List.replicate (n + 1) c ++ s) (c :: t)

/-- The non-empty segments between the delimiters. -/
def segments (c : Char) (s : Str) : List Str := (s.splitOn c).filter fun segment => segment ≠ []

section Tokens

variable {c : Char}

theorem removeDuplicatedChar_cons_of_ne {x : Char} (different : x ≠ c) (s : Str) :
    removeDuplicatedChar c (x :: s) = x :: removeDuplicatedChar c s := by
  cases s with
  | nil => rfl
  | cons y s => rw [removeDuplicatedChar, if_neg fun both => different both.1]

theorem removeDuplicatedChar_cons_of_head {s : Str} (alone : s.head? ≠ some c) :
    removeDuplicatedChar c (c :: s) = c :: removeDuplicatedChar c s := by
  cases s with
  | nil => rfl
  | cons y s =>
      rw [removeDuplicatedChar, if_neg fun both => alone (congrArg some both.2)]

theorem removeDuplicatedChar_cons_cons (s : Str) :
    removeDuplicatedChar c (c :: c :: s) = removeDuplicatedChar c (c :: s) := by
  rw [removeDuplicatedChar, if_pos ⟨rfl, rfl⟩]

/-- The run at the front of a string. -/
theorem exists_replicate_append (c : Char) (s : Str) :
    ∃ n rest, s = List.replicate n c ++ rest ∧ rest.head? ≠ some c := by
  induction s with
  | nil => exact ⟨0, [], rfl, nofun⟩
  | cons x s ih =>
      by_cases same : x = c
      · obtain ⟨n, rest, rfl, maximal⟩ := ih
        exact ⟨n + 1, rest, by rw [same]; rfl, maximal⟩
      · exact ⟨0, x :: s, rfl, fun h => same (Option.some.inj h)⟩

theorem removeDuplicatedChar_run (n : Nat) {s : Str} (maximal : s.head? ≠ some c) :
    removeDuplicatedChar c (List.replicate (n + 1) c ++ s) = c :: removeDuplicatedChar c s := by
  induction n with
  | zero => exact removeDuplicatedChar_cons_of_head maximal
  | succ n ih =>
      rw [List.replicate_succ, List.replicate_succ, List.cons_append, List.cons_append,
        removeDuplicatedChar_cons_cons]
      exact ih

/-- A run becomes a single character, and nothing else changes. -/
theorem removeDuplicatedChar_collapses (c : Char) (s : Str) :
    RunsCollapsed c s (removeDuplicatedChar c s) := by
  induction hlen : s.length using Nat.strongRecOn generalizing s with
  | ind n ih =>
      cases s with
      | nil => exact .nil
      | cons x s =>
          by_cases same : x = c
          · obtain ⟨m, rest, rfl, maximal⟩ := exists_replicate_append c s
            rw [same, ← List.cons_append, ← List.replicate_succ, removeDuplicatedChar_run m maximal]
            refine .run m maximal (ih rest.length ?_ rest rfl)
            rw [← hlen, List.length_cons, List.length_append]
            omega
          · rw [removeDuplicatedChar_cons_of_ne same]
            exact .other same (ih s.length (by rw [← hlen]; exact Nat.lt_succ_self _) s rfl)

theorem segments_cons_self (c : Char) (s : Str) : segments c (c :: s) = segments c s := by
  have cut : (([] : Str) ++ c :: s).splitOn c = _ :=
    List.splitOn_append_cons_self_of_not_mem List.not_mem_nil s
  rw [List.nil_append] at cut
  rw [segments, cut, List.filter_cons_of_neg (by simp)]
  rfl

theorem segments_append_cons {token : Str} (free : c ∉ token) (full : token ≠ []) (rest : Str) :
    segments c (token ++ c :: rest) = token :: segments c rest := by
  rw [segments, List.splitOn_append_cons_self_of_not_mem free,
    List.filter_cons_of_pos (by simpa using full)]
  rfl

theorem segments_of_not_mem {token : Str} (free : c ∉ token) (full : token ≠ []) :
    segments c token = [token] := by
  rw [segments, List.splitOn_eq_singleton free, List.filter_cons_of_pos (by simpa using full)]
  rfl

theorem segments_replicate_append (n : Nat) (s : Str) :
    segments c (List.replicate n c ++ s) = segments c s := by
  induction n with
  | zero => rfl
  | succ n ih =>
      rw [List.replicate_succ, List.cons_append, segments_cons_self, ih]

theorem removeDuplicatedChar_of_not_mem {token : Str} (free : c ∉ token) (rest : Str) :
    removeDuplicatedChar c (token ++ rest) = token ++ removeDuplicatedChar c rest := by
  induction token with
  | nil => rfl
  | cons x token ih =>
      obtain ⟨different, free⟩ := List.ne_and_not_mem_of_not_mem_cons free
      rw [List.cons_append, removeDuplicatedChar_cons_of_ne different.symm, ih free,
        List.cons_append]

theorem removeDuplicatedChar_eq_nil_iff {s : Str} : removeDuplicatedChar c s = [] ↔ s = [] := by
  constructor
  · intro h
    have collapsed := removeDuplicatedChar_collapses c s
    rw [h] at collapsed
    cases collapsed
    rfl
  · rintro rfl
    rfl

/-- The token in front: a string that is empty or begins with the delimiter begins with an empty
one. -/
def emptyToken (c : Char) (s : Str) : List Str := if s = [] ∨ s.head? = some c then [[]] else []

theorem split_of_not_mem {s : Str} (free : c ∉ s) : split c s = [s] := by
  have alone : removeDuplicatedChar c s = s := by
    have same := removeDuplicatedChar_of_not_mem free []
    rwa [List.append_nil, show removeDuplicatedChar c [] = [] from rfl, List.append_nil] at same
  rw [split, alone, tokens, CString.strchr_eq_none_iff.mpr free]

/-- A token that ends at a run of delimiters. What follows an ending run is not a token. -/
theorem split_append_run {token later : Str} (before : c ∉ token) (m : Nat)
    (maximal : later.head? ≠ some c) :
    split c (token ++ c :: (List.replicate m c ++ later)) =
      token :: if later = [] then [] else split c later := by
  have collapsed : removeDuplicatedChar c (token ++ c :: (List.replicate m c ++ later)) =
      token ++ c :: removeDuplicatedChar c later := by
    rw [removeDuplicatedChar_of_not_mem before, ← List.cons_append, ← List.replicate_succ,
      removeDuplicatedChar_run m maximal]
  have found : CString.strchr c (token ++ c :: removeDuplicatedChar c later) =
      some (token, removeDuplicatedChar c later) := CString.strchr_append_cons before _
  rw [split, collapsed, tokens, found]
  dsimp only
  by_cases empty : later = []
  · rw [if_pos empty, if_pos (removeDuplicatedChar_eq_nil_iff.mpr empty)]
  · rw [if_neg empty, if_neg (mt removeDuplicatedChar_eq_nil_iff.mp empty)]
    rfl

/-- `split` returns the segments between the delimiters, and an empty token in front of them when
the string begins with a delimiter or is empty. -/
theorem split_eq (c : Char) (s : Str) : split c s = emptyToken c s ++ segments c s := by
  induction hlen : s.length using Nat.strongRecOn generalizing s with
  | ind n ih =>
      by_cases free : c ∈ s
      · obtain ⟨token, rest, rfl, before⟩ := List.eq_append_cons_of_mem free
        obtain ⟨m, later, rfl, maximal⟩ := exists_replicate_append c rest
        have rest : (if later = [] then [] else split c later) = segments c later := by
          split
          · next empty =>
              rw [empty]
              rfl
          · next full =>
              have shorter : later.length < n := by
                rw [← hlen, List.length_append, List.length_cons, List.length_append]
                omega
              have noToken : emptyToken c later = [] := if_neg (not_or.mpr ⟨full, maximal⟩)
              rw [ih later.length shorter later rfl, noToken, List.nil_append]
        rw [split_append_run before m maximal, rest]
        by_cases full : token = []
        · subst full
          rw [List.nil_append, segments_cons_self, segments_replicate_append, emptyToken,
            if_pos (.inr rfl), List.singleton_append]
        · have head : (token ++ c :: (List.replicate m c ++ later)).head? ≠ some c := by
            obtain ⟨x, xs, rfl⟩ := List.exists_cons_of_ne_nil full
            exact fun h => before (Option.some.inj h ▸ List.mem_cons_self)
          rw [segments_append_cons before full, segments_replicate_append, emptyToken,
            if_neg (not_or.mpr ⟨by simp, head⟩), List.nil_append]
      · rw [split_of_not_mem free]
        by_cases empty : s = []
        · subst empty
          rfl
        · have head : s.head? ≠ some c := fun h => free (List.mem_of_mem_head? h)
          rw [segments_of_not_mem free empty, emptyToken, if_neg (not_or.mpr ⟨empty, head⟩),
            List.nil_append]

end Tokens

/-! ## In the buffer -/

open CString Cells

/-- The loop that moves a string by one place to the front. -/
def moveLeft : Nat → Str → Nat → Option Str
  | 0, _, _ => none
  | n + 1, m, i =>
      load m i >>= fun here =>
        if here = nul then some m
        else
          load m (i + 1) >>= fun next => store m i next >>= fun m => moveLeft n m (i + 1)

/-- A filter that works in place: a character that is to be dropped is overwritten by the rest of
the string, and what is there then is filtered; then the rest is. -/
def filterInPlace (drops : Str → Nat → Option Bool) : Nat → Str → Nat → Option Str
  | 0, _, _ => none
  | n + 1, m, s =>
      load m s >>= fun first =>
        if first = nul then some m
        else
          drops m s >>= fun drop =>
            (if drop then moveLeft m.length m s >>= fun m => filterInPlace drops n m s
              else some m) >>= fun m =>
              filterInPlace drops n m (s + 1)

/-- `remove_duplicated_char`. -/
def removeDuplicatedCharInPlace (m : Str) (s : Nat) (c : Char) : Option Str :=
  filterInPlace
    (fun m s => load m s >>= fun first => load m (s + 1) >>= fun second =>
      some (first = second ∧ first = c))
    m.length m s

/-- `remove_all_char`. -/
def removeAllCharInPlace (m : Str) (s : Nat) (c : Char) : Option Str :=
  filterInPlace (fun m s => load m s >>= fun first => some (first = c)) m.length m s

/-- "Count tokens". -/
def countTokens (c : Char) : Nat → Str → Nat → Nat → Option Nat
  | 0, _, _, _ => none
  | n + 1, m, s, numTokens =>
      load m s >>= fun here =>
        if here = nul then some numTokens
        else countTokens c n m (s + 1) (if here = c then numTokens + 1 else numTokens)

/-- "Get the next token": the end of the token that begins at `s`. -/
def tokenEnd (c : Char) : Nat → Str → Nat → Option Nat
  | 0, _, _ => none
  | n + 1, m, s =>
      load m s >>= fun here =>
        if here ≠ nul ∧ here ≠ c then tokenEnd c n m (s + 1) else some s

/-- "Fill the vector": the buffer, the vector and the number of its slots that are used. -/
def fillVector (c : Char) :
    Nat → Str → List (Option Nat) → Nat → Nat → Option (Str × List (Option Nat) × Nat)
  | 0, _, _, _, _ => none
  | n + 1, m, vector, w, s =>
      tokenEnd c m.length m s >>= fun s =>
        load m s >>= fun here =>
          if here = nul then some (m, vector, w)
          else
            store m s nul >>= fun m =>
              load m (s + 1) >>= fun next =>
                if next = nul then some (m, vector, w)
                else
                  store vector w (some (s + 1)) >>= fun vector =>
                    fillVector c n m vector (w + 1) (s + 1)

/-- `split`: the buffer afterwards, and the vector with its length, or a null pointer. -/
def splitInPlace (malloc : Nat → Bool) (m : Str) (buf : Nat) (c : Char) (plus ofs : Nat) :
    Option (Str × Option (List (Option Nat) × Nat)) :=
  removeDuplicatedCharInPlace m buf c >>= fun m =>
    countTokens c m.length m buf 1 >>= fun numTokens =>
      if malloc (8 * (numTokens + plus)) = false then some (m, none)
      else
        store (List.replicate (numTokens + plus) none) ofs (some buf) >>= fun vector =>
          fillVector c m.length m vector (ofs + 1) buf >>= fun (m, vector, len) =>
            some (m, some (vector, len))

/-- The string that begins at a place of a block. -/
def stringAt (m : Str) (s : Nat) : Str := ofBuffer (m.drop s)

section Filters

theorem replicate_append_cons {α : Type} (n : Nat) (a : α) (as : List α) :
    List.replicate n a ++ a :: as = a :: (List.replicate n a ++ as) := by
  rw [← List.singleton_append, ← List.append_assoc, ← List.replicate_succ', List.replicate_succ,
    List.cons_append]

/-- Moving a string over the character in front of it. -/
theorem moveLeft_run {x : Char} {t : Str} (nonzero : x ≠ nul) (free : NulFree t)
    (before after : Str)
    {n : Nat} (enough : t.length + 1 < n) :
    moveLeft n (before ++ x :: (t ++ nul :: after)) before.length =
      some (before ++ (t ++ nul :: nul :: after)) := by
  induction t generalizing before x n with
  | nil =>
      obtain ⟨n, rfl⟩ : ∃ k, n = k + 2 := ⟨n - 2, by simp at enough; omega⟩
      rw [moveLeft, load_bind, if_neg nonzero, List.nil_append, load_succ_bind,
        store_bind, moveLeft,
        load_succ_bind, if_pos rfl]
      rfl
  | cons y t ih =>
      obtain ⟨n, rfl⟩ : ∃ k, n = k + 1 := ⟨n - 1, by omega⟩
      obtain ⟨hy, ht⟩ := List.ne_and_not_mem_of_not_mem_cons free
      have rest := ih hy.symm ht (before ++ [y]) (n := n)
        (by rw [List.length_cons] at enough; omega)
      rw [List.append_assoc, List.append_assoc, List.length_append] at rest
      rw [moveLeft, load_bind, if_neg nonzero, List.cons_append, load_succ_bind, store_bind]
      exact rest

/-- A filter in place and the function on strings it computes. -/
structure FiltersAs (drops : Str → Nat → Option Bool) (f : Str → Str) : Prop where
  nil : f [] = []
  step : ∀ {x : Char} {t : Str}, NulFree (x :: t) → ∀ before after : Str, ∃ drop,
    drops (before ++ x :: (t ++ nul :: after)) before.length = some drop ∧
      f (x :: t) = if drop then f t else x :: f t
  settled : ∀ {s t : Str} {x : Char}, f s = x :: t → f t = t

theorem FiltersAs.length_le {drops : Str → Nat → Option Bool} {f : Str → Str}
    (h : FiltersAs drops f)
    {s : Str} (free : NulFree s) : (f s).length ≤ s.length := by
  induction s with
  | nil => rw [h.nil]
  | cons x t ih =>
      obtain ⟨drop, -, hf⟩ := h.step free [] []
      have shorter := ih (List.ne_and_not_mem_of_not_mem_cons free).2
      rw [hf, List.length_cons]
      split
      · omega
      · rw [List.length_cons]
        omega

theorem FiltersAs.nulFree {drops : Str → Nat → Option Bool} {f : Str → Str} (h : FiltersAs drops f)
    {s : Str} (free : NulFree s) : NulFree (f s) := by
  induction s with
  | nil => rwa [h.nil]
  | cons x t ih =>
      obtain ⟨drop, -, hf⟩ := h.step free [] []
      obtain ⟨hx, ht⟩ := List.ne_and_not_mem_of_not_mem_cons free
      rw [hf]
      split
      · exact ih ht
      · exact List.not_mem_cons_of_ne_of_not_mem hx (ih ht)

/-- The string becomes the filtered one, and the places that are left over hold NULs. -/
theorem FiltersAs.run {drops : Str → Nat → Option Bool} {f : Str → Str} (h : FiltersAs drops f)
    {s : Str} (free : NulFree s) (before after : Str) {n : Nat} (enough : s.length < n) :
    filterInPlace drops n (before ++ (s ++ nul :: after)) before.length =
      some (before ++ (f s ++ List.replicate (s.length - (f s).length + 1) nul ++ after)) := by
  induction n generalizing s before after with
  | zero => exact absurd enough (Nat.not_lt_zero _)
  | succ n ih =>
      cases s with
      | nil =>
          rw [filterInPlace, List.nil_append, load_bind, if_pos rfl, h.nil]
          rfl
      | cons x t =>
          obtain ⟨hx, ht⟩ := List.ne_and_not_mem_of_not_mem_cons free
          obtain ⟨drop, hdrop, hf⟩ := h.step free before after
          have shorter := h.length_le ht
          rw [filterInPlace, List.cons_append, load_bind, if_neg hx.symm, hdrop, hf]
          cases drop with
          | false =>
              have rest := ih ht (before ++ [x]) after (Nat.lt_of_succ_lt_succ enough)
              rw [List.append_assoc, List.append_assoc, List.length_append] at rest
              refine Eq.trans rest ?_
              simp
          | true =>
              have moved := moveLeft_run hx.symm ht before after
                (n := (before ++ x :: (t ++ nul :: after)).length) (by simp; omega)
              have inner := ih ht before (nul :: after) (Nat.lt_of_succ_lt_succ enough)
              show ((moveLeft _ _ _ >>= fun m => filterInPlace drops n m before.length) >>=
                fun m => filterInPlace drops n m (before.length + 1)) = _
              rw [moved]
              show (filterInPlace drops n _ before.length >>= _) = _
              rw [inner]
              show filterInPlace drops n _ (before.length + 1) = _
              -- What is left of the string has been filtered already.
              cases result : f t with
              | nil =>
                  have rest := ih List.not_mem_nil (before ++ [nul])
                    (List.replicate t.length nul ++ after)
                    (by rw [List.length_nil]; rw [List.length_cons] at enough; omega)
                  rw [h.nil, List.length_append] at rest
                  have left : before ++
                    ([] ++ List.replicate (t.length - 0 + 1) nul ++ nul :: after) =
                      before ++ [nul] ++ ([] ++ nul :: (List.replicate t.length nul ++ after)) := by
                    simp [List.replicate_succ, replicate_append_cons]
                  exact (congrArg (filterInPlace drops n · _) left).trans
                    (rest.trans (by simp [List.replicate_succ]))
              | cons y r =>
                  have same := h.settled result
                  have small : (y :: r).length ≤ t.length := result ▸ h.length_le ht
                  have pieces := List.ne_and_not_mem_of_not_mem_cons (result ▸ h.nulFree ht)
                  have rest := ih pieces.2 (before ++ [y])
                    (List.replicate (t.length - (y :: r).length) nul ++ nul :: after)
                    (by simp only [List.length_cons] at enough small; omega)
                  rw [same, List.length_append, Nat.sub_self] at rest
                  have left : before ++ (y :: r ++
                        List.replicate (t.length - (y :: r).length + 1) nul ++ nul :: after) =
                      before ++ [y] ++ (r ++
                        nul :: (List.replicate (t.length - (y :: r).length) nul ++
                          nul :: after)) := by
                    simp [List.replicate_succ]
                  refine (congrArg (filterInPlace drops n · _) left).trans (rest.trans ?_)
                  have count : (x :: t).length - (y :: r).length =
                    t.length - (y :: r).length + 1 := by
                    simp only [List.length_cons] at small ⊢
                    omega
                  rw [if_pos rfl, count]
                  generalize t.length - (y :: r).length = k
                  simp [List.replicate_succ, replicate_append_cons]

/-- The filter does not leave its string. -/
theorem FiltersAs.run_stringAt {drops : Str → Nat → Option Bool} {f : Str → Str}
    (h : FiltersAs drops f) {s : Str} (free : NulFree s) :
    ∃ m, filterInPlace drops (s ++ [nul]).length (s ++ [nul]) 0 = some m ∧ stringAt m 0 = f s := by
  have run := h.run free [] [] (n := (s ++ [nul]).length) (by simp)
  refine ⟨_, run, ?_⟩
  rw [stringAt, List.drop_zero, List.nil_append, List.append_nil, List.replicate_succ]
  exact ofBuffer_append_nul (h.nulFree free) _

theorem removeDuplicatedChar_length_le (c : Char) (s : Str) :
    (removeDuplicatedChar c s).length ≤ s.length := by
  induction s with
  | nil => exact Nat.le_refl 0
  | cons x s ih =>
      cases s with
      | nil => exact Nat.le_refl 1
      | cons y s =>
          rw [removeDuplicatedChar]
          split
          · exact Nat.le_succ_of_le ih
          · exact Nat.succ_le_succ ih

theorem head?_removeDuplicatedChar (c : Char) (s : Str) :
    (removeDuplicatedChar c s).head? = s.head? := by
  induction s with
  | nil => rfl
  | cons x s ih =>
      cases s with
      | nil => rfl
      | cons y s =>
          rw [removeDuplicatedChar]
          split
          · next both => rw [ih, List.head?_cons, List.head?_cons, both.1, both.2]
          · rfl

theorem removeDuplicatedChar_idem (c : Char) (s : Str) :
    removeDuplicatedChar c (removeDuplicatedChar c s) = removeDuplicatedChar c s := by
  induction s with
  | nil => rfl
  | cons x s ih =>
      by_cases different : x = c
      · subst different
        by_cases head : s.head? = some x
        · obtain ⟨s, rfl⟩ : ∃ t, s = x :: t := by
            cases s with
            | nil => cases head
            | cons y t => exact ⟨t, by rw [Option.some.inj head]⟩
          rw [removeDuplicatedChar_cons_cons]
          exact ih
        · rw [removeDuplicatedChar_cons_of_head head, removeDuplicatedChar_cons_of_head, ih]
          rwa [head?_removeDuplicatedChar]
      · rw [removeDuplicatedChar_cons_of_ne different,
          removeDuplicatedChar_cons_of_ne different, ih]

/-- The filter compares a character with the one behind it. -/
theorem removeDuplicatedChar_filtersAs (c : Char) :
    FiltersAs
      (fun m s => load m s >>= fun first => load m (s + 1) >>= fun second =>
        some (first = second ∧ first = c))
      (removeDuplicatedChar c) where
  nil := rfl
  step {x t} free before after := by
    cases t with
    | nil =>
        refine ⟨decide (x = nul ∧ x = c), ?_, ?_⟩
        · rw [load_bind, List.nil_append, load_succ_bind]
        · have different : ¬ (x = nul ∧ x = c) := fun both => free (both.1 ▸ List.mem_cons_self)
          rw [if_neg (by simpa using different)]
          rfl
    | cons y t =>
        refine ⟨decide (x = y ∧ x = c), ?_, ?_⟩
        · rw [load_bind, List.cons_append, load_succ_bind]
        · rw [removeDuplicatedChar]
          by_cases both : x = c ∧ y = c
          · rw [if_pos both, if_pos (by simp [both.1, both.2])]
          · rw [if_neg both, if_neg]
            simp only [decide_eq_true_eq]
            rintro ⟨rfl, rfl⟩
            exact both ⟨rfl, rfl⟩
  settled {s t x} h := by
    have idem := removeDuplicatedChar_idem c s
    rw [h] at idem
    cases t with
    | nil => rfl
    | cons y t =>
        rw [removeDuplicatedChar] at idem
        split at idem
        · have short := removeDuplicatedChar_length_le c (y :: t)
          rw [idem] at short
          simp only [List.length_cons] at short
          omega
        · exact (List.cons.inj idem).2

theorem removeAllChar_filtersAs (c : Char) :
    FiltersAs (fun m s => load m s >>= fun first => some (first = c)) (removeAllChar c) where
  nil := rfl
  step {x t} free before after := by
    refine ⟨decide (x = c), ?_, ?_⟩
    · rw [load_bind]
    · rw [removeAllChar, List.filter_cons]
      by_cases same : x = c
      · simp [same, removeAllChar]
      · simp [same, removeAllChar]
  settled {s t x} h := by
    refine List.filter_eq_self.mpr fun y hy => ?_
    have kept : y ∈ removeAllChar c s := h ▸ List.mem_cons_of_mem x hy
    exact (List.mem_filter.mp kept).2

end Filters

section Vector

variable {c : Char}

/-- Where the tokens begin, when the first one begins at `p`. -/
def tokenStarts (c : Char) (p : Nat) (s : Str) : List Nat :=
  match _h : strchr c s with
  | none => [p]
  | some (token, rest) =>
      if rest = [] then [p] else p :: tokenStarts c (p + token.length + 1) rest
termination_by s.length
decreasing_by exact strchr_length _h

/-- The string with NULs in the place of the delimiters. -/
def cutAt (c : Char) (s : Str) : Str := s.map fun x => if x = c then nul else x

theorem cutAt_of_not_mem {s : Str} (free : c ∉ s) : cutAt c s = s := by
  refine (List.map_congr_left fun x hx => if_neg ?_).trans (List.map_id s)
  exact fun same => free (same ▸ hx)

theorem cutAt_append_cons {token : Str} (free : c ∉ token) (rest : Str) :
    cutAt c (token ++ c :: rest) = token ++ nul :: cutAt c rest := by
  have first := cutAt_of_not_mem free
  rw [cutAt] at first ⊢
  rw [List.map_append, first, List.map_cons, if_pos rfl]
  rfl

theorem tokens_of_not_mem {s : Str} (free : c ∉ s) : tokens c s = [s] := by
  rw [tokens, strchr_eq_none_iff.mpr free]

theorem tokens_append_cons {token : Str} (free : c ∉ token) (rest : Str) :
    tokens c (token ++ c :: rest) = if rest = [] then [token] else token :: tokens c rest := by
  rw [tokens, strchr_append_cons free]

theorem tokenStarts_of_not_mem {s : Str} (free : c ∉ s) (p : Nat) : tokenStarts c p s = [p] := by
  rw [tokenStarts, strchr_eq_none_iff.mpr free]

theorem tokenStarts_append_cons {token : Str} (free : c ∉ token) (rest : Str) (p : Nat) :
    tokenStarts c p (token ++ c :: rest) =
      if rest = [] then [p] else p :: tokenStarts c (p + token.length + 1) rest := by
  rw [tokenStarts, strchr_append_cons free]

/-- A statement about strings that are cut at their first delimiter. -/
theorem cutting {P : Str → Prop} (c : Char) (last : ∀ s, c ∉ s → P s)
    (more : ∀ token rest, c ∉ token → P rest → P (token ++ c :: rest)) (s : Str) : P s := by
  induction hlen : s.length using Nat.strongRecOn generalizing s with
  | ind n ih =>
      by_cases member : c ∈ s
      · obtain ⟨token, rest, rfl, free⟩ := List.eq_append_cons_of_mem member
        refine more token rest free (ih rest.length ?_ rest rfl)
        rw [← hlen, List.length_append, List.length_cons]
        omega
      · exact last s member

theorem length_tokenStarts_le (s : Str) (p : Nat) : (tokenStarts c p s).length ≤ s.count c + 1 := by
  induction s using cutting c generalizing p with
  | last s free =>
      rw [tokenStarts_of_not_mem free]
      exact Nat.le_add_left 1 _
  | more token rest free ih =>
      rw [tokenStarts_append_cons free]
      split
      · exact Nat.le_add_left 1 _
      · have later := ih (p + token.length + 1)
        rw [List.length_cons, List.count_append, List.count_cons_self]
        omega

theorem tokenStarts_eq_cons (s : Str) (p : Nat) : ∃ later, tokenStarts c p s = p :: later := by
  rw [tokenStarts]
  split
  · exact ⟨[], rfl⟩
  · split
    · exact ⟨[], rfl⟩
    · exact ⟨_, rfl⟩

/-- The strings that begin there are the tokens. -/
theorem map_stringAt_tokenStarts {s : Str} (free : NulFree s) (before after : Str) :
    (tokenStarts c before.length s).map (stringAt (before ++ (cutAt c s ++ nul :: after))) =
      tokens c s := by
  induction s using cutting c generalizing before with
  | last s whole =>
      rw [tokenStarts_of_not_mem whole, tokens_of_not_mem whole, cutAt_of_not_mem whole,
        List.map_singleton, stringAt, List.drop_left, ofBuffer_append_nul free]
  | more token rest whole ih =>
      have htoken : NulFree token := fun h => free (List.mem_append_left _ h)
      have hrest : NulFree rest := fun h =>
        free (List.mem_append_right _ (List.mem_cons_of_mem c h))
      have here (tail : Str) :
        stringAt (before ++ (token ++ nul :: tail)) before.length = token := by
        rw [stringAt, List.drop_left, ofBuffer_append_nul htoken]
      rw [tokenStarts_append_cons whole, tokens_append_cons whole, cutAt_append_cons whole,
        List.append_assoc, List.cons_append]
      split
      · rw [List.map_singleton, here]
      · have later := ih hrest (before ++ token ++ [nul])
        have place : (before ++ token ++ [nul]).length = before.length + token.length + 1 := by
          simp [Nat.add_assoc]
        have block : before ++ token ++ [nul] ++ (cutAt c rest ++ nul :: after) =
            before ++ (token ++ nul :: (cutAt c rest ++ nul :: after)) := by simp
        rw [place, block] at later
        rw [List.map_cons, here, later]

theorem countTokens_run {s : Str} (free : NulFree s) (before after : Str) {n : Nat}
    (enough : s.length < n) (k : Nat) :
    countTokens c n (before ++ (s ++ nul :: after)) before.length k = some (k + s.count c) := by
  induction n generalizing s before k with
  | zero => exact absurd enough (Nat.not_lt_zero _)
  | succ n ih =>
      cases s with
      | nil =>
          rw [countTokens, List.nil_append, load_bind, if_pos rfl]
          rfl
      | cons x s =>
          obtain ⟨hx, hs⟩ := List.ne_and_not_mem_of_not_mem_cons free
          rw [countTokens, List.cons_append, load_bind, if_neg hx.symm]
          have rest := ih hs (before ++ [x]) (Nat.lt_of_succ_lt_succ enough)
            (if x = c then k + 1 else k)
          rw [List.append_assoc, List.length_append] at rest
          refine rest.trans ?_
          rw [List.count_cons]
          by_cases same : x = c
          · simp [same, Nat.add_assoc, Nat.add_comm 1]
          · simp [same]

theorem tokenEnd_run {token : Str} (free : NulFree token) (whole : c ∉ token) {y : Char}
    (ends : y = nul ∨ y = c) (before after : Str) {n : Nat} (enough : token.length < n) :
    tokenEnd c n (before ++ (token ++ y :: after)) before.length =
      some (before.length + token.length) := by
  induction n generalizing token before with
  | zero => exact absurd enough (Nat.not_lt_zero _)
  | succ n ih =>
      cases token with
      | nil =>
          rw [tokenEnd, List.nil_append, load_bind, if_neg]
          · rfl
          · rintro ⟨notNul, notDelimiter⟩
            exact ends.elim notNul notDelimiter
      | cons x token =>
          obtain ⟨hx, htoken⟩ := List.ne_and_not_mem_of_not_mem_cons free
          obtain ⟨hc, hwhole⟩ := List.ne_and_not_mem_of_not_mem_cons whole
          rw [tokenEnd, List.cons_append, load_bind, if_pos ⟨hx.symm, hc.symm⟩]
          have rest := ih htoken hwhole (before ++ [x]) (Nat.lt_of_succ_lt_succ enough)
          rw [List.append_assoc, List.length_append] at rest
          refine rest.trans ?_
          simp [Nat.add_assoc, Nat.add_comm 1]

/-- Filling the vector behind the slots that are used cuts the string, and the beginnings of the
tokens behind the first one are in the slots that follow. -/
theorem fillVector_run (delimiter : c ≠ nul) {s : Str} (free : NulFree s) (before after : Str)
    (slots spare : List (Option Nat))
    (room : (tokenStarts c before.length s).length ≤ spare.length + 1) {n : Nat}
    (enough : s.length < n) :
    fillVector c n (before ++ (s ++ nul :: after)) (slots ++ spare) slots.length before.length =
      some (before ++ (cutAt c s ++ nul :: after),
        slots ++ ((tokenStarts c before.length s).tail.map some ++
          spare.drop ((tokenStarts c before.length s).length - 1)),
        slots.length + ((tokenStarts c before.length s).length - 1)) := by
  induction s using cutting c generalizing before slots spare n with
  | last s whole =>
      obtain ⟨n, rfl⟩ := Nat.exists_eq_add_of_lt enough
      have ends := tokenEnd_run free whole (.inl rfl) before after
        (n := (before ++ (s ++ nul :: after)).length) (by simp; omega)
      rw [fillVector, ends, tokenStarts_of_not_mem whole, cutAt_of_not_mem whole]
      show (load _ (before.length + s.length) >>= _) = _
      rw [← List.append_assoc, ← List.length_append, load_bind, if_pos rfl]
      rfl
  | more token rest whole ih =>
      have htoken : NulFree token := fun h => free (List.mem_append_left _ h)
      have hrest : NulFree rest := fun h =>
        free (List.mem_append_right _ (List.mem_cons_of_mem c h))
      obtain ⟨n, rfl⟩ := Nat.exists_eq_add_of_lt enough
      have ends := tokenEnd_run htoken whole (.inr rfl) before (rest ++ nul :: after)
        (n := (before ++ (token ++ c :: (rest ++ nul :: after))).length) (by simp; omega)
      rw [List.append_assoc, List.cons_append, fillVector, ends]
      show (load _ (before.length + token.length) >>= _) = _
      rw [← List.append_assoc, ← List.length_append, load_bind, if_neg delimiter, store_bind]
      cases rest with
      | nil =>
          rw [List.nil_append, load_succ_bind, if_pos rfl,
            tokenStarts_append_cons whole, if_pos rfl,
            cutAt_append_cons whole]
          simp [cutAt]
      | cons y r =>
          have notLast : y :: r ≠ [] := List.cons_ne_nil y r
          have hy := (List.ne_and_not_mem_of_not_mem_cons hrest).1
          rw [tokenStarts_append_cons whole, if_neg notLast, List.length_cons] at room ⊢
          obtain ⟨later, starts⟩ :=
            tokenStarts_eq_cons (c := c) (y :: r) (before.length + token.length + 1)
          obtain ⟨free', spare, rfl⟩ : ∃ x xs, spare = x :: xs := by
            cases spare with
            | nil =>
                rw [starts, List.length_cons, List.length_nil] at room
                omega
            | cons x xs => exact ⟨x, xs, rfl⟩
          rw [List.cons_append, load_succ_bind, if_neg hy.symm, store_bind]
          have place : (before ++ token ++ [nul]).length = before.length + token.length + 1 := by
            simp [Nat.add_assoc]
          have rounds : (y :: r).length < (token ++ c :: y :: r).length + n := by
            simp only [List.length_append, List.length_cons]
            omega
          have rest := ih hrest (before ++ token ++ [nul])
            (slots ++ [some (before.length + token.length + 1)]) spare
            (by rw [place]; rw [List.length_cons] at room; omega) rounds
          rw [place, starts] at rest
          rw [starts, @List.length_append _ before, cutAt_append_cons whole]
          simp only [List.append_assoc, List.length_append, List.length_cons, List.length_nil,
            List.cons_append, List.nil_append, List.tail_cons, List.map_cons, Nat.zero_add,
            Nat.add_sub_cancel, List.drop_succ_cons] at rest ⊢
          rw [Nat.add_assoc slots.length, Nat.add_comm 1] at rest
          exact rest

end Vector

/-! ## The functions of `utils.c` -/

theorem removeDuplicatedCharInPlace_run {c : Char} {s : Str} (free : NulFree s) :
    removeDuplicatedCharInPlace (s ++ [nul]) 0 c =
      some (removeDuplicatedChar c s ++
        List.replicate (s.length - (removeDuplicatedChar c s).length + 1) nul) := by
  have run := (removeDuplicatedChar_filtersAs c).run free [] [] (n := (s ++ [nul]).length) (by simp)
  rwa [List.append_nil] at run

/-- The slots that are used hold where the tokens begin. -/
theorem splitInPlace_run {c : Char} (delimiter : c ≠ nul) {s : Str} (free : NulFree s)
    {malloc : Nat → Bool} (memory : ∀ size, malloc size = true) :
    ∃ m vector len, splitInPlace malloc (s ++ [nul]) 0 c 0 0 = some (m, some (vector, len)) ∧
      len ≤ vector.length ∧
      (vector.take len).map (Option.map (stringAt m)) = (split c s).map some := by
  have hcollapsed : NulFree (removeDuplicatedChar c s) :=
    (removeDuplicatedChar_filtersAs c).nulFree free
  obtain ⟨later, starts⟩ := tokenStarts_eq_cons (c := c) (removeDuplicatedChar c s) 0
  have few := length_tokenStarts_le (c := c) (removeDuplicatedChar c s) 0
  have strings := map_stringAt_tokenStarts (c := c) hcollapsed []
    (List.replicate (s.length - (removeDuplicatedChar c s).length) nul)
  generalize hk : s.length - (removeDuplicatedChar c s).length = k at strings
  generalize ht : removeDuplicatedChar c s = t at *
  have counted := countTokens_run (c := c) hcollapsed [] (List.replicate k nul)
    (n := (t ++ nul :: List.replicate k nul).length) (by simp) 1
  have filled := fillVector_run delimiter hcollapsed [] (List.replicate k nul) [some 0]
    (List.replicate (t.count c) none) (by simpa using few)
    (n := (t ++ nul :: List.replicate k nul).length) (by simp)
  have stored := store_append [] (List.replicate (t.count c) (none : Option Nat)) none (some 0)
  simp only [List.nil_append, List.length_nil, starts] at counted filled stored strings few
  have run : splitInPlace malloc (s ++ [nul]) 0 c 0 0 =
      some (cutAt c t ++ nul :: List.replicate k nul,
        some ((0 :: later).map some ++ List.drop later.length (List.replicate (t.count c) none),
          (0 :: later).length)) := by
    rw [splitInPlace, removeDuplicatedCharInPlace_run free, ht, hk, List.replicate_succ]
    show (countTokens c _ (t ++ nul :: List.replicate k nul) 0 1 >>= _) = _
    rw [counted]
    show (if malloc _ = false then _
      else store (List.replicate (1 + t.count c + 0) none) 0 (some 0) >>=
      _) = _
    rw [memory, if_neg (by simp), Nat.add_zero, Nat.add_comm 1, List.replicate_succ, stored]
    refine (congrArg (· >>= _) filled).trans ?_
    rw [List.length_cons, Nat.add_sub_cancel, Nat.add_comm later.length]
    rfl
  refine ⟨_, _, _, run, ?_, ?_⟩
  · simp only [List.length_append, List.length_map]
    omega
  · rw [List.take_left' (by rw [List.length_map]), List.map_map, split, ht, ← strings, List.map_map]
    rfl

/-- In the buffer of a string, with the NUL that ends it, the filters and `split` stay inside. The
filters do what they should, and `split` returns the segments between the delimiters in order, with
an empty token in front when the string is empty or begins with a delimiter. -/
theorem split_inBounds {c : Char} (delimiter : c ≠ nul) {s : Str} (free : NulFree s)
    {malloc : Nat → Bool} (memory : ∀ size, malloc size = true) :
    (∃ m, removeDuplicatedCharInPlace (s ++ [nul]) 0 c = some m ∧
        RunsCollapsed c s (stringAt m 0)) ∧
      (∃ m vector len, splitInPlace malloc (s ++ [nul]) 0 c 0 0 = some (m, some (vector, len)) ∧
        len ≤ vector.length ∧
        (vector.take len).map (Option.map (stringAt m)) =
          (emptyToken c s ++ segments c s).map some) ∧
      ∃ m, removeAllCharInPlace (s ++ [nul]) 0 c = some m ∧
        stringAt m 0 = s.filter fun x => x != c := by
  refine ⟨?_, ?_, ?_⟩
  · obtain ⟨m, run, result⟩ := (removeDuplicatedChar_filtersAs c).run_stringAt free
    refine ⟨m, run, ?_⟩
    rw [result]
    exact removeDuplicatedChar_collapses c s
  · rw [← split_eq]
    exact splitInPlace_run delimiter free memory
  · exact (removeAllChar_filtersAs c).run_stringAt free

/-- Groups with an empty one between them, and a line that ends with a delimiter. -/
theorem split_inBounds_groups :
    ∃ m vector len, splitInPlace (fun _ => true) (",,10,,20,".toList ++ [nul]) 0 ',' 0 0 =
        some (m, some (vector, len)) ∧
      len ≤ vector.length ∧
      (vector.take len).map (Option.map (stringAt m)) =
        (emptyToken ',' ",,10,,20,".toList ++ segments ',' ",,10,,20,".toList).map some :=
  (@split_inBounds ',' (by decide) ",,10,,20,".toList (by decide) (fun _ => true)
    (fun _ => rfl)).2.1

example :
    emptyToken ',' ",,10,,20,".toList ++ segments ',' ",,10,,20,".toList =
      [[], "10".toList, "20".toList] := by
  decide

end Baseimage.Cinit
