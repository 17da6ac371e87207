import Mathlib

/-!
# Cutting a stream into pieces at its terminators

A stream of symbols arrives in chunks and is cut at the symbols that terminate a piece. The
assembler keeps the symbols after the last terminator and nothing else, so feeding it chunk by
chunk and feeding it the whole stream give the same pieces. The laws are about the assembler
alone: which symbols terminate a piece, and what is done with a piece, are parameters of its
users.
-/

namespace Lines

variable {α : Type*} {eol : α → Bool}

/-- Feed symbols to an assembler that holds the piece still open. The result is the list of
pieces that were completed, and the piece open at the end. -/
def feed (eol : α → Bool) : List α → List α → List (List α) × List α
  | held, [] => ([], held)
  | held, x :: xs =>
      if eol x then (held :: (feed eol [] xs).1, (feed eol [] xs).2) else feed eol (held ++ [x]) xs

/-- No symbol of the piece terminates it. -/
def Open (eol : α → Bool) (piece : List α) : Prop := ∀ x ∈ piece, eol x = false

@[simp] theorem open_nil : Open eol [] := by
  simp [Open]

theorem open_append {xs ys : List α} : Open eol (xs ++ ys) ↔ Open eol xs ∧ Open eol ys := by
  simp only [Open, List.mem_append]
  grind

@[simp] theorem feed_nil (held : List α) : feed eol held [] = ([], held) := rfl

theorem feed_eol {x : α} (hx : eol x = true) (held xs : List α) :
    feed eol held (x :: xs) = (held :: (feed eol [] xs).1, (feed eol [] xs).2) := by
  simp [feed, hx]

theorem feed_open_cons {x : α} (hx : eol x = false) (held xs : List α) :
    feed eol held (x :: xs) = feed eol (held ++ [x]) xs := by
  simp [feed, hx]

/-- Feeding two chunks one after the other is feeding their concatenation. -/
theorem feed_append (eol : α → Bool) (held xs ys : List α) :
    feed eol held (xs ++ ys) =
      ((feed eol held xs).1 ++ (feed eol (feed eol held xs).2 ys).1,
        (feed eol (feed eol held xs).2 ys).2) := by
  induction xs generalizing held with
  | nil => simp
  | cons x xs ih =>
      cases hx : eol x with
      | false => rw [List.cons_append, feed_open_cons hx, feed_open_cons hx, ih]
      | true => rw [List.cons_append, feed_eol hx, feed_eol hx, ih, List.cons_append]

/-- A chunk without a terminator is appended to the open piece. -/
theorem feed_of_open {xs : List α} (h : Open eol xs) (held : List α) :
    feed eol held xs = ([], held ++ xs) := by
  induction xs generalizing held with
  | nil => simp
  | cons x xs ih =>
      have hx : eol x = false := h x (by simp)
      rw [feed_open_cons hx, ih (fun y hy => h y (by simp [hy]))]
      simp

/-- The first terminator of a chunk completes the open piece. -/
theorem feed_piece {piece : List α} {t : α} (h : Open eol piece) (ht : eol t = true)
    (held rest : List α) :
    feed eol held (piece ++ t :: rest) =
      ((held ++ piece) :: (feed eol [] rest).1, (feed eol [] rest).2) := by
  rw [feed_append, feed_of_open h, feed_eol ht]
  simp

/-- An assembler that holds an open piece behaves as if the piece had just been fed to it. -/
theorem feed_held {held : List α} (h : Open eol held) (xs : List α) :
    feed eol [] (held ++ xs) = feed eol held xs := by
  rw [feed_append, feed_of_open h]
  simp

/-- What the assembler holds never contains a terminator. -/
theorem open_feed {held : List α} (h : Open eol held) (xs : List α) :
    Open eol (feed eol held xs).2 := by
  induction xs generalizing held with
  | nil => exact h
  | cons x xs ih =>
      cases hx : eol x with
      | false =>
          rw [feed_open_cons hx]
          exact ih (open_append.mpr ⟨h, by simp [Open, hx]⟩)
      | true =>
          rw [feed_eol hx]
          exact ih open_nil

/-- Conservation: the completed pieces and the open one hold every symbol that was fed, in
order, except the terminators. -/
theorem feed_flatten (eol : α → Bool) (held xs : List α) :
    (feed eol held xs).1.flatten ++ (feed eol held xs).2 = held ++ xs.filter (fun x => !eol x) := by
  induction xs generalizing held with
  | nil => simp
  | cons x xs ih =>
      cases hx : eol x with
      | false => simp [feed_open_cons hx, ih, hx]
      | true =>
          have tail := ih []
          simp only [List.nil_append] at tail
          simp [feed_eol hx, tail, hx]

/-- The pieces hold no other symbols than those that were fed. -/
theorem mem_of_mem_feed {held xs piece : List α} {x : α}
    (hpiece : piece ∈ (feed eol held xs).1 ++ [(feed eol held xs).2]) (hx : x ∈ piece) :
    x ∈ held ++ xs := by
  have conserved := feed_flatten eol held xs
  have member : x ∈ ((feed eol held xs).1 ++ [(feed eol held xs).2]).flatten :=
    List.mem_flatten.mpr ⟨piece, hpiece, hx⟩
  rw [List.flatten_concat, conserved] at member
  exact (List.filter_sublist.append_left held).mem member

theorem length_feed_le (eol : α → Bool) (held xs : List α) :
    (feed eol held xs).2.length ≤ held.length + xs.length := by
  have conserved := congrArg List.length (feed_flatten eol held xs)
  have filtered := List.length_filter_le (fun x => !eol x) xs
  simp only [List.length_append] at conserved
  omega

/-- After a terminator nothing is held. -/
theorem feed_terminated (held xs : List α) {t : α} (ht : eol t = true) :
    (feed eol held (xs ++ [t])).2 = [] := by
  rw [feed_append, feed_eol ht]
  rfl

/-- A stream of terminated pieces is cut back into these pieces. -/
theorem feed_pieces (eol : α → Bool) {t : α} (ht : eol t = true) (pieces : List (List α))
    (h : ∀ piece ∈ pieces, Open eol piece) (rest : List α) :
    feed eol [] (pieces.flatMap (fun piece => piece ++ [t]) ++ rest) =
      (pieces ++ (feed eol [] rest).1, (feed eol [] rest).2) := by
  induction pieces with
  | nil => simp
  | cons piece pieces ih =>
      have first := h piece (by simp)
      have others := ih (fun q hq => h q (by simp [hq]))
      rw [List.flatMap_cons, List.append_assoc, List.append_assoc, List.singleton_append,
        feed_piece first ht, others]
      simp

/-- With a single terminator the stream can be put together again from its pieces. -/
theorem feed_rebuild (eol : α → Bool) {t : α} (ht : ∀ x, eol x = true → x = t)
    (held xs : List α) :
    (feed eol held xs).1.flatMap (fun piece => piece ++ [t]) ++ (feed eol held xs).2 =
      held ++ xs := by
  induction xs generalizing held with
  | nil => simp
  | cons x xs ih =>
      cases hx : eol x with
      | false => rw [feed_open_cons hx, ih, List.append_assoc, List.singleton_append]
      | true =>
          obtain rfl := ht x hx
          have tail := ih []
          rw [List.nil_append] at tail
          rw [feed_eol hx, List.flatMap_cons, List.append_assoc, List.append_assoc, tail]
          rfl

/-- The first terminator of a stream, with what stands before and after it. -/
def splitFirst (eol : α → Bool) : List α → Option (List α × List α)
  | [] => none
  | x :: xs => if eol x then some ([], xs) else (splitFirst eol xs).map (fun p => (x :: p.1, p.2))

theorem splitFirst_eq_none_iff {xs : List α} : splitFirst eol xs = none ↔ Open eol xs := by
  induction xs with
  | nil => simp [splitFirst]
  | cons x xs ih =>
      cases hx : eol x with
      | true => simp [splitFirst, hx, Open]
      | false => simpa [splitFirst, hx, Open] using ih

/-- What stands before the first terminator holds none. -/
theorem splitFirst_eq_some {xs before after : List α}
    (h : splitFirst eol xs = some (before, after)) :
    ∃ t, xs = before ++ t :: after ∧ eol t = true ∧ Open eol before := by
  induction xs generalizing before after with
  | nil => simp [splitFirst] at h
  | cons x xs ih =>
      cases hx : eol x with
      | true =>
          simp only [splitFirst, hx, if_true, Option.some.injEq, Prod.mk.injEq] at h
          obtain ⟨rfl, rfl⟩ := h
          exact ⟨x, rfl, hx, open_nil⟩
      | false =>
          simp only [splitFirst, hx, Bool.false_eq_true, if_false, Option.map_eq_some_iff,
            Prod.mk.injEq] at h
          obtain ⟨⟨first, rest⟩, found, rfl, rfl⟩ := h
          obtain ⟨t, rfl, ht, hfirst⟩ := ih found
          refine ⟨t, rfl, ht, ?_⟩
          intro y hy
          rcases List.mem_cons.mp hy with rfl | hy
          · exact hx
          · exact hfirst y hy

/-- The first terminator is found. -/
theorem splitFirst_append_cons {before : List α} (h : Open eol before) {t : α} (ht : eol t = true)
    (after : List α) : splitFirst eol (before ++ t :: after) = some (before, after) := by
  induction before with
  | nil => rw [List.nil_append, splitFirst, if_pos ht]
  | cons x before ih =>
      obtain ⟨hx, hbefore⟩ := List.forall_mem_cons.mp h
      rw [List.cons_append, splitFirst, if_neg (by rw [hx]; exact Bool.false_ne_true), ih hbefore]
      rfl

theorem splitFirst_length {xs before after : List α}
    (h : splitFirst eol xs = some (before, after)) : after.length < xs.length := by
  obtain ⟨t, rfl, -, -⟩ := splitFirst_eq_some h
  simp only [List.length_append, List.length_cons]
  omega

/-- Nothing is held only where the stream is empty or ends in a terminator. -/
theorem feed_held_eq_nil_iff (xs : List α) :
    (feed eol [] xs).2 = [] ↔ xs = [] ∨ ∃ t, xs.getLast? = some t ∧ eol t = true := by
  rcases List.eq_nil_or_concat xs with rfl | ⟨init, t, rfl⟩
  · simp
  · cases ht : eol t with
    | true => simp [feed_terminated [] init ht, ht]
    | false =>
        rw [List.concat_eq_append, feed_append, feed_open_cons ht]
        simp [ht]

/-- The piece that is still open is the beginning of one of the pieces. -/
theorem exists_piece_of_held (eol : α → Bool) (held xs : List α) :
    ∃ piece ∈ (feed eol held xs).1 ++ [(feed eol held xs).2], held <+: piece := by
  induction xs generalizing held with
  | nil => exact ⟨held, by simp, List.prefix_rfl⟩
  | cons x xs ih =>
      cases hx : eol x with
      | true => exact ⟨held, by simp [feed_eol hx], List.prefix_rfl⟩
      | false =>
          obtain ⟨piece, member, longer⟩ := ih (held ++ [x])
          rw [feed_open_cons hx]
          exact ⟨piece, member, (List.prefix_append held [x]).trans longer⟩

/-! ## The pieces of a whole stream -/

theorem modifyHead_nil_append (pieces : List (List α)) : pieces.modifyHead ([] ++ ·) = pieces := by
  cases pieces with
  | nil => rfl
  | cons piece pieces => rfl

/-- The pieces of a stream are those the assembler completes and the one it holds at the end. -/
theorem modifyHead_splitOnP (held xs : List α) :
    (xs.splitOnP eol).modifyHead (held ++ ·) = (feed eol held xs).1 ++ [(feed eol held xs).2] := by
  induction xs generalizing held with
  | nil => simp
  | cons x xs ih =>
      have later := ih []
      rw [modifyHead_nil_append] at later
      rw [List.splitOnP_cons_eq_if_modifyHead]
      cases hx : eol x with
      | true =>
          rw [if_pos rfl, feed_eol hx, List.modifyHead_cons, List.append_nil, List.cons_append,
            ← later]
      | false =>
          rw [if_neg Bool.false_ne_true, feed_open_cons hx, ← ih, List.modifyHead_modifyHead]
          congr 1
          funext piece
          simp

theorem splitOnP_eq_feed (xs : List α) :
    xs.splitOnP eol = (feed eol [] xs).1 ++ [(feed eol [] xs).2] := by
  rw [← modifyHead_splitOnP, modifyHead_nil_append]

/-! ## Pieces that are cut to a size -/

/-- Cut a piece into parts of a size and a last part that may be shorter. -/
def chop (size : Nat) : List α → List (List α)
  | [] => []
  | x :: xs => (x :: xs.take (size - 1)) :: chop size (xs.drop (size - 1))
termination_by xs => xs.length
decreasing_by
  rw [List.length_drop, List.length_cons]
  omega

@[simp] theorem chop_nil (size : Nat) : chop size ([] : List α) = [] := by
  rw [chop]

theorem chop_of_length_le {size : Nat} {xs : List α} (h : xs.length ≤ size) :
    chop size xs = if xs = [] then [] else [xs] := by
  cases xs with
  | nil => rw [chop_nil, if_pos rfl]
  | cons x xs =>
      have short : xs.length ≤ size - 1 := by
        rw [List.length_cons] at h
        omega
      rw [chop, List.take_of_length_le short, List.drop_of_length_le short, chop_nil,
        if_neg (List.cons_ne_nil x xs)]

/-- A first part of exactly the size is cut off. -/
theorem chop_append {first : List α} (nonempty : first ≠ []) (rest : List α) :
    chop first.length (first ++ rest) = first :: chop first.length rest := by
  cases first with
  | nil => exact absurd rfl nonempty
  | cons x xs => simp [chop]

/-- The parts of the pieces of a stream. Empty pieces have none. -/
def parts (eol : α → Bool) (size : Nat) (xs : List α) : List (List α) :=
  (xs.splitOnP eol).flatMap (chop size)

@[simp] theorem parts_nil (size : Nat) : parts eol size [] = [] := by
  simp [parts]

/-- The only piece of a stream without a terminator. -/
theorem parts_of_open {size : Nat} {piece : List α} (h : Open eol piece)
    (short : piece.length ≤ size) : parts eol size piece = if piece = [] then [] else [piece] := by
  rw [parts, splitOnP_eq_feed, feed_of_open h, List.nil_append, List.nil_append,
    List.flatMap_singleton, chop_of_length_le short]

/-- The first piece of a stream, when it is short. -/
theorem parts_piece {size : Nat} {piece : List α} {t : α} (h : Open eol piece) (ht : eol t = true)
    (short : piece.length ≤ size) (rest : List α) :
    parts eol size (piece ++ t :: rest) =
      (if piece = [] then [] else [piece]) ++ parts eol size rest := by
  rw [parts, parts, splitOnP_eq_feed, feed_piece h ht, List.nil_append, splitOnP_eq_feed,
    List.cons_append, List.flatMap_cons, chop_of_length_le short]

/-- The first part of a stream that begins with a piece of exactly the size, or a longer one. -/
theorem parts_full {first : List α} (h : Open eol first) (nonempty : first ≠ [])
    (rest : List α) :
    parts eol first.length (first ++ rest) = first :: parts eol first.length rest := by
  obtain ⟨piece, pieces, hsplit⟩ := List.exists_cons_of_ne_nil (List.splitOnP_ne_nil eol rest)
  have whole : (first ++ rest).splitOnP eol = (first ++ piece) :: pieces := by
    rw [splitOnP_eq_feed, feed_held h, ← modifyHead_splitOnP, hsplit, List.modifyHead_cons]
  rw [parts, parts, whole, hsplit, List.flatMap_cons, List.flatMap_cons, chop_append nonempty,
    List.cons_append]

/-- Feeding the assembler no more than the size takes the parts of a stream off its front. -/
theorem parts_feed {size : Nat} {held xs : List α} (h : Open eol held)
    (room : held.length + xs.length ≤ size) (rest : List α) :
    parts eol size (held ++ (xs ++ rest)) =
      (feed eol held xs).1.filter (· ≠ []) ++ parts eol size ((feed eol held xs).2 ++ rest) := by
  induction xs generalizing held with
  | nil => simp
  | cons x xs ih =>
      rw [List.length_cons] at room
      cases hx : eol x with
      | true =>
          have later := @ih [] open_nil (by rw [List.length_nil]; omega)
          rw [List.nil_append] at later
          rw [List.cons_append, parts_piece h hx (by omega), later, feed_eol hx]
          by_cases empty : held = []
          · simp [empty]
          · simp [empty]
      | false =>
          have grown : Open eol (held ++ [x]) := open_append.mpr ⟨h, by simp [Open, hx]⟩
          have fits : (held ++ [x]).length + xs.length ≤ size := by
            rw [List.length_append, List.length_singleton]
            omega
          have later := ih grown fits
          rw [List.append_assoc, List.singleton_append] at later
          rw [List.cons_append, later, feed_open_cons hx]

end Lines
