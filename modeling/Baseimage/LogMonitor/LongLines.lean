import Baseimage.LogMonitor.Read

/-!
# Lines that are too long

Pending data and a chunk that do not fit together in a work buffer are dropped, both of them. The
pending data belongs to a line that is too long, but the chunk may hold the end of this line,
further lines, and the beginning of the next one. A line is passed to `handle_line` when the chunk
with its line feed is read. So a run is looked at chunk by chunk: what is handled then, and which
lines of the stream end there.
-/

namespace Baseimage.LogMonitor

open CString

variable (malloc : Nat → Bool)

/-- The pending data after some chunks. -/
def heldAfter (before : List Str) : Str := (handleReads malloc none before).2.getD []

/-- The line of the stream that is open after some chunks. -/
def openLine (before : List Str) : Str := (Lines.feed isLf [] before.flatten).2

/-- The lines of the stream that end in a chunk. -/
def endingIn (before : List Str) (chunk : Str) : List Str :=
  (Lines.feed isLf (openLine before) chunk).1

/-- The lines that are passed to `handle_line` when a chunk is read. -/
def handledIn (before : List Str) (chunk : Str) : List Str :=
  (handleRead malloc (handleReads malloc none before).2 (ofBuffer chunk)).1

/-- A line that is held together with a chunk in every case. -/
def ShortLine (bufsiz : Nat) (line : Str) : Prop := line.length < maxWorkBuf - bufsiz - 2

/-- Of the lines that end in a chunk only the first one may be long. A long line may be handled in
its place as whatever has been kept of it; all other lines are handled as they are. -/
def Handles (bufsiz : Nat) (ending handled : List Str) : Prop :=
  match ending with
  | [] => handled = []
  | line :: lines =>
      (ShortLine bufsiz line → handled = linesOf (line :: lines)) ∧
        ∃ extra, extra.length ≤ 1 ∧ handled = extra ++ linesOf lines

/-- Every line that is not too long is handled once, as it is and in order, when its line feed is
read. -/
def HandlesShortLines (bufsiz : Nat) (chunks : List Str) : Prop :=
  ∀ before chunk after, chunks = before ++ chunk :: after →
    Handles bufsiz (endingIn before chunk) (handledIn malloc before chunk)

/-- A chunk is dropped with the pending data in front of it. -/
def Drops (before : List Str) (chunk : Str) : Prop :=
  heldAfter malloc before ≠ [] ∧
    (heldAfter malloc before).length + chunk.length + 1 > maxWorkBuf

/-- The complete lines of the stream with a part in a chunk: those that end there, and the one that
is open behind it. -/
def linesThrough (before : List Str) (chunk : Str) (after : List Str) : List Str :=
  endingIn before chunk ++
    if openLine (before ++ [chunk]) = [] then []
    else (Lines.feed isLf (openLine (before ++ [chunk])) after.flatten).1.take 1

/-- No line that is not too long has a part in a chunk that is dropped, except for empty ones. -/
def DropsLongOnly (bufsiz : Nat) (chunks : List Str) : Prop :=
  ∀ before chunk after, chunks = before ++ chunk :: after → Drops malloc before chunk →
    ∀ line ∈ linesThrough before chunk after, ShortLine bufsiz line → stripCr line = []

variable {malloc}

/-! ## A chunk -/

theorem handleReads_append (pending : Option Str) (xs ys : List Str) :
    handleReads malloc pending (xs ++ ys) =
      ((handleReads malloc pending xs).1 ++
          (handleReads malloc (handleReads malloc pending xs).2 ys).1,
        (handleReads malloc (handleReads malloc pending xs).2 ys).2) := by
  induction xs generalizing pending with
  | nil => rfl
  | cons x xs ih => simp only [List.cons_append, handleReads, ih, List.append_assoc]

theorem openLine_concat (before : List Str) (chunk : Str) :
    openLine (before ++ [chunk]) = (Lines.feed isLf (openLine before) chunk).2 := by
  rw [openLine, List.flatten_append, List.flatten_singleton, Lines.feed_append]
  rfl

theorem openLine_open (before : List Str) : Lines.Open isLf (openLine before) :=
  Lines.open_feed Lines.open_nil before.flatten

/-- A chunk has no line feed, or it has a first one. -/
theorem exists_first_lf (chunk : Str) :
    '\n' ∉ chunk ∨ ∃ first rest, chunk = first ++ '\n' :: rest ∧ '\n' ∉ first := by
  by_cases member : '\n' ∈ chunk
  · obtain ⟨first, rest, heq, free⟩ := List.eq_append_cons_of_mem member
    exact .inr ⟨first, rest, heq, free⟩
  · exact .inl member

theorem feed_no_lf {chunk : Str} (h : '\n' ∉ chunk) (held : Str) :
    Lines.feed isLf held chunk = ([], held ++ chunk) :=
  Lines.feed_of_open (open_isLf.mpr h) held

theorem feed_first_lf {first : Str} (h : '\n' ∉ first) (held rest : Str) :
    Lines.feed isLf held (first ++ '\n' :: rest) =
      ((held ++ first) :: (Lines.feed isLf [] rest).1, (Lines.feed isLf [] rest).2) :=
  Lines.feed_piece (open_isLf.mpr h) rfl held rest

/-- A chunk that is not dropped is put behind the pending data. -/
theorem handleRead_kept (hmalloc : ∀ n, malloc n = true) {held chunk : Str} (nonempty : chunk ≠ [])
    (hheld : Lines.Open isLf held)
    (fits : ¬ (held ≠ [] ∧ held.length + chunk.length + 1 > maxWorkBuf)) :
    handleRead malloc (pendingOf held) chunk =
      (linesOf (Lines.feed isLf held chunk).1, pendingOf (Lines.feed isLf held chunk).2) := by
  by_cases empty : held = []
  · subst empty
    exact handleRead_none hmalloc chunk nonempty
  · exact handleRead_eq_feed hmalloc nonempty hheld (Nat.not_lt.mp fun big => fits ⟨empty, big⟩)

theorem handleRead_dropped {held chunk : Str} (nonempty : held ≠ [])
    (big : held.length + chunk.length + 1 > maxWorkBuf) :
    handleRead malloc (pendingOf held) chunk = ([], none) := by
  have dropped : workBuf malloc (pendingOf held) chunk = none := by
    rw [pendingOf, if_neg nonempty, workBuf, if_pos big]
  rw [handleRead]
  split
  · rfl
  · next work found => rw [dropped] at found; cases found

/-! ## What is lost of the open line -/

/-- A part of the line that is open after some chunks was in a chunk that has been dropped. -/
def Broken (malloc : Nat → Bool) (before : List Str) : Prop :=
  ∃ earlier chunk later, before = earlier ++ chunk :: later ∧ Drops malloc earlier chunk ∧
    openLine (earlier ++ [chunk]) ≠ [] ∧ '\n' ∉ later.flatten

/-- The pending data is the open line without what was lost of it. -/
structure Holds (malloc : Nat → Bool) (before : List Str) (lost : Str) : Prop where
  pending : (handleReads malloc none before).2 = pendingOf (heldAfter malloc before)
  opened : openLine before = lost ++ heldAfter malloc before
  broken : lost ≠ [] ↔ Broken malloc before

section Chunks

variable {before : List Str} {chunk lost : Str}

theorem Holds.open (h : Holds malloc before lost) : Lines.Open isLf (heldAfter malloc before) :=
  (Lines.open_append.mp (h.opened ▸ openLine_open before)).2

theorem handleReads_concat (before : List Str) (nulFree : NulFree chunk) :
    (handleReads malloc none (before ++ [chunk])).2 =
      (handleRead malloc (handleReads malloc none before).2 chunk).2 := by
  rw [handleReads_append, handleReads, ofBuffer_of_nulFree nulFree]
  rfl

/-- Whether a chunk more has broken the open line. -/
theorem broken_concat :
    Broken malloc (before ++ [chunk]) ↔
      (Drops malloc before chunk ∧ openLine (before ++ [chunk]) ≠ []) ∨
        (Broken malloc before ∧ '\n' ∉ chunk) := by
  constructor
  · rintro ⟨earlier, dropped, later, heq, drops, isOpen, free⟩
    rcases List.eq_nil_or_concat' later with rfl | ⟨others, last, rfl⟩
    · obtain ⟨rfl, same⟩ := List.append_inj' heq rfl
      cases same
      exact .inl ⟨drops, isOpen⟩
    · rw [← List.cons_append, ← List.append_assoc] at heq
      obtain ⟨rfl, same⟩ := List.append_inj' heq rfl
      cases same
      rw [List.flatten_append, List.flatten_singleton] at free
      exact .inr ⟨⟨earlier, dropped, others, rfl, drops, isOpen,
        fun h => free (List.mem_append_left _ h)⟩, fun h => free (List.mem_append_right _ h)⟩
  · rintro (⟨drops, isOpen⟩ | ⟨⟨earlier, dropped, later, rfl, drops, isOpen, free⟩, noLf⟩)
    · exact ⟨before, chunk, [], rfl, drops, isOpen, List.not_mem_nil⟩
    · refine ⟨earlier, dropped, later ++ [chunk], by simp, drops, isOpen, ?_⟩
      rw [List.flatten_append, List.flatten_singleton]
      exact fun h => (List.mem_append.mp h).elim free noLf

theorem Holds.heldAfter_kept (hmalloc : ∀ n, malloc n = true) (h : Holds malloc before lost)
    (nonempty : chunk ≠ []) (nulFree : NulFree chunk) (kept : ¬ Drops malloc before chunk) :
    (handleReads malloc none (before ++ [chunk])).2 =
        pendingOf (Lines.feed isLf (heldAfter malloc before) chunk).2 ∧
      heldAfter malloc (before ++ [chunk]) =
        (Lines.feed isLf (heldAfter malloc before) chunk).2 := by
  have after : (handleReads malloc none (before ++ [chunk])).2 = _ :=
    handleReads_concat before nulFree
  rw [h.pending, handleRead_kept hmalloc nonempty h.open kept] at after
  exact ⟨after, by rw [heldAfter, after, pendingOf_getD]⟩

/-- Behind a chunk that is dropped nothing is held. -/
theorem Holds.heldAfter_dropped (h : Holds malloc before lost) (nulFree : NulFree chunk)
    (drops : Drops malloc before chunk) :
    (handleReads malloc none (before ++ [chunk])).2 = none ∧
      heldAfter malloc (before ++ [chunk]) = [] := by
  have after : (handleReads malloc none (before ++ [chunk])).2 = _ :=
    handleReads_concat before nulFree
  rw [h.pending, handleRead_dropped drops.1 drops.2] at after
  exact ⟨after, by rw [heldAfter, after, Option.getD_none]⟩

theorem Holds.step (hmalloc : ∀ n, malloc n = true) (h : Holds malloc before lost)
    (nonempty : chunk ≠ []) (nulFree : NulFree chunk) :
    ∃ lost', Holds malloc (before ++ [chunk]) lost' := by
  by_cases drops : Drops malloc before chunk
  · -- Nothing is held, so all of the open line is lost.
    obtain ⟨after, held⟩ := h.heldAfter_dropped nulFree drops
    refine ⟨openLine (before ++ [chunk]), ?_⟩
    refine
      { pending := by rw [after, held]; rfl, opened := by rw [held, List.append_nil], broken := ?_ }
    rw [broken_concat, and_iff_right drops]
    refine (or_iff_left_of_imp fun broken => ?_).symm
    rw [openLine_concat, feed_no_lf broken.2]
    exact fun empty => nonempty (List.append_eq_nil_iff.mp empty).2
  · obtain ⟨after, held⟩ := h.heldAfter_kept hmalloc nonempty nulFree drops
    rcases exists_first_lf chunk with noLf | ⟨first, rest, rfl, free⟩
    · refine ⟨lost, { pending := by rw [after, held], opened := ?_, broken := ?_ }⟩
      · rw [openLine_concat, held, h.opened, feed_no_lf noLf, feed_no_lf noLf, List.append_assoc]
      · rw [broken_concat, h.broken]
        simp [drops, noLf]
    · refine ⟨[], { pending := by rw [after, held], opened := ?_, broken := ?_ }⟩
      · rw [openLine_concat, held, feed_first_lf free, feed_first_lf free]
        rfl
      · rw [broken_concat]
        simp [drops]

/-- After any chunks. -/
theorem exists_holds (hmalloc : ∀ n, malloc n = true) {chunks : List Str}
    (nonempty : ∀ chunk ∈ chunks, chunk ≠ []) (nulFree : ∀ chunk ∈ chunks, NulFree chunk) :
    ∃ lost, Holds malloc chunks lost := by
  induction chunks using List.reverseRecOn with
  | nil =>
      refine ⟨[], { pending := rfl, opened := rfl, broken := ?_ }⟩
      refine iff_of_false (fun h => h rfl) ?_
      rintro ⟨earlier, chunk, later, heq, -⟩
      exact absurd heq (by simp)
  | append_singleton before chunk ih =>
      have member : chunk ∈ before ++ [chunk] := List.mem_append_right _ (List.mem_singleton_self _)
      obtain ⟨lost, h⟩ := ih (fun other hother => nonempty other (List.mem_append_left _ hother))
        (fun other hother => nulFree other (List.mem_append_left _ hother))
      exact h.step hmalloc (nonempty chunk member) (nulFree chunk member)

end Chunks

/-! ## What is handled of a broken line -/

theorem stripCr_append {lost rest : Str} (nonempty : rest ≠ []) :
    stripCr (lost ++ rest) = lost ++ stripCr rest := by
  rw [stripCr, stripCr, List.getLast?_append_of_ne_nil _ nonempty]
  split
  · rw [List.dropLast_append_of_ne_nil nonempty]
  · rfl

theorem linesOf_singleton (line : Str) :
    linesOf [line] = if stripCr line = [] then [] else [stripCr line] := by
  rw [linesOf_cons, linesOf_nil, List.append_nil]
  by_cases empty : stripCr line = []
  · rw [if_pos empty, if_neg (by simp [empty])]
  · rw [if_neg empty, if_pos (List.length_pos_iff.mpr empty)]

/-- Without its beginning a line is handled as it is only when it is empty. -/
theorem linesOf_broken_iff {lost rest : Str} (broken : lost ≠ []) :
    linesOf [rest] = linesOf [lost ++ rest] ↔ stripCr (lost ++ rest) = [] := by
  rw [linesOf_singleton, linesOf_singleton]
  by_cases nothing : rest = []
  · subst nothing
    rw [List.append_nil, show stripCr [] = [] from rfl, if_pos rfl]
    split
    · next empty => exact iff_of_true rfl empty
    · next full => exact iff_of_false nofun full
  · have full : lost ++ stripCr rest ≠ [] := by simp [broken]
    rw [stripCr_append nothing, if_neg full]
    refine iff_of_false ?_ full
    split
    · exact nofun
    · intro same
      have length := congrArg List.length (List.cons.inj same).1
      rw [List.length_append] at length
      exact broken (List.eq_nil_of_length_eq_zero (by omega))

theorem stripCr_eq_nil_of_linesOf {lines : List Str} (h : linesOf lines = []) {line : Str}
    (hline : line ∈ lines) : stripCr line = [] := by
  by_contra full
  have handled : stripCr line ∈ linesOf lines := by
    refine List.mem_filter.mpr ⟨List.mem_map_of_mem hline, ?_⟩
    simpa using List.length_pos_iff.mpr full
  rw [h] at handled
  exact List.not_mem_nil handled

theorem linesOf_eq_nil {lines : List Str} (h : ∀ line ∈ lines, stripCr line = []) :
    linesOf lines = [] := by
  refine List.filter_eq_nil_iff.mpr fun line hline => ?_
  obtain ⟨piece, hpiece, rfl⟩ := List.mem_map.mp hline
  simp [h piece hpiece]

/-! ## A run -/

section Run

variable {before after : List Str} {chunk lost : Str} {bufsiz : Nat}

theorem endingIn_no_lf (noLf : '\n' ∉ chunk) : endingIn before chunk = [] := by
  rw [endingIn, feed_no_lf noLf]

theorem endingIn_first_lf {first : Str} (free : '\n' ∉ first) (rest : Str) :
    endingIn before (first ++ '\n' :: rest) =
      (openLine before ++ first) :: (Lines.feed isLf [] rest).1 := by
  rw [endingIn, feed_first_lf free]

theorem Holds.handledIn_dropped (h : Holds malloc before lost) (nulFree : NulFree chunk)
    (drops : Drops malloc before chunk) : handledIn malloc before chunk = [] := by
  rw [handledIn, ofBuffer_of_nulFree nulFree, h.pending, handleRead_dropped drops.1 drops.2]

theorem Holds.handledIn_kept (hmalloc : ∀ n, malloc n = true) (h : Holds malloc before lost)
    (nonempty : chunk ≠ []) (nulFree : NulFree chunk) (kept : ¬ Drops malloc before chunk) :
    handledIn malloc before chunk =
      linesOf (Lines.feed isLf (heldAfter malloc before) chunk).1 := by
  rw [handledIn, ofBuffer_of_nulFree nulFree, h.pending,
    handleRead_kept hmalloc nonempty h.open kept]

/-- The line whose pending data is dropped is long. -/
theorem Holds.long (h : Holds malloc before lost) (size : chunk.length ≤ bufsiz)
    (drops : Drops malloc before chunk) (more : Str) :
      ¬ ShortLine bufsiz (openLine before ++ more) := by
  have big := drops.2
  rw [ShortLine, h.opened, List.length_append, List.length_append]
  omega

/-- A line that ends behind the first line feed of a chunk is not longer than the chunk. -/
theorem shortLine_of_mem_feed (room : 2 * bufsiz + 2 < maxWorkBuf) {rest line : Str}
    (size : rest.length ≤ bufsiz) (hline : line ∈ (Lines.feed isLf [] rest).1) :
    ShortLine bufsiz line := by
  have conserved := congrArg List.length (Lines.feed_flatten isLf [] rest)
  have filtered := List.length_filter_le (fun x => !isLf x) rest
  have part := (List.sublist_flatten_of_mem hline).length_le
  rw [List.length_append, List.nil_append] at conserved
  rw [ShortLine]
  omega

theorem openLine_append (before later : List Str) (noLf : '\n' ∉ later.flatten) :
    openLine (before ++ later) = openLine before ++ later.flatten := by
  rw [openLine, List.flatten_append, Lines.feed_append, feed_no_lf noLf]
  rfl

/-- The line that is open behind a chunk ends at the first line feed that follows. -/
theorem linesThrough_open {earlier later : List Str} {dropped first rest : Str}
    (isOpen : openLine (earlier ++ [dropped]) ≠ []) (noLf : '\n' ∉ later.flatten)
    (free : '\n' ∉ first) :
    linesThrough earlier dropped (later ++ (first ++ '\n' :: rest) :: after) =
      endingIn earlier dropped ++ [openLine (earlier ++ dropped :: later) ++ first] := by
  have stream : (later ++ (first ++ '\n' :: rest) :: after).flatten =
      (later.flatten ++ first) ++ '\n' :: (rest ++ after.flatten) := by simp
  have free' : '\n' ∉ later.flatten ++ first := fun h => (List.mem_append.mp h).elim noLf free
  have line := openLine_append (earlier ++ [dropped]) later noLf
  rw [List.append_assoc, List.singleton_append] at line
  rw [linesThrough, if_neg isOpen, stream, feed_first_lf free', line, List.append_assoc]
  rfl

/-- The chunk with the first line feed of some chunks. -/
theorem exists_chunk_with_lf (chunks : List Str) :
    '\n' ∉ chunks.flatten ∨ ∃ later first rest others,
      chunks = later ++ (first ++ '\n' :: rest) :: others ∧ '\n' ∉ later.flatten ∧
        '\n' ∉ first := by
  induction chunks with
  | nil => exact .inl List.not_mem_nil
  | cons chunk chunks ih =>
      rcases exists_first_lf chunk with noLf | ⟨first, rest, rfl, free⟩
      · rcases ih with none | ⟨later, first, rest, others, rfl, noLf', free⟩
        · refine .inl ?_
          rw [List.flatten_cons]
          exact fun h => (List.mem_append.mp h).elim noLf none
        · refine .inr ⟨chunk :: later, first, rest, others, rfl, ?_, free⟩
          rw [List.flatten_cons]
          exact fun h => (List.mem_append.mp h).elim noLf noLf'
      · exact .inr ⟨[], first, rest, chunks, rfl, List.not_mem_nil, free⟩

variable {chunks : List Str}

/-- The chunks of a NUL-free stream, as they are read into a buffer. -/
structure Chunked (bufsiz : Nat) (chunks : List Str) : Prop where
  sizes : ∀ chunk ∈ chunks, 1 ≤ chunk.length ∧ chunk.length ≤ bufsiz
  nulFree : NulFree chunks.flatten

theorem Chunked.nulFree_of_mem (h : Chunked bufsiz chunks) (hchunk : chunk ∈ chunks) :
    NulFree chunk :=
  fun inside => h.nulFree (List.mem_flatten.mpr ⟨chunk, hchunk, inside⟩)

theorem Chunked.ne_nil_of_mem (h : Chunked bufsiz chunks) (hchunk : chunk ∈ chunks) : chunk ≠ [] :=
  List.ne_nil_of_length_pos (h.sizes chunk hchunk).1

theorem Chunked.holds (hmalloc : ∀ n, malloc n = true)
    (h : Chunked bufsiz (before ++ chunk :: after)) : ∃ lost, Holds malloc before lost :=
  exists_holds hmalloc
    (fun _ hother => h.ne_nil_of_mem (List.mem_append_left _ hother))
    (fun _ hother => h.nulFree_of_mem (List.mem_append_left _ hother))

theorem linesOf_cons_eq_iff {line other : Str} (lines : List Str) :
    linesOf (line :: lines) = linesOf (other :: lines) ↔ linesOf [line] = linesOf [other] := by
  rw [← List.singleton_append, ← List.singleton_append (l := lines), linesOf_append, linesOf_append,
    List.append_left_inj]

/-- What is handled where the open line ends, in a chunk that is not dropped. -/
theorem Holds.handledIn_first_lf (hmalloc : ∀ n, malloc n = true) (h : Holds malloc before lost)
    {first rest : Str} (free : '\n' ∉ first) (nulFree : NulFree (first ++ '\n' :: rest))
    (kept : ¬ Drops malloc before (first ++ '\n' :: rest)) :
    handledIn malloc before (first ++ '\n' :: rest) =
      linesOf ((heldAfter malloc before ++ first) :: (Lines.feed isLf [] rest).1) := by
  rw [h.handledIn_kept hmalloc (by simp) nulFree kept, feed_first_lf free]

/-- The open line of which something was lost is handled as it is only when it is empty. -/
theorem Holds.handled_broken (hmalloc : ∀ n, malloc n = true) (h : Holds malloc before lost)
    (broken : Broken malloc before) {first rest : Str} (free : '\n' ∉ first)
    (nulFree : NulFree (first ++ '\n' :: rest))
    (kept : ¬ Drops malloc before (first ++ '\n' :: rest)) :
    handledIn malloc before (first ++ '\n' :: rest) =
        linesOf (endingIn before (first ++ '\n' :: rest)) ↔
      stripCr (openLine before ++ first) = [] := by
  rw [h.handledIn_first_lf hmalloc free nulFree kept, endingIn_first_lf free, linesOf_cons_eq_iff,
    h.opened, List.append_assoc]
  exact linesOf_broken_iff (h.broken.mpr broken)

/-- What ends in a chunk that is dropped, or is broken by it, is not handled as it is. -/
theorem HandlesShortLines.dropsLongOnly (hmalloc : ∀ n, malloc n = true)
    (chunked : Chunked bufsiz chunks) (handles : HandlesShortLines malloc bufsiz chunks) :
    DropsLongOnly malloc bufsiz chunks := by
  rintro before chunk after rfl drops line hline short
  obtain ⟨lost, holds⟩ := chunked.holds hmalloc
  have hchunk : chunk ∈ before ++ chunk :: after := List.mem_append_right _ List.mem_cons_self
  have size := (chunked.sizes chunk hchunk).2
  rcases List.mem_append.mp hline with ending | isOpen
  · -- The first line that ends here is the long one; nothing is handled of the others.
    have handled := handles before chunk after rfl
    rw [holds.handledIn_dropped (chunked.nulFree_of_mem hchunk) drops] at handled
    rcases exists_first_lf chunk with noLf | ⟨first, rest, rfl, free⟩
    · rw [endingIn_no_lf noLf] at ending
      exact absurd ending List.not_mem_nil
    · rw [endingIn_first_lf free] at ending handled
      obtain ⟨extra, -, nothing⟩ := handled.2
      rcases List.mem_cons.mp ending with rfl | later
      · exact absurd short (holds.long size drops first)
      · exact stripCr_eq_nil_of_linesOf (List.append_eq_nil_iff.mp nothing.symm).2 later
  · -- The line that is open behind the chunk has lost its beginning when it ends.
    split at isOpen
    · exact absurd isOpen List.not_mem_nil
    · next notEmpty =>
        rcases exists_chunk_with_lf after with none | ⟨later, first, rest, others, rfl, noLf, free⟩
        · rw [feed_no_lf none] at isOpen
          exact absurd isOpen List.not_mem_nil
        · have through : linesThrough before chunk
              (later ++ (first ++ '\n' :: rest) :: others) = _ :=
            linesThrough_open notEmpty noLf free
          rw [linesThrough, if_neg notEmpty, List.append_cancel_left_eq] at through
          obtain rfl := List.mem_singleton.mp (through ▸ isOpen)
          have stream : before ++ chunk :: (later ++ (first ++ '\n' :: rest) :: others) =
              (before ++ chunk :: later) ++ (first ++ '\n' :: rest) :: others := by simp
          have broken : Broken malloc (before ++ chunk :: later) :=
            ⟨before, chunk, later, rfl, drops, notEmpty, noLf⟩
          rw [stream] at chunked handles
          obtain ⟨lost', holds'⟩ := chunked.holds hmalloc
          have hlast : first ++ '\n' :: rest ∈
              (before ++ chunk :: later) ++ (first ++ '\n' :: rest) :: others :=
            List.mem_append_right _ List.mem_cons_self
          have kept : ¬ Drops malloc (before ++ chunk :: later) (first ++ '\n' :: rest) :=
            fun dropped => holds'.long (chunked.sizes _ hlast).2 dropped first short
          have handled := handles _ _ others rfl
          refine (holds'.handled_broken hmalloc broken free (chunked.nulFree_of_mem hlast) kept).mp
            ?_
          rw [endingIn_first_lf free] at handled ⊢
          exact handled.1 short

/-- When nothing but long lines is dropped, all others are handled. -/
theorem DropsLongOnly.handlesShortLines (hmalloc : ∀ n, malloc n = true)
    (room : 2 * bufsiz + 2 < maxWorkBuf) (chunked : Chunked bufsiz chunks)
    (longOnly : DropsLongOnly malloc bufsiz chunks) : HandlesShortLines malloc bufsiz chunks := by
  rintro before chunk after rfl
  obtain ⟨lost, holds⟩ := chunked.holds hmalloc
  have hchunk : chunk ∈ before ++ chunk :: after := List.mem_append_right _ List.mem_cons_self
  have size := (chunked.sizes chunk hchunk).2
  have nulFree := chunked.nulFree_of_mem hchunk
  rcases exists_first_lf chunk with noLf | ⟨first, rest, rfl, free⟩
  · rw [endingIn_no_lf noLf]
    by_cases drops : Drops malloc before chunk
    · exact holds.handledIn_dropped nulFree drops
    · show handledIn malloc before chunk = []
      rw [holds.handledIn_kept hmalloc (chunked.ne_nil_of_mem hchunk) nulFree drops,
        feed_no_lf noLf,
        linesOf_nil]
  · by_cases drops : Drops malloc before (first ++ '\n' :: rest)
    · have through := longOnly before _ after rfl drops
      rw [holds.handledIn_dropped nulFree drops]
      rw [linesThrough, endingIn_first_lf free] at through
      rw [endingIn_first_lf free]
      refine ⟨fun short => absurd short (holds.long size drops first), [], Nat.zero_le 1, ?_⟩
      refine (linesOf_eq_nil fun line hline => ?_).symm
      refine through line (List.mem_append_left _ (List.mem_cons_of_mem _ hline)) ?_
      refine shortLine_of_mem_feed room ?_ hline
      rw [List.length_append, List.length_cons] at size
      omega
    · have handled := holds.handledIn_first_lf hmalloc free nulFree drops
      have asItIs : ShortLine bufsiz (openLine before ++ first) →
          handledIn malloc before (first ++ '\n' :: rest) =
            linesOf (endingIn before (first ++ '\n' :: rest)) := by
        intro short
        by_cases broken : Broken malloc before
        · refine (holds.handled_broken hmalloc broken free nulFree drops).mpr ?_
          obtain ⟨earlier, dropped, later, rfl, hdropped, notEmpty, noLf⟩ := broken
          refine longOnly earlier dropped (later ++ (first ++ '\n' :: rest) :: after) (by simp)
            hdropped _ ?_ short
          rw [linesThrough_open notEmpty noLf free]
          exact List.mem_append_right _ (List.mem_singleton_self _)
        · have intact : lost = [] := by_contra fun h => broken (holds.broken.mp h)
          rw [handled, endingIn_first_lf free, holds.opened, intact, List.nil_append]
      rw [endingIn_first_lf free] at asItIs ⊢
      refine ⟨asItIs, linesOf [heldAfter malloc before ++ first], ?_, ?_⟩
      · rw [linesOf_singleton]
        split <;> simp
      · rw [handled, ← linesOf_append, List.singleton_append]

end Run

/-- However a stream is cut into chunks: the lines that are not too long are all handled, once, as
they are and in order, unless one that is not empty has a part in a chunk that is dropped. -/
theorem handlesShortLines_iff (hmalloc : ∀ n, malloc n = true) {bufsiz : Nat}
    (room : 2 * bufsiz + 2 < maxWorkBuf) {chunks : List Str} (chunked : Chunked bufsiz chunks) :
    HandlesShortLines malloc bufsiz chunks ↔ DropsLongOnly malloc bufsiz chunks :=
  ⟨fun handles => handles.dropsLongOnly hmalloc chunked,
    fun longOnly => longOnly.handlesShortLines hmalloc room chunked⟩

/-- The beginning of a long line: chunks of 8192 characters each. -/
def longBeginning (n : Nat) : List Str := List.replicate n (List.replicate 8192 'a')

/-- The rest of the long line, and a short one. -/
def longEnd : Str := List.replicate 8000 'a' ++ "\nERROR\n".toList

theorem longBeginning_succ (n : Nat) :
    longBeginning (n + 1) = longBeginning n ++ [List.replicate 8192 'a'] :=
  List.replicate_succ'

theorem not_mem_long {c : Char} (other : c ≠ 'a') (n : Nat) : c ∉ List.replicate n 'a' :=
  fun h => other (List.eq_of_mem_replicate h)

theorem nulFree_long (n : Nat) : NulFree (List.replicate n 'a') := not_mem_long (by decide) n

theorem longStream_chunked (n : Nat) {last : Str} (size : 1 ≤ last.length ∧ last.length ≤ 8192)
    (nulFree : NulFree last) : Chunked 8192 (longBeginning n ++ [last]) where
  sizes chunk hchunk := by
    rcases List.mem_append.mp hchunk with beginning | same
    · rw [List.eq_of_mem_replicate beginning, List.length_replicate]
      omega
    · rw [List.mem_singleton.mp same]
      exact size
  nulFree inside := by
    obtain ⟨chunk, hchunk, hnul⟩ := List.mem_flatten.mp inside
    rcases List.mem_append.mp hchunk with beginning | same
    · rw [List.eq_of_mem_replicate beginning] at hnul
      exact nulFree_long 8192 hnul
    · rw [List.mem_singleton.mp same] at hnul
      exact nulFree hnul

theorem longEnd_chunked (n : Nat) : Chunked 8192 (longBeginning n ++ [longEnd]) := by
  refine longStream_chunked n ?_ fun hnul => ?_
  · rw [longEnd, List.length_append, List.length_replicate]
    decide
  · rcases List.mem_append.mp hnul with first | rest
    · exact nulFree_long 8000 first
    · exact absurd rest (by decide)

theorem heldAfter_longBeginning {n : Nat} (few : n ≤ 62) :
    heldAfter (fun _ => true) (longBeginning n) = List.replicate (8192 * n) 'a' := by
  induction n with
  | zero => rfl
  | succ n ih =>
      have held := ih (Nat.le_of_succ_le few)
      obtain ⟨lost, holds⟩ := (longEnd_chunked n).holds (fun _ => rfl)
      have kept : ¬ Drops (fun _ => true) (longBeginning n) (List.replicate 8192 'a') := by
        rintro ⟨-, big⟩
        rw [held, List.length_replicate, List.length_replicate, maxWorkBuf] at big
        omega
      have nonempty : List.replicate 8192 'a' ≠ [] := List.cons_ne_nil 'a' (List.replicate 8191 'a')
      rw [longBeginning_succ,
        (holds.heldAfter_kept (fun _ => rfl) nonempty (nulFree_long 8192) kept).2, held,
        feed_no_lf (not_mem_long (by decide) 8192), List.replicate_append_replicate, Nat.mul_succ]

theorem drops_longBeginning {last : Str} (big : 4096 ≤ last.length) :
    Drops (fun _ => true) (longBeginning 62) last := by
  rw [Drops, heldAfter_longBeginning (Nat.le_refl 62), List.length_replicate, maxWorkBuf]
  exact ⟨List.ne_nil_of_length_pos (by rw [List.length_replicate]; omega), by omega⟩

/-- A chunk that is dropped is part of the long line only if there is no line feed in it. -/
theorem dropsLongOnly_of_no_lf (hmalloc : ∀ n, malloc n = true) {bufsiz : Nat} {chunks : List Str}
    (chunked : Chunked bufsiz chunks)
    (free : ∀ before chunk after, chunks = before ++ chunk :: after → Drops malloc before chunk →
      '\n' ∉ chunk) : DropsLongOnly malloc bufsiz chunks := by
  rintro before chunk after rfl drops line through short
  have noLf := free before chunk after rfl drops
  obtain ⟨lost, holds⟩ := chunked.holds hmalloc
  have size := (chunked.sizes chunk (by simp)).2
  have opened : openLine (before ++ [chunk]) = openLine before ++ chunk := by
    have appended := openLine_append before [chunk] (by simpa using noLf)
    simpa using appended
  rw [linesThrough, endingIn_no_lf noLf, List.nil_append, opened] at through
  split at through
  · exact absurd through List.not_mem_nil
  · by_cases ends : '\n' ∈ after.flatten
    · obtain ⟨first, rest, split, unended⟩ := List.eq_append_cons_of_mem ends
      rw [split, feed_first_lf unended, List.take_one, List.head?_cons, Option.toList_some,
        List.mem_singleton, List.append_assoc] at through
      subst through
      exact absurd short (holds.long size drops (chunk ++ first))
    · rw [feed_no_lf ends] at through
      exact absurd through List.not_mem_nil

/-- A long line ends in a chunk of its own, and a short one follows: the chunk that is dropped has
only a part of the long line. -/
theorem handlesShortLines_iff_droppedChunk :
    Drops (fun _ => true) (longBeginning 62) (List.replicate 8192 'a') ∧
      HandlesShortLines (fun _ => true) 8192 (longBeginning 63 ++ ["aa\nERROR\n".toList]) := by
  have drops : Drops (fun _ => true) (longBeginning 62) (List.replicate 8192 'a') :=
    drops_longBeginning (by rw [List.length_replicate]; omega)
  have chunked : Chunked 8192 (longBeginning 63 ++ ["aa\nERROR\n".toList]) :=
    longStream_chunked 63 (by decide) (by decide)
  refine ⟨drops, (handlesShortLines_iff (fun _ => rfl) (by decide) chunked).mpr ?_⟩
  refine dropsLongOnly_of_no_lf (fun _ => rfl) chunked fun before chunk after split dropped => ?_
  obtain rfl | ⟨others, last, rfl⟩ := List.eq_nil_or_concat' after
  · -- Nothing is held in front of the last chunk.
    obtain ⟨rfl, -⟩ := List.append_inj' split rfl
    obtain ⟨lost, holds⟩ := (longEnd_chunked 62).holds (fun _ => rfl)
    have nothing := dropped.1
    rw [longBeginning_succ] at nothing
    exact absurd (holds.heldAfter_dropped (nulFree_long 8192) drops).2 nothing
  · rw [← List.cons_append, ← List.append_assoc] at split
    obtain ⟨front, -⟩ := List.append_inj' split rfl
    have member : chunk ∈ longBeginning 63 := by
      rw [front]
      exact List.mem_append_right _ List.mem_cons_self
    rw [List.eq_of_mem_replicate member]
    exact not_mem_long (by decide) 8192

/-- A line that follows a long one is lost with the end of it. -/
theorem shortLine_lost :
    ¬ HandlesShortLines (fun _ => true) 8192 (longBeginning 62 ++ [longEnd]) := by
  intro handles
  have longOnly := handles.dropsLongOnly (fun _ => rfl) (longEnd_chunked 62)
  have drops : Drops (fun _ => true) (longBeginning 62) longEnd :=
    drops_longBeginning (by rw [longEnd, List.length_append, List.length_replicate]; omega)
  have free : '\n' ∉ List.replicate 8000 'a' := not_mem_long (by decide) 8000
  have ending : "ERROR".toList ∈ endingIn (longBeginning 62) longEnd := by
    rw [show longEnd = List.replicate 8000 'a' ++ '\n' :: "ERROR\n".toList from rfl,
      endingIn_first_lf free]
    exact List.mem_cons_of_mem _ (by decide)
  have lost := longOnly (longBeginning 62) longEnd [] rfl drops "ERROR".toList
    (List.mem_append_left _ ending) (by rw [ShortLine]; decide)
  exact absurd lost (by decide)

end Baseimage.LogMonitor
