import Baseimage.Text.CString
import Baseimage.Text.Lines

/-!
# The line assembler of the log monitor

`handle_read` receives the chunks read from a monitored file. It cuts them at line feeds, drops
one carriage return before a line feed, passes every non-empty line to `handle_line` and keeps
what follows the last line feed in `pending_buf`. The model returns the lines that are passed to
`handle_line`, in order, with the new `pending_buf`.

Memory is the C library's: `malloc n` tells whether a request for `n` bytes succeeds.
-/

namespace Baseimage.LogMonitor

open CString

/-- `500 * 1024`: a work buffer is never made larger than this. -/
def maxWorkBuf : Nat := 500 * 1024

/-- "Remove the end of line characters": one carriage return before the line feed goes too. -/
def stripCr (line : Str) : Str :=
  if line.getLast? = some '\r' then line.dropLast else line

/-- Creation of `work_buf` from `pending_buf` and the new data. On failure the pending data is
freed and the new data is dropped with it. -/
def workBuf (malloc : Nat → Bool) (pending : Option Str) (buf : Str) : Option Str :=
  match pending with
  | some held =>
      let newBufSize := held.length + buf.length + 1
      if newBufSize > maxWorkBuf then none
      else if malloc newBufSize then some (held ++ buf) else none
  | none => if malloc (buf.length + 1) then some buf else none

theorem workBuf_length {malloc : Nat → Bool} {pending : Option Str} {buf work : Str}
    (h : workBuf malloc pending buf = some work) :
    work.length = (pending.getD []).length + buf.length := by
  cases pending with
  | none => grind [workBuf]
  | some held => grind [workBuf]

/-- `handle_read`: the lines passed to `handle_line`, and the new `pending_buf`. -/
def handleRead (malloc : Nat → Bool) (pending : Option Str) (buf : Str) :
    List Str × Option Str :=
  match _hwork : workBuf malloc pending buf with
  | none => ([], none)
  | some work =>
      match _heol : strchr '\n' work with
      | none => ([], some work)
      | some (line, nextLine) =>
          let handled := if (stripCr line).length > 0 then [stripCr line] else []
          -- The recursive call finds no pending data: it was moved into the work buffer.
          let rest := if nextLine.length > 0 then handleRead malloc none nextLine else ([], none)
          (handled ++ rest.1, rest.2)
termination_by (pending.getD []).length + buf.length
decreasing_by
  have shorter := strchr_length _heol
  rw [workBuf_length _hwork] at shorter
  simpa using shorter

/-- `handle_read` for one chunk of `tailbuf` after another. -/
def handleReads (malloc : Nat → Bool) : Option Str → List Str → List Str × Option Str
  | pending, [] => ([], pending)
  | pending, chunk :: chunks =>
      let first := handleRead malloc pending (ofBuffer chunk)
      let rest := handleReads malloc first.2 chunks
      (first.1 ++ rest.1, rest.2)

def isLf (c : Char) : Bool := c == '\n'

/-- The lines among cut pieces: each without its carriage return, the empty ones left out. -/
def linesOf (pieces : List Str) : List Str :=
  (pieces.map stripCr).filter (fun line => line.length > 0)

/-- An empty rest is represented by a null `pending_buf`. -/
def pendingOf (rest : Str) : Option Str := if rest = [] then none else some rest

@[simp] theorem linesOf_nil : linesOf [] = [] := rfl

theorem linesOf_cons (piece : Str) (pieces : List Str) :
    linesOf (piece :: pieces) =
      (if (stripCr piece).length > 0 then [stripCr piece] else []) ++ linesOf pieces := by
  by_cases h : (stripCr piece).length > 0 <;> simp [linesOf, h]

@[simp] theorem linesOf_append (xs ys : List Str) :
    linesOf (xs ++ ys) = linesOf xs ++ linesOf ys := by
  simp [linesOf]

@[simp] theorem pendingOf_nil : pendingOf [] = none := rfl

@[simp] theorem pendingOf_getD (rest : Str) : (pendingOf rest).getD [] = rest := by
  by_cases h : rest = [] <;> simp [pendingOf, h]

theorem open_isLf {s : Str} : Lines.Open isLf s ↔ '\n' ∉ s := by
  simp only [Lines.Open, isLf]
  grind

variable {malloc : Nat → Bool}

/-- With no pending data, `handle_read` cuts its argument at the line feeds. -/
theorem handleRead_none (hmalloc : ∀ n, malloc n = true) (buf : Str) (hbuf : buf ≠ []) :
    handleRead malloc none buf =
      (linesOf (Lines.feed isLf [] buf).1, pendingOf (Lines.feed isLf [] buf).2) := by
  induction hlen : buf.length using Nat.strongRecOn generalizing buf with
  | ind n ih =>
      have work : workBuf malloc none buf = some buf := by simp [workBuf, hmalloc]
      rw [handleRead]
      split
      · next h => simp [work] at h
      · next w h =>
          obtain rfl : buf = w := by simpa [work] using h
          split
          · next noEol =>
              have isOpen := open_isLf.mpr (strchr_eq_none_iff.mp noEol)
              simp [Lines.feed_of_open isOpen, pendingOf, hbuf]
          · next line nextLine found =>
              obtain ⟨hcut, hline⟩ := strchr_eq_some found
              have hfeed := Lines.feed_piece (open_isLf.mpr hline) (t := '\n') rfl [] nextLine
              rw [← hcut, List.nil_append] at hfeed
              rw [hfeed, linesOf_cons]
              by_cases hnext : nextLine.length > 0
              · have shorter : nextLine.length < n := hlen ▸ strchr_length found
                rw [if_pos hnext, ih _ shorter nextLine (List.ne_nil_of_length_pos hnext) rfl]
              · have hnil : nextLine = [] := by simpa using hnext
                simp [hnil]

/-- Pending data that still fits is simply put in front of the new data. -/
theorem handleRead_some (hmalloc : ∀ n, malloc n = true) (held buf : Str)
    (fits : held.length + buf.length + 1 ≤ maxWorkBuf) :
    handleRead malloc (some held) buf = handleRead malloc none (held ++ buf) := by
  have left : workBuf malloc (some held) buf = some (held ++ buf) := by
    simp [workBuf, hmalloc, Nat.not_lt.mpr fits]
  have right : workBuf malloc none (held ++ buf) = some (held ++ buf) := by
    simp [workBuf, hmalloc]
  rw [handleRead, handleRead.eq_def malloc none]
  grind

/-- The specification of `handle_read`: as long as the pending data and the chunk fit together,
it is one step of the assembler that cuts at line feeds. -/
theorem handleRead_eq_feed (hmalloc : ∀ n, malloc n = true) {held buf : Str} (hbuf : buf ≠ [])
    (hheld : Lines.Open isLf held) (fits : held.length + buf.length + 1 ≤ maxWorkBuf) :
    handleRead malloc (pendingOf held) buf =
      (linesOf (Lines.feed isLf held buf).1, pendingOf (Lines.feed isLf held buf).2) := by
  by_cases hnil : held = []
  · subst hnil
    exact handleRead_none hmalloc buf hbuf
  · rw [pendingOf, if_neg hnil, handleRead_some hmalloc held buf fits,
      handleRead_none hmalloc _ (by simp [hbuf]), Lines.feed_held hheld]

/-! ## A stream that arrives in chunks -/

/-- One chunk after another is fed to the assembler, as long as no piece of the stream is too
long to be held next to a chunk. -/
theorem handleReads_eq_feed (hmalloc : ∀ n, malloc n = true) {bufsiz : Nat} {held : Str}
    {chunks : List Str} (hheld : Lines.Open isLf held)
    (sizes : ∀ chunk ∈ chunks, 1 ≤ chunk.length ∧ chunk.length ≤ bufsiz)
    (nulFree : ∀ chunk ∈ chunks, NulFree chunk)
    (short : ∀ piece ∈ (Lines.feed isLf held chunks.flatten).1 ++
      [(Lines.feed isLf held chunks.flatten).2], piece.length < maxWorkBuf - bufsiz - 2) :
    handleReads malloc (pendingOf held) chunks =
      (linesOf (Lines.feed isLf held chunks.flatten).1,
        pendingOf (Lines.feed isLf held chunks.flatten).2) := by
  induction chunks generalizing held with
  | nil => rfl
  | cons chunk chunks ih =>
      obtain ⟨nonempty, size⟩ := sizes chunk List.mem_cons_self
      have fits : held.length + chunk.length + 1 ≤ maxWorkBuf := by
        obtain ⟨piece, member, longer⟩ :=
          Lines.exists_piece_of_held isLf held (chunk :: chunks).flatten
        have := short piece member
        have := longer.length_le
        omega
      have whole := ofBuffer_of_nulFree (nulFree chunk List.mem_cons_self)
      have first := handleRead_eq_feed hmalloc (List.ne_nil_of_length_pos nonempty) hheld fits
      have rest := ih (Lines.open_feed hheld chunk)
        (fun other hother => sizes other (List.mem_cons_of_mem _ hother))
        (fun other hother => nulFree other (List.mem_cons_of_mem _ hother))
        (by
          intro piece hpiece
          apply short
          rw [List.flatten_cons, Lines.feed_append, List.append_assoc]
          exact List.mem_append_right _ hpiece)
      rw [handleReads, whole, first, List.flatten_cons, Lines.feed_append, linesOf_append]
      simp only [rest]

/-- However a stream is cut into chunks: the lines that are handled are its terminated lines, and
what stands behind the last line feed is pending. -/
theorem handleReads_eq_lines (hmalloc : ∀ n, malloc n = true) {bufsiz : Nat} {chunks : List Str}
    (sizes : ∀ chunk ∈ chunks, 1 ≤ chunk.length ∧ chunk.length ≤ bufsiz)
    (nulFree : NulFree chunks.flatten)
    (short : ∀ line ∈ chunks.flatten.splitOn '\n', line.length < maxWorkBuf - bufsiz - 2) :
    handleReads malloc none chunks =
      (linesOf (chunks.flatten.splitOn '\n').dropLast,
        pendingOf ((chunks.flatten.splitOn '\n').getLastD [])) := by
  have pieces : chunks.flatten.splitOn '\n' =
      (Lines.feed isLf [] chunks.flatten).1 ++ [(Lines.feed isLf [] chunks.flatten).2] :=
    Lines.splitOnP_eq_feed chunks.flatten
  rw [pieces] at short ⊢
  rw [List.dropLast_concat, List.getLastD_concat, ← handleReads_eq_feed hmalloc Lines.open_nil sizes
    (fun chunk member inside => nulFree (List.mem_flatten.mpr ⟨chunk, member, inside⟩)) short]
  rfl

/-- A carriage return at the end of one chunk and its line feed in the next. -/
theorem handleReads_eq_lines_twoChunks :
    handleReads (fun _ => true) none ["one\r".toList, "\n\ntw".toList] =
      (["one".toList], some "tw".toList) := by
  have cut := @handleReads_eq_lines (fun _ => true) (fun _ => rfl) 4
    ["one\r".toList, "\n\ntw".toList] (by decide +kernel) (by decide +kernel) (by decide +kernel)
  exact cut.trans (by decide +kernel)

end Baseimage.LogMonitor
