import Baseimage.Cinit.Utils

/-!
# The line reader

`read_lines` cuts what it reads from a descriptor into lines and calls back for every line that
is not empty. Each descriptor has a read state, and the functions below are what one round of the
loop does with the read state of one descriptor: the lines it calls back with, and the new read
state. The callback is given a C string, so it sees a line up to its first NUL.
-/

namespace Baseimage.Cinit

open CString

/-- `sizeof(rstate->buf)`. -/
def readBufSize : Nat := 4096

/-- `output_read_state_t`; `used` is the length of `buf`. -/
structure ReadState where
  buf : Str := []
  eof : Bool := false
  deriving DecidableEq, Repr

/-- "Get the maximum number of bytes to read." -/
def ReadState.maxToRead (rstate : ReadState) : Nat := readBufSize - rstate.buf.length - 1

/-- "Line is too big to fit in buffer. We need to flush the buffer." -/
def flushLine (rstate : ReadState) : List Str × ReadState :=
  ([ofBuffer rstate.buf], { rstate with buf := [] })

/-- "EOF. Line is complete." The same is done when the other end has been closed. -/
def endOfFile (rstate : ReadState) : List Str × ReadState :=
  (if ofBuffer rstate.buf = [] then [] else [ofBuffer rstate.buf], { buf := [], eof := true })

/-- "Check if we have a complete line", until none is left in the buffer. -/
def takeLines (buf : Str) : List Str × Str :=
  match _h : Lines.splitFirst isEol buf with
  | none => ([], buf)
  | some (line, rest) =>
      let called := if line.length ≠ 0 then [ofBuffer line] else []
      (called ++ (takeLines rest).1, (takeLines rest).2)
termination_by buf.length
decreasing_by all_goals exact Lines.splitFirst_length _h

/-- A `read` returned some bytes. -/
def received (rstate : ReadState) (bytes : Str) : List Str × ReadState :=
  ((takeLines (rstate.buf ++ bytes)).1, { rstate with buf := (takeLines (rstate.buf ++ bytes)).2 })

/-- The lines among cut pieces that are called back with. -/
def calledLines (pieces : List Str) : List Str :=
  (pieces.filter (fun piece => piece ≠ [])).map ofBuffer

/-- The bytes of a stream that are not line terminators. -/
def textOf (bytes : Str) : Str := bytes.filter (fun c => !isEol c)

@[simp] theorem textOf_nil : textOf [] = [] := rfl

@[simp] theorem textOf_append (xs ys : Str) : textOf (xs ++ ys) = textOf xs ++ textOf ys :=
  List.filter_append _ _

theorem textOf_of_open {bytes : Str} (h : Lines.Open isEol bytes) : textOf bytes = bytes := by
  rw [textOf, List.filter_eq_self]
  intro c hc
  simp [h c hc]

/-- Taking the complete lines of the buffer is one step of the assembler. -/
theorem takeLines_eq_feed (buf : Str) :
    takeLines buf =
      (calledLines (Lines.feed isEol [] buf).1, (Lines.feed isEol [] buf).2) := by
  induction hlen : buf.length using Nat.strongRecOn generalizing buf with
  | ind n ih =>
      rw [takeLines]
      split
      · next noEol =>
          rw [Lines.feed_of_open (Lines.splitFirst_eq_none_iff.mp noEol)]
          rfl
      · next line rest found =>
          obtain ⟨t, hcut, ht, hline⟩ := Lines.splitFirst_eq_some found
          have shorter : rest.length < n := hlen ▸ Lines.splitFirst_length found
          have later := ih _ shorter rest rfl
          rw [later, hcut, Lines.feed_piece hline ht, List.nil_append]
          cases line with
          | nil => simp [calledLines]
          | cons c cs => simp [calledLines]

/-- The callback is given the pieces themselves where they have no NUL. -/
theorem calledLines_of_nulFree {pieces : List Str} (h : ∀ piece ∈ pieces, NulFree piece) :
    calledLines pieces = pieces.filter (fun piece => piece ≠ []) := by
  have whole : ∀ piece ∈ pieces.filter (fun piece => piece ≠ []), ofBuffer piece = id piece :=
    fun piece hpiece => ofBuffer_of_nulFree (h piece (List.mem_of_mem_filter hpiece))
  exact (List.map_congr_left whole).trans (List.map_id _)

/-- Nothing is lost or altered among pieces without NUL. -/
theorem calledLines_flatten {pieces : List Str} (h : ∀ piece ∈ pieces, NulFree piece) :
    (calledLines pieces).flatten = pieces.flatten := by
  rw [calledLines_of_nulFree h]
  exact List.flatten_filter_ne_nil

theorem nulFree_ofBuffer (buf : Str) : NulFree (ofBuffer buf) := by
  intro member
  simpa using List.mem_takeWhile_imp member

/-- What a round hands to the callback never holds a NUL. -/
theorem nulFree_calledLines (pieces : List Str) : NulFree (calledLines pieces).flatten := by
  intro member
  obtain ⟨line, hline, inside⟩ := List.mem_flatten.mp member
  obtain ⟨piece, -, rfl⟩ := List.mem_map.mp hline
  exact nulFree_ofBuffer piece inside

/-- The law of a reading round: the lines handed over and the bytes kept are the bytes kept
before and the text of the bytes read. -/
theorem received_conserves {rstate : ReadState} {bytes : Str}
    (hheld : Lines.Open isEol rstate.buf) (hbuf : NulFree rstate.buf) (hbytes : NulFree bytes) :
    (received rstate bytes).1.flatten ++ (received rstate bytes).2.buf =
      rstate.buf ++ textOf bytes := by
  have conserved := Lines.feed_flatten isEol [] (rstate.buf ++ bytes)
  rw [List.nil_append] at conserved
  have pieces : ∀ piece ∈ (Lines.feed isEol [] (rstate.buf ++ bytes)).1, NulFree piece := by
    intro piece hpiece inside
    have member := Lines.mem_of_mem_feed (List.mem_append_left _ hpiece) inside
    rw [List.nil_append] at member
    rcases List.mem_append.mp member with old | new
    · exact hbuf old
    · exact hbytes new
  simp only [received, takeLines_eq_feed, calledLines_flatten pieces]
  rw [conserved]
  exact (textOf_append _ _).trans (by rw [textOf_of_open hheld])

theorem received_open {rstate : ReadState} {bytes : Str} (hheld : Lines.Open isEol rstate.buf) :
    Lines.Open isEol (received rstate bytes).2.buf := by
  simp only [received, takeLines_eq_feed]
  rw [Lines.feed_held hheld]
  exact Lines.open_feed hheld bytes

/-- At the end of the stream everything kept is handed over. -/
theorem endOfFile_conserves {rstate : ReadState} (hbuf : NulFree rstate.buf) :
    (endOfFile rstate).1.flatten = rstate.buf := by
  simp only [endOfFile, ofBuffer_of_nulFree hbuf]
  split
  · next h => simp [h]
  · simp

end Baseimage.Cinit
