import Baseimage.Cinit.Utils
import Baseimage.Run.Actions

/-!
# The command FIFO

Clients write command lines to a named pipe, and once per iteration the main loop of the
supervisor reads from it and acts on what it read. A client's write is atomic. A read returns
bytes in the order they were written, at most 255 of them and at most what is queued.

The main loop cuts what it has read at the first end of line and looks at the part before it
only. So a command line is acted on when a read returns exactly that line, and a line that comes
behind another one in the same read is dropped.
-/

namespace Baseimage.Cinit.Command

open CString

/-- `sizeof(buf) - 1`. -/
def maxRead : Nat := 255

/-- What the main loop does with the bytes of a read: the name of the service it was asked to
restart, if it was. -/
def restartRequest (buf : Str) : Option Str :=
  let line := trim (terminateAtFirstEol (ofBuffer buf))
  if "restart:".toList <+: line then some (line.drop "restart:".toList.length) else none

/-- A client writes one whole line, with its line feed. -/
def CommandLine (line : Str) : Prop :=
  line.length ≤ maxRead ∧ line.getLast? = some '\n' ∧ '\n' ∉ line.dropLast

instance (line : Str) : Decidable (CommandLine line) :=
  inferInstanceAs (Decidable (_ ∧ _))

structure Fifo where
  queue : Str := []
  /-- The main loop is running. -/
  inLoop : Bool := true
  /-- The lines the clients wrote, the bytes the main loop read, and the requests it acted on. -/
  written : List Str := []
  consumed : Str := []
  acted : List Str := []

inductive Action where
  | write (line : Str)
  /-- One read of the main loop returns `n` bytes. -/
  | read (n : Nat)
  /-- The main loop is left. -/
  | leave
  deriving DecidableEq, Repr

/-- One action; `none` when it is not possible. -/
def step (c : Fifo) : Action → Option Fifo
  | .write line =>
      if CommandLine line then
        some { c with queue := c.queue ++ line, written := c.written ++ [line] }
      else none
  | .read n =>
      if c.inLoop = true ∧ n ≤ maxRead ∧ n ≤ c.queue.length ∧ (n = 0 → c.queue = []) then
        let request := restartRequest (c.queue.take n)
        some { c with
          queue := c.queue.drop n
          -- A request without a name violates an assertion of `find_service`.
          inLoop := request ≠ some []
          consumed := c.consumed ++ c.queue.take n
          acted := c.acted ++ request.toList }
      else none
  | .leave => if c.inLoop = true then some { c with inLoop := false } else none

/-- The main loop has just been entered. -/
def start : Fifo := {}

def isLf (c : Char) : Bool := c == '\n'

/-- The lines among some bytes, each with its line feed. -/
def wholeLines (bytes : Str) : List Str :=
  (Lines.feed isLf [] bytes).1.map (fun line => line ++ ['\n'])

/-- Every line that was read has been acted on exactly once and in order, as if it had been read
alone. -/
def ActedOnAll (c : Fifo) : Prop := c.acted = (wholeLines c.consumed).filterMap restartRequest

/-- A read ends at the end of a line, and of the lines it returns only the first may be a
command. -/
def OneCommand (c : Fifo) : Action → Prop
  | .read n =>
      c.queue.take n = [] ∨ (c.queue.take n).getLast? = some '\n' ∧
        ∀ line ∈ (wholeLines (c.queue.take n)).tail, restartRequest line = none
  | _ => True

instance (c : Fifo) : Decidable (ActedOnAll c) := inferInstanceAs (Decidable (_ = _))

instance (c : Fifo) (a : Action) : Decidable (OneCommand c a) := by
  cases a <;> simp only [OneCommand] <;> infer_instance

/-- Where a line follows in the same read, only the first one counts. -/
theorem restartRequest_append (line rest : Str) :
    restartRequest (line ++ '\n' :: rest) = restartRequest (line ++ ['\n']) := by
  have cut : terminateAtFirstEol (ofBuffer (line ++ '\n' :: rest)) =
      terminateAtFirstEol (ofBuffer (line ++ ['\n'])) := by
    induction line with
    | nil =>
        have visible : ('\n' != nul) = true := by decide
        simp [ofBuffer, terminateAtFirstEol, visible, isEol]
    | cons c cs ih =>
        simp only [ofBuffer, terminateAtFirstEol, List.cons_append, List.takeWhile_cons] at ih ⊢
        split
        · simp only [List.takeWhile_cons, ih]
        · rfl
  simp only [restartRequest, cut]

/-- In every run, what was read and what is queued is together what was written. -/
structure InOrder (c : Fifo) : Prop where
  lines : ∀ line ∈ c.written, CommandLine line
  bytes : c.consumed ++ c.queue = c.written.flatten

theorem inOrder_step {c c' : Fifo} {a : Action} (inv : InOrder c) (hstep : step c a = some c') :
    InOrder c' := by
  cases a with
  | write line =>
      simp only [step, Option.ite_none_right_eq_some, Option.some.injEq] at hstep
      obtain ⟨hline, rfl⟩ := hstep
      refine { lines := ?_, bytes := ?_ }
      · intro other hother
        rcases List.mem_append.mp hother with old | new
        · exact inv.lines other old
        · exact List.mem_singleton.mp new ▸ hline
      · rw [← List.append_assoc, inv.bytes]
        simp
  | read n =>
      simp only [step, Option.ite_none_right_eq_some, Option.some.injEq] at hstep
      obtain ⟨-, rfl⟩ := hstep
      exact { lines := inv.lines, bytes := by simpa using inv.bytes }
  | leave =>
      simp only [step, Option.ite_none_right_eq_some, Option.some.injEq] at hstep
      obtain ⟨-, rfl⟩ := hstep
      exact { inv with }

theorem wholeLines_flatten {lines : List Str} (h : ∀ line ∈ lines, CommandLine line) :
    wholeLines lines.flatten = lines := by
  have terminated : ∀ line ∈ lines, line.dropLast ++ ['\n'] = line := fun line hline =>
    List.dropLast_append_getLast? '\n' (h line hline).2.1
  have pieces := Lines.feed_pieces isLf (t := '\n') rfl (lines.map List.dropLast)
    (by
      intro piece hpiece x hx
      obtain ⟨line, hline, rfl⟩ := List.mem_map.mp hpiece
      have hne : x ≠ '\n' := by
        rintro rfl
        exact (h line hline).2.2 hx
      simpa [isLf] using hne) []
  have same : (lines.map List.dropLast).flatMap (fun piece => piece ++ ['\n']) = lines.flatten := by
    rw [List.flatMap_map, List.flatMap_def, List.map_congr_left terminated]
    simp
  rw [same, List.append_nil] at pieces
  rw [wholeLines, pieces, Lines.feed_nil, List.append_nil, List.map_map]
  exact (List.map_congr_left terminated).trans (List.map_id _)

/-- The lines read are, in order, the first lines written. -/
theorem InOrder.wholeLines_first {c : Fifo} (inv : InOrder c) :
    wholeLines c.consumed <+: c.written := by
  have all := wholeLines_flatten inv.lines
  rw [← inv.bytes, wholeLines, Lines.feed_append, List.map_append] at all
  exact ⟨_, all⟩

/-- The invariant of the runs where every read returns one command: the bytes read are whole
lines, and they have been acted on. -/
structure Inv (c : Fifo) : Prop where
  whole : (Lines.feed isLf [] c.consumed).2 = []
  acted : ActedOnAll c

theorem inv_start : Inv start :=
  { whole := rfl
    acted := rfl }

/-- One read that ends at the end of a line. -/
theorem inv_read {c c' : Fifo} {n : Nat} (inv : Inv c) (hone : OneCommand c (.read n))
    (hstep : step c (.read n) = some c') : Inv c' := by
  simp only [step, Option.ite_none_right_eq_some, Option.some.injEq] at hstep
  obtain ⟨-, rfl⟩ := hstep
  rcases hone with nothing | ⟨hlast, hothers⟩
  · have noRequest : restartRequest [] = none := by decide
    refine { whole := ?_, acted := ?_ }
    · simpa [nothing] using inv.whole
    · simpa [nothing, noRequest, ActedOnAll] using inv.acted
  · have cut := Lines.feed_append isLf [] c.consumed (c.queue.take n)
    rw [inv.whole] at cut
    have ends : (Lines.feed isLf [] (c.queue.take n)).2 = [] :=
      (Lines.feed_held_eq_nil_iff _).mpr (Or.inr ⟨'\n', hlast, rfl⟩)
    refine { whole := by rw [cut]; exact ends, acted := ?_ }
    have rebuilt := Lines.feed_rebuild isLf (t := '\n') (by simp [isLf]) []
      (c.queue.take n)
    rw [ends, List.append_nil, List.nil_append] at rebuilt
    have lines : wholeLines (c.consumed ++ c.queue.take n) =
        wholeLines c.consumed ++ wholeLines (c.queue.take n) := by
      rw [wholeLines, cut, List.map_append]
      rfl
    have acted := inv.acted
    simp only [ActedOnAll, lines, List.filterMap_append] at acted ⊢
    rw [acted]
    -- The read acts on its first line, and the others are not commands.
    cases hpieces : (Lines.feed isLf [] (c.queue.take n)).1 with
    | nil =>
        rw [hpieces, List.flatMap_nil] at rebuilt
        simp [← rebuilt] at hlast
    | cons line lines =>
        have request : restartRequest (c.queue.take n) = restartRequest (line ++ ['\n']) := by
          rw [← rebuilt, hpieces, List.flatMap_cons, List.append_assoc]
          exact restartRequest_append line _
        have others : (lines.map (fun line => line ++ ['\n'])).filterMap restartRequest = [] := by
          rw [List.filterMap_eq_nil_iff]
          intro other hother
          apply hothers
          simpa [wholeLines, hpieces] using hother
        have mine : wholeLines (c.queue.take n) =
            (line ++ ['\n']) :: lines.map (fun line => line ++ ['\n']) := by
          rw [wholeLines, hpieces, List.map_cons]
        rw [request, mine, List.filterMap_cons, others]
        cases restartRequest (line ++ ['\n']) <;> rfl

theorem inv_step {c c' : Fifo} {a : Action} (inv : Inv c) (hone : OneCommand c a)
    (hstep : step c a = some c') : Inv c' := by
  cases a with
  | read n => exact inv_read inv hone hstep
  | write line =>
      simp only [step, Option.ite_none_right_eq_some, Option.some.injEq] at hstep
      obtain ⟨-, rfl⟩ := hstep
      exact { inv with }
  | leave =>
      simp only [step, Option.ite_none_right_eq_some, Option.some.injEq] at hstep
      obtain ⟨-, rfl⟩ := hstep
      exact { inv with }

/-- In every run where each read ends at the end of a line and returns no command behind its
first line, the lines read are the first lines written, and each of them has been acted on
exactly once and in order, as if it had been read alone. -/
theorem actedOnAll {actions : List Action} {c : Fifo}
    (hrun : Actions.run step start actions = some c)
    (hone : Actions.Along step OneCommand start actions) :
    wholeLines c.consumed <+: c.written ∧ ActedOnAll c := by
  have inOrder : InOrder c :=
    Actions.run_invariant (fun _ _ _ kept stepped => inOrder_step kept stepped)
      { lines := by simp [start], bytes := rfl } hrun
  have inv : Inv c :=
    Actions.run_invariant_of_along (fun _ _ _ kept one stepped => inv_step kept one stepped)
      inv_start hone hrun
  exact ⟨inOrder.wholeLines_first, inv.acted⟩

/-- Two clients whose commands are read one at a time. -/
def oneByOne : List Action :=
  [.write "restart:app\n".toList, .read 12, .write "restart:xvnc\n".toList, .read 13]

/-- Two clients whose commands are read together. -/
def together : List Action :=
  [.write "restart:app\n".toList, .write "restart:xvnc\n".toList, .read 25]

private theorem oneByOne_possible : (Actions.run step start oneByOne).isSome = true := by
  decide +kernel

private theorem together_possible : (Actions.run step start together).isSome = true := by
  decide +kernel

theorem actedOnAll_oneByOne :
    ∃ c, Actions.run step start oneByOne = some c ∧ c.acted = ["app".toList, "xvnc".toList] ∧
      ActedOnAll c := by
  refine ⟨_, (Option.some_get oneByOne_possible).symm, by decide +kernel, ?_⟩
  exact (actedOnAll (Option.some_get oneByOne_possible).symm
    (by decide +kernel)).2

/-- Both lines are read, and only the first one is acted on. -/
theorem together_loses_command :
    ∃ c, Actions.run step start together = some c ∧ c.queue = [] ∧
      wholeLines c.consumed = ["restart:app\n".toList, "restart:xvnc\n".toList] ∧
      c.acted = ["app".toList] ∧ ¬ ActedOnAll c := by
  refine ⟨_, (Option.some_get together_possible).symm, ?_⟩
  decide +kernel

end Baseimage.Cinit.Command
