import Baseimage.Cinit.ReadLines
import Baseimage.Cinit.Values
import Baseimage.Run.Actions

/-!
# Values printed by a program

When the file of a value is executable, its text makes a detour: the program prints it to a pipe,
`read_lines` cuts it into lines and drops the empty ones, and `process_line` puts the lines
together again in the buffer of the loader. Static files are read into the buffer as they are. Both
texts are then cut at their first end of line and converted, so they agree where the detour keeps
the first line.
-/

namespace Baseimage.Cinit

open CString

/-! ## Reading the two pipes of a program -/

namespace ExecCmd

/-- A pipe: what was read from it, and its read state. -/
structure Pipe where
  stream : Str := []
  rstate : ReadState := {}

/-- `exec_cmd_with_line_callback` while the program runs: the two pipes, and the lines the callback
was called with. -/
structure Reading where
  pipe : StdOutput → Pipe := fun _ => {}
  lines : List (StdOutput × Str) := []

inductive Action where
  /-- A `read` that returns some bytes. -/
  | read (src : StdOutput) (bytes : Str)
  /-- "Line is too big to fit in buffer." -/
  | flush (src : StdOutput)
  /-- A `read` that returns 0, or the other end has been closed. -/
  | endOfFile (src : StdOutput)
  deriving DecidableEq, Repr

/-- A round was done with the read state of one pipe. -/
def Reading.deliver (c : Reading) (src : StdOutput) (bytes : Str) (result : List Str × ReadState) :
    Reading where
  pipe := Function.update c.pipe src
    { stream := (c.pipe src).stream ++ bytes, rstate := result.2 }
  lines := c.lines ++ result.1.map fun line => (src, line)

/-- What `read_lines` does with one pipe; `none` when it is not possible. An interrupted call
changes nothing. -/
def step (c : Reading) : Action → Option Reading
  | .read src bytes =>
      let rstate := (c.pipe src).rstate
      if rstate.eof = false ∧ 0 < bytes.length ∧ bytes.length ≤ rstate.maxToRead then
        some (c.deliver src bytes (received rstate bytes))
      else none
  | .flush src =>
      let rstate := (c.pipe src).rstate
      if rstate.eof = false ∧ rstate.maxToRead = 0 then some (c.deliver src [] (flushLine rstate))
      else none
  | .endOfFile src =>
      let rstate := (c.pipe src).rstate
      if rstate.eof = false then some (c.deliver src [] (Cinit.endOfFile rstate)) else none

/-- The lines of one pipe among the lines the callback was called with. -/
def linesFrom (src : StdOutput) (lines : List (StdOutput × Str)) : List Str :=
  (lines.filter fun line => line.1 == src).map Prod.snd

/-- The callback is called with these lines while a program prints a text on its standard
output. -/
def Prints (text : Str) (output : List (StdOutput × Str)) : Prop :=
  ∃ actions c, Actions.run step {} actions = some c ∧ (∀ src, (c.pipe src).rstate.eof = true) ∧
    (c.pipe .stdout).stream = text ∧ c.lines = output

/-- The pieces between the ends of line of a text. -/
def pieces (text : Str) : List Str := (Lines.feed isEol [] text).1 ++ [(Lines.feed isEol [] text).2]

/-- The lines of a text that are not empty. -/
def nonemptyLines (text : Str) : List Str := (pieces text).filter (fun piece => piece ≠ [])

/-- What was read from a pipe was handed over, up to the piece that is still open. A stream that
fits in the buffer is never flushed. -/
structure Delivered (src : StdOutput) (c : Reading) : Prop where
  running : (c.pipe src).rstate.eof = false →
    linesFrom src c.lines = calledLines (Lines.feed isEol [] (c.pipe src).stream).1 ∧
      (c.pipe src).rstate.buf = (Lines.feed isEol [] (c.pipe src).stream).2
  ended : (c.pipe src).rstate.eof = true →
    linesFrom src c.lines = nonemptyLines (c.pipe src).stream

/-- A stream that `read_lines` never cuts within a line. -/
def Short (stream : Str) : Prop := NulFree stream ∧ stream.length < readBufSize - 1

@[simp] theorem linesFrom_append (src : StdOutput) (xs ys : List (StdOutput × Str)) :
    linesFrom src (xs ++ ys) = linesFrom src xs ++ linesFrom src ys := by
  simp [linesFrom]

@[simp] theorem linesFrom_self (src : StdOutput) (lines : List Str) :
    linesFrom src (lines.map fun line => (src, line)) = lines := by
  induction lines with
  | nil => rfl
  | cons line lines ih => simpa [linesFrom] using ih

theorem linesFrom_other {src other : StdOutput} (h : other ≠ src) (lines : List Str) :
    linesFrom src (lines.map fun line => (other, line)) = [] := by
  simp [linesFrom, List.filter_eq_nil_iff, h]

theorem calledLines_append (xs ys : List Str) :
    calledLines (xs ++ ys) = calledLines xs ++ calledLines ys := by
  simp [calledLines]

theorem mem_feed {text piece : Str} {c : Char} (hpiece : piece ∈ pieces text) (hc : c ∈ piece) :
    c ∈ text := by
  have conserved := Lines.feed_flatten isEol [] text
  have member : c ∈ (pieces text).flatten := List.mem_flatten.mpr ⟨piece, hpiece, hc⟩
  rw [pieces, List.flatten_concat, conserved, List.nil_append] at member
  exact List.mem_of_mem_filter member

theorem calledLines_pieces {text : Str} (h : NulFree text) :
    calledLines (pieces text) = nonemptyLines text := by
  have whole : ∀ piece ∈ nonemptyLines text, ofBuffer piece = id piece := by
    intro piece hpiece
    exact ofBuffer_of_nulFree fun inside => h (mem_feed (List.mem_of_mem_filter hpiece) inside)
  exact (List.map_congr_left whole).trans (List.map_id _)

theorem delivered_read {c : Reading} {src : StdOutput} {bytes : Str} (h : Delivered src c)
    (running : (c.pipe src).rstate.eof = false) :
    Delivered src (c.deliver src bytes (received (c.pipe src).rstate bytes)) := by
  obtain ⟨lines, held⟩ := h.running running
  have stillRunning : (received (c.pipe src).rstate bytes).2.eof = false := running
  have nothing : Lines.Open isEol [] := Lines.open_nil
  have open_held := Lines.open_feed nothing (c.pipe src).stream
  constructor
  · intro _
    simp only [Reading.deliver, Function.update_self, linesFrom_append, linesFrom_self, lines]
    simp only [received, takeLines_eq_feed]
    rw [held, Lines.feed_held open_held, Lines.feed_append, calledLines_append]
    exact ⟨rfl, rfl⟩
  · intro ended
    simp only [Reading.deliver, Function.update_self, stillRunning] at ended
    cases ended

theorem delivered_endOfFile {c : Reading} {src : StdOutput} (h : Delivered src c)
    (running : (c.pipe src).rstate.eof = false) (nulFree : NulFree (c.pipe src).stream) :
    Delivered src (c.deliver src [] (Cinit.endOfFile (c.pipe src).rstate)) := by
  obtain ⟨lines, held⟩ := h.running running
  constructor
  · intro running'
    simp only [Reading.deliver, Function.update_self, Cinit.endOfFile] at running'
    cases running'
  · intro _
    have last : (Cinit.endOfFile (c.pipe src).rstate).1 =
      calledLines [(c.pipe src).rstate.buf] := by
      have whole : ofBuffer (c.pipe src).rstate.buf = (c.pipe src).rstate.buf := by
        apply ofBuffer_of_nulFree
        intro inside
        exact nulFree (mem_feed (List.mem_concat_self) (held ▸ inside))
      rw [Cinit.endOfFile, whole]
      split
      · next empty => simp [calledLines, empty]
      · next full => simp [calledLines, full, whole]
    simp only [Reading.deliver, Function.update_self, linesFrom_append, linesFrom_self, lines,
      List.append_nil]
    rw [last, held, ← calledLines_append, ← calledLines_pieces nulFree]
    rfl

theorem delivered_other {c : Reading} {src other : StdOutput} {bytes : Str}
    {result : List Str × ReadState} (h : Delivered src c) (hother : other ≠ src) :
    Delivered src (c.deliver other bytes result) := by
  have same : (c.deliver other bytes result).pipe src = c.pipe src :=
    Function.update_of_ne hother.symm _ _
  have lines : linesFrom src (c.deliver other bytes result).lines = linesFrom src c.lines := by
    rw [Reading.deliver, linesFrom_append, linesFrom_other hother, List.append_nil]
  exact ⟨fun running => by rw [lines, same]; exact h.running (same ▸ running),
    fun ended => by rw [lines, same]; exact h.ended (same ▸ ended)⟩

/-- What the assembler holds is not longer than what it was fed. -/
theorem length_held_le (text : Str) : (Lines.feed isEol [] text).2.length ≤ text.length := by
  have conserved := congrArg List.length (Lines.feed_flatten isEol [] text)
  have filtered := List.length_filter_le (fun c => !isEol c) text
  simp only [List.length_append, List.nil_append] at conserved
  omega

theorem Short.of_append {stream bytes : Str} (h : Short (stream ++ bytes)) : Short stream := by
  refine ⟨fun inside => h.1 (List.mem_append_left _ inside), ?_⟩
  have := h.2
  rw [List.length_append] at this
  omega

/-- A round keeps what was delivered from each pipe whose stream is short. -/
theorem delivered_step {c c' : Reading} {a : Action} (src : StdOutput)
    (h : Short (c.pipe src).stream → Delivered src c) (hstep : step c a = some c')
    (short : Short (c'.pipe src).stream) : Delivered src c' := by
  have grown : ∀ other bytes result, c' = c.deliver other bytes result →
      Short (c.pipe src).stream := by
    rintro other bytes result rfl
    by_cases same : other = src
    · subst same
      simp only [Reading.deliver, Function.update_self] at short
      exact short.of_append
    · simpa only [Reading.deliver, Function.update_of_ne (Ne.symm same)] using short
  cases a with
  | read other bytes =>
      obtain ⟨⟨running, -⟩, hc⟩ := Option.ite_none_right_eq_some.mp hstep
      have delivered := h (grown _ _ _ (Option.some.inj hc).symm)
      obtain rfl := Option.some.inj hc
      by_cases same : other = src
      · exact same ▸ delivered_read (same ▸ delivered) running
      · exact delivered_other delivered same
  | flush other =>
      obtain ⟨⟨running, full⟩, hc⟩ := Option.ite_none_right_eq_some.mp hstep
      have fits := grown _ _ _ (Option.some.inj hc).symm
      have delivered := h fits
      obtain rfl := Option.some.inj hc
      by_cases same : other = src
      · subst same
        have held := length_held_le (c.pipe other).stream
        rw [← (delivered.running running).2] at held
        have := fits.2
        unfold ReadState.maxToRead at full
        omega
      · exact delivered_other delivered same
  | endOfFile other =>
      obtain ⟨running, hc⟩ := Option.ite_none_right_eq_some.mp hstep
      have fits := grown _ _ _ (Option.some.inj hc).symm
      have delivered := h fits
      obtain rfl := Option.some.inj hc
      by_cases same : other = src
      · subst same
        exact delivered_endOfFile delivered running fits.1
      · exact delivered_other delivered same

/-- The callback gets the lines of the text that are not empty. -/
theorem linesFrom_of_prints {text : Str} {output : List (StdOutput × Str)} (h : Prints text output)
    (short : Short text) : linesFrom .stdout output = nonemptyLines text := by
  obtain ⟨actions, c, hrun, ended, rfl, rfl⟩ := h
  have keeps : ∀ c a c', (Short (c.pipe .stdout).stream → Delivered .stdout c) →
      step c a = some c' → Short (c'.pipe .stdout).stream → Delivered .stdout c' :=
    fun _ _ _ h hstep short => delivered_step .stdout h hstep short
  have start : Short (({} : Reading).pipe .stdout).stream → Delivered .stdout {} :=
    fun _ => ⟨fun _ => ⟨rfl, rfl⟩, fun ended => by cases ended⟩
  have delivered := Actions.run_invariant keeps start hrun
  exact (delivered short).ended (ended .stdout)

/-- Every text can be printed. -/
theorem exists_prints {text : Str} (short : text.length < readBufSize - 1) :
    ∃ output, Prints text output := by
  by_cases empty : text = []
  · subst empty
    refine ⟨_, [.endOfFile .stdout, .endOfFile .stderr], _, rfl, ?_, rfl, rfl⟩
    intro src
    cases src <;> rfl
  · let c : Reading := ({} : Reading).deliver .stdout text (received {} text)
    have first : step {} (.read .stdout text) = some c := by
      refine if_pos ⟨rfl, List.length_pos_iff.mpr empty, ?_⟩
      show text.length ≤ readBufSize - 0 - 1
      omega
    have rest : Actions.run step c [.endOfFile .stdout, .endOfFile .stderr] = some _ := rfl
    have whole : Actions.run step {}
      (.read .stdout text :: [.endOfFile .stdout, .endOfFile .stderr]) =
        Actions.run step c [.endOfFile .stdout, .endOfFile .stderr] := by
      rw [Actions.run_cons, first, Option.bind_some]
    refine ⟨_, _, _, whole.trans rest, ?_, List.append_nil text, rfl⟩
    intro src
    cases src <;> rfl

/-! ## The lines of a text -/

/-- Empty lines at the beginning are not among them. -/
theorem nonemptyLines_dropWhile (text : Str) :
    nonemptyLines (text.dropWhile isEol) = nonemptyLines text := by
  induction text with
  | nil => rfl
  | cons c text ih =>
      cases hc : isEol c with
      | false => rw [List.dropWhile_cons_of_neg (by simp [hc])]
      | true =>
          rw [List.dropWhile_cons_of_pos hc, ih]
          simp [nonemptyLines, pieces, Lines.feed_eol hc]

/-- A text that does not begin with an end of line has its first line among them. -/
theorem nonemptyLines_cons {c : Char} (hc : isEol c = false) (text : Str) :
    ∃ rest, nonemptyLines (c :: text) = terminateAtFirstEol (c :: text) :: rest := by
  have nonempty : terminateAtFirstEol (c :: text) ≠ [] := by simp [terminateAtFirstEol, hc]
  cases hcut : Lines.splitFirst isEol (c :: text) with
  | none =>
      have noEol := Lines.splitFirst_eq_none_iff.mp hcut
      have whole : terminateAtFirstEol (c :: text) = c :: text :=
        List.takeWhile_eq_self_iff.mpr fun x hx => by simp [noEol x hx]
      refine ⟨[], ?_⟩
      rw [whole, nonemptyLines, pieces, Lines.feed_of_open noEol]
      rfl
  | some cut =>
      obtain ⟨t, hsplit, ht, hline⟩ := Lines.splitFirst_eq_some hcut
      have first : terminateAtFirstEol (c :: text) = cut.1 := by
        rw [hsplit, terminateAtFirstEol,
          List.takeWhile_append_of_pos fun x hx => by simp [hline x hx],
          List.takeWhile_cons_of_neg (by simp [ht]), List.append_nil]
      rw [first] at nonempty ⊢
      rw [hsplit, nonemptyLines, pieces, Lines.feed_piece hline ht, List.nil_append,
        List.cons_append,
        List.filter_cons_of_pos (by simpa using nonempty)]
      exact ⟨_, rfl⟩

/-- The room the lines take, each with the character that separates it from the next one. -/
def room (lines : List Str) : Nat := (lines.map fun line => line.length + 1).sum

theorem room_feed (held text : Str) :
    room ((Lines.feed isEol held text).1 ++ [(Lines.feed isEol held text).2]) =
      held.length + text.length + 1 := by
  induction text generalizing held with
  | nil => simp [room]
  | cons c text ih =>
      cases hc : isEol c with
      | false =>
          rw [Lines.feed_open_cons hc, ih, List.length_append, List.length_singleton,
            List.length_cons]
          omega
      | true =>
          have rest := ih []
          rw [Lines.feed_eol hc, List.cons_append]
          simp only [room, List.map_cons, List.sum_cons, List.length_nil] at rest ⊢
          rw [rest, List.length_cons]
          omega

theorem room_filter_le (p : Str → Bool) (lines : List Str) :
    room (lines.filter p) ≤ room lines := by
  induction lines with
  | nil => exact Nat.le_refl _
  | cons line lines ih =>
      cases h : p line with
      | false =>
          rw [List.filter_cons_of_neg (by simp [h])]
          simp only [room, List.map_cons, List.sum_cons] at ih ⊢
          omega
      | true =>
          rw [List.filter_cons_of_pos h]
          simp only [room, List.map_cons, List.sum_cons] at ih ⊢
          omega

theorem room_nonemptyLines_le (text : Str) : room (nonemptyLines text) ≤ text.length + 1 := by
  have all := room_feed [] text
  have kept := room_filter_le (fun piece => piece ≠ []) (pieces text)
  simp only [List.length_nil, Nat.zero_add] at all
  exact kept.trans all.le

/-! ## Putting the lines together again -/

/-- Later lines are appended, each after a line feed, as long as there is room. -/
theorem foldl_processLine_append (sys : System) (output : List (StdOutput × Str))
    {ctx : ProcessCmdOutputCtx} {text : Str} (hbuf : ctx.buf = some text) (herr : ctx.err = none)
    (hadded : 0 < ctx.numLinesAdded)
    (hroom : text.length + room (linesFrom .stdout output) < ctx.bufsize) :
    (output.foldl (fun ctx line => processLine sys ctx line.1 line.2) ctx).err = none ∧
      (output.foldl (fun ctx line => processLine sys ctx line.1 line.2) ctx).buf =
        some (text ++ (linesFrom .stdout output).flatMap ('\n' :: ·)) := by
  induction output generalizing ctx text with
  | nil => exact ⟨herr, by simpa [linesFrom] using hbuf⟩
  | cons line output ih =>
      obtain ⟨src, line⟩ := line
      rw [List.foldl_cons]
      cases src with
      | stderr => exact ih hbuf herr hadded hroom
      | stdout =>
          have hlines : linesFrom .stdout ((.stdout, line) :: output) =
              line :: linesFrom .stdout output := rfl
          rw [hlines] at hroom ⊢
          simp only [room, List.map_cons, List.sum_cons] at hroom
          have appended : processLine sys ctx .stdout line =
              { ctx with
                buf := some (text ++ '\n' :: line)
                numLinesAdded := ctx.numLinesAdded + 1 } := by
            have fits : ¬ (ctx.bufsize ≤ text.length + line.length + 1) := by omega
            simp [processLine, herr, hbuf, hadded, hadded.ne', fits, ProcessCmdOutputCtx.append]
          rw [appended]
          let after : ProcessCmdOutputCtx := { ctx with
            buf := some (text ++ '\n' :: line), numLinesAdded := ctx.numLinesAdded + 1 }
          have hafter : after.buf = some (text ++ '\n' :: line) := rfl
          have room_left : (text ++ '\n' :: line).length + room (linesFrom .stdout output) <
              after.bufsize := by
            show _ < ctx.bufsize
            simp only [room, List.length_append, List.length_cons]
            omega
          have rest := ih hafter herr (Nat.succ_pos _) room_left
          refine ⟨rest.1, ?_⟩
          rw [rest.2]
          simp

/-- The first line empties the buffer, and the others follow it. -/
theorem foldl_processLine_lines (sys : System) {output : List (StdOutput × Str)} {line : Str}
    {rest : List Str} {bufsize : Nat} (hlines : linesFrom .stdout output = line :: rest)
    (hroom : room (line :: rest) ≤ bufsize) (stack : Str) :
    (output.foldl (fun ctx line => processLine sys ctx line.1 line.2)
        { allocatedBuf := false, buf := some stack, bufsize := bufsize }).err = none ∧
      (output.foldl (fun ctx line => processLine sys ctx line.1 line.2)
        { allocatedBuf := false, buf := some stack, bufsize := bufsize }).buf =
        some (line ++ rest.flatMap ('\n' :: ·)) := by
  induction output with
  | nil => cases hlines
  | cons printed output ih =>
      obtain ⟨src, printed⟩ := printed
      rw [List.foldl_cons]
      cases src with
      | stderr => exact ih hlines
      | stdout =>
          have hcons : printed :: linesFrom .stdout output = line :: rest := hlines
          obtain ⟨rfl, rfl⟩ := List.cons.inj hcons
          simp only [room, List.map_cons, List.sum_cons] at hroom
          have fits : printed.length < bufsize := by omega
          have first : processLine sys
            { allocatedBuf := false, buf := some stack, bufsize := bufsize }
              .stdout printed =
              { numLinesAdded := 1, allocatedBuf := false, buf := some printed,
                bufsize := bufsize } := by
            simp [processLine, fits, ProcessCmdOutputCtx.append]
          rw [first]
          apply foldl_processLine_append sys output rfl rfl Nat.one_pos
          show printed.length + room (linesFrom .stdout output) < bufsize
          simp only [room]
          omega

/-- The lines put together again begin with the first of them. -/
theorem terminateAtFirstEol_lines {line : Str} (hline : Lines.Open isEol line) (rest : List Str) :
    terminateAtFirstEol (line ++ rest.flatMap ('\n' :: ·)) = line := by
  have taken : ∀ x ∈ line, (!isEol x) = true := fun x hx => by simp [hline x hx]
  rw [terminateAtFirstEol, List.takeWhile_append_of_pos taken]
  cases rest with
  | nil => exact List.append_nil line
  | cons next rest => exact List.append_nil line

theorem open_terminateAtFirstEol (text : Str) : Lines.Open isEol (terminateAtFirstEol text) := by
  intro x hx
  simpa using List.mem_takeWhile_imp hx

end ExecCmd

/-! ## The typed loaders -/

/-- The loaders that convert what they load. -/
inductive TypedLoader where
  | bool
  | int
  | uint
  | interval
  | uid
  | gid
  | mode
  deriving DecidableEq, Repr

namespace TypedLoader

def Value : TypedLoader → Type
  | bool => Bool
  | int => Int
  | _ => Nat

/-- `sizeof(buf)`. -/
def bufsize : TypedLoader → Nat
  | bool => 32
  | int | uint | interval => 128
  | uid | gid | mode => 256

/-- What the loader does with the trimmed text. -/
def convert (sys : System) : (loader : TypedLoader) → Str → Outcome Str loader.Value
  | bool => fun text => if text.length = 0 then .ok true else stringToBool text
  | int => stringToInt
  | uint => stringToUint
  | interval => stringToInterval
  | uid => stringToUid sys
  | gid => stringToGid sys
  | mode => stringToMode

/-- `load_value_as_...`. -/
def load (sys : System) : (loader : TypedLoader) → (filepath : Str) → Option Node →
    (stack : Str) → Outcome Str (Option loader.Value)
  | bool => loadValueAsBool sys
  | int => loadValueAsInt sys
  | uint => loadValueAsUint sys
  | interval => loadValueAsInterval sys
  | uid => loadValueAsUid sys
  | gid => loadValueAsGid sys
  | mode => loadValueAsMode sys

theorem load_eq (sys : System) (loader : TypedLoader) (filepath : Str) (node : Option Node)
    (stack : Str) :
    loader.load sys filepath node stack =
      loadValueAs loader.bufsize (loader.convert sys) sys filepath node stack := by
  cases loader <;> rfl

theorem bufsize_lt (loader : TypedLoader) : loader.bufsize < readBufSize := by
  cases loader <;> decide

/-- What a text that was loaded is converted to, if it can be. -/
def valueOf (sys : System) (loader : TypedLoader) (text : Str) : Option loader.Value :=
  (loader.convert sys (trim (terminateAtFirstEol text))).toOption

/-- Loading a text from a static file and from an executable that prints it and exits with 0 gives
the same value, or both is an error, whatever the buffers held before. -/
def Agrees (sys : System) (loader : TypedLoader) (filepath text : Str) : Prop :=
  ∀ output stack stack', ExecCmd.Prints text output → stack.length < loader.bufsize →
    stack'.length < loader.bufsize →
    (loader.load sys filepath (some (.program output 0)) stack).toOption =
      (loader.load sys filepath (some (.file text)) stack').toOption

/-- Some line is not empty, and where empty lines stand before it, it has the value of an empty
text. -/
def FirstLineCounts (sys : System) (loader : TypedLoader) (text : Str) : Prop :=
  text.dropWhile isEol ≠ [] ∧
    (text.dropWhile isEol = text ∨
      (loader.convert sys (trim (terminateAtFirstEol (text.dropWhile isEol)))).toOption =
        (loader.convert sys []).toOption)

variable {sys : System} {loader : TypedLoader} {filepath text : Str}

/-- A value that was not converted is an error. -/
theorem toOption_converted (result : Outcome Str loader.Value) :
    ((result >>= fun value => .ok (some value)).handle
        (fun message => throwMessage (couldNotLoad filepath message))).toOption =
      result.toOption.map some := by
  cases result with
  | ok value => rfl
  | threw message =>
      show (throwMessage (couldNotLoad filepath message)).toOption = none
      cases hthrow : (throwMessage (couldNotLoad filepath message) :
        Outcome Str (Option loader.Value)) with
      | ok value => exact absurd hthrow (throwMessage_ne_ok _ _)
      | threw _ => rfl
      | aborted => rfl
  | aborted => rfl

theorem load_file (hnul : NulFree text) (hlen : text.length < loader.bufsize) (stack : Str) :
    (loader.load sys filepath (some (.file text)) stack).toOption =
      (loader.valueOf sys text).map some := by
  have fits : ¬ (text.length > loader.bufsize - 1) := by omega
  rw [load_eq]
  simp only [loadValueAs, loadValueAsString, readFile, if_neg fits, ofBuffer_of_nulFree hnul]
  exact toOption_converted _

theorem load_silent {output : List (StdOutput × Str)}
    (hlines : ExecCmd.linesFrom .stdout output = []) (stack : Str) :
    (loader.load sys filepath (some (.program output 0)) stack).toOption =
      (loader.valueOf sys stack).map some := by
  have silent : output.all (fun line => line.1 == .stderr) = true := by
    rw [List.all_eq_true]
    intro line hline
    by_contra printed
    have member : line.2 ∈ ExecCmd.linesFrom .stdout output := by
      apply List.mem_map_of_mem
      refine List.mem_filter.mpr ⟨hline, ?_⟩
      obtain ⟨src, line⟩ := line
      cases src with
      | stdout => rfl
      | stderr => exact absurd rfl printed
    rw [hlines] at member
    cases member
  rw [load_eq, loadValueAs_silent silent]
  exact toOption_converted _

theorem load_program {output : List (StdOutput × Str)} {line : Str} {rest : List Str}
    (hlines : ExecCmd.linesFrom .stdout output = line :: rest) (hline : Lines.Open isEol line)
    (hroom : ExecCmd.room (line :: rest) ≤ loader.bufsize) (stack : Str) :
    (loader.load sys filepath (some (.program output 0)) stack).toOption =
      ((loader.convert sys (trim line)).toOption).map some := by
  obtain ⟨herr, hbuf⟩ := ExecCmd.foldl_processLine_lines sys hlines hroom stack
  rw [load_eq]
  simp only [loadValueAs, loadValueAsString, Option.isNone_some, Bool.false_eq_true, if_false, herr,
    hbuf]
  refine (toOption_converted _).trans ?_
  rw [Option.getD_some, ExecCmd.terminateAtFirstEol_lines hline]

theorem terminateAtFirstEol_cons {c : Char} (hc : isEol c = true) (text : Str) :
    terminateAtFirstEol (c :: text) = [] := by
  rw [terminateAtFirstEol, List.takeWhile_cons_of_neg (by simp [hc])]

/-- What is loaded from the program: the value of its first line that is not empty, and that of the
old contents of the buffer where there is none. -/
theorem load_prints {output : List (StdOutput × Str)} (hnul : NulFree text)
    (hlen : text.length < loader.bufsize) (printed : ExecCmd.Prints text output) (stack : Str) :
    (loader.load sys filepath (some (.program output 0)) stack).toOption =
      (loader.valueOf sys (if text.dropWhile isEol = [] then stack else text.dropWhile isEol)).map
        some := by
  have short : ExecCmd.Short text := ⟨hnul, by have := loader.bufsize_lt; omega⟩
  have hlines := ExecCmd.linesFrom_of_prints printed short
  have hroom := ExecCmd.room_nonemptyLines_le text
  rw [← ExecCmd.nonemptyLines_dropWhile] at hlines hroom
  cases hdrop : text.dropWhile isEol with
  | nil =>
      rw [hdrop] at hlines
      rw [if_pos rfl]
      exact load_silent hlines stack
  | cons c cs =>
      have hc : isEol c = false := by
        have head := List.head_dropWhile_not isEol (l := text) (by simp [hdrop])
        simpa [hdrop] using head
      obtain ⟨rest, hrest⟩ := ExecCmd.nonemptyLines_cons hc cs
      rw [hdrop, hrest] at hlines hroom
      rw [if_neg (List.cons_ne_nil c cs)]
      exact load_program hlines (ExecCmd.open_terminateAtFirstEol _) (by omega) stack

/-- A value is not that of both these texts. -/
theorem exists_stack (sys : System) (loader : TypedLoader) (value : Option loader.Value) :
    ∃ stack, stack.length < loader.bufsize ∧ loader.valueOf sys stack ≠ value := by
  have zero : "0".toList.length < loader.bufsize := by cases loader <;> decide
  have one : "1".toList.length < loader.bufsize := by cases loader <;> decide
  have distinct : loader.valueOf sys "0".toList ≠ loader.valueOf sys "1".toList := by
    cases loader with
    | bool => exact fun same => Bool.noConfusion (Option.some.inj same)
    | int => exact fun same => absurd (Option.some.inj same) Int.zero_ne_one
    | _ => exact fun same => absurd (Option.some.inj same) Nat.zero_ne_one
  by_cases same : loader.valueOf sys "0".toList = value
  · exact ⟨_, one, fun h => distinct (same.trans h.symm)⟩
  · exact ⟨_, zero, same⟩

/-- Executable and static files agree on a text exactly if its first line counts. -/
theorem agrees_iff (sys : System) (loader : TypedLoader) (filepath text : Str)
    (hnul : NulFree text) (hlen : text.length < loader.bufsize) :
    loader.Agrees sys filepath text ↔ loader.FirstLineCounts sys text := by
  have empty : text.dropWhile isEol ≠ text →
      loader.valueOf sys text = (loader.convert sys []).toOption := by
    intro changed
    cases text with
    | nil => exact absurd rfl changed
    | cons c cs =>
        have hc : isEol c = true := by
          by_contra hc
          exact changed (List.dropWhile_cons_of_neg hc)
        rw [valueOf, terminateAtFirstEol_cons hc]
        rfl
  constructor
  · intro agrees
    have bytes := loader.bufsize_lt
    have short : text.length < readBufSize - 1 := by omega
    obtain ⟨output, printed⟩ := ExecCmd.exists_prints short
    have same : ∀ stack, stack.length < loader.bufsize →
        loader.valueOf sys (if text.dropWhile isEol = [] then stack else text.dropWhile isEol) =
          loader.valueOf sys text := by
      intro stack hstack
      have loaded := agrees output stack stack printed hstack hstack
      rw [load_prints hnul hlen printed, load_file hnul hlen] at loaded
      exact Option.map_injective (fun _ _ h => Option.some.inj h) loaded
    have nonempty : text.dropWhile isEol ≠ [] := by
      intro blank
      obtain ⟨stack, hstack, differs⟩ := exists_stack sys loader (loader.valueOf sys text)
      have here := same stack hstack
      rw [if_pos blank] at here
      exact differs here
    refine ⟨nonempty, ?_⟩
    by_cases unchanged : text.dropWhile isEol = text
    · exact .inl unchanged
    · right
      have here := same [] (by cases loader <;> decide)
      rw [if_neg nonempty, empty unchanged] at here
      exact here
  · rintro ⟨nonempty, counts⟩ output stack stack' printed - -
    rw [load_prints hnul hlen printed, load_file hnul hlen, if_neg nonempty]
    obtain unchanged | same := counts
    · rw [unchanged]
    · by_cases unchanged : text.dropWhile isEol = text
      · rw [unchanged]
      · rw [empty unchanged]
        exact congrArg _ same

/-- A system without users, groups and memory. -/
def bareSystem : System where
  malloc _ := false
  strerror _ := []
  getpwnam _ := none
  getgrnam _ := none

theorem agrees_iff_seconds :
    (TypedLoader.interval.Agrees bareSystem "interval".toList "30\n# half a minute\n".toList ↔
      TypedLoader.interval.FirstLineCounts bareSystem "30\n# half a minute\n".toList) :=
  agrees_iff bareSystem .interval _ _ (by decide) (by decide)

/-- An executable `respawn` that prints nothing: a static file would mean true. -/
theorem silent_executable_disagrees :
    ¬ ∀ (sys : System) (loader : TypedLoader) (filepath text : Str), NulFree text →
      text.length < loader.bufsize → loader.Agrees sys filepath text := by
  intro claim
  have agrees := claim bareSystem .bool "respawn".toList [] (by decide) (by decide)
  have printed : ExecCmd.Prints [] [] :=
    ⟨[.endOfFile .stdout, .endOfFile .stderr], _, rfl, fun src => by cases src <;> rfl, rfl, rfl⟩
  have loaded : some (some false) = some (some true) :=
    agrees [] "0".toList [] printed (by decide) (by decide)
  cases loaded

end TypedLoader

end Baseimage.Cinit
