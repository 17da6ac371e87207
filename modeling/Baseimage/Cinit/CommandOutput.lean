import Baseimage.Cinit.Values
import Baseimage.Text.StringCells

/-!
# The output of a command

`process_line` appends the lines that a command prints to a buffer: either one of the caller, which
must be large enough, or one that is allocated and grows. It is given here as a function on the
block of memory that the buffer is, with the number of lines as the `unsigned int` it is. Storing
outside of the block has no result, and neither has a string that does not end in it. Sizes are
those of strings in memory, so their sums do not go round.

The buffer is cut at its beginning when the number of lines is zero. So it is when the number has
gone round, which takes a buffer of the caller of at least 4 GiB.
-/

namespace Baseimage.Cinit.CommandOutput

open CString

/-- The values of an `unsigned int`. -/
def uintValues : Nat := 2 ^ 32

/-- `process_cmd_output_ctx_t`. The block of the buffer has its real size. -/
structure Context where
  err : Option Errno := none
  numLinesAdded : Nat := 0
  allocatedBuf : Bool
  buf : Option Str
  bufsize : Nat

/-- A line of the output, and what `realloc` answers if it is asked for memory for it: nothing, or a
block whose new cells hold something. -/
structure OutputLine where
  src : StdOutput
  line : Str
  realloc : Option (Nat → Char)

/-- The end of `process_line`, where nothing but the strings is changed. -/
def Context.append (ctx : Context) (nlCharNeeded : Bool) (line : Str) : Option Context :=
  ctx.buf >>= fun buf =>
    (if nlCharNeeded then strcat buf ['\n'] else some buf) >>= fun buf =>
      strcat buf line >>= fun buf =>
        some { ctx with buf := some buf, numLinesAdded := (ctx.numLinesAdded + 1) % uintValues }

/-- The first line of the standard output: whatever the buffer holds goes away. -/
def Context.reset (ctx : Context) : Option Context :=
  match ctx.buf with
  | some buf =>
      if ctx.numLinesAdded = 0 then
        (Cells.store buf 0 nul).map fun buf => { ctx with buf := some buf }
      else some ctx
  | none => some ctx

/-- `realloc` of the buffer to the new size. Without a buffer there is no string yet. -/
def Context.grow (ctx : Context) (fresh : Nat → Char) : Option Context :=
  match ctx.buf with
  | some buf => some { ctx with buf := some (realloc buf ctx.bufsize fresh) }
  | none =>
      (Cells.store (realloc [] ctx.bufsize fresh) 0 nul).map fun buf => { ctx with buf := some buf }

/-- The size a buffer grows to. -/
def grownSize (bufsize lineLen : Nat) : Nat := max (bufsize + 1024) (bufsize + lineLen + 1)

/-- `strlen` of the buffer, if there is one. -/
def Context.bufLen (ctx : Context) : Option Nat :=
  match ctx.buf with
  | some buf => strlen buf
  | none => some 0

/-- What `process_line` does with a line of the standard output. -/
def Context.advance (ctx : Context) (input : OutputLine) : Option Context :=
  ctx.bufLen >>= fun bufLen =>
    let lineLen := input.line.length
    let nlCharNeeded := decide (ctx.numLinesAdded > 0)
    if bufLen + lineLen + nlCharNeeded.toNat ≥ ctx.bufsize then
      if ctx.allocatedBuf then
        let ctx := { ctx with bufsize := grownSize ctx.bufsize lineLen }
        if ctx.bufsize > maxMemoryForCmdOutput then some { ctx with err := some .e2big }
        else
          match input.realloc with
          | none => some { ctx with err := some .enomem }
          | some fresh => ctx.grow fresh >>= fun ctx => ctx.append nlCharNeeded input.line
      else some { ctx with err := some .enobufs }
    else ctx.append nlCharNeeded input.line

/-- `process_line`. -/
def processLine (ctx : Context) (input : OutputLine) : Option Context :=
  if input.src ≠ .stdout then some ctx
  else if ctx.err ≠ none then some ctx
  else ctx.reset >>= fun ctx => ctx.advance input

/-- The context of `load_value_as_string`: for a buffer of the caller, or without one. -/
def Context.start : Option Str → Context
  | some buf => { allocatedBuf := false, buf := some buf, bufsize := buf.length }
  | none => { allocatedBuf := true, buf := none, bufsize := 0 }

def processLines (ctx : Context) (inputs : List OutputLine) : Option Context :=
  inputs.foldlM processLine ctx

/-! ## What is to be accumulated -/

/-- The lines of the standard output. -/
def stdoutLines (inputs : List OutputLine) : List Str :=
  (inputs.filter fun input => input.src = .stdout).map OutputLine.line

/-- The lines with a line feed between them. -/
def joined (lines : List Str) : Str := ['\n'].intercalate lines

/-- From some capacity on, and behind some lines, a capacity above the limit comes up or `realloc`
fails. -/
def GrowthFails : Nat → List Str → List OutputLine → Prop
  | _, _, [] => False
  | capacity, lines, input :: inputs =>
      if input.src ≠ .stdout then GrowthFails capacity lines inputs
      else if (joined (lines ++ [input.line])).length < capacity then
        GrowthFails capacity (lines ++ [input.line]) inputs
      else
        maxMemoryForCmdOutput < grownSize capacity input.line.length ∨ input.realloc = none ∨
          GrowthFails (grownSize capacity input.line.length) (lines ++ [input.line]) inputs

/-- The lines do not fit: in the buffer of the caller, or in one that would have to grow. -/
def Fails (ctx : Context) (lines : List Str) (inputs : List OutputLine) : Prop :=
  if ctx.allocatedBuf then GrowthFails ctx.bufsize lines inputs
  else ctx.bufsize ≤ (joined (lines ++ stdoutLines inputs)).length

/-- The number of lines in a buffer of the caller goes round: as many lines as an `unsigned int` has
values fit in it, and the line behind them would fit in it alone. -/
def GoesRound (bufsize : Nat) (lines : List Str) : Prop :=
  ∃ first line rest, lines = first ++ line :: rest ∧ first.length = uintValues ∧
    (joined first).length < bufsize ∧ line.length < bufsize

/-- The context behind some lines is as it should be. -/
structure Accurate (caller : Option Str) (seen : List OutputLine) (ctx : Context) : Prop where
  bounded : stdoutLines seen ≠ [] → ∀ buf, ctx.buf = some buf →
    ∃ n, strlen buf = some n ∧ n + 1 ≤ ctx.bufsize
  content : ctx.err = none → stdoutLines seen ≠ [] →
    ∃ buf, ctx.buf = some buf ∧ Stands buf (joined (stdoutLines seen))
  tooSmall : ∀ buf, caller = some buf →
    (ctx.err ≠ none ↔ buf.length - 1 < (joined (stdoutLines seen)).length)
  tooMuch : caller = none → (ctx.err ≠ none ↔ GrowthFails 0 [] seen)
  frozen : ctx.err ≠ none → ∀ later, ∃ ctx', processLines ctx later = some ctx' ∧
    ctx'.err = ctx.err ∧ ctx'.buf = ctx.buf

/-- Behind every line nothing was stored outside of the buffer, and the context is as it should
be. -/
def Accumulates (caller : Option Str) (inputs : List OutputLine) : Prop :=
  ∀ seen, seen <+: inputs →
    ∃ ctx, processLines (Context.start caller) seen = some ctx ∧ Accurate caller seen ctx

/-! ### Joined lines -/

theorem joined_concat {lines : List Str} (nonempty : lines ≠ []) (line : Str) :
    joined (lines ++ [line]) = joined lines ++ ['\n'] ++ line := by
  rw [joined, joined]
  induction lines with
  | nil => exact absurd rfl nonempty
  | cons first lines ih =>
      cases lines with
      | nil => simp [List.intercalate_cons_cons]
      | cons second lines =>
          have rest := ih (List.cons_ne_nil _ _)
          rw [List.cons_append, List.cons_append, List.intercalate_cons_cons,
            List.intercalate_cons_cons, ← List.cons_append, rest]
          simp only [List.append_assoc]

theorem joined_singleton (line : Str) : joined [line] = line := List.intercalate_singleton

/-- One more line: its characters, and the line feed in front of it. -/
theorem length_joined_concat (lines : List Str) (line : Str) :
    (joined (lines ++ [line])).length =
      (joined lines).length + line.length + (decide (lines ≠ [])).toNat := by
  by_cases empty : lines = []
  · rw [empty, List.nil_append, joined_singleton]
    simp [joined]
  · rw [joined_concat empty, List.length_append, List.length_append, List.length_singleton]
    simp only [decide_eq_true empty, Bool.toNat_true, ne_eq]
    omega

theorem length_joined_le (lines more : List Str) :
    (joined lines).length ≤ (joined (lines ++ more)).length := by
  induction more generalizing lines with
  | nil => rw [List.append_nil]
  | cons line more ih =>
      have one := length_joined_concat lines line
      have rest := ih (lines ++ [line])
      rw [List.append_assoc, List.singleton_append] at rest
      omega

/-- Joined lines have at least the line feeds between them. -/
theorem length_le_joined (lines : List Str) : lines.length ≤ (joined lines).length + 1 := by
  induction lines using List.reverseRecOn with
  | nil => exact Nat.zero_le _
  | append_singleton lines line ih =>
      rw [length_joined_concat, List.length_append, List.length_singleton]
      by_cases empty : lines = []
      · rw [empty, List.length_nil]
        omega
      · simp only [decide_eq_true empty, Bool.toNat_true, ne_eq]
        omega

/-- A buffer with fewer bytes than an `unsigned int` has values does not take so many lines. -/
theorem not_goesRound_of_lt {bufsize : Nat} (less : bufsize < uintValues) (lines : List Str) :
    ¬ GoesRound bufsize lines := by
  rintro ⟨first, line, rest, -, count, fits, -⟩
  have least := length_le_joined first
  omega

/-! ## One line -/

/-- What the buffer holds before a line is appended: there is none yet, or the lines so far stand in
a block of the size that is noted. -/
structure Context.Ready (ctx : Context) (lines : List Str) : Prop where
  nlCharNeeded : 0 < ctx.numLinesAdded ↔ lines ≠ []
  buf : ctx.buf = none ∧ ctx.allocatedBuf = true ∧ ctx.bufsize = 0 ∧ lines = [] ∨
    ∃ buf, ctx.buf = some buf ∧ buf.length = ctx.bufsize ∧ Stands buf (joined lines)

/-- The line was appended, in a buffer of some size. -/
def Context.Appended (ctx ctx' : Context) (bufsize : Nat) (text : Str) : Prop :=
  ∃ buf, buf.length = bufsize ∧ Stands buf text ∧
    ctx' = { ctx with
      buf := some buf
      numLinesAdded := (ctx.numLinesAdded + 1) % uintValues
      bufsize := bufsize }

section Line

variable {ctx : Context} {lines : List Str} {input : OutputLine}

theorem Context.append_run {buf : Str} (holds : ctx.buf = some buf)
    (size : buf.length = ctx.bufsize) (stands : Stands buf (joined lines)) {line : Str}
    (free : NulFree line)
    (room : (joined (lines ++ [line])).length < ctx.bufsize) :
    ∃ ctx', ctx.append (decide (lines ≠ [])) line = some ctx' ∧
      ctx.Appended ctx' ctx.bufsize (joined (lines ++ [line])) := by
  rw [← size] at room
  by_cases empty : lines = []
  · -- Behind nothing the line stands alone.
    rw [empty, List.nil_append, joined_singleton] at room ⊢
    rw [empty] at stands
    obtain ⟨buf', stored, size', stands'⟩ := stands.strcat free (by simpa [joined] using room)
    refine ⟨_, ?_, buf', size'.trans size, stands', rfl⟩
    rw [append, holds]
    simp [stored]
  · rw [joined_concat empty] at room ⊢
    rw [List.length_append] at room
    have feed : NulFree ['\n'] := by decide
    have first : (joined lines).length + ['\n'].length < buf.length := by
      rw [List.length_append] at room
      omega
    obtain ⟨buf₁, stored₁, size₁, stands₁⟩ := stands.strcat feed first
    obtain ⟨buf₂, stored₂, size₂, stands₂⟩ := stands₁.strcat free (by rw [size₁]; exact room)
    refine ⟨_, ?_, buf₂, (size₂.trans size₁).trans size, stands₂, rfl⟩
    rw [append, holds]
    simp [empty, stored₁, stored₂]

/-- How long the string in the buffer is, together with the line. -/
theorem Context.Ready.bufLen (ready : ctx.Ready lines) (line : Str) :
    ∃ bufLen, ctx.bufLen = some bufLen ∧
      bufLen + line.length + (decide (ctx.numLinesAdded > 0)).toNat =
        (joined (lines ++ [line])).length := by
  have separator : decide (ctx.numLinesAdded > 0) = decide (lines ≠ []) :=
    decide_eq_decide.mpr ready.nlCharNeeded
  refine ⟨(joined lines).length, ?_, ?_⟩
  · obtain ⟨noBuf, -, -, rfl⟩ | ⟨buf, holds, -, stands⟩ := ready.buf
    · rw [Context.bufLen, noBuf]
      rfl
    · rw [Context.bufLen, holds]
      exact stands.strlen
  · rw [separator, length_joined_concat]

/-- The text with the line fits in the buffer. -/
theorem Context.Ready.advance_fits (ready : ctx.Ready lines) (free : NulFree input.line)
    (room : (joined (lines ++ [input.line])).length < ctx.bufsize) :
    ∃ ctx', ctx.advance input = some ctx' ∧
      ctx.Appended ctx' ctx.bufsize (joined (lines ++ [input.line])) := by
  obtain ⟨bufLen, string, total⟩ := ready.bufLen input.line
  have separator : decide (ctx.numLinesAdded > 0) = decide (lines ≠ []) :=
    decide_eq_decide.mpr ready.nlCharNeeded
  obtain ⟨-, -, size, -⟩ | ⟨buf, holds, size, stands⟩ := ready.buf
  · omega
  · obtain ⟨ctx', run, appended⟩ := append_run holds size stands free room
    refine ⟨ctx', ?_, appended⟩
    rw [advance, string]
    simp only [Option.bind_eq_bind, Option.bind_some]
    rw [if_neg (by omega), separator, run]

/-- The text with the line does not fit in the buffer of the caller. -/
theorem Context.Ready.advance_enobufs (ready : ctx.Ready lines) (fixed : ctx.allocatedBuf = false)
    (noRoom : ctx.bufsize ≤ (joined (lines ++ [input.line])).length) :
    ctx.advance input = some { ctx with err := some .enobufs } := by
  obtain ⟨bufLen, string, total⟩ := ready.bufLen input.line
  rw [advance, string]
  simp only [Option.bind_eq_bind, Option.bind_some]
  rw [if_pos (by omega), fixed]
  rfl

/-- The buffer would have to grow, and it cannot. -/
theorem Context.Ready.advance_fails (ready : ctx.Ready lines) (allocated : ctx.allocatedBuf = true)
    (noRoom : ctx.bufsize ≤ (joined (lines ++ [input.line])).length)
    (fails : maxMemoryForCmdOutput < grownSize ctx.bufsize input.line.length ∨
      input.realloc = none) :
    ctx.advance input = some { ctx with
      bufsize := grownSize ctx.bufsize input.line.length
      err := some
        (if maxMemoryForCmdOutput < grownSize ctx.bufsize input.line.length then .e2big
          else .enomem) } := by
  obtain ⟨bufLen, string, total⟩ := ready.bufLen input.line
  rw [advance, string]
  simp only [Option.bind_eq_bind, Option.bind_some]
  rw [if_pos (by omega), if_pos allocated]
  by_cases inside : maxMemoryForCmdOutput < grownSize ctx.bufsize input.line.length
  · rw [if_pos inside, if_pos inside]
  · rw [if_neg inside, if_neg inside, fails.resolve_left inside]

/-- The size that is asked for is enough for the line. -/
theorem Context.Ready.room (ready : ctx.Ready lines) (line : Str) :
    (joined (lines ++ [line])).length < grownSize ctx.bufsize line.length := by
  have before : (joined lines).length + (decide (lines ≠ [])).toNat ≤ ctx.bufsize := by
    obtain ⟨-, -, -, rfl⟩ | ⟨buf, -, size, stands⟩ := ready.buf
    · exact Nat.zero_le _
    · have inside := stands.length_lt
      have one := Bool.toNat_le (decide (lines ≠ []))
      omega
  rw [length_joined_concat, grownSize]
  omega

/-- In the larger block the lines so far stand as before. -/
theorem Context.Ready.grow (ready : ctx.Ready lines) (fresh : Nat → Char) {bufsize : Nat}
    (larger : ctx.bufsize < bufsize) :
    ∃ buf, ({ ctx with bufsize := bufsize }).grow fresh =
        some { ctx with bufsize := bufsize, buf := some buf } ∧
      buf.length = bufsize ∧ Stands buf (joined lines) := by
  obtain ⟨noBuf, -, -, rfl⟩ | ⟨buf, holds, size, stands⟩ := ready.buf
  · have room : 0 < (realloc [] bufsize fresh).length := by
      rw [length_realloc]
      omega
    obtain ⟨buf, stored, length, empty⟩ := stands_store room
    refine ⟨buf, ?_, length.trans (length_realloc ..), empty⟩
    simp only [Context.grow, noBuf, stored, Option.map_some]
  · refine ⟨realloc buf bufsize fresh, ?_, length_realloc .., stands.realloc (by omega) fresh⟩
    simp only [Context.grow, holds]

/-- The buffer grows, and then there is room for the line. -/
theorem Context.Ready.advance_grows (ready : ctx.Ready lines) (free : NulFree input.line)
    (allocated : ctx.allocatedBuf = true)
    (noRoom : ctx.bufsize ≤ (joined (lines ++ [input.line])).length) {fresh : Nat → Char}
    (inside : grownSize ctx.bufsize input.line.length ≤ maxMemoryForCmdOutput)
    (answer : input.realloc = some fresh) :
    ∃ ctx', ctx.advance input = some ctx' ∧
      ctx.Appended ctx' (grownSize ctx.bufsize input.line.length)
        (joined (lines ++ [input.line])) := by
  obtain ⟨bufLen, string, total⟩ := ready.bufLen input.line
  have separator : decide (ctx.numLinesAdded > 0) = decide (lines ≠ []) :=
    decide_eq_decide.mpr ready.nlCharNeeded
  have larger : ctx.bufsize < grownSize ctx.bufsize input.line.length := by
    rw [grownSize]
    omega
  obtain ⟨buf, grown, size, stands⟩ := ready.grow fresh larger
  let block : Context := { ctx with
    bufsize := grownSize ctx.bufsize input.line.length
    buf := some buf }
  have holds : block.buf = some buf := rfl
  obtain ⟨ctx', run, appended⟩ := append_run holds size stands free (ready.room input.line)
  refine ⟨ctx', ?_, appended⟩
  rw [advance, string]
  simp only [Option.bind_eq_bind, Option.bind_some]
  rw [if_pos (by omega), if_pos allocated, if_neg (Nat.not_lt.mpr inside), answer]
  dsimp only
  rw [grown, Option.bind_some, separator]
  exact run

end Line

/-! ## Sequences of lines -/

/-- The buffer and the lines so far, while nothing has failed. Before the first line the buffer of
the caller holds anything. -/
structure Context.Sound (ctx : Context) (lines : List Str) : Prop where
  err : ctx.err = none
  count : ctx.numLinesAdded = lines.length % uintValues
  few : lines.length ≤ uintValues
  limit : ctx.allocatedBuf = true → ctx.bufsize ≤ maxMemoryForCmdOutput
  buf : ctx.buf = none ∧ ctx.allocatedBuf = true ∧ ctx.bufsize = 0 ∧ lines = [] ∨
    ∃ buf, ctx.buf = some buf ∧ buf.length = ctx.bufsize ∧ 0 < ctx.bufsize ∧
      (lines ≠ [] → Stands buf (joined lines))

/-- Something has failed; the buffer, if there is one, holds a string. -/
structure Context.Failed (ctx : Context) : Prop where
  err : ctx.err ≠ none
  buf : ∀ buf, ctx.buf = some buf → ∃ text, Stands buf text ∧ text.length + 1 ≤ ctx.bufsize

/-- The lines whose number `num_lines_added` is. When it has gone round these are none. -/
def counted (lines : List Str) : List Str := if lines.length = uintValues then [] else lines

section Sequences

variable {ctx : Context} {lines : List Str} {input : OutputLine} {inputs : List OutputLine}

theorem processLines_append (ctx : Context) (seen later : List OutputLine) :
    processLines ctx (seen ++ later) =
      processLines ctx seen >>= fun ctx => processLines ctx later :=
  List.foldlM_append

theorem processLines_singleton (ctx : Context) (input : OutputLine) :
    processLines ctx [input] = processLine ctx input := by
  rw [processLines, List.foldlM_cons]
  cases processLine ctx input <;> rfl

theorem processLine_of_err (err : ctx.err ≠ none) : processLine ctx input = some ctx := by
  rw [processLine, if_pos err]
  split <;> rfl

/-- What has failed stays as it is. -/
theorem processLines_of_err (err : ctx.err ≠ none) (inputs : List OutputLine) :
    processLines ctx inputs = some ctx := by
  induction inputs with
  | nil => rfl
  | cons input inputs ih =>
      rw [processLines, List.foldlM_cons, processLine_of_err err]
      exact ih

/-- What fails before a line is appended leaves a string in the buffer. -/
theorem Context.Ready.failed (ready : ctx.Ready lines) (err : Errno) {bufsize : Nat}
    (larger : ctx.bufsize ≤ bufsize) :
    ({ ctx with bufsize := bufsize, err := some err }).Failed where
  err := Option.some_ne_none err
  buf buf holds := by
    obtain ⟨noBuf, -⟩ | ⟨buf', holds', size, stands⟩ := ready.buf
    · cases noBuf.symm.trans holds
    · cases holds'.symm.trans holds
      have inside := stands.length_lt
      refine ⟨joined lines, stands, ?_⟩
      change (joined lines).length + 1 ≤ bufsize
      omega

theorem Context.append_frame {nlCharNeeded : Bool} {line : Str} {ctx' : Context}
    (run : ctx.append nlCharNeeded line = some ctx') :
    ctx'.allocatedBuf = ctx.allocatedBuf ∧ ctx'.bufsize = ctx.bufsize := by
  obtain ⟨buf, -, run⟩ := Option.bind_eq_some_iff.mp run
  obtain ⟨buf, -, run⟩ := Option.bind_eq_some_iff.mp run
  obtain ⟨buf, -, run⟩ := Option.bind_eq_some_iff.mp run
  cases run
  exact ⟨rfl, rfl⟩

theorem Context.reset_frame {ctx' : Context} (run : ctx.reset = some ctx') :
    ctx'.allocatedBuf = ctx.allocatedBuf ∧ ctx'.bufsize = ctx.bufsize := by
  rw [Context.reset] at run
  split at run
  · split at run
    · obtain ⟨buf, -, rfl⟩ := Option.map_eq_some_iff.mp run
      exact ⟨rfl, rfl⟩
    · cases run
      exact ⟨rfl, rfl⟩
  · cases run
    exact ⟨rfl, rfl⟩

/-- A buffer of the caller keeps its size. -/
theorem processLine_fixed {ctx' : Context} (fixed : ctx.allocatedBuf = false)
    (run : processLine ctx input = some ctx') :
    ctx'.allocatedBuf = false ∧ ctx'.bufsize = ctx.bufsize := by
  rw [processLine] at run
  split at run
  · cases run
    exact ⟨fixed, rfl⟩
  · split at run
    · cases run
      exact ⟨fixed, rfl⟩
    · obtain ⟨ctx₁, reset, run⟩ := Option.bind_eq_some_iff.mp run
      obtain ⟨kind, size⟩ := Context.reset_frame reset
      have fixed₁ : ctx₁.allocatedBuf = false := kind.trans fixed
      obtain ⟨bufLen, -, run⟩ := Option.bind_eq_some_iff.mp run
      simp only [fixed₁] at run
      split at run
      · cases run
        exact ⟨rfl, size⟩
      · obtain ⟨kind', size'⟩ := Context.append_frame run
        exact ⟨kind'.trans fixed₁, size'.trans size⟩

theorem processLines_fixed {ctx' : Context} (fixed : ctx.allocatedBuf = false)
    (run : processLines ctx inputs = some ctx') :
    ctx'.allocatedBuf = false ∧ ctx'.bufsize = ctx.bufsize := by
  induction inputs generalizing ctx with
  | nil =>
      cases run
      exact ⟨fixed, rfl⟩
  | cons input inputs ih =>
      rw [processLines, List.foldlM_cons] at run
      obtain ⟨ctx₁, one, rest⟩ := Option.bind_eq_some_iff.mp run
      obtain ⟨fixed₁, size⟩ := processLine_fixed fixed one
      obtain ⟨fixed', size'⟩ := ih fixed₁ rest
      exact ⟨fixed', size'.trans size⟩

theorem Context.Sound.reset (h : ctx.Sound lines) :
    ∃ buf, ctx.reset = some { ctx with buf := buf } ∧
      ({ ctx with buf := buf }).Ready (counted lines) := by
  obtain ⟨noBuf, allocated, size, rfl⟩ | ⟨buf, holds, size, room, stands⟩ := h.buf
  · have same : ctx.reset = some ctx := by simp only [Context.reset, noBuf]
    refine ⟨ctx.buf, same, ?_⟩
    have zero : ctx.numLinesAdded = 0 := h.count
    exact
      { nlCharNeeded := by simp [zero, counted]
        buf := .inl ⟨noBuf, allocated, size, by simp [counted]⟩ }
  · by_cases zero : ctx.numLinesAdded = 0
    · have first : counted lines = [] := by
        rw [counted]
        split
        · rfl
        · next less =>
            have count := h.count
            rw [zero, Nat.mod_eq_of_lt (Nat.lt_of_le_of_ne h.few less)] at count
            exact List.length_eq_zero_iff.mp count.symm
      obtain ⟨buf', stored, size', empty⟩ := stands_store (size.symm ▸ room)
      refine ⟨some buf', by simp [Context.reset, holds, zero, stored], ?_⟩
      rw [first]
      exact
        { nlCharNeeded := by simp [zero]
          buf := .inr ⟨buf', rfl, size'.trans size, empty⟩ }
    · have less : lines.length ≠ uintValues := fun round =>
        zero (by rw [h.count, round, Nat.mod_self])
      have nonempty : lines ≠ [] := fun empty => zero (by rw [h.count, empty]; rfl)
      have same : ctx.reset = some ctx := by simp only [Context.reset, holds, if_neg zero]
      refine ⟨ctx.buf, same, ?_⟩
      rw [counted, if_neg less]
      exact
        { nlCharNeeded := iff_of_true (Nat.pos_of_ne_zero zero) nonempty
          buf := .inr ⟨buf, holds, size, stands nonempty⟩ }

/-- A line of the standard output goes to the buffer with the lines that are counted. -/
theorem Context.Sound.takes (h : ctx.Sound lines) (stdout : input.src = .stdout) :
    ∃ buf, ctx.reset = some { ctx with buf := buf } ∧
      ({ ctx with buf := buf }).Ready (counted lines) ∧
      processLine ctx input = ({ ctx with buf := buf }).advance input := by
  obtain ⟨buf, reset, ready⟩ := h.reset
  refine ⟨buf, reset, ready, ?_⟩
  rw [processLine, if_neg (not_not.mpr stdout), if_neg (not_not.mpr h.err), reset]
  rfl

/-- What one line of the standard output does: it is appended, in the buffer there is or in one that
has grown, or the buffer is too small and cannot grow. -/
inductive Context.Taken (ctx : Context) (lines : List Str) (input : OutputLine) (ctx' : Context) :
    Prop
  | fits (room : (joined (lines ++ [input.line])).length < ctx.bufsize)
      (same : ctx'.bufsize = ctx.bufsize) (sound : ctx'.Sound (lines ++ [input.line]))
  | grows (noRoom : ctx.bufsize ≤ (joined (lines ++ [input.line])).length)
      (allocated : ctx.allocatedBuf = true)
      (inside : grownSize ctx.bufsize input.line.length ≤ maxMemoryForCmdOutput)
      (answer : input.realloc ≠ none)
      (size : ctx'.bufsize = grownSize ctx.bufsize input.line.length)
      (sound : ctx'.Sound (lines ++ [input.line]))
  | fails (noRoom : ctx.bufsize ≤ (joined (lines ++ [input.line])).length)
      (growth : ctx.allocatedBuf = true →
        maxMemoryForCmdOutput < grownSize ctx.bufsize input.line.length ∨ input.realloc = none)
      (failed : ctx'.Failed)

/-- The text that a line makes of the lines so far cannot be shorter than the line. -/
theorem length_le_joined_concat (lines : List Str) (line : Str) :
    line.length ≤ (joined (lines ++ [line])).length := by
  rw [length_joined_concat]
  omega

/-- The number of lines in a buffer that is allocated never goes round. -/
theorem Context.Sound.less (h : ctx.Sound lines) (allocated : ctx.allocatedBuf = true) :
    lines.length < uintValues := by
  have limit := h.limit allocated
  obtain ⟨-, -, -, rfl⟩ | ⟨buf, -, size, -, stands⟩ := h.buf
  · exact Nat.two_pow_pos 32
  · by_cases empty : lines = []
    · rw [empty]
      exact Nat.two_pow_pos 32
    · have text := (stands empty).length_lt
      have least := length_le_joined lines
      rw [maxMemoryForCmdOutput] at limit
      rw [uintValues]
      omega

/-- The lines stay sound when one was appended to those that are counted. -/
theorem Context.Sound.appended (h : ctx.Sound lines) (less : lines.length < uintValues)
    {buf : Option Str} {ctx' : Context} {bufsize : Nat}
    (limit : ctx.allocatedBuf = true → bufsize ≤ maxMemoryForCmdOutput)
    (appended : ({ ctx with buf := buf }).Appended ctx' bufsize (joined (lines ++ [input.line]))) :
    ctx'.bufsize = bufsize ∧ ctx'.Sound (lines ++ [input.line]) := by
  obtain ⟨buf', size, stands, rfl⟩ := appended
  refine ⟨rfl, ?_⟩
  exact
    { err := h.err
      count := by
        change (ctx.numLinesAdded + 1) % uintValues = _
        rw [h.count, List.length_append, List.length_singleton, Nat.mod_add_mod]
      few := by
        rw [List.length_append, List.length_singleton]
        exact less
      limit := limit
      buf := .inr ⟨buf', rfl, size, by
        change 0 < bufsize
        have inside := stands.length_lt
        omega, fun _ => stands⟩ }

/-- A line of the standard output, as long as the number of lines does not go round or the line
behind does not fit in the buffer. -/
theorem Context.Sound.step (h : ctx.Sound lines) (stdout : input.src = .stdout)
    (free : NulFree input.line)
    (spared : ctx.allocatedBuf = false → lines.length = uintValues →
      ctx.bufsize ≤ input.line.length) :
    ∃ ctx', processLine ctx input = some ctx' ∧ ctx'.allocatedBuf = ctx.allocatedBuf ∧
      ctx.Taken lines input ctx' := by
  obtain ⟨buf, -, ready, run⟩ := h.takes stdout
  rw [run]
  by_cases round : lines.length = uintValues
  · -- Nothing but the line would be in the buffer, and it is too long for it.
    rcases Bool.eq_false_or_eq_true ctx.allocatedBuf with allocated | fixed
    · exact absurd round (Nat.ne_of_lt (h.less allocated))
    · rw [counted, if_pos round] at ready
      have long : ctx.bufsize ≤ input.line.length := spared fixed round
      have noRoom : ctx.bufsize ≤ (joined ([] ++ [input.line])).length := by
        rwa [List.nil_append, joined_singleton]
      refine ⟨_, ready.advance_enobufs fixed noRoom, rfl, .fails ?_ ?_ ?_⟩
      · exact long.trans (length_le_joined_concat lines input.line)
      · exact fun allocated => absurd (fixed.symm.trans allocated) Bool.false_ne_true
      · exact ready.failed .enobufs (Nat.le_refl _)
  · have less : lines.length < uintValues := Nat.lt_of_le_of_ne h.few round
    rw [counted, if_neg round] at ready
    rcases Nat.lt_or_ge (joined (lines ++ [input.line])).length ctx.bufsize with room | noRoom
    · obtain ⟨ctx', advanced, appended⟩ := ready.advance_fits free room
      obtain ⟨size, sound⟩ := h.appended less h.limit appended
      obtain ⟨buf', -, -, rfl⟩ := appended
      exact ⟨_, advanced, rfl, .fits room size sound⟩
    · rcases Bool.eq_false_or_eq_true ctx.allocatedBuf with allocated | fixed
      · by_cases fails : maxMemoryForCmdOutput < grownSize ctx.bufsize input.line.length ∨
            input.realloc = none
        · have advanced := ready.advance_fails allocated noRoom fails
          have larger : ctx.bufsize ≤ grownSize ctx.bufsize input.line.length := by
            rw [grownSize]
            omega
          exact ⟨_, advanced, rfl, .fails noRoom (fun _ => fails) (ready.failed _ larger)⟩
        · obtain ⟨within, answer⟩ := not_or.mp fails
          have inside := Nat.le_of_not_lt within
          obtain ⟨fresh, granted⟩ := Option.ne_none_iff_exists'.mp answer
          obtain ⟨ctx', advanced, appended⟩ :=
            ready.advance_grows free allocated noRoom inside granted
          obtain ⟨size, sound⟩ := h.appended less (fun _ => inside) appended
          obtain ⟨buf', -, -, rfl⟩ := appended
          exact ⟨_, advanced, rfl, .grows noRoom allocated inside answer size sound⟩
      · refine ⟨_, ready.advance_enobufs fixed noRoom, rfl, .fails noRoom ?_ ?_⟩
        · exact fun allocated => absurd (fixed.symm.trans allocated) Bool.false_ne_true
        · exact ready.failed .enobufs (Nat.le_refl _)

/-- The line behind the one with which the number goes round is left alone in the buffer. -/
theorem Context.Sound.restarts (h : ctx.Sound lines) (round : lines.length = uintValues)
    (stdout : input.src = .stdout) (free : NulFree input.line)
    (short : input.line.length < ctx.bufsize) :
    ∃ ctx' buf, processLine ctx input = some ctx' ∧ ctx'.err = none ∧ ctx'.buf = some buf ∧
      Stands buf input.line := by
  obtain ⟨buf, -, ready, run⟩ := h.takes stdout
  rw [counted, if_pos round] at ready
  have room : (joined ([] ++ [input.line])).length < ctx.bufsize := by
    rwa [List.nil_append, joined_singleton]
  obtain ⟨ctx', advanced, buf', -, stands, rfl⟩ := ready.advance_fits free room
  rw [List.nil_append, joined_singleton] at stands
  exact ⟨_, buf', run.trans advanced, h.err, rfl, stands⟩

theorem stdoutLines_cons_of_ne (other : input.src ≠ .stdout) :
    stdoutLines (input :: inputs) = stdoutLines inputs := by
  rw [stdoutLines, List.filter_cons_of_neg (by simpa using other), stdoutLines]

theorem stdoutLines_cons (stdout : input.src = .stdout) :
    stdoutLines (input :: inputs) = input.line :: stdoutLines inputs := by
  rw [stdoutLines, List.filter_cons_of_pos (by simpa using stdout), List.map_cons, stdoutLines]

/-- Without a failure the lines have room in a buffer of the caller. -/
theorem Context.Sound.room (h : ctx.Sound lines) (fixed : ctx.allocatedBuf = false) :
    (joined lines).length < ctx.bufsize := by
  obtain ⟨-, allocated, -⟩ | ⟨buf, -, size, room, stands⟩ := h.buf
  · exact absurd (fixed.symm.trans allocated) Bool.false_ne_true
  · by_cases empty : lines = []
    · rw [empty]
      exact room
    · exact size ▸ (stands empty).length_lt

/-! Whether the lines fail, by what the first of them does. -/

theorem fails_cons_of_ne (other : input.src ≠ .stdout) :
    Fails ctx lines (input :: inputs) ↔ Fails ctx lines inputs := by
  rw [Fails, Fails, stdoutLines_cons_of_ne other, GrowthFails, if_pos other]

theorem fails_cons_of_fits {ctx' : Context} (stdout : input.src = .stdout)
    (kind : ctx'.allocatedBuf = ctx.allocatedBuf) (same : ctx'.bufsize = ctx.bufsize)
    (room : (joined (lines ++ [input.line])).length < ctx.bufsize) :
    Fails ctx lines (input :: inputs) ↔ Fails ctx' (lines ++ [input.line]) inputs := by
  rw [Fails, Fails, stdoutLines_cons stdout, List.append_cons, GrowthFails,
    if_neg (not_not.mpr stdout), if_pos room, same, kind]

theorem fails_cons_of_grows {ctx' : Context} (stdout : input.src = .stdout)
    (kind : ctx'.allocatedBuf = ctx.allocatedBuf) (allocated : ctx.allocatedBuf = true)
    (noRoom : ctx.bufsize ≤ (joined (lines ++ [input.line])).length)
    (inside : grownSize ctx.bufsize input.line.length ≤ maxMemoryForCmdOutput)
    (answer : input.realloc ≠ none)
    (size : ctx'.bufsize = grownSize ctx.bufsize input.line.length) :
    Fails ctx lines (input :: inputs) ↔ Fails ctx' (lines ++ [input.line]) inputs := by
  rw [Fails, Fails, kind, if_pos allocated, if_pos allocated, GrowthFails,
    if_neg (not_not.mpr stdout), if_neg (Nat.not_lt.mpr noRoom), size,
    or_iff_right (Nat.not_lt.mpr inside), or_iff_right answer]

theorem fails_cons_of_fails (stdout : input.src = .stdout)
    (noRoom : ctx.bufsize ≤ (joined (lines ++ [input.line])).length)
    (growth : ctx.allocatedBuf = true →
      maxMemoryForCmdOutput < grownSize ctx.bufsize input.line.length ∨ input.realloc = none) :
    Fails ctx lines (input :: inputs) := by
  rcases Bool.eq_false_or_eq_true ctx.allocatedBuf with allocated | fixed
  · rw [Fails, if_pos allocated, GrowthFails, if_neg (not_not.mpr stdout),
      if_neg (Nat.not_lt.mpr noRoom)]
    exact (growth allocated).imp_right .inl
  · rw [Fails, if_neg (by simp [fixed]), stdoutLines_cons stdout, List.append_cons]
    exact noRoom.trans (length_joined_le _ _)

/-- The context behind a sequence of lines: the text of all of them, or a failure, and this exactly
if the lines do not fit. -/
theorem Context.Sound.run (h : ctx.Sound lines) (free : ∀ input ∈ inputs, NulFree input.line)
    (once : ctx.allocatedBuf = false → ¬ GoesRound ctx.bufsize (lines ++ stdoutLines inputs)) :
    ∃ ctx', processLines ctx inputs = some ctx' ∧
      (ctx'.Sound (lines ++ stdoutLines inputs) ∧ ¬ Fails ctx lines inputs ∨
        ctx'.Failed ∧ Fails ctx lines inputs) := by
  induction inputs generalizing ctx lines with
  | nil =>
      refine ⟨ctx, rfl, .inl ⟨?_, ?_⟩⟩
      · exact (List.append_nil lines).symm ▸ h
      · rcases Bool.eq_false_or_eq_true ctx.allocatedBuf with allocated | fixed
        · simp [Fails, allocated, GrowthFails]
        · have room := h.room fixed
          simp [Fails, fixed, stdoutLines, room]
  | cons input inputs ih =>
      have later : ∀ other ∈ inputs, NulFree other.line :=
        fun other member => free other (List.mem_cons_of_mem _ member)
      rw [processLines, List.foldlM_cons]
      by_cases stdout : input.src = .stdout
      · have text : lines ++ input.line :: stdoutLines inputs =
            (lines ++ [input.line]) ++ stdoutLines inputs := List.append_cons ..
        have own := free input List.mem_cons_self
        rw [stdoutLines_cons stdout] at once ⊢
        have spared : ctx.allocatedBuf = false → lines.length = uintValues →
            ctx.bufsize ≤ input.line.length := fun fixed round =>
          Nat.le_of_not_lt fun short =>
            once fixed ⟨lines, input.line, _, rfl, round, h.room fixed, short⟩
        obtain ⟨ctx', run, kind, taken⟩ := h.step stdout own spared
        rw [run, text]
        cases taken with
        | fits room same sound =>
            rw [fails_cons_of_fits stdout kind same room]
            refine ih sound later fun fixed => ?_
            rw [same, ← text]
            exact once (kind.symm.trans fixed)
        | grows noRoom allocated inside answer size sound =>
            rw [fails_cons_of_grows stdout kind allocated noRoom inside answer size]
            refine ih sound later fun fixed => ?_
            exact absurd ((kind.symm.trans fixed).symm.trans allocated) Bool.false_ne_true
        | fails noRoom growth failed =>
            have fails : Fails ctx lines (input :: inputs) :=
              fails_cons_of_fails stdout noRoom growth
            exact ⟨ctx', processLines_of_err failed.err inputs, .inr ⟨failed, fails⟩⟩
      · have same : processLine ctx input = some ctx := by rw [processLine, if_pos stdout]
        rw [stdoutLines_cons_of_ne stdout] at once ⊢
        rw [same, fails_cons_of_ne stdout]
        exact ih h later once

end Sequences

/-! ## The lines as strings -/

/-- The context as `loadValueAsString` has it: the buffer is the string that stands in it. -/
def Context.text (ctx : Context) : ProcessCmdOutputCtx :=
  { err := ctx.err
    numLinesAdded := ctx.numLinesAdded
    allocatedBuf := ctx.allocatedBuf
    buf := ctx.buf.map ofBuffer
    bufsize := ctx.bufsize }

section Strings

variable {ctx : Context} {lines : List Str} {input : OutputLine}

theorem Context.Appended.text {ctx' : Context} {bufsize : Nat} {text : Str}
    (appended : ctx.Appended ctx' bufsize text) :
    ctx'.text = { ctx.text with
      buf := some text
      numLinesAdded := (ctx.numLinesAdded + 1) % uintValues
      bufsize := bufsize } := by
  obtain ⟨buf, -, stands, rfl⟩ := appended
  rw [Context.text, Option.map_some, stands.ofBuffer]
  rfl

theorem Context.Ready.text_buf (ready : ctx.Ready lines) : ctx.text.buf.getD [] = joined lines := by
  obtain ⟨noBuf, -, -, rfl⟩ | ⟨buf, holds, -, stands⟩ := ready.buf
  · rw [Context.text, noBuf]
    rfl
  · rw [Context.text, holds]
    exact stands.ofBuffer

theorem Context.Ready.text_append (ready : ctx.Ready lines) (line : Str) (bufsize : Nat)
    (less : ctx.numLinesAdded + 1 < uintValues) :
    ({ ctx.text with bufsize := bufsize }).append line = { ctx.text with
      buf := some (joined (lines ++ [line]))
      numLinesAdded := (ctx.numLinesAdded + 1) % uintValues
      bufsize := bufsize } := by
  rw [ProcessCmdOutputCtx.append, ready.text_buf, Nat.mod_eq_of_lt less]
  change ({ ctx.text with
    buf := some (joined lines ++ (if ctx.numLinesAdded > 0 then ['\n'] else []) ++ line)
    numLinesAdded := ctx.numLinesAdded + 1
    bufsize := bufsize } : ProcessCmdOutputCtx) = _
  by_cases empty : lines = []
  · rw [if_neg (mt ready.nlCharNeeded.mp (not_not.mpr empty)), empty, List.nil_append,
      joined_singleton]
    rfl
  · rw [if_pos (ready.nlCharNeeded.mpr empty), joined_concat empty]

/-- Before the first line the string is empty already. -/
theorem Context.Ready.text_reset (ready : ctx.Ready lines) :
    (if ctx.text.numLinesAdded = 0 ∧ ctx.text.buf.isSome then { ctx.text with buf := some [] }
      else ctx.text) = ctx.text := by
  obtain ⟨noBuf, -⟩ | ⟨buf, holds, -, stands⟩ := ready.buf
  · rw [if_neg (by simp [Context.text, noBuf])]
  · split
    · next zero =>
        have empty : lines = [] := by
          by_contra nonempty
          exact absurd zero.1 (ready.nlCharNeeded.mpr nonempty).ne'
        rw [empty] at stands
        rw [Context.text, holds, Option.map_some, stands.ofBuffer]
        rfl
    · rfl

theorem Context.Ready.text_length (ready : ctx.Ready lines) (line : Str) :
    (ctx.text.buf.getD []).length + line.length + (if ctx.text.numLinesAdded > 0 then 1 else 0) =
      (joined (lines ++ [line])).length := by
  rw [ready.text_buf, length_joined_concat]
  congr 1
  change (if 0 < ctx.numLinesAdded then 1 else 0) = _
  by_cases empty : lines = []
  · rw [if_neg (mt ready.nlCharNeeded.mp (not_not.mpr empty)), empty]
    rfl
  · rw [if_pos (ready.nlCharNeeded.mpr empty), decide_eq_true empty]
    rfl

/-- Behind the beginning of `process_line`, which may make the string empty. -/
theorem Context.Ready.refines (ready : ctx.Ready lines) (err : ctx.err = none) (sys : System)
    (free : NulFree input.line)
    (answer : input.realloc.isSome = sys.malloc (grownSize ctx.bufsize input.line.length))
    (less : ctx.numLinesAdded + 1 < uintValues) :
    ∃ ctx', ctx.advance input = some ctx' ∧
      ctx'.text = Cinit.processLine sys ctx.text .stdout input.line := by
  have ok : ctx.text.err = none := err
  rw [Cinit.processLine, if_neg (not_not.mpr rfl), if_neg (not_not.mpr ok)]
  dsimp only
  rw [ready.text_reset, ready.text_length]
  change ∃ ctx', ctx.advance input = some ctx' ∧ ctx'.text =
    if (joined (lines ++ [input.line])).length ≥ ctx.bufsize then
      if ctx.allocatedBuf = true then
        if grownSize ctx.bufsize input.line.length > maxMemoryForCmdOutput then
          { ctx.text with
            bufsize := grownSize ctx.bufsize input.line.length
            err := some .e2big }
        else if sys.malloc (grownSize ctx.bufsize input.line.length) = true then
          ({ ctx.text with bufsize := grownSize ctx.bufsize input.line.length }).append input.line
        else
          { ctx.text with
            bufsize := grownSize ctx.bufsize input.line.length
            err := some .enomem }
      else { ctx.text with err := some .enobufs }
    else ({ ctx.text with bufsize := ctx.bufsize }).append input.line
  rcases Nat.lt_or_ge (joined (lines ++ [input.line])).length ctx.bufsize with room | noRoom
  · obtain ⟨ctx', advanced, appended⟩ := ready.advance_fits free room
    refine ⟨ctx', advanced, ?_⟩
    rw [if_neg (Nat.not_le.mpr room), appended.text, ready.text_append _ _ less]
  · rw [if_pos noRoom]
    rcases Bool.eq_false_or_eq_true ctx.allocatedBuf with allocated | fixed
    · rw [if_pos allocated]
      by_cases inside : maxMemoryForCmdOutput < grownSize ctx.bufsize input.line.length
      · refine ⟨_, ready.advance_fails allocated noRoom (.inl inside), ?_⟩
        rw [if_pos inside, if_pos inside]
        rfl
      · cases granted : input.realloc with
        | none =>
            refine ⟨_, ready.advance_fails allocated noRoom (.inr granted), ?_⟩
            rw [granted, Option.isSome_none] at answer
            rw [if_neg inside, if_neg inside, ← answer]
            rfl
        | some fresh =>
            obtain ⟨ctx', advanced, appended⟩ :=
              ready.advance_grows free allocated noRoom (Nat.le_of_not_lt inside) granted
            refine ⟨ctx', advanced, ?_⟩
            rw [granted, Option.isSome_some] at answer
            rw [if_neg inside, if_pos answer.symm, appended.text, ready.text_append _ _ less]
    · rw [if_neg (by simp [fixed])]
      exact ⟨_, ready.advance_enobufs fixed noRoom, rfl⟩

/-- The first line of the standard output leaves the empty string in the buffer. -/
theorem Context.reset_text {ctx' : Context} (reset : ctx.reset = some ctx') :
    ctx'.text = if ctx.text.numLinesAdded = 0 ∧ ctx.text.buf.isSome then
      { ctx.text with buf := some [] } else ctx.text := by
  rw [Context.reset] at reset
  split at reset
  · next buf holds =>
      split at reset
      · next zero =>
          obtain ⟨buf', stored, rfl⟩ := Option.map_eq_some_iff.mp reset
          have room : 0 < buf.length := by
            rw [Cells.store] at stored
            split at stored
            · next inside => exact inside
            · cases stored
          obtain ⟨buf'', stored', -, empty⟩ := stands_store room
          cases stored.symm.trans stored'
          rw [if_pos ⟨zero, by simp [Context.text, holds]⟩, Context.text, Option.map_some,
            empty.ofBuffer]
          rfl
      · next counted =>
          cases reset
          rw [if_neg fun both => counted both.1]
  · next noBuf =>
      cases reset
      rw [if_neg (by simp [Context.text, noBuf])]

/-- What `process_line` does with the buffer is what it does with the string in it, as long as the
number of lines does not go round. -/
theorem Context.Sound.refines (h : ctx.Sound lines) (sys : System) (free : NulFree input.line)
    (answer : input.realloc.isSome = sys.malloc (grownSize ctx.bufsize input.line.length))
    (less : lines.length + 1 < uintValues) :
    ∃ ctx', processLine ctx input = some ctx' ∧
      ctx'.text = Cinit.processLine sys ctx.text input.src input.line := by
  by_cases stdout : input.src = .stdout
  · obtain ⟨buf, reset, ready, run⟩ := h.takes stdout
    have count : ctx.numLinesAdded + 1 < uintValues := by
      rw [h.count, Nat.mod_eq_of_lt (by omega)]
      exact less
    obtain ⟨ctx', advanced, text⟩ := ready.refines h.err sys free answer count
    refine ⟨ctx', run.trans advanced, ?_⟩
    -- Making the string empty twice is making it empty.
    have ok : ctx.text.err = none := h.err
    rw [text, reset_text reset, stdout]
    split
    · next first => simp [Cinit.processLine, first, ok]
    · rfl
  · have same : processLine ctx input = some ctx := by rw [processLine, if_pos stdout]
    exact ⟨ctx, same, by rw [Cinit.processLine, if_pos stdout]⟩

end Strings

/-! ## The whole output -/

section Output

variable {caller : Option Str} {seen inputs : List OutputLine} {ctx : Context}

theorem stdoutLines_append (seen later : List OutputLine) :
    stdoutLines (seen ++ later) = stdoutLines seen ++ stdoutLines later := by
  rw [stdoutLines, List.filter_append, List.map_append, stdoutLines, stdoutLines]

theorem Context.start_sound (nonempty : ∀ buf, caller = some buf → 1 ≤ buf.length) :
    (Context.start caller).Sound [] := by
  cases caller with
  | none =>
      exact
        { err := rfl
          count := rfl
          few := Nat.zero_le _
          limit := fun _ => Nat.zero_le _
          buf := .inl ⟨rfl, rfl, rfl, rfl⟩ }
  | some buf =>
      exact
        { err := rfl
          count := rfl
          few := Nat.zero_le _
          limit := nofun
          buf := .inr ⟨buf, rfl, rfl, nonempty buf rfl, fun wrong => absurd rfl wrong⟩ }

theorem Context.Sound.accurate (h : ctx.Sound (stdoutLines seen))
    (fits : ¬ Fails (Context.start caller) [] seen) : Accurate caller seen ctx where
  bounded lines buf holds := by
    obtain ⟨noBuf, -⟩ | ⟨buf', holds', size, -, stands⟩ := h.buf
    · cases noBuf.symm.trans holds
    · cases holds'.symm.trans holds
      exact ⟨_, (stands lines).strlen, size ▸ (stands lines).length_lt⟩
  content _ lines := by
    obtain ⟨-, -, -, empty⟩ | ⟨buf, holds, -, -, stands⟩ := h.buf
    · exact absurd empty lines
    · exact ⟨buf, holds, stands lines⟩
  tooSmall buf own := by
    cases own
    have room : ¬ buf.length ≤ (joined (stdoutLines seen)).length := fits
    exact iff_of_false (fun failed => failed h.err) (by omega)
  tooMuch none := by
    cases none
    exact iff_of_false (fun failed => failed h.err) fits
  frozen failed := absurd h.err failed

theorem Context.Failed.accurate (h : ctx.Failed) (fails : Fails (Context.start caller) [] seen)
    (nonempty : ∀ buf, caller = some buf → 1 ≤ buf.length) : Accurate caller seen ctx where
  bounded _ buf holds := by
    obtain ⟨text, stands, inside⟩ := h.buf buf holds
    exact ⟨text.length, stands.strlen, inside⟩
  content ok := absurd ok h.err
  tooSmall buf own := by
    have room := nonempty buf own
    cases own
    have noRoom : buf.length ≤ (joined (stdoutLines seen)).length := fails
    exact iff_of_true h.err (by omega)
  tooMuch none := by
    cases none
    exact iff_of_true h.err fails
  frozen failed later := ⟨ctx, processLines_of_err failed later, rfl, rfl⟩

/-- As long as the number of lines does not go round, everything is as it should be. -/
theorem accumulates_of_not_goesRound (nonempty : ∀ buf, caller = some buf → 1 ≤ buf.length)
    (free : ∀ input ∈ inputs, NulFree input.line)
    (once : ∀ buf, caller = some buf → ¬ GoesRound buf.length (stdoutLines inputs)) :
    Accumulates caller inputs := by
  rintro seen ⟨later, rfl⟩
  have start := Context.start_sound nonempty
  have spared : (Context.start caller).allocatedBuf = false →
      ¬ GoesRound (Context.start caller).bufsize ([] ++ stdoutLines seen) := by
    cases caller with
    | none => nofun
    | some buf =>
        rintro - ⟨first, line, rest, split, round⟩
        refine once buf rfl ⟨first, line, rest ++ stdoutLines later, ?_, round⟩
        rw [stdoutLines_append, ← List.nil_append (stdoutLines seen), split, List.append_assoc,
          List.cons_append]
  obtain ⟨ctx, run, result⟩ :=
    start.run (fun input member => free input (List.mem_append_left _ member)) spared
  refine ⟨ctx, run, ?_⟩
  obtain ⟨sound, fits⟩ | ⟨failed, fails⟩ := result
  · exact sound.accurate fits
  · exact failed.accurate fails nonempty

/-- A line of the standard output, and the lines in front of it. -/
theorem exists_split {first : List Str} {line : Str} {rest : List Str}
    (split : stdoutLines inputs = first ++ line :: rest) :
    ∃ seen input later, inputs = seen ++ input :: later ∧ input.src = .stdout ∧
      input.line = line ∧ stdoutLines seen = first := by
  rw [stdoutLines, List.map_eq_append_iff] at split
  obtain ⟨front, back, filtered, before, behind⟩ := split
  obtain ⟨input, more, rfl, own, -⟩ := List.map_eq_cons_iff.mp behind
  obtain ⟨seen, later, rfl, inFront, inBack⟩ := List.filter_eq_append_iff.mp filtered
  obtain ⟨between, later', rfl, none, stdout, -⟩ := List.filter_eq_cons_iff.mp inBack
  refine ⟨seen ++ between, input, later', by rw [List.append_assoc], by simpa using stdout, own, ?_⟩
  have empty : stdoutLines between = [] := by
    rw [stdoutLines, List.filter_eq_nil_iff.mpr none, List.map_nil]
  rw [stdoutLines_append, empty, List.append_nil, stdoutLines, inFront, before]

/-- As many lines as are counted fill a buffer of the caller without a failure, if they fit. -/
theorem processLines_uintValues {buf : Str} (nonempty : 1 ≤ buf.length)
    (free : ∀ input ∈ seen, NulFree input.line) (count : (stdoutLines seen).length = uintValues)
    (room : (joined (stdoutLines seen)).length < buf.length) :
    ∃ ctx, processLines (Context.start (some buf)) seen = some ctx ∧
      ctx.Sound (stdoutLines seen) ∧ ctx.bufsize = buf.length := by
  have start : (Context.start (some buf)).Sound [] :=
    Context.start_sound fun buf' own => Option.some.inj own ▸ nonempty
  -- There is no line behind them.
  have once : ¬ GoesRound buf.length ([] ++ stdoutLines seen) := by
    rintro ⟨first, line, rest, split, count', -⟩
    have lengths := congrArg List.length split
    rw [List.nil_append, List.length_append, List.length_cons, count, count'] at lengths
    omega
  obtain ⟨ctx, run, result⟩ := start.run free fun _ => once
  obtain ⟨sound, -⟩ | ⟨-, fails⟩ := result
  · exact ⟨ctx, run, sound, (processLines_fixed rfl run).2⟩
  · exact absurd fails (Nat.not_le.mpr room)

/-- When the number goes round, nothing but the line is left in the buffer. -/
theorem not_accumulates_of_goesRound {buf : Str} (nonempty : 1 ≤ buf.length)
    (free : ∀ input ∈ inputs, NulFree input.line)
    (round : GoesRound buf.length (stdoutLines inputs)) : ¬ Accumulates (some buf) inputs := by
  obtain ⟨first, line, rest, split, count, room, short⟩ := round
  obtain ⟨seen, input, later, rfl, stdout, rfl, rfl⟩ := exists_split split
  intro accumulates
  have own : NulFree input.line := free input (List.mem_append_right _ List.mem_cons_self)
  obtain ⟨ctx, run, sound, size⟩ := processLines_uintValues nonempty
    (fun other member => free other (List.mem_append_left _ member)) count room
  obtain ⟨ctx', buf₁, step, ok, holds, stands⟩ :=
    sound.restarts count stdout own (size ▸ short)
  have run' : processLines (Context.start (some buf)) (seen ++ [input]) = some ctx' := by
    rw [processLines_append, run]
    exact (processLines_singleton ctx input).trans step
  -- All lines should be in the buffer, but only the last one is.
  obtain ⟨ctx₂, run₂, accurate⟩ := accumulates (seen ++ [input]) ⟨later, by simp⟩
  cases run'.symm.trans run₂
  have lines : stdoutLines (seen ++ [input]) = stdoutLines seen ++ [input.line] := by
    rw [stdoutLines_append, stdoutLines_cons stdout]
    rfl
  obtain ⟨buf₂, holds₂, stands₂⟩ := accurate.content ok (by simp [lines])
  cases holds.symm.trans holds₂
  have text := congrArg List.length (stands.unique stands₂)
  rw [lines, length_joined_concat] at text
  have several : stdoutLines seen ≠ [] := by
    intro empty
    rw [empty] at count
    exact absurd count (Nat.two_pow_pos 32).ne
  rw [decide_eq_true several, Bool.toNat_true] at text
  omega

/-- The lines of the standard output are accumulated as they should be unless the number of lines in
a buffer of the caller goes round, which it does in no buffer of less than 4 GiB. -/
theorem accumulates_iff (caller : Option Str)
    (nonempty : ∀ buf, caller = some buf → 1 ≤ buf.length) (inputs : List OutputLine)
    (free : ∀ input ∈ inputs, NulFree input.line) :
    (Accumulates caller inputs ↔
      ∀ buf, caller = some buf → ¬ GoesRound buf.length (stdoutLines inputs)) ∧
    ((∀ buf, caller = some buf → buf.length < uintValues) → Accumulates caller inputs) := by
  refine ⟨⟨?_, accumulates_of_not_goesRound nonempty free⟩, fun less =>
    accumulates_of_not_goesRound nonempty free fun buf own =>
      not_goesRound_of_lt (less buf own) (stdoutLines inputs)⟩
  rintro accumulates buf rfl round
  exact not_accumulates_of_goesRound (nonempty buf rfl) free round accumulates

end Output

/-- A line of the standard output is in the buffer, one of the standard error is not. -/
theorem accumulates_iff_twoLines :
    Accumulates (some "????????".toList)
      [{ src := .stdout, line := "ab".toList, realloc := none },
        { src := .stderr, line := "no".toList, realloc := none },
        { src := .stdout, line := "cd".toList, realloc := none }] := by
  refine (accumulates_iff _ ?_ _ ?_).2 ?_
  · rintro buf ⟨⟩
    decide
  · decide
  · rintro buf ⟨⟩
    decide

theorem length_joined_replicate {k : Nat} (pos : 0 < k) :
    (joined (List.replicate k ['x'])).length + 1 = 2 * k := by
  induction k with
  | zero => cases pos
  | succ k ih =>
      rw [List.replicate_succ', length_joined_concat]
      rcases Nat.eq_zero_or_pos k with rfl | more
      · rfl
      · have before := ih more
        have several : List.replicate k ['x'] ≠ [] := by
          rw [ne_eq, List.replicate_eq_nil_iff]
          omega
        rw [decide_eq_true several, List.length_singleton, Bool.toNat_true]
        omega

/-- As many lines as an `unsigned int` has values, and one more, in a buffer of 8 GiB: what is left
in it is the last line. -/
theorem not_accumulates_round :
    ¬ Accumulates (some (List.replicate (2 * uintValues) 'x'))
      (List.replicate (uintValues + 1) { src := .stdout, line := ['x'], realloc := none }) := by
  have pos : 0 < uintValues := Nat.two_pow_pos 32
  have length : (List.replicate (2 * uintValues) 'x').length = 2 * uintValues :=
    List.length_replicate
  have lines :
      stdoutLines (List.replicate (uintValues + 1)
        { src := .stdout, line := ['x'], realloc := none }) =
        List.replicate (uintValues + 1) ['x'] := by
    rw [stdoutLines, List.filter_replicate_of_pos (by rfl), List.map_replicate]
  refine not_accumulates_of_goesRound (by rw [length]; omega) ?_ ?_
  · intro input member
    rw [List.eq_of_mem_replicate member]
    decide
  · rw [length, lines]
    refine ⟨List.replicate uintValues ['x'], ['x'], [], List.replicate_succ', List.length_replicate,
      ?_, ?_⟩
    · have text := length_joined_replicate pos
      omega
    · rw [List.length_singleton]
      omega

end Baseimage.Cinit.CommandOutput
