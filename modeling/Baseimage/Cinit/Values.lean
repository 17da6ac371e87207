import Baseimage.Cinit.Utils
import Baseimage.Run.Outcome

/-!
# Loading values from the files of a service directory

A value is the content of a file, or what a program prints when the file is executable by its
owner. `load_value_as_string` gets the text, and every typed loader cuts it at the first end of
line, trims it and converts it.

A buffer on the stack holds whatever was there before it is filled. When a program prints nothing
on its standard output the loaders convert these contents, so they are a parameter here.
-/

namespace Baseimage.Cinit

open CString

inductive StdOutput where
  | stdout
  | stderr
  deriving DecidableEq, Repr

/-- What `stat` and the calls after it find under a name. -/
inductive Node where
  /-- Not executable by its owner. -/
  | file (content : Str)
  /-- Executable by its owner: the lines it prints and what running it returns. -/
  | program (output : List (StdOutput × Str)) (code : Int)
  | unopenable (strerror : Str)
  | unreadable (strerror : Str)
  /-- `stat` fails, and not because the file does not exist. -/
  | unreachable (strerror : Str)
  deriving DecidableEq, Repr

inductive Errno where
  | e2big
  | enomem
  | enobufs
  deriving DecidableEq, Repr

/-- What the loaders ask from the system. -/
structure System where
  /-- Whether an allocation of some size succeeds. -/
  malloc : Nat → Bool
  strerror : Errno → Str
  getpwnam : Str → Option Nat
  getgrnam : Str → Option Nat

/-- `sizeof(mMessage)`. -/
def maxMessage : Nat := 256

/-- `ThrowMessage`: the formatted message must fit in the exception. -/
def throwMessage {α : Type} (message : Str) : Outcome Str α :=
  if message.length < maxMessage then .threw message else .aborted

@[simp] theorem throwMessage_ne_ok {α : Type} (message : Str) (a : α) :
    throwMessage message ≠ .ok a := by
  unfold throwMessage
  split <;> simp

/-- A check that throws. -/
theorem check_eq_ok_iff {α : Type} {p : Prop} [Decidable p] {message : Str} {x : Outcome Str α}
    {a : α} : (if p then throwMessage message else x) = .ok a ↔ ¬ p ∧ x = .ok a := by
  split
  · next failed => exact iff_of_false (throwMessage_ne_ok message a) fun h => h.1 failed
  · next passed => exact ⟨fun h => ⟨passed, h⟩, And.right⟩

/-- `could not load '%s': %s`. -/
def couldNotLoad (filepath message : Str) : Str :=
  "could not load '".toList ++ filepath ++ "': ".toList ++ message

/-- A decimal number as `%d` formats it. -/
def decimal : Int → Str
  | .ofNat n => Nat.toDigits 10 n
  | .negSucc n => '-' :: Nat.toDigits 10 (n + 1)

def maxFileReadSize : Nat := 1048576

def maxMemoryForCmdOutput : Nat := 1048576

/-- `process_cmd_output_ctx_t`. -/
structure ProcessCmdOutputCtx where
  err : Option Errno := none
  numLinesAdded : Nat := 0
  allocatedBuf : Bool
  buf : Option Str
  bufsize : Nat
  deriving DecidableEq, Repr

/-- The end of `process_line`: the line is appended, after a line feed if it is not the first. -/
def ProcessCmdOutputCtx.append (ctx : ProcessCmdOutputCtx) (line : Str) : ProcessCmdOutputCtx :=
  { ctx with
    buf := some (ctx.buf.getD [] ++ (if ctx.numLinesAdded > 0 then ['\n'] else []) ++ line)
    numLinesAdded := ctx.numLinesAdded + 1 }

/-- `process_line`: one line of the command's output. -/
def processLine (sys : System) (ctx : ProcessCmdOutputCtx) (src : StdOutput) (line : Str) :
    ProcessCmdOutputCtx :=
  if src ≠ .stdout then ctx
  else if ctx.err ≠ none then ctx
  else
    let ctx := if ctx.numLinesAdded = 0 ∧ ctx.buf.isSome then { ctx with buf := some [] } else ctx
    let bufLen := (ctx.buf.getD []).length
    let nlCharNeeded := if ctx.numLinesAdded > 0 then 1 else 0
    if bufLen + line.length + nlCharNeeded ≥ ctx.bufsize then
      if ctx.allocatedBuf then
        let bufsize := max (ctx.bufsize + 1024) (ctx.bufsize + line.length + 1)
        if bufsize > maxMemoryForCmdOutput then
          { ctx with bufsize := bufsize, err := some .e2big }
        else if sys.malloc bufsize then { ctx with bufsize := bufsize }.append line
        else { ctx with bufsize := bufsize, err := some .enomem }
      else { ctx with err := some .enobufs }
    else ctx.append line

/-- `read_file`. A missing buffer is allocated, to the size of the file. -/
def readFile (sys : System) (node : Node) (buf : Option Str) (bufsize : Nat) : Outcome Str Str :=
  match node with
  | .file content =>
      match buf with
      | none =>
          if content.length + 1 > maxFileReadSize then throwMessage "file too big".toList
          else if sys.malloc (content.length + 1) then .ok (ofBuffer content)
          else throwMessage "memory allocation failed".toList
      | some _ =>
          if content.length > bufsize - 1 then throwMessage "buffer too small".toList
          else .ok (ofBuffer content)
  | .unopenable strerror => throwMessage ("could not open file".toList ++ strerror)
  | .unreadable strerror => throwMessage ("read failed".toList ++ strerror)
  -- Executables are run and never read.
  | .program _ _ => throwMessage "read failed".toList
  | .unreachable strerror => throwMessage ("could not open file".toList ++ strerror)

/-- `load_value_as_string`: whether the value is set, and the buffer afterwards. -/
def loadValueAsString (sys : System) (filepath : Str) (node : Option Node) (buf : Option Str)
    (bufsize : Nat) : Outcome Str (Bool × Option Str) :=
  match node with
  | none => .ok (false, buf)
  | some (.unreachable strerror) =>
      throwMessage (couldNotLoad filepath ("error getting file info: ".toList ++ strerror))
  | some (.program output code) =>
      let start : ProcessCmdOutputCtx :=
        { allocatedBuf := buf.isNone, buf := buf, bufsize := if buf.isNone then 0 else bufsize }
      let ctx := output.foldl (fun ctx line => processLine sys ctx line.1 line.2) start
      if code ≠ 0 then
        throwMessage (couldNotLoad filepath
          ("command failed (".toList ++ decimal code ++ ")".toList))
      else
        match ctx.err with
        | some err =>
            throwMessage (couldNotLoad filepath
              ("command output handling failed: ".toList ++ sys.strerror err))
        | none => .ok (true, ctx.buf)
  | some node =>
      ((readFile sys node buf bufsize) >>= fun text => .ok (true, some text)).handle
        (fun message => throwMessage (couldNotLoad filepath message))

/-- The typed loaders. `stack` is what the buffer holds before it is filled; a value that is not
set leaves the caller's variable as it is. -/
def loadValueAs {α : Type} (bufsize : Nat) (convert : Str → Outcome Str α) (sys : System)
    (filepath : Str) (node : Option Node) (stack : Str) : Outcome Str (Option α) :=
  loadValueAsString sys filepath node (some stack) bufsize >>= fun loaded =>
    if loaded.1 = false then .ok none
    else
      (convert (trim (terminateAtFirstEol (loaded.2.getD []))) >>= fun value =>
          .ok (some value)).handle
        (fun message => throwMessage (couldNotLoad filepath message))

/-- `string_to_bool`. -/
def stringToBool (str : Str) : Outcome Str Bool :=
  if str = "1".toList || strcaseeq str "true".toList || strcaseeq str "on".toList ||
      strcaseeq str "yes".toList || strcaseeq str "y".toList || strcaseeq str "enable".toList ||
      strcaseeq str "enabled".toList then
    .ok true
  else if str = "0".toList || strcaseeq str "false".toList || strcaseeq str "off".toList ||
      strcaseeq str "no".toList || strcaseeq str "n".toList || strcaseeq str "disable".toList ||
      strcaseeq str "disabled".toList then
    .ok false
  else throwMessage "not a boolean value".toList

/-- `string_to_int`. -/
def stringToInt (str : Str) : Outcome Str Int :=
  match strtol 10 str with
  | none => throwMessage "not a number".toList
  | some number =>
      if number.rest ≠ [] then throwMessage "not a number".toList
      else if (number.value = longMin ∨ number.value = longMax) ∧ number.erange = true then
        throwMessage "out of range".toList
      else if number.value > 2 ^ 31 - 1 ∨ number.value < -2 ^ 31 then
        throwMessage "out of range".toList
      else .ok number.value

/-- `string_to_uint`. -/
def stringToUint (str : Str) : Outcome Str Nat :=
  match strtoul 10 str with
  | none => throwMessage "not a number".toList
  | some number =>
      if number.rest ≠ [] then throwMessage "not a number".toList
      else if number.value = ulongMax ∧ number.erange = true then
        throwMessage "out of range".toList
      else if number.value > 2 ^ 32 - 1 then throwMessage "out of range".toList
      else .ok number.value

/-- `string_to_interval`. -/
def stringToInterval (str : Str) : Outcome Str Nat :=
  if strcaseeq str "yearly".toList then .ok (60 * 60 * 24 * 365)
  else if strcaseeq str "monthly".toList then .ok (60 * 60 * 24 * 30)
  else if strcaseeq str "weekly".toList then .ok (60 * 60 * 24 * 7)
  else if strcaseeq str "daily".toList then .ok (60 * 60 * 24)
  else if strcaseeq str "hourly".toList then .ok (60 * 60)
  else stringToUint str

/-- `string_to_uid`. -/
def stringToUid (sys : System) (str : Str) : Outcome Str Nat :=
  if digitsOnly str then stringToUint str
  else
    match sys.getpwnam str with
    | none => throwMessage ("unknown user '".toList ++ str ++ "'".toList)
    | some uid => .ok uid

/-- `string_to_gid`. -/
def stringToGid (sys : System) (str : Str) : Outcome Str Nat :=
  if digitsOnly str then stringToUint str
  else
    match sys.getgrnam str with
    | none => throwMessage ("unknown group '".toList ++ str ++ "'".toList)
    | some gid => .ok gid

/-- `string_to_mode`. -/
def stringToMode (str : Str) : Outcome Str Nat :=
  match strtoul 8 str with
  | none => throwMessage "not a number".toList
  | some number =>
      if number.rest ≠ [] then throwMessage "not a number".toList
      else if number.value = ulongMax ∧ number.erange = true then
        throwMessage "out of range".toList
      else if number.value > 2 ^ 32 - 1 then throwMessage "out of range".toList
      else if number.value > 511 then throwMessage "out of range".toList
      else .ok number.value

/-- `load_value_as_bool`. An empty text means that the file has been "touched". -/
def loadValueAsBool : System → Str → Option Node → Str → Outcome Str (Option Bool) :=
  loadValueAs 32 (fun text => if text.length = 0 then .ok true else stringToBool text)

/-- `load_value_as_int`. -/
def loadValueAsInt : System → Str → Option Node → Str → Outcome Str (Option Int) :=
  loadValueAs 128 stringToInt

/-- `load_value_as_uint`. -/
def loadValueAsUint : System → Str → Option Node → Str → Outcome Str (Option Nat) :=
  loadValueAs 128 stringToUint

/-- `load_value_as_interval`. -/
def loadValueAsInterval : System → Str → Option Node → Str → Outcome Str (Option Nat) :=
  loadValueAs 128 stringToInterval

/-- `load_value_as_uid`. -/
def loadValueAsUid (sys : System) : Str → Option Node → Str → Outcome Str (Option Nat) :=
  loadValueAs 256 (stringToUid sys) sys

/-- `load_value_as_gid`. -/
def loadValueAsGid (sys : System) : Str → Option Node → Str → Outcome Str (Option Nat) :=
  loadValueAs 256 (stringToGid sys) sys

/-- `load_value_as_mode`. -/
def loadValueAsMode : System → Str → Option Node → Str → Outcome Str (Option Nat) :=
  loadValueAs 256 stringToMode

/-- A program that prints nothing on its standard output leaves the buffer as it was. -/
def Node.silent : Node → Bool
  | .program output _ => output.all (fun line => line.1 == .stderr)
  | _ => false

/-- The boolean value of a file, as `load_value_as_bool` defines it. A program that prints nothing
has none. -/
def boolValue (sys : System) (filepath : Str) (node : Option Node) : Option Bool :=
  if (node.map Node.silent).getD false then none
  else
    match loadValueAsBool sys filepath node [] with
    | .ok value => value
    | _ => none

/-- Lines of the standard error change nothing. -/
theorem foldl_processLine_silent (sys : System) {output : List (StdOutput × Str)}
    (h : output.all (fun line => line.1 == .stderr) = true) (ctx : ProcessCmdOutputCtx) :
    output.foldl (fun ctx line => processLine sys ctx line.1 line.2) ctx = ctx := by
  induction output with
  | nil => rfl
  | cons line output ih =>
      obtain ⟨here, rest⟩ := Bool.and_eq_true_iff.mp (List.all_cons ▸ h)
      have silent : processLine sys ctx line.1 line.2 = ctx := by
        simp [processLine, (by simpa using here : line.1 = .stderr)]
      rw [List.foldl_cons, silent]
      exact ih rest

/-- The first line of the standard output empties the buffer. -/
theorem foldl_processLine_stack (sys : System) {output : List (StdOutput × Str)}
    (h : output.all (fun line => line.1 == .stderr) = false) (bufsize : Nat) (stack stack' : Str) :
    output.foldl (fun ctx line => processLine sys ctx line.1 line.2)
        { allocatedBuf := false, buf := some stack, bufsize := bufsize } =
      output.foldl (fun ctx line => processLine sys ctx line.1 line.2)
        { allocatedBuf := false, buf := some stack', bufsize := bufsize } := by
  induction output with
  | nil => simp at h
  | cons line output ih =>
      obtain ⟨src, text⟩ := line
      cases src with
      | stdout => rfl
      | stderr => exact ih (by simpa using h)

/-- Only a silent program lets the old contents of the buffer through. -/
theorem loadValueAs_stack {α : Type} {bufsize : Nat} {convert : Str → Outcome Str α}
    {sys : System} {filepath : Str} {node : Option Node}
    (h : (node.map Node.silent).getD false = false) (stack stack' : Str) :
    loadValueAs bufsize convert sys filepath node stack =
      loadValueAs bufsize convert sys filepath node stack' := by
  cases node with
  | none => rfl
  | some node =>
      cases node with
      | program output code =>
          have same := foldl_processLine_stack sys h bufsize stack stack'
          simp only [loadValueAs, loadValueAsString, Option.isNone_some,
            Bool.false_eq_true, if_false,
            same]
      | _ => rfl

/-- What is loaded from a silent program is what the buffer held before. -/
theorem loadValueAs_silent {α : Type} {bufsize : Nat} {convert : Str → Outcome Str α}
    {sys : System} {filepath : Str} {output : List (StdOutput × Str)}
    (h : output.all (fun line => line.1 == .stderr) = true) (stack : Str) :
    loadValueAs bufsize convert sys filepath (some (.program output 0)) stack =
      (convert (trim (terminateAtFirstEol stack)) >>= fun value => .ok (some value)).handle
        (fun message => throwMessage (couldNotLoad filepath message)) := by
  simp only [loadValueAs, loadValueAsString, foldl_processLine_silent sys h]
  rfl

end Baseimage.Cinit
