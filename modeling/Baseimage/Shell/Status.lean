import Baseimage.Text.CString

/-!
# The status of shell commands

A command changes the state of a script and has a status, or it ends the script. The status of a
compound command follows from the commands that were executed in it: `if` has that of its body, and
0 when no condition is true; `case` has that of the list that was executed, and 0 when there was
none. A script that comes to its end exits with the status of its last command, and a trap for its
exit does not change that.
-/

namespace Shell

/-- How a command ends: the script goes on, or it ends as well. -/
inductive Ends where
  | status (n : Nat)
  | exit (n : Nat)
  deriving DecidableEq, Repr

abbrev Command (σ : Type) := σ → Ends × σ

namespace Command

variable {σ : Type}

/-- A program that is run. -/
def program (status : Nat) (effect : σ → σ) : Command σ := fun s => (.status status, effect s)

/-- An empty list of commands. -/
def nothing : Command σ := program 0 id

def exit (n : Nat) : Command σ := fun s => (.exit n, s)

/-- A list of two commands, the second of which sees `$?`. -/
def andThen (first : Command σ) (second : Nat → Command σ) : Command σ := fun s =>
  match first s with
  | (.status n, t) => second n t
  | (.exit n, t) => (.exit n, t)

/-- `if TEST; then BODY; fi` -/
def ifThen (test body : Command σ) : Command σ :=
  test.andThen fun n => if n = 0 then body else nothing

/-- `case WORD in PATTERN) LIST ;; ... esac` -/
def caseOf (word : Nat) : List ((Nat → Bool) × Command σ) → Command σ
  | [] => nothing
  | (pattern, list) :: arms => if pattern word then list else caseOf word arms

/-- The exit status of a script, and the state behind its trap for the exit. -/
def script (c : Command σ) (trap : σ → σ) (s : σ) : Nat × σ :=
  match c s with
  | (.status n, t) => (n, trap t)
  | (.exit n, t) => (n, trap t)

@[simp] theorem program_andThen (n : Nat) (effect : σ → σ) (second : Nat → Command σ) (s : σ) :
    (program n effect).andThen second s = second n (effect s) := rfl

@[simp] theorem nothing_apply (s : σ) : (nothing : Command σ) s = (.status 0, s) := rfl

/-- An `if` whose condition is not true succeeds. -/
theorem ifThen_false {n : Nat} (h : n ≠ 0) (effect : σ → σ) (body : Command σ) (s : σ) :
    ifThen (program n effect) body s = (.status 0, effect s) := by
  rw [ifThen, program_andThen, if_neg h]
  rfl

end Command

end Shell
