import Baseimage.Shell.Status

/-!
# sed-patch

The helper runs `sed` on a file, compares its output with the file and puts it in the place of the
file if the two differ. What `sed` and `diff` do is given by their status and the output; the other
programs are taken to succeed. The script does not end when a command fails, and it has nothing
behind its last `if`.
-/

namespace Baseimage.Helpers

open Shell Command

structure File where
  content : Str
  mode : Nat
  /-- The ids of the user and the group. -/
  owner : Nat × Nat
  deriving DecidableEq, Repr

/-- The file, and the temporary file. -/
structure Patching where
  file : File
  tmp : Option File
  deriving DecidableEq, Repr

/-- What an invocation of `sed` does. -/
structure Sed where
  status : Nat
  output : Str
  deriving DecidableEq, Repr

/-- What `chown` leaves of the permissions of a file: it takes the set-user-ID bit, and the
set-group-ID bit of a file that its group may execute. -/
def chownMode (mode : Nat) : Nat :=
  let mode := if mode.testBit 11 then mode - 2 ^ 11 else mode
  if mode.testBit 10 && mode.testBit 3 then mode - 2 ^ 10 else mode

/-- Change the temporary file. -/
def onTmp (change : Patching → File → File) : Command Patching :=
  program 0 fun s => { s with tmp := s.tmp.map (change s) }

/-- `usage` where there are not enough arguments, and the check for the option `-i`. -/
def checkArguments (args : List Str) : Command Patching :=
  if args.length < 2 then exit 1
  else if args.any (fun arg => arg == "-i".toList) then exit 1
  else nothing

/-- `chmod`, `chown` and `mv` -/
def replaceFile : Command Patching :=
  (onTmp fun s tmp => { tmp with mode := s.file.mode }).andThen fun _ =>
  (onTmp fun s tmp => { tmp with owner := s.file.owner, mode := chownMode tmp.mode }).andThen
    fun _ =>
  (program 0 fun s => { file := s.tmp.getD s.file, tmp := none }).andThen fun _ =>
  exit 0

/-- The script from its arguments on, where `diff` has the given status. -/
def sedPatchScript (args : List Str) (sed : Sed) (diff : Nat) : Command Patching :=
  (checkArguments args).andThen fun _ =>
  (program sed.status fun s =>
    { s with tmp := s.tmp.map fun tmp => { tmp with content := sed.output } }).andThen fun rc =>
  ifThen (program rc id) <|
    (program diff id).andThen fun status => caseOf status
      [(fun n => n == 0, exit 1),
       (fun n => n == 1, replaceFile),
       (fun _ => true, nothing)]

/-- `sed-patch`, run by the given user: its exit status, and the file behind it. -/
def sedPatch (user : Nat × Nat) (args : List Str) (sed : Sed) (diff : Nat) (file : File) :
    Nat × File :=
  let cleanup (s : Patching) : Patching := { s with tmp := none }
  let (code, s) := script (sedPatchScript args sed diff) cleanup
    { file := file, tmp := some { content := [], mode := 0o600, owner := user } }
  (code, s.file)

/-- The arguments are those `sed` is run with. -/
def Accepted (args : List Str) : Prop := 2 ≤ args.length ∧ "-i".toList ∉ args

/-- A status that `diff` may have for two texts; from 2 on it could not compare them. -/
def DiffStatus (diff : Nat) (old new : Str) : Prop :=
  (diff = 0 → old = new) ∧ (diff = 1 → old ≠ new)

/-- What the helper is documented to do. -/
structure PatchesOrFails (args : List Str) (sed : Sed) (file : File) (code : Nat) (after : File) :
    Prop where
  succeeds : code = 0 ↔ Accepted args ∧ sed.status = 0 ∧ sed.output ≠ file.content
  patched : code = 0 → after = { file with content := sed.output }
  unchanged : code ≠ 0 → after = file

variable {user : Nat × Nat} {args : List Str} {sed : Sed} {diff : Nat} {file : File}

theorem checkArguments_accepted (h : Accepted args) : checkArguments args = nothing := by
  have long : ¬ args.length < 2 := Nat.not_lt.mpr h.1
  have fine : ¬ args.any (fun arg => arg == "-i".toList) = true := by simpa using h.2
  rw [checkArguments, if_neg long, if_neg fine]

theorem checkArguments_refused (h : ¬ Accepted args) : checkArguments args = exit 1 := by
  unfold checkArguments
  split
  · rfl
  · next long =>
      have named : "-i".toList ∈ args := by
        by_contra absent
        exact h ⟨Nat.not_lt.mp long, absent⟩
      exact if_pos (by simpa using named)

theorem sedPatch_refused (h : ¬ Accepted args) : sedPatch user args sed diff file = (1, file) := by
  rw [sedPatch, sedPatchScript, checkArguments_refused h]
  rfl

/-- Where `sed` fails the script comes to its end. -/
theorem sedPatch_sed_failed (h : Accepted args) (failed : sed.status ≠ 0) :
    sedPatch user args sed diff file = (0, file) := by
  have ended : sedPatchScript args sed diff = (program sed.status fun s =>
      { s with tmp := s.tmp.map fun tmp => { tmp with content := sed.output } }).andThen fun _ =>
        nothing := by
    funext s
    rw [sedPatchScript, checkArguments_accepted h, nothing, program_andThen, program_andThen,
      ifThen_false failed]
    rfl
  rw [sedPatch, ended]
  rfl

theorem sedPatchScript_compared (h : Accepted args) (success : sed.status = 0) (s : Patching) :
    sedPatchScript args sed diff s = caseOf diff
      [(fun n => n == 0, exit 1), (fun n => n == 1, replaceFile), (fun _ => true, nothing)]
      { s with tmp := s.tmp.map fun tmp => { tmp with content := sed.output } } := by
  rw [sedPatchScript, checkArguments_accepted h, nothing, program_andThen, program_andThen, success]
  rfl

theorem sedPatch_same (h : Accepted args) (success : sed.status = 0) :
    sedPatch user args sed 0 file = (1, file) := by
  simp only [sedPatch, script, sedPatchScript_compared h success]
  rfl

theorem sedPatch_differs (h : Accepted args) (success : sed.status = 0) :
    sedPatch user args sed 1 file =
      (0, { content := sed.output, mode := chownMode file.mode, owner := file.owner }) := by
  simp only [sedPatch, script, sedPatchScript_compared h success]
  rfl

/-- Where `diff` fails the script comes to its end. -/
theorem sedPatch_diff_failed (h : Accepted args) (success : sed.status = 0) (failed : 2 ≤ diff) :
    sedPatch user args sed diff file = (0, file) := by
  have notSame : (diff == 0) = false := beq_eq_false_iff_ne.mpr (by omega)
  have notOne : (diff == 1) = false := beq_eq_false_iff_ne.mpr (by omega)
  simp only [sedPatch, script, sedPatchScript_compared h success, caseOf, notSame, notOne,
    Bool.false_eq_true, if_false, if_true, nothing_apply]

/-- The helper does what is documented exactly where it refuses its arguments, or both `sed` and
`diff` succeed and the permissions of a file that is replaced have no bit that `chown` takes. -/
theorem sedPatch_iff (consistent : DiffStatus diff file.content sed.output) :
    PatchesOrFails args sed file (sedPatch user args sed diff file).1
        (sedPatch user args sed diff file).2 ↔
      (Accepted args →
        sed.status = 0 ∧ diff ≤ 1 ∧ (diff = 1 → chownMode file.mode = file.mode)) := by
  by_cases h : Accepted args
  · rw [imp_iff_right h]
    by_cases success : sed.status = 0
    · obtain rfl | rfl | failed : diff = 0 ∨ diff = 1 ∨ 2 ≤ diff := by omega
      · rw [sedPatch_same h success]
        have same := consistent.1 rfl
        refine iff_of_true ⟨?_, nofun, fun _ => rfl⟩ ⟨success, Nat.zero_le 1, nofun⟩
        exact iff_of_false Nat.one_ne_zero fun changed => changed.2.2 same.symm
      · rw [sedPatch_differs h success]
        have differs := consistent.2 rfl
        constructor
        · intro whole
          have patched := whole.patched rfl
          exact ⟨success, Nat.le_refl 1, fun _ => (File.mk.inj patched).2.1⟩
        · rintro ⟨-, -, kept⟩
          refine ⟨iff_of_true rfl ⟨h, success, differs.symm⟩, fun _ => ?_, fun no => absurd rfl no⟩
          rw [kept rfl]
      · rw [sedPatch_diff_failed h success failed]
        refine iff_of_false (fun whole => ?_) fun fine => by omega
        have differs := (whole.succeeds.mp rfl).2.2
        have patched := whole.patched rfl
        exact differs (congrArg File.content patched).symm
    · rw [sedPatch_sed_failed h success]
      refine iff_of_false (fun whole => ?_) fun fine => success fine.1
      exact success (whole.succeeds.mp rfl).2.1
  · rw [sedPatch_refused h]
    refine iff_of_true ⟨?_, nofun, fun _ => rfl⟩ fun accepted => absurd accepted h
    exact iff_of_false Nat.one_ne_zero fun changed => h changed.1

/-- A file of a user. -/
def someFile : File := { content := "old\n".toList, mode := 0o644, owner := (0, 0) }

def someArguments : List Str := ["s/old/new/".toList, "file".toList]

theorem sedPatch_iff_someFile :
    PatchesOrFails someArguments ⟨0, "new\n".toList⟩ someFile
      (sedPatch (0, 0) someArguments ⟨0, "new\n".toList⟩ 1 someFile).1
      (sedPatch (0, 0) someArguments ⟨0, "new\n".toList⟩ 1 someFile).2 := by
  have consistent : DiffStatus 1 someFile.content "new\n".toList := ⟨nofun, fun _ => by decide⟩
  exact (sedPatch_iff consistent).mpr fun _ => ⟨rfl, Nat.le_refl 1, fun _ => rfl⟩

/-- An expression that `sed` does not understand is a success. -/
theorem sed_failure_succeeds :
    ¬ ∀ (user : Nat × Nat) (args : List Str) (sed : Sed) (diff : Nat) (file : File),
      DiffStatus diff file.content sed.output →
        PatchesOrFails args sed file (sedPatch user args sed diff file).1
          (sedPatch user args sed diff file).2 := by
  intro claim
  have consistent : DiffStatus 1 someFile.content [] := ⟨nofun, fun _ => by decide⟩
  have whole := claim (0, 0) ["s/old/new".toList, "file".toList] ⟨1, []⟩ 1 someFile consistent
  exact absurd (whole.succeeds.mp rfl).2.1 Nat.one_ne_zero

end Baseimage.Helpers
