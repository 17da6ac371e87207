import Baseimage.Shell.Variables

/-!
# The start of a container

`/init` starts from the environment of the container, the public variables, and adds the internal
ones that files of `/etc/cont-env.d` define and the Docker secrets. Its loops over these files run
in the shell of the script itself; what runs in a pipeline is a subshell and leaves the variables
alone. The environment at the end is the one the supervisor is executed with. What `load_env_var`
exports it also writes, as a command, to `/tmp/.cont-env-internal`.

The files are not executable ones, and there is no NUL in them. How the shell reads its lists does
not depend on a variable.
-/

namespace Baseimage.Startup

open Shell Variables

/-- A file that defines a variable. -/
structure EnvFile where
  name : Str
  content : Str

/-- The files of a directory in the order `sort` gives. -/
structure EnvDir where
  files : List EnvFile
  nodup : (files.map EnvFile.name).Nodup := by decide

structure Container where
  /-- The environment `/init` is started with. -/
  env : Str → Option Str
  /-- The files in `/etc/cont-env.d`, if it is there. -/
  contEnv : Option EnvDir
  /-- The files `CONT_ENV_*` in `/run/secrets`, under their names behind `CONT_ENV_`. -/
  secrets : Option EnvDir
  /-- The temporary file of a stage. -/
  mktemp : Str → Str
  /-- The other files that `rm` can remove. -/
  removable : Str → Bool
  /-- The initialization scripts all terminate successfully. -/
  contInit : Bool

/-- The variables of the script, and the text of `/tmp/.cont-env-internal`. -/
structure InitShell where
  vars : Variables
  internal : Str

def InitShell.assign (sh : InitShell) (name value : Str) : InitShell :=
  { sh with vars := sh.vars.assign name value }

@[simp] theorem InitShell.assign_vars (sh : InitShell) (name value : Str) :
    (sh.assign name value).vars = sh.vars.assign name value :=
  rfl

@[simp] theorem InitShell.assign_internal (sh : InitShell) (name value : Str) :
    (sh.assign name value).internal = sh.internal :=
  rfl

/-- `head -n1`. -/
def headN1 : Str → Str
  | [] => []
  | c :: s => if c = '\n' then [c] else c :: headN1 s

/-- `$(...)`: the output without the line feeds at its end. -/
def commandSubstitution (output : Str) : Str :=
  output.rdropWhile fun c => c == '\n'

/-- `valid_env_var_name`. -/
def validEnvVarName (name : Str) : Bool :=
  name.all isNameChar && !(name.head?.map fun c => '0' ≤ c && c ≤ '9').getD false

/-- The command that `load_env_var` writes to the file, in its variables. -/
def exportCommand (vars : Variables) : Str :=
  "export ".toList ++ vars.value "var_name".toList ++ "=\"".toList ++
    vars.value "var_val".toList ++ "\"".toList

/-- The variables that `load_env_var` keeps its arguments in. -/
def withArguments (vars : Variables) (name val force : Str) : Variables :=
  ((vars.assign "var_name".toList name).assign "var_val".toList val).assign "force".toList force

/-- `load_env_var`; `none` when the script exits. What `echo` prints for an operand is a
parameter. -/
def loadEnvVar (echo : Str → Str) (name val force : Str) (sh : InitShell) : Option InitShell :=
  let vars := withArguments sh.vars name val force
  -- `${+x}` is no expansion.
  if vars.value "var_name".toList = [] then none
  else
    let isSet := (vars (vars.value "var_name".toList)).isSome
    let vars := vars.assign "var_test".toList (if isSet then "x".toList else [])
    if vars.value "force".toList ≠ [] ∨ vars.value "var_test".toList = [] ∨
        vars.value "var_name".toList = "HOME".toList then
      let vars := vars.exportAs (vars.value "var_name".toList) (vars.value "var_val".toList)
      some { vars := vars, internal := sh.internal ++ echo (exportCommand vars) }
    else some { sh with vars := vars }

section LoadEnvVar

variable {echo : Str → Str} {name val force : Str} {sh sh' : InitShell}

@[simp] theorem withArguments_name (vars : Variables) :
    (withArguments vars name val force).value "var_name".toList = name := by
  rw [withArguments, value_assign_other _ (by decide), value_assign_other _ (by decide),
    value_assign_same]

@[simp] theorem withArguments_val (vars : Variables) :
    (withArguments vars name val force).value "var_val".toList = val := by
  rw [withArguments, value_assign_other _ (by decide), value_assign_same]

@[simp] theorem withArguments_force (vars : Variables) :
    (withArguments vars name val force).value "force".toList = force :=
  value_assign_same ..

/-- When `load_env_var` exports its variable. -/
def Exports (vars : Variables) (name val force : Str) : Prop :=
  force ≠ [] ∨ withArguments vars name val force name = none ∨ name = "HOME".toList

/-- The variables when `load_env_var` has seen whether its variable is set. -/
def tested (vars : Variables) (name val force : Str) : Variables :=
  (withArguments vars name val force).assign "var_test".toList
    (if (withArguments vars name val force name).isSome then "x".toList else [])

/-- What `load_env_var` does: it exports the variable and writes the command, or does neither. -/
theorem loadEnvVar_cases (h : loadEnvVar echo name val force sh = some sh') :
    (Exports sh.vars name val force ∧
      sh'.vars = (tested sh.vars name val force).exportAs name val ∧
      sh'.internal = sh.internal ++ echo (exportCommand sh'.vars)) ∨
    (¬ Exports sh.vars name val force ∧ sh'.vars = tested sh.vars name val force ∧
      sh'.internal = sh.internal) := by
  have keep : ∀ {n : Str} (test : Str), n ≠ "var_test".toList →
      ((withArguments sh.vars name val force).assign "var_test".toList test).value n =
        (withArguments sh.vars name val force).value n :=
    fun test hn => value_assign_other _ hn test
  simp only [loadEnvVar, withArguments_name, keep _ (by decide : "force".toList ≠ _),
    keep _ (by decide : "var_name".toList ≠ _), keep _ (by decide : "var_val".toList ≠ _),
    withArguments_force, withArguments_val, value_assign_same] at h
  have untested : (if (withArguments sh.vars name val force name).isSome then "x".toList
      else []) = [] ↔ withArguments sh.vars name val force name = none := by
    cases withArguments sh.vars name val force name <;> simp
  simp only [untested] at h
  split at h
  · cases h
  · split at h
    · next exports =>
        obtain rfl := Option.some.inj h
        exact .inl ⟨exports, rfl, rfl⟩
    · next exports =>
        obtain rfl := Option.some.inj h
        exact .inr ⟨exports, rfl, rfl⟩

theorem name_ne_nil_of_loadEnvVar (h : loadEnvVar echo name val force sh = some sh') :
    name ≠ [] := by
  rintro rfl
  simp only [loadEnvVar, withArguments_name, if_true] at h
  cases h

theorem loadEnvVar_terminates (hname : name ≠ []) :
    ∃ sh', loadEnvVar echo name val force sh = some sh' := by
  simp only [loadEnvVar, withArguments_name, if_neg hname]
  exact ⟨_, (apply_ite some _ _ _).symm⟩

end LoadEnvVar

/-- The loop over the files of a list; `none` when the script exits. At the end of the list `read`
empties its variable. -/
def loadFiles (echo : Str → Str) (dir nameVar force : Str) :
    List EnvFile → InitShell → Option InitShell
  | [], sh => some (sh.assign "fpath".toList [])
  | file :: files, sh =>
      let sh := sh.assign "fpath".toList (dir ++ file.name)
      let sh := sh.assign nameVar file.name
      if validEnvVarName (sh.vars.value nameVar) then do
        let sh ← loadEnvVar echo (sh.vars.value nameVar)
          (commandSubstitution (headN1 file.content)) force sh
        loadFiles echo dir nameVar force files sh
      else none

/-- The loop over `/etc/cont-env.d`. -/
def loadContEnv (echo : Str → Str) : List EnvFile → InitShell → Option InitShell :=
  loadFiles echo "/etc/cont-env.d/".toList "fname".toList []

/-- The loop over the secrets. -/
def loadSecrets (echo : Str → Str) : List EnvFile → InitShell → Option InitShell :=
  loadFiles echo "/run/secrets/CONT_ENV_".toList "env_var_name".toList "force".toList

/-- A stage that loads a directory, if it is there. With `set -e` the script exits when `rm` does
not find its file. -/
def loadStage (c : Container) (load : List EnvFile → InitShell → Option InitShell) (stage : Str)
    (dir : Option EnvDir) (sh : InitShell) : Option InitShell :=
  let sh := sh.assign "STAGE".toList stage
  match dir with
  | none => some sh
  | some dir => do
      let sh ← load dir.files (sh.assign "flist".toList (c.mktemp stage))
      let flist := sh.vars.value "flist".toList
      if flist = c.mktemp stage ∨ c.removable flist then some sh else none

/-- The `PATH` of `/init`. -/
def initPath : Str :=
  "/usr/local/sbin:/usr/local/bin:/usr/sbin:/usr/bin:/sbin:/bin:/opt/base/sbin:/opt/base/bin".toList

/-- The beginning of `/init`, and the new `/tmp/.cont-env-internal`. -/
def startInit (shell : Beginning) (c : Container) : InitShell :=
  let vars := (shell.vars c.env).exportAs "PATH".toList initPath
  let vars := vars.assign "STAGE".toList "init".toList
  let vars := vars.assign "MIN_LOG_PREFIX_LENGTH".toList "12".toList
  { vars := vars, internal := ['\n'] }

/-- The stages of `/init` that load variables. -/
def loadVariables (echo : Str → Str) (shell : Beginning) (c : Container) : Option InitShell := do
  let sh ← loadStage c (loadContEnv echo) "cont-env".toList c.contEnv (startInit shell c)
  loadStage c (loadSecrets echo) "cont-secrets".toList c.secrets sh

/-- The end of `/init`: the initialization scripts, which run in a subshell, and the arguments of
the supervisor. With `set -u` an unset variable ends the script. -/
def finishInit (c : Container) (sh : InitShell) : Option InitShell :=
  let sh := (sh.assign "STAGE".toList "cont-init".toList).assign "STAGE".toList "init".toList
  if c.contInit ∧ (sh.vars "USER_ID".toList).isSome ∧ (sh.vars "GROUP_ID".toList).isSome then
    some sh
  else none

/-- `/init`, up to the execution of the supervisor; `none` when the script exits before. -/
def init (echo : Str → Str) (shell : Beginning) (c : Container) : Option InitShell := do
  let sh ← loadVariables echo shell c
  finishInit c sh

/-- The environment the supervisor is executed with. -/
def cinitEnvironment (echo : Str → Str) (shell : Beginning) (c : Container) :
    Option (Str → Option Str) :=
  (init echo shell c).map fun sh => sh.vars.environment

/-- The first line of a file. -/
def firstLine (content : Str) : Str := content.takeWhile fun c => c != '\n'

theorem firstLine_noLineFeed (content : Str) : '\n' ∉ firstLine content := by
  intro member
  simpa using List.mem_takeWhile_imp member

private theorem commandSubstitution_of_noLineFeed {s : Str} (h : '\n' ∉ s) :
    commandSubstitution s = s := by
  apply List.rdropWhile_eq_self_iff.mpr
  intro nonempty last
  rw [← eq_of_beq last] at h
  exact h (List.getLast_mem nonempty)

private theorem headN1_eq (content : Str) :
    headN1 content = firstLine content ∨ headN1 content = firstLine content ++ ['\n'] := by
  induction content with
  | nil => exact .inl rfl
  | cons c s ih =>
      by_cases h : c = '\n'
      · subst h
        exact .inr rfl
      · rw [headN1, if_neg h, firstLine, List.takeWhile_cons_of_pos (by simpa using h)]
        obtain ih | ih := ih
        · exact .inl (congrArg _ ih)
        · exact .inr (congrArg _ ih)

/-- What `$(head -n1)` gives is the first line. -/
theorem commandSubstitution_headN1 (content : Str) :
    commandSubstitution (headN1 content) = firstLine content := by
  have noLineFeed := firstLine_noLineFeed content
  obtain h | h := headN1_eq content
  · rw [h, commandSubstitution_of_noLineFeed noLineFeed]
  · rw [h, commandSubstitution, List.rdropWhile_concat_pos _ _ _ rfl]
    exact commandSubstitution_of_noLineFeed noLineFeed

end Baseimage.Startup
