import Baseimage.Startup.Loading

/-!
# The environment of the supervisor

A variable should get its value from a secret, then from the environment of the container, then
from `/etc/cont-env.d`; `HOME` is special, for the environment always has it. The script does this
in its own variables. It assigns to some names in every container and to others in those that have
files. A variable with such a name counts as set from then on, and what is assigned to it behind its
load is its value. Every other variable is resolved as it should be.
-/

namespace Baseimage.Startup

open Shell Variables

/-- The value a variable should have. -/
def resolve (c : Container) (v : Str) : Option Str :=
  lineFor (EnvDir.list c.secrets) v <|>
    (if v = "HOME".toList then lineFor (EnvDir.list c.contEnv) v else none) <|>
    c.env v <|> lineFor (EnvDir.list c.contEnv) v

/-- The public variables have names, and so have the files, which do not define `PATH`. -/
structure Container.Named (c : Container) : Prop where
  env : ∀ n, c.env n ≠ none → Identifier n
  files : ∀ file ∈ EnvDir.list c.contEnv ++ EnvDir.list c.secrets,
    Identifier file.name ∧ file.name ≠ "PATH".toList

/-! ## What the script assigns -/

/-- What a turn of the last loop, or of one before, assigns to a variable other than `var_test`. -/
def lastBeforeTest (dirPath nameVar force : Str) (dir : Option EnvDir) (v : Str) : Option Str :=
  (EnvDir.list dir).getLast?.bind fun file => assignedBeforeTest dirPath nameVar force file v

/-- The variables that the script assigns to in a container. -/
def Container.Assigns (c : Container) (v : Str) : Prop :=
  v = "MIN_LOG_PREFIX_LENGTH".toList ∨ StageAssigns "fname".toList c.contEnv v ∨
    StageAssigns "env_var_name".toList c.secrets v

/-- How many files are loaded. -/
def Container.loads (c : Container) : Nat :=
  (EnvDir.list c.contEnv).length + (EnvDir.list c.secrets).length

/-- The variable of the last file is set when the file is loaded. -/
def Container.SetAtLast (shell : Beginning) (c : Container) (n : Str) : Prop :=
  (shell.vars c.env n).isSome ∨ c.Assigns n ∧ (n = "var_test".toList → 1 < c.loads) ∨
    n ∈ (EnvDir.list c.contEnv).map EnvFile.name ∧ EnvDir.list c.secrets ≠ []

instance (nameVar : Str) (dir : Option EnvDir) (v : Str) : Decidable (StageAssigns nameVar dir v) :=
  inferInstanceAs (Decidable (_ ∨ _ ∧ (_ ∨ _) ∨ (¬ _ = _) ∧ _))

instance (c : Container) (v : Str) : Decidable (c.Assigns v) :=
  inferInstanceAs (Decidable (_ ∨ _ ∨ _))

instance (shell : Beginning) (c : Container) (n : Str) : Decidable (c.SetAtLast shell n) :=
  inferInstanceAs (Decidable (_ ∨ _ ∧ (_ → _) ∨ _ ∧ _))

/-- What the script last assigns to a variable in a container. -/
def Container.lastAssigned (shell : Beginning) (c : Container) (v : Str) : Option Str :=
  if v = "var_test".toList then
    (EnvDir.list c.contEnv ++ EnvDir.list c.secrets).getLast?.map fun file =>
      if c.SetAtLast shell file.name then "x".toList else []
  else
    (if v = "STAGE".toList then some "init".toList else none) <|>
      stageLast c "cont-secrets".toList c.secrets
        (lastBeforeTest "/run/secrets/CONT_ENV_".toList "env_var_name".toList "force".toList
          c.secrets v) v <|>
      stageLast c "cont-env".toList c.contEnv
        (lastBeforeTest "/etc/cont-env.d/".toList "fname".toList [] c.contEnv v) v <|>
      if v = "MIN_LOG_PREFIX_LENGTH".toList then some "12".toList else none

/-! ## What the script leaves -/

section Leaves

variable (shell : Beginning) (c : Container)

/-- The variables between the stages. -/
def Container.behindContEnv : Variables :=
  stageVars c "/etc/cont-env.d/".toList "fname".toList [] "cont-env".toList c.contEnv
    (startInit shell c).vars

/-- The variables that the script leaves. -/
def Container.leaves : Variables :=
  let vars := stageVars c "/run/secrets/CONT_ENV_".toList "env_var_name".toList "force".toList
    "cont-secrets".toList c.secrets (c.behindContEnv shell)
  (vars.assign "STAGE".toList "cont-init".toList).assign "STAGE".toList "init".toList

variable {shell c} {v : Str}

theorem init_vars {echo : Str → Str} {sh : InitShell} (run : init echo shell c = some sh) :
    sh.vars = c.leaves shell := by
  obtain ⟨sh₂, load, finish⟩ := Option.bind_eq_some_iff.mp run
  obtain ⟨sh₁, contEnv, secrets⟩ := Option.bind_eq_some_iff.mp load
  obtain ⟨-, same⟩ := Option.ite_none_right_eq_some.mp finish
  obtain rfl := Option.some.inj same
  rw [InitShell.assign_vars, InitShell.assign_vars, loadStage_vars secrets, loadStage_vars contEnv]
  rfl

theorem startInit_vars (other : v ≠ "PATH".toList) : (startInit shell c).vars v =
    reassign (shell.vars c.env v) (if v = "MIN_LOG_PREFIX_LENGTH".toList then some "12".toList
      else if v = "STAGE".toList then some "init".toList else none) := by
  simp only [startInit, assign_eq_reassign, exportAs_other _ other, reassign_reassign, ite_orElse]

theorem leaves_eq : c.leaves shell v =
    reassign (stageVars c "/run/secrets/CONT_ENV_".toList "env_var_name".toList "force".toList
      "cont-secrets".toList c.secrets (c.behindContEnv shell) v)
      (if v = "STAGE".toList then some "init".toList else none) := by
  simp only [Container.leaves, assign_eq_reassign, reassign_reassign]
  split <;> rfl

/-- What is last assigned in the loop over the files of `/etc/cont-env.d`. -/
def Container.contEnvLoop (shell : Beginning) (c : Container) : Str → Option Str :=
  lastTurn "/etc/cont-env.d/".toList "fname".toList []
    (beforeLoop c "cont-env".toList (startInit shell c).vars) (EnvDir.list c.contEnv)

/-- What is last assigned in the loop over the secrets. -/
def Container.secretsLoop (shell : Beginning) (c : Container) : Str → Option Str :=
  lastTurn "/run/secrets/CONT_ENV_".toList "env_var_name".toList "force".toList
    (beforeLoop c "cont-secrets".toList (c.behindContEnv shell)) (EnvDir.list c.secrets)

theorem isSome_startInit (other : v ≠ "PATH".toList) : ((startInit shell c).vars v).isSome ↔
    v = "MIN_LOG_PREFIX_LENGTH".toList ∨ v = "STAGE".toList ∨ (shell.vars c.env v).isSome := by
  rw [startInit_vars other, isSome_reassign, Bool.or_eq_true, isSome_ite, isSome_ite]
  simp [or_assoc]

/-- The test of the last file. -/
theorem setAtLast_contEnv (shell : Beginning) {front : List EnvFile} {file : EnvFile} {dir : EnvDir}
    (contEnv : c.contEnv = some dir) (last : dir.files = front ++ [file])
    (secrets : EnvDir.list c.secrets = []) (inFront : file.name ∉ front.map EnvFile.name)
    (other : file.name ≠ "PATH".toList) :
    (atTest "/etc/cont-env.d/".toList "fname".toList [] (turns "/etc/cont-env.d/".toList
      "fname".toList [] (beforeLoop c "cont-env".toList (startInit shell c).vars) front) file
        file.name).isSome ↔ c.SetAtLast shell file.name := by
  have list : EnvDir.list c.contEnv = front ++ [file] := by rw [contEnv, EnvDir.list, last]
  rw [isSome_atTest, isSome_turns, isSome_lastTurn, beforeLoop_eq, isSome_reassign, Bool.or_eq_true,
    isSome_startInit other, isSome_ite, isSome_ite, Container.SetAtLast, Container.Assigns,
    StageAssigns, StageAssigns, list, secrets, Container.loads, list, secrets, contEnv,
    mem_turnVariables "/etc/cont-env.d/".toList "fname".toList [] file]
  simp only [Option.isSome_none, Option.isSome_some, Bool.false_eq_true, or_false, true_and,
    List.length_append, List.length_singleton, List.length_nil, ne_eq, not_true_eq_false,
    false_and, and_false, inFront, List.append_eq_nil_iff, List.cons_ne_nil, not_false_eq_true]
  have positive : front ≠ [] ↔ 0 < front.length := List.length_pos_iff.symm
  have untested := ne_var_test "/etc/cont-env.d/".toList "fname".toList [] file (by decide)
    (v := file.name)
  have path := isSome_fpath "/etc/cont-env.d/".toList "fname".toList [] file
  grind

theorem setAtLast_secrets (shell : Beginning) {front : List EnvFile} {file : EnvFile} {dir : EnvDir}
    (secrets : c.secrets = some dir) (last : dir.files = front ++ [file])
    (inFront : file.name ∉ front.map EnvFile.name) (other : file.name ≠ "PATH".toList) :
    (atTest "/run/secrets/CONT_ENV_".toList "env_var_name".toList "force".toList
      (turns "/run/secrets/CONT_ENV_".toList "env_var_name".toList "force".toList
        (beforeLoop c "cont-secrets".toList (c.behindContEnv shell)) front) file
          file.name).isSome ↔ c.SetAtLast shell file.name := by
  have list : EnvDir.list c.secrets = front ++ [file] := by rw [secrets, EnvDir.list, last]
  rw [isSome_atTest, isSome_turns, isSome_lastTurn, beforeLoop_eq, isSome_reassign, Bool.or_eq_true,
    Container.behindContEnv, isSome_stageVars, isSome_startInit other, isSome_ite, isSome_ite,
    Container.SetAtLast, Container.Assigns, StageAssigns, StageAssigns, list, Container.loads, list,
    secrets,
    mem_turnVariables "/run/secrets/CONT_ENV_".toList "env_var_name".toList "force".toList file]
  simp only [Option.isSome_none, Option.isSome_some, Bool.false_eq_true, or_false, true_and,
    List.length_append, List.length_singleton, ne_eq, inFront, List.append_eq_nil_iff,
    List.cons_ne_nil, and_false, not_false_eq_true, and_true]
  have positive : front ≠ [] ↔ 0 < front.length := List.length_pos_iff.symm
  have positive' : EnvDir.list c.contEnv ≠ [] ↔ 0 < (EnvDir.list c.contEnv).length :=
    List.length_pos_iff.symm
  have untested := ne_var_test "/run/secrets/CONT_ENV_".toList "env_var_name".toList "force".toList
    file (by decide) (v := file.name)
  have path := isSome_fpath "/run/secrets/CONT_ENV_".toList "env_var_name".toList
    "force".toList file
  have test : "var_test".toList ∈ turnVariables "fname".toList := List.mem_cons_self
  grind

theorem contEnvLoop_var_test (named : c.Named) (secrets : EnvDir.list c.secrets = []) :
    c.contEnvLoop shell "var_test".toList = (EnvDir.list c.contEnv).getLast?.map fun file =>
      if c.SetAtLast shell file.name then "x".toList else [] := by
  cases contEnv : c.contEnv with
  | none =>
      rw [Container.contEnvLoop, contEnv]
      rfl
  | some dir =>
      obtain files | ⟨front, file, files⟩ := dir.files.eq_nil_or_concat
      · rw [Container.contEnvLoop, contEnv, EnvDir.list, files]
        rfl
      · rw [List.concat_eq_append] at files
        have nodup := dir.nodup
        rw [files, List.map_append, List.nodup_append] at nodup
        have test := setAtLast_contEnv shell contEnv files secrets
          (fun inFront => nodup.2.2 _ inFront _ List.mem_cons_self rfl)
          (named.files file (by simp [contEnv, EnvDir.list, files])).2
        rw [Container.contEnvLoop, contEnv, EnvDir.list, files, lastTurn_concat_var_test,
          List.getLast?_concat, Option.map_some]
        simp only [test]

theorem secretsLoop_var_test (named : c.Named) :
    c.secretsLoop shell "var_test".toList = (EnvDir.list c.secrets).getLast?.map fun file =>
      if c.SetAtLast shell file.name then "x".toList else [] := by
  cases secrets : c.secrets with
  | none =>
      rw [Container.secretsLoop, secrets]
      rfl
  | some dir =>
      obtain files | ⟨front, file, files⟩ := dir.files.eq_nil_or_concat
      · rw [Container.secretsLoop, secrets, EnvDir.list, files]
        rfl
      · rw [List.concat_eq_append] at files
        have nodup := dir.nodup
        rw [files, List.map_append, List.nodup_append] at nodup
        have test := setAtLast_secrets shell secrets files
          (fun inFront => nodup.2.2 _ inFront _ List.mem_cons_self rfl)
          (named.files file (by simp [secrets, EnvDir.list, files])).2
        rw [Container.secretsLoop, secrets, EnvDir.list, files, lastTurn_concat_var_test,
          List.getLast?_concat, Option.map_some]
        simp only [test]

/-- What is assigned last, stage by stage. -/
theorem lastAssigned_eq (named : c.Named) (v : Str) : c.lastAssigned shell v =
    ((if v = "STAGE".toList then some "init".toList else none) <|>
      stageLast c "cont-secrets".toList c.secrets (c.secretsLoop shell v) v <|>
      stageLast c "cont-env".toList c.contEnv (c.contEnvLoop shell v) v <|>
      if v = "MIN_LOG_PREFIX_LENGTH".toList then some "12".toList else none) := by
  by_cases test : v = "var_test".toList
  · subst test
    rw [Container.lastAssigned, if_pos rfl, if_neg (by decide), if_neg (by decide),
      stageLast_loop (fun none => by rw [Container.secretsLoop, none]; rfl) (by decide) (by decide)
        (by decide),
      stageLast_loop (fun none => by rw [Container.contEnvLoop, none]; rfl) (by decide) (by decide)
        (by decide), secretsLoop_var_test named]
    cases secrets : EnvDir.list c.secrets with
    | nil =>
        rw [contEnvLoop_var_test named secrets, List.append_nil]
        cases (EnvDir.list c.contEnv).getLast? <;> rfl
    | cons file files =>
        rw [List.getLast?_append_of_ne_nil _ (List.cons_ne_nil _ _)]
        rw [List.getLast?_eq_some_getLast (List.cons_ne_nil _ _)]
        rfl
  · rw [Container.lastAssigned, if_neg test, Container.secretsLoop, Container.contEnvLoop,
      lastTurn_of_ne test, lastTurn_of_ne test]
    rfl

/-- The variables that something is assigned to are those that the script assigns to. -/
theorem isSome_lastAssigned (named : c.Named) :
    (c.lastAssigned shell v).isSome ↔ c.Assigns v := by
  rw [lastAssigned_eq named, isSome_orElse, isSome_orElse, isSome_orElse, isSome_ite, isSome_ite,
    Container.secretsLoop, Container.contEnvLoop, isSome_stageLast, isSome_stageLast,
    Container.Assigns]
  simp only [Option.isSome_none, Bool.false_eq_true, or_false]
  constructor
  · rintro (stage | secrets | contEnv | min)
    exacts [.inr (.inl (.inl stage)), .inr (.inr secrets), .inr (.inl contEnv), .inl min]
  · rintro (min | contEnv | secrets)
    exacts [.inr (.inr (.inr min)), .inr (.inr (.inl contEnv)), .inr (.inl secrets)]

/-- A variable that has no file in `/etc/cont-env.d` behind its stage. -/
theorem behindContEnv_other (absent : v ∉ (EnvDir.list c.contEnv).map EnvFile.name) :
    c.behindContEnv shell v = reassign ((startInit shell c).vars v)
      (stageLast c "cont-env".toList c.contEnv (c.contEnvLoop shell v) v) :=
  stageVars_other absent

/-- A variable that neither stage loads has what was last assigned to it, or what the shell begins
with. -/
theorem leaves_of_unloaded (named : c.Named) (other : v ≠ "PATH".toList)
    (noSecret : v ∉ (EnvDir.list c.secrets).map EnvFile.name)
    (unloaded : c.behindContEnv shell v = reassign ((startInit shell c).vars v)
      (stageLast c "cont-env".toList c.contEnv (c.contEnvLoop shell v) v)) :
    c.leaves shell v = reassign (shell.vars c.env v) (c.lastAssigned shell v) := by
  rw [leaves_eq, stageVars_other noSecret, unloaded, startInit_vars other, lastAssigned_eq named]
  simp only [reassign_reassign]
  by_cases stage : v = "STAGE".toList
  · rw [if_pos stage]
    rfl
  · rw [if_neg stage]
    rfl

theorem orElse_of_isSome {last : Option Str} (h : last.isSome) (rest : Option Str) :
    (last <|> rest) = last := by
  cases last with
  | none => cases h
  | some value => rfl

theorem orElse_assoc (x y z : Option Str) : ((x <|> y) <|> z) = (x <|> y <|> z) := by
  cases x <;> rfl

end Leaves

/-! ## When the value is the one there should be -/

section Kept

variable (shell : Beginning) (c : Container) (v : Str)

/-- The script assigns to the variable of a secret behind its load. -/
def Container.AssignsBehind : Prop :=
  v = "STAGE".toList ∨ v = "fpath".toList ∨ v ∈ turnVariables "env_var_name".toList ∧
    (EnvDir.list c.secrets).getLast?.map EnvFile.name ≠ some v

/-- The script assigns to the variable of a file in `/etc/cont-env.d` before it loads the file. -/
def Container.AssignsBefore : Prop :=
  v = "STAGE".toList ∨ v = "MIN_LOG_PREFIX_LENGTH".toList ∨ v = "flist".toList ∨
    v ∈ turnVariables "fname".toList ∧ (v = "var_test".toList →
      (EnvDir.list c.contEnv).head?.map EnvFile.name ≠ some v)

/-- The shell begins with a value, or the script last assigns it. -/
def Container.Stays (value : Str) : Prop :=
  ∃ x, shell.vars c.env v = some (Variable.ofEnv x) ∧ (c.lastAssigned shell v).getD x = value

/-- When a variable has the value it should have, if it should have one. -/
def Container.Kept : Prop :=
  match lineFor (EnvDir.list c.secrets) v with
  | some line => c.AssignsBehind v → (c.lastAssigned shell v).getD line = line
  | none =>
      v = "HOME".toList ∨
        match c.env v, lineFor (EnvDir.list c.contEnv) v with
        | some value, _ => c.Stays shell v value
        | none, some line =>
            (shell.vars c.env v = none ∧ ¬ c.AssignsBefore v ∧
              (v = "var_test".toList ∧ c.loads = 1 ∨ (c.lastAssigned shell v).getD line = line)) ∨
              c.Stays shell v line
        | none, none => True

variable {shell c v}

/-- What is assigned to the variable of a secret behind its load. -/
theorem exists_behind_secret (shell : Beginning) (named : c.Named) {dir : EnvDir}
    (secrets : c.secrets = some dir)
    {front back : List EnvFile} {own : EnvFile} (files : dir.files = front ++ own :: back)
    (inFront : own.name ∉ front.map EnvFile.name) (inBack : own.name ∉ back.map EnvFile.name) :
    ∃ behind rest, (behind.isSome ↔ c.AssignsBehind own.name) ∧
      c.lastAssigned shell own.name = (behind <|> rest) ∧
      c.leaves shell own.name =
        reassign (some (Variable.ofEnv (firstLine own.content))) behind := by
  have split : front ++ own :: back = (front ++ [own]) ++ back := by
    rw [List.append_assoc, List.singleton_append]
  refine ⟨(if own.name = "STAGE".toList then some "init".toList else none) <|>
    (if own.name = "fpath".toList then some [] else none) <|>
    lastTurn "/run/secrets/CONT_ENV_".toList "env_var_name".toList "force".toList
      (turns "/run/secrets/CONT_ENV_".toList "env_var_name".toList "force".toList
        (beforeLoop c "cont-secrets".toList (c.behindContEnv shell)) (front ++ [own])) back
          own.name, ?rest, ?assigns, ?last, ?leaves⟩
  case assigns =>
    rw [isSome_orElse, isSome_orElse, isSome_ite, isSome_ite, isSome_lastTurn,
      Container.AssignsBehind, secrets, EnvDir.list, files, getLast_eq_iff inBack]
    simp only [Option.isSome_none, Bool.false_eq_true, or_false, and_comm]
  case last =>
    rw [lastAssigned_eq named, Container.secretsLoop, secrets, EnvDir.list, files, split,
      lastTurn_append]
    simp only [stageLast, orElse_assoc]
    rfl
  case leaves =>
    rw [leaves_eq, secrets, stageVars_own files inFront inBack, if_pos (.inl (by decide)),
      reassign_reassign]

/-- The variable of a secret has the line of the secret, or what was assigned to it since. -/
theorem environment_of_secret (named : c.Named) {line : Str}
    (secret : lineFor (EnvDir.list c.secrets) v = some line) :
    (c.leaves shell).environment v = some line ↔
      (c.AssignsBehind v → (c.lastAssigned shell v).getD line = line) := by
  cases secrets : c.secrets with
  | none => simp [secrets, EnvDir.list, lineFor] at secret
  | some dir =>
      rw [secrets] at secret
      have member : v ∈ dir.files.map EnvFile.name := by
        by_contra absent
        rw [EnvDir.list, lineFor_eq_none absent] at secret
        cases secret
      obtain ⟨front, own, back, files, rfl, inFront, inBack, ownLine⟩ :=
        exists_file dir.nodup member
      obtain rfl : firstLine own.content = line := Option.some.inj (ownLine.symm.trans secret)
      obtain ⟨behind, rest, assigns_iff, last, value⟩ :=
        exists_behind_secret shell named secrets files inFront inBack
      rw [environment_of_exported value, Option.some.injEq]
      by_cases assigns : c.AssignsBehind own.name
      · rw [last, orElse_of_isSome (assigns_iff.mpr assigns)]
        exact (imp_iff_right assigns).symm
      · have nothing : behind = none := by
          rwa [← assigns_iff, Option.not_isSome_iff_eq_none] at assigns
        rw [nothing]
        exact iff_of_true rfl fun h => absurd h assigns

/-- The test of a file of `/etc/cont-env.d`. -/
theorem atTest_contEnv {front back : List EnvFile} {own : EnvFile}
    (files : EnvDir.list c.contEnv = front ++ own :: back)
    (inFront : own.name ∉ front.map EnvFile.name) (other : own.name ≠ "PATH".toList) :
    atTest "/etc/cont-env.d/".toList "fname".toList [] (turns "/etc/cont-env.d/".toList
      "fname".toList [] (beforeLoop c "cont-env".toList (startInit shell c).vars) front) own
        own.name = none ↔ shell.vars c.env own.name = none ∧ ¬ c.AssignsBefore own.name := by
  rw [← Option.not_isSome_iff_eq_none, ← Option.not_isSome_iff_eq_none, ← not_or, not_iff_not,
    isSome_atTest, isSome_turns, isSome_lastTurn, beforeLoop_eq, isSome_reassign, Bool.or_eq_true,
    isSome_startInit other, isSome_ite, isSome_ite, Container.AssignsBefore, files,
    head_eq_iff inFront, mem_turnVariables "/etc/cont-env.d/".toList "fname".toList [] own]
  simp only [Option.isSome_none, Bool.false_eq_true, or_false, inFront]
  have untested := ne_var_test "/etc/cont-env.d/".toList "fname".toList [] own (by decide)
    (v := own.name)
  grind

theorem stageAssigns_var_test {nameVar : Str} {dir : Option EnvDir} :
    StageAssigns nameVar dir "var_test".toList ↔ EnvDir.list dir ≠ [] := by
  constructor
  · rintro (stage | ⟨-, flist | fpath⟩ | ⟨files, -⟩)
    · exact absurd stage (by decide)
    · exact absurd flist (by decide)
    · exact absurd fpath (by decide)
    · exact files
  · exact fun files => .inr (.inr ⟨files, List.mem_cons_self⟩)

theorem loads_eq_one_iff {own : EnvFile} {back : List EnvFile}
    (files : EnvDir.list c.contEnv = own :: back) :
    c.loads = 1 ↔ ¬ (EnvDir.list c.secrets ≠ [] ∨ back ≠ []) := by
  rw [Container.loads, files, List.length_cons, ← List.length_pos_iff, ← List.length_pos_iff]
  omega

/-- What is assigned to the variable of a loaded file of `/etc/cont-env.d` behind its load, and what
was assigned before. -/
theorem exists_behind_contEnv (named : c.Named) {dir : EnvDir} (contEnv : c.contEnv = some dir)
    {front back : List EnvFile} {own : EnvFile} (files : dir.files = front ++ own :: back)
    (inFront : own.name ∉ front.map EnvFile.name) (inBack : own.name ∉ back.map EnvFile.name)
    (noSecret : own.name ∉ (EnvDir.list c.secrets).map EnvFile.name)
    (loaded : atTest "/etc/cont-env.d/".toList "fname".toList [] (turns "/etc/cont-env.d/".toList
      "fname".toList [] (beforeLoop c "cont-env".toList (startInit shell c).vars) front) own
        own.name = none ∨ own.name = "HOME".toList) :
    ∃ behind before,
      (behind.isSome ↔ StageAssigns "env_var_name".toList c.secrets own.name ∨
        own.name = "fpath".toList ∨ back ≠ [] ∧ own.name ∈ turnVariables "fname".toList) ∧
      (before.isSome ↔ own.name ∈ turnVariables "fname".toList ∨ own.name = "flist".toList ∨
        own.name = "STAGE".toList ∨ own.name = "MIN_LOG_PREFIX_LENGTH".toList) ∧
      c.lastAssigned shell own.name = (behind <|> before) ∧
      c.leaves shell own.name =
        reassign (some (Variable.ofEnv (firstLine own.content))) behind := by
  have split : front ++ own :: back = (front ++ [own]) ++ back := by
    rw [List.append_assoc, List.singleton_append]
  refine ⟨(if own.name = "STAGE".toList then some "init".toList else none) <|>
    stageLast c "cont-secrets".toList c.secrets (c.secretsLoop shell own.name) own.name <|>
    (if own.name = "fpath".toList then some [] else none) <|>
    lastTurn "/etc/cont-env.d/".toList "fname".toList [] (turns "/etc/cont-env.d/".toList
      "fname".toList [] (beforeLoop c "cont-env".toList (startInit shell c).vars)
        (front ++ [own])) back own.name,
    lastTurn "/etc/cont-env.d/".toList "fname".toList []
      (beforeLoop c "cont-env".toList (startInit shell c).vars) (front ++ [own]) own.name <|>
    (if own.name = "flist".toList then some (c.mktemp "cont-env".toList)
      else if own.name = "STAGE".toList then some "cont-env".toList else none) <|>
    (if own.name = "MIN_LOG_PREFIX_LENGTH".toList then some "12".toList else none),
    ?behind, ?before, ?last, ?leaves⟩
  case behind =>
    rw [isSome_orElse, isSome_orElse, isSome_orElse, isSome_ite, isSome_ite, isSome_lastTurn,
      Container.secretsLoop, isSome_stageLast, StageAssigns]
    simp only [Option.isSome_none, Bool.false_eq_true, or_false]
    exact ⟨fun h => h.elim (fun stage => .inl (.inl stage)) id, .inr⟩
  case before =>
    rw [isSome_orElse, isSome_orElse, isSome_lastTurn, isSome_ite, isSome_ite, isSome_ite]
    simp [or_assoc]
  case last =>
    rw [lastAssigned_eq named, Container.contEnvLoop, contEnv, EnvDir.list, files, split,
      lastTurn_append]
    simp only [stageLast, orElse_assoc]
  case leaves =>
    have first : c.behindContEnv shell own.name =
        reassign (some (Variable.ofEnv (firstLine own.content)))
          ((if own.name = "fpath".toList then some [] else none) <|>
            lastTurn "/etc/cont-env.d/".toList "fname".toList [] (turns "/etc/cont-env.d/".toList
              "fname".toList [] (beforeLoop c "cont-env".toList (startInit shell c).vars)
                (front ++ [own])) back own.name) := by
      rw [Container.behindContEnv, contEnv, stageVars_own files inFront inBack,
        if_pos (.inr loaded)]
    rw [leaves_eq, stageVars_other noSecret, first, reassign_reassign, reassign_reassign]
    simp only [orElse_assoc]
    rfl

/-- What the variable of a file of `/etc/cont-env.d` has that is loaded in its turn. -/
theorem environment_of_turn (named : c.Named) {dir : EnvDir} (contEnv : c.contEnv = some dir)
    {front back : List EnvFile} {own : EnvFile} (files : dir.files = front ++ own :: back)
    (inFront : own.name ∉ front.map EnvFile.name) (inBack : own.name ∉ back.map EnvFile.name)
    (noSecret : own.name ∉ (EnvDir.list c.secrets).map EnvFile.name)
    (loaded : atTest "/etc/cont-env.d/".toList "fname".toList [] (turns "/etc/cont-env.d/".toList
      "fname".toList [] (beforeLoop c "cont-env".toList (startInit shell c).vars) front) own
        own.name = none ∨ own.name = "HOME".toList) (unassigned : ¬ c.AssignsBefore own.name) :
    (c.leaves shell).environment own.name = some (firstLine own.content) ↔
      own.name = "var_test".toList ∧ c.loads = 1 ∨
        (c.lastAssigned shell own.name).getD (firstLine own.content) = firstLine own.content := by
  have list : EnvDir.list c.contEnv = front ++ own :: back := by rw [contEnv, EnvDir.list, files]
  obtain ⟨behind, before, behind_iff, before_iff, last, value⟩ :=
    exists_behind_contEnv named contEnv files inFront inBack noSecret loaded
  rw [environment_of_exported value, Option.some.injEq]
  simp only [Container.AssignsBefore, not_or, not_and, Classical.not_imp, list,
    head_eq_iff inFront, not_not] at unassigned
  obtain ⟨stage, min, flist, turned⟩ := unassigned
  by_cases test : own.name = "var_test".toList
  · -- It is the first file, so nothing was assigned before.
    obtain ⟨-, rfl⟩ := turned (by rw [test]; exact List.mem_cons_self)
    have single : c.loads = 1 ↔ ¬ behind.isSome := by
      rw [behind_iff, test, stageAssigns_var_test, loads_eq_one_iff list]
      exact not_congr (or_congr_right ⟨fun back => .inr ⟨back, List.mem_cons_self⟩,
        fun h => h.elim (fun absurdity => absurd absurdity (by decide)) And.left⟩)
    by_cases one : c.loads = 1
    · rw [Option.not_isSome_iff_eq_none.mp (single.mp one)]
      exact iff_of_true rfl (.inl ⟨test, one⟩)
    · rw [last, orElse_of_isSome (by rwa [single, not_not] at one)]
      exact (or_iff_right fun h => one h.2).symm
  · have unturned : own.name ∉ turnVariables "fname".toList := fun member => test (turned member).1
    have nothing : before = none := by
      rw [← Option.not_isSome_iff_eq_none, before_iff]
      exact not_or.mpr ⟨unturned, not_or.mpr ⟨flist, not_or.mpr ⟨stage, min⟩⟩⟩
    have same : c.lastAssigned shell own.name = behind := by
      rw [last, nothing]
      cases behind <;> rfl
    rw [same]
    exact (or_iff_right fun h => test h.1).symm

/-- The variable of a file of `/etc/cont-env.d` that is loaded has the line of the file, or what was
assigned to it since. -/
theorem environment_of_contEnv (named : c.Named) (other : v ≠ "PATH".toList)
    (noSecret : v ∉ (EnvDir.list c.secrets).map EnvFile.name) {line : Str}
    (internal : lineFor (EnvDir.list c.contEnv) v = some line)
    (unset : shell.vars c.env v = none ∨ v = "HOME".toList) (unassigned : ¬ c.AssignsBefore v) :
    (c.leaves shell).environment v = some line ↔
      v = "var_test".toList ∧ c.loads = 1 ∨ (c.lastAssigned shell v).getD line = line := by
  cases contEnv : c.contEnv with
  | none => simp [contEnv, EnvDir.list, lineFor] at internal
  | some dir =>
      rw [contEnv] at internal
      have member : v ∈ dir.files.map EnvFile.name := by
        by_contra absent
        rw [EnvDir.list, lineFor_eq_none absent] at internal
        cases internal
      obtain ⟨front, own, back, files, rfl, inFront, inBack, ownLine⟩ :=
        exists_file dir.nodup member
      obtain rfl : firstLine own.content = line := Option.some.inj (ownLine.symm.trans internal)
      have list : EnvDir.list c.contEnv = front ++ own :: back := by
        rw [contEnv, EnvDir.list, files]
      refine environment_of_turn named contEnv files inFront inBack noSecret ?_ unassigned
      exact unset.imp_left fun none => (atTest_contEnv list inFront other).mpr ⟨none, unassigned⟩

/-- A file of `/etc/cont-env.d` whose variable is set is not loaded. -/
theorem behindContEnv_of_set (other : v ≠ "PATH".toList) (notHome : v ≠ "HOME".toList)
    (isSet : v ∈ (EnvDir.list c.contEnv).map EnvFile.name →
      ¬ (shell.vars c.env v = none ∧ ¬ c.AssignsBefore v)) :
    c.behindContEnv shell v = reassign ((startInit shell c).vars v)
      (stageLast c "cont-env".toList c.contEnv (c.contEnvLoop shell v) v) := by
  by_cases member : v ∈ (EnvDir.list c.contEnv).map EnvFile.name
  · cases contEnv : c.contEnv with
    | none => rw [contEnv] at member; exact absurd member List.not_mem_nil
    | some dir =>
        rw [contEnv] at member
        obtain ⟨front, own, back, files, rfl, inFront, inBack, -⟩ := exists_file dir.nodup member
        have list : EnvDir.list c.contEnv = front ++ own :: back := by
          rw [contEnv, EnvDir.list, files]
        rw [Container.behindContEnv, contEnv, stageVars_own files inFront inBack, if_neg]
        · rw [Container.contEnvLoop, contEnv]
          rfl
        · rintro (absurdity | unset | home)
          · exact absurdity rfl
          · rw [contEnv] at isSet
            exact isSet member ((atTest_contEnv list inFront other).mp unset)
          · exact notHome home
  · exact stageVars_other member

/-- A variable that neither stage loads has the value that stays. -/
theorem environment_of_set (named : c.Named) (other : v ≠ "PATH".toList)
    (notHome : v ≠ "HOME".toList) (noSecret : v ∉ (EnvDir.list c.secrets).map EnvFile.name)
    (isSet : v ∈ (EnvDir.list c.contEnv).map EnvFile.name →
      ¬ (shell.vars c.env v = none ∧ ¬ c.AssignsBefore v)) (value : Str) :
    (c.leaves shell).environment v = some value ↔ c.Stays shell v value :=
  environment_eq_some_iff
    (leaves_of_unloaded named other noSecret (behindContEnv_of_set other notHome isSet))

/-- The variables that the script assigns to in some container. -/
def scriptVariables : List Str :=
  ["MIN_LOG_PREFIX_LENGTH".toList, "STAGE".toList, "flist".toList, "fpath".toList] ++
    turnVariables "fname".toList ++ turnVariables "env_var_name".toList

theorem not_assigns (other : v ∉ scriptVariables) : ¬ c.Assigns v := by
  simp only [scriptVariables, List.mem_append, List.mem_cons, List.not_mem_nil, or_false, not_or]
    at other
  obtain ⟨⟨⟨min, stage, flist, fpath⟩, fname⟩, envVarName⟩ := other
  rw [Container.Assigns, StageAssigns, StageAssigns]
  simp only [min, stage, flist, fpath, fname, envVarName, or_self, and_false, not_false_eq_true]

/-- `HOME` has its line, or the value of the environment. -/
theorem environment_home (named : c.Named)
    (noSecret : "HOME".toList ∉ (EnvDir.list c.secrets).map EnvFile.name) {value : Str}
    (should : resolve c "HOME".toList = some value) :
    (c.leaves shell).environment "HOME".toList = some value := by
  have unassigned : c.lastAssigned shell "HOME".toList = none := by
    rw [← Option.not_isSome_iff_eq_none, isSome_lastAssigned named]
    exact not_assigns (by decide)
  have unassignedBefore : ¬ c.AssignsBefore "HOME".toList := by
    rintro (h | h | h | ⟨h, -⟩)
    exacts [absurd h (by decide), absurd h (by decide), absurd h (by decide),
      absurd h (by decide)]
  rw [resolve, lineFor_eq_none noSecret, if_pos rfl] at should
  cases internal : lineFor (EnvDir.list c.contEnv) "HOME".toList with
  | some line =>
      rw [internal] at should
      obtain rfl : line = value := Option.some.inj should
      rw [environment_of_contEnv named (by decide) noSecret internal (.inr rfl) unassignedBefore,
        unassigned]
      exact .inr rfl
  | none =>
      rw [internal] at should
      have given : c.env "HOME".toList = some value := by
        cases given : c.env "HOME".toList with
        | none => rw [given] at should; cases should
        | some x => rw [given] at should; exact should
      have begun : shell.vars c.env "HOME".toList = some (Variable.ofEnv value) := by
        rw [shell.home, given, Option.map_some]
      have leaves : c.leaves shell "HOME".toList = reassign (shell.vars c.env "HOME".toList)
          (c.lastAssigned shell "HOME".toList) :=
        leaves_of_unloaded named (by decide) noSecret
          (behindContEnv_other ((lineFor_eq_none_iff (EnvDir.list_nodup c.contEnv)).mp internal))
      rw [begun, unassigned] at leaves
      exact environment_of_exported leaves

/-- A variable without a value is not given. -/
theorem ungiven_of_resolve (nothing : resolve c v = none) :
    lineFor (EnvDir.list c.secrets) v = none ∧ c.env v = none ∧
      lineFor (EnvDir.list c.contEnv) v = none := by
  have empty : ∀ {x y : Option Str}, (x <|> y) = none → x = none ∧ y = none := by
    intro x y
    cases x <;> simp
  obtain ⟨secret, rest⟩ := empty nothing
  exact ⟨secret, empty (empty rest).2⟩

/-- A variable that nothing sets is not in the environment. -/
theorem environment_of_nothing (named : c.Named) (other : v ≠ "PATH".toList)
    (nothing : resolve c v = none) (unset : shell.vars c.env v = none) :
    (c.leaves shell).environment v = none := by
  obtain ⟨secret, -, internal⟩ := ungiven_of_resolve nothing
  have leaves : c.leaves shell v = reassign (shell.vars c.env v) (c.lastAssigned shell v) :=
    leaves_of_unloaded named other ((lineFor_eq_none_iff (EnvDir.list_nodup c.secrets)).mp secret)
      (behindContEnv_other ((lineFor_eq_none_iff (EnvDir.list_nodup c.contEnv)).mp internal))
  rw [unset] at leaves
  exact environment_of_unset leaves

/-- Whether a variable has the value it should have. -/
theorem environment_eq_iff_kept (named : c.Named) (other : v ≠ "PATH".toList) {value : Str}
    (should : resolve c v = some value) :
    (c.leaves shell).environment v = some value ↔ c.Kept shell v := by
  cases secret : lineFor (EnvDir.list c.secrets) v with
  | some line =>
      obtain rfl : line = value := by
        rw [resolve, secret] at should
        exact Option.some.inj should
      rw [Container.Kept, secret]
      exact environment_of_secret named secret
  | none =>
      have noSecret := (lineFor_eq_none_iff (EnvDir.list_nodup c.secrets)).mp secret
      by_cases home : v = "HOME".toList
      · subst home
        rw [Container.Kept, secret]
        exact iff_of_true (environment_home named noSecret should) (.inl rfl)
      · rw [resolve, secret, if_neg home] at should
        rw [Container.Kept, secret]
        refine Iff.trans ?_ (or_iff_right home).symm
        cases given : c.env v with
        | some x =>
            obtain rfl : x = value := by
              rw [given] at should
              exact Option.some.inj should
            obtain ⟨begun, exported⟩ := shell.exports c.env v (named.env v (by simp [given]))
              (by simp [given])
            exact environment_of_set named other home noSecret
              (fun _ unset => by simp [exported] at unset) x
        | none =>
            rw [given] at should
            have internal : lineFor (EnvDir.list c.contEnv) v = some value := should
            rw [internal]
            by_cases isSet : shell.vars c.env v = none ∧ ¬ c.AssignsBefore v
            · rw [environment_of_contEnv named other noSecret internal (.inl isSet.1) isSet.2]
              have absent : ¬ c.Stays shell v value := by
                rintro ⟨begun, exported, -⟩
                simp [isSet.1] at exported
              exact ⟨fun h => .inl ⟨isSet.1, isSet.2, h⟩,
                fun h => (h.resolve_right absent).2.2⟩
            · rw [environment_of_set named other home noSecret (fun _ => isSet) value]
              exact ⟨.inr, fun h => h.resolve_left fun h => isSet ⟨h.1, h.2.1⟩⟩

theorem kept_of_nothing (nothing : resolve c v = none) : c.Kept shell v := by
  obtain ⟨secret, given, internal⟩ := ungiven_of_resolve nothing
  rw [Container.Kept, secret, given, internal]
  exact .inr trivial

/-- What the script does not assign to in the container, and the shell leaves alone, is kept. -/
theorem kept_of_unassigned (named : c.Named) (unassigned : ¬ c.Assigns v)
    (begun : shell.vars c.env v = (c.env v).map Variable.ofEnv) : c.Kept shell v := by
  have last : c.lastAssigned shell v = none := by
    rwa [← Option.not_isSome_iff_eq_none, isSome_lastAssigned named]
  rw [Container.Kept, last]
  split
  · exact fun _ => rfl
  · apply Or.inr
    split
    · next given => exact ⟨_, by rw [begun, given, Option.map_some], by rw [last]; rfl⟩
    · next given internal =>
      refine .inl ⟨by rw [begun, given, Option.map_none], fun before => unassigned ?_, .inr rfl⟩
      have files : EnvDir.list c.contEnv ≠ [] := by
        intro empty
        rw [empty] at internal
        cases internal
      have there : c.contEnv.isSome := by
        cases contEnv : c.contEnv with
        | none => exact absurd (congrArg EnvDir.list contEnv) files
        | some dir => rfl
      obtain stage | min | flist | ⟨turned, -⟩ := before
      exacts [.inr (.inl (.inl stage)), .inl min, .inr (.inl (.inr (.inl ⟨there, .inl flist⟩))),
        .inr (.inl (.inr (.inr ⟨files, turned⟩)))]
    · trivial

end Kept

/-- The supervisor finds the values there should be, for the given variables and for those that
nothing sets. -/
def Resolved (shell : Beginning) (c : Container) (env' : Str → Option Str) : Prop :=
  ∀ v, v ≠ "PATH".toList → resolve c v ≠ none ∨ shell.vars c.env v = none → env' v = resolve c v

/-- The supervisor of a container finds what it should exactly if every variable is kept. -/
theorem environment_resolved_iff (echo : Str → Str) (shell : Beginning) (c : Container)
    (named : c.Named) (env' : Str → Option Str)
    (run : cinitEnvironment echo shell c = some env') :
    Resolved shell c env' ↔ ∀ v, v ≠ "PATH".toList → c.Kept shell v := by
  obtain ⟨sh, hinit, rfl⟩ := Option.map_eq_some_iff.mp run
  rw [init_vars hinit]
  constructor
  · intro resolved v other
    cases should : resolve c v with
    | none => exact kept_of_nothing should
    | some value =>
        rw [← environment_eq_iff_kept named other should, ← should]
        exact resolved v other (.inl (by simp [should]))
  · intro kept v other given
    cases should : resolve c v with
    | none =>
        exact environment_of_nothing named other should
          (given.resolve_left fun some => some should)
    | some value => exact (environment_eq_iff_kept named other should).mpr (kept v other)

/-- A shell that always sets `IFS`, and `PS4` when it is not given. -/
def ash : Beginning where
  vars env n :=
    if n = "IFS".toList then reassign ((env n).map Variable.ofEnv) (some " \t\n".toList)
    else if n = "PS4".toList ∧ env n = none then some ⟨"+ ".toList, false⟩
    else (env n).map Variable.ofEnv
  exports env n _ given := by
    obtain ⟨x, hx⟩ := Option.ne_none_iff_exists'.mp given
    simp only [hx, reduceCtorEq, and_false, if_false]
    split
    · exact ⟨_, rfl⟩
    · exact ⟨x, rfl⟩
  home env := by
    rw [if_neg (by decide), if_neg fun h => absurd h.1 (by decide)]

/-- A container without secrets, with a public variable that is assigned to where there are some. -/
def application : Container where
  env n := [("USER_ID".toList, "1000".toList), ("GROUP_ID".toList, "1000".toList),
    ("PS4".toList, "> ".toList), ("env_var_name".toList, "foo".toList)].lookup n
  contEnv := some { files := [⟨"APP_NAME".toList, "xterm\n".toList⟩] }
  secrets := none
  mktemp _ := "/tmp/list".toList
  removable _ := false
  contInit := true

theorem mem_of_lookup {n : Str} {pairs : List (Str × Str)} (h : pairs.lookup n ≠ none) :
    n ∈ pairs.map Prod.fst := by
  by_contra absent
  apply h
  rw [List.lookup_eq_none_iff]
  intro pair member
  simp only [bne_iff_ne]
  rintro rfl
  exact absent (List.mem_map_of_mem member)

theorem application_named : application.Named where
  env n given := by
    have names : ∀ m ∈ ["USER_ID".toList, "GROUP_ID".toList, "PS4".toList, "env_var_name".toList],
      Identifier m := by decide
    exact names n (mem_of_lookup given)
  files := by
    show ∀ file ∈ [_], _
    simp only [List.forall_mem_singleton]
    decide

theorem application_kept (v : Str) : application.Kept ash v := by
  have begun : ∀ m ∈ ["USER_ID".toList, "GROUP_ID".toList, "PS4".toList, "env_var_name".toList,
      "APP_NAME".toList], ¬ application.Assigns m ∧
        ash.vars application.env m = (application.env m).map Variable.ofEnv := by decide
  by_cases given : v ∈ ["USER_ID".toList, "GROUP_ID".toList, "PS4".toList, "env_var_name".toList,
    "APP_NAME".toList]
  · exact kept_of_unassigned application_named (begun v given).1 (begun v given).2
  · have unset : application.env v = none := by
      by_contra set
      exact given (List.mem_append_left ["APP_NAME".toList] (mem_of_lookup set))
    have internal : lineFor (EnvDir.list application.contEnv) v = none :=
      lineFor_eq_none fun member => given (List.mem_append_right
        ["USER_ID".toList, "GROUP_ID".toList, "PS4".toList, "env_var_name".toList] member)
    apply kept_of_nothing
    rw [resolve, unset, internal, ite_self]
    rfl

/-- The public `env_var_name` and `PS4` are kept. -/
theorem environment_resolved_iff_application :
    (cinitEnvironment (fun s => s ++ ['\n']) ash application).bind
      (fun env' => env' "env_var_name".toList) = some "foo".toList ∧
    ∀ env', cinitEnvironment (fun s => s ++ ['\n']) ash application = some env' →
      Resolved ash application env' :=
  ⟨by rfl, fun env' run => (environment_resolved_iff _ ash application application_named env'
    run).mpr fun v _ => application_kept v⟩

/-- A container that is configured with `STAGE=production`. -/
def production : Container where
  env n := [("USER_ID".toList, "1000".toList), ("GROUP_ID".toList, "1000".toList),
    ("STAGE".toList, "production".toList)].lookup n
  contEnv := some { files := [⟨"APP_NAME".toList, "xterm\n".toList⟩] }
  secrets := none
  mktemp _ := "/tmp/list".toList
  removable _ := false
  contInit := true

theorem production_named : production.Named where
  env n given := by
    have names : ∀ m ∈ ["USER_ID".toList, "GROUP_ID".toList, "STAGE".toList], Identifier m := by
      decide
    exact names n (mem_of_lookup given)
  files := by
    show ∀ file ∈ [_], _
    simp only [List.forall_mem_singleton]
    decide

/-- The supervisor does not find the value of a public variable. -/
theorem public_stage_lost :
    production.Named ∧ ∃ env',
      cinitEnvironment (fun s => s ++ ['\n']) ash production = some env' ∧
        ¬ Resolved ash production env' ∧ env' "STAGE".toList = some "init".toList ∧
        resolve production "STAGE".toList = some "production".toList := by
  refine ⟨production_named, _, rfl, ?_, by rfl, by decide⟩
  intro resolved
  have found : _ = some "production".toList :=
    resolved "STAGE".toList (by decide) (.inl (by decide))
  exact absurd found (by decide)

end Baseimage.Startup
