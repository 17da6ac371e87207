import Baseimage.Startup.Init

/-!
# What the loops of `/init` do to a variable

Each turn of a loop over the files of a directory assigns to some variables of the script and then
loads the variable of its file. Both happen in the same shell. A variable that the script does not
use is only loaded, once at most. One that it uses is assigned to in every turn, whether it was
given to the container or not, so that it has what was last assigned to it, unless it was loaded
since.
-/

namespace Baseimage.Startup

open Shell Variables

/-- The variables the script assigns to. -/
def workingVariables : List Str :=
  ["STAGE".toList, "MIN_LOG_PREFIX_LENGTH".toList, "var_name".toList, "var_val".toList,
    "force".toList, "var_test".toList, "flist".toList, "fpath".toList, "fname".toList,
    "env_var_name".toList]

/-- The first line of the file for a variable. -/
def lineFor (files : List EnvFile) (v : Str) : Option Str :=
  (files.find? fun file => file.name == v).map fun file => firstLine file.content

/-- The files of a directory that may not be there. -/
def EnvDir.list : Option EnvDir → List EnvFile
  | none => []
  | some dir => dir.files

instance (vars : Variables) (name val force : Str) : Decidable (Exports vars name val force) :=
  inferInstanceAs (Decidable (_ ∨ _ ∨ _))

section Files

variable {file : EnvFile} {files : List EnvFile} {v : Str}

theorem lineFor_cons_same : lineFor (file :: files) file.name = some (firstLine file.content) := by
  simp [lineFor]

theorem lineFor_cons_other (h : v ≠ file.name) : lineFor (file :: files) v = lineFor files v := by
  rw [lineFor, List.find?_cons_of_neg (by simpa using Ne.symm h), lineFor]

theorem lineFor_eq_none (h : v ∉ files.map EnvFile.name) : lineFor files v = none := by
  simp only [lineFor, Option.map_eq_none_iff, List.find?_eq_none, beq_iff_eq]
  rintro file member rfl
  exact h (List.mem_map_of_mem member)

/-- The file for a variable that has one. -/
theorem exists_file (nodup : (files.map EnvFile.name).Nodup) (h : v ∈ files.map EnvFile.name) :
    ∃ front own back, files = front ++ own :: back ∧ v = own.name ∧
      own.name ∉ front.map EnvFile.name ∧ own.name ∉ back.map EnvFile.name ∧
      lineFor files own.name = some (firstLine own.content) := by
  obtain ⟨own, member, rfl⟩ := List.mem_map.mp h
  obtain ⟨front, back, rfl⟩ := List.append_of_mem member
  rw [List.map_append, List.map_cons, List.nodup_append] at nodup
  obtain ⟨-, back_nodup, apart⟩ := nodup
  have absent : own.name ∉ front.map EnvFile.name :=
    fun inFront => apart _ inFront _ List.mem_cons_self rfl
  refine ⟨front, own, back, rfl, rfl, absent, (List.nodup_cons.mp back_nodup).1, ?_⟩
  induction front with
  | nil => exact lineFor_cons_same
  | cons file front ih =>
      rw [List.map_cons, List.mem_cons, not_or] at absent
      rw [List.cons_append, lineFor_cons_other absent.1]
      exact ih (List.mem_append_right _ List.mem_cons_self) (List.mem_map_of_mem
        (List.mem_append_right _ List.mem_cons_self))
        (fun a ha b hb => apart a (List.mem_cons_of_mem _ ha) b hb) absent.2

theorem EnvDir.list_nodup (dir : Option EnvDir) : ((EnvDir.list dir).map EnvFile.name).Nodup := by
  cases dir with
  | none => exact List.nodup_nil
  | some dir => exact dir.nodup

theorem lineFor_eq_none_iff (nodup : (files.map EnvFile.name).Nodup) :
    lineFor files v = none ↔ v ∉ files.map EnvFile.name := by
  refine ⟨fun none member => ?_, lineFor_eq_none⟩
  obtain ⟨front, own, back, -, rfl, -, -, line⟩ := exists_file nodup member
  rw [none] at line
  cases line

theorem getLast_eq_iff {front back : List EnvFile} {own : EnvFile}
    (inBack : own.name ∉ back.map EnvFile.name) :
    (front ++ own :: back).getLast?.map EnvFile.name ≠ some own.name ↔ back ≠ [] := by
  obtain rfl | ⟨back, last, rfl⟩ := back.eq_nil_or_concat
  · simp
  · simp only [List.concat_eq_append, List.map_append, List.mem_append, List.map_singleton,
      List.mem_singleton, not_or] at inBack
    have concat : front ++ own :: (back ++ [last]) = (front ++ own :: back) ++ [last] := by simp
    rw [List.concat_eq_append, concat, List.getLast?_concat, Option.map_some]
    simp [Ne.symm inBack.2]

theorem head_eq_iff {front back : List EnvFile} {own : EnvFile}
    (inFront : own.name ∉ front.map EnvFile.name) :
    (front ++ own :: back).head?.map EnvFile.name ≠ some own.name ↔ front ≠ [] := by
  cases front with
  | nil => simp
  | cons first front =>
      rw [List.map_cons, List.mem_cons, not_or] at inFront
      simp [Ne.symm inFront.1]

end Files

/-! ## A turn -/

section Turn

variable (dir nameVar force : Str) (vars : Variables) (file : EnvFile)

/-- The variables that `load_env_var` is called with. -/
def beforeLoad : Variables :=
  (vars.assign "fpath".toList (dir ++ file.name)).assign nameVar file.name

/-- A turn of the loop. -/
def turn : Variables :=
  let vars := beforeLoad dir nameVar vars file
  let line := firstLine file.content
  if Exports vars file.name line force then
    (tested vars file.name line force).exportAs file.name line
  else tested vars file.name line force

/-- The variables that it looks at. -/
def atTest : Variables :=
  withArguments (beforeLoad dir nameVar vars file) file.name (firstLine file.content) force

/-- What is assigned to a variable in a turn, up to there. -/
def assignedBeforeTest (v : Str) : Option Str :=
  if v = "force".toList then some force
  else if v = "var_val".toList then some (firstLine file.content)
  else if v = "var_name".toList then some file.name
  else if v = nameVar then some file.name
  else if v = "fpath".toList then some (dir ++ file.name)
  else none

/-- What is assigned to a variable in a turn. -/
def assignedInTurn (v : Str) : Option Str :=
  if v = "var_test".toList then
    some (if (atTest dir nameVar force vars file file.name).isSome then "x".toList else [])
  else assignedBeforeTest dir nameVar force file v

/-- The variables that a turn assigns to. -/
def turnVariables : List Str :=
  ["var_test".toList, "force".toList, "var_val".toList, "var_name".toList, nameVar,
    "fpath".toList]

theorem isSome_assignedBeforeTest {v : Str} :
    (assignedBeforeTest dir nameVar force file v).isSome ↔
      v = "force".toList ∨ v = "var_val".toList ∨ v = "var_name".toList ∨ v = nameVar ∨
        v = "fpath".toList := by
  rw [assignedBeforeTest]
  split_ifs <;> simp only [Option.isSome_some, Option.isSome_none, true_or, or_true, *]
  simp only [or_self, reduceCtorEq]

theorem ne_var_test (other : nameVar ≠ "var_test".toList) {v : Str}
    (h : (assignedBeforeTest dir nameVar force file v).isSome) : v ≠ "var_test".toList := by
  obtain rfl | rfl | rfl | rfl | rfl := (isSome_assignedBeforeTest ..).mp h
  exacts [by decide, by decide, by decide, other, by decide]

theorem isSome_fpath : (assignedBeforeTest dir nameVar force file "fpath".toList).isSome :=
  (isSome_assignedBeforeTest ..).mpr (.inr (.inr (.inr (.inr rfl))))

theorem mem_turnVariables {v : Str} : v ∈ turnVariables nameVar ↔
    v = "var_test".toList ∨ (assignedBeforeTest dir nameVar force file v).isSome := by
  rw [isSome_assignedBeforeTest]
  simp only [turnVariables, List.mem_cons, List.not_mem_nil, or_false]

theorem isSome_assignedInTurn {v : Str} :
    (assignedInTurn dir nameVar force vars file v).isSome ↔ v ∈ turnVariables nameVar := by
  rw [mem_turnVariables dir nameVar force file, assignedInTurn]
  split
  · next test => exact iff_of_true rfl (.inl test)
  · next other => simp only [other, false_or]

theorem ite_orElse {c : Prop} [Decidable c] (x : Str) (o : Option Str) :
    ((if c then some x else none) <|> o) = if c then some x else o := by
  split <;> rfl

theorem isSome_orElse (x y : Option Str) : (x <|> y).isSome ↔ x.isSome ∨ y.isSome := by
  cases x with
  | some value => simp
  | none => simp

theorem atTest_eq_reassign (v : Str) :
    atTest dir nameVar force vars file v =
      reassign (vars v) (assignedBeforeTest dir nameVar force file v) := by
  simp only [atTest, withArguments, beforeLoad, assign_eq_reassign, reassign_reassign, ite_orElse,
    assignedBeforeTest]

theorem tested_eq_reassign (v : Str) :
    tested (beforeLoad dir nameVar vars file) file.name (firstLine file.content) force v =
      reassign (vars v) (assignedInTurn dir nameVar force vars file v) := by
  rw [tested, assign_eq_reassign]
  exact (congrArg (reassign · _) (atTest_eq_reassign dir nameVar force vars file v)).trans
    ((reassign_reassign _ _ _).trans (congrArg _ (ite_orElse _ _)))

/-- A turn loads the variable of its file, or it only assigns. -/
theorem turn_eq (v : Str) :
    turn dir nameVar force vars file v =
      if v = file.name ∧
          (force ≠ [] ∨ atTest dir nameVar force vars file v = none ∨ v = "HOME".toList) then
        some (Variable.ofEnv (firstLine file.content))
      else reassign (vars v) (assignedInTurn dir nameVar force vars file v) := by
  have only := tested_eq_reassign dir nameVar force vars file v
  by_cases exports : Exports (beforeLoad dir nameVar vars file) file.name (firstLine file.content)
    force
  · rw [turn, if_pos exports]
    by_cases same : v = file.name
    · subst same
      rw [exportAs_same, if_pos ⟨rfl, exports⟩]
    · rw [exportAs_other _ same, if_neg fun holds => same holds.1]
      exact only
  · rw [turn, if_neg exports, if_neg]
    · exact only
    · rintro ⟨rfl, holds⟩
      exact exports holds

end Turn

/-! ## A loop -/

section Loop

variable (dir nameVar force : Str)

/-- The turns of the loop over some files. -/
def turns (vars : Variables) (files : List EnvFile) : Variables :=
  files.foldl (turn dir nameVar force) vars

/-- What is last assigned to a variable in the turns. -/
def lastTurn (vars : Variables) (files : List EnvFile) (v : Str) : Option Str :=
  files.getLast?.bind fun file =>
    assignedInTurn dir nameVar force (turns dir nameVar force vars files.dropLast) file v

variable {dir nameVar force} {vars : Variables} {files front back : List EnvFile}
  {file own : EnvFile} {v : Str}

/-- Every turn assigns to the same variables. -/
theorem assignedInTurn_eq_none (h : assignedInTurn dir nameVar force vars file v = none)
    (vars' : Variables) (file' : EnvFile) :
    assignedInTurn dir nameVar force vars' file' v = none := by
  simp only [assignedInTurn, assignedBeforeTest] at h ⊢
  split_ifs at h ⊢
  rfl

theorem turns_append : turns dir nameVar force vars (front ++ back) =
    turns dir nameVar force (turns dir nameVar force vars front) back :=
  List.foldl_append

theorem lastTurn_append : lastTurn dir nameVar force vars (front ++ back) v =
    (lastTurn dir nameVar force (turns dir nameVar force vars front) back v <|>
      lastTurn dir nameVar force vars front v) := by
  obtain rfl | ⟨back, last, rfl⟩ := back.eq_nil_or_concat
  · rw [List.append_nil]
    rfl
  · rw [List.concat_eq_append, ← List.append_assoc]
    simp only [lastTurn, List.getLast?_concat, Option.bind_some, List.dropLast_concat,
      turns_append]
    cases assigned : assignedInTurn dir nameVar force (turns dir nameVar force
        (turns dir nameVar force vars front) back) last v with
    | some value => rfl
    | none =>
        cases front.getLast? with
        | none => rfl
        | some file => exact (assignedInTurn_eq_none assigned _ file).symm

/-- A variable that has no file is only assigned to. -/
theorem turns_other (vars : Variables) (absent : v ∉ files.map EnvFile.name) :
    turns dir nameVar force vars files v =
      reassign (vars v) (lastTurn dir nameVar force vars files v) := by
  induction files using List.reverseRecOn with
  | nil => rfl
  | append_singleton files file ih =>
      rw [List.map_append, List.mem_append, not_or] at absent
      have other : v ≠ file.name := fun same => absent.2 (by simp [same])
      rw [turns_append, lastTurn_append, ← reassign_reassign, ← ih absent.1]
      exact (turn_eq ..).trans (if_neg fun holds => other holds.1)

/-- The variable of a file is loaded in the turn of the file, or it is only assigned to. -/
theorem turns_own (vars : Variables) (front_absent : own.name ∉ front.map EnvFile.name)
    (back_absent : own.name ∉ back.map EnvFile.name) :
    turns dir nameVar force vars (front ++ own :: back) own.name =
      if force ≠ [] ∨ atTest dir nameVar force (turns dir nameVar force vars front) own
          own.name = none ∨ own.name = "HOME".toList then
        reassign (some (Variable.ofEnv (firstLine own.content)))
          (lastTurn dir nameVar force (turns dir nameVar force vars (front ++ [own])) back own.name)
      else reassign (vars own.name)
        (lastTurn dir nameVar force vars (front ++ own :: back) own.name) := by
  have split : front ++ own :: back = (front ++ [own]) ++ back := by
    rw [List.append_assoc, List.singleton_append]
  have loading : turns dir nameVar force vars (front ++ [own]) own.name =
      if force ≠ [] ∨ atTest dir nameVar force (turns dir nameVar force vars front) own
          own.name = none ∨ own.name = "HOME".toList then
        some (Variable.ofEnv (firstLine own.content))
      else reassign (vars own.name)
        (lastTurn dir nameVar force vars (front ++ [own]) own.name) := by
    rw [turns_append, lastTurn_append, ← reassign_reassign, ← turns_other _ front_absent]
    refine (turn_eq ..).trans ?_
    simp only [true_and]
    rfl
  rw [split, turns_append, turns_other _ back_absent, loading]
  split
  · rfl
  · rw [reassign_reassign, ← lastTurn_append]

/-- What is assigned in a turn does not depend on the variables, but for the test. -/
theorem lastTurn_of_ne (h : v ≠ "var_test".toList) :
    lastTurn dir nameVar force vars files v =
      files.getLast?.bind fun file => assignedBeforeTest dir nameVar force file v := by
  simp only [lastTurn, assignedInTurn, if_neg h]

theorem lastTurn_concat_var_test :
    lastTurn dir nameVar force vars (front ++ [file]) "var_test".toList =
      some (if (atTest dir nameVar force (turns dir nameVar force vars front) file
        file.name).isSome then "x".toList else []) := by
  rw [lastTurn, List.getLast?_concat, Option.bind_some, List.dropLast_concat, assignedInTurn,
    if_pos rfl]

theorem isSome_lastTurn : (lastTurn dir nameVar force vars files v).isSome ↔
    files ≠ [] ∧ v ∈ turnVariables nameVar := by
  obtain rfl | ⟨files, file, rfl⟩ := files.eq_nil_or_concat
  · simp [lastTurn]
  · rw [List.concat_eq_append, lastTurn, List.getLast?_concat, Option.bind_some,
      isSome_assignedInTurn]
    simp

theorem isSome_atTest : (atTest dir nameVar force vars file v).isSome ↔
    (assignedBeforeTest dir nameVar force file v).isSome ∨ (vars v).isSome := by
  rw [atTest_eq_reassign, isSome_reassign, Bool.or_eq_true]

/-- The variables that are set behind a loop. -/
theorem isSome_turns : (turns dir nameVar force vars files v).isSome ↔
    (vars v).isSome ∨ (lastTurn dir nameVar force vars files v).isSome ∨
      v ∈ files.map EnvFile.name := by
  induction files using List.reverseRecOn with
  | nil => simp [turns, lastTurn]
  | append_singleton files file ih =>
      have step : turns dir nameVar force vars (files ++ [file]) v =
          turn dir nameVar force (turns dir nameVar force vars files) file v := by
        rw [turns_append]
        rfl
      have last : lastTurn dir nameVar force vars (files ++ [file]) v =
          (assignedInTurn dir nameVar force (turns dir nameVar force vars files) file v <|>
            lastTurn dir nameVar force vars files v) := lastTurn_append
      rw [step, last, turn_eq, List.map_append, List.mem_append, List.map_singleton,
        List.mem_singleton, isSome_orElse]
      split
      · next own => simp [own.1]
      · next other =>
        rw [isSome_reassign, Bool.or_eq_true]
        by_cases same : v = file.name
        · -- The variable of the file was not loaded, so it was set already.
          have isSet : (atTest dir nameVar force (turns dir nameVar force vars files) file
              v).isSome := by
            rw [Option.isSome_iff_ne_none]
            exact fun unset => other ⟨same, .inr (.inl unset)⟩
          refine iff_of_true ?_ (.inr (.inr (.inr same)))
          obtain assigned | already := isSome_atTest.mp isSet
          · exact .inl ((isSome_assignedInTurn ..).mpr ((mem_turnVariables ..).mpr (.inr assigned)))
          · exact .inr already
        · rw [ih]
          simp only [same, or_false]
          exact or_left_comm.trans (or_congr_right or_assoc.symm)

theorem loadFiles_vars {echo : Str → Str} {sh sh' : InitShell}
    (run : loadFiles echo dir nameVar force files sh = some sh') :
    sh'.vars = (turns dir nameVar force sh.vars files).assign "fpath".toList [] := by
  induction files generalizing sh with
  | nil =>
      obtain rfl := Option.some.inj run
      rfl
  | cons file files ih =>
      simp only [loadFiles, InitShell.assign_vars, value_assign_same,
        commandSubstitution_headN1] at run
      obtain ⟨-, run⟩ := Option.ite_none_right_eq_some.mp run
      obtain ⟨next, load, rest⟩ := Option.bind_eq_some_iff.mp run
      have turned : next.vars = turn dir nameVar force sh.vars file := by
        obtain ⟨exports, vars_eq, -⟩ | ⟨exports, vars_eq, -⟩ := loadEnvVar_cases load
        · exact vars_eq.trans (if_pos exports).symm
        · exact vars_eq.trans (if_neg exports).symm
      rw [ih rest, turned]
      rfl

end Loop

/-! ## A stage -/

section Stage

variable (c : Container) (dirPath nameVar force stage : Str)

/-- The variables when the loop of a stage begins. -/
def beforeLoop (vars : Variables) : Variables :=
  (vars.assign "STAGE".toList stage).assign "flist".toList (c.mktemp stage)

/-- The variables that a stage leaves. -/
def stageVars (dir : Option EnvDir) (vars : Variables) : Variables :=
  match dir with
  | none => vars.assign "STAGE".toList stage
  | some dir =>
      (turns dirPath nameVar force (beforeLoop c stage vars) dir.files).assign "fpath".toList []

/-- What a stage last assigns to a variable. What its loop last assigns is given. -/
def stageLast (dir : Option EnvDir) (loop : Option Str) (v : Str) : Option Str :=
  match dir with
  | none => if v = "STAGE".toList then some stage else none
  | some _ =>
      (if v = "fpath".toList then some [] else none) <|> loop <|>
        if v = "flist".toList then some (c.mktemp stage)
        else if v = "STAGE".toList then some stage else none

variable {c dirPath nameVar force stage} {vars : Variables} {dir : EnvDir} {v : Str}

theorem loadStage_vars {echo : Str → Str} {dir : Option EnvDir} {sh sh' : InitShell}
    (run : loadStage c (loadFiles echo dirPath nameVar force) stage dir sh = some sh') :
    sh'.vars = stageVars c dirPath nameVar force stage dir sh.vars := by
  cases dir with
  | none =>
      obtain rfl := Option.some.inj run
      rfl
  | some dir =>
      obtain ⟨next, load, rm⟩ := Option.bind_eq_some_iff.mp run
      obtain ⟨-, same⟩ := Option.ite_none_right_eq_some.mp rm
      obtain rfl := Option.some.inj same
      exact loadFiles_vars load

theorem beforeLoop_eq : beforeLoop c stage vars v =
    reassign (vars v) (if v = "flist".toList then some (c.mktemp stage)
      else if v = "STAGE".toList then some stage else none) := by
  simp only [beforeLoop, assign_eq_reassign, reassign_reassign, ite_orElse]

/-- A variable that has no file is only assigned to. -/
theorem stageVars_other {dir : Option EnvDir} (absent : v ∉ (EnvDir.list dir).map EnvFile.name) :
    stageVars c dirPath nameVar force stage dir vars v =
      reassign (vars v) (stageLast c stage dir
        (lastTurn dirPath nameVar force (beforeLoop c stage vars) (EnvDir.list dir) v) v) := by
  cases dir with
  | none => exact assign_eq_reassign ..
  | some dir =>
      rw [EnvDir.list] at absent ⊢
      rw [stageVars, assign_eq_reassign, turns_other _ absent, beforeLoop_eq]
      simp only [reassign_reassign, stageLast]

/-- The variable of a file is loaded in its turn, or it is only assigned to. -/
theorem stageVars_own {front back : List EnvFile} {own : EnvFile}
    (split : dir.files = front ++ own :: back) (inFront : own.name ∉ front.map EnvFile.name)
    (inBack : own.name ∉ back.map EnvFile.name) :
    stageVars c dirPath nameVar force stage (some dir) vars own.name =
      if force ≠ [] ∨ atTest dirPath nameVar force
          (turns dirPath nameVar force (beforeLoop c stage vars) front) own own.name = none ∨
            own.name = "HOME".toList then
        reassign (some (Variable.ofEnv (firstLine own.content)))
          ((if own.name = "fpath".toList then some [] else none) <|>
            lastTurn dirPath nameVar force (turns dirPath nameVar force (beforeLoop c stage vars)
              (front ++ [own])) back own.name)
      else reassign (vars own.name) (stageLast c stage (some dir)
        (lastTurn dirPath nameVar force (beforeLoop c stage vars) dir.files own.name)
          own.name) := by
  rw [stageVars, split, assign_eq_reassign, turns_own _ inFront inBack]
  by_cases loads : force ≠ [] ∨ atTest dirPath nameVar force
      (turns dirPath nameVar force (beforeLoop c stage vars) front) own own.name = none ∨
        own.name = "HOME".toList
  · rw [if_pos loads, if_pos loads, reassign_reassign]
  · rw [if_neg loads, if_neg loads]
    simp only [beforeLoop_eq, reassign_reassign, stageLast]

theorem stageLast_loop {dir : Option EnvDir} {loop : Option Str}
    (skipped : dir = none → loop = none)
    (hstage : v ≠ "STAGE".toList) (hpath : v ≠ "fpath".toList) (hlist : v ≠ "flist".toList) :
    stageLast c stage dir loop v = loop := by
  cases dir with
  | none => rw [stageLast, if_neg hstage, skipped rfl]
  | some dir =>
      rw [stageLast, if_neg hpath, if_neg hlist, if_neg hstage]
      cases loop <;> rfl

/-- The variables that a stage assigns to. -/
def StageAssigns (nameVar : Str) (dir : Option EnvDir) (v : Str) : Prop :=
  v = "STAGE".toList ∨ dir.isSome ∧ (v = "flist".toList ∨ v = "fpath".toList) ∨
    EnvDir.list dir ≠ [] ∧ v ∈ turnVariables nameVar

theorem isSome_ite {p : Prop} [Decidable p] (x : Str) (o : Option Str) :
    (if p then some x else o).isSome ↔ p ∨ o.isSome := by
  split
  · next h => exact iff_of_true rfl (.inl h)
  · next h => exact (or_iff_right h).symm

theorem isSome_stageLast {dir : Option EnvDir} :
    (stageLast c stage dir (lastTurn dirPath nameVar force vars (EnvDir.list dir) v) v).isSome ↔
      StageAssigns nameVar dir v := by
  cases dir with
  | none => simp [stageLast, StageAssigns, EnvDir.list]
  | some dir =>
      simp only [stageLast, StageAssigns, isSome_orElse, isSome_ite, isSome_lastTurn,
        Option.isSome_none, Option.isSome_some, Bool.false_eq_true, or_false, true_and]
      grind

/-- The variables that are set behind a stage. -/
theorem isSome_stageVars {dir : Option EnvDir} :
    (stageVars c dirPath nameVar force stage dir vars v).isSome ↔
      (vars v).isSome ∨ StageAssigns nameVar dir v ∨ v ∈ (EnvDir.list dir).map EnvFile.name := by
  cases dir with
  | none =>
      simp only [stageVars, assign_eq_reassign, isSome_reassign, Bool.or_eq_true, isSome_ite,
        StageAssigns, EnvDir.list]
      simp [or_comm]
  | some dir =>
      simp only [stageVars, assign_eq_reassign, isSome_reassign, Bool.or_eq_true, isSome_ite,
        isSome_turns, beforeLoop_eq, isSome_lastTurn, StageAssigns, EnvDir.list,
        Option.isSome_none, Option.isSome_some, Bool.false_eq_true, or_false, true_and]
      grind

end Stage

end Baseimage.Startup
