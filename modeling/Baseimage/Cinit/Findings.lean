import Baseimage.Cinit.Service
import Baseimage.Run.Report

/-!
# What is wrong with a service directory

A finding is the first thing in the files of a directory that cannot be accepted, with the text
it is reported with, however long. The files are looked at in the order of `load_service`. The
loaders return where there is no finding, and raise an exception with the text of the finding
where there is one; the exception holds less than 256 bytes.
-/

namespace Baseimage.Cinit

open CString

/-- The first thing that is wrong, if anything is. -/
abbrev Finding := Option (Problem Char)

def finding (text : Str) : Finding := some (.message text)

/-- What a callee finds, as the loader of a file reports it. -/
def Finding.inFile (f : Finding) (filepath : Str) : Finding :=
  f.map (Problem.within (couldNotLoad filepath))

/-- What a conversion of its own text finds. -/
def findingOf {α : Type} : Outcome Str α → Finding
  | .ok _ => none
  | .threw message => finding message
  | .aborted => some .fatal

/-! ## Reading a file -/

/-- `read_file`. -/
def readFinding (sys : System) (node : Node) (buf : Option Str) (bufsize : Nat) : Finding :=
  match node with
  | .file content =>
      match buf with
      | none =>
          if content.length + 1 > maxFileReadSize then finding "file too big".toList
          else if sys.malloc (content.length + 1) then none
          else finding "memory allocation failed".toList
      | some _ =>
          if content.length > bufsize - 1 then finding "buffer too small".toList else none
  | .unopenable strerror => finding ("could not open file".toList ++ strerror)
  | .unreadable strerror => finding ("read failed".toList ++ strerror)
  | .program _ _ => finding "read failed".toList
  | .unreachable strerror => finding ("could not open file".toList ++ strerror)

/-- What the lines a program printed have been put together to. -/
def programOutput (sys : System) (output : List (StdOutput × Str)) (buf : Option Str)
    (bufsize : Nat) : ProcessCmdOutputCtx :=
  output.foldl (fun ctx line => processLine sys ctx line.1 line.2)
    { allocatedBuf := buf.isNone, buf := buf, bufsize := if buf.isNone then 0 else bufsize }

/-- `load_value_as_string`. -/
def textFinding (sys : System) (filepath : Str) (node : Option Node) (buf : Option Str)
    (bufsize : Nat) : Finding :=
  match node with
  | none => none
  | some (.unreachable strerror) =>
      finding (couldNotLoad filepath ("error getting file info: ".toList ++ strerror))
  | some (.program output code) =>
      if code ≠ 0 then
        finding (couldNotLoad filepath ("command failed (".toList ++ decimal code ++ ")".toList))
      else
        match (programOutput sys output buf bufsize).err with
        | some err =>
            finding (couldNotLoad filepath
              ("command output handling failed: ".toList ++ sys.strerror err))
        | none => none
  | some node => Finding.inFile (readFinding sys node buf bufsize) filepath

/-! ## Values -/

/-- The typed loaders, by what the conversion of the text finds. -/
def valueFinding (bufsize : Nat) (find : Str → Finding) (sys : System) (filepath : Str)
    (node : Option Node) (stack : Str) : Finding :=
  textFinding sys filepath node (some stack) bufsize <|>
    match loadValueAsString sys filepath node (some stack) bufsize with
    | .ok (true, text) => (find (trim (terminateAtFirstEol (text.getD [])))).inFile filepath
    | _ => none

/-- `load_value_as_bool`: an empty text is a value. -/
def boolFinding (text : Str) : Finding :=
  if text.length = 0 then none else findingOf (stringToBool text)

/-- `string_to_uid` and `string_to_gid`: an account that is not known is reported with its
name. -/
def accountFinding (lookup : Str → Option Nat) (unknown : Str) (text : Str) : Finding :=
  if digitsOnly text then findingOf (stringToUint text)
  else
    match lookup text with
    | none => finding (unknown ++ text ++ "'".toList)
    | some _ => none

def userFinding (sys : System) : Str → Finding :=
  accountFinding sys.getpwnam "unknown user '".toList

def groupFinding (sys : System) : Str → Finding :=
  accountFinding sys.getgrnam "unknown group '".toList

/-! ## Lists -/

/-- The lines of a file one by one. What is found in a line may depend on how many items there
are already. -/
def linesFinding (find : Nat → Str → Finding) : List Str → Nat → Finding
  | [], _ => none
  | line :: lines, count =>
      if line.length > 0 then find count line <|> linesFinding find lines (count + 1)
      else linesFinding find lines count

def listFinding (sys : System) (filepath : Str) (node : Option Node) (size : Nat) (tooMuch : Str)
    (find : Nat → Str → Finding) (count : Nat) : Finding :=
  textFinding sys filepath node none 0 <|>
    match loadValueAsString sys filepath node none 0 with
    | .ok (_, some buf) =>
        let lines := split '\n' (trim (removeAllChar '\r' buf))
        Finding.inFile
          (if sys.malloc (8 * lines.length) = false then finding "out of memory".toList
          else if lines.length > size then finding tooMuch
          else linesFinding find lines count) filepath
    | _ => none

def strdupFinding (sys : System) (s : Str) : Finding :=
  if sys.malloc (s.length + 1) then none else finding "out of memory".toList

def variableFinding (sys : System) (line : Str) : Finding :=
  findingOf (checkVariable line) <|> strdupFinding sys line

/-- A supplementary group. There is room for so many, the default ones included. -/
def sgidFinding (sys : System) (count : Nat) (line : Str) : Finding :=
  groupFinding sys line <|> if count < serviceSgidListSize then none else some .fatal

/-! ## The directory -/

/-- The value a loader set, or else the default. -/
def settled {α : Type} (x : Outcome Str (Option α)) (default : α) : α :=
  (x.toOption.bind id).getD default

/-- The part of `load_service` between `Try` and `Catch`. -/
def settingsFinding (sys : System) (defaults : ServiceDefaults) (dir : ServiceDir)
    (stack : Str → Str) : Finding :=
  let value (bufsize : Nat) (find : Str → Finding) (file : String) : Finding :=
    valueFinding bufsize find sys file.toList (dir.lookup file.toList) (stack file.toList)
  let list (file : String) (size : Nat) (tooMuch : String) (find : Nat → Str → Finding)
      (count : Nat) : Finding :=
    listFinding sys file.toList (dir.lookup file.toList) size tooMuch.toList find count
  let bool (file : String) : Outcome Str (Option Bool) :=
    loadValueAsBool sys file.toList (dir.lookup file.toList) (stack file.toList)
  let interval := loadValueAsInterval sys "interval".toList (dir.lookup "interval".toList)
    (stack "interval".toList)
  value 32 boolFinding "disabled" <|>
  if (dir.lookup "run".toList).isNone = true ∨ settled (bool "disabled") false = true then none
  else
    (if dir.runExecutable = false then finding "run file not executable".toList else none) <|>
    (match dir.runPath with
      | .ok _ => none
      | .error strerror => finding ("could not get realpath of run program".toList ++ strerror)) <|>
    list "params" maxNumServiceRunParams "too much parameters" (fun _ => strdupFinding sys) 0 <|>
    list "environment" maxNumServiceEnvVars "too much environment variables"
      (fun _ => variableFinding sys) 0 <|>
    list "environment_extra" maxNumServiceEnvVars "too much environment variables"
      (fun _ => variableFinding sys) 0 <|>
    value 256 (userFinding sys) "uid" <|>
    value 256 (groupFinding sys) "gid" <|>
    list "sgid" serviceSgidListSize "too much supplementary groups" (sgidFinding sys)
      defaults.sgidList.length <|>
    value 256 (fun text => findingOf (stringToMode text)) "umask" <|>
    value 128 (fun text => findingOf (stringToInt text)) "priority" <|>
    textFinding sys "workdir".toList (dir.lookup "workdir".toList) (some []) serviceNameSize <|>
    value 32 boolFinding "respawn" <|>
    value 32 boolFinding "sync" <|>
    value 32 boolFinding "ignore_failure" <|>
    value 32 boolFinding "shutdown_on_terminate" <|>
    value 128 (fun text => findingOf (stringToUint text)) "min_running_time" <|>
    value 128 (fun text => findingOf (stringToUint text)) "ready_timeout" <|>
    value 128 (fun text => findingOf (stringToInterval text)) "interval" <|>
    if settled (bool "respawn") false = true ∧ settled (bool "sync") false = true then
      finding "'respawn' and 'sync' flags are exclusive".toList
    else if settled (bool "respawn") false = true ∧ settled interval 0 > 0 then
      finding "interval cannot be used with respawned service".toList
    else none

/-! ## The loaders raise what is found -/

section Reports

variable {α β : Type} {sys : System} {filepath : Str} {node : Option Node}

theorem reports_throwMessage (text : Str) :
    Reports maxMessage (throwMessage text : Outcome Str α) (finding text) := rfl

theorem reports_ite {c : Prop} [Decidable c] {x y : Outcome Str α} {p q : Finding}
    (yes : c → Reports maxMessage x p) (no : ¬ c → Reports maxMessage y q) :
    Reports maxMessage (if c then x else y) (if c then p else q) := by
  split
  · next h => exact yes h
  · next h => exact no h

theorem couldNotLoad_longer (filepath text : Str) :
    text.length ≤ (couldNotLoad filepath text).length :=
  (List.suffix_append _ text).length_le

/-- A loader catches what its parts throw and adds the name of the file. -/
theorem reports_inFile {x : Outcome Str α} {p : Finding} (h : Reports maxMessage x p)
    (filepath : Str) :
    Reports maxMessage (x.handle fun message => throwMessage (couldNotLoad filepath message))
      (p.inFile filepath) :=
  h.handle (couldNotLoad_longer filepath)

/-- Code that only throws messages that fit. -/
def Raises (x : Outcome Str α) : Prop := ∀ text, x = .threw text → text.length < maxMessage

theorem Raises.ok (a : α) : Raises (.ok a) := nofun

theorem Raises.throwMessage (text : Str) : Raises (throwMessage text : Outcome Str α) := by
  intro text' h
  unfold Cinit.throwMessage at h
  split at h
  · next fits => cases h; exact fits
  · cases h

theorem reports_findingOf {x : Outcome Str α} (h : Raises x) :
    Reports maxMessage x (findingOf x) := by
  cases x with
  | ok a => exact Reports.ok a
  | threw text => exact (if_pos (h text rfl)).symm
  | aborted => rfl

theorem stringToBool_raises (text : Str) : Raises (stringToBool text) := by
  unfold stringToBool
  split
  · exact .ok _
  · split
    · exact .ok _
    · exact .throwMessage _

theorem stringToInt_raises (text : Str) : Raises (stringToInt text) := by
  unfold stringToInt
  split
  · exact .throwMessage _
  · split
    · exact .throwMessage _
    · split
      · exact .throwMessage _
      · split
        · exact .throwMessage _
        · exact .ok _

theorem stringToUint_raises (text : Str) : Raises (stringToUint text) := by
  unfold stringToUint
  split
  · exact .throwMessage _
  · split
    · exact .throwMessage _
    · split
      · exact .throwMessage _
      · split
        · exact .throwMessage _
        · exact .ok _

theorem stringToInterval_raises (text : Str) : Raises (stringToInterval text) := by
  unfold stringToInterval
  split
  · exact .ok _
  · split
    · exact .ok _
    · split
      · exact .ok _
      · split
        · exact .ok _
        · split
          · exact .ok _
          · exact stringToUint_raises text

theorem stringToMode_raises (text : Str) : Raises (stringToMode text) := by
  unfold stringToMode
  split
  · exact .throwMessage _
  · split
    · exact .throwMessage _
    · split
      · exact .throwMessage _
      · split
        · exact .throwMessage _
        · split
          · exact .throwMessage _
          · exact .ok _

theorem checkVariable_raises (line : Str) : Raises (checkVariable line) := by
  unfold checkVariable
  split
  · exact .throwMessage _
  · split
    · exact .throwMessage _
    · split
      · exact .ok _
      · exact .throwMessage _

theorem stringToUid_reports (text : Str) :
    Reports maxMessage (stringToUid sys text) (userFinding sys text) := by
  refine reports_ite (fun _ => reports_findingOf (stringToUint_raises text)) fun _ => ?_
  cases sys.getpwnam text with
  | none => exact reports_throwMessage _
  | some uid => exact Reports.ok uid

theorem stringToGid_reports (text : Str) :
    Reports maxMessage (stringToGid sys text) (groupFinding sys text) := by
  refine reports_ite (fun _ => reports_findingOf (stringToUint_raises text)) fun _ => ?_
  cases sys.getgrnam text with
  | none => exact reports_throwMessage _
  | some gid => exact Reports.ok gid

theorem readFile_reports (node : Node) (buf : Option Str) (bufsize : Nat) :
    Reports maxMessage (readFile sys node buf bufsize) (readFinding sys node buf bufsize) := by
  cases node with
  | file content =>
      cases buf with
      | none =>
          refine reports_ite (fun _ => reports_throwMessage _) fun _ => ?_
          exact reports_ite (fun _ => Reports.ok _) fun _ => reports_throwMessage _
      | some buf => exact reports_ite (fun _ => reports_throwMessage _) fun _ => Reports.ok _
  | program output code => exact reports_throwMessage _
  | unopenable strerror => exact reports_throwMessage _
  | unreadable strerror => exact reports_throwMessage _
  | unreachable strerror => exact reports_throwMessage _

theorem loadValueAsString_reports (node : Option Node) (buf : Option Str) (bufsize : Nat) :
    Reports maxMessage (loadValueAsString sys filepath node buf bufsize)
      (textFinding sys filepath node buf bufsize) := by
  have read (node : Node) :
      Reports maxMessage
        (((readFile sys node buf bufsize) >>= fun text =>
            (.ok (true, some text) : Outcome Str (Bool × Option Str))).handle
          fun message => throwMessage (couldNotLoad filepath message))
        (Finding.inFile (readFinding sys node buf bufsize) filepath) := by
    apply reports_inFile
    exact (readFile_reports node buf bufsize).map fun text _ => ⟨_, rfl⟩
  cases node with
  | none => exact Reports.ok _
  | some node =>
      cases node with
      | unreachable strerror => exact reports_throwMessage _
      | program output code =>
          refine reports_ite (fun _ => reports_throwMessage _) fun _ => ?_
          show Reports maxMessage (match (programOutput sys output buf bufsize).err with
            | some err => throwMessage _
            | none => .ok (true, (programOutput sys output buf bufsize).buf)) _
          cases (programOutput sys output buf bufsize).err with
          | none => exact Reports.ok _
          | some err => exact reports_throwMessage _
      | file content => exact read _
      | unopenable strerror => exact read _
      | unreadable strerror => exact read _

theorem loadValueAs_reports {bufsize : Nat} {convert : Str → Outcome Str α} {find : Str → Finding}
    (h : ∀ text, Reports maxMessage (convert text) (find text)) (stack : Str) :
    Reports maxMessage (loadValueAs bufsize convert sys filepath node stack)
      (valueFinding bufsize find sys filepath node stack) := by
  apply (loadValueAsString_reports node (some stack) bufsize).bind
  rintro ⟨set, text⟩ loaded
  rw [loaded]
  cases set with
  | false => exact Reports.ok _
  | true =>
      apply reports_inFile
      exact (h _).map fun value _ => ⟨_, rfl⟩

theorem loadValueAsBool_reports (stack : Str) :
    Reports maxMessage (loadValueAsBool sys filepath node stack)
      (valueFinding 32 boolFinding sys filepath node stack) := by
  apply loadValueAs_reports
  intro text
  exact reports_ite (fun _ => Reports.ok true) fun _ => reports_findingOf (stringToBool_raises text)

/-- What taking one line finds, when there are so many items already. -/
structure Accepts (accept : List α → Str → Outcome Str (List α)) (find : Nat → Str → Finding) :
    Prop where
  reports : ∀ list line, Reports maxMessage (accept list line) (find list.length line)
  one : ∀ list line longer, accept list line = .ok longer → longer.length = list.length + 1

theorem acceptLines_reports {accept : List α → Str → Outcome Str (List α)}
    {find : Nat → Str → Finding} (h : Accepts accept find) (lines : List Str) (list : List α) :
    Reports maxMessage (acceptLines accept lines list) (linesFinding find lines list.length) := by
  induction lines generalizing list with
  | nil => exact Reports.ok list
  | cons line lines ih =>
      refine reports_ite (fun _ => ?_) fun _ => ih list
      apply (h.reports list line).bind
      intro longer accepted
      rw [← h.one list line longer accepted]
      exact ih longer

theorem loadList_reports {accept : List α → Str → Outcome Str (List α)}
    {find : Nat → Str → Finding} (h : Accepts accept find) (size : Nat) (tooMuch : Str)
    (initial : List α) :
    Reports maxMessage (loadList sys filepath node size tooMuch accept initial)
      (listFinding sys filepath node size tooMuch find initial.length) := by
  apply (loadValueAsString_reports node none 0).bind
  rintro ⟨set, text⟩ loaded
  rw [loaded]
  cases text with
  | none => exact Reports.ok _
  | some buf =>
      apply reports_inFile
      refine Reports.map (reports_ite (fun _ => reports_throwMessage _) fun _ => ?_)
        fun list _ => ⟨_, rfl⟩
      exact reports_ite (fun _ => reports_throwMessage _) fun _ => acceptLines_reports h _ initial

theorem strdup_reports (text : Str) :
    Reports maxMessage (strdup sys text) (strdupFinding sys text) :=
  reports_ite (fun _ => Reports.ok text) fun _ => reports_throwMessage _

theorem bind_append_length {x : Outcome Str β} {list longer : List β}
    (h : (x >>= fun item => (.ok (list ++ [item]) : Outcome Str (List β))) = .ok longer) :
    longer.length = list.length + 1 := by
  obtain ⟨item, -, same⟩ := Outcome.bind_eq_ok_iff.mp h
  cases same
  exact List.length_append

theorem acceptParam_accepts : Accepts (acceptParam sys) (fun _ => strdupFinding sys) where
  reports _ line := (strdup_reports line).map fun _ _ => ⟨_, rfl⟩
  one _ _ _ h := bind_append_length h

theorem acceptVariable_accepts : Accepts (acceptVariable sys) (fun _ => variableFinding sys) where
  reports list line := by
    apply (reports_findingOf (checkVariable_raises line)).bind
    intro _ _
    exact (strdup_reports line).map fun entry _ => ⟨_, rfl⟩
  one list line longer h := by
    obtain ⟨_, -, rest⟩ := Outcome.bind_eq_ok_iff.mp h
    exact bind_append_length rest

theorem acceptGroup_accepts : Accepts (acceptGroup sys) (sgidFinding sys) where
  reports list line := by
    apply (stringToGid_reports line).bind
    intro gid _
    refine reports_ite (fun _ => Reports.ok _) fun _ => ?_
    exact Reports.raise .fatal
  one list line longer h := by
    obtain ⟨gid, -, rest⟩ := Outcome.bind_eq_ok_iff.mp h
    split at rest
    · cases rest
      exact List.length_append
    · cases rest

theorem settled_ok (value : Option α) (default : α) :
    settled (.ok value) default = value.getD default := rfl

/-- `load_service` reports the first thing that is wrong with the directory. -/
theorem loadSettings_reports (defaults : ServiceDefaults) (dir : ServiceDir) (stack : Str → Str)
    (name : Str) :
    Reports maxMessage (loadSettings sys defaults dir stack name)
      (settingsFinding sys defaults dir stack) := by
  have bool (file : String) : Reports maxMessage
      (loadValueAsBool sys file.toList (dir.lookup file.toList) (stack file.toList))
      (valueFinding 32 boolFinding sys file.toList (dir.lookup file.toList) (stack file.toList)) :=
    loadValueAsBool_reports (stack file.toList)
  unfold loadSettings settingsFinding
  apply (bool "disabled").bind
  intro disabled hdisabled
  simp only [hdisabled, settled_ok]
  refine reports_ite (fun _ => Reports.ok _) fun _ => ?_
  have thrown {γ : Type} {text : Str} {f : γ → Outcome Str Service} {p : Finding}
      (h : p = finding text) : Reports maxMessage (throwMessage text >>= f) p := by
    rw [h]
    exact (reports_throwMessage text).map fun a h => absurd h (throwMessage_ne_ok text a)
  cases exec : dir.runExecutable with
  | false => exact thrown rfl
  | true =>
      cases path : dir.runPath with
      | error strerror => exact thrown rfl
      | ok path =>
          simp only [Bool.true_eq_false, if_false, Outcome.ok_bind]
          refine (loadList_reports acceptParam_accepts _ _ []).bind fun params _ => ?_
          refine (loadList_reports acceptVariable_accepts _ _ []).bind fun environment _ => ?_
          refine (loadList_reports acceptVariable_accepts _ _ []).bind fun environmentExtra _ => ?_
          refine (loadValueAs_reports stringToUid_reports _).bind fun uid _ => ?_
          refine (loadValueAs_reports stringToGid_reports _).bind fun gid _ => ?_
          refine (loadList_reports acceptGroup_accepts _ _ _).bind fun sgidList _ => ?_
          refine (loadValueAs_reports (fun text => reports_findingOf (stringToMode_raises text))
            _).bind fun umask _ => ?_
          refine (loadValueAs_reports (fun text => reports_findingOf (stringToInt_raises text))
            _).bind fun priority _ => ?_
          refine (loadValueAsString_reports _ _ _).bind fun workdir _ => ?_
          refine (bool "respawn").bind fun respawn hrespawn => ?_
          refine (bool "sync").bind fun sync hsync => ?_
          refine (bool "ignore_failure").bind fun ignoreFailure _ => ?_
          refine (bool "shutdown_on_terminate").bind fun shutdownOnTerminate _ => ?_
          refine (loadValueAs_reports (fun text => reports_findingOf (stringToUint_raises text))
            _).bind fun minRunningTime _ => ?_
          refine (loadValueAs_reports (fun text => reports_findingOf (stringToUint_raises text))
            _).bind fun readyTimeout _ => ?_
          refine Reports.bind (x := loadValueAsInterval _ _ _ _) (loadValueAs_reports
            (fun text => reports_findingOf (stringToInterval_raises text)) _)
            fun interval hinterval => ?_
          simp only [hrespawn, hsync, hinterval, settled_ok]
          refine reports_ite (fun _ => reports_throwMessage _) fun _ => ?_
          exact reports_ite (fun _ => reports_throwMessage _) fun _ => Reports.ok _

end Reports

end Baseimage.Cinit
