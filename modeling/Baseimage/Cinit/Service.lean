import Baseimage.Cinit.Values

/-!
# Service definitions

A service is a directory under the services root, and `load_service` fills an entry of the
service table from its files. The model of a directory has what the supervisor looks at: the
entries in the order `readdir` returns them, and what `access` and `realpath` say about `run`.
-/

namespace Baseimage.Cinit

/-- `MAX_NUM_SERVICE_RUN_PARAMS`. -/
def maxNumServiceRunParams : Nat := 32

/-- `MAX_NUM_SERVICE_ENV_VARS`. -/
def maxNumServiceEnvVars : Nat := 32

/-- `SERVICE_SGID_LIST_SIZE`. -/
def serviceSgidListSize : Nat := 32

/-- `SERVICE_DEFAULT_MIN_RUNNING_TIME`. -/
def serviceDefaultMinRunningTime : Nat := 500

/-- `MEMBER_SIZE(service_t, name)`. -/
def serviceNameSize : Nat := 256

/-- Why `chdir` fails. -/
inductive ChdirError where
  | enoent
  | eacces
  | other (strerror : Str)
  deriving DecidableEq, Repr

/-- The message of `chdir_to_service`. -/
def ChdirError.message : ChdirError → Str
  | .enoent => "service directory not found".toList
  | .eacces => "permission denied on service directory".toList
  | .other strerror => "could not access service directory".toList ++ strerror

theorem ChdirError.message_length (strerror : Str) :
    (ChdirError.other strerror).message.length = 34 + strerror.length :=
  CString.length_append_of (by decide +kernel) rfl

/-- A directory entry. The node is what following the name leads to. -/
structure DirEntry where
  dName : Str
  /-- `d_type == DT_REG`. -/
  isReg : Bool
  node : Option Node
  deriving DecidableEq, Repr

/-- A service directory. No two of its entries have the same name. -/
structure ServiceDir where
  entries : List DirEntry
  nodup : (entries.map DirEntry.dName).Nodup := by decide
  /-- `access("run", X_OK) == 0`. -/
  runExecutable : Bool := true
  /-- `realpath("run", NULL)`, or the error. -/
  runPath : Except Str Str := .ok []

/-- What a name leads to in the directory. -/
def ServiceDir.lookup (dir : ServiceDir) (name : Str) : Option Node :=
  (dir.entries.find? (fun entry => entry.dName == name)).bind DirEntry.node

/-- The settings of an entry of the service table. `environment` may hold a null pointer. -/
structure Service where
  name : Str
  disabled : Bool := false
  isServiceGroup : Bool := false
  runAbsPath : Option Str := none
  paramList : List Str := []
  environment : List (Option Str) := []
  environmentExtra : List Str := []
  uid : Nat
  gid : Nat
  sgidList : List Nat
  umask : Nat
  priority : Int := 0
  workingDirectory : Str := []
  respawn : Bool := false
  sync : Bool := false
  ignoreFailure : Bool := false
  shutdownOnTerminate : Bool := false
  minRunningTime : Nat := serviceDefaultMinRunningTime
  readyTimeout : Nat
  interval : Nat := 0

/-- The defaults for services in `g_ctx`. -/
structure ServiceDefaults where
  uid : Nat := 1000
  gid : Nat := 1000
  sgidList : List Nat := []
  umask : Nat := 18
  readyTimeout : Nat := 10000

/-- The initialization of an entry. -/
def Service.init (defaults : ServiceDefaults) (name : Str) : Service :=
  { name := name
    uid := defaults.uid
    gid := defaults.gid
    sgidList := defaults.sgidList
    umask := defaults.umask
    readyTimeout := defaults.readyTimeout }

/-- Copy a string with `strdup`. -/
def strdup (sys : System) (s : Str) : Outcome Str Str :=
  if sys.malloc (s.length + 1) then .ok s else throwMessage "out of memory".toList

/-- Take the lines of a file one by one; empty lines are skipped. -/
def acceptLines {α : Type} (accept : List α → Str → Outcome Str (List α)) :
    List Str → List α → Outcome Str (List α)
  | [], list => .ok list
  | line :: lines, list =>
      if line.length > 0 then
        accept list line >>= fun longer => acceptLines accept lines longer
      else acceptLines accept lines list

/-- The loading of a file that holds a list, one item for each line: `none` when there is no
file, otherwise the initial list with the items of the file behind it. -/
def loadList {α : Type} (sys : System) (filepath : Str) (node : Option Node) (size : Nat)
    (tooMuch : Str) (accept : List α → Str → Outcome Str (List α)) (initial : List α) :
    Outcome Str (Option (List α)) :=
  loadValueAsString sys filepath node none 0 >>= fun loaded =>
    match loaded.2 with
    | none => .ok none
    | some buf =>
        let lines := split '\n' (trim (removeAllChar '\r' buf))
        let items :=
          if sys.malloc (8 * lines.length) = false then throwMessage "out of memory".toList
          else if lines.length > size then throwMessage tooMuch
          else acceptLines accept lines initial
        (items >>= fun list => .ok (some list)).handle
          (fun message => throwMessage (couldNotLoad filepath message))

/-- A parameter of the run program. -/
def acceptParam (sys : System) (list : List Str) (line : Str) : Outcome Str (List Str) :=
  strdup sys line >>= fun param => .ok (list ++ [param])

/-- The check of a line of `environment` and of `environment_extra`. -/
def checkVariable (line : Str) : Outcome Str Unit :=
  match CString.strchr '=' line with
  | none => throwMessage "invalid environment variable format".toList
  | some (name, _) =>
      if (line.head?.map isdigit).getD false then
        throwMessage "invalid environment variable name".toList
      else if name.all (fun c => isalnum c || c == '_') then .ok ()
      else throwMessage "invalid environment variable name".toList

def acceptVariable (sys : System) (list : List Str) (line : Str) : Outcome Str (List Str) :=
  checkVariable line >>= fun _ => strdup sys line >>= fun entry => .ok (list ++ [entry])

/-- A supplementary group. The list grows behind the default groups, and a write beyond its end
is undefined: the model ends there. -/
def acceptGroup (sys : System) (list : List Nat) (line : Str) : Outcome Str (List Nat) :=
  stringToGid sys line >>= fun gid =>
    if list.length < serviceSgidListSize then .ok (list ++ [gid]) else .aborted

/-- The part of `load_service` between `Try` and `Catch`, in the directory of the service.
`stack` is what the buffer of a loader holds when it loads a file. -/
def loadSettings (sys : System) (defaults : ServiceDefaults) (dir : ServiceDir)
    (stack : Str → Str) (name : Str) : Outcome Str Service := do
  let bool := fun file : String =>
    loadValueAsBool sys file.toList (dir.lookup file.toList) (stack file.toList)
  let init := Service.init defaults name
  let isServiceGroup := (dir.lookup "run".toList).isNone
  let disabled ← bool "disabled"
  let srv := { init with isServiceGroup := isServiceGroup, disabled := disabled.getD false }
  if srv.isServiceGroup ∨ srv.disabled then return srv
  if dir.runExecutable = false then throwMessage "run file not executable".toList
  let runAbsPath ← match dir.runPath with
    | .ok path => Outcome.ok path
    | .error strerror =>
        throwMessage ("could not get realpath of run program".toList ++ strerror)
  let params ← loadList sys "params".toList (dir.lookup "params".toList) maxNumServiceRunParams
    "too much parameters".toList (acceptParam sys) []
  let environment ← loadList sys "environment".toList (dir.lookup "environment".toList)
    maxNumServiceEnvVars "too much environment variables".toList (acceptVariable sys) []
  let environmentExtra ← loadList sys "environment_extra".toList
    (dir.lookup "environment_extra".toList) maxNumServiceEnvVars
    "too much environment variables".toList (acceptVariable sys) []
  let uid ← loadValueAsUid sys "uid".toList (dir.lookup "uid".toList) (stack "uid".toList)
  let gid ← loadValueAsGid sys "gid".toList (dir.lookup "gid".toList) (stack "gid".toList)
  let sgidList ← loadList sys "sgid".toList (dir.lookup "sgid".toList) serviceSgidListSize
    "too much supplementary groups".toList (acceptGroup sys) defaults.sgidList
  let umask ← loadValueAsMode sys "umask".toList (dir.lookup "umask".toList)
    (stack "umask".toList)
  let priority ← loadValueAsInt sys "priority".toList (dir.lookup "priority".toList)
    (stack "priority".toList)
  let workdir ← loadValueAsString sys "workdir".toList (dir.lookup "workdir".toList) (some [])
    serviceNameSize
  let respawn ← bool "respawn"
  let sync ← bool "sync"
  let ignoreFailure ← bool "ignore_failure"
  let shutdownOnTerminate ← bool "shutdown_on_terminate"
  let minRunningTime ← loadValueAsUint sys "min_running_time".toList
    (dir.lookup "min_running_time".toList) (stack "min_running_time".toList)
  let readyTimeout ← loadValueAsUint sys "ready_timeout".toList
    (dir.lookup "ready_timeout".toList) (stack "ready_timeout".toList)
  let interval ← loadValueAsInterval sys "interval".toList (dir.lookup "interval".toList)
    (stack "interval".toList)
  let respawn := respawn.getD false
  let sync := sync.getD false
  let interval := interval.getD 0
  if respawn = true ∧ sync = true then
    throwMessage "'respawn' and 'sync' flags are exclusive".toList
  else if respawn = true ∧ interval > 0 then
    throwMessage "interval cannot be used with respawned service".toList
  else
    return { srv with
      runAbsPath := some runAbsPath
      paramList := params.getD []
      environment :=
        match environment with
        | none => []
        | some [] => [none]
        | some list => list.map some
      environmentExtra := environmentExtra.getD []
      uid := uid.getD defaults.uid
      gid := gid.getD defaults.gid
      sgidList := sgidList.getD defaults.sgidList
      umask := umask.getD defaults.umask
      priority := priority.getD 0
      workingDirectory := terminateAtFirstEol (workdir.2.getD [])
      respawn := respawn
      sync := sync
      ignoreFailure := ignoreFailure.getD false
      shutdownOnTerminate := shutdownOnTerminate.getD false
      minRunningTime := minRunningTime.getD serviceDefaultMinRunningTime
      readyTimeout := max (readyTimeout.getD defaults.readyTimeout) defaults.readyTimeout
      interval := interval }

end Baseimage.Cinit
