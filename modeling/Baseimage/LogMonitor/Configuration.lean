import Baseimage.Cinit.Utils
import Baseimage.LogMonitor.HandleLine
import Baseimage.Run.Fields

/-!
# The configuration directory of the log monitor

A target is a directory under `targets.d`, a notification one under `notifications.d`, and each of
their settings is a file in it. The loaders go through these files in the order of `readdir`.
-/

namespace Baseimage.LogMonitor

/-! ## What is in the directory -/

/-- A file in the directory of a target or a notification. -/
structure ConfFile where
  dName : Str
  isReg : Bool := true
  /-- `access(file, X_OK) == 0`. -/
  executable : Bool := false
  /-- What is read from it, unless `stat`, `open` or `read` fails. -/
  content : Option Str
  deriving DecidableEq, Repr

/-- An entry of `targets.d` or of `notifications.d`, and what is in it unless `opendir` fails. -/
structure ConfDir where
  dName : Str
  isDir : Bool := true
  files : Option (List ConfFile)
  deriving DecidableEq, Repr

/-- The configuration directory; each of its two parts is missing if `opendir` fails. -/
structure ConfTree where
  cfgdir : Str
  targets : Option (List ConfDir)
  notifications : Option (List ConfDir)
  deriving DecidableEq, Repr

/-! ## Helpers -/

def maxReadFileSize : Nat := 100 * 1024

def strEndsWith (str : Str) (c : Char) : Bool := str.getLast? == some c

def strStartsWith (str : Str) (c : Char) : Bool := str.head? == some c

def joined (dir file : Str) : Str :=
  dir ++ (if !strEndsWith dir '/' && !strStartsWith file '/' then ['/'] else []) ++ file

/-- `join_path`. -/
def joinPath (malloc : Nat → Bool) (dir file : Str) : Option Str :=
  if malloc (dir.length + file.length + 2) then some (joined dir file) else none

/-- `file2str`. -/
def file2str (malloc : Nat → Bool) (file : ConfFile) : Option Str :=
  match file.content with
  | none => none
  | some content =>
      if content.length > maxReadFileSize then none
      else if malloc (content.length + 1) then some (CString.ofBuffer content)
      else none

/-- The tokens `strtok` finds between line feeds. -/
def strtok (str : Str) : List Str := (str.splitOn '\n').filter (· ≠ [])

/-- `strdup`. -/
def strdup (malloc : Nat → Bool) (str : Str) : Option Str :=
  if malloc (str.length + 1) then some str else none

/-! ## Targets -/

/-- The fields of `lm_target_t` that are loaded. -/
structure TargetFields where
  send : Option Str := none
  debouncing : Int := -1
  deriving DecidableEq, Repr

/-- `sizeof(lm_target_t)`. -/
def sizeofTarget : Nat := 152

/-- `INT_MAX`. -/
def intMax : Int := 2 ^ 31 - 1

/-- The check of a debouncing value. -/
def debouncingValue (str : Str) : Option Int :=
  match Cinit.strtol 10 str with
  | none => none
  | some val =>
      if val.rest ≠ [] ∨ ((val.value = Cinit.longMin ∨ val.value = Cinit.longMax) ∧ val.erange) ∨
          val.value > intMax ∨ val.value < 0 then none
      else some val.value

/-- A round of the loop of `alloc_target`. -/
def targetFile (malloc : Nat → Bool) (targetDir : Str) (target : TargetFields) (file : ConfFile) :
    Option TargetFields :=
  if file.isReg = false then some target
  else do
    let filepath ← joinPath malloc targetDir file.dName
    if file.dName = "send".toList then
      if file.executable then some { target with send := some filepath } else none
    else if file.dName = "debouncing".toList then do
      let str ← file2str malloc file
      let val ← debouncingValue (terminateStrAtFirstEol str)
      some { target with debouncing := val }
    else some target

/-- `alloc_target`. -/
def allocTarget (malloc : Nat → Bool) (targetsDir : Str) (dir : ConfDir) : Option Target := do
  let targetDir ← joinPath malloc targetsDir dir.dName
  guard (malloc sizeofTarget)
  let name ← strdup malloc dir.dName
  let files ← dir.files
  let target ← files.foldlM (targetFile malloc targetDir) {}
  let send ← target.send
  guard (send ≠ [])
  some { name := name, send := send, debouncing := target.debouncing }

/-- The directories the loaders look at. -/
def ConfDir.loaded (dir : ConfDir) : Bool :=
  dir.isDir && dir.dName ≠ ".".toList && dir.dName ≠ "..".toList

/-- A list that fits into a table of so many entries. -/
abbrev Table (size : Nat) (α : Type) := { xs : List α // xs.length ≤ size }

/-- Put an entry at the end of a table, if there is room. -/
def Table.push {size : Nat} {α : Type} (table : Table size α) (a : α) : Option (Table size α) :=
  if room : table.val.length < size then
    some ⟨table.val ++ [a], by rw [List.length_append]; exact room⟩
  else none

/-- A round of the loops over the directories: there has to be room before the entry is loaded. -/
def loadEntry {size : Nat} {α : Type} (alloc : ConfDir → Option α) (table : Table size α)
    (dir : ConfDir) : Option (Table size α) :=
  if dir.loaded = false then some table
  else if table.val.length < size then alloc dir >>= table.push
  else none

/-- `load_config_targets`. -/
def loadConfigTargets (malloc : Nat → Bool) (targetsDir : Str) (dirs : Option (List ConfDir)) :
    Option (Table maxNumTargets Target) :=
  dirs >>= fun dirs => dirs.foldlM (loadEntry (allocTarget malloc targetsDir)) ⟨[], Nat.zero_le _⟩

/-! ## Notifications -/

/-- The fields of `lm_notification_t` that are loaded. -/
structure NotificationFields (numTargets : Nat) where
  filter : Option Str := none
  title : Option Text := none
  desc : Option Text := none
  level : Option Text := none
  monitoredFiles : Table maxNumMonitoredFilesPerNotification Source := ⟨[], Nat.zero_le _⟩
  targets : Table maxNumTargets (Fin numTargets) := ⟨[], Nat.zero_le _⟩

/-- `sizeof(lm_notification_t)`. -/
def sizeofNotification : Nat := 264

/-- A text, or the program that prints it. -/
def loadText (malloc : Nat → Bool) (filepath : Str) (file : ConfFile) : Option Text :=
  if file.executable then some { text := filepath, isExe := true }
  else (file2str malloc file).map fun str => { text := terminateStrAtFirstEol str }

/-- The type of a source and its path. -/
def sourceOfToken (token : Str) : Source :=
  if "log:".toList.isPrefixOf token then { path := token.drop 4, isStatus := false }
  else if "status:".toList.isPrefixOf token then { path := token.drop 7, isStatus := true }
  else { path := token, isStatus := false }

/-- A round of the loop over the sources. -/
def addSourceToken (malloc : Nat → Bool)
    (files : Table maxNumMonitoredFilesPerNotification Source) (token : Str) :
    Option (Table maxNumMonitoredFilesPerNotification Source) :=
  let source := sourceOfToken token
  if source.path = [] then none
  else if source.path.head? ≠ some '/' then none
  else if files.val.length < maxNumMonitoredFilesPerNotification then
    strdup malloc source.path >>= fun path => files.push { source with path := path }
  else none

section Notifications

variable (malloc : Nat → Bool) (configured : Table maxNumTargets Target)

/-- A round of the loop over the targets of a notification. -/
def addTargetToken (targets : Table maxNumTargets (Fin configured.val.length)) (token : Str) :
    Option (Table maxNumTargets (Fin configured.val.length)) :=
  configured.val.findFinIdx? (fun target => target.name == token) >>= targets.push

/-- A round of the loop of `alloc_notification`. -/
def notificationFile (notificationDir : Str) (notif : NotificationFields configured.val.length)
    (file : ConfFile) : Option (NotificationFields configured.val.length) :=
  if file.isReg = false then some notif
  else do
    let filepath ← joinPath malloc notificationDir file.dName
    if file.dName = "filter".toList then
      if file.executable then some { notif with filter := some filepath } else none
    else if file.dName = "title".toList then do
      let title ← loadText malloc filepath file
      some { notif with title := some title }
    else if file.dName = "desc".toList then do
      let desc ← loadText malloc filepath file
      some { notif with desc := some desc }
    else if file.dName = "level".toList then do
      let level ← loadText malloc filepath file
      if level.isExe || validLevel level.text then some { notif with level := some level } else none
    else if file.dName = "source".toList then do
      let str ← file2str malloc file
      let files ← (strtok str).foldlM (addSourceToken malloc) notif.monitoredFiles
      some { notif with monitoredFiles := files }
    else if file.dName = "target".toList then do
      let str ← file2str malloc file
      let targets ← (strtok str).foldlM (addTargetToken configured) notif.targets
      some { notif with targets := targets }
    else some notif

/-- A notification that names no target has all of them. -/
def allTargets : Table maxNumTargets (Fin configured.val.length) :=
  ⟨List.finRange configured.val.length, by rw [List.length_finRange]; exact configured.property⟩

/-- `alloc_notification`. -/
def allocNotification (notificationsDir : Str) (dir : ConfDir) :
    Option (Notification configured.val.length) := do
  let notificationDir ← joinPath malloc notificationsDir dir.dName
  guard (malloc sizeofNotification)
  let name ← strdup malloc dir.dName
  let files ← dir.files
  let notif ← files.foldlM (notificationFile malloc configured notificationDir) {}
  let filter ← notif.filter
  guard (filter ≠ [])
  let title ← notif.title
  guard (title.text ≠ [])
  let desc ← notif.desc
  guard (desc.text ≠ [])
  let level ← notif.level
  guard (level.text ≠ [])
  let targets := if notif.targets.val.length = 0 then allTargets configured else notif.targets
  if pos : 0 < notif.monitoredFiles.val.length then
    some
      { name := name, filter := filter, title := title, desc := desc, level := level
        monitoredFiles := notif.monitoredFiles.val, targets := targets.val
        monitoredFiles_pos := pos
        monitoredFiles_le := notif.monitoredFiles.property
        targets_le := targets.property }
  else none

/-- `load_config_notifications`. -/
def loadConfigNotifications (notificationsDir : Str) (dirs : Option (List ConfDir)) :
    Option (Table maxNumNotifications (Notification configured.val.length)) :=
  dirs >>= fun dirs =>
    dirs.foldlM (loadEntry (allocNotification malloc configured notificationsDir))
      ⟨[], Nat.zero_le _⟩

end Notifications

/-! ## The context -/

/-- What `create_context` loads before it sets the monitored files. -/
def loadConfig (malloc : Nat → Bool) (tree : ConfTree) : Option Config := do
  let targetsDir ← joinPath malloc tree.cfgdir "targets.d".toList
  let targets ← loadConfigTargets malloc targetsDir tree.targets
  let notificationsDir ← joinPath malloc tree.cfgdir "notifications.d".toList
  let notifications ← loadConfigNotifications malloc targets notificationsDir tree.notifications
  some
    { targets := targets.val, notifications := notifications.val
      targets_le := targets.property, notifications_le := notifications.property }

/-- `sizeof(lm_context_t)`. -/
def sizeofContext : Nat := 11552

/-- `create_context`. -/
def createContextFrom (malloc : Nat → Bool) (tree : ConfTree) : Option Context := do
  guard (malloc sizeofContext)
  let cfgdir ← strdup malloc tree.cfgdir
  let config ← loadConfig malloc { tree with cfgdir := cfgdir }
  createContext malloc config

end Baseimage.LogMonitor
