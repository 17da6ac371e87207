import Baseimage.LogMonitor.Poll

/-!
# The context of the log monitor

The targets and the notifications are loaded from the configuration directory. `create_context`
then makes the table of monitored files: every source of every notification, each path once. A path
that is declared with two types makes it fail.

The index of a target stands for the pointer to it, so the notifications of a configuration share
its targets.
-/

namespace Baseimage.LogMonitor

def maxNumNotifications : Nat := 16

def maxNumMonitoredFilesPerNotification : Nat := 4

def maxNumMonitoredFiles : Nat := maxNumNotifications * maxNumMonitoredFilesPerNotification

def maxNumTargets : Nat := 16

/-- `lm_target_t`, without the times. A negative debouncing is not defined. -/
structure Target where
  name : Str
  send : Str
  debouncing : Int := -1
  deriving DecidableEq, Repr

/-- A text of a notification, or the program that prints it. -/
structure Text where
  text : Str
  isExe : Bool := false
  deriving DecidableEq, Repr

/-- A file to monitor, as a notification declares it. -/
structure Source where
  path : Str
  isStatus : Bool
  deriving DecidableEq, Repr

/-- `lm_notification_t`, in a configuration with so many targets. -/
structure Notification (numTargets : Nat) where
  name : Str
  filter : Str
  title : Text
  desc : Text
  level : Text
  monitoredFiles : List Source
  targets : List (Fin numTargets)
  /-- "At least one file to monitor must be specified." -/
  monitoredFiles_pos : 0 < monitoredFiles.length
  monitoredFiles_le : monitoredFiles.length ≤ maxNumMonitoredFilesPerNotification
  targets_le : targets.length ≤ maxNumTargets

/-- What `load_config_targets` and `load_config_notifications` leave in the context. -/
structure Config where
  targets : List Target
  notifications : List (Notification targets.length)
  targets_le : targets.length ≤ maxNumTargets
  notifications_le : notifications.length ≤ maxNumNotifications

/-- The sources of all notifications, in the order they are declared. -/
def Config.sources (config : Config) : List Source :=
  config.notifications.flatMap Notification.monitoredFiles

/-- The notification lists the path. -/
def Notification.lists {n : Nat} (notif : Notification n) (path : Str) : Bool :=
  notif.monitoredFiles.any fun file => file.path == path

/-- A source of a notification is looked up in the table of monitored files and added if it is not
there. It fails where the types differ, and where the path cannot be duplicated. -/
def addSource (malloc : Nat → Bool) (files : List Source) (source : Source) :
    Option (List Source) :=
  match files.find? fun file => file.path == source.path with
  | some file => if file.isStatus = source.isStatus then some files else none
  | none => if malloc (source.path.length + 1) then some (files ++ [source]) else none

/-- "Set monitored files." -/
def setMonitoredFiles (malloc : Nat → Bool) (config : Config) : Option (List Source) :=
  config.notifications.foldlM
    (fun files notif => notif.monitoredFiles.foldlM (addSource malloc) files) []

/-- `lm_context_t`. -/
structure Context extends Config where
  monitoredFiles : List Source

/-- `create_context`, once the configuration is loaded. -/
def createContext (malloc : Nat → Bool) (config : Config) : Option Context :=
  (setMonitoredFiles malloc config).map fun files =>
    { config with monitoredFiles := files }

/-! ## The table of monitored files -/

/-- What the table is after some sources: each path once, with the type of every source. -/
structure Tabulated (sources files : List Source) : Prop where
  distinct : (files.map Source.path).Nodup
  covered : ∀ source ∈ sources, source ∈ files
  declared : ∀ file ∈ files, file ∈ sources
  length_le : files.length ≤ sources.length

variable {malloc : Nat → Bool} {sources files files' : List Source} {source : Source}

theorem tabulated_nil : Tabulated [] [] :=
  ⟨List.nodup_nil, fun _ h => h, fun _ h => h, Nat.le_refl 0⟩

theorem tabulated_addSource (h : Tabulated sources files)
    (added : addSource malloc files source = some files') :
      Tabulated (sources ++ [source]) files' := by
  unfold addSource at added
  split at added
  · next file found =>
      obtain ⟨same, hfiles⟩ := Option.ite_none_right_eq_some.mp added
      obtain rfl := Option.some.inj hfiles
      have hpath : file.path = source.path := by simpa using List.find?_some found
      obtain rfl : file = source := by
        cases file
        cases source
        simp_all
      refine ⟨h.distinct, ?_, fun f hf => List.mem_append_left _ (h.declared f hf), ?_⟩
      · intro s hs
        obtain old | new := List.mem_append.mp hs
        · exact h.covered s old
        · exact List.mem_singleton.mp new ▸ List.mem_of_find?_eq_some found
      · rw [List.length_append]
        exact Nat.le_trans h.length_le (Nat.le_add_right _ _)
  · next missing =>
      obtain ⟨-, hfiles⟩ := Option.ite_none_right_eq_some.mp added
      obtain rfl := Option.some.inj hfiles
      refine ⟨?_, ?_, ?_, ?_⟩
      · rw [List.map_append, List.map_singleton]
        apply List.nodup_append.mpr
        refine ⟨h.distinct, List.nodup_singleton _, ?_⟩
        rintro path hpath other hother rfl
        obtain ⟨file, hfile, rfl⟩ := List.mem_map.mp hpath
        have differs := List.find?_eq_none.mp missing file hfile
        exact differs (by simpa using hother)
      · intro s hs
        obtain old | new := List.mem_append.mp hs
        · exact List.mem_append_left _ (h.covered s old)
        · exact List.mem_append_right _ new
      · intro f hf
        obtain old | new := List.mem_append.mp hf
        · exact List.mem_append_left _ (h.declared f old)
        · exact List.mem_append_right _ new
      · simpa using h.length_le

theorem tabulated_sources {more : List Source} (h : Tabulated sources files)
    (added : more.foldlM (addSource malloc) files = some files') :
    Tabulated (sources ++ more) files' := by
  induction more generalizing sources files with
  | nil =>
      obtain rfl := Option.some.inj added
      rwa [List.append_nil]
  | cons source more ih =>
      rw [List.foldlM_cons] at added
      obtain ⟨next, first, rest⟩ := Option.bind_eq_some_iff.mp added
      rw [List.append_cons]
      exact ih (tabulated_addSource h first) rest

theorem tabulated_notifications {n : Nat} {notifs : List (Notification n)}
    (h : Tabulated sources files)
    (added : notifs.foldlM
      (fun files notif => notif.monitoredFiles.foldlM (addSource malloc) files) files =
        some files') :
    Tabulated (sources ++ notifs.flatMap Notification.monitoredFiles) files' := by
  induction notifs generalizing sources files with
  | nil =>
      obtain rfl := Option.some.inj added
      rwa [List.flatMap_nil, List.append_nil]
  | cons notif notifs ih =>
      rw [List.foldlM_cons] at added
      obtain ⟨next, first, rest⟩ := Option.bind_eq_some_iff.mp added
      rw [List.flatMap_cons, ← List.append_assoc]
      exact ih (tabulated_sources h first) rest

/-- The table of a context that was created. -/
theorem tabulated_createContext {config : Config} {ctx : Context}
    (created : createContext malloc config = some ctx) :
    ctx.toConfig = config ∧ Tabulated config.sources ctx.monitoredFiles := by
  obtain ⟨files, hfiles, rfl⟩ := Option.map_eq_some_iff.mp created
  exact ⟨rfl, tabulated_notifications tabulated_nil hfiles⟩

/-- A configuration that declares so many sources at most. -/
theorem length_sources_le (config : Config) : config.sources.length ≤ maxNumMonitoredFiles := by
  have all : ∀ notifs : List (Notification config.targets.length),
      (notifs.flatMap Notification.monitoredFiles).length ≤
        notifs.length * maxNumMonitoredFilesPerNotification := by
    intro notifs
    induction notifs with
    | nil => exact Nat.zero_le _
    | cons notif notifs ih =>
        have here := notif.monitoredFiles_le
        rw [List.flatMap_cons, List.length_append, List.length_cons, Nat.succ_mul]
        omega
  exact Nat.le_trans (all config.notifications) (Nat.mul_le_mul_right _ config.notifications_le)

/-- No two sources of a table differ in their types only. -/
theorem Tabulated.eq_of_path {a b : Source} (h : Tabulated sources files) (ha : a ∈ sources)
    (hb : b ∈ sources) (same : a.path = b.path) : a = b :=
  List.inj_on_of_nodup_map h.distinct (h.covered a ha) (h.covered b hb) same

end Baseimage.LogMonitor
