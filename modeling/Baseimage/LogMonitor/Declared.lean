import Baseimage.LogMonitor.Configuration

/-!
# What a configuration directory declares

A setting is in the file of its name, so it does not matter in which order `readdir` gives the
files. A configuration is accepted when each of its directories declares a target or a notification
and no path is a log file and a status file. The context then is the one that is declared.
-/

namespace Baseimage.LogMonitor

/-! ## Files -/

/-- The regular file of a name. -/
def HasFile (files : List ConfFile) (name : Str) (file : ConfFile) : Prop :=
  file ∈ files ∧ file.isReg = true ∧ file.dName = name

/-- There is no regular file of a name. -/
def Lacks (files : List ConfFile) (name : Str) : Prop := ∀ file, ¬ HasFile files name file

/-- The text of a file, which is not too big and ends at a NUL. -/
def Reads (file : ConfFile) (str : Str) : Prop :=
  ∃ content, file.content = some content ∧ content.length ≤ maxReadFileSize ∧
    str = CString.ofBuffer content

/-- A number of seconds. -/
def DeclaresSeconds (str : Str) (seconds : Int) : Prop :=
  ∃ val, Cinit.strtol 10 (terminateStrAtFirstEol str) = some val ∧ val.rest = [] ∧
    val.value = seconds ∧ 0 ≤ seconds ∧ seconds ≤ intMax

/-- A text in a file, or the program it is. -/
def DeclaresText (path : Str) (files : List ConfFile) (name : Str) (text : Text) : Prop :=
  ∃ file, HasFile files name file ∧
    (file.executable = true ∧ text = { text := joined path name, isExe := true } ∨
      file.executable = false ∧ ∃ str, Reads file str ∧
        text = { text := terminateStrAtFirstEol str, isExe := false })

/-- A line of the file `source`: an absolute path, with or without its type. -/
def DeclaresSource (token : Str) (source : Source) : Prop :=
  source.path.head? = some '/' ∧
    ((token = source.path ∨ token = "log:".toList ++ source.path) ∧ source.isStatus = false ∨
      token = "status:".toList ++ source.path ∧ source.isStatus = true)

/-- A line of the file `target`: the first target of the name. -/
def NamesTarget (targets : List Target) (token : Str) (tid : Fin targets.length) : Prop :=
  (targets.get tid).name = token ∧ ∀ other < tid, (targets.get other).name ≠ token

/-! ## Directories -/

/-- The files of a target. -/
structure TargetIn (path : Str) (files : List ConfFile) (target : Target) : Prop where
  send : ∃ file, HasFile files "send".toList file ∧ file.executable = true ∧
    target.send = joined path "send".toList
  debouncing : Lacks files "debouncing".toList ∧ target.debouncing = -1 ∨
    ∃ file str, HasFile files "debouncing".toList file ∧ Reads file str ∧
      DeclaresSeconds str target.debouncing

/-- The targets a notification names, none if it has no such file. -/
def ChoosesTargets (targets : List Target) (files : List ConfFile)
    (chosen : List (Fin targets.length)) : Prop :=
  Lacks files "target".toList ∧ chosen = [] ∨
    ∃ file str, HasFile files "target".toList file ∧ Reads file str ∧
      List.Forall₂ (NamesTarget targets) (strtok str) chosen

/-- The files of a notification. -/
structure NotificationIn (targets : List Target) (path : Str) (files : List ConfFile)
    (notif : Notification targets.length) : Prop where
  filter : ∃ file, HasFile files "filter".toList file ∧ file.executable = true ∧
    notif.filter = joined path "filter".toList
  title : DeclaresText path files "title".toList notif.title
  title_ne_nil : notif.title.text ≠ []
  desc : DeclaresText path files "desc".toList notif.desc
  desc_ne_nil : notif.desc.text ≠ []
  level : DeclaresText path files "level".toList notif.level
  level_valid : notif.level.isExe = true ∨ validLevel notif.level.text = true
  sources : ∃ file str, HasFile files "source".toList file ∧ Reads file str ∧
    List.Forall₂ DeclaresSource (strtok str) notif.monitoredFiles
  targets : ∃ chosen, ChoosesTargets targets files chosen ∧
    notif.targets = if chosen = [] then List.finRange targets.length else chosen

/-- The directory of a target. -/
def DeclaresTarget (targetsDir : Str) (dir : ConfDir) (target : Target) : Prop :=
  target.name = dir.dName ∧
    ∃ files, dir.files = some files ∧ TargetIn (joined targetsDir dir.dName) files target

/-- The directory of a notification. -/
def DeclaresNotification (targets : List Target) (notificationsDir : Str) (dir : ConfDir)
    (notif : Notification targets.length) : Prop :=
  notif.name = dir.dName ∧
    ∃ files, dir.files = some files ∧
      NotificationIn targets (joined notificationsDir dir.dName) files notif

/-- The configuration directory. -/
structure Declares (tree : ConfTree) (config : Config) : Prop where
  targets : ∃ dirs, tree.targets = some dirs ∧
    List.Forall₂ (DeclaresTarget (joined tree.cfgdir "targets.d".toList))
      (dirs.filter ConfDir.loaded) config.targets
  notifications : ∃ dirs, tree.notifications = some dirs ∧
    List.Forall₂ (DeclaresNotification config.targets (joined tree.cfgdir "notifications.d".toList))
      (dirs.filter ConfDir.loaded) config.notifications

/-- No path is a log file and a status file. -/
def Config.Consistent (config : Config) : Prop :=
  ∀ a ∈ config.sources, ∀ b ∈ config.sources, a.path = b.path → a.isStatus = b.isStatus

/-- No name is twice in a directory. -/
def ConfDir.Proper (dir : ConfDir) : Prop :=
  ∀ files, dir.files = some files → (files.map ConfFile.dName).Nodup

def ConfTree.Proper (tree : ConfTree) : Prop :=
  (∀ dirs, tree.targets = some dirs → ∀ dir ∈ dirs, dir.Proper) ∧
    ∀ dirs, tree.notifications = some dirs → ∀ dir ∈ dirs, dir.Proper

/-! ## Helpers -/

section Helpers

variable {malloc : Nat → Bool}

theorem joinPath_eq {dir file path : Str} (h : joinPath malloc dir file = some path) :
    path = joined dir file := by
  obtain ⟨-, ⟨⟩⟩ := Option.ite_none_right_eq_some.mp h
  rfl

theorem joinPath_some (hmalloc : ∀ n, malloc n = true) (dir file : Str) :
    joinPath malloc dir file = some (joined dir file) := if_pos (hmalloc _)

theorem joined_ne_nil (dir : Str) {file : Str} (h : file ≠ []) : joined dir file ≠ [] :=
  List.append_ne_nil_of_right_ne_nil _ h

theorem strdup_eq {s t : Str} (h : strdup malloc s = some t) : t = s := by
  obtain ⟨-, ⟨⟩⟩ := Option.ite_none_right_eq_some.mp h
  rfl

theorem strdup_some (hmalloc : ∀ n, malloc n = true) (s : Str) : strdup malloc s = some s :=
  if_pos (hmalloc _)

theorem reads_of_file2str {file : ConfFile} {str : Str} (h : file2str malloc file = some str) :
    Reads file str := by
  unfold file2str at h
  split at h
  · cases h
  · next content found =>
      obtain ⟨small, h⟩ := Option.ite_none_left_eq_some.mp h
      obtain ⟨-, ⟨⟩⟩ := Option.ite_none_right_eq_some.mp h
      exact ⟨content, found, Nat.not_lt.mp small, rfl⟩

theorem file2str_of_reads (hmalloc : ∀ n, malloc n = true) {file : ConfFile} {str : Str}
    (h : Reads file str) : file2str malloc file = some str := by
  obtain ⟨content, found, small, rfl⟩ := h
  rw [file2str, found]
  exact (if_neg (Nat.not_lt.mpr small)).trans (if_pos (hmalloc _))

theorem Reads.unique {file : ConfFile} {str str' : Str} (h : Reads file str)
    (h' : Reads file str') :
    str = str' := by
  obtain ⟨content, found, -, rfl⟩ := h
  obtain ⟨content', found', -, rfl⟩ := h'
  rw [Option.some.inj (found.symm.trans found')]

theorem HasFile.unique {files : List ConfFile} (nodup : (files.map ConfFile.dName).Nodup)
    {name : Str}
    {file file' : ConfFile} (h : HasFile files name file) (h' : HasFile files name file') :
    file = file' :=
  List.inj_on_of_nodup_map nodup h.1 h'.1 (h.2.2.trans h'.2.2.symm)

theorem debouncingValue_eq_some {str : Str} {seconds : Int} :
    debouncingValue (terminateStrAtFirstEol str) = some seconds ↔ DeclaresSeconds str seconds := by
  unfold debouncingValue DeclaresSeconds
  cases Cinit.strtol 10 (terminateStrAtFirstEol str) with
  | none => simp
  | some val =>
      rw [Option.ite_none_left_eq_some]
      constructor
      · rintro ⟨valid, ⟨⟩⟩
        push Not at valid
        exact ⟨val, rfl, valid.1, rfl, valid.2.2.2, valid.2.2.1⟩
      · rintro ⟨_, ⟨⟩, whole, rfl, low, high⟩
        refine ⟨?_, rfl⟩
        have inLong : val.value ≠ Cinit.longMin ∧ val.value ≠ Cinit.longMax := by
          unfold intMax at high
          unfold Cinit.longMin Cinit.longMax
          omega
        simp [whole, inLong.1, inLong.2, low, high]

/-- What stands after a type. -/
theorem isPrefixOf_iff {kind token : Str} :
    kind.isPrefixOf token = true ↔ token = kind ++ token.drop kind.length := by
  rw [List.isPrefixOf_iff_prefix, List.prefix_iff_eq_append]
  exact eq_comm

theorem isPrefixOf_absolute {kind : Str} (typed : kind.head? ≠ some '/') (lead : kind ≠ [])
    {path : Str} (absolute : path.head? = some '/') : kind.isPrefixOf path = false := by
  obtain ⟨c, kind, rfl⟩ := List.exists_cons_of_ne_nil lead
  cases path with
  | nil => cases absolute
  | cons d path =>
      rw [List.head?_cons] at typed absolute
      rw [List.isPrefixOf_cons_cons, Bool.and_eq_false_iff]
      exact .inl (beq_eq_false_iff_ne.mpr fun same => typed (same ▸ absolute))

theorem sourceOfToken_eq {token : Str} {source : Source} :
    (sourceOfToken token = source ∧ source.path.head? = some '/') ↔
      DeclaresSource token source := by
  unfold sourceOfToken
  constructor
  · rintro ⟨rfl, absolute⟩
    refine ⟨absolute, ?_⟩
    split
    · next log => exact .inl ⟨.inr (isPrefixOf_iff.mp log), rfl⟩
    · split
      · next status => exact .inr ⟨isPrefixOf_iff.mp status, rfl⟩
      · exact .inl ⟨.inl rfl, rfl⟩
  · obtain ⟨path, isStatus⟩ := source
    rintro ⟨absolute, ⟨rfl | rfl, rfl⟩ | ⟨rfl, rfl⟩⟩
    · refine ⟨?_, absolute⟩
      rw [isPrefixOf_absolute (by decide) (by decide) absolute,
        isPrefixOf_absolute (by decide) (by decide) absolute]
      rfl
    · exact ⟨if_pos (isPrefixOf_iff.mpr rfl), absolute⟩
    · refine ⟨?_, absolute⟩
      rw [if_neg (by simp), if_pos (isPrefixOf_iff.mpr rfl)]
      rfl

end Helpers

end Baseimage.LogMonitor
