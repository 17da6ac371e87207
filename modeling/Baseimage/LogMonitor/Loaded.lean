import Baseimage.LogMonitor.Declared

/-!
# The configuration that is loaded is the one that is declared

Each loader is a fold over the entries of a directory. What it accepts is read off at the entry of
each setting, which finds its field as it was in the beginning. In the other direction every entry
is accepted where its own field is still empty, and there is only one configuration to arrive at.
-/

namespace Baseimage.LogMonitor

/-! ## Folds -/

section Folds

variable {σ α : Type} {step : σ → α → Option σ}

/-- Entries that are passed over might as well not be there. -/
theorem foldlM_filter_skipped {p : α → Bool} (skips : ∀ s a, p a = false → step s a = some s)
    (entries : List α) (s : σ) : (entries.filter p).foldlM step s = entries.foldlM step s := by
  induction entries generalizing s with
  | nil => rfl
  | cons a entries ih =>
      cases kept : p a with
      | false =>
          rw [List.filter_cons_of_neg (by simp [kept]), List.foldlM_cons, skips s a kept, ih]
          rfl
      | true =>
          rw [List.filter_cons_of_pos kept, List.foldlM_cons, List.foldlM_cons]
          exact congrArg _ (funext ih)

/-- A fold whose rounds are all accepted. -/
theorem foldlM_accepted {P : σ → Prop} {entries : List α}
    (accepts : ∀ a ∈ entries, ∀ s, P s → ∃ t, step s a = some t ∧ P t) {s : σ} (begun : P s) :
    ∃ t, entries.foldlM step s = some t ∧ P t := by
  induction entries generalizing s with
  | nil => exact ⟨s, rfl, begun⟩
  | cons a entries ih =>
      obtain ⟨u, first, onward⟩ := accepts a List.mem_cons_self s begun
      obtain ⟨t, rest, last⟩ :=
        ih (fun b member => accepts b (List.mem_cons_of_mem a member)) onward
      refine ⟨t, ?_, last⟩
      rw [List.foldlM_cons, first]
      exact rest

end Folds

namespace Table

variable {size : Nat} {α β : Type} {step : Table size α → β → Option (Table size α)}
  {R : β → α → Prop}

theorem push_eq {table table' : Table size α} {a : α} (h : table.push a = some table') :
    table'.val = table.val ++ [a] := by
  obtain ⟨-, ⟨⟩⟩ := Option.dite_none_right_eq_some.mp h
  rfl

theorem push_some {table : Table size α} {a : α} (room : table.val.length < size) :
    ∃ table', table.push a = some table' ∧ table'.val = table.val ++ [a] :=
  ⟨_, dif_pos room, rfl⟩

/-- What is put at the end of a table, entry by entry. -/
theorem pushed {bs : List β} {table table' : Table size α}
    (done : bs.foldlM step table = some table')
    (pushes : ∀ b ∈ bs, ∀ table table', step table b = some table' →
      ∃ a, R b a ∧ table.push a = some table') :
    ∃ more, List.Forall₂ R bs more ∧ table'.val = table.val ++ more := by
  induction bs generalizing table with
  | nil =>
      obtain rfl := Option.some.inj done
      exact ⟨[], .nil, (List.append_nil _).symm⟩
  | cons b bs ih =>
      rw [List.foldlM_cons] at done
      obtain ⟨next, first, rest⟩ := Option.bind_eq_some_iff.mp done
      obtain ⟨a, related, added⟩ := pushes b List.mem_cons_self table next first
      obtain ⟨more, others, contents⟩ :=
        ih rest (fun c member => pushes c (List.mem_cons_of_mem b member))
      refine ⟨a :: more, .cons related others, ?_⟩
      rw [contents, push_eq added, ← List.append_cons]

/-- Where there is room for everything, everything is put into the table. -/
theorem pushes_all {bs : List β} {more : List α} (related : List.Forall₂ R bs more)
    (accepts : ∀ table : Table size α, table.val.length < size → ∀ b a, R b a →
      step table b = table.push a)
    {table : Table size α} (room : table.val.length + more.length ≤ size) :
    ∃ table', bs.foldlM step table = some table' ∧ table'.val = table.val ++ more := by
  induction related generalizing table with
  | nil => exact ⟨table, rfl, (List.append_nil _).symm⟩
  | @cons b a bs more first _ ih =>
      rw [List.length_cons] at room
      have left : table.val.length < size := by omega
      obtain ⟨next, added, contents⟩ := push_some (a := a) left
      have onward : next.val.length + more.length ≤ size := by
        rw [contents, List.length_append, List.length_singleton]
        omega
      obtain ⟨table', rest, all⟩ := ih onward
      refine ⟨table', ?_, ?_⟩
      · rw [List.foldlM_cons, accepts table left b a first, added]
        exact rest
      · rw [all, contents, ← List.append_cons]

end Table

/-! ## Folds over files -/

section Files

variable {σ : Type} {step : σ → ConfFile → Option σ} {files : List ConfFile}

theorem hasFile_iff {name : Str} {file : ConfFile} :
    HasFile files name file ↔ file ∈ files.filter ConfFile.isReg ∧ file.dName = name := by
  rw [List.mem_filter, HasFile, and_assoc]

theorem nodup_regular (nodup : (files.map ConfFile.dName).Nodup) :
    ((files.filter ConfFile.isReg).map ConfFile.dName).Nodup :=
  nodup.sublist (List.filter_sublist.map _)

/-- A setting is left as it was, or it is set by the one file of its name. -/
theorem settled {α : Type} {get : σ → α} {name : Str}
    (skips : ∀ s file, file.isReg = false → step s file = some s)
    (own : ∀ s file t, step s file = some t → file.dName ≠ name → get t = get s)
    (nodup : (files.map ConfFile.dName).Nodup) {s t : σ} (done : files.foldlM step s = some t) :
    Lacks files name ∧ get t = get s ∨
      ∃ file u v, HasFile files name file ∧ step u file = some v ∧ get u = get s ∧
        get t = get v := by
  have field : ∀ a, Fields.Own step ConfFile.dName (fun s => get s = a) name := by
    intro a s file t taken other
    show get s = a ↔ get t = a
    rw [own s file t taken other]
  rw [← foldlM_filter_skipped skips] at done
  by_cases found : ∃ file, HasFile files name file
  · obtain ⟨file, has⟩ := found
    obtain ⟨member, rfl⟩ := hasFile_iff.mp has
    obtain ⟨u, v, taken, fields⟩ := Fields.touched (nodup_regular nodup) member done
    exact .inr ⟨file, u, v, has, taken, (fields _ (field (get s))).1.mp rfl,
      ((fields _ (field (get v))).2.mp rfl)⟩
  · have lacks : Lacks files name := not_exists.mp found
    have absent : ∀ file ∈ files.filter ConfFile.isReg, file.dName ≠ name :=
      fun file member same => lacks file (hasFile_iff.mpr ⟨member, same⟩)
    exact .inl ⟨lacks, (Fields.untouched (field (get s)) absent done).mp rfl⟩

end Files

/-! ## Targets -/

section Targets

variable {malloc : Nat → Bool} {path : Str} {files : List ConfFile} {s t : TargetFields}
  {file : ConfFile}

theorem targetFile_skips (path : Str) (s : TargetFields) (file : ConfFile)
    (other : file.isReg = false) : targetFile malloc path s file = some s := if_pos other

/-- What a file of a target can do. -/
theorem targetFile_cases (taken : targetFile malloc path s file = some t) :
    file.isReg = true ∧ file.dName = "send".toList ∧ file.executable = true ∧
        t = { s with send := some (joined path "send".toList) } ∨
      file.isReg = true ∧ file.dName = "debouncing".toList ∧
        (∃ str val, Reads file str ∧ DeclaresSeconds str val ∧ t = { s with debouncing := val }) ∨
      (file.isReg = true → file.dName ≠ "send".toList ∧ file.dName ≠ "debouncing".toList) ∧
        t = s := by
  unfold targetFile at taken
  split at taken
  · next other =>
      cases taken
      exact .inr (.inr ⟨fun reg => absurd (reg.symm.trans other) Bool.noConfusion, rfl⟩)
  · next reg =>
      have reg : file.isReg = true := Bool.eq_true_of_not_eq_false reg
      obtain ⟨filepath, hpath, taken⟩ := Option.bind_eq_some_iff.mp taken
      split at taken
      · next named =>
          obtain ⟨executable, ⟨⟩⟩ := Option.ite_none_right_eq_some.mp taken
          rw [joinPath_eq hpath, named]
          exact .inl ⟨reg, rfl, executable, rfl⟩
      · next notSend =>
          split at taken
          · next named =>
              obtain ⟨str, read, taken⟩ := Option.bind_eq_some_iff.mp taken
              obtain ⟨val, parsed, ⟨⟩⟩ := Option.bind_eq_some_iff.mp taken
              exact .inr (.inl ⟨reg, named, str, val, reads_of_file2str read,
                debouncingValue_eq_some.mp parsed, rfl⟩)
          · next notDebouncing =>
              cases taken
              exact .inr (.inr ⟨fun _ => ⟨notSend, notDebouncing⟩, rfl⟩)

theorem targetFile_send (s : TargetFields) (file : ConfFile) (t : TargetFields)
    (taken : targetFile malloc path s file = some t) (other : file.dName ≠ "send".toList) :
    t.send = s.send := by
  obtain ⟨-, named, -⟩ | ⟨-, -, str, val, -, -, rfl⟩ | ⟨-, rfl⟩ := targetFile_cases taken
  · exact absurd named other
  · rfl
  · rfl

theorem targetFile_debouncing (s : TargetFields) (file : ConfFile) (t : TargetFields)
    (taken : targetFile malloc path s file = some t) (other : file.dName ≠ "debouncing".toList) :
    t.debouncing = s.debouncing := by
  obtain ⟨-, -, -, rfl⟩ | ⟨-, named, -⟩ | ⟨-, rfl⟩ := targetFile_cases taken
  · rfl
  · exact absurd named other
  · rfl

theorem hasFile_send (nodup : (files.map ConfFile.dName).Nodup)
    (done : files.foldlM (targetFile malloc path) {} = some t) :
    Lacks files "send".toList ∧ t.send = none ∨
      ∃ file, HasFile files "send".toList file ∧ file.executable = true ∧
        t.send = some (joined path "send".toList) := by
  obtain ⟨lacks, kept⟩ | ⟨file, u, v, has, taken, -, last⟩ :=
    settled (targetFile_skips path) targetFile_send nodup done
  · exact .inl ⟨lacks, kept⟩
  · obtain ⟨-, -, executable, rfl⟩ | ⟨-, named, -⟩ | ⟨neither, -⟩ := targetFile_cases taken
    · exact .inr ⟨file, has, executable, last⟩
    · exact absurd (has.2.2.symm.trans named) (by decide)
    · exact absurd has.2.2 (neither has.2.1).1

theorem hasFile_debouncing (nodup : (files.map ConfFile.dName).Nodup)
    (done : files.foldlM (targetFile malloc path) {} = some t) :
    Lacks files "debouncing".toList ∧ t.debouncing = -1 ∨
      ∃ file str, HasFile files "debouncing".toList file ∧ Reads file str ∧
        DeclaresSeconds str t.debouncing := by
  obtain ⟨lacks, kept⟩ | ⟨file, u, v, has, taken, -, last⟩ :=
    settled (targetFile_skips path) targetFile_debouncing nodup done
  · exact .inl ⟨lacks, kept⟩
  · obtain ⟨-, named, -⟩ | ⟨-, -, str, val, read, seconds, rfl⟩ | ⟨neither, -⟩ :=
      targetFile_cases taken
    · exact absurd (has.2.2.symm.trans named) (by decide)
    · exact .inr ⟨file, str, has, read, last ▸ seconds⟩
    · exact absurd has.2.2 (neither has.2.1).2

/-- The target that is loaded is the one that is declared. -/
theorem allocTarget_declares {dir : ConfDir} (proper : dir.Proper) {target : Target}
    (loaded : allocTarget malloc path dir = some target) : DeclaresTarget path dir target := by
  obtain ⟨targetDir, hdir, loaded⟩ := Option.bind_eq_some_iff.mp loaded
  obtain ⟨-, -, loaded⟩ := Option.bind_eq_some_iff.mp loaded
  obtain ⟨name, hname, loaded⟩ := Option.bind_eq_some_iff.mp loaded
  obtain ⟨files, hfiles, loaded⟩ := Option.bind_eq_some_iff.mp loaded
  obtain ⟨fields, done, loaded⟩ := Option.bind_eq_some_iff.mp loaded
  obtain ⟨send, hsend, loaded⟩ := Option.bind_eq_some_iff.mp loaded
  obtain ⟨-, -, ⟨⟩⟩ := Option.bind_eq_some_iff.mp loaded
  obtain rfl := joinPath_eq hdir
  refine ⟨strdup_eq hname, files, hfiles, ?_, hasFile_debouncing (proper files hfiles) done⟩
  obtain ⟨-, missing⟩ | ⟨file, has, executable, there⟩ := hasFile_send (proper files hfiles) done
  · cases missing.symm.trans hsend
  · exact ⟨file, has, executable, Option.some.inj (hsend.symm.trans there)⟩

/-- Every file of a declared target is accepted. -/
theorem targetFile_accepts (hmalloc : ∀ n, malloc n = true)
    (nodup : (files.map ConfFile.dName).Nodup) {target : Target}
    (declared : TargetIn path files target) (member : file ∈ files) (s : TargetFields) :
    ∃ t, targetFile malloc path s file = some t := by
  unfold targetFile
  split
  · exact ⟨s, rfl⟩
  · next reg =>
      have reg : file.isReg = true := Bool.eq_true_of_not_eq_false reg
      rw [joinPath_some hmalloc]
      dsimp only [Option.bind_eq_bind, Option.bind_some]
      split
      · next named =>
          obtain ⟨other, has, executable, -⟩ := declared.send
          obtain rfl := HasFile.unique nodup has ⟨member, reg, named⟩
          exact ⟨_, if_pos executable⟩
      · split
        · next named =>
            obtain ⟨lacks, -⟩ | ⟨other, str, has, read, seconds⟩ := declared.debouncing
            · exact absurd ⟨member, reg, named⟩ (lacks file)
            · obtain rfl := HasFile.unique nodup has ⟨member, reg, named⟩
              rw [file2str_of_reads hmalloc read, Option.bind_some,
                debouncingValue_eq_some.mpr seconds]
              exact ⟨_, rfl⟩
        · exact ⟨s, rfl⟩

theorem DeclaresSeconds.unique {str : Str} {a b : Int} (h : DeclaresSeconds str a)
    (h' : DeclaresSeconds str b) : a = b :=
  Option.some.inj ((debouncingValue_eq_some.mpr h).symm.trans (debouncingValue_eq_some.mpr h'))

theorem DeclaresTarget.unique {dir : ConfDir} (proper : dir.Proper) {a b : Target}
    (ha : DeclaresTarget path dir a) (hb : DeclaresTarget path dir b) : a = b := by
  obtain ⟨name, files, hfiles, ⟨_, _, _, send⟩, debouncing⟩ := ha
  obtain ⟨name', files', hfiles', ⟨_, _, _, send'⟩, debouncing'⟩ := hb
  obtain rfl := Option.some.inj (hfiles.symm.trans hfiles')
  have same : a.debouncing = b.debouncing := by
    obtain ⟨lacks, undefined⟩ | ⟨file, str, has, read, seconds⟩ := debouncing
    · obtain ⟨-, undefined'⟩ | ⟨file, _, has, -⟩ := debouncing'
      · exact undefined.trans undefined'.symm
      · exact absurd has (lacks file)
    · obtain ⟨lacks, -⟩ | ⟨file', str', has', read', seconds'⟩ := debouncing'
      · exact absurd has (lacks file)
      · obtain rfl := HasFile.unique (proper files hfiles) has has'
        obtain rfl := read.unique read'
        exact seconds.unique seconds'
  cases a
  cases b
  simp_all

/-- A declared target is loaded. -/
theorem allocTarget_declared (hmalloc : ∀ n, malloc n = true) {dir : ConfDir} (proper : dir.Proper)
    {target : Target} (declared : DeclaresTarget path dir target) :
    allocTarget malloc path dir = some target := by
  suffices loads : ∃ loaded, allocTarget malloc path dir = some loaded by
    obtain ⟨loaded, h⟩ := loads
    rw [h, (allocTarget_declares proper h).unique proper declared]
  obtain ⟨-, files, hfiles, fields⟩ := declared
  have own : ∀ key, Fields.Own (targetFile malloc (joined path dir.dName)) ConfFile.dName
      (fun _ => True) key := fun _ _ _ _ _ _ => Iff.rfl
  obtain ⟨t, done⟩ : ∃ t, files.foldlM (targetFile malloc (joined path dir.dName)) {} = some t :=
    Fields.complete own (proper files hfiles)
      (fun file member s _ => targetFile_accepts hmalloc (proper files hfiles) fields member s)
      (fun _ => trivial)
  obtain ⟨lacks, -⟩ | ⟨-, -, -, there⟩ := hasFile_send (proper files hfiles) done
  · obtain ⟨file, has, -⟩ := fields.send
    exact absurd has (lacks file)
  · unfold allocTarget
    rw [joinPath_some hmalloc, strdup_some hmalloc, hfiles, hmalloc]
    simp only [Option.bind_eq_bind, Option.bind_some, guard_true, done, there]
    rw [(Option.guard_eq_some' ()).mpr (joined_ne_nil _ (by decide))]
    exact ⟨_, rfl⟩

end Targets

/-! ## Notifications -/

section Sources

variable {malloc : Nat → Bool}

theorem addSourceToken_eq {files files' : Table maxNumMonitoredFilesPerNotification Source}
    {token : Str} (added : addSourceToken malloc files token = some files') :
    ∃ source, DeclaresSource token source ∧ files.push source = some files' := by
  unfold addSourceToken at added
  obtain ⟨-, added⟩ := Option.ite_none_left_eq_some.mp added
  obtain ⟨absolute, added⟩ := Option.ite_none_left_eq_some.mp added
  obtain ⟨-, added⟩ := Option.ite_none_right_eq_some.mp added
  obtain ⟨path, duplicated, added⟩ := Option.bind_eq_some_iff.mp added
  obtain rfl := strdup_eq duplicated
  exact ⟨sourceOfToken token, sourceOfToken_eq.mp ⟨rfl, not_not.mp absolute⟩, added⟩

theorem addSourceToken_push (hmalloc : ∀ n, malloc n = true)
    (files : Table maxNumMonitoredFilesPerNotification Source)
    (room : files.val.length < maxNumMonitoredFilesPerNotification) (token : Str) (source : Source)
    (declared : DeclaresSource token source) :
    addSourceToken malloc files token = files.push source := by
  obtain ⟨rfl, absolute⟩ := sourceOfToken_eq.mpr declared
  have nonempty : (sourceOfToken token).path ≠ [] := by
    intro empty
    rw [empty] at absolute
    cases absolute
  unfold addSourceToken
  dsimp only
  rw [if_neg nonempty, if_neg (not_not.mpr absolute), if_pos room, strdup_some hmalloc]
  rfl

theorem addTargetToken_eq {configured : Table maxNumTargets Target}
    {targets targets' : Table maxNumTargets (Fin configured.val.length)} {token : Str}
    (added : addTargetToken configured targets token = some targets') :
    ∃ tid, NamesTarget configured.val token tid ∧ targets.push tid = some targets' := by
  obtain ⟨tid, found, added⟩ := Option.bind_eq_some_iff.mp added
  obtain ⟨named, first⟩ := List.findFinIdx?_eq_some_iff.mp found
  exact ⟨tid, ⟨beq_iff_eq.mp named, fun other before same =>
    first other before (beq_iff_eq.mpr same)⟩,
    added⟩

theorem addTargetToken_push {configured : Table maxNumTargets Target}
    (targets : Table maxNumTargets (Fin configured.val.length)) (token : Str)
    (tid : Fin configured.val.length) (named : NamesTarget configured.val token tid) :
    addTargetToken configured targets token = targets.push tid := by
  have found : configured.val.findFinIdx? (fun target => target.name == token) = some tid := by
    apply List.findFinIdx?_eq_some_iff.mpr
    exact ⟨beq_iff_eq.mpr named.1, fun other before same =>
      named.2 other before (beq_iff_eq.mp same)⟩
  rw [addTargetToken, found]
  rfl

end Sources

section Files

variable {malloc : Nat → Bool} {configured : Table maxNumTargets Target} {path : Str}
  {s t : NotificationFields configured.val.length} {file : ConfFile}

theorem notificationFile_skips (path : Str) (s : NotificationFields configured.val.length)
    (file : ConfFile) (other : file.isReg = false) :
    notificationFile malloc configured path s file = some s := if_pos other

/-! What each file of a notification does. -/

theorem notificationFile_filter (reg : file.isReg = true) (named : file.dName = "filter".toList) :
    notificationFile malloc configured path s file =
      (joinPath malloc path "filter".toList).bind fun filepath =>
        if file.executable then some { s with filter := some filepath } else none := by
  simp [notificationFile, reg, named]

theorem notificationFile_title (reg : file.isReg = true) (named : file.dName = "title".toList) :
    notificationFile malloc configured path s file =
      (joinPath malloc path "title".toList).bind fun filepath =>
        (loadText malloc filepath file).bind fun title => some { s with title := some title } := by
  simp [notificationFile, reg, named]

theorem notificationFile_desc (reg : file.isReg = true) (named : file.dName = "desc".toList) :
    notificationFile malloc configured path s file =
      (joinPath malloc path "desc".toList).bind fun filepath =>
        (loadText malloc filepath file).bind fun desc => some { s with desc := some desc } := by
  simp [notificationFile, reg, named]

theorem notificationFile_level (reg : file.isReg = true) (named : file.dName = "level".toList) :
    notificationFile malloc configured path s file =
      (joinPath malloc path "level".toList).bind fun filepath =>
        (loadText malloc filepath file).bind fun level =>
          if level.isExe || validLevel level.text then some { s with level := some level }
          else none := by
  simp [notificationFile, reg, named]

theorem notificationFile_source (reg : file.isReg = true) (named : file.dName = "source".toList) :
    notificationFile malloc configured path s file =
      (joinPath malloc path "source".toList).bind fun _ =>
        (file2str malloc file).bind fun str =>
          ((strtok str).foldlM (addSourceToken malloc) s.monitoredFiles).bind fun files =>
            some { s with monitoredFiles := files } := by
  simp [notificationFile, reg, named]

theorem notificationFile_target (reg : file.isReg = true) (named : file.dName = "target".toList) :
    notificationFile malloc configured path s file =
      (joinPath malloc path "target".toList).bind fun _ =>
        (file2str malloc file).bind fun str =>
          ((strtok str).foldlM (addTargetToken configured) s.targets).bind fun targets =>
            some { s with targets := targets } := by
  simp [notificationFile, reg, named]

/-- A file sets the field of its name only. -/
theorem notificationFile_own (s : NotificationFields configured.val.length) (file : ConfFile)
    (t : NotificationFields configured.val.length)
    (taken : notificationFile malloc configured path s file = some t) :
    (file.dName ≠ "filter".toList → t.filter = s.filter) ∧
      (file.dName ≠ "title".toList → t.title = s.title) ∧
      (file.dName ≠ "desc".toList → t.desc = s.desc) ∧
      (file.dName ≠ "level".toList → t.level = s.level) ∧
      (file.dName ≠ "source".toList → t.monitoredFiles = s.monitoredFiles) ∧
      (file.dName ≠ "target".toList → t.targets = s.targets) := by
  unfold notificationFile at taken
  split at taken
  · cases taken
    simp only [implies_true, and_self]
  · obtain ⟨filepath, -, taken⟩ := Option.bind_eq_some_iff.mp taken
    split at taken
    · next named =>
        obtain ⟨-, ⟨⟩⟩ := Option.ite_none_right_eq_some.mp taken
        exact ⟨absurd named, fun _ => rfl, fun _ => rfl, fun _ => rfl, fun _ => rfl, fun _ => rfl⟩
    split at taken
    · next named =>
        obtain ⟨title, -, ⟨⟩⟩ := Option.bind_eq_some_iff.mp taken
        exact ⟨fun _ => rfl, absurd named, fun _ => rfl, fun _ => rfl, fun _ => rfl, fun _ => rfl⟩
    split at taken
    · next named =>
        obtain ⟨desc, -, ⟨⟩⟩ := Option.bind_eq_some_iff.mp taken
        exact ⟨fun _ => rfl, fun _ => rfl, absurd named, fun _ => rfl, fun _ => rfl, fun _ => rfl⟩
    split at taken
    · next named =>
        obtain ⟨level, -, taken⟩ := Option.bind_eq_some_iff.mp taken
        obtain ⟨-, ⟨⟩⟩ := Option.ite_none_right_eq_some.mp taken
        exact ⟨fun _ => rfl, fun _ => rfl, fun _ => rfl, absurd named, fun _ => rfl, fun _ => rfl⟩
    split at taken
    · next named =>
        obtain ⟨str, -, taken⟩ := Option.bind_eq_some_iff.mp taken
        obtain ⟨files, -, ⟨⟩⟩ := Option.bind_eq_some_iff.mp taken
        exact ⟨fun _ => rfl, fun _ => rfl, fun _ => rfl, fun _ => rfl, absurd named, fun _ => rfl⟩
    split at taken
    · next named =>
        obtain ⟨str, -, taken⟩ := Option.bind_eq_some_iff.mp taken
        obtain ⟨targets, -, ⟨⟩⟩ := Option.bind_eq_some_iff.mp taken
        exact ⟨fun _ => rfl, fun _ => rfl, fun _ => rfl, fun _ => rfl, fun _ => rfl, absurd named⟩
    · cases taken
      simp only [implies_true, and_self]

theorem declaresText_of_load {files : List ConfFile} {name : Str} {text : Text}
    (has : HasFile files name file) (loaded : loadText malloc (joined path name) file = some text) :
    DeclaresText path files name text := by
  refine ⟨file, has, ?_⟩
  unfold loadText at loaded
  split at loaded
  · next executable =>
      cases loaded
      exact .inl ⟨executable, rfl⟩
  · next plain =>
      obtain ⟨str, read, rfl⟩ := Option.map_eq_some_iff.mp loaded
      exact .inr ⟨Bool.eq_false_of_not_eq_true plain, str, reads_of_file2str read, rfl⟩

theorem load_of_declaresText (hmalloc : ∀ n, malloc n = true) {files : List ConfFile}
    (nodup : (files.map ConfFile.dName).Nodup) {name : Str} {text : Text}
    (declared : DeclaresText path files name text) (has : HasFile files name file) :
    loadText malloc (joined path name) file = some text := by
  obtain ⟨other, there, rest⟩ := declared
  obtain rfl := HasFile.unique nodup there has
  unfold loadText
  obtain ⟨executable, rfl⟩ | ⟨plain, str, read, rfl⟩ := rest
  · exact if_pos executable
  · rw [if_neg (by simp [plain]), file2str_of_reads hmalloc read]
    rfl

/-! What is loaded of a notification. -/

section Loaded

variable {files : List ConfFile} (nodup : (files.map ConfFile.dName).Nodup)
  (done : files.foldlM (notificationFile malloc configured path) {} = some t)
include nodup done

theorem hasFile_filter :
    Lacks files "filter".toList ∧ t.filter = none ∨
      ∃ file, HasFile files "filter".toList file ∧ file.executable = true ∧
        t.filter = some (joined path "filter".toList) := by
  obtain ⟨lacks, kept⟩ | ⟨file, u, v, has, taken, -, last⟩ :=
    settled (notificationFile_skips path)
      (fun s file t taken => (notificationFile_own s file t taken).1) nodup done
  · exact .inl ⟨lacks, kept⟩
  · rw [notificationFile_filter has.2.1 has.2.2] at taken
    obtain ⟨filepath, hpath, taken⟩ := Option.bind_eq_some_iff.mp taken
    obtain ⟨executable, ⟨⟩⟩ := Option.ite_none_right_eq_some.mp taken
    exact .inr ⟨file, has, executable, joinPath_eq hpath ▸ last⟩

theorem hasFile_title :
    Lacks files "title".toList ∧ t.title = none ∨
      ∃ title, t.title = some title ∧ DeclaresText path files "title".toList title := by
  obtain ⟨lacks, kept⟩ | ⟨file, u, v, has, taken, -, last⟩ :=
    settled (notificationFile_skips path)
      (fun s file t taken => (notificationFile_own s file t taken).2.1) nodup done
  · exact .inl ⟨lacks, kept⟩
  · rw [notificationFile_title has.2.1 has.2.2] at taken
    obtain ⟨filepath, hpath, taken⟩ := Option.bind_eq_some_iff.mp taken
    obtain ⟨title, loaded, ⟨⟩⟩ := Option.bind_eq_some_iff.mp taken
    obtain rfl := joinPath_eq hpath
    exact .inr ⟨title, last, declaresText_of_load has loaded⟩

theorem hasFile_desc :
    Lacks files "desc".toList ∧ t.desc = none ∨
      ∃ desc, t.desc = some desc ∧ DeclaresText path files "desc".toList desc := by
  obtain ⟨lacks, kept⟩ | ⟨file, u, v, has, taken, -, last⟩ :=
    settled (notificationFile_skips path)
      (fun s file t taken => (notificationFile_own s file t taken).2.2.1) nodup done
  · exact .inl ⟨lacks, kept⟩
  · rw [notificationFile_desc has.2.1 has.2.2] at taken
    obtain ⟨filepath, hpath, taken⟩ := Option.bind_eq_some_iff.mp taken
    obtain ⟨desc, loaded, ⟨⟩⟩ := Option.bind_eq_some_iff.mp taken
    obtain rfl := joinPath_eq hpath
    exact .inr ⟨desc, last, declaresText_of_load has loaded⟩

theorem hasFile_level :
    Lacks files "level".toList ∧ t.level = none ∨
      ∃ level, t.level = some level ∧ DeclaresText path files "level".toList level ∧
        (level.isExe = true ∨ validLevel level.text = true) := by
  obtain ⟨lacks, kept⟩ | ⟨file, u, v, has, taken, -, last⟩ :=
    settled (notificationFile_skips path)
      (fun s file t taken => (notificationFile_own s file t taken).2.2.2.1) nodup done
  · exact .inl ⟨lacks, kept⟩
  · rw [notificationFile_level has.2.1 has.2.2] at taken
    obtain ⟨filepath, hpath, taken⟩ := Option.bind_eq_some_iff.mp taken
    obtain ⟨level, loaded, taken⟩ := Option.bind_eq_some_iff.mp taken
    obtain ⟨valid, ⟨⟩⟩ := Option.ite_none_right_eq_some.mp taken
    obtain rfl := joinPath_eq hpath
    exact .inr ⟨level, last, declaresText_of_load has loaded, Bool.or_eq_true_iff.mp valid⟩

theorem hasFile_source :
    Lacks files "source".toList ∧ t.monitoredFiles.val = [] ∨
      ∃ file str, HasFile files "source".toList file ∧ Reads file str ∧
        List.Forall₂ DeclaresSource (strtok str) t.monitoredFiles.val := by
  obtain ⟨lacks, kept⟩ | ⟨file, u, v, has, taken, begun, last⟩ :=
    settled (notificationFile_skips path)
      (fun s file t taken => (notificationFile_own s file t taken).2.2.2.2.1) nodup done
  · exact .inl ⟨lacks, congrArg Subtype.val kept⟩
  · rw [notificationFile_source has.2.1 has.2.2] at taken
    obtain ⟨-, -, taken⟩ := Option.bind_eq_some_iff.mp taken
    obtain ⟨str, read, taken⟩ := Option.bind_eq_some_iff.mp taken
    obtain ⟨sources, added, ⟨⟩⟩ := Option.bind_eq_some_iff.mp taken
    obtain ⟨more, declared, contents⟩ :=
      Table.pushed added fun token _ table table' => addSourceToken_eq
    rw [begun] at contents
    rw [last]
    exact .inr ⟨file, str, has, reads_of_file2str read, contents ▸ declared⟩

theorem hasFile_target : ChoosesTargets configured.val files t.targets.val := by
  obtain ⟨lacks, kept⟩ | ⟨file, u, v, has, taken, begun, last⟩ :=
    settled (notificationFile_skips path)
      (fun s file t taken => (notificationFile_own s file t taken).2.2.2.2.2) nodup done
  · exact .inl ⟨lacks, congrArg Subtype.val kept⟩
  · rw [notificationFile_target has.2.1 has.2.2] at taken
    obtain ⟨-, -, taken⟩ := Option.bind_eq_some_iff.mp taken
    obtain ⟨str, read, taken⟩ := Option.bind_eq_some_iff.mp taken
    obtain ⟨targets, added, ⟨⟩⟩ := Option.bind_eq_some_iff.mp taken
    obtain ⟨more, named, contents⟩ :=
      Table.pushed added fun token _ table table' => addTargetToken_eq
    rw [begun] at contents
    rw [last]
    exact .inr ⟨file, str, has, reads_of_file2str read, contents ▸ named⟩

end Loaded

/-- The notification that is loaded is the one that is declared. -/
theorem allocNotification_declares {dir : ConfDir} (proper : dir.Proper)
    {notif : Notification configured.val.length}
    (loaded : allocNotification malloc configured path dir = some notif) :
    DeclaresNotification configured.val path dir notif := by
  obtain ⟨notificationDir, hdir, loaded⟩ := Option.bind_eq_some_iff.mp loaded
  obtain ⟨-, -, loaded⟩ := Option.bind_eq_some_iff.mp loaded
  obtain ⟨name, hname, loaded⟩ := Option.bind_eq_some_iff.mp loaded
  obtain ⟨files, hfiles, loaded⟩ := Option.bind_eq_some_iff.mp loaded
  obtain ⟨fields, done, loaded⟩ := Option.bind_eq_some_iff.mp loaded
  obtain ⟨filter, hfilter, loaded⟩ := Option.bind_eq_some_iff.mp loaded
  obtain ⟨-, -, loaded⟩ := Option.bind_eq_some_iff.mp loaded
  obtain ⟨title, htitle, loaded⟩ := Option.bind_eq_some_iff.mp loaded
  obtain ⟨_, titled, loaded⟩ := Option.bind_eq_some_iff.mp loaded
  obtain ⟨desc, hdesc, loaded⟩ := Option.bind_eq_some_iff.mp loaded
  obtain ⟨_, described, loaded⟩ := Option.bind_eq_some_iff.mp loaded
  obtain ⟨level, hlevel, loaded⟩ := Option.bind_eq_some_iff.mp loaded
  obtain ⟨-, -, loaded⟩ := Option.bind_eq_some_iff.mp loaded
  obtain ⟨pos, ⟨⟩⟩ := Option.dite_none_right_eq_some.mp loaded
  obtain rfl := joinPath_eq hdir
  have nodup := proper files hfiles
  refine ⟨strdup_eq hname, files, hfiles, ?_⟩
  obtain ⟨-, missing⟩ | filtered := hasFile_filter nodup done
  · cases missing.symm.trans hfilter
  obtain ⟨-, missing⟩ | ⟨_, htitle', declaredTitle⟩ := hasFile_title nodup done
  · cases missing.symm.trans htitle
  obtain ⟨-, missing⟩ | ⟨_, hdesc', declaredDesc⟩ := hasFile_desc nodup done
  · cases missing.symm.trans hdesc
  obtain ⟨-, missing⟩ | ⟨_, hlevel', declaredLevel, valid⟩ := hasFile_level nodup done
  · cases missing.symm.trans hlevel
  obtain ⟨-, missing⟩ | sources := hasFile_source nodup done
  · rw [missing] at pos
    cases pos
  cases htitle'.symm.trans htitle
  cases hdesc'.symm.trans hdesc
  cases hlevel'.symm.trans hlevel
  obtain ⟨file, has, executable, there⟩ := filtered
  refine ⟨⟨file, has, executable, Option.some.inj (hfilter.symm.trans there)⟩, declaredTitle,
    (Option.guard_eq_some' _).mp titled, declaredDesc, (Option.guard_eq_some' _).mp described,
    declaredLevel, valid, sources, fields.targets.val, hasFile_target nodup done, ?_⟩
  simp only [List.length_eq_zero_iff]
  split
  · rfl
  · rfl

/-- Every file of a declared notification is accepted where its own table is still empty. -/
theorem notificationFile_accepts (hmalloc : ∀ n, malloc n = true) {files : List ConfFile}
    (nodup : (files.map ConfFile.dName).Nodup) {notif : Notification configured.val.length}
    (declared : NotificationIn configured.val path files notif) (member : file ∈ files)
    (s : NotificationFields configured.val.length)
    (freshSource : file.dName = "source".toList → s.monitoredFiles.val = [])
    (freshTarget : file.dName = "target".toList → s.targets.val = []) :
    ∃ t, notificationFile malloc configured path s file = some t := by
  cases reg : file.isReg with
  | false => exact ⟨s, notificationFile_skips path s file reg⟩
  | true =>
      by_cases hfilter : file.dName = "filter".toList
      · obtain ⟨other, has, executable, -⟩ := declared.filter
        obtain rfl := HasFile.unique nodup has ⟨member, reg, hfilter⟩
        rw [notificationFile_filter reg hfilter, joinPath_some hmalloc]
        exact ⟨_, if_pos executable⟩
      by_cases htitle : file.dName = "title".toList
      · rw [notificationFile_title reg htitle, joinPath_some hmalloc, Option.bind_some,
          load_of_declaresText hmalloc nodup declared.title ⟨member, reg, htitle⟩]
        exact ⟨_, rfl⟩
      by_cases hdesc : file.dName = "desc".toList
      · rw [notificationFile_desc reg hdesc, joinPath_some hmalloc, Option.bind_some,
          load_of_declaresText hmalloc nodup declared.desc ⟨member, reg, hdesc⟩]
        exact ⟨_, rfl⟩
      by_cases hlevel : file.dName = "level".toList
      · rw [notificationFile_level reg hlevel, joinPath_some hmalloc, Option.bind_some,
          load_of_declaresText hmalloc nodup declared.level ⟨member, reg, hlevel⟩]
        exact ⟨_, if_pos (Bool.or_eq_true_iff.mpr declared.level_valid)⟩
      by_cases hsource : file.dName = "source".toList
      · obtain ⟨other, str, has, read, sources⟩ := declared.sources
        obtain rfl := HasFile.unique nodup has ⟨member, reg, hsource⟩
        have room : s.monitoredFiles.val.length + notif.monitoredFiles.length ≤
            maxNumMonitoredFilesPerNotification := by
          rw [freshSource hsource, List.length_nil, Nat.zero_add]
          exact notif.monitoredFiles_le
        obtain ⟨table, added, -⟩ :=
          Table.pushes_all sources (addSourceToken_push hmalloc) room
        rw [notificationFile_source reg hsource, joinPath_some hmalloc, Option.bind_some,
          file2str_of_reads hmalloc read, Option.bind_some, added]
        exact ⟨_, rfl⟩
      by_cases htarget : file.dName = "target".toList
      · obtain ⟨chosen, ⟨lacks, -⟩ | ⟨other, str, has, read, named⟩, all⟩ := declared.targets
        · exact absurd ⟨member, reg, htarget⟩ (lacks file)
        obtain rfl := HasFile.unique nodup has ⟨member, reg, htarget⟩
        have room : s.targets.val.length + chosen.length ≤ maxNumTargets := by
          rw [freshTarget htarget, List.length_nil, Nat.zero_add]
          have fits := notif.targets_le
          rw [all] at fits
          split at fits
          · next empty => simp only [empty, List.length_nil, Nat.zero_le]
          · exact fits
        obtain ⟨table, added, -⟩ :=
          Table.pushes_all named (fun table _ => addTargetToken_push table) room
        rw [notificationFile_target reg htarget, joinPath_some hmalloc, Option.bind_some,
          file2str_of_reads hmalloc read, Option.bind_some, added]
        exact ⟨_, rfl⟩
      · unfold notificationFile
        rw [if_neg (ne_false_of_eq_true reg), joinPath_some hmalloc]
        dsimp only [Option.bind_eq_bind, Option.bind_some]
        rw [if_neg hfilter, if_neg htitle, if_neg hdesc, if_neg hlevel, if_neg hsource,
          if_neg htarget]
        exact ⟨s, rfl⟩

theorem DeclaresText.unique {files : List ConfFile} (nodup : (files.map ConfFile.dName).Nodup)
    {name : Str} {a b : Text} (ha : DeclaresText path files name a)
    (hb : DeclaresText path files name b) : a = b := by
  have ⟨file, has, _⟩ := ha
  have load : ∀ text, DeclaresText path files name text →
      loadText (fun _ => true) (joined path name) file = some text :=
    fun text declared => load_of_declaresText (fun _ => rfl) nodup declared has
  exact Option.some.inj ((load a ha).symm.trans (load b hb))

theorem DeclaresText.ne_nil {files : List ConfFile} {name : Str} (named : name ≠ []) {level : Text}
    (declared : DeclaresText path files name level)
    (valid : level.isExe = true ∨ validLevel level.text = true) : level.text ≠ [] := by
  obtain ⟨_, -, ⟨-, rfl⟩ | ⟨-, _, -, rfl⟩⟩ := declared
  · exact joined_ne_nil path named
  · intro empty
    obtain exe | level := valid
    · cases exe
    · rw [empty] at level
      exact absurd level (by decide)

theorem rightUnique_declaresSource : Relator.RightUnique DeclaresSource := fun _ _ _ ha hb =>
  (sourceOfToken_eq.mpr ha).1.symm.trans (sourceOfToken_eq.mpr hb).1

theorem rightUnique_namesTarget (targets : List Target) :
    Relator.RightUnique (NamesTarget targets) := by
  intro token a b ha hb
  by_contra differ
  obtain before | before := Ne.lt_or_gt differ
  · exact hb.2 a before ha.1
  · exact ha.2 b before hb.1

theorem ChoosesTargets.unique {targets : List Target} {files : List ConfFile}
    (nodup : (files.map ConfFile.dName).Nodup) {a b : List (Fin targets.length)}
    (ha : ChoosesTargets targets files a) (hb : ChoosesTargets targets files b) : a = b := by
  obtain ⟨lacks, rfl⟩ | ⟨file, str, has, read, named⟩ := ha
  · obtain ⟨-, rfl⟩ | ⟨file, _, has, -⟩ := hb
    · rfl
    · exact absurd has (lacks file)
  · obtain ⟨lacks, -⟩ | ⟨file', str', has', read', named'⟩ := hb
    · exact absurd has (lacks file)
    · obtain rfl := HasFile.unique nodup has has'
      obtain rfl := read.unique read'
      exact (rightUnique_namesTarget targets).forall₂ named named'

theorem DeclaresNotification.unique {targets : List Target} {dir : ConfDir} (proper : dir.Proper)
    {a b : Notification targets.length} (ha : DeclaresNotification targets path dir a)
    (hb : DeclaresNotification targets path dir b) : a = b := by
  obtain ⟨name, files, hfiles, ha⟩ := ha
  obtain ⟨name', files', hfiles', hb⟩ := hb
  obtain rfl := Option.some.inj (hfiles.symm.trans hfiles')
  have nodup := proper files hfiles
  obtain ⟨-, -, -, filter⟩ := ha.filter
  obtain ⟨-, -, -, filter'⟩ := hb.filter
  have title := ha.title.unique nodup hb.title
  have desc := ha.desc.unique nodup hb.desc
  have level := ha.level.unique nodup hb.level
  have sources : a.monitoredFiles = b.monitoredFiles := by
    obtain ⟨file, str, has, read, declared⟩ := ha.sources
    obtain ⟨file', str', has', read', declared'⟩ := hb.sources
    obtain rfl := HasFile.unique nodup has has'
    obtain rfl := read.unique read'
    exact rightUnique_declaresSource.forall₂ declared declared'
  have chosen : a.targets = b.targets := by
    obtain ⟨chosen, chooses, all⟩ := ha.targets
    obtain ⟨chosen', chooses', all'⟩ := hb.targets
    obtain rfl := chooses.unique nodup chooses'
    exact all.trans all'.symm
  cases a
  cases b
  simp_all

/-- A declared notification is loaded. -/
theorem allocNotification_declared (hmalloc : ∀ n, malloc n = true) {dir : ConfDir}
    (proper : dir.Proper) {notif : Notification configured.val.length}
    (declared : DeclaresNotification configured.val path dir notif) :
    allocNotification malloc configured path dir = some notif := by
  suffices loads : ∃ loaded, allocNotification malloc configured path dir = some loaded by
    obtain ⟨loaded, h⟩ := loads
    rw [h, (allocNotification_declares proper h).unique proper declared]
  obtain ⟨-, files, hfiles, fields⟩ := declared
  have nodup := proper files hfiles
  have own : ∀ key, Fields.Own (notificationFile malloc configured (joined path dir.dName))
      ConfFile.dName (fun s => (key = "source".toList → s.monitoredFiles.val = []) ∧
        (key = "target".toList → s.targets.val = [])) key := by
    intro key s file t taken other
    have kept := notificationFile_own s file t taken
    apply and_congr
    · exact forall_congr' fun same => by rw [kept.2.2.2.2.1 (same ▸ other)]
    · exact forall_congr' fun same => by rw [kept.2.2.2.2.2 (same ▸ other)]
  obtain ⟨t, done⟩ :
    ∃ t, files.foldlM (notificationFile malloc configured (joined path dir.dName)) {} =
      some t :=
    Fields.complete own nodup
      (fun file member s fresh =>
        notificationFile_accepts hmalloc nodup fields member s fresh.1 fresh.2)
      (fun _ => ⟨fun _ => rfl, fun _ => rfl⟩)
  obtain ⟨lacks, -⟩ | ⟨-, -, -, hfilter⟩ := hasFile_filter nodup done
  · obtain ⟨file, has, -⟩ := fields.filter
    exact absurd has (lacks file)
  obtain ⟨lacks, -⟩ | ⟨title, htitle, declaredTitle⟩ := hasFile_title nodup done
  · obtain ⟨file, has, -⟩ := fields.title
    exact absurd has (lacks file)
  obtain ⟨lacks, -⟩ | ⟨desc, hdesc, declaredDesc⟩ := hasFile_desc nodup done
  · obtain ⟨file, has, -⟩ := fields.desc
    exact absurd has (lacks file)
  obtain ⟨lacks, -⟩ | ⟨level, hlevel, declaredLevel, -⟩ := hasFile_level nodup done
  · obtain ⟨file, has, -⟩ := fields.level
    exact absurd has (lacks file)
  obtain rfl := declaredTitle.unique nodup fields.title
  obtain rfl := declaredDesc.unique nodup fields.desc
  obtain rfl := declaredLevel.unique nodup fields.level
  have pos : 0 < t.monitoredFiles.val.length := by
    obtain ⟨file, str, has, read, declared⟩ := fields.sources
    obtain ⟨lacks, -⟩ | ⟨file', str', has', read', declared'⟩ := hasFile_source nodup done
    · exact absurd has (lacks file)
    · obtain rfl := HasFile.unique nodup has has'
      obtain rfl := read.unique read'
      rw [rightUnique_declaresSource.forall₂ declared' declared]
      exact notif.monitoredFiles_pos
  unfold allocNotification
  rw [joinPath_some hmalloc, strdup_some hmalloc, hfiles, hmalloc]
  simp only [Option.bind_eq_bind, Option.bind_some, guard_true, done, hfilter, htitle,
    hdesc, hlevel]
  rw [(Option.guard_eq_some' ()).mpr (joined_ne_nil _ (by decide)),
    (Option.guard_eq_some' ()).mpr fields.title_ne_nil,
    (Option.guard_eq_some' ()).mpr fields.desc_ne_nil,
    (Option.guard_eq_some' ()).mpr (fields.level.ne_nil (by decide) fields.level_valid)]
  exact ⟨_, dif_pos pos⟩

end Files

/-! ## Directories -/

section Entries

variable {size : Nat} {α : Type} {alloc : ConfDir → Option α} {dirs : List ConfDir}
  {R : ConfDir → α → Prop}

theorem loadEntry_skips (table : Table size α) (dir : ConfDir) (other : dir.loaded = false) :
    loadEntry alloc table dir = some table := if_pos other

theorem loadEntry_push {table : Table size α} {dir : ConfDir} (looked : dir.loaded = true)
    (room : table.val.length < size) : loadEntry alloc table dir = alloc dir >>= table.push := by
  rw [loadEntry, if_neg (ne_false_of_eq_true looked), if_pos room]

theorem loadEntries_sound (sound : ∀ dir ∈ dirs, ∀ a, alloc dir = some a → R dir a)
    {table : Table size α}
    (done : dirs.foldlM (loadEntry alloc) ⟨[], Nat.zero_le _⟩ = some table) :
    List.Forall₂ R (dirs.filter ConfDir.loaded) table.val := by
  rw [← foldlM_filter_skipped loadEntry_skips] at done
  have each : ∀ dir ∈ dirs.filter ConfDir.loaded, ∀ table table' : Table size α,
      loadEntry alloc table dir = some table' → ∃ a, R dir a ∧ table.push a = some table' := by
    intro dir member table table' taken
    obtain ⟨member, looked⟩ := List.mem_filter.mp member
    rw [loadEntry, if_neg (ne_false_of_eq_true looked)] at taken
    obtain ⟨-, taken⟩ := Option.ite_none_right_eq_some.mp taken
    obtain ⟨a, allocated, added⟩ := Option.bind_eq_some_iff.mp taken
    exact ⟨a, sound dir member a allocated, added⟩
  obtain ⟨more, related, contents⟩ := Table.pushed done each
  rw [contents]
  exact related

theorem loadEntries_complete (complete : ∀ dir ∈ dirs, ∀ a, R dir a → alloc dir = some a)
    {xs : List α} (related : List.Forall₂ R (dirs.filter ConfDir.loaded) xs)
      (fits : xs.length ≤ size) :
    dirs.foldlM (loadEntry alloc) ⟨[], Nat.zero_le _⟩ = some (⟨xs, fits⟩ : Table size α) := by
  have each : ∀ dir ∈ dirs.filter ConfDir.loaded, dir ∈ dirs ∧ dir.loaded = true :=
    fun dir member => List.mem_filter.mp member
  have accepts : ∀ table : Table size α, table.val.length < size → ∀ dir a,
      ((dir ∈ dirs ∧ dir.loaded = true) ∧ R dir a) → loadEntry alloc table dir = table.push a := by
    rintro table room dir a ⟨⟨member, looked⟩, declared⟩
    rw [loadEntry_push looked room, complete dir member a declared]
    rfl
  have room : (⟨[], Nat.zero_le _⟩ : Table size α).val.length + xs.length ≤ size :=
    (Nat.zero_add _).le.trans fits
  obtain ⟨table, done, contents⟩ :=
    Table.pushes_all ((List.forall₂_and_left _ _).mpr ⟨each, related⟩) accepts room
  rw [foldlM_filter_skipped loadEntry_skips] at done
  rw [done]
  exact congrArg some (Subtype.ext contents)

end Entries

/-! ## The context -/

variable {malloc : Nat → Bool}

theorem loadConfig_declares {tree : ConfTree} (proper : tree.Proper) {config : Config}
    (loaded : loadConfig malloc tree = some config) : Declares tree config := by
  obtain ⟨targetsDir, hpath, loaded⟩ := Option.bind_eq_some_iff.mp loaded
  obtain ⟨targets, htargets, loaded⟩ := Option.bind_eq_some_iff.mp loaded
  obtain ⟨notificationsDir, hpath', loaded⟩ := Option.bind_eq_some_iff.mp loaded
  obtain ⟨notifications, hnotifications, ⟨⟩⟩ := Option.bind_eq_some_iff.mp loaded
  obtain ⟨dirs, hdirs, done⟩ := Option.bind_eq_some_iff.mp htargets
  obtain ⟨dirs', hdirs', done'⟩ := Option.bind_eq_some_iff.mp hnotifications
  obtain rfl := joinPath_eq hpath
  obtain rfl := joinPath_eq hpath'
  refine ⟨⟨dirs, hdirs, ?_⟩, ⟨dirs', hdirs', ?_⟩⟩
  · exact loadEntries_sound
      (fun dir member _ => allocTarget_declares (proper.1 dirs hdirs dir member)) done
  · exact loadEntries_sound
      (fun dir member _ => allocNotification_declares (proper.2 dirs' hdirs' dir member)) done'

theorem loadConfig_declared (hmalloc : ∀ n, malloc n = true) {tree : ConfTree}
    (proper : tree.Proper) {config : Config} (declared : Declares tree config) :
    loadConfig malloc tree = some config := by
  obtain ⟨⟨dirs, hdirs, targets⟩, dirs', hdirs', notifications⟩ := declared
  have loadsTargets :
    loadConfigTargets malloc (joined tree.cfgdir "targets.d".toList) tree.targets =
      some ⟨config.targets, config.targets_le⟩ := by
    rw [loadConfigTargets, hdirs]
    exact loadEntries_complete
      (fun dir member _ => allocTarget_declared hmalloc (proper.1 dirs hdirs dir member))
      targets config.targets_le
  have loadsNotifications : loadConfigNotifications malloc ⟨config.targets, config.targets_le⟩
      (joined tree.cfgdir "notifications.d".toList) tree.notifications =
        some ⟨config.notifications, config.notifications_le⟩ := by
    rw [loadConfigNotifications, hdirs']
    exact loadEntries_complete
      (fun dir member _ => allocNotification_declared hmalloc (proper.2 dirs' hdirs' dir member))
      notifications config.notifications_le
  rw [loadConfig, joinPath_some hmalloc, joinPath_some hmalloc]
  dsimp only [Option.bind_eq_bind, Option.bind_some]
  rw [loadsTargets, Option.bind_some, loadsNotifications, Option.bind_some]

/-- The table of monitored files can be made where no path has two types. -/
theorem createContext_consistent (hmalloc : ∀ n, malloc n = true) {config : Config}
    (consistent : config.Consistent) : ∃ ctx, createContext malloc config = some ctx := by
  have accepts : ∀ source ∈ config.sources, ∀ files : List Source,
      (∀ file ∈ files, file ∈ config.sources) →
        ∃ files', addSource malloc files source = some files' ∧
          ∀ file ∈ files', file ∈ config.sources := by
    intro source member files known
    unfold addSource
    split
    · next file found =>
        have same : file.path = source.path := by simpa using List.find?_some found
        have typed := consistent file
          (known file (List.mem_of_find?_eq_some found)) source member same
        exact ⟨files, if_pos typed, known⟩
    · refine ⟨files ++ [source], if_pos (hmalloc _), fun file inside => ?_⟩
      obtain old | new := List.mem_append.mp inside
      · exact known file old
      · exact List.mem_singleton.mp new ▸ member
  have eachNotification : ∀ notif ∈ config.notifications, ∀ files : List Source,
      (∀ file ∈ files, file ∈ config.sources) →
        ∃ files', notif.monitoredFiles.foldlM (addSource malloc) files = some files' ∧
          ∀ file ∈ files', file ∈ config.sources := by
    intro notif member files known
    exact foldlM_accepted (P := fun files : List Source => ∀ file ∈ files, file ∈ config.sources)
      (fun source inside => accepts source (List.mem_flatMap.mpr ⟨notif, member, inside⟩)) known
  obtain ⟨files, done, -⟩ :=
    foldlM_accepted (P := fun files : List Source => ∀ file ∈ files, file ∈ config.sources)
      eachNotification (fun _ inside => absurd inside List.not_mem_nil)
  refine ⟨{ config with monitoredFiles := files }, ?_⟩
  rw [createContext, setMonitoredFiles, done]
  rfl

/-- The context that is created is the one the configuration directory declares, and what the
directory declares is created unless a path is a log file and a status file. -/
theorem createContextFrom_declared (malloc : Nat → Bool) (tree : ConfTree) (proper : tree.Proper) :
    (∀ ctx, createContextFrom malloc tree = some ctx →
      Declares tree ctx.toConfig ∧ ctx.Consistent ∧ Tabulated ctx.sources ctx.monitoredFiles) ∧
    ((∀ n, malloc n = true) → ∀ config, Declares tree config → config.Consistent →
      ∃ ctx, createContextFrom malloc tree = some ctx ∧ ctx.toConfig = config) := by
  constructor
  · intro ctx created
    obtain ⟨-, -, created⟩ := Option.bind_eq_some_iff.mp created
    obtain ⟨cfgdir, duplicated, created⟩ := Option.bind_eq_some_iff.mp created
    obtain rfl := strdup_eq duplicated
    obtain ⟨config, loaded, created⟩ := Option.bind_eq_some_iff.mp created
    obtain ⟨rfl, tabulated⟩ := tabulated_createContext created
    refine ⟨loadConfig_declares proper loaded, fun a ha b hb same => ?_, tabulated⟩
    rw [tabulated.eq_of_path ha hb same]
  · intro hmalloc config declared consistent
    obtain ⟨ctx, created⟩ := createContext_consistent hmalloc consistent
    refine ⟨ctx, ?_, (tabulated_createContext created).1⟩
    rw [createContextFrom, hmalloc, strdup_some hmalloc]
    dsimp only [Option.bind_eq_bind, Option.bind_some]
    rw [loadConfig_declared hmalloc proper declared]
    exact created

/-- A notification that names its target first and its filter last. -/
def reordered : ConfTree where
  cfgdir := "/etc/logmonitor".toList
  targets := some
    [{ dName := ".".toList, files := none },
      { dName := "web".toList, files := some
          [{ dName := "debouncing".toList, content := some "30\n".toList },
            { dName := "send".toList, executable := true, content := none }] }]
  notifications := some
    [{ dName := "crash".toList, files := some
          [{ dName := "target".toList, content := some "web\n".toList },
            { dName := "source".toList, content := some "/log\nstatus:/status\n".toList },
            { dName := "level".toList, content := some "ERROR\n".toList },
            { dName := "notes".toList, isReg := false, content := none },
            { dName := "desc".toList, executable := true, content := none },
            { dName := "title".toList, content := some "Crash\nof the app".toList },
            { dName := "filter".toList, executable := true, content := none }] }]

theorem proper_reordered : reordered.Proper := by
  refine ⟨fun dirs hdirs dir member files hfiles => ?_,
    fun dirs hdirs dir member files hfiles => ?_⟩
  · cases hdirs
    simp only [List.mem_cons, List.not_mem_nil, or_false] at member
    obtain rfl | rfl := member
    · cases hfiles
    · cases hfiles
      decide
  · cases hdirs
    obtain rfl := List.mem_singleton.mp member
    cases hfiles
    decide

/-- What is created is declared, and what is declared is created. -/
theorem createContextFrom_declared_reordered :
    ∃ config, Declares reordered config ∧ config.Consistent ∧
      ∃ ctx, createContextFrom (fun _ => true) reordered = some ctx ∧ ctx.toConfig = config := by
  have loads : (createContextFrom (fun _ => true) reordered).isSome = true := by decide
  obtain ⟨ctx, created⟩ := Option.isSome_iff_exists.mp loads
  have both := createContextFrom_declared (fun _ => true) reordered proper_reordered
  obtain ⟨declared, consistent, -⟩ := both.1 ctx created
  exact ⟨ctx.toConfig, declared, consistent, both.2 (fun _ => rfl) ctx.toConfig declared consistent⟩

end Baseimage.LogMonitor
