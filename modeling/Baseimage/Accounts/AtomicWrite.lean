import Baseimage.Files.FileSystem

/-!
# Replacing an account file

The tools write the new content of an account file to a temporary file beside it and rename that
over the file. The account files of an image are symbolic links, and the patched function resolves
the path first, so that the file behind a link is replaced. A path that is not found is used as it
is, which is meant for new files. It is also what happens to a link whose file does not exist yet.
-/

namespace Baseimage.AtomicWrite

inductive ShadowError where
  | ioPath (e : FsError) (path : FsPath)
  | other (msg : Str)
  deriving DecidableEq, Repr

/-- The calls that may be denied. -/
inductive Call where
  | canonicalize
  | create
  | sync
  | rename
  deriving DecidableEq, Repr

structure Environment where
  denies : Call → Bool := fun _ => false
  /-- `tmp_path_for`: the name of the temporary file beside a file. -/
  tmpName : Str → Str

def Environment.call (env : Environment) (call : Call) {α : Type} (x : Except FsError α) :
    Except FsError α :=
  if env.denies call then .error .denied else x

/-- `IoPath`. -/
def ioPath {α : Type} (path : FsPath) (x : Except FsError α) : Except ShadowError α :=
  x.mapError fun e => .ioPath e path

/-- "Resolve symlinks so rename updates the real file and leaves the link intact." -/
def writeTarget (env : Environment) (fs : FileSystem) (target : FsPath) :
    Except ShadowError FsPath :=
  match env.call .canonicalize (fs.resolve target) with
  | .ok p => .ok ⟨true, p⟩
  -- "Fall back to the original path when the target does not exist yet."
  | .error .notFound => .ok target
  | .error e => .error (.ioPath e target)

/-- `atomic_write`: the file system after the content that the closure gives is written. When a step
fails, the temporary file is removed, and the file system is as it was. -/
def atomicWrite (env : Environment) (fs : FileSystem) (target : FsPath)
    (f : Except ShadowError Str) : Except ShadowError FileSystem := do
  let writeTarget ← writeTarget env fs target
  match writeTarget.parent with
  | none => .error (.other ("no parent directory for ".toList ++ writeTarget.display))
  | some dir => do
      let tmpPath := dir.join (env.tmpName (writeTarget.components.getLastD []))
      let mode := (fs.mode target).toOption.getD 0o600
      let created ← ioPath tmpPath (env.call .create (fs.create tmpPath [] mode))
      let bytes ← f
      let written ← ioPath tmpPath (env.call .sync (created.overwrite tmpPath bytes))
      ioPath writeTarget (env.call .rename (written.rename tmpPath writeTarget))

/-- The target is a symbolic link that leads to nothing. -/
def Dangling (fs : FileSystem) (target : FsPath) : Prop :=
  (∃ e q, fs.locate target = .ok e ∧ fs.node e.path = some (.link q)) ∧
    fs.resolve target = .error .notFound

/-- What a write is meant to do: the target reads as the new content, a link is still the same link,
and nothing else changes but the file that the target denotes. -/
structure Preserved (fs fs' : FileSystem) (target : FsPath) (bytes : Str) : Prop where
  read : fs'.read target = .ok bytes
  link : ∀ e q, fs.locate target = .ok e → fs.node e.path = some (.link q) →
    fs'.node e.path = some (.link q)
  frame : ∃ p, fs'.resolve target = .ok p ∧ (∀ p', fs.resolve target = .ok p' → p' = p) ∧
    ∀ q, q ≠ p → fs'.node q = fs.node q

variable {env : Environment} {fs fs' : FileSystem} {target : FsPath} {f : Except ShadowError Str}

theorem call_ok {call : Call} {α : Type} {x : Except FsError α} {a : α}
    (h : env.call call x = .ok a) : x = .ok a := by
  unfold Environment.call at h
  split at h
  · cases h
  · exact h

theorem call_notFound {call : Call} {α : Type} {x : Except FsError α}
    (h : env.call call x = .error .notFound) : x = .error .notFound := by
  unfold Environment.call at h
  split at h
  · cases h
  · exact h

theorem ioPath_ok {α : Type} {path : FsPath} {x : Except FsError α} {a : α}
    (h : ioPath path x = .ok a) : x = .ok a := by
  cases x with
  | error e => cases h
  | ok b => exact congrArg _ (Except.ok.inj h)

/-- The place of an entry in a file system with a file more, or with another content of a file. -/
theorem locate_changed {fs fs' : FileSystem} {p : List Str} {content : Str} {mode : Nat}
    (change : FileSystem.Changed fs fs' p (some (.file content mode)))
    (before : ∀ n, fs.node p = some n → n.kind = .file) {path : FsPath} {e : fs.Slot}
    {e' : fs'.Slot} (h : fs.locate path = .ok e) (h' : fs'.locate path = .ok e') :
    e'.path = e.path := by
  obtain ⟨e'', hsame, hpath⟩ :=
    FileSystem.locate_extend change.cwd change.limit (change.keeps before) h
  obtain rfl := Except.ok.inj (hsame.symm.trans h')
  exact hpath

/-- The entries beside a path that can be located can be located. -/
theorem locate_beside {dir : FsPath} {name : Str} {a : fs.Slot}
    (h : fs.locate (dir.join name) = .ok a) {other : Str} (proper : ProperName other) :
    fs.locate (dir.join other) =
      .ok { dir := a.dir, name := other, directory := a.directory, proper := proper } := by
  obtain ⟨parent, hparent, -, hresolve⟩ := FileSystem.locate_ok h
  obtain rfl := Option.some.inj ((FsPath.parent_join dir name).symm.trans hparent)
  exact FileSystem.locate_of_resolve hresolve a.directory proper

/-- A file that was created, written and renamed to another entry, or to its own. -/
theorem update_moved {node : List Str → Option FsNode} {p q : List Str} (absent : node p = none)
    (x y : Option FsNode) :
    Function.update (Function.update (Function.update (Function.update node p x) p y) p none) q y =
      Function.update node q y := by
  rw [Function.update_idem, Function.update_idem, ← absent, Function.update_eq_self]

/-- A successful write replaces one entry, the one that the resolved path names. -/
theorem atomicWrite_ok (h : atomicWrite env fs target f = .ok fs') :
    ∃ path bytes mode e, writeTarget env fs target = .ok path ∧ f = .ok bytes ∧
      fs.locate path = .ok e ∧ fs.node e.path ≠ some .directory ∧
      FileSystem.Changed fs fs' e.path (some (.file bytes mode)) := by
  obtain ⟨path, hpath, h⟩ := Except.bind_eq_ok h
  split at h
  · cases h
  · next dir hdir =>
      obtain ⟨created, hcreate, h⟩ := Except.bind_eq_ok h
      obtain ⟨bytes, hbytes, h⟩ := Except.bind_eq_ok h
      obtain ⟨written, hwrite, h⟩ := Except.bind_eq_ok h
      obtain ⟨a, ha, absent, first⟩ := FileSystem.create_ok (call_ok (ioPath_ok hcreate))
      obtain ⟨a₁, old, mode, ha₁, hfile, second⟩ :=
        FileSystem.overwrite_ok (call_ok (ioPath_ok hwrite))
      obtain ⟨a₂, b₂, ha₂, hb₂, notDirectory, hnode, cwd, limit⟩ :=
        FileSystem.rename_ok (call_ok (ioPath_ok h))
      have none_before : ∀ n, fs.node a.path = some n → n.kind = .file :=
        fun n hn => nomatch absent.symm.trans hn
      have file_before : ∀ n, created.node a₁.path = some n → n.kind = .file :=
        fun n hn => Option.some.inj (hfile.symm.trans hn) ▸ rfl
      have same₁ : a₁.path = a.path := locate_changed first none_before ha ha₁
      have same₂ : a₂.path = a₁.path := locate_changed second file_before ha₁ ha₂
      -- The entry that is replaced is beside the temporary file.
      obtain ⟨parent, hparent, hjoin, -⟩ := FileSystem.locate_ok hb₂
      obtain rfl := Option.some.inj (hdir.symm.trans hparent)
      have hb := locate_beside ha b₂.proper
      have hb₁ := locate_beside ha₁ b₂.proper
      rw [← hjoin] at hb hb₁
      have place := (locate_changed second file_before hb₁ hb₂).trans
        (locate_changed first none_before hb hb₁)
      refine ⟨path, bytes, mode, _, hpath, hbytes, hb, ?_, ?_, ?_, ?_⟩
      · rw [← place]
        intro directory
        apply notDirectory
        rw [second.node, first.node, same₁]
        have other : b₂.path ≠ a.path := by
          intro same
          rw [same, absent] at directory
          cases directory
        rw [Function.update_of_ne other, Function.update_of_ne other, directory]
      · rw [hnode, ← place, same₂, second.node, first.node, same₁, Function.update_self,
          update_moved absent]
      · rw [cwd, second.cwd, first.cwd]
      · rw [limit, second.limit, first.limit]

/-- The new file is found under the path, where there was a file or nothing. -/
theorem read_changed {p : List Str} {bytes : Str} {mode : Nat}
    (change : FileSystem.Changed fs fs' p (some (.file bytes mode)))
    (resolved : fs'.resolve target = .ok p) : fs'.read target = .ok bytes := by
  have file : fs'.node p = some (.file bytes mode) := by rw [change.node, Function.update_self]
  unfold FileSystem.read
  rw [resolved]
  simp only [bind, Except.bind, file]

theorem preserved_of_resolve {p : List Str} {bytes : Str} {mode : Nat}
    (change : FileSystem.Changed fs fs' p (some (.file bytes mode)))
    (notLink : ∀ q, fs.node p ≠ some (.link q)) (resolved : fs'.resolve target = .ok p)
    (before : ∀ p', fs.resolve target = .ok p' → p' = p) : Preserved fs fs' target bytes where
  read := read_changed change resolved
  link e q _ hlink := by
    have other : e.path ≠ p := fun same => notLink q (same ▸ hlink)
    rw [change.node, Function.update_of_ne other, hlink]
  frame := ⟨p, resolved, before, fun q other => by rw [change.node, Function.update_of_ne other]⟩

/-- The file behind all links is replaced. -/
theorem preserved_of_found {p : List Str} {bytes : Str} {mode : Nat}
    (change : FileSystem.Changed fs fs' p (some (.file bytes mode)))
    (resolved : fs.resolve target = .ok p) (notDirectory : fs.node p ≠ some .directory) :
    Preserved fs fs' target bytes := by
  obtain ⟨n, hn, notLink⟩ := FileSystem.resolve_found resolved
  have file : n.kind = .file := by
    cases n with
    | file content mode => rfl
    | directory => exact absurd hn notDirectory
    | link q => exact absurd rfl (notLink q)
  have keeps := change.keeps fun n' hn' => Option.some.inj (hn.symm.trans hn') ▸ file
  refine preserved_of_resolve change (fun q hq => notLink q (Option.some.inj (hn.symm.trans hq)))
    (FileSystem.resolve_extend change.cwd change.limit keeps resolved) fun p' hp' => ?_
  exact Except.ok.inj (hp'.symm.trans resolved)

/-- A file is created where there was nothing. -/
theorem preserved_of_absent {e : fs.Slot} {bytes : Str} {mode : Nat}
    (change : FileSystem.Changed fs fs' e.path (some (.file bytes mode)))
    (hlocate : fs.locate target = .ok e) (absent : fs.node e.path = none)
    (missing : fs.resolve target = .error .notFound) : Preserved fs fs' target bytes := by
  have before : ∀ n, fs.node e.path = some n → n.kind = .file :=
    fun n hn => nomatch absent.symm.trans hn
  obtain ⟨e', hlocate', place⟩ :=
    FileSystem.locate_extend change.cwd change.limit (change.keeps before) hlocate
  have file : fs'.node e'.path = some (.file bytes mode) := by
    rw [place, change.node, Function.update_self]
  have resolved := FileSystem.resolve_of_locate hlocate' file fun q => nofun
  rw [place] at resolved
  exact preserved_of_resolve change (fun q hq => nomatch absent.symm.trans hq) resolved
    fun p' hp' => nomatch missing.symm.trans hp'

/-- A link that leads to nothing is replaced. -/
theorem not_preserved_of_dangling (h : atomicWrite env fs target f = .ok fs')
    (dangling : Dangling fs target) (bytes : Str) : ¬ Preserved fs fs' target bytes := by
  intro preserved
  obtain ⟨⟨e, q, hlocate, hlink⟩, missing⟩ := dangling
  obtain ⟨path, _, mode, e', hpath, -, hlocate', -, change⟩ := atomicWrite_ok h
  have replaced : fs'.node e.path = some (.link q) := preserved.link e q hlocate hlink
  unfold writeTarget at hpath
  split at hpath
  · next p hcall => cases missing.symm.trans (call_ok hcall)
  · obtain rfl := Except.ok.inj hpath
    obtain rfl := Except.ok.inj (hlocate.symm.trans hlocate')
    rw [change.node, Function.update_self] at replaced
    cases replaced
  · cases hpath

/-- A write that succeeds does what it is meant to do exactly if the target is not a link that leads
to nothing. -/
theorem preserved_iff (h : atomicWrite env fs target f = .ok fs') :
    ∃ bytes, f = .ok bytes ∧ (Preserved fs fs' target bytes ↔ ¬ Dangling fs target) := by
  obtain ⟨path, bytes, mode, e, hpath, hbytes, hlocate, notDirectory, change⟩ := atomicWrite_ok h
  refine ⟨bytes, hbytes, ?_⟩
  unfold writeTarget at hpath
  split at hpath
  · next p hcall =>
      -- The path is resolved, and the entry behind all links is replaced.
      obtain rfl := Except.ok.inj hpath
      have resolved := call_ok hcall
      obtain ⟨n, hn, -⟩ := FileSystem.resolve_found resolved
      have place := FileSystem.locate_canonical hn hlocate
      rw [place] at change notDirectory
      refine iff_of_true ?_ fun dangling => nomatch resolved.symm.trans dangling.2
      exact preserved_of_found change resolved notDirectory
  · next hcall =>
      -- The path is not found, and the entry it names itself is replaced.
      obtain rfl := Except.ok.inj hpath
      have missing := call_notFound hcall
      cases hnode : fs.node e.path with
      | none =>
          refine iff_of_true (preserved_of_absent change hlocate hnode missing) ?_
          rintro ⟨⟨e', q, he', hq⟩, -⟩
          obtain rfl := Except.ok.inj (hlocate.symm.trans he')
          cases hnode.symm.trans hq
      | some n =>
          cases n with
          | directory => exact absurd hnode notDirectory
          | file content mode =>
              have found := FileSystem.resolve_of_locate hlocate hnode fun q => nofun
              cases missing.symm.trans found
          | link q =>
              have dangling : Dangling fs target := ⟨⟨e, q, hlocate, hnode⟩, missing⟩
              exact iff_of_false (not_preserved_of_dangling h dangling bytes)
                fun whole => whole dangling
  · cases hpath

/-! ## The files of an image -/

/-- Nothing but the root. -/
def rootOnly : FileSystem where
  node p := if p = [] then some .directory else none
  cwd := []
  limit := 40
  root := rfl
  tree p c n h := by simp at h
  names p c n h := by simp at h
  cwd_directory := rfl

def etc : Str := "etc".toList
def tmp : Str := "tmp".toList

/-- `/etc/group` is a link to `/tmp/.group`, which is not there before the container is
initialized. -/
def imageFiles : FileSystem :=
  let fs := rootOnly.set ⟨[], etc, rfl, by decide⟩ (some .directory) (by decide)
  let fs := fs.set ⟨[], tmp, rfl, by decide⟩ (some .directory) (by decide)
  fs.set ⟨[etc], "group".toList, rfl, by decide⟩
    (some (.link ⟨true, [tmp, ".group".toList]⟩)) (by decide)

/-- The files with the file behind the link. -/
def initializedFiles : FileSystem :=
  imageFiles.set ⟨[tmp], ".group".toList, rfl, by decide⟩ (some (.file [] 0o644)) (by decide)

def groupPath : FsPath := ⟨true, [etc, "group".toList]⟩

def plain : Environment := { tmpName := fun name => '.' :: name ++ ".tmp".toList }

theorem written_of_isOk {fs : FileSystem} {bytes : Str}
    (h : (atomicWrite plain fs groupPath (.ok bytes)).isOk = true) :
    ∃ fs', atomicWrite plain fs groupPath (.ok bytes) = .ok fs' := by
  cases hwrite : atomicWrite plain fs groupPath (.ok bytes) with
  | ok fs' => exact ⟨fs', rfl⟩
  | error e =>
      rw [hwrite] at h
      cases h

theorem preserved_iff_initialized :
    ∃ fs', atomicWrite plain initializedFiles groupPath (.ok "staff:x:50:\n".toList) = .ok fs' ∧
      Preserved initializedFiles fs' groupPath "staff:x:50:\n".toList := by
  have succeeds :
      (atomicWrite plain initializedFiles groupPath (.ok "staff:x:50:\n".toList)).isOk = true := by
    decide +kernel
  obtain ⟨fs', h⟩ := written_of_isOk succeeds
  obtain ⟨bytes, hbytes, whole⟩ := preserved_iff h
  obtain rfl := Except.ok.inj hbytes
  exact ⟨fs', h, whole.mpr fun dangling => nomatch dangling.2⟩

theorem not_preserved_image :
    ¬ ∀ (env : Environment) (fs fs' : FileSystem) (target : FsPath) (bytes : Str),
      atomicWrite env fs target (.ok bytes) = .ok fs' → Preserved fs fs' target bytes := by
  intro claim
  have succeeds :
    (atomicWrite plain imageFiles groupPath (.ok "staff:x:50:\n".toList)).isOk = true := by
    decide +kernel
  obtain ⟨fs', h⟩ := written_of_isOk succeeds
  exact not_preserved_of_dangling h ⟨⟨_, _, rfl, rfl⟩, rfl⟩ _ (claim _ _ _ _ _ h)

end Baseimage.AtomicWrite
