import Baseimage.Run.Outcome
import Baseimage.Text.CString

/-!
# File systems with symbolic links

A file system maps the paths that name an entry without following a link to what is there. The
entries make a tree of directories. A path is resolved from its first component to its last one, and
a link on the way is replaced by its own path, up to a limit of links. Creating a file and renaming
one change an entry of a directory and do not follow a link that is there.
-/

/-- Why a call on a path fails. -/
inductive FsError where
  | notFound
  | notADirectory
  | isADirectory
  | exists
  | tooManyLinks
  | invalid
  | denied
  deriving DecidableEq, Repr

/-- A path as it is written, absolute or from the working directory. -/
structure FsPath where
  absolute : Bool
  components : List Str
  deriving DecidableEq, Repr

inductive FsNode where
  | file (content : Str) (mode : Nat)
  | directory
  | link (path : FsPath)
  deriving DecidableEq, Repr

/-- What resolving a path sees of a node. -/
inductive FsKind where
  | file
  | directory
  | link (path : FsPath)
  deriving DecidableEq, Repr

def FsNode.kind : FsNode → FsKind
  | .file _ _ => .file
  | .directory => .directory
  | .link path => .link path

/-- A name of an entry. -/
def ProperName (c : Str) : Prop := c ≠ ['.'] ∧ c ≠ ['.', '.']

instance (c : Str) : Decidable (ProperName c) := inferInstanceAs (Decidable (_ ∧ _))

/-- A file system, seen by a process in a directory of it. -/
structure FileSystem where
  node : List Str → Option FsNode
  cwd : List Str
  /-- How many links are followed for one path. -/
  limit : Nat
  root : node [] = some .directory
  tree : ∀ p c n, node (p ++ [c]) = some n → node p = some .directory
  names : ∀ p c n, node (p ++ [c]) = some n → ProperName c
  cwd_directory : node cwd = some .directory

namespace FsPath

/-- The path without its last component. -/
def parent (p : FsPath) : Option FsPath :=
  if p.components = [] then none else some { p with components := p.components.dropLast }

/-- The path as it is shown. -/
def display (p : FsPath) : Str :=
  (if p.absolute then ['/'] else []) ++ ['/'].intercalate p.components

def join (p : FsPath) (c : Str) : FsPath := { p with components := p.components ++ [c] }

theorem parent_join (p : FsPath) (c : Str) : (p.join c).parent = some p := by
  simp [parent, join]

end FsPath

namespace FileSystem

/-- Go on with the components of a path in a directory, where a link is followed with the given
function. -/
def walk (fs : FileSystem) (follow : List Str → List Str → Except FsError (List Str)) :
    List Str → List Str → Except FsError (List Str)
  | done, [] => .ok done
  | done, c :: cs =>
      if c = ['.'] then fs.walk follow done cs
      else if c = ['.', '.'] then fs.walk follow done.dropLast cs
      else
        match fs.node (done ++ [c]) with
        | none => .error .notFound
        | some .directory => fs.walk follow (done ++ [c]) cs
        | some (.link p) => follow (if p.absolute then [] else done) (p.components ++ cs)
        | some (.file _ _) => if cs = [] then .ok (done ++ [c]) else .error .notADirectory

/-- Resolve a path, following so many links. -/
def follow (fs : FileSystem) : Nat → List Str → List Str → Except FsError (List Str)
  | 0 => fs.walk fun _ _ => .error .tooManyLinks
  | n + 1 => fs.walk (fs.follow n)

/-- The directory from which a path is resolved. -/
def start (fs : FileSystem) (p : FsPath) : List Str := if p.absolute then [] else fs.cwd

/-- The entry that a path denotes. -/
def resolve (fs : FileSystem) (p : FsPath) : Except FsError (List Str) :=
  fs.follow fs.limit (fs.start p) p.components

/-- The text of the file that a path denotes. -/
def read (fs : FileSystem) (p : FsPath) : Except FsError Str := do
  match fs.node (← fs.resolve p) with
  | some (.file content _) => .ok content
  | some _ => .error .isADirectory
  | none => .error .notFound

/-- The permissions of the file that a path denotes. -/
def mode (fs : FileSystem) (p : FsPath) : Except FsError Nat := do
  match fs.node (← fs.resolve p) with
  | some (.file _ mode) => .ok mode
  | some _ => .ok 0o755
  | none => .error .notFound

/-- A place for an entry: a name in a directory. -/
structure Slot (fs : FileSystem) where
  dir : List Str
  name : Str
  directory : fs.node dir = some .directory
  proper : ProperName name

def Slot.path {fs : FileSystem} (e : fs.Slot) : List Str := e.dir ++ [e.name]

/-- The place of the entry that a path names, whose last component is not followed. -/
def locate (fs : FileSystem) (p : FsPath) : Except FsError fs.Slot :=
  match p.parent, p.components.getLast? with
  | some parent, some name =>
      match fs.resolve parent with
      | .error e => .error e
      | .ok dir =>
          if directory : fs.node dir = some .directory then
            if proper : ProperName name then .ok { dir, name, directory, proper }
            else .error .invalid
          else .error .notADirectory
  | _, _ => .error .invalid

variable {fs : FileSystem}

theorem update_directory {p q : List Str} {n : Option FsNode} (h : fs.node p ≠ some .directory)
    (hq : fs.node q = some .directory) : Function.update fs.node p n q = some .directory := by
  rwa [Function.update_of_ne fun same : q = p => h (same ▸ hq)]

/-- Change an entry that is not a directory. -/
def set (fs : FileSystem) (e : fs.Slot) (n : Option FsNode)
    (h : fs.node e.path ≠ some .directory) : FileSystem where
  node := Function.update fs.node e.path n
  cwd := fs.cwd
  limit := fs.limit
  root := update_directory h fs.root
  tree := by
    intro q c m hm
    by_cases same : q ++ [c] = e.path
    · obtain ⟨rfl, -⟩ := List.append_inj' same rfl
      exact update_directory h e.directory
    · rw [Function.update_of_ne same] at hm
      exact update_directory h (fs.tree q c m hm)
  names := by
    intro q c m hm
    by_cases same : q ++ [c] = e.path
    · obtain ⟨-, rest⟩ := List.append_inj' same rfl
      rw [(List.cons.inj rest).1]
      exact e.proper
    · rw [Function.update_of_ne same] at hm
      exact fs.names q c m hm
  cwd_directory := update_directory h fs.cwd_directory

/-- A place in the tree after a change of another entry. -/
def Slot.after {fs : FileSystem} (b : fs.Slot) (a : fs.Slot) (n : Option FsNode)
    (h : fs.node a.path ≠ some .directory) : (fs.set a n h).Slot :=
  { dir := b.dir, name := b.name, directory := update_directory h b.directory, proper := b.proper }

@[simp] theorem set_node (e : fs.Slot) (n : Option FsNode) (h : fs.node e.path ≠ some .directory) :
    (fs.set e n h).node = Function.update fs.node e.path n := rfl

@[simp] theorem after_path (a b : fs.Slot) (n : Option FsNode)
    (h : fs.node a.path ≠ some .directory) : (b.after a n h).path = b.path := rfl

theorem set_not_directory (a b : fs.Slot) (ha : fs.node a.path ≠ some .directory)
    (hb : fs.node b.path ≠ some .directory) :
    (fs.set a none ha).node (b.after a none ha).path ≠ some .directory := by
  rw [set_node, after_path]
  by_cases same : b.path = a.path
  · rw [same, Function.update_self]
    exact (Option.some_ne_none _).symm
  · rwa [Function.update_of_ne same]

/-- Create a file that is not there yet. -/
def create (fs : FileSystem) (p : FsPath) (content : Str) (mode : Nat) :
    Except FsError FileSystem := do
  let e ← fs.locate p
  if h : fs.node e.path = none then
    .ok (fs.set e (some (.file content mode)) (by simp [h]))
  else .error .exists

/-- Write to a file that was opened under its own name. -/
def overwrite (fs : FileSystem) (p : FsPath) (content : Str) : Except FsError FileSystem := do
  let e ← fs.locate p
  match h : fs.node e.path with
  | some (.file _ mode) => .ok (fs.set e (some (.file content mode)) (by simp [h]))
  | some _ => .error .invalid
  | none => .error .notFound

/-- Rename a file or a link. What has the new name is replaced, unless it is a directory. -/
def rename (fs : FileSystem) (old new : FsPath) : Except FsError FileSystem := do
  let a ← fs.locate old
  let b ← fs.locate new
  if fs.node a.path = none then .error .notFound
  else if ha : fs.node a.path = some .directory then .error .invalid
  else if hb : fs.node b.path = some .directory then .error .isADirectory
  else
    .ok ((fs.set a none ha).set (b.after a none ha) (fs.node a.path) (set_not_directory a b ha hb))

/-! ## Resolving a path -/

/-- Resolving sees the kinds of the nodes only: where nothing is lost and no kind changes, what
could be resolved is resolved as before. -/
theorem walk_extend {fs fs' : FileSystem}
    (keeps : ∀ p n, fs.node p = some n → (fs'.node p).map FsNode.kind = some n.kind)
    {follow follow' : List Str → List Str → Except FsError (List Str)}
    (same : ∀ done cs p, follow done cs = .ok p → follow' done cs = .ok p) {done cs p : List Str}
    (h : fs.walk follow done cs = .ok p) : fs'.walk follow' done cs = .ok p := by
  induction cs generalizing done with
  | nil => exact h
  | cons c cs ih =>
      unfold walk at h ⊢
      split at h
      · next dot => rw [if_pos dot]; exact ih h
      · next notDot =>
          rw [if_neg notDot]
          split at h
          · next dots => rw [if_pos dots]; exact ih h
          · next notDots =>
              rw [if_neg notDots]
              cases hnode : fs.node (done ++ [c]) with
              | none =>
                  rw [hnode] at h
                  cases h
              | some n =>
                  obtain ⟨n', hnode', hkind⟩ := Option.map_eq_some_iff.mp (keeps _ n hnode)
                  rw [hnode] at h
                  rw [hnode']
                  cases n <;> cases n' <;> cases hkind
                  · exact h
                  · exact ih h
                  · exact same _ _ _ h

theorem follow_extend {fs fs' : FileSystem}
    (keeps : ∀ p n, fs.node p = some n → (fs'.node p).map FsNode.kind = some n.kind) (k : Nat) :
    ∀ done cs p, fs.follow k done cs = .ok p → fs'.follow k done cs = .ok p := by
  induction k with
  | zero => exact fun done cs p h => walk_extend keeps (fun _ _ _ h => by cases h) h
  | succ k ih => exact fun done cs p h => walk_extend keeps ih h

theorem resolve_extend {fs fs' : FileSystem} (cwd : fs'.cwd = fs.cwd) (limit : fs'.limit = fs.limit)
    (keeps : ∀ p n, fs.node p = some n → (fs'.node p).map FsNode.kind = some n.kind) {path : FsPath}
    {p : List Str} (h : fs.resolve path = .ok p) : fs'.resolve path = .ok p := by
  unfold resolve at h ⊢
  rw [start, cwd, limit]
  exact follow_extend keeps _ _ _ _ h

/-- What a path is resolved to is there and is not a link. -/
def Found (fs : FileSystem) (p : List Str) : Prop :=
  ∃ n, fs.node p = some n ∧ ∀ q, n ≠ .link q

theorem directory_dropLast (fs : FileSystem) {p : List Str} (h : fs.node p = some .directory) :
    fs.node p.dropLast = some .directory := by
  obtain rfl | ⟨q, c, rfl⟩ := List.eq_nil_or_concat p
  · exact h
  · rw [List.concat_eq_append, List.dropLast_concat]
    exact fs.tree q c _ (List.concat_eq_append ▸ h)

theorem walk_found {follow : List Str → List Str → Except FsError (List Str)}
    (found : ∀ done cs p, fs.node done = some .directory → follow done cs = .ok p → fs.Found p)
    {done cs p : List Str} (hdone : fs.node done = some .directory)
    (h : fs.walk follow done cs = .ok p) : fs.Found p := by
  induction cs generalizing done with
  | nil => exact Except.ok.inj h ▸ ⟨_, hdone, fun q => nofun⟩
  | cons c cs ih =>
      unfold walk at h
      split at h
      · exact ih hdone h
      split at h
      · exact ih (fs.directory_dropLast hdone) h
      split at h
      · cases h
      · next directory => exact ih directory h
      · next path hlink =>
          refine found _ _ p ?_ h
          split
          · exact fs.root
          · exact hdone
      · next content mode hfile =>
          split at h
          · exact Except.ok.inj h ▸ ⟨_, hfile, fun q => nofun⟩
          · cases h

theorem follow_found (k : Nat) : ∀ done cs p, fs.node done = some .directory →
    fs.follow k done cs = .ok p → fs.Found p := by
  induction k with
  | zero => exact fun done cs p hdone h => walk_found (fun _ _ _ _ h => by cases h) hdone h
  | succ k ih => exact fun done cs p hdone h => walk_found ih hdone h

theorem start_directory (fs : FileSystem) (path : FsPath) :
    fs.node (fs.start path) = some .directory := by
  unfold start
  split
  · exact fs.root
  · exact fs.cwd_directory

theorem resolve_found {path : FsPath} {p : List Str} (h : fs.resolve path = .ok p) : fs.Found p :=
  follow_found _ _ _ _ (fs.start_directory path) h

theorem directory_of_append {p q : List Str} {n : FsNode} (h : fs.node (p ++ q) = some n)
    (nonempty : q ≠ []) : fs.node p = some .directory := by
  induction q using List.reverseRecOn generalizing n with
  | nil => exact absurd rfl nonempty
  | append_singleton q c ih =>
      rw [← List.append_assoc] at h
      have parent := fs.tree (p ++ q) c n h
      by_cases hq : q = []
      · rwa [hq, List.append_nil] at parent
      · exact ih parent hq

/-- A directory is resolved to itself. -/
theorem walk_directory (follow : List Str → List Str → Except FsError (List Str))
    {done cs : List Str} (h : fs.node (done ++ cs) = some .directory) :
    fs.walk follow done cs = .ok (done ++ cs) := by
  induction cs generalizing done with
  | nil => rw [List.append_nil]; rfl
  | cons c cs ih =>
      have rest : fs.node (done ++ [c] ++ cs) = some .directory := by
        rwa [List.append_assoc, List.singleton_append]
      have here : fs.node (done ++ [c]) = some .directory := by
        by_cases hcs : cs = []
        · rwa [hcs, List.append_nil] at rest
        · exact directory_of_append rest hcs
      obtain ⟨notDot, notDots⟩ := fs.names done c _ here
      unfold walk
      rw [if_neg notDot, if_neg notDots, here]
      dsimp only
      rw [ih rest, List.append_assoc, List.singleton_append]

theorem resolve_directory {p : List Str} (h : fs.node p = some .directory) :
    fs.resolve ⟨true, p⟩ = .ok p := by
  unfold resolve
  cases fs.limit with
  | zero => exact walk_directory _ h
  | succ k => exact walk_directory _ h

/-- One more component, which is not a link. -/
theorem walk_concat {follow : List Str → List Str → Except FsError (List Str)} {d : List Str}
    {c : Str} {n : FsNode} (hd : fs.node d = some .directory) (hn : fs.node (d ++ [c]) = some n)
    (notLink : ∀ q, n ≠ .link q)
    (concat : ∀ done cs, follow done cs = .ok d → follow done (cs ++ [c]) = .ok (d ++ [c]))
    {done cs : List Str} (h : fs.walk follow done cs = .ok d) :
    fs.walk follow done (cs ++ [c]) = .ok (d ++ [c]) := by
  induction cs generalizing done with
  | nil =>
      obtain rfl := Except.ok.inj h
      obtain ⟨notDot, notDots⟩ := fs.names done c n hn
      rw [List.nil_append]
      unfold walk
      rw [if_neg notDot, if_neg notDots, hn]
      cases n with
      | file content mode => rfl
      | directory => rfl
      | link q => exact absurd rfl (notLink q)
  | cons e cs ih =>
      rw [List.cons_append]
      unfold walk at h ⊢
      split at h
      · next dot => rw [if_pos dot]; exact ih h
      · next notDot =>
          rw [if_neg notDot]
          split at h
          · next dots => rw [if_pos dots]; exact ih h
          · next notDots =>
              rw [if_neg notDots]
              cases hnode : fs.node (done ++ [e]) with
              | none =>
                  rw [hnode] at h
                  cases h
              | some m =>
                  rw [hnode] at h
                  cases m with
                  | directory => exact ih h
                  | link q =>
                      dsimp only at h ⊢
                      rw [← List.append_assoc]
                      exact concat _ _ h
                  | file content mode =>
                      dsimp only at h
                      split at h
                      · obtain rfl := Except.ok.inj h
                        cases hd.symm.trans hnode
                      · cases h

theorem follow_concat {d : List Str} {c : Str} {n : FsNode} (hd : fs.node d = some .directory)
    (hn : fs.node (d ++ [c]) = some n) (notLink : ∀ q, n ≠ .link q) (k : Nat) :
    ∀ done cs, fs.follow k done cs = .ok d → fs.follow k done (cs ++ [c]) = .ok (d ++ [c]) := by
  induction k with
  | zero => exact fun done cs h => walk_concat hd hn notLink (fun _ _ h => by cases h) h
  | succ k ih => exact fun done cs h => walk_concat hd hn notLink ih h

/-! ## Places of entries -/

theorem locate_ok {p : FsPath} {e : fs.Slot} (h : fs.locate p = .ok e) :
    ∃ parent, p.parent = some parent ∧ p = parent.join e.name ∧ fs.resolve parent = .ok e.dir := by
  unfold locate at h
  split at h
  · next parent name hparent hname =>
      split at h
      · cases h
      · next dir hdir =>
          split at h
          · split at h
            · obtain rfl := Except.ok.inj h
              refine ⟨parent, hparent, ?_, hdir⟩
              unfold FsPath.parent at hparent
              split at hparent
              · cases hparent
              · obtain rfl := Option.some.inj hparent
                rw [FsPath.join, List.dropLast_append_getLast? name hname]
            · cases h
          · cases h
  · cases h

theorem locate_of_resolve {parent : FsPath} {dir : List Str} {name : Str}
    (hdir : fs.resolve parent = .ok dir) (directory : fs.node dir = some .directory)
    (proper : ProperName name) :
    fs.locate (parent.join name) = .ok { dir, name, directory, proper } := by
  have last : (parent.join name).components.getLast? = some name := List.getLast?_concat
  unfold locate
  rw [FsPath.parent_join, last]
  dsimp only
  rw [hdir]
  dsimp only
  rw [dif_pos directory, dif_pos proper]

/-- A path whose entry is there and is not a link denotes this entry. -/
theorem resolve_of_locate {p : FsPath} {e : fs.Slot} {n : FsNode} (h : fs.locate p = .ok e)
    (hn : fs.node e.path = some n) (notLink : ∀ q, n ≠ .link q) : fs.resolve p = .ok e.path := by
  obtain ⟨parent, -, rfl, hparent⟩ := locate_ok h
  exact follow_concat e.directory hn notLink _ _ _ hparent

/-- A path without links names the entry it says. -/
theorem locate_canonical {p : List Str} {n : FsNode} {e : fs.Slot} (hn : fs.node p = some n)
    (h : fs.locate ⟨true, p⟩ = .ok e) : e.path = p := by
  obtain ⟨⟨absolute, components⟩, -, hjoin, hdir⟩ := locate_ok h
  obtain ⟨rfl, rfl⟩ := FsPath.mk.inj hjoin
  have itself := resolve_directory (fs.tree components e.name n hn)
  rw [Slot.path, Except.ok.inj (hdir.symm.trans itself)]

/-- The place of an entry stays where it is when nothing is lost and no kind changes. -/
theorem locate_extend {fs fs' : FileSystem} (cwd : fs'.cwd = fs.cwd) (limit : fs'.limit = fs.limit)
    (keeps : ∀ p n, fs.node p = some n → (fs'.node p).map FsNode.kind = some n.kind) {p : FsPath}
    {e : fs.Slot} (h : fs.locate p = .ok e) :
    ∃ e' : fs'.Slot, fs'.locate p = .ok e' ∧ e'.path = e.path := by
  obtain ⟨parent, -, rfl, hparent⟩ := locate_ok h
  have directory : fs'.node e.dir = some .directory := by
    obtain ⟨n, hn, hkind⟩ := Option.map_eq_some_iff.mp (keeps e.dir _ e.directory)
    cases n <;> cases hkind
    exact hn
  exact ⟨_, locate_of_resolve (resolve_extend cwd limit keeps hparent) directory e.proper, rfl⟩

/-! ## What the calls do -/

/-- The other file system differs in one entry only. -/
structure Changed (fs fs' : FileSystem) (p : List Str) (n : Option FsNode) : Prop where
  node : fs'.node = Function.update fs.node p n
  cwd : fs'.cwd = fs.cwd
  limit : fs'.limit = fs.limit

theorem create_ok {fs' : FileSystem} {p : FsPath} {content : Str} {mode : Nat}
    (h : fs.create p content mode = .ok fs') :
    ∃ e, fs.locate p = .ok e ∧ fs.node e.path = none ∧
      Changed fs fs' e.path (some (.file content mode)) := by
  obtain ⟨e, hlocate, h⟩ := Except.bind_eq_ok h
  split at h
  · next absent =>
      obtain rfl := Except.ok.inj h
      exact ⟨e, hlocate, absent, rfl, rfl, rfl⟩
  · cases h

theorem overwrite_ok {fs' : FileSystem} {p : FsPath} {content : Str}
    (h : fs.overwrite p content = .ok fs') :
    ∃ e old mode, fs.locate p = .ok e ∧ fs.node e.path = some (.file old mode) ∧
      Changed fs fs' e.path (some (.file content mode)) := by
  obtain ⟨e, hlocate, h⟩ := Except.bind_eq_ok h
  split at h
  · next old mode hfile =>
      obtain rfl := Except.ok.inj h
      exact ⟨e, old, mode, hlocate, hfile, rfl, rfl, rfl⟩
  · cases h
  · cases h

theorem rename_ok {fs' : FileSystem} {old new : FsPath} (h : fs.rename old new = .ok fs') :
    ∃ a b, fs.locate old = .ok a ∧ fs.locate new = .ok b ∧ fs.node b.path ≠ some .directory ∧
      fs'.node = Function.update (Function.update fs.node a.path none) b.path (fs.node a.path) ∧
      fs'.cwd = fs.cwd ∧ fs'.limit = fs.limit := by
  obtain ⟨a, ha, h⟩ := Except.bind_eq_ok h
  obtain ⟨b, hb, h⟩ := Except.bind_eq_ok h
  split at h
  · cases h
  split at h
  · cases h
  split at h
  · cases h
  · next notDirectory =>
      obtain rfl := Except.ok.inj h
      exact ⟨a, b, ha, hb, notDirectory, rfl, rfl, rfl⟩

/-- A change that puts a file where there was none, or where there was a file. -/
theorem Changed.keeps {fs' : FileSystem} {p : List Str} {content : Str} {mode : Nat}
    (h : Changed fs fs' p (some (.file content mode)))
    (before : ∀ n, fs.node p = some n → n.kind = .file) :
    ∀ q n, fs.node q = some n → (fs'.node q).map FsNode.kind = some n.kind := by
  intro q n hq
  rw [h.node]
  by_cases same : q = p
  · subst same
    rw [Function.update_self, before n hq]
    rfl
  · rw [Function.update_of_ne same, hq]
    rfl

end FileSystem
