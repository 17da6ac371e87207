import Baseimage.Gpasswd.Command

/-!
# An invocation of gpasswd from its arguments to its exit

The readers and the writers of the account files, and the hash of a password, are in the library of
the package. An invocation is given what its environment does: what is typed at the terminal, and
which calls fail. It leaves an error or none, the files, and the list of the files it has written.
-/

namespace Baseimage.Gpasswd

/-- The account files an invocation opens. -/
inductive Account where
  | group
  | gshadow
  | passwd
  deriving DecidableEq, Repr

/-- The text of the account files; `none` where a file does not exist. -/
structure Files where
  group : Option Str
  gshadow : Option Str
  passwd : Option Str
  deriving DecidableEq, Repr

inductive CryptMethod where
  | sha256
  | sha512
  | yescrypt
  deriving DecidableEq, Repr

/-- What the library of the package does with the text of a file, and with a password. -/
structure ShadowCore where
  readGroupFile : Option Str → Except Str (List GroupEntry)
  writeGroup : List GroupEntry → Except Str Str
  readGshadowFile : Str → Except Str (List GshadowEntry)
  writeGshadow : List GshadowEntry → Except Str Str
  /-- The names of the users. -/
  readPasswdFile : Str → Except Str (List Str)
  hashPassword : Str → CryptMethod → Except Str Str

/-- A file that was written is read as it was meant, and no hash is the `x` that stands in
`/etc/group` for a password in `/etc/gshadow`. -/
structure ShadowCore.Lawful (core : ShadowCore) : Prop where
  group : ∀ {entries text}, core.writeGroup entries = .ok text →
    core.readGroupFile (some text) = .ok entries
  gshadow : ∀ {entries text}, core.writeGshadow entries = .ok text →
    core.readGshadowFile text = .ok entries
  hash : ∀ {password method hash}, core.hashPassword password method = .ok hash →
    hash ≠ "x".toList

/-- The calls that may fail for reasons of their own. -/
inductive Call where
  | blockSignals
  | lock (account : Account)
  | read (account : Account)
  | write (account : Account)
  deriving DecidableEq, Repr

/-- What the terminal does at one prompt. -/
inductive Terminal where
  | missing
  | notATty
  | failed (msg : Str)
  | line (text : Str)
  deriving DecidableEq, Repr

structure Environment where
  callerIsRoot : Bool := true
  first : Terminal := .missing
  second : Terminal := .missing
  /-- `ENCRYPT_METHOD` in `login.defs`, when this can be read. -/
  encryptMethod : Except Str (Option Str) := .ok none
  path : Account → Str
  /-- Why a call fails, if it does. -/
  fails : Call → Option Str := fun _ => none

/-! ## The new password -/

/-- `setting a group password requires a tty; ...`. -/
def requiresTty : GpasswdError :=
  .badSyntax
    "setting a group password requires a tty; use -a/-d/-A/-M/-r/-R non-interactively".toList

/-- `read_password`. -/
def readPassword : Terminal → Except GpasswdError Str
  | .missing => .error requiresTty
  | .notATty => .error requiresTty
  | .failed msg => .error (.cantUpdate msg)
  | .line text => .ok (text.rdropWhile fun c => c == '\r' || c == '\n')

def cryptMethod (defined : Option Str) : CryptMethod :=
  if defined = some "SHA256".toList then .sha256
  else if defined = some "YESCRYPT".toList then .yescrypt
  else .sha512

/-- `prompt_and_hash_password`. -/
def promptAndHashPassword (core : ShadowCore) (env : Environment) : Except GpasswdError Str := do
  let pass1 ← readPassword env.first
  let pass2 ← readPassword env.second
  if pass1 ≠ pass2 then .error (.badArgument "passwords do not match".toList)
  else if pass1 = [] then .error (.badArgument "empty password not allowed".toList)
  else do
    let defined ← env.encryptMethod.mapError fun e =>
      GpasswdError.cantUpdate ("cannot read login.defs: ".toList ++ e)
    (core.hashPassword pass1 (cryptMethod defined)).mapError fun e =>
      .cantUpdate ("cannot hash password: ".toList ++ e)

/-! ## The files -/

/-- `cannot lock ...`, and likewise for the other calls. -/
def cannot (env : Environment) (call : Str) (account : Account) (e : Str) : GpasswdError :=
  .cantUpdate ("cannot ".toList ++ call ++ " ".toList ++ env.path account ++ ": ".toList ++ e)

def Environment.call (env : Environment) (call : Call) : Except GpasswdError Unit :=
  match env.fails call, call with
  | none, _ => .ok ()
  | some e, .blockSignals => .error (.cantUpdate ("cannot block signals: ".toList ++ e))
  | some e, .lock account => .error (cannot env "lock".toList account e)
  | some e, .read account => .error (cannot env "read".toList account e)
  | some e, .write account => .error (cannot env "write".toList account e)

/-- Read a file and make entries of its text. -/
def readEntries {α : Type} (env : Environment) (account : Account) (entries : Except Str α) :
    Except GpasswdError α := do
  env.call (.read account)
  entries.mapError (cannot env "read".toList account)

/-- Make the text of the new entries and replace the file by it. -/
def writeEntries (env : Environment) (account : Account) (text : Except Str Str) :
    Except GpasswdError Str := do
  let text ← text.mapError (cannot env "write".toList account)
  env.call (.write account)
  pure text

/-- The users in `/etc/passwd`, none where it does not exist. -/
def readUsers (core : ShadowCore) (env : Environment) (passwd : Option Str) :
    Except GpasswdError (List Str) :=
  match passwd with
  | none => .ok []
  | some text => readEntries env .passwd (core.readPasswdFile text)

/-- "Lock and update /etc/group": its new text, and the entry of the group in it. -/
def updateGroupFile (core : ShadowCore) (env : Environment) (o : Options) (password : Option Str)
    (files : Files) : Except GpasswdError (Str × GroupEntry) := do
  env.call .blockSignals
  env.call (.lock .group)
  let entries ← readEntries env .group (core.readGroupFile files.group)
  -- The group is looked for before the users are read.
  if (entries.findIdx? fun g => g.name == o.group) = none then
    .error (.groupNotFound ("group '".toList ++ o.group ++ "' does not exist".toList))
  else do
    let users ← readUsers core env files.passwd
    let (entries, entry) ← updateGroup o password users entries
    let text ← writeEntries env .group (core.writeGroup entries)
    pure (text, entry)

def needsGshadow (o : Options) (password : Option Str) : Bool :=
  o.add.isSome || o.delete.isSome || o.administrators.isSome || o.members.isSome ||
    o.removePassword || o.restrict || password.isSome

/-- "Update /etc/gshadow when present": its new text. -/
def updateGshadowFile (core : ShadowCore) (env : Environment) (o : Options) (password : Option Str)
    (membersForGshadow : List Str) (gshadow : Str) : Except GpasswdError Str := do
  env.call (.lock .gshadow)
  let entries ← readEntries env .gshadow (core.readGshadowFile gshadow)
  writeEntries env .gshadow (core.writeGshadow (updateGshadow o password membersForGshadow entries))

/-! ## The command -/

/-- What `parse_args` makes of the arguments. -/
inductive Parsed where
  /-- The arguments are not understood. -/
  | refused
  /-- The help or the version was asked for. -/
  | answered
  | groupMissing
  | options (o : Options)
  deriving DecidableEq, Repr

inductive Failure where
  | usage
  | alreadyPrinted (code : Nat)
  | gpasswd (e : GpasswdError)
  deriving DecidableEq, Repr

def Failure.code : Failure → Nat
  | usage => 2
  | alreadyPrinted code => code
  | gpasswd e => e.code

/-- What an invocation leaves: its error, if any, the files, and those it has written. -/
structure Exit where
  error : Option Failure
  files : Files
  written : List Account
  deriving DecidableEq, Repr

def Exit.code (exit : Exit) : Nat := exit.error.elim 0 Failure.code

/-- Give up before anything is written. -/
def Files.giveUp (files : Files) (failure : Failure) : Exit := ⟨some failure, files, []⟩

/-- The critical section. -/
def updateFiles (core : ShadowCore) (env : Environment) (o : Options) (password : Option Str)
    (files : Files) : Exit :=
  match updateGroupFile core env o password files with
  | .error e => files.giveUp (.gpasswd e)
  | .ok (text, entry) =>
      let files := { files with group := some text }
      match files.gshadow, needsGshadow o password with
      | some gshadow, true =>
          match updateGshadowFile core env o password entry.members gshadow with
          | .error e => ⟨some (.gpasswd e), files, [.group]⟩
          | .ok text => ⟨none, { files with gshadow := some text }, [.group, .gshadow]⟩
      | _, _ => ⟨none, files, [.group]⟩

/-- "Interactive password change needs the hash before locks are held." -/
def newPasswordHash (core : ShadowCore) (env : Environment) (o : Options) :
    Except GpasswdError (Option Str) :=
  if o.exclusiveCount = 0 then (promptAndHashPassword core env).map some else .ok none

def uumain (core : ShadowCore) (env : Environment) (parsed : Parsed) (files : Files) : Exit :=
  match parsed with
  | .refused => files.giveUp .usage
  | .answered => ⟨none, files, []⟩
  | .groupMissing =>
      if env.callerIsRoot then
        files.giveUp (.gpasswd (.badSyntax "group name required".toList))
      else files.giveUp (.alreadyPrinted 1)
  | .options o =>
      if env.callerIsRoot then
        if 1 < o.exclusiveCount then
          files.giveUp (.gpasswd (.badSyntax "invalid combination of options".toList))
        else
          match newPasswordHash core env o with
          | .error e => files.giveUp (.gpasswd e)
          | .ok password => updateFiles core env o password files
      else files.giveUp (.alreadyPrinted 1)

variable {core : ShadowCore} {env : Environment} {o : Options} {password : Option Str}
variable {files : Files}

/-! ## Errors after the first write -/

theorem call_error {call : Call} {e : GpasswdError} (h : env.call call = .error e) :
    e.code = 10 := by
  unfold Environment.call at h
  split at h
  · cases h
  all_goals exact Except.error.inj h ▸ rfl

theorem readEntries_error {α : Type} {account : Account} {entries : Except Str α}
    {e : GpasswdError} (h : readEntries env account entries = .error e) : e.code = 10 := by
  obtain hcall | ⟨_, -, hread⟩ := Except.bind_eq_error h
  · exact call_error hcall
  · obtain ⟨msg, rfl⟩ := Except.mapError_eq_error hread
    rfl

theorem readEntries_ok {α : Type} {account : Account} {entries : Except Str α} {a : α}
    (h : readEntries env account entries = .ok a) : entries = .ok a := by
  obtain ⟨_, -, hread⟩ := Except.bind_eq_ok h
  exact Except.mapError_eq_ok hread

theorem writeEntries_error {account : Account} {text : Except Str Str} {e : GpasswdError}
    (h : writeEntries env account text = .error e) : e.code = 10 := by
  obtain htext | ⟨_, -, hrest⟩ := Except.bind_eq_error h
  · obtain ⟨msg, rfl⟩ := Except.mapError_eq_error htext
    rfl
  · obtain hcall | ⟨_, -, hpure⟩ := Except.bind_eq_error hrest
    · exact call_error hcall
    · cases hpure

theorem writeEntries_ok {account : Account} {text : Except Str Str} {t : Str}
    (h : writeEntries env account text = .ok t) : text = .ok t := by
  obtain ⟨_, htext, hrest⟩ := Except.bind_eq_ok h
  obtain ⟨_, -, hpure⟩ := Except.bind_eq_ok hrest
  obtain rfl := Except.ok.inj hpure
  exact Except.mapError_eq_ok htext

/-- Nothing but a lock, a read or a write fails in `/etc/gshadow`. -/
theorem updateGshadowFile_error {members : List Str} {gshadow : Str} {e : GpasswdError}
    (h : updateGshadowFile core env o password members gshadow = .error e) : e.code = 10 := by
  obtain hlock | ⟨_, -, hrest⟩ := Except.bind_eq_error h
  · exact call_error hlock
  obtain hread | ⟨_, -, hwrite⟩ := Except.bind_eq_error hrest
  · exact readEntries_error hread
  · exact writeEntries_error hwrite

/-- The invocation has written nothing. -/
def Exit.Untouched (exit : Exit) (files : Files) : Prop := exit.files = files ∧ exit.written = []

theorem giveUp_untouched (failure : Failure) : (files.giveUp failure).Untouched files := ⟨rfl, rfl⟩

/-- Once a file is written, an invocation succeeds or cannot update the other file. -/
theorem updateFiles_untouched (core : ShadowCore) (env : Environment) (o : Options)
    (password : Option Str) (files : Files) :
    (updateFiles core env o password files).Untouched files ∨
      (updateFiles core env o password files).code = 0 ∨
      (updateFiles core env o password files).code = 10 := by
  unfold updateFiles
  split
  · exact .inl (giveUp_untouched _)
  · dsimp only
    split
    · split
      · next e failed => exact .inr (.inr (updateGshadowFile_error failed))
      · exact .inr (.inl rfl)
    · exact .inr (.inl rfl)

theorem GpasswdError.code_pos (e : GpasswdError) : 0 < e.code := by
  cases e <;> exact Nat.succ_pos _

/-- An invocation gives up, or it gets to the critical section with at most one request, and with
the hash of a password if there is none. -/
theorem uumain_options (core : ShadowCore) (env : Environment) (o : Options) (files : Files) :
    (∃ failure, 0 < failure.code ∧ uumain core env (.options o) files = files.giveUp failure) ∨
      o.exclusiveCount ≤ 1 ∧ ∃ password, newPasswordHash core env o = .ok password ∧
        uumain core env (.options o) files = updateFiles core env o password files := by
  unfold uumain
  dsimp only
  split
  · split
    · exact .inl ⟨.gpasswd _, GpasswdError.code_pos _, rfl⟩
    · next allowed =>
        split
        · exact .inl ⟨.gpasswd _, GpasswdError.code_pos _, rfl⟩
        · next password hpassword => exact .inr ⟨Nat.not_lt.mp allowed, password, hpassword, rfl⟩
  · exact .inl ⟨.alreadyPrinted 1, Nat.one_pos, rfl⟩

/-! ## Users that do not exist -/

/-- The users in `/etc/passwd` were read. -/
def UsersRead (core : ShadowCore) (files : Files) (users : List Str) : Prop :=
  files.passwd.elim (.ok []) core.readPasswdFile = .ok users

/-- There is a user of the name in `/etc/passwd`. -/
def UserExists (core : ShadowCore) (files : Files) (user : Str) : Prop :=
  ∃ users, UsersRead core files users ∧ user ∈ users

theorem readUsers_ok {users : List Str} (h : readUsers core env files.passwd = .ok users) :
    UsersRead core files users := by
  unfold UsersRead
  cases hpasswd : files.passwd with
  | none =>
      rw [hpasswd] at h
      exact Except.ok.inj h ▸ rfl
  | some text =>
      rw [hpasswd] at h
      exact readEntries_ok h

/-- What is written to `/etc/group`, if anything is. -/
theorem updateGroupFile_ok {text : Str} {entry : GroupEntry}
    (h : updateGroupFile core env o password files = .ok (text, entry)) :
    ∃ entries users entries', core.readGroupFile files.group = .ok entries ∧
      UsersRead core files users ∧ updateGroup o password users entries = .ok (entries', entry) ∧
      core.writeGroup entries' = .ok text := by
  obtain ⟨_, -, h⟩ := Except.bind_eq_ok h
  obtain ⟨_, -, h⟩ := Except.bind_eq_ok h
  obtain ⟨entries, hread, h⟩ := Except.bind_eq_ok h
  split at h
  · cases h
  · obtain ⟨users, husers, h⟩ := Except.bind_eq_ok h
    obtain ⟨⟨entries', entry'⟩, hupdate, h⟩ := Except.bind_eq_ok h
    obtain ⟨text', hwrite, h⟩ := Except.bind_eq_ok h
    obtain ⟨rfl, rfl⟩ := Prod.mk.inj (Except.ok.inj h)
    exact ⟨entries, users, entries', readEntries_ok hread, readUsers_ok husers, hupdate,
      writeEntries_ok hwrite⟩

theorem mem_of_checkUsers {users list : List Str} (h : checkUsers users list = .ok ()) :
    ∀ user ∈ list, user ∈ users := by
  induction list with
  | nil => exact fun _ member => absurd member List.not_mem_nil
  | cons user list ih =>
      unfold checkUsers at h
      split at h
      · next present =>
          have exists_user : user ∈ users := by simpa using present
          exact List.forall_mem_cons.mpr ⟨exists_user, ih h⟩
      · cases h

/-- The users of -A were looked for. -/
theorem administrators_of_updateGroup {users : List Str} {entries entries' : List GroupEntry}
    {entry : GroupEntry} (h : updateGroup o password users entries = .ok (entries', entry)) :
    ∀ user ∈ o.administrators.elim [] parseUserList, user ∈ users := by
  obtain ⟨_, -, hupdate, -⟩ := updateGroup_ok h
  obtain ⟨_, -, hrest⟩ := Except.bind_eq_ok hupdate
  obtain ⟨_, hcheck, -⟩ := Except.bind_eq_ok hrest
  exact mem_of_checkUsers hcheck

/-- The users of -M were looked for, where there is no -a and no -d. -/
theorem members_of_updateGroup {users : List Str} {entries entries' : List GroupEntry}
    {entry : GroupEntry} {list : Str} (add : o.add = none) (delete : o.delete = none)
    (members : o.members = some list)
    (h : updateGroup o password users entries = .ok (entries', entry)) :
    ∀ user ∈ parseUserList list, user ∈ users := by
  obtain ⟨_, -, hupdate, -⟩ := updateGroup_ok h
  obtain ⟨_, hmembers, -⟩ := Except.bind_eq_ok hupdate
  simp only [updateMembers, add, delete, members] at hmembers
  obtain ⟨_, hcheck, -⟩ := Except.map_eq_ok hmembers
  exact mem_of_checkUsers hcheck

/-- -A and -M are combined with nothing else. -/
theorem alone_of_exclusiveCount {list : Str} (h : o.exclusiveCount ≤ 1)
    (members : o.members = some list) : o.add = none ∧ o.delete = none := by
  unfold Options.exclusiveCount at h
  rw [members] at h
  cases hadd : o.add <;> cases hdelete : o.delete <;> simp_all

/-- A user of -A or of -M that does not exist, in an invocation with both. -/
theorem updateFiles_unknown {administrators members user : Str}
    (allowed : o.exclusiveCount ≤ 1) (hadministrators : o.administrators = some administrators)
    (hmembers : o.members = some members)
    (listed : user ∈ parseUserList administrators ∨ user ∈ parseUserList members)
    (unknown : ¬ UserExists core files user) :
    ∃ e, updateFiles core env o password files = files.giveUp (.gpasswd e) := by
  cases hgroup : updateGroupFile core env o password files with
  | error e => exact ⟨e, by rw [updateFiles, hgroup]⟩
  | ok result =>
      obtain ⟨entries, users, entries', -, husers, hupdate, -⟩ := updateGroupFile_ok hgroup
      obtain ⟨add, delete⟩ := alone_of_exclusiveCount allowed hmembers
      have known : user ∈ users := by
        cases listed with
        | inl listed =>
            refine administrators_of_updateGroup hupdate user ?_
            rwa [hadministrators]
        | inr listed => exact members_of_updateGroup add delete hmembers hupdate user listed
      exact absurd ⟨users, husers, known⟩ unknown

/-- An invocation that fails because of its arguments has written no file. With -A and -M, a user
that does not exist makes it fail before anything is written. -/
theorem argument_errors_write_nothing (core : ShadowCore) (env : Environment) (files : Files) :
    (∀ parsed, (uumain core env parsed files).code ∈ [2, 3, 6] →
      (uumain core env parsed files).Untouched files) ∧
    (∀ (o : Options) (administrators members user : Str), o.administrators = some administrators →
      o.members = some members →
      user ∈ parseUserList administrators ∨ user ∈ parseUserList members →
      ¬ UserExists core files user →
      (uumain core env (.options o) files).error ≠ none ∧
        (uumain core env (.options o) files).Untouched files) := by
  refine ⟨fun parsed hcode => ?_, fun o administrators members user ha hm listed unknown => ?_⟩
  · cases parsed with
    | refused => exact giveUp_untouched _
    | answered => exact ⟨rfl, rfl⟩
    | groupMissing =>
        unfold uumain
        dsimp only
        split
        · exact giveUp_untouched _
        · exact giveUp_untouched _
    | options o =>
        obtain ⟨failure, -, gaveUp⟩ | ⟨-, password, -, updated⟩ := uumain_options core env o files
        · exact gaveUp ▸ giveUp_untouched _
        · rw [updated] at hcode ⊢
          obtain untouched | code | code := updateFiles_untouched core env o password files
          · exact untouched
          · rw [code] at hcode
            simp at hcode
          · rw [code] at hcode
            simp at hcode
  · obtain ⟨failure, -, gaveUp⟩ | ⟨allowed, password, -, updated⟩ := uumain_options core env o files
    · exact gaveUp ▸ ⟨Option.some_ne_none _, giveUp_untouched _⟩
    · obtain ⟨e, fails⟩ : ∃ e, updateFiles core env o password files = files.giveUp (.gpasswd e) :=
        updateFiles_unknown allowed ha hm listed unknown
      rw [updated, fails]
      exact ⟨Option.some_ne_none _, giveUp_untouched _⟩

/-! ## A library -/

/-- The lines of a file: fields with colons between them. -/
def fileText (lines : List (List Str)) : Str :=
  lines.flatMap fun fields => [':'].intercalate fields ++ ['\n']

def fileLines (text : Str) : List (List Str) :=
  ((text.splitOn '\n').filter fun line => line ≠ []).map fun line => line.splitOn ':'

def digit (c : Char) : Nat := c.toNat - '0'.toNat

def nameList (field : Str) : List Str := if field = [] then [] else field.splitOn ','

def groupOfFields : List Str → Except Str GroupEntry
  | [name, passwd, gid, members] =>
      .ok { name, passwd, gid := gid.foldl (fun n c => 10 * n + digit c) 0,
            members := nameList members }
  | _ => .error "invalid group entry".toList

def gshadowOfFields : List Str → Except Str GshadowEntry
  | [name, passwd, admins, members] =>
      .ok { name, passwd, admins := nameList admins, members := nameList members }
  | _ => .error "invalid gshadow entry".toList

def groupFields (g : GroupEntry) : List Str :=
  [g.name, g.passwd, Nat.toDigits 10 g.gid, [','].intercalate g.members]

def gshadowFields (g : GshadowEntry) : List Str :=
  [g.name, g.passwd, [','].intercalate g.admins, [','].intercalate g.members]

/-- Write entries that are read again as they are, and no others. -/
def writeChecked {α : Type} [DecidableEq α] (text : Str) (read : Str → Except Str α) (entries : α) :
    Except Str Str :=
  match read text with
  | .ok entries' => if entries' = entries then .ok text else .error "invalid entry".toList
  | .error e => .error e

theorem writeChecked_ok {α : Type} [DecidableEq α] {text t : Str} {read : Str → Except Str α}
    {entries : α} (h : writeChecked text read entries = .ok t) : read t = .ok entries := by
  unfold writeChecked at h
  split at h
  · next entries' hread =>
      split at h
      · next same => exact Except.ok.inj h ▸ same ▸ hread
      · cases h
  · cases h

def readGroups (text : Str) : Except Str (List GroupEntry) := (fileLines text).mapM groupOfFields

def readGshadows (text : Str) : Except Str (List GshadowEntry) :=
  (fileLines text).mapM gshadowOfFields

/-- A library that keeps the files in their usual form. -/
def plainCore : ShadowCore where
  readGroupFile text := text.elim (.error "No such file or directory".toList) readGroups
  writeGroup entries := writeChecked (fileText (entries.map groupFields)) readGroups entries
  readGshadowFile := readGshadows
  writeGshadow entries := writeChecked (fileText (entries.map gshadowFields)) readGshadows entries
  readPasswdFile text := .ok ((fileLines text).map fun fields => fields.headD [])
  hashPassword password _ := .ok ("$6$".toList ++ password)

theorem plainCore_lawful : plainCore.Lawful where
  group h := writeChecked_ok h
  gshadow h := writeChecked_ok h
  hash h := by
    obtain rfl := Except.ok.inj h
    exact fun same => absurd (List.cons.inj same).1 (by decide)

/-- An environment in which no call fails. -/
def calm : Environment where
  path
    | .group => "/etc/group".toList
    | .gshadow => "/etc/gshadow".toList
    | .passwd => "/etc/passwd".toList

/-- A group with one of the two users. -/
def staffFiles : Files where
  group := some "staff:x:50:bob\n".toList
  gshadow := some "staff:!::bob\n".toList
  passwd := some "bob:x:1:1::/:/bin/sh\nalice:x:2:2::/:/bin/sh\n".toList

theorem argument_errors_write_nothing_staff :
    (uumain plainCore calm (.options { group := "staff".toList, add := some "eve".toList })
        staffFiles).Untouched staffFiles ∧
      (uumain plainCore calm (.options { group := "staff".toList
                                         administrators := some "eve".toList
                                         members := some "alice".toList }) staffFiles).Untouched
        staffFiles := by
  obtain ⟨failed, combined⟩ := argument_errors_write_nothing plainCore calm staffFiles
  refine ⟨failed _ (by decide), (combined _ _ _ "eve".toList rfl rfl (by decide) ?_).2⟩
  rintro ⟨users, husers, member⟩
  obtain rfl := Except.ok.inj husers
  exact absurd member (by decide)

end Baseimage.Gpasswd
