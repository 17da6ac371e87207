import Baseimage.Gpasswd.Invocation

/-!
# What a successful invocation records

Options that can be combined make one request. A successful invocation has updated the entry of the
group in `/etc/group`, and its line in `/etc/gshadow` where that file exists. Administrators and the
password are kept in the line only, so without the file a request for them succeeds and is lost.
-/

namespace Baseimage.Gpasswd

/-- What the options of an invocation ask for, with the hash of the new password if they name
nothing else. -/
inductive Request where
  | add (user : Str)
  | delete (user : Str)
  | administrators (list : Str)
  | members (list : Str)
  | lists (admins list : Str)
  | removePassword
  | restrict
  | newPassword (hash : Str)
  deriving DecidableEq, Repr

namespace Request

def options (group : Str) : Request → Options
  | .add user => { group := group, add := some user }
  | .delete user => { group := group, delete := some user }
  | .administrators list => { group := group, administrators := some list }
  | .members list => { group := group, members := some list }
  | .lists admins list => { group := group, administrators := some admins, members := some list }
  | .removePassword => { group := group, removePassword := true }
  | .restrict => { group := group, restrict := true }
  | .newPassword _ => { group := group }

def password : Request → Option Str
  | .newPassword hash => some hash
  | _ => none

/-- What a request makes of the members of the group. -/
def onMembers (before : List Str) : Request → List Str
  | .add user => addMember before user
  | .delete user => removeMember before user
  | .members list => parseUserList list
  | .lists _ list => parseUserList list
  | _ => before

/-- What a request makes of the administrators of the group. -/
def onAdmins (before : List Str) : Request → List Str
  | .delete user => removeMember before user
  | .administrators list => parseUserList list
  | .lists admins _ => parseUserList admins
  | _ => before

/-- What a request makes of the password in `/etc/group`. -/
def onGroupPassword (before : Str) : Request → Str
  | .removePassword => "x".toList
  | .restrict => "x".toList
  | .newPassword _ => "x".toList
  | _ => before

/-- What a request makes of the password in `/etc/gshadow`. -/
def onPassword (before : Str) : Request → Str
  | .removePassword => []
  | .restrict => "!".toList
  | .newPassword hash => hash
  | _ => before

theorem options_group (group : Str) (r : Request) : (r.options group).group = group := by
  cases r <;> rfl

theorem needsGshadow_options (group : Str) (r : Request) :
    needsGshadow (r.options group) r.password = true := by
  cases r <;> rfl

theorem updateLine_options (group : Str) (r : Request) (gs : GshadowEntry) :
    updateLine (r.options group) r.password gs =
      { gs with
        passwd := r.onPassword gs.passwd
        admins := r.onAdmins gs.admins
        members := r.onMembers gs.members } := by
  cases r <;> rfl

theorem updateEntry_options {group : Str} {r : Request} {users : List Str}
    {entry entry' : GroupEntry}
    (h : updateEntry (r.options group) r.password users entry = .ok entry') :
    entry' =
      { entry with
        passwd := r.onGroupPassword entry.passwd
        members := r.onMembers entry.members } := by
  obtain ⟨middle, hmembers, hrest⟩ := Except.bind_eq_ok h
  obtain ⟨_, -, hpure⟩ := Except.bind_eq_ok hrest
  obtain rfl := Except.ok.inj hpure
  cases r with
  | add user =>
      obtain ⟨_, -, rfl⟩ := Except.map_eq_ok hmembers
      rfl
  | members list =>
      obtain ⟨_, -, rfl⟩ := Except.map_eq_ok hmembers
      rfl
  | lists admins list =>
      obtain ⟨_, -, rfl⟩ := Except.map_eq_ok hmembers
      rfl
  | delete user => exact (Except.ok.inj hmembers).symm
  | administrators list => exact (Except.ok.inj hmembers).symm
  | removePassword => exact (Except.ok.inj hmembers).symm
  | restrict => exact (Except.ok.inj hmembers).symm
  | newPassword hash => exact (Except.ok.inj hmembers).symm

end Request

variable {core : ShadowCore} {env : Environment} {o : Options} {files : Files}

/-- At most one of five conditions holds. -/
theorem one_of_count : ∀ a b c d e : Bool,
    a.toNat + b.toNat + c.toNat + d.toNat + e.toNat ≤ 1 →
      (a, b, c, d, e) = (false, false, false, false, false) ∨
      (a, b, c, d, e) = (true, false, false, false, false) ∨
      (a, b, c, d, e) = (false, true, false, false, false) ∨
      (a, b, c, d, e) = (false, false, true, false, false) ∨
      (a, b, c, d, e) = (false, false, false, true, false) ∨
      (a, b, c, d, e) = (false, false, false, false, true) := by
  intro a b c d e
  cases a <;> cases b <;> cases c <;> cases d <;> cases e <;> simp

/-- Options that can be combined are those of one request. -/
theorem exists_request {password : Option Str} (allowed : o.exclusiveCount ≤ 1)
    (hpassword : newPasswordHash core env o = .ok password) :
    ∃ r : Request, o = r.options o.group ∧ password = r.password := by
  obtain ⟨group, add, delete, admins, list, removePassword, restrict⟩ := o
  have one := one_of_count _ _ _ _ _ allowed
  simp only [Prod.mk.injEq, Option.isSome_eq_false_iff, Option.isNone_iff_eq_none,
    Option.isSome_iff_exists, Bool.or_eq_false_iff] at one
  unfold newPasswordHash at hpassword
  obtain ⟨rfl, rfl, rfl, rfl, rfl, rfl⟩ | ⟨⟨user, rfl⟩, rfl, rfl, rfl, rfl, rfl⟩ |
    ⟨rfl, ⟨user, rfl⟩, rfl, rfl, rfl, rfl⟩ | ⟨rfl, rfl, rfl, rfl, rfl, rfl⟩ |
    ⟨rfl, rfl, rfl, rfl, rfl, rfl⟩ | ⟨rfl, rfl, rfl, rfl, some_list⟩ := one
  · obtain ⟨hash, -, rfl⟩ := Except.map_eq_ok hpassword
    exact ⟨.newPassword hash, rfl, rfl⟩
  · exact ⟨.add user, rfl, (Except.ok.inj hpassword).symm⟩
  · exact ⟨.delete user, rfl, (Except.ok.inj hpassword).symm⟩
  · exact ⟨.removePassword, rfl, (Except.ok.inj hpassword).symm⟩
  · exact ⟨.restrict, rfl, (Except.ok.inj hpassword).symm⟩
  · cases admins with
    | none =>
        cases list with
        | none => cases some_list
        | some list => exact ⟨.members list, rfl, (Except.ok.inj hpassword).symm⟩
    | some admins =>
        cases list with
        | none => exact ⟨.administrators admins, rfl, (Except.ok.inj hpassword).symm⟩
        | some list => exact ⟨.lists admins list, rfl, (Except.ok.inj hpassword).symm⟩

/-! ## The files after a success -/

/-- What a successful request has made of the files. -/
structure Updated (core : ShadowCore) (group : Str) (r : Request) (before after : Files)
    (entries entries' : List GroupEntry) (entry : GroupEntry) : Prop where
  read : core.readGroupFile before.group = .ok entries
  users : ∃ users, updateGroup (r.options group) r.password users entries = .ok (entries', entry)
  written : core.readGroupFile after.group = .ok entries'
  missing : before.gshadow = none → after.gshadow = none
  gshadow : ∀ text, before.gshadow = some text → ∃ lines text',
    core.readGshadowFile text = .ok lines ∧ after.gshadow = some text' ∧
      core.readGshadowFile text' =
        .ok (updateGshadow (r.options group) r.password entry.members lines)

theorem updateFiles_success {password : Option Str} (needed : needsGshadow o password = true)
    (success : (updateFiles core env o password files).code = 0) :
    ∃ text entry, updateGroupFile core env o password files = .ok (text, entry) ∧
      (files.gshadow = none ∧
          (updateFiles core env o password files).files = { files with group := some text } ∨
        ∃ shadow text', files.gshadow = some shadow ∧
          updateGshadowFile core env o password entry.members shadow = .ok text' ∧
          (updateFiles core env o password files).files =
            { files with group := some text, gshadow := some text' }) := by
  unfold updateFiles at success ⊢
  cases hgroup : updateGroupFile core env o password files with
  | error e =>
      rw [hgroup] at success
      exact absurd success (Nat.ne_of_gt e.code_pos)
  | ok result =>
      obtain ⟨text, entry⟩ := result
      refine ⟨text, entry, rfl, ?_⟩
      rw [hgroup, needed] at success
      rw [needed]
      dsimp only at success ⊢
      cases hgshadow : files.gshadow with
      | none => exact .inl ⟨rfl, rfl⟩
      | some shadow =>
          rw [hgshadow] at success
          dsimp only at success ⊢
          cases hupdate : updateGshadowFile core env o password entry.members shadow with
          | error e =>
              rw [hupdate] at success
              exact absurd success (Nat.ne_of_gt e.code_pos)
          | ok text' => exact .inr ⟨shadow, text', rfl, hupdate, rfl⟩

theorem updateGshadowFile_ok {password : Option Str} {members : List Str} {gshadow text : Str}
    (h : updateGshadowFile core env o password members gshadow = .ok text) :
    ∃ lines, core.readGshadowFile gshadow = .ok lines ∧
      core.writeGshadow (updateGshadow o password members lines) = .ok text := by
  obtain ⟨_, -, hrest⟩ := Except.bind_eq_ok h
  obtain ⟨lines, hread, hwrite⟩ := Except.bind_eq_ok hrest
  exact ⟨lines, readEntries_ok hread, writeEntries_ok hwrite⟩

/-- The specification of a successful invocation. -/
theorem uumain_success (lawful : core.Lawful)
    (success : (uumain core env (.options o) files).code = 0) :
    ∃ (r : Request) (entries entries' : List GroupEntry) (entry : GroupEntry),
      o = r.options o.group ∧ newPasswordHash core env o = .ok r.password ∧
      Updated core o.group r files (uumain core env (.options o) files).files entries entries'
        entry := by
  obtain ⟨failure, positive, gaveUp⟩ | ⟨allowed, password, hpassword, updated⟩ :=
    uumain_options core env o files
  · rw [gaveUp] at success
    exact absurd success (Nat.ne_of_gt positive)
  · obtain ⟨r, ho, rfl⟩ := exists_request allowed hpassword
    have needed : needsGshadow o r.password = true := by
      rw [ho]
      exact Request.needsGshadow_options _ _
    rw [updated] at success ⊢
    obtain ⟨text, entry, hgroup, after⟩ := updateFiles_success needed success
    obtain ⟨entries, users, entries', hread, -, hupdate, hwrite⟩ := updateGroupFile_ok hgroup
    refine ⟨r, entries, entries', entry, ho, hpassword, ?_⟩
    obtain ⟨missing, hafter⟩ | ⟨shadow, text', present, hgshadow, hafter⟩ := after
    · rw [hafter]
      exact
        { read := hread
          users := ⟨users, ho ▸ hupdate⟩
          written := lawful.group hwrite
          missing := fun _ => missing
          gshadow := fun text h => nomatch missing.symm.trans h }
    · obtain ⟨lines, hlines, hwritten⟩ := updateGshadowFile_ok hgshadow
      rw [hafter]
      exact
        { read := hread
          users := ⟨users, ho ▸ hupdate⟩
          written := lawful.group hwrite
          missing := fun missing => nomatch missing.symm.trans present
          gshadow := by
            intro text h
            obtain rfl := Option.some.inj (present.symm.trans h)
            exact ⟨lines, text', hlines, rfl, ho ▸ lawful.gshadow hwritten⟩ }

/-! ## What can be read back -/

/-- The first entry of the group in `/etc/group`. -/
def groupEntry (core : ShadowCore) (files : Files) (group : Str) : Option GroupEntry :=
  (core.readGroupFile files.group).toOption.bind fun entries =>
    entries.find? fun g => g.name == group

/-- The first line of the group in `/etc/gshadow`. -/
def gshadowLine (core : ShadowCore) (files : Files) (group : Str) : Option GshadowEntry :=
  files.gshadow.bind fun text => (core.readGshadowFile text).toOption.bind fun lines =>
    lines.find? fun g => g.name == group

/-- The administrators of the group, none where it has no line in `/etc/gshadow`. -/
def groupAdmins (core : ShadowCore) (files : Files) (group : Str) : List Str :=
  (gshadowLine core files group).elim [] GshadowEntry.admins

/-- The password of the group: the one in `/etc/gshadow`, where the group has a line there. -/
def groupPassword (core : ShadowCore) (files : Files) (group : Str) : Option Str :=
  ((gshadowLine core files group).map GshadowEntry.passwd).or
    ((groupEntry core files group).map GroupEntry.passwd)

/-- The requested change can be read back. -/
structure Recorded (core : ShadowCore) (env : Environment) (o : Options) (files : Files) :
    Prop where
  add : ∀ user, o.add = some user →
    ∃ g, groupEntry core files o.group = some g ∧ user ∈ g.members
  delete : ∀ user, o.delete = some user →
    ∃ g, groupEntry core files o.group = some g ∧ user ∉ g.members
  members : ∀ list, o.members = some list →
    ∃ g, groupEntry core files o.group = some g ∧ g.members = parseUserList list
  administrators : ∀ list, o.administrators = some list →
    groupAdmins core files o.group = parseUserList list
  removePassword : o.removePassword = true → groupPassword core files o.group = some []
  restrict : o.restrict = true → groupPassword core files o.group = some "!".toList
  newPassword : ∀ hash, newPasswordHash core env o = .ok (some hash) →
    groupPassword core files o.group = some hash

/-- The request names no administrator and does not change the password. -/
def GroupFileOnly (o : Options) : Prop :=
  o.administrators.elim [] parseUserList = [] ∧ o.removePassword = false ∧ o.restrict = false ∧
    o.exclusiveCount ≠ 0

theorem hash_ne_x (lawful : core.Lawful) {hash : Str}
    (h : newPasswordHash core env o = .ok (some hash)) : hash ≠ "x".toList := by
  unfold newPasswordHash at h
  split at h
  · obtain ⟨hash', hprompt, same⟩ := Except.map_eq_ok h
    obtain rfl := Option.some.inj same
    obtain ⟨pass1, -, h⟩ := Except.bind_eq_ok hprompt
    obtain ⟨pass2, -, h⟩ := Except.bind_eq_ok h
    split at h
    · cases h
    split at h
    · cases h
    · obtain ⟨defined, -, h⟩ := Except.bind_eq_ok h
      exact lawful.hash (Except.mapError_eq_ok h)
  · cases Except.ok.inj h

theorem Request.eq_newPassword {group : Str} {r : Request}
    (hpassword : newPasswordHash core env (r.options group) = .ok r.password) {hash : Str}
    (h : newPasswordHash core env (r.options group) = .ok (some hash)) : r = .newPassword hash := by
  have same := Except.ok.inj (hpassword.symm.trans h)
  cases r with
  | newPassword hash' => exact congrArg _ (Option.some.inj same)
  | _ => cases same

namespace Updated

variable {group : Str} {r : Request} {before after : Files} {entries entries' : List GroupEntry}
variable {entry : GroupEntry}

/-- The entry of the group that was read, and the one that was written. -/
theorem groupEntry (h : Updated core group r before after entries entries' entry) :
    Gpasswd.groupEntry core after group = some entry ∧
      ∃ g, entries.find? (fun g => g.name == group) = some g ∧
        entry =
          { g with passwd := r.onGroupPassword g.passwd, members := r.onMembers g.members } := by
  obtain ⟨users, hupdate⟩ := h.users
  obtain ⟨g, hbefore, hentry, hafter⟩ := updateGroup_ok hupdate
  rw [Request.options_group] at hbefore hafter
  refine ⟨?_, g, hbefore, Request.updateEntry_options hentry⟩
  rw [Gpasswd.groupEntry, h.written]
  exact hafter

/-- The line of the group that was written. -/
theorem gshadowLine (h : Updated core group r before after entries entries' entry)
    (present : before.gshadow ≠ none) :
    ∃ gs : GshadowEntry, Gpasswd.gshadowLine core after group =
      some { gs with
        passwd := r.onPassword gs.passwd
        admins := r.onAdmins gs.admins
        members := r.onMembers gs.members } := by
  obtain ⟨text, htext⟩ := Option.ne_none_iff_exists'.mp present
  obtain ⟨lines, text', -, hafter, hread⟩ := h.gshadow text htext
  have found := find?_updateGshadow (r.options group) r.password entry.members lines
  rw [Request.options_group, Request.updateLine_options] at found
  refine ⟨(lines.find? fun g => g.name == group).getD
    { name := group, passwd := "!".toList, admins := [], members := entry.members }, ?_⟩
  rw [Gpasswd.gshadowLine, hafter, Option.bind_some, hread]
  exact found

/-- Where there is no `/etc/gshadow`, there are no administrators, and the password is in
`/etc/group`. -/
theorem gshadowLine_missing (h : Updated core group r before after entries entries' entry)
    (missing : before.gshadow = none) : Gpasswd.gshadowLine core after group = none := by
  rw [Gpasswd.gshadowLine, h.missing missing]
  rfl

/-! The members are in `/etc/group`, whether there is an `/etc/gshadow` or not. -/

theorem add (h : Updated core group r before after entries entries' entry) {user : Str}
    (requested : (r.options group).add = some user) :
    ∃ g, Gpasswd.groupEntry core after (r.options group).group = some g ∧ user ∈ g.members := by
  obtain ⟨hentry, g, -, rfl⟩ := h.groupEntry
  cases r <;> cases requested
  exact ⟨_, hentry, mem_addMember.mpr (.inr rfl)⟩

theorem delete (h : Updated core group r before after entries entries' entry) {user : Str}
    (requested : (r.options group).delete = some user) :
    ∃ g, Gpasswd.groupEntry core after (r.options group).group = some g ∧ user ∉ g.members := by
  obtain ⟨hentry, g, -, rfl⟩ := h.groupEntry
  cases r <;> cases requested
  exact ⟨_, hentry, fun member => (mem_removeMember.mp member).2 rfl⟩

theorem members (h : Updated core group r before after entries entries' entry) {list : Str}
    (requested : (r.options group).members = some list) :
    ∃ g, Gpasswd.groupEntry core after (r.options group).group = some g ∧
      g.members = parseUserList list := by
  obtain ⟨hentry, g, -, rfl⟩ := h.groupEntry
  cases r <;> cases requested
  · exact ⟨_, hentry, rfl⟩
  · exact ⟨_, hentry, rfl⟩

/-! What the request makes of the line is read back where there is a file for it. -/

theorem groupAdmins (h : Updated core group r before after entries entries' entry)
    (present : before.gshadow ≠ none) :
    ∃ admins, Gpasswd.groupAdmins core after (r.options group).group = r.onAdmins admins := by
  obtain ⟨gs, hline⟩ := h.gshadowLine present
  refine ⟨gs.admins, ?_⟩
  rw [Gpasswd.groupAdmins, Request.options_group, hline]
  rfl

theorem groupPassword (h : Updated core group r before after entries entries' entry)
    (present : before.gshadow ≠ none) :
    ∃ passwd, Gpasswd.groupPassword core after (r.options group).group =
      some (r.onPassword passwd) := by
  obtain ⟨gs, hline⟩ := h.gshadowLine present
  refine ⟨gs.passwd, ?_⟩
  rw [Gpasswd.groupPassword, Request.options_group, hline]
  rfl

theorem groupAdmins_missing (h : Updated core group r before after entries entries' entry)
    (missing : before.gshadow = none) :
    Gpasswd.groupAdmins core after (r.options group).group = [] := by
  rw [Gpasswd.groupAdmins, Request.options_group, h.gshadowLine_missing missing]
  rfl

theorem groupPassword_missing (h : Updated core group r before after entries entries' entry)
    (missing : before.gshadow = none) :
    ∃ passwd, Gpasswd.groupPassword core after (r.options group).group =
      some (r.onGroupPassword passwd) := by
  obtain ⟨hentry, g, -, rfl⟩ := h.groupEntry
  refine ⟨g.passwd, ?_⟩
  rw [Gpasswd.groupPassword, Request.options_group, h.gshadowLine_missing missing, hentry]
  rfl

/-- Where there is an `/etc/gshadow`, every request is recorded. -/
theorem recorded (h : Updated core group r before after entries entries' entry)
    (hpassword : newPasswordHash core env (r.options group) = .ok r.password)
    (present : before.gshadow ≠ none) : Recorded core env (r.options group) after := by
  obtain ⟨admins, hadmins⟩ := h.groupAdmins present
  obtain ⟨passwd, hpasswd⟩ := h.groupPassword present
  constructor
  · exact fun _ => h.add
  · exact fun _ => h.delete
  · exact fun _ => h.members
  · intro list requested
    cases r <;> cases requested
    · exact hadmins
    · exact hadmins
  · intro requested
    cases r <;> cases requested
    exact hpasswd
  · intro requested
    cases r <;> cases requested
    exact hpasswd
  · intro hash requested
    obtain rfl := Request.eq_newPassword hpassword requested
    exact hpasswd

/-- Without the file a request is recorded that does not need it. -/
theorem recorded_of_groupFileOnly (h : Updated core group r before after entries entries' entry)
    (hpassword : newPasswordHash core env (r.options group) = .ok r.password)
    (missing : before.gshadow = none) (only : GroupFileOnly (r.options group)) :
    Recorded core env (r.options group) after := by
  obtain ⟨noAdmins, noRemove, noRestrict, something⟩ := only
  constructor
  · exact fun _ => h.add
  · exact fun _ => h.delete
  · exact fun _ => h.members
  · intro list requested
    rw [requested] at noAdmins
    exact (h.groupAdmins_missing missing).trans noAdmins.symm
  · intro requested
    cases noRemove.symm.trans requested
  · intro requested
    cases noRestrict.symm.trans requested
  · intro hash requested
    obtain rfl := Request.eq_newPassword hpassword requested
    exact absurd rfl something

/-- Any other request leaves no administrators, and the password is `x`. -/
theorem groupFileOnly (lawful : core.Lawful)
    (h : Updated core group r before after entries entries' entry)
    (hpassword : newPasswordHash core env (r.options group) = .ok r.password)
    (missing : before.gshadow = none) (recorded : Recorded core env (r.options group) after) :
    GroupFileOnly (r.options group) := by
  obtain ⟨passwd, hpasswd⟩ := h.groupPassword_missing missing
  refine ⟨?_, ?_, ?_, ?_⟩
  · cases hlist : (r.options group).administrators with
    | none => rfl
    | some list =>
        exact (recorded.administrators list hlist).symm.trans (h.groupAdmins_missing missing)
  · refine Bool.eq_false_iff.mpr fun requested => ?_
    have read := hpasswd.symm.trans (recorded.removePassword requested)
    cases r <;> cases requested
    cases Option.some.inj read
  · refine Bool.eq_false_iff.mpr fun requested => ?_
    have read := hpasswd.symm.trans (recorded.restrict requested)
    cases r <;> cases requested
    exact absurd (List.cons.inj (Option.some.inj read)).1 (by decide)
  · intro nothing
    cases r <;> cases nothing
    next hash =>
      have read := hpasswd.symm.trans (recorded.newPassword hash hpassword)
      exact hash_ne_x lawful hpassword (Option.some.inj read).symm

end Updated

/-- What a successful invocation has been asked for can be read back exactly if `/etc/gshadow`
exists or is not needed for it. -/
theorem recorded_iff {core : ShadowCore} (lawful : core.Lawful) (env : Environment) (o : Options)
    (files : Files) (success : (uumain core env (.options o) files).code = 0) :
    Recorded core env o (uumain core env (.options o) files).files ↔
      files.gshadow ≠ none ∨ GroupFileOnly o := by
  obtain ⟨r, entries, entries', entry, ho, hpassword, updated⟩ := uumain_success lawful success
  generalize (uumain core env (.options o) files).files = after at updated ⊢
  generalize o.group = group at ho updated
  obtain rfl := ho
  constructor
  · intro recorded
    by_cases missing : files.gshadow = none
    · exact .inr (updated.groupFileOnly lawful hpassword missing recorded)
    · exact .inl missing
  · intro covered
    by_cases missing : files.gshadow = none
    · exact updated.recorded_of_groupFileOnly hpassword missing (covered.neg_resolve_left missing)
    · exact updated.recorded hpassword missing

/-- The request for an administrator of the group. -/
def administerStaff : Options :=
  { group := "staff".toList, administrators := some "alice".toList }

theorem recorded_staff :
    Recorded plainCore calm administerStaff
      (uumain plainCore calm (.options administerStaff) staffFiles).files :=
  (recorded_iff plainCore_lawful calm administerStaff staffFiles (by decide)).mpr
    (.inl (Option.some_ne_none _))

/-- Without `/etc/gshadow` the request succeeds, and the group has no administrator. -/
theorem not_recorded_without_gshadow :
    ¬ ∀ (core : ShadowCore), core.Lawful → ∀ (env : Environment) (o : Options) (files : Files),
      (uumain core env (.options o) files).code = 0 →
        Recorded core env o (uumain core env (.options o) files).files := by
  intro claim
  have recorded := claim plainCore plainCore_lawful calm administerStaff
    { staffFiles with gshadow := none } (by decide)
  have admins := recorded.administrators _ rfl
  exact absurd admins (by decide)

end Baseimage.Gpasswd
