import Baseimage.Run.Outcome
import Baseimage.Text.CString

/-!
# The gpasswd command

An invocation updates the group in `/etc/group` and then its line in `/etc/gshadow`. The two updates
are functions from the entries that were read to the entries that are written. Reading, writing and
locking are in the library of the package; the file with the passwords of the users is read for
their names only.
-/

namespace Baseimage.Gpasswd

inductive GpasswdError where
  | badSyntax (msg : Str)
  | badArgument (msg : Str)
  | groupNotFound (msg : Str)
  | cantUpdate (msg : Str)
  deriving DecidableEq, Repr

def GpasswdError.code : GpasswdError → Nat
  | badSyntax _ => 2
  | badArgument _ => 3
  | groupNotFound _ => 6
  | cantUpdate _ => 10

/-- A line of `/etc/group`. -/
structure GroupEntry where
  name : Str
  passwd : Str
  gid : Nat
  members : List Str
  deriving DecidableEq, Repr

/-- A line of `/etc/gshadow`. -/
structure GshadowEntry where
  name : Str
  passwd : Str
  admins : List Str
  members : List Str
  deriving DecidableEq, Repr

/-- The options of an invocation, and its group. -/
structure Options where
  group : Str
  add : Option Str := none
  delete : Option Str := none
  administrators : Option Str := none
  members : Option Str := none
  removePassword : Bool := false
  restrict : Bool := false
  deriving DecidableEq, Repr

/-- "Except for -A and -M, the options cannot be combined." -/
def Options.exclusiveCount (o : Options) : Nat :=
  o.add.isSome.toNat + o.delete.isSome.toNat + o.removePassword.toNat + o.restrict.toNat +
    (o.administrators.isSome || o.members.isSome).toNat

/-- `char::is_whitespace`. -/
def isWhitespace (c : Char) : Bool :=
  (9 ≤ c.toNat && c.toNat ≤ 13) || c.toNat == 0x20 || c.toNat == 0x85 || c.toNat == 0xA0 ||
    c.toNat == 0x1680 || (0x2000 ≤ c.toNat && c.toNat ≤ 0x200A) || c.toNat == 0x2028 ||
    c.toNat == 0x2029 || c.toNat == 0x202F || c.toNat == 0x205F || c.toNat == 0x3000

/-- `str::trim`. -/
def trim (s : Str) : Str := (s.rdropWhile isWhitespace).dropWhile isWhitespace

/-- `parse_user_list`. -/
def parseUserList (s : Str) : List Str :=
  if s = [] then [] else ((s.splitOn ',').map trim).filter fun u => u ≠ []

/-- The members after `add_member`, or `add_member_gs`. -/
def addMember (members : List Str) (user : Str) : List Str :=
  if members.any fun m => m == user then members else members ++ [user]

/-- The members after `remove_member`, or the members and administrators after
`remove_member_gs`. -/
def removeMember (members : List Str) (user : Str) : List Str := members.filter fun m => m != user

/-- `user '...' does not exist`. -/
def unknownUser (user : Str) : GpasswdError :=
  .badArgument ("user '".toList ++ user ++ "' does not exist".toList)

/-- Every user of the list must exist. -/
def checkUsers (passwd : List Str) : List Str → Except GpasswdError Unit
  | [] => .ok ()
  | user :: users =>
      if passwd.any fun p => p == user then checkUsers passwd users else .error (unknownUser user)

/-- What -a, -d, -M and the options about the password make of the entry of the group. The password
is the new one, if one was prompted for. -/
def updateMembers (o : Options) (password : Option Str) (passwd : List Str) (entry : GroupEntry) :
    Except GpasswdError GroupEntry :=
  match o.add, o.delete, o.members with
  | some user, _, _ =>
      (checkUsers passwd [user]).map fun _ =>
        { entry with members := addMember entry.members user }
  | none, some user, _ => .ok { entry with members := removeMember entry.members user }
  | none, none, some list =>
      (checkUsers passwd (parseUserList list)).map fun _ =>
        { entry with members := parseUserList list }
  | none, none, none =>
      -- Group password lives in gshadow; keep the group field as 'x'.
      if o.removePassword || o.restrict || password.isSome then
        .ok { entry with passwd := "x".toList }
      else .ok entry

/-- The new entry of the group. -A only touches gshadow, but its users must exist. -/
def updateEntry (o : Options) (password : Option Str) (passwd : List Str) (entry : GroupEntry) :
    Except GpasswdError GroupEntry := do
  let entry ← updateMembers o password passwd entry
  checkUsers passwd (o.administrators.elim [] parseUserList)
  pure entry

/-- The update of `/etc/group`: the entries to write, and the entry of the group among them. -/
def updateGroup (o : Options) (password : Option Str) (passwd : List Str)
    (entries : List GroupEntry) : Except GpasswdError (List GroupEntry × GroupEntry) :=
  match entries.findIdx? fun g => g.name == o.group with
  | none => .error (.groupNotFound ("group '".toList ++ o.group ++ "' does not exist".toList))
  | some idx => do
      let entry ← updateEntry o password passwd (entries.getD idx ⟨[], [], 0, []⟩)
      pure (entries.set idx entry, entry)

/-- What the options make of the line of the group in `/etc/gshadow`. -/
def updateLine (o : Options) (password : Option Str) (gs : GshadowEntry) : GshadowEntry :=
  let gs := o.add.elim gs fun user => { gs with members := addMember gs.members user }
  let gs := o.delete.elim gs fun user =>
    { gs with members := removeMember gs.members user, admins := removeMember gs.admins user }
  let gs := o.members.elim gs fun list => { gs with members := parseUserList list }
  let gs := o.administrators.elim gs fun list => { gs with admins := parseUserList list }
  let gs := if o.removePassword then { gs with passwd := [] } else gs
  let gs := if o.restrict then { gs with passwd := "!".toList } else gs
  password.elim gs fun hash => { gs with passwd := hash }

/-- "Create a gshadow line if the group exists only in /etc/group." -/
def createLine (group : Str) (members : List Str) (entries : List GshadowEntry) :
    List GshadowEntry :=
  if entries.any fun g => g.name == group then entries
  else entries ++ [{ name := group, passwd := "!".toList, admins := [], members := members }]

/-- The first line of the group is changed. -/
def changeLine (group : Str) (change : GshadowEntry → GshadowEntry) :
    List GshadowEntry → List GshadowEntry
  | [] => []
  | g :: entries =>
      if g.name == group then change g :: entries else g :: changeLine group change entries

/-- The update of `/etc/gshadow`. -/
def updateGshadow (o : Options) (password : Option Str) (membersForGshadow : List Str)
    (entries : List GshadowEntry) : List GshadowEntry :=
  changeLine o.group (updateLine o password) (createLine o.group membersForGshadow entries)

/-! ## Members -/

@[simp] theorem mem_addMember {members : List Str} {user u : Str} :
    u ∈ addMember members user ↔ u ∈ members ∨ u = user := by
  unfold addMember
  split
  · next present =>
      have member : user ∈ members := by simpa using present
      constructor
      · exact Or.inl
      · rintro (old | rfl)
        · exact old
        · exact member
  · simp

@[simp] theorem mem_removeMember {members : List Str} {user u : Str} :
    u ∈ removeMember members user ↔ u ∈ members ∧ u ≠ user := by
  simp [removeMember]

/-- The entry keeps its name. -/
theorem updateEntry_name {o : Options} {password : Option Str} {passwd : List Str}
    {entry entry' : GroupEntry} (h : updateEntry o password passwd entry = .ok entry') :
    entry'.name = entry.name := by
  obtain ⟨middle, hmembers, hrest⟩ := Except.bind_eq_ok h
  obtain ⟨_, -, hpure⟩ := Except.bind_eq_ok hrest
  obtain rfl := Except.ok.inj hpure
  unfold updateMembers at hmembers
  split at hmembers
  · obtain ⟨_, -, rfl⟩ := Except.map_eq_ok hmembers
    rfl
  · exact Except.ok.inj hmembers ▸ rfl
  · obtain ⟨_, -, rfl⟩ := Except.map_eq_ok hmembers
    rfl
  · split at hmembers
    · exact Except.ok.inj hmembers ▸ rfl
    · exact Except.ok.inj hmembers ▸ rfl

/-- The user is a member of the group in `/etc/group`. -/
def GroupMember (group : Str) (entries : List GroupEntry) (user : Str) : Prop :=
  ∃ g, entries.find? (fun g => g.name == group) = some g ∧ user ∈ g.members

/-- The user is a member of the group in `/etc/gshadow`. -/
def GshadowMember (group : Str) (entries : List GshadowEntry) (user : Str) : Prop :=
  ∃ g, entries.find? (fun g => g.name == group) = some g ∧ user ∈ g.members

theorem find?_getD {α : Type*} {p : α → Bool} {xs : List α} {i : Nat} (default : α)
    (found : xs.findIdx? p = some i) : xs.find? p = some (xs.getD i default) := by
  induction xs generalizing i with
  | nil => cases found
  | cons x xs ih =>
      rw [List.findIdx?_cons] at found
      cases hx : p x with
      | true =>
          rw [hx, if_pos rfl] at found
          obtain rfl := Option.some.inj found
          exact List.find?_cons_of_pos hx
      | false =>
          rw [hx, if_neg Bool.false_ne_true] at found
          obtain ⟨j, hj, rfl⟩ := Option.map_eq_some_iff.mp found
          rw [List.find?_cons_of_neg (by simp [hx])]
          exact ih hj

theorem find?_set {α : Type*} {p : α → Bool} {xs : List α} {i : Nat} {y : α}
    (found : xs.findIdx? p = some i) (hy : p y = true) : (xs.set i y).find? p = some y := by
  induction xs generalizing i with
  | nil => cases found
  | cons x xs ih =>
      rw [List.findIdx?_cons] at found
      cases hx : p x with
      | true =>
          rw [hx, if_pos rfl] at found
          obtain rfl := Option.some.inj found
          exact List.find?_cons_of_pos hy
      | false =>
          rw [hx, if_neg Bool.false_ne_true] at found
          obtain ⟨j, hj, rfl⟩ := Option.map_eq_some_iff.mp found
          rw [List.set_cons_succ, List.find?_cons_of_neg (by simp [hx])]
          exact ih hj

/-- What is written to `/etc/group` is what was read, with the entry of the group updated. -/
theorem updateGroup_ok {o : Options} {password : Option Str} {passwd : List Str}
    {entries entries' : List GroupEntry} {entry' : GroupEntry}
    (h : updateGroup o password passwd entries = .ok (entries', entry')) :
    ∃ entry, entries.find? (fun g => g.name == o.group) = some entry ∧
      updateEntry o password passwd entry = .ok entry' ∧
      entries'.find? (fun g => g.name == o.group) = some entry' := by
  unfold updateGroup at h
  split at h
  · cases h
  · next idx found =>
      obtain ⟨updated, hupdate, hpure⟩ := Except.bind_eq_ok h
      obtain ⟨rfl, rfl⟩ := Prod.mk.inj (Except.ok.inj hpure)
      have hbefore := find?_getD ⟨[], [], 0, []⟩ found
      have hname : (updated.name == o.group) = true := by
        have found_name := List.find?_some hbefore
        rwa [updateEntry_name hupdate]
      exact ⟨_, hbefore, hupdate, find?_set found hname⟩

theorem find?_createLine (group : Str) (members : List Str) (entries : List GshadowEntry) :
    (createLine group members entries).find? (fun g => g.name == group) =
      ((entries.find? fun g => g.name == group).getD
        { name := group, passwd := "!".toList, admins := [], members := members } :
          GshadowEntry) := by
  unfold createLine
  split
  · next present =>
      obtain ⟨g, hg, hname⟩ := List.any_eq_true.mp present
      cases hfind : entries.find? fun g => g.name == group with
      | none => exact absurd hname (by simpa using List.find?_eq_none.mp hfind g hg)
      | some g => rfl
  · next absent =>
      have hfind : (entries.find? fun g => g.name == group) = none := by
        rw [List.find?_eq_none]
        intro g hg hname
        exact absent (List.any_eq_true.mpr ⟨g, hg, hname⟩)
      rw [List.find?_append, hfind]
      simp

theorem find?_changeLine {group : Str} {change : GshadowEntry → GshadowEntry}
    (hname : ∀ g, (change g).name = g.name) (entries : List GshadowEntry) :
    (changeLine group change entries).find? (fun g => g.name == group) =
      (entries.find? fun g => g.name == group).map change := by
  induction entries with
  | nil => rfl
  | cons g entries ih =>
      unfold changeLine
      split
      · next here =>
          have changed : ((change g).name == group) = true := by rwa [hname]
          simp only [List.find?_cons, here, changed, Option.map_some]
      · next other => 
          have differs : (g.name == group) = false := Bool.eq_false_iff.mpr other
          simp only [List.find?_cons, differs, ih]

theorem updateLine_name (o : Options) (password : Option Str) (gs : GshadowEntry) :
    (updateLine o password gs).name = gs.name := by
  unfold updateLine
  cases o.add <;> cases o.delete <;> cases o.members <;> cases o.administrators <;>
    cases o.removePassword <;> cases o.restrict <;> cases password <;> rfl

/-- The line of the group after the update: the old one, or a new one, changed. -/
theorem find?_updateGshadow (o : Options) (password : Option Str) (membersForGshadow : List Str)
    (entries : List GshadowEntry) :
    (updateGshadow o password membersForGshadow entries).find? (fun g => g.name == o.group) =
      some (updateLine o password ((entries.find? fun g => g.name == o.group).getD
        { name := o.group, passwd := "!".toList, admins := [],
          members := membersForGshadow })) := by
  rw [updateGshadow, find?_changeLine (updateLine_name o password), find?_createLine]
  rfl

end Baseimage.Gpasswd
