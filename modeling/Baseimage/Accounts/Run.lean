import Baseimage.Accounts.Entries

/-!
# Runs of 10-init-users.sh

What a successful run leaves in the databases, in terms of what the script is given: the accounts in
the order of their lines, each with its origin. The script compares a new account with those before
it, except the accounts of `app` and the lines that are in the home directory of a user.
-/

namespace Baseimage.Accounts

open Filters

/-- How an account comes into its database. -/
inductive Origin where
  /-- It is compared with the accounts that are there. -/
  | checked
  | app
  /-- The home directory of a user has a line of its own. -/
  | home
  deriving DecidableEq, Repr

structure Account where
  name : Str
  id : Str
  /-- The primary group of a user. -/
  gid : Str := []
  origin : Origin
  deriving DecidableEq, Repr

/-- The fields of an account that others are compared with, or look for. -/
def Account.fields (a : Account) : Str × Str × Str := (a.name, a.id, a.gid)

/-- The same fields of a line of `/etc/passwd`. -/
def lineFields (line : Str) : Str × Str × Str := (cut ':' 1 line, cut ':' 3 line, cut ':' 4 line)

def userAccount (origin : Origin) (line : Str) : Account where
  name := cut ':' 1 line
  id := cut ':' 3 line
  gid := cut ':' 4 line
  origin := origin

/-- The accounts in the lines that are printed for a user. -/
def printedAccounts (origin : Origin) : List Str → List Account
  | [] => []
  | first :: rest => userAccount origin first :: rest.map (userAccount .home)

/-! ## What the script is given -/

/-- The groups that are defined and not disabled. -/
def Definitions.enabledGroups (defs : Definitions) : List Group :=
  defs.groups.filterMap fun d => d.read.join

/-- The users that are defined and not disabled. -/
def Definitions.enabledUsers (defs : Definitions) : List User :=
  defs.users.filterMap fun d => d.read.join

def Group.account (g : Group) : Account := { name := g.name, id := g.id, origin := .checked }

/-- The group that is made for a supplementary id. -/
def supAccount (gid : Str) : Account :=
  { name := "grp".toList ++ gid, id := gid, origin := .checked }

def User.accounts (echo : Echo) (u : User) : List Account :=
  printedAccounts .checked
    (echo.print (passwdLine u.name u.uid u.gid (orDefault u.home "/dev/null".toList)))

def appAccounts (echo : Echo) (env : Str → Option Str) : List Account :=
  printedAccounts .app
    (echo.print (passwdLine app (valueOf env "USER_ID") (valueOf env "GROUP_ID")
      (orDefault (valueOf env "HOME") "/config".toList)))

/-- The groups before those for the supplementary ids. -/
def namedGroups (defs : Definitions) (env : Str → Option Str) : List Account :=
  defs.enabledGroups.map Group.account ++
    [{ name := app, id := valueOf env "GROUP_ID", origin := .app }]

/-- The groups of a successful run. -/
def groupAccounts (tools : Tools) (defs : Definitions) (env : Str → Option Str) : List Account :=
  namedGroups defs env ++
    ((supGroupIds tools env (valueOf env "GROUP_ID")).filter fun gid =>
      gid ∉ (namedGroups defs env).map Account.id).map supAccount

/-- The users of a successful run. -/
def userAccounts (tools : Tools) (defs : Definitions) (env : Str → Option Str) : List Account :=
  defs.enabledUsers.flatMap (User.accounts tools.echo) ++ appAccounts tools.echo env

/-- The names of the enabled definitions, and those of the groups that are given to users. -/
structure Definitions.Named (defs : Definitions) : Prop where
  group : ∀ g ∈ defs.enabledGroups, isAccountName g.name = true
  user : ∀ u ∈ defs.enabledUsers, isAccountName u.name = true
  userGroups : ∀ u ∈ defs.enabledUsers, ∀ grp ∈ u.groups, isAccountName grp = true

/-- A list of numbers with commas between them. -/
def NumberList (list : Str) : Prop := ∀ id ∈ list.splitOn ',', id = [] ∨ isNumber id = true

instance (list : Str) : Decidable (NumberList list) :=
  inferInstanceAs (Decidable (∀ id ∈ list.splitOn ',', id = [] ∨ isNumber id = true))

/-- The ids in the environment. -/
structure NumericIds (env : Str → Option Str) : Prop where
  user : isNumber (valueOf env "USER_ID") = true
  group : isNumber (valueOf env "GROUP_ID") = true
  sup : NumberList (valueOf env "SUP_GROUP_IDS")
  supInternal : NumberList (valueOf env "SUP_GROUP_IDS_INTERNAL")

/-! ## Following a run -/

/-- An account that is compared has a name and an id of its own. -/
def Checked (a b : Account) : Prop := b.origin = .checked → a.name ≠ b.name ∧ a.id ≠ b.id

/-- The databases have these accounts. -/
structure Tracks (db : Databases) (entries : List Entry) (groups users : List Account) : Prop where
  represents : Represents db entries
  groups_eq : entries.map (fun e => (e.name, e.gid)) = groups.map fun a => (a.name, a.id)
  users_eq : db.passwd.map lineFields = users.map Account.fields
  groups_checked : groups.Pairwise Checked
  users_checked : users.Pairwise Checked
  primary : ∀ a ∈ users, a.origin ≠ .home → isNumber a.gid = true ∧ ∃ g ∈ groups, g.id = a.gid

theorem pairwise_concat {α : Type} {R : α → α → Prop} {l : List α} {b : α}
    (h : l.Pairwise R) (hb : ∀ a ∈ l, R a b) : (l ++ [b]).Pairwise R :=
  List.pairwise_append.mpr ⟨h, List.pairwise_singleton R b, fun a ha =>
    List.forall_mem_singleton.mpr (hb a ha)⟩

theorem map_joinGroup (uname gname : Str) (entries : List Entry) :
    (joinGroup uname gname entries).map (fun e => (e.name, e.gid)) =
      entries.map fun e => (e.name, e.gid) := by
  have kept : ∀ members : Entry → List Str,
      (entries.map fun e => if e.name = gname then e.withMembers (members e) else e).map
        (fun e => (e.name, e.gid)) = entries.map fun e => (e.name, e.gid) := by
    intro members
    rw [List.map_map]
    refine List.map_congr_left fun e _ => ?_
    simp only [Function.comp_apply]
    split
    · rfl
    · rfl
  unfold joinGroup
  split
  · exact kept _
  · exact kept _

namespace Tracks

variable {echo : Echo} {tools : Tools} {db db' : Databases} {entries : List Entry}
  {groups users : List Account}

theorem exists_group (h : Tracks db entries groups users) {e : Entry} (he : e ∈ entries) :
    ∃ g ∈ groups, g.name = e.name ∧ g.id = e.gid := by
  have member : (e.name, e.gid) ∈ groups.map fun a => (a.name, a.id) := by
    rw [← h.groups_eq]
    exact List.mem_map_of_mem he
  obtain ⟨g, hg, same⟩ := List.mem_map.mp member
  exact ⟨g, hg, (Prod.mk.inj same).1, (Prod.mk.inj same).2⟩

theorem exists_entry (h : Tracks db entries groups users) {g : Account} (hg : g ∈ groups) :
    ∃ e ∈ entries, e.name = g.name ∧ e.gid = g.id := by
  have member : (g.name, g.id) ∈ entries.map fun e => (e.name, e.gid) := by
    rw [h.groups_eq]
    exact List.mem_map_of_mem hg
  obtain ⟨e, he, same⟩ := List.mem_map.mp member
  exact ⟨e, he, (Prod.mk.inj same).1, (Prod.mk.inj same).2⟩

theorem exists_line (h : Tracks db entries groups users) {a : Account} (ha : a ∈ users) :
    ∃ line ∈ db.passwd, lineFields line = a.fields := by
  have member : a.fields ∈ db.passwd.map lineFields := by
    rw [h.users_eq]
    exact List.mem_map_of_mem ha
  exact List.mem_map.mp member

theorem exists_user (h : Tracks db entries groups users) {line : Str} (hline : line ∈ db.passwd) :
    ∃ a ∈ users, a.fields = lineFields line := by
  have member : lineFields line ∈ users.map Account.fields := by
    rw [← h.users_eq]
    exact List.mem_map_of_mem hline
  exact List.mem_map.mp member

/-- A group is looked for by its id. -/
theorem exists_groupLine_iff (h : Tracks db entries groups users) (P : Str → Prop) :
    (∃ line ∈ db.group, P (cut ':' 3 line)) ↔ ∃ g ∈ groups, P g.id := by
  have lines : (∃ line ∈ db.group, P (cut ':' 3 line)) ↔ ∃ e ∈ entries, P e.gid :=
    h.represents.exists_line_iff fun e valid => by rw [valid.cut_id]
  rw [lines]
  constructor
  · rintro ⟨e, he, hid⟩
    obtain ⟨g, hg, -, same⟩ := h.exists_group he
    exact ⟨g, hg, same ▸ hid⟩
  · rintro ⟨g, hg, hid⟩
    obtain ⟨e, he, -, same⟩ := h.exists_entry hg
    exact ⟨e, he, same ▸ hid⟩

theorem addGroup (h : Tracks db entries groups users) {a : Account}
    (hname : isAccountName a.name = true) (hid : isNumber a.id = true)
    (hadd : Accounts.addGroup echo (a.origin == .checked) a.name a.id db = some db') :
    Tracks db' (entries ++ [⟨a.name, a.id, []⟩]) (groups ++ [a]) users := by
  obtain ⟨represents, passwd, fresh⟩ := addGroup_spec h.represents hname hid hadd
  refine ⟨represents, ?_, ?_, ?_, h.users_checked, ?_⟩
  · simp [h.groups_eq]
  · rw [passwd]
    exact h.users_eq
  · refine pairwise_concat h.groups_checked fun b hb checked => ?_
    obtain ⟨e, he, hname, hid⟩ := h.exists_entry hb
    have different := fresh (by simp [checked]) e he
    exact ⟨hname ▸ different.1, hid ▸ different.2⟩
  · intro b hb origin
    obtain ⟨number, g, hg, same⟩ := h.primary b hb origin
    exact ⟨number, g, List.mem_append_left _ hg, same⟩

theorem addUserToGroup (h : Tracks db entries groups users) {uname gname : Str}
    (huname : Word uname) (hgname : Word gname)
    (hadd : Accounts.addUserToGroup uname gname db = some db') :
    Tracks db' (joinGroup uname gname entries) groups users := by
  obtain ⟨represents, passwd, -⟩ := addUserToGroup_spec h.represents huname hgname hadd
  refine ⟨represents, ?_, ?_, h.groups_checked, h.users_checked, h.primary⟩
  · rw [map_joinGroup]
    exact h.groups_eq
  · rw [passwd]
    exact h.users_eq

end Tracks

/-- The first line for a user begins with the fields before the home directory. -/
theorem passwdLine_begins (echo : Echo) {name uid gid : Str} (hname : isAccountName name = true)
    (huid : isNumber uid = true) (hgid : isNumber gid = true) (homedir : Str) :
    ∃ more rest, echo.print (passwdLine name uid gid homedir) =
      (name ++ ':' :: (['x'] ++ ':' :: (uid ++ ':' :: (gid ++ ':' :: more)))) :: rest := by
  have words := And.intro (word_of_isAccountName hname)
    (And.intro (word_of_isNumber huid) (word_of_isNumber hgid))
  obtain ⟨wname, wuid, wgid⟩ := words
  have fields : passwdLine name uid gid homedir =
      (name ++ ':' :: (['x'] ++ ':' :: (uid ++ ':' :: (gid ++ [':'])))) ++
        (':' :: (homedir ++ ":/sbin/nologin".toList)) := by
    show name ++ [':', 'x', ':'] ++ uid ++ [':'] ++ gid ++ [':', ':'] ++ homedir ++ _ = _
    simp
  have clean : ∀ {d : Char}, isNameChar d = false → d ≠ ':' → d ≠ 'x' →
      d ∉ name ++ ':' :: (['x'] ++ ':' :: (uid ++ ':' :: (gid ++ [':']))) := by
    intro d hd colon x
    simp [wname.not_mem hd, wuid.not_mem hd, wgid.not_mem hd, colon, x]
  obtain ⟨more, rest, printed⟩ := echo.begins (b := ':' :: (homedir ++ ":/sbin/nologin".toList))
    (clean (by decide) (by decide) (by decide)) (clean (by decide) (by decide) (by decide))
    (by simp) (head_ne_hyphen hname _)
  have spelled : name ++ ':' :: (['x'] ++ ':' :: (uid ++ ':' :: (gid ++ [':']))) ++ more =
      name ++ ':' :: (['x'] ++ ':' :: (uid ++ ':' :: (gid ++ ':' :: more))) := by simp
  exact ⟨more, rest, by rw [fields, printed, spelled]⟩

/-- The first line for a user has the fields before the home directory. -/
theorem print_passwdLine (echo : Echo) {name uid gid : Str} (hname : isAccountName name = true)
    (huid : isNumber uid = true) (hgid : isNumber gid = true) (homedir : Str) :
    ∃ first rest, echo.print (passwdLine name uid gid homedir) = first :: rest ∧
      lineFields first = (name, uid, gid) := by
  have wname := word_of_isAccountName hname
  have wuid := word_of_isNumber huid
  obtain ⟨more, rest, printed⟩ := passwdLine_begins echo hname huid hgid homedir
  refine ⟨_, rest, printed, ?_⟩
  rw [lineFields, cut_first wname.no_colon, cut_third wname.no_colon (by decide) wuid.no_colon,
    cut_fourth wname.no_colon (by decide) wuid.no_colon (word_of_isNumber hgid).no_colon]

theorem fields_printedAccounts (origin : Origin) (lines : List Str) :
    (printedAccounts origin lines).map Account.fields = lines.map lineFields := by
  cases lines with
  | nil => rfl
  | cons first rest =>
      rw [printedAccounts, List.map_cons, List.map_cons, List.map_map]
      rfl

namespace Tracks

variable {echo : Echo} {tools : Tools} {db db' : Databases} {entries : List Entry}
  {groups users : List Account}

theorem addUser (h : Tracks db entries groups users) {o : Origin}
    {name uid gid home passwordHash : Str} (hname : isAccountName name = true)
    (huid : isNumber uid = true) (hgid : isNumber gid = true)
    (hadd : Accounts.addUser echo (o == .checked) name uid gid home passwordHash db = some db') :
    Tracks db' entries groups (users ++ printedAccounts o
      (echo.print (passwdLine name uid gid (orDefault home "/dev/null".toList)))) := by
  obtain ⟨represents, passwd, fresh, e, he, hegid⟩ := addUser_spec h.represents hname huid hgid hadd
  obtain ⟨first, rest, printed, hfirst⟩ :=
    print_passwdLine echo hname huid hgid (orDefault home "/dev/null".toList)
  have own : userAccount o first = ⟨name, uid, gid, o⟩ := by
    obtain ⟨h1, h2, h3⟩ :
      cut ':' 1 first = name ∧ cut ':' 3 first = uid ∧ cut ':' 4 first = gid := by
      simpa [lineFields] using hfirst
    rw [userAccount, h1, h2, h3]
  refine ⟨represents, h.groups_eq, ?_, h.groups_checked, ?_, ?_⟩
  · rw [passwd, List.map_append, List.map_append, h.users_eq, fields_printedAccounts]
  · rw [printed, printedAccounts, own]
    have added : ∀ (a : Account) (line : Str), Checked a (userAccount .home line) :=
      fun a line absurdity => nomatch absurdity
    have added_lines : (rest.map (userAccount .home)).Pairwise Checked :=
      List.pairwise_map.mpr (List.pairwise_of_forall fun _ line => added _ line)
    refine List.pairwise_append.mpr ⟨h.users_checked, List.pairwise_cons.mpr ⟨?_, added_lines⟩, ?_⟩
    · intro b hb
      obtain ⟨line, -, rfl⟩ := List.mem_map.mp hb
      exact added _ line
    · intro a ha b hb
      obtain rfl | hb := List.mem_cons.mp hb
      · intro checked
        obtain ⟨line, hline, same⟩ := h.exists_line ha
        have different := fresh (beq_iff_eq.mpr checked) line hline
        obtain ⟨hname, hid⟩ : cut ':' 1 line = a.name ∧ cut ':' 3 line = a.id :=
          ⟨congrArg Prod.fst same, congrArg (fun fields => fields.2.1) same⟩
        exact ⟨hname ▸ different.1, hid ▸ different.2⟩
      · obtain ⟨line, -, rfl⟩ := List.mem_map.mp hb
        exact added a line
  · rw [printed, printedAccounts, own]
    intro b hb kind
    obtain hb | hb := List.mem_append.mp hb
    · exact h.primary b hb kind
    obtain rfl | hb := List.mem_cons.mp hb
    · obtain ⟨g, hg, -, same⟩ := h.exists_group he
      exact ⟨hgid, g, hg, same.trans hegid⟩
    · obtain ⟨line, -, rfl⟩ := List.mem_map.mp hb
      exact absurd rfl kind

end Tracks

/-! ## The loops -/

theorem addDefinedGroup_eq_some {tools : Tools} {db db' : Databases} {d : GroupDir}
    (h : addDefinedGroup tools db d = some db') :
    (d.read = some none ∧ db' = db) ∨
      ∃ g, d.read = some (some g) ∧ isNumber g.id = true ∧
        addGroup tools.echo true g.name g.id db = some db' := by
  obtain ⟨r, hread, h⟩ := Option.bind_eq_some_iff.mp h
  cases r with
  | none => exact .inl ⟨hread, (Option.some.inj h).symm⟩
  | some g =>
      dsimp only at h
      split at h
      · cases h
      split at h
      · cases h
      next valid =>
      exact .inr ⟨g, hread, by simpa [groupIdValid, userIdValid] using valid, h⟩

theorem addDefinedUser_eq_some {tools : Tools} {db db' : Databases} {d : UserDir}
    (h : addDefinedUser tools db d = some db') :
    (d.read = some none ∧ db' = db) ∨
      ∃ u hash middle, d.read = some (some u) ∧ isNumber u.uid = true ∧ isNumber u.gid = true ∧
        addUser tools.echo true u.name u.uid u.gid u.home hash db = some middle ∧
        addToGroups u.name u.groups middle = some db' := by
  obtain ⟨r, hread, h⟩ := Option.bind_eq_some_iff.mp h
  cases r with
  | none => exact .inl ⟨hread, (Option.some.inj h).symm⟩
  | some u =>
      dsimp only at h
      split at h
      · cases h
      split at h
      · cases h
      next uidValid =>
      split at h
      · cases h
      next gidValid =>
      obtain ⟨hash, -, h⟩ := Option.bind_eq_some_iff.mp h
      obtain ⟨middle, hadd, h⟩ := Option.bind_eq_some_iff.mp h
      exact .inr ⟨u, hash, middle, hread, by simpa [userIdValid] using uidValid,
        by simpa [groupIdValid, userIdValid] using gidValid, hadd, h⟩

/-- The entries after a user is made a member of its groups. -/
def joinGroups (entries : List Entry) (u : User) : List Entry :=
  u.groups.foldl (fun entries grp => joinGroup u.name grp entries) entries

namespace Tracks

variable {tools : Tools} {db db' : Databases} {entries : List Entry} {groups users : List Account}

theorem definedGroups (h : Tracks db entries groups users) {dirs : List GroupDir}
    (named : ∀ g ∈ dirs.filterMap fun d => d.read.join, isAccountName g.name = true)
    (hrun : dirs.foldlM (addDefinedGroup tools) db = some db') :
    Tracks db'
      (entries ++ (dirs.filterMap fun d => d.read.join).map fun g => ⟨g.name, g.id, []⟩)
      (groups ++ (dirs.filterMap fun d => d.read.join).map Group.account) users := by
  induction dirs generalizing db entries groups with
  | nil =>
      obtain rfl := Option.some.inj hrun
      simpa using h
  | cons d dirs ih =>
      obtain ⟨middle, hfirst, hrest⟩ := Option.bind_eq_some_iff.mp hrun
      obtain ⟨hread, rfl⟩ | ⟨g, hread, hid, hadd⟩ := addDefinedGroup_eq_some hfirst
      · have skipped : (d :: dirs).filterMap (fun d => d.read.join) =
            dirs.filterMap fun d => d.read.join := by simp [hread]
        rw [skipped] at named ⊢
        exact ih h named hrest
      · have kept : (d :: dirs).filterMap (fun d => d.read.join) =
            g :: dirs.filterMap fun d => d.read.join := by simp [hread]
        rw [kept] at named ⊢
        obtain ⟨hname, names⟩ := List.forall_mem_cons.mp named
        have added : Tracks middle (entries ++ [⟨g.name, g.id, []⟩])
          (groups ++ [g.account]) users :=
          h.addGroup (a := g.account) hname hid hadd
        simpa using ih added names hrest

theorem joinedGroups (h : Tracks db entries groups users) {uname : Str} (huname : Word uname)
    {grps : List Str} (named : ∀ grp ∈ grps, isAccountName grp = true)
    (hrun : addToGroups uname grps db = some db') :
    Tracks db' (grps.foldl (fun entries grp => joinGroup uname grp entries) entries)
      groups users := by
  induction grps generalizing db entries with
  | nil => exact Option.some.inj hrun ▸ h
  | cons grp grps ih =>
      obtain ⟨middle, hfirst, hrest⟩ := Option.bind_eq_some_iff.mp hrun
      obtain ⟨hgrp, names⟩ := List.forall_mem_cons.mp named
      exact ih (h.addUserToGroup huname (word_of_isAccountName hgrp) hfirst) names hrest

theorem definedUsers (h : Tracks db entries groups users) {dirs : List UserDir}
    (named : ∀ u ∈ dirs.filterMap fun d => d.read.join, isAccountName u.name = true ∧
      ∀ grp ∈ u.groups, isAccountName grp = true)
    (hrun : dirs.foldlM (addDefinedUser tools) db = some db') :
    Tracks db' ((dirs.filterMap fun d => d.read.join).foldl joinGroups entries) groups
      (users ++ (dirs.filterMap fun d => d.read.join).flatMap (User.accounts tools.echo)) := by
  induction dirs generalizing db entries users with
  | nil =>
      obtain rfl := Option.some.inj hrun
      simpa using h
  | cons d dirs ih =>
      obtain ⟨middle, hfirst, hrest⟩ := Option.bind_eq_some_iff.mp hrun
      obtain ⟨hread, rfl⟩ | ⟨u, hash, added, hread, huid, hgid, hadd, hjoin⟩ :=
        addDefinedUser_eq_some hfirst
      · have skipped : (d :: dirs).filterMap (fun d => d.read.join) =
            dirs.filterMap fun d => d.read.join := by simp [hread]
        rw [skipped] at named ⊢
        exact ih h named hrest
      · have kept : (d :: dirs).filterMap (fun d => d.read.join) =
            u :: dirs.filterMap fun d => d.read.join := by simp [hread]
        rw [kept] at named ⊢
        obtain ⟨⟨hname, hgrps⟩, names⟩ := List.forall_mem_cons.mp named
        have user : Tracks added entries groups (users ++ u.accounts tools.echo) :=
          h.addUser hname huid hgid hadd
        have joined := user.joinedGroups (word_of_isAccountName hname) hgrps hjoin
        rw [List.foldl_cons, List.flatMap_cons, ← List.append_assoc]
        exact ih joined names hrest

end Tracks

/-! ## The supplementary ids -/

theorem NumberList.append {l m : Str} (hl : NumberList l) (hm : NumberList m) :
    NumberList (l ++ ",".toList ++ m) := by
  have joined : l ++ ",".toList ++ m = l ++ ',' :: m := by
    show l ++ [','] ++ m = _
    simp
  rw [NumberList, joined, List.splitOn_append_cons_self]
  exact List.forall_mem_append.mpr ⟨hl, hm⟩

/-- The ids of a list of numbers. -/
def idsOf (list : Str) : List Str := (list.splitOn ',').filter fun id => id ≠ [] ∧ id ≠ "0".toList

theorem idsOf_append (l m : Str) : idsOf (l ++ ",".toList ++ m) = idsOf l ++ idsOf m := by
  have joined : l ++ ",".toList ++ m = l ++ ',' :: m := by
    show l ++ [','] ++ m = _
    simp
  rw [idsOf, joined, List.splitOn_append_cons_self, List.filter_append]
  rfl

theorem isNumber_of_mem_idsOf {list id : Str} (h : NumberList list) (hid : id ∈ idsOf list) :
    isNumber id = true := by
  obtain ⟨member, nonempty⟩ := List.mem_filter.mp hid
  obtain empty | number := h id member
  · exact absurd empty (by simpa using And.left (of_decide_eq_true nonempty))
  · exact number

theorem listedIds_eq (echo : Echo) {list : Str} (h : NumberList list) :
    listedIds echo list = idsOf list := by
  have clean : ∀ {d : Char}, d ≠ ',' → isNameChar d = false → d ∉ list := by
    intro d comma hd member
    obtain same | ⟨piece, hpiece, hd'⟩ := mem_splitOn member
    · exact comma same
    obtain rfl | number := h piece hpiece
    · cases hd'
    · exact (word_of_isNumber number).not_mem hd hd'
  have hyphen : list.head? ≠ some '-' := by
    intro head
    obtain same | ⟨piece, hpiece, hd'⟩ := mem_splitOn (d := ',') (List.mem_of_mem_head? head)
    · exact absurd same (by decide)
    obtain rfl | number := h piece hpiece
    · cases hd'
    · exact absurd ((isNumber_iff.mp number).2 '-' hd') (by decide)
  have empty_line : ∀ line, Pattern.isMatch "^$".toList line = true ↔ line = [] :=
    Pattern.isMatch_line (a := []) (by decide)
  have zero_line : ∀ line, Pattern.isMatch "^0$".toList line = true ↔ line = "0".toList :=
    Pattern.isMatch_line (a := "0".toList) (by decide)
  have lines : ((echo.print list).flatMap fun line => (tr ',' '\n' line).splitOn '\n') =
      list.splitOn ',' := by
    rw [echo.plain (clean (by decide) (by decide)) hyphen,
      List.splitOn_eq_singleton (clean (by decide) (by decide)), List.flatMap_singleton,
      splitOn_tr (clean (by decide) (by decide))]
  rw [listedIds, lines, List.filter_filter, idsOf]
  refine List.filter_congr fun line _ => ?_
  rw [Bool.eq_iff_iff]
  simp only [Bool.and_eq_true, Bool.not_eq_true', ← Bool.not_eq_true, empty_line, zero_line,
    decide_eq_true_eq, ne_eq, and_comm]

/-- The supplementary ids of the environment that the loop is to handle. -/
def supListed (env : Str → Option Str) : List Str :=
  (idsOf (valueOf env "SUP_GROUP_IDS") ++ idsOf (valueOf env "SUP_GROUP_IDS_INTERNAL")).filter
    fun id => id ≠ valueOf env "GROUP_ID"

theorem isNumber_of_mem_supListed {env : Str → Option Str} (h : NumericIds env) :
    ∀ id ∈ supListed env, isNumber id = true := by
  intro id hid
  obtain hid | hid := List.mem_append.mp (List.mem_filter.mp hid).1
  · exact isNumber_of_mem_idsOf h.sup hid
  · exact isNumber_of_mem_idsOf h.supInternal hid

theorem supGroupIds_eq (tools : Tools) {env : Str → Option Str} (h : NumericIds env) :
    supGroupIds tools env (valueOf env "GROUP_ID") = tools.sort.sort (supListed env) := by
  have ids := listedIds_eq tools.echo (h.sup.append h.supInternal)
  rw [idsOf_append] at ids
  rw [supGroupIds, ids, supListed]
  refine congrArg _ (List.filter_congr fun id hid => ?_)
  have number : isNumber id = true := by
    obtain hid | hid := List.mem_append.mp hid
    · exact isNumber_of_mem_idsOf h.sup hid
    · exact isNumber_of_mem_idsOf h.supInternal hid
  have word := hasWord_number (isNumber_iff.mp h.group).1 number
  rw [Bool.eq_iff_iff]
  simp [← word]

structure SupIds (env : Str → Option Str) (ids : List Str) : Prop where
  listed : ∀ id ∈ ids, id ∈ supListed env
  number : ∀ id ∈ ids, isNumber id = true
  nodup : ids.Nodup

theorem supIds (tools : Tools) {env : Str → Option Str} (h : NumericIds env) :
    SupIds env (supGroupIds tools env (valueOf env "GROUP_ID")) := by
  rw [supGroupIds_eq tools h]
  have numbers := isNumber_of_mem_supListed h
  have listed := tools.sort.mem numbers
  refine ⟨listed, fun id hid => numbers id (listed id hid), ?_⟩
  exact (tools.sort.ordered numbers).imp fun {a b} below (same : a = b) =>
    Nat.lt_irrefl _ (same ▸ below)

theorem Word.readLine {s : Str} (h : Word s) : readLine s = s := by
  have unblank : ∀ c ∈ s, isBlank c = false := by
    intro c hc
    by_contra blank
    have listed : c = ' ' ∨ c = '\t' := by
      simpa only [isBlank, Bool.not_eq_false, Bool.or_eq_true, beq_iff_eq] using blank
    obtain rfl | rfl := listed
    · exact h.not_mem (by decide) hc
    · exact h.not_mem (by decide) hc
  obtain ⟨c, s', rfl⟩ := List.exists_cons_of_ne_nil h.1
  rw [Accounts.readLine, List.dropWhile_cons_of_neg (by simp [unblank c])]
  exact List.rdropWhile_eq_self_iff.mpr fun nonempty => by
    simp [unblank _ (List.getLast_mem nonempty)]

theorem Word.commandSubstitution {s : Str} (h : Word s) : Startup.commandSubstitution s = s := by
  refine List.rdropWhile_eq_self_iff.mpr fun nonempty => ?_
  have last := List.getLast_mem nonempty
  have other : s.getLast nonempty ≠ '\n' := fun same => h.no_newline (same ▸ last)
  simpa using other

/-- The loop over the supplementary groups, for a number. -/
theorem addSupGroup_eq_some {tools : Tools} {db db' : Databases} {entries : List Entry} {id : Str}
    (h : Represents db entries) (number : isNumber id = true)
    (hadd : addSupGroup tools db id = some db') :
    (∃ e ∈ entries, e.gid = id ∧ addUserToGroup app e.name db = some db') ∨
      ((∀ e ∈ entries, e.gid ≠ id) ∧ ∃ middle,
        addGroup tools.echo true ("grp".toList ++ id) id db = some middle ∧
          addUserToGroup app ("grp".toList ++ id) middle = some db') := by
  have word := word_of_isNumber number
  unfold addSupGroup at hadd
  dsimp only at hadd
  rw [word.readLine, number] at hadd
  simp only [Bool.not_true, Bool.false_eq_true, if_false] at hadd
  split at hadd
  · next missing =>
      refine .inr ⟨fun e he same => ?_, Option.bind_eq_some_iff.mp hadd⟩
      have found := (h.groupIdExists_iff word).mpr ⟨e, he, same⟩
      simp [found] at missing
  · next found =>
      have known := (h.groupIdExists_iff word).mp (by simpa using found)
      obtain ⟨e, he, same, named⟩ := h.getGroupName word known
      rw [named, (h.valid e he).nameWord.commandSubstitution] at hadd
      exact .inl ⟨e, he, same, hadd⟩

theorem isAccountName_grp {id : Str} (h : isNumber id = true) :
    isAccountName ("grp".toList ++ id) = true := by
  have word := word_of_isNumber h
  show (isNameStart 'g' && (['r', 'p'] ++ id).all isNameChar) = true
  rw [List.all_append, List.all_eq_true.mpr word.2]
  decide

theorem Tracks.supGroups {tools : Tools} {db db' : Databases} {entries : List Entry}
    {groups users : List Account} (h : Tracks db entries groups users) {ids : List Str}
    (number : ∀ id ∈ ids, isNumber id = true) (nodup : ids.Nodup)
    (hrun : ids.foldlM (addSupGroup tools) db = some db') :
    ∃ entries', Tracks db' entries'
      (groups ++ (ids.filter fun id => id ∉ groups.map Account.id).map supAccount) users := by
  induction ids generalizing db entries groups with
  | nil =>
      obtain rfl := Option.some.inj hrun
      exact ⟨entries, by simpa using h⟩
  | cons id ids ih =>
      obtain ⟨middle, hfirst, hrest⟩ := Option.bind_eq_some_iff.mp hrun
      obtain ⟨hid, numbers⟩ := List.forall_mem_cons.mp number
      obtain ⟨absent, hnodup⟩ := List.nodup_cons.mp nodup
      obtain ⟨e, he, same, hjoin⟩ | ⟨missing, added, hadd, hjoin⟩ :=
        addSupGroup_eq_some h.represents hid hfirst
      · have joined := h.addUserToGroup word_app (h.represents.valid e he).nameWord hjoin
        obtain ⟨g, hg, -, hgid⟩ := h.exists_group he
        have known : id ∈ groups.map Account.id := List.mem_map.mpr ⟨g, hg, hgid.trans same⟩
        rw [List.filter_cons_of_neg (by simpa using known)]
        exact ih joined numbers hnodup hrest
      · have name := isAccountName_grp hid
        have created := h.addGroup (a := supAccount id) name hid hadd
        have joined := created.addUserToGroup word_app (word_of_isAccountName name) hjoin
        have unknown : id ∉ groups.map Account.id := by
          intro known
          obtain ⟨g, hg, hgid⟩ := List.mem_map.mp known
          obtain ⟨e, he, -, same⟩ := h.exists_entry hg
          exact missing e he (same.trans hgid)
        have others : ids.filter (fun k => k ∉ (groups ++ [supAccount id]).map Account.id) =
            ids.filter fun k => k ∉ groups.map Account.id := by
          refine List.filter_congr fun k hk => ?_
          have different : k ≠ id := fun same => absent (same ▸ hk)
          simp [supAccount, different]
        obtain ⟨entries', tracked⟩ := ih joined numbers hnodup hrest
        rw [others, List.append_assoc] at tracked
        rw [List.filter_cons_of_pos (by simpa using unknown), List.map_cons]
        exact ⟨entries', tracked⟩

/-! ## The whole script -/

/-- The entries of the defined groups, with the users that are members of them. -/
def definedEntries (defs : Definitions) : List Entry :=
  defs.enabledUsers.foldl joinGroups (defs.enabledGroups.map fun g => ⟨g.name, g.id, []⟩)

/-- The entries before the supplementary groups are handled. -/
def namedEntries (defs : Definitions) (env : Str → Option Str) : List Entry :=
  joinGroup app app (definedEntries defs ++ [⟨app, valueOf env "GROUP_ID", []⟩])

theorem isAccountName_app : isAccountName app = true := by decide

theorem orDefault_orDefault {default : Str} (h : default ≠ []) (value other : Str) :
    orDefault (orDefault value default) other = orDefault value default := by
  have nonempty : orDefault value default ≠ [] := by
    unfold orDefault
    split
    · exact h
    · assumption
  exact if_neg nonempty

theorem tracks_empty (gshadow : Option (List Str)) : Tracks { gshadow := gshadow } [] [] [] where
  represents := ⟨rfl, fun _ he => nomatch he⟩
  groups_eq := rfl
  users_eq := rfl
  groups_checked := List.Pairwise.nil
  users_checked := List.Pairwise.nil
  primary _ ha := nomatch ha

section Completed

variable {tools : Tools} {linked : Bool} {defs : Definitions} {env : Str → Option Str}
  {db : Databases}

/-- A successful run comes to the loop over the supplementary groups. -/
theorem initUsers_named (named : defs.Named) (numeric : NumericIds env)
    (hrun : initUsers tools linked defs env = some db) :
    ∃ middle, Tracks middle (namedEntries defs env) (namedGroups defs env)
      (userAccounts tools defs env) ∧
      (supGroupIds tools env (valueOf env "GROUP_ID")).foldlM (addSupGroup tools) middle =
        some db := by
  obtain ⟨db₁, hgroups, afterGroups⟩ := Option.bind_eq_some_iff.mp hrun
  obtain ⟨db₂, husers, afterUsers⟩ := Option.bind_eq_some_iff.mp afterGroups
  obtain ⟨groupId, hgroupId, withGroupId⟩ := Option.bind_eq_some_iff.mp afterUsers
  obtain ⟨db₃, hgroup, afterGroup⟩ := Option.bind_eq_some_iff.mp withGroupId
  obtain ⟨userId, huserId, withUserId⟩ := Option.bind_eq_some_iff.mp afterGroup
  obtain ⟨db₄, huser, afterUser⟩ := Option.bind_eq_some_iff.mp withUserId
  obtain ⟨db₅, hjoin, hsup⟩ := Option.bind_eq_some_iff.mp afterUser
  obtain rfl : valueOf env "GROUP_ID" = groupId := by rw [valueOf, hgroupId, Option.getD_some]
  obtain rfl : valueOf env "USER_ID" = userId := by rw [valueOf, huserId, Option.getD_some]
  have groups := (tracks_empty _).definedGroups named.group hgroups
  have users := groups.definedUsers (fun u hu => ⟨named.user u hu, named.userGroups u hu⟩) husers
  have group := users.addGroup
    (a := { name := app, id := valueOf env "GROUP_ID", origin := .app })
    isAccountName_app numeric.group hgroup
  have user := group.addUser (o := .app) isAccountName_app numeric.user numeric.group huser
  rw [orDefault_orDefault (by decide)] at user
  have joined := user.addUserToGroup word_app word_app hjoin
  exact ⟨db₅, joined, hsup⟩

/-- What a successful run leaves. -/
theorem initUsers_completed (named : defs.Named) (numeric : NumericIds env)
    (hrun : initUsers tools linked defs env = some db) :
    ∃ entries, Tracks db entries (groupAccounts tools defs env) (userAccounts tools defs env) := by
  obtain ⟨middle, tracked, hsup⟩ := initUsers_named named numeric hrun
  have ids := supIds tools numeric
  exact tracked.supGroups ids.number ids.nodup hsup

end Completed

end Baseimage.Accounts
