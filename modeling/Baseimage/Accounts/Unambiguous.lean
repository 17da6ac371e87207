import Baseimage.Accounts.Run

/-!
# Unambiguous accounts

The script refuses an account whose name or id is spelled like that of an account before it. Ids
that are spelled differently may be equal as integers, and the accounts of `app` and the lines in a
home directory are not compared at all.
-/

namespace Baseimage.Accounts

open Filters

/-- The names in a database differ, and so do the ids as integers, apart from that of `app`. -/
structure Unambiguous (lines : List Str) : Prop where
  names : (lines.map (cut ':' 1)).Nodup
  ids : lines.Pairwise fun a b =>
    cut ':' 1 a ≠ app → cut ':' 1 b ≠ app → ¬ SameNumber (cut ':' 3 a) (cut ':' 3 b)

/-- Both databases are unambiguous, and every primary group is a group. -/
structure UnambiguousAccounts (db : Databases) : Prop where
  passwd : Unambiguous db.passwd
  group : Unambiguous db.group
  primary : ∀ line ∈ db.passwd, ∃ g ∈ db.group, SameNumber (cut ':' 4 line) (cut ':' 3 g)

/-- Two accounts that are not mistaken for each other. -/
def Clear (a b : Account) : Prop :=
  a.name ≠ b.name ∧ (a.name ≠ app → b.name ≠ app → ¬ SameNumber a.id b.id)

/-- What the script does not find out about an account and one before it. -/
def Told (a b : Account) : Prop :=
  match b.origin with
  | .checked => a.name ≠ app → b.name ≠ app → SameNumber a.id b.id → a.id = b.id
  | .app => a.name ≠ app
  | .home => Clear a b

/-- Before the account of `app` no account has its name, ids that are equal as integers are spelled
alike, and each line in a home directory has a name, an id and a group that are in order. -/
structure Distinguishable (tools : Tools) (defs : Definitions) (env : Str → Option Str) : Prop where
  groups : (groupAccounts tools defs env).Pairwise Told
  users : (userAccounts tools defs env).Pairwise Told
  homes : ∀ a ∈ userAccounts tools defs env, a.origin = .home →
    ∃ g ∈ groupAccounts tools defs env, SameNumber a.gid g.id

theorem unambiguous_iff {lines : List Str} {accounts : List Account}
    (h : lines.map (fun line => (cut ':' 1 line, cut ':' 3 line)) =
      accounts.map fun a => (a.name, a.id)) : Unambiguous lines ↔ accounts.Pairwise Clear := by
  let Apart : Str × Str → Str × Str → Prop := fun a b =>
    a.1 ≠ b.1 ∧ (a.1 ≠ app → b.1 ≠ app → ¬ SameNumber a.2 b.2)
  have accountwise : accounts.Pairwise Clear ↔
      (accounts.map fun a => (a.name, a.id)).Pairwise Apart := by
    rw [List.pairwise_map]
    rfl
  rw [accountwise, ← h, List.pairwise_map, List.pairwise_and_iff]
  constructor
  · intro unambiguous
    exact ⟨List.pairwise_map.mp unambiguous.names, unambiguous.ids⟩
  · rintro ⟨names, ids⟩
    exact ⟨List.pairwise_map.mpr names, ids⟩

/-- The accounts that the script puts under the name of `app`. -/
def AppNamed (a : Account) : Prop := a.origin = .app → a.name = app

theorem clear_iff_told {a b : Account} (named : AppNamed b) (checked : Checked a b) :
    Clear a b ↔ Told a b := by
  unfold Clear Told
  cases horigin : b.origin with
  | checked =>
      obtain ⟨names, ids⟩ := checked horigin
      constructor
      · rintro ⟨-, different⟩ ha hb same
        exact absurd same (different ha hb)
      · intro told
        exact ⟨names, fun ha hb same => ids (told ha hb same)⟩
  | app =>
      have hb := named horigin
      constructor
      · rintro ⟨names, -⟩
        exact hb ▸ names
      · intro other
        exact ⟨hb ▸ other, fun _ notApp => absurd hb notApp⟩
  | home => exact Iff.rfl

theorem pairwise_clear_iff {accounts : List Account} (named : ∀ a ∈ accounts, AppNamed a)
    (checked : accounts.Pairwise Checked) :
    accounts.Pairwise Clear ↔ accounts.Pairwise Told := by
  have exactly : accounts.Pairwise fun a b => Clear a b ↔ Told a b :=
    checked.imp_of_mem fun _ hb h => clear_iff_told (named _ hb) h
  constructor
  · intro clear
    exact exactly.imp₂ (fun _ _ same h => same.mp h) clear
  · intro told
    exact exactly.imp₂ (fun _ _ same h => same.mpr h) told

section

variable {tools : Tools} {linked : Bool} {defs : Definitions} {env : Str → Option Str}
  {db : Databases}

theorem appNamed_groupAccounts : ∀ a ∈ groupAccounts tools defs env, AppNamed a := by
  intro a ha origin
  obtain ha | ha := List.mem_append.mp ha
  · obtain ha | ha := List.mem_append.mp ha
    · obtain ⟨g, -, rfl⟩ := List.mem_map.mp ha
      cases origin
    · obtain rfl := List.mem_singleton.mp ha
      rfl
  · obtain ⟨gid, -, rfl⟩ := List.mem_map.mp ha
    cases origin

theorem appNamed_printedAccounts {lines : List Str} {o : Origin} {a : Account}
    (ha : a ∈ printedAccounts o lines)
      (first : o = .app → ∀ line ∈ lines.head?, cut ':' 1 line = app) :
    AppNamed a := by
  intro origin
  cases lines with
  | nil => cases ha
  | cons line rest =>
      obtain rfl | ha := List.mem_cons.mp ha
      · exact first origin line rfl
      · obtain ⟨line, -, rfl⟩ := List.mem_map.mp ha
        cases origin

theorem appNamed_userAccounts (numeric : NumericIds env) :
    ∀ a ∈ userAccounts tools defs env, AppNamed a := by
  intro a ha
  obtain ha | ha := List.mem_append.mp ha
  · obtain ⟨u, -, ha⟩ := List.mem_flatMap.mp ha
    exact appNamed_printedAccounts ha fun h => nomatch h
  · refine appNamed_printedAccounts ha fun _ line hline => ?_
    obtain ⟨first, rest, printed, fields⟩ :=
      print_passwdLine tools.echo isAccountName_app numeric.user numeric.group
        (orDefault (valueOf env "HOME") "/config".toList)
    rw [printed] at hline
    obtain rfl := Option.some.inj hline
    exact congrArg Prod.fst fields

/-- The databases of a successful run are unambiguous exactly if what is not compared with the
accounts before it can be told from them. -/
theorem unambiguousAccounts_iff (named : defs.Named) (numeric : NumericIds env)
    (hrun : initUsers tools linked defs env = some db) :
    UnambiguousAccounts db ↔ Distinguishable tools defs env := by
  obtain ⟨entries, tracked⟩ := initUsers_completed named numeric hrun
  have group_lines : db.group.map (fun line => (cut ':' 1 line, cut ':' 3 line)) =
      (groupAccounts tools defs env).map fun a => (a.name, a.id) := by
    rw [tracked.represents.lines, List.map_map, ← tracked.groups_eq]
    refine List.map_congr_left fun e he => ?_
    have valid := tracked.represents.valid e he
    rw [Function.comp_apply, valid.cut_name, valid.cut_id]
  have passwd_lines : db.passwd.map (fun line => (cut ':' 1 line, cut ':' 3 line)) =
      (userAccounts tools defs env).map fun a => (a.name, a.id) := by
    have names := congrArg (List.map fun f : Str × Str × Str => (f.1, f.2.1)) tracked.users_eq
    rwa [List.map_map, List.map_map] at names
  have groups : Unambiguous db.group ↔ (groupAccounts tools defs env).Pairwise Told :=
    (unambiguous_iff group_lines).trans
      (pairwise_clear_iff appNamed_groupAccounts tracked.groups_checked)
  have users : Unambiguous db.passwd ↔ (userAccounts tools defs env).Pairwise Told :=
    (unambiguous_iff passwd_lines).trans
      (pairwise_clear_iff (appNamed_userAccounts numeric) tracked.users_checked)
  have primary : (∀ line ∈ db.passwd, ∃ g ∈ db.group, SameNumber (cut ':' 4 line) (cut ':' 3 g)) ↔
      ∀ a ∈ userAccounts tools defs env, a.origin = .home →
        ∃ g ∈ groupAccounts tools defs env, SameNumber a.gid g.id := by
    simp only [tracked.exists_groupLine_iff]
    constructor
    · intro known a ha _
      obtain ⟨line, hline, fields⟩ := tracked.exists_line ha
      have gid : cut ':' 4 line = a.gid := congrArg (fun f => f.2.2) fields
      exact gid ▸ known line hline
    · intro homes line hline
      obtain ⟨a, ha, fields⟩ := tracked.exists_user hline
      have gid : a.gid = cut ':' 4 line := congrArg (fun f => f.2.2) fields
      rw [← gid]
      by_cases home : a.origin = .home
      · exact homes a ha home
      · obtain ⟨number, g, hg, same⟩ := tracked.primary a ha home
        rw [← same] at number ⊢
        exact ⟨g, hg, SameNumber.refl number⟩
  constructor
  · intro unambiguous
    exact ⟨groups.mp unambiguous.group, users.mp unambiguous.passwd, primary.mp unambiguous.primary⟩
  · intro told
    exact ⟨users.mpr told.users, groups.mpr told.groups, primary.mpr told.homes⟩

end

def exampleTools : Tools where
  echo := .literal
  sort := .first
  mkpasswd := some

/-- The variables that the image sets. -/
def exampleEnv (name : Str) : Option Str :=
  if name = "USER_ID".toList ∨ name = "GROUP_ID".toList then some "1000".toList else none

def groupDir (name id : String) : GroupDir where
  basename := name.toList
  id := .regular id.toList

/-- Two groups with the given ids. -/
def twoGroups (id id' : String) : Definitions where
  groups := [groupDir "video" id, groupDir "render" id']
  users := []

theorem twoGroups_named (id id' : String) : (twoGroups id id').Named where
  group := by
    have enabled : (twoGroups id id').enabledGroups =
        [⟨"video".toList, _⟩, ⟨"render".toList, _⟩] := rfl
    simp only [enabled, List.forall_mem_cons]
    exact ⟨by decide, by decide, fun _ h => nomatch h⟩
  user _ h := nomatch h
  userGroups _ h := nomatch h

theorem exampleEnv_numeric : NumericIds exampleEnv :=
  ⟨by decide, by decide, by decide, by decide⟩

theorem unambiguousAccounts_iff_twoGroups :
    ∃ db, initUsers exampleTools false (twoGroups "44" "109") exampleEnv = some db ∧
      (UnambiguousAccounts db ↔ Distinguishable exampleTools (twoGroups "44" "109") exampleEnv) :=
  ⟨_, rfl, unambiguousAccounts_iff (twoGroups_named _ _) exampleEnv_numeric rfl⟩

/-- Ids are compared as they are spelled. -/
theorem ambiguous_twoGroups :
    ¬ ∀ (tools : Tools) (linked : Bool) (defs : Definitions) (env : Str → Option Str)
      (db : Databases), defs.Named → NumericIds env → initUsers tools linked defs env = some db →
      UnambiguousAccounts db := by
  intro claim
  obtain ⟨db, hrun, hgroup⟩ : ∃ db,
      initUsers exampleTools false (twoGroups "44" "044") exampleEnv = some db ∧
        db.group = ["video:x:44:".toList, "render:x:044:".toList, "app:x:1000:app".toList] :=
    ⟨_, rfl, by decide⟩
  have unambiguous := claim exampleTools false (twoGroups "44" "044") exampleEnv db
    (twoGroups_named _ _) exampleEnv_numeric hrun
  have ids := unambiguous.group.ids
  rw [hgroup] at ids
  exact absurd ids (by decide)

end Baseimage.Accounts
