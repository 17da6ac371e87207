import Baseimage.Accounts.Run

/-!
# The groups of app

A name that is put into a line of `/etc/group` is a member of the group, unless it is put behind the
last member without a comma. That happens where a group has the name of another one and that one has
no members: the definitions may have a group called `app` too.
-/

namespace Baseimage.Accounts

open Filters

/-! ## Lists of entries -/

theorem mem_glueMember_iff {uname : Str} {ms : List Str} (words : ∀ m ∈ ms, m ≠ []) :
    uname ∈ glueMember uname ms ↔ ms = [] ∨ uname ∈ ms.dropLast := by
  fun_induction glueMember uname ms with
  | case1 => simp
  | case2 m =>
      have nonempty := words m List.mem_cons_self
      have glued : uname ≠ m ++ uname := fun same => nonempty (List.self_eq_append_left.mp same)
      simp [glued]
  | case3 m n ms ih =>
      have rest := ih fun k hk => words k (List.mem_cons_of_mem m hk)
      simp only [List.mem_cons, rest, List.dropLast_cons_cons, reduceCtorEq, false_or]

/-- Entries with one name have no members together. -/
def AlikeMemberless (entries : List Entry) (name : Str) : Prop :=
  ∀ a ∈ entries, ∀ b ∈ entries, a.name = name → b.name = name → a.members = [] → b.members = []

/-- An entry with one more member, if it has the name. -/
def Entry.joined (uname gname : Str) (e : Entry) : Entry :=
  if e.name = gname then e.withMembers (e.members ++ [uname]) else e

@[simp] theorem Entry.joined_name (uname gname : Str) (e : Entry) :
    (e.joined uname gname).name = e.name := by
  unfold Entry.joined
  split <;> rfl

@[simp] theorem Entry.joined_gid (uname gname : Str) (e : Entry) :
    (e.joined uname gname).gid = e.gid := by
  unfold Entry.joined
  split <;> rfl

theorem Entry.joined_members (uname gname : Str) (e : Entry) :
    (e.joined uname gname).members = if e.name = gname then e.members ++ [uname]
      else e.members := by
  unfold Entry.joined
  split <;> rfl

theorem joinGroup_eq_map {uname gname : Str} {entries : List Entry}
    (alike : AlikeMemberless entries gname) :
    joinGroup uname gname entries = entries.map (Entry.joined uname gname) := by
  unfold joinGroup
  split
  · next memberless =>
      obtain ⟨a, ha, hname, empty⟩ := memberless
      refine List.map_congr_left fun e he => ?_
      unfold Entry.joined
      split
      · next same =>
          have none : e.members = [] := alike a ha e he hname same empty
          rw [none]
          rfl
      · rfl
  · rfl

/-! ## The definitions -/

/-- The names of the entries differ. -/
def DistinctNames (entries : List Entry) : Prop := entries.Pairwise fun a b => a.name ≠ b.name

/-- Two members of a list are the same one, or related as they come. -/
theorem eq_or_related {α : Type} {R : α → α → Prop} {l : List α} (h : l.Pairwise R) {a b : α}
    (ha : a ∈ l) (hb : b ∈ l) : a = b ∨ R a b ∨ R b a := by
  let E : α → α → Prop := fun a b => a = b ∨ R a b ∨ R b a
  have forwards : l.Pairwise E := h.imp fun related => .inr (.inl related)
  have backwards : l.Pairwise (flip E) := h.imp fun related => .inr (.inr related)
  exact List.Pairwise.forall_of_forall_of_flip (fun _ _ => .inl rfl) forwards backwards ha hb

theorem DistinctNames.alike {entries : List Entry} (h : DistinctNames entries) (name : Str) :
    AlikeMemberless entries name := by
  intro a ha b hb hname hname' empty
  obtain rfl | different | different := eq_or_related h ha hb
  · exact empty
  · exact absurd (hname.trans hname'.symm) different
  · exact absurd (hname'.trans hname.symm) different

/-- The user joins all groups of the list. -/
def Entry.joinedAll (uname : Str) (grps : List Str) (e : Entry) : Entry :=
  e.withMembers (e.members ++ (grps.filter (· = e.name)).map fun _ => uname)

theorem foldl_joinGroup {uname : Str} {grps : List Str} {entries : List Entry}
    (h : DistinctNames entries) :
    grps.foldl (fun entries grp => joinGroup uname grp entries) entries =
      entries.map (Entry.joinedAll uname grps) := by
  induction grps generalizing entries with
  | nil =>
      have same : ∀ e : Entry, e.joinedAll uname [] = e := by
        simp [Entry.joinedAll, Entry.withMembers]
      exact (List.map_id'' same entries).symm
  | cons grp grps ih =>
      have kept : DistinctNames (entries.map (Entry.joined uname grp)) :=
        List.pairwise_map.mpr (h.imp fun different => by simpa using different)
      rw [List.foldl_cons, joinGroup_eq_map (h.alike grp), ih kept, List.map_map]
      refine List.map_congr_left fun e _ => ?_
      by_cases same : e.name = grp
      · have here : grp = e.name := same.symm
        simp [Entry.joinedAll, Entry.joined, Entry.withMembers, here]
      · have other : grp ≠ e.name := fun h => same h.symm
        simp [Entry.joinedAll, Entry.joined, Entry.withMembers, same, other]

/-- The users that list a group, in the order they are made members of it. -/
def listers (users : List User) (grp : Str) : List Str :=
  users.flatMap fun u => (u.groups.filter (· = grp)).map fun _ => u.name

theorem foldl_joinGroups {users : List User} {entries : List Entry} (h : DistinctNames entries) :
    users.foldl joinGroups entries =
      entries.map fun e => e.withMembers (e.members ++ listers users e.name) := by
  induction users generalizing entries with
  | nil => simp [listers, Entry.withMembers]
  | cons u users ih =>
      have kept : DistinctNames (entries.map (Entry.joinedAll u.name u.groups)) :=
        List.pairwise_map.mpr h
      rw [List.foldl_cons, joinGroups, foldl_joinGroup h, ih kept, List.map_map]
      refine List.map_congr_left fun e _ => ?_
      simp [Entry.joinedAll, Entry.withMembers, listers]

theorem definedEntries_eq {defs : Definitions}
    (h : defs.enabledGroups.Pairwise fun a b => a.name ≠ b.name) :
    definedEntries defs =
      defs.enabledGroups.map fun g => ⟨g.name, g.id, listers defs.enabledUsers g.name⟩ := by
  have distinct : DistinctNames (defs.enabledGroups.map fun g => ⟨g.name, g.id, []⟩) :=
    List.pairwise_map.mpr h
  rw [definedEntries, foldl_joinGroups distinct, List.map_map]
  rfl

/-- The definitions make `app` a member of a group. The line of a group that is called `app` is
changed with the one for the container, which has no members before. -/
def Definitions.GivesApp (defs : Definitions) (g : Group) : Prop :=
  if g.name = app then
    listers defs.enabledUsers app = [] ∨ app ∈ (listers defs.enabledUsers app).dropLast
  else app ∈ listers defs.enabledUsers g.name

/-- `app` is a member of a group with this number. -/
def AppIn (entries : List Entry) (v : Nat) : Prop :=
  ∃ e ∈ entries, app ∈ e.members ∧ number e.gid = v

section

variable {defs : Definitions} {env : Str → Option Str}

theorem namedEntries_eq (h : defs.enabledGroups.Pairwise fun a b => a.name ≠ b.name) :
    namedEntries defs env =
      defs.enabledGroups.map (fun g => ⟨g.name, g.id,
        if g.name = app then glueMember app (listers defs.enabledUsers app)
        else listers defs.enabledUsers g.name⟩) ++ [⟨app, valueOf env "GROUP_ID", [app]⟩] := by
  have memberless : ∃ e ∈ definedEntries defs ++ [⟨app, valueOf env "GROUP_ID", []⟩],
      e.name = app ∧ e.members = [] := ⟨_, List.mem_concat_self, rfl, rfl⟩
  rw [namedEntries, joinGroup, if_pos memberless, List.map_append, definedEntries_eq h,
    List.map_map]
  congr 1
  refine List.map_congr_left fun g _ => ?_
  rw [Function.comp_apply]
  by_cases same : g.name = app
  · rw [if_pos same, if_pos same, Entry.withMembers, same]
  · rw [if_neg same, if_neg same]

theorem listers_nonempty (named : defs.Named) {grp m : Str}
    (h : m ∈ listers defs.enabledUsers grp) :
    m ≠ [] := by
  obtain ⟨u, hu, h⟩ := List.mem_flatMap.mp h
  obtain ⟨_, -, rfl⟩ := List.mem_map.mp h
  exact (word_of_isAccountName (named.user u hu)).1

theorem appIn_namedEntries_iff (named : defs.Named)
    (h : defs.enabledGroups.Pairwise fun a b => a.name ≠ b.name) (v : Nat) :
    AppIn (namedEntries defs env) v ↔
      number (valueOf env "GROUP_ID") = v ∨
        ∃ g ∈ defs.enabledGroups, defs.GivesApp g ∧ number g.id = v := by
  have given : ∀ g : Group,
    app ∈ (if g.name = app then glueMember app (listers defs.enabledUsers app)
      else listers defs.enabledUsers g.name) ↔ defs.GivesApp g := by
    intro g
    unfold Definitions.GivesApp
    split
    · exact mem_glueMember_iff fun m => listers_nonempty named
    · exact Iff.rfl
  rw [AppIn, namedEntries_eq h]
  constructor
  · rintro ⟨e, he, member, hv⟩
    obtain he | he := List.mem_append.mp he
    · obtain ⟨g, hg, rfl⟩ := List.mem_map.mp he
      exact .inr ⟨g, hg, (given g).mp member, hv⟩
    · obtain rfl := List.mem_singleton.mp he
      exact .inl hv
  · rintro (hv | ⟨g, hg, gives, hv⟩)
    · exact ⟨_, List.mem_concat_self, List.mem_singleton_self app, hv⟩
    · exact ⟨_, List.mem_append_left _ (List.mem_map_of_mem hg), (given g).mpr gives, hv⟩

/-! ## The supplementary groups -/

/-- Groups of one name both have members, and the later one is the group of `app`. -/
def Apart (groupId : Str) (entries : List Entry) : Prop :=
  entries.Pairwise fun a b =>
    a.name = b.name → a.members ≠ [] ∧ b.gid = groupId ∧ app ∈ b.members

theorem Apart.alike {groupId : Str} {entries : List Entry} (h : Apart groupId entries)
    (name : Str) :
    AlikeMemberless entries name := by
  intro a ha b hb hname hname' empty
  obtain rfl | below | above := eq_or_related h ha hb
  · exact empty
  · exact absurd empty (below (hname.trans hname'.symm)).1
  · have member := (above (hname'.trans hname.symm)).2.2
    rw [empty] at member
    cases member

theorem Apart.join {groupId : Str} {entries : List Entry} (h : Apart groupId entries)
    (gname : Str) :
    Apart groupId (joinGroup app gname entries) := by
  have kept : ∀ e : Entry, ∀ m ∈ e.members, m ∈ (e.joined app gname).members := by
    intro e m hm
    rw [Entry.joined_members]
    split
    · exact List.mem_append_left _ hm
    · exact hm
  rw [joinGroup_eq_map (h.alike gname)]
  refine List.pairwise_map.mpr (h.imp fun {a b} related same => ?_)
  rw [Entry.joined_name, Entry.joined_name] at same
  obtain ⟨some_member, hgid, member⟩ := related same
  obtain ⟨m, ms, hm⟩ := List.exists_cons_of_ne_nil some_member
  refine ⟨List.ne_nil_of_mem (kept a m (by rw [hm]; exact List.mem_cons_self)), ?_,
    kept b app member⟩
  rw [Entry.joined_gid]
  exact hgid

theorem apart_namedEntries (h : defs.enabledGroups.Pairwise fun a b => a.name ≠ b.name) :
    Apart (valueOf env "GROUP_ID") (namedEntries defs env) := by
  rw [namedEntries_eq h]
  refine pairwise_concat
    (List.pairwise_map.mpr (h.imp fun different same => absurd same different)) ?_
  intro e he same
  obtain ⟨g, -, rfl⟩ := List.mem_map.mp he
  refine ⟨?_, rfl, List.mem_singleton_self app⟩
  have called : g.name = app := same
  rw [if_pos called]
  exact glueMember_ne_nil app _

/-- `app` joins a group that is there: it is found by its id. -/
theorem appIn_join {groupId : Str} {entries : List Entry} (h : Apart groupId entries) {e : Entry}
    (he : e ∈ entries) (other : e.gid ≠ groupId) (v : Nat) :
    AppIn (joinGroup app e.name entries) v ↔ AppIn entries v ∨ number e.gid = v := by
  rw [joinGroup_eq_map (h.alike e.name)]
  constructor
  · rintro ⟨_, hmapped, member, rfl⟩
    obtain ⟨k, hk, rfl⟩ := List.mem_map.mp hmapped
    rw [Entry.joined_gid]
    rw [Entry.joined_members] at member
    split at member
    · next same =>
        obtain rfl | below | above := eq_or_related h hk he
        · exact .inr rfl
        · exact absurd (below same).2.1 other
        · exact .inl ⟨k, hk, (above same.symm).2.2, rfl⟩
    · exact .inl ⟨k, hk, member, rfl⟩
  · rintro (⟨k, hk, member, rfl⟩ | rfl)
    · refine ⟨_, List.mem_map_of_mem hk, ?_, by rw [Entry.joined_gid]⟩
      rw [Entry.joined_members]
      split
      · exact List.mem_append_left _ member
      · exact member
    · refine ⟨_, List.mem_map_of_mem he, ?_, by rw [Entry.joined_gid]⟩
      rw [Entry.joined_members, if_pos rfl]
      exact List.mem_concat_self

/-- A group that is made for `app` has a name of its own. -/
theorem Apart.make {groupId : Str} {entries : List Entry} (h : Apart groupId entries) {name : Str}
    (gid : Str) (fresh : ∀ e ∈ entries, e.name ≠ name) :
    joinGroup app name (entries ++ [⟨name, gid, []⟩]) = entries ++ [⟨name, gid, [app]⟩] ∧
      Apart groupId (entries ++ [⟨name, gid, [app]⟩]) := by
  have alike : AlikeMemberless (entries ++ [⟨name, gid, []⟩]) name := by
    intro a ha b hb _ hname _
    obtain hb | hb := List.mem_append.mp hb
    · exact absurd hname (fresh b hb)
    · exact List.mem_singleton.mp hb ▸ rfl
  refine ⟨?_, pairwise_concat h fun e he same => absurd same (fresh e he)⟩
  rw [joinGroup_eq_map alike, List.map_append]
  congr 1
  · refine (List.map_congr_left fun e he => ?_).trans (List.map_id entries)
    exact if_neg (fresh e he)
  · rw [List.map_singleton, Entry.joined, if_pos rfl]
    rfl

/-- After the loop `app` is a member of the groups it was a member of before and of the groups that
were listed. -/
theorem appIn_supGroups {tools : Tools} {db db' : Databases} {groupId : Str} {entries : List Entry}
    (h : Represents db entries) (apart : Apart groupId entries) {ids : List Str}
    (number_ids : ∀ id ∈ ids, isNumber id = true ∧ id ≠ groupId)
    (hrun : ids.foldlM (addSupGroup tools) db = some db') :
    ∃ entries', Represents db' entries' ∧
      ∀ v, AppIn entries' v ↔ AppIn entries v ∨ ∃ id ∈ ids, number id = v := by
  induction ids generalizing db entries with
  | nil =>
      obtain rfl := Option.some.inj hrun
      exact ⟨entries, h, by simp⟩
  | cons id ids ih =>
      obtain ⟨middle, hfirst, hrest⟩ := Option.bind_eq_some_iff.mp hrun
      obtain ⟨⟨hid, other⟩, numbers⟩ := List.forall_mem_cons.mp number_ids
      have step : ∃ between, Represents middle between ∧ Apart groupId between ∧
          ∀ v, AppIn between v ↔ AppIn entries v ∨ number id = v := by
        obtain ⟨e, he, rfl, hjoin⟩ | ⟨missing, added, hadd, hjoin⟩ :=
          addSupGroup_eq_some h hid hfirst
        · obtain ⟨represents, -⟩ :=
            addUserToGroup_spec h word_app (h.valid e he).nameWord hjoin
          exact ⟨_, represents, apart.join e.name, appIn_join apart he other⟩
        · have name := isAccountName_grp hid
          obtain ⟨created, -, fresh⟩ := addGroup_spec h name hid hadd
          obtain ⟨represents, -⟩ :=
            addUserToGroup_spec created word_app (word_of_isAccountName name) hjoin
          obtain ⟨made, apart_made⟩ := apart.make id fun e he => (fresh rfl e he).1
          rw [made] at represents
          refine ⟨_, represents, apart_made, fun v => ?_⟩
          simp [AppIn, or_and_right, exists_or]
      obtain ⟨between, represents, apart_between, appIn⟩ := step
      obtain ⟨entries', final, appIn'⟩ := ih represents apart_between numbers hrest
      refine ⟨entries', final, fun v => ?_⟩
      rw [appIn', appIn]
      simp [or_assoc]

end

end Baseimage.Accounts
