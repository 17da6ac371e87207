import Baseimage.Gpasswd.Recorded
import Baseimage.Run.Actions

/-!
# Invocations of gpasswd one after the other

On the members of a group an invocation acts as on a set, and on its administrators. The two files
are updated each on its own, and the line of the group in `/etc/gshadow` may be made from the
members in `/etc/group`, with the request already done there. A request that is done again changes
nothing, so the two files go on agreeing. Everything else stays as it is and in its order.
-/

namespace Baseimage.Gpasswd

/-- An invocation, with what its environment does. -/
structure Issued where
  env : Environment
  options : Options

/-- The files after an invocation, if it succeeds. -/
def perform (core : ShadowCore) (files : Files) (i : Issued) : Option Files :=
  let exit := uumain core i.env (.options i.options) files
  if exit.code = 0 then some exit.files else none

/-! ## Sets -/

/-- The users that belong to a group. -/
structure Membership where
  members : Set Str
  admins : Set Str

namespace Membership

/-- -a inserts, -d deletes and -M replaces. -/
def onMembers (before : Set Str) (o : Options) : Set Str :=
  match o.add, o.delete, o.members with
  | some user, _, _ => insert user before
  | none, some user, _ => before \ {user}
  | none, none, some list => {user | user ∈ parseUserList list}
  | none, none, none => before

/-- -A replaces and -d deletes. -/
def onAdmins (before : Set Str) (o : Options) : Set Str :=
  match o.administrators, o.delete with
  | some list, _ => {user | user ∈ parseUserList list}
  | none, some user => before \ {user}
  | none, none => before

/-- What an invocation makes of the users of a group. -/
def apply (group : Str) (m : Membership) (i : Issued) : Membership :=
  if i.options.group = group then
    { members := onMembers m.members i.options, admins := onAdmins m.admins i.options }
  else m

/-- The operations of a sequence, in their order. -/
def fold (group : Str) (m : Membership) (is : List Issued) : Membership := is.foldl (apply group) m

theorem onMembers_options {group : Str} {r : Request} {before : Set Str} {list : List Str}
    (same : ∀ user, user ∈ list ↔ user ∈ before) (user : Str) :
    user ∈ r.onMembers list ↔ user ∈ onMembers before (r.options group) := by
  cases r with
  | add other => exact mem_addMember.trans ((or_congr_left (same user)).trans or_comm)
  | delete other => exact mem_removeMember.trans (and_congr_left fun _ => same user)
  | members list => exact Iff.rfl
  | lists admins list => exact Iff.rfl
  | _ => exact same user

theorem onAdmins_options {group : Str} {r : Request} {before : Set Str} {list : List Str}
    (same : ∀ user, user ∈ list ↔ user ∈ before) (user : Str) :
    user ∈ r.onAdmins list ↔ user ∈ onAdmins before (r.options group) := by
  cases r with
  | delete other => exact mem_removeMember.trans (and_congr_left fun _ => same user)
  | administrators list => exact Iff.rfl
  | lists admins list => exact Iff.rfl
  | _ => exact same user

end Membership

/-! ## One invocation -/

/-- Both files are there, with these entries. -/
structure Opened (core : ShadowCore) (files : Files) (entries : List GroupEntry)
    (lines : List GshadowEntry) : Prop where
  group : core.readGroupFile files.group = .ok entries
  gshadow : ∃ text, files.gshadow = some text ∧ core.readGshadowFile text = .ok lines

/-- The first entry of a name is replaced by one of the same name. -/
def Replaced {α : Type*} (name : α → Str) (group : Str) (x y : α) (xs ys : List α) : Prop :=
  ∃ before after, xs = before ++ x :: after ∧ ys = before ++ y :: after ∧ name x = group ∧
    name y = group ∧ ∀ z ∈ before, name z ≠ group

namespace Replaced

variable {α β : Type*} {name : α → Str} {group : Str} {x y : α} {xs ys : List α}

theorem find?_before {before after : List α} (hx : name x = group)
    (other : ∀ z ∈ before, name z ≠ group) :
    (before ++ x :: after).find? (fun z => name z == group) = some x := by
  have nothing : before.find? (fun z => name z == group) = none := by simpa using other
  rw [List.find?_append, nothing, Option.none_or, List.find?_cons_of_pos (by simpa using hx)]

theorem find?_old (h : Replaced name group x y xs ys) :
    xs.find? (fun z => name z == group) = some x := by
  obtain ⟨before, after, rfl, -, hx, -, other⟩ := h
  exact find?_before hx other

theorem find?_new (h : Replaced name group x y xs ys) :
    ys.find? (fun z => name z == group) = some y := by
  obtain ⟨before, after, -, rfl, -, hy, other⟩ := h
  exact find?_before hy other

theorem find?_other (h : Replaced name group x y xs ys) {other : Str} (differs : group ≠ other) :
    ys.find? (fun z => name z == other) = xs.find? fun z => name z == other := by
  obtain ⟨before, after, rfl, rfl, hx, hy, -⟩ := h
  rw [List.find?_append, List.find?_append, List.find?_cons_of_neg (by simpa [hy] using differs),
    List.find?_cons_of_neg (by simpa [hx] using differs)]

theorem map (h : Replaced name group x y xs ys) {f : α → β} (same : f y = f x) :
    ys.map f = xs.map f := by
  obtain ⟨before, after, rfl, rfl, -⟩ := h
  simp only [List.map_append, List.map_cons, same]

theorem filter (h : Replaced name group x y xs ys) {p : Str → Bool} (untouched : p group = false) :
    ys.filter (fun z => p (name z)) = xs.filter fun z => p (name z) := by
  obtain ⟨before, after, rfl, rfl, hx, hy, -⟩ := h
  simp only [List.filter_append, List.filter_cons, hx, hy, untouched, Bool.false_eq_true, if_false]

end Replaced

theorem exists_replaced_of_findIdx? {α : Type*} {name : α → Str} {group : Str} {xs : List α}
    {i : Nat} (d : α) (found : xs.findIdx? (fun x => name x == group) = some i) {y : α}
    (hy : name y = name (xs.getD i d)) :
    Replaced name group (xs.getD i d) y xs (xs.set i y) := by
  induction xs generalizing i with
  | nil => cases found
  | cons x xs ih =>
      rw [List.findIdx?_cons] at found
      cases hx : name x == group with
      | true =>
          rw [hx, if_pos rfl] at found
          obtain rfl := Option.some.inj found
          have named : name x = group := by simpa using hx
          exact ⟨[], xs, rfl, rfl, named, hy.trans named, fun _ h => absurd h List.not_mem_nil⟩
      | false =>
          rw [hx, if_neg Bool.false_ne_true] at found
          obtain ⟨j, hj, rfl⟩ := Option.map_eq_some_iff.mp found
          obtain ⟨before, after, old, new, rest⟩ := ih hj hy
          refine ⟨x :: before, after, congrArg _ old, congrArg _ new, rest.1, rest.2.1, ?_⟩
          exact List.forall_mem_cons.mpr ⟨by simpa using hx, rest.2.2⟩

theorem updateGroup_replaced {group : Str} {r : Request} {users : List Str}
    {entries entries' : List GroupEntry} {entry : GroupEntry}
    (h : updateGroup (r.options group) r.password users entries = .ok (entries', entry)) :
    ∃ g : GroupEntry,
      entry = { g with passwd := r.onGroupPassword g.passwd, members := r.onMembers g.members } ∧
      Replaced GroupEntry.name group g entry entries entries' := by
  unfold updateGroup at h
  split at h
  · cases h
  · next idx found =>
      rw [Request.options_group] at found
      obtain ⟨updated, hupdate, hpure⟩ := Except.bind_eq_ok h
      obtain ⟨rfl, rfl⟩ := Prod.mk.inj (Except.ok.inj hpure)
      exact ⟨_, Request.updateEntry_options hupdate,
        exists_replaced_of_findIdx? _ found (updateEntry_name hupdate)⟩

theorem changeLine_replaced {group : Str} {change : GshadowEntry → GshadowEntry}
    (hname : ∀ g, (change g).name = g.name) {lines : List GshadowEntry}
    (present : lines.any (fun g => g.name == group) = true) :
    ∃ gs, Replaced GshadowEntry.name group gs (change gs) lines
      (changeLine group change lines) := by
  induction lines with
  | nil => cases present
  | cons g lines ih =>
      unfold changeLine
      split
      · next here =>
          have named : g.name = group := by simpa using here
          exact ⟨g, [], lines, rfl, rfl, named, (hname g).trans named,
            fun _ h => absurd h List.not_mem_nil⟩
      · next other =>
          rw [List.any_cons, Bool.eq_false_iff.mpr other, Bool.false_or] at present
          obtain ⟨gs, before, after, old, new, rest⟩ := ih present
          refine ⟨gs, g :: before, after, congrArg _ old, congrArg _ new, rest.1, rest.2.1, ?_⟩
          exact List.forall_mem_cons.mpr ⟨by simpa using other, rest.2.2⟩

/-- The line that is made where the group has none. -/
def newLine (group : Str) (members : List Str) : GshadowEntry :=
  { name := group, passwd := "!".toList, admins := [], members := members }

theorem createLine_eq (group : Str) (members : List Str) (lines : List GshadowEntry) :
    (lines.any fun g => g.name == group) = true ∧ createLine group members lines = lines ∨
      (lines.find? fun g => g.name == group) = none ∧
        createLine group members lines = lines ++ [newLine group members] := by
  unfold createLine
  split
  · next present => exact .inl ⟨present, rfl⟩
  · next absent =>
      refine .inr ⟨?_, rfl⟩
      simpa using absent

theorem createLine_any (group : Str) (members : List Str) (lines : List GshadowEntry) :
    ((createLine group members lines).any fun g => g.name == group) = true := by
  obtain ⟨present, same⟩ | ⟨-, made⟩ := createLine_eq group members lines
  · rw [same, present]
  · rw [made]
    simp [newLine]

/-- What a successful invocation has made of the entries. -/
structure Performed (core : ShadowCore) (group : Str) (r : Request) (after : Files)
    (entries entries' : List GroupEntry) (lines lines' : List GshadowEntry) (g : GroupEntry)
    (gs : GshadowEntry) : Prop where
  opened : Opened core after entries' lines'
  entry : Replaced GroupEntry.name group g
    { g with passwd := r.onGroupPassword g.passwd, members := r.onMembers g.members }
      entries entries'
  line : Replaced GshadowEntry.name group gs
    { gs with
      passwd := r.onPassword gs.passwd
      admins := r.onAdmins gs.admins
      members := r.onMembers gs.members }
    (createLine group (r.onMembers g.members) lines) lines'

theorem performed_of_perform {core : ShadowCore} (lawful : core.Lawful) {files files' : Files}
    {i : Issued} {entries : List GroupEntry} {lines : List GshadowEntry}
    (opened : Opened core files entries lines) (done : perform core files i = some files') :
    ∃ r entries' lines' g gs, i.options = r.options i.options.group ∧
      Performed core i.options.group r files' entries entries' lines lines' g gs := by
  obtain ⟨success, hfiles⟩ := Option.ite_none_right_eq_some.mp done
  obtain rfl := Option.some.inj hfiles
  obtain ⟨r, read, entries', entry, ho, -, updated⟩ := uumain_success lawful success
  obtain rfl := Except.ok.inj (opened.group.symm.trans updated.read)
  obtain ⟨text, htext, hlines⟩ := opened.gshadow
  obtain ⟨readLines, text', hread, hafter, hwritten⟩ := updated.gshadow text htext
  obtain rfl := Except.ok.inj (hlines.symm.trans hread)
  obtain ⟨users, hupdate⟩ := updated.users
  obtain ⟨g, rfl, hgroup⟩ := updateGroup_replaced hupdate
  obtain ⟨gs, hgshadow⟩ := changeLine_replaced
    (updateLine_name (r.options i.options.group) r.password)
    (createLine_any i.options.group (r.onMembers g.members) lines)
  refine ⟨r, entries', _, g, gs, ho, ⟨updated.written, text', hafter, hwritten⟩, hgroup, ?_⟩
  rw [Request.updateLine_options] at hgshadow
  rw [updateGshadow, Request.options_group]
  exact hgshadow

/-! ## The two files agree -/

/-- The user is an administrator of the group. -/
def GshadowAdmin (group : Str) (lines : List GshadowEntry) (user : Str) : Prop :=
  ∃ g, lines.find? (fun g => g.name == group) = some g ∧ user ∈ g.admins

/-- Both files have the users of the group as they are meant to be. A line that is missing in
`/etc/gshadow` says nothing about the members. -/
structure Agreeing (group : Str) (m : Membership) (entries : List GroupEntry)
    (lines : List GshadowEntry) : Prop where
  members : ∀ user, GroupMember group entries user ↔ user ∈ m.members
  line : ∀ gs, lines.find? (fun g => g.name == group) = some gs →
    ∀ user, user ∈ gs.members ↔ user ∈ m.members
  admins : ∀ user, GshadowAdmin group lines user ↔ user ∈ m.admins

variable {core : ShadowCore} {group : Str} {r : Request} {files files' : Files}
variable {entries entries' : List GroupEntry} {lines lines' : List GshadowEntry}
variable {g : GroupEntry} {gs : GshadowEntry} {m : Membership} {i : Issued}

theorem find?_createLine_other {other : Str} (differs : group ≠ other) (members : List Str)
    (lines : List GshadowEntry) :
    (createLine group members lines).find? (fun g => g.name == other) =
      lines.find? fun g => g.name == other := by
  obtain ⟨-, same⟩ | ⟨-, made⟩ := createLine_eq group members lines
  · rw [same]
  · rw [made, List.find?_append]
    simp [newLine, differs]

/-- The line that is changed was there, or has been made. -/
theorem Performed.line_eq (done : Performed core group r files entries entries' lines lines' g gs) :
    lines.find? (fun g => g.name == group) = some gs ∨
      lines.find? (fun g => g.name == group) = none ∧
        gs = newLine group (r.onMembers g.members) := by
  have found := done.line.find?_old
  obtain ⟨-, same⟩ | ⟨absent, made⟩ := createLine_eq group (r.onMembers g.members) lines
  · exact .inl (same ▸ found)
  · have new : newLine group (r.onMembers g.members) = gs := by
      rw [made, List.find?_append, absent, Option.none_or] at found
      simpa [newLine] using found
    exact .inr ⟨absent, new.symm⟩

/-- A request to another group changes nothing of this one. -/
theorem Agreeing.other {other : Str} (h : Agreeing group m entries lines)
    (done : Performed core other r files entries entries' lines lines' g gs)
    (differs : other ≠ group) : Agreeing group m entries' lines' := by
  have hentries := done.entry.find?_other differs
  have hlines := (done.line.find?_other differs).trans (find?_createLine_other differs _ lines)
  constructor
  · intro user
    rw [GroupMember, hentries]
    exact h.members user
  · rw [hlines]
    exact h.line
  · intro user
    rw [GshadowAdmin, hlines]
    exact h.admins user

/-- A request that is done again changes no member. -/
theorem Request.mem_onMembers_twice (r : Request) (list : List Str) (user : Str) :
    user ∈ r.onMembers (r.onMembers list) ↔ user ∈ r.onMembers list := by
  cases r with
  | add other => simp [onMembers]
  | delete other => simp [onMembers]
  | _ => exact Iff.rfl

/-- A request to the group acts on its users as on sets. -/
theorem Agreeing.same (h : Agreeing group m entries lines)
    (done : Performed core group r files entries entries' lines lines' g gs) :
    Agreeing group
      { members := Membership.onMembers m.members (r.options group)
        admins := Membership.onAdmins m.admins (r.options group) } entries' lines' := by
  have hentry := done.entry.find?_new
  have hline := done.line.find?_new
  have members : ∀ user, user ∈ g.members ↔ user ∈ m.members := by
    intro user
    rw [← h.members user, GroupMember, done.entry.find?_old]
    simp
  constructor
  · intro user
    rw [GroupMember, hentry]
    simpa using Membership.onMembers_options members user
  · intro gs' found user
    obtain rfl := Option.some.inj (hline.symm.trans found)
    obtain present | ⟨-, rfl⟩ := done.line_eq
    · exact Membership.onMembers_options (h.line gs present) user
    · exact (r.mem_onMembers_twice g.members user).trans (Membership.onMembers_options members user)
  · intro user
    have admins : ∀ user, user ∈ gs.admins ↔ user ∈ m.admins := by
      intro user
      rw [← h.admins user, GshadowAdmin]
      obtain present | ⟨absent, rfl⟩ := done.line_eq
      · rw [present]
        simp
      · rw [absent]
        simp [newLine]
    rw [GshadowAdmin, hline]
    simpa using Membership.onAdmins_options admins user

/-! ## Everything else -/

/-- What a sequence leaves as it is: the names and ids in `/etc/group`, the entries of the groups it
does not name, in their order, and the names of the lines in `/etc/gshadow`, with new ones behind
them. -/
structure Kept (is : List Issued) (entries entries' : List GroupEntry)
    (lines lines' : List GshadowEntry) : Prop where
  ids : entries'.map (fun g => (g.name, g.gid)) = entries.map fun g => (g.name, g.gid)
  others : ∀ p : Str → Bool, (∀ i ∈ is, p i.options.group = false) →
    entries'.filter (fun g => p g.name) = entries.filter fun g => p g.name
  otherLines : ∀ p : Str → Bool, (∀ i ∈ is, p i.options.group = false) →
    lines'.filter (fun g => p g.name) = lines.filter fun g => p g.name
  names : ∃ made, lines'.map GshadowEntry.name = lines.map GshadowEntry.name ++ made ∧
    ∀ name ∈ made, ∃ i ∈ is, i.options.group = name
  distinct : (lines.map GshadowEntry.name).Nodup → (lines'.map GshadowEntry.name).Nodup

theorem Kept.nil (entries : List GroupEntry) (lines : List GshadowEntry) :
    Kept [] entries entries lines lines where
  ids := rfl
  others _ _ := rfl
  otherLines _ _ := rfl
  names := ⟨[], (List.append_nil _).symm, fun _ h => absurd h List.not_mem_nil⟩
  distinct h := h

theorem Kept.cons {is : List Issued} {entries₁ : List GroupEntry} {lines₁ : List GshadowEntry}
    (first : Kept [i] entries entries₁ lines lines₁)
      (rest : Kept is entries₁ entries' lines₁ lines') :
    Kept (i :: is) entries entries' lines lines' where
  ids := rest.ids.trans first.ids
  others p untouched := by
    obtain ⟨here, later⟩ := List.forall_mem_cons.mp untouched
    exact (rest.others p later).trans (first.others p (by simpa using here))
  otherLines p untouched := by
    obtain ⟨here, later⟩ := List.forall_mem_cons.mp untouched
    exact (rest.otherLines p later).trans (first.otherLines p (by simpa using here))
  names := by
    obtain ⟨made₁, names₁, named₁⟩ := first.names
    obtain ⟨made₂, names₂, named₂⟩ := rest.names
    refine ⟨made₁ ++ made₂, by rw [names₂, names₁, List.append_assoc], ?_⟩
    refine List.forall_mem_append.mpr ⟨fun name h => ?_, fun name h => ?_⟩
    · obtain ⟨j, member, hj⟩ := named₁ name h
      exact ⟨j, List.mem_cons.mpr (.inl (List.mem_singleton.mp member)), hj⟩
    · obtain ⟨j, member, hj⟩ := named₂ name h
      exact ⟨j, List.mem_cons_of_mem i member, hj⟩
  distinct h := rest.distinct (first.distinct h)

theorem Performed.kept
    (done : Performed core i.options.group r files entries entries' lines lines' g gs) :
    Kept [i] entries entries' lines lines' := by
  have names := done.line.map (f := GshadowEntry.name) rfl
  refine ⟨done.entry.map rfl, fun p untouched => ?_, fun p untouched => ?_, ?_, ?_⟩
  · exact done.entry.filter (untouched i List.mem_cons_self)
  · have hgroup := untouched i List.mem_cons_self
    rw [done.line.filter hgroup]
    obtain ⟨-, same⟩ | ⟨-, made⟩ := createLine_eq i.options.group (r.onMembers g.members) lines
    · rw [same]
    · rw [made, List.filter_append]
      simp [newLine, hgroup]
  · obtain ⟨-, same⟩ | ⟨-, made⟩ := createLine_eq i.options.group (r.onMembers g.members) lines
    · exact ⟨[], by rw [names, same, List.append_nil], fun _ h => absurd h List.not_mem_nil⟩
    · refine ⟨[i.options.group], by rw [names, made, List.map_append]; rfl, fun name h => ?_⟩
      exact ⟨i, List.mem_cons_self, (List.mem_singleton.mp h).symm⟩
  · intro distinct
    obtain ⟨-, same⟩ | ⟨absent, made⟩ :=
      createLine_eq i.options.group (r.onMembers g.members) lines
    · rwa [names, same]
    · rw [names, made, List.map_append]
      refine List.nodup_append.mpr ⟨distinct, List.nodup_singleton _, ?_⟩
      intro name old name' new
      obtain ⟨gs', member, rfl⟩ := List.mem_map.mp old
      obtain rfl := List.mem_singleton.mp new
      have differs : gs'.name ≠ i.options.group := by
        simpa using List.find?_eq_none.mp absent gs' member
      exact differs

/-- How often the user is listed after -a: once, or as often as before. A line that is made lists
the user as often as `/etc/group` does. -/
structure AddedOnce (group user : Str) (entries entries' : List GroupEntry)
    (lines lines' : List GshadowEntry) : Prop where
  entry : ∃ g g', entries.find? (fun g => g.name == group) = some g ∧
    entries'.find? (fun g => g.name == group) = some g' ∧
    g'.members.count user = max 1 (g.members.count user) ∧
    ∃ gs', lines'.find? (fun g => g.name == group) = some gs' ∧
      (lines.find? (fun g => g.name == group) = none →
        gs'.members.count user = g'.members.count user) ∧
      ∀ gs, lines.find? (fun g => g.name == group) = some gs →
        gs'.members.count user = max 1 (gs.members.count user)

theorem count_addMember (members : List Str) (user : Str) :
    (addMember members user).count user = max 1 (members.count user) := by
  unfold addMember
  split
  · next present =>
      have listed : 0 < members.count user := List.count_pos_iff.mpr (by simpa using present)
      omega
  · next absent =>
      have unlisted : members.count user = 0 := List.count_eq_zero.mpr (by simpa using absent)
      rw [List.count_append, List.count_singleton_self]
      omega

theorem Performed.addedOnce {user : Str}
    (done : Performed core group (.add user) files entries entries' lines lines' g gs) :
    AddedOnce group user entries entries' lines lines' := by
  refine ⟨g, _, done.entry.find?_old, done.entry.find?_new, count_addMember g.members user, _,
    done.line.find?_new, fun absent => ?_, fun gs' present => ?_⟩
  · obtain present | ⟨-, rfl⟩ := done.line_eq
    · cases absent.symm.trans present
    · have again := count_addMember (addMember g.members user) user
      rw [count_addMember g.members user] at again
      refine again.trans ?_
      rw [← max_assoc, max_self]
      exact (count_addMember g.members user).symm
  · obtain present' | ⟨absent, -⟩ := done.line_eq
    · obtain rfl := Option.some.inj (present'.symm.trans present)
      exact count_addMember gs.members user
    · cases absent.symm.trans present

/-! ## Sequences -/

/-- One of the invocations is about the group, or it has a line in `/etc/gshadow`. -/
def HasLine (group : Str) (is : List Issued) (lines : List GshadowEntry) : Prop :=
  (∃ i ∈ is, i.options.group = group) ∨ lines.find? (fun g => g.name == group) ≠ none

/-- An invocation leaves a line where there is one, and makes one for its own group. -/
theorem Performed.hasLine {is : List Issued}
    (done : Performed core i.options.group r files entries entries' lines lines' g gs)
    (h : HasLine group (i :: is) lines) : HasLine group is lines' := by
  by_cases here : i.options.group = group
  · right
    rw [← here, done.line.find?_new]
    exact Option.some_ne_none _
  · obtain ⟨j, member, hj⟩ | present := h
    · obtain rfl | later := List.mem_cons.mp member
      · exact absurd hj here
      · exact .inl ⟨j, later, hj⟩
    · right
      rwa [done.line.find?_other here, find?_createLine_other here]

/-- The entries after a sequence, from those before it. -/
theorem agreeing_run (lawful : core.Lawful) {is : List Issued}
    (opened : Opened core files entries lines) (h : Agreeing group m entries lines)
    (done : Actions.run (perform core) files is = some files') :
    ∃ entries' lines', Opened core files' entries' lines' ∧ Kept is entries entries' lines lines' ∧
      Agreeing group (m.fold group is) entries' lines' ∧
      (HasLine group is lines → lines'.find? (fun g => g.name == group) ≠ none) := by
  induction is generalizing files entries lines m with
  | nil =>
      obtain rfl := Option.some.inj done
      refine ⟨entries, lines, opened, Kept.nil entries lines, h, ?_⟩
      rintro (⟨i, member, -⟩ | present)
      · cases member
      · exact present
  | cons i is ih =>
      obtain ⟨middle, first, rest⟩ := Option.bind_eq_some_iff.mp done
      obtain ⟨r, entries₁, lines₁, g, gs, ho, performed⟩ := performed_of_perform lawful opened first
      have agreeing : Agreeing group (Membership.apply group m i) entries₁ lines₁ := by
        unfold Membership.apply
        split
        · next here =>
            rw [here] at performed ho
            rw [ho]
            exact h.same performed
        · next other => exact h.other performed other
      obtain ⟨entries', lines', hopened, hkept, hagreeing, hline⟩ :=
        ih performed.opened agreeing rest
      exact ⟨entries', lines', hopened, performed.kept.cons hkept, hagreeing,
        fun line => hline (performed.hasLine line)⟩

/-- The users of the group in the files. -/
def Membership.read (group : Str) (entries : List GroupEntry) (lines : List GshadowEntry) :
    Membership where
  members := {user | GroupMember group entries user}
  admins := {user | GshadowAdmin group lines user}

/-- After a sequence of successful invocations, the users of a group are those the operations make
of them, in both files, everything else is as it was, and -a lists nobody once more. -/
theorem sequence_fold {core : ShadowCore} (lawful : core.Lawful) {files files' : Files}
    {entries : List GroupEntry} {lines : List GshadowEntry}
      (opened : Opened core files entries lines)
    (group : Str)
    (agree : ∀ gs, lines.find? (fun g => g.name == group) = some gs →
      ∀ user, GroupMember group entries user ↔ user ∈ gs.members)
    {is : List Issued} (done : Actions.run (perform core) files is = some files') :
    ∃ entries' lines', Opened core files' entries' lines' ∧
      (∀ user, GroupMember group entries' user ↔
        user ∈ ((Membership.read group entries lines).fold group is).members) ∧
      (HasLine group is lines → ∀ user, GshadowMember group lines' user ↔
        user ∈ ((Membership.read group entries lines).fold group is).members) ∧
      (∀ user, GshadowAdmin group lines' user ↔
        user ∈ ((Membership.read group entries lines).fold group is).admins) ∧
      Kept is entries entries' lines lines' ∧
      ∀ env user files'',
        perform core files' ⟨env, { group := group, add := some user }⟩ = some files'' →
        ∃ entries'' lines'', Opened core files'' entries'' lines'' ∧
          AddedOnce group user entries' entries'' lines' lines'' := by
  have start : Agreeing group (Membership.read group entries lines) entries lines :=
    { members := fun _ => Iff.rfl
      line := fun gs found user => (agree gs found user).symm
      admins := fun _ => Iff.rfl }
  obtain ⟨entries', lines', hopened, kept, agreeing, hline⟩ := agreeing_run lawful opened start done
  refine ⟨entries', lines', hopened, agreeing.members, fun line user => ?_,
    agreeing.admins, kept, ?_⟩
  · obtain ⟨gs, found⟩ := Option.ne_none_iff_exists'.mp (hline line)
    rw [← agreeing.line gs found user, GshadowMember, found]
    simp
  · intro env user files'' again
    obtain ⟨r, entries'', lines'', g, gs, ho, performed⟩ :=
      performed_of_perform lawful hopened again
    cases r <;> cases ho
    exact ⟨entries'', lines'', performed.opened, performed.addedOnce⟩

/-- Three requests to the group, which has no line in `/etc/gshadow` at first. -/
def staffRequests : List Issued :=
  [.add "alice".toList, .delete "bob".toList, .administrators "alice".toList].map fun r =>
    ⟨calm, Request.options "staff".toList r⟩

def staffFilesAfter : Files :=
  { staffFiles with
    group := some "staff:x:50:alice\n".toList
    gshadow := some "staff:!:alice:alice\n".toList }

theorem sequence_fold_staff :
    ∃ entries' lines', Opened plainCore staffFilesAfter entries' lines' ∧
      (∀ user, GroupMember "staff".toList entries' user ↔ user ∈
        ((Membership.read "staff".toList [⟨"staff".toList, "x".toList, 50, ["bob".toList]⟩] []).fold
          "staff".toList staffRequests).members) := by
  have opened : Opened plainCore { staffFiles with gshadow := some [] }
      [⟨"staff".toList, "x".toList, 50, ["bob".toList]⟩] [] := ⟨rfl, [], rfl, rfl⟩
  have done : Actions.run (perform plainCore) { staffFiles with gshadow := some [] } staffRequests =
      some staffFilesAfter := by
    decide
  obtain ⟨entries', lines', opened, members, -⟩ :=
    sequence_fold plainCore_lawful opened "staff".toList (fun gs found => nomatch found) done
  exact ⟨entries', lines', opened, members⟩

end Baseimage.Gpasswd
