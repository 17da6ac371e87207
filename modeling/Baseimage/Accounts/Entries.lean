import Baseimage.Accounts.InitUsers

/-!
# Entries of the databases

As long as names, ids and members are words, a line of `/etc/group` has the four fields it is meant
to have, and what the script finds with its patterns is what it looks for. The operations of the
script are then operations on lists of entries.
-/

namespace Baseimage.Accounts

open Filters Pattern

/-- A name as it is documented: a letter or an underscore, then letters, digits, underscores and
hyphens. -/
def isAccountName : Str → Bool
  | [] => false
  | c :: s => isNameStart c && s.all isNameChar

/-- A text of characters of names. -/
def Word (s : Str) : Prop := s ≠ [] ∧ ∀ c ∈ s, isNameChar c = true

theorem word_of_isAccountName {s : Str} (h : isAccountName s = true) : Word s := by
  cases s with
  | nil => cases h
  | cons c s =>
      obtain ⟨first, rest⟩ := Bool.and_eq_true_iff.mp h
      refine ⟨List.cons_ne_nil c s, List.forall_mem_cons.mpr ⟨?_, List.all_eq_true.mp rest⟩⟩
      simp [isNameChar, first]

theorem word_of_isNumber {s : Str} (h : isNumber s = true) : Word s := by
  obtain ⟨nonempty, digits⟩ := isNumber_iff.mp h
  exact ⟨nonempty, fun c hc => by simp [isNameChar, digits c hc]⟩

theorem word_app : Word app := ⟨List.cons_ne_nil _ _, List.all_eq_true.mp (by decide)⟩

theorem Word.append {s t : Str} (hs : Word s) (ht : Word t) : Word (s ++ t) :=
  ⟨fun h => hs.1 (List.append_eq_nil_iff.mp h).1, List.forall_mem_append.mpr ⟨hs.2, ht.2⟩⟩

theorem Word.not_mem {s : Str} (h : Word s) {d : Char} (hd : isNameChar d = false) : d ∉ s := by
  intro member
  cases (h.2 d member).symm.trans hd

theorem Word.plain {s : Str} (h : Word s) : Plain s := by
  intro c hc
  by_contra special
  have listed : c ∈ ['.', '*', '$', '^', '[', '\\'] := by
    simpa only [isSpecial, Bool.not_eq_false, Bool.or_eq_true, beq_iff_eq, or_assoc, List.mem_cons,
      List.not_mem_nil, or_false] using special
  have excluded : ['.', '*', '$', '^', '[', '\\'].all (fun d => !isNameChar d) = true := by decide
  have notNameChar := List.all_eq_true.mp excluded c listed
  rw [h.2 c hc] at notNameChar
  cases notNameChar

theorem Word.no_colon {s : Str} (h : Word s) : ':' ∉ s := h.not_mem (by decide)

theorem Word.no_comma {s : Str} (h : Word s) : ',' ∉ s := h.not_mem (by decide)

theorem Word.no_newline {s : Str} (h : Word s) : '\n' ∉ s := h.not_mem (by decide)

/-- `cut` and `grep` compare a field with a word. -/
theorem hasField_iff {k : Nat} {text : Str} {lines : List Str} (h : Word text) :
    hasField k text lines = true ↔ ∃ line ∈ lines, cut ':' k line = text := by
  simp [hasField, isMatch_line h.plain]

/-! ## Lines -/

/-- A line of `/etc/group`. -/
structure Entry where
  name : Str
  gid : Str
  members : List Str
  deriving DecidableEq, Repr

namespace Entry

def memberList (e : Entry) : Str := [','].intercalate e.members

def line (e : Entry) : Str := groupLine e.name e.gid ++ e.memberList

structure Valid (e : Entry) : Prop where
  name : isAccountName e.name = true
  gid : isNumber e.gid = true
  members : ∀ m ∈ e.members, Word m

theorem line_eq (e : Entry) :
    e.line = e.name ++ ':' :: (['x'] ++ ':' :: (e.gid ++ ':' :: e.memberList)) := by
  show e.name ++ [':', 'x', ':'] ++ e.gid ++ [':'] ++ e.memberList = _
  simp

variable {e : Entry}

theorem memberList_eq_nil_iff (h : ∀ m ∈ e.members, Word m) : e.memberList = [] ↔
    e.members = [] := by
  unfold memberList
  constructor
  · intro empty
    cases hm : e.members with
    | nil => rfl
    | cons m ms =>
        have nonempty := (h m (by rw [hm]; exact List.mem_cons_self)).1
        rw [hm] at empty
        cases ms with
        | nil => exact absurd (List.intercalate_singleton.symm.trans empty) nonempty
        | cons k ms =>
            rw [List.intercalate_cons_cons] at empty
            exact absurd (List.append_eq_nil_iff.mp (List.append_eq_nil_iff.mp empty).1).1 nonempty
  · intro empty
    rw [empty]
    exact List.intercalate_nil

theorem no_colon_memberList (h : ∀ m ∈ e.members, Word m) : ':' ∉ e.memberList := by
  intro member
  obtain same | ⟨m, hm, hc⟩ := mem_intercalate member
  · exact absurd same (by decide)
  · exact (h m hm).no_colon hc

namespace Valid

theorem nameWord (h : e.Valid) : Word e.name := word_of_isAccountName h.name

theorem gidWord (h : e.Valid) : Word e.gid := word_of_isNumber h.gid

theorem cut_name (h : e.Valid) : cut ':' 1 e.line = e.name := by
  rw [line_eq, cut_first h.nameWord.no_colon]

theorem cut_id (h : e.Valid) : cut ':' 3 e.line = e.gid := by
  rw [line_eq, cut_third h.nameWord.no_colon (by decide) h.gidWord.no_colon]

theorem cut_members (h : e.Valid) : cut ':' 4 e.line = e.memberList := by
  rw [line_eq, cut_fourth_last h.nameWord.no_colon (by decide) h.gidWord.no_colon
    (no_colon_memberList h.members)]

/-- The members are the pieces of the last field. -/
theorem mem_members_iff (h : e.Valid) {m : Str} (hm : m ≠ []) :
    m ∈ (cut ':' 4 e.line).splitOn ',' ↔ m ∈ e.members := by
  rw [h.cut_members, memberList]
  cases hmembers : e.members with
  | nil => simp [hm]
  | cons k ks =>
      rw [List.splitOn_intercalate]
      · intro n hn
        exact (h.members n (hmembers ▸ hn)).no_comma
      · exact List.cons_ne_nil k ks

/-- `/^NAME:/` -/
theorem isMatch_name (h : e.Valid) {name : Str} (hname : Word name) :
    isMatch ('^' :: (name ++ ":".toList)) e.line = true ↔ e.name = name := by
  have plain : Plain (name ++ [':']) := plain_append.mpr ⟨hname.plain, by decide⟩
  show isMatch ('^' :: (name ++ [':'])) e.line = true ↔ _
  rw [isMatch_start plain, line_eq]
  constructor
  · rintro ⟨rest, same⟩
    have cutHere : name ++ [':'] ++ rest = name ++ ':' :: rest := by simp
    rw [cutHere] at same
    exact (first_field_inj h.nameWord.no_colon hname.no_colon same).1
  · rintro rfl
    exact ⟨['x'] ++ ':' :: (e.gid ++ ':' :: e.memberList), by simp⟩

/-- `^NAME:.*:$` -/
theorem isMatch_memberless (h : e.Valid) {name : Str} (hname : Word name) :
    isMatch ('^' :: (name ++ ":.*:$".toList)) e.line = true ↔ e.name = name ∧ e.members = [] := by
  have plain : Plain (name ++ [':']) := plain_append.mpr ⟨hname.plain, by decide⟩
  have spelled : name ++ ":.*:$".toList = (name ++ [':']) ++ ('.' :: '*' :: ([':'] ++ ['$'])) := by
    show name ++ [':', '.', '*', ':', '$'] = _
    simp
  rw [spelled, isMatch_start_end plain (by decide), line_eq]
  constructor
  · rintro ⟨m, same⟩
    have cutHere : name ++ [':'] ++ m ++ [':'] = name ++ ':' :: (m ++ [':']) := by simp
    rw [cutHere] at same
    obtain ⟨hsame, rest⟩ := first_field_inj h.nameWord.no_colon hname.no_colon same
    refine ⟨hsame, ?_⟩
    rw [← memberList_eq_nil_iff h.members]
    by_contra nonempty
    obtain ⟨init, c, hlist⟩ := (List.eq_nil_or_concat e.memberList).resolve_left nonempty
    have ends : ('x' :: ':' :: (e.gid ++ ':' :: init)) ++ [c] = m ++ [':'] := by
      rw [← rest, hlist]
      simp
    have last : [c] = [':'] := List.append_inj_right' ends rfl
    exact no_colon_memberList h.members (by rw [hlist, (List.cons.inj last).1]; simp)
  · rintro ⟨rfl, empty⟩
    rw [(memberList_eq_nil_iff h.members).mpr empty]
    exact ⟨'x' :: ':' :: e.gid, by simp⟩

/-- `:x:GID:` -/
theorem isMatch_id (h : e.Valid) {gid : Str} (hgid : Word gid) :
    isMatch (":x:".toList ++ gid ++ ":".toList) e.line = true ↔ e.gid = gid := by
  show isMatch ([':', 'x', ':'] ++ gid ++ [':']) e.line = true ↔ _
  have plain : Plain ([':', 'x', ':'] ++ gid ++ [':']) :=
    plain_append.mpr ⟨plain_append.mpr ⟨by decide, hgid.plain⟩, by decide⟩
  rw [isMatch_inside plain, line_eq]
  constructor
  · rintro ⟨before, after, same⟩
    -- There are three colons in the line and in the text looked for.
    have colons := congrArg (List.count ':') same
    have none_in : ∀ {s : Str}, ':' ∉ s → s.count ':' = 0 := List.count_eq_zero.mpr
    simp only [List.count_append, List.count_cons, List.count_nil, none_in hgid.no_colon,
      none_in h.nameWord.no_colon, none_in h.gidWord.no_colon,
      none_in (no_colon_memberList h.members), beq_self_eq_true, if_true] at colons
    have first : ':' ∉ before := List.count_eq_zero.mp (by simp at colons; omega)
    have cutHere : before ++ ([':', 'x', ':'] ++ gid ++ [':']) ++ after =
        before ++ ':' :: (['x'] ++ ':' :: (gid ++ ':' :: after)) := by simp
    rw [cutHere] at same
    obtain ⟨-, rest⟩ := first_field_inj first h.nameWord.no_colon same
    obtain ⟨-, fromId⟩ := first_field_inj (by decide) (by decide) rest
    exact (first_field_inj hgid.no_colon h.gidWord.no_colon fromId).1.symm
  · rintro rfl
    exact ⟨e.name, e.memberList, by simp⟩

end Valid

end Entry

/-! ## Members -/

/-- The members after a name is put behind the last one without a comma. -/
def glueMember (uname : Str) : List Str → List Str
  | [] => [uname]
  | [m] => [m ++ uname]
  | m :: n :: ms => m :: glueMember uname (n :: ms)

theorem glueMember_ne_nil (uname : Str) (ms : List Str) : glueMember uname ms ≠ [] := by
  unfold glueMember
  split <;> exact List.cons_ne_nil _ _

theorem intercalate_glueMember (d : Char) (uname : Str) (ms : List Str) :
    [d].intercalate (glueMember uname ms) = [d].intercalate ms ++ uname := by
  fun_induction glueMember uname ms with
  | case1 => simp
  | case2 m => simp
  | case3 m n ms ih =>
      obtain ⟨k, ks, hglued⟩ := List.exists_cons_of_ne_nil (glueMember_ne_nil uname (n :: ms))
      rw [List.intercalate_cons_cons, hglued, List.intercalate_cons_cons, ← hglued, ih]
      simp

theorem intercalate_concat (d : Char) (uname : Str) {ms : List Str} (h : ms ≠ []) :
    [d].intercalate (ms ++ [uname]) = [d].intercalate ms ++ d :: uname := by
  induction ms with
  | nil => exact absurd rfl h
  | cons m ms ih =>
      cases ms with
      | nil => simp [List.intercalate_cons_cons]
      | cons n ms =>
          have rest := ih (List.cons_ne_nil n ms)
          simp only [List.cons_append] at rest ⊢
          rw [List.intercalate_cons_cons, rest, List.intercalate_cons_cons]
          simp

theorem words_glueMember {uname : Str} {ms : List Str} (huname : Word uname)
    (h : ∀ m ∈ ms, Word m) : ∀ m ∈ glueMember uname ms, Word m := by
  fun_induction glueMember uname ms with
  | case1 => simpa using huname
  | case2 m => simpa using (h m List.mem_cons_self).append huname
  | case3 m n ms ih =>
      refine List.forall_mem_cons.mpr ⟨h m List.mem_cons_self, ih fun k hk => ?_⟩
      exact h k (List.mem_cons_of_mem m hk)

namespace Entry

/-- An entry with other members. -/
def withMembers (e : Entry) (members : List Str) : Entry := { e with members := members }

variable {e : Entry}

theorem Valid.withMembers (h : e.Valid) {members : List Str} (words : ∀ m ∈ members, Word m) :
    (e.withMembers members).Valid where
  name := h.name
  gid := h.gid
  members := words

theorem line_glueMember (e : Entry) (uname : Str) :
    (e.withMembers (glueMember uname e.members)).line = e.line ++ uname := by
  show groupLine e.name e.gid ++ [','].intercalate (glueMember uname e.members) = _
  rw [intercalate_glueMember, ← List.append_assoc]
  rfl

theorem line_concat (uname : Str) (h : e.members ≠ []) :
    (e.withMembers (e.members ++ [uname])).line = e.line ++ ',' :: uname := by
  show groupLine e.name e.gid ++ [','].intercalate (e.members ++ [uname]) = _
  rw [intercalate_concat ',' uname h, ← List.append_assoc]
  rfl

end Entry

/-! ## Operations -/

/-- The entries after a user is made a member of the groups of a name. Where one of these has no
members, the name is put behind the members of all of them without a comma. -/
def joinGroup (uname gname : Str) (entries : List Entry) : List Entry :=
  if ∃ e ∈ entries, e.name = gname ∧ e.members = [] then
    entries.map fun e => if e.name = gname then e.withMembers (glueMember uname e.members) else e
  else
    entries.map fun e => if e.name = gname then e.withMembers (e.members ++ [uname]) else e

/-- The lines of `/etc/group` are these entries. -/
structure Represents (db : Databases) (entries : List Entry) : Prop where
  lines : db.group = entries.map Entry.line
  valid : ∀ e ∈ entries, e.Valid

theorem sedPatch_eq {address text : Str} {lines patched : List Str}
    (h : sedPatch address text lines = some patched) :
    patched = lines.map fun line => if isMatch address line then line ++ text else line := by
  unfold sedPatch at h
  dsimp only at h
  split at h
  · cases h
  · exact (Option.some.inj h).symm

namespace Represents

variable {db : Databases} {entries : List Entry}

theorem exists_line_iff (h : Represents db entries) {P : Str → Prop} {Q : Entry → Prop}
    (same : ∀ e : Entry, e.Valid → (P e.line ↔ Q e)) :
    (∃ line ∈ db.group, P line) ↔ ∃ e ∈ entries, Q e := by
  simp only [h.lines, List.mem_map, exists_exists_and_eq_and]
  constructor
  · rintro ⟨e, he, found⟩
    exact ⟨e, he, (same e (h.valid e he)).mp found⟩
  · rintro ⟨e, he, found⟩
    exact ⟨e, he, (same e (h.valid e he)).mpr found⟩

theorem groupIdExists_iff (h : Represents db entries) {gid : Str} (hgid : Word gid) :
    db.groupIdExists gid = true ↔ ∃ e ∈ entries, e.gid = gid := by
  rw [Databases.groupIdExists, hasField_iff hgid]
  exact h.exists_line_iff fun e he => by rw [he.cut_id]

theorem groupNameExists_iff (h : Represents db entries) {name : Str} (hname : Word name) :
    db.groupNameExists name = true ↔ ∃ e ∈ entries, e.name = name := by
  rw [Databases.groupNameExists, hasField_iff hname]
  exact h.exists_line_iff fun e he => by rw [he.cut_name]

/-- A group that has an id is found by it. -/
theorem getGroupName (h : Represents db entries) {gid : Str} (hgid : Word gid)
    (found : ∃ e ∈ entries, e.gid = gid) :
    ∃ e ∈ entries, e.gid = gid ∧ db.getGroupNameFromGroupId gid = e.name := by
  obtain ⟨e, he, same⟩ := found
  have somewhere : (db.group.find? (isMatch (":x:".toList ++ gid ++ ":".toList))).isSome := by
    rw [List.find?_isSome, h.lines]
    exact ⟨e.line, List.mem_map_of_mem he, ((h.valid e he).isMatch_id hgid).mpr same⟩
  obtain ⟨line, hline⟩ := Option.isSome_iff_exists.mp somewhere
  have member := List.mem_of_find?_eq_some hline
  rw [h.lines] at member
  obtain ⟨k, hk, rfl⟩ := List.mem_map.mp member
  refine ⟨k, hk, ((h.valid k hk).isMatch_id hgid).mp (List.find?_some hline), ?_⟩
  rw [Databases.getGroupNameFromGroupId, hline]
  exact (h.valid k hk).cut_name

theorem memberless_iff (h : Represents db entries) {gname : Str} (hgname : Word gname) :
    db.group.any (isMatch ('^' :: (gname ++ ":.*:$".toList))) = true ↔
      ∃ e ∈ entries, e.name = gname ∧ e.members = [] := by
  rw [List.any_eq_true]
  exact h.exists_line_iff fun e he => he.isMatch_memberless hgname

/-- What a change of the members of some groups does to the lines. -/
theorem patched (h : Represents db entries) {gname text : Str} (hgname : Word gname)
    {members : Entry → List Str}
    (line_eq : ∀ e ∈ entries, e.name = gname → (e.withMembers (members e)).line = e.line ++ text)
    (words : ∀ e ∈ entries, ∀ m ∈ members e, Word m) {group : List Str}
    (hpatch : sedPatch ('^' :: (gname ++ ":".toList)) text db.group = some group) :
    Represents { db with group := group }
      (entries.map fun e => if e.name = gname then e.withMembers (members e) else e) := by
  constructor
  · rw [sedPatch_eq hpatch, h.lines, List.map_map, List.map_map]
    refine List.map_congr_left fun e he => ?_
    have matched := (h.valid e he).isMatch_name hgname
    by_cases named : e.name = gname
    · simp only [Function.comp_apply, if_pos named, if_pos (matched.mpr named), line_eq e he named]
    · simp only [Function.comp_apply, if_neg named, if_neg fun found => named (matched.mp found)]
  · intro k hk
    obtain ⟨e, he, rfl⟩ := List.mem_map.mp hk
    split
    · exact (h.valid e he).withMembers (words e he)
    · exact h.valid e he

end Represents

section Specs

variable {echo : Echo} {db db' : Databases} {entries : List Entry}

/-- What `add_user_to_group` does. -/
theorem addUserToGroup_spec (h : Represents db entries) {uname gname : Str} (huname : Word uname)
    (hgname : Word gname) (hadd : addUserToGroup uname gname db = some db') :
    Represents db' (joinGroup uname gname entries) ∧ db'.passwd = db.passwd ∧
      ∃ e ∈ entries, e.name = gname := by
  unfold addUserToGroup at hadd
  split at hadd
  · cases hadd
  split at hadd
  · cases hadd
  next named =>
  have exists_name : ∃ e ∈ entries, e.name = gname :=
    (h.groupNameExists_iff hgname).mp (by simpa using named)
  obtain ⟨group, hpatch, rfl⟩ := Option.map_eq_some_iff.mp hadd
  refine ⟨?_, rfl, exists_name⟩
  by_cases memberless : ∃ e ∈ entries, e.name = gname ∧ e.members = []
  · rw [if_pos ((h.memberless_iff hgname).mpr memberless)] at hpatch
    rw [joinGroup, if_pos memberless]
    exact h.patched hgname (fun e _ _ => e.line_glueMember uname)
      (fun e he => words_glueMember huname (h.valid e he).members) hpatch
  · rw [if_neg fun found => memberless ((h.memberless_iff hgname).mp found)] at hpatch
    rw [joinGroup, if_neg memberless]
    refine h.patched hgname (fun e he named => ?_) (fun e he => ?_) hpatch
    · exact Entry.line_concat uname fun empty => memberless ⟨e, he, named, empty⟩
    · exact List.forall_mem_append.mpr ⟨(h.valid e he).members, by simpa using huname⟩

theorem head_ne_hyphen {s : Str} (h : isAccountName s = true) (t : Str) :
    (s ++ t).head? ≠ some '-' := by
  cases s with
  | nil => cases h
  | cons c s =>
      have first := (Bool.and_eq_true_iff.mp h).1
      intro hyphen
      obtain rfl : c = '-' := by simpa using hyphen
      exact absurd first (by decide)

theorem print_groupLine {name gid : Str} (hname : isAccountName name = true)
    (hgid : isNumber gid = true) :
    echo.print (groupLine name gid) = [groupLine name gid] := by
  have words := And.intro (word_of_isAccountName hname) (word_of_isNumber hgid)
  have clean : ∀ {d : Char}, isNameChar d = false → d ≠ ':' → d ≠ 'x' → d ∉ groupLine name gid := by
    intro d hd colon x
    show d ∉ name ++ [':', 'x', ':'] ++ gid ++ [':']
    simp [words.1.not_mem hd, words.2.not_mem hd, colon, x]
  have hyphen : (groupLine name gid).head? ≠ some '-' := by
    rw [groupLine, List.append_assoc, List.append_assoc]
    exact head_ne_hyphen hname _
  rw [echo.plain (clean (by decide) (by decide) (by decide)) hyphen,
    List.splitOn_eq_singleton (clean (by decide) (by decide) (by decide))]

/-- What `add_group` does. -/
theorem addGroup_spec (h : Represents db entries) {duplicateCheck : Bool} {name gid : Str}
    (hname : isAccountName name = true) (hgid : isNumber gid = true)
    (hadd : addGroup echo duplicateCheck name gid db = some db') :
    Represents db' (entries ++ [⟨name, gid, []⟩]) ∧ db'.passwd = db.passwd ∧
      (duplicateCheck = true → ∀ e ∈ entries, e.name ≠ name ∧ e.gid ≠ gid) := by
  unfold addGroup at hadd
  split at hadd
  · cases hadd
  next idFree =>
  split at hadd
  · cases hadd
  next nameFree =>
  obtain rfl := Option.some.inj hadd
  refine ⟨⟨?_, ?_⟩, rfl, ?_⟩
  · show db.group ++ echo.print (groupLine name gid) = _
    rw [print_groupLine hname hgid, h.lines, List.map_append]
    simp [Entry.line, Entry.memberList]
  · refine List.forall_mem_append.mpr ⟨h.valid, List.forall_mem_singleton.mpr ?_⟩
    exact ⟨hname, hgid, fun m hm => nomatch hm⟩
  · rintro rfl e he
    refine ⟨fun same => nameFree ?_, fun same => idFree ?_⟩
    · exact (h.groupNameExists_iff (word_of_isAccountName hname)).mpr ⟨e, he, same⟩
    · exact (h.groupIdExists_iff (word_of_isNumber hgid)).mpr ⟨e, he, same⟩

/-- What `add_user` does. -/
theorem addUser_spec (h : Represents db entries) {duplicateCheck : Bool}
    {name uid gid home passwordHash : Str} (hname : isAccountName name = true)
    (huid : isNumber uid = true) (hgid : isNumber gid = true)
    (hadd : addUser echo duplicateCheck name uid gid home passwordHash db = some db') :
    Represents db' entries ∧
      db'.passwd = db.passwd ++
        echo.print (passwdLine name uid gid (orDefault home "/dev/null".toList)) ∧
      (duplicateCheck = true → ∀ line ∈ db.passwd, cut ':' 1 line ≠ name ∧ cut ':' 3 line ≠ uid) ∧
      ∃ e ∈ entries, e.gid = gid := by
  unfold addUser at hadd
  dsimp only at hadd
  split at hadd
  · cases hadd
  next idFree =>
  split at hadd
  · cases hadd
  next nameFree =>
  split at hadd
  · cases hadd
  next groupKnown =>
  obtain rfl := Option.some.inj hadd
  refine ⟨⟨h.lines, h.valid⟩, rfl, ?_, ?_⟩
  · rintro rfl line hline
    refine ⟨fun same => nameFree ?_, fun same => idFree ?_⟩
    · exact (hasField_iff (word_of_isAccountName hname)).mpr ⟨line, hline, same⟩
    · exact (hasField_iff (word_of_isNumber huid)).mpr ⟨line, hline, same⟩
  · exact (h.groupIdExists_iff (word_of_isNumber hgid)).mp (by simpa using groupKnown)

end Specs

end Baseimage.Accounts
