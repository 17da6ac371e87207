import Baseimage.Accounts.Run

/-!
# The grammar of account names

A name is documented to begin with a letter or an underscore, followed by letters, digits,
underscores and hyphens. The pattern that checks this is one of the shell, where `*` stands for any
text and does not repeat what is before it: it asks for two such characters and accepts everything
behind them.
-/

namespace Baseimage.Accounts

open Filters

/-! ## Patterns of the shell -/

/-- A part of a pattern of `case`. -/
inductive Glob where
  /-- A bracket expression. -/
  | one (characters : Char → Bool)
  | star

/-- The whole text is matched. -/
def globMatch : List Glob → Str → Bool
  | [], s => s.isEmpty
  | .one _ :: _, [] => false
  | .one characters :: glob, c :: s => characters c && globMatch glob s
  | .star :: glob, s => s.tails.any (globMatch glob)

theorem globMatch_star (s : Str) : globMatch [.star] s = true := by
  rw [globMatch, List.any_eq_true]
  exact ⟨[], (List.mem_tails _ _).mpr List.nil_suffix, rfl⟩

/-- `'' | [a-z_][a-z0-9_-]*` -/
theorem userNameValid_eq (name : Str) :
    userNameValid name =
      (name.isEmpty || globMatch [.one isNameStart, .one isNameChar, .star] name) := by
  match name with
  | [] => rfl
  | [c] => simp [userNameValid, globMatch]
  | c :: d :: s =>
      show _ = (isNameStart c && (isNameChar d && globMatch [.star] s))
      rw [globMatch_star, Bool.and_true]
      rfl

/-! ## Names and lines -/

/-- The check of a name is that of the grammar, and the lines written for a name that passes have
the fields they are meant to have. -/
structure NameChecked (name : Str) : Prop where
  user : userNameValid name = true ↔ isAccountName name = true
  group : groupNameValid name = true ↔ isAccountName name = true
  groupLines : ∀ (echo : Echo) (duplicateCheck : Bool) (gid : Str) (db db' : Databases),
    groupNameValid name = true → groupIdValid gid = true →
    addGroup echo duplicateCheck name gid db = some db' →
    ∃ line, db'.group = db.group ++ [line] ∧ line.splitOn ':' = [name, ['x'], gid, []]
  passwdLines : ∀ (echo : Echo) (duplicateCheck : Bool) (uid gid home passwordHash : Str)
      (db db' : Databases),
    userNameValid name = true → userIdValid uid = true → groupIdValid gid = true →
    addUser echo duplicateCheck name uid gid home passwordHash db = some db' →
    ∃ line rest, db'.passwd = db.passwd ++ line :: rest ∧
      [name, ['x'], uid, gid] <+: line.splitOn ':'

/-- The name has more than one character, or is not of the grammar; and behind two characters that
the pattern asks for, there are no others. -/
def PatternSuffices : Str → Prop
  | [] => True
  | [c] => isNameStart c = false
  | c :: d :: s => (isNameStart c && isNameChar d) = true → s.all isNameChar = true

theorem userNameValid_iff {name : Str} (nonempty : name ≠ []) :
    (userNameValid name = true ↔ isAccountName name = true) ↔ PatternSuffices name := by
  match name with
  | [] => exact absurd rfl nonempty
  | [c] => simp [userNameValid, isAccountName, PatternSuffices]
  | c :: d :: s =>
      simp only [userNameValid, isAccountName, PatternSuffices, List.all_cons, Bool.and_eq_true]
      constructor
      · exact fun same accepted => (same.mp accepted).2.2
      · exact fun rest => ⟨fun accepted => ⟨accepted.1, accepted.2, rest accepted⟩,
          fun name => ⟨name.1, name.2.1⟩⟩

theorem addGroup_lines {echo : Echo} {duplicateCheck : Bool} {name gid : Str} {db db' : Databases}
    (hname : isAccountName name = true) (hgid : isNumber gid = true)
    (hadd : addGroup echo duplicateCheck name gid db = some db') :
    ∃ line, db'.group = db.group ++ [line] ∧ line.splitOn ':' = [name, ['x'], gid, []] := by
  unfold addGroup at hadd
  split at hadd
  · cases hadd
  split at hadd
  · cases hadd
  · obtain rfl := Option.some.inj hadd
    refine ⟨groupLine name gid, congrArg _ (print_groupLine hname hgid), ?_⟩
    have spelled : groupLine name gid = name ++ ':' :: (['x'] ++ ':' :: (gid ++ ':' :: [])) := by
      show name ++ [':', 'x', ':'] ++ gid ++ [':'] = _
      simp
    rw [spelled, List.splitOn_append_cons_self_of_not_mem (word_of_isAccountName hname).no_colon,
      List.splitOn_append_cons_self_of_not_mem (by decide),
      List.splitOn_append_cons_self_of_not_mem (word_of_isNumber hgid).no_colon]
    rfl

theorem addUser_lines {echo : Echo} {duplicateCheck : Bool} {name uid gid home passwordHash : Str}
    {db db' : Databases} (hname : isAccountName name = true) (huid : isNumber uid = true)
    (hgid : isNumber gid = true)
    (hadd : addUser echo duplicateCheck name uid gid home passwordHash db = some db') :
    ∃ line rest, db'.passwd = db.passwd ++ line :: rest ∧
      [name, ['x'], uid, gid] <+: line.splitOn ':' := by
  unfold addUser at hadd
  dsimp only at hadd
  split at hadd
  · cases hadd
  split at hadd
  · cases hadd
  split at hadd
  · cases hadd
  · obtain rfl := Option.some.inj hadd
    obtain ⟨more, rest, printed⟩ :=
      passwdLine_begins echo hname huid hgid (orDefault home "/dev/null".toList)
    refine ⟨_, rest, congrArg _ printed, ?_⟩
    rw [List.splitOn_append_cons_self_of_not_mem (word_of_isAccountName hname).no_colon,
      List.splitOn_append_cons_self_of_not_mem (by decide),
      List.splitOn_append_cons_self_of_not_mem (word_of_isNumber huid).no_colon,
      List.splitOn_append_cons_self_of_not_mem (word_of_isNumber hgid).no_colon]
    exact List.prefix_append [name, ['x'], uid, gid] (more.splitOn ':')

/-- The check does what is documented exactly for these names. -/
theorem nameChecked_iff {name : Str} (nonempty : name ≠ []) :
    NameChecked name ↔ PatternSuffices name := by
  refine ⟨fun checked => (userNameValid_iff nonempty).mp checked.user, fun suffices_pattern => ?_⟩
  have same := (userNameValid_iff nonempty).mpr suffices_pattern
  exact
    { user := same
      group := same
      groupLines := fun echo dup gid db db' accepted number hadd =>
        addGroup_lines (same.mp accepted) number hadd
      passwdLines := fun echo dup uid gid home hash db db' accepted huid hgid hadd =>
        addUser_lines (same.mp accepted) huid hgid hadd }

theorem nameChecked_app : NameChecked app := (nameChecked_iff (by decide)).mpr fun _ => rfl

/-- A name with a colon is accepted. -/
theorem not_nameChecked_colon :
    ¬ ∀ name : Str, name ≠ [] → Char.ofNat 0 ∉ name → NameChecked name := by
  intro claim
  have accepted : userNameValid "ab:c".toList = true := rfl
  exact absurd ((claim _ (by decide) (by decide)).user.mp accepted) (by decide)

/-- Its line has a field more. -/
example : (groupLine "ab:c".toList "5".toList).splitOn ':' =
    ["ab".toList, "c".toList, "x".toList, "5".toList, []] := by decide

/-- A name of one character is refused. -/
example : userNameValid ['a'] = false ∧ isAccountName ['a'] = true := by decide

end Baseimage.Accounts
