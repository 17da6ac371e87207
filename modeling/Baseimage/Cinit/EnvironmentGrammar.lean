import Baseimage.Cinit.LoadedTable
import Baseimage.Cinit.Splitting
import Baseimage.Shell.Variables

/-!
# The grammar of `environment` and `environment_extra`

Both files hold one variable a line, `NAME=VALUE`, where `NAME` is an identifier. The lines are
checked one by one: there must be an `=`, the line must not begin with a digit, and what is in front
of the first `=` must be letters, digits and underscores. This is also true of a line that begins
with `=`, so a variable without a name is accepted.
-/

namespace Baseimage.Cinit

open CString

/-- `NAME=VALUE`. -/
def WellFormed (line : Str) : Prop :=
  ∃ name value, line = name ++ '=' :: value ∧ Shell.Identifier name

/-- The non-empty lines of a text, after the removal of carriage returns, trimming and splitting. -/
def environmentLines (buf : Str) : List Str :=
  (split '\n' (trim (removeAllChar '\r' buf))).filter fun line => line ≠ []

/-- The text has at most 32 lines, and all are well formed. -/
def InGrammar (buf : Str) : Prop :=
  (environmentLines buf).length ≤ maxNumServiceEnvVars ∧
    ∀ line ∈ environmentLines buf, WellFormed line

/-- The loading of one of the two files. -/
def loadEnvironment (sys : System) (filepath : Str) (node : Option Node) :
    Outcome Str (Option (List Str)) :=
  loadList sys filepath node maxNumServiceEnvVars "too much environment variables".toList
    (acceptVariable sys) []

/-- The file is accepted exactly when its text is in the grammar, and what is stored then are its
lines. An environment without a line is recorded by a null pointer. -/
structure FollowsGrammar (sys : System) (filepath : Str) (node : Option Node) (buf : Str) :
    Prop where
  accepts : (∃ list, loadEnvironment sys filepath node = .ok list) ↔ InGrammar buf
  stores : ∀ list, loadEnvironment sys filepath node = .ok list → list = some (environmentLines buf)
  records : ∀ list, loadEnvironment sys filepath node = .ok list →
    storedEnvironment list =
      if environmentLines buf = [] then [none] else (environmentLines buf).map some

/-- A variable has no name, and nothing else is wrong with the text. -/
def OnlyNamesMissing (buf : Str) : Prop :=
  (environmentLines buf).length ≤ maxNumServiceEnvVars ∧
    (∃ line ∈ environmentLines buf, line.head? = some '=') ∧
    ∀ line ∈ environmentLines buf, line.head? = some '=' ∨ WellFormed line

/-! ## The check of a line -/

theorem isdigit_iff {c : Char} : isdigit c = true ↔ '0' ≤ c ∧ c ≤ '9' := by
  simp only [isdigit, Bool.and_eq_true, decide_eq_true_eq, Char.le_def, UInt32.le_iff_toNat_le]
  rfl

theorem isNameChar_iff {c : Char} : Shell.isNameChar c = true ↔ (isalnum c || c == '_') = true := by
  have below (a b : Char) : a ≤ b ↔ a.toNat ≤ b.toNat := by
    rw [Char.le_def, UInt32.le_iff_toNat_le]
    rfl
  simp only [Shell.isNameChar, Shell.isNameStart, isalnum, isdigit, below, Bool.or_eq_true,
    Bool.and_eq_true, decide_eq_true_eq]
  grind

theorem isNameStart_iff {c : Char} :
    Shell.isNameStart c = true ↔ Shell.isNameChar c = true ∧ isdigit c = false := by
  cases digit : isdigit c with
  | true =>
      have notStart := Shell.digit_not_isNameStart (isdigit_iff.mp digit)
      simp [notStart]
  | false =>
      have notDigit : ¬ ('0' ≤ c ∧ c ≤ '9') := fun h => by
        rw [isdigit_iff.mpr h] at digit
        cases digit
      simp only [Shell.isNameChar, Bool.or_eq_true, Bool.and_eq_true, decide_eq_true_eq]
      tauto

/-- The name of a well-formed line ends at the first `=`. -/
theorem wellFormed_iff {line : Str} :
    WellFormed line ↔
      ∃ name value, strchr '=' line = some (name, value) ∧ Shell.Identifier name := by
  constructor
  · rintro ⟨name, value, rfl, identifier⟩
    refine ⟨name, value, strchr_append_cons (fun h => ?_) value, identifier⟩
    exact absurd (List.all_eq_true.mp identifier.2 '=' h) (by decide)
  · rintro ⟨name, value, found, identifier⟩
    exact ⟨name, value, (strchr_eq_some found).1, identifier⟩

/-- An identifier is a non-empty name of the right characters that does not begin with a digit. -/
theorem identifier_iff {name : Str} :
    Shell.Identifier name ↔ name ≠ [] ∧ (name.head?.map isdigit).getD false = false ∧
      name.all (fun c => isalnum c || c == '_') = true := by
  cases name with
  | nil => simp [Shell.Identifier]
  | cons c name =>
      simp only [Shell.Identifier, List.head?_cons, Option.map_some, Option.getD_some,
        isNameStart_iff, List.all_eq_true, isNameChar_iff, ne_eq, reduceCtorEq, not_false_eq_true,
        true_and, List.forall_mem_cons]
      tauto

/-- The check lets lines through that are well formed or begin with the `=`. -/
theorem checkVariable_eq_ok_iff {line : Str} :
    checkVariable line = .ok () ↔ line.head? = some '=' ∨ WellFormed line := by
  rw [checkVariable, wellFormed_iff]
  cases found : strchr '=' line with
  | none =>
      have noEquals := strchr_eq_none_iff.mp found
      refine iff_of_false (throwMessage_ne_ok _ _) ?_
      rintro (head | ⟨name, value, impossible, -⟩)
      · exact noEquals (List.mem_of_mem_head? head)
      · cases impossible
  | some parts =>
      obtain ⟨name, value⟩ := parts
      obtain ⟨rfl, before⟩ := strchr_eq_some found
      dsimp only
      cases name with
      | nil => exact iff_of_true rfl (.inl rfl)
      | cons c name =>
          have head : (c :: name ++ '=' :: value).head? ≠ some '=' := by
            intro same
            exact before (Option.some.inj same ▸ List.mem_cons_self)
          rw [or_iff_right head]
          have named : (∃ name' value', some (c :: name, value) = some (name', value') ∧
              Shell.Identifier name') ↔ Shell.Identifier (c :: name) := by
            constructor
            · rintro ⟨_, _, ⟨⟩, identifier⟩
              exact identifier
            · exact fun identifier => ⟨_, _, rfl, identifier⟩
          rw [named, identifier_iff, and_iff_right (List.cons_ne_nil c name)]
          show (if isdigit c = true then _ else _) = Outcome.ok () ↔ isdigit c = false ∧ _
          cases isdigit c with
          | true => simp
          | false =>
              rw [if_neg Bool.false_ne_true, and_iff_right rfl]
              split
              · next valid => exact iff_of_true rfl valid
              · next invalid => exact iff_of_false (throwMessage_ne_ok _ _) invalid

/-! ## The lines of a file -/

section Lines

theorem acceptLines_variables_iff {sys : System} (memory : ∀ size, sys.malloc size = true)
    (lines list longer : List Str) :
    acceptLines (acceptVariable sys) lines list = .ok longer ↔
      (∀ line ∈ lines.filter (fun line => line ≠ []), checkVariable line = .ok ()) ∧
        longer = list ++ lines.filter fun line => line ≠ [] := by
  induction lines generalizing list with
  | nil => simp [acceptLines, eq_comm]
  | cons line lines ih =>
      rw [acceptLines]
      by_cases empty : line = []
      · rw [if_neg (by simp [empty]), List.filter_cons_of_neg (by simp [empty])]
        exact ih list
      · rw [if_pos (List.length_pos_iff.mpr empty), List.filter_cons_of_pos (by simp [empty]),
          List.forall_mem_cons, acceptVariable]
        cases checked : checkVariable line with
        | ok _ =>
            have stored : strdup sys line = .ok line := if_pos (memory _)
            rw [Outcome.ok_bind, stored, Outcome.ok_bind, Outcome.ok_bind, ih, List.append_assoc,
              List.singleton_append]
            simp
        | threw message => simp
        | aborted => simp

theorem handle_throwMessage_eq_ok_iff {α : Type} {x : Outcome Str α} {message : Str → Str} {a : α} :
    x.handle (fun text => throwMessage (message text)) = .ok a ↔ x = .ok a := by
  cases x with
  | ok b => exact Iff.rfl
  | threw text => exact iff_of_false (throwMessage_ne_ok _ _) nofun
  | aborted => exact Iff.rfl

end Lines

theorem head?_trim_ne (s : Str) {c : Char} (space : isspace c = true) :
    (trim s).head? ≠ some c := by
  intro head
  have first := List.head?_dropWhile_not isspace (s.rdropWhile isspace)
  rw [trim] at head
  rw [head] at first
  exact absurd space (by simpa using first)

/-- Trimming leaves no empty line in front, so there is an empty one only in an empty text. -/
theorem environmentLines_eq (buf : Str) :
    environmentLines buf = segments '\n' (trim (removeAllChar '\r' buf)) := by
  have all : (segments '\n' (trim (removeAllChar '\r' buf))).filter (fun line => line ≠ []) =
      segments '\n' (trim (removeAllChar '\r' buf)) :=
    List.filter_eq_self.mpr fun line hline => (List.mem_filter.mp hline).2
  rw [environmentLines, split_eq, List.filter_append, all]
  have none : (emptyToken '\n' (trim (removeAllChar '\r' buf))).filter
    (fun line => line ≠ []) = [] := by
    rw [emptyToken]
    split <;> rfl
  rw [none, List.nil_append]

theorem storedEnvironment_some (lines : List Str) :
    storedEnvironment (some lines) = if lines = [] then [none] else lines.map some := by
  cases lines with
  | nil => rfl
  | cons line lines => rfl

theorem length_split_le_iff (buf : Str) :
    (split '\n' (trim (removeAllChar '\r' buf))).length ≤ maxNumServiceEnvVars ↔
      (environmentLines buf).length ≤ maxNumServiceEnvVars := by
  rw [environmentLines_eq, split_eq, emptyToken]
  split
  · next lead =>
      have empty := lead.resolve_right (head?_trim_ne _ (by decide))
      rw [empty]
      decide
  · rw [List.nil_append]

/-- What is loaded, when there is a text and memory for it. -/
theorem loadEnvironment_eq_ok_iff {sys : System} (memory : ∀ size, sys.malloc size = true)
    {filepath : Str} {node : Option Node} {found : Bool} {buf : Str}
    (read : loadValueAsString sys filepath node none 0 = .ok (found, some buf))
    {list : Option (List Str)} :
    loadEnvironment sys filepath node = .ok list ↔
      ((environmentLines buf).length ≤ maxNumServiceEnvVars ∧
        ∀ line ∈ environmentLines buf, line.head? = some '=' ∨ WellFormed line) ∧
        list = some (environmentLines buf) := by
  rw [loadEnvironment, loadList, read, Outcome.ok_bind]
  dsimp only
  rw [handle_throwMessage_eq_ok_iff, Outcome.bind_eq_ok_iff, memory, if_neg Bool.noConfusion]
  by_cases few : (split '\n' (trim (removeAllChar '\r' buf))).length > maxNumServiceEnvVars
  · rw [if_pos few]
    refine iff_of_false ?_ ?_
    · rintro ⟨lines, thrown, -⟩
      exact throwMessage_ne_ok _ _ thrown
    · rintro ⟨⟨fits, -⟩, -⟩
      exact absurd ((length_split_le_iff buf).mpr fits) (Nat.not_le.mpr few)
  · have fits := (length_split_le_iff buf).mp (Nat.not_lt.mp few)
    rw [if_neg few, and_iff_right fits]
    simp only [acceptLines_variables_iff memory, checkVariable_eq_ok_iff, List.nil_append]
    constructor
    · rintro ⟨lines, ⟨checked, rfl⟩, ⟨⟩⟩
      exact ⟨checked, rfl⟩
    · rintro ⟨checked, rfl⟩
      exact ⟨_, ⟨checked, rfl⟩, rfl⟩

/-- A well-formed line does not begin with `=`. -/
theorem WellFormed.head?_ne {line : Str} (h : WellFormed line) : line.head? ≠ some '=' := by
  obtain ⟨name, value, rfl, identifier⟩ := h
  obtain ⟨c, name, rfl⟩ := List.exists_cons_of_ne_nil identifier.ne_nil
  intro same
  have start : Shell.isNameStart c = true := identifier.1
  rw [show c = '=' from Option.some.inj same] at start
  exact absurd start (by decide)

/-- Both files are accepted and stored as their grammar says, except for a text in which only the
names of variables are missing: it is accepted. -/
theorem followsGrammar_iff {sys : System} (memory : ∀ size, sys.malloc size = true) (filepath : Str)
    {node : Option Node} {found : Bool} {buf : Str}
    (read : loadValueAsString sys filepath node none 0 = .ok (found, some buf)) :
    FollowsGrammar sys filepath node buf ↔ ¬ OnlyNamesMissing buf := by
  have loads {list : Option (List Str)} : loadEnvironment sys filepath node = .ok list ↔
      ((environmentLines buf).length ≤ maxNumServiceEnvVars ∧
        ∀ line ∈ environmentLines buf, line.head? = some '=' ∨ WellFormed line) ∧
        list = some (environmentLines buf) :=
    loadEnvironment_eq_ok_iff memory read
  constructor
  · rintro follows ⟨few, ⟨line, hline, nameless⟩, lax⟩
    have accepted : ∃ list, loadEnvironment sys filepath node = .ok list :=
      ⟨_, loads.mpr ⟨⟨few, lax⟩, rfl⟩⟩
    exact ((follows.accepts.mp accepted).2 line hline).head?_ne nameless
  · intro named
    refine
      { accepts := ⟨?_, ?_⟩
        stores := fun list accepted => (loads.mp accepted).2
        records := fun list accepted => ?_ }
    · rintro ⟨list, accepted⟩
      obtain ⟨⟨few, lax⟩, -⟩ := loads.mp accepted
      refine ⟨few, fun line hline => (lax line hline).resolve_left fun nameless => ?_⟩
      exact named ⟨few, ⟨line, hline, nameless⟩, lax⟩
    · rintro ⟨few, formed⟩
      exact ⟨_, loads.mpr ⟨⟨few, fun line hline => .inr (formed line hline)⟩, rfl⟩⟩
    · rw [(loads.mp accepted).2, storedEnvironment_some]

/-- The two lines of a file, with carriage returns and an empty line between them. -/
theorem followsGrammar_iff_variables :
    FollowsGrammar plainSystem "environment".toList
      (some (.file "A=1\r\n\r\nB_2=x=y\r\n".toList)) "A=1\r\n\r\nB_2=x=y\r\n".toList :=
  (followsGrammar_iff (fun _ => rfl) "environment".toList (by rfl)).mpr fun missing =>
    absurd missing.2.1 (by decide +kernel)

/-- A variable without a name is accepted. -/
theorem nameless_accepted :
    ¬ FollowsGrammar plainSystem "environment".toList (some (.file "=value".toList))
        "=value".toList ∧
      loadEnvironment plainSystem "environment".toList (some (.file "=value".toList)) =
        .ok (some ["=value".toList]) := by
  have accepted : loadEnvironment plainSystem "environment".toList (some (.file "=value".toList)) =
      .ok (some ["=value".toList]) := by decide +kernel
  refine ⟨fun follows => ?_, accepted⟩
  have formed := (follows.accepts.mp ⟨_, accepted⟩).2 "=value".toList (by decide +kernel)
  exact formed.head?_ne rfl

/-- The entry of a service holds what the two files were loaded to. A text without any line is an
environment without variables. -/
theorem loadSettings_environments {sys : System} {defaults : ServiceDefaults} {dir : ServiceDir}
    {stack : Str → Str} {name : Str} {srv : Service} (settings : ¬ SkipsSettings sys dir stack)
    (loaded : loadSettings sys defaults dir stack name = .ok srv) :
    ∃ environment extra,
      loadEnvironment sys "environment".toList (dir.lookup "environment".toList) =
          .ok environment ∧
        loadEnvironment sys "environment_extra".toList (dir.lookup "environment_extra".toList) =
          .ok extra ∧
        srv.environment = storedEnvironment environment ∧ srv.environmentExtra = extra.getD [] := by
  obtain ⟨environment, extra, groups, lists⟩ := loadSettings_lists settings srv loaded
  exact ⟨environment, extra, lists.readEnvironment, lists.readExtra, lists.environment,
    lists.environmentExtra⟩

end Baseimage.Cinit
