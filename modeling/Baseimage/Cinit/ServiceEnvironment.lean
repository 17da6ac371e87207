import Baseimage.Cinit.LoadedTable
import Baseimage.Run.Cells

/-!
# The environment of a service

The child that becomes the program of a service puts the environment of the program together, in an
array on its stack. The variables of `environment` take the place of the inherited ones, those of
`environment_extra` are put behind the inherited ones. A program looks a variable up from the
front. So an extra variable is what a program finds only where nothing in front of it has its name;
next to `environment` the extra variables are not passed at all.
-/

namespace Baseimage.Cinit

/-! ## The child of `fork_and_exec` -/

/-- A cell of an array of strings. -/
inductive StringCell where
  /-- Nothing was written to it. -/
  | unset
  | null
  | string (s : Str)
  deriving DecidableEq, Repr

def StringCell.ofPointer : Option Str → StringCell
  | none => .null
  | some s => .string s

section Assembly

variable (environ : List Str) (environment : List (Option Str)) (extra : List Str)

/-- `environment_size`. -/
def environmentSize : Nat :=
  if environment.length > 0 then environment.length + 1
  else if extra.length > 0 then extra.length + environ.length + 1
  else 0

/-- The array passed to `execve`. -/
def passedEnvironment : Option (List StringCell) :=
  let size := environmentSize environ environment extra
  let array : List StringCell := List.replicate size .unset
  if environment.length > 0 then
    Cells.storeAll array 0 (environment.map .ofPointer) >>= fun array =>
      Cells.store array (size - 1) .null
  else if extra.length > 0 then
    Cells.storeAll array 0 (environ.map .string) >>= fun array =>
      Cells.storeAll array environ.length (extra.map .string) >>= fun array =>
        Cells.store array (size - 1) .null
  else some (environ.map .string ++ [.null])

end Assembly

/-- The strings before the first null pointer. There are none if the array is left, or a cell is
read that was not written. -/
def terminated : List StringCell → Option (List Str)
  | .string s :: cells => (terminated cells).map (s :: ·)
  | .null :: _ => some []
  | _ => none

/-! ## What the program sees -/

/-- The value that an entry gives a name. -/
def valueIn (name entry : Str) : Option Str :=
  match CString.strchr '=' entry with
  | none => none
  | some (key, value) => if name ≠ [] ∧ key = name then some value else none

/-- `getenv`: the first entry decides. -/
def getenv (name : Str) (entries : List Str) : Option Str := entries.findSome? (valueIn name)

/-- The value that the last entry for the name gives it. -/
def lastValue (name : Str) (entries : List Str) : Option Str :=
  entries.reverse.findSome? (valueIn name)

section Effective

variable (inherited : List Str) (environment : Option (List Str)) (extra : List Str)

/-- The variables the extra ones are added to. -/
def baseEnvironment : List Str := environment.getD inherited

/-- The value a name should have for the service. -/
def effectiveValue (name : Str) : Option Str :=
  lastValue name extra <|> getenv name (baseEnvironment inherited environment)

/-- The array is terminated and gives every name the value it should have. -/
def PassesEffective (passed : Option (List StringCell)) : Prop :=
  ∃ array entries, passed = some array ∧ terminated array = some entries ∧
    ∀ name, getenv name entries = effectiveValue inherited environment extra name

/-- Every name with an extra value has this value already, or it is passed behind the inherited
variables, none of which has the name, and no other extra value of it is in front. -/
def ExtrasFound : Prop :=
  ∀ name value, lastValue name extra = some value →
    getenv name (baseEnvironment inherited environment) = some value ∨
      environment = none ∧ getenv name inherited = none ∧ getenv name extra = some value

end Effective

/-! ## The array -/

theorem terminated_append (strings : List Str) (cells : List StringCell) :
    terminated (strings.map .string ++ .null :: cells) = some strings := by
  induction strings with
  | nil => rfl
  | cons s strings ih =>
      rw [List.map_cons, List.cons_append]
      show (terminated (strings.map .string ++ .null :: cells)).map (s :: ·) = _
      rw [ih]
      rfl

/-- An array with one place more than its pointers. -/
theorem passed_environment (environ : List Str) {environment : List (Option Str)} (extra : List Str)
    (present : environment.length > 0) :
    passedEnvironment environ environment extra =
      some (environment.map .ofPointer ++ [.null]) := by
  have size : environmentSize environ environment extra = environment.length + 1 := if_pos present
  have stored := Cells.storeAll_append [] [StringCell.unset]
    (List.replicate environment.length .unset) (environment.map .ofPointer) (by simp)
  have last := Cells.store_append (environment.map .ofPointer) [] StringCell.unset .null
  simp only [List.nil_append, List.length_nil, List.length_map] at stored last
  rw [passedEnvironment, size, if_pos present, List.replicate_succ', stored]
  exact last

theorem passed_extra (environ : List Str) {extra : List Str} (present : extra.length > 0) :
    passedEnvironment environ [] extra =
      some ((environ ++ extra).map .string ++ [.null]) := by
  have absent : ¬ ([] : List (Option Str)).length > 0 := Nat.lt_irrefl 0
  have size : environmentSize environ [] extra = environ.length + extra.length + 1 := by
    rw [environmentSize, if_neg absent, if_pos present, Nat.add_comm extra.length]
  have first := Cells.storeAll_append [] (List.replicate extra.length .unset ++ [StringCell.unset])
    (List.replicate environ.length .unset) (environ.map .string) (by simp)
  have second := Cells.storeAll_append (environ.map .string) [StringCell.unset]
    (List.replicate extra.length .unset) (extra.map .string) (by simp)
  have last := Cells.store_append (environ.map .string ++ extra.map .string) [] StringCell.unset
    .null
  simp only [List.nil_append, List.length_nil, List.length_map, List.length_append,
    List.append_assoc] at first second last
  rw [passedEnvironment, size, if_neg absent, if_pos present, List.replicate_succ',
    List.replicate_add, List.append_assoc, first]
  show (Cells.storeAll _ environ.length _ >>= _) = _
  rw [second, List.map_append, List.append_assoc]
  exact last

theorem passed_inherited (environ : List Str) :
    passedEnvironment environ [] [] = some (environ.map .string ++ [.null]) := rfl

/-! ## Looking variables up -/

/-- The entries that a program gets. -/
def passedEntries (inherited : List Str) (environment : Option (List Str)) (extra : List Str) :
    List Str :=
  match environment with
  | some list => list
  | none => inherited ++ extra

/-- The array is terminated within its length, and these entries are in it. -/
theorem passed_entries (inherited : List Str) (environment : Option (List Str))
    (extra : List Str) :
    ∃ array, passedEnvironment inherited (storedEnvironment environment) extra = some array ∧
      terminated array = some (passedEntries inherited environment extra) := by
  cases environment with
  | none =>
      cases extra with
      | nil =>
          refine ⟨_, passed_inherited inherited, ?_⟩
          rw [terminated_append, passedEntries, List.append_nil]
      | cons entry extra =>
          refine ⟨_, passed_extra inherited (Nat.zero_lt_succ _), ?_⟩
          exact terminated_append (inherited ++ entry :: extra) []
  | some list =>
      cases list with
      | nil => exact ⟨_, passed_environment inherited extra (Nat.zero_lt_succ 0), rfl⟩
      | cons entry list =>
          refine ⟨_, passed_environment inherited extra (Nat.zero_lt_succ _), ?_⟩
          show terminated (((entry :: list).map some).map .ofPointer ++ [.null]) =
            some (entry :: list)
          rw [List.map_map]
          exact terminated_append (entry :: list) []

section Lookup

variable {name : Str} {inherited extra : List Str} {environment : Option (List Str)}

theorem getenv_append (front back : List Str) :
    getenv name (front ++ back) = (getenv name front).or (getenv name back) :=
  List.findSome?_append ..

/-- A name with a last value has a first one. -/
theorem getenv_of_lastValue_eq_none (h : lastValue name extra = none) :
    getenv name extra = none := by
  rw [lastValue, List.findSome?_eq_none_iff] at h
  exact List.findSome?_eq_none_iff.mpr fun entry hentry => h entry (List.mem_reverse.mpr hentry)

theorem getenv_passedEntries_eq_some_iff {value : Str} :
    getenv name (passedEntries inherited environment extra) = some value ↔
      getenv name (baseEnvironment inherited environment) = some value ∨
        environment = none ∧ getenv name inherited = none ∧ getenv name extra = some value := by
  cases environment with
  | some list => simp [passedEntries, baseEnvironment]
  | none =>
      show getenv name (inherited ++ extra) = some value ↔ getenv name inherited = some value ∨ _
      rw [getenv_append]
      cases getenv name inherited <;> simp

/-- A name without an extra value. -/
theorem getenv_passedEntries_of_lastValue_eq_none (unset : lastValue name extra = none) :
    getenv name (passedEntries inherited environment extra) =
      getenv name (baseEnvironment inherited environment) := by
  cases environment with
  | some list => rfl
  | none =>
      show getenv name (inherited ++ extra) = getenv name inherited
      rw [getenv_append, getenv_of_lastValue_eq_none unset]
      cases getenv name inherited <;> rfl

end Lookup

theorem PassesEffective.extrasFound {inherited : List Str} {environment : Option (List Str)}
    {extra : List Str}
    (effective : PassesEffective inherited environment extra
      (passedEnvironment inherited (storedEnvironment environment) extra)) :
    ExtrasFound inherited environment extra := by
  intro name value set
  obtain ⟨array, passed, entries⟩ := passed_entries inherited environment extra
  obtain ⟨array', entries', passed', terminated', found⟩ := effective
  cases passed.symm.trans passed'
  cases entries.symm.trans terminated'
  refine getenv_passedEntries_eq_some_iff.mp ?_
  rw [found, effectiveValue, set]
  rfl

/-- A service gets the environment it should have exactly when each of its extra variables is what a
program finds. -/
theorem passesEffective_iff (inherited : List Str) (environment : Option (List Str))
    (extra : List Str) :
    PassesEffective inherited environment extra
        (passedEnvironment inherited (storedEnvironment environment) extra) ↔
      ExtrasFound inherited environment extra := by
  refine ⟨PassesEffective.extrasFound, fun extras => ?_⟩
  obtain ⟨array, passed, entries⟩ := passed_entries inherited environment extra
  refine ⟨array, _, passed, entries, fun name => ?_⟩
  rw [effectiveValue]
  cases set : lastValue name extra with
  | none => exact getenv_passedEntries_of_lastValue_eq_none set
  | some value => exact getenv_passedEntries_eq_some_iff.mpr (extras name value set)

/-- An inherited variable hides an extra one of the same name, and `environment` hides them all. -/
theorem extras_hidden :
    ¬ PassesEffective ["HOME=/root".toList] none ["HOME=/config".toList]
        (passedEnvironment ["HOME=/root".toList] (storedEnvironment none)
          ["HOME=/config".toList]) ∧
      ¬ PassesEffective [] (some ["A=1".toList]) ["B=2".toList]
        (passedEnvironment [] (storedEnvironment (some ["A=1".toList])) ["B=2".toList]) := by
  constructor
  · intro effective
    exact absurd (effective.extrasFound "HOME".toList "/config".toList rfl) (by decide)
  · intro effective
    exact absurd (effective.extrasFound "B".toList "2".toList rfl) (by decide)

/-- An entry that `load_service` has filled gets its environment so from the two files. -/
theorem loadSettings_passes {sys : System} {defaults : ServiceDefaults} {dir : ServiceDir}
    {stack : Str → Str} {name : Str} {srv : Service} (settings : ¬ SkipsSettings sys dir stack)
    (loaded : loadSettings sys defaults dir stack name = .ok srv) (inherited : List Str) :
    ∃ environment extra : Option (List Str),
      loadList sys "environment".toList (dir.lookup "environment".toList) maxNumServiceEnvVars
          "too much environment variables".toList (acceptVariable sys) [] = .ok environment ∧
        loadList sys "environment_extra".toList (dir.lookup "environment_extra".toList)
          maxNumServiceEnvVars "too much environment variables".toList (acceptVariable sys) [] =
            .ok extra ∧
        ∃ array, passedEnvironment inherited srv.environment srv.environmentExtra = some array ∧
          terminated array = some (passedEntries inherited environment (extra.getD [])) := by
  obtain ⟨environment, extra, groups, lists⟩ := loadSettings_lists settings srv loaded
  refine ⟨environment, extra, lists.readEnvironment, lists.readExtra, ?_⟩
  rw [lists.environment, lists.environmentExtra]
  exact passed_entries inherited environment (extra.getD [])

end Baseimage.Cinit
