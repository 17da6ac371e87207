import Baseimage.Text.CString

/-!
# Shell variables

A variable has a value and may be exported. The environment of a program that the shell executes
are the exported variables. A shell begins with the variables of its environment, which are
exported, and with variables that it sets itself, such as `IFS`. An assignment leaves the export
attribute of a variable that is set as it is, so an imported variable that is assigned to changes in
the environment as well. Of several assignments the last one counts.
-/

namespace Shell

def isNameStart (c : Char) : Bool :=
  ('a' ≤ c && c ≤ 'z') || ('A' ≤ c && c ≤ 'Z') || c == '_'

def isNameChar (c : Char) : Bool := isNameStart c || ('0' ≤ c && c ≤ '9')

theorem digit_not_isNameStart {c : Char} (h : '0' ≤ c ∧ c ≤ '9') : isNameStart c = false := by
  simp only [isNameStart, Bool.or_eq_false_iff, Bool.and_eq_false_iff, decide_eq_false_iff_not,
    Char.le_def, beq_eq_false_iff_ne, UInt32.le_iff_toNat_le] at h ⊢
  have hc : c.val.toNat ≤ 57 := h.2
  refine ⟨⟨.inl ?_, .inl ?_⟩, ?_⟩
  · show ¬ 97 ≤ c.val.toNat
    omega
  · show ¬ 65 ≤ c.val.toNat
    omega
  · rintro rfl
    exact absurd hc (by decide)

/-- A name of a variable. -/
def Identifier (name : Str) : Prop :=
  (name.head?.map isNameStart).getD false = true ∧ name.all isNameChar = true

instance (name : Str) : Decidable (Identifier name) := inferInstanceAs (Decidable (_ ∧ _))

theorem Identifier.ne_nil {name : Str} (h : Identifier name) : name ≠ [] := by
  rintro rfl
  exact absurd h.1 (by decide)

structure Variable where
  value : Str
  exported : Bool
  deriving DecidableEq, Repr

/-- The variables that are set. -/
abbrev Variables := Str → Option Variable

/-- A variable of the environment. -/
def Variable.ofEnv (value : Str) : Variable := { value := value, exported := true }

namespace Variables

/-- `name=value`. -/
def assign (vars : Variables) (name value : Str) : Variables := fun n =>
  if n = name then
    some { value := value, exported := ((vars name).map Variable.exported).getD false }
  else vars n

/-- `export name=value`. -/
def exportAs (vars : Variables) (name value : Str) : Variables := fun n =>
  if n = name then some (Variable.ofEnv value) else vars n

/-- `${name}`; empty when the variable is not set. -/
def value (vars : Variables) (name : Str) : Str := ((vars name).map Variable.value).getD []

/-- What an executed program finds in its environment. -/
def environment (vars : Variables) : Str → Option Str := fun n =>
  (vars n).bind fun x => if x.exported then some x.value else none

variable (vars : Variables)

@[simp] theorem assign_same (name value : Str) :
    vars.assign name value name =
      some { value := value, exported := ((vars name).map Variable.exported).getD false } := by
  simp [assign]

theorem assign_other {n name : Str} (h : n ≠ name) (value : Str) :
    vars.assign name value n = vars n := by
  simp [assign, h]

@[simp] theorem exportAs_same (name value : Str) :
    vars.exportAs name value name = some (Variable.ofEnv value) := by
  simp [exportAs]

theorem exportAs_other {n name : Str} (h : n ≠ name) (value : Str) :
    vars.exportAs name value n = vars n := by
  simp [exportAs, h]

@[simp] theorem value_assign_same (name v : Str) : (vars.assign name v).value name = v := by
  simp [Variables.value]

theorem value_assign_other {n name : Str} (h : n ≠ name) (v : Str) :
    (vars.assign name v).value n = vars.value n := by
  simp [Variables.value, assign_other vars h]

@[simp] theorem value_exportAs_same (name v : Str) : (vars.exportAs name v).value name = v := by
  simp [Variables.value, Variable.ofEnv]

theorem value_exportAs_other {n name : Str} (h : n ≠ name) (v : Str) :
    (vars.exportAs name v).value n = vars.value n := by
  simp [Variables.value, exportAs_other vars h]

variable {vars}

/-- A variable behind some assignments to it, of which the last one is given, if there was one. -/
def reassign (x : Option Variable) : Option Str → Option Variable
  | some v => some { value := v, exported := (x.map Variable.exported).getD false }
  | none => x

theorem assign_eq_reassign (vars : Variables) (name v n : Str) :
    vars.assign name v n = reassign (vars n) (if n = name then some v else none) := by
  by_cases same : n = name
  · rw [same, assign_same, if_pos rfl, reassign]
  · rw [assign_other vars same, if_neg same, reassign]

theorem reassign_reassign (x : Option Variable) (first last : Option Str) :
    reassign (reassign x first) last = reassign x (last <|> first) := by
  cases last with
  | none => rfl
  | some v => cases first <;> rfl

theorem isSome_reassign (x : Option Variable) (last : Option Str) :
    (reassign x last).isSome = (last.isSome || x.isSome) := by
  cases last <;> rfl

/-- What a program finds of a variable that was assigned to. -/
theorem environment_eq_some_iff {n value : Str} {x : Option Variable} {last : Option Str}
    (h : vars n = reassign x last) : vars.environment n = some value ↔
      ∃ begun, x = some (Variable.ofEnv begun) ∧ last.getD begun = value := by
  rw [environment, h]
  obtain _ | ⟨begun, exported⟩ := x
  · cases last <;> simp [reassign]
  · cases exported <;> cases last <;> simp [reassign, Variable.ofEnv]

theorem value_of_environment {n value : Str} (h : vars.environment n = some value) :
    vars.value n = value := by
  rw [environment] at h
  obtain ⟨x, given, exported⟩ := Option.bind_eq_some_iff.mp h
  obtain ⟨-, same⟩ := Option.ite_none_right_eq_some.mp exported
  obtain rfl := Option.some.inj same
  rw [Variables.value, given]
  rfl

/-- The variable was exported. -/
theorem environment_of_exported {n x : Str} {last : Option Str}
    (h : vars n = reassign (some (Variable.ofEnv x)) last) :
    vars.environment n = some (last.getD x) :=
  (environment_eq_some_iff h).mpr ⟨x, rfl, rfl⟩

/-- The variable was not set. -/
theorem environment_of_unset {n : Str} {last : Option Str} (h : vars n = reassign none last) :
    vars.environment n = none := by
  rw [environment, h]
  cases last <;> rfl

end Variables

/-- The variables a shell begins with in an environment. Those of the environment are exported, with
the values they have there or, as `IFS`, with values of the shell's own. `HOME` is left alone. -/
structure Beginning where
  vars : (Str → Option Str) → Variables
  exports : ∀ env n, Identifier n → env n ≠ none → ∃ x, vars env n = some (Variable.ofEnv x)
  home : ∀ env, vars env "HOME".toList = (env "HOME".toList).map Variable.ofEnv

end Shell
