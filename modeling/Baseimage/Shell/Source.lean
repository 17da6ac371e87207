import Baseimage.Shell.Variables

/-!
# Sourcing a file of export commands

A shell that sources a file reads it character by character. The reader here knows commands of the
form `export name=word`, whose word may have parts in double quotes. In quotes a `$` begins an
expansion, a backslash protects the characters that have a meaning there, and everything else,
line feeds included, stands for itself. The reader gives up where the text does something else:
another command, a substitution, an unquoted character with a meaning. Special parameters are
variables whose name is their character.
-/

namespace Shell

/-- Where in a command the reader is. -/
inductive Mode where
  | command (text : Str)
  | plain
  | quoted
  | escaped
  | dollar
  | parameter (name : Str)
  deriving DecidableEq, Repr

structure Reader where
  vars : Variables
  mode : Mode
  name : Str
  value : Str

/-- A character that stands for itself also outside quotes. -/
def isPlainChar (c : Char) : Bool := isNameChar c || "+,-./:@".toList.contains c

/-- A character that ends an escape in quotes. -/
def isEscapable (c : Char) : Bool := "$`\"\\".toList.contains c

def isSpecialParameter (c : Char) : Bool :=
  ('0' ≤ c && c ≤ '9') || "@*#?-$!".toList.contains c

/-- A `$` in front of this character begins an expansion. -/
def beginsExpansion (c : Char) : Bool :=
  isNameStart c || isSpecialParameter c || c == '{' || c == '('

/-- The name in `export name`. -/
def exportedName (text : Str) : Option Str :=
  if "export ".toList.isPrefixOf text then
    let name := text.drop "export ".toList.length
    if Identifier name then some name else none
  else none

namespace Reader

/-- The reader before a command. -/
def initial (vars : Variables) : Reader :=
  { vars := vars, mode := .command [], name := [], value := [] }

def put (r : Reader) (s : Str) : Reader := { r with mode := .quoted, value := r.value ++ s }

/-- A character in quotes. -/
def quotedStep (r : Reader) (c : Char) : Option Reader :=
  if c = '"' then some { r with mode := .plain }
  else if c = '\\' then some { r with mode := .escaped }
  else if c = '$' then some { r with mode := .dollar }
  else if c = '\u0060' then none
  else some (r.put [c])

def step (r : Reader) (c : Char) : Option Reader :=
  match r.mode with
  | .command text =>
      if c = '\n' then if text = [] then some r else none
      else if c = '=' then
        (exportedName text).map fun name => { r with mode := .plain, name := name, value := [] }
      else some { r with mode := .command (text ++ [c]) }
  | .plain =>
      if c = '\n' then some (initial (r.vars.exportAs r.name r.value))
      else if c = '"' then some { r with mode := .quoted }
      else if isPlainChar c then some { r with value := r.value ++ [c] }
      else none
  | .quoted => r.quotedStep c
  | .escaped =>
      if c = '\n' then some (r.put [])
      else if isEscapable c then some (r.put [c])
      else some (r.put ['\\', c])
  | .dollar =>
      if isNameStart c then some { r with mode := .parameter [c] }
      else if isSpecialParameter c then some (r.put (r.vars.value [c]))
      else if c = '{' ∨ c = '(' then none
      else (r.put ['$']).quotedStep c
  | .parameter name =>
      if isNameChar c then some { r with mode := .parameter (name ++ [c]) }
      else (r.put (r.vars.value name)).quotedStep c

def read (r : Reader) (text : Str) : Option Reader := text.foldlM step r

@[simp] theorem read_nil (r : Reader) : r.read [] = some r := rfl

theorem read_cons (r : Reader) (c : Char) (text : Str) :
    r.read (c :: text) = (r.step c).bind fun r' => r'.read text := by
  rw [read, List.foldlM_cons]
  rfl

theorem read_append (r : Reader) (s t : Str) :
    r.read (s ++ t) = (r.read s).bind fun r' => r'.read t := by
  rw [read, List.foldlM_append]
  rfl

theorem read_trans {r r' r'' : Reader} {s t : Str} (hs : r.read s = some r')
    (ht : r'.read t = some r'') : r.read (s ++ t) = some r'' := by
  rw [read_append, hs, Option.bind_some, ht]

theorem read_single (r : Reader) (c : Char) : r.read [c] = r.step c := by
  rw [read_cons]
  cases r.step c <;> rfl

end Reader

/-- `. file`: the variables after the text was read, if it is one of complete commands. -/
def source (text : Str) (vars : Variables) : Option Variables :=
  ((Reader.initial vars).read text).bind fun r =>
    if r.mode = .command [] then some r.vars else none

/-- A text that stands for itself between double quotes. -/
def Verbatim : Str → Bool
  | [] => true
  | '$' :: s => !(s.head?.map beginsExpansion).getD false && Verbatim s
  | '\\' :: s => !(s.head?.map isEscapable).getD true && Verbatim s
  | c :: s => c != '"' && c != '\u0060' && Verbatim s

example : Verbatim "cost: 5 $, path C:\\x".toList = true := by decide

namespace Reader

/-- Behind a `$` that begins nothing the reader goes on as if the `$` had been put. -/
theorem step_dollar {r : Reader} {c : Char} (hmode : r.mode = .dollar)
    (h : beginsExpansion c = false) : r.step c = (r.put ['$']).step c := by
  simp only [beginsExpansion, Bool.or_eq_false_iff, beq_eq_false_iff_ne] at h
  obtain ⟨⟨⟨hname, hspecial⟩, hbrace⟩, hparen⟩ := h
  rw [step, hmode]
  simp [hname, hspecial, hbrace, hparen, step, put]

theorem step_escaped {r : Reader} {c : Char} (hmode : r.mode = .escaped)
    (hnewline : c ≠ '\n') (h : isEscapable c = false) : r.step c = (r.put ['\\']).step c := by
  have other : c ≠ '$' ∧ c ≠ '\u0060' ∧ c ≠ '"' ∧ c ≠ '\\' := by
    refine ⟨?_, ?_, ?_, ?_⟩ <;>
    · rintro rfl
      exact absurd h (by decide)
  rw [step, hmode]
  simp [hnewline, h, step, put, quotedStep, other]

/-- What follows a text of quotes: the text goes on, or the quotes end. -/
theorem read_dollar {r : Reader} (hr : r.mode = .quoted) {s : Str}
    (h : (s.head?.map beginsExpansion).getD false = false) :
    r.read ('$' :: (s ++ ['"'])) = (r.put ['$']).read (s ++ ['"']) := by
  have begun : r.step '$' = some { r with mode := .dollar } := by
    rw [step, hr]
    rfl
  rw [read_cons, begun, Option.bind_some]
  cases s with
  | nil => rw [List.nil_append, read_cons, read_cons, step_dollar rfl (by decide)]; rfl
  | cons c s => rw [List.cons_append, read_cons, read_cons, step_dollar rfl h]; rfl

theorem read_backslash {r : Reader} (hr : r.mode = .quoted) {s : Str} (hline : '\n' ∉ s)
    (h : (s.head?.map isEscapable).getD true = false) :
    r.read ('\\' :: (s ++ ['"'])) = (r.put ['\\']).read (s ++ ['"']) := by
  have begun : r.step '\\' = some { r with mode := .escaped } := by
    rw [step, hr]
    rfl
  rw [read_cons, begun, Option.bind_some]
  cases s with
  | nil => cases h
  | cons c s =>
      have other : c ≠ '\n' := fun same => hline (same ▸ List.mem_cons_self)
      rw [List.cons_append, read_cons, read_cons, step_escaped rfl other h]
      rfl

theorem step_quoted_other {r : Reader} (hr : r.mode = .quoted) {c : Char}
    (h : c ≠ '"' ∧ c ≠ '\\' ∧ c ≠ '$' ∧ c ≠ '\u0060') : r.step c = some (r.put [c]) := by
  simp [step, hr, quotedStep, h]

theorem read_verbatim {v : Str} (h : Verbatim v = true) (hline : '\n' ∉ v) {r : Reader}
    (hr : r.mode = .quoted) :
    r.read (v ++ ['"']) = some { r with mode := .plain, value := r.value ++ v } := by
  induction v using Verbatim.induct generalizing r with
  | case1 => simp [read_cons, step, hr, quotedStep]
  | case2 s ih =>
      simp only [Verbatim, Bool.and_eq_true, Bool.not_eq_true'] at h
      rw [List.cons_append, read_dollar hr h.1,
        ih h.2 (fun member => hline (List.mem_cons_of_mem _ member)) rfl]
      simp [put]
  | case3 s ih =>
      simp only [Verbatim, Bool.and_eq_true, Bool.not_eq_true'] at h
      have hline' : '\n' ∉ s := fun member => hline (List.mem_cons_of_mem _ member)
      rw [List.cons_append, read_backslash hr hline' h.1, ih h.2 hline' rfl]
      simp [put]
  | case4 c s hdollar hbackslash ih =>
      rw [Verbatim] at h
      · simp only [Bool.and_eq_true, bne_iff_ne] at h
        rw [List.cons_append, read_cons,
          step_quoted_other hr ⟨h.1.1, hbackslash, hdollar, h.1.2⟩, Option.bind_some,
          ih h.2 (fun member => hline (List.mem_cons_of_mem _ member)) rfl]
        simp [put]
      · exact hdollar
      · exact hbackslash

section Size

/-- How many characters of the text a mode has taken and may still put. A word that is outside
quotes counts its closing quote. -/
def pending : Mode → Nat
  | .command _ => 0
  | .plain => 1
  | .quoted => 0
  | .escaped => 1
  | .dollar => 1
  | .parameter name => name.length + 1

def size (r : Reader) : Nat := r.value.length + pending r.mode

/-- The reader is in a word. -/
def InWord (r : Reader) : Prop := ∀ text, r.mode ≠ .command text

/-- Expansions give one character at most. -/
def Scant (vars : Variables) : Prop := ∀ n, (vars.value n).length ≤ 1

theorem quotedStep_spec {r r' : Reader} {c : Char} (h : r.quotedStep c = some r') :
    r'.InWord ∧ r'.size ≤ r.value.length + 1 ∧ r'.vars = r.vars ∧ r'.name = r.name := by
  unfold quotedStep at h
  split at h
  · obtain rfl := Option.some.inj h
    simp [InWord, size, pending]
  · split at h
    · obtain rfl := Option.some.inj h
      simp [InWord, size, pending]
    · split at h
      · obtain rfl := Option.some.inj h
        simp [InWord, size, pending]
      · split at h
        · cases h
        · obtain rfl := Option.some.inj h
          simp [InWord, size, pending, put]

theorem step_spec {r r' : Reader} (hword : r.InWord) (hscant : Scant r.vars) {c : Char}
    (hc : c ≠ '\n') (h : r.step c = some r') :
    r'.InWord ∧ r'.size ≤ r.size + 1 ∧ r'.vars = r.vars ∧ r'.name = r.name := by
  unfold step at h
  split at h
  · next text hmode => exact absurd hmode (hword text)
  · next hmode =>
      rw [if_neg hc] at h
      split at h
      · obtain rfl := Option.some.inj h
        simp [InWord, size, pending, hmode]
        omega
      · split at h
        · obtain rfl := Option.some.inj h
          simp [InWord, size, pending, hmode]
        · cases h
  · next hmode =>
      obtain ⟨word, hsize, hvars, hname⟩ := quotedStep_spec h
      exact ⟨word, by simpa [size, hmode, pending] using hsize, hvars, hname⟩
  · next hmode =>
      rw [if_neg hc] at h
      split at h
      · obtain rfl := Option.some.inj h
        simp [InWord, size, pending, hmode, put]
      · obtain rfl := Option.some.inj h
        simp [InWord, size, pending, hmode, put]
  · next hmode =>
      split at h
      · obtain rfl := Option.some.inj h
        simp [InWord, size, pending, hmode]
      · split at h
        · obtain rfl := Option.some.inj h
          have := hscant [c]
          simp [InWord, size, pending, hmode, put]
          omega
        · split at h
          · cases h
          · obtain ⟨word, hsize, hvars, hname⟩ := quotedStep_spec h
            exact ⟨word, by simpa [size, hmode, pending, put] using hsize, hvars, hname⟩
  · next name hmode =>
      split at h
      · obtain rfl := Option.some.inj h
        simp [InWord, size, pending, hmode]
        omega
      · have := hscant name
        obtain ⟨word, hsize, hvars, hname⟩ := quotedStep_spec h
        refine ⟨word, ?_, hvars, hname⟩
        have before : r.size = r.value.length + (name.length + 1) := by simp [size, hmode, pending]
        simp only [put, List.length_append] at hsize
        omega

theorem read_spec {text : Str} (htext : '\n' ∉ text) {r r' : Reader} (hword : r.InWord)
    (hscant : Scant r.vars) (h : r.read text = some r') :
    r'.InWord ∧ r'.size ≤ r.size + text.length ∧ r'.vars = r.vars ∧ r'.name = r.name := by
  induction text generalizing r with
  | nil =>
      obtain rfl := Option.some.inj h
      exact ⟨hword, Nat.le_refl _, rfl, rfl⟩
  | cons c text ih =>
      rw [read_cons] at h
      obtain ⟨next, hstep, hrest⟩ := Option.bind_eq_some_iff.mp h
      obtain ⟨hnext, hsize, hvars, hname⟩ :=
        step_spec hword hscant (fun same => htext (same ▸ List.mem_cons_self)) hstep
      obtain ⟨word, hsize', hvars', hname'⟩ :=
        ih (fun member => htext (List.mem_cons_of_mem _ member)) hnext (hvars ▸ hscant) hrest
      refine ⟨word, ?_, hvars'.trans hvars, hname'.trans hname⟩
      rw [List.length_cons]
      omega

/-- The reader puts fewer characters than the text has. -/
def Loses (r : Reader) (text : Str) : Prop :=
  ∀ r', r.read text = some r' → r'.size < r.size + text.length

variable {r next : Reader} {c : Char} {text : Str}

theorem loses_of_none (h : r.step c = none) : Loses r (c :: text) := by
  intro r' hread
  rw [read_cons, h] at hread
  cases hread

theorem loses_of_step (hword : r.InWord) (hscant : Scant r.vars) (htext : '\n' ∉ c :: text)
    (h : ∀ r', r.step c = some r' → r'.size ≤ r.size) : Loses r (c :: text) := by
  intro r' hread
  rw [read_cons] at hread
  obtain ⟨next, hstep, hrest⟩ := Option.bind_eq_some_iff.mp hread
  obtain ⟨hnext, -, hvars, -⟩ :=
    step_spec hword hscant (fun same => htext (same ▸ List.mem_cons_self)) hstep
  have hsize := h next hstep
  have hrest := (read_spec (fun member => htext (List.mem_cons_of_mem _ member)) hnext
    (hvars ▸ hscant) hrest).2.1
  rw [List.length_cons]
  omega

theorem loses_of_rest (hsize : next.size ≤ r.size + 1) (hstep : r.step c = some next)
    (h : Loses next text) : Loses r (c :: text) := by
  intro r' hread
  rw [read_cons, hstep, Option.bind_some] at hread
  have := h r' hread
  rw [List.length_cons]
  omega

/-- Outside quotes a quote is lost. -/
theorem loses_of_plain (hmode : r.mode = .plain) (hscant : Scant r.vars) (htext : '\n' ∉ text)
    (h : '"' ∈ text) : Loses r text := by
  induction text generalizing r with
  | nil => cases h
  | cons c text ih =>
      have hword : r.InWord := by simp [InWord, hmode]
      have hc : c ≠ '\n' := fun same => htext (same ▸ List.mem_cons_self)
      have hstep : r.step c = if c = '"' then some { r with mode := .quoted }
          else if isPlainChar c then some { r with value := r.value ++ [c] } else none := by
        rw [step, hmode]
        exact if_neg hc
      by_cases quote : c = '"'
      · apply loses_of_step hword hscant htext
        intro r' hr'
        rw [hstep, if_pos quote] at hr'
        obtain rfl := Option.some.inj hr'
        simp [size, hmode, pending]
      · have later : '"' ∈ text := (List.mem_cons.mp h).resolve_left (Ne.symm quote)
        rw [if_neg quote] at hstep
        split at hstep
        · refine loses_of_rest ?_ hstep (ih hmode hscant
            (fun member => htext (List.mem_cons_of_mem _ member)) later)
          simp [size, hmode]
          omega
        · exact loses_of_none hstep

/-- What is put for a name and the character behind it does not make up for the name. -/
theorem step_size_of_name_end {name : Str} (hmode : r.mode = .parameter name) (hname : name ≠ [])
    (hscant : Scant r.vars) (hc : isNameChar c = false) {r' : Reader} (h : r.step c = some r') :
    r'.size ≤ r.size := by
  have positive : 0 < name.length := List.length_pos_iff.mpr hname
  have before : r.size = r.value.length + (name.length + 1) := by simp [size, hmode, pending]
  rw [step, hmode] at h
  simp only [hc, Bool.false_eq_true, if_false] at h
  have hsize := (quotedStep_spec h).2.1
  have := hscant name
  simp only [put, List.length_append] at hsize
  omega

theorem loses_of_parameter {name : Str} (hmode : r.mode = .parameter name) (hname : name ≠ [])
    (hscant : Scant r.vars) (htext : '\n' ∉ text) : Loses r (text ++ ['"']) := by
  have hword : r.InWord := by simp [InWord, hmode]
  induction text generalizing r name with
  | nil =>
      exact loses_of_step hword hscant (by decide) fun r' =>
        step_size_of_name_end hmode hname hscant (by decide)
  | cons c text ih =>
      have htext' : '\n' ∉ text := fun member => htext (List.mem_cons_of_mem _ member)
      cases hc : isNameChar c with
      | false =>
          refine loses_of_step hword hscant (by simpa using htext) fun r' => ?_
          exact step_size_of_name_end hmode hname hscant hc
      | true =>
          have hstep : r.step c = some { r with mode := .parameter (name ++ [c]) } := by
            rw [step, hmode]
            exact if_pos hc
          refine loses_of_rest ?_ hstep (ih rfl (by simp) hscant htext' (by simp [InWord]))
          simp [size, hmode, pending]
          omega

/-- An expansion is lost. -/
theorem loses_of_dollar (hmode : r.mode = .dollar) (hscant : Scant r.vars)
    (htext : '\n' ∉ c :: text) (hc : beginsExpansion c = true) :
    Loses r (c :: (text ++ ['"'])) := by
  have htext' : '\n' ∉ text := fun member => htext (List.mem_cons_of_mem _ member)
  have hword : r.InWord := by simp [InWord, hmode]
  have hstep : r.step c = if isNameStart c then some { r with mode := .parameter [c] }
      else if isSpecialParameter c then some (r.put (r.vars.value [c]))
      else if c = '{' ∨ c = '(' then none
      else (r.put ['$']).quotedStep c := by
    rw [step, hmode]
  by_cases hname : isNameStart c = true
  · rw [if_pos hname] at hstep
    refine loses_of_rest ?_ hstep (loses_of_parameter rfl (by simp) hscant htext')
    simp [size, hmode, pending]
  · rw [if_neg hname] at hstep
    by_cases hspecial : isSpecialParameter c = true
    · rw [if_pos hspecial] at hstep
      refine loses_of_step hword hscant (by simpa using htext) fun r' hr' => ?_
      rw [hstep] at hr'
      obtain rfl := Option.some.inj hr'
      have := hscant [c]
      simp only [size, put, hmode, pending, List.length_append]
      omega
    · rw [if_neg hspecial, if_pos] at hstep
      · exact loses_of_none hstep
      · simpa [beginsExpansion, hname, hspecial] using hc

/-- A backslash is lost. -/
theorem loses_of_escaped (hmode : r.mode = .escaped) (hscant : Scant r.vars)
    (htext : '\n' ∉ c :: text) (hc : isEscapable c = true) : Loses r (c :: text) := by
  have hword : r.InWord := by simp [InWord, hmode]
  have other : c ≠ '\n' := fun same => htext (same ▸ List.mem_cons_self)
  refine loses_of_step hword hscant htext fun r' hr' => ?_
  simp only [step, hmode, if_neg other, if_pos hc] at hr'
  obtain rfl := Option.some.inj hr'
  simp [size, put, hmode, pending]

/-- A text that does not stand for itself loses characters. -/
theorem loses_of_not_verbatim {v : Str} (h : Verbatim v = false) (hline : '\n' ∉ v)
    (hmode : r.mode = .quoted) (hscant : Scant r.vars) : Loses r (v ++ ['"']) := by
  have hword : r.InWord := by simp [InWord, hmode]
  induction v using Verbatim.induct generalizing r with
  | case1 => cases h
  | case2 s ih =>
      have hline' : '\n' ∉ s := fun member => hline (List.mem_cons_of_mem _ member)
      have begun : r.step '$' = some { r with mode := .dollar } := by
        rw [step, hmode]
        rfl
      cases hexpansion : (s.head?.map beginsExpansion).getD false with
      | true =>
          cases s with
          | nil => cases hexpansion
          | cons c s =>
              refine loses_of_rest ?_ begun (loses_of_dollar rfl hscant hline' hexpansion)
              simp [size, hmode, pending]
      | false =>
          simp only [Verbatim, hexpansion, Bool.not_false, Bool.true_and] at h
          intro r' hread
          rw [List.cons_append, read_dollar hmode hexpansion] at hread
          have := ih h hline' (r := r.put ['$']) rfl hscant (by simp [InWord, put]) r' hread
          simp [size, hmode, pending, put] at this ⊢
          omega
  | case3 s ih =>
      have hline' : '\n' ∉ s := fun member => hline (List.mem_cons_of_mem _ member)
      have begun : r.step '\\' = some { r with mode := .escaped } := by
        rw [step, hmode]
        rfl
      cases hescape : (s.head?.map isEscapable).getD true with
      | true =>
          refine loses_of_rest (by simp [size, hmode, pending]) begun ?_
          cases s with
          | nil => exact loses_of_escaped rfl hscant (by decide) (by decide)
          | cons c s => exact loses_of_escaped rfl hscant (by simpa using hline') hescape
      | false =>
          simp only [Verbatim, hescape, Bool.not_false, Bool.true_and] at h
          intro r' hread
          rw [List.cons_append, read_backslash hmode hline' hescape] at hread
          have := ih h hline' (r := r.put ['\\']) rfl hscant (by simp [InWord, put]) r' hread
          simp [size, hmode, pending, put] at this ⊢
          omega
  | case4 c s hdollar hbackslash ih =>
      have hline' : '\n' ∉ s := fun member => hline (List.mem_cons_of_mem _ member)
      rw [Verbatim] at h
      rotate_left
      · exact hdollar
      · exact hbackslash
      by_cases quote : c = '"'
      · subst quote
        have hstep : r.step '"' = some { r with mode := .plain } := by
          rw [step, hmode]
          rfl
        refine loses_of_rest (by simp [size, hmode, pending]) hstep ?_
        exact loses_of_plain rfl hscant (by simpa using hline') (by simp)
      · by_cases backquote : c = '\u0060'
        · subst backquote
          refine loses_of_none ?_
          rw [step, hmode]
          rfl
        · have hstep := step_quoted_other hmode ⟨quote, hbackslash, hdollar, backquote⟩
          simp only [quote, backquote, Bool.and_eq_false_iff, bne_eq_false_iff_eq, false_or] at h
          refine loses_of_rest ?_ hstep (ih h hline' rfl hscant (by simp [InWord, put]))
          simp [size, hmode, pending, put]

end Size

section Command

variable {vars : Variables}

theorem step_command {r : Reader} {text : Str} (h : r.mode = .command text) (c : Char) :
    r.step c =
      if c = '\n' then if text = [] then some r else none
      else if c = '=' then
        (exportedName text).map fun name => { r with mode := .plain, name := name, value := [] }
      else some { r with mode := .command (text ++ [c]) } := by
  rw [step, h]

theorem read_commandText {text : Str} (h : '\n' ∉ text ∧ '=' ∉ text) (done : Str) :
    Reader.read { initial vars with mode := .command done } text =
      some { initial vars with mode := .command (done ++ text) } := by
  induction text generalizing done with
  | nil => simp
  | cons c text ih =>
      simp only [List.mem_cons, not_or] at h
      have hstep : Reader.step { initial vars with mode := .command done } c =
          some { initial vars with mode := .command (done ++ [c]) } := by
        rw [step_command rfl, if_neg (Ne.symm h.1.1), if_neg (Ne.symm h.2.1)]
      rw [read_cons, hstep, Option.bind_some, ih ⟨h.1.2, h.2.2⟩]
      simp

/-- The beginning of an export command, with a text in the place of the name. -/
theorem read_export {name : Str} (h : '\n' ∉ name ∧ '=' ∉ name) :
    (initial vars).read ("export ".toList ++ name ++ ['=']) =
      if Identifier name then some { vars := vars, mode := .plain, name := name, value := [] }
      else none := by
  have hcommand : (initial vars).read ("export ".toList ++ name) =
      some { initial vars with mode := .command ("export ".toList ++ name) } :=
    read_commandText (by simp [h]) []
  have hname : exportedName ("export ".toList ++ name) =
      if Identifier name then some name else none := by
    rw [exportedName, if_pos (List.isPrefixOf_iff_prefix.mpr (List.prefix_append _ _)),
      List.drop_left]
  rw [read_append, hcommand, Option.bind_some, read_cons, step_command rfl,
    if_neg (show ¬ '=' = '\n' by decide), if_pos rfl, hname]
  split <;> rfl

end Command

end Reader

open Reader

/-- The command that gives a variable a value in double quotes. -/
def exportLine (name value : Str) : Str :=
  "export ".toList ++ name ++ ['='] ++ ('"' :: (value ++ ['"'])) ++ ['\n']

theorem Identifier.noSeparator {name : Str} (h : Identifier name) : '\n' ∉ name ∧ '=' ∉ name := by
  have hall := List.all_eq_true.mp h.2
  exact ⟨fun member => absurd (hall _ member) (by decide),
    fun member => absurd (hall _ member) (by decide)⟩

theorem Identifier.noBackslash {name : Str} (h : Identifier name) : '\\' ∉ name :=
  fun member => absurd (List.all_eq_true.mp h.2 _ member) (by decide)

variable {vars : Variables} {name value : Str}

theorem read_exportLine (hname : Identifier name) (hline : '\n' ∉ value)
    (h : Verbatim value = true) :
    (initial vars).read (exportLine name value) = some (initial (vars.exportAs name value)) := by
  have begun : (initial vars).read ("export ".toList ++ name ++ ['=']) =
      some { vars := vars, mode := .plain, name := name, value := [] } := by
    rw [read_export hname.noSeparator, if_pos hname]
  have opened : Reader.step { vars := vars, mode := .plain, name := name, value := [] } '"' =
      some { vars := vars, mode := .quoted, name := name, value := [] } := rfl
  have word : Reader.read { vars := vars, mode := .plain, name := name, value := [] }
      ('"' :: (value ++ ['"'])) =
        some { vars := vars, mode := .plain, name := name, value := value } := by
    rw [read_cons, opened, Option.bind_some]
    exact read_verbatim h hline rfl
  exact read_trans (read_trans begun word) (read_single _ '\n')

/-- The variables after exports in turn. -/
def exportAll (pairs : List (Str × Str)) (vars : Variables) : Variables :=
  pairs.foldl (fun vars pair => vars.exportAs pair.1 pair.2) vars

theorem exportAll_append (pairs : List (Str × Str)) (name value : Str) (vars : Variables) :
    exportAll (pairs ++ [(name, value)]) vars = (exportAll pairs vars).exportAs name value := by
  rw [exportAll, List.foldl_append]
  rfl

/-- Between commands the reader holds nothing but variables. -/
def Reader.Settled (r : Reader) : Prop :=
  ∀ text, r.mode = .command text → r.name = [] ∧ r.value = []

theorem settled_quotedStep {r r' : Reader} {c : Char} (h : r.quotedStep c = some r') :
    r'.Settled := fun text hmode => absurd hmode ((quotedStep_spec h).1 text)

theorem settled_step {r r' : Reader} (hr : r.Settled) {c : Char} (h : r.step c = some r') :
    r'.Settled := by
  unfold Reader.step at h
  split at h
  · next text hmode =>
      split at h
      · obtain ⟨-, hsame⟩ := Option.ite_none_right_eq_some.mp h
        rw [← Option.some.inj hsame]
        exact hr
      · split at h
        · obtain ⟨name, -, rfl⟩ := Option.map_eq_some_iff.mp h
          rintro text ⟨⟩
        · obtain rfl := Option.some.inj h
          exact fun _ _ => hr text hmode
  · split at h
    · obtain rfl := Option.some.inj h
      exact fun _ _ => ⟨rfl, rfl⟩
    · next hmode _ =>
        intro text htext
        grind
  · exact settled_quotedStep h
  · intro text htext
    grind [put]
  · split at h
    · intro text htext
      grind
    · split at h
      · intro text htext
        grind [put]
      · obtain ⟨-, hquoted⟩ := Option.ite_none_left_eq_some.mp h
        exact settled_quotedStep hquoted
  · next name _ =>
      split at h
      · intro text htext
        grind
      · exact settled_quotedStep h

theorem settled_read {r r' : Reader} (hr : r.Settled) {text : Str} (h : r.read text = some r') :
    r'.Settled := by
  induction text generalizing r with
  | nil =>
      obtain rfl := Option.some.inj h
      exact hr
  | cons c text ih =>
      rw [read_cons] at h
      obtain ⟨next, hstep, hrest⟩ := Option.bind_eq_some_iff.mp h
      exact ih (settled_step hr hstep) hrest

theorem source_append {s t : Str} {vars' : Variables} (h : source s vars = some vars') :
    source (s ++ t) vars = source t vars' := by
  obtain ⟨r, hread, hend⟩ := Option.bind_eq_some_iff.mp h
  obtain ⟨hmode, hvars⟩ := Option.ite_none_right_eq_some.mp hend
  obtain ⟨hname, hvalue⟩ := settled_read (fun _ _ => ⟨rfl, rfl⟩) hread [] hmode
  have settled : r = initial vars' := by
    rw [← Option.some.inj hvars]
    cases r
    simp_all [initial]
  rw [source, read_append, hread, Option.bind_some, settled, source]

/-- A file of commands, behind an empty line, exports in turn. -/
theorem source_commands {pairs : List (Str × Str)} {line : Str × Str → Str}
    (h : ∀ pair ∈ pairs, ∀ vars, source (line pair) vars = some (vars.exportAs pair.1 pair.2)) :
    source ('\n' :: pairs.flatMap line) vars = some (exportAll pairs vars) := by
  have blank : source ['\n'] vars = some vars := rfl
  have lines : source (pairs.flatMap line) vars = some (exportAll pairs vars) := by
    induction pairs generalizing vars with
    | nil => rfl
    | cons pair pairs ih =>
        rw [List.flatMap_cons, source_append (h pair List.mem_cons_self vars)]
        exact ih (fun other member => h other (List.mem_cons_of_mem _ member)) rfl
  exact (source_append blank).trans lines

theorem source_exportLine (hname : Identifier name) (hline : '\n' ∉ value)
    (h : Verbatim value = true) :
    source (exportLine name value) vars = some (vars.exportAs name value) := by
  rw [source, read_exportLine hname hline h]
  rfl

theorem step_newline {r last : Reader} (hword : r.InWord) (h : r.step '\n' = some last)
    (hlast : last.mode = .command []) :
    r.mode = .plain ∧ last.vars = r.vars.exportAs r.name r.value := by
  have inWord : ∀ r' : Reader, r'.quotedStep '\n' = some last → False := by
    intro r' hr'
    exact (quotedStep_spec hr').1 [] hlast
  unfold Reader.step at h
  split at h
  · next text hmode => exact absurd hmode (hword text)
  · next hmode =>
      rw [if_pos rfl] at h
      obtain rfl := Option.some.inj h
      exact ⟨hmode, rfl⟩
  · exact (inWord _ h).elim
  · rw [if_pos rfl] at h
    obtain rfl := Option.some.inj h
    cases hlast
  · rw [if_neg (by decide), if_neg (by decide), if_neg (by decide)] at h
    exact (inWord _ h).elim
  · rw [if_neg (by decide)] at h
    exact (inWord _ h).elim

/-- Where a command was read to its end, the word was, and its value is exported. -/
theorem source_word {text : Str} (hname : Identifier name) (hline : '\n' ∉ text)
    (hscant : Scant vars) {vars' : Variables}
    (h : source ("export ".toList ++ name ++ ['='] ++ text ++ ['\n']) vars = some vars') :
    ∃ r, Reader.read { vars := vars, mode := .plain, name := name, value := [] } text = some r ∧
      r.mode = .plain ∧ vars' = vars.exportAs name r.value := by
  rw [source, read_append, read_append, read_export hname.noSeparator, if_pos hname,
    Option.bind_some] at h
  obtain ⟨last, hread, hlast⟩ := Option.bind_eq_some_iff.mp h
  obtain ⟨r, hword, hend⟩ := Option.bind_eq_some_iff.mp hread
  obtain ⟨word, -, hvars, hname'⟩ := read_spec hline (by simp [InWord]) hscant hword
  rw [read_single] at hend
  obtain ⟨hmode, hvars'⟩ := Option.ite_none_right_eq_some.mp hlast
  obtain ⟨hplain, hexport⟩ := step_newline word hend hmode
  refine ⟨r, hword, hplain, ?_⟩
  rw [← Option.some.inj hvars', hexport, hvars, hname']

theorem exportAs_injective {v w : Str} (h : vars.exportAs name v = vars.exportAs name w) :
    v = w := by
  have same := congrFun h name
  simp only [Variables.exportAs_same, Option.some.injEq, Variable.ofEnv, Variable.mk.injEq,
    and_true] at same
  exact same

/-- What is read in quotes when a command exports a value. -/
theorem source_exportLine_word {v : Str} (hname : Identifier name) (hline : '\n' ∉ value)
    (hscant : Scant vars)
    (h : source (exportLine name value) vars = some (vars.exportAs name v)) :
    ∃ r, Reader.read { vars := vars, mode := .quoted, name := name, value := [] }
      (value ++ ['"']) = some r ∧ r.size = v.length + 1 := by
  obtain ⟨r, hword, hmode, hvars⟩ := source_word hname (by simpa using hline) hscant h
  have opened : Reader.step { vars := vars, mode := .plain, name := name, value := [] } '"' =
      some { vars := vars, mode := .quoted, name := name, value := [] } := rfl
  rw [read_cons, opened, Option.bind_some] at hword
  exact ⟨r, hword, by simp [size, hmode, pending, exportAs_injective hvars]⟩

/-- A command gives the variable the value between its quotes, exactly if that stands for
itself. -/
theorem source_exportLine_iff (hname : Identifier name) (hline : '\n' ∉ value)
    (hscant : Scant vars) :
    source (exportLine name value) vars = some (vars.exportAs name value) ↔
      Verbatim value = true := by
  refine ⟨fun h => ?_, source_exportLine hname hline⟩
  obtain ⟨r, hword, hsize⟩ := source_exportLine_word hname hline hscant h
  by_contra hnot
  have hlt := loses_of_not_verbatim (eq_false_of_ne_true hnot) hline rfl hscant r hword
  have begun : size { vars := vars, mode := .quoted, name := name, value := [] } = 0 := rfl
  rw [hsize, begun, List.length_append, List.length_singleton] at hlt
  omega

/-- A command does not give a variable a longer value. -/
theorem length_le_of_source {v : Str} (hname : Identifier name) (hline : '\n' ∉ value)
    (hscant : Scant vars)
    (h : source (exportLine name value) vars = some (vars.exportAs name v)) :
    v.length ≤ value.length := by
  obtain ⟨r, hword, hsize⟩ := source_exportLine_word hname hline hscant h
  have hle := (read_spec (by simpa using hline) (by simp [InWord]) hscant hword).2.1
  have begun : size { vars := vars, mode := .quoted, name := name, value := [] } = 0 := rfl
  rw [hsize, begun, List.length_append, List.length_singleton] at hle
  omega

theorem identifier_of_source {p text : Str} (hp : '\n' ∉ p ∧ '=' ∉ p) {vars' : Variables}
    (h : source ("export ".toList ++ p ++ ['='] ++ text ++ ['\n']) vars = some vars') :
    Identifier p := by
  by_contra hnot
  rw [source, read_append, read_append, read_export hp, if_neg hnot] at h
  cases h

/-- A command exports the variable it names. -/
theorem exported_eq_of_source {p text v : Str} (hp : '\n' ∉ p ∧ '=' ∉ p) (htext : '\n' ∉ text)
    (hscant : Scant vars) (hunset : vars name = none)
    (h : source ("export ".toList ++ p ++ ['='] ++ text ++ ['\n']) vars =
      some (vars.exportAs name v)) : p = name := by
  obtain ⟨r, -, -, hvars⟩ := source_word (identifier_of_source hp h) htext hscant h
  by_contra other
  have same := congrFun hvars name
  rw [Variables.exportAs_same, Variables.exportAs_other _ (Ne.symm other), hunset] at same
  cases same

theorem read_plain_assignment {p rest : Str} (hp : p.all isNameChar = true) {r : Reader}
    (hr : r.mode = .plain) : r.read (p ++ '=' :: rest) = none := by
  induction p generalizing r with
  | nil =>
      rw [List.nil_append, read_cons, Reader.step, hr]
      rfl
  | cons c p ih =>
      simp only [List.all_cons, Bool.and_eq_true] at hp
      obtain ⟨hc, hp⟩ := hp
      have other : c ≠ '\n' ∧ c ≠ '"' := by
        constructor
        · rintro rfl
          exact absurd hc (by decide)
        · rintro rfl
          exact absurd hc (by decide)
      have hstep : r.step c = some { r with value := r.value ++ [c] } := by
        rw [Reader.step, hr]
        simp only [if_neg other.1, if_neg other.2, isPlainChar, hc, Bool.true_or, if_true]
      rw [List.cons_append, read_cons, hstep, Option.bind_some]
      exact ih hp hr

theorem mode_of_step_equals {r next : Reader} (hword : r.InWord) (h : r.step '=' = some next) :
    next.mode = .quoted := by
  have put : ∀ {r' : Reader}, r'.quotedStep '=' = some next → next.mode = .quoted := by
    intro r' hr'
    obtain rfl := Option.some.inj hr'
    rfl
  unfold Reader.step at h
  split at h
  · next text hmode => exact absurd hmode (hword text)
  · cases h
  · exact put h
  · obtain rfl := Option.some.inj h
    rfl
  · exact put h
  · exact put h

/-- A word in which `="` comes before a name and `=`: either way the second `=` is not quoted. -/
theorem read_unquoted_assignment {r : Reader} (hword : r.InWord) {p rest : Str}
    (hp : p.all isNameChar = true) : r.read ('=' :: '"' :: (p ++ '=' :: rest)) = none := by
  rw [read_cons]
  cases hstep : r.step '=' with
  | none => rfl
  | some next =>
      have quoted := mode_of_step_equals hword hstep
      have closed : next.step '"' = some { next with mode := .plain } := by
        rw [Reader.step, quoted]
        rfl
      rw [Option.bind_some, read_cons, closed, Option.bind_some]
      exact read_plain_assignment hp rfl

/-- When the name and the value are the same text, nothing but the variable of this name is
exported. -/
theorem eq_of_source_exportLine_self (hline : '\n' ∉ value) (hscant : Scant vars)
    (hunset : vars name = none)
    (h : source (exportLine value value) vars = some (vars.exportAs name value)) :
    value = name := by
  by_cases equals : '=' ∈ value
  · obtain ⟨p, rest, rfl, hp⟩ := List.eq_append_cons_of_mem equals
    have noSeparator : '\n' ∉ p ∧ '=' ∉ p := ⟨fun member => hline (by simp [member]), hp⟩
    have split : exportLine (p ++ '=' :: rest) (p ++ '=' :: rest) =
        "export ".toList ++ p ++ ['='] ++ (rest ++ '=' :: '"' :: (p ++ '=' :: (rest ++ ['"']))) ++
          ['\n'] := by
      have general : ∀ command : Str, command ++ (p ++ '=' :: rest) ++ ['='] ++
          ('"' :: ((p ++ '=' :: rest) ++ ['"'])) ++ ['\n'] =
          command ++ p ++ ['='] ++ (rest ++ '=' :: '"' :: (p ++ '=' :: (rest ++ ['"']))) ++
            ['\n'] := by simp
      exact general _
    rw [split] at h
    have identifier := identifier_of_source noSeparator h
    obtain ⟨r, hword, -, -⟩ := source_word identifier (by grind) hscant h
    rw [read_append] at hword
    obtain ⟨next, hrest, hnext⟩ := Option.bind_eq_some_iff.mp hword
    have inWord := (read_spec (fun member => hline (by simp [member])) (by simp [InWord]) hscant
      hrest).1
    rw [read_unquoted_assignment inWord identifier.2] at hnext
    cases hnext
  · exact exported_eq_of_source ⟨hline, equals⟩ (by simpa using hline) hscant hunset h

end Shell
