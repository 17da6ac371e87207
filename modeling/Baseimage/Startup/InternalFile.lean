import Baseimage.Shell.Source
import Baseimage.Startup.Environment

/-!
# `/tmp/.cont-env-internal`

A login shell sources the file to get the variables that `/init` exported. The value of a variable
is written as it is, between double quotes, and read with the meaning some characters have there.
The line gives the variable its value back exactly if the value stands for itself in quotes. What
`echo` does with a backslash is left to the implementation, so a value with one may also be changed
when it is written.
-/

namespace Baseimage.Startup

open Shell Variables

/-- An `echo` that prints what it is given. -/
def plainEcho (s : Str) : Str := s ++ ['\n']

/-- What is known of `echo` in general. -/
def Conforming (echo : Str → Str) : Prop := ∀ s, '\\' ∉ s → echo s = plainEcho s

/-- The name in the line that is written: `load_env_var` has the name in a variable too, which may
be the one it sets. -/
def writtenName (name value : Str) : Str := if name = "var_name".toList then value else name

/-- The command that is written for a variable. -/
def writtenCommand (name value : Str) : Str :=
  "export ".toList ++ writtenName name value ++ "=\"".toList ++ value ++ "\"".toList

theorem exportCommand_eq {vars : Variables} {name value : Str}
    (hname : vars.value "var_name".toList = name) (hvalue : vars.value "var_val".toList = value) :
    exportCommand vars =
      "export ".toList ++ name ++ "=\"".toList ++ value ++ "\"".toList := by
  subst hname hvalue
  rfl

theorem loadEnvVar_writes {echo : Str → Str} {name val force : Str} {sh sh' : InitShell}
    (h : loadEnvVar echo name val force sh = some sh') (hexports : Exports sh.vars name val force) :
    sh'.internal = sh.internal ++ echo (writtenCommand name val) := by
  obtain ⟨-, hvars, hinternal⟩ | ⟨hnot, -, -⟩ := loadEnvVar_cases h
  · have name_eq : sh'.vars.value "var_name".toList = writtenName name val := by
      rw [hvars]
      by_cases same : name = "var_name".toList
      · subst same
        rw [value_exportAs_same, writtenName, if_pos rfl]
      · rw [value_exportAs_other _ (Ne.symm same), tested, value_assign_other _ (by decide),
          withArguments_name, writtenName, if_neg same]
    have value_eq : sh'.vars.value "var_val".toList = val := by
      rw [hvars]
      by_cases same : name = "var_val".toList
      · subst same
        exact value_exportAs_same _ _ _
      · rw [value_exportAs_other _ (Ne.symm same), tested, value_assign_other _ (by decide),
          withArguments_val]
    rw [hinternal, exportCommand_eq name_eq value_eq]
    rfl
  · exact absurd hexports hnot

/-- Sourcing the line that is appended for a variable exports the variable with its value, and
changes no other. -/
def RoundTrip (echo : Str → Str) (name val : Str) : Prop :=
  ∀ force sh sh', loadEnvVar echo name val force sh = some sh' → Exports sh.vars name val force →
    ∀ vars, source (sh'.internal.drop sh.internal.length) vars = some (vars.exportAs name val)

variable {echo : Str → Str} {name val : Str}

theorem roundTrip_iff_source (hname : name ≠ []) :
    RoundTrip echo name val ↔
      ∀ vars, source (echo (writtenCommand name val)) vars = some (vars.exportAs name val) := by
  have appended :
    ∀ {force : Str} {sh sh' : InitShell}, loadEnvVar echo name val force sh = some sh' →
      Exports sh.vars name val force →
      sh'.internal.drop sh.internal.length = echo (writtenCommand name val) := by
    intro force sh sh' h hexports
    rw [loadEnvVar_writes h hexports, List.drop_left]
  constructor
  · intro h vars
    obtain ⟨sh', hload⟩ : ∃ sh', loadEnvVar echo name val "force".toList ⟨fun _ => none, []⟩ =
      some sh' := loadEnvVar_terminates hname
    have forced : Exports (fun _ => none) name val "force".toList := .inl (by decide)
    rw [← appended hload forced]
    exact h _ _ _ hload forced vars
  · intro h force sh sh' hload hexports vars
    rw [appended hload hexports]
    exact h vars

theorem plainEcho_command (name val : Str) :
    plainEcho ("export ".toList ++ name ++ "=\"".toList ++ val ++ "\"".toList) =
      exportLine name val := by
  have general : ∀ command : Str, command ++ name ++ ['=', '"'] ++ val ++ ['"'] ++ ['\n'] =
      command ++ name ++ ['='] ++ ('"' :: (val ++ ['"'])) ++ ['\n'] := by simp
  exact general _

theorem plainEcho_writtenCommand :
    plainEcho (writtenCommand name val) = exportLine (writtenName name val) val :=
  plainEcho_command _ _

/-- A shell without variables. -/
theorem scant : Reader.Scant (fun _ => none) := fun _ => Nat.zero_le 1

/-- The plain line is read back exactly if the value stands for itself. -/
theorem source_plainEcho_iff (hname : Identifier name) (hline : '\n' ∉ val) :
    (∀ vars, source (plainEcho (writtenCommand name val)) vars = some (vars.exportAs name val)) ↔
      Verbatim val = true ∧ (name = "var_name".toList → val = "var_name".toList) := by
  rw [plainEcho_writtenCommand, writtenName]
  by_cases same : name = "var_name".toList
  · rw [if_pos same]
    constructor
    · intro h
      have hval := eq_of_source_exportLine_self hline scant rfl (h _)
      have hline' := h fun _ => none
      rw [hval] at hline' ⊢
      exact ⟨(source_exportLine_iff hname hname.noSeparator.1 scant).mp hline', fun _ => same⟩
    · rintro ⟨hverbatim, hval⟩ vars
      rw [hval same, ← same]
      exact source_exportLine hname hname.noSeparator.1 (by rw [same]; decide)
  · rw [if_neg same]
    constructor
    · intro h
      exact ⟨(source_exportLine_iff hname hline scant).mp (h _), fun h => absurd h same⟩
    · rintro ⟨hverbatim, -⟩ vars
      exact source_exportLine hname hline hverbatim

/-- An `echo` that drops backslashes. -/
def strippingEcho (s : Str) : Str := plainEcho (s.filter fun c => c != '\\')

theorem filter_of_noBackslash {s : Str} (h : '\\' ∉ s) : (s.filter fun c => c != '\\') = s := by
  apply List.filter_eq_self.mpr
  intro c hc
  exact bne_iff_ne.mpr fun same => h (same ▸ hc)

theorem strippingEcho_conforming : Conforming strippingEcho :=
  fun _ h => congrArg plainEcho (filter_of_noBackslash h)

theorem plainEcho_conforming : Conforming plainEcho := fun _ _ => rfl

/-- The texts around the value are not changed. -/
theorem filter_around {a n b c : Str} (h : '\\' ∉ a ∧ '\\' ∉ n ∧ '\\' ∉ b ∧ '\\' ∉ c) (v : Str) :
    (a ++ n ++ b ++ v ++ c).filter (fun c => c != '\\') =
      a ++ n ++ b ++ v.filter (fun c => c != '\\') ++ c := by
  rw [List.filter_append, List.filter_append, List.filter_append, List.filter_append,
    filter_of_noBackslash h.1, filter_of_noBackslash h.2.1, filter_of_noBackslash h.2.2.1,
    filter_of_noBackslash h.2.2.2]

theorem noBackslash_around {a n b c v : Str}
    (h : '\\' ∉ a ∧ '\\' ∉ n ∧ '\\' ∉ b ∧ '\\' ∉ c) (hv : '\\' ∉ v) :
    '\\' ∉ a ++ n ++ b ++ v ++ c := by
  simp only [List.mem_append, not_or]
  exact ⟨⟨⟨⟨h.1, h.2.1⟩, h.2.2.1⟩, hv⟩, h.2.2.2⟩

theorem writtenName_of_ne (h : name ≠ "var_name".toList) : writtenName name val = name := if_neg h

/-- With any `echo` the line is read back exactly if there is no backslash in the value too. -/
theorem source_conforming_iff (hname : Identifier name) (hline : '\n' ∉ val) :
    (∀ echo, Conforming echo →
        ∀ vars, source (echo (writtenCommand name val)) vars = some (vars.exportAs name val)) ↔
      Verbatim val = true ∧ '\\' ∉ val ∧
        (name = "var_name".toList → val = "var_name".toList) := by
  constructor
  · intro h
    obtain ⟨hverbatim, hval⟩ :=
      (source_plainEcho_iff hname hline).mp (h plainEcho plainEcho_conforming)
    refine ⟨hverbatim, fun member => ?_, hval⟩
    have other : name ≠ "var_name".toList := by
      intro same
      rw [hval same] at member
      exact absurd member (by decide)
    have stripped : strippingEcho (writtenCommand name val) =
        exportLine name (val.filter fun c => c != '\\') := by
      have written : writtenCommand name val =
          "export ".toList ++ name ++ "=\"".toList ++ val ++ "\"".toList :=
        congrArg (fun n => "export ".toList ++ n ++ "=\"".toList ++ val ++ "\"".toList)
          (writtenName_of_ne other)
      have around := filter_around (a := "export ".toList) (n := name) (b := "=\"".toList)
        (c := "\"".toList) ⟨by decide, hname.noBackslash, by decide, by decide⟩ val
      exact (congrArg strippingEcho written).trans
        ((congrArg plainEcho around).trans (plainEcho_command _ _))
    have hsource := h strippingEcho strippingEcho_conforming fun _ => none
    rw [stripped] at hsource
    have hle := length_le_of_source hname
      (fun member => hline (List.mem_of_mem_filter member)) scant hsource
    have hlt : (val.filter fun c => c != '\\').length < val.length :=
      List.length_filter_lt_length_iff_exists.mpr ⟨'\\', member, by decide⟩
    omega
  · rintro ⟨hverbatim, hbackslash, hval⟩ echo hecho
    have hwritten : '\\' ∉ writtenName name val := by
      unfold writtenName
      split
      · exact hbackslash
      · exact hname.noBackslash
    have clean : '\\' ∉ writtenCommand name val :=
      noBackslash_around ⟨by decide, hwritten, by decide, by decide⟩ hbackslash
    rw [hecho _ clean]
    exact (source_plainEcho_iff hname hline).mpr ⟨hverbatim, hval⟩

section File

/-- The file has the variables that were exported, in turn, and the last value of each is the one
the script has. -/
structure Recorded (echo : Str → Str) (pairs : List (Str × Str)) (sh : InitShell) : Prop where
  internal : sh.internal = '\n' :: pairs.flatMap fun pair => echo (writtenCommand pair.1 pair.2)
  named : ∀ pair ∈ pairs, pair.1 ≠ []
  last : ∀ vars n, n ∉ workingVariables → n ∈ pairs.map Prod.fst →
    exportAll pairs vars n = sh.vars n

variable {pairs : List (Str × Str)} {sh sh' : InitShell}

theorem Recorded.assign (h : Recorded echo pairs sh) {n : Str} (hn : n ∈ workingVariables)
    (v : Str) : Recorded echo pairs (sh.assign n v) where
  internal := h.internal
  named := h.named
  last vars m hm listed := by
    rw [h.last vars m hm listed, InitShell.assign_vars,
      assign_other _ (by rintro rfl; exact hm hn)]

/-- What `load_env_var` assigns to are variables of the script. -/
theorem tested_of_unused {vars : Variables} {force n : Str} (unused : n ∉ workingVariables) :
    tested vars name val force n = vars n := by
  have other : ∀ w ∈ workingVariables, n ≠ w := fun w member same => unused (same ▸ member)
  rw [tested, assign_other _ (other _ (by decide)), withArguments,
    assign_other _ (other _ (by decide)), assign_other _ (other _ (by decide)),
    assign_other _ (other _ (by decide))]

theorem Recorded.loadEnvVar (h : Recorded echo pairs sh) {force : Str}
    (hrun : loadEnvVar echo name val force sh = some sh') :
    ∃ pairs', Recorded echo pairs' sh' ∧
      ∀ pair ∈ pairs', pair ∈ pairs ∨ pair = (name, val) := by
  obtain ⟨exports, hvars, -⟩ | ⟨-, hvars, hinternal⟩ := loadEnvVar_cases hrun
  · refine ⟨pairs ++ [(name, val)], ⟨?_, ?_, ?_⟩, fun pair member => ?_⟩
    · rw [loadEnvVar_writes hrun exports, h.internal]
      simp
    · intro pair member
      obtain member | member := List.mem_append.mp member
      · exact h.named pair member
      · rw [List.mem_singleton.mp member]
        exact name_ne_nil_of_loadEnvVar hrun
    · intro vars n hn listed
      rw [exportAll_append, hvars]
      by_cases same : n = name
      · rw [same, exportAs_same, exportAs_same]
      · rw [exportAs_other _ same, exportAs_other _ same, tested_of_unused hn]
        apply h.last vars n hn
        simpa [same] using listed
    · exact (List.mem_append.mp member).imp_right List.mem_singleton.mp
  · refine ⟨pairs, ⟨hinternal.trans h.internal, h.named, fun vars n hn listed => ?_⟩,
      fun pair member => .inl member⟩
    rw [hvars, tested_of_unused hn]
    exact h.last vars n hn listed

/-- What is loaded of a file. -/
def EnvFile.pair (file : EnvFile) : Str × Str := (file.name, firstLine file.content)

theorem Recorded.loadFiles {dir nameVar force : Str} (hnameVar : nameVar ∈ workingVariables)
    {files : List EnvFile} (h : Recorded echo pairs sh)
    (hrun : loadFiles echo dir nameVar force files sh = some sh') :
    ∃ pairs', Recorded echo pairs' sh' ∧
      ∀ pair ∈ pairs', pair ∈ pairs ∨ pair ∈ files.map EnvFile.pair := by
  induction files generalizing pairs sh with
  | nil =>
      obtain rfl := Option.some.inj hrun
      exact ⟨pairs, h.assign (by decide) _, fun pair member => .inl member⟩
  | cons file files ih =>
      simp only [Startup.loadFiles, InitShell.assign_vars, value_assign_same,
        commandSubstitution_headN1] at hrun
      obtain ⟨-, hrun⟩ := Option.ite_none_right_eq_some.mp hrun
      obtain ⟨next, hload, hrest⟩ := Option.bind_eq_some_iff.mp hrun
      obtain ⟨pairs₁, h₁, among₁⟩ :=
        ((h.assign (by decide) _).assign hnameVar _).loadEnvVar hload
      obtain ⟨pairs₂, h₂, among₂⟩ := ih h₁ hrest
      refine ⟨pairs₂, h₂, fun pair member => ?_⟩
      obtain earlier | later := among₂ pair member
      · exact (among₁ pair earlier).imp_right fun own => by
          rw [own]
          exact List.mem_cons_self
      · exact .inr (List.mem_cons_of_mem _ later)

theorem Recorded.loadStage {c : Container} {dirPath nameVar force : Str}
    (hnameVar : nameVar ∈ workingVariables) {stage : Str} {dir : Option EnvDir}
    (h : Recorded echo pairs sh)
    (hrun : loadStage c (Startup.loadFiles echo dirPath nameVar force) stage dir sh = some sh') :
    ∃ pairs', Recorded echo pairs' sh' ∧
      ∀ pair ∈ pairs', pair ∈ pairs ∨ pair ∈ (EnvDir.list dir).map EnvFile.pair := by
  have staged := h.assign (by decide : "STAGE".toList ∈ workingVariables) stage
  cases dir with
  | none =>
      obtain rfl := Option.some.inj hrun
      exact ⟨pairs, staged, fun pair member => .inl member⟩
  | some d =>
      obtain ⟨next, hload, hrm⟩ := Option.bind_eq_some_iff.mp hrun
      obtain ⟨-, hnext⟩ := Option.ite_none_right_eq_some.mp hrm
      obtain rfl := Option.some.inj hnext
      exact (staged.assign (by decide) _).loadFiles hnameVar hload

theorem recorded_init {shell : Beginning} {c : Container}
    (hrun : init echo shell c = some sh) : ∃ pairs, Recorded echo pairs sh ∧
      ∀ pair ∈ pairs,
        pair ∈ (EnvDir.list c.contEnv ++ EnvDir.list c.secrets).map EnvFile.pair := by
  obtain ⟨sh₂, hload, hfinish⟩ := Option.bind_eq_some_iff.mp hrun
  obtain ⟨sh₁, hcontEnv, hsecrets⟩ := Option.bind_eq_some_iff.mp hload
  have started : Recorded echo [] (startInit shell c) :=
    ⟨rfl, fun _ member => (List.not_mem_nil member).elim,
      fun _ _ _ member => (List.not_mem_nil member).elim⟩
  obtain ⟨pairs₁, first, among₁⟩ := started.loadStage (by decide) hcontEnv
  obtain ⟨pairs₂, second, among₂⟩ := first.loadStage (by decide) hsecrets
  obtain ⟨-, hsh⟩ := Option.ite_none_right_eq_some.mp hfinish
  obtain rfl := Option.some.inj hsh
  refine ⟨pairs₂, (second.assign (by decide) _).assign (by decide) _, fun pair member => ?_⟩
  rw [List.map_append, List.mem_append]
  exact (among₂ pair member).imp_left fun earlier =>
    (among₁ pair earlier).resolve_left List.not_mem_nil

/-- Lines that are read back make a file that is. -/
theorem Recorded.source (h : Recorded echo pairs sh)
    (hpairs : ∀ pair ∈ pairs, RoundTrip echo pair.1 pair.2) (vars : Variables) :
    source sh.internal vars = some (exportAll pairs vars) := by
  rw [h.internal]
  exact source_commands fun pair member =>
    (roundTrip_iff_source (h.named pair member)).mp (hpairs pair member)

end File

/-- The line for a variable gives it its value back exactly if the value stands for itself between
double quotes, with an `echo` that prints what it is given, and if there is no backslash in it
besides, with any `echo`; the variable `var_name` has to have its own name as its value. The lines
are for files of the container, and when all of them are read back every variable in them that the
script does not use itself gets the value that the script has. -/
theorem internal_roundTrip (name val : Str) (echo : Str → Str) (shell : Beginning)
    (c : Container) (sh : InitShell) :
    (Identifier name → '\n' ∉ val →
      (RoundTrip plainEcho name val ↔
        Verbatim val = true ∧ (name = "var_name".toList → val = "var_name".toList)) ∧
      ((∀ echo, Conforming echo → RoundTrip echo name val) ↔
        Verbatim val = true ∧ '\\' ∉ val ∧
          (name = "var_name".toList → val = "var_name".toList))) ∧
    (init echo shell c = some sh →
      ∃ pairs, Recorded echo pairs sh ∧
        (∀ pair ∈ pairs,
          pair ∈ (EnvDir.list c.contEnv ++ EnvDir.list c.secrets).map EnvFile.pair) ∧
        ((∀ pair ∈ pairs, RoundTrip echo pair.1 pair.2) →
          ∀ vars, ∃ vars', source sh.internal vars = some vars' ∧
            ∀ n, n ∉ workingVariables → n ∈ pairs.map Prod.fst → vars' n = sh.vars n)) := by
  constructor
  · intro hname hline
    constructor
    · rw [roundTrip_iff_source hname.ne_nil]
      exact source_plainEcho_iff hname hline
    · rw [← source_conforming_iff hname hline]
      exact forall₂_congr fun echo _ => roundTrip_iff_source hname.ne_nil
  · intro hrun
    obtain ⟨pairs, recorded, among⟩ := recorded_init hrun
    refine ⟨pairs, recorded, among, fun hpairs vars => ?_⟩
    exact ⟨_, recorded.source hpairs vars, fun n hn listed => recorded.last vars n hn listed⟩

/-- The file of a container that has one line. -/
theorem internal_roundTrip_application :
    RoundTrip plainEcho "APP_NAME".toList "xterm".toList ∧
      (∀ echo, Conforming echo → RoundTrip echo "APP_NAME".toList "xterm".toList) ∧
      ∃ sh, init plainEcho ash application = some sh ∧
        ∀ vars, ∃ vars', source sh.internal vars = some vars' ∧
          vars' "APP_NAME".toList = sh.vars "APP_NAME".toList := by
  have line := (internal_roundTrip "APP_NAME".toList "xterm".toList plainEcho ash application
    ⟨fun _ => none, []⟩).1 (by decide) (by decide)
  have plain := line.1.mpr (by decide)
  refine ⟨plain, line.2.mpr (by decide), _, rfl, fun vars => ?_⟩
  obtain ⟨pairs, recorded, among, sourced⟩ :=
    (internal_roundTrip "APP_NAME".toList "xterm".toList plainEcho ash application _).2 rfl
  have only : ∀ pair ∈ pairs, pair = ("APP_NAME".toList, "xterm".toList) :=
    fun pair member => List.mem_singleton.mp (among pair member)
  obtain ⟨vars', read, same⟩ := sourced (fun pair member => by rw [only pair member]; exact plain)
    vars
  refine ⟨vars', read, same _ (by decide) ?_⟩
  cases pairs with
  | nil => exact absurd recorded.internal (by decide)
  | cons pair pairs =>
      rw [List.map_cons, only pair List.mem_cons_self]
      exact List.mem_cons_self

/-- A secret with a `$` in front of a letter is read as an expansion. -/
theorem dollar_lost :
    ¬ RoundTrip plainEcho "DB_PASSWORD".toList "pa$word".toList := by
  intro h
  have hsource := (roundTrip_iff_source (by decide)).mp h
  have hverbatim := ((source_plainEcho_iff (by decide) (by decide)).mp hsource).1
  exact absurd hverbatim (by decide)

end Baseimage.Startup
