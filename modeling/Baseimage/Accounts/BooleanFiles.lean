import Baseimage.Accounts.InitUsers
import Baseimage.Cinit.Values

/-!
# Boolean files, read by the supervisor and by the shell

A file such as `disabled` holds a boolean value in the definitions of services, users and groups.
The supervisor looks at the first line without the white space around it, and the initialization
script of the accounts at the whole content without the line feeds at its end.
-/

namespace Baseimage.Accounts

open Cinit CString Startup

/-- The spellings of true and false, in lower case. -/
def trueWords : List Str := ["1", "true", "yes", "y", "enabled", "enable", "on"].map String.toList

def falseWords : List Str :=
  ["0", "false", "off", "no", "n", "disable", "disabled"].map String.toList

/-- The text stands for true. -/
def TrueWord (s : Str) : Prop := s.map Char.toLower ∈ trueWords

def FalseWord (s : Str) : Prop := s.map Char.toLower ∈ falseWords

instance (s : Str) : Decidable (TrueWord s) := inferInstanceAs (Decidable (_ ∈ _))

instance (s : Str) : Decidable (FalseWord s) := inferInstanceAs (Decidable (_ ∈ _))

/-- What `echo` writes. -/
def Echo.text (echo : Echo) (value : Str) : Str :=
  (echo.print value).flatMap fun line => line ++ ['\n']

/-- `is-bool-val-true VALUE`, where the value is given to `echo` on its way to the comparison. -/
def isBoolValTrueBy (echo : Echo) (value : Str) : Bool :=
  value ≠ "-h".toList && value ≠ "--help".toList && value ≠ [] &&
    isBoolValTrue (commandSubstitution (echo.text value))

/-- `is-bool-val-true "${disabled:-0}"`, where `disabled` is `$(get_content FILE boolean)`. -/
def isDisabled (echo : Echo) (content : Str) : Bool :=
  isBoolValTrueBy echo
    (orDefault ((getContentBoolean (.regular content)).getD []) "0".toList)

/-- The text that the supervisor converts. -/
def cinitText (content : Str) : Str := trim (terminateAtFirstEol content)

/-! ## Words -/

theorem tolower_eq (c : Char) : tolower c = c.toLower := by
  have same : (c.val ≥ 'A'.val ∧ c.val ≤ 'Z'.val) ↔
      ('A'.toNat ≤ c.toNat ∧ c.toNat ≤ 'Z'.toNat) :=
    and_congr UInt32.le_iff_toNat_le UInt32.le_iff_toNat_le
  unfold tolower Char.toLower
  by_cases upper : 'A'.toNat ≤ c.toNat ∧ c.toNat ≤ 'Z'.toNat
  · rw [if_pos upper, dif_pos (same.mpr upper)]
    apply Char.toNat_inj.mp
    have small : c.toNat ≤ 90 := upper.2
    have valid : (c.toNat + 32).isValidChar := Or.inl (by omega)
    rw [Char.toNat_ofNat, if_pos valid]
    show c.toNat + 32 = (c.val + 32).toNat
    rw [UInt32.toNat_add]
    show c.toNat + 32 = (c.toNat + 32) % 2 ^ 32
    omega
  · rw [if_neg upper, dif_neg (mt same.mp upper)]

theorem strcaseeq_iff {a b : Str} (lower : b.map Char.toLower = b) :
    strcaseeq a b = true ↔ a.map Char.toLower = b := by
  have mapped (s : Str) : s.map tolower = s.map Char.toLower :=
    List.map_congr_left fun c _ => tolower_eq c
  rw [strcaseeq, beq_iff_eq, mapped, mapped, lower]

theorem toLower_eq_digit {c digit : Char} (h : isdigit digit = true) :
    c.toLower = digit ↔ c = digit := by
  obtain ⟨low, high⟩ := Bool.and_eq_true_iff.mp h
  have low : 48 ≤ digit.toNat := of_decide_eq_true low
  have high : digit.toNat ≤ 57 := of_decide_eq_true high
  rw [← tolower_eq, tolower]
  split
  · next upper =>
      have upper : 65 ≤ c.toNat ∧ c.toNat ≤ 90 := upper
      have valid : (c.toNat + 32).isValidChar := Or.inl (by omega)
      rw [← Char.toNat_inj, ← Char.toNat_inj, Char.toNat_ofNat, if_pos valid]
      omega
  · exact Iff.rfl

/-- A digit is spelled in one way only. -/
theorem eq_digit_iff {a : Str} {digit : Char} (h : isdigit digit = true) :
    a = [digit] ↔ a.map Char.toLower = [digit] := by
  simp only [List.map_eq_singleton_iff, toLower_eq_digit h]
  simp

theorem isBoolValTrue_iff (value : Str) : isBoolValTrue value = true ↔ TrueWord value := by
  simp only [isBoolValTrue, TrueWord, trueWords, List.any_eq_true, List.mem_map, beq_iff_eq]

/-- The supervisor knows the same words. -/
theorem stringToBool_eq (s : Str) :
    stringToBool s =
      if TrueWord s then .ok true
      else if FalseWord s then .ok false
      else throwMessage "not a boolean value".toList := by
  have one : s = "1".toList ↔ s.map Char.toLower = "1".toList := eq_digit_iff rfl
  have zero : s = "0".toList ↔ s.map Char.toLower = "0".toList := eq_digit_iff rfl
  have word (b : Str) (lower : b.map Char.toLower = b) := @strcaseeq_iff s b lower
  have yes : (s = "1".toList || strcaseeq s "true".toList || strcaseeq s "on".toList ||
      strcaseeq s "yes".toList || strcaseeq s "y".toList || strcaseeq s "enable".toList ||
      strcaseeq s "enabled".toList) = true ↔ TrueWord s := by
    simp only [Bool.or_eq_true, decide_eq_true_eq, one, word "true".toList rfl,
      word "on".toList rfl,
      word "yes".toList rfl, word "y".toList rfl, word "enable".toList rfl,
      word "enabled".toList rfl, TrueWord, trueWords, List.map_cons, List.mem_cons]
    generalize s.map Char.toLower = lower
    grind
  have no : (s = "0".toList || strcaseeq s "false".toList || strcaseeq s "off".toList ||
      strcaseeq s "no".toList || strcaseeq s "n".toList || strcaseeq s "disable".toList ||
      strcaseeq s "disabled".toList) = true ↔ FalseWord s := by
    simp only [Bool.or_eq_true, decide_eq_true_eq, zero, word "false".toList rfl,
      word "off".toList rfl, word "no".toList rfl, word "n".toList rfl, word "disable".toList rfl,
      word "disabled".toList rfl, FalseWord, falseWords, List.map_cons, List.mem_cons]
    generalize s.map Char.toLower = lower
    grind
  simp only [stringToBool, yes, no]

/-- Every character of a word, in lower case, is a character of its spelling. -/
theorem toLower_mem_word {words : List Str} {s : Str} {c : Char}
    (word : s.map Char.toLower ∈ words) (hc : c ∈ s) : ∃ w ∈ words, c.toLower ∈ w :=
  ⟨_, word, List.mem_map_of_mem hc⟩

/-- No spelling of false begins one of true. -/
theorem falseWord_not_prefix : ∀ f ∈ falseWords, ∀ w ∈ trueWords, ¬ f <+: w := by
  decide +kernel

/-- White space, and the characters that `echo` or the shell could give a meaning, are in no
word. -/
theorem words_plain : ((falseWords ++ trueWords).all fun w => w.all fun c =>
    c != '\\' && c != '\n' && c != '-' && !isspace c) = true := by
  decide +kernel

theorem plain_of_word {w : Str} (member : w ∈ falseWords ++ trueWords) {c : Char} (hc : c ∈ w) :
    c ≠ '\\' ∧ c ≠ '\n' ∧ c ≠ '-' ∧ isspace c = false := by
  have checked := List.all_eq_true.mp (List.all_eq_true.mp words_plain w member) c hc
  simpa only [Bool.and_eq_true, bne_iff_ne, Bool.not_eq_true', and_assoc] using checked

theorem not_trueWord_of_falseWord {s : Str} (h : FalseWord s) : ¬ TrueWord s :=
  fun yes => falseWord_not_prefix _ h _ yes (List.prefix_refl _)

theorem FalseWord.ne_nil {s : Str} (h : FalseWord s) : s ≠ [] := by
  rintro rfl
  exact falseWord_not_prefix _ h "1".toList List.mem_cons_self List.nil_prefix

/-! ## The supervisor -/

section Cinit

variable {sys : System} {filepath stack content : Str}

theorem converted_eq_ok_iff {x : Outcome Str Bool} {b : Bool} :
    (x >>= fun value => .ok (some value)).handle
        (fun message => throwMessage (couldNotLoad filepath message)) = .ok (some b) ↔
      x = .ok b := by
  cases x with
  | ok a => simp [Outcome.handle]
  | threw e => simp [Outcome.handle]
  | aborted => simp [Outcome.handle]

/-- A file that fits in the buffer and has no NUL. -/
theorem loadValueAsBool_file (size : content.length ≤ 31) (nulFree : NulFree content) {b : Bool} :
    loadValueAsBool sys filepath (some (.file content)) stack = .ok (some b) ↔
      if b then cinitText content = [] ∨ TrueWord (cinitText content)
      else FalseWord (cinitText content) := by
  have fits : ¬ content.length > 32 - 1 := by omega
  have loaded : loadValueAsString sys filepath (some (.file content)) (some stack) 32 =
      .ok (true, some content) := by
    simp only [loadValueAsString, readFile, if_neg fits, ofBuffer_of_nulFree nulFree]
    rfl
  have value : loadValueAsBool sys filepath (some (.file content)) stack =
      ((if (cinitText content).length = 0 then .ok true else stringToBool (cinitText content)) >>=
        fun value => .ok (some value)).handle
          (fun message => throwMessage (couldNotLoad filepath message)) := by
    simp only [loadValueAsBool, loadValueAs, loaded]
    rfl
  rw [value, converted_eq_ok_iff, stringToBool_eq]
  by_cases empty : cinitText content = []
  · have notFalse : ¬ FalseWord (cinitText content) := fun false => false.ne_nil empty
    rw [if_pos (List.length_eq_zero_iff.mpr empty)]
    cases b with
    | true => simp [empty]
    | false => simp [notFalse]
  · rw [if_neg (mt List.length_eq_zero_iff.mp empty)]
    by_cases yes : TrueWord (cinitText content)
    · have notFalse := mt not_trueWord_of_falseWord (not_not.mpr yes)
      rw [if_pos yes]
      cases b with
      | true => simp [yes]
      | false => simp [notFalse]
    · rw [if_neg yes]
      by_cases no : FalseWord (cinitText content)
      · rw [if_pos no]
        cases b with
        | true => simp [empty, yes]
        | false => simp [no]
      · rw [if_neg no]
        cases b with
        | true => simp [empty, yes]
        | false => simp [no]

/-- Trimming removes white space at both ends and nothing else. -/
theorem exists_around_trim (s : Str) :
    ∃ before behind, s = before ++ (trim s ++ behind) ∧ (∀ c ∈ before, isspace c = true) ∧
      ∀ c ∈ behind, isspace c = true := by
  refine ⟨(s.rdropWhile isspace).takeWhile isspace, s.rtakeWhile isspace, ?_,
    fun c hc => List.mem_takeWhile_imp hc, fun c hc => List.mem_rtakeWhile_imp hc⟩
  rw [trim, ← List.append_assoc, List.takeWhile_append_dropWhile, List.rdropWhile_append_rtakeWhile]

theorem mem_trim {s : Str} {c : Char} (hc : c ∈ s) (visible : isspace c = false) : c ∈ trim s := by
  obtain ⟨before, behind, cut, spaceBefore, spaceBehind⟩ := exists_around_trim s
  rw [cut] at hc
  rcases List.mem_append.mp hc with first | hc
  · exact absurd (visible.symm.trans (spaceBefore c first)) Bool.false_ne_true
  · rcases List.mem_append.mp hc with inside | last
    · exact inside
    · exact absurd (visible.symm.trans (spaceBehind c last)) Bool.false_ne_true

/-- What the supervisor converts stands in the first line, behind white space only. -/
theorem exists_around_cinitText (content : Str) :
    ∃ before rest, content = (before ++ cinitText content) ++ rest ∧
      ∀ c ∈ before, isspace c = true ∧ c ≠ '\n' := by
  obtain ⟨before, behind, cut, spaceBefore, -⟩ := exists_around_trim (terminateAtFirstEol content)
  obtain ⟨rest, line⟩ : terminateAtFirstEol content <+: content := List.takeWhile_prefix _
  refine ⟨before, behind ++ rest, ?_, fun c hc => ⟨spaceBefore c hc, ?_⟩⟩
  · calc content = terminateAtFirstEol content ++ rest := line.symm
      _ = before ++ (cinitText content ++ behind) ++ rest := congrArg (· ++ rest) cut
      _ = before ++ cinitText content ++ (behind ++ rest) := by simp
  · rintro rfl
    have member : '\n' ∈ terminateAtFirstEol content := cut ▸ List.mem_append_left _ hc
    exact absurd (List.mem_takeWhile_imp member) (by decide)

/-- A value that the supervisor loads is no option. -/
theorem head_ne_hyphen_of_value
    (value : cinitText content = [] ∨ TrueWord (cinitText content)) :
    content.head? ≠ some '-' := by
  intro hyphen
  obtain ⟨rest, rfl⟩ := List.head?_eq_some_iff.mp hyphen
  have inLine : '-' ∈ terminateAtFirstEol ('-' :: rest) := by
    simp [terminateAtFirstEol, isEol]
  have inText := mem_trim inLine (by decide)
  rcases value with empty | word
  · exact List.ne_nil_of_mem inText empty
  · obtain ⟨w, member, inWord⟩ := toLower_mem_word word inText
    exact (plain_of_word (List.mem_append_right _ member) inWord).2.2.1 rfl

end Cinit

/-! ## The shell -/

section Shell

variable {echo : Echo} {content value : Str}

/-- What stands in front of the line feeds at the end stays. -/
theorem prefix_commandSubstitution {a s : Str} (ha : '\n' ∉ a) (h : a <+: s) :
    a <+: commandSubstitution s := by
  obtain ⟨b, rfl⟩ := h
  induction b using List.reverseRecOn with
  | nil =>
      rw [List.append_nil, commandSubstitution, List.rdropWhile_eq_self_iff.mpr]
      intro nonempty lineFeed
      exact ha (eq_of_beq lineFeed ▸ List.getLast_mem nonempty)
  | append_singleton b c ih =>
      rw [← List.append_assoc, commandSubstitution]
      by_cases hc : c = '\n'
      · rw [List.rdropWhile_concat_pos (fun c => c == '\n') _ c (by simpa using hc)]
        exact ih
      · rw [List.rdropWhile_concat_neg (fun c => c == '\n') _ c (by simpa using hc)]
        exact ⟨b ++ [c], by simp⟩

theorem commandSubstitution_begins (s : Str) : commandSubstitution s <+: s :=
  List.rdropWhile_prefix _ _

theorem commandSubstitution_head {c : Char} (h : content.head? ≠ some c) :
    (commandSubstitution content).head? ≠ some c := by
  intro head
  obtain ⟨cs, value⟩ := List.head?_eq_some_iff.mp head
  obtain ⟨rest, whole⟩ := commandSubstitution_begins content
  rw [value] at whole
  exact h (whole ▸ rfl)

/-- `echo` writes a plain value as it is. -/
theorem commandSubstitution_text (backslash : '\\' ∉ value) (hyphen : value.head? ≠ some '-') :
    commandSubstitution (echo.text value) = commandSubstitution value := by
  have whole : (value.splitOn '\n').flatMap (fun line => line ++ ['\n']) = value ++ ['\n'] := by
    have rebuilt := Lines.feed_rebuild (fun c => c == '\n') (t := '\n') (by simp) [] value
    have pieces : value.splitOn '\n' = _ := Lines.splitOnP_eq_feed value
    rw [pieces, List.flatMap_append, List.flatMap_singleton, ← List.append_assoc, rebuilt]
    rfl
  rw [Echo.text, echo.plain backslash hyphen, whole, commandSubstitution,
    List.rdropWhile_concat_pos _ _ _ (by rfl)]
  rfl

theorem isBoolValTrueBy_iff (nonempty : value ≠ []) (hyphen : value.head? ≠ some '-') :
    isBoolValTrueBy echo value = true ↔ TrueWord (commandSubstitution (echo.text value)) := by
  have noOption {option : Str} (begins : option.head? = some '-') : value ≠ option := by
    rintro rfl
    exact hyphen begins
  have short : value ≠ "-h".toList := noOption rfl
  have long : value ≠ "--help".toList := noOption rfl
  rw [← isBoolValTrue_iff, isBoolValTrueBy, decide_eq_true short, decide_eq_true long,
    decide_eq_true nonempty, Bool.true_and, Bool.true_and, Bool.true_and]

/-- The value of a file that is not empty. -/
theorem isDisabled_iff (nonempty : content ≠ []) (hyphen : content.head? ≠ some '-') :
    isDisabled echo content = true ↔
      TrueWord (commandSubstitution (echo.text (commandSubstitution content))) := by
  have read : getContentBoolean (.regular content) = some (commandSubstitution content) := by
    cases content with
    | nil => exact absurd rfl nonempty
    | cons c cs => rfl
  rw [isDisabled, read, Option.getD_some]
  by_cases blank : commandSubstitution content = []
  · have nothing : '\\' ∉ ([] : Str) := List.not_mem_nil
    rw [blank, orDefault, if_pos rfl, isBoolValTrueBy_iff (by decide) (by decide),
      commandSubstitution_text (by decide) (by decide),
        commandSubstitution_text nothing (by decide)]
    exact iff_of_false (by decide +kernel) (by decide +kernel)
  · rw [orDefault, if_neg blank, isBoolValTrueBy_iff blank (commandSubstitution_head hyphen)]

/-- The characters that `echo` or the shell could give a meaning are in no word. -/
theorem plain_of_falseWord {s : Str} (word : FalseWord s) {c : Char} (hc : c ∈ s) :
    c ≠ '\\' ∧ c ≠ '\n' ∧ c ≠ '-' := by
  obtain ⟨w, member, inWord⟩ := toLower_mem_word word hc
  have plain := plain_of_word (List.mem_append_left _ member) inWord
  refine ⟨?_, ?_, ?_⟩
  · rintro rfl
    exact plain.1 rfl
  · rintro rfl
    exact plain.2.1 rfl
  · rintro rfl
    exact plain.2.2.1 rfl

/-- White space has no other case, and no word begins with it. -/
theorem not_isspace_of_word {w : Str} (member : w ∈ trueWords) {c : Char} (hc : c.toLower ∈ w) :
    isspace c = false := by
  have visible := (plain_of_word (List.mem_append_right _ member) hc).2.2.2
  cases space : isspace c with
  | false => rfl
  | true =>
      have same : c.toLower = c := by
        simp only [isspace, Bool.or_eq_true, beq_iff_eq] at space
        rcases space with ((((rfl | rfl) | rfl) | rfl) | rfl) | rfl <;> rfl
      rw [same, space] at visible
      exact visible

/-- The shell never reads true where the supervisor reads false. -/
theorem not_isDisabled_of_falseWord (no : FalseWord (cinitText content)) :
    isDisabled echo content ≠ true := by
  obtain ⟨before, rest, cut, spaces⟩ := exists_around_cinitText content
  have plain : ∀ c ∈ before ++ cinitText content, c ≠ '\\' ∧ c ≠ '\n' ∧ c ≠ '-' := by
    intro c hc
    rcases List.mem_append.mp hc with first | inside
    · obtain ⟨space, lineFeed⟩ := spaces c first
      refine ⟨?_, lineFeed, ?_⟩
      · rintro rfl
        exact absurd space (by decide)
      · rintro rfl
        exact absurd space (by decide)
    · exact plain_of_falseWord no inside
  have backslash : '\\' ∉ before ++ cinitText content := fun hc => (plain _ hc).1 rfl
  have lineFeed : '\n' ∉ before ++ cinitText content := fun hc => (plain _ hc).2.1 rfl
  have hyphen : (before ++ cinitText content).head? ≠ some '-' :=
    fun head => (plain _ (List.mem_of_mem_head? head)).2.2 rfl
  have nonempty : before ++ cinitText content ≠ [] := List.append_ne_nil_of_right_ne_nil _ no.ne_nil
  have begins : before ++ cinitText content <+: content := ⟨rest, cut.symm⟩
  have sameHead : content.head? = (before ++ cinitText content).head? :=
    (congrArg List.head? cut).trans (List.head?_append_of_ne_nil _ nonempty)
  rw [Ne, isDisabled_iff (begins.ne_nil nonempty) (sameHead ▸ hyphen)]
  intro yes
  obtain ⟨b, printed⟩ := prefix_commandSubstitution lineFeed begins
  obtain ⟨first, others, lines⟩ := echo.begins (b := b) backslash lineFeed nonempty hyphen
  have text : before ++ cinitText content <+: echo.text (commandSubstitution content) := by
    rw [← printed, Echo.text, lines, List.flatMap_cons, List.append_assoc, List.append_assoc]
    exact List.prefix_append _ _
  -- So a true word would begin with what the supervisor converts.
  have inWord := (prefix_commandSubstitution lineFeed text).map Char.toLower
  have noSpace : before = [] := by
    apply List.eq_nil_iff_forall_not_mem.mpr
    intro c hc
    have member := inWord.subset (List.mem_map_of_mem (List.mem_append_left _ hc))
    exact absurd ((spaces c hc).1.symm.trans (not_isspace_of_word yes member)) (by decide)
  rw [noSpace, List.nil_append] at inWord
  exact falseWord_not_prefix _ no _ yes inWord

end Shell

/-! ## Where the two agree -/

/-- Whenever the supervisor loads a value, it is the one that the shell reads. -/
def Agrees (echo : Echo) (sys : System) (filepath stack content : Str) : Prop :=
  ∀ b, loadValueAsBool sys filepath (some (.file content)) stack = .ok (some b) →
    (isDisabled echo content = true ↔ b = true)

/-- The two agree exactly on a file that is empty, on one that holds a true word and line feeds
behind it, and on one that does not stand for true to the supervisor. A backslash may make `echo`
write a true word. -/
theorem agrees_booleans_iff (echo : Echo) (sys : System) (filepath stack : Str) {content : Str}
    (size : content.length ≤ 31) (nulFree : NulFree content) :
    Agrees echo sys filepath stack content ↔
      content = [] ∨ TrueWord (content.rdropWhile fun c => c == '\n') ∨
        (trim (terminateAtFirstEol content) ≠ [] ∧
          ¬ TrueWord (trim (terminateAtFirstEol content))) ∨
        ('\\' ∈ content ∧
          TrueWord ((echo.text (content.rdropWhile fun c => c == '\n')).rdropWhile
            fun c => c == '\n')) := by
  show _ ↔ content = [] ∨ TrueWord (commandSubstitution content) ∨
    (cinitText content ≠ [] ∧ ¬ TrueWord (cinitText content)) ∨
    ('\\' ∈ content ∧ TrueWord (commandSubstitution (echo.text (commandSubstitution content))))
  by_cases value : cinitText content = [] ∨ TrueWord (cinitText content)
  · have loaded : loadValueAsBool sys filepath (some (.file content)) stack = .ok (some true) :=
      (loadValueAsBool_file size nulFree).mpr value
    have hyphen := head_ne_hyphen_of_value value
    have agrees : Agrees echo sys filepath stack content ↔ isDisabled echo content = true := by
      refine ⟨fun h => (h true loaded).mpr rfl, fun yes b other => iff_of_true yes ?_⟩
      rw [loaded] at other
      cases other
      rfl
    rw [agrees]
    by_cases empty : content = []
    · subst empty
      refine iff_of_true ((isBoolValTrueBy_iff (by decide) (by decide)).mpr ?_) (Or.inl rfl)
      rw [commandSubstitution_text (by decide) (by decide)]
      decide +kernel
    · have plain (backslash : '\\' ∉ commandSubstitution content) :
          commandSubstitution (echo.text (commandSubstitution content)) =
            commandSubstitution content :=
        (commandSubstitution_text backslash (commandSubstitution_head hyphen)).trans
          (List.rdropWhile_idempotent _ _)
      rw [isDisabled_iff empty hyphen]
      constructor
      · intro yes
        by_cases backslash : '\\' ∈ content
        · exact Or.inr (Or.inr (Or.inr ⟨backslash, yes⟩))
        · have written := plain fun inside =>
            backslash ((commandSubstitution_begins content).subset inside)
          exact Or.inr (Or.inl (written ▸ yes))
      · rintro (nothing | word | other | ⟨-, yes⟩)
        · exact absurd nothing empty
        · have written := plain fun inside => by
            obtain ⟨w, member, inWord⟩ := toLower_mem_word word inside
            exact (plain_of_word (List.mem_append_right _ member) inWord).1 rfl
          exact written.symm ▸ word
        · exact absurd value (not_or.mpr other)
        · exact yes
  · have notTrue : Agrees echo sys filepath stack content := by
      intro b loaded
      rw [loadValueAsBool_file size nulFree] at loaded
      cases b with
      | true => exact absurd loaded value
      | false => exact iff_of_false (not_isDisabled_of_falseWord loaded) Bool.false_ne_true
    exact iff_of_true notTrue (Or.inr (Or.inr (Or.inl (not_or.mp value))))

/-- A system without users and groups. -/
def nobodySystem : System where
  malloc _ := true
  strerror _ := []
  getpwnam _ := none
  getgrnam _ := none

/-- A file with one line, ended by a line feed. -/
theorem agrees_booleans_iff_oneLine :
    Agrees Echo.literal nobodySystem "disabled".toList [] "Yes\n".toList :=
  (agrees_booleans_iff Echo.literal nobodySystem "disabled".toList [] (by decide)
    (by decide +kernel)).mpr (by decide +kernel)

/-- With a carriage return in front of the line feed the supervisor loads true and the shell reads
false. -/
theorem booleans_disagree_crlf :
    loadValueAsBool nobodySystem "disabled".toList (some (.file "yes\r\n".toList)) [] =
        .ok (some true) ∧
      isDisabled Echo.literal "yes\r\n".toList = false ∧
      ¬ Agrees Echo.literal nobodySystem "disabled".toList [] "yes\r\n".toList := by
  have loaded : loadValueAsBool nobodySystem "disabled".toList (some (.file "yes\r\n".toList)) [] =
      .ok (some true) := by decide +kernel
  have read : isDisabled Echo.literal "yes\r\n".toList = false := by decide +kernel
  refine ⟨loaded, read, fun agrees => ?_⟩
  exact absurd (read.symm.trans ((agrees true loaded).mpr rfl)) Bool.false_ne_true

end Baseimage.Accounts
