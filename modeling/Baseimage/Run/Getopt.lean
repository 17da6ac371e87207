import Mathlib

/-!
# The options of a command line

`getopt_long` goes over the arguments of a program. An argument that begins with a hyphen has
options in it, and the last of them may take the argument behind it; any other one is an operand,
wherever it stands. A long option may be abbreviated.

A spelling says how options may be written: letters that stand together, a value that is glued to
its option or that is the next argument. What is read without a fault and without operands are
exactly the spellings.
-/

namespace Getopt

structure Long where
  name : List Char
  hasArg : Bool
  val : Char
  deriving DecidableEq, Repr

/-- The options of a program. A hyphen is none. -/
structure Table where
  /-- Whether a short option takes an argument. -/
  short : Char → Option Bool
  long : List Long
  short_hyphen : short '-' = none

/-- What `getopt_long` returns: an option with its argument, or `?`. -/
inductive Item where
  | option (val : Char) (optarg : Option (List Char))
  | invalid
  deriving DecidableEq, Repr

/-- Entries of a table of short options: a colon stands behind an option that takes an argument. -/
def shortOptions : List Char → Char → Option Bool
  | [], _ => none
  | [c], d => if d = c then some false else none
  | c :: ':' :: rest, d => if d = c then some true else shortOptions rest d
  | c :: next :: rest, d => if d = c then some false else shortOptions (next :: rest) d

namespace Table

variable (t : Table)

/-- The long option of this name, or the only one whose name begins so. -/
def find (name : List Char) : Option Long :=
  match t.long.find? fun l => l.name == name with
  | some l => some l
  | none =>
      match t.long.filter fun l => name.isPrefixOf l.name with
      | [l] => some l
      | _ => none

/-- The short options of an argument, and the one that takes the next argument. -/
def cluster : List Char → List Item × Option Char
  | [] => ([], none)
  | c :: cs =>
      match t.short c with
      | none => (.invalid :: (cluster cs).1, (cluster cs).2)
      | some false => (.option c none :: (cluster cs).1, (cluster cs).2)
      | some true => if cs = [] then ([], some c) else ([.option c (some cs)], none)

/-- The long option of an argument, or that it takes the next argument. -/
def longOption (text : List Char) : List Item × Option Char :=
  match t.find (text.takeWhile fun c => c ≠ '=') with
  | none => ([.invalid], none)
  | some l =>
      match text.dropWhile fun c => c ≠ '=' with
      | [] => if l.hasArg then ([], some l.val) else ([.option l.val none], none)
      | _ :: value =>
          if l.hasArg then ([.option l.val (some value)], none) else ([.invalid], none)

/-- `getopt_long`, called until there is no option left, where an option may wait for its
argument. The operands are left. -/
def getopt : Option Char → List (List Char) → List Item × List (List Char)
  | none, [] => ([], [])
  | some _, [] => ([.invalid], [])
  | some val, arg :: args =>
      (.option val (some arg) :: (getopt none args).1, (getopt none args).2)
  | none, ('-' :: '-' :: text) :: args =>
      if text = [] then ([], args)
      else
        ((t.longOption text).1 ++ (getopt (t.longOption text).2 args).1,
          (getopt (t.longOption text).2 args).2)
  | none, ('-' :: c :: cs) :: args =>
      ((t.cluster (c :: cs)).1 ++ (getopt (t.cluster (c :: cs)).2 args).1,
        (getopt (t.cluster (c :: cs)).2 args).2)
  | none, arg :: args => ((getopt none args).1, arg :: (getopt none args).2)

/-- Options that take no argument. -/
def Flags (flags : List Char) : Prop := ∀ c ∈ flags, t.short c = some false

/-- How options may be written as arguments. -/
inductive Spelling : List Item → List (List Char) → Prop
  | nil : Spelling [] []
  | endOfOptions : Spelling [] ["--".toList]
  | flags {flags items args} : t.Flags flags → flags ≠ [] → Spelling items args →
      Spelling (flags.map (.option · none) ++ items) (('-' :: flags) :: args)
  | glued {flags val value items args} : t.Flags flags → t.short val = some true → value ≠ [] →
      Spelling items args →
      Spelling (flags.map (.option · none) ++ .option val (some value) :: items)
        (('-' :: (flags ++ val :: value)) :: args)
  | separate {flags val value items args} : t.Flags flags → t.short val = some true →
      Spelling items args →
      Spelling (flags.map (.option · none) ++ .option val (some value) :: items)
        (('-' :: (flags ++ [val])) :: value :: args)
  | longFlag {name l items args} : t.find name = some l → l.hasArg = false → name ≠ [] →
      '=' ∉ name → Spelling items args →
      Spelling (.option l.val none :: items) (('-' :: '-' :: name) :: args)
  | longGlued {name l value items args} : t.find name = some l → l.hasArg = true → '=' ∉ name →
      Spelling items args →
      Spelling (.option l.val (some value) :: items)
        (('-' :: '-' :: (name ++ '=' :: value)) :: args)
  | longSeparate {name l value items args} : t.find name = some l → l.hasArg = true → name ≠ [] →
      '=' ∉ name → Spelling items args →
      Spelling (.option l.val (some value) :: items) (('-' :: '-' :: name) :: value :: args)

variable {t}

/-! ## Spellings are read -/

theorem flags_nil : t.Flags [] := by simp [Flags]

theorem cluster_flags {flags : List Char} (h : t.Flags flags) (rest : List Char) :
    t.cluster (flags ++ rest) =
      (flags.map (.option · none) ++ (t.cluster rest).1, (t.cluster rest).2) := by
  induction flags with
  | nil => rfl
  | cons c flags ih =>
      obtain ⟨flag, flags⟩ := List.forall_mem_cons.mp h
      rw [List.cons_append, cluster, flag]
      dsimp only
      rw [ih flags]
      rfl

theorem cluster_glued {flags value : List Char} {val : Char} (h : t.Flags flags)
    (takes : t.short val = some true) (nonempty : value ≠ []) :
    t.cluster (flags ++ val :: value) =
      (flags.map (.option · none) ++ [.option val (some value)], none) := by
  rw [cluster_flags h, cluster, takes]
  dsimp only
  rw [if_neg nonempty]

theorem cluster_separate {flags : List Char} {val : Char} (h : t.Flags flags)
    (takes : t.short val = some true) :
    t.cluster (flags ++ [val]) = (flags.map (.option · none), some val) := by
  rw [cluster_flags h, cluster, takes]
  simp

theorem cluster_all {flags : List Char} (h : t.Flags flags) :
    t.cluster flags = (flags.map (.option · none), none) := by
  have read := cluster_flags h []
  rw [List.append_nil] at read
  rw [read]
  simp [cluster]

theorem ne_hyphen {c : Char} {takes : Bool} (h : t.short c = some takes) : c ≠ '-' := by
  rintro rfl
  rw [t.short_hyphen] at h
  cases h

/-- An argument with short options. -/
theorem getopt_cluster {c : Char} (h : c ≠ '-') (cs : List Char) (args : List (List Char)) :
    t.getopt none (('-' :: c :: cs) :: args) =
      ((t.cluster (c :: cs)).1 ++ (t.getopt (t.cluster (c :: cs)).2 args).1,
        (t.getopt (t.cluster (c :: cs)).2 args).2) := by
  rw [getopt]
  exact h

theorem getopt_flags {flags : List Char} {val : Char} (h : t.Flags flags)
    (takes : t.short val = some true) (rest : List Char) (args : List (List Char)) :
    t.getopt none (('-' :: (flags ++ val :: rest)) :: args) =
      ((t.cluster (flags ++ val :: rest)).1 ++
        (t.getopt (t.cluster (flags ++ val :: rest)).2 args).1,
        (t.getopt (t.cluster (flags ++ val :: rest)).2 args).2) := by
  cases flags with
  | nil => exact getopt_cluster (ne_hyphen takes) rest args
  | cons c flags => exact getopt_cluster (ne_hyphen (h c List.mem_cons_self)) _ args

theorem getopt_long {text : List Char} (h : text ≠ []) (args : List (List Char)) :
    t.getopt none (('-' :: '-' :: text) :: args) =
      ((t.longOption text).1 ++ (t.getopt (t.longOption text).2 args).1,
        (t.getopt (t.longOption text).2 args).2) := by
  rw [getopt, if_neg h]

@[simp] theorem getopt_some (val : Char) (arg : List Char) (args : List (List Char)) :
    t.getopt (some val) (arg :: args) =
      (.option val (some arg) :: (t.getopt none args).1, (t.getopt none args).2) := rfl

theorem longOption_flag {name : List Char} {l : Long} (found : t.find name = some l)
    (plain : '=' ∉ name) :
    t.longOption name = if l.hasArg then ([], some l.val) else ([.option l.val none], none) := by
  have all : ∀ c ∈ name, decide (c ≠ '=') = true := by
    intro c hc
    exact decide_eq_true fun same => plain (same ▸ hc)
  rw [longOption, List.takeWhile_eq_self_iff.mpr all, found, List.dropWhile_eq_nil_iff.mpr all]

theorem longOption_glued {name : List Char} {l : Long} (found : t.find name = some l)
    (takes : l.hasArg = true) (plain : '=' ∉ name) (value : List Char) :
    t.longOption (name ++ '=' :: value) = ([.option l.val (some value)], none) := by
  have all : ∀ c ∈ name, decide (c ≠ '=') = true := by
    intro c hc
    exact decide_eq_true fun same => plain (same ▸ hc)
  rw [longOption, List.takeWhile_append_of_pos all, List.dropWhile_append_of_pos all]
  simp [found, takes]

/-- What is spelled is read. -/
theorem Spelling.getopt {items : List Item} {args : List (List Char)} (h : t.Spelling items args) :
    t.getopt none args = (items, []) := by
  induction h with
  | nil => rfl
  | endOfOptions => rfl
  | @flags flags items args all nonempty _ ih =>
      obtain ⟨c, cs, rfl⟩ := List.exists_cons_of_ne_nil nonempty
      rw [getopt_cluster (ne_hyphen (all c List.mem_cons_self)), cluster_all all, ih]
  | glued all takes nonempty _ ih =>
      rw [getopt_flags all takes, cluster_glued all takes nonempty, ih]
      simp
  | separate all takes _ ih =>
      rw [getopt_flags all takes, cluster_separate all takes, getopt_some, ih]
  | longFlag found takes nonempty plain _ ih =>
      rw [getopt_long nonempty, longOption_flag found plain, takes]
      simp [ih]
  | longGlued found takes plain _ ih =>
      rw [getopt_long (by simp), longOption_glued found takes plain]
      simp [ih]
  | longSeparate found takes nonempty plain _ ih =>
      rw [getopt_long nonempty, longOption_flag found plain, takes]
      simp [ih]

/-! ## What is read is spelled -/

/-- Nothing is wrong with the options. -/
def Valid (items : List Item) : Prop := ∀ item ∈ items, item ≠ .invalid

/-- What a cluster without a fault is made of. -/
theorem cluster_cases {text : List Char} (h : Valid (t.cluster text).1) :
    ∃ flags, t.Flags flags ∧
      ((text = flags ∧ t.cluster text = (flags.map (.option · none), none)) ∨
        (∃ val value, t.short val = some true ∧ value ≠ [] ∧ text = flags ++ val :: value ∧
          t.cluster text = (flags.map (.option · none) ++ [.option val (some value)], none)) ∨
        ∃ val, t.short val = some true ∧ text = flags ++ [val] ∧
          t.cluster text = (flags.map (.option · none), some val)) := by
  induction text with
  | nil => exact ⟨[], flags_nil, .inl ⟨rfl, rfl⟩⟩
  | cons c cs ih =>
      cases hc : t.short c with
      | none =>
          rw [cluster, hc] at h
          exact absurd rfl (h _ List.mem_cons_self)
      | some takes =>
          cases takes with
          | true =>
              refine ⟨[], flags_nil, ?_⟩
              by_cases empty : cs = []
              · subst empty
                exact .inr (.inr ⟨c, hc, rfl, cluster_separate flags_nil hc⟩)
              · exact .inr (.inl ⟨c, cs, hc, empty, rfl,
                  cluster_glued flags_nil hc empty⟩)
          | false =>
              rw [cluster, hc] at h
              obtain ⟨flags, all, parts⟩ := ih fun item hitem =>
                h item (List.mem_cons_of_mem _ hitem)
              have more : t.Flags (c :: flags) := List.forall_mem_cons.mpr ⟨hc, all⟩
              refine ⟨c :: flags, more, ?_⟩
              obtain ⟨rfl, -⟩ | ⟨val, value, takes, nonempty, rfl, -⟩ | ⟨val, takes, rfl, -⟩ :=
                parts
              · exact .inl ⟨rfl, cluster_all more⟩
              · exact .inr (.inl
                  ⟨val, value, takes, nonempty, rfl, cluster_glued more takes nonempty⟩)
              · exact .inr (.inr ⟨val, takes, rfl, cluster_separate more takes⟩)

/-- What a long option without a fault is. -/
theorem longOption_cases {text : List Char} (h : Valid (t.longOption text).1) :
    ∃ name l, t.find name = some l ∧ '=' ∉ name ∧
      ((text = name ∧ l.hasArg = false) ∨ (text = name ∧ l.hasArg = true) ∨
        ∃ value, text = name ++ '=' :: value ∧ l.hasArg = true) := by
  have plain : '=' ∉ text.takeWhile fun c => c ≠ '=' := by
    intro member
    have differs := List.mem_takeWhile_imp member
    simp at differs
  have parts := List.takeWhile_append_dropWhile (p := fun c => decide (c ≠ '=')) (l := text)
  have behind := List.head?_dropWhile_not (fun c => decide (c ≠ '=')) text
  rw [longOption] at h
  cases found : t.find (text.takeWhile fun c => c ≠ '=') with
  | none =>
      rw [found] at h
      exact absurd rfl (h _ List.mem_cons_self)
  | some l =>
      rw [found] at h
      refine ⟨_, l, found, plain, ?_⟩
      cases rest : text.dropWhile fun c => c ≠ '=' with
      | nil =>
          rw [rest, List.append_nil] at parts
          cases l.hasArg with
          | false => exact .inl ⟨parts.symm, rfl⟩
          | true => exact .inr (.inl ⟨parts.symm, rfl⟩)
      | cons c value =>
          rw [rest] at h behind parts
          have sign : c = '=' := by simpa using behind
          subst sign
          refine .inr (.inr ⟨value, parts.symm, ?_⟩)
          cases takes : l.hasArg with
          | true => rfl
          | false =>
              dsimp only at h
              rw [takes] at h
              exact absurd rfl (h _ List.mem_cons_self)

theorem Valid.left {a b : List Item} (h : Valid (a ++ b)) : Valid a :=
  fun item hitem => h item (List.mem_append_left b hitem)

theorem Valid.right {a b : List Item} (h : Valid (a ++ b)) : Valid b :=
  fun item hitem => h item (List.mem_append_right a hitem)

/-- An option that waits for its argument gets it. -/
theorem getopt_some_cases {val : Char} {args : List (List Char)}
    (valid : Valid (t.getopt (some val) args).1) :
    ∃ value rest, args = value :: rest ∧ Valid (t.getopt none rest).1 := by
  cases args with
  | nil => exact absurd rfl (valid _ List.mem_cons_self)
  | cons value rest =>
      exact ⟨value, rest, rfl, fun item hitem => valid item (List.mem_cons_of_mem _ hitem)⟩

theorem getopt_operand {arg : List Char} (h : ¬ (arg.head? = some '-' ∧ arg.tail ≠ []))
    (args : List (List Char)) :
    t.getopt none (arg :: args) = ((t.getopt none args).1, arg :: (t.getopt none args).2) := by
  rw [getopt]
  · rintro text rfl
    simp at h
  · rintro c cs rfl
    simp at h

section Spelled

variable {args : List (List Char)}
  (ih : ∀ rest : List (List Char), rest.length ≤ args.length → Valid (t.getopt none rest).1 →
    (t.getopt none rest).2 = [] → t.Spelling (t.getopt none rest).1 rest)

include ih

theorem spelling_long {text : List Char}
    (valid : Valid (t.getopt none (('-' :: '-' :: text) :: args)).1)
    (operands : (t.getopt none (('-' :: '-' :: text) :: args)).2 = []) :
    t.Spelling (t.getopt none (('-' :: '-' :: text) :: args)).1 (('-' :: '-' :: text) :: args) := by
  by_cases nothing : text = []
  · subst nothing
    obtain rfl : args = [] := operands
    exact .endOfOptions
  · rw [getopt_long nothing] at valid operands ⊢
    obtain ⟨name, l, found, plain, ⟨rfl, takes⟩ | ⟨rfl, takes⟩ | ⟨value, rfl, takes⟩⟩ :=
      longOption_cases valid.left
    · have read : t.longOption text = ([.option l.val none], none) := by
        rw [longOption_flag found plain, takes]
        rfl
      rw [read] at valid operands ⊢
      exact .longFlag found takes nothing plain (ih args (Nat.le_refl _) valid.right operands)
    · have read : t.longOption text = ([], some l.val) := by
        rw [longOption_flag found plain, takes]
        rfl
      rw [read] at valid operands ⊢
      obtain ⟨value, rest, rfl, later⟩ := getopt_some_cases valid
      exact .longSeparate found takes nothing plain (ih rest (Nat.le_succ _) later operands)
    · rw [longOption_glued found takes plain] at valid operands ⊢
      exact .longGlued found takes plain (ih args (Nat.le_refl _) valid.right operands)

theorem spelling_short {text : List Char} (nonempty : text ≠ []) (short : text.head? ≠ some '-')
    (valid : Valid (t.getopt none (('-' :: text) :: args)).1)
    (operands : (t.getopt none (('-' :: text) :: args)).2 = []) :
    t.Spelling (t.getopt none (('-' :: text) :: args)).1 (('-' :: text) :: args) := by
  obtain ⟨c, cs, rfl⟩ := List.exists_cons_of_ne_nil nonempty
  rw [getopt_cluster (by simpa using short)] at valid operands ⊢
  obtain ⟨flags, all,
    ⟨same, read⟩ | ⟨val, value, takes, glued, same, read⟩ | ⟨val, takes, same, read⟩⟩ :=
    cluster_cases valid.left
  · rw [read] at valid operands ⊢
    rw [same] at nonempty ⊢
    exact .flags all nonempty (ih args (Nat.le_refl _) valid.right operands)
  · rw [read] at valid operands ⊢
    rw [same, List.append_assoc]
    exact .glued all takes glued (ih args (Nat.le_refl _) valid.right operands)
  · rw [read] at valid operands ⊢
    obtain ⟨value, rest, rfl, later⟩ := getopt_some_cases valid.right
    rw [same]
    exact .separate all takes (ih rest (Nat.le_succ _) later operands)

end Spelled

/-- What is read without a fault and without operands is spelled. -/
theorem spelling_of_getopt {args : List (List Char)} (valid : Valid (t.getopt none args).1)
    (operands : (t.getopt none args).2 = []) : t.Spelling (t.getopt none args).1 args := by
  induction n : args.length using Nat.strong_induction_on generalizing args with
  | _ n ih =>
      subst n
      obtain _ | ⟨arg, args⟩ := args
      · exact .nil
      · have shorter (rest : List (List Char)) (le : rest.length ≤ args.length)
            (valid : Valid (t.getopt none rest).1) (operands : (t.getopt none rest).2 = []) :
            t.Spelling (t.getopt none rest).1 rest :=
          ih rest.length (Nat.lt_succ_of_le le) valid operands rfl
        by_cases operand : arg.head? = some '-' ∧ arg.tail ≠ []
        · obtain ⟨text, rfl⟩ := List.head?_eq_some_iff.mp operand.1
          by_cases long : text.head? = some '-'
          · obtain ⟨name, rfl⟩ := List.head?_eq_some_iff.mp long
            exact spelling_long shorter valid operands
          · exact spelling_short shorter operand.2 long valid operands
        · rw [getopt_operand operand] at operands
          cases operands

theorem Valid.behind_flags {items : List Item} (h : Valid items) (flags : List Char) :
    Valid (flags.map (.option · none) ++ items) := by
  intro item member
  rcases List.mem_append.mp member with flag | later
  · obtain ⟨c, -, rfl⟩ := List.mem_map.mp flag
    simp
  · exact h item later

theorem Spelling.valid {items : List Item} {args : List (List Char)} (h : t.Spelling items args) :
    Valid items := by
  induction h with
  | nil => simp [Valid]
  | endOfOptions => simp [Valid]
  | flags _ _ _ ih => exact ih.behind_flags _
  | glued _ _ _ _ ih => exact Valid.behind_flags (List.forall_mem_cons.mpr ⟨by simp, ih⟩) _
  | separate _ _ _ ih => exact Valid.behind_flags (List.forall_mem_cons.mpr ⟨by simp, ih⟩) _
  | longFlag _ _ _ _ _ ih => exact List.forall_mem_cons.mpr ⟨by simp, ih⟩
  | longGlued _ _ _ _ ih => exact List.forall_mem_cons.mpr ⟨by simp, ih⟩
  | longSeparate _ _ _ _ _ ih => exact List.forall_mem_cons.mpr ⟨by simp, ih⟩

/-- What is read without a fault and without operands are exactly the spellings. -/
theorem getopt_iff {items : List Item} {args : List (List Char)} :
    t.getopt none args = (items, []) ∧ Valid items ↔ t.Spelling items args := by
  constructor
  · rintro ⟨read, valid⟩
    have spelled := @spelling_of_getopt t args
    rw [read] at spelled
    exact spelled valid rfl
  · exact fun spelled => ⟨spelled.getopt, spelled.valid⟩

end Table

end Getopt
