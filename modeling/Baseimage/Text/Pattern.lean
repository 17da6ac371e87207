import Baseimage.Text.CString

/-!
# Patterns of grep and sed

Basic regular expressions as far as scripts use them around texts of their own: characters, `.`, `*`
behind a character, and the anchors `^` and `$`. Bracket expressions and backslashes are left out. A
text without special characters stands for itself in a pattern.
-/

namespace Pattern

/-- A part of a pattern. -/
inductive Item where
  | one (c : Char)
  | many (c : Char)
  | lineEnd
  deriving DecidableEq, Repr

def parse : Str → List Item
  | [] => []
  | [c] => if c = '$' then [.lineEnd] else [.one c]
  | c :: d :: p => if d = '*' then .many c :: parse p else .one c :: parse (d :: p)

/-- Whether a character of a pattern stands for a character of the line. -/
def stands (c x : Char) : Bool := c == '.' || c == x

/-- The rests of a text behind any number of characters that a character stands for. -/
def rests (c : Char) : Str → List Str
  | [] => [[]]
  | x :: s => (x :: s) :: if stands c x then rests c s else []

/-- The pattern matches at the beginning of the text. -/
def matchHere : List Item → Str → Bool
  | [], _ => true
  | .one _ :: _, [] => false
  | .one c :: items, x :: s => stands c x && matchHere items s
  | .many c :: items, s => (rests c s).any (matchHere items)
  | .lineEnd :: items, s => s.isEmpty && matchHere items s

/-- The pattern matches somewhere in the line. -/
def isMatch : Str → Str → Bool
  | '^' :: p, line => matchHere (parse p) line
  | p, line => line.tails.any (matchHere (parse p))

def isSpecial (c : Char) : Bool :=
  c == '.' || c == '*' || c == '$' || c == '^' || c == '[' || c == '\\'

/-- No character of the text has a meaning in a pattern. -/
def Plain (s : Str) : Prop := ∀ c ∈ s, isSpecial c = false

instance (s : Str) : Decidable (Plain s) := List.decidableBAll (fun c => isSpecial c = false) s

theorem plain_cons {c : Char} {s : Str} : Plain (c :: s) ↔ isSpecial c = false ∧ Plain s :=
  List.forall_mem_cons

theorem plain_append {s t : Str} : Plain (s ++ t) ↔ Plain s ∧ Plain t :=
  List.forall_mem_append

theorem not_special_iff {c : Char} :
    isSpecial c = false ↔ c ≠ '.' ∧ c ≠ '*' ∧ c ≠ '$' ∧ c ≠ '^' ∧ c ≠ '[' ∧ c ≠ '\\' := by
  simp [isSpecial, and_assoc]

/-- A plain text at the beginning of a pattern stands for itself. -/
theorem parse_append {a p : Str} (plain : Plain a) (unstarred : p.head? ≠ some '*') :
    parse (a ++ p) = a.map .one ++ parse p := by
  induction a with
  | nil => rfl
  | cons c a ih =>
      obtain ⟨hc, ha⟩ := plain_cons.mp plain
      obtain ⟨-, -, dollar, -, -, -⟩ := not_special_iff.mp hc
      have next : (a ++ p).head? ≠ some '*' := by
        cases a with
        | nil => exact unstarred
        | cons d a =>
            have hd := (not_special_iff.mp (plain_cons.mp ha).1).2.1
            simpa using hd
      rw [List.map_cons, List.cons_append, List.cons_append, ← ih ha]
      cases hrest : a ++ p with
      | nil => exact if_neg dollar
      | cons d rest =>
          have hd : d ≠ '*' := fun same => next (by rw [hrest, same]; rfl)
          exact if_neg hd

theorem matchHere_chars {a : Str} (plain : Plain a) (items : List Item) (s : Str) :
    matchHere (a.map .one ++ items) s = true ↔ ∃ r, s = a ++ r ∧ matchHere items r = true := by
  induction a generalizing s with
  | nil => simp
  | cons c a ih =>
      obtain ⟨hc, ha⟩ := plain_cons.mp plain
      obtain ⟨dot, -⟩ := not_special_iff.mp hc
      cases s with
      | nil => simp [matchHere]
      | cons x s =>
          have stands_iff : stands c x = true ↔ x = c := by
            rw [stands, beq_eq_false_iff_ne.mpr dot, Bool.false_or, beq_iff_eq]
            exact eq_comm
          simp only [List.map_cons, List.cons_append, matchHere, Bool.and_eq_true,
            stands_iff, ih ha,
            List.cons.injEq]
          constructor
          · rintro ⟨rfl, r, rfl, rest⟩
            exact ⟨r, ⟨rfl, rfl⟩, rest⟩
          · rintro ⟨r, ⟨rfl, rfl⟩, rest⟩
            exact ⟨rfl, r, rfl, rest⟩

theorem matchHere_append {a p : Str} (plain : Plain a) (unstarred : p.head? ≠ some '*') (s : Str) :
    matchHere (parse (a ++ p)) s = true ↔ ∃ r, s = a ++ r ∧ matchHere (parse p) r = true := by
  rw [parse_append plain unstarred]
  exact matchHere_chars plain _ s

theorem matchHere_plain {a : Str} (plain : Plain a) (s : Str) :
    matchHere (parse a) s = true ↔ ∃ r, s = a ++ r := by
  have alone : parse a = a.map .one ++ [] := by
    have h := parse_append plain (p := []) (by decide)
    rwa [List.append_nil] at h
  rw [alone, matchHere_chars plain]
  simp [matchHere]

/-- A dot stands for every character. -/
theorem mem_rests_dot {r s : Str} : r ∈ rests '.' s ↔ ∃ m, s = m ++ r := by
  induction s with
  | nil => simp [rests, eq_comm]
  | cons x s ih =>
      have dot : stands '.' x = true := rfl
      simp only [rests, dot, if_true, List.mem_cons, ih]
      constructor
      · rintro (rfl | ⟨m, rfl⟩)
        · exact ⟨[], rfl⟩
        · exact ⟨x :: m, rfl⟩
      · rintro ⟨m, hm⟩
        cases m with
        | nil => exact .inl hm.symm
        | cons y m => exact .inr ⟨m, (List.cons.inj hm).2⟩

/-- `^text$` -/
theorem isMatch_line {a : Str} (plain : Plain a) (line : Str) :
    isMatch ('^' :: (a ++ ['$'])) line = true ↔ line = a := by
  rw [isMatch, matchHere_append plain (by decide)]
  simp [parse, matchHere]

/-- `^text` -/
theorem isMatch_start {a : Str} (plain : Plain a) (line : Str) :
    isMatch ('^' :: a) line = true ↔ ∃ r, line = a ++ r := by
  rw [isMatch, matchHere_plain plain]

/-- `^text.*text$` -/
theorem isMatch_start_end {a b : Str} (plain_start : Plain a) (plain_end : Plain b)
    (line : Str) :
    isMatch ('^' :: (a ++ ('.' :: '*' :: (b ++ ['$'])))) line = true ↔ ∃ m, line = a ++ m ++ b := by
  rw [isMatch, matchHere_append plain_start (by simp)]
  simp only [parse, if_true, matchHere, List.any_eq_true, mem_rests_dot,
    matchHere_append plain_end (by decide : ['$'].head? ≠ some '*')]
  constructor
  · rintro ⟨_, rfl, _, ⟨m, rfl⟩, r, rfl, ended⟩
    obtain rfl : r = [] := by simpa using ended
    exact ⟨m, by simp⟩
  · rintro ⟨m, rfl⟩
    exact ⟨m ++ b, by simp, b, ⟨m, rfl⟩, [], by simp, rfl⟩

/-- `text` -/
theorem isMatch_inside {a : Str} (plain : Plain a) (line : Str) :
    isMatch a line = true ↔ a <:+: line := by
  have unanchored : isMatch a line = line.tails.any (matchHere (parse a)) := by
    cases a with
    | nil => rfl
    | cons c a =>
        have hc := (not_special_iff.mp (plain_cons.mp plain).1).2.2.2.1
        simp [isMatch, hc]
  simp only [unanchored, List.any_eq_true, List.mem_tails, matchHere_plain plain]
  constructor
  · rintro ⟨_, ⟨before, rfl⟩, after, rfl⟩
    exact ⟨before, after, by rw [List.append_assoc]⟩
  · rintro ⟨before, after, rfl⟩
    exact ⟨a ++ after, ⟨before, by rw [List.append_assoc]⟩, after, rfl⟩

end Pattern
