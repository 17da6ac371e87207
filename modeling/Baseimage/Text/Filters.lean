import Baseimage.Text.CString

/-!
# Filters of shell pipelines

What `cut`, `tr`, `grep -w` and `sort -nub` do with the lines of a pipeline. Of lines with the same
number `sort` leaves one; which one it is is left open.
-/

namespace Filters

/-- `cut -d':' -fK`. A line without the delimiter is printed as it is. -/
def cut (delimiter : Char) (k : Nat) (line : Str) : Str :=
  if delimiter ∈ line then (line.splitOn delimiter).getD (k - 1) [] else line

section Cut

variable {d : Char} {a b c rest : Str}

theorem cut_first (h : d ∉ a) : cut d 1 (a ++ d :: rest) = a := by
  rw [cut, if_pos (by simp), List.splitOn_append_cons_self_of_not_mem h]
  rfl

theorem first_field_inj {s t : Str} (ha : d ∉ a) (hb : d ∉ b) (h : a ++ d :: s = b ++ d :: t) :
    a = b ∧ s = t := by
  have same := congrArg (cut d 1) h
  rw [cut_first ha, cut_first hb] at same
  subst same
  exact ⟨rfl, (List.cons.inj (List.append_cancel_left h)).2⟩

theorem cut_third (ha : d ∉ a) (hb : d ∉ b) (hc : d ∉ c) :
    cut d 3 (a ++ d :: (b ++ d :: (c ++ d :: rest))) = c := by
  rw [cut, if_pos (by simp), List.splitOn_append_cons_self_of_not_mem ha,
    List.splitOn_append_cons_self_of_not_mem hb, List.splitOn_append_cons_self_of_not_mem hc]
  rfl

theorem cut_fourth (ha : d ∉ a) (hb : d ∉ b) (hc : d ∉ c) (hrest : d ∉ rest) (more : Str) :
    cut d 4 (a ++ d :: (b ++ d :: (c ++ d :: (rest ++ d :: more)))) = rest := by
  rw [cut, if_pos (by simp), List.splitOn_append_cons_self_of_not_mem ha,
    List.splitOn_append_cons_self_of_not_mem hb, List.splitOn_append_cons_self_of_not_mem hc,
    List.splitOn_append_cons_self_of_not_mem hrest]
  rfl

theorem cut_fourth_last (ha : d ∉ a) (hb : d ∉ b) (hc : d ∉ c) (hrest : d ∉ rest) :
    cut d 4 (a ++ d :: (b ++ d :: (c ++ d :: rest))) = rest := by
  rw [cut, if_pos (by simp), List.splitOn_append_cons_self_of_not_mem ha,
    List.splitOn_append_cons_self_of_not_mem hb, List.splitOn_append_cons_self_of_not_mem hc,
    List.splitOn_eq_singleton hrest]
  rfl

end Cut

/-- `tr A B`. -/
def tr (a b : Char) (text : Str) : Str := text.map fun c => if c = a then b else c

/-- The text before the first separator begins the first piece. -/
theorem splitOn_append {d : Char} {a : Str} (h : d ∉ a) (b : Str) :
    ∃ first rest, (a ++ b).splitOn d = (a ++ first) :: rest := by
  induction a with
  | nil =>
      obtain ⟨first, rest, hsplit⟩ := List.exists_cons_of_ne_nil (List.splitOn_ne_nil d b)
      exact ⟨first, rest, hsplit⟩
  | cons c a ih =>
      obtain ⟨hc, ha⟩ := List.ne_and_not_mem_of_not_mem_cons h
      obtain ⟨first, rest, hsplit⟩ := ih ha
      refine ⟨first, rest, ?_⟩
      rw [List.cons_append, List.splitOn_cons_eq_if_modifyHead, hsplit,
        if_neg fun same => hc (beq_iff_eq.mp same).symm]
      rfl

/-- Splitting where another character was put in. -/
theorem splitOn_tr {a b : Char} {text : Str} (h : b ∉ text) :
    (tr a b text).splitOn b = text.splitOn a := by
  induction text with
  | nil => rfl
  | cons c text ih =>
      obtain ⟨hc, htext⟩ := List.ne_and_not_mem_of_not_mem_cons h
      have rest := ih htext
      rw [tr] at rest ⊢
      rw [List.map_cons, List.splitOn_cons_eq_if_modifyHead,
        List.splitOn_cons_eq_if_modifyHead, rest]
      by_cases same : c = a
      · rw [if_pos same, if_pos (beq_iff_eq.mpr rfl), if_pos (beq_iff_eq.mpr same)]
      · rw [if_neg same, if_neg fun found => hc (beq_iff_eq.mp found).symm,
          if_neg fun found => same (beq_iff_eq.mp found)]

theorem mem_intercalate {c d : Char} {ms : List Str} (h : c ∈ [d].intercalate ms) :
    c = d ∨ ∃ m ∈ ms, c ∈ m := by
  induction ms with
  | nil => cases h
  | cons m ms ih =>
      cases ms with
      | nil =>
          rw [List.intercalate_singleton] at h
          exact .inr ⟨m, List.mem_cons_self, h⟩
      | cons k ms =>
          rw [List.intercalate_cons_cons] at h
          obtain h | h := List.mem_append.mp h
          · obtain h | h := List.mem_append.mp h
            · exact .inr ⟨m, List.mem_cons_self, h⟩
            · exact .inl (List.mem_singleton.mp h)
          · obtain same | ⟨n, hn, hc⟩ := ih h
            · exact .inl same
            · exact .inr ⟨n, List.mem_cons_of_mem m hn, hc⟩

/-- A text is made up of the pieces between its separators, and of these. -/
theorem mem_splitOn {c d : Char} {text : Str} (h : c ∈ text) :
    c = d ∨ ∃ piece ∈ text.splitOn d, c ∈ piece :=
  mem_intercalate (by rwa [List.intercalate_splitOn])

def isWordChar (c : Char) : Bool := c.isAlphanum || c == '_'

/-- The text begins with a word. -/
def startsWithWord (w s : Str) : Bool :=
  w.isPrefixOf s && !((s.drop w.length).head?.map isWordChar).getD false

/-- `grep -w` for a text, behind a character of a word or not. -/
def hasWord (w : Str) (inside : Bool) : Str → Bool
  | [] => false
  | x :: s => (!inside && startsWithWord w (x :: s)) || hasWord w (isWordChar x) s

/-- A string of digits. -/
def isNumber (s : Str) : Bool := !s.isEmpty && s.all Char.isDigit

def number (s : Str) : Nat := Nat.ofDigitChars 10 s 0

theorem isNumber_iff {s : Str} : isNumber s = true ↔ s ≠ [] ∧ ∀ c ∈ s, c.isDigit = true := by
  simp [isNumber]

/-- A number without leading zeros. -/
theorem number_ne_zero {c : Char} (digit : c.isDigit = true) (nonzero : c ≠ '0') (s : Str) :
    number (c :: s) ≠ 0 := by
  have bounds : '0'.toNat ≤ c.toNat ∧ c.toNat ≤ '9'.toNat := by
    simpa [Char.isDigit, UInt32.le_iff_toNat_le] using digit
  have different : c.toNat ≠ '0'.toNat := fun same => nonzero (Char.toNat_inj.mp same)
  have leading : 0 < 10 ^ s.length * (10 * 0 + (c.toNat - '0'.toNat)) :=
    Nat.mul_pos (Nat.pow_pos (by decide)) (by omega)
  rw [number, Nat.ofDigitChars_cons, Nat.ofDigitChars_eq_ofDigitChars_zero]
  omega

/-- Both texts are numbers, and they are equal as integers. -/
def SameNumber (a b : Str) : Prop :=
  isNumber a = true ∧ isNumber b = true ∧ number a = number b

instance (a b : Str) : Decidable (SameNumber a b) := inferInstanceAs (Decidable (_ ∧ _ ∧ _))

theorem SameNumber.refl {a : Str} (h : isNumber a = true) : SameNumber a a := ⟨h, h, rfl⟩

theorem SameNumber.symm {a b : Str} (h : SameNumber a b) : SameNumber b a :=
  ⟨h.2.1, h.1, h.2.2.symm⟩

theorem isWordChar_of_isDigit {c : Char} (h : c.isDigit = true) : isWordChar c = true := by
  simp [isWordChar, Char.isAlphanum, h]

theorem hasWord_inside {w s : Str}
    (h : ∀ c ∈ s, isWordChar c = true) : hasWord w true s = false := by
  induction s with
  | nil => rfl
  | cons x s ih =>
      obtain ⟨hx, hs⟩ := List.forall_mem_cons.mp h
      simp [hasWord, hx, ih hs]

/-- A number is the only word of its line. -/
theorem hasWord_number {w s : Str} (hw : w ≠ []) (hs : isNumber s = true) :
    hasWord w false s = true ↔ s = w := by
  obtain ⟨-, digits⟩ := isNumber_iff.mp hs
  have word : ∀ c ∈ s, isWordChar c = true := fun c hc => isWordChar_of_isDigit (digits c hc)
  cases s with
  | nil => simp [isNumber] at hs
  | cons x s =>
      obtain ⟨hx, hrest⟩ := List.forall_mem_cons.mp word
      rw [hasWord, hx, hasWord_inside hrest]
      simp only [Bool.not_false, Bool.true_and, Bool.or_false, startsWithWord, Bool.and_eq_true,
        List.isPrefixOf_iff_prefix]
      constructor
      · rintro ⟨⟨rest, happend⟩, ended⟩
        rw [← happend, List.drop_left] at ended
        cases rest with
        | nil => rw [← happend, List.append_nil]
        | cons y rest =>
            have hy : isWordChar y = true := word y (by rw [← happend]; simp)
            simp [hy] at ended
      · rintro rfl
        simp

/-- `sort -nub` -/
structure NumericSort where
  sort : List Str → List Str
  mem : ∀ {lines : List Str}, (∀ l ∈ lines, isNumber l = true) → ∀ l ∈ sort lines, l ∈ lines
  ordered : ∀ {lines : List Str}, (∀ l ∈ lines, isNumber l = true) →
    (sort lines).Pairwise fun a b => number a < number b
  kept : ∀ {lines : List Str}, (∀ l ∈ lines, isNumber l = true) →
    ∀ l ∈ lines, ∃ k ∈ sort lines, number k = number l

/-- The numbers are those of the lines. -/
theorem NumericSort.numbers (s : NumericSort) {lines : List Str}
    (h : ∀ l ∈ lines, isNumber l = true) (v : Nat) :
    (∃ l ∈ s.sort lines, number l = v) ↔ ∃ l ∈ lines, number l = v := by
  constructor
  · rintro ⟨l, hl, rfl⟩
    exact ⟨l, s.mem h l hl, rfl⟩
  · rintro ⟨l, hl, rfl⟩
    exact s.kept h l hl

/-- Put a line in front of those with a larger number, in the place of one with the same. -/
def insertNumber (l : Str) : List Str → List Str
  | [] => [l]
  | k :: ks =>
      if number l < number k then l :: k :: ks
      else if number l = number k then l :: ks
      else k :: insertNumber l ks

theorem mem_insertNumber {l k : Str} {ks : List Str} (h : k ∈ insertNumber l ks) :
    k = l ∨ k ∈ ks := by
  induction ks with
  | nil => exact .inl (List.mem_singleton.mp h)
  | cons x ks ih =>
      unfold insertNumber at h
      split at h
      · exact List.mem_cons.mp h
      · split at h
        · obtain rfl | h := List.mem_cons.mp h
          · exact .inl rfl
          · exact .inr (List.mem_cons_of_mem x h)
        · obtain rfl | h := List.mem_cons.mp h
          · exact .inr List.mem_cons_self
          · exact (ih h).imp_right (List.mem_cons_of_mem x)

theorem insertNumber_numbers (l : Str) {ks : List Str} {k : Str} (h : k = l ∨ k ∈ ks) :
    ∃ m ∈ insertNumber l ks, number m = number k := by
  induction ks with
  | nil =>
      obtain rfl | absurdity := h
      · exact ⟨k, List.mem_singleton_self k, rfl⟩
      · cases absurdity
  | cons x ks ih =>
      unfold insertNumber
      split
      · exact ⟨k, List.mem_cons.mpr h, rfl⟩
      · split
        · next same =>
            obtain rfl | h := h
            · exact ⟨k, List.mem_cons_self, rfl⟩
            obtain rfl | h := List.mem_cons.mp h
            · exact ⟨l, List.mem_cons_self, same⟩
            · exact ⟨k, List.mem_cons_of_mem l h, rfl⟩
        · have later : ∀ m ∈ insertNumber l ks, m ∈ x :: insertNumber l ks :=
            fun m hm => List.mem_cons_of_mem x hm
          obtain rfl | h := h
          · obtain ⟨m, hm, same⟩ := ih (.inl rfl)
            exact ⟨m, later m hm, same⟩
          obtain rfl | h := List.mem_cons.mp h
          · exact ⟨k, List.mem_cons_self, rfl⟩
          · obtain ⟨m, hm, same⟩ := ih (.inr h)
            exact ⟨m, later m hm, same⟩

theorem insertNumber_ordered (l : Str) {ks : List Str}
    (h : ks.Pairwise fun a b => number a < number b) :
    (insertNumber l ks).Pairwise fun a b => number a < number b := by
  induction ks with
  | nil => exact List.pairwise_singleton _ _
  | cons x ks ih =>
      obtain ⟨first, rest⟩ := List.pairwise_cons.mp h
      unfold insertNumber
      split
      · next below =>
          refine List.pairwise_cons.mpr ⟨fun k hk => ?_, h⟩
          obtain rfl | hk := List.mem_cons.mp hk
          · exact below
          · exact Nat.lt_trans below (first k hk)
      · next notBelow =>
          split
          · next same => exact List.pairwise_cons.mpr ⟨fun k hk => same ▸ first k hk, rest⟩
          · next different =>
              refine List.pairwise_cons.mpr ⟨fun k hk => ?_, ih rest⟩
              obtain rfl | hk := mem_insertNumber hk
              · omega
              · exact first k hk

/-- Put lines in order one by one, beginning with the last one. -/
def sortNumbers (lines : List Str) : List Str := lines.foldr insertNumber []

theorem mem_sortNumbers {lines : List Str} {k : Str} (h : k ∈ sortNumbers lines) : k ∈ lines := by
  induction lines with
  | nil => exact h
  | cons l lines ih =>
      obtain rfl | h := mem_insertNumber h
      · exact List.mem_cons_self
      · exact List.mem_cons_of_mem l (ih h)

theorem sortNumbers_ordered (lines : List Str) :
    (sortNumbers lines).Pairwise fun a b => number a < number b := by
  induction lines with
  | nil => exact List.Pairwise.nil
  | cons l lines ih => exact insertNumber_ordered l ih

theorem sortNumbers_kept {lines : List Str} {l : Str} (h : l ∈ lines) :
    ∃ k ∈ sortNumbers lines, number k = number l := by
  induction lines with
  | nil => cases h
  | cons x lines ih =>
      obtain rfl | h := List.mem_cons.mp h
      · exact insertNumber_numbers l (.inl rfl)
      · obtain ⟨m, hm, same⟩ := ih h
        obtain ⟨k, hk, hnumber⟩ := insertNumber_numbers x (.inr hm)
        exact ⟨k, hk, hnumber.trans same⟩

/-- The first one of the lines with a number is left. -/
def NumericSort.first : NumericSort where
  sort := sortNumbers
  mem _ _ := mem_sortNumbers
  ordered {lines} _ := sortNumbers_ordered lines
  kept _ _ := sortNumbers_kept

end Filters
