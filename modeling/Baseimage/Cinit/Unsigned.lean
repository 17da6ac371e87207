import Baseimage.Cinit.Values

/-!
# Unsigned settings

`string_to_uint` and `string_to_mode` convert with `strtoul`, which takes a sign: it negates the
value in its type, modulo `2^64`. The checks for the range come after that, so they see the value of
a negative number only where it has been wrapped to.
-/

namespace Baseimage.Cinit

open CString

/-- A digit of a base. -/
def isDigitOf (base : Nat) (c : Char) : Bool := isdigit c && c.toNat - '0'.toNat < base

/-- The number that digits denote, the last one having the lowest value. -/
def digitsValue (base : Nat) (digits : Str) : Nat :=
  Nat.ofDigits base (digits.reverse.map fun c => c.toNat - '0'.toNat)

/-- The string is an optional run of white space, an optional sign and at least one digit. This is
the integer it denotes. -/
structure Numeral (base : Nat) (s : Str) (n : Int) : Prop where
  parts : ∃ space sign digits, s = space ++ sign ++ digits ∧
    (∀ c ∈ space, isspace c = true) ∧ (sign = [] ∨ sign = ['+'] ∨ sign = ['-']) ∧
    digits ≠ [] ∧ (∀ c ∈ digits, isDigitOf base c = true) ∧
    n = if sign = ['-'] then -(digitsValue base digits : Int) else digitsValue base digits

/-- What is asked of a conversion for a string: if it succeeds, the string denotes the value, which
is in range, and it succeeds for plain digits in range. -/
structure SoundAt (base max : Nat) (convert : Str → Outcome Str Nat) (s : Str) : Prop where
  sound : ∀ v, convert s = .ok v → ∃ n, Numeral base s n ∧ 0 ≤ n ∧ n ≤ max ∧ (v : Int) = n
  complete : s ≠ [] → (∀ c ∈ s, isDigitOf base c = true) → digitsValue base s ≤ max →
    convert s = .ok (digitsValue base s)

/-- The string denotes a negative number that is in range once it is wrapped. -/
def WrapsIntoRange (base max : Nat) (s : Str) : Prop :=
  ∃ n : Int, Numeral base s n ∧ -2 ^ 64 < n ∧ n + 2 ^ 64 ≤ max

/-! ## What is scanned -/

theorem foldl_digits (base : Nat) (digits : Str) :
    digits.foldl (fun n c => n * base + (c.toNat - '0'.toNat)) 0 = digitsValue base digits := by
  rw [digitsValue, Nat.ofDigits_eq_foldr, List.foldr_map, List.foldr_reverse]
  congr 1
  funext n c
  simp only [Nat.cast_id]
  ring

theorem isspace_of_isDigitOf {base : Nat} {c : Char} (h : isDigitOf base c = true) :
    isspace c = false := by
  have digit : isdigit c = true := (Bool.and_eq_true_iff.mp h).1
  rw [Bool.eq_false_iff]
  intro space
  simp only [isspace, Bool.or_eq_true, beq_iff_eq] at space
  rcases space with ((((rfl | rfl) | rfl) | rfl) | rfl) | rfl <;> exact absurd digit (by decide)

theorem isDigitOf_ne_sign {base : Nat} {c : Char} (h : isDigitOf base c = true) :
    c ≠ '-' ∧ c ≠ '+' := by
  have digit : isdigit c = true := (Bool.and_eq_true_iff.mp h).1
  constructor <;> rintro rfl <;> exact absurd digit (by decide)

/-- What stands behind an optional sign. -/
def afterSign (s : Str) : Str :=
  if s.head? = some '-' ∨ s.head? = some '+' then s.tail else s

theorem scanNumber_eq (base : Nat) (s : Str) :
    scanNumber base s =
      if (afterSign (s.dropWhile isspace)).takeWhile (isDigitOf base) = [] then none
      else
        some (decide ((s.dropWhile isspace).head? = some '-'),
          digitsValue base ((afterSign (s.dropWhile isspace)).takeWhile (isDigitOf base)),
          (afterSign (s.dropWhile isspace)).dropWhile (isDigitOf base)) := by
  rw [← foldl_digits]
  rfl

theorem afterSign_parts (s : Str) :
    ∃ sign, s = sign ++ afterSign s ∧ (sign = [] ∨ sign = ['+'] ∨ sign = ['-']) ∧
      (sign = ['-'] ↔ s.head? = some '-') := by
  by_cases minus : s.head? = some '-'
  · obtain ⟨rest, rfl⟩ := List.head?_eq_some_iff.mp minus
    exact ⟨['-'], by simp [afterSign], by simp, by simp⟩
  · by_cases plus : s.head? = some '+'
    · obtain ⟨rest, rfl⟩ := List.head?_eq_some_iff.mp plus
      exact ⟨['+'], by simp [afterSign], by simp, by simp⟩
    · exact ⟨[], by simp [afterSign, minus, plus], by simp, by simp [minus]⟩

/-- What `strtoul` scans of a string that has no other parts. -/
theorem scanNumber_parts {base : Nat} {space sign digits : Str}
    (spaces : ∀ c ∈ space, isspace c = true) (signs : sign = [] ∨ sign = ['+'] ∨ sign = ['-'])
    (nonempty : digits ≠ []) (all : ∀ c ∈ digits, isDigitOf base c = true) :
    scanNumber base (space ++ sign ++ digits) =
      some (decide (sign = ['-']), digitsValue base digits, []) := by
  obtain ⟨d, ds, rfl⟩ := List.exists_cons_of_ne_nil nonempty
  have notSign := isDigitOf_ne_sign (all d List.mem_cons_self)
  have whole : (d :: ds).takeWhile (isDigitOf base) = d :: ds := List.takeWhile_eq_self_iff.mpr all
  have nothing : (d :: ds).dropWhile (isDigitOf base) = [] := List.dropWhile_eq_nil_iff.mpr all
  have start : (space ++ sign ++ d :: ds).dropWhile isspace = sign ++ d :: ds := by
    rw [List.append_assoc, List.dropWhile_append_of_pos spaces]
    rcases signs with rfl | rfl | rfl
    · exact List.dropWhile_cons_of_neg (by simp [isspace_of_isDigitOf (all d List.mem_cons_self)])
    · rfl
    · rfl
  have behind : afterSign (sign ++ d :: ds) = d :: ds := by
    rcases signs with rfl | rfl | rfl
    · simp [afterSign, notSign]
    · rfl
    · rfl
  rw [scanNumber_eq, start, behind, whole, nothing, if_neg nonempty]
  rcases signs with rfl | rfl | rfl
  · simp [notSign]
  · simp
  · simp

/-- A string that `strtoul` scans to its end has no other parts. -/
theorem numeral_of_scanNumber {base n : Nat} {negative : Bool} {s : Str}
    (h : scanNumber base s = some (negative, n, [])) :
    Numeral base s (if negative then -(n : Int) else n) := by
  rw [scanNumber_eq] at h
  obtain ⟨nonempty, h⟩ := Option.ite_none_left_eq_some.mp h
  obtain ⟨sign, value, end_⟩ : _ ∧ _ ∧ _ := by simpa only [Option.some.injEq, Prod.mk.injEq] using h
  have spaces : ∀ c ∈ s.takeWhile isspace, isspace c = true := fun c hc => List.mem_takeWhile_imp hc
  have digits := List.dropWhile_eq_nil_iff.mp end_
  have whole := List.takeWhile_eq_self_iff.mpr digits
  rw [whole] at nonempty value
  obtain ⟨signText, parts, signs, minus⟩ := afterSign_parts (s.dropWhile isspace)
  refine ⟨s.takeWhile isspace, signText, afterSign (s.dropWhile isspace), ?_, spaces, signs,
    nonempty, digits, ?_⟩
  · rw [List.append_assoc, ← parts, List.takeWhile_append_dropWhile]
  · rw [← value, ← sign]
    simp only [minus, decide_eq_true_eq]

theorem numeral_iff {base : Nat} {s : Str} {n : Int} :
    Numeral base s n ↔ ∃ negative k, scanNumber base s = some (negative, k, []) ∧
      n = if negative then -(k : Int) else k := by
  constructor
  · rintro ⟨space, sign, digits, rfl, spaces, signs, nonempty, all, rfl⟩
    exact ⟨_, _, scanNumber_parts spaces signs nonempty all, by simp only [decide_eq_true_eq]⟩
  · rintro ⟨negative, k, scanned, rfl⟩
    exact numeral_of_scanNumber scanned

/-- A string denotes at most one integer. -/
theorem Numeral.unique {base : Nat} {s : Str} {n m : Int} (hn : Numeral base s n)
    (hm : Numeral base s m) : n = m := by
  obtain ⟨negative, k, scanned, rfl⟩ := numeral_iff.mp hn
  obtain ⟨negative', k', scanned', rfl⟩ := numeral_iff.mp hm
  rw [scanned, Option.some.injEq, Prod.mk.injEq, Prod.mk.injEq] at scanned'
  rw [scanned'.1, scanned'.2.1]

theorem numeral_digits {base : Nat} {s : Str} (nonempty : s ≠ [])
    (all : ∀ c ∈ s, isDigitOf base c = true) : Numeral base s (digitsValue base s) where
  parts := ⟨[], [], s, rfl, by simp, .inl rfl, nonempty, all, by simp⟩

/-! ## What is accepted -/

/-- The conversion accepts exactly the strings whose value in the type is in range. -/
def Wrapping (base max : Nat) (convert : Str → Outcome Str Nat) : Prop :=
  ∀ s v, convert s = .ok v ↔ ∃ n : Int, Numeral base s n ∧ -2 ^ 64 < n ∧ n < 2 ^ 64 ∧
    (v : Int) = n % 2 ^ 64 ∧ v ≤ max

/-- `strtoul` has scanned the whole string and reports no overflow. -/
structure ConvertedTo (base : Nat) (s : Str) (v : Nat) (number : Converted Nat) : Prop where
  converted : strtoul base s = some number
  whole : number.rest = []
  fits : ¬ (number.value = ulongMax ∧ number.erange = true)
  value : number.value = v

theorem convertedTo_iff {base v : Nat} {s : Str} :
    (∃ number, ConvertedTo base s v number) ↔
      ∃ n : Int, Numeral base s n ∧ -2 ^ 64 < n ∧ n < 2 ^ 64 ∧ (v : Int) = n % 2 ^ 64 := by
  constructor
  · rintro ⟨number, converted, whole, fits, rfl⟩
    obtain ⟨⟨negative, k, rest⟩, scanned, rfl⟩ := Option.map_eq_some_iff.mp converted
    dsimp only at whole fits ⊢
    split at whole
    · next large =>
        rw [if_pos large] at fits
        exact absurd ⟨rfl, rfl⟩ fits
    · next small =>
        subst whole
        rw [if_neg small]
        rw [ulongMax] at small
        refine ⟨_, numeral_of_scanNumber scanned, ?_⟩
        cases negative with
        | true => simp only [if_true]; omega
        | false => simp only [Bool.false_eq_true, if_false]; omega
  · rintro ⟨n, numeral, above, below, value⟩
    obtain ⟨negative, k, scanned, rfl⟩ := numeral_iff.mp numeral
    have small : ¬ k > ulongMax := by
      rw [ulongMax]
      cases negative with
      | true => simp only [if_true] at above; omega
      | false => simp only [Bool.false_eq_true, if_false] at below; omega
    have converted : strtoul base s =
        some { value := if negative then (2 ^ 64 - k) % 2 ^ 64
          else k, erange := false, rest := [] } := by
      rw [strtoul, scanned, Option.map_some]
      exact congrArg some (if_neg small)
    refine ⟨_, converted, rfl, by simp, ?_⟩
    rw [ulongMax] at small
    cases negative with
    | true => simp only [if_true] at value ⊢; omega
    | false => simp only [Bool.false_eq_true, if_false] at value ⊢; omega

theorem stringToUint_eq_ok_iff {s : Str} {v : Nat} :
    stringToUint s = .ok v ↔ (∃ number, ConvertedTo 10 s v number) ∧ v ≤ 2 ^ 32 - 1 := by
  rw [stringToUint]
  cases converted : strtoul 10 s with
  | none =>
      refine iff_of_false (throwMessage_ne_ok _ _) ?_
      rintro ⟨⟨number, found⟩, -⟩
      cases converted.symm.trans found.converted
  | some number =>
      simp only [check_eq_ok_iff, not_not, Outcome.ok.injEq]
      constructor
      · rintro ⟨whole, fits, inRange, rfl⟩
        exact ⟨⟨number, converted, whole, fits, rfl⟩, Nat.le_of_not_lt inRange⟩
      · rintro ⟨⟨other, found⟩, inRange⟩
        obtain rfl := Option.some.inj (converted.symm.trans found.converted)
        have value := found.value
        exact ⟨found.whole, found.fits, by omega, value⟩

theorem stringToMode_eq_ok_iff {s : Str} {v : Nat} :
    stringToMode s = .ok v ↔ (∃ number, ConvertedTo 8 s v number) ∧ v ≤ 511 := by
  rw [stringToMode]
  cases converted : strtoul 8 s with
  | none =>
      refine iff_of_false (throwMessage_ne_ok _ _) ?_
      rintro ⟨⟨number, found⟩, -⟩
      cases converted.symm.trans found.converted
  | some number =>
      simp only [check_eq_ok_iff, not_not, Outcome.ok.injEq]
      constructor
      · rintro ⟨whole, fits, -, inRange, rfl⟩
        exact ⟨⟨number, converted, whole, fits, rfl⟩, Nat.le_of_not_lt inRange⟩
      · rintro ⟨⟨other, found⟩, inRange⟩
        obtain rfl := Option.some.inj (converted.symm.trans found.converted)
        have value := found.value
        exact ⟨found.whole, found.fits, by omega, by omega, value⟩

theorem Wrapping.of_ok_iff {base max : Nat} {convert : Str → Outcome Str Nat}
    (h : ∀ {s v}, convert s = .ok v ↔ (∃ number, ConvertedTo base s v number) ∧ v ≤ max) :
    Wrapping base max convert := by
  intro s v
  rw [h, convertedTo_iff]
  constructor
  · rintro ⟨⟨n, numeral, above, below, value⟩, inRange⟩
    exact ⟨n, numeral, above, below, value, inRange⟩
  · rintro ⟨n, numeral, above, below, value, inRange⟩
    exact ⟨⟨n, numeral, above, below, value⟩, inRange⟩

/-- Such a conversion is sound exactly for the strings that do not wrap into the range. -/
theorem Wrapping.soundAt_iff {base max : Nat} {convert : Str → Outcome Str Nat}
    (h : Wrapping base max convert) (hmax : max < 2 ^ 64) (s : Str) :
    SoundAt base max convert s ↔ ¬ WrapsIntoRange base max s := by
  constructor
  · rintro ⟨sound, -⟩ ⟨n, numeral, above, inRange⟩
    have accepted := (h s (n + 2 ^ 64).toNat).mpr
      ⟨n, numeral, above, by omega, by omega, by omega⟩
    obtain ⟨m, numeral', nonneg, -, value⟩ := sound _ accepted
    have same := numeral.unique numeral'
    omega
  · intro noWrap
    constructor
    · intro v accepted
      obtain ⟨n, numeral, above, below, value, inRange⟩ := (h s v).mp accepted
      have nonneg : 0 ≤ n := by
        by_contra negative
        exact noWrap ⟨n, numeral, above, by omega⟩
      exact ⟨n, numeral, nonneg, by omega, by omega⟩
    · intro nonempty all inRange
      exact (h s _).mpr ⟨_, numeral_digits nonempty all, by omega, by omega, by omega, inRange⟩

/-- For every string, what `string_to_uint` and `string_to_mode` accept is sound exactly when the
string does not denote a negative number that wraps into the range. -/
theorem unsigned_sound_iff (s : Str) :
    (SoundAt 10 (2 ^ 32 - 1) stringToUint s ↔ ¬ WrapsIntoRange 10 (2 ^ 32 - 1) s) ∧
      (SoundAt 8 511 stringToMode s ↔ ¬ WrapsIntoRange 8 511 s) :=
  ⟨(Wrapping.of_ok_iff stringToUint_eq_ok_iff).soundAt_iff (by omega) s,
    (Wrapping.of_ok_iff stringToMode_eq_ok_iff).soundAt_iff (by omega) s⟩

/-- The largest negative number that is accepted as an unsigned one. -/
theorem negative_accepted :
    stringToUint "-18446744069414584321".toList = .ok 4294967295 ∧
      ¬ SoundAt 10 (2 ^ 32 - 1) stringToUint "-18446744069414584321".toList := by
  have accepted : stringToUint "-18446744069414584321".toList = .ok 4294967295 := by decide +kernel
  refine ⟨accepted, fun h => ?_⟩
  obtain ⟨n, numeral, nonneg, -, -⟩ := h.sound _ accepted
  have scanned : scanNumber 10 "-18446744069414584321".toList =
      some (true, 18446744069414584321, []) := by decide +kernel
  have denoted := numeral.unique (numeral_of_scanNumber scanned)
  rw [denoted] at nonneg
  exact absurd nonneg (by decide)

end Baseimage.Cinit
