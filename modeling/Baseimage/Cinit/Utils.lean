import Baseimage.Text.CString

/-!
# String utilities of the supervisor

The functions of `utils.c` that work in place on a C string are functions from the string to the
string they leave. Throwing functions return the message they throw as an error.
-/

namespace Baseimage.Cinit

/-- A line ends at a line feed or at a carriage return. -/
def isEol (c : Char) : Bool := c == '\n' || c == '\r'

/-- `isspace` of the C locale. -/
def isspace (c : Char) : Bool :=
  c == ' ' || c == '\t' || c == '\n' || c == Char.ofNat 11 || c == Char.ofNat 12 || c == '\r'

/-- `terminate_at_first_eol`. -/
def terminateAtFirstEol (s : Str) : Str := s.takeWhile (fun c => !isEol c)

/-- `trim`: "trim the end", then "trim the beginning". -/
def trim (s : Str) : Str := (s.rdropWhile isspace).dropWhile isspace

/-- `ends_with`. -/
def endsWith (s suffix : Str) : Bool := suffix.isSuffixOf s

/-- `tolower` of the C locale. -/
def tolower (c : Char) : Char :=
  if 'A'.toNat ≤ c.toNat ∧ c.toNat ≤ 'Z'.toNat then Char.ofNat (c.toNat + 32) else c

/-- `strcasecmp(a, b) == 0`. -/
def strcaseeq (a b : Str) : Bool := a.map tolower == b.map tolower

/-- `isdigit`. -/
def isdigit (c : Char) : Bool := '0'.toNat ≤ c.toNat && c.toNat ≤ '9'.toNat

/-- `isalnum` of the C locale. -/
def isalnum (c : Char) : Bool :=
  isdigit c || ('A'.toNat ≤ c.toNat && c.toNat ≤ 'Z'.toNat) ||
    ('a'.toNat ≤ c.toNat && c.toNat ≤ 'z'.toNat)

/-- `digits_only`. -/
def digitsOnly (str : Str) : Bool := str.length ≠ 0 && str.all isdigit

/-- What the conversions of the C library report: the value, whether it was out of range, and
the rest of the string. -/
structure Converted (α : Type) where
  value : α
  erange : Bool
  rest : Str
  deriving DecidableEq, Repr

def longMax : Int := 2 ^ 63 - 1

def longMin : Int := -2 ^ 63

def ulongMax : Nat := 2 ^ 64 - 1

/-- White space, an optional sign and the digits of a base below ten; `none` without a digit. -/
def scanNumber (base : Nat) (s : Str) : Option (Bool × Nat × Str) :=
  let s := s.dropWhile isspace
  let negative := s.head? = some '-'
  let s := if s.head? = some '-' ∨ s.head? = some '+' then s.tail else s
  let isDigit := fun c : Char => isdigit c && c.toNat - '0'.toNat < base
  let digits := s.takeWhile isDigit
  if digits = [] then none
  else
    some (negative, digits.foldl (fun n c => n * base + (c.toNat - '0'.toNat)) 0,
      s.dropWhile isDigit)

/-- `strtol` where `long` has 64 bits. -/
def strtol (base : Nat) (s : Str) : Option (Converted Int) :=
  (scanNumber base s).map fun (negative, n, rest) =>
    let value : Int := if negative then -n else n
    if value < longMin then { value := longMin, erange := true, rest := rest }
    else if value > longMax then { value := longMax, erange := true, rest := rest }
    else { value := value, erange := false, rest := rest }

/-- `strtoul` where `unsigned long` has 64 bits: a sign negates the value in the type. -/
def strtoul (base : Nat) (s : Str) : Option (Converted Nat) :=
  (scanNumber base s).map fun (negative, n, rest) =>
    if n > ulongMax then { value := ulongMax, erange := true, rest := rest }
    else
      { value := if negative then (2 ^ 64 - n) % 2 ^ 64 else n
        erange := false
        rest := rest }

/-- `remove_all_char`. -/
def removeAllChar (c : Char) (s : Str) : Str := s.filter (fun x => x != c)

/-- `remove_duplicated_char`: a run of the character becomes a single one. -/
def removeDuplicatedChar (c : Char) : Str → Str
  | [] => []
  | [x] => [x]
  | x :: y :: s =>
      if x = c ∧ y = c then removeDuplicatedChar c (y :: s)
      else x :: removeDuplicatedChar c (y :: s)

/-- The tokens `split` cuts a string without duplicated delimiters into. A delimiter at the very
end starts no token. -/
def tokens (c : Char) (s : Str) : List Str :=
  match _h : CString.strchr c s with
  | none => [s]
  | some (token, rest) => if rest = [] then [token] else token :: tokens c rest
termination_by s.length
decreasing_by exact CString.strchr_length _h

/-- `split`. -/
def split (c : Char) (buf : Str) : List Str := tokens c (removeDuplicatedChar c buf)

end Baseimage.Cinit
