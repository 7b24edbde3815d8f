import Mathlib.Algebra.Group.Int.Defs
import Mathlib.Algebra.Group.Nat.Defs
import Mathlib.Data.Int.Notation
import Mathlib.Tactic.Common

/-!
# C character classes and number scanning

The functions of `ctype.h` in the C locale, `strtoll` in base 10 and the `%Nd` conversion of
`sscanf`, on lists of bytes. A scan returns the number and the text after it, or `none` when there
is no number to convert.
-/

namespace PowerMonitor.CText

/-- A property of every byte, from the 256 of them by their two halves. -/
theorem forall_byte {P : UInt8 → Prop}
    (h : ∀ high < 16, ∀ low < 16, P (UInt8.ofNat (16 * high + low))) (b : UInt8) : P b := by
  have hhigh : b.toNat / 16 < 16 := Nat.div_lt_of_lt_mul b.toNat_lt
  have hb := h (b.toNat / 16) hhigh (b.toNat % 16) (Nat.mod_lt _ (by decide))
  rwa [Nat.div_add_mod, UInt8.ofNat_toNat] at hb

/-- `isspace`. -/
def isspace (c : UInt8) : Bool := c == 0x20 || (9 ≤ c && c ≤ 13)

/-- `isdigit`. -/
def isdigit (c : UInt8) : Bool := 0x30 ≤ c && c ≤ 0x39

/-- `isxdigit`. -/
def isxdigit (c : UInt8) : Bool := isdigit c || (0x41 ≤ c && c ≤ 0x46) || (0x61 ≤ c && c ≤ 0x66)

/-- `toupper`. -/
def toupper (c : UInt8) : UInt8 := if 0x61 ≤ c && c ≤ 0x7a then c - 0x20 else c

/-- `tolower`. -/
def tolower (c : UInt8) : UInt8 := if 0x41 ≤ c && c ≤ 0x5a then c + 0x20 else c

/-- `isalpha`. -/
def isalpha (c : UInt8) : Bool := (0x41 ≤ c && c ≤ 0x5a) || (0x61 ≤ c && c ≤ 0x7a)

/-- `isalnum`. -/
def isalnum (c : UInt8) : Bool := isalpha c || isdigit c

/-- The value of a digit. -/
def digitValue (c : UInt8) : ℕ := c.toNat - 0x30

/-- The number a run of digits stands for. -/
def decimal (digits : List UInt8) : ℕ := digits.foldl (fun v c => 10 * v + digitValue c) 0

/-- An optional sign: whether the number is negative, how many characters the sign takes, and the
text after it. -/
def scanSign : List UInt8 → Bool × ℕ × List UInt8
  | 0x2b :: rest => (false, 1, rest)
  | 0x2d :: rest => (true, 1, rest)
  | text => (false, 0, text)

/-- The signed value of a run of digits. -/
def signed (negative : Bool) (digits : List UInt8) : ℤ :=
  if negative then -(decimal digits : ℤ) else decimal digits

/-- `strtoll (text, &end, 10)`: the value, out of range values being clamped, and the text at `end`;
`none` when no conversion is possible and `end` is the text itself. -/
def strtoll (text : List UInt8) : Option (ℤ × List UInt8) :=
  let (negative, _, rest) := scanSign (text.dropWhile isspace)
  let digits := rest.takeWhile isdigit
  if digits = [] then none
  else some (max (-2 ^ 63) (min (2 ^ 63 - 1) (signed negative digits)), rest.dropWhile isdigit)

/-- The `%Nd` conversion of `sscanf`: white space is skipped without counting, the sign counts. -/
def scanInt (width : ℕ) (text : List UInt8) : Option (ℤ × List UInt8) :=
  let (negative, taken, rest) := scanSign (text.dropWhile isspace)
  let digits := (rest.take (width - taken)).takeWhile isdigit
  if digits = [] then none else some (signed negative digits, rest.drop digits.length)

/-- A literal character of a format. -/
def scanChar (c : UInt8) : List UInt8 → Option (List UInt8)
  | d :: rest => if c = d then some rest else none
  | [] => none

end PowerMonitor.CText
