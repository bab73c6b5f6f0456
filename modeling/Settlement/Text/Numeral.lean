import Settlement.Number.Rounding

/-!
# Reading a number from a text

Blanks at either end are dropped and an empty text is zero. `Text.blanks` are the ASCII blanks, the
no-break space, the Unicode space separators, the two Unicode line ends and the byte order mark.
What is left is a decimal with an optional sign, point and exponent; or `Infinity` with an optional
sign; or an unsigned integer in base 16, 8 or 2 after `0x`, `0o` or `0b`, in either case. Everything
else is NaN, so a text with a separator, a second sign or trailing letters is no number. The value
is rounded once.

An exact integer is spelled in the same way but for the point, the exponent and infinity
(`Text.integer?`); it is not rounded, and there is none where the spelling is wrong.
-/

namespace Settlement.Text

/-- The blank characters that `trim` removes, in code order. -/
def blanks : List Char :=
  ['\t', '\n', '\x0b', '\x0c', '\r', ' ', '\u00a0', '\u1680', '\u2000', '\u2001', '\u2002',
    '\u2003', '\u2004', '\u2005', '\u2006', '\u2007', '\u2008', '\u2009', '\u200a', '\u2028',
    '\u2029', '\u202f', '\u205f', '\u3000', '\ufeff']

/-- A character among `blanks`. -/
def isBlank (c : Char) : Bool := blanks.contains c

/-- The characters without the blanks (`isBlank`) at either end. -/
def trim (cs : List Char) : List Char :=
  (((cs.dropWhile isBlank).reverse).dropWhile isBlank).reverse

/-- The value of a digit, up to base 16, in either case. -/
def digitValue? (c : Char) : Option Nat :=
  if '0' ≤ c ∧ c ≤ '9' then some (c.toNat - '0'.toNat)
  else if 'a' ≤ c ∧ c ≤ 'f' then some (c.toNat - 'a'.toNat + 10)
  else if 'A' ≤ c ∧ c ≤ 'F' then some (c.toNat - 'A'.toNat + 10)
  else none

/-- A digit whose `digitValue?` is below `base`. -/
def isDigitOf (base : Nat) (c : Char) : Bool := (digitValue? c).any (· < base)

/-- The value of a string of digits in `base`, first digit most significant. -/
def digitsValue (base : Nat) (cs : List Char) : Nat :=
  cs.foldl (fun value c => value * base + (digitValue? c).getD 0) 0

/-- The `digitsValue` of a non-empty string of digits of the given base, and of nothing else. -/
def natural? (base : Nat) (cs : List Char) : Option Nat :=
  if cs.isEmpty || !cs.all (isDigitOf base) then none else some (digitsValue base cs)

/-- A leading `-` or `+`, and what follows it. -/
def sign : List Char → Bool × List Char
  | '-' :: cs => (true, cs)
  | '+' :: cs => (false, cs)
  | cs => (false, cs)

/-- The exponent after the digits: nothing, or `e` with a signed natural number (`natural?`). -/
def exponent? : List Char → Option Int
  | [] => some 0
  | c :: cs =>
    if c = 'e' ∨ c = 'E' then
      let (negative, digits) := sign cs
      (natural? 10 digits).map (Number.signed negative)
    else none

/-- Digits after the point, and what follows them; none without a point. -/
def fraction : List Char → List Char × List Char
  | '.' :: cs => (cs.takeWhile (isDigitOf 10), cs.dropWhile (isDigitOf 10))
  | cs => ([], cs)

/-- An unsigned decimal with an optional point and exponent, rounded once (`Number.ofDecimal`). At
least one digit stands before the exponent. -/
def decimal? (negative : Bool) (cs : List Char) : Option Number :=
  let whole := cs.takeWhile (isDigitOf 10)
  let (places, rest) := fraction (cs.dropWhile (isDigitOf 10))
  -- a point alone is no number
  if whole.isEmpty && places.isEmpty then none
  else (exponent? rest).map fun e =>
    .ofDecimal negative (digitsValue 10 (whole ++ places)) (e - places.length)

/-- A signed `decimal?`, a signed `Infinity`, and NaN otherwise. -/
def signedNumeral (cs : List Char) : Number :=
  let (negative, digits) := sign cs
  if digits = "Infinity".toList then .infinite negative
  else (decimal? negative digits).getD .nan

/-- The base in which a text announces an unsigned integer (`0x`, `0o` or `0b`), and the digits that
follow. -/
def based? : List Char → Option (Nat × List Char)
  | '0' :: c :: cs =>
    if c = 'x' ∨ c = 'X' then some (16, cs)
    else if c = 'o' ∨ c = 'O' then some (8, cs)
    else if c = 'b' ∨ c = 'B' then some (2, cs)
    else none
  | _ => none

/-- A text without outer blanks, read as a number: in the base that it announces (`based?`), or as a
`signedNumeral`. An empty text is zero. -/
def numeral (cs : List Char) : Number :=
  if cs.isEmpty then 0
  else
    match based? cs with
    | some (base, digits) => ((natural? base digits).map fun n => .ofInt n).getD .nan
    | none => signedNumeral cs

/-- A text without outer blanks, read as an exact integer, which is not rounded. -/
def integer? (cs : List Char) : Option Int :=
  if cs.isEmpty then some 0
  else
    match based? cs with
    | some (base, digits) => (natural? base digits).map Int.ofNat
    | none =>
      let (negative, digits) := sign cs
      (natural? 10 digits).map (Number.signed negative)

end Settlement.Text

namespace Settlement.Number

/-- The number that a text stands for (`Text.numeral` of what `Text.trim` leaves), NaN if none. -/
def ofText (s : String) : Number := Text.numeral (Text.trim s.toList)

end Settlement.Number
