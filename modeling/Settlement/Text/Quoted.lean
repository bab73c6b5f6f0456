import Settlement.Text.Numeral

/-!
# Quoted text

`Text.quoted` writes a text between double quotes: the quote and the backslash are escaped, the
control characters below the space take their short escape where one exists and four hexadecimal
digits otherwise, and everything else stands for itself.

A quoted text is read back as UTF-16 units (`Text.quotedUnits?`), because a character beyond the
first plane can be escaped as two units of four hexadecimal digits each, and then as characters
(`Text.ofUnits`). Half of such a pair alone is no character and is replaced. The units of a text are
read back as its characters (`Text.ofUnits_flatMap_units`).

Texts are put in the order of their units (`Text.ordered`), which is not that of their characters:
both units of a character beyond the first plane are below U+E000, so that a text that begins with
it stands before one that begins with a character from U+E000 to U+FFFF.
-/

namespace Settlement.Text

/-- The hexadecimal digit of `n % 16`, in lower case. -/
def hexDigit (n : Nat) : Char := (Nat.toDigits 16 (n % 16)).headD '0'

/-- How one character is written inside quotes: as itself, by its short escape, or by four digits
(`hexDigit`). -/
def escape (c : Char) : List Char :=
  if c = '"' then ['\\', '"']
  else if c = '\\' then ['\\', '\\']
  else if c = '\x08' then ['\\', 'b']
  else if c = '\t' then ['\\', 't']
  else if c = '\n' then ['\\', 'n']
  else if c = '\x0c' then ['\\', 'f']
  else if c = '\r' then ['\\', 'r']
  else if c.toNat < 32 then ['\\', 'u', '0', '0', hexDigit (c.toNat / 16), hexDigit c.toNat]
  else [c]

/-- A text between double quotes, each character by `escape`. -/
def quoted (s : String) : String :=
  String.ofList ('"' :: s.toList.flatMap escape ++ ['"'])

/-! ## Units -/

/-- The UTF-16 units of a character: itself, or two below `0xe000` from `0x10000` on. -/
def units (c : Char) : List Nat :=
  if c.toNat < 0x10000 then [c.toNat]
  else [0xd800 + (c.toNat - 0x10000) / 0x400, 0xdc00 + (c.toNat - 0x10000) % 0x400]

/-- Whether `a` stands before `b` in the order of their `units` or is the same text. -/
def ordered (a b : String) : Bool :=
  !List.lex (b.toList.flatMap units) (a.toList.flatMap units) fun m n => m < n

/-- `units` leaves a character below `0x10000` as it is. -/
theorem units_of_lt {c : Char} (h : c.toNat < 0x10000) : units c = [c.toNat] := if_pos h

/-! ## Reading -/

/-- What a letter after a backslash stands for; the inverse of the short escapes of `escape`. -/
def escaped? (c : Char) : Option Char :=
  match c with
  | '"' | '\\' | '/' => some c
  | 'b' => some '\x08'
  | 'f' => some '\x0c'
  | 'n' => some '\n'
  | 'r' => some '\r'
  | 't' => some '\t'
  | _ => none

/-- The `units` up to the closing quote, and what follows it. -/
def quotedUnits? : List Char → Option (List Nat × List Char)
  | [] => none
  | '"' :: cs => some ([], cs)
  | '\\' :: 'u' :: a :: b :: c :: d :: cs => do
    let unit ← natural? 16 [a, b, c, d]
    let (following, rest) ← quotedUnits? cs
    return (unit :: following, rest)
  | '\\' :: c :: cs => do
    let c ← escaped? c
    let (following, rest) ← quotedUnits? cs
    return (units c ++ following, rest)
  | c :: cs => do
    if c.toNat < 32 then none
    let (following, rest) ← quotedUnits? cs
    return (units c ++ following, rest)

/-- The character of a unit that stands alone, or the replacement character for half of a pair. -/
def ofUnit (unit : Nat) : Char := if unit.isValidChar then Char.ofNat unit else '\ufffd'

/-- Whether two units are one character together: a high one and a low one (`units`). -/
def isPair (high low : Nat) : Bool :=
  0xd800 ≤ high && high < 0xdc00 && 0xdc00 ≤ low && low < 0xe000

/-- The characters of UTF-16 units, two units for one character where they are a pair (`isPair`). -/
def ofUnits : List Nat → List Char
  | [] => []
  | [unit] => [ofUnit unit]
  | high :: low :: following =>
    if isPair high low then
      Char.ofNat (0x10000 + (high - 0xd800) * 0x400 + (low - 0xdc00)) :: ofUnits following
    else ofUnit high :: ofUnits (low :: following)

/-- `ofUnit` gives back the character of a unit. -/
theorem ofUnit_toNat (c : Char) : ofUnit c.toNat = c := by
  have h : c.toNat.isValidChar := c.valid
  simp [ofUnit, h]

/-- `ofUnits` takes a character below `0x10000` on its own: it starts no pair. -/
theorem ofUnits_toNat_cons {c : Char} (h : c.toNat < 0x10000) (following : List Nat) :
    ofUnits (c.toNat :: following) = c :: ofUnits following := by
  have hv : c.toNat < 0xd800 ∨ 0xdfff < c.toNat := c.valid.imp_right And.left
  cases following with
  | nil => simp [ofUnits, ofUnit_toNat]
  | cons low following =>
    have hp : isPair c.toNat low = false := by
      simp only [isPair, Bool.and_eq_false_iff, decide_eq_false_iff_not]
      omega
    simp [ofUnits, hp, ofUnit_toNat]

/-- `ofUnits` reads the `units` of a text back as its characters. -/
theorem ofUnits_flatMap_units (cs : List Char) : ofUnits (cs.flatMap units) = cs := by
  induction cs with
  | nil => rfl
  | cons c cs ih =>
    rw [List.flatMap_cons]
    -- one unit, or a pair of surrogates that is put together again
    by_cases h : c.toNat < 0x10000
    · rw [units_of_lt h, List.singleton_append, ofUnits_toNat_cons h, ih]
    · have hc : c.toNat < 0xd800 ∨ 0xdfff < c.toNat ∧ c.toNat < 0x110000 := c.valid
      have hp : isPair (0xd800 + (c.toNat - 0x10000) / 0x400)
          (0xdc00 + (c.toNat - 0x10000) % 0x400) = true := by
        simp only [isPair, Bool.and_eq_true, decide_eq_true_eq]
        omega
      have hn : 0x10000 + (0xd800 + (c.toNat - 0x10000) / 0x400 - 0xd800) * 0x400
          + (0xdc00 + (c.toNat - 0x10000) % 0x400 - 0xdc00) = c.toNat := by
        omega
      rw [units, if_neg h]
      simp only [List.cons_append, List.nil_append, ofUnits, if_pos hp, hn, ih, Char.ofNat_toNat]

/-- The text up to the closing quote (`quotedUnits?`, `ofUnits`), and what follows it. -/
def unquoted? (cs : List Char) : Option (String × List Char) :=
  (quotedUnits? cs).map fun (read, rest) => (String.ofList (ofUnits read), rest)

end Settlement.Text
