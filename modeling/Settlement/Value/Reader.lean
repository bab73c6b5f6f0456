import Settlement.Text.Quoted
import Settlement.Value.Basic

/-!
# Reading plain data

The text of a value is read back (`Value.read?`). Blanks may stand between all parts of it.
Numbers have no sign but a minus, no needless zero in front and digits on both sides of a point;
they are rounded once, and a minus before zero counts. Of the fields of one name the last counts.
Nothing may follow the value.

A field whose name is a position, that is a natural number without needless zeros, stands before
all others and in the order of the positions. The other fields stand as they were given. No field is
lost by that and none is added (`Value.arranged_perm`).

A round either takes a character away or turns to the next part of a list or a record, and the
round after that takes one away. Twice as many rounds as there are characters are therefore
enough.
-/

namespace Settlement.Value

/-! ## The order of fields -/

/-- A name is a position only below this, `2 ^ 32 - 1`. -/
def positionLimit : Nat := Nat.pow 2 32 - 1

/-- The position that a name is: a natural number below `positionLimit` that is written as
`toString` writes it. -/
def position? (name : String) : Option Nat :=
  (Text.natural? 10 name.toList).filter fun n => n < positionLimit && toString n == name

/-- Whether the first of two fields may stand before the second: positions (`position?`) ascend and
stand before all other names. -/
def mayPrecede (a b : String × Value) : Bool :=
  match position? a.1, position? b.1 with
  | some m, some n => m ≤ n
  | none, some _ => false
  | _, none => true

/-- Fields in the order of `mayPrecede`; the sort is stable, so that other names stay as they were
given. -/
def arranged (fields : List (String × Value)) : List (String × Value) :=
  fields.mergeSort mayPrecede

/-- The record of some fields, `arranged`. -/
def ofFields (fields : List (String × Value)) : Value := .record (arranged fields)

/-- `arranged` loses no field and adds none. -/
theorem arranged_perm (fields : List (String × Value)) : (arranged fields).Perm fields :=
  List.mergeSort_perm fields mayPrecede

/-! ## Reading -/

/-- A blank between the parts of plain data; these are fewer than `Text.blanks`. -/
def isGap (c : Char) : Bool := [' ', '\t', '\n', '\r'].contains c

/-- What follows the blanks (`isGap`) at the start. -/
def afterGap (cs : List Char) : List Char := cs.dropWhile isGap

/-- A character that ends a word: a gap or one of the marks of plain data. -/
def isMark (c : Char) : Bool := isGap c || ",:[]\x7b\x7d\"".toList.contains c

/-- Whether digits follow a leading point, if there is one; `1.` is no number in plain data. -/
def pointHolds : List Char → Bool
  | '.' :: c :: _ => Text.isDigitOf 10 c
  | ['.'] => false
  | _ => true

/-- A number in plain data: `Text.decimal?` with no sign but a minus and no needless zero. -/
def plainNumber? (cs : List Char) : Option Number :=
  let (negative, digits) := match cs with
    | '-' :: cs => (true, cs)
    | cs => (false, cs)
  let whole := digits.takeWhile (Text.isDigitOf 10)
  -- zero is the only number that starts with one
  if whole = ['0'] || whole.head?.any (· ≠ '0') then
    if pointHolds (digits.drop whole.length) then Text.decimal? negative digits else none
  else none

/-- A value that is a single word: `null`, `true`, `false`, or a number (`plainNumber?`). -/
def plainWord? (word : List Char) : Option Value :=
  if word = "null".toList then some .null
  else if word = "true".toList then some (.bool true)
  else if word = "false".toList then some (.bool false)
  else (plainNumber? word).map .number

/-- The quoted name of a field up to its colon (`Text.unquoted?`), and what follows. -/
def label? (cs : List Char) : Option (String × List Char) :=
  match afterGap cs with
  | '"' :: cs => do
    let (name, rest) ← Text.unquoted? cs
    match afterGap rest with
    | ':' :: rest => some (name, rest)
    | _ => none
  | _ => none

/-- A field before others, unless one of them has its name: of the fields of one name the last
counts. -/
def unlessRepeated (name : String) (value : Value) (fields : List (String × Value)) :
    List (String × Value) :=
  if (fields.lookup name).isSome then fields else (name, value) :: fields

mutual

/-- A value at the start of a text, and what follows it; lists and records by `readItems?` and
`readFields?`. -/
def readValue? : Nat → List Char → Option (Value × List Char)
  | 0, _ => none
  | rounds + 1, cs =>
    match afterGap cs with
    | '"' :: cs => (Text.unquoted? cs).map fun (s, rest) => (.text s, rest)
    | '[' :: cs =>
      match afterGap cs with
      | ']' :: rest => some (.list [], rest)
      | cs => (readItems? rounds cs).map fun (items, rest) => (.list items, rest)
    | '\x7b' :: cs =>
      match afterGap cs with
      | '\x7d' :: rest => some (.record [], rest)
      | cs => (readFields? rounds cs).map fun (fields, rest) => (ofFields fields, rest)
    | cs => (plainWord? (cs.takeWhile (!isMark ·))).map fun v => (v, cs.dropWhile (!isMark ·))

/-- The items up to the end of a list, each by `readValue?`, and what follows it. -/
def readItems? : Nat → List Char → Option (List Value × List Char)
  | 0, _ => none
  | rounds + 1, cs => do
    let (item, rest) ← readValue? rounds cs
    match afterGap rest with
    | ']' :: rest => some ([item], rest)
    | ',' :: rest => (readItems? rounds rest).map fun (items, rest) => (item :: items, rest)
    | _ => none

/-- The fields up to the end of a record, each by `label?` and `readValue?`, and what follows it. -/
def readFields? : Nat → List Char → Option (List (String × Value) × List Char)
  | 0, _ => none
  | rounds + 1, cs => do
    let (name, rest) ← label? cs
    let (value, rest) ← readValue? rounds rest
    match afterGap rest with
    | '\x7d' :: rest => some ([(name, value)], rest)
    | ',' :: rest =>
      (readFields? rounds rest).map fun (fields, rest) =>
        (unlessRepeated name value fields, rest)
    | _ => none

end

/-- The value whose text this is: `readValue?` leaves nothing but blanks. -/
def read? (s : String) : Option Value :=
  match readValue? (2 * s.length + 2) s.toList with
  | some (v, rest) => if (afterGap rest).isEmpty then some v else none
  | none => none

end Settlement.Value
