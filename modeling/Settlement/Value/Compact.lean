import Settlement.Text.Quoted
import Settlement.Value.Basic

/-!
# Values on one line

A value as plain data on a single line, without blanks. Numbers that are not finite are written
`null` and exact integers with all their digits. A field without a value is left out, and in a
list `null` stands for it. Of a fault only the name shows that it was given.

A value that was not given has no text at all (`Value.compact?_eq_none_iff`).
-/

namespace Settlement.Value

/-- `Number.text` of a finite number, and `null` of any other. -/
def numberText : Number → String
  | .nan | .infinite _ => "null"
  | x => x.text

/-- A field on a line: its name, quoted (`Text.quoted`), a colon and what stands for its value. -/
def labelled (name text : String) : String := Text.quoted name ++ ":" ++ text

/-- Fields between braces and commas. -/
def braced (fields : List String) : String := "\x7b" ++ ",".intercalate fields ++ "\x7d"

mutual

/-- A value on one line; none for `undefined`, which has no text. -/
def compact? : Value → Option String
  | .undefined => none
  | .null => some "null"
  | .bool b => some (if b then "true" else "false")
  | .number x => some (numberText x)
  | .integer n => some (toString n)
  | .text s => some (Text.quoted s)
  | .list items => some ("[" ++ ",".intercalate (compactItems items) ++ "]")
  | .record fields => some (braced (compactFields fields))
  | .fault f =>
    some (braced (f.givenName?.toList.map fun given => labelled "name" (Text.quoted given)))

/-- The items of a list by `compact?`, with `null` for what has no text. -/
def compactItems : List Value → List String
  | [] => []
  | item :: items => (compact? item).getD "null" :: compactItems items

/-- The fields of a record by `compact?`, without those that have no text. -/
def compactFields : List (String × Value) → List String
  | [] => []
  | (name, value) :: fields =>
    match compact? value with
    | some written => labelled name written :: compactFields fields
    | none => compactFields fields

end

/-- `compact?` has no text for `undefined`, and for nothing else. -/
theorem compact?_eq_none_iff (v : Value) : v.compact? = none ↔ v = .undefined := by
  cases v <;> simp [compact?]

end Settlement.Value
