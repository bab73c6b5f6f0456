import Settlement.Value.Compact

/-!
# Indented layout

A value written over several lines, two blanks deeper at each level: one item or field a line,
fields in their order with their names quoted, and empty lists and records on one line. What is
written for a value is otherwise the same as on a single line (`Settlement.Value.Compact`).
-/

namespace Settlement.Value

/-- The blanks before a line at the given depth, two for each level. -/
def indent (depth : Nat) : String := String.ofList (List.replicate (2 * depth) ' ')

/-- Lines between brackets, each at one more than the given depth (`indent`). -/
def bracketed (opening closing : String) (depth : Nat) (lines : List String) : String :=
  if lines.isEmpty then opening ++ closing
  else
    opening ++ "\n" ++ ",\n".intercalate (lines.map (indent (depth + 1) ++ ·)) ++ "\n"
      ++ indent depth ++ closing

mutual

/-- A value laid out from the given depth on: a list and a record as `bracketed` lines, anything
else as in `compact?`. -/
def layout (depth : Nat) : Value → String
  | .undefined | .null => "null"
  | .bool b => if b then "true" else "false"
  | .number x => numberText x
  | .integer n => toString n
  | .text s => Text.quoted s
  | .list items => bracketed "[" "]" depth (itemLayouts (depth + 1) items)
  | .record fields => bracketed "\x7b" "\x7d" depth (fieldLayouts (depth + 1) fields)
  | .fault f =>
    bracketed "\x7b" "\x7d" depth
      (f.givenName?.toList.map fun given => Text.quoted "name" ++ ": " ++ Text.quoted given)

/-- `layout` of the items of a list, one by one. -/
def itemLayouts (depth : Nat) : List Value → List String
  | [] => []
  | item :: items => layout depth item :: itemLayouts depth items

/-- `layout` of the fields of a record that have a value, one by one, with their names quoted. -/
def fieldLayouts (depth : Nat) : List (String × Value) → List String
  | [] => []
  | (name, value) :: fields =>
    match value with
    | .undefined => fieldLayouts depth fields
    | value => (Text.quoted name ++ ": " ++ layout depth value) :: fieldLayouts depth fields

end

end Settlement.Value
