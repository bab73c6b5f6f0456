import Settlement.Text.Quoted
import Settlement.Value.Compact

/-!
# Abridged values

A value with an exact integer in it is written within limits: lists and records five levels
down are replaced by a word for them, and of a longer list or record only the first hundred
parts are kept, with a note on how many are missing. The fields of a record are put in the order
of their names first. A value without exact integers is written in full.
-/

namespace Settlement.Value

/-- So many levels of lists and records does `abridged` keep. -/
def depthLimit : Nat := 5

/-- So many items (`firstItems`) or fields (`firstFields`) are kept. -/
def breadthLimit : Nat := 100

/-- The note on parts that were left out, by their `count`. -/
def omission (count : Nat) : String :=
  toString count ++ (if count = 1 then " item" else " items") ++ " not stringified"

/-- The first `breadthLimit` items of a list. The note counts one item less than are missing. -/
def firstItems (items : List Value) : List Value :=
  items.take breadthLimit
    ++ if breadthLimit + 1 < items.length then
        [.text ("... " ++ omission (items.length - breadthLimit - 1))]
      else []

/-- The first `breadthLimit` fields of a record in the order of their names (`Text.ordered`). -/
def firstFields (fields : List (String × Value)) : List (String × Value) :=
  (fields.mergeSort fun a b => Text.ordered a.1 b.1).take breadthLimit
    ++ if breadthLimit < fields.length then
        [("...", .text (omission (fields.length - breadthLimit)))]
      else []

mutual

/-- A value with `depth` levels of it kept, and a word in the place of every list or record below
them. -/
def abridged (depth : Nat) : Value → Value
  | .list items =>
    if items.isEmpty then .list []
    else if depth = 0 then .text "[Array]"
    else .list (firstItems (abridgedItems (depth - 1) items))
  | .record fields =>
    if fields.isEmpty then .record []
    else if depth = 0 then .text "[Object]"
    else .record (firstFields (abridgedFields (depth - 1) fields))
  | .fault f => if depth = 0 ∧ f.givenName?.isSome then .text "[Object]" else .fault f
  | v => v

/-- The items of a list, each `abridged`. -/
def abridgedItems (depth : Nat) : List Value → List Value
  | [] => []
  | item :: items => abridged depth item :: abridgedItems depth items

/-- The fields of a record, each `abridged`. -/
def abridgedFields (depth : Nat) : List (String × Value) → List (String × Value)
  | [] => []
  | (name, value) :: fields => (name, abridged depth value) :: abridgedFields depth fields

end

mutual

/-- Whether there is an exact integer (`Value.integer`) anywhere in a value. -/
def holdsInteger : Value → Bool
  | .integer _ => true
  | .list items => itemHoldsInteger items
  | .record fields => fieldHoldsInteger fields
  | _ => false

/-- `holdsInteger` of some item of a list. -/
def itemHoldsInteger : List Value → Bool
  | [] => false
  | item :: items => holdsInteger item || itemHoldsInteger items

/-- `holdsInteger` of some field of a record. -/
def fieldHoldsInteger : List (String × Value) → Bool
  | [] => false
  | (_, value) :: fields => holdsInteger value || fieldHoldsInteger fields

end

/-- A value on one line (`compact?`), `abridged` first if it `holdsInteger`. -/
def written? (v : Value) : Option String :=
  if v.holdsInteger then (v.abridged depthLimit).compact? else v.compact?

end Settlement.Value
