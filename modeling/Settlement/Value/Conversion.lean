import Settlement.Value.Basic
import Settlement.Text.Numeral

/-!
# Converting values

`Value.toText` writes a value inside a text. A list is written as its items between commas,
nothing at all as an empty item, and a record has one fixed text. A record with a field named
`toString` has no text, and neither has a list that holds one.

`Value.toNumber` and `Value.toInteger` read a value as a number and as an exact integer, and
`Value.add` adds two of them. All three take lists, records and faults by their text. Numbers
and exact integers do not mix: the sum of one of each is refused.
-/

namespace Settlement.Value

mutual

/-- A value inside a running text: the items of a list between commas, a record by one fixed text, a
fault by `Fault.text`. A record with a field `toString` has no text. -/
def toText : Value → Except Fault String
  | .undefined => .ok "undefined"
  | .null => .ok "null"
  | .bool b => .ok (if b then "true" else "false")
  | .number x => .ok x.text
  | .integer n => .ok (toString n)
  | .text s => .ok s
  | .list items => (itemTexts items).map (",".intercalate ·)
  | .record fields =>
    if (fields.lookup "toString").isSome then .error .noText else .ok "[object Object]"
  | .fault f => .ok f.text

/-- `toText` of the items of a list; nothing at all has an empty one. -/
def itemTexts : List Value → Except Fault (List String)
  | [] => .ok []
  | item :: items =>
    if item.isNothing then (itemTexts items).map ("" :: ·)
    else
      match toText item with
      | .error f => .error f
      | .ok s => (itemTexts items).map (s :: ·)

end

/-- A value read as a number: a text by `Number.ofText`, a list by its text, and an exact integer
rounded once. -/
def toNumber : Value → Except Fault Number
  | .undefined => .ok .nan
  | .null => .ok 0
  | .bool b => .ok (if b then 1 else 0)
  | .number x => .ok x
  | .integer n => .ok (.ofInt n)
  | v => v.toText.map .ofText

/-- `toNumber` where no exact integer is taken. -/
def toOperand : Value → Except Fault Number
  | .integer _ => .error .exactInteger
  | v => v.toNumber

/-- A value read as an exact integer: an integral number (`Number.toInt?`), or a text that spells
one (`Text.integer?`). -/
def toInteger : Value → Except Fault Int
  | .undefined => .error (.noInteger "undefined")
  | .null => .error (.noInteger "null")
  | .bool b => .ok (if b then 1 else 0)
  | .number x =>
    match x.toInt? with
    | some n => .ok n
    | none => .error (.notAnInteger x)
  | .integer n => .ok n
  | v => do
    let s ← v.toText
    match Text.integer? (Text.trim s.toList) with
    | some n => .ok n
    | none => .error (.notANumeral s)

/-! ## Sums -/

/-- A value without parts: lists, records and faults become their `toText`. -/
def toScalar : Value → Except Fault Value
  | .list items => (Value.list items).toText.map .text
  | .record fields => (Value.record fields).toText.map .text
  | .fault f => .ok (.text f.text)
  | v => .ok v

/-- The sum of two values without parts. Next to a text everything is text, two exact integers have
an exact sum, and everything else is added by `Number.add`. -/
def addScalars (a b : Value) : Except Fault Value :=
  match a, b with
  | .text _, _ | _, .text _ => return .text ((← a.toText) ++ (← b.toText))
  | .integer m, .integer n => .ok (.integer (m + n))
  | .integer _, _ | _, .integer _ => .error .mixedSum
  | _, _ => return .number ((← a.toNumber) + (← b.toNumber))

/-- The sum of two values, each made a scalar first (`toScalar`). -/
def add (a b : Value) : Except Fault Value := do
  addScalars (← a.toScalar) (← b.toScalar)

/-- `add` of numbers is the sum of numbers. -/
@[simp] theorem add_number (x y : Number) :
    (Value.number x).add (.number y) = .ok (.number (x + y)) := rfl

end Settlement.Value
