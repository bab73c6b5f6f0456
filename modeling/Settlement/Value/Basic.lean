import Settlement.Fault

/-!
# Values

What an L1 node answers, what an environment holds and what somebody raises can be anything:
a `Value` is such a thing before it has been checked. Numbers are binary64, `integer`s are exact
and unbounded, and records keep their fields in order.
-/

namespace Settlement

/-- Data of any shape. -/
inductive Value where
  /-- Nothing was given. -/
  | undefined
  | null
  | bool (b : Bool)
  | number (x : Number)
  | integer (n : Int)
  | text (s : String)
  | list (items : List Value)
  | record (fields : List (String × Value))
  | fault (f : Fault)
  deriving Repr, Inhabited

/-- Further fields that a record carries and nothing reads (`BlockId.extra`). -/
abbrev Extra := List (String × Value)

namespace Value

/-- The kind of a value, as an `Issue` names it. -/
def kind : Value → String
  | .undefined => "undefined"
  | .null => "null"
  | .bool _ => "boolean"
  | .number x => if x = .nan then "nan" else "number"
  | .integer _ => "bigint"
  | .text _ => "string"
  | .list _ => "array"
  | .record _ | .fault _ => "object"

/-- `v.field name`: the field of a record under a name, and `undefined` of every other value. -/
def field (v : Value) (name : String) : Value :=
  match v with
  | .record fields => (fields.lookup name).getD .undefined
  | _ => .undefined

/-- Whether a record has a field of this name, even if that is `undefined`. -/
def hasField (v : Value) (name : String) : Bool :=
  match v with
  | .record fields => (fields.lookup name).isSome
  | _ => false

/-- Whether a record has a field of this name that is not `undefined`. -/
def given (v : Value) (name : String) : Bool :=
  match v.field name with
  | .undefined => false
  | _ => true

/-- Whether a value is `undefined` or `null`. -/
def isNothing : Value → Bool
  | .undefined | .null => true
  | _ => false

/-- Whether a value counts as true: it is neither nothing (`isNothing`) nor false, nor a zero, nor
NaN, nor an empty text. -/
def truthy : Value → Bool
  | .undefined | .null => false
  | .bool b => b
  | .number x => !(x == .nan || x.equal 0)
  | .integer n => n != 0
  | .text s => !s.isEmpty
  | .list _ | .record _ | .fault _ => true

/-- A value that was given, or `default` in its place (`isNothing`). -/
def orElse (v default : Value) : Value := if v.isNothing then default else v

/-- The text that a value is, if it is a `text`. -/
def text? : Value → Option String
  | .text s => some s
  | _ => none

end Value

end Settlement
