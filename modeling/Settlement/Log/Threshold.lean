import Settlement.Log.Field
import Settlement.Log.Level

/-!
# Thresholds

What a log is set to. A level is found under its name, and all but `silent` also under their
names in capitals; a number stands for the level of that severity, infinity for silence. A
reserved name sets the log to no level, so that it writes nothing (`Threshold.isEnabled_unset`).
-/

namespace Settlement

/-- The level of a number: that of its `severity?`, and `silent` for infinity. -/
def Level.ofSeverity? (severity : Number) : Option Level :=
  all.find? fun level =>
    match level.severity? with
    | some n => severity.equal (.whole n)
    | none => severity = .infinite false

/-- What a log is set to (`Threshold.ofValue`). -/
inductive Threshold where
  /-- Lines at least as severe as this are written. -/
  | least (level : Level)
  /-- No level at all. -/
  | unset
  deriving DecidableEq, Repr

namespace Threshold

/-- A name in lower case if that is the name of a level or one of the `Log.reservedNames`, and as it
is otherwise. There is no line as severe as `silent`, and its name counts in lower case only. -/
def folded (name : String) : String :=
  let lower := name.toLower
  let known := (Level.ofName? lower).any (·.severity?.isSome) || Log.reservedNames.contains lower
  if known then lower else name

/-- The threshold of a name: that of the level, or `unset` for one of the `Log.reservedNames`. -/
def ofName (name : String) : Except Fault Threshold :=
  match Level.ofName? name with
  | some level => .ok (.least level)
  | none =>
    if Log.reservedNames.contains name then .ok .unset else .error (.unknownLevel name)

/-- The threshold that a value of any shape asks for: a text by `ofName` of its `folded` form, a
number by `Level.ofSeverity?`. -/
def ofValue : Value → Except Fault Threshold
  | .text s => ofName (folded s)
  | .number x =>
    match Level.ofSeverity? x with
    | some level => .ok (.least level)
    | none => .error (.unknownLevel x.text)
  | v => v.toText >>= ofName

/-- The level that a log is set to, unless it is `unset`. -/
def level? : Threshold → Option Level
  | .least level => some level
  | .unset => none

/-- Whether a log writes lines of a level (`Level.isEnabled`). -/
def isEnabled (threshold : Threshold) (level : Level) : Bool :=
  threshold.level?.any (·.isEnabled level)

/-- The levels that a log writes (`isEnabled`). -/
def enabled (threshold : Threshold) : List Level := Level.all.filter threshold.isEnabled

/-- A log that is set to a level writes what `Level.isEnabled` says. -/
@[simp] theorem isEnabled_least (threshold level : Level) :
    (least threshold).isEnabled level = threshold.isEnabled level := rfl

/-- A log that is `unset` writes nothing. -/
@[simp] theorem isEnabled_unset (level : Level) : unset.isEnabled level = false := rfl

end Threshold

end Settlement
