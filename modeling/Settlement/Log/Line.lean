import Settlement.Log.Field
import Settlement.Log.Notice
import Settlement.Log.Template
import Settlement.Log.Threshold

/-!
# Log lines

A line is the text of a record on one line: the severity, the module, the fields and the
message, in this order. A name can occur more than once in it, and then its last occurrence
counts. A log writes a line only if its level is enabled.

A call to a log says a record and a message (`Entry.of`). A failure is written with the messages
of its causes after its own, and with their traces. A trace that has no text cannot be written,
and then there is no line.
-/

namespace Settlement

/-- The message of a failure and of its causes (`Value.errorMessage?`). -/
def Failure.fullMessage (f : Failure) : String :=
  f.message ++ ((f.cause?.bind Value.errorMessage?).map (": " ++ ·)).getD ""

/-- The traces of the causes of a failure (`Value.causeTrace?`). That of the failure itself is not
known here. -/
def Failure.causeTraces (f : Failure) : Except Fault String := do
  match ← Value.causeTrace? (f.cause?.toList.map ("cause", ·)) with
  | some trace => return Value.traceAfter "" trace
  | none => return ""

namespace Log

/-- The fields and the message of a call to a log (`Entry.of`). -/
structure Entry where
  fields : List (String × Value)
  /-- The message; nothing given if there is none. -/
  message : Value
  deriving Repr

/-- The message that stands for `undefined`: that of the error among the fields. -/
def messageOr (error : Value) : Value → Value
  | .undefined =>
    match error with
    | .fault f => .text f.message
    | error => error.field "message"
  | message => message

/-- The entry of a call with these two arguments. Fields come first and a message second; without
fields the first is the message, or the template of one (`fill`). A record that brings a message of
its own keeps it. -/
def Entry.of (first second : Value) : Except Fault Entry :=
  match first with
  | .undefined | .null => .ok ⟨[], second⟩
  | .text template => (fill template second).map fun message => ⟨[], .text message⟩
  | .fault f => .ok ⟨[("err", .fault f)], messageOr (.fault f) second⟩
  | .record fields =>
    if isRequest (.record fields) then
      .ok ⟨[("req", requestRecord (.record fields))], second⟩
    else if (Value.record fields).given "msg" then .ok ⟨fields, second⟩
    else .ok ⟨fields, messageOr ((Value.record fields).field "err") second⟩
  | .list items =>
    -- the items are fields named by their positions
    .ok ⟨((List.range items.length).map toString).zip items, second⟩
  | first => .ok ⟨[], first⟩

/-- What stands in a line for a field, if it has a value: by `reservedField?` under a reserved name,
by `Value.errorRecord` under `err`, and by `Value.written?` otherwise. -/
def fieldText? (name : String) (value : Value) : Except Fault (Option String) :=
  match value with
  | .undefined => .ok none
  | value =>
    if reservedNames.contains name then reservedField? name value
    else if name = "err" then value.errorRecord.map Value.written?
    else .ok value.written?

/-- `fieldText?` of the fields that have a value, each with its name (`Value.labelled`). -/
def fieldTexts : List (String × Value) → Except Fault (List String)
  | [] => .ok []
  | (name, value) :: fields => do
    let text? ← fieldText? name value
    return (text?.map (Value.labelled name)).toList ++ (← fieldTexts fields)

/-- The name under which the tracker logs. -/
def moduleName : String := "finalizer"

/-- The line of a severity: level, module, what stands for the fields, and the message if it has
one. -/
def lineOf (severity : Nat) (fields : List String) (message : Value) : String :=
  let opening := [Value.labelled "level" (toString severity),
    Value.labelled "module" (Text.quoted moduleName)]
  Value.braced (opening ++ fields ++ (message.written?.map (Value.labelled "msg")).toList)

/-- The line of an entry, unless one of its `fieldTexts` cannot be had. -/
def line (severity : Nat) (entry : Entry) : Except Fault String :=
  (fieldTexts entry.fields).map (lineOf severity · entry.message)

/-- The severity of a level, if a log writes lines of it (`Threshold.isEnabled`). -/
def severity? (threshold : Threshold) (level : Level) : Option Nat :=
  if threshold.isEnabled level then level.severity? else none

/-- The line that a call to a log writes, if it writes one (`severity?`). What is not written is not
looked into either. -/
def call? (threshold : Threshold) (level : String) (first second : Value) :
    Except Fault (Option String) :=
  match Level.ofName? level with
  | none => .error (.notALevel level)
  | some level =>
    match severity? threshold level with
    | some severity => (Entry.of first second >>= line severity).map some
    | none => .ok none

/-! ## Notices -/

/-- A detail of a notice as a value. A failure is written as an error with its own two fields, and
its traces may fail (`Failure.causeTraces`). -/
def detailValue : Detail → Except Fault Value
  | .text s => .ok (.text s)
  | .number x => .ok (.number x)
  | .failure f => do
    let traces ← f.causeTraces
    return .record [("type", .text f.name), ("message", .text f.fullMessage),
      ("stack", .text traces), ("name", .text f.name), ("kind", .text f.kind.word)]

/-- What stands in a line for the details of a notice (`detailValue`, `Value.written?`). -/
def detailTexts : List (String × Detail) → Except Fault (List String)
  | [] => .ok []
  | (name, detail) :: details => do
    let text? := (← detailValue detail).written?
    return (text?.map (Value.labelled name)).toList ++ (← detailTexts details)

/-- The lines that a log writes for notices, each with its `detailTexts`. What is not written is not
looked into either. -/
def noticeLines (threshold : Threshold) : List Notice → Except Fault (List String)
  | [] => .ok []
  | n :: notices =>
    match severity? threshold n.level with
    | none => noticeLines threshold notices
    | some severity => do
      let line := lineOf severity (← detailTexts n.details) (.text n.message)
      return line :: (← noticeLines threshold notices)

end Log

end Settlement
