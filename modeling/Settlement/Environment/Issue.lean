import Settlement.Environment.Variable
import Settlement.Value.Layout

/-!
# Issues

What can be wrong with an environment. `Issue.fields` is the form in which an issue is reported;
the order of its fields shows in `Issue.report`, which lays a whole list of issues out.
-/

namespace Settlement.Environment

/-- A fault in an environment. -/
inductive Issue where
  /-- The environment is not a set of variables but a value of this kind. -/
  | notAnEnvironment (kind : String)
  /-- The variable cannot be read as a number. -/
  | notANumber (v : Variable)
  /-- The variable is a number but no integer. -/
  | notAnInteger (v : Variable)
  /-- The variable is below the least value it can have. -/
  | tooSmall (v : Variable) (least : Nat)
  /-- The variable is a text but none of its choices. -/
  | unknownChoice (v : Variable) (choices : List String) (received : String)
  /-- The variable has to be one of its choices and is a value of this kind. -/
  | notAChoice (v : Variable) (choices : List String) (kind : String)
  /-- One window is set and this one is not. -/
  | unpaired (missing : Variable)
  deriving DecidableEq, Repr

namespace Issue

/-- The choices of a variable, each in single quotes, with bars between them. -/
def choiceText (choices : List String) : String :=
  " | ".intercalate (choices.map fun choice => "\x27" ++ choice ++ "\x27")

/-- What was expected and what was received instead, as `Issue.message` says it. -/
def expectation (expected received : String) : String :=
  "Expected " ++ expected ++ ", received " ++ received

/-- The message of an issue. -/
def message : Issue → String
  | .notAnEnvironment kind =>
    if kind = "undefined" then "Required" else expectation "object" kind
  | .notANumber _ => expectation "number" "nan"
  | .notAnInteger _ => expectation "integer" "float"
  | .tooSmall _ least => "Number must be greater than or equal to " ++ toString least
  | .unknownChoice _ choices received =>
    "Invalid enum value. " ++ expectation (choiceText choices) ("\x27" ++ received ++ "\x27")
  | .notAChoice _ choices kind => expectation (choiceText choices) kind
  | .unpaired _ =>
    Variable.challengeWindow.name ++ " and " ++ Variable.resolveWindow.name
      ++ " must be set together"

/-- The variables that an issue is about, by their names; none for the environment as a whole. -/
def path (named : List Variable) : String × Value :=
  ("path", .list (named.map fun v => .text v.name))

/-- The two fields of an issue about the kind of a value: `expected` and `received`. -/
def mismatch (expected received : String) : List (String × Value) :=
  [("code", .text "invalid_type"), ("expected", .text expected), ("received", .text received)]

/-- The fields of an issue, in the order in which `Issue.report` writes them. -/
def fields (issue : Issue) : List (String × Value) :=
  let message : String × Value := ("message", .text issue.message)
  match issue with
  | .notAnEnvironment kind => mismatch "object" kind ++ [path [], message]
  | .notANumber v => mismatch "number" "nan" ++ [path [v], message]
  | .notAnInteger v => mismatch "integer" "float" ++ [message, path [v]]
  | .tooSmall v least =>
    [("code", .text "too_small"), ("minimum", .number (.whole least)), ("type", .text "number"),
      ("inclusive", .bool true), ("exact", .bool false), message, path [v]]
  | .unknownChoice v choices received =>
    [("received", .text received), ("code", .text "invalid_enum_value"),
      ("options", .list (choices.map .text)), path [v], message]
  | .notAChoice v choices kind =>
    [("expected", .text (choiceText choices)), ("received", .text kind),
      ("code", .text "invalid_type"), path [v], message]
  | .unpaired missing => [("code", .text "custom"), path [missing], message]

/-- The report on a list of issues: their `fields`, laid out (`Value.layout`). -/
def report (issues : List Issue) : String :=
  (Value.list (issues.map fun issue => .record issue.fields)).layout 0

end Issue

end Settlement.Environment
