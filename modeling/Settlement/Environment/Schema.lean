import Settlement.Environment.Issue
import Settlement.Value.Conversion
import Settlement.Lookback

/-!
# Reading an environment

Each variable is read on its own (`Reading`): it is accepted, or flagged with issues that still
leave a value, or refused. An environment is accepted if no variable has an issue. Whether the
two windows are set together is checked only when no variable was refused, and the issue about
it comes last.

A variable that is not given takes its default; a window that is not given stays unset, and one
that is given without a value is kept as such (`Window.cleared`).
-/

namespace Settlement.Environment

/-- What reading one variable gives: a value, a value with issues, or issues alone. -/
inductive Reading (α : Type) where
  | accepted (value : α)
  | flagged (value : α) (issues : List Issue)
  | refused (issues : List Issue)
  deriving Repr

namespace Reading

/-- The issues that a reading has; none if it is `accepted`. -/
def issues {α : Type} : Reading α → List Issue
  | .accepted _ => []
  | .flagged _ issues | .refused issues => issues

/-- The value that was read, unless it was `refused`. -/
def value? {α : Type} : Reading α → Option α
  | .accepted value | .flagged value _ => some value
  | .refused _ => none

/-- The reading with its value changed; its issues stay. -/
def map {α β : Type} (f : α → β) : Reading α → Reading β
  | .accepted value => .accepted (f value)
  | .flagged value issues => .flagged (f value) issues
  | .refused issues => .refused issues

end Reading

/-- A window of the alternative data availability layer. -/
inductive Window where
  /-- Not among the variables. -/
  | unset
  /-- Among the variables, without a value. -/
  | cleared
  | blocks (n : Number)
  deriving DecidableEq, Repr

/-- The length of a window, if it is set (`Window.blocks`). -/
def Window.blocks? : Window → Option Number
  | .blocks n => some n
  | _ => none

/-- What an accepted environment says, variable by variable (`Readings.values?`). -/
structure Accepted where
  lookback : Number
  delay : Number
  challengeWindow : Window
  resolveWindow : Window
  logLevel : Level
  deployment : Deployment
  deriving DecidableEq, Repr

/-- What is wrong with a number: not an integer, below `least`, or both. -/
def numberIssues (v : Variable) (least : Nat) (x : Number) : List Issue :=
  (if x.toInt?.isSome then [] else [.notAnInteger v])
    ++ (if .whole least ≤ x then [] else [.tooSmall v least])

/-- A number that was given, converted from any value (`Value.toNumber`) and checked by
`numberIssues`. -/
def readNumber (v : Variable) (least : Nat) (value : Value) : Except Fault (Reading Number) :=
  match value.toNumber with
  | .error fault => .error fault
  | .ok .nan => .ok (.refused [.notANumber v])
  | .ok x =>
    match numberIssues v least x with
    | [] => .ok (.accepted x)
    | issues => .ok (.flagged x issues)

/-- `readNumber`, with `default` for a variable that was not given. -/
def readNumberOr (default : Nat) (v : Variable) (least : Nat) (value : Value) :
    Except Fault (Reading Number) :=
  match value with
  | .undefined => .ok (.accepted (.whole default))
  | value => readNumber v least value

/-- A window, which may be left out (`Window.unset`) or have no value (`Window.cleared`). -/
def readWindow (v : Variable) (environment : Value) : Except Fault (Reading Window) :=
  match environment.field v.name with
  | .undefined =>
    .ok (.accepted (if environment.hasField v.name then .cleared else .unset))
  | value => (readNumber v 0 value).map (Reading.map .blocks)

/-- One of a fixed choice of texts (`ofName?`), with a default where nothing was given. -/
def readChoice {α : Type} (v : Variable) (choices : List String) (ofName? : String → Option α)
    (default : α) : Value → Reading α
  | .undefined => .accepted default
  | .text s =>
    match ofName? s with
    | some choice => .accepted choice
    | none => .refused [.unknownChoice v choices s]
  | value => .refused [.notAChoice v choices value.kind]

/-- The log level, `info` by default. -/
def readLevel (value : Value) : Reading Level :=
  readChoice .logLevel (Level.all.map Level.name) Level.ofName? .info value

/-- The deployment, `development` by default. -/
def readDeployment (value : Value) : Reading Deployment :=
  readChoice .deployment (Deployment.all.map Deployment.name) Deployment.ofName? .development
    value

/-- The issue about the two windows together, if one is set and the other is not
(`Window.blocks?`). -/
def pairIssues (challenge resolve : Window) : List Issue :=
  match challenge.blocks?, resolve.blocks? with
  | some _, none => [.unpaired .resolveWindow]
  | none, some _ => [.unpaired .challengeWindow]
  | _, _ => []

/-- The readings of all six variables (`Readings.ofValue`). -/
structure Readings where
  lookback : Reading Number
  delay : Reading Number
  challengeWindow : Reading Window
  resolveWindow : Reading Window
  logLevel : Reading Level
  deployment : Reading Deployment

namespace Readings

/-- Reads every variable of an environment. It fails only where a value cannot be converted
(`readNumber`). -/
def ofValue (environment : Value) : Except Fault Readings :=
  match
    readNumberOr defaultLookback .lookback 1 (environment.field Variable.lookback.name),
    readNumberOr defaultDelay .delay 0 (environment.field Variable.delay.name),
    readWindow .challengeWindow environment,
    readWindow .resolveWindow environment with
  | .ok lookback, .ok delay, .ok challengeWindow, .ok resolveWindow =>
    .ok {
      lookback, delay, challengeWindow, resolveWindow
      logLevel := readLevel (environment.field Variable.logLevel.name)
      deployment := readDeployment (environment.field Variable.deployment.name) }
  | .error fault, _, _, _ | _, .error fault, _, _ | _, _, .error fault, _
  | _, _, _, .error fault => .error fault

/-- The issues of the variables, in the order of `Variable`. -/
def issues (r : Readings) : List Issue :=
  r.lookback.issues ++ r.delay.issues ++ r.challengeWindow.issues ++ r.resolveWindow.issues
    ++ r.logLevel.issues ++ r.deployment.issues

/-- The values that were read, unless one was `refused`. -/
def values? (r : Readings) : Option Accepted := do
  let lookback ← r.lookback.value?
  let delay ← r.delay.value?
  let challengeWindow ← r.challengeWindow.value?
  let resolveWindow ← r.resolveWindow.value?
  let logLevel ← r.logLevel.value?
  let deployment ← r.deployment.value?
  some { lookback, delay, challengeWindow, resolveWindow, logLevel, deployment }

/-- The accepted environment, or every issue with it, that about the windows (`pairIssues`) last. -/
def judge (r : Readings) : Except (List Issue) Accepted :=
  match r.values? with
  | none => .error r.issues
  | some values =>
    match r.issues ++ pairIssues values.challengeWindow values.resolveWindow with
    | [] => .ok values
    | issues => .error issues

end Readings

/-- What reading an environment gives: the accepted environment or the issues with it
(`Readings.judge`). -/
abbrev Judgement := Except (List Issue) Accepted

/-- Reads an environment of any shape; one that is no record has the issue
`Issue.notAnEnvironment`. -/
def read (environment : Value) : Except Fault Judgement :=
  match environment with
  | .record _ | .fault _ => (Readings.ofValue environment).map Readings.judge
  | other => .ok (.error [.notAnEnvironment other.kind])

/-! ## An accepted environment as variables -/

/-- A window as a field, if it is among the variables. -/
def Window.fields (v : Variable) : Window → List (String × Value)
  | .unset => []
  | .cleared => [(v.name, .undefined)]
  | .blocks n => [(v.name, .number n)]

/-- The variables that an accepted environment stands for, as an environment that `read` takes. -/
def Accepted.toValue (a : Accepted) : Value :=
  .record (
    (Variable.lookback.name, .number a.lookback) :: (Variable.delay.name, .number a.delay)
    :: (a.challengeWindow.fields .challengeWindow ++ a.resolveWindow.fields .resolveWindow
    ++ [(Variable.logLevel.name, .text a.logLevel.name),
      (Variable.deployment.name, .text a.deployment.name)]))

end Settlement.Environment
