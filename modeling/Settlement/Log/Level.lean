/-!
# Log levels

Six levels from `trace` to `fatal`, and `silent` above them all, which logs nothing. A log set
to a level writes the lines at least as severe as it.
-/

namespace Settlement

/-- How severe a line is, or how severe lines have to be for a log to write them. -/
inductive Level where
  | fatal
  | error
  | warn
  | info
  | debug
  | trace
  | silent
  deriving DecidableEq, Repr

namespace Level

/-- Every level, the most severe first; `silent` is the last. -/
def all : List Level := [.fatal, .error, .warn, .info, .debug, .trace, .silent]

/-- The name of a level. -/
def name : Level → String
  | .fatal => "fatal"
  | .error => "error"
  | .warn => "warn"
  | .info => "info"
  | .debug => "debug"
  | .trace => "trace"
  | .silent => "silent"

/-- The level of a name. -/
def ofName? (name : String) : Option Level := all.find? (·.name == name)

/-- The severity written on a line; nothing is as severe as `silent`. -/
def severity? : Level → Option Nat
  | .fatal => some 60
  | .error => some 50
  | .warn => some 40
  | .info => some 30
  | .debug => some 20
  | .trace => some 10
  | .silent => none

/-- Whether a log set to `threshold` writes lines of a level: they are at least as severe. -/
def isEnabled (threshold level : Level) : Bool :=
  match threshold.severity?, level.severity? with
  | some least, some severity => least ≤ severity
  | _, _ => false

/-- `ofName?` finds a level under its `name`. -/
theorem ofName?_name (level : Level) : ofName? level.name = some level := by
  cases level <;> decide

end Level

end Settlement
