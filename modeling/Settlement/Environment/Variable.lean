import Settlement.Log.Level

/-!
# Environment variables

The six variables that configure the tracker, in the order in which faults in them are
reported, and the values that the two of them with a fixed choice can take.
-/

namespace Settlement

/-- Where the program runs. -/
inductive Deployment where
  | development
  | production
  | test
  deriving DecidableEq, Repr

namespace Deployment

/-- Every deployment, in the order in which `Issue.choiceText` names them. -/
def all : List Deployment := [.development, .production, .test]

/-- The name of a deployment in the environment. -/
def name : Deployment → String
  | .development => "development"
  | .production => "production"
  | .test => "test"

/-- The deployment of a name. -/
def ofName? (name : String) : Option Deployment := all.find? (·.name == name)

/-- `ofName?` finds a deployment under its `name`. -/
theorem ofName?_name (deployment : Deployment) : ofName? deployment.name = some deployment := by
  cases deployment <;> decide

end Deployment

namespace Environment

/-- A variable that is read. -/
inductive Variable where
  | lookback
  | delay
  | challengeWindow
  | resolveWindow
  | logLevel
  | deployment
  deriving DecidableEq, Repr

/-- The name under which a variable stands in the environment. -/
def Variable.name : Variable → String
  | .lookback => "FINALITY_LOOKBACK"
  | .delay => "FINALITY_DELAY"
  | .challengeWindow => "ALT_DA_CHALLENGE_WINDOW"
  | .resolveWindow => "ALT_DA_RESOLVE_WINDOW"
  | .logLevel => "LOG_LEVEL"
  | .deployment => "NODE_ENV"

end Environment

end Settlement
