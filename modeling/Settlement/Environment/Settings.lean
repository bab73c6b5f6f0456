import Settlement.Environment.Schema

/-!
# Settings

What the program runs with: the sizing of the tracker, the level of its log and where it runs.
They are loaded from an environment, and the log is formatted for reading during development
only.
-/

namespace Settlement

/-- The settings that the program runs with. -/
structure Settings where
  sizing : Sizing
  logLevel : Level
  deployment : Deployment
  deriving DecidableEq, Repr

/-- What a log is made with. -/
structure LogOptions where
  level : Level
  pretty : Bool
  deriving DecidableEq, Repr

namespace Settings

/-- The settings of an accepted environment. The windows count only if both are set
(`Window.blocks?`). -/
def ofAccepted (a : Environment.Accepted) : Settings where
  sizing := {
    lookback? := some a.lookback
    -- an accepted environment has both windows or none
    windows? := match a.challengeWindow.blocks?, a.resolveWindow.blocks? with
      | some challenge, some resolve => some { challenge, resolve }
      | _, _ => none
    delay? := some a.delay }
  logLevel := a.logLevel
  deployment := a.deployment

/-- Loads the settings from an environment of any shape (`Environment.read`). -/
def load (environment : Value) : Except Fault (Except (List Environment.Issue) Settings) :=
  (Environment.read environment).map (Except.map ofAccepted)

/-- A log is set to the level of the settings, and laid out for reading only in `development`. -/
def logOptions (s : Settings) : LogOptions where
  level := s.logLevel
  pretty := s.deployment = .development

end Settings

end Settlement
