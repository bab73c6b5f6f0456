import Settlement.Value.Basic

/-!
# Outcomes

A finalization pass ends well or fails in one of two ways: temporarily, when L1 could not be
asked, or with the demand to reset, when what the tracker was told is not on the canonical L1
chain. A failure has a message and, if something was raised on the way, that as its cause.
-/

namespace Settlement

/-- Whether a failure can pass by itself (`temporary`) or provenance has to be forgotten
(`reset`). -/
inductive FailureKind where
  | temporary
  | reset
  deriving DecidableEq, Repr

/-- A kind as it stands in a log line and in `Outcome.status`. -/
def FailureKind.word : FailureKind → String
  | .temporary => "temporary"
  | .reset => "reset"

/-- Why a pass failed (`Obstacle.failure`). -/
structure Failure where
  kind : FailureKind
  message : String
  cause? : Option Value := none
  deriving Repr

namespace Failure

/-- A failure with a cause; `undefined` is no cause. -/
def of (kind : FailureKind) (message : String) (cause : Value) : Failure where
  kind := kind
  message := message
  cause? := match cause with
    | .undefined => none
    | cause => some cause

/-- The class of a failure, by its kind. -/
def name (f : Failure) : String :=
  match f.kind with
  | .temporary => "TemporaryError"
  | .reset => "ResetError"

/-- A failure in running text (`Fault.join`). -/
def text (f : Failure) : String := Fault.join f.name f.message

end Failure

/-- How a pass that was judged ended. -/
inductive Outcome where
  | ok
  | failed (failure : Failure)
  deriving Repr, Inhabited

namespace Outcome

/-- An outcome in one word: `ok`, or the `FailureKind.word`. -/
def status : Outcome → String
  | .ok => "ok"
  | .failed failure => failure.kind.word

/-- The failure of an outcome that is `failed`. -/
def failure? : Outcome → Option Failure
  | .ok => none
  | .failed failure => some failure

end Outcome

end Settlement
