import Settlement.Value.Basic

/-!
# Cancellation

Passes and lookups may carry a token. A token is cancelled once, for a reason that stays; any
number of passes and lookups can share one.
-/

namespace Settlement

/-- The tokens that have been cancelled, with their reasons. -/
abbrev Cancellations := List (String × Value)

namespace Cancellations

/-- The reason for which a token was cancelled; `none` without a token. -/
def reason? (c : Cancellations) (token? : Option String) : Option Value :=
  token?.bind fun token => c.lookup token

/-- Cancels a token. The first reason given stays, and a cancellation without one has
`Fault.cancelled` for its reason. -/
def cancel (c : Cancellations) (token : String) (reason : Value) : Cancellations :=
  if (c.lookup token).isSome then c
  else
    (token, match reason with
      | .undefined => .fault .cancelled
      | reason => reason) :: c

/-- The fault that a lookup fails with when it is cancelled for this reason: the reason itself if it
is a fault, and `Fault.lookupCancelled` otherwise. -/
def fault (reason : Value) : Fault :=
  match reason with
  | .fault f => f
  | _ => .lookupCancelled

/-- `cancel` changes nothing for a token that was cancelled before: it keeps its reason. -/
theorem cancel_of_isSome {c : Cancellations} {token : String} (reason : Value)
    (h : (c.lookup token).isSome = true) : c.cancel token reason = c := by
  simp [cancel, h]

end Cancellations

end Settlement
