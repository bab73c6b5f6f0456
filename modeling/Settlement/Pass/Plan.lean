import Settlement.Block.Unchecked
import Settlement.Lookup.Reply
import Settlement.Outcome

/-!
# Plans and their checks

A pass that has something to finalize makes a plan: which L2 block, recorded with which L1
block, under which finality signal. Two blocks of the L1 chain are then looked up by height and
have to carry the hashes that the plan expects (`Plan.check`): first that of the signal, then
the one that the L2 block was derived from.

A check goes wrong in one of two ways. It is blocked by an `Obstacle`, which makes the pass
fail: temporarily if no answer could be had, with the demand to reset if another block is there.
Or there is no block at all behind the answer, which breaks the pass.
-/

namespace Settlement

/-- What a pass is about to finalize, fixed when it starts (`Tracker.plan?`). -/
structure Plan where
  candidate : L2Block
  derivedFrom : BlockId
  signal : Header
  /-- How many resets there had been. -/
  generation : Nat
  deriving Repr

/-- The two lookups of a pass, in this order. -/
inductive Stage where
  | signal
  | provenance
  deriving DecidableEq, Repr

/-- Why a check was not passed (`Plan.check`). -/
inductive Obstacle where
  /-- The block at this height could not be had. -/
  | unreached (height : Number) (cause : Value)
  /-- Another block than that of the signal is there. -/
  | signalReplaced (signal : BlockId) (actual : String)
  /-- Another block than the one derived from is there. -/
  | provenanceReplaced (derivedFrom : BlockId) (actual : String) (signal : BlockId)
  deriving Repr

namespace Obstacle

/-- Whether waiting can help against an obstacle: only against `unreached`. -/
def kind : Obstacle → FailureKind
  | .unreached _ _ => .temporary
  | .signalReplaced _ _ | .provenanceReplaced _ _ _ => .reset

/-- What a failure says of an obstacle. -/
def message : Obstacle → String
  | .unreached height _ =>
    "failed to check if on finalizing L1 chain, could not fetch block " ++ height.text
  | .signalReplaced signal actual =>
    "need to reset, we assumed " ++ signal.text ++ " is finalized, but canonical chain is "
      ++ actual
  | .provenanceReplaced derivedFrom actual signal =>
    "need to reset, we are on " ++ derivedFrom.text ++ ", not on the finalizing L1 chain "
      ++ actual ++ " (towards " ++ signal.text ++ ")"

/-- The message names the block of the signal and the one that is there, as `BlockId.text` writes
them. -/
theorem message_signalReplaced (signal : BlockId) (actual : String) :
    (signalReplaced signal actual).message
      = "need to reset, we assumed " ++ signal.text ++ " is finalized, but canonical chain is "
        ++ actual := rfl

/-- The message names the block derived from, the one that is there and the signal, as
`BlockId.text` writes them. -/
theorem message_provenanceReplaced (derivedFrom : BlockId) (actual : String) (signal : BlockId) :
    (provenanceReplaced derivedFrom actual signal).message
      = "need to reset, we are on " ++ derivedFrom.text ++ ", not on the finalizing L1 chain "
        ++ actual ++ " (towards " ++ signal.text ++ ")" := rfl

/-- What was raised on the way: the cause of `unreached`, and `undefined` otherwise. -/
def cause : Obstacle → Value
  | .unreached _ cause => cause
  | .signalReplaced _ _ | .provenanceReplaced _ _ _ => .undefined

/-- The failure of a pass that meets an obstacle: its `kind`, its `message` and its `cause`. -/
def failure (o : Obstacle) : Failure := .of o.kind o.message o.cause

end Obstacle

/-- The result of a check (`Plan.check`). -/
inductive Check where
  | canonical
  | blocked (obstacle : Obstacle)
  | broken (fault : Fault)
  deriving Repr

namespace Plan

/-- The block that has to be canonical at a stage. -/
def expected (p : Plan) : Stage → BlockId
  | .signal => p.signal.toBlockId
  | .provenance => p.derivedFrom

/-- The obstacle of finding another block at a stage. -/
def replaced (p : Plan) (stage : Stage) (actual : String) : Obstacle :=
  match stage with
  | .signal => .signalReplaced p.signal.toBlockId actual
  | .provenance => .provenanceReplaced p.derivedFrom actual p.signal.toBlockId

/-- The obstacle of not reaching the block of a stage. -/
def unreached (p : Plan) (stage : Stage) (cause : Value) : Obstacle :=
  .unreached (p.expected stage).number cause

/-- Compares the hash of the block that was found with that of `Plan.expected`. A block that is
none, or that has no text to be told of, breaks the check. -/
def compare (p : Plan) (stage : Stage) (found : Value) : Check :=
  -- a fault in reading the block is not an outcome of the check
  if found.isNothing then .broken (.fieldOfNothing found.kind "hash")
  else if (found.field "hash").text? = some (p.expected stage).hash then .canonical
  else
    match found.identityText with
    | .ok actual => .blocked (p.replaced stage actual)
    | .error fault => .broken fault

/-- Judges the reply to a lookup. A failure counts as such, but a block found for a pass that was
cancelled in the meantime counts for nothing; any other block is compared (`Plan.compare`). -/
def check (p : Plan) (stage : Stage) (reply : Reply) (cancelled? : Option Value) : Check :=
  match reply, cancelled? with
  | .failure reason, _ => .blocked (p.unreached stage reason)
  | .block _, some reason => .blocked (p.unreached stage reason)
  | .block found, none => p.compare stage found

end Plan

end Settlement
