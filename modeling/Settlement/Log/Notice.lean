import Settlement.Log.Level
import Settlement.Outcome
import Settlement.Provenance.Link

/-!
# Notices

What the tracker says about what it does. A notice is what happened; its level, its message and
its fields follow from that.
-/

namespace Settlement

/-- A thing that the tracker logs. Its `level`, its `message` and its `details` follow from it. -/
inductive Notice where
  /-- A link was appended; it is now the newest. -/
  | extended (newest : Link)
  /-- The newest link was updated to this. -/
  | updated (newest : Link)
  /-- A finality signal is older than the one already known. -/
  | outdated (known signaled : BlockId)
  /-- A pass begins at a derivation boundary; the one before it was at `previous`. -/
  | processing (signal derivedFrom : BlockId) (previous : Number)
  /-- A block was committed, verified by these two L1 blocks. -/
  | finalized (block derivedFrom signal : BlockId)
  /-- A pass was overtaken by a reset after both its checks had passed. -/
  | discarded (candidate : BlockId)
  /-- The pass of a finality signal failed. -/
  | failed (failure : Failure) (signal : BlockId)
  deriving Repr

/-- The content of a field of a notice (`Notice.details`). -/
inductive Detail where
  | text (s : String)
  | number (x : Number)
  | failure (f : Failure)
  deriving Repr

namespace Notice

/-- The level at which a notice is logged. -/
def level : Notice → Level
  | .extended _ | .updated _ | .discarded _ => .debug
  | .processing _ _ _ | .finalized _ _ _ => .info
  | .failed _ _ => .warn
  | .outdated _ _ => .error

/-- The message of a notice. -/
def message : Notice → String
  | .extended _ => "Extended finality data"
  | .updated _ => "Updated finality data"
  | .outdated _ _ => "Ignoring old L1 finalized block signal, is the L1 provider corrupted?"
  | .processing _ _ _ => "Processing L1 finality information"
  | .finalized _ _ _ => "Finalized L2 chain"
  | .discarded _ => "Discarding finalization pass, provenance was reset while verifying"
  | .failed _ _ =>
    "Received L1 finalization signal, but was unable to determine and apply L2 finality"

/-- The newest link, as `extended` and `updated` show it. -/
def linkDetails (newest : Link) : List (String × Detail) :=
  [("lastL1", .text newest.l1.text), ("lastL2", .text newest.l2.text)]

/-- The fields of a notice, in the order in which they are logged. -/
def details : Notice → List (String × Detail)
  | .extended newest | .updated newest => linkDetails newest
  | .outdated known signaled =>
    [("prevFinalizedL1", .text known.text), ("signaledFinalizedL1", .text signaled.text)]
  | .processing signal derivedFrom previous =>
    [("l1Finalized", .text signal.text), ("derivedFrom", .text derivedFrom.text),
      ("previous", .number previous)]
  | .finalized block derivedFrom signal =>
    [("l2Finalized", .text block.text), ("l1DerivedFrom", .text derivedFrom.text),
      ("l1Finalized", .text signal.text)]
  | .discarded candidate => [("candidate", .text candidate.text)]
  | .failed failure signal =>
    [("err", .failure failure), ("kind", .text failure.kind.word),
      ("l1Finalized", .text signal.text)]

end Notice

end Settlement
