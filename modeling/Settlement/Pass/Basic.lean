import Settlement.Tracker

/-!
# Passes and what happens in a run

A `Pass` is one request to finalize. Passes are numbered in the order in which they were called
for. What happens in a run is a list of `Event`s; the log, the lookups made and the passes ended
are read off it.
-/

namespace Settlement

/-- A request to finalize, with its number in the order of calling. -/
structure Pass where
  /-- How many passes were called for before this one. -/
  number : Nat
  label : String
  trigger : Trigger
  token? : Option String
  deriving Repr

/-- How a pass ended. -/
inductive Ending where
  /-- Its signal was older than the one already known. -/
  | outdated
  /-- Its boundary was not due. -/
  | skipped
  | judged (outcome : Outcome)
  /-- Something was raised that is no outcome. -/
  | raised (reason : Value)
  deriving Repr

/-- What a caller learns of the end of a pass (`Pass.report`). -/
inductive Report where
  /-- The signal was taken care of. -/
  | done
  | outcome (outcome : Outcome)
  | raised (reason : Value)
  deriving Repr

/-- Something that happens in a run, in the order in which it happens. -/
inductive Event where
  | recorded (l2 : L2Block) (l1 : BlockId) (change : Change)
  | forgotten
  | cancelled (token : String)
  /-- The engine was advanced by somebody else. -/
  | moved (block : L2Block)
  | called (pass : Pass)
  /-- A pass began, and its trigger was taken in. -/
  | started (pass : Pass) (intake : Intake)
  /-- A pass asked for the block at a height. -/
  | asked (pass : Nat) (height : Number)
  /-- A lookup of a pass has its reply. -/
  | answered (pass : Nat) (height : Number) (reply : Reply)
  | committed (pass : Nat) (block : L2Block)
  | ended (pass : Pass) (ending : Ending)
  /-- A line for the log. -/
  | noted (notice : Notice)
  deriving Repr

namespace Pass

/-- The notices at the end of a pass: the failure of a finality signal, and nothing for any other
end. -/
def endNotices (p : Pass) (ending : Ending) : List Notice :=
  match p.trigger, ending with
  | .signal block, .judged (.failed failure) => [.failed failure block.toBlockId]
  | _, _ => []

/-- What the caller of a pass learns of its end. A `skipped` boundary counts as well done, and the
caller of a signal is told nothing but that it is over. -/
def report (p : Pass) (ending : Ending) : Report :=
  match ending, p.trigger with
  | .raised reason, _ => .raised reason
  | _, .signal _ => .done
  | .judged outcome, .boundary _ => .outcome outcome
  | .outdated, .boundary _ | .skipped, .boundary _ => .outcome .ok

end Pass

namespace Event

/-- The notices among events, in order. -/
def notices (events : List Event) : List Notice :=
  events.filterMap fun
    | .noted notice => some notice
    | _ => none

/-- The heights `asked` for, in order. -/
def heights (events : List Event) : List Number :=
  events.filterMap fun
    | .asked _ height => some height
    | _ => none

/-- The passes that `ended`, in order. -/
def endings (events : List Event) : List (Pass × Ending) :=
  events.filterMap fun
    | .ended pass ending => some (pass, ending)
    | _ => none

/-- The blocks that passes `committed`, in order. -/
def commits (events : List Event) : List L2Block :=
  events.filterMap fun
    | .committed _ block => some block
    | _ => none

end Event

end Settlement
