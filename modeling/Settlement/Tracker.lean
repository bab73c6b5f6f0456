import Settlement.Lookback.Unchecked
import Settlement.Log.Notice
import Settlement.Pass.Plan
import Settlement.Provenance.Ring

/-!
# Tracker

The memory of the finality tracker: the recent provenance links, the latest finality signal, the
throttle and the count of resets. It changes in three ways.

* `Tracker.record` remembers one more derivation, `Tracker.reset` forgets all of them.
* `Tracker.intake` takes in what a pass was started for: it adopts a finality signal that is not
  older than the one it has, and it lets a derivation boundary through once per delay.
* `Tracker.plan?` chooses what a pass can finalize: the links are scanned from the oldest on,
  each one at or below the signal and above everything chosen before takes over.
-/

namespace Settlement

/-- What a pass is started for (`Tracker.intake`). -/
inductive Trigger where
  /-- L1 declared this block final. -/
  | signal (block : Header)
  /-- No more L2 blocks will be derived from this L1 block. -/
  | boundary (derivedFrom : Header)
  deriving Repr

/-- How the tracker takes in a trigger (`Tracker.intake`). -/
inductive Intake where
  /-- The signal is older than the one already known. -/
  | outdated
  /-- There is no signal yet, or the last boundary was too near. -/
  | skipped
  | due
  deriving DecidableEq, Repr

/-- The memory of the finality tracker (`Tracker.record`, `Tracker.reset`, `Tracker.intake`). -/
structure Tracker where
  delay : Number
  links : Ring
  /-- The latest finality signal; it may be ahead of derivation. -/
  signal : Header := .zero
  /-- The boundary of the last pass that was let through, zero if there was none since the last
  new signal or reset. -/
  lastTried : Number := 0
  /-- How many resets there have been. -/
  generation : Nat := 0
  deriving Repr

namespace Tracker

/-- A delay that can stand between two passes: a safe integer (`Number.isSafeInteger`) from zero
on. -/
def delayOf (delay : Number) : Except Fault Number :=
  if delay.isSafeInteger ∧ ¬delay < 0 then .ok delay else .error (.badDelay delay.text)

/-- `delayOf` of a value of any shape. Only a number will do. -/
def delayOfValue (delay : Value) : Except Fault Number :=
  match delay with
  | .number delay => delayOf delay
  | other => do throw (.badDelay (← other.toText))

/-- A tracker that knows nothing yet. The delay is checked (`delayOf`) before the lookback
(`Ring.ofCapacity`). -/
def ofSizing (s : Sizing) : Except Fault Tracker := do
  let delay ← delayOf s.delay
  return { delay, links := ← Ring.ofCapacity s.lookback }

/-- `ofSizing` of a value of any shape, `undefined` and `null` counting as one in which nothing is
given. -/
def ofValue (sizing : Value) : Except Fault Tracker := do
  let sizing := sizing.orElse (.record [])
  let delay ← delayOfValue sizing.delay
  return { delay, links := ← Ring.ofValue (← sizing.lookback) }

/-- `ofValue` on a sizing is `ofSizing`. -/
theorem ofValue_toValue (s : Sizing) : ofValue s.toValue = ofSizing s := by
  have sizing : s.toValue.orElse (.record []) = s.toValue := rfl
  rw [ofValue, sizing, Value.delay_toValue, Value.lookback_toValue]
  rfl

/-- Remembers that `l2` was the last block derived from `l1` (`Ring.record`). -/
def record (t : Tracker) (l2 : L2Block) (l1 : BlockId) : Tracker × Change :=
  let (links, change) := t.links.record l2 l1
  ({ t with links }, change)

/-- The notice of a derivation: the newest link after it, unless it left that `unchanged`. -/
def recordNotices (t : Tracker) (change : Change) : List Notice :=
  match change, t.links.latest? with
  | .appended, some newest => [.extended newest]
  | .updated, some newest => [.updated newest]
  | _, _ => []

/-- Forgets all provenance (`Ring.clear`). The signal is kept: it is final after all. -/
def reset (t : Tracker) : Tracker :=
  { t with links := t.links.clear, lastTried := 0, generation := t.generation + 1 }

/-- Whether a boundary is at most `delay` above the last one let through (`lastTried`), if there was
one. -/
def throttles (t : Tracker) (derivedFrom : Number) : Bool :=
  !t.lastTried.equal 0 && derivedFrom ≤ t.lastTried + t.delay

/-- Takes in a finality signal. One that differs from the signal known (`Header.same`) takes its
place and lets the next boundary through at once. -/
def adopt (t : Tracker) (signal : Header) : Tracker :=
  if t.signal.same signal then t else { t with signal, lastTried := 0 }

/-- Takes in a trigger: adopts a signal that is not below the one known (`adopt`), and remembers a
boundary unless it is skipped (`throttles`). -/
def intake (t : Tracker) : Trigger → Tracker × Intake
  | .signal block =>
    -- a signal of the same height replaces the one known
    if block.number < t.signal.number then (t, .outdated) else (t.adopt block, .due)
  | .boundary derivedFrom =>
    if t.signal.isZero || t.throttles derivedFrom.number then (t, .skipped)
    else ({ t with lastTried := derivedFrom.number }, .due)

/-- The notice at the start of a pass, from the tracker before it: a signal that is `outdated`, or a
boundary that is `due`. -/
def intakeNotices (t : Tracker) (trigger : Trigger) (intake : Intake) : List Notice :=
  match trigger, intake with
  | .signal block, .outdated => [.outdated t.signal.toBlockId block.toBlockId]
  | .boundary derivedFrom, .due =>
    [.processing t.signal.toBlockId derivedFrom.toBlockId t.lastTried]
  | _, _ => []

/-- One step of the scan for a candidate: a link above the best block so far and at or below the
signal takes over. -/
def better (signal : Number) (best : L2Block × Option BlockId) (link : Link) :
    L2Block × Option BlockId :=
  if best.1.number < link.l2.number ∧ link.l1.number ≤ signal then (link.l2, some link.l1)
  else best

/-- What a pass can finalize above the given head, if anything: the scan of the links by `better`,
oldest first. -/
def plan? (t : Tracker) (head : L2Block) : Option Plan :=
  let (candidate, derivedFrom?) := t.links.toList.foldl (better t.signal.number) (head, none)
  derivedFrom?.map fun derivedFrom =>
    { candidate, derivedFrom, signal := t.signal, generation := t.generation }

end Tracker

end Settlement
