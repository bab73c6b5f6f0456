import Settlement.Cancellation
import Settlement.Chains
import Settlement.Log.Line
import Settlement.Lookup.Endpoint
import Settlement.Pass.Basic

/-!
# Sessions

A session is a tracker at work: with its engine, with the L1 node it asks, and with the passes
called for. Passes run one at a time in the order of calling, from their start to their end,
while derivations are recorded and resets happen at any moment.

Somebody acts on the session (`Session.act`), several times perhaps, and then the passes run
until none is left or the one in flight waits for a lookup (`Session.settle`). Every function
gives the new session and the events that led to it.

The start of a pass takes in its trigger and makes a plan. Its two lookups follow
(`Session.checkSignal`, `Session.checkProvenance`); each is answered at once or leaves the pass
in flight. A pass that passed both checks commits its candidate, unless a reset overtook it or
the engine is that far already.

All actions of a moment come before the passes run. Between the answer that a pass hears and all
that follows from it (its verdict, the next lookup, a commit, the end of the pass and the start of
the next one) there is no moment for a cancellation, a reset or any other action.

A log is a plain one that takes every notice as it is, or one that writes lines (`Session.log?`).
The second kind turns the fields of a notice into text, which can fail only for the failure of a
pass: a pass whose failure cannot be written ends with that fault instead (`Session.logged`).
Loggers that raise anything else are left out.
-/

namespace Settlement

/-- A pass that waits for a lookup, or whose lookup has just been answered (`Flight.reply?`). -/
structure Flight where
  pass : Pass
  plan : Plan
  stage : Stage
  /-- The lookup that the pass waits for. -/
  ticket : Nat
  reply? : Option Reply := none
  deriving Repr

/-- A tracker at work, with all that its passes read (`Session.act`, `Session.settle`). -/
structure Session where
  tracker : Tracker
  engine : Engine := {}
  /-- With this reason the engine refuses whatever is committed. -/
  refusal? : Option Value := none
  source : Source := .direct
  node : Node := {}
  cancelled : Cancellations := []
  /-- The log that notices are written to. Without one they are only noted. -/
  log? : Option Threshold := none
  /-- The pass that has started and not ended. -/
  flight? : Option Flight := none
  /-- The passes that have not started. -/
  waiting : List Pass := []
  /-- How many passes were called for. -/
  called : Nat := 0
  /-- How many lookups had to wait. -/
  tickets : Nat := 0
  deriving Repr

/-- A session, and the events that led to it, oldest first. -/
abbrev Progress := Session × List Event

/-- `Progress.after events p`: the same session as in `p`, with `events` before those of `p`. -/
def Progress.after (events : List Event) (p : Progress) : Progress := (p.1, events ++ p.2)

/-- What `Session.ask` gives: a reply at once, or a ticket to wait under. -/
inductive Inquiry where
  | replied (reply : Reply)
  | waiting (ticket : Nat)
  deriving Repr

namespace Session

/-- The reason for which the token of a pass was cancelled, if it was (`Cancellations.reason?`). -/
def reason? (s : Session) (pass : Pass) : Option Value := s.cancelled.reason? pass.token?

/-- Asks for the block at a height on behalf of a pass. The height is sent by `Source.address`, and
what comes back is delivered by `Source.deliver`; a lookup that has to wait is held at the node. -/
def ask (s : Session) (pass : Pass) (asked : Number) : Session × List Event × Inquiry :=
  match s.source.address asked with
  | .error fault => (s, [], .replied (.failure (.fault fault)))
  | .ok height =>
    match s.node.immediate? height with
    | some reply =>
      (s, [.asked pass.number height], .replied (s.source.deliver asked reply))
    | none =>
      ({ s with node := s.node.hold s.tickets height, tickets := s.tickets + 1 },
        [.asked pass.number height], .waiting s.tickets)

/-- The ending of a pass after the log was told of it: the same, or `raised` with the fault of
`Log.noticeLines`. -/
def logged (s : Session) (pass : Pass) (ending : Ending) : Ending :=
  match s.log?.mapM (Log.noticeLines · (pass.endNotices ending)) with
  | .ok _ => ending
  | .error fault => .raised (.fault fault)

/-- Ends a pass: nobody is in flight then, and the ending is noted (`Pass.endNotices`) and logged
(`Session.logged`). -/
def close (s : Session) (pass : Pass) (ending : Ending) : Progress :=
  let ending := s.logged pass ending
  ({ s with flight? := none }, (pass.endNotices ending).map .noted ++ [.ended pass ending])

/-- Ends a pass at an obstacle (`Obstacle.failure`). -/
def fail (s : Session) (pass : Pass) (obstacle : Obstacle) : Progress :=
  s.close pass (.judged (.failed obstacle.failure))

/-- Ends a pass that passed both checks: commits its candidate, unless a reset overtook it, the
engine is that far already, or the engine refuses. -/
def commit (s : Session) (pass : Pass) (plan : Plan) : Progress :=
  if s.tracker.generation ≠ plan.generation then
    -- the candidate may be off the chain that is derived now
    .after [.noted (.discarded plan.candidate.toBlockId)] (s.close pass (.judged .ok))
  else if plan.candidate.number ≤ s.engine.head.number then
    -- somebody else advanced the engine while the pass waited
    s.close pass (.judged .ok)
  else
    match s.refusal? with
    | some reason => s.close pass (.raised reason)
    | none =>
      let notice : Notice :=
        .finalized plan.candidate.toBlockId plan.derivedFrom plan.signal.toBlockId
      .after [.committed pass.number plan.candidate, .noted notice]
        ({ s with engine := s.engine.commit plan.candidate }.close pass (.judged .ok))

/-- Looks up the block that a stage of a plan expects (`Session.ask`) and goes on with the reply, or
leaves the pass waiting for it. A pass that is cancelled makes no lookup. -/
def consult (s : Session) (pass : Pass) (plan : Plan) (stage : Stage)
    (goOn : Session → Reply → Progress) : Progress :=
  match s.reason? pass with
  | some reason => s.fail pass (plan.unreached stage reason)
  | none =>
    match s.ask pass (plan.expected stage).number with
    | (s, events, .replied reply) => .after events (goOn s reply)
    | (s, events, .waiting ticket) =>
      ({ s with flight? := some { pass, plan, stage, ticket } }, events)

/-- Goes on with the reply to a lookup: judges it (`Plan.check`), and does what follows a passed
check. -/
def answer (s : Session) (pass : Pass) (plan : Plan) (stage : Stage) (reply : Reply)
    (passed : Session → Progress) : Progress :=
  .after [.answered pass.number (plan.expected stage).number reply]
    (match plan.check stage reply (s.reason? pass) with
    | .canonical => passed s
    | .blocked obstacle => s.fail pass obstacle
    | .broken fault => s.close pass (.raised (.fault fault)))

/-- Judges the reply at the second stage, after which the candidate is committed
(`Session.commit`). -/
def answerProvenance (s : Session) (pass : Pass) (plan : Plan) (reply : Reply) : Progress :=
  s.answer pass plan .provenance reply fun s => s.commit pass plan

/-- Checks that the L1 block derived from is canonical (`Session.consult`). -/
def checkProvenance (s : Session) (pass : Pass) (plan : Plan) : Progress :=
  s.consult pass plan .provenance fun s reply => s.answerProvenance pass plan reply

/-- Judges the reply at the first stage, after which the second one follows
(`Session.checkProvenance`). -/
def answerSignal (s : Session) (pass : Pass) (plan : Plan) (reply : Reply) : Progress :=
  s.answer pass plan .signal reply fun s => s.checkProvenance pass plan

/-- Checks that the finality signal is canonical (`Session.consult`). -/
def checkSignal (s : Session) (pass : Pass) (plan : Plan) : Progress :=
  s.consult pass plan .signal fun s reply => s.answerSignal pass plan reply

/-- Starts a pass: takes in its trigger (`Tracker.intake`), makes a plan (`Tracker.plan?`) and
carries it out from its first check on. A pass that is not due, or without a plan, ends at once. -/
def start (s : Session) (pass : Pass) : Progress :=
  let (tracker, intake) := s.tracker.intake pass.trigger
  let notices := s.tracker.intakeNotices pass.trigger intake
  let s := { s with tracker }
  .after (.started pass intake :: notices.map .noted)
    (match intake with
    | .outdated => s.close pass .outdated
    | .skipped => s.close pass .skipped
    | .due =>
      match s.tracker.plan? s.engine.head with
      | some plan => s.checkSignal pass plan
      | none => s.close pass (.judged .ok))

/-- Goes on with the pass in flight after its lookup was answered, at the stage that it waited
in. -/
def resume (s : Session) (flight : Flight) (reply : Reply) : Progress :=
  let s := { s with flight? := none }
  match flight.stage with
  | .signal => s.answerSignal flight.pass flight.plan reply
  | .provenance => s.answerProvenance flight.pass flight.plan reply

/-- Starts passes one after the other (`Session.start`) until one has to wait. -/
def startAll (s : Session) : List Pass → Progress
  | [] => (s, [])
  | pass :: rest =>
    let (s, events) := { s with waiting := rest }.start pass
    match s.flight? with
    -- one pass at a time: the others wait for this one to end
    | some _ => (s, events)
    | none => .after events (startAll s rest)

/-- Lets the passes run until none is left or the one in flight waits: that one first
(`Session.resume`), then those in line (`Session.startAll`). -/
def settle (s : Session) : Progress :=
  match s.flight? with
  | none => s.startAll s.waiting
  | some flight =>
    match flight.reply? with
    | none => (s, [])
    | some reply =>
      let (s, events) := s.resume flight reply
      match s.flight? with
      | some _ => (s, events)
      | none => .after events (s.startAll s.waiting)

/-! ## Acting on a session -/

/-- What can be done to a session from outside (`Session.act`). -/
inductive Action where
  | record (l2 : L2Block) (l1 : BlockId)
  | reset
  /-- Calls for a pass. -/
  | call (label : String) (trigger : Trigger) (token? : Option String)
  | cancel (token : String) (reason : Value)
  | setBlock (height : Number) (block : Value)
  | dropBlock (height : Number)
  | setOutage (outage? : Option Outage)
  /-- Makes lookups wait, or no longer. -/
  | hold (holding : Bool)
  /-- Answers a lookup that waits: that with a ticket, or the one that has waited longest. -/
  | release (reason? : Option Value) (ticket? : Option Nat := none)
  /-- Advances the engine from outside. -/
  | move (block : L2Block)
  | setRefusal (reason? : Option Value)
  deriving Repr

/-- Records a derivation (`Tracker.record`). -/
def record (s : Session) (l2 : L2Block) (l1 : BlockId) : Progress :=
  let (tracker, change) := s.tracker.record l2 l1
  ({ s with tracker },
    .recorded l2 l1 change :: (tracker.recordNotices change).map .noted)

/-- Calls for a pass, which gets in line behind all others. -/
def call (s : Session) (label : String) (trigger : Trigger) (token? : Option String) :
    Progress :=
  let pass : Pass := { number := s.called, label, trigger, token? }
  ({ s with waiting := s.waiting ++ [pass], called := s.called + 1 }, [.called pass])

/-- Hands a reply to the pass in flight, if it still waits for the lookup of this ticket. -/
def deliver (s : Session) (ticket : Nat) (reply : Reply) : Session :=
  match s.flight? with
  | none => s
  | some flight =>
    -- the pass that asked may be over, and another one in flight
    if flight.ticket = ticket ∧ flight.reply?.isNone then
      let asked := (flight.plan.expected flight.stage).number
      { s with flight? := some { flight with reply? := some (s.source.deliver asked reply) } }
    else s

/-- Cancels a token. A pass that carries it and waits for a lookup over RPC no longer does, even if
the lookup was answered in the same moment: its reply is then that of the cancellation
(`Cancellations.fault`). -/
def cancel (s : Session) (token : String) (reason : Value) : Progress :=
  if (s.cancelled.lookup token).isSome then (s, [])
  else
    let cancelled := s.cancelled.cancel token reason
    let fault := Cancellations.fault ((cancelled.reason? (some token)).getD reason)
    let flight? := s.flight?.map fun flight =>
      -- the lookup itself goes on and still waits at the node
      if s.source = .rpc ∧ flight.pass.token? = some token then
        { flight with reply? := some (.failure (.fault fault)) }
      else flight
    ({ s with cancelled, flight? }, [.cancelled token])

/-- The height of the lookup that has waited longest at the node. -/
def oldestHeld? (s : Session) : Option Number := s.node.held.head?.map Held.height

/-- Answers a lookup that waits, if there is one (`Node.release?`), and delivers the reply
(`Session.deliver`). -/
def release (s : Session) (reason? : Option Value) (ticket? : Option Nat := none) : Session :=
  match s.node.release? reason? ticket? with
  | none => s
  | some (held, reply, node) => { s with node }.deliver held.ticket reply

/-- Acts on a session. No pass moves before `Session.settle`. -/
def act (s : Session) : Action → Progress
  | .record l2 l1 => s.record l2 l1
  | .reset => ({ s with tracker := s.tracker.reset }, [.forgotten])
  | .call label trigger token? => s.call label trigger token?
  | .cancel token reason => s.cancel token reason
  | .setBlock height block => ({ s with node := s.node.setBlock height block }, [])
  | .dropBlock height => ({ s with node := s.node.dropBlock height }, [])
  | .setOutage outage? => ({ s with node := { s.node with outage? } }, [])
  | .hold holding => ({ s with node := { s.node with holding } }, [])
  | .release reason? ticket? => (s.release reason? ticket?, [])
  | .move block => ({ s with engine := s.engine.commit block }, [.moved block])
  | .setRefusal reason? => ({ s with refusal? := reason? }, [])

/-- Acts on a session several times in one moment. -/
def actAll (s : Session) : List Action → Progress
  | [] => (s, [])
  | action :: rest =>
    let (s, events) := s.act action
    .after events (actAll s rest)

/-- One step of a session: actions in one moment (`Session.actAll`), and then the passes run
(`Session.settle`). -/
def step (s : Session) (actions : List Action) : Progress :=
  let (s, events) := s.actAll actions
  .after events s.settle

/-- One step after the other (`Session.step`). -/
def run (s : Session) : List (List Action) → Progress
  | [] => (s, [])
  | actions :: rest =>
    let (s, events) := s.step actions
    .after events (run s rest)

end Session

end Settlement
