import Settlement.Proofs.Session.Course

/-!
# Other numbers

Passes are numbered in the order of calling, and a plan carries the count of resets at its start.
Nothing depends on where either count began: a session whose counts are all higher does the same
(`Session.renumbered`), with events that differ in the numbers of the passes alone
(`Event.renumbered`).

## Key results

- `step_renumbered`: a step with other numbers is the same step
-/

namespace Settlement

variable {resets passes : Nat}

/-- The pass with a number higher by `passes`. -/
def Pass.renumbered (passes : Nat) (pass : Pass) : Pass :=
  { pass with number := pass.number + passes }

/-- The plan with a generation higher by `resets`. -/
def Plan.renumbered (resets : Nat) (plan : Plan) : Plan :=
  { plan with generation := plan.generation + resets }

/-- A flight with its pass and its plan `renumbered`. -/
def Flight.renumbered (resets passes : Nat) (flight : Flight) : Flight :=
  { flight with pass := flight.pass.renumbered passes, plan := flight.plan.renumbered resets }

/-- The tracker with a generation higher by `resets`. -/
def Tracker.renumbered (resets : Nat) (t : Tracker) : Tracker :=
  { t with generation := t.generation + resets }

/-- The event with the number of its pass higher by `passes`. -/
def Event.renumbered (passes : Nat) : Event → Event
  | .called pass => .called (pass.renumbered passes)
  | .started pass intake => .started (pass.renumbered passes) intake
  | .asked pass height => .asked (pass + passes) height
  | .answered pass height reply => .answered (pass + passes) height reply
  | .committed pass block => .committed (pass + passes) block
  | .ended pass ending => .ended (pass.renumbered passes) ending
  | event => event

/-- The session with all numbers of passes and generations `renumbered`. -/
def Session.renumbered (resets passes : Nat) (s : Session) : Session :=
  { s with
    tracker := s.tracker.renumbered resets
    flight? := s.flight?.map (·.renumbered resets passes)
    waiting := s.waiting.map (·.renumbered passes)
    called := s.called + passes }

/-- A session and its events, both `renumbered`. -/
def Progress.renumbered (resets passes : Nat) (p : Progress) : Progress :=
  (p.1.renumbered resets passes, p.2.map (·.renumbered passes))

/-- `renumbered` distributes over `after`. -/
theorem Progress.renumbered_after (events : List Event) (p : Progress) :
    (Progress.after events p).renumbered resets passes
      = .after (events.map (·.renumbered passes)) (p.renumbered resets passes) :=
  congrArg (Prod.mk _) List.map_append

/-- `renumbered` leaves lines for the log. -/
theorem Event.map_renumbered_noted (notices : List Notice) :
    (notices.map Event.noted).map (·.renumbered passes) = notices.map .noted := by
  rw [List.map_map]
  rfl

/-! ## The tracker -/

namespace Tracker

/-- `intake` commutes with `renumbered`. -/
theorem intake_renumbered (t : Tracker) (trigger : Trigger) :
    (t.renumbered resets).intake trigger
      = ((t.intake trigger).1.renumbered resets, (t.intake trigger).2) := by
  cases trigger with
  | signal block =>
    show (if block.number < t.signal.number then _ else _) = _
    simp only [intake]
    split
    · rfl
    · -- the count is no part of what decides whether the signal is kept
      have hadopt : (t.renumbered resets).adopt block = (t.adopt block).renumbered resets := by
        by_cases hsame : t.signal.same block = true <;> simp [adopt, renumbered, hsame]
      exact Prod.ext hadopt rfl
  | boundary derivedFrom =>
    simp only [intake]
    show (if t.signal.isZero || t.throttles derivedFrom.number then _ else _) = _
    split <;> rfl

/-- `intakeNotices` are those of the tracker before it is `renumbered`. -/
theorem intakeNotices_renumbered (t : Tracker) (trigger : Trigger) (intake : Intake) :
    (t.renumbered resets).intakeNotices trigger intake = t.intakeNotices trigger intake := by
  cases trigger <;> cases intake <;> rfl

/-- `plan?` commutes with `renumbered`. -/
theorem plan?_renumbered (t : Tracker) (head : L2Block) :
    (t.renumbered resets).plan? head = (t.plan? head).map (·.renumbered resets) := by
  simp only [plan?, Option.map_map]
  rfl

end Tracker

/-! ## Passes -/

@[simp] theorem Flight.ticket_renumbered (flight : Flight) :
    (flight.renumbered resets passes).ticket = flight.ticket := rfl

@[simp] theorem Flight.reply?_renumbered (flight : Flight) :
    (flight.renumbered resets passes).reply? = flight.reply? := rfl

/-- `check` is the same for a plan that is `renumbered`. -/
theorem Plan.check_renumbered (plan : Plan) (stage : Stage) (reply : Reply)
    (cancelled? : Option Value) :
    (plan.renumbered resets).check stage reply cancelled? = plan.check stage reply cancelled? := by
  cases stage <;> rfl

theorem Plan.expected_renumbered (plan : Plan) (stage : Stage) :
    (plan.renumbered resets).expected stage = plan.expected stage := by
  cases stage <;> rfl

/-- `expected` is the same for a flight that is `renumbered`. -/
theorem Flight.expected_renumbered (flight : Flight) :
    (flight.renumbered resets passes).plan.expected (flight.renumbered resets passes).stage
      = flight.plan.expected flight.stage :=
  Plan.expected_renumbered ..

theorem Plan.unreached_renumbered (plan : Plan) (stage : Stage) (cause : Value) :
    (plan.renumbered resets).unreached stage cause = plan.unreached stage cause := by
  cases stage <;> rfl

namespace Session

variable {s : Session} {pass : Pass} {plan : Plan} {stage : Stage}

/-- `renumbered` goes into the flight. -/
@[simp] theorem flight?_renumbered (s : Session) :
    (s.renumbered resets passes).flight? = s.flight?.map (·.renumbered resets passes) := rfl

@[simp] theorem node_renumbered (s : Session) :
    (s.renumbered resets passes).node = s.node := rfl

@[simp] theorem source_renumbered (s : Session) :
    (s.renumbered resets passes).source = s.source := rfl

@[simp] theorem reason?_renumbered (s : Session) (pass : Pass) :
    (s.renumbered resets passes).reason? (pass.renumbered passes) = s.reason? pass := rfl

/-- `close` commutes with `renumbered`. -/
theorem close_renumbered (s : Session) (pass : Pass) (ending : Ending) :
    (s.renumbered resets passes).close (pass.renumbered passes) ending
      = (s.close pass ending).renumbered resets passes := by
  refine Prod.ext rfl ?_
  show _ = List.map _ (_ ++ _)
  rw [List.map_append, Event.map_renumbered_noted]
  rfl

/-- `commit` commutes with `renumbered`. -/
theorem commit_renumbered (s : Session) (pass : Pass) (plan : Plan) :
    (s.renumbered resets passes).commit (pass.renumbered passes) (plan.renumbered resets)
      = (s.commit pass plan).renumbered resets passes := by
  -- the count now and the count at the start of the pass are higher by the same
  have hgeneration : (s.renumbered resets passes).tracker.generation
      ≠ (plan.renumbered resets).generation ↔ s.tracker.generation ≠ plan.generation :=
    not_congr (Nat.add_right_cancel_iff (n := resets))
  unfold commit
  by_cases hgen : s.tracker.generation ≠ plan.generation
  · rw [if_pos (hgeneration.mpr hgen), if_pos hgen, Progress.renumbered_after, close_renumbered]
    rfl
  · rw [if_neg (mt hgeneration.mp hgen), if_neg hgen]
    show (if plan.candidate.number ≤ s.engine.head.number then _ else _) = _
    split
    · exact close_renumbered s pass _
    -- the engine refuses or takes the block, and only taking it changes the session
    · rcases s with ⟨tracker, engine, _ | reason, source, node, cancelled, log?, flight?, waiting,
        called, tickets⟩
      · dsimp only
        rw [Progress.renumbered_after]
        exact congrArg (Progress.after _) (close_renumbered ⟨tracker, engine.commit plan.candidate,
          none, source, node, cancelled, log?, flight?, waiting, called, tickets⟩ pass _)
      · exact close_renumbered ..

/-- `answer` commutes with `renumbered` if what follows does. -/
theorem answer_renumbered (reply : Reply) {passed passed' : Session → Progress}
    (h : ∀ s : Session,
      passed' (s.renumbered resets passes) = (passed s).renumbered resets passes) :
    (s.renumbered resets passes).answer (pass.renumbered passes) (plan.renumbered resets) stage
        reply passed'
      = (s.answer pass plan stage reply passed).renumbered resets passes := by
  unfold answer
  rw [Progress.renumbered_after, Plan.expected_renumbered, Plan.check_renumbered,
    reason?_renumbered]
  refine congrArg (Progress.after _) ?_
  -- no count is read for the check
  cases plan.check stage reply (s.reason? pass) with
  | canonical => exact h s
  | blocked obstacle => exact close_renumbered ..
  | broken fault => exact close_renumbered ..

/-- `ask` commutes with `renumbered`. -/
theorem ask_renumbered (s : Session) (pass : Pass) (asked : Number) :
    (s.renumbered resets passes).ask (pass.renumbered passes) asked
      = ((s.ask pass asked).1.renumbered resets passes,
        (s.ask pass asked).2.1.map (·.renumbered passes), (s.ask pass asked).2.2) := by
  simp only [ask, source_renumbered, node_renumbered]
  cases s.source.address asked with
  | error fault => rfl
  | ok height =>
    dsimp only
    cases s.node.immediate? height <;> rfl

/-- `consult` commutes with `renumbered` if what follows does. -/
theorem consult_renumbered {goOn goOn' : Session → Reply → Progress}
    (h : ∀ (s : Session) reply,
      goOn' (s.renumbered resets passes) reply = (goOn s reply).renumbered resets passes) :
    (s.renumbered resets passes).consult (pass.renumbered passes) (plan.renumbered resets) stage
        goOn'
      = (s.consult pass plan stage goOn).renumbered resets passes := by
  unfold consult
  rw [reason?_renumbered, Plan.expected_renumbered]
  cases s.reason? pass with
  | some reason =>
    dsimp only
    rw [Plan.unreached_renumbered]
    exact close_renumbered ..
  | none =>
    dsimp only
    rw [ask_renumbered]
    -- a reply is heard in both, or both wait
    obtain ⟨t, events, reply | ticket⟩ := s.ask pass (plan.expected stage).number
    · dsimp only
      rw [Progress.renumbered_after]
      exact congrArg (Progress.after _) (h ..)
    · rfl

/-- `answerProvenance` commutes with `renumbered`. -/
theorem answerProvenance_renumbered (s : Session) (pass : Pass) (plan : Plan) (reply : Reply) :
    (s.renumbered resets passes).answerProvenance (pass.renumbered passes) (plan.renumbered resets)
        reply
      = (s.answerProvenance pass plan reply).renumbered resets passes :=
  answer_renumbered reply fun s => commit_renumbered s pass plan

/-- `checkProvenance` commutes with `renumbered`. -/
theorem checkProvenance_renumbered (s : Session) (pass : Pass) (plan : Plan) :
    (s.renumbered resets passes).checkProvenance (pass.renumbered passes) (plan.renumbered resets)
      = (s.checkProvenance pass plan).renumbered resets passes :=
  consult_renumbered fun s reply => answerProvenance_renumbered s pass plan reply

/-- `answerSignal` commutes with `renumbered`. -/
theorem answerSignal_renumbered (s : Session) (pass : Pass) (plan : Plan) (reply : Reply) :
    (s.renumbered resets passes).answerSignal (pass.renumbered passes) (plan.renumbered resets)
        reply
      = (s.answerSignal pass plan reply).renumbered resets passes :=
  answer_renumbered reply fun s => checkProvenance_renumbered s pass plan

/-- `checkSignal` commutes with `renumbered`. -/
theorem checkSignal_renumbered (s : Session) (pass : Pass) (plan : Plan) :
    (s.renumbered resets passes).checkSignal (pass.renumbered passes) (plan.renumbered resets)
      = (s.checkSignal pass plan).renumbered resets passes :=
  consult_renumbered fun s reply => answerSignal_renumbered s pass plan reply

/-- `took` commutes with `renumbered`. -/
theorem took_renumbered (s : Session) (pass : Pass) :
    (s.renumbered resets passes).took (pass.renumbered passes)
      = (s.took pass).renumbered resets passes :=
  congrArg (fun t : Tracker × Intake => { s.renumbered resets passes with tracker := t.1 })
    (Tracker.intake_renumbered s.tracker pass.trigger)

/-- The tracker takes in the trigger of a pass that is `renumbered` as that of the pass. -/
private theorem intake_renumbered (s : Session) (pass : Pass) :
    ((s.renumbered resets passes).tracker.intake (pass.renumbered passes).trigger).2
      = (s.tracker.intake pass.trigger).2 :=
  congrArg (·.2) (Tracker.intake_renumbered s.tracker pass.trigger :
      (s.renumbered resets passes).tracker.intake pass.trigger = _)

/-- `opening` commutes with `renumbered`. -/
theorem opening_renumbered (s : Session) (pass : Pass) :
    (s.renumbered resets passes).opening (pass.renumbered passes)
      = (s.opening pass).map (·.renumbered passes) := by
  unfold opening
  rw [intake_renumbered, List.map_cons, Event.map_renumbered_noted]
  exact congrArg (fun notices : List Notice => _ :: notices.map Event.noted)
    (Tracker.intakeNotices_renumbered ..)

/-- `start` commutes with `renumbered`. -/
theorem start_renumbered (s : Session) (pass : Pass) :
    (s.renumbered resets passes).start (pass.renumbered passes)
      = (s.start pass).renumbered resets passes := by
  rw [start_eq, start_eq, Progress.renumbered_after, opening_renumbered, took_renumbered,
    intake_renumbered]
  refine congrArg (Progress.after _) ?_
  -- the trigger is taken in alike, since no count is read for it
  cases (s.tracker.intake pass.trigger).2 with
  | outdated => exact close_renumbered ..
  | skipped => exact close_renumbered ..
  | due =>
    -- and so is the plan, but for its generation
    have hplan : ((s.took pass).renumbered resets passes).tracker.plan?
          ((s.took pass).renumbered resets passes).engine.head
        = ((s.took pass).tracker.plan? (s.took pass).engine.head).map (·.renumbered resets) :=
      Tracker.plan?_renumbered ..
    simp only [proceed]
    rw [hplan]
    cases (s.took pass).tracker.plan? (s.took pass).engine.head with
    | none => exact close_renumbered ..
    | some plan => exact checkSignal_renumbered ..

/-- `resume` commutes with `renumbered`. -/
theorem resume_renumbered (s : Session) (flight : Flight) (reply : Reply) :
    (s.renumbered resets passes).resume (flight.renumbered resets passes) reply
      = (s.resume flight reply).renumbered resets passes := by
  obtain ⟨pass, plan, stage, ticket, reply?⟩ := flight
  cases stage with
  | signal => exact answerSignal_renumbered { s with flight? := none } ..
  | provenance => exact answerProvenance_renumbered { s with flight? := none } ..

/-! ## Steps -/

/-- `startAll` commutes with `renumbered`. -/
theorem startAll_renumbered (s : Session) (line : List Pass) :
    (s.renumbered resets passes).startAll (line.map (·.renumbered passes))
      = (s.startAll line).renumbered resets passes := by
  -- each pass of the line starts in the session that the one before it leaves
  induction line generalizing s with
  | nil => rfl
  | cons pass rest ih =>
    have hstart : { s.renumbered resets passes with
          waiting := rest.map (Pass.renumbered passes) }.start (pass.renumbered passes)
        = ({ s with waiting := rest }.start pass).renumbered resets passes :=
      start_renumbered { s with waiting := rest } pass
    simp only [List.map_cons, startAll]
    rw [hstart]
    generalize { s with waiting := rest }.start pass = p
    simp only [Progress.renumbered, flight?_renumbered]
    cases p.1.flight? with
    | some flight => rfl
    | none =>
      show Progress.after _ ((p.1.renumbered resets passes).startAll _)
        = (Progress.after p.2 (p.1.startAll rest)).renumbered resets passes
      rw [Progress.renumbered_after, ih]

/-- `settle` commutes with `renumbered`. -/
theorem settle_renumbered (s : Session) :
    (s.renumbered resets passes).settle = s.settle.renumbered resets passes := by
  simp only [settle, flight?_renumbered]
  cases s.flight? with
  | none => exact startAll_renumbered ..
  | some flight =>
    simp only [Option.map_some, Flight.reply?_renumbered]
    cases flight.reply? with
    | none => rfl
    | some reply =>
      simp only [resume_renumbered]
      generalize s.resume flight reply = p
      simp only [Progress.renumbered, flight?_renumbered]
      -- the pass waits again, or those in line start
      cases p.1.flight? with
      | some flight => rfl
      | none =>
        show Progress.after _ ((p.1.renumbered resets passes).startAll _)
          = (Progress.after p.2 (p.1.startAll p.1.waiting)).renumbered resets passes
        rw [Progress.renumbered_after, ← startAll_renumbered]
        rfl

/-- `deliver` commutes with `renumbered`. -/
theorem deliver_renumbered (s : Session) (ticket : Nat) (reply : Reply) :
    (s.renumbered resets passes).deliver ticket reply
      = (s.deliver ticket reply).renumbered resets passes := by
  simp only [deliver, flight?_renumbered]
  cases s.flight? with
  | none => rfl
  | some flight =>
    simp only [Option.map_some, Flight.reply?_renumbered, Flight.ticket_renumbered,
      Flight.expected_renumbered, source_renumbered]
    split <;> rfl

/-- `release` commutes with `renumbered`. -/
theorem release_renumbered (s : Session) (reason? : Option Value) (ticket? : Option Nat) :
    (s.renumbered resets passes).release reason? ticket?
      = (s.release reason? ticket?).renumbered resets passes := by
  simp only [release, node_renumbered]
  cases s.node.release? reason? ticket? with
  | none => rfl
  | some released =>
    obtain ⟨held, reply, node⟩ := released
    exact deliver_renumbered { s with node } held.ticket reply

/-- `cancel` commutes with `renumbered`. -/
theorem cancel_renumbered (s : Session) (token : String) (reason : Value) :
    (s.renumbered resets passes).cancel token reason
      = (s.cancel token reason).renumbered resets passes := by
  unfold cancel
  by_cases hgiven : (s.cancelled.lookup token).isSome = true
  · have hgiven' : ((s.renumbered resets passes).cancelled.lookup token).isSome = true := hgiven
    rw [if_pos hgiven, if_pos hgiven']
    rfl
  · have hgiven' : ¬((s.renumbered resets passes).cancelled.lookup token).isSome = true := hgiven
    rw [if_neg hgiven, if_neg hgiven']
    -- over RPC a pass that carries the token does not wait for its lookup any more
    let failed (flight : Flight) : Flight :=
      if s.source = .rpc ∧ flight.pass.token? = some token then
        { flight with reply? := some (.failure (.fault (Cancellations.fault
          (((s.cancelled.cancel token reason).reason? (some token)).getD reason)))) }
      else flight
    have hfailed : (s.flight?.map (·.renumbered resets passes)).map failed
        = (s.flight?.map failed).map (·.renumbered resets passes) := by
      cases s.flight? with
      | none => rfl
      | some flight =>
        refine congrArg some (?_ : failed _ = _)
        by_cases hown : s.source = .rpc ∧ flight.pass.token? = some token
        · have hown' : s.source = .rpc
              ∧ (flight.renumbered resets passes).pass.token? = some token := hown
          simp only [failed, if_pos hown, if_pos hown']
          rfl
        · have hown' : ¬(s.source = .rpc
              ∧ (flight.renumbered resets passes).pass.token? = some token) := hown
          simp only [failed, if_neg hown, if_neg hown']
    exact congrArg (fun flight? => (({ s.renumbered resets passes with
      cancelled := s.cancelled.cancel token reason, flight? } : Session), [Event.cancelled token]))
      hfailed

/-- `act` commutes with `renumbered`. -/
theorem act_renumbered (s : Session) (action : Action) :
    (s.renumbered resets passes).act action = (s.act action).renumbered resets passes := by
  cases action with
  | record l2 l1 =>
    refine Prod.ext rfl ?_
    show _ = List.map _ (_ :: _)
    rw [List.map_cons, Event.map_renumbered_noted]
    rfl
  | reset =>
    have hcount : s.tracker.generation + resets + 1 = s.tracker.generation + 1 + resets :=
      Nat.add_right_comm ..
    exact congrArg (fun n => ({ s.renumbered resets passes with
      tracker := { (s.tracker.renumbered resets).reset with generation := n } }, _)) hcount
  | call label trigger token? =>
    let pass : Pass := { number := s.called, label, trigger, token? }
    -- the next number is higher by as much as those of the passes before
    have hwaiting : s.waiting.map (·.renumbered passes) ++ [pass.renumbered passes]
        = (s.waiting ++ [pass]).map (·.renumbered passes) := by
      rw [List.map_append]
      rfl
    have hcalled : s.called + passes + 1 = s.called + 1 + passes := Nat.add_right_comm ..
    exact congr (congrArg (fun waiting called => ({ s.renumbered resets passes with
      waiting, called }, [Event.called (pass.renumbered passes)])) hwaiting) hcalled
  | cancel token reason => exact cancel_renumbered s token reason
  | release reason? ticket? => exact congrArg (·, []) (release_renumbered s reason? ticket?)
  | _ => rfl

/-- `actAll` commutes with `renumbered`. -/
theorem actAll_renumbered (s : Session) (actions : List Action) :
    (s.renumbered resets passes).actAll actions
      = (s.actAll actions).renumbered resets passes := by
  induction actions generalizing s with
  | nil => rfl
  | cons action actions ih =>
    simp only [actAll]
    rw [act_renumbered, Progress.renumbered_after, ← ih]
    rfl

/-- `step` commutes with `renumbered`. -/
theorem step_renumbered (s : Session) (actions : List Action) :
    (s.renumbered resets passes).step actions = (s.step actions).renumbered resets passes := by
  simp only [step]
  rw [actAll_renumbered, Progress.renumbered_after, ← settle_renumbered]
  rfl

end Session

end Settlement
