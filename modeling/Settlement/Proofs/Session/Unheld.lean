import Settlement.Proofs.Session.Play

/-!
# Sessions in which no lookup waits

As long as the node answers at once, a pass runs from its start to its end in one move. It commits
the candidate of its plan if both lookups find the blocks expected and the engine takes it, and
does nothing else to the session but have its trigger taken in. A step then has as many moves as
it has actions, and one more for every pass called for.

## Key results

- `start_of_unheld`: a pass takes in its trigger and carries out its plan
- `exists_play_of_unheld`: steps as moves, the same for all sessions
-/

namespace Settlement.Session

variable {s : Session} {pass : Pass} {plan : Plan} {stage : Stage}

/-! ## Single passes -/

/-- The reply to a lookup that does not wait. -/
def promptReply (s : Session) (asked : Number) : Reply :=
  match s.source.address asked with
  | .error fault => .failure (.fault fault)
  | .ok height => s.source.deliver asked (s.node.answer height)

/-- The pass is not cancelled and finds the block that the stage expects. -/
def clears (s : Session) (pass : Pass) (plan : Plan) (stage : Stage) : Bool :=
  match s.reason? pass, plan.check stage (s.promptReply (plan.expected stage).number) none with
  | none, .canonical => true
  | _, _ => false

/-- The pass `clears` both stages, and the engine does not refuse. -/
def carriesOut (s : Session) (pass : Pass) (plan : Plan) : Bool :=
  s.clears pass plan .signal && s.clears pass plan .provenance && s.refusal?.isNone

/-- The plan that the pass starts with, if its trigger is due. -/
def planFor? (s : Session) (pass : Pass) : Option Plan :=
  if (s.tracker.intake pass.trigger).2 = .due then (s.took pass).tracker.plan? s.engine.head
  else none

/-- `planFor?` is the plan of a trigger that is due. -/
theorem planFor?_eq_some : s.planFor? pass = some plan ↔
    (s.tracker.intake pass.trigger).2 = .due ∧
      (s.took pass).tracker.plan? s.engine.head = some plan := by
  unfold planFor?
  split
  case isTrue hdue => exact (and_iff_right hdue).symm
  case isFalse hnot => exact ⟨nofun, fun h => absurd h.1 hnot⟩

/-- `answer` goes on from a canonical block, and ends the pass otherwise. -/
theorem fst_answer (s : Session) (pass : Pass) (plan : Plan) (stage : Stage) (reply : Reply)
    (passed : Session → Progress) :
    (s.answer pass plan stage reply passed).1 =
      match plan.check stage reply (s.reason? pass) with
      | .canonical => (passed s).1
      | _ => { s with flight? := none } := by
  unfold answer
  cases plan.check stage reply (s.reason? pass) <;> rfl

/-- `consult` goes on if the pass `clears` the stage, and ends it otherwise. -/
theorem fst_consult_of_unheld (hheld : s.node.holding = false) (passed : Session → Progress) :
    (s.consult pass plan stage fun s reply => s.answer pass plan stage reply passed).1 =
      if s.clears pass plan stage then (passed s).1 else { s with flight? := none } := by
  have himmediate : ∀ height, s.node.immediate? height = some (s.node.answer height) := by
    intro height
    simp [Node.immediate?, hheld]
  unfold clears
  cases hreason : s.reason? pass with
  | some reason => simp [consult, hreason, fail, close]
  | none =>
    -- the reply is there at once, be it that there is nothing to ask for
    have hanswer := fst_answer s pass plan stage (s.promptReply (plan.expected stage).number) passed
    rw [hreason] at hanswer
    have hconsult : (s.consult pass plan stage fun s reply =>
        s.answer pass plan stage reply passed).1 =
          (s.answer pass plan stage (s.promptReply (plan.expected stage).number) passed).1 := by
      unfold consult ask promptReply
      rw [hreason]
      cases s.source.address (plan.expected stage).number with
      | error fault => rfl
      | ok height => simp [himmediate]
    rw [hconsult, hanswer]
    cases plan.check stage (s.promptReply (plan.expected stage).number) none <;> rfl

/-- `commit` of a plan that is up to date commits unless the engine refuses. -/
theorem fst_commit_of_higher (hgeneration : s.tracker.generation = plan.generation)
    (hhigher : s.engine.head.number < plan.candidate.number) :
    (s.commit pass plan).1 = { s with
      engine := if s.refusal?.isNone then s.engine.commit plan.candidate else s.engine
      flight? := none } := by
  have hnot : ¬plan.candidate.number ≤ s.engine.head.number := Number.not_le_of_lt hhigher
  unfold commit
  rw [if_neg (not_not.mpr hgeneration), if_neg hnot]
  cases hrefusal : s.refusal? <;> simp [close, hrefusal]

/-- `checkSignal` commits if the pass `carriesOut` the plan, and does nothing else. -/
theorem fst_checkSignal_of_unheld (hheld : s.node.holding = false)
    (hgeneration : s.tracker.generation = plan.generation)
    (hhigher : s.engine.head.number < plan.candidate.number) :
    (s.checkSignal pass plan).1 = { s with
      engine := if s.carriesOut pass plan then s.engine.commit plan.candidate else s.engine
      flight? := none } := by
  -- both lookups are answered at once
  have hprovenance : (s.checkProvenance pass plan).1 =
      if s.clears pass plan .provenance then (s.commit pass plan).1
      else { s with flight? := none } := fst_consult_of_unheld hheld _
  have hsignal : (s.checkSignal pass plan).1 =
      if s.clears pass plan .signal then (s.checkProvenance pass plan).1
      else { s with flight? := none } := fst_consult_of_unheld hheld _
  rw [hsignal, hprovenance, fst_commit_of_higher hgeneration hhigher, carriesOut]
  cases s.clears pass plan .signal <;> cases s.clears pass plan .provenance <;> simp

/-- `start` takes in the trigger and commits the plan that the pass `carriesOut`, and does nothing
else. -/
theorem start_of_unheld (hf : s.flight? = none) (hheld : s.node.holding = false) :
    (s.start pass).1 = { s.took pass with
      engine := match (s.planFor? pass).filter (s.carriesOut pass) with
        | some plan => s.engine.commit plan.candidate
        | none => s.engine } := by
  have hlanded : (s.took pass) = { s.took pass with flight? := none } := by
    rw [← hf]
    rfl
  rw [start_eq, Progress.fst_after, planFor?]
  -- turned away at its start, or due
  cases hintake : (s.tracker.intake pass.trigger).2 with
  | outdated => exact hlanded.symm
  | skipped => exact hlanded.symm
  | due =>
    have hplan : (s.took pass).proceed pass ((s.took pass).checkSignal pass) .due =
        match (s.took pass).tracker.plan? s.engine.head with
        | some plan => (s.took pass).checkSignal pass plan
        | none => (s.took pass).close pass (.judged .ok) := rfl
    rw [hplan, if_pos rfl]
    -- without a plan nothing happens, and with one both lookups are answered at once
    cases hsome : (s.took pass).tracker.plan? s.engine.head with
    | none => exact hlanded.symm
    | some plan =>
      obtain ⟨-, hgeneration, -, -, hhigher⟩ := Tracker.plan?_eq_some hsome
      have hchecked : ((s.took pass).checkSignal pass plan).1 = _ :=
        fst_checkSignal_of_unheld hheld hgeneration.symm hhigher
      have htook : (s.took pass).carriesOut pass plan = s.carriesOut pass plan := rfl
      dsimp only
      rw [hchecked, htook, Option.filter_some]
      cases s.carriesOut pass plan
      · exact hlanded.symm
      · show { s.took pass with engine := s.engine.commit plan.candidate, flight? := none } = _
        rw [← hf]
        rfl

/-! ## Moves -/

/-- No pass is in flight, and the node answers at once. -/
structure Unheld (s : Session) : Prop where
  flight : s.flight? = none
  holding : s.node.holding = false

/-- `act` preserves `Unheld`, but for `hold`. -/
theorem Unheld.act (h : Unheld s) {action : Action} (haction : action ≠ .hold true) :
    Unheld (s.act action).1 := by
  obtain ⟨reply?, hflight⟩ := (acted s action).flight
  refine ⟨by rw [hflight, h.flight]; rfl, ?_⟩
  -- only `hold` changes whether the node answers at once
  cases action with
  | hold holding =>
    cases holding with
    | true => exact absurd rfl haction
    | false => rfl
  | cancel token reason =>
    obtain ⟨cancelled, events, reply?, heq, -⟩ := exists_cancel_eq s token reason
    show (s.cancel token reason).1.node.holding = false
    rw [heq]
    exact h.holding
  | release reason? ticket? =>
    show (s.release reason? ticket?).node.holding = false
    rcases release_cases s reason? ticket? with ⟨-, heq⟩ | ⟨held, -, heq⟩
    · rw [heq]
      exact h.holding
    · rw [heq, node_deliver]
      exact h.holding
  | _ => exact h.holding

/-- `advance` preserves `Unheld`, and takes one pass from the line. -/
theorem Unheld.advance (h : Unheld s) :
    Unheld s.advance.1 ∧ s.advance.1.waiting = s.waiting.tail := by
  cases hw : s.waiting with
  | nil =>
    rw [advance_idle h.flight hw]
    exact ⟨h, hw⟩
  | cons pass rest =>
    let t : Session := { s with waiting := rest }
    -- the next pass is over with its start
    have hstart : (t.start pass).1 = _ := start_of_unheld h.flight h.holding
    rw [advance_start h.flight hw, hstart]
    exact ⟨⟨h.flight, h.holding⟩, rfl⟩

/-- `play` preserves `Unheld`, but for `hold`. -/
theorem Unheld.play (h : Unheld s) {moves : List Move} (hmoves : .act (.hold true) ∉ moves) :
    Unheld (s.play moves).1 := by
  -- over the moves, none of which makes lookups wait
  induction moves generalizing s with
  | nil => exact h
  | cons m moves ih =>
    rw [play_cons, Progress.fst_after]
    have hm : m ≠ .act (.hold true) := fun heq => hmoves (heq ▸ List.mem_cons_self)
    have hmove : Unheld (s.move m).1 := by
      cases m with
      | act action => exact h.act fun heq => hm (heq ▸ rfl)
      | advance => exact h.advance.1
    exact ih hmove fun hmem => hmoves (List.mem_cons_of_mem _ hmem)

/-! ## Steps -/

/-- The action calls for a pass. -/
def Action.isCall : Action → Bool
  | .call .. => true
  | _ => false

/-- `play` of actions lets one more pass wait for each with `isCall`. -/
theorem length_waiting_acts (s : Session) (actions : List Action) :
    (s.play (actions.map .act)).1.waiting.length
      = s.waiting.length + actions.countP Action.isCall := by
  induction actions generalizing s with
  | nil => rfl
  | cons action actions ih =>
    -- a call adds one to the line
    have hwaiting : (s.act action).1.waiting.length
        = s.waiting.length + if action.isCall then 1 else 0 := by
      rw [(acted s action).waiting, List.length_append]
      cases action <;> rfl
    show ((s.act action).1.play (actions.map .act)).1.waiting.length = _
    rw [ih, hwaiting, List.countP_cons]
    omega

/-- `startAll` is one `advance` for each pass, and leaves none in line. -/
theorem Unheld.startAll_eq (passes : List Pass) (h : Unheld s) (hw : s.waiting = passes) :
    s.startAll passes = s.play (List.replicate passes.length .advance) ∧
    (s.startAll passes).1.waiting = [] := by
  -- over the line, each pass of which is over with its start
  induction passes generalizing s with
  | nil => exact ⟨rfl, hw⟩
  | cons pass rest ih =>
    obtain ⟨hunheld, hwaiting⟩ := h.advance
    rw [hw, List.tail_cons] at hwaiting
    obtain ⟨hplay, hnone⟩ := ih hunheld hwaiting
    have hstart : s.startAll (pass :: rest) = .after s.advance.2 (s.advance.1.startAll rest) := by
      rw [startAll_cons h.flight hw, hunheld.flight]
    rw [hstart]
    refine ⟨?_, hnone⟩
    rw [hplay]
    rfl

/-- `run` is a `play`, the same for all sessions that are `Unheld`: every pass called for in a step
has ended after it. -/
theorem exists_play_of_unheld {steps : List (List Action)} (hsteps : .hold true ∉ steps.flatten) :
    ∃ moves, moves.filterMap Move.action? = steps.flatten ∧
      ∀ s, Unheld s → s.waiting = [] → s.run steps = s.play moves := by
  induction steps with
  | nil => exact ⟨[], rfl, fun s _ _ => rfl⟩
  | cons actions steps ih =>
    rw [List.flatten_cons, List.mem_append, not_or] at hsteps
    obtain ⟨moves, hactions, hplay⟩ := ih hsteps.2
    -- the actions of the step, and then one advance for each call among them
    let first : List Move :=
      actions.map .act ++ List.replicate (actions.countP Action.isCall) .advance
    refine ⟨first ++ moves, ?_, fun s h hw => ?_⟩
    · rw [List.filterMap_append, actions_step, hactions, List.flatten_cons]
    · have hacts : .act (.hold true) ∉ first := by simp [first, hsteps.1]
      have hlength := length_waiting_acts s actions
      have hcalled := h.play (fun hmem => hacts (List.mem_append_left _ hmem))
      have hfirst := h.play hacts
      -- after which nobody is left in line
      have hstep : s.step actions = s.play first ∧ (s.play first).1.waiting = [] := by
        rw [play_append]
        generalize hs' : (s.play (actions.map .act)).1 = s' at hlength hcalled
        rw [hw, List.length_nil, Nat.zero_add] at hlength
        obtain ⟨hplay', hnone⟩ := hcalled.startAll_eq s'.waiting rfl
        have hsettle : s'.settle = s'.startAll s'.waiting := by
          unfold settle
          rw [hcalled.flight]
        rw [hplay', hlength] at hnone
        refine ⟨?_, hnone⟩
        show Progress.after (s.actAll actions).2 (s.actAll actions).1.settle = _
        rw [actAll_eq_play, hs', hsettle, hplay', hlength]
      rw [play_append, ← hplay _ hfirst hstep.2, ← hstep.1]
      rfl

end Settlement.Session
