import Settlement.Proofs.Session.Course

/-!
# Moves

The finest grain of a run. At each move either somebody acts on the session, or the session
advances by one pass: the pass in flight goes on with its reply, or the next one starts. Between
two moves anybody may look at the session. A list of moves may interleave actions and passes in
any way; the steps of a run, in which actions come first and the passes then run as far as they
can, are one such way.

## Key results

- `play_append`: playing moves one part after the other
- `exists_play_eq_run`: every run of steps is a play of moves with the same actions
- `exists_move_of_mem`: every event of a play happens at one of its moves
- `acted`: what any action changes
-/

namespace Settlement

/-- A step of a session at the finest grain. -/
inductive Move where
  /-- Somebody acts. -/
  | act (action : Session.Action)
  /-- The pass in flight goes on if its lookup was answered, or else the next pass starts. -/
  | advance
  deriving Repr

/-- The action of a move. -/
def Move.action? : Move → Option Session.Action
  | .act action => some action
  | .advance => none

namespace Progress

/-- `after` nothing is the progress itself. -/
@[simp] theorem after_nil (p : Progress) : Progress.after [] p = p := rfl

/-- `after` composes by `++`. -/
@[simp] theorem after_after (xs ys : List Event) (p : Progress) :
    Progress.after xs (.after ys p) = .after (xs ++ ys) p := by
  simp [after]

/-- `after` preserves the session. -/
@[simp] theorem fst_after (xs : List Event) (p : Progress) : (Progress.after xs p).1 = p.1 := rfl

/-- `after` puts events in front. -/
@[simp] theorem snd_after (xs : List Event) (p : Progress) :
    (Progress.after xs p).2 = xs ++ p.2 := rfl

end Progress

namespace Session

/-- The session after one pass has run: the one in flight if its lookup was answered, or else the
next. -/
def advance (s : Session) : Progress :=
  match s.flight? with
  | some flight =>
    match flight.reply? with
    | some reply => s.resume flight reply
    | none => (s, [])
  | none =>
    match s.waiting with
    | pass :: rest => { s with waiting := rest }.start pass
    | [] => (s, [])

/-- The session after one move, and its events. -/
def move (s : Session) : Move → Progress
  | .act action => s.act action
  | .advance => s.advance

/-- The session after several moves, and the events of all. -/
def play (s : Session) : List Move → Progress
  | [] => (s, [])
  | m :: rest => .after (s.move m).2 ((s.move m).1.play rest)

/-- `play` begins with `move`. -/
theorem play_cons (s : Session) (m : Move) (moves : List Move) :
    s.play (m :: moves) = .after (s.move m).2 ((s.move m).1.play moves) := rfl

/-- `play` distributes over `++`. -/
theorem play_append (s : Session) (xs ys : List Move) :
    s.play (xs ++ ys) = .after (s.play xs).2 ((s.play xs).1.play ys) := by
  induction xs generalizing s with
  | nil => rfl
  | cons m xs ih => rw [List.cons_append, play_cons, ih, play_cons]; simp

theorem fst_play_append (s : Session) (xs ys : List Move) :
    (s.play (xs ++ ys)).1 = ((s.play xs).1.play ys).1 := by
  rw [play_append, Progress.fst_after]

/-- `play` ends with `move`. -/
theorem play_concat (s : Session) (moves : List Move) (m : Move) :
    s.play (moves ++ [m]) = .after (s.play moves).2 ((s.play moves).1.move m) := by
  rw [play_append]
  show Progress.after _ (Progress.after _ (_, [])) = _
  simp [Progress.after]

/-- `play` ends with `move`, as far as the session goes. -/
theorem fst_play_concat (s : Session) (moves : List Move) (m : Move) :
    (s.play (moves ++ [m])).1 = ((s.play moves).1.move m).1 := by
  rw [play_concat, Progress.fst_after]

/-- `play` has every event from one of its moves. -/
theorem exists_move_of_mem {s : Session} {moves : List Move} {e : Event}
    (h : e ∈ (s.play moves).2) :
    ∃ past m future, moves = past ++ m :: future ∧ e ∈ ((s.play past).1.move m).2 := by
  induction moves generalizing s with
  | nil => exact absurd h List.not_mem_nil
  | cons m moves ih =>
    rw [play_cons, Progress.snd_after] at h
    -- it happened at the first move, or later
    rcases List.mem_append.mp h with h | h
    · exact ⟨[], m, moves, rfl, h⟩
    · obtain ⟨past, m', future, rfl, hmem⟩ := ih h
      exact ⟨m :: past, m', future, rfl, hmem⟩

/-! ## Advancing -/

/-- `advance` is `resume` where the pass in flight has a reply. -/
theorem advance_resume {s : Session} {flight : Flight} {reply : Reply}
    (hf : s.flight? = some flight) (hr : flight.reply? = some reply) :
    s.advance = s.resume flight reply := by
  simp only [advance, hf, hr]

/-- `advance` does nothing where the pass in flight has none. -/
theorem advance_wait {s : Session} {flight : Flight} (hf : s.flight? = some flight)
    (hr : flight.reply? = none) : s.advance = (s, []) := by
  simp only [advance, hf, hr]

/-- `advance` is `start` where no pass is in flight. -/
theorem advance_start {s : Session} {pass : Pass} {rest : List Pass} (hf : s.flight? = none)
    (hw : s.waiting = pass :: rest) : s.advance = { s with waiting := rest }.start pass := by
  simp only [advance, hf, hw]

/-- `advance` does nothing where no pass waits. -/
theorem advance_idle {s : Session} (hf : s.flight? = none) (hw : s.waiting = []) :
    s.advance = (s, []) := by
  simp only [advance, hf, hw]

/-- `start` preserves the passes that wait. -/
theorem waiting_start (s : Session) (pass : Pass) : (s.start pass).1.waiting = s.waiting := by
  rw [start_eq, Progress.fst_after]
  rcases proceed_cases (s.took pass) pass ((s.took pass).checkSignal pass)
    (s.tracker.intake pass.trigger).2 with ⟨ending, heq⟩ | ⟨plan, -, -, heq⟩
  · rw [heq]
    rfl
  · rw [heq]
    exact (checkSignal_leg (s.took pass) pass plan).kept.2.2.1

/-! ## Acting -/

/-- The tracker after an action. -/
def Action.onTracker : Action → Tracker → Tracker
  | .record l2 l1, t => (t.record l2 l1).1
  | .reset, t => t.reset
  | _, t => t

/-- The pass that an action calls for, under this number. -/
def Action.pass? (number : Nat) : Action → Option Pass
  | .call label trigger token? => some { number, label, trigger, token? }
  | _ => none

/-- The session and the events after an action: no lookup and no commit, and the pass in flight gets
a reply at most. -/
structure Acted (s : Session) (action : Action) (p : Progress) : Prop where
  tracker : p.1.tracker = action.onTracker s.tracker
  source : p.1.source = s.source
  waiting : p.1.waiting = s.waiting ++ (action.pass? s.called).toList
  called : p.1.called = s.called + (action.pass? s.called).toList.length
  flight : ∃ reply? : Flight → Option Reply,
    p.1.flight? = s.flight?.map fun flight => { flight with reply? := reply? flight }
  history : p.1.engine.history = s.engine.history ++ Event.heads p.2
  commitments : Event.commitments p.2 = []
  lookups : ∀ pass, Event.lookups pass p.2 = []

/-- Writing back its own reply leaves a flight as it is. -/
private theorem map_reply_self (flight? : Option Flight) :
    flight? = flight?.map fun flight => { flight with reply? := flight.reply? } := by
  cases flight? <;> rfl

/-- `deliver` changes the reply of the pass in flight at most. -/
theorem exists_deliver_eq (s : Session) (ticket : Nat) (reply : Reply) :
    ∃ reply? : Flight → Option Reply, s.deliver ticket reply =
      { s with flight? := s.flight?.map fun flight =>
          { flight with reply? := reply? flight } } := by
  cases hflight : s.flight? with
  | none =>
    refine ⟨Flight.reply?, ?_⟩
    simp only [deliver, hflight, Option.map_none]
    rw [← hflight]
  | some flight =>
    simp only [deliver, hflight]
    -- the reply is for the pass in flight if it waits for this ticket
    split
    · exact ⟨fun flight =>
        some (s.source.deliver (flight.plan.expected flight.stage).number reply), rfl⟩
    · refine ⟨Flight.reply?, ?_⟩
      rw [Option.map_some, ← hflight]

/-- `deliver` leaves the node. -/
theorem node_deliver (s : Session) (ticket : Nat) (reply : Reply) :
    (s.deliver ticket reply).node = s.node := by
  obtain ⟨reply?, heq⟩ := exists_deliver_eq s ticket reply
  rw [heq]

/-- `cancel` changes the reasons and the reply of the pass in flight at most, and tells of the token
at most. -/
theorem exists_cancel_eq (s : Session) (token : String) (reason : Value) :
    ∃ cancelled events, ∃ reply? : Flight → Option Reply, s.cancel token reason =
      ({ s with
        cancelled
        flight? := s.flight?.map fun flight => { flight with reply? := reply? flight } },
        events) ∧ (events = [] ∨ events = [.cancelled token]) := by
  unfold cancel
  split
  · refine ⟨s.cancelled, [], Flight.reply?, ?_, .inl rfl⟩
    rw [← map_reply_self]
  · -- over RPC the pass that carries the token gets a failure for its reply
    let reply? (flight : Flight) : Option Reply :=
      if s.source = .rpc ∧ flight.pass.token? = some token then
        some (.failure (.fault (Cancellations.fault
          (((s.cancelled.cancel token reason).reason? (some token)).getD reason))))
      else flight.reply?
    refine ⟨s.cancelled.cancel token reason, _, reply?, ?_, .inr rfl⟩
    have hreply : ∀ flight : Flight, { flight with reply? := reply? flight } =
        if s.source = .rpc ∧ flight.pass.token? = some token then
          { flight with reply? := some (.failure (.fault (Cancellations.fault
            (((s.cancelled.cancel token reason).reason? (some token)).getD reason)))) }
        else flight := by
      intro flight
      dsimp only [reply?]
      split <;> rfl
    simp only [hreply]

/-- `release` does nothing, or delivers the answer to the lookup of `Node.next?`. -/
theorem release_cases (s : Session) (reason? : Option Value) (ticket? : Option Nat) :
    s.node.next? ticket? = none ∧ s.release reason? ticket? = s ∨
    ∃ held, s.node.next? ticket? = some held ∧
      s.release reason? ticket? = { s with node := s.node.forget held.ticket }.deliver held.ticket
        (s.node.answerOr reason? held.height) := by
  unfold release Node.release?
  cases s.node.next? ticket? with
  | none => exact .inl ⟨rfl, rfl⟩
  | some held => exact .inr ⟨held, rfl, rfl⟩

/-- `release` changes the node and the reply of the pass in flight at most. -/
theorem exists_release_eq (s : Session) (reason? : Option Value) (ticket? : Option Nat) :
    ∃ node, ∃ reply? : Flight → Option Reply, s.release reason? ticket? =
      { s with
        node
        flight? := s.flight?.map fun flight => { flight with reply? := reply? flight } } := by
  rcases release_cases s reason? ticket? with ⟨-, heq⟩ | ⟨held, -, heq⟩
  · refine ⟨s.node, Flight.reply?, ?_⟩
    rw [heq, ← map_reply_self]
  · obtain ⟨reply?, hdeliver⟩ := exists_deliver_eq { s with node := s.node.forget held.ticket }
      held.ticket (s.node.answerOr reason? held.height)
    exact ⟨_, reply?, heq.trans hdeliver⟩

/-- `Acted` holds of `act`, for every action. -/
theorem acted (s : Session) (action : Action) : Acted s action (s.act action) := by
  -- most actions leave the pass in flight alone and call for none
  have hkept : ∃ reply? : Flight → Option Reply,
      s.flight? = s.flight?.map fun flight => { flight with reply? := reply? flight } :=
    ⟨Flight.reply?, map_reply_self s.flight?⟩
  have hnone : ∀ xs : List Pass, xs = xs ++ [] := fun xs => (List.append_nil xs).symm
  have hhistory : s.engine.history = s.engine.history ++ [] := (List.append_nil _).symm
  cases action with
  | record l2 l1 =>
    have hquiet : Event.Quiet (s.act (.record l2 l1)).2 :=
      @Event.Quiet.append [_] _ ⟨rfl, rfl, fun _ => rfl⟩ (Event.quiet_noted _)
    exact ⟨rfl, rfl, hnone _, rfl, hkept, by rw [hquiet.2.1]; exact hhistory, hquiet.1,
      hquiet.2.2⟩
  | cancel token reason =>
    obtain ⟨cancelled, events, reply?, heq, hevents⟩ := exists_cancel_eq s token reason
    have hact : s.act (.cancel token reason) = s.cancel token reason := rfl
    rw [hact, heq]
    rcases hevents with rfl | rfl
    · exact ⟨rfl, rfl, hnone _, rfl, ⟨reply?, rfl⟩, hhistory, rfl, fun _ => rfl⟩
    · exact ⟨rfl, rfl, hnone _, rfl, ⟨reply?, rfl⟩, hhistory, rfl, fun _ => rfl⟩
  | release reason? ticket? =>
    obtain ⟨node, reply?, heq⟩ := exists_release_eq s reason? ticket?
    have hact : s.act (.release reason? ticket?) = (s.release reason? ticket?, []) := rfl
    rw [hact, heq]
    exact ⟨rfl, rfl, hnone _, rfl, ⟨reply?, rfl⟩, hhistory, rfl, fun _ => rfl⟩
  | call label trigger token? => exact ⟨rfl, rfl, rfl, rfl, hkept, hhistory, rfl, fun _ => rfl⟩
  | move block => exact ⟨rfl, rfl, hnone _, rfl, hkept, rfl, rfl, fun _ => rfl⟩
  | _ => exact ⟨rfl, rfl, hnone _, rfl, hkept, hhistory, rfl, fun _ => rfl⟩

/-! ## Steps as moves -/

/-- `actAll` is a play. -/
theorem actAll_eq_play (s : Session) (actions : List Action) :
    s.actAll actions = s.play (actions.map .act) := by
  induction actions generalizing s with
  | nil => rfl
  | cons action actions ih =>
    show Progress.after _ ((s.act action).1.actAll actions) = _
    rw [ih]
    rfl

/-- `startAll` is `advance`, and goes on if no pass is in flight after it. -/
theorem startAll_cons {s : Session} {pass : Pass} {rest : List Pass} (hf : s.flight? = none)
    (hw : s.waiting = pass :: rest) :
    s.startAll (pass :: rest) =
      match s.advance.1.flight? with
      | some _ => s.advance
      | none => .after s.advance.2 (s.advance.1.startAll rest) := by
  rw [advance_start hf hw]
  rfl

/-- `startAll` is a play of `advance` moves. -/
private theorem exists_play_eq_startAll (passes : List Pass) (s : Session)
    (hf : s.flight? = none) (hw : s.waiting = passes) :
    ∃ n, s.startAll passes = s.play (List.replicate n .advance) := by
  induction passes generalizing s with
  | nil => exact ⟨0, rfl⟩
  | cons pass rest ih =>
    -- the first pass waits, and that is all, or ends and lets the others go on
    rw [startAll_cons hf hw]
    cases hflight : s.advance.1.flight? with
    | some flight => exact ⟨1, by simp [play, move, Progress.after]⟩
    | none =>
      have hwaiting : s.advance.1.waiting = rest := by
        rw [advance_start hf hw]
        exact waiting_start { s with waiting := rest } pass
      obtain ⟨n, hn⟩ := ih s.advance.1 hflight hwaiting
      exact ⟨n + 1, by rw [List.replicate_succ, play_cons]; simp only [move, hn]⟩

/-- `settle` is a play of `advance` moves. -/
theorem exists_play_eq_settle (s : Session) :
    ∃ n, s.settle = s.play (List.replicate n .advance) := by
  unfold settle
  cases hflight : s.flight? with
  | none => exact exists_play_eq_startAll s.waiting s hflight rfl
  | some flight =>
    dsimp only
    cases hreply : flight.reply? with
    | none => exact ⟨0, rfl⟩
    | some reply =>
      dsimp only
      -- the pass in flight advances first, and the others if it has ended
      rw [← advance_resume hflight hreply]
      cases hnext : s.advance.1.flight? with
      | some flight => exact ⟨1, by simp [play, move, Progress.after]⟩
      | none =>
        obtain ⟨n, hn⟩ := exists_play_eq_startAll s.advance.1.waiting s.advance.1 hnext rfl
        exact ⟨n + 1, by rw [List.replicate_succ, play_cons]; simp only [move, hn]⟩

/-- A step of a run has its actions and no others. -/
theorem actions_step (actions : List Action) (n : Nat) :
    (actions.map Move.act ++ List.replicate n Move.advance).filterMap Move.action? = actions := by
  have hmap : (actions.map Move.act).filterMap Move.action? = actions := by
    rw [List.filterMap_map]
    exact List.filterMap_some
  have hnone : (List.replicate n Move.advance).filterMap Move.action? = [] := by
    simp [List.filterMap_replicate, Move.action?]
  rw [List.filterMap_append, hmap, hnone, List.append_nil]

/-- `run` is a play with the same actions. -/
theorem exists_play_eq_run (s : Session) (steps : List (List Action)) :
    ∃ moves, s.run steps = s.play moves ∧ moves.filterMap Move.action? = steps.flatten := by
  -- over the steps, each of them its actions and then as many advances as it takes
  induction steps generalizing s with
  | nil => exact ⟨[], rfl, rfl⟩
  | cons actions steps ih =>
    obtain ⟨n, hn⟩ := exists_play_eq_settle (s.play (actions.map .act)).1
    obtain ⟨moves, hmoves, hactions⟩ := ih (s.step actions).1
    refine ⟨actions.map .act ++ List.replicate n .advance ++ moves, ?_, ?_⟩
    · have hstep : s.step actions = s.play (actions.map .act ++ List.replicate n .advance) := by
        rw [play_append, ← hn, ← actAll_eq_play]
        rfl
      rw [play_append, ← hstep, ← hmoves]
      rfl
    · rw [List.filterMap_append, actions_step, hactions, List.flatten_cons]

end Session

end Settlement
