import Settlement.Proofs.Session.Script
import Settlement.Proofs.Session.Unheld

/-!
# Turns

A turn is what one pass does when the session advances: what it asks for and hears, and how it ends
unless it has to wait. A leg (`Leg`) has the lookups and commits of a turn; a `Turn` also has the
result of each check, and with it the reason why the pass ended.

What comes back over RPC has been checked before a pass hears it. A reply that waits for its pass
has come through the source, or is a failure (`Served`), and so all that a pass hears has.

## Key results

- `turned`: every way in which a session advances, with all its events
- `served_play`: what a pass in flight is going to hear has come through the source
- `start_cases`: a pass that starts takes a turn, or is over at once
-/

namespace Settlement

namespace Source

/-- The reply is some raw reply to this number as the source delivers it. -/
def Delivers (source : Source) (asked : Number) (reply : Reply) : Prop :=
  ∃ raw, reply = source.deliver asked raw

/-- `Delivers` holds of every failure. -/
theorem delivers_failure (source : Source) (asked : Number) (reason : Value) :
    source.Delivers asked (.failure reason) :=
  ⟨.failure reason, by cases source <;> rfl⟩

end Source

namespace Event

/-- The event only opens a pass: its start, or a line for the log. -/
def isOpening : Event → Bool
  | .started .. | .noted .. => true
  | _ => false

/-- The event is the doing of this pass, or a line for the log. -/
def IsOwn (pass : Pass) : Event → Prop
  | .asked number _ | .answered number _ _ | .committed number _ => number = pass.number
  | .ended other _ => other = pass
  | .noted _ => True
  | _ => False

/-- `endings` holds what has `ended`. -/
theorem mem_endings {events : List Event} {pass : Pass} {ending : Ending} :
    (pass, ending) ∈ endings events ↔ .ended pass ending ∈ events := by
  constructor
  · intro h
    obtain ⟨e, he, heq⟩ := List.mem_filterMap.mp h
    cases e with
    | ended other given =>
      obtain ⟨rfl, rfl⟩ := Prod.mk.inj (Option.some.inj heq)
      exact he
    | _ => exact nomatch heq
  · exact fun h => List.mem_filterMap.mpr ⟨_, h, rfl⟩

theorem endings_append (xs ys : List Event) :
    endings (xs ++ ys) = endings xs ++ endings ys := List.filterMap_append

/-- `endings` are none in lines for the log. -/
theorem endings_noted (notices : List Notice) : endings (notices.map .noted) = [] := by
  refine List.filterMap_eq_nil_iff.mpr fun e he => ?_
  obtain ⟨notice, -, rfl⟩ := List.mem_map.mp he
  rfl

/-- Every event is the doing of this pass (`IsOwn`). -/
def Own (pass : Pass) (events : List Event) : Prop := ∀ e ∈ events, e.IsOwn pass

theorem Own.append {pass : Pass} {xs ys : List Event} (hx : Own pass xs) (hy : Own pass ys) :
    Own pass (xs ++ ys) := fun e he => (List.mem_append.mp he).elim (hx e) (hy e)

/-- `Own` holds of lines for the log. -/
theorem own_noted (pass : Pass) (notices : List Notice) : Own pass (notices.map .noted) := by
  simp [Own, IsOwn]

end Event

namespace Session

variable {s : Session} {pass : Pass} {plan : Plan} {p : Progress}

/-! ## Turns -/

/-- The events by which a pass hears a reply at a stage: it had waited for it, or there was nothing
to ask for; or it asks now, and the node answers at once. -/
inductive Hears (s : Session) (pass : Pass) (plan : Plan) (stage : Stage) (reply : Reply) :
    List Event → Prop
  | given (delivers : s.source.Delivers (plan.expected stage).number reply) :
      Hears s pass plan stage reply
        [.answered pass.number (plan.expected stage).number reply]
  | asked {height : Number} {raw : Reply} (free : s.reason? pass = none)
      (address : s.source.address (plan.expected stage).number = .ok height)
      (immediate : s.node.immediate? height = some raw)
      (delivered : reply = s.source.deliver (plan.expected stage).number raw) :
      Hears s pass plan stage reply
        [.asked pass.number height, .answered pass.number (plan.expected stage).number reply]

/-- The session and the events after a pass with a plan has gone on as far as it can. -/
inductive Turn (s : Session) (pass : Pass) (plan : Plan) : Progress → Prop
  /-- The pass waits for a lookup. -/
  | waits {stage : Stage} {height : Number} (free : s.reason? pass = none)
      (address : s.source.address (plan.expected stage).number = .ok height)
      (held : s.node.immediate? height = none) :
      Turn s pass plan (s.await pass plan stage height, [.asked pass.number height])
  /-- The pass is cancelled before a lookup. -/
  | cancelled {stage : Stage} {reason : Value} (cancelled : s.reason? pass = some reason) :
      Turn s pass plan (s.fail pass (plan.unreached stage reason))
  /-- A check is blocked. -/
  | blocked {stage : Stage} {reply : Reply} {heard : List Event} {obstacle : Obstacle}
      (hears : Hears s pass plan stage reply heard)
      (check : plan.check stage reply (s.reason? pass) = .blocked obstacle) :
      Turn s pass plan (.after heard (s.fail pass obstacle))
  /-- There is no block at all behind a reply, or none that can be told of. -/
  | broken {stage : Stage} {reply : Reply} {heard : List Event} {fault : Fault}
      (hears : Hears s pass plan stage reply heard)
      (check : plan.check stage reply (s.reason? pass) = .broken fault) :
      Turn s pass plan (.after heard (s.close pass (.raised (.fault fault))))
  /-- A check is passed, and the pass goes on. -/
  | passes {stage : Stage} {reply : Reply} {heard : List Event} {p : Progress}
      (hears : Hears s pass plan stage reply heard)
      (check : plan.check stage reply (s.reason? pass) = .canonical)
      (rest : Turn s pass plan p) : Turn s pass plan (.after heard p)
  /-- The last check is passed. -/
  | commits {stage : Stage} {reply : Reply} {heard : List Event}
      (hears : Hears s pass plan stage reply heard)
      (check : plan.check stage reply (s.reason? pass) = .canonical) :
      Turn s pass plan (.after heard (s.commit pass plan))

/-- `answer` is a `Turn` if what follows a canonical block is one. -/
theorem answer_turn {stage : Stage} {reply : Reply} {asked : List Event}
    {passed : Session → Progress}
    (hears : Hears s pass plan stage reply
      (asked ++ [.answered pass.number (plan.expected stage).number reply]))
    (hpassed : ∀ heard, Hears s pass plan stage reply heard →
      plan.check stage reply (s.reason? pass) = .canonical →
      Turn s pass plan (.after heard (passed s))) :
    Turn s pass plan (.after asked (s.answer pass plan stage reply passed)) := by
  unfold answer
  rw [Progress.after_after]
  cases hcheck : plan.check stage reply (s.reason? pass) with
  | canonical => exact hpassed _ hears hcheck
  | blocked obstacle => exact .blocked hears hcheck
  | broken fault => exact .broken hears hcheck

/-- `consult` is a `Turn` if what follows any reply is one. -/
theorem consult_turn {stage : Stage} {goOn : Session → Reply → Progress}
    (hgo : ∀ reply asked, Hears s pass plan stage reply
        (asked ++ [.answered pass.number (plan.expected stage).number reply]) →
      Turn s pass plan (.after asked (goOn s reply))) :
    Turn s pass plan (s.consult pass plan stage goOn) := by
  unfold consult
  cases hreason : s.reason? pass with
  | some reason => exact .cancelled hreason
  | none =>
    unfold ask
    dsimp only
    cases haddress : s.source.address (plan.expected stage).number with
    | error fault =>
      -- nothing can be asked for under such a number, and the pass hears the failure at once
      exact hgo _ [] (.given (Source.delivers_failure ..))
    | ok height =>
      dsimp only
      cases himmediate : s.node.immediate? height with
      | some raw => exact hgo _ [_] (.asked hreason haddress himmediate rfl)
      | none => exact .waits hreason haddress himmediate

/-- `answerProvenance` is a `Turn`. -/
theorem answerProvenance_turn {reply : Reply} (asked : List Event)
    (hears : Hears s pass plan .provenance reply
      (asked ++ [.answered pass.number (plan.expected .provenance).number reply])) :
    Turn s pass plan (.after asked (s.answerProvenance pass plan reply)) :=
  answer_turn hears fun _ hears hcheck => .commits hears hcheck

theorem checkProvenance_turn : Turn s pass plan (s.checkProvenance pass plan) :=
  consult_turn fun _ asked hears => answerProvenance_turn asked hears

/-- `answerSignal` is a `Turn`. -/
theorem answerSignal_turn {reply : Reply} (asked : List Event)
    (hears : Hears s pass plan .signal reply
      (asked ++ [.answered pass.number (plan.expected .signal).number reply])) :
    Turn s pass plan (.after asked (s.answerSignal pass plan reply)) :=
  answer_turn hears fun _ hears hcheck => .passes hears hcheck checkProvenance_turn

theorem checkSignal_turn (s : Session) (pass : Pass) (plan : Plan) :
    Turn s pass plan (s.checkSignal pass plan) :=
  consult_turn fun _ asked hears => answerSignal_turn asked hears

/-- `resume` is a `Turn` for a reply that the source `Delivers`. -/
theorem resume_turn {flight : Flight} {reply : Reply}
    (h : s.source.Delivers (flight.plan.expected flight.stage).number reply) :
    Turn { s with flight? := none } flight.pass flight.plan (s.resume flight reply) := by
  unfold resume
  cases hstage : flight.stage with
  | signal =>
    rw [hstage] at h
    exact answerSignal_turn [] (.given h)
  | provenance =>
    rw [hstage] at h
    exact answerProvenance_turn [] (.given h)

/-! ## Replies that wait -/

/-- The source `Delivers` the reply that the pass in flight has, if it has one. -/
def Served (s : Session) : Prop :=
  ∀ flight reply, s.flight? = some flight → flight.reply? = some reply →
    s.source.Delivers (flight.plan.expected flight.stage).number reply

/-- `deliver` hands the reply to the pass in flight that waits under this ticket, or does
nothing. -/
theorem deliver_cases (s : Session) (ticket : Nat) (raw : Reply) :
    s.deliver ticket raw = s ∨
    ∃ flight, s.flight? = some flight ∧ flight.ticket = ticket ∧ flight.reply? = none ∧
      s.deliver ticket raw = { s with
        flight? := some { flight with
          reply? := some (s.source.deliver (flight.plan.expected flight.stage).number raw) } } := by
  unfold deliver
  cases hf : s.flight? with
  | none => exact .inl rfl
  | some flight =>
    dsimp only
    -- the pass in flight waits for this ticket, or the reply is for nobody
    split
    · rename_i hwaits
      exact .inr ⟨flight, rfl, hwaits.1, Option.isNone_iff_eq_none.mp hwaits.2, rfl⟩
    · exact .inl rfl

/-- `act` leaves the flight, or hands it a reply that the source `Delivers`. -/
theorem flight_act (s : Session) (action : Action) :
    (s.act action).1.flight? = s.flight? ∨
    ∃ flight reply, s.flight? = some flight ∧
      (s.act action).1.flight? = some { flight with reply? := some reply } ∧
      s.source.Delivers (flight.plan.expected flight.stage).number reply := by
  -- only a cancellation and a release can answer the pass in flight
  cases action with
  | cancel token reason =>
    show (s.cancel token reason).1.flight? = _ ∨ ∃ flight reply, _ ∧
      (s.cancel token reason).1.flight? = _ ∧ _
    unfold cancel
    split
    · exact .inl rfl
    · cases hf : s.flight? with
      | none => exact .inl rfl
      | some flight =>
        dsimp only [Option.map_some]
        split
        · exact .inr ⟨flight, _, rfl, rfl, Source.delivers_failure ..⟩
        · exact .inl rfl
  | release reason? ticket? =>
    show (s.release reason? ticket?).flight? = _ ∨ ∃ flight reply, _ ∧
      (s.release reason? ticket?).flight? = _ ∧ _
    rcases release_cases s reason? ticket? with ⟨-, heq⟩ | ⟨held, -, heq⟩
    · rw [heq]
      exact .inl rfl
    · rw [heq]
      rcases deliver_cases { s with node := s.node.forget held.ticket } held.ticket
        (s.node.answerOr reason? held.height) with hdeliver | ⟨flight, hf, -, -, hdeliver⟩
      · rw [hdeliver]
        exact .inl rfl
      · rw [hdeliver]
        exact .inr ⟨flight, _, hf, rfl, _, rfl⟩
  | _ => exact .inl rfl

/-- A `Turn` leaves a flight without a reply, if it leaves one. -/
theorem Turn.reply?_eq (h : Turn s pass plan p) {flight : Flight}
    (hf : p.1.flight? = some flight) : flight.reply? = none := by
  -- over the turn, which leaves the pass waiting in one case only
  induction h with
  | waits free address held =>
    obtain rfl := Option.some.inj hf
    rfl
  | passes hears check rest ih => exact ih hf
  | commits hears check =>
    rw [Progress.fst_after, flight_commit] at hf
    exact nomatch hf
  | _ => exact nomatch hf

/-! ## Every way of advancing -/

/-- The pass has its turn with this plan: it is in flight with it, or starts with it. -/
def Pursues (s : Session) (pass : Pass) (plan : Plan) : Prop :=
  (∃ flight, s.flight? = some flight ∧ flight.pass = pass ∧ flight.plan = plan) ∨
  s.flight? = none ∧ s.waiting.head? = some pass ∧ s.planFor? pass = some plan

/-- The pass takes a `Turn` when the session advances, behind the opening of the pass if it starts,
in a session that it finds `Alike`. -/
inductive TakesTurn (s : Session) (pass : Pass) (plan : Plan) : Progress → Prop
  | mk {t : Session} {opening : List Event} {p : Progress} (alike : Alike pass s t)
      (node_eq : t.node = s.node) (landed : t.flight? = none)
      (opens : ∀ e ∈ opening, e.isOpening = true) (turn : Turn t pass plan p) :
      TakesTurn s pass plan (.after opening p)

/-- The pass starts without a plan and ends at once. -/
inductive EndsAtOnce (pass : Pass) : Progress → Prop
  | mk {t : Session} {opening : List Event} {ending : Ending} (landed : t.flight? = none)
      (opens : ∀ e ∈ opening, e.isOpening = true)
      (ending_eq : ending = .outdated ∨ ending = .skipped ∨ ending = .judged .ok) :
      EndsAtOnce pass (.after opening (t.close pass ending))

/-- The session and the events after `advance`, with the `Turn` of the pass that goes on. -/
inductive Turned (s : Session) : Progress → Prop
  /-- Nobody can go on. -/
  | stays : Turned s (s, [])
  /-- A pass starts without a plan. -/
  | passes {pass : Pass} {p : Progress} (flight_eq : s.flight? = none)
      (head_eq : s.waiting.head? = some pass) (plan_eq : s.planFor? pass = none)
      (ends : EndsAtOnce pass p) : Turned s p
  /-- A pass with a plan takes a turn. -/
  | turns {pass : Pass} {plan : Plan} {p : Progress} (pursues : s.Pursues pass plan)
      (turn : TakesTurn s pass plan p) : Turned s p

/-- `resume` makes the pass in flight take its turn, with a reply that the source `Delivers`. -/
theorem takesTurn_resume {flight : Flight} {reply : Reply}
    (h : s.source.Delivers (flight.plan.expected flight.stage).number reply) :
    TakesTurn s flight.pass flight.plan (s.resume flight reply) := by
  have halike : Alike flight.pass s { s with flight? := none } := ⟨rfl, rfl, rfl, rfl, rfl, rfl⟩
  have hopens : ∀ e ∈ ([] : List Event), e.isOpening = true :=
    fun e he => absurd he List.not_mem_nil
  exact .mk halike rfl rfl hopens (resume_turn h)

/-- `advance` starts the next pass in line: its trigger is taken in (`took`), and it proceeds. -/
theorem advance_of_head? (hidle : s.flight? = none) (hnext : s.waiting.head? = some pass) :
    ∃ rest, s.waiting = pass :: rest ∧ s.advance = .after (s.opening pass)
      (({ s with waiting := rest }.took pass).proceed pass
        (({ s with waiting := rest }.took pass).checkSignal pass)
        (s.tracker.intake pass.trigger).2) := by
  obtain ⟨rest, hw⟩ := List.head?_eq_some_iff.mp hnext
  refine ⟨rest, hw, ?_⟩
  rw [advance_start hidle hw, start_eq]
  rfl

/-- `advance` goes on with `checkSignal` for a pass that starts with a plan. -/
theorem advance_of_planFor? (hidle : s.flight? = none) (hnext : s.waiting.head? = some pass)
    (hplan : s.planFor? pass = some plan) :
    ∃ t, Alike pass s t ∧ t.node = s.node ∧ t.flight? = none ∧
      s.advance = .after (s.opening pass) (t.checkSignal pass plan) := by
  obtain ⟨rest, hw, hadvance⟩ := advance_of_head? hidle hnext
  let t := { s with waiting := rest }.took pass
  have halike : Alike pass s t :=
    ⟨rfl, rfl, rfl, rfl, generation_took { s with waiting := rest } pass, rfl⟩
  refine ⟨t, halike, rfl, hidle, ?_⟩
  -- it is due, and the plan is made after its trigger was taken in
  obtain ⟨hdue, hplan⟩ := planFor?_eq_some.mp hplan
  have hplan : t.tracker.plan? t.engine.head = some plan := hplan
  rw [hadvance, hdue]
  show Progress.after _ (t.proceed pass (t.checkSignal pass) .due) = _
  simp only [proceed, hplan]

/-- `advance` closes a pass that starts without a plan, as done if it was due. -/
theorem exists_close_of_planFor?_none (hidle : s.flight? = none)
    (hnext : s.waiting.head? = some pass) (hplan : s.planFor? pass = none) :
    ∃ (t : Session) (given : Ending), t.engine = s.engine ∧
      s.advance = .after (s.opening pass) (t.close pass given) ∧
      ((s.tracker.intake pass.trigger).2 = .due → given = .judged .ok) ∧ t.flight? = none ∧
      (given = .outdated ∨ given = .skipped ∨ given = .judged .ok) := by
  obtain ⟨rest, hw, hadvance⟩ := advance_of_head? hidle hnext
  let t := { s with waiting := rest }.took pass
  rw [hadvance]
  -- turned away at its start, or due with nothing to do
  cases hintake : (s.tracker.intake pass.trigger).2 with
  | outdated => exact ⟨t, .outdated, rfl, rfl, nofun, hidle, .inl rfl⟩
  | skipped => exact ⟨t, .skipped, rfl, rfl, nofun, hidle, .inr (.inl rfl)⟩
  | due =>
    rw [planFor?, if_pos hintake] at hplan
    have hnone : t.tracker.plan? t.engine.head = none := hplan
    refine ⟨t, .judged .ok, rfl, ?_, fun _ => rfl, hidle, .inr (.inr rfl)⟩
    show Progress.after _ (t.proceed pass (t.checkSignal pass) .due) = _
    simp only [proceed, hnone]

/-- `advance` makes a pass that starts take its turn, or end at once without a plan. -/
theorem start_cases (hidle : s.flight? = none) (hnext : s.waiting.head? = some pass) :
    (∃ plan, s.planFor? pass = some plan ∧ TakesTurn s pass plan s.advance) ∨
    s.planFor? pass = none ∧ EndsAtOnce pass s.advance := by
  have hopens : ∀ e ∈ s.opening pass, e.isOpening = true := by
    simp [opening, Event.isOpening]
  -- with a plan it takes a turn, and without one it is over
  cases hplan : s.planFor? pass with
  | some plan =>
    obtain ⟨t, halike, hnode, hlanded, hadvance⟩ := advance_of_planFor? hidle hnext hplan
    rw [hadvance]
    exact .inl ⟨plan, rfl, .mk halike hnode hlanded hopens (checkSignal_turn t pass plan)⟩
  | none =>
    obtain ⟨t, given, -, hadvance, -, hlanded, hgiven⟩ :=
      exists_close_of_planFor?_none hidle hnext hplan
    rw [hadvance]
    exact .inr ⟨rfl, .mk hlanded hopens hgiven⟩

/-- `Turned` holds of `advance` in a session that is `Served`. -/
theorem turned (h : Served s) : Turned s s.advance := by
  cases hf : s.flight? with
  | some flight =>
    -- the pass in flight waits, or goes on
    cases hr : flight.reply? with
    | none =>
      rw [advance_wait hf hr]
      exact .stays
    | some reply =>
      rw [advance_resume hf hr]
      exact .turns (.inl ⟨flight, hf, rfl, rfl⟩) (takesTurn_resume (h flight reply hf hr))
  | none =>
    -- the next one starts, if there is one
    cases hw : s.waiting with
    | nil =>
      rw [advance_idle hf hw]
      exact .stays
    | cons pass rest =>
      have hhead : s.waiting.head? = some pass := by rw [hw]; rfl
      rcases start_cases hf hhead with ⟨plan, hplan, hturn⟩ | ⟨hnone, hends⟩
      · exact .turns (.inr ⟨hf, hhead, hplan⟩) hturn
      · exact .passes hf hhead hnone hends

/-- `move` preserves `Served`. -/
theorem Served.move (h : Served s) (m : Move) : Served (s.move m).1 := by
  cases m with
  | act action =>
    intro flight reply hf hr
    have hflight : (s.act action).1.flight? = some flight := hf
    show (s.act action).1.source.Delivers _ _
    rw [(acted s action).source]
    rcases flight_act s action with heq | ⟨known, given, -, heq, hdelivers⟩
    · exact h flight reply (heq ▸ hflight) hr
    · obtain rfl := Option.some.inj (heq.symm.trans hflight)
      obtain rfl := Option.some.inj hr
      exact hdelivers
  | advance =>
    intro flight reply hf hr
    have hturned := turned h
    have hflight : s.advance.1.flight? = some flight := hf
    show s.advance.1.source.Delivers _ _
    rw [(advanced s).kept.2.2.1]
    generalize s.advance = p at hturned hflight
    cases hturned with
    | stays => exact h flight reply hflight hr
    | passes flight_eq head_eq plan_eq ends =>
      obtain ⟨landed, -, -⟩ := ends
      exact nomatch hflight
    | turns pursues turn =>
      -- whoever is left in flight has only just asked
      obtain ⟨-, -, -, -, turn⟩ := turn
      rw [turn.reply?_eq hflight] at hr
      exact nomatch hr

/-- `play` keeps a session `Served`. -/
theorem served_play (h : s.flight? = none) (moves : List Move) : Served (s.play moves).1 := by
  induction moves using List.reverseRecOn with
  | nil =>
    intro flight reply hf
    exact nomatch h.symm.trans hf
  | append_singleton moves m ih =>
    rw [fst_play_concat]
    exact ih.move m

/-! ## How passes end -/

/-- `move` preserves the log. -/
theorem log?_move (s : Session) (m : Move) : (s.move m).1.log? = s.log? := by
  cases m with
  | act action =>
    cases action with
    | cancel token reason =>
      obtain ⟨cancelled, events, reply?, heq, -⟩ := exists_cancel_eq s token reason
      exact congrArg (fun p : Progress => p.1.log?) heq
    | release reason? ticket? =>
      obtain ⟨node, reply?, heq⟩ := exists_release_eq s reason? ticket?
      show (s.release reason? ticket?).log? = s.log?
      rw [heq]
    | _ => rfl
  | advance =>
    have hadvanced := advanced s
    show s.advance.1.log? = s.log?
    generalize s.advance = p at hadvanced
    -- no way of advancing changes the log
    cases hadvanced with
    | stays => rfl
    | resumes flight_eq leg => cases leg [] <;> rfl
    | passes flight_eq waiting_eq => rfl
    | starts flight_eq waiting_eq due plan_eq leg => cases leg <;> rfl

/-- `play` preserves the log. -/
theorem log?_play (s : Session) (moves : List Move) : (s.play moves).1.log? = s.log? := by
  induction moves generalizing s with
  | nil => rfl
  | cons m moves ih => rw [play_cons, Progress.fst_after, ih, log?_move]

/-- `logged` takes an ending as it is, unless the log cannot write its lines. -/
theorem logged_cases (s : Session) (pass : Pass) (ending : Ending) :
    s.logged pass ending = ending ∨
    ∃ threshold fault, s.log? = some threshold ∧
      Log.noticeLines threshold (pass.endNotices ending) = .error fault ∧
      s.logged pass ending = .raised (.fault fault) := by
  unfold logged
  cases hlog : s.log? with
  | none => exact .inl rfl
  | some threshold =>
    cases hlines : Log.noticeLines threshold (pass.endNotices ending) with
    | ok lines => exact .inl (by simp [hlines])
    | error fault => exact .inr ⟨threshold, fault, rfl, hlines, by simp [hlines]⟩

/-- `endNotices` are none for everything but a failure. -/
theorem endNotices_eq {ending : Ending} (h : ∀ failure, ending ≠ .judged (.failed failure)) :
    pass.endNotices ending = [] := by
  unfold Pass.endNotices
  split
  · rename_i failure _
    exact absurd rfl (h failure)
  · rfl

/-- `close` has the lines of the ending as it is `logged`, and the end of the pass. -/
theorem mem_close {ending : Ending} {e : Event} :
    e ∈ (s.close pass ending).2 ↔
      (∃ notice ∈ pass.endNotices (s.logged pass ending), e = .noted notice) ∨
        e = .ended pass (s.logged pass ending) := by
  simp [close, eq_comm]

/-- The events end with this failure of the pass, and its line if the pass was called for with a
signal. Where the log cannot write that line, its fault takes the place of the failure. -/
def Fails (s : Session) (pass : Pass) (failure : Failure) (events : List Event) : Prop :=
  (∃ before, events = before ++ (pass.endNotices (.judged (.failed failure))).map .noted
    ++ [.ended pass (.judged (.failed failure))]) ∨
  ∃ before threshold fault, s.log? = some threshold ∧
    Log.noticeLines threshold (pass.endNotices (.judged (.failed failure))) = .error fault ∧
    events = before ++ [.ended pass (.raised (.fault fault))]

/-- `fail` has the events of `Fails`. -/
theorem fails_fail (s : Session) (pass : Pass) (obstacle : Obstacle) :
    s.Fails pass obstacle.failure (s.fail pass obstacle).2 := by
  unfold fail close
  rcases logged_cases s pass (.judged (.failed obstacle.failure)) with
    heq | ⟨threshold, fault, hlog, hlines, heq⟩
  · exact .inl ⟨[], by rw [heq]; rfl⟩
  · have hsilent : pass.endNotices (.raised (.fault fault)) = [] := endNotices_eq nofun
    refine .inr ⟨[], threshold, fault, hlog, hlines, ?_⟩
    simp [heq, hsilent]

/-- `Fails` depends on the log of the session only. -/
theorem Fails.of_log {t : Session} {failure : Failure} {events : List Event}
    (h : t.Fails pass failure events) (hlog : t.log? = s.log?) : s.Fails pass failure events := by
  unfold Fails at h ⊢
  rwa [hlog] at h

/-- `Fails` extends to the front. -/
theorem Fails.prepend {failure : Failure} {events : List Event}
    (h : s.Fails pass failure events) (before : List Event) :
    s.Fails pass failure (before ++ events) := by
  rcases h with ⟨between, rfl⟩ | ⟨between, threshold, fault, hlog, hlines, rfl⟩
  · exact .inl ⟨before ++ between, by simp⟩
  · exact .inr ⟨before ++ between, threshold, fault, hlog, hlines, by simp⟩

/-- The engine refuses the candidate of a plan that no reset has overtaken and that is above the
head. -/
structure Refuses (s : Session) (plan : Plan) (reason : Value) : Prop where
  refusal : s.refusal? = some reason
  current : s.tracker.generation = plan.generation
  higher : ¬plan.candidate.number ≤ s.engine.head.number

/-- `commit` ends the pass well with or without a commit, or the engine `Refuses` the plan. -/
theorem commit_cases (s : Session) (pass : Pass) (plan : Plan) :
    (∃ notices : List Notice,
      s.commit pass plan = .after (notices.map .noted) (s.close pass (.judged .ok))) ∨
    (∃ reason, s.Refuses plan reason ∧
      s.commit pass plan = s.close pass (.raised reason)) ∨
    ∃ notice, s.commit pass plan = .after [.committed pass.number plan.candidate, .noted notice]
      ({ s with engine := s.engine.commit plan.candidate }.close pass (.judged .ok)) := by
  have hsettles := commit_settles s pass plan
  generalize s.commit pass plan = p at hsettles ⊢
  cases hsettles with
  | discards overtaken => exact .inl ⟨[_], rfl⟩
  | reached current reached => exact .inl ⟨[], rfl⟩
  | refused current higher refusal =>
    exact .inr (.inl ⟨_, ⟨refusal, current, higher⟩, rfl⟩)
  | takes current higher refusal => exact .inr (.inr ⟨_, rfl⟩)

/-! ## What happens in a turn -/

/-- `Hears` has events of its pass only. -/
theorem Hears.own {stage : Stage} {reply : Reply} {heard : List Event}
    (h : Hears s pass plan stage reply heard) : Event.Own pass heard := by
  cases h <;> simp [Event.Own, Event.IsOwn]

/-- `close` has events of its pass only. -/
theorem own_close (s : Session) (pass : Pass) (ending : Ending) :
    Event.Own pass (s.close pass ending).2 :=
  (Event.own_noted _ _).append (by simp [Event.Own, Event.IsOwn])

/-- `commit` has events of its pass only. -/
theorem own_commit (s : Session) (pass : Pass) (plan : Plan) :
    Event.Own pass (s.commit pass plan).2 := by
  rcases commit_cases s pass plan with ⟨notices, heq⟩ | ⟨reason, -, heq⟩ | ⟨notice, heq⟩
  · rw [heq]
    exact (Event.own_noted _ _).append (own_close _ _ _)
  · rw [heq]
    exact own_close _ _ _
  · rw [heq]
    exact Event.Own.append (by simp [Event.Own, Event.IsOwn]) (own_close _ _ _)

/-- A `Turn` has events of its pass only. -/
theorem Turn.own (h : Turn s pass plan p) : Event.Own pass p.2 := by
  induction h with
  | waits free address held => simp [Event.Own, Event.IsOwn]
  | cancelled cancelled => exact own_close _ _ _
  | blocked hears check => exact hears.own.append (own_close _ _ _)
  | broken hears check => exact hears.own.append (own_close _ _ _)
  | passes hears check rest ih => exact hears.own.append ih
  | commits hears check => exact hears.own.append (own_commit _ _ _)

/-- A pass that has `ended` had its turn (`Pursues`), or started without a plan. -/
theorem pursues_of_ended (h : Served s) {ending : Ending}
    (hended : .ended pass ending ∈ s.advance.2) :
    (∃ plan, s.Pursues pass plan) ∨
      s.flight? = none ∧ s.waiting.head? = some pass ∧ s.planFor? pass = none := by
  have hturned := turned h
  generalize s.advance = p at hended hturned
  -- openings are not endings, so it is the pass with the turn that has ended
  cases hturned with
  | stays => exact absurd hended List.not_mem_nil
  | @passes other p flight_eq head_eq plan_eq ends =>
    obtain ⟨-, opens, -⟩ := ends
    rcases List.mem_append.mp hended with hmem | hmem
    · exact nomatch opens _ hmem
    · obtain rfl : pass = other := own_close _ _ _ _ hmem
      exact .inr ⟨flight_eq, head_eq, plan_eq⟩
  | @turns other plan p pursues turn =>
    obtain ⟨-, -, -, opens, turn⟩ := turn
    rcases List.mem_append.mp hended with hmem | hmem
    · exact nomatch opens _ hmem
    · obtain rfl : pass = other := turn.own _ hmem
      exact .inl ⟨plan, pursues⟩

end Session

end Settlement
