import Settlement.Session

/-!
# The course of a pass

A pass runs in legs. A leg goes from the start of the pass, or from the reply that it waited for,
to the next reply that it has to wait for, or to its end. The cases of a leg are said once
(`Leg`), and every invariant of sessions is derived from that.

The lookups made so far are what a leg depends on: a pass waits at its first lookup with nothing
but that one asked for, at its second one with the signal found canonical, and commits with both
blocks found (`Plan.Inquired`, `Plan.Verified`).

## Key results

- `commit_settles`: the cases of `commit`
- `checkSignal_leg`, `answerSignal_leg`, `checkProvenance_leg`, `answerProvenance_leg`: the legs
- `start_eq`, `proceed_cases`, `resume_leg`: starting a pass and going on with it
-/

namespace Settlement

/-! ## Reading events -/

namespace Event

/-- The commits among events: the number of the pass, and the block. -/
def commitments (events : List Event) : List (Nat × L2Block) :=
  events.filterMap fun
    | .committed pass block => some (pass, block)
    | _ => none

/-- The blocks that became the head of the engine, in order. -/
def heads (events : List Event) : List L2Block :=
  events.filterMap fun
    | .committed _ block => some block
    | .moved block => some block
    | _ => none

/-- The event is a lookup of this pass: `asked`, or `answered`. -/
def isLookupOf (pass : Nat) : Event → Bool
  | .asked p _ | .answered p _ _ => p == pass
  | _ => false

/-- The events of a pass with `isLookupOf`. -/
def lookups (pass : Nat) (events : List Event) : List Event := events.filter (isLookupOf pass)

@[simp] theorem commitments_append (xs ys : List Event) :
    commitments (xs ++ ys) = commitments xs ++ commitments ys := List.filterMap_append

/-- `commitments` holds what some pass `committed`. -/
theorem mem_commitments {events : List Event} {pass : Nat} {block : L2Block} :
    (pass, block) ∈ commitments events ↔ .committed pass block ∈ events := by
  constructor
  · intro h
    obtain ⟨e, he, heq⟩ := List.mem_filterMap.mp h
    -- only a commit has a commitment
    cases e with
    | committed p b =>
      obtain ⟨rfl, rfl⟩ := Prod.mk.inj (Option.some.inj heq)
      exact he
    | _ => exact nomatch heq
  · intro h
    exact List.mem_filterMap.mpr ⟨_, h, rfl⟩

@[simp] theorem heads_append (xs ys : List Event) : heads (xs ++ ys) = heads xs ++ heads ys :=
  List.filterMap_append

/-- `heads` begins with a block that is committed first. -/
@[simp] theorem heads_committed (pass : Nat) (block : L2Block) (events : List Event) :
    heads (.committed pass block :: events) = block :: heads events := rfl

@[simp] theorem lookups_nil (pass : Nat) : lookups pass [] = [] := rfl

@[simp] theorem lookups_append (pass : Nat) (xs ys : List Event) :
    lookups pass (xs ++ ys) = lookups pass xs ++ lookups pass ys := List.filter_append ..

/-- No `commitments`, `heads` or `lookups`. -/
def Quiet (events : List Event) : Prop :=
  commitments events = [] ∧ heads events = [] ∧ ∀ pass, lookups pass events = []

theorem quiet_nil : Quiet [] := ⟨rfl, rfl, fun _ => rfl⟩

/-- `Quiet` is preserved by `++`. -/
theorem Quiet.append {xs ys : List Event} (hx : Quiet xs) (hy : Quiet ys) : Quiet (xs ++ ys) := by
  refine ⟨?_, ?_, fun pass => ?_⟩
  · rw [commitments_append, hx.1, hy.1, List.append_nil]
  · rw [heads_append, hx.2.1, hy.2.1, List.append_nil]
  · rw [lookups_append, hx.2.2, hy.2.2, List.append_nil]

/-- `Quiet` holds of lines for the log. -/
theorem quiet_noted (notices : List Notice) : Quiet (notices.map .noted) := by
  induction notices with
  | nil => exact quiet_nil
  | cons notice notices ih => exact @Quiet.append [.noted notice] _ ⟨rfl, rfl, fun _ => rfl⟩ ih

end Event

/-! ## Lookups of a plan -/

namespace Plan

/-- The pass asked for the block that the stage expects. -/
def Asking (plan : Plan) (source : Source) (pass : Nat) (stage : Stage) (events : List Event) :
    Prop :=
  ∃ height, source.address (plan.expected stage).number = .ok height ∧
    events = [.asked pass height]

/-- The pass asked for the block that the stage expects, and one with the expected hash was the
answer. -/
def Found (plan : Plan) (source : Source) (pass : Nat) (stage : Stage) (events : List Event) :
    Prop :=
  ∃ height block, source.address (plan.expected stage).number = .ok height ∧
    (block.field "hash").text? = some (plan.expected stage).hash ∧
    events = [.asked pass height, .answered pass (plan.expected stage).number (.block block)]

/-- The lookups of a pass that waits at the stage. -/
def Inquired (plan : Plan) (source : Source) (pass : Nat) : Stage → List Event → Prop
  | .signal, events => plan.Asking source pass .signal events
  | .provenance, events => ∃ first second, events = first ++ second ∧
      plan.Found source pass .signal first ∧ plan.Asking source pass .provenance second

/-- The lookups of a pass that found both blocks. -/
def Verified (plan : Plan) (source : Source) (pass : Nat) (events : List Event) : Prop :=
  ∃ first second, events = first ++ second ∧
    plan.Found source pass .signal first ∧ plan.Found source pass .provenance second

/-- `Asking` becomes `Found` with the answer of a block that has the expected hash. -/
theorem Asking.found {plan : Plan} {source : Source} {pass : Nat} {stage : Stage}
    {events : List Event} (h : plan.Asking source pass stage events) {block : Value}
    (hhash : (block.field "hash").text? = some (plan.expected stage).hash) :
    plan.Found source pass stage
      (events ++ [.answered pass (plan.expected stage).number (.block block)]) := by
  obtain ⟨height, haddress, rfl⟩ := h
  exact ⟨height, block, haddress, hhash, rfl⟩

/-- `check` is canonical for a block with the expected hash and a pass that is not cancelled,
only. -/
theorem check_eq_canonical {plan : Plan} {stage : Stage} {reply : Reply}
    {cancelled? : Option Value} (h : plan.check stage reply cancelled? = .canonical) :
    cancelled? = none ∧ ∃ block, reply = .block block ∧
      (block.field "hash").text? = some (plan.expected stage).hash := by
  cases reply with
  | failure reason => exact nomatch h
  | block found =>
    -- a cancellation comes before any hash
    cases cancelled? with
    | some reason => exact nomatch h
    | none =>
      refine ⟨rfl, found, rfl, ?_⟩
      simp only [check, compare] at h
      -- nothing found, the hash that is expected, or another one
      split at h
      · exact nomatch h
      · split at h
        · assumption
        · split at h <;> exact nomatch h

end Plan

/-! ## Legs -/

namespace Session

/-- The session with the pass waiting for a lookup. -/
def await (s : Session) (pass : Pass) (plan : Plan) (stage : Stage) (height : Number) : Session :=
  { s with
    node := s.node.hold s.tickets height
    tickets := s.tickets + 1
    flight? := some { pass, plan, stage, ticket := s.tickets } }

/-- The session and the events after one leg of a pass: it waits, ends or commits. `begun` is that
the leg began with the lookups that belong there. -/
inductive Leg (pass : Pass) (plan : Plan) (begun : Prop) (s : Session) (made : List Event) :
    Progress → Prop
  /-- The pass waits for a lookup. -/
  | waits {stage : Stage} {height : Number} {events : List Event}
      (lookups : begun → plan.Inquired s.source pass.number stage
        (made ++ Event.lookups pass.number events))
      (commitments : Event.commitments events = []) (heads : Event.heads events = []) :
      Leg pass plan begun s made (s.await pass plan stage height, events)
  /-- The pass ends and commits nothing. -/
  | ends {events : List Event}
      (commitments : Event.commitments events = []) (heads : Event.heads events = []) :
      Leg pass plan begun s made ({ s with flight? := none }, events)
  /-- The pass commits its candidate and ends. -/
  | commits {events after : List Event}
      (lookups : begun → plan.Verified s.source pass.number
        (made ++ Event.lookups pass.number events))
      (generation : s.tracker.generation = plan.generation)
      (higher : ¬plan.candidate.number ≤ s.engine.head.number)
      (commitments : Event.commitments events = []) (heads : Event.heads events = [])
      (quiet : Event.Quiet after) :
      Leg pass plan begun s made
        ({ s with engine := s.engine.commit plan.candidate, flight? := none },
          events ++ .committed pass.number plan.candidate :: after)

variable {s : Session} {pass : Pass} {plan : Plan} {begun : Prop} {made : List Event}
  {p : Progress}

/-- `Leg` preserves the tracker, the source, the line and the calls. -/
theorem Leg.kept (h : Leg pass plan begun s made p) :
    p.1.tracker = s.tracker ∧ p.1.source = s.source ∧ p.1.waiting = s.waiting ∧
    p.1.called = s.called := by
  cases h <;> exact ⟨rfl, rfl, rfl, rfl⟩

/-- `Leg` extends the history of the engine by the `heads` of its events. -/
theorem Leg.history_eq (h : Leg pass plan begun s made p) :
    p.1.engine.history = s.engine.history ++ Event.heads p.2 := by
  cases h with
  | waits lookups commitments heads =>
    show s.engine.history = s.engine.history ++ _
    rw [heads, List.append_nil]
  | ends commitments heads =>
    show s.engine.history = s.engine.history ++ _
    rw [heads, List.append_nil]
  | commits lookups generation higher commitments heads quiet =>
    -- the candidate is the one head that is new
    rw [Event.heads_append, heads, List.nil_append, Event.heads_committed, quiet.2.1]
    rfl

/-- `Leg` extends to the front, by events in which nothing was committed. -/
theorem Leg.after {events : List Event}
    (h : Leg pass plan begun s (made ++ Event.lookups pass.number events) p)
    (hc : Event.commitments events = []) (hh : Event.heads events = []) :
    Leg pass plan begun s made (.after events p) := by
  -- events before a leg that commit nothing only add to its lookups
  cases h with
  | waits lookups commitments heads =>
    refine .waits ?_ ?_ ?_
    · rwa [Event.lookups_append, ← List.append_assoc]
    · rw [Event.commitments_append, hc, commitments, List.append_nil]
    · rw [Event.heads_append, hh, heads, List.append_nil]
  | ends commitments heads =>
    refine .ends ?_ ?_
    · rw [Event.commitments_append, hc, commitments, List.append_nil]
    · rw [Event.heads_append, hh, heads, List.append_nil]
  | commits lookups generation higher commitments heads quiet =>
    rw [Progress.after, ← List.append_assoc]
    refine .commits ?_ generation higher ?_ ?_ quiet
    · rwa [Event.lookups_append, ← List.append_assoc]
    · rw [Event.commitments_append, hc, commitments, List.append_nil]
    · rw [Event.heads_append, hh, heads, List.append_nil]

/-- `logged` changes no ending that has nothing to say. -/
theorem logged_of_endNotices {ending : Ending}
    (h : pass.endNotices ending = []) (s : Session) : s.logged pass ending = ending := by
  unfold logged
  rw [h]
  cases s.log? <;> rfl

theorem quiet_close (s : Session) (pass : Pass) (ending : Ending) :
    Event.Quiet (s.close pass ending).2 :=
  (Event.quiet_noted _).append ⟨rfl, rfl, fun _ => rfl⟩

theorem close_leg (ending : Ending) : Leg pass plan begun s made (s.close pass ending) :=
  have hquiet := quiet_close s pass ending
  .ends hquiet.1 hquiet.2.1

/-- The cases of `commit`, each with what leads to it. -/
inductive Settles (s : Session) (pass : Pass) (plan : Plan) : Progress → Prop
  /-- A reset has overtaken the plan. -/
  | discards (overtaken : s.tracker.generation ≠ plan.generation) :
      Settles s pass plan (.after [.noted (.discarded plan.candidate.toBlockId)]
        (s.close pass (.judged .ok)))
  /-- The engine is as far as the candidate. -/
  | reached (current : s.tracker.generation = plan.generation)
      (reached : plan.candidate.number ≤ s.engine.head.number) :
      Settles s pass plan (s.close pass (.judged .ok))
  /-- The engine refuses the candidate. -/
  | refused {reason : Value} (current : s.tracker.generation = plan.generation)
      (higher : ¬plan.candidate.number ≤ s.engine.head.number)
      (refusal : s.refusal? = some reason) :
      Settles s pass plan (s.close pass (.raised reason))
  /-- The engine takes the candidate. -/
  | takes (current : s.tracker.generation = plan.generation)
      (higher : ¬plan.candidate.number ≤ s.engine.head.number) (refusal : s.refusal? = none) :
      Settles s pass plan (.after [.committed pass.number plan.candidate,
          .noted (.finalized plan.candidate.toBlockId plan.derivedFrom plan.signal.toBlockId)]
        ({ s with engine := s.engine.commit plan.candidate }.close pass (.judged .ok)))

/-- `commit` is one of its cases. -/
theorem commit_settles (s : Session) (pass : Pass) (plan : Plan) :
    Settles s pass plan (s.commit pass plan) := by
  unfold commit
  split
  · rename_i overtaken
    exact .discards overtaken
  · rename_i hcurrent
    have current : s.tracker.generation = plan.generation := Decidable.not_not.mp hcurrent
    split
    · rename_i reached
      exact .reached current reached
    · rename_i higher
      split
      · rename_i refusal
        exact .refused current higher refusal
      · rename_i refusal
        exact .takes current higher refusal

/-- `commit` is a `Leg` of a pass with both blocks `Verified`. -/
theorem commit_leg (h : begun → plan.Verified s.source pass.number made) :
    Leg pass plan begun s made (s.commit pass plan) := by
  have hsettles := commit_settles s pass plan
  generalize s.commit pass plan = p at hsettles ⊢
  cases hsettles with
  | discards overtaken => exact (close_leg _).after rfl rfl
  | reached current reached => exact close_leg _
  | refused current higher refusal => exact close_leg _
  | takes current higher refusal =>
    have hquiet : Event.Quiet (.noted (.finalized plan.candidate.toBlockId plan.derivedFrom
        plan.signal.toBlockId) :: (s.close pass (.judged .ok)).2) :=
      @Event.Quiet.append [_] _ ⟨rfl, rfl, fun _ => rfl⟩ (quiet_close ..)
    have hlookups : begun → plan.Verified s.source pass.number
        (made ++ Event.lookups pass.number []) := by
      rwa [Event.lookups_nil, List.append_nil]
    exact .commits hlookups current higher rfl rfl hquiet

/-- `answer` is a `Leg` if what follows a block with the expected hash is one. -/
theorem answer_leg {stage : Stage} {reply : Reply} {passed : Session → Progress}
    (h : ∀ block, reply = .block block →
      (block.field "hash").text? = some (plan.expected stage).hash →
      Leg pass plan begun s
        (made ++ [.answered pass.number (plan.expected stage).number (.block block)]) (passed s)) :
    Leg pass plan begun s made (s.answer pass plan stage reply passed) := by
  unfold answer
  refine Leg.after ?_ rfl rfl
  have hlookup : Event.lookups pass.number
      [.answered pass.number (plan.expected stage).number reply]
        = [.answered pass.number (plan.expected stage).number reply] := by
    simp [Event.lookups, Event.isLookupOf]
  rw [hlookup]
  -- what is not canonical ends the pass, whether it is blocked or broken
  split
  · rename_i hcanonical
    obtain ⟨-, block, rfl, hhash⟩ := Plan.check_eq_canonical hcanonical
    exact h block rfl hhash
  · exact close_leg _
  · exact close_leg _

/-- `consult` is a `Leg` if what follows any reply is one. -/
theorem consult_leg {stage : Stage} {goOn : Session → Reply → Progress}
    (hwait : begun → ∀ events, plan.Asking s.source pass.number stage events →
      plan.Inquired s.source pass.number stage (made ++ events))
    (hfailed : ∀ reason, Leg pass plan begun s made (goOn s (.failure reason)))
    (hreplied : ∀ reply events, plan.Asking s.source pass.number stage events →
      Leg pass plan begun s (made ++ events) (goOn s reply)) :
    Leg pass plan begun s made (s.consult pass plan stage goOn) := by
  unfold consult
  -- cancelled before it has asked: the pass ends here
  cases hreason : s.reason? pass with
  | some reason => exact close_leg _
  | none =>
    unfold ask
    dsimp only
    cases haddress : s.source.address (plan.expected stage).number with
    | error fault =>
      -- nothing was asked for
      refine Leg.after ?_ rfl rfl
      rw [Event.lookups_nil, List.append_nil]
      exact hfailed _
    | ok height =>
      have hasking : plan.Asking s.source pass.number stage [.asked pass.number height] :=
        ⟨height, haddress, rfl⟩
      have hlookup : Event.lookups pass.number [.asked pass.number height]
          = [.asked pass.number height] := by simp [Event.lookups, Event.isLookupOf]
      dsimp only
      cases himmediate : s.node.immediate? height with
      | some reply =>
        refine Leg.after ?_ rfl rfl
        rw [hlookup]
        exact hreplied _ _ hasking
      | none =>
        refine .waits (fun hbegun => ?_) rfl rfl
        rw [hlookup]
        exact hwait hbegun _ hasking

/-- `answerProvenance` is a `Leg` of a pass with its second lookup `Inquired`. -/
theorem answerProvenance_leg {reply : Reply}
    (h : ∀ block, reply = .block block → begun →
      plan.Inquired s.source pass.number .provenance made) :
    Leg pass plan begun s made (s.answerProvenance pass plan reply) := by
  refine answer_leg fun block hreply hhash => commit_leg fun hbegun => ?_
  obtain ⟨first, second, rfl, hfirst, hsecond⟩ := h block hreply hbegun
  exact ⟨first, _, List.append_assoc .., hfirst, hsecond.found hhash⟩

/-- `checkProvenance` is a `Leg` of a pass with the signal `Found`. -/
theorem checkProvenance_leg (h : begun → plan.Found s.source pass.number .signal made) :
    Leg pass plan begun s made (s.checkProvenance pass plan) := by
  refine consult_leg (fun hbegun events hasking => ⟨made, events, rfl, h hbegun, hasking⟩) ?_ ?_
  · exact fun reason => answerProvenance_leg fun _ hreply => nomatch hreply
  · exact fun reply events hasking =>
      answerProvenance_leg fun _ _ hbegun => ⟨made, events, rfl, h hbegun, hasking⟩

/-- `answerSignal` is a `Leg` of a pass with its first lookup `Inquired`. -/
theorem answerSignal_leg {reply : Reply}
    (h : ∀ block, reply = .block block → begun →
      plan.Inquired s.source pass.number .signal made) :
    Leg pass plan begun s made (s.answerSignal pass plan reply) :=
  answer_leg fun block hreply hhash =>
    checkProvenance_leg fun hbegun => (h block hreply hbegun).found hhash

/-- `checkSignal` is a `Leg` from no lookups. -/
theorem checkSignal_leg (s : Session) (pass : Pass) (plan : Plan) :
    Leg pass plan True s [] (s.checkSignal pass plan) := by
  refine consult_leg (fun _ events hasking => hasking) ?_ ?_
  · exact fun reason => answerSignal_leg fun _ hreply => nomatch hreply
  · exact fun reply events hasking => answerSignal_leg fun _ _ _ => hasking

/-! ## Starting and going on -/

/-- The session and the events behind `opening`, where `check` is what the pass does with a plan. -/
def proceed (s : Session) (pass : Pass) (check : Plan → Progress) : Intake → Progress
  | .outdated => s.close pass .outdated
  | .skipped => s.close pass .skipped
  | .due =>
    match s.tracker.plan? s.engine.head with
    | some plan => check plan
    | none => s.close pass (.judged .ok)

/-- The session after the trigger of a pass was taken in. -/
def took (s : Session) (pass : Pass) : Session :=
  { s with tracker := (s.tracker.intake pass.trigger).1 }

/-- The events of a pass as it starts: its trigger is taken in. -/
def opening (s : Session) (pass : Pass) : List Event :=
  let intake := (s.tracker.intake pass.trigger).2
  .started pass intake :: (s.tracker.intakeNotices pass.trigger intake).map .noted

/-- `start` is `opening` and then `proceed`. -/
theorem start_eq (s : Session) (pass : Pass) :
    s.start pass = .after (s.opening pass)
      ((s.took pass).proceed pass ((s.took pass).checkSignal pass)
        (s.tracker.intake pass.trigger).2) := rfl

theorem quiet_opening (s : Session) (pass : Pass) : Event.Quiet (s.opening pass) :=
  @Event.Quiet.append [_] _ ⟨rfl, rfl, fun _ => rfl⟩ (Event.quiet_noted _)

/-- `proceed` ends the pass, or goes on with its plan. -/
theorem proceed_cases (s : Session) (pass : Pass) (check : Plan → Progress) (intake : Intake) :
    (∃ ending, s.proceed pass check intake = s.close pass ending) ∨
    ∃ plan, intake = .due ∧ s.tracker.plan? s.engine.head = some plan ∧
      s.proceed pass check intake = check plan := by
  cases intake with
  | outdated => exact .inl ⟨_, rfl⟩
  | skipped => exact .inl ⟨_, rfl⟩
  | due =>
    cases hplan : s.tracker.plan? s.engine.head with
    | none => exact .inl ⟨.judged .ok, by simp only [proceed, hplan]⟩
    | some plan => exact .inr ⟨plan, rfl, rfl, by simp only [proceed, hplan]⟩

/-- `resume` is a `Leg` from the lookups that the pass waits with. -/
theorem resume_leg (s : Session) (flight : Flight) (reply : Reply) (made : List Event) :
    Leg flight.pass flight.plan
      (flight.plan.Inquired s.source flight.pass.number flight.stage made)
      { s with flight? := none } made (s.resume flight reply) := by
  unfold resume
  cases hstage : flight.stage with
  | signal => exact answerSignal_leg fun _ _ => id
  | provenance => exact answerProvenance_leg fun _ _ => id

end Session

end Settlement
