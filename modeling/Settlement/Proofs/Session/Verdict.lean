import Settlement.Proofs.Acceptance
import Settlement.Proofs.Session.Turn

/-!
# Verdicts

Why a pass ends the way it does. A pass with a plan that ends has grounds for it (`Grounds`): it is
done, the engine refused, or a check was not passed, and then there is the reply that decided it.
How a pass goes on after a reply can be told from the reply alone.

## Key results

- `grounds_of_ended`: a pass that ends has grounds for it
- `heard_of_answered`: a reply that does not pass its check decides how the pass ends
- `prompt_of_asked`: a pass that asks hears what the node answers at once
-/

namespace Settlement

namespace Event

/-- `isLookupOf` holds of what the pass `asked`. -/
theorem isLookupOf_asked (number : Nat) (height : Number) :
    (asked number height).isLookupOf number = true := beq_self_eq_true number

/-- `isLookupOf` holds of what the pass was `answered`. -/
theorem isLookupOf_answered (number : Nat) (asked : Number) (reply : Reply) :
    (answered number asked reply).isLookupOf number = true := beq_self_eq_true number

/-- Events without `lookups` have no event with `isLookupOf`. -/
theorem not_mem_of_lookups {events : List Event} {e : Event} {number : Nat}
    (h : lookups number events = []) (he : e.isLookupOf number = true) : e ∉ events := by
  intro hmem
  have hlookup : e ∈ lookups number events := List.mem_filter.mpr ⟨hmem, he⟩
  rw [h] at hlookup
  exact List.not_mem_nil hlookup

/-- Events with `isOpening` have no other event. -/
theorem not_mem_of_isOpening {events : List Event} (h : ∀ e ∈ events, e.isOpening = true)
    {e : Event} (he : e.isOpening = false) : e ∉ events := fun hmem => nomatch he ▸ h e hmem

/-- `commitments` are none among events with `isOpening`. -/
theorem commitments_of_isOpening {events : List Event} (h : ∀ e ∈ events, e.isOpening = true) :
    commitments events = [] := by
  refine List.filterMap_eq_nil_iff.mpr fun e he => ?_
  have hopening := h e he
  cases e <;> first | rfl | exact nomatch hopening

/-- No lookup is `answered` with a failure. -/
def Unfailing (events : List Event) : Prop :=
  ∀ number asked given, answered number asked (.failure given) ∉ events

/-- `Unfailing` holds of events with `isOpening`. -/
theorem unfailing_of_isOpening {events : List Event} (h : ∀ e ∈ events, e.isOpening = true) :
    Unfailing events := fun _ _ _ => not_mem_of_isOpening h rfl

theorem Unfailing.append {xs ys : List Event} (hx : Unfailing xs) (hy : Unfailing ys) :
    Unfailing (xs ++ ys) := fun number asked given hmem =>
  (List.mem_append.mp hmem).elim (hx number asked given) (hy number asked given)

end Event

namespace Session

variable {s : Session} {pass other : Pass} {plan : Plan} {p : Progress} {events : List Event}
  {number : Nat} {asked height : Number} {reply : Reply} {ending : Ending}

/-! ## Lookups in a turn -/

/-- `commit` looks nothing up. -/
theorem lookups_commit (s : Session) (pass : Pass) (plan : Plan) (number : Nat) :
    Event.lookups number (s.commit pass plan).2 = [] := by
  rcases commit_cases s pass plan with ⟨notices, heq⟩ | ⟨reason, -, heq⟩ | ⟨notice, heq⟩
  · rw [heq]
    exact ((Event.quiet_noted notices).append (quiet_close _ _ _)).2.2 number
  · rw [heq]
    exact (quiet_close _ _ _).2.2 number
  · rw [heq]
    exact (quiet_close _ _ _).2.2 number

/-- `close` looks nothing up. -/
theorem not_mem_close {e : Event} (he : e.isLookupOf number = true) (s : Session) (pass : Pass)
    (ending : Ending) : e ∉ (s.close pass ending).2 :=
  Event.not_mem_of_lookups ((quiet_close s pass ending).2.2 number) he

/-- `close` is `Unfailing`. -/
theorem unfailing_close (s : Session) (pass : Pass) (ending : Ending) :
    Event.Unfailing (s.close pass ending).2 := fun number asked given =>
  not_mem_close (Event.isLookupOf_answered number asked (.failure given)) s pass ending

/-- `commit` has no event with `isLookupOf`. -/
theorem not_mem_commit {e : Event} (he : e.isLookupOf number = true) (s : Session) (pass : Pass)
    (plan : Plan) : e ∉ (s.commit pass plan).2 :=
  Event.not_mem_of_lookups (lookups_commit s pass plan number) he

namespace Hears

variable {stage : Stage} {heard : List Event}

/-- `Hears` is of a reply that the source `Delivers`. -/
theorem delivers (h : Hears s pass plan stage reply heard) :
    s.source.Delivers (plan.expected stage).number reply := by
  cases h with
  | given delivers => exact delivers
  | asked free address immediate delivered => exact ⟨_, delivered⟩

/-- `Hears` has one answer. -/
theorem answered_mem_iff (h : Hears s pass plan stage reply heard) {reply' : Reply} :
    .answered number asked reply' ∈ heard ↔
      number = pass.number ∧ asked = (plan.expected stage).number ∧ reply' = reply := by
  cases h <;> simp

theorem not_ended (h : Hears s pass plan stage reply heard) : .ended other ending ∉ heard := by
  cases h <;> simp

theorem commitments_eq (h : Hears s pass plan stage reply heard) :
    Event.commitments heard = [] := by
  cases h <;> rfl

/-- `Hears` is `Unfailing` where the reply passes its check. -/
theorem unfailing (h : Hears s pass plan stage reply heard)
    (check : plan.check stage reply (s.reason? pass) = .canonical) : Event.Unfailing heard := by
  intro number asked given hmem
  obtain ⟨-, -, rfl⟩ := h.answered_mem_iff.mp hmem
  exact nomatch check

/-- `Hears` has the answer that the node gives at once to what is `asked`. -/
theorem prompt (h : Hears s pass plan stage reply heard) (hmem : .asked number height ∈ heard) :
    number = pass.number ∧ s.source.address (plan.expected stage).number = .ok height ∧
    ∀ raw, s.node.immediate? height = some raw →
      .answered number (plan.expected stage).number
        (s.source.deliver (plan.expected stage).number raw) ∈ heard := by
  cases h with
  | given delivers => simp at hmem
  | @asked height' raw free address immediate delivered =>
    obtain ⟨rfl, rfl⟩ : number = pass.number ∧ height = height' := by simpa using hmem
    refine ⟨rfl, address, fun raw' hraw => ?_⟩
    obtain rfl := Option.some.inj (immediate.symm.trans hraw)
    simp [delivered]

end Hears

/-- A `Turn` with a reply that blocks its check `Fails` with that obstacle and has committed
nothing. -/
theorem Turn.heard (h : Turn s pass plan p) (hmem : .answered number asked reply ∈ p.2) :
    number = pass.number ∧ ∃ stage, asked = (plan.expected stage).number ∧
      s.source.Delivers asked reply ∧
      ∀ obstacle, plan.check stage reply (s.reason? pass) = .blocked obstacle →
        s.Fails pass obstacle.failure p.2 ∧ Event.commitments p.2 = [] ∧
          p.1.flight? = none := by
  have he := Event.isLookupOf_answered number asked reply
  -- an answer is heard at one of the stages, and what comes after it ends the pass or goes on
  -- induction on the turn, whose first check decides or leaves it to the rest
  induction h with
  | waits free address held => simp at hmem
  | cancelled cancelled => exact absurd hmem (not_mem_close he _ _ _)
  | @blocked stage reply' heard obstacle hears check =>
    obtain ⟨rfl, rfl, rfl⟩ := hears.answered_mem_iff.mp
      ((List.mem_append.mp hmem).resolve_right (not_mem_close he _ _ _))
    refine ⟨rfl, stage, rfl, hears.delivers, fun obstacle' hblocked => ?_⟩
    obtain rfl := Check.blocked.inj (check.symm.trans hblocked)
    refine ⟨(fails_fail s pass obstacle).prepend heard, ?_, rfl⟩
    rw [Progress.snd_after, Event.commitments_append, hears.commitments_eq]
    exact (quiet_close _ _ _).1
  | @broken stage reply' heard fault hears check =>
    obtain ⟨rfl, rfl, rfl⟩ := hears.answered_mem_iff.mp
      ((List.mem_append.mp hmem).resolve_right (not_mem_close he _ _ _))
    exact ⟨rfl, stage, rfl, hears.delivers, fun obstacle hblocked =>
      nomatch check.symm.trans hblocked⟩
  | @passes stage reply' heard p hears check rest ih =>
    rcases List.mem_append.mp hmem with hmem | hmem
    · obtain ⟨rfl, rfl, rfl⟩ := hears.answered_mem_iff.mp hmem
      exact ⟨rfl, stage, rfl, hears.delivers, fun obstacle hblocked =>
        nomatch check.symm.trans hblocked⟩
    · obtain ⟨rfl, stage', rfl, hdelivers, hblocks⟩ := ih hmem
      refine ⟨rfl, stage', rfl, hdelivers, fun obstacle hblocked => ?_⟩
      obtain ⟨hfails, hnone, hlanded⟩ := hblocks obstacle hblocked
      refine ⟨hfails.prepend heard, ?_, hlanded⟩
      rw [Progress.snd_after, Event.commitments_append, hears.commitments_eq, hnone]
      rfl
  | @commits stage reply' heard hears check =>
    obtain ⟨rfl, rfl, rfl⟩ := hears.answered_mem_iff.mp
      ((List.mem_append.mp hmem).resolve_right (not_mem_commit he _ _ _))
    exact ⟨rfl, stage, rfl, hears.delivers, fun obstacle hblocked =>
      nomatch check.symm.trans hblocked⟩

/-- A `Turn` has the answer that the node gives at once to what is `asked`. -/
theorem Turn.prompt (h : Turn s pass plan p) (hmem : .asked number height ∈ p.2) :
    number = pass.number ∧ ∃ stage, s.source.address (plan.expected stage).number = .ok height ∧
      ∀ raw, s.node.immediate? height = some raw →
        .answered number (plan.expected stage).number
          (s.source.deliver (plan.expected stage).number raw) ∈ p.2 := by
  have he := Event.isLookupOf_asked number height
  -- whatever is asked for is asked for in one of the stages
  have hfirst : ∀ {stage reply heard} {q : Progress}, Hears s pass plan stage reply heard →
      .asked number height ∈ heard →
      number = pass.number ∧ ∃ stage, s.source.address (plan.expected stage).number = .ok height ∧
        ∀ raw, s.node.immediate? height = some raw →
          .answered number (plan.expected stage).number
            (s.source.deliver (plan.expected stage).number raw) ∈ (Progress.after heard q).2 := by
    intro stage reply heard q hears hmem
    obtain ⟨hnumber, haddress, hprompt⟩ := hears.prompt hmem
    exact ⟨hnumber, stage, haddress, fun raw hraw => List.mem_append_left _ (hprompt raw hraw)⟩
  induction h with
  | @waits stage height' free address held =>
    obtain ⟨rfl, rfl⟩ : number = pass.number ∧ height = height' := by simpa using hmem
    exact ⟨rfl, stage, address, fun raw hraw => nomatch held.symm.trans hraw⟩
  | cancelled cancelled => exact absurd hmem (not_mem_close he _ _ _)
  | blocked hears check =>
    exact hfirst hears ((List.mem_append.mp hmem).resolve_right (not_mem_close he _ _ _))
  | broken hears check =>
    exact hfirst hears ((List.mem_append.mp hmem).resolve_right (not_mem_close he _ _ _))
  | passes hears check rest ih =>
    rcases List.mem_append.mp hmem with hmem | hmem
    · exact hfirst hears hmem
    · obtain ⟨hnumber, stage, haddress, hprompt⟩ := ih hmem
      exact ⟨hnumber, stage, haddress, fun raw hraw => List.mem_append_right _ (hprompt raw hraw)⟩
  | commits hears check =>
    exact hfirst hears ((List.mem_append.mp hmem).resolve_right (not_mem_commit he _ _ _))

/-! ## Grounds -/

/-- Why a pass with a plan ends this way, before the log is told. -/
inductive Grounds (s : Session) (pass : Pass) (plan : Plan) (events : List Event) : Ending → Prop
  /-- The pass is done. -/
  | done : Grounds s pass plan events (.judged .ok)
  | refused {reason : Value} (refuses : s.Refuses plan reason) :
      Grounds s pass plan events (.raised reason)
  | cancelled {stage : Stage} {reason : Value} (cancelled : s.reason? pass = some reason)
      (unheard : Event.Unfailing events) :
      Grounds s pass plan events (.judged (.failed (plan.unreached stage reason).failure))
  | blocked {stage : Stage} {reply : Reply} {obstacle : Obstacle}
      (answered : .answered pass.number (plan.expected stage).number reply ∈ events)
      (last : ∀ number asked given,
        .answered number asked (.failure given) ∈ events → reply = .failure given)
      (delivers : s.source.Delivers (plan.expected stage).number reply)
      (check : plan.check stage reply (s.reason? pass) = .blocked obstacle) :
      Grounds s pass plan events (.judged (.failed obstacle.failure))
  | broken {stage : Stage} {reply : Reply} {fault : Fault}
      (answered : .answered pass.number (plan.expected stage).number reply ∈ events)
      (delivers : s.source.Delivers (plan.expected stage).number reply)
      (check : plan.check stage reply (s.reason? pass) = .broken fault) :
      Grounds s pass plan events (.raised (.fault fault))

/-- `Grounds` extend to the front by events that are `Unfailing`. -/
theorem Grounds.prepend (h : Grounds s pass plan events ending) {before : List Event}
    (hbefore : Event.Unfailing before) : Grounds s pass plan (before ++ events) ending := by
  -- the grounds are in what happened later
  cases h with
  | done => exact .done
  | refused refuses => exact .refused refuses
  | cancelled cancelled unheard => exact .cancelled cancelled (hbefore.append unheard)
  | blocked answered last delivers check =>
    refine .blocked (List.mem_append_right _ answered) (fun number asked given hmem => ?_) delivers
      check
    exact last number asked given
      ((List.mem_append.mp hmem).resolve_left (hbefore number asked given))
  | broken answered delivers check =>
    exact .broken (List.mem_append_right _ answered) delivers check

/-- `Grounds` are the same in sessions that are `Alike`. -/
theorem Grounds.of_alike {t : Session} (halike : Alike pass s t)
    (h : Grounds t pass plan events ending) : Grounds s pass plan events ending := by
  -- the grounds rest on what both sessions read alike
  cases h with
  | done => exact .done
  | refused refuses =>
    obtain ⟨hrefusal, hcurrent, hhigher⟩ := refuses
    exact .refused ⟨halike.refusal ▸ hrefusal, halike.generation ▸ hcurrent,
      halike.engine ▸ hhigher⟩
  | cancelled cancelled unheard => exact .cancelled (halike.reason ▸ cancelled) unheard
  | blocked answered last delivers check =>
    exact .blocked answered last (halike.source ▸ delivers) (halike.reason ▸ check)
  | broken answered delivers check =>
    exact .broken answered (halike.source ▸ delivers) (halike.reason ▸ check)

/-- What made the block of a stage unreachable: the failure that its lookup was `answered` with, or
the reason of the cancellation where no lookup failed. -/
def Blames (s : Session) (pass : Pass) (plan : Plan) (events : List Event) (stage : Stage)
    (cause : Value) : Prop :=
  .answered pass.number (plan.expected stage).number (.failure cause) ∈ events ∨
    s.reason? pass = some cause ∧ Event.Unfailing events

/-- `Grounds` for a failure are that a block was `unreached`, with the cause that the pass `Blames`,
or that it was `replaced`. -/
theorem Grounds.failure_cases {failure : Failure}
    (h : Grounds s pass plan events (.judged (.failed failure))) :
    (∃ stage cause, s.Blames pass plan events stage cause ∧
      failure = (plan.unreached stage cause).failure) ∨
    ∃ stage actual, failure = (plan.replaced stage actual).failure := by
  cases h with
  | @cancelled stage reason cancelled unheard =>
    exact .inl ⟨stage, reason, .inr ⟨cancelled, unheard⟩, rfl⟩
  | @blocked stage reply obstacle answered last delivers check =>
    cases reply with
    | failure cause =>
      obtain rfl := Check.blocked.inj check
      exact .inl ⟨stage, cause, .inl answered, rfl⟩
    | block found =>
      cases hreason : s.reason? pass with
      | some reason =>
        -- a block counts for nothing once the pass is cancelled
        rw [hreason] at check
        obtain rfl := Check.blocked.inj check
        exact .inl ⟨stage, reason,
          .inr ⟨hreason, fun number asked given hmem => nomatch last number asked given hmem⟩, rfl⟩
      | none =>
        rw [hreason] at check
        obtain ⟨actual, rfl⟩ := Plan.replaced_of_compare check
        exact .inr ⟨stage, actual, rfl⟩

/-- `close` ends its pass as it is `logged`. -/
theorem ended_close {given : Ending} (hmem : .ended other ending ∈ (s.close pass given).2) :
    other = pass ∧ ending = s.logged pass given := by
  rcases mem_close.mp hmem with ⟨notice, -, heq⟩ | heq
  · exact nomatch heq
  · exact Event.ended.inj heq

/-- `commit` gives `Grounds`: the pass is done, or the engine refused and nothing was committed. -/
theorem grounds_of_commit (hmem : .ended other ending ∈ (s.commit pass plan).2) :
    ∃ given, ending = s.logged pass given ∧ Grounds s pass plan events given ∧
      (given ≠ .judged .ok → Event.commitments (s.commit pass plan).2 = []) := by
  -- overtaken or reached, refused, or committed
  rcases commit_cases s pass plan with ⟨notices, heq⟩ | ⟨reason, hrefuses, heq⟩ | ⟨notice, heq⟩
  · rw [heq] at hmem
    rcases List.mem_append.mp hmem with hmem | hmem
    · simp at hmem
    · exact ⟨_, (ended_close hmem).2, .done, fun hne => absurd rfl hne⟩
  · rw [heq] at hmem ⊢
    exact ⟨_, (ended_close hmem).2, .refused hrefuses, fun _ => (quiet_close _ _ _).1⟩
  · rw [heq] at hmem
    rcases List.mem_append.mp hmem with hmem | hmem
    · simp at hmem
    · exact ⟨_, (ended_close hmem).2, .done, fun hne => absurd rfl hne⟩

/-- A `Turn` that ends has `Grounds`, and has committed nothing unless the pass is done. -/
theorem Turn.grounds (h : Turn s pass plan p) (hmem : .ended other ending ∈ p.2) :
    ∃ given, ending = s.logged pass given ∧ Grounds s pass plan p.2 given ∧
      (given ≠ .judged .ok → Event.commitments p.2 = []) := by
  -- what a pass hears is no commitment
  have hafter : ∀ {stage reply heard} {q : Progress}, Hears s pass plan stage reply heard →
      Event.commitments q.2 = [] → Event.commitments (Progress.after heard q).2 = [] := by
    intro stage reply heard q hears hnone
    rw [Progress.snd_after, Event.commitments_append, hears.commitments_eq, hnone]
    rfl
  induction h with
  | waits free address held => simp at hmem
  | cancelled cancelled =>
    exact ⟨_, (ended_close hmem).2, .cancelled cancelled (unfailing_close _ _ _),
      fun _ => (quiet_close _ _ _).1⟩
  | blocked hears check =>
    have hended := (List.mem_append.mp hmem).resolve_left hears.not_ended
    have hanswered := hears.answered_mem_iff.mpr ⟨rfl, rfl, rfl⟩
    refine ⟨_, (ended_close hended).2, .blocked (List.mem_append_left _ hanswered)
      (fun number asked given hfailed => ?_) hears.delivers check,
      fun _ => hafter hears (quiet_close _ _ _).1⟩
    have hheard := (List.mem_append.mp hfailed).resolve_right (unfailing_close _ _ _ _ _ _)
    exact (hears.answered_mem_iff.mp hheard).2.2.symm
  | broken hears check =>
    have hended := (List.mem_append.mp hmem).resolve_left hears.not_ended
    have hanswered := hears.answered_mem_iff.mpr ⟨rfl, rfl, rfl⟩
    exact ⟨_, (ended_close hended).2,
      .broken (List.mem_append_left _ hanswered) hears.delivers check,
      fun _ => hafter hears (quiet_close _ _ _).1⟩
  | passes hears check rest ih =>
    -- the grounds are found in what comes after what was heard here
    obtain ⟨given, hending, hgrounds, hnone⟩ :=
      ih ((List.mem_append.mp hmem).resolve_left hears.not_ended)
    exact ⟨given, hending, hgrounds.prepend (hears.unfailing check),
      fun hne => hafter hears (hnone hne)⟩
  | commits hears check =>
    obtain ⟨given, hending, hgrounds, hnone⟩ :=
      grounds_of_commit ((List.mem_append.mp hmem).resolve_left hears.not_ended)
    exact ⟨given, hending, hgrounds, fun hne => hafter hears (hnone hne)⟩

/-- A `Turn` that ends leaves no pass in flight. -/
theorem Turn.landed (h : Turn s pass plan p) (hmem : .ended other ending ∈ p.2) :
    p.1.flight? = none := by
  induction h with
  | waits free address held => simp at hmem
  | passes hears check rest ih =>
    exact ih ((List.mem_append.mp hmem).resolve_left hears.not_ended)
  | commits hears check => exact flight_commit s pass plan
  | _ => rfl

/-! ## Whoever has the turn -/

/-- A lookup at `advance` is part of a `Turn`. -/
theorem exists_turn_of_lookup (h : Served s) {e : Event} (he : e.isLookupOf number = true)
    (hmem : e ∈ s.advance.2) :
    ∃ pass plan, s.Pursues pass plan ∧ ∃ t opening p, Alike pass s t ∧ t.node = s.node ∧
      Turn t pass plan p ∧ e ∈ p.2 ∧ Event.commitments opening = [] ∧
      s.advance = .after opening p := by
  -- no opening is of a lookup
  have hopening : e.isOpening = false := by cases e <;> first | rfl | exact nomatch he
  have hturned := turned h
  generalize s.advance = q at hmem hturned ⊢
  cases hturned with
  | stays => exact absurd hmem List.not_mem_nil
  | passes flight_eq head_eq plan_eq ends =>
    obtain ⟨-, opens, -⟩ := ends
    have hclose :=
      (List.mem_append.mp hmem).resolve_left (Event.not_mem_of_isOpening opens hopening)
    exact absurd hclose (not_mem_close he _ _ _)
  | @turns pass plan q pursues turn =>
    obtain ⟨alike, node_eq, -, opens, turn⟩ := turn
    exact ⟨pass, plan, pursues, _, _, _, alike, node_eq, turn,
      (List.mem_append.mp hmem).resolve_left (Event.not_mem_of_isOpening opens hopening),
      Event.commitments_of_isOpening opens, rfl⟩

/-- A reply that blocks its check at `advance` decides how the pass `Fails`. -/
theorem heard_of_answered (h : Served s) (hmem : .answered number asked reply ∈ s.advance.2) :
    ∃ pass plan stage, s.Pursues pass plan ∧ number = pass.number ∧
      asked = (plan.expected stage).number ∧ s.source.Delivers asked reply ∧
      ∀ obstacle, plan.check stage reply (s.reason? pass) = .blocked obstacle →
        s.Fails pass obstacle.failure s.advance.2 ∧ Event.commitments s.advance.2 = [] ∧
          s.advance.1.flight? = none := by
  obtain ⟨pass, plan, hpursues, t, opening, p, halike, -, turn, hturn, hopening, heq⟩ :=
    exists_turn_of_lookup h (Event.isLookupOf_answered number asked reply) hmem
  -- what the turn heard, seen from the session before it
  obtain ⟨hnumber, stage, hasked, hdelivers, hblocks⟩ := turn.heard hturn
  refine ⟨pass, plan, stage, hpursues, hnumber, hasked, halike.source ▸ hdelivers,
    fun obstacle hblocked => ?_⟩
  obtain ⟨hfails, hnone, hlanded⟩ := hblocks obstacle (halike.reason.symm ▸ hblocked)
  rw [heq]
  refine ⟨(hfails.of_log halike.log).prepend opening, ?_, hlanded⟩
  rw [Progress.snd_after, Event.commitments_append, hopening, hnone]
  rfl

/-- `advance` has the answer that the node gives at once to what is `asked`. -/
theorem prompt_of_asked (h : Served s) (hmem : .asked number height ∈ s.advance.2) {raw : Reply}
    (hraw : s.node.immediate? height = some raw) :
    ∃ asked, s.source.address asked = .ok height ∧
      .answered number asked (s.source.deliver asked raw) ∈ s.advance.2 := by
  obtain ⟨pass, plan, -, t, opening, p, halike, hnode, turn, hturn, -, heq⟩ :=
    exists_turn_of_lookup h (Event.isLookupOf_asked number height) hmem
  obtain ⟨-, stage, haddress, hprompt⟩ := turn.prompt hturn
  rw [heq, ← halike.source]
  exact ⟨_, haddress, List.mem_append_right _ (hprompt raw (hnode ▸ hraw))⟩

/-- A pass that has `ended` at `advance` has `Grounds`, unless it started without a plan. -/
theorem grounds_of_ended (h : Served s) (hended : .ended pass ending ∈ s.advance.2) :
    (ending = .outdated ∨ ending = .skipped ∨ ending = .judged .ok) ∨
    ∃ plan given, s.Pursues pass plan ∧ ending = s.logged pass given ∧
      Grounds s pass plan s.advance.2 given ∧
      (given ≠ .judged .ok → Event.commitments s.advance.2 = []) := by
  have hturned := turned h
  generalize s.advance = q at hended hturned ⊢
  -- it ended without a plan, or in its turn
  cases hturned with
  | stays => exact absurd hended List.not_mem_nil
  | @passes other q flight_eq head_eq plan_eq ends =>
    obtain ⟨-, opens, ending_eq⟩ := ends
    obtain ⟨-, hending⟩ := ended_close
      ((List.mem_append.mp hended).resolve_left (Event.not_mem_of_isOpening opens rfl))
    rw [logged_of_endNotices (endNotices_eq fun failure heq => by simp [heq] at ending_eq)]
      at hending
    exact .inl (hending ▸ ending_eq)
  | @turns other plan q pursues turn =>
    obtain @⟨t, opening, p, alike, -, -, opens, turn⟩ := turn
    have hturn := (List.mem_append.mp hended).resolve_left (Event.not_mem_of_isOpening opens rfl)
    obtain rfl : pass = other := turn.own _ hturn
    obtain ⟨given, hending, hgrounds, hnone⟩ := turn.grounds hturn
    have hlogged : t.logged pass given = s.logged pass given := by
      rw [logged, logged, alike.log]
    refine .inr ⟨plan, given, pursues, hending.trans hlogged,
      (hgrounds.of_alike alike).prepend (Event.unfailing_of_isOpening opens), fun hne => ?_⟩
    rw [Progress.snd_after, Event.commitments_append, Event.commitments_of_isOpening opens,
      hnone hne]
    rfl

/-- `advance` leaves no pass in flight once one has `ended`. -/
theorem landed_of_ended (h : Served s) (hended : .ended pass ending ∈ s.advance.2) :
    s.advance.1.flight? = none := by
  have hturned := turned h
  generalize s.advance = q at hended hturned ⊢
  -- a turn with an ending leaves nobody in flight
  cases hturned with
  | stays => exact absurd hended List.not_mem_nil
  | passes flight_eq head_eq plan_eq ends =>
    obtain ⟨-, -, -⟩ := ends
    rfl
  | turns pursues turn =>
    obtain ⟨-, -, -, opens, turn⟩ := turn
    exact turn.landed
      ((List.mem_append.mp hended).resolve_left (Event.not_mem_of_isOpening opens rfl))

end Session

end Settlement
