import Settlement.Proofs.Exhaustion
import Settlement.Proofs.Session.Ruling

/-!
# Decisions on passes

A pass that is due ends as decided: by what it finds at its start, by what it comes across at its
checks, and, if it passes both of them, by whether a reset or the engine has overtaken it. Nothing
else that happens in the meantime matters to it.

## Key results

- `commit_decided`: a pass that passed both checks ends and commits as decided
- `pass_decided`: every due pass ends as decided, and has made the lookups that belong to that
- `garbled_breaks`: a block without a text breaks a pass, whatever its hash
-/

namespace Settlement

namespace Session

variable {s t : Session} {pass : Pass} {plan : Plan} {p q : Progress} {during : List Move}
  {given ending : Ending} {blocks : List L2Block} {events : List Event}

/-! ## What is carried out -/

/-- `close` ends the pass as `logged` says. -/
theorem endings_close (s : Session) (pass : Pass) (ending : Ending) :
    Event.endings (s.close pass ending).2 = [(pass, s.logged pass ending)] := by
  show Event.endings (_ ++ [_]) = _
  rw [Event.endings_append, Event.endings_noted]
  rfl

/-- How the caller of a pass learns of an outcome. The caller of a boundary gets just this outcome.
The caller of a signal gets nothing, and a failure is written to the log; a log that cannot write it
raises its fault. -/
structure Reported (s : Session) (pass : Pass) (outcome : Outcome) (events : List Event) :
    Prop where
  boundary : ∀ derivedFrom, pass.trigger = .boundary derivedFrom →
    .ended pass (.judged outcome) ∈ events ∧ pass.report (.judged outcome) = .outcome outcome
  signal : ∀ block, pass.trigger = .signal block →
    .ended pass (.judged outcome) ∈ events ∧ pass.report (.judged outcome) = .done ∧
      (∀ failure, outcome = .failed failure → .noted (.failed failure block.toBlockId) ∈ events) ∨
    ∃ failure threshold fault, outcome = .failed failure ∧ s.log? = some threshold ∧
      Log.noticeLines threshold [.failed failure block.toBlockId] = .error fault ∧
      .ended pass (.raised (.fault fault)) ∈ events

/-- `Reported` holds whatever happened before. -/
theorem Reported.prepend {outcome : Outcome} (h : Reported s pass outcome events)
    (before : List Event) : Reported s pass outcome (before ++ events) := by
  have hlater : ∀ {e : Event}, e ∈ events → e ∈ before ++ events := List.mem_append_right _
  refine ⟨fun derivedFrom htrigger => ?_, fun block htrigger => ?_⟩
  · exact (h.boundary derivedFrom htrigger).imp_left hlater
  · rcases h.signal block htrigger with
      ⟨hended, hdone, hnoted⟩ | ⟨failure, threshold, fault, houtcome, hlog, hlines, hended⟩
    · exact .inl ⟨hlater hended, hdone, fun failure hfailed => hlater (hnoted failure hfailed)⟩
    · exact .inr ⟨failure, threshold, fault, houtcome, hlog, hlines, hlater hended⟩

/-- `close` reports the outcome of its pass. -/
theorem reported_close (s : Session) (pass : Pass) (outcome : Outcome) :
    Reported s pass outcome (s.close pass (.judged outcome)).2 := by
  have hended : .ended pass (s.logged pass (.judged outcome))
      ∈ (s.close pass (.judged outcome)).2 := mem_close.mpr (.inr rfl)
  constructor
  · intro derivedFrom htrigger
    have hsilent : pass.endNotices (.judged outcome) = [] := by simp [Pass.endNotices, htrigger]
    rw [logged_of_endNotices hsilent] at hended
    exact ⟨hended, by simp [Pass.report, htrigger]⟩
  · intro block htrigger
    have hdone : pass.report (.judged outcome) = .done := by simp [Pass.report, htrigger]
    have hnotices : ∀ failure, outcome = .failed failure →
        pass.endNotices (.judged outcome) = [.failed failure block.toBlockId] := by
      rintro failure rfl
      simp [Pass.endNotices, htrigger]
    rcases logged_cases s pass (.judged outcome) with heq | ⟨threshold, fault, hlog, hlines, heq⟩
    · rw [heq] at hended
      refine .inl ⟨hended, hdone, fun failure hfailed => mem_close.mpr (.inl ⟨_, ?_, rfl⟩)⟩
      rw [heq, hnotices failure hfailed]
      exact List.mem_singleton.mpr rfl
    · -- the log has nothing to write of a pass that is done
      cases outcome with
      | ok =>
        rw [logged_ok] at heq
        exact nomatch heq
      | failed failure =>
        rw [hnotices failure rfl] at hlines
        rw [heq] at hended
        exact .inr ⟨failure, threshold, fault, rfl, hlog, hlines, hended⟩

/-- A pass ends in this way and no other, and has committed these blocks. -/
structure Concludes (s : Session) (pass : Pass) (ending : Ending) (blocks : List L2Block)
    (events : List Event) : Prop where
  ends : Event.endings events = [(pass, s.logged pass ending)]
  /-- Whoever rejects does so with just this. -/
  raised : ∀ reason, ending = .raised reason → s.logged pass ending = ending
  reported : ∀ outcome, ending = .judged outcome → Reported s pass outcome events
  commits : Event.commitments events = blocks.map (pass.number, ·)

/-- `close` concludes a pass without a commit. -/
theorem concludes_close (s : Session) (pass : Pass) (ending : Ending) :
    Concludes s pass ending [] (s.close pass ending).2 where
  ends := endings_close s pass ending
  raised := by
    rintro reason rfl
    have hsilent : pass.endNotices (.raised reason) = [] := endNotices_eq fun _ h => nomatch h
    exact logged_of_endNotices hsilent s
  reported := by
    rintro outcome rfl
    exact reported_close s pass outcome
  commits := (quiet_close s pass ending).1

/-- `Concludes` takes events before it in which no pass ended, with what they commit. -/
theorem Concludes.prepend (h : Concludes s pass given blocks events) (before : List Event)
    (committed : List L2Block) (hsilent : Event.endings before = [])
    (hcommitted : Event.commitments before = committed.map (pass.number, ·)) :
    Concludes s pass given (committed ++ blocks) (before ++ events) where
  ends := by rw [Event.endings_append, hsilent, List.nil_append, h.ends]
  raised := h.raised
  reported outcome houtcome := (h.reported outcome houtcome).prepend before
  commits := by rw [Event.commitments_append, hcommitted, h.commits, List.map_append]

/-- `logged` depends on the log alone. -/
theorem logged_congr {u : Session} (hlog : u.log? = s.log?) (pass : Pass) (ending : Ending) :
    u.logged pass ending = s.logged pass ending := by
  unfold logged
  rw [hlog]

/-- `Concludes` depends on the log alone. -/
theorem Concludes.of_log (h : Concludes t pass given blocks events) (hlog : t.log? = s.log?) :
    Concludes s pass given blocks events := by
  have hlogged : t.logged pass given = s.logged pass given := logged_congr hlog pass given
  obtain ⟨hends, hraised, hreported, hcommits⟩ := h
  rw [hlogged] at hends hraised
  refine ⟨hends, hraised, fun outcome houtcome => ?_, hcommits⟩
  obtain ⟨hboundary, hsignal⟩ := hreported outcome houtcome
  rw [hlog] at hsignal
  exact ⟨hboundary, hsignal⟩

/-- `commit` ends and commits as `decision` says of a pass that is `verified`. -/
theorem commit_decided (s : Session) (pass : Pass) (plan : Plan) :
    ∃ ending blocks, plan.decision (s.tracker.generation ≠ plan.generation) s.engine.head
        s.refusal? .verified = some (ending, blocks) ∧
      Concludes s pass ending blocks (s.commit pass plan).2 := by
  have hsettles := commit_settles s pass plan
  generalize s.commit pass plan = p at hsettles ⊢
  unfold Plan.decision
  -- the three cases with nothing committed, and then the commit
  cases hsettles with
  | discards overtaken =>
    rw [if_pos (.inl (decide_eq_true overtaken))]
    exact ⟨_, _, rfl, (concludes_close s pass (.judged .ok)).prepend
      [.noted (.discarded plan.candidate.toBlockId)] [] rfl rfl⟩
  | reached current reached =>
    rw [if_pos (.inr reached)]
    exact ⟨_, _, rfl, concludes_close ..⟩
  | refused current higher refusal =>
    rw [if_neg (by simp [current, higher]), refusal]
    exact ⟨_, _, rfl, concludes_close ..⟩
  | takes current higher refusal =>
    rw [if_neg (by simp [current, higher]), refusal]
    -- the engine has moved, which makes no difference to the log
    have hclosed := concludes_close { s with engine := s.engine.commit plan.candidate } pass
      (.judged .ok)
    have hdone := hclosed.prepend [.committed pass.number plan.candidate, .noted
      (.finalized plan.candidate.toBlockId plan.derivedFrom plan.signal.toBlockId)]
      [plan.candidate] rfl rfl
    exact ⟨_, _, rfl, hdone.of_log rfl⟩

/-- `carryOut?` ends and commits as `decision` says of the ruling. -/
theorem carryOut_decided {ruling : Ruling} (h : s.carryOut? pass plan ruling = some q) :
    ∃ ending blocks, plan.decision (s.tracker.generation ≠ plan.generation) s.engine.head
        s.refusal? ruling = some (ending, blocks) ∧ Concludes s pass ending blocks q.2 := by
  cases ruling with
  | pending stage => exact nomatch h
  | objected stage objection =>
    obtain rfl := Option.some.inj h
    exact ⟨_, _, rfl, concludes_close ..⟩
  | verified =>
    obtain rfl := Option.some.inj h
    exact commit_decided s pass plan

/-- `Abides` leaves a pass waiting where `decision` is none, and otherwise ends it as that says. -/
theorem Abides.decided {ruling : Ruling} (h : Abides s pass plan ruling p) :
    (∃ flight, p.1.flight? = some flight ∧ flight.pass = pass ∧ ruling = .pending flight.stage ∧
      Event.endings p.2 = [] ∧ Event.commitments p.2 = []) ∨
    ∃ ending blocks, plan.decision (s.tracker.generation ≠ plan.generation) s.engine.head
        s.refusal? ruling = some (ending, blocks) ∧ Concludes s pass ending blocks p.2 := by
  cases h with
  | waits flight_eq pass_eq plan_eq rule silent quiet =>
    exact .inl ⟨_, flight_eq, pass_eq, rule, silent, quiet⟩
  | @carriesOut t events q alike rule silent quiet =>
    -- what is carried out is decided in a session that reads alike
    obtain ⟨ending, blocks, hdecision, hconcludes⟩ := carryOut_decided rule
    rw [alike.generation, alike.engine, alike.refusal] at hdecision
    have hdone := hconcludes.prepend _ [] silent quiet
    exact .inr ⟨ending, blocks, hdecision, hdone.of_log alike.log⟩

/-! ## Decided passes -/

/-- A pass that has not ended at some moves ends as decided when the session advances after them, or
goes on waiting as long as nothing is decided. -/
structure Decided (s : Session) (during : List Move) (pass : Pass) (plan : Plan)
    (decision? : Option (Ending × List L2Block)) : Prop where
  /-- It has made the lookups that belong to what it has come across. -/
  lookups : Event.lookups pass.number (s.play (during ++ [.advance])).2
    = plan.inquiry s.source pass.number .signal (s.attempts pass (during ++ [.advance]))
  /-- It has committed nothing before. -/
  before : Event.commitments (s.play during).2 = []
  waits : decision? = none → Event.endings (s.play during).1.advance.2 = [] ∧
    Event.commitments (s.play during).1.advance.2 = [] ∧
    ∃ flight, (s.play during).1.advance.1.flight? = some flight ∧ flight.pass = pass ∧
      plan.rule .signal (s.attempts pass (during ++ [.advance])) = .pending flight.stage
  ends : ∀ ending blocks, decision? = some (ending, blocks) →
    Concludes s pass ending blocks (s.play during).1.advance.2

/-- `play` commits nothing before its only pass ends. -/
theorem commitments_of_goes (hidle : s.flight? = none) (hnext : s.waiting.head? = some pass)
    (hbegins : (during ++ [Move.advance]).head? = some .advance)
    (hgoes : ∀ ending, .ended pass ending ∉ (s.play during).2) :
    Event.commitments (s.play during).2 = [] := by
  cases during with
  | nil => rfl
  | cons first rest =>
    have hfirst : (first :: rest).head? = some .advance := hbegins
    obtain ⟨plan, -, haloft⟩ := aloft_play hidle hnext hfirst hgoes
    exact haloft.commitments

/-- `generation` differs from that of the plan exactly if there was a reset since the start of the
pass. -/
theorem overtaken_iff (hplan : s.planFor? pass = some plan) (during : List Move) :
    (s.play during).1.tracker.generation ≠ plan.generation ↔ during.any Move.isReset = true := by
  obtain ⟨-, hplan⟩ := planFor?_eq_some.mp hplan
  have hgeneration : plan.generation = s.tracker.generation :=
    (Tracker.plan?_eq_some hplan).2.1.trans (Tracker.generation_intake ..)
  have hcount : during.countP Move.isReset = 0 ↔ ¬during.any Move.isReset = true := by
    rw [List.countP_eq_zero, List.any_eq_true]
    simp
  rw [generation_play, hgeneration, Ne, Nat.add_eq_left, hcount, not_not]

/-- `Decided` holds of a pass with a plan: its decision depends on the attempts at its checks, on
resets since its start and on the engine. -/
theorem decided_of_planFor? (hidle : s.flight? = none) (hnext : s.waiting.head? = some pass)
    (hplan : s.planFor? pass = some plan)
    (hbegins : (during ++ [Move.advance]).head? = some .advance)
    (hgoes : ∀ ending, .ended pass ending ∉ (s.play during).2) :
    Decided s during pass plan (plan.decision (during.any Move.isReset)
      (s.play during).1.engine.head (s.play during).1.refusal?
      (plan.rule .signal (s.attempts pass (during ++ [.advance])))) := by
  obtain ⟨habides, hlookups⟩ := obeys_play hidle hnext hplan hbegins hgoes
  have hnothing := commitments_of_goes hidle hnext hbegins hgoes
  have hover : decide ((s.play during).1.tracker.generation ≠ plan.generation)
      = during.any Move.isReset := by
    rw [Bool.eq_iff_iff, decide_eq_true_iff]
    exact overtaken_iff hplan during
  have hdecided := habides.decided
  -- it waits, and nothing is decided, or it has ended as decided
  rw [hover] at hdecided
  refine ⟨hlookups, hnothing, fun hnone => ?_, fun ending blocks hsome => ?_⟩
  · rcases hdecided with ⟨flight, hf, hpass, hrule, hsilent, hquiet⟩ | ⟨ending, blocks, hsome, -⟩
    · exact ⟨hsilent, hquiet, flight, hf, hpass, hrule⟩
    · exact nomatch hnone.symm.trans hsome
  · rcases hdecided with ⟨flight, -, -, hrule, -⟩ | ⟨ending', blocks', hsome', hconcludes⟩
    · rw [hrule] at hsome
      exact nomatch hsome
    · obtain ⟨rfl, rfl⟩ := Prod.mk.inj (Option.some.inj (hsome.symm.trans hsome'))
      exact hconcludes.of_log (log?_play s during)

/-- `Decided` holds of every due pass. If no link at or below its signal is above the head, it is
done at once and looks nothing up, even if it is cancelled. Otherwise the signal is checked, and
after it the block derived from; the two checks, resets since the start and the engine then decide
how the pass ends and what it commits. -/
theorem pass_decided (hidle : s.flight? = none) (hnext : s.waiting.head? = some pass)
    (hdue : (s.tracker.intake pass.trigger).2 = .due)
    (hbegins : (during ++ [Move.advance]).head? = some .advance)
    (hgoes : ∀ ending, .ended pass ending ∉ (s.play during).2) :
    ((∀ link ∈ (s.took pass).tracker.finals, ¬s.engine.head.number < link.l2.number) →
      during = [] ∧ Concludes s pass (.judged .ok) [] s.advance.2 ∧
      Event.lookups pass.number s.advance.2 = []) ∧
    ((∃ link ∈ (s.took pass).tracker.finals, s.engine.head.number < link.l2.number) →
      ∃ plan, (s.took pass).tracker.plan? s.engine.head = some plan ∧
        plan.signal = (s.took pass).tracker.signal ∧
        ⟨plan.candidate, plan.derivedFrom⟩ ∈ (s.took pass).tracker.finals ∧
        s.engine.head.number < plan.candidate.number ∧
        Decided s during pass plan (plan.decision (during.any Move.isReset)
          (s.play during).1.engine.head (s.play during).1.refusal?
          (plan.rule .signal (s.attempts pass (during ++ [.advance]))))) := by
  refine ⟨fun hbelow => ?_, fun habove => ?_⟩
  · have hplan : s.planFor? pass = none := by
      rw [planFor?, if_pos hdue]
      exact Tracker.plan?_eq_none hbelow
    -- a pass that waits has a plan
    have hnil : during = [] := by
      cases during with
      | nil => rfl
      | cons first rest =>
        have hfirst : (first :: rest).head? = some .advance := hbegins
        obtain ⟨plan, hsome, -⟩ := aloft_play hidle hnext hfirst hgoes
        exact absurd (hsome.symm.trans hplan) (Option.some_ne_none _)
    obtain ⟨t, given, -, hadvance, hdone, -⟩ := exists_close_of_planFor?_none hidle hnext hplan
    obtain rfl := hdone hdue
    have hopening := quiet_opening s pass
    rw [hadvance, Progress.snd_after]
    refine ⟨hnil, ?_, ?_⟩
    · rw [close_ok, ← close_ok s]
      exact (concludes_close s pass (.judged .ok)).prepend _ [] (endings_opening s pass)
        hopening.1
    · exact (hopening.append (quiet_close t pass (.judged .ok))).2.2 _
  · cases hplan : (s.took pass).tracker.plan? s.engine.head with
    | none =>
      obtain ⟨link, hlink, hhigher⟩ := habove
      exact absurd hhigher (Tracker.plan?_eq_none_iff.mp hplan link hlink)
    | some plan =>
      obtain ⟨hsignal, -, hlink, hle, hhigher⟩ := Tracker.plan?_eq_some hplan
      exact ⟨plan, rfl, hsignal, Tracker.mem_finals.mpr ⟨hlink, hle⟩, hhigher,
        decided_of_planFor? hidle hnext (planFor?_eq_some.mpr ⟨hdue, hplan⟩) hbegins hgoes⟩

/-- A signal is known, and another block is where the provenance of the only link should be. A pass
is called for at a boundary. -/
def belated : Session :=
  (small.play
    [.act (.call "signal" (.signal (l1At "f" 12)) none),
      .advance,
      .act (.record (l2At 1) (l1At "a" 10).toBlockId),
      .act (.setBlock 12 (l1At "f" 12).toValue),
      .act (.setBlock 10 (l1At "b" 10).toValue),
      .act (.hold true),
      .act (.call "first" (.boundary (l1At "g" 20)) (some "stop"))]).1

/-- The pass waits for both of its lookups. It is cancelled in the moment in which the second one is
answered. -/
def lateness : List Move :=
  [.advance, .act (.release none), .advance, .act .reset, .act (.release none),
    .act (.cancel "stop" (.text "late"))]

/-- `pass_decided` in `belated`: the cancellation counts, and not that the hash is another one. -/
theorem belated_decided :
    ∃ pass, belated.flight? = none ∧ belated.waiting.head? = some pass ∧
      (belated.tracker.intake pass.trigger).2 = .due ∧
      (lateness ++ [Move.advance]).head? = some .advance ∧
      (∀ ending, .ended pass ending ∉ (belated.play lateness).2) ∧
      Concludes belated pass (.judged (.failed {
          kind := .temporary
          message := "failed to check if on finalizing L1 chain, could not fetch block 10"
          cause? := some (.text "late") })) [] (belated.play lateness).1.advance.2 ∧
      Event.lookups pass.number (belated.play (lateness ++ [.advance])).2
        = [.asked 1 12, .answered 1 12 (.block (l1At "f" 12).toValue),
          .asked 1 10, .answered 1 10 (.block (l1At "b" 10).toValue)] := by
  let pass : Pass := ⟨1, "first", .boundary (l1At "g" 20), some "stop"⟩
  -- the pass is still in flight
  have hgoes : ∀ ending, .ended pass ending ∉ (belated.play lateness).2 := by
    intro ending hmem
    have hnone : Event.endings (belated.play lateness).2 = [] := by rfl
    have hended := Event.mem_endings.mpr hmem
    rw [hnone] at hended
    exact List.not_mem_nil hended
  -- and it has the only link to finalize
  have hfinals : (belated.took pass).tracker.finals = [⟨l2At 1, (l1At "a" 10).toBlockId⟩] := by rfl
  obtain ⟨-, hdecides⟩ := @pass_decided belated pass lateness rfl rfl (by rfl) rfl hgoes
  obtain ⟨plan, hplan, -, -, -, hdecided⟩ := hdecides
    ⟨_, hfinals ▸ List.mem_singleton.mpr rfl, by decide⟩
  obtain rfl : plan = ⟨l2At 1, (l1At "a" 10).toBlockId, l1At "f" 12, 0⟩ :=
    Option.some.inj (hplan.symm.trans (by rfl))
  refine ⟨pass, rfl, rfl, by rfl, rfl, hgoes, hdecided.ends _ _ (by rfl), ?_⟩
  exact hdecided.lookups.trans (by rfl)

/-- A block with another hash, and with a height that has no text. -/
def garbledBlock : Value :=
  .record [("hash", .text "x"), ("number", .record [("toString", .number 1)]),
    ("parentHash", .text ""), ("timestamp", .number 0)]

/-- The signal is known, and this block is in its place. -/
def garbled : List Move :=
  [.act (.call "signal" (.signal (l1At "f" 12)) none),
    .advance,
    .act (.record (l2At 1) (l1At "a" 10).toBlockId),
    .act (.setBlock 12 garbledBlock),
    .act (.call "first" (.boundary (l1At "g" 20)) none)]

/-- `decision` need not demand a reset over another hash: a block that cannot be told of breaks the
pass. -/
theorem garbled_breaks :
    small.Fresh ∧ (garbledBlock.field "hash").text? = some "x" ∧
    Event.lookups 1 (small.play garbled).1.advance.2
      = [.asked 1 12, .answered 1 12 (.block garbledBlock)] ∧
    Event.endings (small.play garbled).1.advance.2
      = [(⟨1, "first", .boundary (l1At "g" 20), none⟩, .raised (.fault .noText))] :=
  ⟨fresh_small, by rfl, by rfl, by rfl⟩

end Session

end Settlement
