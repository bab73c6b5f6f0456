import Settlement.Proofs.Session.Cleared

/-!
# Rulings

The ending of a pass can be told from its plan and from what it meets at its checks, the one after
the other: it was cancelled already, or its lookup got a reply (`Attempt`). The ruling
(`Plan.rule`) knows of nothing else. A pass does what is ruled, and makes the lookups that belong
to it (`Plan.inquiry`).

## Key results

- `rule_append`, `inquiry_append`: what is ruled when more is heard
- `resume_ruled`, `checkSignal_ruled`: a pass does what is ruled on what it hears before it waits
- `heeds_play`: a pass in flight has heard what leaves the ruling open
-/

namespace Settlement

/-- What a pass meets at a check. -/
inductive Attempt where
  /-- The pass is cancelled already, and looks nothing up. -/
  | barred (reason : Value)
  /-- The lookup gets a reply. The pass may be cancelled by then. -/
  | heard (reply : Reply) (cancelled? : Option Value)

/-- What a check has against a block. -/
inductive Objection where
  /-- It could not be had. -/
  | unreached (cause : Value)
  /-- It is not on the canonical chain, but this is. -/
  | replaced (actual : String)
  /-- There is no block, or none that can be told of. -/
  | unreadable (fault : Fault)

/-- The ruling on a pass: open, against it, or for it. -/
inductive Ruling where
  /-- The lookup of this stage has no reply yet. -/
  | pending (stage : Stage)
  | objected (stage : Stage) (objection : Objection)
  | verified

namespace Plan

variable {plan : Plan} {source : Source} {number : Nat} {stage stage' : Stage} {reply : Reply}
  {cancelled? : Option Value} {attempts more : List Attempt} {events : List Event}

/-- The objection of one attempt to the block of the stage, if there is one. -/
def objection? (plan : Plan) (stage : Stage) : Attempt → Option Objection
  | .barred reason => some (.unreached reason)
  | .heard (.failure cause) _ => some (.unreached cause)
  -- what is found too late counts for nothing, whatever its hash
  | .heard (.block _) (some reason) => some (.unreached reason)
  | .heard (.block found) none =>
    if found.isNothing then some (.unreadable (.fieldOfNothing found.kind "hash"))
    else if (found.field "hash").text? = some (plan.expected stage).hash then none
    else
      match found.identityText with
      | .ok actual => some (.replaced actual)
      | .error fault => some (.unreadable fault)

/-- The ruling on a pass from the stage on. The block derived from is checked only after that of the
signal. -/
def rule (plan : Plan) : Stage → List Attempt → Ruling
  | stage, [] => .pending stage
  | stage, attempt :: attempts =>
    match plan.objection? stage attempt with
    | some objection => .objected stage objection
    | none =>
      match stage with
      | .signal => plan.rule .provenance attempts
      | .provenance => .verified

/-- The ending of a pass over an objection. -/
def failing (plan : Plan) (stage : Stage) : Objection → Ending
  | .unreached cause => .judged (.failed {
      kind := .temporary
      message := (plan.unreached stage cause).message
      -- to be caused by nothing given is to have no cause
      cause? := match cause with
        | .undefined => none
        | cause => some cause })
  | .replaced actual => .judged (.failed {
      kind := .reset
      message := (plan.replaced stage actual).message })
  | .unreadable fault => .raised (.fault fault)

/-- The ending of a pass on a ruling, and what it commits: its candidate, unless a reset has
overtaken it, the head is not below it, or the engine refuses. -/
def decision (plan : Plan) (overtaken : Bool) (head : L2Block) (refusal? : Option Value) :
    Ruling → Option (Ending × List L2Block)
  | .pending _ => none
  | .objected stage objection => some (plan.failing stage objection, [])
  | .verified =>
    if overtaken ∨ plan.candidate.number ≤ head.number then some (.judged .ok, [])
    else
      match refusal? with
      | none => some (.judged .ok, [plan.candidate])
      | some reason => some (.raised reason, [])

/-- The lookup of the stage. What is no height is not asked for. -/
def question (plan : Plan) (source : Source) (number : Nat) (stage : Stage) : List Event :=
  match source.address (plan.expected stage).number with
  | .ok height => [.asked number height]
  | .error _ => []

/-- The lookups of a pass from the stage on, with their answers. -/
def inquiry (plan : Plan) (source : Source) (number : Nat) : Stage → List Attempt → List Event
  | stage, [] => plan.question source number stage
  | _, .barred _ :: _ => []
  | stage, .heard reply cancelled? :: attempts =>
    plan.question source number stage ++
      .answered number (plan.expected stage).number reply ::
        match plan.objection? stage (.heard reply cancelled?), stage with
        | none, .signal => plan.inquiry source number .provenance attempts
        | _, _ => []

/-! ## Hearing more -/

/-- `rule` is against the pass at its first objection. -/
theorem rule_of_objection {attempt : Attempt} {objection : Objection}
    (h : plan.objection? stage attempt = some objection) (attempts : List Attempt) :
    plan.rule stage (attempt :: attempts) = .objected stage objection := by
  simp only [rule, h]

/-- `rule` goes on to the second stage from a canonical block. -/
theorem rule_of_canonical {attempt : Attempt} (h : plan.objection? .signal attempt = none)
    (attempts : List Attempt) :
    plan.rule .signal (attempt :: attempts) = plan.rule .provenance attempts := by
  simp only [rule, h]

/-- `rule` is for the pass at the second canonical block. -/
theorem rule_provenance_of_canonical {attempt : Attempt}
    (h : plan.objection? .provenance attempt = none) (attempts : List Attempt) :
    plan.rule .provenance (attempt :: attempts) = .verified := by
  simp only [rule, h]

/-- `inquiry` goes on to the second stage from a canonical block. -/
theorem inquiry_of_canonical (h : plan.objection? .signal (.heard reply cancelled?) = none)
    (attempts : List Attempt) :
    plan.inquiry source number .signal (.heard reply cancelled? :: attempts)
      = plan.question source number .signal ++ .answered number plan.signal.number reply ::
        plan.inquiry source number .provenance attempts := by
  simp only [inquiry, h]
  rfl

/-- `inquiry` ends at the first objection. -/
theorem inquiry_of_objection {objection : Objection}
    (h : plan.objection? stage (.heard reply cancelled?) = some objection)
    (attempts : List Attempt) :
    plan.inquiry source number stage (.heard reply cancelled? :: attempts)
      = plan.question source number stage
        ++ [.answered number (plan.expected stage).number reply] := by
  simp only [inquiry, h]

/-- `inquiry` ends with the second answer. -/
theorem inquiry_provenance (attempts : List Attempt) :
    plan.inquiry source number .provenance (.heard reply cancelled? :: attempts)
      = plan.question source number .provenance
        ++ [.answered number plan.derivedFrom.number reply] := by
  cases h : plan.objection? .provenance (.heard reply cancelled?) <;> simp only [inquiry, h] <;> rfl

/-- `rule` is pending at the stage it began with, or at the second one after a canonical block. -/
theorem rule_eq_pending (h : plan.rule stage attempts = .pending stage') :
    attempts = [] ∧ stage' = stage ∨
    ∃ reply cancelled?, attempts = [.heard reply cancelled?] ∧ stage = .signal ∧
      stage' = .provenance ∧ plan.objection? .signal (.heard reply cancelled?) = none := by
  cases attempts with
  | nil => exact .inl ⟨rfl, (Ruling.pending.inj h).symm⟩
  | cons attempt rest =>
    -- with an objection the ruling is not pending
    cases hobjection : plan.objection? stage attempt with
    | some objection =>
      rw [rule_of_objection hobjection] at h
      exact nomatch h
    | none =>
      cases stage with
      | provenance =>
        rw [rule_provenance_of_canonical hobjection] at h
        exact nomatch h
      | signal =>
        rw [rule_of_canonical hobjection] at h
        cases attempt with
        | barred reason => exact nomatch hobjection
        | heard reply cancelled? =>
          -- after a canonical block it is pending unless a second attempt was made
          cases rest with
          | nil =>
            exact .inr ⟨reply, cancelled?, rfl, rfl, (Ruling.pending.inj h).symm, hobjection⟩
          | cons second rest =>
            unfold rule at h
            split at h <;> exact nomatch h

/-- `rule` goes on from the stage that is pending. -/
theorem rule_append (h : plan.rule stage attempts = .pending stage') (more : List Attempt) :
    plan.rule stage (attempts ++ more) = plan.rule stage' more := by
  rcases rule_eq_pending h with ⟨rfl, rfl⟩ | ⟨reply, cancelled?, rfl, rfl, rfl, hcanonical⟩
  · rfl
  · exact rule_of_canonical hcanonical more

/-- `inquiry` goes on from the stage that is pending, whose question has no answer yet. -/
theorem inquiry_append (h : plan.rule stage attempts = .pending stage')
    (hmore : plan.inquiry source number stage' more
      = plan.question source number stage' ++ events) :
    plan.inquiry source number stage (attempts ++ more)
      = plan.inquiry source number stage attempts ++ events := by
  rcases rule_eq_pending h with ⟨rfl, rfl⟩ | ⟨reply, cancelled?, rfl, rfl, rfl, hcanonical⟩
  · exact hmore
  · rw [List.singleton_append, inquiry_of_canonical hcanonical, inquiry_of_canonical hcanonical,
      hmore]
    simp [inquiry]

/-! ## Checks -/

/-- The result of a check with this objection. -/
def raise (plan : Plan) (stage : Stage) : Objection → Check
  | .unreached cause => .blocked (plan.unreached stage cause)
  | .replaced actual => .blocked (plan.replaced stage actual)
  | .unreadable fault => .broken fault

/-- `check` is canonical unless there is an `objection?`. -/
theorem check_eq (plan : Plan) (stage : Stage) (reply : Reply) (cancelled? : Option Value) :
    plan.check stage reply cancelled?
      = (plan.objection? stage (.heard reply cancelled?)).elim .canonical (plan.raise stage) := by
  cases reply with
  | failure cause => rfl
  | block found =>
    cases cancelled? with
    | some reason => rfl
    | none =>
      simp only [check, compare, objection?]
      -- no block, the hash that is expected, or another one
      split
      · rfl
      · split
        · rfl
        · cases found.identityText <;> rfl

end Plan

namespace Session

variable {s : Session} {pass : Pass} {plan : Plan} {stage : Stage} {reply : Reply} {p : Progress}
  {during moves : List Move}

/-- The session and the events of a pass that is ruled on. -/
def carryOut? (s : Session) (pass : Pass) (plan : Plan) : Ruling → Option Progress
  | .pending _ => none
  | .objected stage objection => some (s.close pass (plan.failing stage objection))
  | .verified => some (s.commit pass plan)

/-- The session and the events of a pass that goes on at the stage it asked at: it waits where the
ruling is pending, and carries it out where it is not. -/
inductive Ruled (s : Session) (pass : Pass) (plan : Plan) (stage : Stage) :
    List Attempt → Progress → Prop
  | waits {attempts : List Attempt} {events : List Event} {stage' : Stage} {height : Number}
      (heard : attempts = (Event.answers pass.number events).map (.heard · (s.reason? pass)))
      (lookups : plan.inquiry s.source pass.number stage attempts
        = plan.question s.source pass.number stage ++ events)
      (rule : plan.rule stage attempts = .pending stage') :
      Ruled s pass plan stage attempts (s.await pass plan stage' height, events)
  | carriesOut {attempts : List Attempt} {events : List Event} {q : Progress}
      (heard : attempts = (Event.answers pass.number events).map (.heard · (s.reason? pass)))
      (lookups : plan.inquiry s.source pass.number stage attempts
        = plan.question s.source pass.number stage ++ events)
      (rule : s.carryOut? pass plan (plan.rule stage attempts) = some q) :
      Ruled s pass plan stage attempts (.after events q)

/-- `answers` of one answer are its reply. -/
theorem answers_answered_singleton (pass : Pass) (asked : Number) (reply : Reply) :
    Event.answers pass.number [.answered pass.number asked reply] = [reply] :=
  Event.answers_answered ..

/-- `answer` is `Ruled` if what follows a canonical block is. -/
theorem answer_ruled {passed : Session → Progress}
    (hpassed : plan.objection? stage (.heard reply (s.reason? pass)) = none →
      ∃ attempts, Ruled s pass plan stage attempts
        (.after [.answered pass.number (plan.expected stage).number reply] (passed s))) :
    ∃ attempts, Ruled s pass plan stage attempts (s.answer pass plan stage reply passed) := by
  unfold answer
  rw [Plan.check_eq]
  -- without an objection what follows decides
  cases hobjection : plan.objection? stage (.heard reply (s.reason? pass)) with
  | none => exact hpassed hobjection
  | some objection =>
    refine ⟨[.heard reply (s.reason? pass)], ?_⟩
    -- with one the pass is carried out right here
    have hrule := Plan.rule_of_objection hobjection []
    have hlookups : ∀ source, plan.inquiry source pass.number stage [.heard reply (s.reason? pass)]
        = plan.question source pass.number stage
          ++ [.answered pass.number (plan.expected stage).number reply] :=
      fun source => Plan.inquiry_of_objection hobjection []
    refine .carriesOut ?_ (hlookups _) ?_
    · rw [answers_answered_singleton]
      rfl
    · rw [hrule]
      cases objection with
      | replaced actual => cases stage <;> rfl
      | _ => rfl

/-- `answerProvenance` is `Ruled`. -/
theorem answerProvenance_ruled (s : Session) (pass : Pass) (plan : Plan) (reply : Reply) :
    ∃ attempts, Ruled s pass plan .provenance attempts (s.answerProvenance pass plan reply) := by
  refine answer_ruled fun hcanonical => ⟨[.heard reply (s.reason? pass)], .carriesOut ?_ ?_ ?_⟩
  · rw [answers_answered_singleton]
    rfl
  · exact Plan.inquiry_provenance []
  · rw [Plan.rule_provenance_of_canonical hcanonical]
    rfl

/-- `consult` is `Ruled` behind its question if what follows any reply is. -/
theorem consult_ruled {goOn : Session → Reply → Progress} (hfree : s.reason? pass = none)
    (hgo : ∀ reply, ∃ attempts, Ruled s pass plan stage attempts (goOn s reply)) :
    ∃ attempts p, s.consult pass plan stage goOn
        = .after (plan.question s.source pass.number stage) p ∧
      Ruled s pass plan stage attempts p := by
  unfold consult
  rw [hfree]
  unfold ask Plan.question
  dsimp only
  -- the lookup cannot be addressed, is answered at once, or waits
  cases haddress : s.source.address (plan.expected stage).number with
  | error fault =>
    obtain ⟨attempts, hruled⟩ := hgo (.failure (.fault fault))
    exact ⟨attempts, _, rfl, hruled⟩
  | ok height =>
    dsimp only
    cases himmediate : s.node.immediate? height with
    | some raw =>
      obtain ⟨attempts, hruled⟩ := hgo (s.source.deliver (plan.expected stage).number raw)
      exact ⟨attempts, _, rfl, hruled⟩
    | none =>
      refine ⟨[], (s.await pass plan stage height, []), rfl, .waits rfl ?_ rfl⟩
      rw [List.append_nil]
      rfl

/-- `answers` are none in a question. -/
theorem answers_question (plan : Plan) (source : Source) (number : Nat) (stage : Stage) :
    Event.answers number (plan.question source number stage) = [] := by
  unfold Plan.question
  split <;> rfl

/-- `Ruled` at the second stage is so at the first, with one canonical answer in front. -/
theorem Ruled.after_signal
    (hcanonical : plan.objection? .signal (.heard reply (s.reason? pass)) = none)
    {attempts : List Attempt} (h : Ruled s pass plan .provenance attempts p) :
    Ruled s pass plan .signal (.heard reply (s.reason? pass) :: attempts)
      (.after [.answered pass.number plan.signal.number reply]
        (.after (plan.question s.source pass.number .provenance) p)) := by
  -- the answer about the signal is the first of the attempts
  have hheard : ∀ events, attempts
        = (Event.answers pass.number events).map (.heard · (s.reason? pass)) →
      .heard reply (s.reason? pass) :: attempts = (Event.answers pass.number
        (.answered pass.number plan.signal.number reply ::
          (plan.question s.source pass.number .provenance ++ events))).map
            (.heard · (s.reason? pass)) := by
    intro events heard
    rw [Event.answers_answered, Event.answers_append, answers_question, List.map_cons, heard]
    rfl
  -- and its lookup comes before those of the second stage
  have hlookups : ∀ events, plan.inquiry s.source pass.number .provenance attempts
        = plan.question s.source pass.number .provenance ++ events →
      plan.inquiry s.source pass.number .signal (.heard reply (s.reason? pass) :: attempts)
        = plan.question s.source pass.number .signal ++
          .answered pass.number plan.signal.number reply ::
            (plan.question s.source pass.number .provenance ++ events) := by
    intro events lookups
    rw [Plan.inquiry_of_canonical hcanonical, lookups]
  cases h with
  | @waits events stage' height heard lookups rule =>
    refine .waits (hheard events heard) (hlookups events lookups) ?_
    rw [Plan.rule_of_canonical hcanonical, rule]
  | @carriesOut events q heard lookups rule =>
    rw [Progress.after_after, Progress.after_after]
    refine .carriesOut (hheard events heard) (hlookups events lookups) ?_
    rw [Plan.rule_of_canonical hcanonical, rule]

/-- `checkProvenance` is `Ruled` behind its question. -/
theorem checkProvenance_ruled (plan : Plan) (hfree : s.reason? pass = none) :
    ∃ attempts p, s.checkProvenance pass plan
        = .after (plan.question s.source pass.number .provenance) p ∧
      Ruled s pass plan .provenance attempts p :=
  consult_ruled hfree (answerProvenance_ruled s pass plan)

/-- `answerSignal` is `Ruled`. -/
theorem answerSignal_ruled (s : Session) (pass : Pass) (plan : Plan) (reply : Reply) :
    ∃ attempts, Ruled s pass plan .signal attempts (s.answerSignal pass plan reply) := by
  refine answer_ruled fun hcanonical => ?_
  -- a block that counts was found in time, so the second check is not barred
  have hfree : s.reason? pass = none := by
    cases reply with
    | failure cause => exact nomatch hcanonical
    | block found =>
      cases hreason : s.reason? pass with
      | none => rfl
      | some reason =>
        rw [hreason] at hcanonical
        exact nomatch hcanonical
  obtain ⟨attempts, p, heq, hruled⟩ := checkProvenance_ruled plan hfree
  rw [heq]
  exact ⟨_, hruled.after_signal hcanonical⟩

/-- `checkSignal` is `Ruled` behind its question. -/
theorem checkSignal_ruled (plan : Plan) (hfree : s.reason? pass = none) :
    ∃ attempts p, s.checkSignal pass plan
        = .after (plan.question s.source pass.number .signal) p ∧
      Ruled s pass plan .signal attempts p :=
  consult_ruled hfree (answerSignal_ruled s pass plan)

/-- `resume` is `Ruled`. -/
theorem resume_ruled (s : Session) (flight : Flight) (reply : Reply) :
    ∃ attempts, Ruled { s with flight? := none } flight.pass flight.plan flight.stage attempts
      (s.resume flight reply) := by
  unfold resume
  cases flight.stage with
  | signal => exact answerSignal_ruled ..
  | provenance => exact answerProvenance_ruled ..

/-! ## Lookups -/

/-- `question` is a lookup and nothing else. -/
theorem lookups_question (plan : Plan) (source : Source) (number : Nat) (stage : Stage) :
    Event.lookups number (plan.question source number stage)
      = plan.question source number stage := by
  unfold Plan.question
  split
  · exact List.filter_cons_of_pos (Event.isLookupOf_asked number _)
  · rfl

/-- `inquiry` is lookups and nothing else. -/
theorem lookups_inquiry (plan : Plan) (source : Source) (number : Nat) (stage : Stage)
    (attempts : List Attempt) :
    Event.lookups number (plan.inquiry source number stage attempts)
      = plan.inquiry source number stage attempts := by
  -- over the attempts, each of which has a lookup and its answer
  induction attempts generalizing stage with
  | nil => exact lookups_question ..
  | cons attempt attempts ih =>
    cases attempt with
    | barred reason => rfl
    | heard reply cancelled? =>
      unfold Plan.inquiry
      rw [Event.lookups_append, lookups_question]
      congr 1
      refine (List.filter_cons_of_pos (Event.isLookupOf_answered number _ reply)).trans ?_
      congr 1
      split
      · exact ih .provenance
      · rfl

/-- `lookups` alone have no endings and no commitments. -/
theorem silent_of_lookups {number : Nat} {events : List Event}
    (h : Event.lookups number events = events) :
    Event.endings events = [] ∧ Event.commitments events = [] := by
  -- events that are all lookups neither end nor commit anything
  have hall : ∀ e ∈ events, e.isLookupOf number = true := List.filter_eq_self.mp h
  constructor
  · refine List.filterMap_eq_nil_iff.mpr fun e he => ?_
    have hlookup := hall e he
    cases e <;> first | rfl | exact nomatch hlookup
  · refine List.filterMap_eq_nil_iff.mpr fun e he => ?_
    have hlookup := hall e he
    cases e <;> first | rfl | exact nomatch hlookup

/-- `carryOut?` looks nothing up. -/
theorem lookups_carryOut {ruling : Ruling} {q : Progress}
    (h : s.carryOut? pass plan ruling = some q) (number : Nat) : Event.lookups number q.2 = [] := by
  cases ruling with
  | pending stage => exact nomatch h
  | objected stage objection =>
    obtain rfl := Option.some.inj h
    exact (quiet_close ..).2.2 number
  | verified =>
    obtain rfl := Option.some.inj h
    exact lookups_commit ..

/-- The session and the events of a pass in turn: it waits where the ruling is pending, and carries
it out where it is not. -/
inductive Abides (s : Session) (pass : Pass) (plan : Plan) (ruling : Ruling) : Progress → Prop
  | waits {p : Progress} {flight : Flight} (flight_eq : p.1.flight? = some flight)
      (pass_eq : flight.pass = pass) (plan_eq : flight.plan = plan)
      (rule : ruling = .pending flight.stage) (silent : Event.endings p.2 = [])
      (quiet : Event.commitments p.2 = []) : Abides s pass plan ruling p
  | carriesOut {t : Session} {events : List Event} {q : Progress} (alike : Alike pass s t)
      (rule : t.carryOut? pass plan ruling = some q) (silent : Event.endings events = [])
      (quiet : Event.commitments events = []) : Abides s pass plan ruling (.after events q)

/-- `Ruled` is `Abides` by what the pass has heard, with the lookups that belong to that. -/
theorem Ruled.abides {attempts : List Attempt} {t : Session} (halike : Alike pass s t)
    (h : Ruled t pass plan stage attempts p) :
    Abides s pass plan (plan.rule stage attempts) p ∧
    attempts = (Event.answers pass.number p.2).map (.heard · (s.reason? pass)) ∧
    plan.inquiry s.source pass.number stage attempts
      = plan.question s.source pass.number stage ++ Event.lookups pass.number p.2 := by
  -- whatever happened after the question is of lookups
  have hevents : ∀ events, plan.inquiry t.source pass.number stage attempts
      = plan.question t.source pass.number stage ++ events →
      Event.lookups pass.number events = events := by
    intro events lookups
    have hall := lookups_inquiry plan t.source pass.number stage attempts
    rw [lookups, Event.lookups_append, lookups_question] at hall
    exact List.append_cancel_left hall
  rw [← halike.source, ← halike.reason]
  cases h with
  | @waits events stage' height heard lookups rule =>
    obtain ⟨hsilent, hquiet⟩ := silent_of_lookups (hevents events lookups)
    refine ⟨.waits rfl rfl rfl rule hsilent hquiet, heard, ?_⟩
    rw [hevents events lookups]
    exact lookups
  | @carriesOut events q heard lookups rule =>
    obtain ⟨hsilent, hquiet⟩ := silent_of_lookups (hevents events lookups)
    have hdone := lookups_carryOut rule pass.number
    refine ⟨.carriesOut halike rule hsilent hquiet, ?_, ?_⟩
    · rw [Progress.snd_after, Event.answers_append, Event.answers_of_lookups hdone, List.append_nil]
      exact heard
    · rw [Progress.snd_after, Event.lookups_append, hevents events lookups, hdone, List.append_nil]
      exact lookups

/-! ## What a pass hears in a run -/

/-- What a pass hears at these moves, each reply with the reason that the pass is cancelled for
then. -/
def hearings (s : Session) (pass : Pass) : List Move → List Attempt
  | [] => []
  | m :: moves =>
    (Event.answers pass.number (s.move m).2).map (.heard · (s.reason? pass))
      ++ (s.move m).1.hearings pass moves

/-- What a pass that starts at the first of these moves meets at its checks. -/
def attempts (s : Session) (pass : Pass) (moves : List Move) : List Attempt :=
  match s.reason? pass with
  | some reason => [.barred reason]
  | none => s.hearings pass moves

/-- `hearings` end with those at the last move. -/
theorem hearings_concat (s : Session) (pass : Pass) (moves : List Move) (m : Move) :
    s.hearings pass (moves ++ [m]) = s.hearings pass moves
      ++ (Event.answers pass.number ((s.play moves).1.move m).2).map
        (.heard · ((s.play moves).1.reason? pass)) := by
  induction moves generalizing s with
  | nil => simp [hearings, play]
  | cons first moves ih =>
    rw [List.cons_append, hearings, hearings, ih, List.append_assoc, play_cons, Progress.fst_after]

/-- The pass is in flight at the stage at which the ruling on its `hearings` is pending. -/
structure Heeds (s : Session) (moves : List Move) (pass : Pass) (plan : Plan) : Prop where
  free : s.reason? pass = none
  flight : ∃ flight, (s.play moves).1.flight? = some flight ∧ flight.pass = pass ∧
    flight.plan = plan ∧ plan.rule .signal (s.hearings pass moves) = .pending flight.stage
  lookups : Event.lookups pass.number (s.play moves).2
    = plan.inquiry s.source pass.number .signal (s.hearings pass moves)

/-- The pass `Abides` by the ruling on its `attempts` when the session advances after these
moves. -/
structure Obeys (s : Session) (during : List Move) (pass : Pass) (plan : Plan) : Prop where
  abides : Abides (s.play during).1 pass plan
    (plan.rule .signal (s.attempts pass (during ++ [.advance]))) (s.play during).1.advance
  lookups : Event.lookups pass.number (s.play (during ++ [.advance])).2
    = plan.inquiry s.source pass.number .signal (s.attempts pass (during ++ [.advance]))

/-- `Heeds` implies `Obeys`. -/
theorem Heeds.obeys (h : Heeds s during pass plan) : Obeys s during pass plan := by
  obtain ⟨hfree, ⟨flight, hf, rfl, rfl, hopen⟩, hlookups⟩ := h
  have hattempts : s.attempts flight.pass (during ++ [.advance])
      = s.hearings flight.pass (during ++ [.advance]) := by
    rw [attempts, hfree]
  have hplayed : (s.play (during ++ [.advance])).2
      = (s.play during).2 ++ (s.play during).1.advance.2 := by
    rw [play_concat]
    rfl
  rw [hearings_concat] at hattempts
  show Obeys s during flight.pass flight.plan
  cases hr : flight.reply? with
  | none =>
    -- it goes on waiting, and has heard nothing more
    have hadvance := advance_wait hf hr
    have hnone : Event.answers flight.pass.number ((s.play during).1.move .advance).2 = [] := by
      show Event.answers _ (s.play during).1.advance.2 = []
      rw [hadvance]
      rfl
    rw [hnone, List.map_nil, List.append_nil] at hattempts
    constructor
    · rw [hattempts, hadvance]
      exact .waits hf rfl rfl hopen rfl rfl
    · rw [hattempts, hplayed, hadvance, List.append_nil]
      exact hlookups
  | some reply =>
    have hadvance := advance_resume hf hr
    obtain ⟨heard, hruled⟩ := resume_ruled (s.play during).1 flight reply
    have halike : Alike flight.pass (s.play during).1 { (s.play during).1 with flight? := none } :=
      ⟨rfl, rfl, rfl, rfl, rfl, rfl⟩
    obtain ⟨habides, hheard, hinquiry⟩ := hruled.abides halike
    rw [← hadvance] at habides hheard hinquiry
    have hmore : s.attempts flight.pass (during ++ [.advance])
        = s.hearings flight.pass during ++ heard := by
      rw [hattempts, hheard]
      rfl
    constructor
    · rw [hmore, Plan.rule_append hopen]
      exact habides
    · rw [hmore, hplayed, Event.lookups_append, hlookups]
      rw [source_play] at hinquiry
      exact (Plan.inquiry_append hopen hinquiry).symm

/-- `Abides` extends to the front by events without endings and commitments. -/
theorem Abides.after {ruling : Ruling} {before : List Event} (h : Abides s pass plan ruling p)
    (hsilent : Event.endings before = []) (hquiet : Event.commitments before = []) :
    Abides s pass plan ruling (.after before p) := by
  -- what comes before neither ends nor commits anything
  have happend : ∀ events, Event.endings events = [] → Event.commitments events = [] →
      Event.endings (before ++ events) = [] ∧ Event.commitments (before ++ events) = [] := by
    intro events hnone hnothing
    rw [Event.endings_append, Event.commitments_append, hsilent, hnone, hquiet, hnothing]
    exact ⟨rfl, rfl⟩
  cases h with
  | waits flight_eq pass_eq plan_eq rule silent quiet =>
    obtain ⟨hends, hcommits⟩ := happend _ silent quiet
    exact .waits flight_eq pass_eq plan_eq rule hends hcommits
  | @carriesOut t events q alike rule silent quiet =>
    obtain ⟨hends, hcommits⟩ := happend _ silent quiet
    rw [Progress.after_after]
    exact .carriesOut alike rule hends hcommits

/-- `opening` ends no pass. -/
theorem endings_opening (s : Session) (pass : Pass) : Event.endings (s.opening pass) = [] :=
  Event.endings_noted _

/-- `Obeys` holds of a pass that starts. -/
theorem obeys_start (hidle : s.flight? = none) (hnext : s.waiting.head? = some pass)
    (hplan : s.planFor? pass = some plan) : Obeys s [] pass plan := by
  obtain ⟨t, halike, -, -, hadvance⟩ := advance_of_planFor? hidle hnext hplan
  have hplayed : (s.play ([] ++ [.advance])).2 = s.advance.2 := congrArg Prod.snd (play_advance s)
  obtain ⟨hquiet, -, hnothing⟩ := quiet_opening s pass
  have hsilent := endings_opening s pass
  have hopening : Event.answers pass.number (s.opening pass) = [] :=
    Event.answers_of_lookups (hnothing pass.number)
  cases hreason : s.reason? pass with
  | some reason =>
    -- it fails before its first lookup
    have hattempts : s.attempts pass ([] ++ [.advance]) = [.barred reason] := by
      rw [attempts, hreason]
    have hchecked : t.checkSignal pass plan = t.fail pass (plan.unreached .signal reason) := by
      rw [checkSignal, consult, halike.reason, hreason]
    rw [hchecked] at hadvance
    constructor
    · rw [hattempts]
      show Abides s pass plan _ s.advance
      rw [hadvance]
      exact .carriesOut halike rfl hsilent hquiet
    · rw [hattempts, hplayed, hadvance, Progress.snd_after, Event.lookups_append, hnothing]
      exact (quiet_close ..).2.2 _
  | none =>
    -- it asks for the block of its signal, and goes on with what it hears at once
    obtain ⟨heard, p, hchecked, hruled⟩ :=
      checkSignal_ruled plan (halike.reason.trans hreason)
    obtain ⟨habides, hheard, hinquiry⟩ := hruled.abides halike
    obtain ⟨hends, hcommits⟩ :=
      silent_of_lookups (lookups_question plan t.source pass.number .signal)
    rw [hchecked] at hadvance
    have hattempts : s.attempts pass ([] ++ [.advance]) = heard := by
      have hanswers : Event.answers pass.number (s.move .advance).2
          = Event.answers pass.number p.2 := by
        show Event.answers pass.number s.advance.2 = _
        rw [hadvance, Progress.snd_after, Progress.snd_after, Event.answers_append,
          Event.answers_append, hopening, answers_question]
        rfl
      rw [attempts, hreason]
      show s.hearings pass [.advance] = heard
      rw [hearings, hearings, List.append_nil, hanswers, hheard]
    constructor
    · rw [hattempts]
      show Abides s pass plan _ s.advance
      rw [hadvance]
      exact (habides.after hends hcommits).after hsilent hquiet
    · rw [hattempts, hplayed, hadvance, Progress.snd_after, Progress.snd_after,
        Event.lookups_append, Event.lookups_append, hnothing, lookups_question, hinquiry,
        halike.source]
      rfl

/-- `carryOut?` ends the pass. -/
theorem exists_ended_carryOut {ruling : Ruling} {q : Progress}
    (h : s.carryOut? pass plan ruling = some q) : ∃ ending, .ended pass ending ∈ q.2 := by
  cases ruling with
  | pending stage => exact nomatch h
  | objected stage objection =>
    obtain rfl := Option.some.inj h
    exact exists_ended_close ..
  | verified =>
    obtain rfl := Option.some.inj h
    exact exists_ended_commit ..

/-- `Obeys` implies `Heeds` after the move, for a pass that does not end there. -/
theorem Obeys.heeds (h : Obeys s during pass plan)
    (hgoes : ∀ ending, .ended pass ending ∉ (s.play during).1.advance.2) :
    Heeds s (during ++ [.advance]) pass plan := by
  obtain ⟨habides, hlookups⟩ := h
  have hplayed : (s.play (during ++ [.advance])).1 = (s.play during).1.advance.1 :=
    fst_play_concat ..
  generalize (s.play during).1.advance = p at habides hgoes hplayed
  cases habides with
  | @carriesOut t events q alike rule silent quiet =>
    obtain ⟨ending, hended⟩ := exists_ended_carryOut rule
    exact absurd (List.mem_append_right _ hended) (hgoes ending)
  | @waits p flight flight_eq pass_eq plan_eq rule silent quiet =>
    cases hreason : s.reason? pass with
    | some reason =>
      -- a pass that is barred does not wait
      rw [attempts, hreason] at rule
      exact nomatch rule
    | none =>
      have hattempts : s.attempts pass (during ++ [.advance])
          = s.hearings pass (during ++ [.advance]) := by
        rw [attempts, hreason]
      rw [hattempts] at rule hlookups
      exact ⟨hreason, ⟨flight, hplayed ▸ flight_eq, pass_eq, plan_eq, rule⟩, hlookups⟩

/-- `act` preserves `Heeds`. -/
theorem Heeds.act (h : Heeds s moves pass plan) (action : Action) :
    Heeds s (moves ++ [.act action]) pass plan := by
  obtain ⟨hfree, ⟨flight, hf, hpass, hplan, hopen⟩, hlookups⟩ := h
  have hacted := acted (s.play moves).1 action
  have hnone := hacted.lookups pass.number
  -- an action answers nothing, and so the ruling stays open
  have hhearings : s.hearings pass (moves ++ [.act action]) = s.hearings pass moves := by
    have hanswers : Event.answers pass.number ((s.play moves).1.move (.act action)).2 = [] :=
      Event.answers_of_lookups hnone
    rw [hearings_concat, hanswers, List.map_nil, List.append_nil]
  obtain ⟨reply?, hflight⟩ := hacted.flight
  rw [hf] at hflight
  have hafter := (congrArg Session.flight? (fst_play_concat s moves (.act action))).trans hflight
  refine ⟨hfree, ⟨_, hafter, hpass, hplan, ?_⟩, ?_⟩
  · rw [hhearings]
    exact hopen
  · rw [hhearings, play_concat, Progress.snd_after, Event.lookups_append, hlookups]
    exact (congrArg _ hnone).trans (List.append_nil _)

/-- `Heeds` holds of a pass that started at the first of these moves and has not ended. -/
theorem heeds_play (hidle : s.flight? = none) (hnext : s.waiting.head? = some pass)
    (hplan : s.planFor? pass = some plan) (hbegins : moves.head? = some .advance)
    (hgoes : ∀ ending, .ended pass ending ∉ (s.play moves).2) : Heeds s moves pass plan := by
  -- over the moves since the start of the pass, none of which ends it
  induction moves using List.reverseRecOn with
  | nil => exact nomatch hbegins
  | append_singleton moves m ih =>
    rw [play_concat] at hgoes
    have hlast : ∀ ending, .ended pass ending ∉ ((s.play moves).1.move m).2 :=
      fun ending hmem => hgoes ending (List.mem_append_right _ hmem)
    -- the first move starts the pass
    cases moves with
    | nil =>
      obtain rfl : m = .advance := Option.some.inj hbegins
      exact (obeys_start hidle hnext hplan).heeds hlast
    | cons first rest =>
      have hheeds := ih hbegins fun ending hmem => hgoes ending (List.mem_append_left _ hmem)
      cases m with
      | act action => exact hheeds.act action
      | advance => exact hheeds.obeys.heeds hlast

/-- `Obeys` holds of a pass that has not ended before the last of these moves. -/
theorem obeys_play (hidle : s.flight? = none) (hnext : s.waiting.head? = some pass)
    (hplan : s.planFor? pass = some plan)
    (hbegins : (during ++ [Move.advance]).head? = some .advance)
    (hgoes : ∀ ending, .ended pass ending ∉ (s.play during).2) : Obeys s during pass plan := by
  cases during with
  | nil => exact obeys_start hidle hnext hplan
  | cons first rest =>
    have hfirst : (first :: rest).head? = some .advance := hbegins
    exact (heeds_play hidle hnext hplan hfirst hgoes).obeys

end Session

end Settlement
