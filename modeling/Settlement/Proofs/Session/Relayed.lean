import Settlement.Proofs.Lookup.Served
import Settlement.Proofs.Session.Play

/-!
# Asking over RPC

Two sessions side by side: one asks its node directly, and the other one does so over RPC, where
the blocks of that node are served with exact integers. They are the same but for their nodes and
for what their passes in flight have heard (`Session.Relayed`), and whatever is done with both of
them keeps them so and can be told of both alike (`Progress.Relayed`).

Heights have to be block numbers for this, or they could not be asked for over RPC, and blocks have
to stand at their own heights, or they would not be accepted. If the sign of a zero is told, then
minus zero is no such height (`Number.isPlain`). Nobody cancels: only over RPC does a pass that is
cancelled not wait for its lookup.

## Key results

- `relayed_close`, `relayed_commit`, `relayed_answer`, `relayed_consult`: what passes do
- `relayed_act`, `relayed_step`: what is done with both sessions keeps them alike
-/

namespace Settlement

variable {signed : Bool}

/-- The L1 heights in the ring are plain (`Number.isPlain`). -/
structure Ring.Plain (signed : Bool) (r : Ring) : Prop where
  wellFormed : r.WellFormed
  numbers : ∀ link ∈ r.toList, link.l1.number.isPlain signed = true

/-- `record` preserves `Plain` for a plain L1 height. -/
theorem Ring.plain_record {r : Ring} (h : r.Plain signed) (l2 : L2Block) {l1 : BlockId}
    (hl1 : l1.number.isPlain signed = true) : (r.record l2 l1).1.Plain signed := by
  refine ⟨wellFormed_record h.wellFormed l2 l1, fun link hlink => ?_⟩
  rw [toList_record h.wellFormed] at hlink
  rcases Links.record_cases r.capacity r.toList l2 l1 with
    ⟨kept, hkept, heq⟩ | ⟨newest, hnewest, -, heq | heq⟩
  · -- a new link, behind what is left of the old ones
    rw [heq] at hlink
    rcases List.mem_append.mp hlink with hlink | hlink
    · exact h.numbers link (hkept.subset hlink)
    · obtain rfl : link = ⟨l2, l1.bare⟩ := by simpa using hlink
      exact hl1
  · -- the newest link keeps its L1 block
    rw [heq] at hlink
    rcases List.mem_append.mp hlink with hlink | hlink
    · exact h.numbers link (List.mem_of_mem_dropLast hlink)
    · obtain rfl : link = { newest with l2 } := by simpa using hlink
      exact h.numbers newest (List.mem_of_getLast? hnewest)
  · rw [heq] at hlink
    exact h.numbers link hlink

/-- The heights of both blocks that the plan expects are plain. -/
def Plan.Plain (signed : Bool) (plan : Plan) : Prop :=
  ∀ stage, (plan.expected stage).number.isPlain signed = true

/-- The plan is `Plain`, and the lookup with the ticket of the flight asks for what its stage
expects. -/
structure Flight.Sound (signed : Bool) (flight : Flight) (held : List Held) : Prop where
  plain : flight.plan.Plain signed
  asked : ∀ lookup ∈ held, lookup.ticket = flight.ticket →
    lookup.height = (flight.plan.expected flight.stage).number

/-- Both flights are the same, but for replies that are `Reply.Alike`. -/
inductive Flight.Alike (signed : Bool) (held : List Held) : Option Flight → Option Flight → Prop
  | none : Alike signed held none none
  | waiting {flight : Flight} (hsound : flight.Sound signed held)
      (hreply : flight.reply? = .none) : Alike signed held (some flight) (some flight)
  | heard {flight : Flight} {reply reply' : Reply} (hsound : flight.Sound signed held)
      (hreply : flight.reply? = some reply) (halike : reply.Alike signed reply') :
    Alike signed held (some flight) (some { flight with reply? := some reply' })

/-- `Sound` is preserved when lookups are over. -/
theorem Flight.Sound.of_subset {flight : Flight} {held rest : List Held}
    (h : flight.Sound signed held) (hrest : rest ⊆ held) : flight.Sound signed rest :=
  ⟨h.plain, fun lookup hlookup => h.asked lookup (hrest hlookup)⟩

/-- `Alike` is preserved when lookups are over. -/
theorem Flight.Alike.of_subset {held rest : List Held} {mine theirs : Option Flight}
    (h : Alike signed held mine theirs) (hrest : rest ⊆ held) :
    Alike signed rest mine theirs := by
  cases h with
  | none => exact .none
  | waiting hsound hreply => exact .waiting (hsound.of_subset hrest) hreply
  | heard hsound hreply halike => exact .heard (hsound.of_subset hrest) hreply halike

/-- `Alike` flights are `Sound`. -/
theorem Flight.Alike.sound {held : List Held} {flight : Flight} {theirs : Option Flight}
    (h : Alike signed held (some flight) theirs) : flight.Sound signed held := by
  cases h with
  | waiting hsound hreply => exact hsound
  | heard hsound hreply halike => exact hsound

/-- The lookup with its height as it is `Number.told`. -/
def Held.told (signed : Bool) (held : Held) : Held :=
  { held with height := held.height.told signed }

/-- The sessions are the same, but that the first asks its node directly and the second over RPC. -/
structure Session.Relayed (signed : Bool) (s t : Session) : Prop where
  tracker : t.tracker = s.tracker
  engine : t.engine = s.engine
  refusal : t.refusal? = s.refusal?
  cancelled : t.cancelled = s.cancelled
  log : t.log? = s.log?
  waiting : t.waiting = s.waiting
  called : t.called = s.called
  tickets : t.tickets = s.tickets
  direct : s.source = .direct
  rpc : t.source = .rpc
  blocks : t.node.blocks = s.node.served.blocks
  outage : t.node.outage? = s.node.outage?
  holding : t.node.holding = s.node.holding
  held : t.node.held.map (Held.told signed) = s.node.held.map (Held.told signed)
  flight : Flight.Alike signed s.node.held s.flight? t.flight?
  orderly : s.node.isOrderly = true
  signal : s.tracker.signal.number.isPlain signed = true
  signals : ∀ pass ∈ s.waiting, ∀ block, pass.trigger = .signal block →
    block.number.isPlain signed = true
  links : s.tracker.links.Plain signed
  issued : ∀ lookup ∈ s.node.held, lookup.ticket < s.tickets

/-- The sessions are `Relayed`, and the same is told of the events of both. -/
structure Progress.Relayed (signed : Bool) (p q : Progress) : Prop where
  session : p.1.Relayed signed q.1
  told : Event.told signed p.2 = Event.told signed q.2

/-- `Relayed` extends to the front by events of which the same is told. -/
theorem Progress.Relayed.after {p q : Progress} (h : p.Relayed signed q) {xs ys : List Event}
    (htold : Event.told signed xs = Event.told signed ys) :
    (after xs p).Relayed signed (after ys q) :=
  ⟨h.session, by simp [htold, h.told]⟩

namespace Session

variable {s t : Session} {pass : Pass} {plan : Plan} {stage : Stage}

/-! ## Passes -/

/-- `reason?` is the same in both sessions. -/
theorem Relayed.reason? (h : s.Relayed signed t) (pass : Pass) :
    t.reason? pass = s.reason? pass := by
  simp only [Session.reason?, h.cancelled]

/-- `logged` is told alike for endings that are told alike. -/
theorem Relayed.logged (h : s.Relayed signed t) (pass : Pass) {ending ending' : Ending}
    (hending : ending.told signed = ending'.told signed) :
    (s.logged pass ending).told signed = (t.logged pass ending').told signed := by
  have hnotices : (pass.endNotices ending).map (Notice.told signed)
      = (pass.endNotices ending').map (Notice.told signed) := by
    rw [← Pass.endNotices_told, hending, Pass.endNotices_told]
  -- the log shows no sign of a zero, so it writes both or fails at both
  have hlines : s.log?.mapM (Log.noticeLines · (pass.endNotices ending))
      = t.log?.mapM (Log.noticeLines · (pass.endNotices ending')) := by
    rw [h.log]
    cases s.log? with
    | none => rfl
    | some threshold =>
      have hsame : Log.noticeLines threshold (pass.endNotices ending)
          = Log.noticeLines threshold (pass.endNotices ending') := by
        rw [← Log.noticeLines_told, hnotices, Log.noticeLines_told]
      simp [hsame]
  simp only [Session.logged, hlines]
  cases t.log?.mapM (Log.noticeLines · (pass.endNotices ending')) with
  | ok _ => exact hending
  | error fault => rfl

/-- `close` preserves `Relayed` for endings that are told alike. -/
theorem relayed_close (h : s.Relayed signed t) (pass : Pass) {ending ending' : Ending}
    (hending : ending.told signed = ending'.told signed) :
    (s.close pass ending).Relayed signed (t.close pass ending') := by
  have hlogged := h.logged pass hending
  refine ⟨{ h with flight := .none }, ?_⟩
  -- the lines at the end are told alike
  have hnotices : ∀ ending, Event.told signed ((pass.endNotices ending).map Event.noted)
      = ((pass.endNotices ending).map (Notice.told signed)).map Event.noted := by
    intro ending
    simp [Event.told, List.filterMap_map, Function.comp_def, Event.told?]
  simp only [close, Event.told_append, hnotices, ← Pass.endNotices_told, hlogged]
  simp [Event.told, Event.told?, hlogged]

/-- `fail` preserves `Relayed` for reasons that are told alike. -/
theorem relayed_fail (h : s.Relayed signed t) (pass : Pass) {reason reason' : Value}
    (hreason : reason.told signed = reason'.told signed) :
    (s.fail pass (plan.unreached stage reason)).Relayed signed
      (t.fail pass (plan.unreached stage reason')) := by
  have hfailure (reason : Value) : (plan.unreached stage reason).failure.told signed
      = .of .temporary (plan.unreached stage .undefined).message (reason.told signed) :=
    Failure.told_of ..
  refine relayed_close h pass ?_
  simp only [Ending.told, Outcome.told, hfailure, hreason]

/-- `commit` preserves `Relayed`. -/
theorem relayed_commit (h : s.Relayed signed t) (pass : Pass) (plan : Plan) :
    (s.commit pass plan).Relayed signed (t.commit pass plan) := by
  simp only [commit, h.tracker, h.engine, h.refusal]
  split
  · exact (relayed_close h pass rfl).after rfl
  · split
    · exact relayed_close h pass rfl
    · split
      · exact relayed_close h pass rfl
      · -- the engine goes the same way in both sessions
        refine Progress.Relayed.after (relayed_close ?_ pass rfl) rfl
        exact { h with tracker := rfl, engine := rfl, refusal := rfl }

/-- `answer` preserves `Relayed` if what follows does. -/
theorem relayed_answer (h : s.Relayed signed t) {reply reply' : Reply}
    (halike : reply.Alike signed reply') {passed passed' : Session → Progress}
    (hpassed : (passed s).Relayed signed (passed' t)) :
    (s.answer pass plan stage reply passed).Relayed signed
      (t.answer pass plan stage reply' passed') := by
  unfold answer
  refine Progress.Relayed.after ?_ rfl
  rw [h.reason?]
  rcases Plan.check_alike halike plan stage (s.reason? pass) with
    hsame | ⟨reason, reason', hreason, hcheck, hcheck'⟩
  · rw [← hsame]
    cases plan.check stage reply (s.reason? pass) with
    | canonical => exact hpassed
    | blocked obstacle => exact relayed_close h pass rfl
    | broken fault => exact relayed_close h pass rfl
  · -- the lookup failed, and both passes fail with its reason
    rw [hcheck, hcheck']
    exact relayed_fail h pass hreason

/-- `ask` has replies that are `Alike` in both sessions, or waits in both. -/
theorem relayed_ask (h : s.Relayed signed t) (pass : Pass) {asked : Number}
    (hasked : asked.isPlain signed = true) :
    (∃ reply reply', reply.Alike signed reply' ∧
      s.ask pass asked = (s, [.asked pass.number asked], .replied reply) ∧
      t.ask pass asked = (t, [.asked pass.number asked.unsigned], .replied reply')) ∨
    s.ask pass asked = ({ s with node := s.node.hold s.tickets asked, tickets := s.tickets + 1 },
        [.asked pass.number asked], .waiting s.tickets) ∧
      t.ask pass asked
        = ({ t with node := t.node.hold s.tickets asked.unsigned, tickets := s.tickets + 1 },
          [.asked pass.number asked.unsigned], .waiting s.tickets) := by
  obtain ⟨n, hn, hzero, hsafe⟩ :=
    Number.exists_toInt?_of_isBlockNumber (Number.isBlockNumber_of_isPlain hasked)
  have hdirect : s.source.address asked = .ok asked := by rw [h.direct]; rfl
  -- the height is sent as an exact integer, which loses no more than the sign of a zero
  have hrpc : t.source.address asked = .ok asked.unsigned := by
    rw [h.rpc, ← Number.ofInt_of_toInt? hn (by omega)]
    simp [Source.address, Asked.ofNumber, hn, Except.map]
  simp only [ask, hdirect, hrpc, h.tickets, Node.immediate?, h.outage, h.holding]
  by_cases hwaits : s.node.holding = true ∧ ¬(s.node.outage?.any (·.immediate)) = true
  · simp [hwaits]
  · have halike : (s.node.answer asked).Alike signed
        (Lookup.verified asked (t.node.answer asked.unsigned)) :=
      Reply.alike_answer h.orderly h.blocks h.outage (Number.told_unsigned hasked).symm
    refine .inl ⟨_, _, halike, ?_, ?_⟩
    · simp only [if_neg hwaits, h.direct, Source.deliver]
    · simp only [if_neg hwaits, h.rpc, Source.deliver]

/-- Waiting for a lookup preserves `Relayed`. -/
theorem relayed_wait (h : s.Relayed signed t) (pass : Pass) (hplain : plan.Plain signed)
    (stage : Stage) :
    ({ s with
      node := s.node.hold s.tickets (plan.expected stage).number
      tickets := s.tickets + 1
      flight? := some { pass, plan, stage, ticket := s.tickets } } : Session).Relayed signed
    { t with
      node := t.node.hold s.tickets (plan.expected stage).number.unsigned
      tickets := s.tickets + 1
      flight? := some { pass, plan, stage, ticket := s.tickets } } := by
  let made : Held := { ticket := s.tickets, height := (plan.expected stage).number }
  have hheld : (t.node.held ++ [{ made with height := made.height.unsigned }]).map
        (Held.told signed)
      = (s.node.held ++ [made]).map (Held.told signed) := by
    simp [h.held, Held.told, made, Number.told_unsigned (hplain stage)]
  have hissued : ∀ lookup ∈ s.node.held ++ [made], lookup.ticket < s.tickets + 1 := by
    intro lookup hlookup
    rcases List.mem_append.mp hlookup with hold | hnew
    · have := h.issued lookup hold
      omega
    · obtain rfl : lookup = made := by simpa using hnew
      exact Nat.lt_succ_self _
  -- of the lookups at the node only the new one has the new ticket
  have hsound : Flight.Sound signed { pass, plan, stage, ticket := s.tickets }
      (s.node.held ++ [made]) := by
    refine ⟨hplain, fun lookup hlookup hticket => ?_⟩
    rcases List.mem_append.mp hlookup with hold | hnew
    · have hbefore := h.issued lookup hold
      simp at hticket
      omega
    · obtain rfl : lookup = made := by simpa using hnew
      rfl
  exact { h with
    tickets := rfl, held := hheld, flight := .waiting hsound rfl, issued := hissued }

/-- `consult` preserves `Relayed` if what follows does. -/
theorem relayed_consult (h : s.Relayed signed t) (hplain : plan.Plain signed)
    {goOn goOn' : Session → Reply → Progress}
    (hgoOn : ∀ reply reply', reply.Alike signed reply' →
      (goOn s reply).Relayed signed (goOn' t reply')) :
    (s.consult pass plan stage goOn).Relayed signed (t.consult pass plan stage goOn') := by
  unfold consult
  rw [h.reason?]
  cases s.reason? pass with
  | some reason => exact relayed_fail h pass rfl
  | none =>
    have hasked := Number.told_unsigned (hplain stage)
    dsimp only
    -- both get replies that are alike, or both wait
    rcases relayed_ask h pass (hplain stage) with ⟨reply, reply', halike, hs, ht⟩ | ⟨hs, ht⟩
    · rw [hs, ht]
      refine (hgoOn reply reply' halike).after ?_
      simp [Event.told, Event.told?, hasked]
    · rw [hs, ht]
      refine ⟨relayed_wait h pass hplain stage, ?_⟩
      simp [Event.told, Event.told?, hasked]

/-- `answerProvenance` preserves `Relayed`. -/
theorem relayed_answerProvenance (h : s.Relayed signed t) (pass : Pass) (plan : Plan)
    {reply reply' : Reply} (halike : reply.Alike signed reply') :
    (s.answerProvenance pass plan reply).Relayed signed (t.answerProvenance pass plan reply') :=
  relayed_answer h halike (relayed_commit h pass plan)

/-- `checkProvenance` preserves `Relayed`. -/
theorem relayed_checkProvenance (h : s.Relayed signed t) (pass : Pass)
    (hplain : plan.Plain signed) :
    (s.checkProvenance pass plan).Relayed signed (t.checkProvenance pass plan) :=
  relayed_consult h hplain fun _ _ halike => relayed_answerProvenance h pass plan halike

/-- `answerSignal` preserves `Relayed`. -/
theorem relayed_answerSignal (h : s.Relayed signed t) (pass : Pass) (hplain : plan.Plain signed)
    {reply reply' : Reply} (halike : reply.Alike signed reply') :
    (s.answerSignal pass plan reply).Relayed signed (t.answerSignal pass plan reply') :=
  relayed_answer h halike (relayed_checkProvenance h pass hplain)

/-- `checkSignal` preserves `Relayed`. -/
theorem relayed_checkSignal (h : s.Relayed signed t) (pass : Pass) (hplain : plan.Plain signed) :
    (s.checkSignal pass plan).Relayed signed (t.checkSignal pass plan) :=
  relayed_consult h hplain fun _ _ halike => relayed_answerSignal h pass hplain halike

/-- `plan?` is `Plain` for a tracker whose heights are. -/
theorem plain_plan? {tracker : Tracker} (hsignal : tracker.signal.number.isPlain signed = true)
    (hlinks : tracker.links.Plain signed) {head : L2Block}
    (hplan : tracker.plan? head = some plan) : plan.Plain signed := by
  obtain ⟨hsame, -, hmem, -, -⟩ := Tracker.plan?_eq_some hplan
  intro stage
  cases stage with
  | signal => simpa [Plan.expected, hsame] using hsignal
  | provenance => exact hlinks.numbers _ hmem

/-- `start` preserves `Relayed`. -/
theorem relayed_start (h : s.Relayed signed t) (pass : Pass)
    (hsignal : ∀ block, pass.trigger = .signal block → block.number.isPlain signed = true) :
    (s.start pass).Relayed signed (t.start pass) := by
  have hopening : t.opening pass = s.opening pass := by simp only [opening, h.tracker]
  have htook : (s.took pass).Relayed signed (t.took pass) := by
    have htracker : (t.took pass).tracker = (s.took pass).tracker := by simp [took, h.tracker]
    have hlinks : (s.took pass).tracker.links.Plain signed := by simpa [took] using h.links
    have htaken : (s.took pass).tracker.signal.number.isPlain signed = true := by
      obtain ⟨kept, tried, heq, hkept⟩ := Tracker.intake_eq s.tracker pass.trigger
      simp only [took, heq]
      rcases hkept with rfl | hkept
      · exact h.signal
      · exact hsignal kept hkept
    exact { h with tracker := htracker, signal := htaken, links := hlinks }
  rw [start_eq, start_eq, hopening, h.tracker]
  refine Progress.Relayed.after ?_ rfl
  cases (s.tracker.intake pass.trigger).2 with
  | outdated => exact relayed_close htook pass rfl
  | skipped => exact relayed_close htook pass rfl
  | due =>
    -- with the same links and the same head it is the same plan
    simp only [proceed, htook.tracker, htook.engine]
    cases hplan : (s.took pass).tracker.plan? (s.took pass).engine.head with
    | none => exact relayed_close htook pass rfl
    | some plan =>
      exact relayed_checkSignal htook pass (plain_plan? htook.signal htook.links hplan)

/-- `resume` preserves `Relayed`, for replies that are `Alike`. -/
theorem relayed_resume (h : s.Relayed signed t) (flight : Flight)
    (hplain : flight.plan.Plain signed) {reply reply' : Reply}
    (halike : reply.Alike signed reply') (heard? : Option Reply) :
    (s.resume flight reply).Relayed signed (t.resume { flight with reply? := heard? } reply') := by
  have hnone : ({ s with flight? := none } : Session).Relayed signed { t with flight? := none } :=
    { h with flight := .none }
  unfold resume
  cases flight.stage with
  | signal => exact relayed_answerSignal hnone flight.pass hplain halike
  | provenance => exact relayed_answerProvenance hnone flight.pass flight.plan halike

/-! ## Steps -/

/-- `Relayed` sessions have a pass in flight both, or neither. -/
theorem Relayed.flight_cases (h : s.Relayed signed t) :
    s.flight? = none ∧ t.flight? = none ∨
    ∃ flight flight', s.flight? = some flight ∧ t.flight? = some flight' := by
  have hflight := h.flight
  generalize s.flight? = mine, t.flight? = theirs at hflight
  cases hflight with
  | none => exact .inl ⟨rfl, rfl⟩
  | waiting => exact .inr ⟨_, _, rfl, rfl⟩
  | heard => exact .inr ⟨_, _, rfl, rfl⟩

/-- `startAll` preserves `Relayed`. -/
theorem relayed_startAll (h : s.Relayed signed t) (line : List Pass)
    (hline : ∀ pass ∈ line, ∀ block, pass.trigger = .signal block →
      block.number.isPlain signed = true) :
    (s.startAll line).Relayed signed (t.startAll line) := by
  -- over the line, which stops at the same pass in both sessions
  induction line generalizing s t with
  | nil => exact ⟨h, rfl⟩
  | cons pass rest ih =>
    have hrest := fun pass hmem => hline pass (List.mem_cons_of_mem _ hmem)
    have hnext : ({ s with waiting := rest } : Session).Relayed signed { t with waiting := rest } :=
      { h with waiting := rfl, signals := hrest }
    have hstart := relayed_start hnext pass (hline pass List.mem_cons_self)
    simp only [startAll]
    rcases hstart.session.flight_cases with ⟨hs, ht⟩ | ⟨flight, flight', hs, ht⟩
    · simp only [hs, ht]
      exact (ih hstart.session hrest).after hstart.told
    · simp only [hs, ht]
      exact hstart

/-- `settle` preserves `Relayed`. -/
theorem relayed_settle (h : s.Relayed signed t) : s.settle.Relayed signed t.settle := by
  have hflight := h.flight
  unfold settle
  generalize hs : s.flight? = mine, ht : t.flight? = theirs at hflight
  cases hflight with
  | none =>
    simp only [h.waiting]
    exact relayed_startAll h _ h.signals
  | waiting hsound hreply =>
    simp only [hreply]
    exact ⟨h, rfl⟩
  | @heard flight reply reply' hsound hreply halike =>
    have hresumed := relayed_resume h flight hsound.plain halike (some reply')
    simp only [hreply]
    -- whoever waits in line is started if nothing is in flight after the reply
    rcases hresumed.session.flight_cases with ⟨hs, ht⟩ | ⟨mine, theirs, hs, ht⟩
    · simp only [hs, ht, hresumed.session.waiting]
      exact (relayed_startAll hresumed.session _ hresumed.session.signals).after hresumed.told
    · simp only [hs, ht]
      exact hresumed

/-- The action brings in plain heights and blocks at their own heights only, and does not cancel. -/
def Action.isOrderly (signed : Bool) : Action → Bool
  | .record _ l1 => l1.number.isPlain signed
  | .call _ (.signal block) _ => block.number.isPlain signed
  | .setBlock height block => block.standsAt height
  | .cancel _ _ => false
  | _ => true

/-- The action with its block `served`. -/
def Action.served : Action → Action
  | .setBlock height block => .setBlock height block.served
  | action => action

/-- `deliver` preserves `Relayed` for replies that are `Alike` to the pass in flight. -/
theorem relayed_deliver (h : s.Relayed signed t) (ticket : Nat) {reply reply' : Reply}
    (halike : ∀ flight, s.flight? = some flight → flight.ticket = ticket →
      reply.Alike signed (Lookup.verified (flight.plan.expected flight.stage).number reply')) :
    (s.deliver ticket reply).Relayed signed (t.deliver ticket reply') := by
  have hflight := h.flight
  unfold deliver
  generalize hs : s.flight? = mine, ht : t.flight? = theirs at hflight
  cases hflight with
  | none => exact h
  | @waiting flight hsound hreply =>
    by_cases hticket : flight.ticket = ticket
    · subst hticket
      have hheard := halike flight hs rfl
      have hsound' : Flight.Sound signed { flight with reply? := some reply } s.node.held :=
        ⟨hsound.plain, hsound.asked⟩
      simp only [hreply, Option.isNone_none, and_self, if_true, h.direct, h.rpc, Source.deliver]
      exact { h with flight := .heard hsound' rfl hheard, direct := rfl, rpc := rfl }
    · simp only [hticket, false_and, if_false]
      exact h
  | heard hsound hreply hheard =>
    -- whoever has heard already hears nothing more
    simp only [hreply, Option.isNone_some, Bool.false_eq_true, and_false, if_false]
    exact h

/-- `next?` is the same lookup at both nodes, as it is told. -/
theorem Relayed.next? (h : s.Relayed signed t) (ticket? : Option Nat) :
    (t.node.next? ticket?).map (Held.told signed)
      = (s.node.next? ticket?).map (Held.told signed) := by
  cases ticket? with
  | none =>
    show t.node.held.head?.map (Held.told signed) = s.node.held.head?.map (Held.told signed)
    rw [← List.head?_map, ← List.head?_map, h.held]
  | some ticket =>
    -- both find the lookup under the ticket at the same place
    have hfind := congrArg (List.find? (·.ticket == ticket)) h.held
    rw [List.find?_map, List.find?_map] at hfind
    exact hfind

/-- `forget` leaves the same lookups at both nodes, as they are told. -/
theorem Relayed.held_forget (h : s.Relayed signed t) (ticket : Nat) :
    (t.node.forget ticket).held.map (Held.told signed)
      = (s.node.forget ticket).held.map (Held.told signed) := by
  have herase := congrArg (List.eraseP (·.ticket == ticket)) h.held
  rw [List.eraseP_map, List.eraseP_map] at herase
  exact herase

/-- `release` preserves `Relayed`. -/
theorem relayed_release (h : s.Relayed signed t) (reason? : Option Value) (ticket? : Option Nat) :
    (s.release reason? ticket?).Relayed signed (t.release reason? ticket?) := by
  have hboth := h.next? ticket?
  rcases release_cases s reason? ticket? with ⟨hmine, heq⟩ | ⟨held, hmine, heq⟩
  · have htheirs : t.node.next? ticket? = none := by simpa [hmine] using hboth
    rcases release_cases t reason? ticket? with ⟨-, heq'⟩ | ⟨held', hsome, -⟩
    · rw [heq, heq']
      exact h
    · exact nomatch hsome.symm.trans htheirs
  · obtain ⟨held', htheirs, htold⟩ : ∃ held', t.node.next? ticket? = some held' ∧
        held'.told signed = held.told signed := by simpa [hmine] using hboth
    obtain ⟨hticket, hheight⟩ : held'.ticket = held.ticket
        ∧ held'.height.told signed = held.height.told signed := by simpa [Held.told] using htold
    have hmem := Node.mem_of_next? hmine
    have hsubset := Node.held_forget_subset s.node held.ticket
    have hshorter : ({ s with node := s.node.forget held.ticket } : Session).Relayed signed
        { t with node := t.node.forget held.ticket } :=
      { h with
        held := h.held_forget held.ticket
        flight := h.flight.of_subset hsubset
        issued := fun lookup hlookup => h.issued lookup (hsubset hlookup) }
    rcases release_cases t reason? ticket? with ⟨hnone, -⟩ | ⟨found, hfound, heq'⟩
    · exact nomatch hnone.symm.trans htheirs
    obtain rfl := Option.some.inj (htheirs.symm.trans hfound)
    rw [heq, heq', hticket]
    refine relayed_deliver hshorter held.ticket fun flight hflight hasked => ?_
    cases reason? with
    -- a failure is the same from both nodes
    | some reason => exact .failure rfl
    | none =>
      -- what is answered is what the pass waits for
      have halike := h.flight
      have hmine : s.flight? = some flight := hflight
      rw [hmine] at halike
      have hown : held.height = (flight.plan.expected flight.stage).number :=
        halike.sound.asked held hmem hasked.symm
      simp only [Node.answerOr]
      rw [← hown]
      exact Reply.alike_answer h.orderly h.blocks h.outage hheight.symm

/-- `call` preserves `Relayed`. -/
theorem relayed_call (h : s.Relayed signed t) (label : String) {trigger : Trigger}
    (token? : Option String)
    (htrigger : ∀ block, trigger = .signal block → block.number.isPlain signed = true) :
    (s.call label trigger token?).Relayed signed (t.call label trigger token?) := by
  let pass : Pass := { number := s.called, label, trigger, token? }
  -- the new pass is the only one whose signal has to be checked
  have hsignals : ∀ other ∈ s.waiting ++ [pass], ∀ block, other.trigger = .signal block →
      block.number.isPlain signed = true := by
    intro other hother
    rcases List.mem_append.mp hother with hbefore | hnew
    · exact h.signals other hbefore
    · obtain rfl : other = pass := by simpa using hnew
      exact htrigger
  simp only [call, h.waiting, h.called]
  exact ⟨{ h with waiting := rfl, called := rfl, signals := hsignals }, rfl⟩

/-- `dropBlock` leaves an orderly node, and the blocks that it serves. -/
theorem relayed_dropBlock (h : s.Relayed signed t) (height : Number) :
    (s.node.dropBlock height).isOrderly = true ∧
    (t.node.dropBlock height).blocks = (s.node.dropBlock height).served.blocks := by
  constructor
  · refine List.all_eq_true.mpr fun entry hentry => ?_
    exact List.all_eq_true.mp h.orderly entry (List.mem_of_mem_filter hentry)
  · simp only [Node.dropBlock, Node.served, h.blocks, List.filter_map]
    rfl

/-- `act` preserves `Relayed`. -/
theorem relayed_act (h : s.Relayed signed t) {action : Action}
    (haction : action.isOrderly signed = true) :
    (s.act action).Relayed signed (t.act action.served) := by
  -- action by action; what it brings in is checked, and the rest stays alike
  cases action with
  | record l2 l1 =>
    simp only [Action.served, act, record, h.tracker]
    exact ⟨{ h with tracker := rfl, links := Ring.plain_record h.links l2 haction }, rfl⟩
  | reset =>
    have hlinks : s.tracker.reset.links.Plain signed :=
      ⟨Ring.wellFormed_clear h.links.wellFormed, by simp [Tracker.reset]⟩
    simp only [Action.served, act, h.tracker]
    exact ⟨{ h with tracker := rfl, links := hlinks }, rfl⟩
  | call label trigger token? =>
    refine relayed_call h label token? fun block htrigger => ?_
    subst htrigger
    exact haction
  | cancel token reason => cases haction
  | setBlock height block =>
    obtain ⟨hothers, hserved⟩ := relayed_dropBlock h height
    have hnew : (s.node.setBlock height block).isOrderly = true :=
      List.all_cons.trans (Bool.and_eq_true_iff.mpr ⟨haction, hothers⟩)
    have hblocks : (t.node.setBlock height block.served).blocks
        = (s.node.setBlock height block).served.blocks := by
      simp [Node.setBlock, hserved, Node.served]
    exact ⟨{ h with blocks := hblocks, orderly := hnew }, rfl⟩
  | dropBlock height =>
    obtain ⟨hothers, hserved⟩ := relayed_dropBlock h height
    exact ⟨{ h with blocks := hserved, orderly := hothers }, rfl⟩
  | setOutage outage? => exact ⟨{ h with outage := rfl }, rfl⟩
  | hold holding => exact ⟨{ h with holding := rfl }, rfl⟩
  | release reason? ticket? => exact ⟨relayed_release h reason? ticket?, rfl⟩
  | move block =>
    simp only [Action.served, act, h.engine]
    exact ⟨{ h with engine := rfl }, rfl⟩
  | setRefusal reason? => exact ⟨{ h with refusal := rfl }, rfl⟩

/-- `actAll` preserves `Relayed`. -/
theorem relayed_actAll (h : s.Relayed signed t) {actions : List Action}
    (hactions : actions.all (Action.isOrderly signed) = true) :
    (s.actAll actions).Relayed signed (t.actAll (actions.map Action.served)) := by
  induction actions generalizing s t with
  | nil => exact ⟨h, rfl⟩
  | cons action actions ih =>
    rw [List.all_cons, Bool.and_eq_true] at hactions
    have hact := relayed_act h hactions.1
    exact (ih hact.session hactions.2).after hact.told

/-- `step` preserves `Relayed`. -/
theorem relayed_step (h : s.Relayed signed t) {actions : List Action}
    (hactions : actions.all (Action.isOrderly signed) = true) :
    (s.step actions).Relayed signed (t.step (actions.map Action.served)) := by
  have hacted := relayed_actAll h hactions
  exact (relayed_settle hacted.session).after hacted.told

end Session

end Settlement
