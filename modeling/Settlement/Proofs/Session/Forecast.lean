import Settlement.Proofs.Outlook
import Settlement.Proofs.Session.Vouched

/-!
# Forecasts

Where the head of an engine ends up can be told before the passes have run, as long as nobody does
anything but send finality signals and the node vouches for all blocks: the pass in flight is going
to commit its candidate, and those that wait for their turn heed their signals one after the other
(`Session.forecast`). How long lookups wait makes no difference to that.

## Key results

- `Assured.advance`: letting a pass run leaves the forecast as it is
- `Assured.call`: a signal that is sent is heeded last
- `assured_play`: the forecast after any such moves
-/

namespace Settlement

/-- The signal that a move calls for a pass with. -/
def Move.signal? : Move → Option Header
  | .act (.call _ trigger _) => trigger.signal?
  | _ => none

/-- The move sends a signal under a token that is not cancelled, makes lookups wait, has one
answered, or lets a pass run. -/
def Move.IsSending (cancelled : Cancellations) : Move → Prop
  | .act (.call _ (.signal _) token?) => cancelled.reason? token? = none
  | .act (.hold _) | .act (.release none _) | .advance => True
  | _ => False

namespace Session

variable {s t : Session} {pass : Pass} {plan : Plan} {flight : Flight} {moves : List Move}

/-! ## Sessions that everything is vouched for -/

/-- The pass in flight is `Ready`, and the answer to its lookup has the hash that it expects. -/
structure Awaited (s : Session) (flight : Flight) : Prop where
  ready : s.Ready flight.pass flight.plan
  issued : flight.ticket < s.tickets
  asked : ∀ held ∈ s.node.held, held.ticket = flight.ticket →
    s.source.address (flight.plan.expected flight.stage).number = .ok held.height
  heard : ∀ reply, flight.reply? = some reply →
    reply.hash? = some (flight.plan.expected flight.stage).hash

/-- The node `Vouches` for the L1 block of every link and for every signal to come, and no pass is
cancelled. -/
structure Assured (s : Session) : Prop where
  links : ∀ link ∈ s.tracker.links.toList, s.Vouches link.l1
  waiting : ∀ pass ∈ s.waiting, s.reason? pass = none ∧
    ∃ block : Header, pass.trigger = .signal block ∧ s.Vouches block.toBlockId
  issued : s.Issued
  flight : ∀ flight, s.flight? = some flight → s.Awaited flight

/-- The sessions agree on where blocks come from, on the links, and on what is cancelled or
refused. -/
structure Level (s t : Session) : Prop where
  source : t.source = s.source
  blocks : t.node.blocks = s.node.blocks
  outage : t.node.outage? = s.node.outage?
  links : t.tracker.links = s.tracker.links
  cancelled : t.cancelled = s.cancelled
  refusal : t.refusal? = s.refusal?

theorem Level.refl (s : Session) : Level s s := ⟨rfl, rfl, rfl, rfl, rfl, rfl⟩

/-- `Level` is transitive. -/
theorem Level.trans {u : Session} (h : Level s t) (h' : Level t u) : Level s u where
  source := h'.source.trans h.source
  blocks := h'.blocks.trans h.blocks
  outage := h'.outage.trans h.outage
  links := h'.links.trans h.links
  cancelled := h'.cancelled.trans h.cancelled
  refusal := h'.refusal.trans h.refusal

/-- `Level` preserves `Vouches`. -/
theorem Level.vouches (h : Level s t) {id : BlockId} (hs : s.Vouches id) : t.Vouches id := by
  unfold Vouches
  rw [promptReply_congr h.source h.blocks h.outage]
  exact hs

/-- `Level` preserves `reason?`. -/
theorem Level.reason?_eq (h : Level s t) (pass : Pass) : t.reason? pass = s.reason? pass :=
  congrArg (Cancellations.reason? · pass.token?) h.cancelled

/-- `Level` preserves `Ready`, for the same generation and engine. -/
theorem Level.ready (h : Level s t) (hgeneration : t.tracker.generation = s.tracker.generation)
    (hengine : t.engine = s.engine) (hs : s.Ready pass plan) : t.Ready pass plan where
  free := (h.reason?_eq pass).trans hs.free
  generation := hgeneration.trans hs.generation
  higher := hengine ▸ hs.higher
  vouched stage := h.vouches (hs.vouched stage)

/-- `Awaited` holds of no flight at all. -/
theorem awaited_of_landed (h : s.flight? = none) (flight : Flight)
    (hflight : s.flight? = some flight) : s.Awaited flight := nomatch h.symm.trans hflight

/-- `Assured` passes between `Level` sessions, but for lookups and the flight. -/
theorem Assured.of_level (h : s.Assured) (hlevel : Level s t) (hwaiting : t.waiting ⊆ s.waiting)
    (hissued : t.Issued) (hflight : ∀ flight, t.flight? = some flight → t.Awaited flight) :
    t.Assured where
  links link hmem := hlevel.vouches (h.links link (hlevel.links ▸ hmem))
  waiting pass hmem := by
    obtain ⟨hfree, block, htrigger, hvouched⟩ := h.waiting pass (hwaiting hmem)
    exact ⟨(hlevel.reason?_eq pass).trans hfree, block, htrigger, hlevel.vouches hvouched⟩
  issued := hissued
  flight := hflight

/-- The outlook once the pass in flight is over. -/
def outlook (s : Session) : Outlook where
  tracker := s.tracker
  head := match s.flight? with
    | some flight => if s.refusal?.isNone then flight.plan.candidate else s.engine.head
    | none => s.engine.head

/-- The outlook once all passes are over. -/
def forecast (s : Session) : Outlook :=
  (s.waiting.filterMap (·.trigger.signal?)).foldl (Outlook.heed s.refusal?.isNone) s.outlook

/-! ## Letting passes run -/

/-- `Comes` preserves `Assured` and moves the head of the `outlook` to the candidate, unless the
engine refuses. -/
theorem Comes.assured (h : Comes s pass plan t) (hs : s.Assured) (hready : s.Ready pass plan) :
    t.Assured ∧ Level s t ∧ t.waiting = s.waiting ∧ t.outlook = {
      tracker := s.tracker
      head := if s.refusal?.isNone then plan.candidate else s.engine.head } := by
  cases h with
  | @waits stage height address =>
    have hlevel : Level s (s.await pass plan stage height) := ⟨rfl, rfl, rfl, rfl, rfl, rfl⟩
    have hissued : (s.await pass plan stage height).Issued := hs.issued.await height
    refine ⟨hs.of_level hlevel (List.Subset.refl _) hissued fun flight hflight => ?_, hlevel,
      rfl, rfl⟩
    obtain rfl := Option.some.inj hflight
    refine ⟨hlevel.ready rfl rfl hready, Nat.lt_succ_self _, fun held hmem hticket => ?_, nofun⟩
    -- of the lookups at the node only the new one has the new ticket
    rcases List.mem_append.mp hmem with hmem | hmem
    · exact absurd hticket (hs.issued held hmem).ne
    · obtain rfl := List.mem_singleton.mp hmem
      exact address
  | commits =>
    let landed : Session := { s with
      engine := if s.refusal?.isNone then s.engine.commit plan.candidate else s.engine
      flight? := none }
    have hlevel : Level s landed := ⟨rfl, rfl, rfl, rfl, rfl, rfl⟩
    refine ⟨?_, hlevel, rfl, ?_⟩
    · exact hs.of_level hlevel (List.Subset.refl _) hs.issued (awaited_of_landed rfl)
    · simp only [outlook]
      split <;> rfl

/-- The second session is `Assured` and `Level` with the first, and its `forecast` heeds the signals
sent in addition. -/
structure Upholds (s : Session) (sent : List Header) (t : Session) : Prop where
  assured : t.Assured
  level : Level s t
  forecast : t.forecast = sent.foldl (Outlook.heed s.refusal?.isNone) s.forecast

theorem Assured.refl (h : s.Assured) : Upholds s [] s := ⟨h, .refl s, rfl⟩

/-- `Upholds` is transitive, with the signals of both. -/
theorem Upholds.trans {u : Session} {sent later : List Header} (h : Upholds s sent t)
    (h' : Upholds t later u) : Upholds s (sent ++ later) u where
  assured := h'.assured
  level := h.level.trans h'.level
  forecast := by rw [h'.forecast, h.level.refusal, h.forecast, List.foldl_append]

/-- `resume` upholds the forecast. -/
theorem Assured.resume (h : s.Assured) (hf : s.flight? = some flight) {reply : Reply}
    (hreply : flight.reply? = some reply) : Upholds s [] (s.resume flight reply).1 := by
  have hawaited := h.flight flight hf
  -- the same session with nobody in flight is assured, too
  let landed : Session := { s with flight? := none }
  have hlevel : Level s landed := ⟨rfl, rfl, rfl, rfl, rfl, rfl⟩
  have hlanded : landed.Assured :=
    h.of_level hlevel (List.Subset.refl _) h.issued (awaited_of_landed rfl)
  have hready : landed.Ready flight.pass flight.plan := hlevel.ready rfl rfl hawaited.ready
  -- there the pass waits again or commits
  have hcomes : Comes landed flight.pass flight.plan (s.resume flight reply).1 :=
    resume_comes hawaited.ready (hawaited.heard reply hreply)
  obtain ⟨hassured, hcome, hwaiting, houtlook⟩ := hcomes.assured hlanded hready
  refine ⟨hassured, hlevel.trans hcome, ?_⟩
  -- and its commit is what the forecast had ahead of it
  have hsame : s.outlook = {
      tracker := s.tracker
      head := if s.refusal?.isNone then flight.plan.candidate else s.engine.head } := by
    simp only [outlook, hf]
  rw [List.foldl_nil, forecast, forecast, houtlook, hwaiting, hcome.refusal, hsame]

/-- `plan?` in a session that is `Assured` is `Ready`. -/
theorem Assured.ready (h : s.Assured) (hfree : s.reason? pass = none)
    (hsignal : s.Vouches s.tracker.signal.toBlockId)
    (hplan : s.tracker.plan? s.engine.head = some plan) : s.Ready pass plan := by
  obtain ⟨hplanned, hgeneration, hlink, -, hhigher⟩ := Tracker.plan?_eq_some hplan
  refine ⟨hfree, hgeneration.symm, hhigher, fun stage => ?_⟩
  -- the signal is vouched for, and so is the link of the plan
  cases stage with
  | signal =>
    show s.Vouches plan.signal.toBlockId
    rw [hplanned]
    exact hsignal
  | provenance => exact h.links _ hlink

/-- `start` does nothing for a signal older than the one known. -/
theorem fst_start_of_lt {block : Header} (htrigger : pass.trigger = .signal block)
    (hold : block.number < s.tracker.signal.number) :
    (s.start pass).1 = { s with flight? := none } := by
  have hintake : s.tracker.intake pass.trigger = (s.tracker, .outdated) := by
    rw [htrigger]
    exact if_pos hold
  simp only [start, hintake]
  rfl

/-- `start` adopts any other signal and goes on with the plan, if there is one. -/
theorem fst_start_of_not_lt {block : Header} (htrigger : pass.trigger = .signal block)
    (hnew : ¬block.number < s.tracker.signal.number) :
    (s.start pass).1 = match (s.tracker.adopt block).plan? s.engine.head with
      | some plan => ({ s with tracker := s.tracker.adopt block }.checkSignal pass plan).1
      | none => { s with tracker := s.tracker.adopt block, flight? := none } := by
  have hintake : s.tracker.intake pass.trigger = (s.tracker.adopt block, .due) := by
    rw [htrigger]
    exact if_neg hnew
  simp only [start, hintake]
  cases (s.tracker.adopt block).plan? s.engine.head <;> rfl

/-- `Upholds` holds where the `outlook` heeds the signal of the first pass in line. -/
theorem upholds_of_heeds {rest : List Pass} (hw : s.waiting = pass :: rest) {block : Header}
    (htrigger : pass.trigger = .signal block) (ht : t.Assured) (hlevel : Level s t)
    (hwaiting : t.waiting = rest)
    (houtlook : t.outlook = s.outlook.heed s.refusal?.isNone block) : Upholds s [] t where
  assured := ht
  level := hlevel
  forecast := by
    simp only [Session.forecast, hlevel.refusal, houtlook, hwaiting, hw, List.filterMap_cons,
      htrigger, Trigger.signal?, List.foldl_cons, List.foldl_nil]

/-- `start` upholds the forecast for a signal older than the one known. -/
theorem Assured.start_of_lt {rest : List Pass} {block : Header} (h : s.Assured)
    (hf : s.flight? = none) (hw : s.waiting = pass :: rest)
    (htrigger : pass.trigger = .signal block)
    (hold : block.number < s.tracker.signal.number) :
    Upholds s [] ({ s with waiting := rest }.start pass).1 := by
  -- the pass is taken out of line, and that is all
  let ahead : Session := { s with waiting := rest, flight? := none }
  have hstart : ({ s with waiting := rest }.start pass).1 = ahead := fst_start_of_lt htrigger hold
  have hrest : rest ⊆ s.waiting := fun other hmem => hw ▸ List.mem_cons_of_mem _ hmem
  have hlevel : Level s ahead := ⟨rfl, rfl, rfl, rfl, rfl, rfl⟩
  have hahead : ahead.Assured := h.of_level hlevel hrest h.issued (awaited_of_landed rfl)
  rw [hstart]
  refine upholds_of_heeds hw htrigger hahead hlevel rfl ?_
  -- nor does the forecast heed its signal
  have hsignal : block.number < s.outlook.tracker.signal.number := hold
  rw [Outlook.heed_of_lt hsignal]
  simp only [outlook, hf]
  rfl

/-- `start` upholds the forecast for any other signal. -/
theorem Assured.start_of_not_lt {rest : List Pass} {block : Header} (h : s.Assured)
    (hf : s.flight? = none) (hw : s.waiting = pass :: rest)
    (htrigger : pass.trigger = .signal block)
    (hfree : s.reason? pass = none) (hvouched : s.Vouches block.toBlockId)
    (hnew : ¬block.number < s.tracker.signal.number) :
    Upholds s [] ({ s with waiting := rest }.start pass).1 := by
  let took : Session := { s with waiting := rest, tracker := s.tracker.adopt block }
  have hrest : rest ⊆ s.waiting := fun other hmem => hw ▸ List.mem_cons_of_mem _ hmem
  have hlevel : Level s took := ⟨rfl, rfl, rfl, Tracker.links_adopt .., rfl, rfl⟩
  have hheed : s.outlook.heed s.refusal?.isNone block = {
      tracker := took.tracker
      head := Outlook.reach s.refusal?.isNone s.engine.head took.tracker.finals } := by
    have hsignal : ¬block.number < s.outlook.tracker.signal.number := hnew
    rw [Outlook.heed_of_not_lt hsignal]
    simp only [outlook, hf]
    rfl
  have hstart := fst_start_of_not_lt (s := { s with waiting := rest }) htrigger hnew
  cases hplan : (s.tracker.adopt block).plan? s.engine.head with
  | none =>
    -- nothing is above the head, and there it stays
    let ahead : Session := { took with flight? := none }
    have hover : Level s ahead := ⟨rfl, rfl, rfl, hlevel.links, rfl, rfl⟩
    have hahead : ahead.Assured := h.of_level hover hrest h.issued (awaited_of_landed rfl)
    have hstays : Outlook.reach s.refusal?.isNone s.engine.head took.tracker.finals
        = s.engine.head := by
      unfold Outlook.reach
      rw [Tracker.climb_of_plan?_eq_none hplan, ite_self]
    simp only [hplan] at hstart
    rw [hstart]
    refine upholds_of_heeds hw htrigger hahead hover rfl ?_
    rw [hheed, hstays]
    rfl
  | some plan =>
    have htook : took.Assured := h.of_level hlevel hrest h.issued (awaited_of_landed hf)
    -- a signal that is the same as the one known is vouched for under its own height too
    have hsignal : took.Vouches took.tracker.signal.toBlockId := by
      rcases Tracker.adopt_cases s.tracker block with heq | ⟨heq, hsame⟩
      · exact hlevel.vouches (heq ▸ hvouched)
      · exact hlevel.vouches (heq ▸ hvouched.congr hsame)
    have hready : took.Ready pass plan :=
      htook.ready ((hlevel.reason?_eq pass).trans hfree) hsignal hplan
    obtain ⟨hassured, hcome, hwaiting, hafter⟩ := (checkSignal_comes hready).assured htook hready
    have hclimbs : Outlook.reach s.refusal?.isNone s.engine.head took.tracker.finals
        = if s.refusal?.isNone then plan.candidate else s.engine.head := by
      unfold Outlook.reach
      rw [Tracker.climb_of_plan? hplan]
    simp only [hplan] at hstart
    rw [hstart]
    refine upholds_of_heeds hw htrigger hassured (hlevel.trans hcome) hwaiting ?_
    rw [hafter, hheed, hclimbs]

/-- `start` upholds the forecast. -/
theorem Assured.start {rest : List Pass} (h : s.Assured) (hf : s.flight? = none)
    (hw : s.waiting = pass :: rest) : Upholds s [] ({ s with waiting := rest }.start pass).1 := by
  obtain ⟨hfree, block, htrigger, hvouched⟩ := h.waiting pass (hw ▸ List.mem_cons_self)
  by_cases hold : block.number < s.tracker.signal.number
  · exact h.start_of_lt hf hw htrigger hold
  · exact h.start_of_not_lt hf hw htrigger hfree hvouched hold

/-- `advance` upholds the forecast. -/
theorem Assured.advance (h : s.Assured) : Upholds s [] s.advance.1 := by
  cases hf : s.flight? with
  | some flight =>
    -- the pass in flight waits, or goes on
    cases hr : flight.reply? with
    | none =>
      rw [advance_wait hf hr]
      exact h.refl
    | some reply =>
      rw [advance_resume hf hr]
      exact h.resume hf hr
  | none =>
    -- the next one starts, if there is one
    cases hw : s.waiting with
    | nil =>
      rw [advance_idle hf hw]
      exact h.refl
    | cons pass rest =>
      rw [advance_start hf hw]
      exact h.start hf hw

/-! ## Acting -/

/-- `Awaited` is preserved when lookups are over. -/
theorem Awaited.of_subset (h : s.Awaited flight) {rest : List Held} (hrest : rest ⊆ s.node.held) :
    Awaited { s with node := { s.node with held := rest } } flight := by
  have hlevel : Level s { s with node := { s.node with held := rest } } :=
    ⟨rfl, rfl, rfl, rfl, rfl, rfl⟩
  exact ⟨hlevel.ready rfl rfl h.ready, h.issued, fun held hmem => h.asked held (hrest hmem),
    h.heard⟩

/-- The answer to the lookup of a pass `Awaited` has the hash that it expects. -/
theorem Awaited.hash?_deliver (h : s.Awaited flight) {held : Held} (hmem : held ∈ s.node.held)
    (hticket : held.ticket = flight.ticket) :
    (s.source.deliver (flight.plan.expected flight.stage).number
      (s.node.answer held.height)).hash? = some (flight.plan.expected flight.stage).hash := by
  have hvouched := h.ready.vouched flight.stage
  unfold Vouches promptReply at hvouched
  rw [h.asked held hmem hticket] at hvouched
  exact hvouched

/-- `release` upholds the forecast. -/
theorem Assured.release (h : s.Assured) (ticket? : Option Nat) :
    Upholds s [] (s.release none ticket?) := by
  rcases release_cases s none ticket? with ⟨-, heq⟩ | ⟨held, hnext, heq⟩
  · rw [heq]
    exact h.refl
  · rw [heq]
    let answered : Session := { s with node := s.node.forget held.ticket }
    have hrest := Node.held_forget_subset s.node held.ticket
    show Upholds s [] (answered.deliver held.ticket (s.node.answer held.height))
    rcases deliver_cases answered held.ticket (s.node.answer held.height) with
      hdeliver | ⟨flight, hf, hticket, -, hdeliver⟩
    -- nobody hears the answer
    · have hlevel : Level s answered := ⟨rfl, rfl, rfl, rfl, rfl, rfl⟩
      rw [hdeliver]
      refine ⟨h.of_level hlevel (List.Subset.refl _) ?_ ?_, hlevel, rfl⟩
      · exact fun held hmem => h.issued held (hrest hmem)
      · exact fun flight hf => (h.flight flight hf).of_subset hrest
    -- the pass in flight hears what it waits for
    · have hflight : s.flight? = some flight := hf
      have hawaited := h.flight flight hflight
      let told : Flight := { flight with
        reply? := some (s.source.deliver (flight.plan.expected flight.stage).number
          (s.node.answer held.height)) }
      let after : Session := { answered with flight? := some told }
      have hlevel : Level s after := ⟨rfl, rfl, rfl, rfl, rfl, rfl⟩
      have htold : after.Awaited told := by
        refine ⟨hlevel.ready rfl rfl hawaited.ready, hawaited.issued,
          fun other hmem => hawaited.asked other (hrest hmem), fun reply hreply => ?_⟩
        obtain rfl := Option.some.inj hreply
        exact hawaited.hash?_deliver (Node.mem_of_next? hnext) hticket.symm
      have hissued : after.Issued := fun other hmem => h.issued other (hrest hmem)
      have hafter : answered.deliver held.ticket (s.node.answer held.height) = after := hdeliver
      rw [hafter]
      refine ⟨h.of_level hlevel (List.Subset.refl _) hissued fun flight hf => ?_, hlevel, ?_⟩
      · obtain rfl := Option.some.inj hf
        exact htold
      · have houtlook : after.outlook = s.outlook := by
          simp only [outlook, hflight]
          rfl
        rw [List.foldl_nil, forecast, houtlook]
        rfl

/-- `hold` upholds the forecast. -/
theorem Assured.hold (h : s.Assured) (holding : Bool) :
    Upholds s [] { s with node := { s.node with holding } } := by
  have hlevel : Level s { s with node := { s.node with holding } } := ⟨rfl, rfl, rfl, rfl, rfl, rfl⟩
  refine ⟨h.of_level hlevel (List.Subset.refl _) h.issued fun flight hf => ?_, hlevel, rfl⟩
  have hawaited := h.flight flight hf
  exact ⟨hlevel.ready rfl rfl hawaited.ready, hawaited.issued, hawaited.asked, hawaited.heard⟩

/-- `call` adds its signal to the forecast. -/
theorem Assured.call (h : s.Assured) (label : String) {block : Header} {token? : Option String}
    (hfree : s.cancelled.reason? token? = none) (hvouched : s.Vouches block.toBlockId) :
    Upholds s [block] (s.call label (.signal block) token?).1 := by
  have hlevel : Level s (s.call label (.signal block) token?).1 := ⟨rfl, rfl, rfl, rfl, rfl, rfl⟩
  refine ⟨⟨fun link hmem => hlevel.vouches (h.links link hmem), fun pass hmem => ?_, h.issued,
    fun flight hf => ?_⟩, hlevel, ?_⟩
  -- those in line before, and the new one
  · rcases List.mem_append.mp hmem with hmem | hmem
    · obtain ⟨hreason, other, htrigger, hother⟩ := h.waiting pass hmem
      exact ⟨hreason, other, htrigger, hlevel.vouches hother⟩
    · obtain rfl := List.mem_singleton.mp hmem
      exact ⟨hfree, block, rfl, hlevel.vouches hvouched⟩
  · have hawaited := h.flight flight hf
    exact ⟨hlevel.ready rfl rfl hawaited.ready, hawaited.issued, hawaited.asked, hawaited.heard⟩
  -- its signal is heeded after those before it
  · simp only [forecast, Session.call, List.filterMap_append, List.foldl_append]
    rfl

/-- `move` adds the signal that it sends to the forecast, if it sends one. -/
theorem Assured.move (h : s.Assured) {m : Move} (hsends : m.IsSending s.cancelled)
    (hvouched : ∀ block ∈ m.signal?, s.Vouches block.toBlockId) :
    Upholds s m.signal?.toList (s.move m).1 := by
  unfold Move.IsSending at hsends
  split at hsends
  · exact h.call _ hsends (hvouched _ rfl)
  · exact h.hold _
  · exact h.release _
  · exact h.advance
  · exact hsends.elim

/-- `play` of moves with `IsSending` adds the signals that they send to the forecast, in their
order. -/
theorem assured_play (h : s.Assured) (hsends : ∀ m ∈ moves, m.IsSending s.cancelled)
    (hvouched : ∀ block ∈ moves.filterMap Move.signal?, s.Vouches block.toBlockId) :
    Upholds s (moves.filterMap Move.signal?) (s.play moves).1 := by
  induction moves generalizing s with
  | nil => exact h.refl
  | cons m moves ih =>
    have hsignals : (m :: moves).filterMap Move.signal?
        = m.signal?.toList ++ moves.filterMap Move.signal? := by
      cases hm : m.signal? <;> simp [hm]
    rw [hsignals] at hvouched ⊢
    have hmove := h.move (hsends m List.mem_cons_self) fun block hmem =>
      hvouched block (List.mem_append_left _ (Option.mem_toList.mpr hmem))
    -- what is cancelled and what the node vouches for is the same after the move
    have hlater : ∀ m' ∈ moves, m'.IsSending (s.move m).1.cancelled := fun m' hmem =>
      hmove.level.cancelled ▸ hsends m' (List.mem_cons_of_mem _ hmem)
    have hplay := ih hmove.assured hlater fun block hmem =>
      hmove.level.vouches (hvouched block (List.mem_append_right _ hmem))
    rw [play_cons, Progress.fst_after]
    exact hmove.trans hplay

end Session

end Settlement
