import Settlement.Proofs.Serial
import Settlement.Proofs.Session.Heedless
import Settlement.Proofs.Session.Starting
import Settlement.Proofs.Session.Turn

/-!
# Cancellation

A token that has been cancelled stays cancelled. From then on a pass that carries it asks for
nothing and commits nothing: if it has anything to finalize, it fails for the time being with its
next turn. Over RPC it does not wait for that turn, since the cancellation takes the place of the
reply it was waiting for; what comes back later for its lookup is for nobody. All other passes go
their way.

## Key results

- `fails_of_cancelled`: the next turn of a pass that is cancelled
- `watched_play`: over RPC nobody waits who is cancelled
- `advance_spare`: other passes go on as if the token had not been cancelled
- `cancellation_final`: the cancellation of a token is final for all passes that carry it
-/

namespace Settlement

/-- `reason?` of a token that is cancelled stays, whatever is cancelled next. -/
theorem Cancellations.reason?_cancel_of_some {c : Cancellations} {token? : Option String}
    {reason : Value} (h : c.reason? token? = some reason) (token : String) (given : Value) :
    (c.cancel token given).reason? token? = some reason := by
  -- the first reason given stays, and other tokens keep theirs
  by_cases hsame : token? = some token
  · subst hsame
    have hlookup : c.lookup token = some reason := h
    have hsome : (c.lookup token).isSome = true := by rw [hlookup]; rfl
    rw [cancel_of_isSome given hsome]
    exact h
  · rw [Session.reason?_cancel (by simpa using hsame)]
    exact h

/-- `reason?` of a token that has just been cancelled is some reason. -/
theorem Cancellations.exists_reason?_cancel (c : Cancellations) (token : String) (given : Value) :
    ∃ reason, (c.cancel token given).reason? (some token) = some reason := by
  show ∃ reason, (c.cancel token given).lookup token = some reason
  unfold cancel
  split
  · rename_i hsome
    exact Option.isSome_iff_exists.mp hsome
  · exact ⟨_, List.lookup_cons_self⟩

/-- `reason?` of other tokens stays when one is taken out. -/
theorem Cancellations.reason?_filter {c : Cancellations} {token : String} {token? : Option String}
    (h : token? ≠ some token) :
    Cancellations.reason? (c.filter (·.1 != token)) token? = c.reason? token? := by
  cases token? with
  | none => rfl
  | some other =>
    have hother : other ≠ token := fun heq => h (congrArg some heq)
    show List.lookup other (c.filter (·.1 != token)) = List.lookup other c
    induction c with
    | nil => rfl
    -- the entry is the one that goes, or stays in front of what is left
    | cons entry c ih =>
      by_cases hentry : entry.1 = token
      · have hskip : (other == entry.1) = false := by simpa [hentry] using hother
        rw [List.filter_cons_of_neg (by simp [hentry]), ih, List.lookup_cons, hskip]
      · rw [List.filter_cons_of_pos (by simp [hentry]), List.lookup_cons, List.lookup_cons, ih]

namespace Session

variable {s : Session} {pass : Pass} {plan : Plan} {p : Progress} {m : Move} {moves : List Move}
  {token : String} {reason : Value}

/-! ## Reasons stay -/

/-- A `Leg` cancels nothing. -/
theorem Leg.cancelled_eq {begun : Prop} {made : List Event} (h : Leg pass plan begun s made p) :
    p.1.cancelled = s.cancelled := by
  cases h <;> rfl

/-- `advance` cancels nothing. -/
theorem cancelled_advance (s : Session) : s.advance.1.cancelled = s.cancelled := by
  have hadvanced := advanced s
  generalize s.advance = p at hadvanced
  cases hadvanced with
  | stays => rfl
  | resumes flight_eq leg => exact (leg []).cancelled_eq
  | passes flight_eq waiting_eq => rfl
  | starts flight_eq waiting_eq due plan_eq leg => exact leg.cancelled_eq

/-- `act` changes the tokens as `Action.onCancelled` says. -/
theorem cancelled_act (s : Session) (action : Action) :
    (s.act action).1.cancelled = action.onCancelled s.cancelled := by
  have hcore : (s.act action).1.core.cancelled = (action.onCore s.core).cancelled := by
    rw [core_act]
  exact hcore

/-- `reason?` of a pass that is cancelled stays in `move`. -/
theorem reason?_move (h : s.reason? pass = some reason) (m : Move) :
    (s.move m).1.reason? pass = some reason := by
  cases m with
  | act action =>
    show (s.act action).1.cancelled.reason? pass.token? = some reason
    rw [cancelled_act]
    -- nothing but a cancellation touches the tokens
    cases action with
    | cancel token given => exact Cancellations.reason?_cancel_of_some h token given
    | _ => exact h
  | advance =>
    show s.advance.1.cancelled.reason? pass.token? = some reason
    rw [cancelled_advance]
    exact h

/-- `reason?` of a pass that is cancelled stays in `play`. -/
theorem reason?_play (h : s.reason? pass = some reason) (moves : List Move) :
    (s.play moves).1.reason? pass = some reason := by
  induction moves generalizing s with
  | nil => exact h
  | cons m moves ih =>
    rw [play_cons, Progress.fst_after]
    exact ih (reason?_move h m)

/-- `reason?` of a pass that carries the token is some reason after `cancel`. -/
theorem exists_reason?_of_cancel (s : Session) (token : String) (given : Value)
    (hpass : pass.token? = some token) :
    ∃ reason, (s.act (.cancel token given)).1.reason? pass = some reason := by
  show ∃ reason, (s.act (.cancel token given)).1.cancelled.reason? pass.token? = some reason
  rw [cancelled_act, hpass]
  exact Cancellations.exists_reason?_cancel ..

end Session

namespace Event

/-- The number of the pass that asks for a block or commits one, if that is what happens. -/
def doer? : Event → Option Nat
  | .asked number _ | .committed number _ => some number
  | _ => none

/-- Nothing is asked for and nothing is committed in `events`. -/
def Idle (events : List Event) : Prop := ∀ e ∈ events, e.doer? = none

/-- `Idle` events are idle one after the other. -/
theorem Idle.append {xs ys : List Event} (hx : Idle xs) (hy : Idle ys) : Idle (xs ++ ys) :=
  fun e he => (List.mem_append.mp he).elim (hx e) (hy e)

/-- Openings are `Idle`. -/
theorem idle_of_isOpening {events : List Event} (h : ∀ e ∈ events, e.isOpening = true) :
    Idle events := by
  intro e he
  have hopening := h e he
  cases e <;> first | rfl | exact nomatch hopening

/-- `doer?` of an event that is a pass's own is the number of that pass. -/
theorem IsOwn.number_eq {pass : Pass} {e : Event} (h : e.IsOwn pass) {number : Nat}
    (hdoer : e.doer? = some number) : pass.number = number := by
  cases e with
  | asked | committed => exact h.symm.trans (Option.some.inj hdoer)
  | _ => exact nomatch hdoer

end Event

namespace Session

variable {s : Session} {pass : Pass} {plan : Plan} {p : Progress} {m : Move} {moves : List Move}
  {token : String} {reason : Value}

/-! ## The turn of a pass that is cancelled -/

/-- `close` is `Idle`. -/
theorem idle_close (s : Session) (pass : Pass) (ending : Ending) :
    Event.Idle (s.close pass ending).2 := by
  intro e he
  rcases mem_close.mp he with ⟨notice, -, rfl⟩ | rfl <;> rfl

/-- The stage of the pass that has its turn: that of the lookup it waits for, or the first one. -/
def stage (s : Session) : Stage := s.flight?.elim .signal Flight.stage

/-- What a cancelled pass puts its failure down to when it has its turn: the failure of its lookup,
if that is the reply it has got, and otherwise the reason of its cancellation. -/
def blame? (s : Session) (pass : Pass) : Option Value :=
  match s.flight?.bind Flight.reply? with
  | some (.failure reason) => some reason
  | _ => s.reason? pass

/-- A cancelled pass fails for the time being when the session advances. It could not reach the
block of its stage (`Session.stage`), and puts that down to `Session.blame?`. -/
def CutShort (s : Session) (pass : Pass) (plan : Plan) : Prop :=
  ∃ cause, s.blame? pass = some cause ∧ (plan.unreached s.stage cause).failure.kind = .temporary ∧
    s.Fails pass (plan.unreached s.stage cause).failure s.advance.2

/-- `resume` of a pass that is cancelled does no more than to hear the reply and fail with
`blame?`. -/
theorem resume_of_cancelled {flight : Flight} {reply : Reply} (hf : s.flight? = some flight)
    (hr : flight.reply? = some reply) (hreason : s.reason? flight.pass = some reason) :
    ∃ cause, s.blame? flight.pass = some cause ∧ s.resume flight reply =
      .after [.answered flight.pass.number (flight.plan.expected flight.stage).number reply]
        ({ s with flight? := none }.fail flight.pass
          (flight.plan.unreached flight.stage cause)) := by
  -- a failure is blamed on its cause, and any block on the cancellation
  obtain ⟨cause, hblame, hcheck⟩ : ∃ cause, s.blame? flight.pass = some cause ∧
      ∀ stage, flight.plan.check stage reply (s.reason? flight.pass)
        = .blocked (flight.plan.unreached stage cause) := by
    cases reply with
    | failure cause => exact ⟨cause, by simp [blame?, hf, hr], fun stage => rfl⟩
    | block found =>
      exact ⟨reason, by simp [blame?, hf, hr, hreason], fun stage => by rw [hreason]; rfl⟩
  refine ⟨cause, hblame, ?_⟩
  let t : Session := { s with flight? := none }
  have hanswer : ∀ stage passed, t.answer flight.pass flight.plan stage reply passed =
      .after [.answered flight.pass.number (flight.plan.expected stage).number reply]
        (t.fail flight.pass (flight.plan.unreached stage cause)) := by
    intro stage passed
    have hblocked : flight.plan.check stage reply (t.reason? flight.pass) = _ := hcheck stage
    rw [answer, hblocked]
  unfold resume
  cases flight.stage with
  | signal => exact hanswer .signal _
  | provenance => exact hanswer .provenance _

/-- `advance` with a pass that is cancelled and has its turn: it fails at its `stage`. It may have
started or heard its reply before, but has asked for nothing and committed nothing. -/
theorem advance_of_cancelled (hpursues : s.Pursues pass plan)
    (hready : ∀ flight, s.flight? = some flight → flight.reply?.isSome = true)
    (hreason : s.reason? pass = some reason) :
    ∃ (t : Session) (cause : Value) (before : List Event), t.log? = s.log? ∧
      s.blame? pass = some cause ∧ Event.Idle before ∧
      s.advance = .after before (t.fail pass (plan.unreached s.stage cause)) := by
  rcases hpursues with ⟨flight, hf, rfl, rfl⟩ | ⟨hf, hhead, hplan⟩
  · obtain ⟨reply, hr⟩ := Option.isSome_iff_exists.mp (hready flight hf)
    obtain ⟨cause, hblame, hresume⟩ := resume_of_cancelled hf hr hreason
    have hstage : s.stage = flight.stage := by rw [stage, hf]; rfl
    have hidle : Event.Idle
        [.answered flight.pass.number (flight.plan.expected flight.stage).number reply] := by
      simp [Event.Idle, Event.doer?]
    refine ⟨{ s with flight? := none }, cause, _, rfl, hblame, hidle, ?_⟩
    rw [advance_resume hf hr, hresume, hstage]
  · -- it makes no lookup at all, since its start comes after the cancellation
    obtain ⟨t, halike, -, -, hadvance⟩ := advance_of_planFor? hf hhead hplan
    have hstage : s.stage = .signal := by rw [stage, hf]; rfl
    have hblame : s.blame? pass = some reason := by simp [blame?, hf, hreason]
    have hchecked : t.checkSignal pass plan = t.fail pass (plan.unreached .signal reason) := by
      rw [checkSignal, consult, halike.reason, hreason]
    have hidle : Event.Idle (s.opening pass) := by simp [Event.Idle, opening, Event.doer?]
    exact ⟨t, reason, _, halike.log, hblame, hidle, by rw [hadvance, hchecked, hstage]⟩

/-- `advance` leaves a pass that is cancelled and has its turn `CutShort`. It asks for nothing and
commits nothing any more, and nobody stays in flight. -/
theorem fails_of_cancelled (hpursues : s.Pursues pass plan)
    (hready : ∀ flight, s.flight? = some flight → flight.reply?.isSome = true)
    (hreason : s.reason? pass = some reason) :
    s.CutShort pass plan ∧ Event.Idle s.advance.2 ∧ s.advance.1.flight? = none := by
  obtain ⟨t, cause, before, hlog, hblame, hidle, hadvance⟩ :=
    advance_of_cancelled hpursues hready hreason
  -- its failure, with what came before it in the turn
  have hfails := ((fails_fail t pass (plan.unreached s.stage cause)).of_log hlog).prepend before
  refine ⟨⟨cause, hblame, rfl, ?_⟩, ?_, ?_⟩
  · rw [hadvance]
    exact hfails
  · rw [hadvance]
    exact hidle.append (idle_close _ _ _)
  · rw [hadvance]
    rfl

/-! ## Whose turn it is -/

/-- `Pursues` holds of passes that were called for. -/
theorem Pursues.mem_calls (h : Fresh s) (hpursues : (s.play moves).1.Pursues pass plan) :
    pass ∈ Event.calls (s.play moves).2 := by
  rw [← (inTurn_play h moves).begun]
  rcases hpursues with ⟨flight, hf, rfl, -⟩ | ⟨-, hhead, -⟩
  · apply List.mem_append_left
    rw [begun_play h moves, hf]
    exact List.mem_append_right _ (List.mem_singleton.mpr rfl)
  · exact List.mem_append_right _ (List.mem_of_head? hhead)

/-- Passes in `Event.calls` of a play are told apart by their numbers. -/
theorem eq_of_number_eq (h : Fresh s) {other : Pass}
    (hpass : pass ∈ Event.calls (s.play moves).2) (hother : other ∈ Event.calls (s.play moves).2)
    (hnumber : pass.number = other.number) : pass = other :=
  List.inj_on_of_nodup_map (inTurn_play h moves).distinct hpass hother hnumber

/-- `advance` without a reply to the pass in flight has no events. -/
theorem ready_of_mem {e : Event} (he : e ∈ s.advance.2) :
    ∀ flight, s.flight? = some flight → flight.reply?.isSome = true := by
  intro flight hf
  cases hr : flight.reply? with
  | some reply => rfl
  | none =>
    rw [advance_wait hf hr] at he
    exact absurd he List.not_mem_nil

/-- `doer?` of an event of `advance` is the number of the pass that has its turn. -/
theorem exists_pursues (hserved : Served s) {number : Nat} {e : Event} (he : e ∈ s.advance.2)
    (hdoer : e.doer? = some number) :
    ∃ pass plan, s.Pursues pass plan ∧ pass.number = number := by
  -- only the pass with the turn asks, and an opening or a closing is idle
  have hturned := turned hserved
  generalize s.advance = p at he hturned
  cases hturned with
  | stays => exact absurd he List.not_mem_nil
  | passes flight_eq head_eq plan_eq ends =>
    obtain ⟨-, opens, -⟩ := ends
    exact nomatch hdoer.symm.trans
      ((Event.idle_of_isOpening opens).append (idle_close _ _ _) e he)
  | @turns pass plan p pursues turn =>
    obtain ⟨-, -, -, opens, turn⟩ := turn
    rcases List.mem_append.mp he with he | he
    · exact nomatch hdoer.symm.trans (Event.idle_of_isOpening opens e he)
    · exact ⟨pass, plan, pursues, (turn.own e he).number_eq hdoer⟩

/-- `act` is `Idle`. -/
theorem idle_act (s : Session) (action : Action) : Event.Idle (s.act action).2 := by
  have hacted := acted s action
  intro e he
  -- an action has neither lookups nor commitments
  cases e with
  | asked number height =>
    have hlookup : .asked number height ∈ Event.lookups number (s.act action).2 :=
      List.mem_filter.mpr ⟨he, by simp [Event.isLookupOf]⟩
    rw [hacted.lookups] at hlookup
    exact absurd hlookup List.not_mem_nil
  | committed number block =>
    have hcommit := Event.mem_commitments.mpr he
    rw [hacted.commitments] at hcommit
    exact absurd hcommit List.not_mem_nil
  | _ => rfl

/-- `Event.calls` keeps a pass in longer plays. -/
theorem mem_calls_append {past : List Move} (h : pass ∈ Event.calls (s.play past).2)
    (later : List Move) : pass ∈ Event.calls (s.play (past ++ later)).2 := by
  rw [play_append, Progress.snd_after, Event.calls, List.filterMap_append]
  exact List.mem_append_left _ h

/-- `doer?` of an event of `play` has its turn in the move of that event. -/
theorem exists_turn_of_doer (h : Fresh s) {past later : List Move} {e : Event}
    (hpass : pass ∈ Event.calls (s.play (past ++ later)).2)
    (he : e ∈ ((s.play past).1.play later).2) (hdoer : e.doer? = some pass.number) :
    ∃ before after plan, later = before ++ .advance :: after ∧
      (s.play (past ++ before)).1.Pursues pass plan ∧
      e ∈ (s.play (past ++ before)).1.advance.2 := by
  obtain ⟨before, m, after, rfl, hmem⟩ := exists_move_of_mem he
  rw [← fst_play_append] at hmem
  cases m with
  -- whoever acts asks for nothing
  | act action => exact nomatch hdoer.symm.trans (idle_act _ action e hmem)
  | advance =>
    obtain ⟨other, plan, hpursues, hnumber⟩ :=
      exists_pursues (served_play h.flight (past ++ before)) hmem hdoer
    have hother := mem_calls_append (hpursues.mem_calls h) (.advance :: after)
    rw [List.append_assoc] at hother
    obtain rfl := eq_of_number_eq h hother hpass hnumber
    exact ⟨before, after, plan, rfl, hpursues, hmem⟩

/-- `doer?` of later events is not a pass that is cancelled. -/
theorem doer?_ne_of_cancelled (h : Fresh s) {past later : List Move}
    (hpass : pass ∈ Event.calls (s.play (past ++ later)).2)
    (hreason : (s.play past).1.reason? pass = some reason) :
    ∀ e ∈ ((s.play past).1.play later).2, e.doer? ≠ some pass.number := by
  intro e he hdoer
  obtain ⟨before, after, plan, rfl, hpursues, hmem⟩ := exists_turn_of_doer h hpass he hdoer
  have hstill : ((s.play (past ++ before)).1).reason? pass = some reason := by
    rw [fst_play_append]
    exact reason?_play hreason before
  obtain ⟨-, hidle, -⟩ := fails_of_cancelled hpursues (ready_of_mem hmem) hstill
  exact nomatch hdoer.symm.trans (hidle e hmem)

/-! ## Cancelled passes over RPC -/

/-- Over RPC the pass in flight, if it is cancelled, has the reply that `Cancellations.fault` makes
of its reason. -/
def Watched (s : Session) : Prop :=
  s.source = .rpc → ∀ flight reason, s.flight? = some flight →
    s.reason? flight.pass = some reason →
    flight.reply? = some (.failure (.fault (Cancellations.fault reason)))

/-- A `Turn` that leaves its pass waiting is the turn of a pass that is not cancelled. -/
theorem Turn.free (h : Turn s pass plan p) {flight : Flight} (hf : p.1.flight? = some flight) :
    p.1.reason? flight.pass = none := by
  -- over the turn, which leaves the pass waiting in one case only
  induction h with
  | waits free address held =>
    obtain rfl := Option.some.inj hf
    exact free
  | passes hears check rest ih => exact ih hf
  | commits hears check =>
    rw [Progress.fst_after, flight_commit] at hf
    exact nomatch hf
  | _ => exact nomatch hf

/-- `cancel` keeps a session `Watched`: it gives the pass in flight its reply if it carries the
token. -/
theorem watched_cancel (h : Watched s) (token : String) (reason : Value) :
    Watched (s.cancel token reason).1 := by
  unfold cancel
  split
  · exact h
  · intro hrpc flight given hf hgiven
    obtain ⟨known, hknown, heq⟩ := Option.map_eq_some_iff.mp hf
    have hgiven :
        (s.cancelled.cancel token reason).reason? flight.pass.token? = some given := hgiven
    -- the pass in flight carries this token over RPC, or is left alone
    split at heq
    · rename_i hsame
      subst heq
      rw [hsame.2] at hgiven
      rw [hgiven]
      rfl
    · -- this pass carries another token, if any, and so nothing has changed for it
      rename_i hother
      subst heq
      have htoken : (known.pass.token? != some token) = true := by
        have hne : known.pass.token? ≠ some token := fun heq => hother ⟨hrpc, heq⟩
        simpa using hne
      rw [reason?_cancel htoken reason] at hgiven
      exact h hrpc known given hknown hgiven

/-- `release` keeps a session `Watched`: a pass that is cancelled has its reply already. -/
theorem watched_release (h : Watched s) (reason? : Option Value) (ticket? : Option Nat) :
    Watched (s.release reason? ticket?) := by
  rcases release_cases s reason? ticket? with ⟨-, heq⟩ | ⟨held, -, heq⟩
  · rw [heq]
    exact h
  · rw [heq]
    let t : Session := { s with node := s.node.forget held.ticket }
    -- a reply is given only to a pass that has none, and that one is not cancelled
    rcases deliver_cases t held.ticket (s.node.answerOr reason? held.height) with
      hsame | ⟨flight, hf, -, hnone, hdeliver⟩
    · rw [hsame]
      exact h
    · rw [hdeliver]
      intro hrpc known given hknown hgiven
      obtain rfl := Option.some.inj hknown
      exact nomatch hnone.symm.trans (h hrpc flight given hf hgiven)

/-- `move` keeps a session `Watched`. -/
theorem Watched.move (h : Watched s) (hserved : Served s) (m : Move) : Watched (s.move m).1 := by
  cases m with
  | act action =>
    cases action with
    | cancel token reason => exact watched_cancel h token reason
    | release reason? ticket? => exact watched_release h reason? ticket?
    | _ => exact h
  | advance =>
    intro hrpc flight reason hf hreason
    have hturned := turned hserved
    have hflight : s.advance.1.flight? = some flight := hf
    have hgiven : s.advance.1.reason? flight.pass = some reason := hreason
    have hsource : s.advance.1.source = .rpc := hrpc
    generalize s.advance = p at hturned hflight hgiven hsource
    cases hturned with
    | stays => exact h hsource flight reason hflight hgiven
    | passes flight_eq head_eq plan_eq ends =>
      obtain ⟨landed, -, -⟩ := ends
      exact nomatch hflight
    | turns pursues turn =>
      -- a pass that is left waiting has just asked, which it does not if it is cancelled
      obtain ⟨-, -, -, -, turn⟩ := turn
      have hfree := turn.free hflight
      rw [Progress.fst_after] at hgiven
      exact nomatch hfree.symm.trans hgiven

/-- `play` of a session with nobody in flight is `Watched`. -/
theorem watched_play (h : s.flight? = none) (moves : List Move) : Watched (s.play moves).1 := by
  induction moves using List.reverseRecOn with
  | nil =>
    intro hrpc flight reason hf
    exact nomatch h.symm.trans hf
  | append_singleton moves m ih =>
    rw [fst_play_concat]
    exact ih.move (served_play h moves) m

/-! ## Lookups that nobody waits for -/

/-- The lookup of a ticket was made, and nobody waits for it. -/
structure Abandoned (s : Session) (ticket : Nat) : Prop where
  made : ticket < s.tickets
  unawaited : ∀ flight, s.flight? = some flight → flight.ticket = ticket →
    flight.reply?.isSome = true

/-- `act` makes no lookup. -/
theorem tickets_act (s : Session) (action : Action) : (s.act action).1.tickets = s.tickets := by
  -- only these two reach the pass in flight, and neither asks for anything
  cases action with
  | cancel token reason =>
    obtain ⟨cancelled, events, reply?, heq, -⟩ := exists_cancel_eq s token reason
    exact congrArg (fun p : Progress => p.1.tickets) heq
  | release reason? ticket? =>
    obtain ⟨node, reply?, heq⟩ := exists_release_eq s reason? ticket?
    show (s.release reason? ticket?).tickets = s.tickets
    rw [heq]
  | _ => rfl

/-- A `Leg` makes no lookup that is waited for, or leaves its pass in flight with a new ticket. -/
theorem Leg.ticket_cases {begun : Prop} {made : List Event} (h : Leg pass plan begun s made p) :
    p.1.flight? = none ∧ p.1.tickets = s.tickets ∨
    ∃ flight, p.1.flight? = some flight ∧ flight.ticket = s.tickets ∧
      p.1.tickets = s.tickets + 1 := by
  cases h with
  | waits => exact .inr ⟨_, rfl, rfl, rfl⟩
  | ends => exact .inl ⟨rfl, rfl⟩
  | commits => exact .inl ⟨rfl, rfl⟩

/-- `advance` leaves the pass in flight as it was or lands it, or leaves one there with a new
ticket. -/
theorem ticket_advance (s : Session) :
    (s.advance.1.flight? = s.flight? ∨ s.advance.1.flight? = none) ∧
        s.advance.1.tickets = s.tickets ∨
    ∃ flight, s.advance.1.flight? = some flight ∧ flight.ticket = s.tickets ∧
      s.advance.1.tickets = s.tickets + 1 := by
  have hadvanced := advanced s
  generalize s.advance = p at hadvanced
  cases hadvanced with
  | stays => exact .inl ⟨.inl rfl, rfl⟩
  | resumes flight_eq leg => exact (leg []).ticket_cases.imp (fun h => ⟨.inr h.1, h.2⟩) id
  | passes flight_eq waiting_eq => exact .inl ⟨.inr rfl, rfl⟩
  | starts flight_eq waiting_eq due plan_eq leg =>
    exact leg.ticket_cases.imp (fun h => ⟨.inr h.1, h.2⟩) id

/-- `move` keeps a lookup `Abandoned`: nobody begins to wait for it. -/
theorem Abandoned.move {ticket : Nat} (h : Abandoned s ticket) (m : Move) :
    Abandoned (s.move m).1 ticket := by
  cases m with
  | act action =>
    -- the pass in flight stays the same, and may have got its reply
    refine ⟨(tickets_act s action).symm ▸ h.made, fun flight hf hticket => ?_⟩
    rcases flight_act s action with heq | ⟨known, reply, -, heq, -⟩
    · exact h.unawaited flight (heq ▸ hf) hticket
    · obtain rfl := Option.some.inj (heq.symm.trans hf)
      rfl
  | advance =>
    -- a pass that begins to wait has a ticket that none had before
    have hmade := h.made
    rcases ticket_advance s with ⟨hflight, htickets⟩ | ⟨known, hknown, hnew, htickets⟩
    · refine ⟨htickets.symm ▸ hmade, fun flight hf hticket => ?_⟩
      rcases hflight with hflight | hflight
      · exact h.unawaited flight (hflight ▸ hf) hticket
      · exact nomatch hflight.symm.trans hf
    · refine ⟨htickets.symm ▸ Nat.lt_succ_of_lt hmade, fun flight hf hticket => ?_⟩
      obtain rfl := Option.some.inj (hknown.symm.trans hf)
      omega

/-- `play` keeps a lookup `Abandoned`. -/
theorem Abandoned.play {ticket : Nat} (h : Abandoned s ticket) (moves : List Move) :
    Abandoned (s.play moves).1 ticket := by
  induction moves generalizing s with
  | nil => exact h
  | cons m moves ih =>
    rw [play_cons, Progress.fst_after]
    exact ih (h.move m)

/-- `release` of an `Abandoned` lookup takes it from the node, and does nothing else. -/
theorem Abandoned.release {ticket : Nat} (h : Abandoned s ticket) {held : Held}
    {ticket? : Option Nat} (hnext : s.node.next? ticket? = some held)
    (hticket : held.ticket = ticket) (reason? : Option Value) :
    s.act (.release reason? ticket?) = ({ s with node := s.node.forget ticket }, []) := by
  subst hticket
  let t : Session := { s with node := s.node.forget held.ticket }
  -- the reply would be for a pass in flight that has one already
  have hdeliver : ∀ raw, t.deliver held.ticket raw = t := by
    intro raw
    rcases deliver_cases t held.ticket raw with heq | ⟨flight, hf, hflight, hr, -⟩
    · exact heq
    · have hsome := h.unawaited flight hf hflight
      rw [hr] at hsome
      exact nomatch hsome
  show (s.release reason? ticket?, []) = (t, [])
  rcases release_cases s reason? ticket? with ⟨hnone, -⟩ | ⟨found, hfound, heq⟩
  · exact nomatch hnone.symm.trans hnext
  · obtain rfl := Option.some.inj (hnext.symm.trans hfound)
    rw [heq]
    exact congrArg (·, []) (hdeliver _)

/-- `play` leaves a pass in flight with the ticket of a lookup that was made. -/
theorem ticket_play (h : s.flight? = none) (moves : List Move) :
    ∀ flight, (s.play moves).1.flight? = some flight →
      flight.ticket < (s.play moves).1.tickets := by
  -- over the moves, with the ticket counter above every ticket in use
  induction moves using List.reverseRecOn with
  | nil =>
    intro flight hf
    exact nomatch h.symm.trans hf
  | append_singleton moves m ih =>
    rw [fst_play_concat]
    intro flight hf
    cases m with
    | act action =>
      show flight.ticket < ((s.play moves).1.act action).1.tickets
      rw [tickets_act]
      -- an action may give the pass its reply, but no ticket
      rcases flight_act (s.play moves).1 action with heq | ⟨known, reply, hknown, heq, -⟩
      · exact ih flight (heq ▸ hf)
      · obtain rfl := Option.some.inj (heq.symm.trans hf)
        exact ih known hknown
    | advance =>
      show flight.ticket < (s.play moves).1.advance.1.tickets
      -- advancing keeps the ticket, lands the pass, or hands out a new one
      rcases ticket_advance (s.play moves).1 with ⟨hflight, htickets⟩ | ⟨known, hknown, hnew, heq⟩
      · rw [htickets]
        rcases hflight with hflight | hflight
        · exact ih flight (hflight ▸ hf)
        · exact nomatch hflight.symm.trans hf
      · obtain rfl := Option.some.inj (hknown.symm.trans hf)
        omega

/-! ## Passes that do not carry the token -/

/-- A session as it would be if the token had not been cancelled. -/
def spare (s : Session) (token : String) : Session :=
  { s with cancelled := s.cancelled.filter (·.1 != token) }

/-- `advance` goes on as in `spare` where the pass with the turn does not carry the token. -/
theorem advance_spare (h : ∀ pass, s.turn? = some pass → pass.token? ≠ some token) :
    s.advance = ({ (s.spare token).advance.1 with cancelled := s.cancelled },
      (s.spare token).advance.2) := by
  refine advance_of_reason?_eq (s := s.spare token) fun pass hturn => ?_
  exact (Cancellations.reason?_filter (h pass hturn)).symm

/-- `cancel` of a token that the pass in flight does not carry is only taken down. -/
theorem act_cancel_of_other
    (h : ∀ flight, s.flight? = some flight → flight.pass.token? ≠ some token) (reason : Value) :
    (s.act (.cancel token reason)).1
      = { s with cancelled := s.cancelled.cancel token reason } := by
  -- the pass in flight is not one that gets the reply
  have hflight : ∀ reply : Reply, s.flight?.map (fun flight =>
      if s.source = .rpc ∧ flight.pass.token? = some token then
        { flight with reply? := some reply }
      else flight) = s.flight? := by
    intro reply
    cases hf : s.flight? with
    | none => rfl
    | some flight =>
      have hother : ¬(s.source = .rpc ∧ flight.pass.token? = some token) :=
        fun hsame => h flight hf hsame.2
      rw [Option.map_some, if_neg hother]
  show (s.cancel token reason).1 = _
  unfold cancel
  -- the token was cancelled before, or is now
  split
  · rename_i hsome
    rw [Cancellations.cancel_of_isSome reason hsome]
  · simp only [hflight]

/-! ## Steps -/

/-- `settle` begins with `advance` where the pass in flight has its reply. -/
theorem exists_settle_eq {flight : Flight} (hf : s.flight? = some flight)
    (hready : flight.reply?.isSome = true) : ∃ later, s.settle.2 = s.advance.2 ++ later := by
  obtain ⟨reply, hr⟩ := Option.isSome_iff_exists.mp hready
  rw [advance_resume hf hr]
  unfold settle
  simp only [hf, hr]
  cases (s.resume flight reply).1.flight? with
  | some flight => exact ⟨[], (List.append_nil _).symm⟩
  | none => exact ⟨_, rfl⟩

/-- `act` after `act` leaves the pass in flight there, and may give it its reply. -/
theorem exists_flight_acts (actions : List Action) {flight : Flight}
    (hf : s.flight? = some flight) :
    ∃ reply?, (s.play (actions.map .act)).1.flight? = some { flight with reply? := reply? } := by
  -- over the actions, each of which leaves the pass there or gives it its reply
  induction actions generalizing s flight with
  | nil => exact ⟨flight.reply?, hf⟩
  | cons action actions ih =>
    show ∃ reply?, ((s.act action).1.play (actions.map .act)).1.flight? = _
    rcases flight_act s action with heq | ⟨known, reply, hknown, heq, -⟩
    · exact ih (heq.trans hf)
    · obtain rfl := Option.some.inj (hknown.symm.trans hf)
      obtain ⟨reply?, hflight⟩ := ih heq
      exact ⟨reply?, hflight⟩

/-! ## The cancellation of a token -/

/-- The session after a token was cancelled and some moves were made. -/
def since (s : Session) (past : List Move) (token : String) (reason : Value)
    (later : List Move) : Session :=
  (s.play (past ++ .act (.cancel token reason) :: later)).1

/-- `since` is `play` from the session in which the token was just cancelled. -/
theorem since_eq (s : Session) (past : List Move) (token : String) (reason : Value)
    (later : List Move) :
    s.since past token reason later
      = (((s.play past).1.act (.cancel token reason)).1.play later).1 := by
  rw [since, fst_play_append]
  rfl

/-- The passes that carry a token, and the others, once it is cancelled. -/
structure Cancels (s : Session) (past : List Move) (token : String) (reason : Value) : Prop where
  /-- A pass that carries the token asks for nothing and commits nothing any more. -/
  idle : ∀ later pass, pass.token? = some token →
    pass ∈ Event.calls (s.play (past ++ .act (.cancel token reason) :: later)).2 →
    ∀ e ∈ ((s.play past).1.play (.act (.cancel token reason) :: later)).2,
      e.doer? ≠ some pass.number
  /-- If it has anything to finalize, it fails for the time being with its next turn. -/
  fails : ∀ later pass plan, pass.token? = some token →
    (s.since past token reason later).Pursues pass plan →
    (∀ flight, (s.since past token reason later).flight? = some flight →
      flight.reply?.isSome = true) →
    (s.since past token reason later).CutShort pass plan ∧
      (s.since past token reason later).advance.1.flight? = none
  /-- It ends in no other way. -/
  ends : ∀ later pass ending, pass.token? = some token →
    .ended pass ending ∈ (s.since past token reason later).advance.2 →
    (∃ plan, (s.since past token reason later).Pursues pass plan ∧
      (s.since past token reason later).CutShort pass plan) ∨
    (s.since past token reason later).flight? = none ∧
      (s.since past token reason later).waiting.head? = some pass ∧
      (s.since past token reason later).planFor? pass = none
  /-- Over RPC a pass that waits for a lookup ends in the step of the cancellation. It fails for the
  time being, with the reason of the cancellation if that is an error, and with an error of its own
  otherwise. -/
  at_once : s.source = .rpc → ∀ actions flight, .cancel token reason ∈ actions →
    (s.play past).1.flight? = some flight → flight.pass.token? = some token →
    ∃ given ended later,
      ((s.play past).1.actAll actions).1.reason? flight.pass = some given ∧
      ((s.play past).1.step actions).2 = ended ++ later ∧
      s.Fails flight.pass (flight.plan.unreached flight.stage
        (.fault (Cancellations.fault given))).failure ended
  /-- What comes back for its lookup after that, before or after the replies to others, changes
  nothing but what the node has to answer. -/
  unheard : s.source = .rpc → ∀ later flight held reason? ticket?,
    (s.play past).1.flight? = some flight → flight.pass.token? = some token →
    (s.since past token reason later).node.next? ticket? = some held →
    held.ticket = flight.ticket →
    (s.since past token reason later).act (.release reason? ticket?)
      = ({ s.since past token reason later with
          node := (s.since past token reason later).node.forget flight.ticket }, [])
  /-- A pass in flight that does not carry the token is left alone. -/
  spares : (∀ flight, (s.play past).1.flight? = some flight → flight.pass.token? ≠ some token) →
    ((s.play past).1.act (.cancel token reason)).1
      = { (s.play past).1 with cancelled := (s.play past).1.cancelled.cancel token reason }
  /-- Passes that do not carry the token go on as if it had not been cancelled. -/
  others : ∀ later,
    (∀ pass, (s.since past token reason later).turn? = some pass → pass.token? ≠ some token) →
    (s.since past token reason later).advance
      = ({ ((s.since past token reason later).spare token).advance.1 with
          cancelled := (s.since past token reason later).cancelled },
        ((s.since past token reason later).spare token).advance.2)

/-- `step` over RPC that cancels the token of the pass in flight ends it with its failure. -/
theorem fails_in_step (h : Fresh s) (past : List Move) (hrpc : s.source = .rpc)
    {actions : List Action} {flight : Flight} (hcancel : .cancel token reason ∈ actions)
    (hf : (s.play past).1.flight? = some flight) (htoken : flight.pass.token? = some token) :
    ∃ given ended later,
      ((s.play past).1.actAll actions).1.reason? flight.pass = some given ∧
      ((s.play past).1.step actions).2 = ended ++ later ∧
      s.Fails flight.pass (flight.plan.unreached flight.stage
        (.fault (Cancellations.fault given))).failure ended := by
  let t := (s.play past).1
  let u := (t.play (actions.map .act)).1
  have hacted : (t.actAll actions).1 = u := congrArg Prod.fst (actAll_eq_play t actions)
  have hu : u = (s.play (past ++ actions.map .act)).1 := (fst_play_append ..).symm
  obtain ⟨reply?, hflight⟩ := exists_flight_acts actions hf
  -- whoever acts after the cancellation does not take it back
  obtain ⟨given, hreason⟩ : ∃ given, u.reason? flight.pass = some given := by
    obtain ⟨before, after, rfl⟩ := List.append_of_mem hcancel
    obtain ⟨given, hgiven⟩ :=
      exists_reason?_of_cancel (t.play (before.map .act)).1 token reason htoken
    refine ⟨given, ?_⟩
    show (t.play ((before ++ .cancel token reason :: after).map .act)).1.reason? _ = _
    rw [List.map_append, fst_play_append]
    exact reason?_play hgiven (after.map .act)
  -- and so the reply of the pass is the failure of its cancellation
  have hreply : reply? = some (.failure (.fault (Cancellations.fault given))) := by
    have hsource : u.source = .rpc := by rw [hu, source_play, hrpc]
    have hwatched : Watched u := hu ▸ watched_play h.flight _
    exact hwatched hsource _ given hflight hreason
  have hready : ∀ known, u.flight? = some known → known.reply?.isSome = true := by
    intro known hknown
    obtain rfl := Option.some.inj (hflight.symm.trans hknown)
    exact Option.isSome_iff_exists.mpr ⟨_, hreply⟩
  obtain ⟨⟨cause, hblame, -, hfails⟩, -, -⟩ :=
    fails_of_cancelled (.inl ⟨_, hflight, rfl, rfl⟩) hready hreason
  obtain rfl : Value.fault (Cancellations.fault given) = cause := by
    simpa [blame?, hflight, hreply] using hblame
  have hstage : u.stage = flight.stage := by rw [stage, hflight]; rfl
  rw [hstage] at hfails
  obtain ⟨later, hsettle⟩ := exists_settle_eq hflight (hready _ hflight)
  refine ⟨given, (t.actAll actions).2 ++ u.advance.2, later, ?_, ?_, ?_⟩
  · rw [hacted]
    exact hreason
  · show (t.actAll actions).2 ++ (t.actAll actions).1.settle.2 = _
    rw [hacted, hsettle, List.append_assoc]
  · have hlog : u.log? = s.log? := by rw [hu, log?_play]
    exact (hfails.of_log hlog).prepend _

/-- `cancel` over RPC leaves the lookup of a pass that carries the token `Abandoned`. -/
theorem abandoned_of_cancel (h : Fresh s) (past : List Move) (hrpc : s.source = .rpc)
    {flight : Flight} (hf : (s.play past).1.flight? = some flight)
    (htoken : flight.pass.token? = some token) (reason : Value) :
    Abandoned ((s.play past).1.act (.cancel token reason)).1 flight.ticket := by
  let t := (s.play past).1
  refine ⟨?_, fun known hknown _ => ?_⟩
  -- the lookup was made before the cancellation
  · rw [tickets_act]
    exact ticket_play h.flight past flight hf
  -- and its pass has a reply, because the session is watched
  · obtain ⟨reply?, hflight⟩ := exists_flight_acts [.cancel token reason] hf
    have hsame := Option.some.inj (hflight.symm.trans hknown)
    obtain ⟨given, hreason⟩ := exists_reason?_of_cancel t token reason htoken
    have hsource : (t.act (.cancel token reason)).1.source = .rpc := by
      rw [(acted t _).source, source_play, hrpc]
    have hreply := watched_cancel (watched_play h.flight past) token reason hsource known given
      hknown (hsame ▸ hreason)
    exact Option.isSome_iff_exists.mpr ⟨_, hreply⟩

/-- `Cancels` holds of every token at every point of a play: its cancellation is final for all
passes that carry it, and changes nothing for the others. -/
theorem cancellation_final (h : Fresh s) (past : List Move) (token : String) (reason : Value) :
    s.Cancels past token reason := by
  -- the reason stays from the cancellation on
  have hreason : ∀ later pass, pass.token? = some token →
      ∃ given, (s.since past token reason later).reason? pass = some given := by
    intro later pass htoken
    obtain ⟨given, hgiven⟩ := exists_reason?_of_cancel (s.play past).1 token reason htoken
    exact ⟨given, since_eq s past token reason later ▸ reason?_play hgiven later⟩
  have hserved : ∀ later, Served (s.since past token reason later) := fun later =>
    served_play h.flight _
  refine ⟨?_, ?_, ?_, ?_, ?_, fun hother => act_cancel_of_other hother reason,
    fun later hother => advance_spare hother⟩
  · intro later pass htoken hpass e he hdoer
    rcases List.mem_append.mp he with he | he
    · exact nomatch hdoer.symm.trans (idle_act _ _ e he)
    · obtain ⟨given, hgiven⟩ := hreason [] pass htoken
      have hsplit : past ++ .act (.cancel token reason) :: later
          = (past ++ [.act (.cancel token reason)]) ++ later := by simp
      rw [hsplit] at hpass
      refine doer?_ne_of_cancelled h hpass hgiven e ?_ hdoer
      rw [fst_play_concat]
      exact he
  · intro later pass plan htoken hpursues hready
    obtain ⟨given, hgiven⟩ := hreason later pass htoken
    obtain ⟨hcut, -, hlanded⟩ := fails_of_cancelled hpursues hready hgiven
    exact ⟨hcut, hlanded⟩
  · intro later pass ending htoken hended
    refine (pursues_of_ended (hserved later) hended).imp (fun ⟨plan, hpursues⟩ => ?_) id
    obtain ⟨given, hgiven⟩ := hreason later pass htoken
    exact ⟨plan, hpursues, (fails_of_cancelled hpursues (ready_of_mem hended) hgiven).1⟩
  · intro hrpc actions flight hcancel hf htoken
    exact fails_in_step h past hrpc hcancel hf htoken
  · intro hrpc later flight held reason? ticket? hf htoken hnext hticket
    have habandoned := (abandoned_of_cancel h past hrpc hf htoken reason).play later
    rw [← since_eq] at habandoned
    exact habandoned.release hnext hticket reason?

/-- A small session over RPC. -/
def remote : Session := { small with source := .rpc }

theorem fresh_remote : remote.Fresh :=
  ⟨⟨.record [("defaultLookback", .number 2)], rfl⟩, rfl, rfl⟩

/-- Two passes share a token, a third one carries none. The first waits for a lookup when the token
is cancelled. That lookup is answered last, when the third one has its reply. -/
def shared : List Move :=
  [.act (.record (l2At 1) (l1At "a" 10).toBlockId),
    .act (.hold true),
    .act (.call "first" (.signal (l1At "f" 12)) (some "stop")),
    .act (.call "second" (.boundary (l1At "b" 20)) (some "stop")),
    .act (.call "third" (.signal (l1At "f" 12)) none),
    .advance,
    .act (.cancel "stop" .undefined),
    .advance,
    .advance,
    .advance,
    .act (.release none (some 1)),
    .act (.release none (some 0)),
    .advance]

/-- A small session over RPC that writes warnings to a log. -/
def outspoken : Session := { remote with log? := some (.least .warn) }

theorem fresh_outspoken : outspoken.Fresh :=
  ⟨⟨.record [("defaultLookback", .number 2)], rfl⟩, rfl, rfl⟩

/-- The first pass of `shared`. -/
def sharedPass : Pass := ⟨0, "first", .signal (l1At "f" 12), some "stop"⟩

/-- With what it fails if it is cancelled for a reason that is no error. -/
def sharedFailure : Failure where
  kind := .temporary
  message := "failed to check if on finalizing L1 chain, could not fetch block 12"
  cause? := some (.fault .lookupCancelled)

/-- `cancellation_final` in `shared`. The log can write this failure, and so the pass ends with it
where there is a log, too. -/
theorem shared_cancels :
    remote.Fresh ∧
    ((remote.play (shared.take 6)).1.flight?.map fun flight =>
      (flight.pass.number, flight.pass.token?, flight.ticket)) = some (0, some "stop", 0) ∧
    Event.heights (remote.play shared).2 = [12, 12] ∧
    (Event.endings (remote.play shared).2).map (fun e => e.1.number) = [0, 1, 2] ∧
    remote.Cancels (shared.take 6) "stop" .undefined ∧
    outspoken.Fresh ∧
    .noted (.failed sharedFailure (l1At "f" 12).toBlockId)
      ∈ ((outspoken.play (shared.take 6)).1.step [.cancel "stop" (.text "late")]).2 ∧
    .ended sharedPass (.judged (.failed sharedFailure))
      ∈ ((outspoken.play (shared.take 6)).1.step [.cancel "stop" (.text "late")]).2 := by
  have hcancels := cancellation_final fresh_outspoken (shared.take 6) "stop" (.text "late")
  -- the pass in flight, with its plan
  let plan : Plan := ⟨l2At 1, (l1At "a" 10).toBlockId, l1At "f" 12, 0⟩
  let flight : Flight := ⟨sharedPass, plan, .signal, 0, none⟩
  obtain ⟨given, ended, later, hgiven, hstep, hfails⟩ :=
    hcancels.at_once rfl [.cancel "stop" (.text "late")] flight (List.mem_singleton.mpr rfl)
      (by rfl) rfl
  obtain rfl : Value.text "late" = given := Option.some.inj (hgiven.symm.trans (by rfl)).symm
  have hfailure : (plan.unreached .signal
      (.fault (Cancellations.fault (.text "late")))).failure = sharedFailure := by rfl
  rw [hfailure] at hfails
  refine ⟨fresh_remote, by rfl, by rfl, by rfl, cancellation_final fresh_remote _ _ _,
    fresh_outspoken, ?_⟩
  rw [hstep]
  -- the log can write this failure, so the second case is void
  rcases hfails with ⟨before, rfl⟩ | ⟨before, threshold, fault, hlog, hlines, -⟩
  · have htold : flight.pass.endNotices (.judged (.failed sharedFailure))
        = [.failed sharedFailure (l1At "f" 12).toBlockId] := rfl
    rw [htold]
    simp [flight]
  · obtain rfl := Option.some.inj hlog
    exact nomatch hlines

/-- A session that writes warnings to a log. -/
def warning : Session := { small with log? := some (.least .warn) }

theorem fresh_warning : warning.Fresh :=
  ⟨⟨.record [("defaultLookback", .number 2)], rfl⟩, rfl, rfl⟩

/-- An error whose trace has no text. -/
def untold : Value :=
  .record [("message", .text "x"), ("stack", .record [("toString", .number 1)])]

/-- A pass in line is cancelled for a reason that no log can write. -/
def speechless : List Move :=
  [.act (.record (l2At 1) (l1At "a" 10).toBlockId),
    .act (.call "first" (.signal (l1At "f" 12)) (some "stop")),
    .act (.cancel "stop" untold)]

/-- `CutShort` need not end in an outcome: here the log raises a fault when it is told of the
failure, and the pass ends with that. -/
theorem speechless_raised :
    warning.Fresh ∧ .act (.cancel "stop" untold) ∈ speechless ∧
    ∃ pass plan ending, pass.token? = some "stop" ∧
      (warning.play speechless).1.Pursues pass plan ∧
      .ended pass ending ∈ (warning.play speechless).1.advance.2 ∧
      ¬∃ failure, ending = .judged (.failed failure) := by
  have hmem : .act (.cancel "stop" untold) ∈ speechless := by simp [speechless]
  -- the only ending is the fault of the log
  have hended : Event.endings (warning.play speechless).1.advance.2
      = [(⟨0, "first", .signal (l1At "f" 12), some "stop"⟩, .raised (.fault .noText))] := by rfl
  refine ⟨fresh_warning, hmem, ⟨0, "first", .signal (l1At "f" 12), some "stop"⟩,
    ⟨l2At 1, (l1At "a" 10).toBlockId, l1At "f" 12, 0⟩, .raised (.fault .noText), rfl,
    .inr ⟨rfl, rfl, by rfl⟩, ?_, fun ⟨failure, heq⟩ => nomatch heq⟩
  rw [← Event.mem_endings, hended]
  exact List.mem_singleton.mpr rfl

end Session

end Settlement
