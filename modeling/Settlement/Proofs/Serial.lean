import Settlement.Proofs.Commitment
import Settlement.Proofs.Session.Script

/-!
# Passes in series

While a pass waits for its lookups, derivations are recorded, other passes are called for, and L1
changes. The state and the results are the same as if each pass had run through at its start, with
the replies that it was going to get, and everything else had happened after it (`Session.deeds`).
Only a reset, the cancellation of the pass itself and somebody else at the engine can be told apart
(`Session.undisturbed`).

The proof walks along the moves with a session in which passes run through at their start. Where no
pass is in flight the two sessions agree, and where one is, the other session is where that pass
will be once it is finished.

## Key results

- `play_serial`: any play leaves the same as its deeds, one after the other
-/

namespace Settlement

namespace Session

/-- Something that happens without a break. -/
inductive Deed where
  | act (action : Action)
  /-- The next pass runs with a script of replies. -/
  | pass (script : List Reply)

/-- The action of a deed. -/
def Deed.action? : Deed → Option Action
  | .act action => some action
  | .pass _ => none

/-- The session after one deed, and its events. -/
def deed (s : Session) : Deed → Progress
  | .act action => s.act action
  | .pass script =>
    match s.waiting with
    | pass :: rest => { s with waiting := rest }.perform pass script
    | [] => (s, [])

/-- The session after several deeds, and the events of all. -/
def performAll (s : Session) : List Deed → Progress
  | [] => (s, [])
  | d :: rest => .after (s.deed d).2 ((s.deed d).1.performAll rest)

/-- A pass starts if the session advances. -/
def starts (s : Session) : Bool := s.flight?.isNone && !s.waiting.isEmpty

/-- The moves as deeds: a pass runs where it starts, with the replies that it gets later on. -/
def deeds (s : Session) : List Move → List Deed
  | [] => []
  | .act action :: rest => .act action :: (s.act action).1.deeds rest
  | .advance :: rest =>
    if s.starts then
      .pass (Event.replies (s.play (.advance :: rest)).2) :: s.advance.1.deeds rest
    else s.advance.1.deeds rest

/-- The action lets a pass in flight go its way: it forgets nothing that was derived, does not
cancel the pass, and leaves the engine to it. -/
def Action.spares (pass : Pass) : Action → Bool
  | .reset | .move _ | .setRefusal _ => false
  | .cancel token _ => pass.token? != some token
  | _ => true

/-- The move `spares` the pass in flight. -/
def spared (s : Session) : Move → Bool
  | .act action => s.flight?.all fun flight => action.spares flight.pass
  | .advance => true

/-- No pass is reset, cancelled or overtaken at the engine while it is in flight. -/
def undisturbed (s : Session) : List Move → Bool
  | [] => true
  | m :: rest => s.spared m && (s.move m).1.undisturbed rest

/-! ## Acting apart from lookups -/

/-- The engine after an action. -/
def Action.onEngine : Action → Engine → Engine
  | .move block, e => e.commit block
  | _, e => e

/-- The refusal of the engine after an action. -/
def Action.onRefusal : Action → Option Value → Option Value
  | .setRefusal reason?, _ => reason?
  | _, refusal? => refusal?

/-- The cancellations after an action. -/
def Action.onCancelled : Action → Cancellations → Cancellations
  | .cancel token reason, c => c.cancel token reason
  | _, c => c

/-- The `core` of a session after an action. -/
def Action.onCore (action : Action) (s : Session) : Session :=
  { s with
    tracker := action.onTracker s.tracker
    engine := action.onEngine s.engine
    refusal? := action.onRefusal s.refusal?
    cancelled := action.onCancelled s.cancelled
    waiting := s.waiting ++ (action.pass? s.called).toList
    called := s.called + (action.pass? s.called).toList.length }

/-- `act` changes the `core` by `onCore`. -/
theorem core_act (s : Session) (action : Action) :
    (s.act action).1.core = action.onCore s.core := by
  have hwaiting : s.waiting ++ [] = s.waiting := List.append_nil _
  cases action with
  | cancel token reason =>
    have hact : s.act (.cancel token reason) = s.cancel token reason := rfl
    simp only [hact, cancel, Action.onCore, Action.pass?, Option.toList, core, hwaiting]
    -- a token is cancelled once, and its first reason stays
    split
    · rename_i hcancelled
      have hkept : s.cancelled.cancel token reason = s.cancelled :=
        Cancellations.cancel_of_isSome reason hcancelled
      simp only [Action.onCancelled, hkept]
      rfl
    · rfl
  | release reason? ticket? =>
    -- a release changes the node and the pass in flight, which the core leaves out
    obtain ⟨node, reply?, heq⟩ := exists_release_eq s reason? ticket?
    have hact : s.act (.release reason? ticket?) = (s.release reason? ticket?, []) := rfl
    simp only [hact, heq, Action.onCore, Action.pass?, Option.toList, core, hwaiting]
    rfl
  | call label trigger token? => rfl
  | _ =>
    simp only [Action.onCore, Action.pass?, Option.toList, core, hwaiting]
    rfl

/-- `act` is no `conduct` of passes. -/
theorem conduct_act (s : Session) (action : Action) : Event.conduct (s.act action).2 = [] := by
  cases action with
  | record l2 l1 => exact Event.conduct_noted _
  | cancel token reason =>
    obtain ⟨cancelled, events, reply?, heq, rfl | rfl⟩ := exists_cancel_eq s token reason
    · exact congrArg (fun p : Progress => Event.conduct p.2) heq
    · exact congrArg (fun p : Progress => Event.conduct p.2) heq
  | _ => rfl

/-- `cancel` leaves the reason of every other token. -/
theorem reason?_cancel {c : Cancellations} {token : String} {token? : Option String}
    (h : (token? != some token) = true) (reason : Value) :
    (c.cancel token reason).reason? token? = c.reason? token? := by
  unfold Cancellations.cancel
  -- the token was cancelled before, or another one is now
  split
  · rfl
  · cases token? with
    | none => rfl
    | some other =>
      have hne : (other == token) = false := by
        simpa using h
      show List.lookup other ((token, _) :: c) = List.lookup other c
      rw [List.lookup_cons, hne]

/-- `act` leaves the session `Alike` for a pass that it `spares`. -/
theorem alike_act {pass : Pass} {action : Action} (h : action.spares pass = true) (s : Session) :
    Alike pass s (s.act action).1 := by
  have hcore := core_act s action
  have hsource : (s.act action).1.core.source = s.source := by rw [hcore]; rfl
  have hlog : (s.act action).1.core.log? = s.log? := by rw [hcore]; rfl
  -- an action that disturbs nobody leaves alone what the pass in flight reads
  have hengine : (s.act action).1.core.engine = s.engine := by
    rw [hcore]
    cases action <;> first | rfl | exact absurd h Bool.false_ne_true
  have hrefusal : (s.act action).1.core.refusal? = s.refusal? := by
    rw [hcore]
    cases action <;> first | rfl | exact absurd h Bool.false_ne_true
  have hgeneration : (s.act action).1.core.tracker.generation = s.tracker.generation := by
    rw [hcore]
    cases action <;> first | rfl | exact absurd h Bool.false_ne_true
  have hreason : (s.act action).1.core.reason? pass = s.reason? pass := by
    rw [hcore]
    cases action with
    | cancel token reason => exact reason?_cancel h reason
    | _ => rfl
  exact ⟨hengine, hrefusal, hsource, hlog, hgeneration, hreason⟩

/-- `act` commutes with what is `ahead` of a pass that it `spares`. -/
theorem ahead_act {s t : Session} {action : Action} (h : s.spared (.act action) = true)
    {script : List Reply} (ht : t.core = (s.ahead script).1.core) :
    ((s.act action).1.ahead script).2 = (s.ahead script).2 ∧
    (t.act action).1.core = ((s.act action).1.ahead script).1.core := by
  obtain ⟨reply?, hflight⟩ := (acted s action).flight
  cases hs : s.flight? with
  | none =>
    -- nothing is ahead, before or after
    have hlanded : (s.act action).1.flight? = none := by rw [hflight, hs]; rfl
    have hcore : t.core = s.core := by rw [ht, ahead, hs]
    have hahead : (s.act action).1.ahead script = ((s.act action).1, []) := by
      simp only [ahead, hlanded]
    have hnone : s.ahead script = (s, []) := by simp only [ahead, hs]
    rw [hahead, hnone]
    exact ⟨rfl, by rw [core_act, core_act, hcore]⟩
  | some flight =>
    have hspares : action.spares flight.pass = true := by
      rw [spared, hs] at h
      exact h
    have hawaiting : (s.act action).1.flight? = some { flight with reply? := reply? flight } := by
      rw [hflight, hs]
      rfl
    -- what is ahead does not depend on whether the reply is there already
    have hahead : (s.act action).1.ahead script = (s.act action).1.finish flight script := by
      simp only [ahead, hawaiting]
      cases script <;> rfl
    have hfinish : s.ahead script = s.finish flight script := by simp only [ahead, hs]
    obtain ⟨hevents, hcore⟩ := follows_finish flight script _ _ (alike_act hspares s)
    obtain ⟨-, hself⟩ := follows_finish flight script s s (.refl _ s)
    rw [hahead, hfinish]
    -- the action leaves alone what the pass changes, which is the engine
    refine ⟨hevents, ?_⟩
    rw [hfinish, hself] at ht
    rw [hcore, core_act, core_act, ht]
    cases action <;> first | rfl | exact absurd hspares Bool.false_ne_true

/-! ## The two sessions -/

/-- `play` has the `gist` of finishing the pass in flight and then performing the `deeds`. -/
def Serializes (s : Session) (moves : List Move) : Prop :=
  ∀ t : Session, t.core = (s.ahead (Event.replies (s.play moves).2)).1.core →
    (s.play moves).gist
      = (Progress.after (s.ahead (Event.replies (s.play moves).2)).2
          (t.performAll (s.deeds moves))).gist

variable {s : Session} {rest : List Move}

/-- `Serializes` holds of no moves. -/
private theorem serializes_nil (s : Session) : s.Serializes [] := by
  intro t ht
  -- without replies nothing is ahead of the pass in flight
  have hahead : (s.ahead []).1.core = s.core ∧ (s.ahead []).2 = [] := by
    unfold ahead
    split <;> exact ⟨rfl, rfl⟩
  have hcore : t.core = s.core := ht.trans hahead.1
  show (s.core, []) = (t.core, Event.conduct ((s.ahead []).2 ++ []))
  rw [hcore, hahead.2]
  rfl

/-- `Serializes` extends by an action that `spares` the pass in flight. -/
private theorem serializes_act {action : Action} (hspared : s.spared (.act action) = true)
    (ih : (s.act action).1.Serializes rest) : s.Serializes (.act action :: rest) := by
  intro t ht
  have hplay : s.play (.act action :: rest)
      = .after (s.act action).2 ((s.act action).1.play rest) := rfl
  have hscript : Event.replies (s.play (.act action :: rest)).2
      = Event.replies ((s.act action).1.play rest).2 := by
    rw [hplay, Progress.snd_after, Event.replies_append (conduct_act s action)]
  rw [hscript] at ht ⊢
  obtain ⟨hevents, hcore⟩ := ahead_act hspared ht
  have hrest := ih (t.act action).1 hcore
  -- in neither session do passes do anything while somebody acts
  have hquiet : ∀ (u : Session) (p : Progress), (Progress.after (u.act action).2 p).gist = p.gist :=
    fun u p => @Progress.gist_after_congr _ [] (conduct_act u action) p
  rw [hplay, hquiet, hrest, hevents]
  exact Progress.gist_after (hquiet t _).symm _

/-- `play` from `advance` has the `gist` of what a session that has come further does. -/
private theorem gist_play_advance (ih : s.advance.1.Serializes rest) {p : Progress}
    (hp : p.gist = (s.advance.finished (Event.replies (s.advance.1.play rest).2)).gist)
    {t : Session} (ht : t.core = p.1.core) :
    (s.play (.advance :: rest)).gist
      = (Progress.after p.2 (t.performAll (s.advance.1.deeds rest))).gist := by
  let script := Event.replies (s.advance.1.play rest).2
  have hrest := ih t (ht.trans (congrArg Prod.fst hp))
  have hconduct : Event.conduct (s.advance.2 ++ (s.advance.1.ahead script).2)
      = Event.conduct p.2 := (congrArg Prod.snd hp).symm
  -- the rest of the play is the deeds of the rest, and this turn is what comes before it
  calc (s.play (.advance :: rest)).gist
      = (Progress.after s.advance.2 (.after (s.advance.1.ahead script).2
          (t.performAll (s.advance.1.deeds rest)))).gist := Progress.gist_after hrest s.advance.2
    _ = (Progress.after p.2 (t.performAll (s.advance.1.deeds rest))).gist := by
        rw [Progress.after_after]
        exact Progress.gist_after_congr hconduct _

/-- `Serializes` extends by the start of a pass, which then runs to its end. -/
private theorem serializes_start {pass : Pass} {passes : List Pass} (hf : s.flight? = none)
    (hw : s.waiting = pass :: passes) (ih : s.advance.1.Serializes rest) :
    s.Serializes (.advance :: rest) := by
  intro t ht
  have hahead : ∀ script, s.ahead script = (s, []) := fun script => by simp only [ahead, hf]
  rw [hahead] at ht ⊢
  let later := (s.advance.1.play rest).2
  let script := Event.replies (s.advance.2 ++ later)
  have hdeeds : s.deeds (.advance :: rest) = .pass script :: s.advance.1.deeds rest :=
    if_pos (by rw [starts, hf, hw]; rfl)
  -- the whole pass in the other session is the start here and what is ahead then
  have hgist : (t.deed (.pass script)).gist = (s.advance.finished (Event.replies later)).gist := by
    have hwaiting : t.core.waiting = s.core.waiting := by rw [ht]
    have hwaiting : t.waiting = pass :: passes := hwaiting.trans hw
    have hdeed : t.deed (.pass script) = { t with waiting := passes }.perform pass script := by
      simp only [deed, hwaiting]
    have hcore : ({ t with waiting := passes }).core = ({ s with waiting := passes }).core := by
      show { t.core with waiting := passes } = { s.core with waiting := passes }
      rw [ht]
    have hperform := gist_perform_replies { s with waiting := passes } pass later
    rw [← advance_start hf hw] at hperform
    rw [hdeed, gist_perform_of_core hcore]
    exact hperform
  rw [hdeeds]
  exact gist_play_advance ih hgist rfl

/-- `Serializes` extends by a reply to the pass in flight, which was finished before. -/
private theorem serializes_resume {flight : Flight} {reply : Reply} (hf : s.flight? = some flight)
    (hr : flight.reply? = some reply) (ih : s.advance.1.Serializes rest) :
    s.Serializes (.advance :: rest) := by
  intro t ht
  let later := (s.advance.1.play rest).2
  -- no pass starts, so there is no deed for this turn
  have hdeeds : s.deeds (.advance :: rest) = s.advance.1.deeds rest :=
    if_neg (by rw [starts, hf]; exact nofun)
  have hgist : (s.ahead (Event.replies (s.advance.2 ++ later))).gist
      = (s.advance.finished (Event.replies later)).gist := by
    rw [advance_resume hf hr]
    exact gist_ahead_resume hf reply later
  rw [hdeeds]
  exact gist_play_advance ih hgist ht

/-- `Serializes` extends by an `advance` that does nothing. -/
private theorem serializes_stay (hadvance : s.advance = (s, [])) (hstarts : s.starts = false)
    (ih : s.Serializes rest) : s.Serializes (.advance :: rest) := by
  -- neither the play nor the deeds have anything for this move
  have hplay : s.play (.advance :: rest) = s.play rest := by
    show Progress.after s.advance.2 (s.advance.1.play rest) = _
    rw [hadvance, Progress.after_nil]
  have hdeeds : s.deeds (.advance :: rest) = s.deeds rest := by
    have hskip : s.deeds (.advance :: rest) = s.advance.1.deeds rest :=
      if_neg (by rw [hstarts]; exact nofun)
    rw [hskip, hadvance]
  rw [Serializes, hplay, hdeeds]
  exact ih

/-- `Serializes` holds of moves that are `undisturbed`. -/
private theorem serializes (moves : List Move) (s : Session) (h : s.undisturbed moves = true) :
    s.Serializes moves := by
  -- over the moves, from any session that nobody disturbs
  induction moves generalizing s with
  | nil => exact serializes_nil s
  | cons m rest ih =>
    rw [undisturbed, Bool.and_eq_true] at h
    have hrest := ih (s.move m).1 h.2
    cases m with
    | act action => exact serializes_act h.1 hrest
    | advance =>
      have hrest : s.advance.1.Serializes rest := hrest
      -- the pass in flight waits or goes on
      cases hf : s.flight? with
      | some flight =>
        cases hr : flight.reply? with
        | some reply => exact serializes_resume hf hr hrest
        | none =>
          have hadvance := advance_wait hf hr
          rw [hadvance] at hrest
          exact serializes_stay hadvance (by rw [starts, hf]; rfl) hrest
      | none =>
        -- the next pass starts, if there is one
        cases hw : s.waiting with
        | cons pass passes => exact serializes_start hf hw hrest
        | nil =>
          have hadvance := advance_idle hf hw
          rw [hadvance] at hrest
          exact serializes_stay hadvance (by rw [starts, hf, hw]; rfl) hrest

/-- `deeds` have the actions of the moves. -/
theorem actions_deeds (s : Session) (moves : List Move) :
    (s.deeds moves).filterMap Deed.action? = moves.filterMap Move.action? := by
  induction moves generalizing s with
  | nil => rfl
  | cons m rest ih =>
    cases m with
    | act action => exact congrArg (action :: ·) (ih _)
    | advance =>
      show List.filterMap Deed.action? (if s.starts then _ else _) = rest.filterMap Move.action?
      -- a pass that starts is a deed, and no action
      split
      · exact ih _
      · exact ih _

/-- `play` of moves that are `undisturbed` does the same as their `deeds`, in which each pass runs
to its end where it started, with the replies that it got, and all that happened while it waited
happens after it: the heights asked for, the endings and the commits are the same, in the same
order, and so are the tracker and the engine. -/
theorem play_serial {s : Session} (h : s.flight? = none) (moves : List Move)
    (hundisturbed : s.undisturbed moves = true) :
    (s.deeds moves).filterMap Deed.action? = moves.filterMap Move.action? ∧
    Event.heights (s.play moves).2 = Event.heights (s.performAll (s.deeds moves)).2 ∧
    Event.endings (s.play moves).2 = Event.endings (s.performAll (s.deeds moves)).2 ∧
    Event.commits (s.play moves).2 = Event.commits (s.performAll (s.deeds moves)).2 ∧
    (s.play moves).1.tracker = (s.performAll (s.deeds moves)).1.tracker ∧
    (s.play moves).1.engine = (s.performAll (s.deeds moves)).1.engine := by
  have hahead : ∀ script, s.ahead script = (s, []) := fun script => by simp only [ahead, h]
  -- nobody is in flight at the start, and so both sessions begin at the same point
  have hgist := serializes moves s hundisturbed s (by rw [hahead])
  rw [hahead, Progress.after_nil] at hgist
  have hcore : (s.play moves).1.core = (s.performAll (s.deeds moves)).1.core :=
    congrArg Prod.fst hgist
  have hconduct : Event.conduct (s.play moves).2
      = Event.conduct (s.performAll (s.deeds moves)).2 := congrArg Prod.snd hgist
  have htracker : (s.play moves).1.core.tracker
      = (s.performAll (s.deeds moves)).1.core.tracker := by rw [hcore]
  have hengine : (s.play moves).1.core.engine
      = (s.performAll (s.deeds moves)).1.core.engine := by rw [hcore]
  refine ⟨actions_deeds s moves, ?_, ?_, ?_, htracker, hengine⟩
  · rw [← Event.heights_conduct, hconduct, Event.heights_conduct]
  · rw [← Event.endings_conduct, hconduct, Event.endings_conduct]
  · rw [← Event.commits_conduct, hconduct, Event.commits_conduct]

/-- `waited` meets the premises of `play_serial`: its first pass commits before its link is taken
over. -/
theorem waited_serial :
    small.flight? = none ∧ small.undisturbed waited = true ∧
    Event.heights (small.performAll (small.deeds waited)).2 = [12, 10, 12] ∧
    (small.performAll (small.deeds waited)).1.engine.history = [l2At 1] ∧
    (small.deeds waited).filterMap Deed.action? = waited.filterMap Move.action? ∧
    Event.heights (small.play waited).2 = Event.heights (small.performAll (small.deeds waited)).2 ∧
    Event.endings (small.play waited).2 = Event.endings (small.performAll (small.deeds waited)).2 ∧
    Event.commits (small.play waited).2 = Event.commits (small.performAll (small.deeds waited)).2 ∧
    (small.play waited).1.tracker = (small.performAll (small.deeds waited)).1.tracker ∧
    (small.play waited).1.engine = (small.performAll (small.deeds waited)).1.engine :=
  ⟨rfl, by rfl, by rfl, by rfl, play_serial rfl waited (by rfl)⟩

end Session

end Settlement
