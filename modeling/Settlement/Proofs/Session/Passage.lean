import Settlement.Proofs.Head
import Settlement.Proofs.Rejection

/-!
# Whole passes

A pass from its start to its end (`Passage`), whatever others do in the meantime. Nobody else passes
as long as it is in flight, so that the tracker is what actions have made of the one that took in
the trigger, and the engine what they have made of the one at the start, until the pass commits.

## Key results

- `exists_passage_of_ended`: every pass that ends has such a passage
- `Passage.tracker_eq`, `Passage.engine_eq`: the tracker and the engine after a passage
-/

namespace Settlement

/-! ## What others do -/

namespace Move

/-- The tracker after a move, but for the trigger of a pass that starts there. -/
def onTracker (t : Tracker) : Move → Tracker
  | .act action => action.onTracker t
  | .advance => t

/-- The links after a move. -/
def onLinks (links : Ring) : Move → Ring
  | .act (.record l2 l1) => (links.record l2 l1).1
  | .act .reset => links.clear
  | _ => links

/-- The engine after a move, but for a commit of a pass. -/
def onEngine (e : Engine) : Move → Engine
  | .act action => action.onEngine e
  | .advance => e

variable {moves : List Move}

/-- `onTracker` changes the links by `onLinks`, and the throttle at a reset. -/
theorem foldl_onTracker (t : Tracker) (moves : List Move) :
    (moves.foldl onTracker t).links = moves.foldl onLinks t.links ∧
    (moves.foldl onTracker t).signal = t.signal ∧
    (moves.foldl onTracker t).lastTried = if moves.any isReset then 0 else t.lastTried := by
  -- over the moves, of which a reset clears the throttle for good
  induction moves generalizing t with
  | nil => exact ⟨rfl, rfl, rfl⟩
  | cons m moves ih =>
    obtain ⟨hlinks, hsignal, htried⟩ := ih (onTracker t m)
    rw [List.foldl_cons, List.foldl_cons, hlinks, hsignal, htried, List.any_cons]
    cases m with
    | advance => exact ⟨rfl, rfl, rfl⟩
    | act action =>
      cases action with
      | reset => exact ⟨rfl, rfl, ite_self _⟩
      | _ => exact ⟨rfl, rfl, rfl⟩

/-- `onLinks` brings in no link as long as nothing is recorded. -/
theorem foldl_onLinks_subset (links : Ring) (h : ∀ l2 l1, .act (.record l2 l1) ∉ moves) :
    (moves.foldl onLinks links).toList ⊆ links.toList := by
  induction moves generalizing links with
  | nil => exact List.Subset.refl _
  | cons m moves ih =>
    -- a move that records nothing keeps the links or drops them all
    have hkept : (onLinks links m).toList ⊆ links.toList := by
      cases m with
      | advance => exact List.Subset.refl _
      | act action =>
        cases action with
        | record l2 l1 => exact absurd List.mem_cons_self (h l2 l1)
        | reset =>
          rw [onLinks, Ring.toList_clear]
          exact List.nil_subset _
        | _ => exact List.Subset.refl _
    have hrest : ∀ l2 l1, .act (.record l2 l1) ∉ moves := fun l2 l1 hmem =>
      h l2 l1 (List.mem_cons_of_mem _ hmem)
    exact List.Subset.trans (ih _ hrest) hkept

/-- `onEngine` leaves the engine as long as nobody else moves it. -/
theorem foldl_onEngine_eq (e : Engine) (h : ∀ block, .act (.move block) ∉ moves) :
    moves.foldl onEngine e = e := by
  induction moves with
  | nil => rfl
  | cons m moves ih =>
    -- only somebody else at the engine moves it
    have hkept : onEngine e m = e := by
      cases m with
      | advance => rfl
      | act action =>
        cases action with
        | move block => exact absurd List.mem_cons_self (h block)
        | _ => rfl
    rw [List.foldl_cons, hkept]
    exact ih fun block hmem => h block (List.mem_cons_of_mem _ hmem)

end Move

namespace Session

variable {s : Session} {pass : Pass} {plan : Plan} {p : Progress} {moves during : List Move}
  {ending : Ending}

/-! ## Passes in flight -/

/-- `logged` leaves the end of a pass that is done. -/
theorem logged_ok (s : Session) (pass : Pass) : s.logged pass (.judged .ok) = .judged .ok := by
  have hsilent : pass.endNotices (.judged .ok) = [] := endNotices_eq nofun
  exact logged_of_endNotices hsilent s

/-- `close` of a pass that is done is its end only. -/
theorem close_ok (s : Session) (pass : Pass) :
    (s.close pass (.judged .ok)).2 = [.ended pass (.judged .ok)] := by
  have hsilent : pass.endNotices (.judged .ok) = [] := endNotices_eq nofun
  rw [close, logged_ok, hsilent]
  rfl

/-- `close` ends the pass. -/
theorem exists_ended_close (s : Session) (pass : Pass) (ending : Ending) :
    ∃ logged, .ended pass logged ∈ (s.close pass ending).2 :=
  ⟨_, mem_close.mpr (.inr rfl)⟩

/-- `after` preserves that the pass has `ended`. -/
theorem exists_ended_after (heard : List Event) (h : ∃ ending, .ended pass ending ∈ p.2) :
    ∃ ending, .ended pass ending ∈ (Progress.after heard p).2 := by
  obtain ⟨ending, hmem⟩ := h
  exact ⟨ending, List.mem_append_right _ hmem⟩

/-- `commit` ends the pass. -/
theorem exists_ended_commit (s : Session) (pass : Pass) (plan : Plan) :
    ∃ ending, .ended pass ending ∈ (s.commit pass plan).2 := by
  rcases commit_cases s pass plan with ⟨notices, heq⟩ | ⟨reason, -, heq⟩ | ⟨notice, heq⟩
  · rw [heq]
    exact exists_ended_after _ (exists_ended_close ..)
  · rw [heq]
    exact exists_ended_close ..
  · rw [heq]
    exact exists_ended_after _ (exists_ended_close ..)

/-- A `Turn` leaves its pass in flight, without a commit, or ends it. -/
theorem Turn.flight_or_ended (h : Turn s pass plan p) :
    (∃ flight, p.1.flight? = some flight ∧ flight.pass = pass ∧ flight.plan = plan) ∧
      Event.commitments p.2 = [] ∨
    ∃ ending, .ended pass ending ∈ p.2 := by
  -- over the turn: the pass waits again, or is closed at its end
  induction h with
  | waits free address held => exact .inl ⟨⟨_, rfl, rfl, rfl⟩, rfl⟩
  | cancelled cancelled => exact .inr (exists_ended_close ..)
  | blocked hears check => exact .inr (exists_ended_after _ (exists_ended_close ..))
  | broken hears check => exact .inr (exists_ended_after _ (exists_ended_close ..))
  | passes hears check rest ih =>
    rcases ih with ⟨hflight, hnone⟩ | hended
    · refine .inl ⟨hflight, ?_⟩
      rw [Progress.snd_after, Event.commitments_append, hears.commitments_eq, hnone]
      rfl
    · exact .inr (exists_ended_after _ hended)
  | commits hears check => exact .inr (exists_ended_after _ (exists_ended_commit ..))

/-- `TakesTurn` leaves the pass in flight, without a commit, or ends it. -/
theorem TakesTurn.flight_or_ended (h : TakesTurn s pass plan p) :
    (∃ flight, p.1.flight? = some flight ∧ flight.pass = pass ∧ flight.plan = plan) ∧
      Event.commitments p.2 = [] ∨
    ∃ ending, .ended pass ending ∈ p.2 := by
  obtain ⟨-, -, -, hopens, hturn⟩ := h
  rcases hturn.flight_or_ended with ⟨hflight, hnone⟩ | ⟨ending, hended⟩
  · refine .inl ⟨hflight, ?_⟩
    rw [Progress.snd_after, Event.commitments_append, Event.commitments_of_isOpening hopens, hnone]
    rfl
  · exact .inr ⟨ending, List.mem_append_right _ hended⟩

/-- `move` without a commit changes the engine by `onEngine`. -/
theorem engine_move {m : Move} (h : Event.commitments (s.move m).2 = []) :
    (s.move m).1.engine = Move.onEngine s.engine m := by
  cases m with
  | act action => exact engine_act s action
  | advance =>
    rcases steered_move s .advance with ⟨hengine, -⟩ | ⟨-, hcommitments, -⟩ | ⟨hmove, -, -⟩
    · exact hengine
    · exact nomatch h.symm.trans hcommitments
    · exact nomatch hmove

/-- `move` changes the links by `onLinks`. -/
theorem links_move (s : Session) (m : Move) :
    (s.move m).1.tracker.links = Move.onLinks s.tracker.links m := by
  cases m with
  | advance => exact (advanced s).kept.1
  | act action =>
    show (s.act action).1.tracker.links = _
    rw [(acted s action).tracker]
    cases action <;> rfl

/-- `play` changes the links by `onLinks`. -/
theorem foldl_links_play (s : Session) (moves : List Move) :
    (s.play moves).1.tracker.links = moves.foldl Move.onLinks s.tracker.links := by
  induction moves generalizing s with
  | nil => rfl
  | cons m moves ih =>
    rw [play_cons, Progress.fst_after, ih, links_move]
    rfl

/-- The pass is in flight after these moves, at the first of which it started. The tracker and the
engine have been changed by others only. -/
structure Aloft (s : Session) (moves : List Move) (pass : Pass) (plan : Plan) : Prop where
  flight : ∃ flight, (s.play moves).1.flight? = some flight ∧ flight.pass = pass ∧
    flight.plan = plan
  tracker : (s.play moves).1.tracker = moves.foldl Move.onTracker (s.tracker.intake pass.trigger).1
  engine : (s.play moves).1.engine = moves.foldl Move.onEngine s.engine
  commitments : Event.commitments (s.play moves).2 = []

/-- `play` of one `advance` is that. -/
theorem play_advance (s : Session) : s.play [.advance] = s.advance := by
  show Progress.after s.advance.2 (s.advance.1, []) = s.advance
  rw [Progress.after, List.append_nil]

/-- `Aloft` holds of a pass that starts and does not end. -/
theorem aloft_start (hidle : s.flight? = none) (hnext : s.waiting.head? = some pass)
    (hnot : ∀ ending, .ended pass ending ∉ s.advance.2) :
    ∃ plan, s.planFor? pass = some plan ∧ Aloft s [.advance] pass plan := by
  have hstarting : s.starting? .advance = some pass := by
    rw [starting?, hidle]
    exact hnext
  rcases start_cases hidle hnext with ⟨plan, hplan, hturn⟩ | ⟨-, hends⟩
  · rcases hturn.flight_or_ended with ⟨hflight, hnone⟩ | ⟨ending, hended⟩
    · refine ⟨plan, hplan, ?_, ?_, ?_, ?_⟩ <;> rw [play_advance]
      · exact hflight
      · exact (advance_of_starting hstarting).2
      · exact engine_move (m := .advance) hnone
      · exact hnone
    · exact absurd hended (hnot ending)
  · -- without a plan it would have ended
    generalize s.advance = q at hends hnot
    obtain ⟨-, -, -⟩ := hends
    exact absurd (List.mem_append_right _ (mem_close.mpr (.inr rfl))) (hnot _)

/-- `Aloft` extends by a move at which the pass does not end. -/
theorem Aloft.concat (h : Aloft s moves pass plan) (hserved : Served (s.play moves).1) (m : Move)
    (hnot : ∀ ending, .ended pass ending ∉ ((s.play moves).1.move m).2) :
    Aloft s (moves ++ [m]) pass plan := by
  obtain ⟨⟨flight, hf, rfl, rfl⟩, htracker, hengine, hcommitments⟩ := h
  generalize ht : (s.play moves).1 = t at hf htracker hengine hserved hnot
  -- the pass stays in flight and commits nothing
  have hmove : (∃ flight', (t.move m).1.flight? = some flight' ∧ flight'.pass = flight.pass ∧
      flight'.plan = flight.plan) ∧ Event.commitments (t.move m).2 = [] := by
    cases m with
    | act action =>
      obtain ⟨reply?, heq⟩ := (acted t action).flight
      rw [hf] at heq
      exact ⟨⟨_, heq, rfl, rfl⟩, (acted t action).commitments⟩
    | advance =>
      have hnot : ∀ ending, .ended flight.pass ending ∉ t.advance.2 := hnot
      show (∃ flight', t.advance.1.flight? = some flight' ∧ _) ∧ Event.commitments t.advance.2 = []
      cases hr : flight.reply? with
      | none =>
        rw [advance_wait hf hr]
        exact ⟨⟨flight, hf, rfl, rfl⟩, rfl⟩
      | some reply =>
        rw [advance_resume hf hr] at hnot ⊢
        rcases (takesTurn_resume (hserved flight reply hf hr)).flight_or_ended with
          hflight | ⟨ending, hended⟩
        · exact hflight
        · exact absurd hended (hnot ending)
  -- and no other pass takes in a trigger
  have hkept : (t.move m).1.tracker = Move.onTracker t.tracker m := by
    cases m with
    | act action => exact (acted t action).tracker
    | advance =>
      have hnone : t.starting? .advance = none := by
        rw [starting?, hf]
        rfl
      exact (advance_of_starting_none hnone).2
  constructor
  · rw [fst_play_concat, ht]
    exact hmove.1
  · rw [fst_play_concat, ht, hkept, htracker, List.foldl_append]
    rfl
  · rw [fst_play_concat, ht, engine_move hmove.2, hengine, List.foldl_append]
    rfl
  · rw [play_concat, Progress.snd_after, Event.commitments_append, hcommitments, ht, hmove.2]
    rfl

/-- `Aloft` holds of a pass that starts at the first of these moves and does not end. -/
theorem aloft_play (hidle : s.flight? = none) (hnext : s.waiting.head? = some pass)
    (hbegins : moves.head? = some .advance)
    (hnot : ∀ ending, .ended pass ending ∉ (s.play moves).2) :
    ∃ plan, s.planFor? pass = some plan ∧ Aloft s moves pass plan := by
  -- over the moves since the start of the pass, none of which ends it
  induction moves using List.reverseRecOn with
  | nil => exact nomatch hbegins
  | append_singleton moves m ih =>
    have hpast : ∀ ending, .ended pass ending ∉ (s.play moves).2 := fun ending hmem =>
      hnot ending (by rw [play_concat]; exact List.mem_append_left _ hmem)
    have hlast : ∀ ending, .ended pass ending ∉ ((s.play moves).1.move m).2 := fun ending hmem =>
      hnot ending (by rw [play_concat]; exact List.mem_append_right _ hmem)
    -- the first move starts the pass
    cases moves with
    | nil =>
      obtain rfl : m = .advance := Option.some.inj hbegins
      exact aloft_start hidle hnext hlast
    | cons first rest =>
      obtain ⟨plan, hplan, haloft⟩ := ih hbegins hpast
      exact ⟨plan, hplan, haloft.concat (served_play hidle _) m hlast⟩

/-! ## Passages -/

/-- The pass starts at the first of these moves and ends when the session advances after them, not
before. Without a move it ends as it starts. -/
structure Passage (s : Session) (during : List Move) (pass : Pass) (ending : Ending) : Prop where
  idle : s.flight? = none
  next : s.waiting.head? = some pass
  begins : (during ++ [Move.advance]).head? = some .advance
  goes : ∀ ending, .ended pass ending ∉ (s.play during).2
  ends : .ended pass ending ∈ (s.play during).1.advance.2

namespace Passage

/-- `Passage` from the `endings` of the play. -/
theorem of_endings (hidle : s.flight? = none) (hnext : s.waiting.head? = some pass)
    (hbegins : (during ++ [Move.advance]).head? = some .advance)
    (hgoes : Event.endings (s.play during).2 = [])
    (hends : Event.endings (s.play during).1.advance.2 = [(pass, ending)]) :
    Passage s during pass ending := by
  refine ⟨hidle, hnext, hbegins, fun other hmem => ?_, ?_⟩
  · have hother := Event.mem_endings.mpr hmem
    rw [hgoes] at hother
    exact List.not_mem_nil hother
  · exact Event.mem_endings.mp (hends ▸ List.mem_singleton.mpr rfl)

variable (h : Passage s during pass ending)

include h

/-- A `Passage` ends at once, or the pass is `Aloft` until it ends. -/
theorem cases :
    during = [] ∨ ∃ plan, s.planFor? pass = some plan ∧ Aloft s during pass plan := by
  cases during with
  | nil => exact .inl rfl
  | cons m rest => exact .inr (aloft_play h.idle h.next h.begins h.goes)

/-- The session is `Served` before the end of a `Passage`. -/
theorem served : Served (s.play during).1 := served_play h.idle during

/-- The engine before the end of a `Passage` has been changed by `onEngine`. -/
theorem engine_before : (s.play during).1.engine = during.foldl Move.onEngine s.engine := by
  rcases h.cases with rfl | ⟨plan, -, haloft⟩
  · rfl
  · exact haloft.engine

/-- A `Passage` commits nothing before its end. -/
theorem commitments_before : Event.commitments (s.play during).2 = [] := by
  rcases h.cases with rfl | ⟨plan, -, haloft⟩
  · rfl
  · exact haloft.commitments

/-- The tracker after a `Passage` is the one that took in the trigger, after `onTracker` of the
moves during it. -/
theorem tracker_eq :
    (s.play (during ++ [.advance])).1.tracker
      = during.foldl Move.onTracker (s.tracker.intake pass.trigger).1 := by
  rw [fst_play_concat]
  show (s.play during).1.advance.1.tracker = _
  -- the pass starts with the last move, or was in flight before it
  rcases h.cases with rfl | ⟨plan, -, haloft⟩
  · have hstarting : s.starting? .advance = some pass := by
      rw [starting?, h.idle]
      exact h.next
    exact (advance_of_starting hstarting).2
  · obtain ⟨flight, hf, -⟩ := haloft.flight
    have hnone : (s.play during).1.starting? .advance = none := by
      rw [starting?, hf]
      rfl
    rw [(advance_of_starting_none hnone).2, haloft.tracker]

/-- The engine after a `Passage` without a commit has been changed by `onEngine`. -/
theorem engine_eq (hnone : Event.commitments (s.play during).1.advance.2 = []) :
    (s.play (during ++ [.advance])).1.engine = during.foldl Move.onEngine s.engine := by
  have hkept : (s.play during).1.advance.1.engine = (s.play during).1.engine :=
    engine_move (m := .advance) hnone
  rw [fst_play_concat, ← h.engine_before]
  exact hkept

/-- The plan at the end of a `Passage` is the one that the pass started with. -/
theorem planFor?_eq (hpursues : (s.play during).1.Pursues pass plan) :
    s.planFor? pass = some plan := by
  -- it pursues the plan from its start, or has been in flight with it
  rcases h.cases with rfl | ⟨known, hknown, haloft⟩
  · rcases hpursues with ⟨flight, hf, -, -⟩ | ⟨-, -, hplan⟩
    · exact nomatch h.idle.symm.trans hf
    · exact hplan
  · obtain ⟨flight, hf, -, rfl⟩ := haloft.flight
    rcases hpursues with ⟨flight', hf', -, rfl⟩ | ⟨hidle, -, -⟩
    · obtain rfl := Option.some.inj (hf.symm.trans hf')
      exact hknown
    · exact nomatch hidle.symm.trans hf

end Passage

/-- Every pass that has `ended` came by a `Passage`. -/
theorem exists_passage_of_ended (hfresh : Fresh s)
    (hended : .ended pass ending ∈ (s.play moves).2) :
    ∃ before during after, moves = before ++ during ++ .advance :: after ∧
      Passage (s.play before).1 during pass ending := by
  obtain ⟨past, m, future, rfl, hmem⟩ := exists_move_of_mem hended
  cases m with
  | act action =>
    have hconduct : .ended pass ending ∈ Event.conduct ((s.play past).1.act action).2 :=
      List.mem_filter.mpr ⟨hmem, rfl⟩
    rw [conduct_act] at hconduct
    exact absurd hconduct List.not_mem_nil
  | advance =>
    have hstarts : (s.play past).1.flight? = none → (s.play past).1.waiting.head? = some pass →
        Passage (s.play past).1 [] pass ending :=
      fun hidle hnext => ⟨hidle, hnext, rfl, fun _ => List.not_mem_nil, hmem⟩
    rcases pursues_of_ended (served_play hfresh.flight past) hmem with
      ⟨plan, hpursues⟩ | ⟨hidle, hnext, -⟩
    · rcases hpursues with ⟨flight, hf, rfl, hplan⟩ | ⟨hidle, hnext, -⟩
      · obtain ⟨before, during, events, rfl, hunderway, -, -⟩ :=
          exists_underway_of_flight hfresh.flight past flight hf
        refine ⟨before, during, future, rfl, hunderway.idle, hunderway.next, ?_,
          fun other hover => ?_, ?_⟩
        · rw [List.head?_append_of_ne_nil _ hunderway.ne_nil, hunderway.begins]
        · -- it would not have its turn any more
          have hover : .ended flight.pass other ∈ (s.play (before ++ during)).2 := by
            rw [play_append, Progress.snd_after]
            exact List.mem_append_right _ hover
          exact not_pursues_of_ended hfresh hover (.inl ⟨flight, hf, rfl, hplan⟩)
        · rw [← fst_play_append]
          exact hmem
      · exact ⟨past, [], future, by simp, hstarts hidle hnext⟩
    · exact ⟨past, [], future, by simp, hstarts hidle hnext⟩

end Session

end Settlement
