import Settlement.Proofs.Serial

/-!
# The finalized head

Heads only move forward. A pass chooses its candidate above the head that the engine has when the
pass starts, and it looks at the head once more before it commits, so that whatever others do to
the engine in between, a commit raises the head that is there at that moment. NaN is the one
number with which this would fail: it is not at least as great as anything.

## Key results

- `steered_move`: all that a move can do to the engine
- `ascending_play`: with nobody else at the engine, every head is above the one before it
- `head_forward`: what all runs do to the engine
-/

namespace Settlement

/-! ## Engines -/

namespace Engine

/-- The head is the last block of the history, or the given one before there is any. -/
def HeadedFrom (first : L2Block) (e : Engine) : Prop := (first :: e.history).getLast? = some e.head

/-- `commit` gives `HeadedFrom`. -/
theorem headedFrom_commit (first : L2Block) (e : Engine) (block : L2Block) :
    (e.commit block).HeadedFrom first := by
  rw [HeadedFrom, history_commit, ← List.cons_append, List.getLast?_concat, head_commit]

/-- `HeadedFrom` gives the head from the history. -/
theorem HeadedFrom.head_eq {first : L2Block} {e : Engine} (h : e.HeadedFrom first) :
    e.head = e.history.getLast?.getD first := by
  rw [HeadedFrom, List.getLast?_cons] at h
  exact (Option.some.inj h).symm

end Engine

namespace Session

/-! ## Single moves -/

/-- The engine and the commits after a move. That a commit of a pass raises the head rests on the
session having been `sound`. -/
inductive Steered (e : Engine) (sound : Prop) (m : Move) (p : Progress) : Prop
  | stays (engine : p.1.engine = e) (commitments : Event.commitments p.2 = [])
  /-- A pass commits a block. -/
  | raises {number : Nat} {block : L2Block} (engine : p.1.engine = e.commit block)
      (commitments : Event.commitments p.2 = [(number, block)])
      (higher : sound → e.head.number < block.number)
  /-- Somebody else commits a block. -/
  | moves {block : L2Block} (move_eq : m = .act (.move block))
      (engine : p.1.engine = e.commit block) (commitments : Event.commitments p.2 = [])

/-- Neither the head nor the candidate of the pass in flight is NaN. -/
def Comparable (s : Session) : Prop :=
  ∀ flight, s.flight? = some flight →
    s.engine.head.number ≠ .nan ∧ flight.plan.candidate.number ≠ .nan

variable {s : Session} {pass : Pass} {plan : Plan} {begun sound : Prop} {made : List Event}
  {p : Progress} {m : Move} {e : Engine}

/-- `Comparable` holds where no pass is in flight. -/
theorem comparable_of_landed (h : s.flight? = none) : Comparable s := by
  intro flight hflight
  rw [h] at hflight
  exact nomatch hflight

/-- `Steered` extends to the front by events without commitments. -/
theorem Steered.after {events : List Event} (h : Steered e sound m p)
    (hevents : Event.commitments events = []) : Steered e sound m (.after events p) := by
  have hcommitments : Event.commitments (Progress.after events p).2 = Event.commitments p.2 := by
    rw [Progress.snd_after, Event.commitments_append, hevents, List.nil_append]
  -- the same way of steering, with the same commitments
  cases h with
  | stays engine commitments => exact .stays engine (hcommitments.trans commitments)
  | raises engine commitments higher =>
    exact .raises engine (hcommitments.trans commitments) higher
  | moves move_eq engine commitments =>
    exact .moves move_eq engine (hcommitments.trans commitments)

/-- A `Leg` is `Steered`, and keeps the session `Comparable`. -/
theorem Leg.steered (h : Leg pass plan begun s made p)
    (hc : sound → s.engine.head.number ≠ .nan ∧ plan.candidate.number ≠ .nan) :
    Steered s.engine sound m p ∧ (sound → Comparable p.1) := by
  cases h with
  | waits lookups commitments heads =>
    refine ⟨.stays rfl commitments, fun hsound flight hflight => ?_⟩
    obtain rfl := Option.some.inj hflight
    exact hc hsound
  | ends commitments heads => exact ⟨.stays rfl commitments, fun _ => comparable_of_landed rfl⟩
  | commits lookups generation higher commitments heads quiet =>
    rename_i events after
    have hcommitments : Event.commitments
        (events ++ .committed pass.number plan.candidate :: after)
          = [(pass.number, plan.candidate)] := by
      rw [Event.commitments_append, commitments, List.nil_append]
      show _ :: Event.commitments after = _
      rw [quiet.1]
    -- the head is read again here, whatever it was when the candidate was chosen
    refine ⟨.raises rfl hcommitments fun hsound => ?_, fun _ => comparable_of_landed rfl⟩
    exact Number.lt_of_not_le (hc hsound).1 (hc hsound).2 higher

/-- `advance` is `Steered`, and keeps the session `Comparable`. -/
theorem Advanced.steered (h : Advanced s p) :
    Steered s.engine (Comparable s) m p ∧ (Comparable s → Comparable p.1) := by
  cases h with
  | stays => exact ⟨.stays rfl rfl, id⟩
  | resumes flight_eq leg => exact (leg []).steered fun hsound => hsound _ flight_eq
  | passes flight_eq waiting_eq =>
    refine ⟨Steered.after (.stays rfl (quiet_close ..).1) (quiet_opening ..).1, fun _ => ?_⟩
    exact comparable_of_landed rfl
  | starts flight_eq waiting_eq due plan_eq leg =>
    -- a candidate is chosen above the head, so both are numbers
    have hhigher := (Tracker.plan?_eq_some plan_eq).2.2.2.2
    obtain ⟨hsteered, hcomparable⟩ := leg.steered fun _ => Number.ne_nan_of_lt hhigher
    exact ⟨hsteered.after (quiet_opening ..).1, hcomparable⟩

/-- `act` changes the engine by `onEngine`. -/
theorem engine_act (s : Session) (action : Action) :
    (s.act action).1.engine = action.onEngine s.engine :=
  congrArg Session.engine (core_act s action)

/-- `move` is `Steered`. -/
theorem steered_move (s : Session) (m : Move) :
    Steered s.engine (Comparable s) m (s.move m) := by
  cases m with
  | advance => exact (advanced s).steered.1
  | act action =>
    have hcommitments := (acted s action).commitments
    cases action with
    | move block => exact .moves rfl rfl hcommitments
    | _ => exact .stays (engine_act s _) hcommitments

/-- `move` keeps the session `Comparable` if it brings in no NaN. -/
theorem comparable_move (hc : Comparable s)
    (hm : ∀ block, m = .act (.move block) → block.number ≠ .nan) : Comparable (s.move m).1 := by
  cases m with
  | advance => exact ((advanced s).steered (m := .advance)).2 hc
  | act action =>
    intro flight hflight
    obtain ⟨reply?, heq⟩ := (acted s action).flight
    obtain ⟨flight', hflight', rfl⟩ := Option.map_eq_some_iff.mp (heq.symm.trans hflight)
    obtain ⟨hhead, hcandidate⟩ := hc flight' hflight'
    refine ⟨?_, hcandidate⟩
    show (s.act action).1.engine.head.number ≠ .nan
    rw [engine_act]
    -- only somebody else at the engine moves the head
    cases action with
    | move block => exact hm block rfl
    | _ => exact hhead

/-! ## Runs -/

/-- `play` keeps the session `Comparable` if it brings in no NaN. -/
theorem comparable_play (hc : Comparable s) (moves : List Move)
    (hmoved : ∀ block, .act (.move block) ∈ moves → block.number ≠ .nan) :
    Comparable (s.play moves).1 := by
  induction moves generalizing s with
  | nil => exact hc
  | cons m moves ih =>
    rw [play_cons, Progress.fst_after]
    apply ih
    · exact comparable_move hc fun block hm => hmoved block (by simp [hm])
    · exact fun block hmem => hmoved block (List.mem_cons_of_mem _ hmem)

/-- `play` keeps the head from NaN if it brings in none. -/
theorem head_ne_nan_play (hc : Comparable s) (hhead : s.engine.head.number ≠ .nan)
    (moves : List Move) (hmoved : ∀ block, .act (.move block) ∈ moves → block.number ≠ .nan) :
    (s.play moves).1.engine.head.number ≠ .nan := by
  -- over the moves, for any session that is comparable
  induction moves generalizing s with
  | nil => exact hhead
  | cons m moves ih =>
    rw [play_cons, Progress.fst_after]
    apply ih
    · exact comparable_move hc fun block hm => hmoved block (by simp [hm])
    -- the head stays, rises, or is moved to a number that can be compared
    · rcases steered_move s m with ⟨hengine, -⟩ | ⟨hengine, -, hhigher⟩ | ⟨hm, hengine, -⟩
      · rwa [hengine]
      · rw [hengine]
        exact (Number.ne_nan_of_lt (hhigher hc)).2
      · rw [hengine]
        exact hmoved _ (by simp [hm])
    · exact fun block hmem => hmoved block (List.mem_cons_of_mem _ hmem)

/-- `play` does not move the head back with nobody else at the engine. -/
theorem head_le_play (hc : Comparable s) (hhead : s.engine.head.number ≠ .nan) {moves : List Move}
    (hmoved : ∀ block, .act (.move block) ∉ moves) :
    s.engine.head.number ≤ (s.play moves).1.engine.head.number := by
  -- over the moves, for any session that is comparable
  induction moves generalizing s with
  | nil => exact Number.le_refl hhead
  | cons m moves ih =>
    have hcomparable : Comparable (s.move m).1 :=
      comparable_move hc fun block hm => absurd (hm ▸ List.mem_cons_self) (hmoved block)
    have hrest : ∀ block, .act (.move block) ∉ moves := fun block hmem =>
      hmoved block (List.mem_cons_of_mem _ hmem)
    rw [play_cons, Progress.fst_after]
    -- the head stays or rises, since nobody else moves it
    rcases steered_move s m with ⟨hengine, -⟩ | ⟨hengine, -, hhigher⟩ | ⟨rfl, -, -⟩
    · rw [← hengine] at hhead ⊢
      exact ih hcomparable hhead hrest
    · have hlt : s.engine.head.number < (s.move m).1.engine.head.number := by
        rw [hengine]
        exact hhigher hc
      exact Number.le_trans (Number.le_of_lt hlt) (ih hcomparable (Number.ne_nan_of_lt hlt).2 hrest)
    · exact absurd List.mem_cons_self (hmoved _)

/-- `play` preserves `HeadedFrom`. -/
theorem headedFrom_play {first : L2Block} (h : s.engine.HeadedFrom first) (moves : List Move) :
    (s.play moves).1.engine.HeadedFrom first := by
  -- over the moves, for any session headed from the first block
  induction moves generalizing s with
  | nil => exact h
  | cons m moves ih =>
    rw [play_cons, Progress.fst_after]
    apply ih
    -- whoever moves the head does so by a commit
    rcases steered_move s m with ⟨hengine, -⟩ | ⟨hengine, -, -⟩ | ⟨-, hengine, -⟩
    · rwa [hengine]
    · rw [hengine]
      exact Engine.headedFrom_commit ..
    · rw [hengine]
      exact Engine.headedFrom_commit ..

/-- `play` grows the history at its end only. -/
theorem history_isPrefix (s : Session) (past future : List Move) :
    (s.play past).1.engine.history <+: (s.play (past ++ future)).1.engine.history := by
  rw [fst_play_append, history_play (s.play past).1]
  exact List.prefix_append ..

/-- A pass that has `committed` raises the head that is there at that moment. -/
theorem raises_of_mem (hc : Comparable s) {past : List Move}
    (hmoved : ∀ block, .act (.move block) ∈ past → block.number ≠ .nan) {number : Nat}
    {block : L2Block} (hmem : .committed number block ∈ ((s.play past).1.move m).2) :
    (s.play past).1.engine.head.number < block.number ∧
    ((s.play past).1.move m).1.engine = (s.play past).1.engine.commit block := by
  have hcomparable := comparable_play hc past hmoved
  rw [← Event.mem_commitments] at hmem
  -- only a move with a pass that commits has a commitment
  rcases steered_move (s.play past).1 m with
    ⟨-, hcommitments⟩ | ⟨hengine, hcommitments, hhigher⟩ | ⟨-, -, hcommitments⟩
  · rw [hcommitments] at hmem
    exact absurd hmem List.not_mem_nil
  · rw [hcommitments] at hmem
    obtain ⟨rfl, rfl⟩ := Prod.mk.inj (List.mem_singleton.mp hmem)
    exact ⟨hhigher hcomparable, hengine⟩
  · rw [hcommitments] at hmem
    exact absurd hmem List.not_mem_nil

/-- `play` has a strictly ascending history with nobody else at the engine. -/
theorem ascending_play {first : L2Block} (hc : Comparable s)
    (hengine : s.engine = { head := first }) (moves : List Move)
    (hmoved : ∀ block, .act (.move block) ∉ moves) :
    (first :: (s.play moves).1.engine.history).Pairwise (·.number < ·.number) := by
  have trans : Trans (fun a b : L2Block => a.number < b.number)
      (fun a b : L2Block => a.number < b.number) (fun a b : L2Block => a.number < b.number) :=
    ⟨Number.lt_trans⟩
  -- along a chain it is enough to compare with the last head
  rw [← List.isChain_iff_pairwise]
  induction moves using List.reverseRecOn with
  | nil => simp [play, hengine]
  | append_singleton moves m ih =>
    have hmoved' : ∀ block, .act (.move block) ∉ moves := fun block hmem =>
      hmoved block (List.mem_append_left _ hmem)
    have hcomparable := comparable_play hc moves fun block hmem => absurd hmem (hmoved' block)
    have hlast := headedFrom_play (hengine ▸ rfl : s.engine.HeadedFrom first) moves
    rw [play_concat, Progress.fst_after]
    rcases steered_move (s.play moves).1 m with
      ⟨hstays, -⟩ | ⟨hraises, -, hhigher⟩ | ⟨hm, -, -⟩
    · rw [hstays]
      exact ih hmoved'
    · rw [hraises, Engine.history_commit, ← List.cons_append, List.isChain_append]
      refine ⟨ih hmoved', List.isChain_singleton _, ?_⟩
      rw [hlast]
      simpa using hhigher hcomparable
    · rw [hm] at hmoved
      exact absurd (List.mem_append_right _ List.mem_cons_self) (hmoved _)

/-- `play` moves the head to the last block of the history, which grows at its end only. With nobody
else at the engine the history strictly ascends from the first head. Whoever else is there, a pass
that has `committed` raises the head of that moment. -/
theorem head_forward {first : L2Block} (hidle : s.flight? = none)
    (hengine : s.engine = { head := first }) (moves : List Move) :
    (s.play moves).1.engine.head = (s.play moves).1.engine.history.getLast?.getD first ∧
    (∀ past future, moves = past ++ future →
      (s.play past).1.engine.history <+: (s.play moves).1.engine.history) ∧
    ((∀ block, .act (.move block) ∉ moves) →
      (first :: (s.play moves).1.engine.history).Pairwise (·.number < ·.number)) ∧
    ((∀ block, .act (.move block) ∈ moves → block.number ≠ .nan) →
      ∀ past m future, moves = past ++ m :: future → ∀ number block,
        .committed number block ∈ ((s.play past).1.move m).2 →
        (s.play past).1.engine.head.number < block.number ∧
        ((s.play past).1.move m).1.engine = (s.play past).1.engine.commit block) := by
  have hc := comparable_of_landed hidle
  have hheaded : s.engine.HeadedFrom first := by rw [hengine]; rfl
  refine ⟨(headedFrom_play hheaded moves).head_eq, ?_, ascending_play hc hengine moves, ?_⟩
  -- each law holds of every part of the play
  · rintro past future rfl
    exact history_isPrefix s past future
  · rintro hmoved past m future rfl number block hmem
    exact raises_of_mem hc (fun block hpast => hmoved block (List.mem_append_left _ hpast)) hmem

/-- After a reset lower blocks are recorded. -/
def relapsed : List Move :=
  [.act (.setBlock 10 (l1At "a" 10).toValue),
    .act (.setBlock 12 (l1At "f" 12).toValue),
    .act (.record (l2At 5) (l1At "a" 10).toBlockId),
    .act (.call "first" (.signal (l1At "f" 12)) none),
    .advance,
    .act .reset,
    .act (.record (l2At 3) (l1At "a" 10).toBlockId),
    .act (.call "second" (.boundary (l1At "a" 10)) none),
    .advance,
    .act (.record (l2At 7) (l1At "a" 10).toBlockId),
    .act (.call "third" (.signal (l1At "f" 12)) none),
    .advance]

/-- Others move the engine while a pass waits, first beyond its candidate and then far back. -/
def overruled : List Move :=
  [.act (.setBlock 10 (l1At "a" 10).toValue),
    .act (.setBlock 12 (l1At "f" 12).toValue),
    .act (.record (l2At 5) (l1At "a" 10).toBlockId),
    .act (.hold true),
    .act (.call "first" (.signal (l1At "f" 12)) none),
    .advance,
    .act (.move (l2At 9)),
    .act (.release none),
    .advance,
    .act (.release none),
    .advance,
    .act (.record (l2At 11) (l1At "a" 10).toBlockId),
    .act (.call "second" (.signal (l1At "f" 12)) none),
    .advance,
    .act (.move (l2At 2)),
    .act (.hold false),
    .act (.release none),
    .advance]

/-- `relapsed` and `overruled` meet the premises of `head_forward`. -/
theorem overruled_forward :
    small.flight? = none ∧ small.engine = { head := .zero } ∧
    (∀ block, .act (.move block) ∉ relapsed) ∧
    (small.play relapsed).1.engine.history = [l2At 5, l2At 7] ∧
    (.zero :: (small.play relapsed).1.engine.history).Pairwise (·.number < ·.number) ∧
    (∀ block, .act (.move block) ∈ overruled → block.number ≠ .nan) ∧
    (small.play overruled).1.engine.history = [l2At 9, l2At 2, l2At 11] ∧
    .committed 1 (l2At 11) ∈ (small.play overruled.dropLast).1.advance.2 ∧
    (small.play overruled.dropLast).1.engine.head.number < (l2At 11).number := by
  have hrelapsed : ∀ block, .act (.move block) ∉ relapsed := by simp [relapsed]
  have hoverruled : ∀ block, .act (.move block) ∈ overruled → block.number ≠ .nan := by
    simp [overruled, l2At]
  -- the second pass commits after the head was moved back
  have hcommitments :
      Event.commitments (small.play overruled.dropLast).1.advance.2 = [(1, l2At 11)] := by rfl
  have hmem := mem_of_commitments_eq hcommitments
  have hengine : small.engine = { head := .zero } := rfl
  have hforward :=
    (head_forward rfl hengine overruled).2.2.2 hoverruled overruled.dropLast .advance []
  exact ⟨rfl, hengine, hrelapsed, by rfl, (head_forward rfl hengine relapsed).2.2.1 hrelapsed,
    hoverruled, by rfl, hmem, (hforward rfl 1 (l2At 11) hmem).1⟩

end Session

end Settlement
