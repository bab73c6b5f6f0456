import Settlement.Proofs.Commitment
import Settlement.Proofs.Session.Gate

/-!
# Passes in succession

Passes run one at a time and in the order in which they were called for, in whatever way each of
them ends and however long it waits. What others do to the tracker in the meantime is done at once.

## Key results

- `inTurn_play`: passes of every play start and end one after the other
- `atRest_run`: after every step the pass in flight waits for a lookup, or nobody is in line
- `one_at_a_time`: passes in succession, and what does not wait for them
-/

namespace Settlement

/-- Passes take turns in `events`, after which those in `waiting` are still in line. -/
structure InTurn (events : List Event) (waiting : List Pass) : Prop where
  /-- Passes start in the order of calling. -/
  begun : Event.begun events ++ waiting = Event.calls events
  /-- Passes are told apart by their numbers. -/
  distinct : ((Event.calls events).map Pass.number).Nodup
  /-- Passes end in the order in which they started, and each of them once. -/
  finished : Event.finished events <+: Event.begun events
  /-- A pass starts when all that started before it are over. -/
  after_others : ∀ before pass intake after, events = before ++ .started pass intake :: after →
    Event.finished before = Event.begun before
  /-- When a pass ends in any way, all that started are over. -/
  leaves_none : ∀ before pass ending after, events = before ++ .ended pass ending :: after →
    Event.finished (before ++ [.ended pass ending]) = Event.begun (before ++ [.ended pass ending])
  heights : Event.heights events
    = (Event.begun events).flatMap fun pass => Event.askedBy pass.number events
  at_most_two : ∀ pass ∈ Event.begun events, (Event.askedBy pass.number events).length ≤ 2
  at_most_one : ∀ before, before <+: events → (Event.awaited before).length ≤ 1

namespace Session

/-! ## Events -/

variable {s : Session} {moves : List Move} {g : Gate} {events : List Event}

/-- The `gate` of a `Fresh` session has nobody inside or in line. -/
theorem Fresh.gate_eq (h : Fresh s) : s.gate = ⟨[], none, s.called⟩ := by
  rw [gate, h.flight, h.waiting]
  rfl

/-- `Gate.Through` from an empty gate calls for passes with different numbers, and starts no
others. -/
private theorem nodup_begun {called : Nat} (h : Gate.Through ⟨[], none, called⟩ events g) :
    ((Event.calls events).map Pass.number).Nodup ∧
    ((Event.begun events).map Pass.number).Nodup := by
  have hline : Event.calls events = Event.begun events ++ g.line := h.line_eq
  have hcalls : ((Event.calls events).map Pass.number).Nodup := by
    rw [h.numbers_eq.1]
    exact List.nodup_range'
  refine ⟨hcalls, ?_⟩
  rw [hline, List.map_append] at hcalls
  exact hcalls.of_append_left

/-- `Gate.Through` from an empty gate is `InTurn`. -/
private theorem inTurn_of_through {called : Nat}
    (h : Gate.Through ⟨[], none, called⟩ events g) : InTurn events g.line := by
  obtain ⟨hcalls, hbegun⟩ := nodup_begun h
  refine ⟨h.line_eq.symm, hcalls, ⟨g.visitors, h.begun_eq.symm⟩, ?_, ?_, h.heights_eq hbegun,
    fun pass hpass => h.askedBy_le_two hbegun hpass, ?_⟩
  · rintro before pass intake after rfl
    -- nobody is inside when a pass goes in
    obtain ⟨g', hbefore, hstart⟩ := h.split
    -- an empty gate has no visitors, and so all that went in came out
    have heq := hbefore.begun_eq
    cases hstart with
    | cons next rest =>
      cases next with
      | enters => simpa [Gate.visitors] using heq.symm
      | aside g haside => exact absurd haside Bool.false_ne_true
  · rintro before pass ending after rfl
    -- nor when one has come out
    rw [List.append_cons] at h
    obtain ⟨g', hbefore, -⟩ := h.split
    have heq := hbefore.begun_eq
    obtain ⟨g'', -, hend⟩ := hbefore.split
    cases hend with
    | cons next rest =>
      cases rest
      cases next with
      | leaves => simpa [Gate.visitors] using heq.symm
      | aside g haside => exact absurd haside Bool.false_ne_true
  · rintro before ⟨after, rfl⟩
    obtain ⟨g', hbefore, -⟩ := h.split
    have hawaited : (Event.awaited before).map Prod.fst = g'.awaiting := hbefore.awaited_eq rfl
    have hlength := congrArg List.length hawaited
    rw [List.length_map] at hlength
    rw [hlength, Gate.awaiting]
    split <;> simp

/-- `play` of a `Fresh` session is `InTurn`. -/
theorem inTurn_play (h : Fresh s) (moves : List Move) :
    InTurn (s.play moves).2 (s.play moves).1.waiting := by
  have hthrough := through_play s moves
  rw [h.gate_eq] at hthrough
  exact inTurn_of_through hthrough

/-- Who started in `play` is over, or the `flight?` that it leaves. -/
theorem begun_play (h : Fresh s) (moves : List Move) :
    Event.begun (s.play moves).2
      = Event.finished (s.play moves).2 ++ ((s.play moves).1.flight?.map Flight.pass).toList := by
  have hthrough := through_play s moves
  rw [h.gate_eq] at hthrough
  have hbegun : Event.begun (s.play moves).2
      = Event.finished (s.play moves).2 ++ (s.play moves).1.gate.visitors := hthrough.begun_eq
  rw [hbegun, Gate.visitors, gate, Option.map_map]
  rfl

/-! ## Steps -/

/-- No pass can go on: the one in flight waits for a lookup, or nobody is in line. -/
def AtRest (s : Session) : Prop :=
  match s.flight? with
  | some flight => flight.reply? = none
  | none => s.waiting = []

/-- `AtRest` holds with a pass in flight that has no reply. -/
theorem atRest_of_flight {flight : Flight} (hf : s.flight? = some flight)
    (hr : flight.reply? = none) : s.AtRest := by
  rw [AtRest, hf]
  exact hr

/-- `AtRest` holds with nobody in flight or in line. -/
theorem atRest_of_landed (hf : s.flight? = none) (hw : s.waiting = []) : s.AtRest := by
  rw [AtRest, hf]
  exact hw

/-- A `Leg` that leaves its pass in flight leaves it without a reply. -/
theorem Leg.reply?_eq {pass : Pass} {plan : Plan} {begun : Prop} {made : List Event}
    {p : Progress} (h : Leg pass plan begun s made p) {flight : Flight}
    (hf : p.1.flight? = some flight) : flight.reply? = none := by
  cases h with
  | waits =>
    obtain rfl := Option.some.inj hf
    rfl
  | ends => exact nomatch hf
  | commits => exact nomatch hf

/-- `start` leaves a pass in flight without a reply. -/
theorem reply?_start {pass : Pass} {flight : Flight}
    (hf : (s.start pass).1.flight? = some flight) : flight.reply? = none := by
  rw [start_eq, Progress.fst_after] at hf
  rcases proceed_cases (s.took pass) pass ((s.took pass).checkSignal pass)
    (s.tracker.intake pass.trigger).2 with ⟨ending, heq⟩ | ⟨plan, -, -, heq⟩
  · rw [heq] at hf
    exact nomatch hf
  · rw [heq] at hf
    exact (checkSignal_leg (s.took pass) pass plan).reply?_eq hf

/-- `startAll` brings the passes in line to rest. -/
theorem atRest_startAll (passes : List Pass) (s : Session) (hf : s.flight? = none)
    (hw : s.waiting = passes) : (s.startAll passes).1.AtRest := by
  induction passes generalizing s with
  | nil => exact atRest_of_landed hf hw
  -- it stops at the first one that has to wait
  | cons pass rest ih =>
    have hwaiting := waiting_start { s with waiting := rest } pass
    unfold startAll
    dsimp only
    cases hflight : ({ s with waiting := rest }.start pass).1.flight? with
    | some flight => exact atRest_of_flight hflight (reply?_start hflight)
    | none => exact ih _ hflight hwaiting

/-- `settle` brings every session to rest. -/
theorem atRest_settle (s : Session) : s.settle.1.AtRest := by
  unfold settle
  cases hflight : s.flight? with
  | none => exact atRest_startAll _ s hflight rfl
  | some flight =>
    dsimp only
    cases hreply : flight.reply? with
    | none => exact atRest_of_flight hflight hreply
    | some reply =>
      dsimp only
      -- the pass in flight waits again, or those in line start
      have hleg := resume_leg s flight reply []
      cases hnext : (s.resume flight reply).1.flight? with
      | some flight => exact atRest_of_flight hnext (hleg.reply?_eq hnext)
      | none => exact atRest_startAll _ _ hnext rfl

/-- `run` keeps a session at rest. -/
theorem atRest_run (h : s.AtRest) (steps : List (List Action)) : (s.run steps).1.AtRest := by
  induction steps generalizing s with
  | nil => exact h
  | cons actions steps ih => exact ih (atRest_settle _)

/-- `settle` does nothing while the pass in flight waits. -/
theorem settle_of_waits {flight : Flight} (hf : s.flight? = some flight)
    (hr : flight.reply? = none) : s.settle = (s, []) := by
  simp only [settle, hf, hr]

/-- `step` with `record` while a pass waits changes the links and nothing else: they become those
that `Links.record` leaves. -/
theorem step_record_of_waits {flight : Flight} (hf : s.flight? = some flight)
    (hr : flight.reply? = none) (l2 : L2Block) (l1 : BlockId) :
    (s.step [.record l2 l1]).1
      = { s with tracker := { s.tracker with links := (s.tracker.links.record l2 l1).1 } } ∧
    (s.tracker.links.WellFormed →
      (s.step [.record l2 l1]).1.tracker.links.WellFormed ∧
      (s.step [.record l2 l1]).1.tracker.links.toList
        = (Links.record s.tracker.links.capacity s.tracker.links.toList l2 l1).1) := by
  let t : Session :=
    { s with tracker := { s.tracker with links := (s.tracker.links.record l2 l1).1 } }
  -- settling has nothing to do, since the pass still waits
  have hsettle : t.settle = (t, []) := settle_of_waits hf hr
  have hstep : (s.step [.record l2 l1]).1 = t := by
    show t.settle.1 = t
    rw [hsettle]
  refine ⟨hstep, fun hwf => ?_⟩
  rw [hstep]
  exact ⟨Ring.wellFormed_record hwf l2 l1, Ring.toList_record hwf l2 l1⟩

/-- `step` with `reset` while a pass waits leaves no link and `lastTried` at 0, and counts one more
`generation`. The signal stays, and so does everything outside the tracker. -/
theorem step_reset_of_waits {flight : Flight} (hf : s.flight? = some flight)
    (hr : flight.reply? = none) :
    (s.step [.reset]).1 = { s with
      tracker := { s.tracker with
        links := .empty s.tracker.links.capacity
        lastTried := 0
        generation := s.tracker.generation + 1 } } := by
  let t : Session := { s with tracker := s.tracker.reset }
  have hsettle : t.settle = (t, []) := settle_of_waits hf hr
  show t.settle.1 = t
  rw [hsettle]

/-- `play` and `run` of a `Fresh` session are `InTurn`: passes start and end one after the other in
the order of calling, with at most two lookups each and one lookup awaited at a time. `run` is also
`AtRest` after every step. Recording and resetting do not wait for the pass in flight. -/
theorem one_at_a_time (h : Fresh s) :
    (∀ moves, InTurn (s.play moves).2 (s.play moves).1.waiting ∧
      Event.begun (s.play moves).2
        = Event.finished (s.play moves).2 ++ ((s.play moves).1.flight?.map Flight.pass).toList) ∧
    (∀ steps, InTurn (s.run steps).2 (s.run steps).1.waiting ∧ (s.run steps).1.AtRest) ∧
    ∀ (t : Session) (flight : Flight), t.flight? = some flight → flight.reply? = none →
      (∀ l2 l1,
        (t.step [.record l2 l1]).1
          = { t with tracker := { t.tracker with links := (t.tracker.links.record l2 l1).1 } } ∧
        (t.tracker.links.WellFormed →
          (t.step [.record l2 l1]).1.tracker.links.WellFormed ∧
          (t.step [.record l2 l1]).1.tracker.links.toList
            = (Links.record t.tracker.links.capacity t.tracker.links.toList l2 l1).1)) ∧
      (t.step [.reset]).1 = { t with
        tracker := { t.tracker with
          links := .empty t.tracker.links.capacity
          lastTried := 0
          generation := t.tracker.generation + 1 } } := by
  refine ⟨fun moves => ⟨inTurn_play h moves, begun_play h moves⟩, fun steps => ⟨?_, ?_⟩,
    fun t flight hf hr => ⟨step_record_of_waits hf hr, step_reset_of_waits hf hr⟩⟩
  -- a run is a play
  · obtain ⟨moves, hmoves, -⟩ := exists_play_eq_run s steps
    rw [hmoves]
    exact inTurn_play h moves
  · exact atRest_run (atRest_of_landed h.flight h.waiting) steps

/-- A pass waits while others get in line. One after the other they end in different ways: the
first fails at its second lookup, the second is for an older signal, and the third finds no block
at all behind an answer. The fourth is still in line. -/
def crowded : List Move :=
  [.act (.setBlock 10 (l1At "a" 10).toValue),
    .act (.setBlock 12 (l1At "f" 12).toValue),
    .act (.setBlock 13 .null),
    .act (.record (l2At 1) (l1At "a" 10).toBlockId),
    .act (.hold true),
    .act (.call "first" (.signal (l1At "f" 12)) none),
    .act (.call "second" (.signal (l1At "e" 11)) none),
    .advance,
    .act (.call "third" (.signal (l1At "g" 13)) none),
    .act (.call "fourth" (.boundary (l1At "a" 10)) none),
    .act (.release none),
    .advance,
    .act (.hold false),
    .act (.release (some (.text "gone"))),
    .advance,
    .advance,
    .advance]

/-- After these steps a pass waits for a lookup, and another one is in line. -/
def jammed : List (List Action) :=
  [[.record (l2At 1) (l1At "a" 10).toBlockId, .hold true],
    [.call "first" (.signal (l1At "f" 12)) none, .call "second" (.boundary (l1At "a" 10)) none]]

/-- `one_at_a_time` in `crowded` and after `jammed`, where a record and a reset do not wait. -/
theorem crowded_one_at_a_time :
    small.Fresh ∧
    (Event.finished (small.play crowded).2).map Pass.number = [0, 1, 2] ∧
    Event.heights (small.play crowded).2 = [12, 10, 13] ∧
    (small.play crowded).1.waiting.map Pass.number = [3] ∧
    InTurn (small.play crowded).2 (small.play crowded).1.waiting ∧
    (small.run jammed).1.waiting.map Pass.number = [1] ∧
    (small.run jammed).1.AtRest ∧
    ∃ flight, (small.run jammed).1.flight? = some flight ∧ flight.reply? = none ∧
      ((small.run jammed).1.step [.record (l2At 2) (l1At "b" 11).toBlockId]).1.tracker.links.toList
        = [⟨l2At 1, (l1At "a" 10).toBlockId⟩, ⟨l2At 2, (l1At "b" 11).toBlockId⟩] ∧
      ((small.run jammed).1.step [.reset]).1 = { (small.run jammed).1 with
        tracker := { (small.run jammed).1.tracker with
          links := .empty (small.run jammed).1.tracker.links.capacity
          lastTried := 0
          generation := 1 } } := by
  obtain ⟨hplay, hrun, hothers⟩ := one_at_a_time fresh_small
  -- after `jammed` a pass waits
  obtain ⟨flight, hf, hr⟩ :
      ∃ flight, (small.run jammed).1.flight? = some flight ∧ flight.reply? = none :=
    ⟨_, rfl, rfl⟩
  exact ⟨fresh_small, by rfl, by rfl, by rfl, (hplay crowded).1, by rfl, (hrun jammed).2, flight,
    hf, hr, by rfl, (hothers _ flight hf hr).2⟩

end Session

end Settlement
