import Settlement.Proofs.Session.Play

/-!
# Passes underway

From the moves before a pass started, the moves since, and what happened at them: what is known
of a pass between its start and its commit (`Underway`). Actions come in between at will; no other
pass does, so that the signal stays the one that the pass started with.

## Key results

- `exists_underway_of_flight`: a pass in flight started at some move and has been underway since
- `exists_underway_of_mem`: so has a pass that commits, and it found both blocks
-/

namespace Settlement.Session

/-- The pass started at the first of these moves with this plan, and no other pass has moved
since. -/
structure Underway (s : Session) (during : List Move) (pass : Pass) (plan : Plan)
    (events : List Event) : Prop where
  idle : s.flight? = none
  next : s.waiting.head? = some pass
  plan_eq : (s.took pass).tracker.plan? s.engine.head = some plan
  begins : during.head? = some .advance
  events_eq : (s.play during).2 = .started pass .due :: events
  signal : ∀ past, past <+: during → past ≠ [] → (s.play past).1.tracker.signal = plan.signal

variable {s : Session} {pass : Pass} {plan : Plan} {during : List Move} {events : List Event}

/-- `Underway` has begun with a move. -/
theorem Underway.ne_nil (h : Underway s during pass plan events) : during ≠ [] := by
  intro hnil
  have hbegins := h.begins
  rw [hnil] at hbegins
  exact nomatch hbegins

/-- `Underway` extends by a move that keeps the signal. -/
theorem Underway.concat (h : Underway s during pass plan events) (m : Move)
    (hm : ((s.play during).1.move m).1.tracker.signal = (s.play during).1.tracker.signal) :
    Underway s (during ++ [m]) pass plan (events ++ ((s.play during).1.move m).2) where
  idle := h.idle
  next := h.next
  plan_eq := h.plan_eq
  begins := by rw [List.head?_append_of_ne_nil _ h.ne_nil, h.begins]
  events_eq := by rw [play_concat, Progress.snd_after, h.events_eq, List.cons_append]
  signal := by
    intro past hpast hne
    -- the whole play is new, and its parts were covered before
    rcases List.prefix_concat_iff.mp hpast with rfl | hpast
    · rw [play_concat, Progress.fst_after, hm]
      exact h.signal during (List.prefix_refl _) h.ne_nil
    · exact h.signal past hpast hne

/-- `Underway` holds of a pass that `start`s with a plan. -/
theorem underway_of_start {rest : List Pass} {p : Progress} (hf : s.flight? = none)
    (hw : s.waiting = pass :: rest) (hdue : (s.tracker.intake pass.trigger).2 = .due)
    (hplan : (s.took pass).tracker.plan? s.engine.head = some plan)
    (hleg : Leg pass plan True ({ s with waiting := rest }.took pass) [] p)
    (heq : s.advance = .after (s.opening pass) p) :
    ∃ notices : List Notice, Underway s [.advance] pass plan (notices.map .noted ++ p.2) := by
  have hplay : s.play [.advance] = s.advance := by
    show Progress.after s.advance.2 (s.advance.1, []) = s.advance
    rw [Progress.after, List.append_nil]
  refine ⟨s.tracker.intakeNotices pass.trigger .due, hf, by rw [hw]; rfl, hplan, rfl, ?_, ?_⟩
  · rw [hplay, heq, Progress.snd_after, opening, hdue]
    rfl
  · intro past hpast hne
    -- the start is the only part that is not empty
    rcases List.prefix_concat_iff.mp (show past <+: [] ++ [.advance] from hpast) with rfl | hpast
    · rw [List.nil_append, hplay, heq, Progress.fst_after, hleg.kept.1]
      exact (Tracker.plan?_eq_some hplan).1.symm
    · exact absurd (List.prefix_nil.mp hpast) hne

/-- `act` preserves the signal. -/
theorem signal_act (s : Session) (action : Action) :
    (s.act action).1.tracker.signal = s.tracker.signal := by
  rw [(acted s action).tracker]
  cases action <;> rfl

/-- The flight has been `Underway` to the end of these moves, with the lookups of its stage
`Inquired`. -/
def Traced (s : Session) (moves : List Move) (flight : Flight) : Prop :=
  ∃ before during events, moves = before ++ during ∧
    Underway (s.play before).1 during flight.pass flight.plan events ∧
    Event.commitments events = [] ∧
    flight.plan.Inquired s.source flight.pass.number flight.stage
      (Event.lookups flight.pass.number events)

/-- `act` preserves `Traced`. -/
private theorem traced_act {s : Session} {moves : List Move} {action : Action}
    (ih : ∀ flight, (s.play moves).1.flight? = some flight → Traced s moves flight)
    {flight : Flight}
    (hflight : ((s.play moves).1.act action).1.flight? = some flight) :
    Traced s (moves ++ [.act action]) flight := by
  -- the pass was in flight before, and at most its reply is new
  obtain ⟨reply?, heq⟩ := (acted (s.play moves).1 action).flight
  obtain ⟨flight', hflight', rfl⟩ := Option.map_eq_some_iff.mp (heq.symm.trans hflight)
  obtain ⟨before, during, events, rfl, hunderway, hcommitments, hinquired⟩ := ih flight' hflight'
  have hacted := acted ((s.play before).1.play during).1 action
  refine ⟨before, during ++ [.act action], _, List.append_assoc ..,
    hunderway.concat (.act action) (signal_act _ action), ?_, ?_⟩
  · rw [Event.commitments_append, hcommitments, List.nil_append]
    exact hacted.commitments
  · have hnone : Event.lookups flight'.pass.number
        (((s.play before).1.play during).1.move (.act action)).2 = [] := hacted.lookups _
    rw [Event.lookups_append, hnone, List.append_nil]
    exact hinquired

/-- `Leg` may assume what it began with. -/
theorem Leg.of_begun {begun : Prop} {made : List Event} {p : Progress} (hbegun : begun)
    (h : Leg pass plan begun s made p) : Leg pass plan True s made p := by
  cases h with
  | waits lookups commitments heads => exact .waits (fun _ => lookups hbegun) commitments heads
  | ends commitments heads => exact .ends commitments heads
  | commits lookups generation higher commitments heads quiet =>
    exact .commits (fun _ => lookups hbegun) generation higher commitments heads quiet

/-- The cases of `advance` after some moves: nothing, the end of a pass without a plan, or one more
leg of a pass `Underway`. -/
inductive Onward (s : Session) (moves : List Move) : Progress → Prop
  | stays : Onward s moves ((s.play moves).1, [])
  | passes {p : Progress} (flight : p.1.flight? = none)
      (commitments : Event.commitments p.2 = []) : Onward s moves p
  | goes {before during : List Move} {pass : Pass} {plan : Plan} {made notices : List Event}
      {s' : Session} {p : Progress}
      (moves_eq : moves ++ [.advance] = before ++ during)
      (underway : Underway (s.play before).1 during pass plan (made ++ p.2))
      (commitments : Event.commitments made = [])
      (leg : Leg pass plan True s' (Event.lookups pass.number made) p)
      (source : s'.source = s.source)
      (generation : s'.tracker.generation = (s.play moves).1.tracker.generation)
      (quiet : Event.Quiet notices) :
      Onward s moves (.after notices p)

variable {moves : List Move}

/-- `advance` is `Onward` if every flight so far is `Traced`. -/
private theorem onward_of_traced
    (ih : ∀ flight, (s.play moves).1.flight? = some flight → Traced s moves flight) :
    Onward s moves (s.play moves).1.advance := by
  have hsource := source_play s moves
  have hadvanced := advanced (s.play moves).1
  generalize hp : (s.play moves).1.advance = p at hadvanced
  cases hadvanced with
  | stays => exact .stays
  | passes flight_eq waiting_eq =>
    refine .passes rfl ?_
    rw [Progress.snd_after, Event.commitments_append, (quiet_opening ..).1, (quiet_close ..).1]
    rfl
  | resumes flight_eq leg =>
    rename_i flight
    obtain ⟨before, during, events, rfl, hunderway, hcommitments, hinquired⟩ := ih flight flight_eq
    have hplay := fst_play_append s before during
    -- the pass waits with the lookups of its stage, so the leg begins well
    rw [← hsource] at hinquired
    have hleg := (leg _).of_begun hinquired
    have hsignal : p.1.tracker.signal = ((s.play before).1.play during).1.tracker.signal := by
      rw [hleg.kept.1, ← hplay]
    have hmove : ((s.play before).1.play during).1.move .advance = p := by
      rw [← hplay]
      exact hp
    have hconcat := hunderway.concat .advance (by rw [hmove]; exact hsignal)
    rw [hmove] at hconcat
    exact .goes (List.append_assoc ..) hconcat hcommitments hleg hsource rfl Event.quiet_nil
  | starts flight_eq waiting_eq due plan_eq leg =>
    rename_i pass rest plan p
    obtain ⟨notices, hunderway⟩ := underway_of_start flight_eq waiting_eq due plan_eq leg hp
    have hquiet := Event.quiet_noted notices
    -- a pass that has only just started has looked nothing up
    rw [← hquiet.2.2 pass.number] at leg
    exact .goes rfl hunderway hquiet.1 leg hsource (generation_took ..) (quiet_opening ..)

/-- `Traced` survives an `advance` that does nothing. -/
private theorem traced_stay {flight : Flight} (h : Traced s moves flight)
    (hstay : (s.play moves).1.advance = ((s.play moves).1, [])) :
    Traced s (moves ++ [.advance]) flight := by
  obtain ⟨before, during, events, rfl, hunderway, hcommitments, hinquired⟩ := h
  have hmove : ((s.play before).1.play during).1.move .advance
      = (((s.play before).1.play during).1, []) := by
    rw [← fst_play_append]
    exact hstay
  -- one more move at which nothing happens
  have hconcat := hunderway.concat .advance (by rw [hmove])
  rw [hmove, List.append_nil] at hconcat
  exact ⟨before, during ++ [.advance], events, List.append_assoc .., hconcat, hcommitments,
    hinquired⟩

/-- `Traced` holds of the flight after any moves. -/
theorem exists_underway_of_flight (hidle : s.flight? = none) (moves : List Move) :
    ∀ flight, (s.play moves).1.flight? = some flight → Traced s moves flight := by
  induction moves using List.reverseRecOn with
  | nil =>
    intro flight hflight
    exact absurd (hidle.symm.trans hflight) nofun
  | append_singleton moves m ih =>
    intro flight hflight
    rw [play_concat, Progress.fst_after] at hflight
    cases m with
    | act action => exact traced_act ih hflight
    | advance =>
      have honward := onward_of_traced ih
      have hflight : (s.play moves).1.advance.1.flight? = some flight := hflight
      generalize hp : (s.play moves).1.advance = p at honward hflight
      cases honward with
      | stays => exact traced_stay (ih flight hflight) hp
      | passes flight_none commitments => exact absurd (flight_none.symm.trans hflight) nofun
      | goes moves_eq underway commitments leg source generation quiet =>
        -- only a leg that waits leaves its pass in flight
        cases leg with
        | waits lookups nothing heads =>
          obtain rfl := Option.some.inj hflight
          refine ⟨_, _, _, moves_eq, underway, ?_, ?_⟩
          · rw [Event.commitments_append, commitments, nothing]
            rfl
          · rw [Event.lookups_append, ← source]
            exact lookups trivial
        | ends nothing heads => exact nomatch hflight
        | commits lookups counted higher nothing heads after => exact nomatch hflight

/-- The moves between two moments of one generation have no reset. -/
private theorem not_mem_reset_of_generation {before during : List Move} (s : Session)
    (h : (s.play (before ++ during)).1.tracker.generation
      = (s.play before).1.tracker.generation) : .act .reset ∉ during := by
  have hall := generation_play s (before ++ during)
  have hbefore := generation_play s before
  rw [List.countP_append] at hall
  have hzero : during.countP Move.isReset = 0 := by omega
  intro hreset
  exact List.countP_eq_zero.mp hzero _ hreset rfl

/-- A pass that has `committed` was `Underway` with both blocks `Verified`, and nobody reset in
between. -/
theorem exists_underway_of_mem (hidle : s.flight? = none) {number : Nat} {block : L2Block}
    (h : .committed number block ∈ (s.play moves).2) :
    ∃ before during after pass plan mid tail, moves = before ++ during ++ after ∧
      Underway (s.play before).1 during pass plan (mid ++ .committed number block :: tail) ∧
      pass.number = number ∧ plan.candidate = block ∧ Event.commitments mid = [] ∧
      plan.Verified s.source number (Event.lookups number mid) ∧ .act .reset ∉ during := by
  obtain ⟨past, m, future, rfl, hmem⟩ := exists_move_of_mem h
  rw [← Event.mem_commitments] at hmem
  cases m with
  | act action => exact absurd ((acted (s.play past).1 action).commitments ▸ hmem) List.not_mem_nil
  | advance =>
    have honward := onward_of_traced (exists_underway_of_flight hidle past)
    have hmem : (number, block) ∈ Event.commitments (s.play past).1.advance.2 := hmem
    have hkept := (advanced (s.play past).1).kept.2.1
    generalize hp : (s.play past).1.advance = p at honward hmem hkept
    cases honward with
    | stays => exact absurd hmem List.not_mem_nil
    | passes flight_none commitments => exact absurd (commitments ▸ hmem) List.not_mem_nil
    | goes moves_eq underway commitments leg source generation quiet =>
      rename_i before during pass plan made notices s' p
      rw [Progress.snd_after, Event.commitments_append, quiet.1, List.nil_append] at hmem
      cases leg with
      | waits lookups nothing heads => exact absurd (nothing ▸ hmem) List.not_mem_nil
      | ends nothing heads => exact absurd (nothing ▸ hmem) List.not_mem_nil
      | commits lookups counted higher nothing heads hafter =>
        rename_i events after
        -- the one commit of the leg is the one in question
        have hone : Event.commitments (events ++ .committed pass.number plan.candidate :: after)
            = [(pass.number, plan.candidate)] := by
          rw [Event.commitments_append, nothing, List.nil_append]
          show _ :: Event.commitments after = _
          rw [hafter.1]
        rw [hone] at hmem
        obtain ⟨rfl, rfl⟩ := Prod.mk.inj (List.mem_singleton.mp hmem)
        have hmoves : past ++ .advance :: future = before ++ during ++ future := by
          rw [← moves_eq, List.append_assoc]
          rfl
        refine ⟨before, during, future, pass, plan, made ++ events, after, hmoves, ?_, rfl, rfl,
          ?_, ?_, ?_⟩
        · rw [List.append_assoc]
          exact underway
        · rw [Event.commitments_append, commitments, nothing]
          rfl
        · rw [Event.lookups_append, ← source]
          exact lookups trivial
        · -- the count of resets at the commit is the one that the plan was made with
          have hplan := (Tracker.plan?_eq_some underway.plan_eq).2.1
          rw [generation_took] at hplan
          have hcount : (s.play (before ++ during)).1.tracker.generation
              = (s.play before).1.tracker.generation := by
            rw [← moves_eq, play_concat, Progress.fst_after, ← hplan, ← counted, generation]
            exact (congrArg (·.1.tracker.generation) hp).trans hkept
          exact not_mem_reset_of_generation s hcount

end Settlement.Session
