import Settlement.Proofs.Provenance.History
import Settlement.Proofs.Session.Moves
import Settlement.Proofs.Tracker

/-!
# What a play keeps

Facts about a session after any moves: which links it holds, how many resets there were, what the
engine went through, and which passes are still to commit. Each is one fact about acting, one
about advancing (`Advanced` lists the cases), and an induction on the moves.

## Key results

- `advanced`: every way in which a session advances
- `holds_play`, `links_play`: the links held are those of the derivations recorded since the last
  reset
- `generation_play`: resets are counted
- `history_play`: the engine went through the blocks that events say it did
- `pending_play`: every pass commits at most once
-/

namespace Settlement

namespace Session

variable {s : Session} {pass : Pass} {plan : Plan} {begun : Prop} {made : List Event}
  {p : Progress}

@[simp] theorem links_took (s : Session) (pass : Pass) :
    (s.took pass).tracker.links = s.tracker.links := Tracker.links_intake ..

@[simp] theorem generation_took (s : Session) (pass : Pass) :
    (s.took pass).tracker.generation = s.tracker.generation := Tracker.generation_intake ..

/-! ## Advancing, once more -/

/-- The session and the events after `advance`. -/
inductive Advanced (s : Session) : Progress → Prop
  /-- Nothing is to be done. -/
  | stays : Advanced s (s, [])
  /-- The pass in flight goes on with its reply. -/
  | resumes {flight : Flight} {p : Progress} (flight_eq : s.flight? = some flight)
      (leg : ∀ made, Leg flight.pass flight.plan
        (flight.plan.Inquired s.source flight.pass.number flight.stage made)
        { s with flight? := none } made p) :
      Advanced s p
  /-- A pass starts and ends without a plan. -/
  | passes {pass : Pass} {rest : List Pass} {ending : Ending} (flight_eq : s.flight? = none)
      (waiting_eq : s.waiting = pass :: rest) :
      Advanced s (.after (s.opening pass)
        (({ s with waiting := rest }.took pass).close pass ending))
  /-- A pass starts with a plan. -/
  | starts {pass : Pass} {rest : List Pass} {plan : Plan} {p : Progress}
      (flight_eq : s.flight? = none) (waiting_eq : s.waiting = pass :: rest)
      (due : (s.tracker.intake pass.trigger).2 = .due)
      (plan_eq : (s.took pass).tracker.plan? s.engine.head = some plan)
      (leg : Leg pass plan True ({ s with waiting := rest }.took pass) [] p) :
      Advanced s (.after (s.opening pass) p)

/-- `Advanced` holds of `advance`. -/
theorem advanced (s : Session) : Advanced s s.advance := by
  cases hflight : s.flight? with
  | some flight =>
    cases hreply : flight.reply? with
    | none =>
      rw [advance_wait hflight hreply]
      exact .stays
    | some reply =>
      rw [advance_resume hflight hreply]
      exact .resumes hflight fun made => resume_leg s flight reply made
  | none =>
    cases hwaiting : s.waiting with
    | nil =>
      rw [advance_idle hflight hwaiting]
      exact .stays
    | cons pass rest =>
      rw [advance_start hflight hwaiting, start_eq]
      -- the pass behind the opening ends at once or goes on with a plan
      let s' := { s with waiting := rest }.took pass
      rcases proceed_cases s' pass (s'.checkSignal pass) (s.tracker.intake pass.trigger).2 with
        ⟨ending, heq⟩ | ⟨plan, hdue, hplan, heq⟩
      · rw [heq]
        exact .passes hflight hwaiting
      · rw [heq]
        exact .starts hflight hwaiting hdue hplan (checkSignal_leg s' pass plan)

/-- `advance` preserves the links, the generation, the source and the calls. -/
theorem Advanced.kept (h : Advanced s p) :
    p.1.tracker.links = s.tracker.links ∧ p.1.tracker.generation = s.tracker.generation ∧
    p.1.source = s.source ∧ p.1.called = s.called := by
  cases h with
  | stays => exact ⟨rfl, rfl, rfl, rfl⟩
  -- a leg keeps the tracker, and so only a start can change it
  | resumes flight_eq leg =>
    obtain ⟨htracker, hsource, -, hcalled⟩ := (leg []).kept
    rw [htracker]
    exact ⟨rfl, rfl, hsource, hcalled⟩
  | passes flight_eq waiting_eq =>
    exact ⟨Tracker.links_intake .., Tracker.generation_intake .., rfl, rfl⟩
  | starts flight_eq waiting_eq due plan_eq leg =>
    obtain ⟨htracker, hsource, -, hcalled⟩ := leg.kept
    rw [Progress.fst_after, htracker]
    exact ⟨Tracker.links_intake .., Tracker.generation_intake .., hsource, hcalled⟩

/-- `advance` extends the history of the engine by the `heads` of its events. -/
theorem Advanced.history_eq (h : Advanced s p) :
    p.1.engine.history = s.engine.history ++ Event.heads p.2 := by
  -- an opening and a closing have no heads, so they are those of the leg
  cases h with
  | stays => exact (List.append_nil _).symm
  | resumes flight_eq leg => exact (leg []).history_eq
  | passes flight_eq waiting_eq =>
    rw [Progress.snd_after, Event.heads_append, (quiet_opening ..).2.1, (quiet_close ..).2.1]
    exact (List.append_nil _).symm
  | starts flight_eq waiting_eq due plan_eq leg =>
    rw [Progress.snd_after, Event.heads_append, (quiet_opening ..).2.1, List.nil_append]
    exact leg.history_eq

/-! ## Passes to come -/

/-- The numbers of the passes that have not ended. -/
def pending (s : Session) : List Nat :=
  (s.flight?.map (·.pass.number)).toList ++ s.waiting.map Pass.number

/-- `Leg` takes the pass out of `pending` if it commits. -/
theorem Leg.pending (h : Leg pass plan begun s made p) :
    ((Event.commitments p.2).map Prod.fst ++ p.1.pending).Sublist
      (pass.number :: s.waiting.map Pass.number) := by
  cases h with
  | waits lookups commitments heads =>
    rw [commitments]
    exact List.Sublist.refl _
  | ends commitments heads =>
    rw [commitments]
    exact List.sublist_cons_self _ _
  -- the commit is of the pass that was pending
  | commits lookups generation higher commitments heads quiet =>
    have hcommit : ∀ events, Event.commitments
        (.committed pass.number plan.candidate :: events)
          = (pass.number, plan.candidate) :: Event.commitments events := fun _ => rfl
    rw [Event.commitments_append, commitments, hcommit, quiet.1]
    exact List.Sublist.refl _

/-- `advance` takes passes out of `pending`, in their order. -/
theorem Advanced.pending (h : Advanced s p) :
    ((Event.commitments p.2).map Prod.fst ++ p.1.pending).Sublist s.pending := by
  cases h with
  | stays => exact List.Sublist.refl _
  | resumes flight_eq leg =>
    have hpending := (leg []).pending
    simp only [Session.pending, flight_eq]
    exact hpending
  -- the first in line is pending no longer
  | passes flight_eq waiting_eq =>
    rw [Progress.snd_after, Event.commitments_append, (quiet_opening ..).1, (quiet_close ..).1]
    simp only [Session.pending, flight_eq, waiting_eq]
    exact List.sublist_cons_self _ _
  | starts flight_eq waiting_eq due plan_eq leg =>
    rw [Progress.snd_after, Event.commitments_append, (quiet_opening ..).1]
    have hpending := leg.pending
    simp only [Session.pending, flight_eq, waiting_eq]
    exact hpending

/-- `act` adds the pass that it calls for to `pending`. -/
theorem Acted.pending {action : Action} (h : Acted s action p) :
    p.1.pending = s.pending ++ (action.pass? s.called).toList.map Pass.number := by
  obtain ⟨reply?, hflight⟩ := h.flight
  have hnumber : (p.1.flight?.map (·.pass.number)) = s.flight?.map (·.pass.number) := by
    rw [hflight, Option.map_map]
    rfl
  rw [Session.pending, hnumber, h.waiting, List.map_append, ← List.append_assoc]
  rfl

/-- `pass?` numbers the pass that it gives. -/
theorem pass?_number (action : Action) (number : Nat) :
    (action.pass? number).toList.map Pass.number
      = List.range' number (action.pass? number).toList.length := by
  cases action <;> rfl

/-! ## Any moves -/

/-- `play` preserves the source. -/
theorem source_play (s : Session) (moves : List Move) : (s.play moves).1.source = s.source := by
  induction moves generalizing s with
  | nil => rfl
  | cons m moves ih =>
    rw [play_cons, Progress.fst_after, ih]
    cases m with
    | act action => exact (acted s action).source
    | advance => exact (advanced s).kept.2.2.1

/-- `play` extends the history of the engine by the `heads` of its events. -/
theorem history_play (s : Session) (moves : List Move) :
    (s.play moves).1.engine.history = s.engine.history ++ Event.heads (s.play moves).2 := by
  -- over the moves, each of which adds its heads
  induction moves generalizing s with
  | nil => exact (List.append_nil _).symm
  | cons m moves ih =>
    have hmove : (s.move m).1.engine.history
        = s.engine.history ++ Event.heads (s.move m).2 := by
      cases m with
      | act action => exact (acted s action).history
      | advance => exact (advanced s).history_eq
    rw [play_cons, Progress.fst_after, Progress.snd_after, ih, hmove, Event.heads_append,
      List.append_assoc]

/-- `play` keeps committed and `pending` passes apart, in the order of calling. -/
theorem pending_play (s : Session) (h : s.pending.Sublist (List.range s.called))
    (moves : List Move) :
    ((Event.commitments (s.play moves).2).map Prod.fst ++ (s.play moves).1.pending).Sublist
      (List.range (s.play moves).1.called) := by
  induction moves using List.reverseRecOn with
  | nil => exact h
  | append_singleton moves m ih =>
    rw [play_concat, Progress.fst_after, Progress.snd_after, Event.commitments_append,
      List.map_append, List.append_assoc]
    generalize (s.play moves).1 = s' at ih ⊢
    cases m with
    | act action =>
      -- a pass that is called for comes last, with the next number
      have hacted := acted s' action
      show (_ ++ ((Event.commitments (s'.act action).2).map Prod.fst
        ++ (s'.act action).1.pending)).Sublist (List.range (s'.act action).1.called)
      rw [hacted.commitments, hacted.pending, hacted.called, pass?_number, List.range_add]
      have hmap : ∀ n, (List.range n).map (s'.called + ·) = List.range' s'.called n := fun n =>
        List.range'_eq_map_range.symm
      rw [hmap, List.map_nil, List.nil_append, ← List.append_assoc]
      exact ih.append_right _
    | advance =>
      -- a pass that commits leaves `pending` for those that have committed
      have hadvanced := advanced s'
      show (_ ++ ((Event.commitments s'.advance.2).map Prod.fst
        ++ s'.advance.1.pending)).Sublist (List.range s'.advance.1.called)
      rw [hadvanced.kept.2.2.2]
      exact (hadvanced.pending.append_left _).trans ih

end Session

/-! ### What the tracker was told -/

/-- The move is a reset. -/
def Move.isReset : Move → Bool
  | .act .reset => true
  | _ => false

/-- The derivations that are there after a move. -/
def Move.onDerivations (ds : List Derivation) : Move → List Derivation
  | .act (.record l2 l1) => ds ++ [(l2, l1)]
  | .act .reset => []
  | _ => ds

/-- The derivations recorded since the last reset, in order. -/
def derivations (moves : List Move) : List Derivation := moves.foldl Move.onDerivations []

/-- `derivations` ends with `onDerivations`. -/
theorem derivations_concat (moves : List Move) (m : Move) :
    derivations (moves ++ [m]) = m.onDerivations (derivations moves) := by
  rw [derivations, List.foldl_append]
  rfl

/-- `derivations` holds what was recorded without a reset after it. -/
theorem mem_derivations {moves : List Move} {d : Derivation} (h : d ∈ derivations moves) :
    ∃ earlier later, moves = earlier ++ .act (.record d.1 d.2) :: later ∧
      .act .reset ∉ later := by
  induction moves using List.reverseRecOn with
  | nil => exact absurd h List.not_mem_nil
  | append_singleton moves m ih =>
    rw [derivations_concat] at h
    -- one that was there before is still there if this is no reset
    have hold : d ∈ derivations moves → m ≠ .act .reset →
        ∃ earlier later, moves ++ [m] = earlier ++ .act (.record d.1 d.2) :: later ∧
          .act .reset ∉ later := by
      intro hmem hm
      obtain ⟨earlier, later, rfl, hlater⟩ := ih hmem
      refine ⟨earlier, later ++ [m], by simp, fun hreset => ?_⟩
      rcases List.mem_append.mp hreset with hreset | hreset
      · exact hlater hreset
      · exact hm (List.mem_singleton.mp hreset).symm
    unfold Move.onDerivations at h
    split at h
    · rename_i l2 l1
      rcases List.mem_append.mp h with h | h
      · exact hold h nofun
      · obtain rfl := List.mem_singleton.mp h
        exact ⟨moves, [], rfl, List.not_mem_nil⟩
    · exact absurd h List.not_mem_nil
    · rename_i hreset
      exact hold h hreset

namespace Session

/-- `play` adds the number of resets to the generation. -/
theorem generation_play (s : Session) (moves : List Move) :
    (s.play moves).1.tracker.generation
      = s.tracker.generation + moves.countP Move.isReset := by
  induction moves using List.reverseRecOn with
  | nil => rfl
  | append_singleton moves m ih =>
    -- a reset counts one, and nothing else does
    have hmove : ((s.play moves).1.move m).1.tracker.generation
        = (s.play moves).1.tracker.generation + if m.isReset then 1 else 0 := by
      cases m with
      | act action =>
        show ((s.play moves).1.act action).1.tracker.generation = _
        rw [(acted _ action).tracker]
        cases action <;> rfl
      | advance => exact (advanced _).kept.2.1
    rw [play_concat, Progress.fst_after, hmove, ih, List.countP_append, List.countP_singleton,
      Nat.add_assoc]

/-- The ring is well-formed and holds the row that these derivations leave. -/
structure Holds (links : Ring) (ds : List Derivation) : Prop where
  wellFormed : links.WellFormed
  toList_eq : links.toList = Links.ofDerivations links.capacity ds

/-- `Holds` holds of an empty ring and no derivations. -/
theorem holds_empty {capacity : Nat} (h : 0 < capacity) : Holds (Ring.empty capacity) [] :=
  ⟨Ring.wellFormed_empty h, rfl⟩

/-- `play` preserves `Holds` of the `derivations`. -/
theorem holds_play {s : Session} (h : Holds s.tracker.links []) (moves : List Move) :
    Holds (s.play moves).1.tracker.links (derivations moves) := by
  induction moves using List.reverseRecOn with
  | nil => exact h
  | append_singleton moves m ih =>
    rw [play_concat, Progress.fst_after, derivations_concat]
    generalize (s.play moves).1 = s' at ih ⊢
    cases m with
    -- only recording and resetting touch the links
    | act action =>
      -- of all actions only recording and resetting touch the links
      show Holds (s'.act action).1.tracker.links _
      rw [(acted s' action).tracker]
      cases action with
      | record l2 l1 =>
        refine ⟨Ring.wellFormed_record ih.wellFormed l2 l1, ?_⟩
        have hcapacity : ((s'.tracker.record l2 l1).1.links).capacity = s'.tracker.links.capacity :=
          Ring.capacity_record ..
        show (s'.tracker.links.record l2 l1).1.toList = _
        rw [Ring.toList_record ih.wellFormed, ih.toList_eq]
        show _ = Links.ofDerivations (s'.tracker.record l2 l1).1.links.capacity _
        rw [hcapacity]
        exact (Links.ofDerivations_concat _ (derivations moves) (l2, l1)).symm
      | reset => exact ⟨Ring.wellFormed_clear ih.wellFormed, rfl⟩
      | _ => exact ih
    | advance =>
      show Holds s'.advance.1.tracker.links _
      rw [(advanced s').kept.1]
      exact ih

/-- `play` preserves the capacity of the ring. -/
theorem capacity_play (s : Session) (moves : List Move) :
    (s.play moves).1.tracker.links.capacity = s.tracker.links.capacity := by
  induction moves generalizing s with
  | nil => rfl
  | cons m moves ih =>
    rw [play_cons, Progress.fst_after, ih]
    -- neither an action nor a pass changes the size of the ring
    cases m with
    | act action =>
      show (s.act action).1.tracker.links.capacity = _
      rw [(acted s action).tracker]
      cases action with
      | record l2 l1 => exact Ring.capacity_record ..
      | _ => rfl
    | advance => exact congrArg Ring.capacity (advanced s).kept.1

/-- `play` leaves the links that the lookback leaves of the `derivations`. -/
theorem links_play {s : Session} (h : Holds s.tracker.links []) (moves : List Move) :
    (s.play moves).1.tracker.links.toList
      = Links.ofDerivations s.tracker.links.capacity (derivations moves) := by
  rw [(holds_play h moves).toList_eq, capacity_play]

/-! ### Heights -/

end Session

/-- The L1 heights that the move brings in are block numbers. -/
def Move.isExact : Move → Bool
  | .act (.record _ l1) => l1.number.isBlockNumber
  | .act (.call _ (.signal block) _) => block.number.isBlockNumber
  | _ => true

namespace Session

/-- The height of the signal and those of the signals in line are block numbers. -/
structure Exact (s : Session) : Prop where
  signal : s.tracker.signal.number.isBlockNumber = true
  waiting : ∀ pass ∈ s.waiting, ∀ block, pass.trigger = .signal block →
    block.number.isBlockNumber = true

/-- `intake` preserves that the height of the signal is a block number. -/
private theorem exact_intake {t : Tracker} (h : t.signal.number.isBlockNumber = true)
    {trigger : Trigger}
    (htrigger : ∀ block, trigger = .signal block → block.number.isBlockNumber = true) :
    (t.intake trigger).1.signal.number.isBlockNumber = true := by
  obtain ⟨kept, tried, heq, hkept⟩ := Tracker.intake_eq t trigger
  rw [heq]
  rcases hkept with rfl | hkept
  · exact h
  · exact htrigger kept hkept

/-- `play` of moves with `isExact` preserves `Exact`. -/
theorem exact_play {s : Session} (h : Exact s) (moves : List Move)
    (hmoves : moves.all Move.isExact = true) : Exact (s.play moves).1 := by
  induction moves generalizing s with
  | nil => exact h
  | cons m moves ih =>
    rw [List.all_cons, Bool.and_eq_true] at hmoves
    rw [play_cons, Progress.fst_after]
    refine ih ?_ hmoves.2
    cases m with
    | act action =>
      have hacted := acted s action
      refine ⟨?_, ?_⟩
      · show (s.act action).1.tracker.signal.number.isBlockNumber = true
        rw [hacted.tracker]
        cases action <;> exact h.signal
      · show ∀ pass ∈ (s.act action).1.waiting, _
        rw [hacted.waiting]
        intro pass hpass block htrigger
        rcases List.mem_append.mp hpass with hpass | hpass
        · exact h.waiting pass hpass block htrigger
        · cases action with
          | call label trigger token? =>
            obtain rfl := List.mem_singleton.mp hpass
            obtain rfl : trigger = .signal block := htrigger
            exact hmoves.1
          | _ => exact absurd hpass List.not_mem_nil
    | advance =>
      -- the signal can only become that of the pass that starts
      show Exact s.advance.1
      have hadvanced := advanced s
      generalize s.advance = p at hadvanced
      cases hadvanced with
      | stays => exact h
      | resumes flight_eq leg =>
        obtain ⟨htracker, -, hwaiting, -⟩ := (leg []).kept
        exact ⟨by rw [htracker]; exact h.signal, by rw [hwaiting]; exact h.waiting⟩
      | passes flight_eq waiting_eq =>
        have hnext := h.waiting _ (waiting_eq ▸ List.mem_cons_self)
        exact ⟨exact_intake h.signal hnext,
          fun pass hpass => h.waiting pass (waiting_eq ▸ List.mem_cons_of_mem _ hpass)⟩
      | starts flight_eq waiting_eq due plan_eq leg =>
        have hnext := h.waiting _ (waiting_eq ▸ List.mem_cons_self)
        obtain ⟨htracker, -, hwaiting, -⟩ := leg.kept
        refine ⟨?_, ?_⟩
        · rw [Progress.fst_after, htracker]
          exact exact_intake h.signal hnext
        · rw [Progress.fst_after, hwaiting]
          exact fun pass hpass =>
            h.waiting pass (waiting_eq ▸ List.mem_cons_of_mem _ hpass)

end Session

end Settlement
