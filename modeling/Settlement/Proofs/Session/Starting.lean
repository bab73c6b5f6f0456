import Settlement.Proofs.Succession

/-!
# Starting

Who starts when a session advances, and how the trigger is taken in, can be seen from the session
before: the next pass in line, if none is in flight. Who has started was called for before anybody
who is still in line.

## Key results

- `started_mem_iff`: who starts at a move, and how the trigger is taken in
- `number_lt_of_begun`, `mem_waiting_of_begun`: passes start in the order of calling
-/

namespace Settlement

namespace Session

variable {s : Session} {m : Move} {pass : Pass} {intake : Intake}

/-! ## Who starts at a move -/

/-- The pass that starts at a move, if one does. -/
def starting? (s : Session) : Move → Option Pass
  | .act _ => none
  | .advance => if s.flight?.isSome then none else s.waiting.head?

/-- `starting?` is the first pass in line where none is in flight. -/
theorem starting?_eq_some (h : s.starting? .advance = some pass) :
    s.flight? = none ∧ ∃ rest, s.waiting = pass :: rest := by
  unfold starting? at h
  -- nobody starts while a pass is in flight
  cases hf : s.flight? with
  | some flight =>
    rw [hf] at h
    exact nomatch h
  | none =>
    rw [hf] at h
    obtain ⟨rest, hrest⟩ := List.head?_eq_some_iff.mp h
    exact ⟨rfl, rest, hrest⟩

/-- `advance` leaves the tracker where no pass is `starting?`. -/
theorem advance_of_starting_none (h : s.starting? .advance = none) :
    Event.begun s.advance.2 = [] ∧ s.advance.1.tracker = s.tracker := by
  unfold starting? at h
  cases hf : s.flight? with
  | some flight =>
    have hline := (begun_advance s).2
    have hadvanced := advanced s
    generalize s.advance = p at hline hadvanced
    cases hadvanced with
    | stays => exact ⟨rfl, rfl⟩
    | resumes flight_eq leg =>
      -- a leg leaves those in line there, so that nobody can have begun
      rw [(leg []).kept.2.2.1] at hline
      exact ⟨List.self_eq_append_left.mp hline, (leg []).kept.1⟩
    | passes flight_eq => exact nomatch hf.symm.trans flight_eq
    | starts flight_eq => exact nomatch hf.symm.trans flight_eq
  | none =>
    rw [hf] at h
    have hw : s.waiting = [] := List.head?_eq_none_iff.mp h
    rw [advance_idle hf hw]
    exact ⟨rfl, rfl⟩

/-- `advance` begins with the pass that is `starting?`, and takes in its trigger. -/
theorem advance_of_starting (h : s.starting? .advance = some pass) :
    (∃ later, s.advance.2 = .started pass (s.tracker.intake pass.trigger).2 :: later ∧
      Event.begun later = []) ∧
    s.advance.1.tracker = (s.tracker.intake pass.trigger).1 := by
  obtain ⟨hf, rest, hw⟩ := starting?_eq_some h
  have hline := (begun_advance s).2
  -- the line has lost this pass and no other
  have hwaiting : s.advance.1.waiting = rest := by
    rw [advance_start hf hw]
    exact waiting_start { s with waiting := rest } pass
  rw [hw, hwaiting] at hline
  rw [advance_start hf hw, start_eq] at hline ⊢
  let t := { s with waiting := rest }.took pass
  constructor
  · refine ⟨_, rfl, ?_⟩
    have hbegun : [] ++ rest = _ ++ rest := (List.cons.inj hline).2
    exact (List.append_cancel_right hbegun).symm
  · rw [Progress.fst_after]
    rcases proceed_cases t pass (t.checkSignal pass) (s.tracker.intake pass.trigger).2 with
      ⟨ending, heq⟩ | ⟨plan, -, -, heq⟩
    · exact congrArg (fun p : Progress => p.1.tracker) heq
    · exact (congrArg (fun p : Progress => p.1.tracker) heq).trans
        (checkSignal_leg t pass plan).kept.1

/-- No pass has `started` where none has `begun`. -/
theorem not_started_of_begun {events : List Event} (h : Event.begun events = []) :
    .started pass intake ∉ events := by
  intro hmem
  have hpass : pass ∈ Event.begun events := List.mem_filterMap.mpr ⟨_, hmem, rfl⟩
  rw [h] at hpass
  exact List.not_mem_nil hpass

/-- A pass has `started` exactly if it was `starting?`, and its trigger was taken in by `intake`. -/
theorem started_mem_iff :
    .started pass intake ∈ (s.move m).2 ↔
      s.starting? m = some pass ∧ intake = (s.tracker.intake pass.trigger).2 := by
  cases m with
  | act action =>
    exact iff_of_false (not_started_of_begun (begun_act s action)) fun h => nomatch h.1
  | advance =>
    -- nobody starts, or the first in line does
    cases hstarting : s.starting? .advance with
    | none =>
      exact iff_of_false (not_started_of_begun (advance_of_starting_none hstarting).1)
        fun h => nomatch h.1
    | some next =>
      obtain ⟨⟨later, hevents, hlater⟩, -⟩ := advance_of_starting hstarting
      have hmove : (s.move .advance).2 = _ := hevents
      rw [hmove, List.mem_cons]
      -- no pass starts later in the same move
      constructor
      · rintro (heq | hmem)
        · obtain ⟨rfl, rfl⟩ := Event.started.inj heq
          exact ⟨rfl, rfl⟩
        · exact absurd hmem (not_started_of_begun hlater)
      · rintro ⟨hnext, rfl⟩
        obtain rfl := Option.some.inj hnext
        exact .inl rfl

/-- A pass in line after `move` was in line before, or is called for. -/
theorem mem_waiting_move (h : pass ∈ (s.move m).1.waiting) :
    pass ∈ s.waiting ∨ ∃ label token?, m = .act (.call label pass.trigger token?) := by
  cases m with
  | act action =>
    have hwaiting : pass ∈ (s.act action).1.waiting := h
    rw [(acted s action).waiting] at hwaiting
    -- it was in line before, or has just been called for
    refine (List.mem_append.mp hwaiting).imp id fun hcalled => ?_
    cases action with
    | call label trigger token? =>
      obtain rfl := List.mem_singleton.mp hcalled
      exact ⟨label, token?, rfl⟩
    | _ => exact absurd hcalled List.not_mem_nil
  | advance =>
    left
    rw [(begun_advance s).2]
    exact List.mem_append_right _ h

/-- A pass that has `started` was in line. -/
theorem mem_waiting_of_started (h : .started pass intake ∈ (s.move m).2) : pass ∈ s.waiting := by
  have hstarting := (started_mem_iff.mp h).1
  cases m with
  | act action => exact nomatch hstarting
  | advance =>
    obtain ⟨-, rest, hw⟩ := starting?_eq_some hstarting
    exact hw ▸ List.mem_cons_self

/-! ## Who started before -/

/-- `calls` ascend in their numbers. -/
theorem calls_ascending (s : Session) (moves : List Move) :
    (Event.calls (s.play moves).2).Pairwise (·.number < ·.number) := by
  rw [← List.pairwise_map (R := (· < ·)) (f := Pass.number), (through_play s moves).numbers_eq.1]
  exact List.pairwise_lt_range'

/-- A pass that has `begun` has a number below those in line. -/
theorem number_lt_of_begun (h : Fresh s) (moves : List Move) {other : Pass}
    (hother : other ∈ Event.begun (s.play moves).2) (hpass : pass ∈ (s.play moves).1.waiting) :
    other.number < pass.number := by
  have hascending := calls_ascending s moves
  rw [← (inTurn_play h moves).begun] at hascending
  exact (List.pairwise_append.mp hascending).2.2 other hother pass hpass

/-- A pass that has `begun` before one called for since then was in line, or called for before
it. -/
theorem mem_waiting_of_begun (h : Fresh s) {past between : List Move} {other : Pass}
    (hother : other ∈ Event.begun ((s.play past).1.play between).2)
    (hpass : pass ∈ ((s.play past).1.play between).1.waiting) {earlier later : List Pass}
    (hcalls : Event.calls ((s.play past).1.play between).2 = earlier ++ pass :: later)
    (hearlier : other ∉ earlier) : other ∈ (s.play past).1.waiting := by
  have hline : (s.play past).1.waiting ++ Event.calls ((s.play past).1.play between).2
      = Event.begun ((s.play past).1.play between).2
        ++ ((s.play past).1.play between).1.waiting :=
    (through_play (s.play past).1 between).line_eq
  have hmem : other ∈ (s.play past).1.waiting ++ (earlier ++ pass :: later) :=
    hcalls ▸ hline ▸ List.mem_append_left _ hother
  rcases List.mem_append.mp hmem with hmem | hmem
  · exact hmem
  · -- it cannot have been called for after the pass, which has not started yet
    have hlt : other.number < pass.number := by
      apply number_lt_of_begun h (past ++ between)
      · rw [play_append, Progress.snd_after, Event.begun, List.filterMap_append]
        exact List.mem_append_right _ hother
      · rw [fst_play_append]
        exact hpass
    have hascending := calls_ascending (s.play past).1 between
    rw [hcalls] at hascending
    obtain ⟨-, hlater, -⟩ := List.pairwise_append.mp hascending
    rcases List.mem_cons.mp ((List.mem_append.mp hmem).resolve_left hearlier) with rfl | hmem
    · exact absurd hlt (Nat.lt_irrefl _)
    · exact absurd (List.rel_of_pairwise_cons hlater hmem) (Nat.lt_asymm hlt)

end Session

end Settlement
