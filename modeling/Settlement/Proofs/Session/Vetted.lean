import Settlement.Proofs.Decision

/-!
# Vetted passes

A pass that ends and has passed both checks (`Vetted`): it has come across the block of the signal
and the one it derives its candidate from, each with the hash that its plan expects, and it was not
cancelled by then. A reset in the meantime does not change that.

## Key results

- `Plan.rule_eq_verified`: what it is to pass both checks
- `exists_vetted`: a pass with a plan that has just ended well is vetted
- `Vetted.ending_eq`: a vetted pass that a reset has overtaken ends well
-/

namespace Settlement

/-! ## Checks -/

/-- The first two attempts heard the blocks with the hashes of the plan, and no cancellation. -/
def Plan.Canonical (plan : Plan) (attempts : List Attempt) : Prop :=
  ∃ first second later,
    attempts = .heard (.block first) none :: .heard (.block second) none :: later ∧
    (first.field "hash").text? = some plan.signal.hash ∧
    (second.field "hash").text? = some plan.derivedFrom.hash

/-- `objection?` is none exactly for a block with the expected hash. -/
theorem Plan.objection?_eq_none {plan : Plan} {stage : Stage} {attempt : Attempt} :
    plan.objection? stage attempt = none ↔ ∃ found, attempt = .heard (.block found) none ∧
      (found.field "hash").text? = some (plan.expected stage).hash := by
  constructor
  -- the check was canonical, so a block with the expected hash was heard
  · intro hnone
    cases attempt with
    | barred reason => exact nomatch hnone
    | heard reply cancelled? =>
      have hcheck : plan.check stage reply cancelled? = .canonical := by rw [check_eq, hnone]; rfl
      obtain ⟨rfl, found, rfl, hhash⟩ := check_eq_canonical hcheck
      exact ⟨found, rfl, hhash⟩
  -- which nothing can be held against
  · rintro ⟨found, rfl, hhash⟩
    have hblock : found.isNothing = false := by
      cases found <;> first | rfl | exact nomatch hhash
    simp [objection?, hblock, hhash]

/-- `rule` is `verified` exactly for attempts that are `Canonical`. -/
theorem Plan.rule_eq_verified {plan : Plan} {attempts : List Attempt} :
    plan.rule .signal attempts = .verified ↔ plan.Canonical attempts := by
  constructor
  -- both attempts were made, and neither met an objection
  · intro h
    cases attempts with
    | nil => exact nomatch h
    | cons attempt attempts =>
      cases hfirst : plan.objection? .signal attempt with
      | some objection =>
        rw [rule_of_objection hfirst] at h
        exact nomatch h
      | none =>
        rw [rule_of_canonical hfirst] at h
        cases attempts with
        | nil => exact nomatch h
        | cons attempt' later =>
          cases hsecond : plan.objection? .provenance attempt' with
          | some objection =>
            rw [rule_of_objection hsecond] at h
            exact nomatch h
          | none =>
            obtain ⟨first, rfl, hhash⟩ := objection?_eq_none.mp hfirst
            obtain ⟨second, rfl, hhash'⟩ := objection?_eq_none.mp hsecond
            exact ⟨first, second, later, rfl, hhash, hhash'⟩
  -- two such attempts settle it
  · rintro ⟨first, second, later, rfl, hhash, hhash'⟩
    rw [rule_of_canonical (objection?_eq_none.mpr ⟨first, rfl, hhash⟩)]
    exact rule_provenance_of_canonical (objection?_eq_none.mpr ⟨second, rfl, hhash'⟩) later

namespace Session

variable {s : Session} {pass : Pass} {plan : Plan} {past before during : List Move} {m : Move}
  {ending : Ending}

/-- The pass ends by a `Passage` whose attempts are `Canonical` for the plan that it started
with. -/
structure Vetted (s : Session) (before during : List Move) (pass : Pass) (plan : Plan)
    (ending : Ending) : Prop where
  passage : Passage (s.play before).1 during pass ending
  plan_eq : (s.play before).1.planFor? pass = some plan
  canonical : plan.Canonical ((s.play before).1.attempts pass (during ++ [.advance]))

/-- A `Passage` with a plan ends as it is `Decided`. -/
theorem Passage.decided (h : Passage s during pass ending) (hplan : s.planFor? pass = some plan) :
    Decided s during pass plan (plan.decision (during.any Move.isReset)
      (s.play during).1.engine.head (s.play during).1.refusal?
      (plan.rule .signal (s.attempts pass (during ++ [.advance])))) :=
  decided_of_planFor? h.idle h.next hplan h.begins h.goes

/-- A pass that has `ended` after these moves came by a `Passage`. -/
theorem exists_passage (hfresh : Fresh s) (hpursues : (s.play past).1.Pursues pass plan)
    (hended : .ended pass ending ∈ (s.play past).1.advance.2) :
    ∃ before during, past = before ++ during ∧ Passage (s.play before).1 during pass ending ∧
      (s.play before).1.planFor? pass = some plan := by
  have hmem : .ended pass ending ∈ (s.play (past ++ [.advance])).2 := by
    rw [play_concat, Progress.snd_after]
    exact List.mem_append_right _ hended
  obtain ⟨before, during, after, hmoves, hpassage⟩ := exists_passage_of_ended hfresh hmem
  rcases List.eq_nil_or_concat after with rfl | ⟨earlier, last, rfl⟩
  · obtain ⟨rfl, -⟩ := List.append_inj' hmoves rfl
    rw [fst_play_append] at hpursues
    exact ⟨before, during, rfl, hpassage, hpassage.planFor?_eq hpursues⟩
  · -- it would have been over before its turn
    have hpast : past = before ++ during ++ .advance :: earlier := by
      rw [List.concat_eq_append, ← List.cons_append, ← List.append_assoc] at hmoves
      exact (List.append_inj' hmoves rfl).1
    have hover : .ended pass ending ∈ (s.play past).2 := by
      have hends := hpassage.ends
      rw [← fst_play_append] at hends
      rw [hpast, play_append, Progress.snd_after, play_cons]
      exact List.mem_append_right _ (List.mem_append_left _ hends)
    exact absurd hpursues (not_pursues_of_ended hfresh hover)

/-- A pass with a plan that ends well is `Vetted`. -/
theorem vetted_of_ended (hfresh : Fresh s) (hpursues : (s.play past).1.Pursues pass plan)
    (hended : .ended pass (.judged .ok) ∈ (s.play past).1.advance.2) :
    ∃ before during, past = before ++ during ∧
      Vetted s before during pass plan (.judged .ok) := by
  obtain ⟨before, during, rfl, hpassage, hplan⟩ := exists_passage hfresh hpursues hended
  have hdecided := hpassage.decided hplan
  have hends := Event.mem_endings.mpr hpassage.ends
  refine ⟨before, during, rfl, hpassage, hplan, Plan.rule_eq_verified.mp ?_⟩
  cases hrule : plan.rule .signal ((s.play before).1.attempts pass (during ++ [.advance])) with
  | verified => rfl
  | pending stage =>
    rw [hrule] at hdecided
    rw [(hdecided.waits rfl).1] at hends
    exact absurd hends List.not_mem_nil
  | objected stage objection =>
    -- whoever meets an objection does not end well
    rw [hrule] at hdecided
    rw [(hdecided.ends _ _ rfl).ends] at hends
    obtain ⟨-, hok⟩ := Prod.mk.inj (List.mem_singleton.mp hends)
    rcases logged_cases (s.play before).1 pass (plan.failing stage objection) with
      heq | ⟨threshold, fault, -, -, heq⟩
    · rw [heq] at hok
      cases objection <;> exact nomatch hok
    · exact nomatch hok.trans heq

/-- `act` ends no pass. -/
theorem endings_act (s : Session) (action : Action) : Event.endings (s.act action).2 = [] := by
  rw [← Event.endings_conduct, conduct_act]
  rfl

/-- A pass with a plan that ends well at a move is `Vetted`. -/
theorem exists_vetted (hfresh : Fresh s) (hpursues : (s.play past).1.Pursues pass plan)
    (hends : Event.endings ((s.play past).1.move m).2 = [(pass, .judged .ok)]) :
    m = .advance ∧ ∃ before during, past = before ++ during ∧
      Vetted s before during pass plan (.judged .ok) := by
  cases m with
  | act action => exact nomatch (endings_act _ action).symm.trans hends
  | advance =>
    have hended : .ended pass (.judged .ok) ∈ (s.play past).1.advance.2 :=
      Event.mem_endings.mp (hends ▸ List.mem_singleton.mpr rfl)
    exact ⟨rfl, vetted_of_ended hfresh hpursues hended⟩

namespace Vetted

variable (h : Vetted s before during pass plan ending)

include h

/-- A `Vetted` pass has its turn when it ends. -/
theorem pursues : (s.play (before ++ during)).1.Pursues pass plan := by
  rw [fst_play_append]
  rcases h.passage.cases with rfl | ⟨known, hknown, haloft⟩
  · exact .inr ⟨h.passage.idle, h.passage.next, h.plan_eq⟩
  · obtain rfl := Option.some.inj (hknown.symm.trans h.plan_eq)
    exact .inl haloft.flight

/-- A `Vetted` pass is among the `endings`. -/
theorem mem_endings :
    (pass, ending) ∈ Event.endings ((s.play (before ++ during)).1.move .advance).2 := by
  rw [fst_play_append]
  exact Event.mem_endings.mpr h.passage.ends

/-- A `Vetted` pass has asked for the two blocks of its plan and for nothing else. -/
theorem lookups : Event.lookups pass.number ((s.play before).1.play (during ++ [.advance])).2
    = plan.inquiry s.source pass.number .signal
      ((s.play before).1.attempts pass (during ++ [.advance])) := by
  have hlookups := (h.passage.decided h.plan_eq).lookups
  rwa [source_play] at hlookups

/-- A `Vetted` pass ends with the signal of its plan still known. -/
theorem signal_eq : (s.play (before ++ during ++ [.advance])).1.tracker.signal = plan.signal := by
  rw [List.append_assoc, fst_play_append, h.passage.tracker_eq,
    (Move.foldl_onTracker _ during).2.1]
  exact (Tracker.plan?_eq_some (planFor?_eq_some.mp h.plan_eq).2).1.symm

/-- The generation has changed exactly if there was a reset. -/
theorem overtaken_iff : (s.play (before ++ during)).1.tracker.generation ≠ plan.generation ↔
    during.any Move.isReset = true := by
  rw [fst_play_append]
  exact Session.overtaken_iff h.plan_eq during

/-- A `Vetted` pass that a reset has overtaken ends well. -/
theorem ending_eq (hreset : during.any Move.isReset = true) : ending = .judged .ok := by
  have hdecided := h.passage.decided h.plan_eq
  rw [Plan.rule_eq_verified.mpr h.canonical, hreset] at hdecided
  have hends := (hdecided.ends (.judged .ok) [] (by simp [Plan.decision])).ends
  rw [logged_ok] at hends
  have hmem := Event.mem_endings.mpr h.passage.ends
  rw [hends] at hmem
  exact (Prod.mk.inj (List.mem_singleton.mp hmem)).2

end Vetted

end Session

end Settlement
