import Settlement.Proofs.Session.Cleared

/-!
# Failed passes leave no trace

A pass that fails commits nothing. Whatever it met with, all that is left of it is what was taken
in with its trigger; the rest is what others did in the meantime. A later pass that finds things as
it found them commits what it would have committed.

## Key results

- `Passage.exists_plan_of_setback`: a pass that fails had a plan, and commits nothing
- `Passage.unscathed`: what it leaves
- `failed_harmless`: failed passes and those that make up for them
-/

namespace Settlement

/-- Whether a pass ended with a failure, or by raising something. -/
def Ending.isSetback : Ending → Bool
  | .judged (.failed _) | .raised _ => true
  | _ => false

namespace Session

variable {s t : Session} {pass later : Pass} {plan : Plan} {moves during : List Move}
  {ending given : Ending}

/-- What a pass leaves that started in a session and ended right after some moves: the engine and
the links that others have made, the signal as it was taken in, and the throttle as it was taken in
or cleared. -/
structure Unscathed (s : Session) (during : List Move) (pass : Pass) (t : Session) : Prop where
  engine : t.engine = during.foldl Move.onEngine s.engine
  engine_kept : (∀ block, .act (.move block) ∉ during) → t.engine = s.engine
  signal : t.tracker.signal = (s.took pass).tracker.signal
  links : t.tracker.links = during.foldl Move.onLinks s.tracker.links
  lastTried : t.tracker.lastTried =
    if during.any Move.isReset then 0 else (s.took pass).tracker.lastTried

/-- A pass finds the links, the signal and the head that another one found, and the head is still
there after some moves. -/
structure Repeats (s : Session) (pass : Pass) (t : Session) (during : List Move) (later : Pass) :
    Prop where
  links : t.tracker.links.toList = s.tracker.links.toList
  signal : (t.took later).tracker.signal = (s.took pass).tracker.signal
  head : t.engine.head = s.engine.head
  still : (t.play during).1.engine.head = s.engine.head

/-- `planFor?` is the same for a pass that repeats another one and is due, but for the
generation. -/
theorem Repeats.planFor? (h : Repeats s pass t during later)
    (hdue : (t.tracker.intake later.trigger).2 = .due) (hplan : s.planFor? pass = some plan) :
    ∃ generation, t.planFor? later = some { plan with generation } := by
  have hlinks : (t.took later).tracker.links.toList = (s.took pass).tracker.links.toList := by
    show (t.tracker.intake _).1.links.toList = (s.tracker.intake _).1.links.toList
    rw [Tracker.links_intake, Tracker.links_intake, h.links]
  refine ⟨(t.took later).tracker.generation, planFor?_eq_some.mpr ⟨hdue, ?_⟩⟩
  rw [Tracker.plan?_congr hlinks h.signal, h.head, (planFor?_eq_some.mp hplan).2]
  rfl

namespace Passage

/-- `isSetback` passes had a plan, and commit nothing. -/
theorem exists_plan_of_setback (h : Passage s during pass ending)
    (hfailed : ending.isSetback = true) :
    Event.commitments (s.play during).1.advance.2 = [] ∧ ∃ plan, s.planFor? pass = some plan := by
  -- an ending without a plan is no setback
  rcases grounds_of_ended h.served h.ends with
    (rfl | rfl | rfl) | ⟨plan, given, hpursues, hgiven, -, hnone⟩
  · exact nomatch hfailed
  · exact nomatch hfailed
  · exact nomatch hfailed
  · refine ⟨hnone ?_, plan, h.planFor?_eq hpursues⟩
    rintro rfl
    rw [hgiven, logged_ok] at hfailed
    exact nomatch hfailed

/-- `Unscathed` is what a pass without a commit leaves. -/
theorem unscathed (h : Passage s during pass ending)
    (hnone : Event.commitments (s.play during).1.advance.2 = []) :
    Unscathed s during pass (s.play (during ++ [.advance])).1 := by
  have hengine := h.engine_eq hnone
  obtain ⟨hlinks, hsignal, htried⟩ :=
    Move.foldl_onTracker (s.tracker.intake pass.trigger).1 during
  rw [← h.tracker_eq] at hlinks hsignal htried
  refine ⟨hengine, fun hnobody => ?_, hsignal, ?_, htried⟩
  · rw [hengine, Move.foldl_onEngine_eq _ hnobody]
  · rw [hlinks, Tracker.links_intake]

/-- `Clean` passes that repeat another one commit the block of its plan. -/
theorem commits_again (h : Passage t during later ending) (hclean : Clean t during later)
    (hagain : Repeats s pass t during later) (hplan : s.planFor? pass = some plan) :
    ending = .judged .ok ∧
    Event.commitments (t.play (during ++ [.advance])).2 = [(later.number, plan.candidate)] ∧
    (t.play (during ++ [.advance])).1.engine = (t.play during).1.engine.commit plan.candidate := by
  obtain ⟨generation, hlater⟩ := hagain.planFor? hclean.due hplan
  obtain ⟨hok, hcommits⟩ := h.settles hclean hlater
  have hhigher := (Tracker.plan?_eq_some (planFor?_eq_some.mp hplan).2).2.2.2.2
  rw [hagain.still, if_neg (Number.not_le_of_lt hhigher)] at hcommits
  exact ⟨hok, hcommits⟩

end Passage

/-- `Unscathed` is what every pass leaves that fails in a play. It has come from its start to its
end, had a plan and has committed nothing. Any clean pass that finds the same links, signal and head
commits the block that it had planned for. -/
theorem failed_harmless (hfresh : Fresh s) (hended : .ended pass ending ∈ (s.play moves).2)
    (hfailed : ending.isSetback = true) :
    (∃ before during after, moves = before ++ during ++ .advance :: after ∧
      Passage (s.play before).1 during pass ending) ∧
    ∀ before during u, (s.play before).1 = u → Passage u during pass ending →
      Event.commitments (u.play (during ++ [.advance])).2 = [] ∧
      Unscathed u during pass (u.play (during ++ [.advance])).1 ∧
      ∃ plan, u.planFor? pass = some plan ∧
        ∀ t meanwhile later given, Passage t meanwhile later given → Clean t meanwhile later →
          Repeats u pass t meanwhile later →
          given = .judged .ok ∧
          Event.commitments (t.play (meanwhile ++ [.advance])).2
            = [(later.number, plan.candidate)] ∧
          (t.play (meanwhile ++ [.advance])).1.engine
            = (t.play meanwhile).1.engine.commit plan.candidate := by
  refine ⟨exists_passage_of_ended hfresh hended, fun before during u _ h => ?_⟩
  obtain ⟨hnone, plan, hplan⟩ := h.exists_plan_of_setback hfailed
  refine ⟨?_, h.unscathed hnone, plan, hplan, fun t meanwhile later given hlater hclean hagain =>
    hlater.commits_again hclean hagain hplan⟩
  rw [play_concat, Progress.snd_after, Event.commitments_append, h.commitments_before]
  exact hnone

/-- A boundary pass is called for after a first attempt at the signal has failed. -/
def offline : List Move :=
  [.act (.record (l2At 5) (l1At "a" 10).toBlockId),
    .act (.setBlock 10 (l1At "a" 10).toValue),
    .act (.setBlock 12 (l1At "f" 12).toValue),
    .act (.hold true),
    .act (.call "first" (.signal (l1At "f" 12)) none),
    .advance,
    .act (.release (some (.text "offline"))),
    .advance,
    .act (.call "second" (.boundary (l1At "g" 20)) none)]

/-- While it waits there is a reset, the same is recorded again, and its lookup fails. -/
def shaken : List Move :=
  [.advance,
    .act .reset,
    .act (.record (l2At 5) (l1At "a" 10).toBlockId),
    .act (.release (some (.text "offline")))]

/-- The next boundary comes, and L1 is there again. -/
def online : List Move :=
  offline ++ shaken ++ [.advance, .act (.call "third" (.boundary (l1At "h" 21)) none)]

/-- Its lookups wait, and both find what they expect. -/
def waitedOut : List Move := [.advance, .act (.release none), .advance, .act (.release none)]

/-- `failed_harmless` in `shaken`: the third pass commits what the second one would have. -/
theorem shaken_harmless :
    ∃ pass failure later,
      .ended pass (.judged (.failed failure)) ∈ (small.play online).2 ∧
      Unscathed (small.play offline).1 shaken pass
        ((small.play offline).1.play (shaken ++ [.advance])).1 ∧
      ((small.play offline).1.play (shaken ++ [.advance])).1.tracker.lastTried = 0 ∧
      Clean (small.play online).1 waitedOut later ∧
      Repeats (small.play offline).1 pass (small.play online).1 waitedOut later ∧
      Event.commitments ((small.play online).1.play (waitedOut ++ [.advance])).2
        = [(later.number, l2At 5)] := by
  have hended : .ended ⟨1, "second", .boundary (l1At "g" 20), none⟩
      (.judged (.failed (Obstacle.unreached 12 (.text "offline")).failure))
        ∈ (small.play online).2 := by
    refine Event.mem_endings.mp ?_
    have hendings : Event.endings (small.play online).2
        = [(⟨0, "first", .signal (l1At "f" 12), none⟩,
            .judged (.failed (Obstacle.unreached 12 (.text "offline")).failure)),
          (⟨1, "second", .boundary (l1At "g" 20), none⟩,
            .judged (.failed (Obstacle.unreached 12 (.text "offline")).failure))] := by rfl
    rw [hendings]
    exact List.mem_cons_of_mem _ List.mem_cons_self
  -- the second pass from its start to its failure
  have hpassage : Passage (small.play offline).1 shaken
      ⟨1, "second", .boundary (l1At "g" 20), none⟩
      (.judged (.failed (Obstacle.unreached 12 (.text "offline")).failure)) :=
    .of_endings rfl rfl rfl (by rfl) (by rfl)
  have hplan : (small.play offline).1.planFor? ⟨1, "second", .boundary (l1At "g" 20), none⟩
      = some ⟨l2At 5, (l1At "a" 10).toBlockId, l1At "f" 12, 0⟩ := by rfl
  -- and the third one, which is clean and finds the same
  have hlater : Passage (small.play online).1 waitedOut
      ⟨2, "third", .boundary (l1At "h" 21), none⟩ (.judged .ok) :=
    .of_endings (by rfl) (by rfl) rfl (by rfl) (by rfl)
  have hclean : Clean (small.play online).1 waitedOut
      ⟨2, "third", .boundary (l1At "h" 21), none⟩ := by
    have hplan : (small.play online).1.planFor? ⟨2, "third", .boundary (l1At "h" 21), none⟩
        = some ⟨l2At 5, (l1At "a" 10).toBlockId, l1At "f" 12, 1⟩ := by rfl
    exact .of_answers hplan (by rfl) (by simp [waitedOut]) (by rfl) (by rfl)
  have hrepeats : Repeats (small.play offline).1 ⟨1, "second", .boundary (l1At "g" 20), none⟩
      (small.play online).1 waitedOut ⟨2, "third", .boundary (l1At "h" 21), none⟩ :=
    ⟨by rfl, by rfl, by rfl, by rfl⟩
  obtain ⟨-, hunscathed, plan, hplan', hagain⟩ :=
    (failed_harmless fresh_small hended rfl).2 offline shaken _ rfl hpassage
  obtain rfl := Option.some.inj (hplan.symm.trans hplan')
  exact ⟨_, _, _, hended, hunscathed, by rfl, hclean, hrepeats,
    (hagain _ _ _ _ hlater hclean hrepeats).2.1⟩

end Session

end Settlement
