import Settlement.Proofs.Session.Passage

/-!
# Passes that hear what they expect

A pass expects a block with the hash of its signal first, and then one with the hash of the L1 block
that it derived from. As long as it hears that, and is not cancelled, it goes on to its commit. No
other pass and no action keeps it from that.

## Key results

- `resume_cleared`, `checkSignal_cleared`: a pass that hears what it expects waits or commits
- `awaits_play`: as long as it has not ended, it waits for what is left of that
- `Passage.settles`: how it ends, and what it commits
-/

namespace Settlement

/-! ## Replies as expected -/

/-- The hash of the block in the reply, if it has one. -/
def Reply.hash? : Reply → Option String
  | .block found => (found.field "hash").text?
  | .failure _ => none

/-- The replies that a pass has heard, in order. -/
def Event.answers (number : Nat) (events : List Event) : List Reply :=
  events.filterMap fun
    | .answered pass _ reply => if pass = number then some reply else none
    | _ => none

theorem Event.answers_append (number : Nat) (xs ys : List Event) :
    answers number (xs ++ ys) = answers number xs ++ answers number ys := List.filterMap_append

/-- `answers` begin with the reply that comes first. -/
theorem Event.answers_answered (number : Nat) (asked : Number) (reply : Reply)
    (events : List Event) :
    answers number (.answered number asked reply :: events) = reply :: answers number events := by
  simp [answers]

/-- `answers` are none without `lookups`. -/
theorem Event.answers_of_lookups {number : Nat} {events : List Event}
    (h : lookups number events = []) : answers number events = [] := by
  refine List.filterMap_eq_nil_iff.mpr fun e he => ?_
  cases e with
  | answered pass asked reply =>
    refine if_neg ?_
    rintro rfl
    exact not_mem_of_lookups h (isLookupOf_answered pass asked reply) he
  | _ => rfl

namespace Plan

/-- The hashes of the blocks that a pass still expects at the stage. -/
def hashes (plan : Plan) : Stage → List String
  | .signal => [plan.signal.hash, plan.derivedFrom.hash]
  | .provenance => [plan.derivedFrom.hash]

/-- The replies bring blocks with these hashes, as far as there are any replies. -/
def Meets (hashes : List String) (replies : List Reply) : Prop :=
  replies.map Reply.hash? <+: hashes.map some

/-- `check` is canonical for a block with the expected hash. -/
theorem check_of_hash? {plan : Plan} {stage : Stage} {reply : Reply}
    (h : reply.hash? = some (plan.expected stage).hash) :
    plan.check stage reply none = .canonical := by
  cases reply with
  | failure reason => exact nomatch h
  | block found =>
    have hhash : (found.field "hash").text? = some (plan.expected stage).hash := h
    have hsome : found.isNothing = false := by
      cases found <;> first | rfl | exact nomatch hhash
    simp [check, compare, hsome, hhash]

end Plan

namespace Session

variable {s : Session} {pass : Pass} {plan : Plan} {stage : Stage} {reply : Reply}
  {expected : List String} {p : Progress} {during : List Move} {ending : Ending}

/-! ## Legs as expected -/

/-- The session and the events after a leg of a pass that hears what it expects: it waits for the
rest, or gets to its commit. -/
inductive Cleared (s : Session) (pass : Pass) (plan : Plan) (expected : List String) :
    Progress → Prop
  | waits {stage : Stage} {height : Number} {events : List Event}
      (rest : (Event.answers pass.number events).map Reply.hash? ++ (plan.hashes stage).map some
        = expected.map some) :
      Cleared s pass plan expected (s.await pass plan stage height, events)
  | commits {heard : List Event} (quiet : Event.commitments heard = [])
      (goes : ∀ ending, .ended pass ending ∉ heard) :
      Cleared s pass plan expected (.after heard (s.commit pass plan))

/-- `Cleared` extends to the front by what comes first. -/
theorem Cleared.after {events : List Event} (h : Cleared s pass plan expected p)
    (first : List String)
    (hfirst : (Event.answers pass.number events).map Reply.hash? = first.map some)
    (hquiet : Event.commitments events = []) (hgoes : ∀ ending, .ended pass ending ∉ events) :
    Cleared s pass plan (first ++ expected) (.after events p) := by
  -- a pass that waits has heard more, and one that commits has said more before
  cases h with
  | waits rest =>
    refine .waits ?_
    rw [Event.answers_append, List.map_append, List.map_append, hfirst, List.append_assoc, rest]
  | @commits heard quiet goes =>
    rw [Progress.after_after]
    refine .commits ?_ fun ending hmem => ?_
    · rw [Event.commitments_append, hquiet, quiet]
      rfl
    · exact (List.mem_append.mp hmem).elim (hgoes ending) (goes ending)

/-- The pass waits, and what it has heard and what is left is what it expected. -/
def Awaits (pass : Pass) (plan : Plan) (expected : List String) (p : Progress) : Prop :=
  ∃ flight, p.1.flight? = some flight ∧ flight.pass = pass ∧ flight.plan = plan ∧
    (Event.answers pass.number p.2).map Reply.hash? ++ (plan.hashes flight.stage).map some
      = expected.map some

/-- `Cleared` is `Awaits` for a pass that has not ended. -/
theorem Cleared.awaits (h : Cleared s pass plan expected p)
    (hgoes : ∀ ending, .ended pass ending ∉ p.2) : Awaits pass plan expected p := by
  cases h with
  | waits rest => exact ⟨_, rfl, rfl, rfl, rest⟩
  | commits quiet goes =>
    obtain ⟨ending, hended⟩ := exists_ended_after _ (exists_ended_commit s pass plan)
    exact absurd hended (hgoes ending)

/-- `answer` is `Cleared` if what follows is. -/
theorem answer_cleared {passed : Session → Progress} (hfree : s.reason? pass = none)
    (hmeets : Plan.Meets ((plan.expected stage).hash :: expected)
      (Event.answers pass.number (s.answer pass plan stage reply passed).2))
    (hpassed : Plan.Meets expected (Event.answers pass.number (passed s).2) →
      Cleared s pass plan expected (passed s)) :
    Cleared s pass plan ((plan.expected stage).hash :: expected)
      (s.answer pass plan stage reply passed) := by
  unfold answer at hmeets ⊢
  rw [Progress.snd_after, List.singleton_append, Event.answers_answered, Plan.Meets,
    List.map_cons, List.map_cons, List.cons_prefix_cons] at hmeets
  obtain ⟨hhash, hrest⟩ := hmeets
  -- the hash it hears is the one it expects
  have hcheck : plan.check stage reply (s.reason? pass) = .canonical := by
    rw [hfree]
    exact Plan.check_of_hash? hhash
  rw [hcheck] at hrest ⊢
  refine (hpassed hrest).after [(plan.expected stage).hash] ?_ rfl (by simp)
  rw [Event.answers_answered, List.map_cons, hhash]
  rfl

/-- `consult` is `Cleared` if what follows is. -/
theorem consult_cleared {goOn : Session → Reply → Progress} (hfree : s.reason? pass = none)
    (hmeets : Plan.Meets (plan.hashes stage)
      (Event.answers pass.number (s.consult pass plan stage goOn).2))
    (hgo : ∀ reply, Plan.Meets (plan.hashes stage) (Event.answers pass.number (goOn s reply).2) →
      Cleared s pass plan (plan.hashes stage) (goOn s reply)) :
    Cleared s pass plan (plan.hashes stage) (s.consult pass plan stage goOn) := by
  unfold consult at hmeets ⊢
  rw [hfree] at hmeets ⊢
  unfold ask at hmeets ⊢
  dsimp only at hmeets ⊢
  -- the lookup cannot be addressed, is answered at once, or waits
  cases haddress : s.source.address (plan.expected stage).number with
  | error fault =>
    rw [haddress] at hmeets
    exact (hgo _ hmeets).after [] rfl rfl (by simp)
  | ok height =>
    rw [haddress] at hmeets
    dsimp only at hmeets ⊢
    cases himmediate : s.node.immediate? height with
    | some raw =>
      rw [himmediate] at hmeets
      exact (hgo _ hmeets).after [] rfl rfl (by simp)
    | none => exact .waits rfl

/-- `answerProvenance` is `Cleared` if its reply meets what is expected. -/
theorem answerProvenance_cleared (hfree : s.reason? pass = none)
    (hmeets : Plan.Meets (plan.hashes .provenance)
      (Event.answers pass.number (s.answerProvenance pass plan reply).2)) :
    Cleared s pass plan (plan.hashes .provenance) (s.answerProvenance pass plan reply) :=
  answer_cleared hfree hmeets fun _ => @Cleared.commits s pass plan [] [] rfl (by simp)

/-- `checkProvenance` is `Cleared` if its reply meets what is expected. -/
theorem checkProvenance_cleared (hfree : s.reason? pass = none)
    (hmeets : Plan.Meets (plan.hashes .provenance)
      (Event.answers pass.number (s.checkProvenance pass plan).2)) :
    Cleared s pass plan (plan.hashes .provenance) (s.checkProvenance pass plan) :=
  consult_cleared hfree hmeets fun _ => answerProvenance_cleared hfree

/-- `answerSignal` is `Cleared` if its replies meet what is expected. -/
theorem answerSignal_cleared (hfree : s.reason? pass = none)
    (hmeets : Plan.Meets (plan.hashes .signal)
      (Event.answers pass.number (s.answerSignal pass plan reply).2)) :
    Cleared s pass plan (plan.hashes .signal) (s.answerSignal pass plan reply) :=
  answer_cleared hfree hmeets (checkProvenance_cleared hfree)

/-- `checkSignal` is `Cleared` if its replies meet what is expected. -/
theorem checkSignal_cleared (hfree : s.reason? pass = none)
    (hmeets : Plan.Meets (plan.hashes .signal)
      (Event.answers pass.number (s.checkSignal pass plan).2)) :
    Cleared s pass plan (plan.hashes .signal) (s.checkSignal pass plan) :=
  consult_cleared hfree hmeets fun _ => answerSignal_cleared hfree

/-- `resume` is `Cleared` if its replies meet what is expected. -/
theorem resume_cleared {flight : Flight} (hfree : s.reason? flight.pass = none)
    (hmeets : Plan.Meets (flight.plan.hashes flight.stage)
      (Event.answers flight.pass.number (s.resume flight reply).2)) :
    Cleared { s with flight? := none } flight.pass flight.plan (flight.plan.hashes flight.stage)
      (s.resume flight reply) := by
  unfold resume at hmeets ⊢
  -- at either stage what it expects is left to be heard
  cases hstage : flight.stage with
  | signal =>
    rw [hstage] at hmeets
    exact answerSignal_cleared hfree hmeets
  | provenance =>
    rw [hstage] at hmeets
    exact answerProvenance_cleared hfree hmeets

/-- `commit` with nothing in its way commits the candidate, unless the head is not below it. -/
theorem commit_of_ready (hgeneration : s.tracker.generation = plan.generation)
    (hrefusal : s.refusal? = none) :
    (∀ ending, .ended pass ending ∈ (s.commit pass plan).2 → ending = .judged .ok) ∧
    if plan.candidate.number ≤ s.engine.head.number then
      Event.commitments (s.commit pass plan).2 = [] ∧ (s.commit pass plan).1.engine = s.engine
    else
      Event.commitments (s.commit pass plan).2 = [(pass.number, plan.candidate)] ∧
      (s.commit pass plan).1.engine = s.engine.commit plan.candidate := by
  unfold commit
  rw [if_neg (not_not.mpr hgeneration), hrefusal]
  split
  · rw [close_ok]
    exact ⟨by simp, rfl, rfl⟩
  · rw [Progress.snd_after, close_ok]
    exact ⟨by simp, rfl, rfl⟩

/-! ## Passages as expected -/

/-- `play` without a reset preserves the generation. -/
theorem generation_of_kept {moves : List Move} (h : .act .reset ∉ moves) :
    (s.play moves).1.tracker.generation = s.tracker.generation := by
  -- no reset among the moves, and so none is counted
  have hcount : moves.countP Move.isReset = 0 := by
    refine List.countP_eq_zero.mpr fun m hmem hreset => h ?_
    have hm : m = .act .reset := by
      unfold Move.isReset at hreset
      split at hreset
      · rfl
      · exact nomatch hreset
    exact hm ▸ hmem
  rw [generation_play, hcount, Nat.add_zero]

/-- `reason?` is none before if it is later. -/
theorem free_of_play {xs ys : List Move} (h : (s.play (xs ++ ys)).1.reason? pass = none) :
    (s.play xs).1.reason? pass = none := by
  cases hreason : (s.play xs).1.reason? pass with
  | none => rfl
  | some reason =>
    rw [fst_play_append, reason?_play hreason] at h
    exact nomatch h

/-- `Meets` holds of the replies before if it does of all. -/
theorem meets_of_play {moves : List Move} {m : Move}
    (hmeets : Plan.Meets expected (Event.answers pass.number (s.play (moves ++ [m])).2)) :
    Plan.Meets expected (Event.answers pass.number (s.play moves).2) := by
  rw [play_concat, Progress.snd_after, Event.answers_append, Plan.Meets, List.map_append] at hmeets
  exact (List.prefix_append _ _).trans hmeets

/-- `Meets` splits at what was heard before. -/
theorem meets_of_concat {moves : List Move} {m : Move}
    (hmeets : Plan.Meets (plan.hashes .signal)
      (Event.answers pass.number (s.play (moves ++ [m])).2))
    (hheard : (Event.answers pass.number (s.play moves).2).map Reply.hash?
      ++ (plan.hashes stage).map some = (plan.hashes .signal).map some) :
    Plan.Meets (plan.hashes stage) (Event.answers pass.number ((s.play moves).1.move m).2) := by
  rw [play_concat, Progress.snd_after, Event.answers_append, Plan.Meets, List.map_append,
    ← hheard] at hmeets
  exact (List.prefix_append_right_inj _).mp hmeets

/-- `advance` is `Cleared` for a pass that starts and hears what it expects. -/
theorem cleared_start (hidle : s.flight? = none) (hnext : s.waiting.head? = some pass)
    (hplan : s.planFor? pass = some plan) (hfree : s.reason? pass = none)
    (hmeets : Plan.Meets (plan.hashes .signal) (Event.answers pass.number s.advance.2)) :
    ∃ t, Alike pass s t ∧ Cleared t pass plan (plan.hashes .signal) s.advance := by
  obtain ⟨t, halike, -, -, heq⟩ := advance_of_planFor? hidle hnext hplan
  refine ⟨t, halike, ?_⟩
  -- nothing is heard before the first lookup
  have hopening : Event.answers pass.number (s.opening pass) = [] :=
    Event.answers_of_lookups ((quiet_opening s pass).2.2 _)
  rw [heq] at hmeets ⊢
  rw [Progress.snd_after, Event.answers_append, hopening, List.nil_append] at hmeets
  refine (checkSignal_cleared (halike.reason.trans hfree) hmeets).after [] ?_ (quiet_opening ..).1
    (by simp [opening])
  rw [hopening]
  rfl

/-- `move` preserves `Awaits`, unless the pass ends there. -/
theorem awaits_move {flight : Flight} (hf : s.flight? = some flight) (m : Move)
    (hfree : s.reason? flight.pass = none)
    (hmeets : Plan.Meets (flight.plan.hashes flight.stage)
      (Event.answers flight.pass.number (s.move m).2))
    (hgoes : ∀ ending, .ended flight.pass ending ∉ (s.move m).2) :
    Awaits flight.pass flight.plan (flight.plan.hashes flight.stage) (s.move m) := by
  cases m with
  | act action =>
    -- an action answers nothing, but may bring the reply
    obtain ⟨reply?, hflight⟩ := (acted s action).flight
    rw [hf] at hflight
    have hnone : Event.answers flight.pass.number (s.act action).2 = [] :=
      Event.answers_of_lookups ((acted s action).lookups _)
    exact ⟨_, hflight, rfl, rfl, congrArg (List.map Reply.hash? · ++ _) hnone⟩
  | advance =>
    have hgoes : ∀ ending, .ended flight.pass ending ∉ s.advance.2 := hgoes
    have hmeets : Plan.Meets _ (Event.answers flight.pass.number s.advance.2) := hmeets
    show Awaits _ _ _ s.advance
    -- without a reply it goes on waiting, and with one it hears what it expects
    cases hr : flight.reply? with
    | none =>
      rw [advance_wait hf hr]
      exact ⟨flight, hf, rfl, rfl, rfl⟩
    | some reply =>
      rw [advance_resume hf hr] at hmeets hgoes ⊢
      exact (resume_cleared hfree hmeets).awaits hgoes

/-- `Awaits` extends by a move at which the pass does not end. -/
theorem awaits_concat {moves : List Move} {m : Move}
    (h : Awaits pass plan (plan.hashes .signal) (s.play moves))
    (hfree : (s.play moves).1.reason? pass = none)
    (hmeets : Plan.Meets (plan.hashes .signal)
      (Event.answers pass.number (s.play (moves ++ [m])).2))
    (hgoes : ∀ ending, .ended pass ending ∉ ((s.play moves).1.move m).2) :
    Awaits pass plan (plan.hashes .signal) (s.play (moves ++ [m])) := by
  obtain ⟨flight, hf, rfl, rfl, hheard⟩ := h
  obtain ⟨flight', hf', hpass, hplan, hrest⟩ :=
    awaits_move hf m hfree (meets_of_concat hmeets hheard) hgoes
  refine ⟨flight', ?_, hpass, hplan, ?_⟩
  · rw [fst_play_concat]
    exact hf'
  · rw [play_concat, Progress.snd_after, Event.answers_append, List.map_append, List.append_assoc,
      hrest, hheard]

/-- `Awaits` holds of a pass that has started as expected and not ended. -/
theorem awaits_play {moves : List Move} (hidle : s.flight? = none)
    (hnext : s.waiting.head? = some pass) (hplan : s.planFor? pass = some plan)
    (hbegins : moves.head? = some .advance)
    (hgoes : ∀ ending, .ended pass ending ∉ (s.play moves).2)
    (hfree : (s.play moves).1.reason? pass = none)
    (hmeets : Plan.Meets (plan.hashes .signal) (Event.answers pass.number (s.play moves).2)) :
    Awaits pass plan (plan.hashes .signal) (s.play moves) := by
  -- over the moves since the start of the pass, none of which ends it
  induction moves using List.reverseRecOn with
  | nil => exact nomatch hbegins
  | append_singleton moves m ih =>
    have hbefore : (s.play moves).1.reason? pass = none := free_of_play hfree
    have hsplit : (s.play (moves ++ [m])).2 = (s.play moves).2 ++ ((s.play moves).1.move m).2 := by
      rw [play_concat, Progress.snd_after]
    have hpast : ∀ ending, .ended pass ending ∉ (s.play moves).2 := fun ending hmem =>
      hgoes ending (hsplit ▸ List.mem_append_left _ hmem)
    have hlast : ∀ ending, .ended pass ending ∉ ((s.play moves).1.move m).2 := fun ending hmem =>
      hgoes ending (hsplit ▸ List.mem_append_right _ hmem)
    -- the first move starts the pass
    cases moves with
    | nil =>
      obtain rfl : m = .advance := Option.some.inj hbegins
      rw [List.nil_append, play_advance] at hmeets
      obtain ⟨t, -, hcleared⟩ := cleared_start hidle hnext hplan hbefore hmeets
      rw [List.nil_append, play_advance]
      exact hcleared.awaits hlast
    | cons first rest =>
      have hwaits := ih hbegins hpast hbefore (meets_of_play hmeets)
      exact awaits_concat hwaits hbefore hmeets hlast

/-- The trigger of the pass is due, every block that it looks up has the expected hash, there is no
reset, it is not cancelled, and the engine takes what it is given. -/
structure Clean (s : Session) (during : List Move) (pass : Pass) : Prop where
  due : (s.tracker.intake pass.trigger).2 = .due
  hears : ∀ plan, s.planFor? pass = some plan → Plan.Meets (plan.hashes .signal)
    (Event.answers pass.number (s.play (during ++ [Move.advance])).2)
  kept : .act .reset ∉ during
  free : (s.play during).1.reason? pass = none
  taken : (s.play during).1.refusal? = none

/-- `Clean` from the `answers` to a pass with a plan. -/
theorem Clean.of_answers (hplan : s.planFor? pass = some plan)
    (hanswers : (Event.answers pass.number (s.play (during ++ [Move.advance])).2).map Reply.hash?
      = (plan.hashes .signal).map some)
    (hkept : .act .reset ∉ during) (hfree : (s.play during).1.reason? pass = none)
    (htaken : (s.play during).1.refusal? = none) : Clean s during pass := by
  refine ⟨(planFor?_eq_some.mp hplan).1, fun other hother => ?_, hkept, hfree, htaken⟩
  obtain rfl := Option.some.inj (hplan.symm.trans hother)
  rw [Plan.Meets, hanswers]

namespace Passage

variable (h : Passage s during pass ending)

include h

/-- A `Passage` that has heard what it expects gets to `commit`. -/
theorem exists_commit (hplan : s.planFor? pass = some plan)
    (hmeets : Plan.Meets (plan.hashes .signal)
      (Event.answers pass.number (s.play (during ++ [.advance])).2))
    (hfree : (s.play during).1.reason? pass = none) :
    ∃ t heard, Alike pass (s.play during).1 t ∧ Event.commitments heard = [] ∧
      (∀ ending, .ended pass ending ∉ heard) ∧
      (s.play during).1.advance = .after heard (t.commit pass plan) := by
  -- a pass that still waited would not have ended
  have hlanded := landed_of_ended h.served h.ends
  have hcommits : ∀ {t : Session} {expected : List String}, Alike pass (s.play during).1 t →
      Cleared t pass plan expected (s.play during).1.advance →
      ∃ t heard, Alike pass (s.play during).1 t ∧ Event.commitments heard = [] ∧
        (∀ ending, .ended pass ending ∉ heard) ∧
        (s.play during).1.advance = .after heard (t.commit pass plan) := by
    intro t expected halike hcleared
    generalize (s.play during).1.advance = q at hcleared hlanded
    cases hcleared with
    | waits rest => exact nomatch hlanded
    | commits quiet goes => exact ⟨t, _, halike, quiet, goes, rfl⟩
  cases during with
  | nil =>
    rw [List.nil_append, play_advance] at hmeets
    obtain ⟨t, halike, hcleared⟩ := cleared_start h.idle h.next hplan hfree hmeets
    exact hcommits halike hcleared
  | cons first rest =>
    have hbegins : (first :: rest).head? = some .advance := h.begins
    obtain ⟨flight, hf, rfl, rfl, hheard⟩ :=
      awaits_play h.idle h.next hplan hbegins h.goes hfree (meets_of_play hmeets)
    have hlast := meets_of_concat hmeets hheard
    obtain ⟨reply, hr⟩ := Option.isSome_iff_exists.mp (ready_of_mem h.ends flight hf)
    have hadvance : ((s.play (first :: rest)).1.move .advance) = _ := advance_resume hf hr
    rw [hadvance] at hlast
    have hcleared := resume_cleared hfree hlast
    rw [← hadvance] at hcleared
    have halike : Alike flight.pass (s.play (first :: rest)).1
        { (s.play (first :: rest)).1 with flight? := none } := ⟨rfl, rfl, rfl, rfl, rfl, rfl⟩
    exact hcommits halike hcleared

/-- A `Clean` passage with a plan is done, and commits its candidate unless the head is not below
it. -/
theorem settles (hclean : Clean s during pass) (hplan : s.planFor? pass = some plan) :
    ending = .judged .ok ∧
    if plan.candidate.number ≤ (s.play during).1.engine.head.number then
      Event.commitments (s.play (during ++ [.advance])).2 = [] ∧
      (s.play (during ++ [.advance])).1.engine = (s.play during).1.engine
    else
      Event.commitments (s.play (during ++ [.advance])).2 = [(pass.number, plan.candidate)] ∧
      (s.play (during ++ [.advance])).1.engine
        = (s.play during).1.engine.commit plan.candidate := by
  obtain ⟨t, heard, halike, hquiet, hgoes, hadvance⟩ :=
    h.exists_commit hplan (hclean.hears plan hplan) hclean.free
  -- no reset has come in between
  have hgeneration : t.tracker.generation = plan.generation := by
    have hknown := (Tracker.plan?_eq_some (planFor?_eq_some.mp hplan).2).2.1
    rw [halike.generation, generation_of_kept hclean.kept, hknown, generation_took]
  obtain ⟨hok, hcommits⟩ := commit_of_ready hgeneration (halike.refusal.trans hclean.taken)
  -- the last move is the commit, and none came before it
  have hlast : (s.play (during ++ [.advance])).1 = (t.commit pass plan).1 ∧
      Event.commitments (s.play (during ++ [.advance])).2
        = Event.commitments (t.commit pass plan).2 := by
    constructor
    · rw [fst_play_concat]
      show (s.play during).1.advance.1 = _
      rw [hadvance]
      rfl
    · rw [play_concat, Progress.snd_after, Event.commitments_append, h.commitments_before]
      show [] ++ Event.commitments (s.play during).1.advance.2 = _
      rw [hadvance, Progress.snd_after, Event.commitments_append, hquiet]
      rfl
  constructor
  · have hends := h.ends
    rw [hadvance] at hends
    exact hok ending ((List.mem_append.mp hends).resolve_left (hgoes ending))
  · rw [hlast.1, hlast.2, ← halike.engine]
    exact hcommits

end Passage

end Session

end Settlement
