import Settlement.Proofs.Session.Moves

/-!
# Scripted passes

A pass whose replies are known runs from its start to its end without a break (`Session.perform`).
It does what any pass does, but it takes each reply from a script instead of waiting for it. Where
the script is at its end, the pass stops as it is.

A pass that has to wait does the same as a scripted one, with the replies that it gets later on as
its script. The rest of it, from where it waits, is `Session.ahead`.

## Key results

- `follows_finish`: what a pass has ahead of it rests on few parts of the session, and changes
  the engine at most
- `gist_perform_replies`, `gist_ahead_resume`: a pass does what its script says
- `gist_perform_of_core`: a scripted pass rests on the session without its lookups
-/

namespace Settlement

/-! ## What passes do -/

namespace Event

/-- The event is something that a pass does. -/
def isConduct : Event → Bool
  | .started .. | .asked .. | .answered .. | .committed .. | .ended .. => true
  | _ => false

/-- The events with `isConduct`. -/
def conduct (events : List Event) : List Event := events.filter isConduct

/-- The replies among events until a pass ends. -/
def replies : List Event → List Reply
  | [] => []
  | .ended _ _ :: _ => []
  | .answered _ _ reply :: rest => reply :: replies rest
  | _ :: rest => replies rest

@[simp] theorem conduct_append (xs ys : List Event) :
    conduct (xs ++ ys) = conduct xs ++ conduct ys := List.filter_append ..

/-- `conduct` has no lines for the log. -/
theorem conduct_noted (notices : List Notice) : conduct (notices.map .noted) = [] := by
  induction notices with
  | nil => rfl
  | cons notice notices ih => exact ih

/-- `replies` begin behind events with no `conduct`. -/
theorem replies_append {xs : List Event} (h : conduct xs = []) (ys : List Event) :
    replies (xs ++ ys) = replies ys := by
  induction xs with
  | nil => rfl
  | cons e xs ih =>
    cases e with
    | started | asked | answered | committed | ended => exact nomatch h
    | _ => exact ih h

/-- `List.filterMap` on `conduct` is that on all events, for a function that sees only `conduct`. -/
private theorem filterMap_conduct {α : Type} (f : Event → Option α)
    (h : ∀ e, e.isConduct = false → f e = none) (events : List Event) :
    (conduct events).filterMap f = events.filterMap f := by
  induction events with
  | nil => rfl
  | cons e events ih =>
    -- what is left out by `conduct` gives nothing
    cases he : e.isConduct with
    | true =>
      have hcons : conduct (e :: events) = e :: conduct events := List.filter_cons_of_pos he
      rw [hcons, List.filterMap_cons, List.filterMap_cons, ih]
    | false =>
      have hcons : conduct (e :: events) = conduct events :=
        List.filter_cons_of_neg (by rw [he]; exact nofun)
      rw [hcons, List.filterMap_cons, h e he, ih]

theorem heights_conduct (events : List Event) : heights (conduct events) = heights events :=
  filterMap_conduct _ (fun e he => by cases e <;> first | rfl | exact nomatch he) events

theorem endings_conduct (events : List Event) : endings (conduct events) = endings events :=
  filterMap_conduct _ (fun e he => by cases e <;> first | rfl | exact nomatch he) events

theorem commits_conduct (events : List Event) : commits (conduct events) = commits events :=
  filterMap_conduct _ (fun e he => by cases e <;> first | rfl | exact nomatch he) events

end Event

namespace Session

/-- The session without its lookups, which are between a pass and the node. -/
def core (s : Session) : Session := { s with node := {}, tickets := 0, flight? := none }

end Session

/-- The session and what passes did, both without lookups. -/
def Progress.gist (p : Progress) : Session × List Event := (p.1.core, Event.conduct p.2)

/-- `gist` respects `after` in the progress. -/
theorem Progress.gist_after {p q : Progress} (h : p.gist = q.gist) (events : List Event) :
    (Progress.after events p).gist = (Progress.after events q).gist := by
  have hcore : p.1.core = q.1.core := congrArg Prod.fst h
  have hconduct : Event.conduct p.2 = Event.conduct q.2 := congrArg Prod.snd h
  rw [gist, gist, fst_after, fst_after, snd_after, snd_after, Event.conduct_append,
    Event.conduct_append, hcore, hconduct]

/-- `gist` respects `after` in the events, as far as `conduct` goes. -/
theorem Progress.gist_after_congr {xs ys : List Event} (h : Event.conduct xs = Event.conduct ys)
    (p : Progress) : (Progress.after xs p).gist = (Progress.after ys p).gist := by
  rw [gist, gist, fst_after, fst_after, snd_after, snd_after, Event.conduct_append,
    Event.conduct_append, h]

namespace Session

/-! ## Scripts -/

/-- `consult` with a script of replies. A number that cannot be asked for fails all the same, and
the script has that failure too. -/
def consultWith (s : Session) (pass : Pass) (plan : Plan) (stage : Stage) (script : List Reply)
    (goOn : Session → Reply → List Reply → Progress) : Progress :=
  match s.reason? pass with
  | some reason => s.fail pass (plan.unreached stage reason)
  | none =>
    match s.source.address (plan.expected stage).number with
    | .error fault => goOn s (.failure (.fault fault)) script.tail
    | .ok height =>
      .after [.asked pass.number height]
        (match script with
        | reply :: rest => goOn s reply rest
        | [] => (s, []))

/-- `checkProvenance` with a script. -/
def checkProvenanceWith (s : Session) (pass : Pass) (plan : Plan) (script : List Reply) :
    Progress :=
  s.consultWith pass plan .provenance script fun s reply _ => s.answerProvenance pass plan reply

/-- `answerSignal` with a script for the second lookup. -/
def answerSignalWith (s : Session) (pass : Pass) (plan : Plan) (reply : Reply)
    (script : List Reply) : Progress :=
  s.answer pass plan .signal reply fun s => s.checkProvenanceWith pass plan script

/-- `checkSignal` with a script. -/
def checkSignalWith (s : Session) (pass : Pass) (plan : Plan) (script : List Reply) : Progress :=
  s.consultWith pass plan .signal script fun s reply rest =>
    s.answerSignalWith pass plan reply rest

/-- `start` with a script. -/
def perform (s : Session) (pass : Pass) (script : List Reply) : Progress :=
  .after (s.opening pass)
    ((s.took pass).proceed pass ((s.took pass).checkSignalWith pass · script)
      (s.tracker.intake pass.trigger).2)

/-- `resume` with a script, its first reply included. Without a reply the pass stops. -/
def finish (s : Session) (flight : Flight) : List Reply → Progress
  | [] => ({ s with flight? := none }, [])
  | reply :: rest =>
    match flight.stage with
    | .signal =>
      { s with flight? := none }.answerSignalWith flight.pass flight.plan reply rest
    | .provenance =>
      { s with flight? := none }.answerProvenance flight.pass flight.plan reply

/-- `finish` for the pass in flight, if there is one. -/
def ahead (s : Session) (script : List Reply) : Progress :=
  match s.flight? with
  | none => (s, [])
  | some flight => s.finish flight script

/-! ## What a pass rests on -/

/-- A pass finds the same in both sessions. -/
structure Alike (pass : Pass) (s t : Session) : Prop where
  engine : t.engine = s.engine
  refusal : t.refusal? = s.refusal?
  source : t.source = s.source
  log : t.log? = s.log?
  generation : t.tracker.generation = s.tracker.generation
  reason : t.reason? pass = s.reason? pass

/-- `go` does the same in sessions that are `Alike`, and changes nothing but the engine. -/
def Follows (pass : Pass) (go : Session → Progress) : Prop :=
  ∀ s t, Alike pass s t → (go t).2 = (go s).2 ∧
    (go t).1.core = { t.core with engine := (go s).1.engine }

theorem Alike.refl (pass : Pass) (s : Session) : Alike pass s s := ⟨rfl, rfl, rfl, rfl, rfl, rfl⟩

/-- `Alike` holds between sessions of one `core`. -/
theorem alike_of_core {s t : Session} (h : t.core = s.core) (pass : Pass) : Alike pass s t := by
  have hengine : t.core.engine = s.core.engine := by rw [h]
  have hrefusal : t.core.refusal? = s.core.refusal? := by rw [h]
  have hsource : t.core.source = s.core.source := by rw [h]
  have hlog : t.core.log? = s.core.log? := by rw [h]
  have hgeneration : t.core.tracker.generation = s.core.tracker.generation := by rw [h]
  have hreason : t.core.reason? pass = s.core.reason? pass := by rw [h]
  exact ⟨hengine, hrefusal, hsource, hlog, hgeneration, hreason⟩

variable {pass : Pass} {plan : Plan} {go : Session → Progress}

/-- `Follows` gives the same `gist` for sessions of one `core`. -/
theorem Follows.gist_eq (h : Follows pass go) {s t : Session} (hcore : t.core = s.core) :
    (go t).gist = (go s).gist := by
  obtain ⟨hevents, ht⟩ := h s t (alike_of_core hcore pass)
  obtain ⟨-, hs⟩ := h s s (.refl pass s)
  rw [Progress.gist, Progress.gist, hevents, ht, hs, hcore]

/-- `Follows` extends to the front by any events. -/
theorem Follows.after (h : Follows pass go) (events : List Event) :
    Follows pass fun s => .after events (go s) := by
  intro s t halike
  obtain ⟨hevents, hcore⟩ := h s t halike
  exact ⟨congrArg (events ++ ·) hevents, hcore⟩

/-- `Follows` holds of stopping. -/
theorem follows_stop : Follows pass fun s => (s, []) := by
  intro s t halike
  refine ⟨rfl, ?_⟩
  show t.core = { t.core with engine := s.engine }
  rw [← halike.engine]
  rfl

/-- `Follows` holds of `close`. -/
theorem follows_close (ending : Ending) : Follows pass (·.close pass ending) := by
  intro s t halike
  have hlogged : t.logged pass ending = s.logged pass ending := by
    rw [logged, logged, halike.log]
  constructor
  · simp only [close, hlogged]
  · show t.core = { t.core with engine := s.engine }
    rw [← halike.engine]
    rfl

/-- `Follows` holds of a choice that sessions which are `Alike` make alike. -/
theorem Follows.ite {go' : Session → Progress} {c : Session → Prop} [DecidablePred c]
    (hc : ∀ s t, Alike pass s t → (c t ↔ c s)) (h : Follows pass go) (h' : Follows pass go') :
    Follows pass fun s => if c s then go s else go' s := by
  intro s t halike
  by_cases hs : c s
  · have ht := (hc s t halike).mpr hs
    simp only [if_pos hs, if_pos ht]
    exact h s t halike
  · have ht := fun ht => hs ((hc s t halike).mp ht)
    simp only [if_neg hs, if_neg ht]
    exact h' s t halike

/-- `Follows` holds of a choice by the refusal of the engine. -/
theorem Follows.refused {refused : Value → Session → Progress}
    (hsome : ∀ reason, Follows pass (refused reason)) (hnone : Follows pass go) :
    Follows pass fun s => match s.refusal? with
      | some reason => refused reason s
      | none => go s := by
  intro s t halike
  dsimp only
  rw [halike.refusal]
  cases s.refusal? with
  | some reason => exact hsome reason s t halike
  | none => exact hnone s t halike

/-- `Follows` holds of a commit and the end of the pass. -/
private theorem follows_committed (events : List Event) : Follows pass fun s =>
    .after events
      ({ s with engine := s.engine.commit plan.candidate }.close pass (.judged .ok)) := by
  intro s t halike
  have hengine : t.engine.commit plan.candidate = s.engine.commit plan.candidate := by
    rw [halike.engine]
  have hcommitted : Alike pass { s with engine := s.engine.commit plan.candidate }
      { t with engine := t.engine.commit plan.candidate } :=
    ⟨hengine, halike.refusal, halike.source, halike.log, halike.generation, halike.reason⟩
  exact (follows_close _).after events _ _ hcommitted

/-- `Follows` holds of `commit`. -/
theorem follows_commit : Follows pass (·.commit pass plan) := by
  refine Follows.ite ?_ ((follows_close _).after _) (Follows.ite ?_ (follows_close _) ?_)
  · intro s t halike
    rw [halike.generation]
  · intro s t halike
    rw [halike.engine]
  · exact Follows.refused (fun _ => follows_close _) (follows_committed _)

/-- `Follows` holds of `answer` if it does of what comes after. -/
theorem follows_answer {stage : Stage} (reply : Reply) (h : Follows pass go) :
    Follows pass (·.answer pass plan stage reply go) := by
  intro s t halike
  simp only [answer, halike.reason]
  split
  · exact h.after _ s t halike
  · exact (follows_close _).after _ s t halike
  · exact (follows_close _).after _ s t halike

/-- `Follows` holds of `consultWith` if it does of what comes after. -/
theorem follows_consultWith {stage : Stage} (script : List Reply)
    {goOn : Session → Reply → List Reply → Progress}
    (h : ∀ reply rest, Follows pass (goOn · reply rest)) :
    Follows pass (·.consultWith pass plan stage script goOn) := by
  intro s t halike
  simp only [consultWith, halike.reason, halike.source]
  -- cancelled, or not addressed, or with a script that may be at its end
  split
  · exact follows_close _ s t halike
  · split
    · exact h _ _ s t halike
    · cases script with
      | nil => exact follows_stop.after _ s t halike
      | cons reply rest => exact (h reply rest).after _ s t halike

theorem follows_answerProvenance (reply : Reply) :
    Follows pass (·.answerProvenance pass plan reply) := follows_answer reply follows_commit

theorem follows_checkProvenanceWith (script : List Reply) :
    Follows pass (·.checkProvenanceWith pass plan script) :=
  follows_consultWith script fun reply _ => follows_answerProvenance reply

theorem follows_answerSignalWith (reply : Reply) (script : List Reply) :
    Follows pass (·.answerSignalWith pass plan reply script) :=
  follows_answer reply (follows_checkProvenanceWith script)

theorem follows_checkSignalWith (script : List Reply) :
    Follows pass (·.checkSignalWith pass plan script) :=
  follows_consultWith script fun reply rest => follows_answerSignalWith reply rest

/-- `Follows` holds of `finish`. -/
theorem follows_finish (flight : Flight) (script : List Reply) :
    Follows flight.pass (·.finish flight script) := by
  intro s t halike
  -- the two sessions read alike without the pass in flight, too
  have hlanded : Alike flight.pass { s with flight? := none } { t with flight? := none } :=
    ⟨halike.engine, halike.refusal, halike.source, halike.log, halike.generation, halike.reason⟩
  cases script with
  | nil => exact follows_stop _ _ hlanded
  | cons reply rest =>
    simp only [finish]
    -- a reply about the signal, or about the block derived from
    split
    · exact follows_answerSignalWith reply rest _ _ hlanded
    · exact follows_answerProvenance reply _ _ hlanded

end Session

/-- The progress with what the pass in flight has `ahead` of it. -/
def Progress.finished (p : Progress) (script : List Reply) : Progress :=
  .after p.2 (p.1.ahead script)

namespace Session

/-! ## Scripts of what happens later -/

/-- `finished` changes nothing where no pass is in flight. -/
theorem finished_of_landed {p : Progress} (h : p.1.flight? = none) (script : List Reply) :
    p.finished script = p := by
  rw [Progress.finished, ahead, h]
  exact Prod.ext rfl (List.append_nil _)

/-- `finished` commutes with `after`. -/
theorem finished_after (events : List Event) (p : Progress) (script : List Reply) :
    (Progress.after events p).finished script = .after events (p.finished script) := by
  rw [Progress.finished, Progress.finished, Progress.after_after]
  rfl

/-- `commit` leaves no pass in flight. -/
theorem flight_commit (s : Session) (pass : Pass) (plan : Plan) :
    (s.commit pass plan).1.flight? = none := by
  have hsettles := commit_settles s pass plan
  generalize s.commit pass plan = p at hsettles ⊢
  cases hsettles <;> rfl

/-- `answerProvenance` leaves no pass in flight. -/
theorem flight_answerProvenance (s : Session) (pass : Pass) (plan : Plan) (reply : Reply) :
    (s.answerProvenance pass plan reply).1.flight? = none := by
  unfold answerProvenance answer
  rw [Progress.fst_after]
  split
  · exact flight_commit s pass plan
  · rfl
  · rfl

/-- `replies` begin with the reply that `answer` goes on with. -/
theorem replies_answer (s : Session) (pass : Pass) (plan : Plan) (stage : Stage) (reply : Reply)
    (passed : Session → Progress) (later : List Event) :
    ∃ rest, Event.replies ((s.answer pass plan stage reply passed).2 ++ later) = reply :: rest :=
  ⟨_, rfl⟩

/-- `consultWith` has the `gist` of `consult`, finished with what comes later, if going on with a
reply has. The script is what comes back in either. -/
theorem gist_consultWith {s : Session} {pass : Pass} {plan : Plan} {stage : Stage}
    {goOn : Session → Reply → Progress} {goOnWith : Session → Reply → List Reply → Progress}
    (hreplies : ∀ reply later, ∃ rest, Event.replies ((goOn s reply).2 ++ later) = reply :: rest)
    (hgoOn : ∀ reply later,
      (goOnWith s reply (Event.replies ((goOn s reply).2 ++ later)).tail).gist
        = ((goOn s reply).finished (Event.replies later)).gist)
    (hwait : ∀ height reply rest, (goOnWith s reply rest).gist
      = ((s.await pass plan stage height).ahead (reply :: rest)).gist) (later : List Event) :
    (s.consultWith pass plan stage
        (Event.replies ((s.consult pass plan stage goOn).2 ++ later)) goOnWith).gist
      = ((s.consult pass plan stage goOn).finished (Event.replies later)).gist := by
  -- both look the block up in the same three cases
  unfold consult consultWith
  cases hreason : s.reason? pass with
  -- cancelled: the pass ends, and no lookup is made
  | some reason => rw [finished_of_landed rfl]
  | none =>
    unfold ask
    dsimp only
    cases haddress : s.source.address (plan.expected stage).number with
    | error fault =>
      -- the failure is in the script too, and dropped there
      exact hgoOn _ later
    | ok height =>
      dsimp only
      cases himmediate : s.node.immediate? height with
      | some reply =>
        -- the reply is the next one of the script
        have hscript : Event.replies ((Progress.after [.asked pass.number height]
            (goOn s (s.source.deliver (plan.expected stage).number reply))).2 ++ later)
          = Event.replies ((goOn s (s.source.deliver (plan.expected stage).number reply)).2
            ++ later) := rfl
        dsimp only
        rw [hscript, finished_after]
        have hgoOn := hgoOn (s.source.deliver (plan.expected stage).number reply) later
        obtain ⟨rest, hrest⟩ := hreplies (s.source.deliver (plan.expected stage).number reply) later
        rw [hrest] at hgoOn ⊢
        -- one reply of the script is used, and the rest is for what follows
        exact Progress.gist_after hgoOn _
      | none =>
        -- the pass waits, and the script is what comes later
        have hscript : Event.replies ([.asked pass.number height] ++ later)
          = Event.replies later := rfl
        dsimp only
        rw [hscript, Progress.finished]
        refine Progress.gist_after ?_ _
        cases Event.replies later with
        -- nothing comes later, so both stop with the pass in flight
        | nil => rfl
        | cons reply rest => exact hwait height reply rest

/-- `checkProvenanceWith` has the `gist` of `checkProvenance`, finished with what comes later. -/
theorem gist_checkProvenanceWith (s : Session) (pass : Pass) (plan : Plan) (later : List Event) :
    (s.checkProvenanceWith pass plan
        (Event.replies ((s.checkProvenance pass plan).2 ++ later))).gist
      = ((s.checkProvenance pass plan).finished (Event.replies later)).gist := by
  refine gist_consultWith (fun reply later => replies_answer ..) ?_ ?_ later
  · intro reply later
    rw [finished_of_landed (flight_answerProvenance ..)]
  · -- where the pass waits, only lookups are different
    intro height reply rest
    have hcore : ({ s.await pass plan .provenance height with flight? := none }).core = s.core :=
      rfl
    exact ((follows_answerProvenance reply).gist_eq hcore).symm

/-- `answerSignalWith` has the `gist` of `answerSignal`, finished with what comes later. -/
theorem gist_answerSignalWith (s : Session) (pass : Pass) (plan : Plan) (reply : Reply)
    (later : List Event) :
    (s.answerSignalWith pass plan reply
        (Event.replies ((s.answerSignal pass plan reply).2 ++ later)).tail).gist
      = ((s.answerSignal pass plan reply).finished (Event.replies later)).gist := by
  unfold answerSignal answerSignalWith answer
  rw [finished_after]
  refine Progress.gist_after ?_ _
  cases plan.check .signal reply (s.reason? pass) with
  | canonical => exact gist_checkProvenanceWith s pass plan later
  | blocked obstacle => rw [finished_of_landed rfl]
  | broken fault => rw [finished_of_landed rfl]

/-- `checkSignalWith` has the `gist` of `checkSignal`, finished with what comes later. -/
theorem gist_checkSignalWith (s : Session) (pass : Pass) (plan : Plan) (later : List Event) :
    (s.checkSignalWith pass plan (Event.replies ((s.checkSignal pass plan).2 ++ later))).gist
      = ((s.checkSignal pass plan).finished (Event.replies later)).gist := by
  refine gist_consultWith (fun reply later => replies_answer ..) ?_ ?_ later
  · intro reply later
    exact gist_answerSignalWith s pass plan reply later
  · intro height reply rest
    have hcore : ({ s.await pass plan .signal height with flight? := none }).core = s.core := rfl
    exact ((follows_answerSignalWith reply rest).gist_eq hcore).symm

/-- `ahead` has the `gist` of `resume`, finished with what comes later. -/
theorem gist_ahead_resume {s : Session} {flight : Flight} (hf : s.flight? = some flight)
    (reply : Reply) (later : List Event) :
    (s.ahead (Event.replies ((s.resume flight reply).2 ++ later))).gist
      = ((s.resume flight reply).finished (Event.replies later)).gist := by
  simp only [ahead, hf, resume]
  cases hstage : flight.stage with
  | signal =>
    have hsignal := gist_answerSignalWith { s with flight? := none } flight.pass flight.plan reply
      later
    -- the reply itself is the first of the script
    obtain ⟨rest, hrest⟩ : ∃ rest, Event.replies
        (({ s with flight? := none }.answerSignal flight.pass flight.plan reply).2 ++ later)
          = reply :: rest := ⟨_, rfl⟩
    rw [hrest] at hsignal
    have hfinish : s.finish flight (reply :: rest)
        = { s with flight? := none }.answerSignalWith flight.pass flight.plan reply rest := by
      simp only [finish, hstage]
    dsimp only
    rw [hrest, hfinish]
    exact hsignal
  | provenance =>
    obtain ⟨rest, hrest⟩ : ∃ rest, Event.replies
        (({ s with flight? := none }.answerProvenance flight.pass flight.plan reply).2 ++ later)
          = reply :: rest := ⟨_, rfl⟩
    have hfinish : s.finish flight (reply :: rest)
        = { s with flight? := none }.answerProvenance flight.pass flight.plan reply := by
      simp only [finish, hstage]
    dsimp only
    rw [hrest, hfinish, finished_of_landed (flight_answerProvenance ..)]

/-- `opening` has no `replies`. -/
theorem replies_opening (s : Session) (pass : Pass) (later : List Event) :
    Event.replies (s.opening pass ++ later) = Event.replies later := by
  have hnoted : ∀ notices : List Notice, Event.replies (notices.map .noted ++ later)
      = Event.replies later := fun notices =>
    Event.replies_append (Event.conduct_noted notices) later
  exact hnoted _

/-- `perform` has the `gist` of `start`, finished with what comes later. -/
theorem gist_perform_replies (s : Session) (pass : Pass) (later : List Event) :
    (s.perform pass (Event.replies ((s.start pass).2 ++ later))).gist
      = ((s.start pass).finished (Event.replies later)).gist := by
  rw [start_eq, finished_after, perform, Progress.snd_after, List.append_assoc, replies_opening]
  refine Progress.gist_after ?_ _
  -- only a pass that is due has lookups to be scripted
  cases (s.tracker.intake pass.trigger).2 with
  | outdated => rw [finished_of_landed rfl]; rfl
  | skipped => rw [finished_of_landed rfl]; rfl
  | due =>
    simp only [proceed]
    cases (s.took pass).tracker.plan? (s.took pass).engine.head with
    | none => rw [finished_of_landed rfl]
    | some plan => exact gist_checkSignalWith (s.took pass) pass plan later

/-- `perform` has the same `gist` in sessions of one `core`. -/
theorem gist_perform_of_core {s t : Session} (h : t.core = s.core) (pass : Pass)
    (script : List Reply) : (t.perform pass script).gist = (s.perform pass script).gist := by
  have htracker : t.core.tracker = s.core.tracker := by rw [h]
  have htracker : t.tracker = s.tracker := htracker
  have hengine : t.core.engine = s.core.engine := by rw [h]
  have hengine : t.engine = s.engine := hengine
  have htook : (t.took pass).core = (s.took pass).core := by
    show { t.core with tracker := (t.tracker.intake pass.trigger).1 } = _
    rw [h, htracker]
    rfl
  have hopening : t.opening pass = s.opening pass := by rw [opening, opening, htracker]
  have hplan : (t.took pass).tracker.plan? (t.took pass).engine.head
      = (s.took pass).tracker.plan? (s.took pass).engine.head := by
    show (t.tracker.intake pass.trigger).1.plan? t.engine.head = _
    rw [htracker, hengine]
    rfl
  -- the tracker and the engine are all that the opening and the plan are made from
  rw [perform, perform, hopening, htracker]
  refine Progress.gist_after ?_ _
  cases (s.tracker.intake pass.trigger).2 with
  | outdated => exact (follows_close _).gist_eq htook
  | skipped => exact (follows_close _).gist_eq htook
  | due =>
    simp only [proceed, hplan]
    cases (s.took pass).tracker.plan? (s.took pass).engine.head with
    | none => exact (follows_close _).gist_eq htook
    | some plan => exact (follows_checkSignalWith script).gist_eq htook

end Session

end Settlement
