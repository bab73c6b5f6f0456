import Mathlib.Data.List.Basic
import Settlement.Proofs.Session.Play
import Settlement.Proofs.Session.Script

/-!
# One pass at a time

A gate lets one pass in at a time, in the order of calling; while it is inside, a pass begins at
most two lookups, one after the other, and it commits after both at the earliest. `Gate.Next` says
which events can follow at a gate, and `Gate.Through` which series of events. Recording, resetting
and all else that is no pass's doing does not mind the gate.

Every play keeps to this, and where the gate is at any moment can be seen from the session.

## Key results

- `through_play`: the events of every play go through the gate of the session
- `begun_act`, `calls_act`, `begun_advance`: who goes in and who joins the line at a move
- `Gate.Through.line_eq`: passes go in as they joined the line
- `Gate.Through.begun_eq`: who went in has come out again, or is inside
- `Gate.Through.heights_eq`: heights are asked for pass by pass
-/

namespace Settlement

/-! ## Passes among events -/

namespace Event

/-- The passes called for, in order. -/
def calls (events : List Event) : List Pass :=
  events.filterMap fun
    | .called pass => some pass
    | _ => none

/-- The passes that started, in order. -/
def begun (events : List Event) : List Pass :=
  events.filterMap fun
    | .started pass _ => some pass
    | _ => none

/-- The passes that ended, in order. -/
def finished (events : List Event) : List Pass := (endings events).map Prod.fst

/-- The heights that a pass asked for, in order. -/
def askedBy (number : Nat) (events : List Event) : List Number :=
  events.filterMap fun
    | .asked pass height => if pass = number then some height else none
    | _ => none

/-- The lookups that are awaited after an event, each with its pass. -/
def await (awaited : List (Nat × Number)) : Event → List (Nat × Number)
  | .asked pass height => awaited ++ [(pass, height)]
  | .answered pass _ _ => awaited.filter (·.1 ≠ pass)
  | _ => awaited

/-- The lookups that were `asked` for and are not `answered`, each with its pass. -/
def awaited (events : List Event) : List (Nat × Number) := events.foldl await []

/-- The event is no pass's doing. -/
def isAside : Event → Bool
  | .recorded .. | .forgotten | .cancelled .. | .moved .. | .noted .. => true
  | _ => false

/-- `isAside` excludes everything that the gate counts. -/
theorem unseen_of_isAside {e : Event} (h : e.isAside = true) :
    calls [e] = [] ∧ begun [e] = [] ∧ finished [e] = [] ∧ heights [e] = [] ∧
    (∀ number, askedBy number [e] = []) ∧ ∀ awaited, await awaited e = awaited := by
  cases e <;> simp_all [isAside, calls, begun, finished, endings, heights, askedBy, await]

theorem calls_cons (e : Event) (es : List Event) : calls (e :: es) = calls [e] ++ calls es :=
  List.filterMap_append (l := [e])

theorem begun_cons (e : Event) (es : List Event) : begun (e :: es) = begun [e] ++ begun es :=
  List.filterMap_append (l := [e])

theorem finished_cons (e : Event) (es : List Event) :
    finished (e :: es) = finished [e] ++ finished es := by
  cases e <;> rfl

theorem heights_cons (e : Event) (es : List Event) :
    heights (e :: es) = heights [e] ++ heights es :=
  List.filterMap_append (l := [e])

theorem askedBy_cons (number : Nat) (e : Event) (es : List Event) :
    askedBy number (e :: es) = askedBy number [e] ++ askedBy number es :=
  List.filterMap_append (l := [e])

/-- `askedBy` counts what the pass itself asks for. -/
theorem askedBy_asked_self (number : Nat) (height : Number) (es : List Event) :
    askedBy number (.asked number height :: es) = height :: askedBy number es := by
  simp [askedBy]

/-- `askedBy` does not count what another pass asks for. -/
theorem askedBy_asked_of_ne {pass number : Nat} (h : pass ≠ number) (height : Number)
    (es : List Event) : askedBy number (.asked pass height :: es) = askedBy number es := by
  simp [askedBy, h]

end Event

/-! ## Gates -/

/-- A pass inside a gate, with the number of lookups that it has begun. -/
structure Visit where
  pass : Pass
  /-- How many lookups the pass has begun. -/
  lookups : Nat
  /-- Whether the last of them is not answered yet. -/
  waits : Bool

/-- The passes in line, and the one that is inside. -/
structure Gate where
  /-- The passes in line. -/
  line : List Pass
  inside? : Option Visit
  /-- The number of the next pass to join the line. -/
  called : Nat

namespace Gate

/-- The events that can happen at a gate, each with the gate after it. -/
inductive Next : Gate → Event → Gate → Prop
  | joins (g : Gate) (pass : Pass) (h : pass.number = g.called) :
      Next g (.called pass) { g with line := g.line ++ [pass], called := g.called + 1 }
  | enters (pass : Pass) (line : List Pass) (called : Nat) (intake : Intake) :
      Next ⟨pass :: line, none, called⟩ (.started pass intake) ⟨line, some ⟨pass, 0, false⟩, called⟩
  | asks {n : Nat} (hn : n < 2) (pass : Pass) (line : List Pass) (called : Nat) (height : Number) :
      Next ⟨line, some ⟨pass, n, false⟩, called⟩ (.asked pass.number height)
        ⟨line, some ⟨pass, n + 1, true⟩, called⟩
  | hears (n : Nat) (pass : Pass) (line : List Pass) (called : Nat) (height : Number)
      (reply : Reply) :
      Next ⟨line, some ⟨pass, n, true⟩, called⟩ (.answered pass.number height reply)
        ⟨line, some ⟨pass, n, false⟩, called⟩
  /-- A lookup is over before anything was asked for. -/
  | fails {n : Nat} (hn : n < 2) (pass : Pass) (line : List Pass) (called : Nat) (height : Number)
      (reply : Reply) :
      Next ⟨line, some ⟨pass, n, false⟩, called⟩ (.answered pass.number height reply)
        ⟨line, some ⟨pass, n + 1, false⟩, called⟩
  | commits (pass : Pass) (line : List Pass) (called : Nat) (block : L2Block) :
      Next ⟨line, some ⟨pass, 2, false⟩, called⟩ (.committed pass.number block)
        ⟨line, some ⟨pass, 2, false⟩, called⟩
  /-- A pass ends, in whichever way. -/
  | leaves (n : Nat) (pass : Pass) (line : List Pass) (called : Nat) (ending : Ending) :
      Next ⟨line, some ⟨pass, n, false⟩, called⟩ (.ended pass ending) ⟨line, none, called⟩
  | aside (g : Gate) {e : Event} (h : e.isAside = true) : Next g e g

/-- The series of events that can happen at a gate, each with the gate after it. -/
inductive Through : Gate → List Event → Gate → Prop
  | nil (g : Gate) : Through g [] g
  | cons {g g' g'' : Gate} {e : Event} {es : List Event} (next : Next g e g')
      (rest : Through g' es g'') : Through g (e :: es) g''

variable {g g' g'' : Gate} {e : Event} {es xs ys : List Event}

/-- `Next` is `Through` one event. -/
theorem Next.through (h : Next g e g') : Through g [e] g' := .cons h (.nil g')

/-- `Through` composes by `++`. -/
theorem Through.append (h : Through g xs g') (h' : Through g' ys g'') :
    Through g (xs ++ ys) g'' := by
  induction h with
  | nil g => exact h'
  | cons next rest ih => exact .cons next (ih h')

/-- `Through` splits at `++`. -/
theorem Through.split (h : Through g (xs ++ ys) g'') :
    ∃ g', Through g xs g' ∧ Through g' ys g'' := by
  induction xs generalizing g with
  | nil => exact ⟨g, .nil g, h⟩
  | cons e xs ih =>
    cases h with
    | cons next rest =>
      obtain ⟨g', hxs, hys⟩ := ih rest
      exact ⟨g', .cons next hxs, hys⟩

/-- `Through` leaves the gate where it is at events with `isAside`. -/
theorem through_aside (g : Gate) (h : ∀ e ∈ es, e.isAside = true) : Through g es g := by
  induction es with
  | nil => exact .nil g
  | cons e es ih =>
    exact .cons (.aside g (h e List.mem_cons_self)) (ih fun e he => h e (List.mem_cons_of_mem _ he))

/-- `Through` leaves the gate where it is at lines for the log. -/
theorem through_noted (g : Gate) (notices : List Notice) : Through g (notices.map .noted) g := by
  apply through_aside
  simp [Event.isAside]

/-! ### What went through -/

/-- The pass inside, if there is one. -/
def visitors (g : Gate) : List Pass := (g.inside?.map Visit.pass).toList

/-- The number of the pass inside, if that waits for a lookup. -/
def awaiting (g : Gate) : List Nat :=
  match g.inside? with
  | some ⟨pass, _, true⟩ => [pass.number]
  | _ => []

/-- `Next` takes the pass that it has `begun` from the front of the line, and puts the one that
`calls` at its end. -/
theorem Next.line_eq (h : Next g e g') :
    g.line ++ Event.calls [e] = Event.begun [e] ++ g'.line := by
  cases h with
  | aside g haside =>
    obtain ⟨hcalls, hbegun, -⟩ := Event.unseen_of_isAside haside
    simp [hcalls, hbegun]
  | _ => simp [Event.calls, Event.begun]

/-- `Through` has `begun` passes in the order of the line, and leaves the others in line. -/
theorem Through.line_eq (h : Through g es g') :
    g.line ++ Event.calls es = Event.begun es ++ g'.line := by
  induction h with
  | nil g => simp [Event.calls, Event.begun]
  | cons next rest ih =>
    rw [Event.calls_cons, Event.begun_cons, ← List.append_assoc, next.line_eq, List.append_assoc,
      ih, List.append_assoc]

/-- `Next` lets in the pass that has `begun` and lets out the one that has `finished`. -/
theorem Next.begun_eq (h : Next g e g') :
    g.visitors ++ Event.begun [e] = Event.finished [e] ++ g'.visitors := by
  cases h with
  | aside g haside =>
    obtain ⟨-, hbegun, hfinished, -⟩ := Event.unseen_of_isAside haside
    simp [hbegun, hfinished]
  | _ => simp [Event.begun, Event.finished, Event.endings, visitors]

/-- `Through` has `finished` passes in the order in which they have `begun`, but for the one
inside. -/
theorem Through.begun_eq (h : Through g es g') :
    g.visitors ++ Event.begun es = Event.finished es ++ g'.visitors := by
  induction h with
  | nil g => simp [Event.begun, Event.finished, Event.endings]
  | cons next rest ih =>
    rw [Event.begun_cons, Event.finished_cons, ← List.append_assoc, next.begun_eq,
      List.append_assoc, ih, List.append_assoc]

/-- `Next` numbers the pass that `calls` by the count of the gate. -/
theorem Next.numbers_eq (h : Next g e g') :
    (Event.calls [e]).map Pass.number = List.range' g.called (Event.calls [e]).length ∧
    g'.called = g.called + (Event.calls [e]).length := by
  cases h with
  | aside g haside =>
    obtain ⟨hcalls, -⟩ := Event.unseen_of_isAside haside
    simp [hcalls]
  | joins g pass hnumber => simp [Event.calls, hnumber]
  | _ => simp [Event.calls]

/-- `Through` numbers passes as they are called for. -/
theorem Through.numbers_eq (h : Through g es g') :
    (Event.calls es).map Pass.number = List.range' g.called (Event.calls es).length ∧
    g'.called = g.called + (Event.calls es).length := by
  -- over the events; each call takes the next number
  induction h with
  | nil g => simp [Event.calls]
  | cons next rest ih =>
    obtain ⟨hnumbers, hcalled⟩ := next.numbers_eq
    obtain ⟨hrest, hcalled'⟩ := ih
    rw [Event.calls_cons, List.map_append, hnumbers, hrest, hcalled', hcalled, List.length_append,
      List.range'_append_1, Nat.add_assoc]
    exact ⟨rfl, rfl⟩

/-- `Next` keeps what is awaited at what the pass inside waits for. -/
theorem Next.awaited_eq (h : Next g e g') {awaited : List (Nat × Number)}
    (hawaited : awaited.map Prod.fst = g.awaiting) :
    (Event.await awaited e).map Prod.fst = g'.awaiting := by
  cases h with
  | aside g haside =>
    obtain ⟨-, -, -, -, -, hawait⟩ := Event.unseen_of_isAside haside
    rwa [hawait]
  | asks hn pass => simp_all [Event.await, awaiting]
  | hears n pass =>
    -- the one lookup awaited is that of this pass
    obtain ⟨⟨number, height⟩, rfl, hnumber⟩ := List.map_eq_singleton_iff.mp hawaited
    simp_all [Event.await, awaiting]
  | fails hn pass => simp_all [Event.await, awaiting]
  | _ => exact hawaited

/-- `Through` keeps what is awaited at what the pass inside waits for. -/
theorem Through.awaited_eq (h : Through g es g') {awaited : List (Nat × Number)}
    (hawaited : awaited.map Prod.fst = g.awaiting) :
    (es.foldl Event.await awaited).map Prod.fst = g'.awaiting := by
  induction h generalizing awaited with
  | nil g => exact hawaited
  | cons next rest ih => exact ih (next.awaited_eq hawaited)

/-! ### Heights asked for -/

/-- `Next` lets nobody ask who is not inside. -/
theorem Next.askedBy_eq_nil (h : Next g e g') {number : Nat}
    (hnumber : number ∉ g.visitors.map Pass.number) : Event.askedBy number [e] = [] := by
  cases h with
  | aside g haside => exact (Event.unseen_of_isAside haside).2.2.2.2.1 number
  | asks hn pass =>
    have hne : pass.number ≠ number := by
      rintro rfl
      exact hnumber (by simp [visitors])
    simp [Event.askedBy, hne]
  | _ => rfl

/-- `Through` lets nobody ask who is not inside and does not go in. -/
theorem Through.askedBy_eq_nil (h : Through g es g') {number : Nat}
    (hnumber : number ∉ (g.visitors ++ Event.begun es).map Pass.number) :
    Event.askedBy number es = [] := by
  induction h with
  | nil g => rfl
  | @cons g g' g'' e es next rest ih =>
    have hinside : number ∉ g.visitors.map Pass.number := fun hmem =>
      hnumber (by rw [List.map_append]; exact List.mem_append_left _ hmem)
    -- nobody is inside later who was not inside or went in
    rw [Event.begun_cons, ← List.append_assoc, next.begun_eq, List.append_assoc, List.map_append,
      List.mem_append, not_or] at hnumber
    rw [Event.askedBy_cons, next.askedBy_eq_nil hinside, ih hnumber.2, List.append_nil]

/-- `Through` has the `heights` pass by pass, in the order in which these have `begun`. -/
theorem Through.heights_eq (h : Through g es g')
    (hnodup : ((g.visitors ++ Event.begun es).map Pass.number).Nodup) :
    Event.heights es
      = (g.visitors ++ Event.begun es).flatMap fun pass => Event.askedBy pass.number es := by
  -- the passes are distinct, so that what one asks for counts for no other
  induction h with
  | nil g => simp [Event.heights, Event.askedBy]
  | @cons g g' g'' e es next rest ih =>
    cases next with
    | aside g haside =>
      obtain ⟨-, hbegun, -, hheights, hasked, -⟩ := Event.unseen_of_isAside haside
      simp only [Event.begun_cons, Event.heights_cons, Event.askedBy_cons, hbegun, hheights, hasked,
        List.nil_append] at hnodup ⊢
      exact ih hnodup
    | asks hn pass line called height =>
      have hnot : pass.number ∉ (Event.begun es).map Pass.number := (List.nodup_cons.mp hnodup).1
      -- the height is one more of this pass, and none of the passes to come
      have hothers : ∀ other ∈ Event.begun es,
          Event.askedBy other.number (.asked pass.number height :: es)
            = Event.askedBy other.number es := by
        intro other hother
        have hne : pass.number ≠ other.number := fun heq =>
          hnot (List.mem_map.mpr ⟨other, hother, heq.symm⟩)
        exact Event.askedBy_asked_of_ne hne height es
      have hrest : Event.heights es = Event.askedBy pass.number es
          ++ (Event.begun es).flatMap fun other => Event.askedBy other.number es := ih hnodup
      show height :: Event.heights es
        = Event.askedBy pass.number (.asked pass.number height :: es)
          ++ (Event.begun es).flatMap fun other =>
            Event.askedBy other.number (.asked pass.number height :: es)
      rw [Event.askedBy_asked_self, List.flatMap_congr hothers, hrest, List.cons_append]
    | leaves n pass line called ending =>
      -- a pass that is out asks for nothing more
      have hown : Event.askedBy pass.number es = [] :=
        rest.askedBy_eq_nil (List.nodup_cons.mp hnodup).1
      have hrest : Event.heights es = (Event.begun es).flatMap fun other =>
          Event.askedBy other.number es := ih (List.nodup_cons.mp hnodup).2
      show Event.heights es = Event.askedBy pass.number es ++ _
      rw [hown, hrest]
      rfl
    | _ => exact ih hnodup

/-- `Through` leaves the pass inside the rest of its two lookups. -/
theorem Through.length_askedBy_le (h : Through g es g') {pass : Pass} {n : Nat} {waits : Bool}
    (hinside : g.inside? = some ⟨pass, n, waits⟩) (hn : n ≤ 2)
    (hnot : pass.number ∉ (Event.begun es).map Pass.number) :
    (Event.askedBy pass.number es).length + n ≤ 2 := by
  induction h generalizing n waits with
  | nil g => simpa [Event.askedBy] using hn
  | @cons g g' g'' e es next rest ih =>
    cases next with
    | aside g haside =>
      obtain ⟨-, hbegun, -, -, hasked, -⟩ := Event.unseen_of_isAside haside
      rw [Event.begun_cons, hbegun] at hnot
      rw [Event.askedBy_cons, hasked]
      exact ih hinside hn hnot
    | joins g pass hnumber => exact ih hinside hn hnot
    -- nobody else goes in
    | enters pass line called intake => exact nomatch hinside
    | asks hlt pass line called height =>
      obtain ⟨rfl, rfl, rfl⟩ := Visit.mk.inj (Option.some.inj hinside)
      have hrest := ih rfl hlt hnot
      rw [Event.askedBy_asked_self, List.length_cons]
      omega
    | hears n pass line called height reply =>
      obtain ⟨rfl, rfl, rfl⟩ := Visit.mk.inj (Option.some.inj hinside)
      exact ih rfl hn hnot
    | fails hlt pass line called height reply =>
      obtain ⟨rfl, rfl, rfl⟩ := Visit.mk.inj (Option.some.inj hinside)
      have hrest := ih rfl hlt hnot
      show (Event.askedBy pass.number es).length + _ ≤ 2
      omega
    | commits pass line called block =>
      obtain ⟨rfl, rfl, rfl⟩ := Visit.mk.inj (Option.some.inj hinside)
      exact ih rfl hn hnot
    | leaves n pass line called ending =>
      obtain ⟨rfl, rfl, rfl⟩ := Visit.mk.inj (Option.some.inj hinside)
      have hown : Event.askedBy pass.number es = [] := rest.askedBy_eq_nil hnot
      show (Event.askedBy pass.number es).length + _ ≤ 2
      rw [hown]
      simpa using hn

/-- `Through` has at most two heights asked for by each pass that has `begun`. -/
theorem Through.askedBy_le_two (h : Through g es g')
    (hnodup : ((g.visitors ++ Event.begun es).map Pass.number).Nodup) {pass : Pass}
    (hpass : pass ∈ Event.begun es) : (Event.askedBy pass.number es).length ≤ 2 := by
  -- over the events at the gate; the counter of the visitor bounds its lookups
  induction h with
  | nil g => exact absurd hpass List.not_mem_nil
  | @cons g g' g'' e es next rest ih =>
    cases next with
    | aside g haside =>
      obtain ⟨-, hbegun, -, -, hasked, -⟩ := Event.unseen_of_isAside haside
      rw [Event.begun_cons, hbegun] at hnodup hpass
      rw [Event.askedBy_cons, hasked]
      exact ih hnodup hpass
    | enters first line called intake =>
      rcases List.mem_cons.mp hpass with rfl | hpass
      · exact rest.length_askedBy_le rfl (Nat.zero_le 2) (List.nodup_cons.mp hnodup).1
      · exact ih hnodup hpass
    -- whoever asks is inside, and so is not one that begins later
    | asks hlt inside line called height =>
      have hne : inside.number ≠ pass.number := fun heq =>
        (List.nodup_cons.mp hnodup).1 (List.mem_map.mpr ⟨pass, hpass, heq.symm⟩)
      rw [Event.askedBy_asked_of_ne hne]
      exact ih hnodup hpass
    | leaves n inside line called ending => exact ih (List.nodup_cons.mp hnodup).2 hpass
    | _ => exact ih hnodup hpass

end Gate

/-! ## Sessions as gates -/

/-- The number of lookups that a pass has begun when it waits at the stage. -/
def Stage.count : Stage → Nat
  | .signal => 1
  | .provenance => 2

namespace Session

/-- The gate of a session, with the pass in flight inside. -/
def gate (s : Session) : Gate where
  line := s.waiting
  inside? := s.flight?.map fun flight => ⟨flight.pass, flight.stage.count, true⟩
  called := s.called

/-- The gate of a session with this pass inside. -/
def gateWith (s : Session) (pass : Pass) (lookups : Nat) (waits : Bool) : Gate :=
  ⟨s.waiting, some ⟨pass, lookups, waits⟩, s.called⟩

/-- The events are `Through` the gate, which then is that of the session. -/
def Admits (g : Gate) (p : Progress) : Prop := g.Through p.2 p.1.gate

variable {s : Session} {pass : Pass} {plan : Plan} {g g' : Gate} {p : Progress} {n : Nat}

/-- `Admits` extends to the front by what goes `Through`. -/
theorem Admits.after {events : List Event} (h : Admits g' p) (hevents : g.Through events g') :
    Admits g (.after events p) := hevents.append h

/-! ### Legs -/

/-- `close` is admitted after any number of lookups. -/
theorem admits_close (s : Session) (pass : Pass) (n : Nat) (ending : Ending) :
    Admits (s.gateWith pass n false) (s.close pass ending) :=
  (Gate.through_noted _ _).append (Gate.Next.leaves ..).through

/-- `commit` is admitted after two lookups. -/
theorem admits_commit (s : Session) (pass : Pass) (plan : Plan) :
    Admits (s.gateWith pass 2 false) (s.commit pass plan) := by
  have hsettles := commit_settles s pass plan
  generalize s.commit pass plan = p at hsettles ⊢
  cases hsettles with
  | discards overtaken => exact (admits_close ..).after (Gate.through_noted _ [_])
  | reached current reached => exact admits_close ..
  | refused current higher refusal => exact admits_close ..
  | takes current higher refusal =>
    let committed := { s with engine := s.engine.commit plan.candidate }
    have hclose : Admits (s.gateWith pass 2 false) (committed.close pass (.judged .ok)) :=
      admits_close committed pass 2 _
    exact hclose.after (.cons (.commits ..) (Gate.through_noted _ [_]))

/-- `answer` is admitted if the reply is, and what follows it. -/
theorem admits_answer {stage : Stage} {reply : Reply} {passed : Session → Progress}
    (hnext : ∀ height, g.Next (.answered pass.number height reply) (s.gateWith pass n false))
    (hpassed : Admits (s.gateWith pass n false) (passed s)) :
    Admits g (s.answer pass plan stage reply passed) := by
  unfold answer
  refine Admits.after ?_ (hnext _).through
  split
  · exact hpassed
  · exact admits_close ..
  · exact admits_close ..

/-- `consult` is admitted as one lookup more, if what follows any reply is. -/
theorem admits_consult {stage : Stage} {goOn : Session → Reply → Progress} (hn : n < 2)
    (hstage : stage.count = n + 1)
    (hgo : ∀ g reply,
      (∀ height, g.Next (.answered pass.number height reply) (s.gateWith pass (n + 1) false)) →
      Admits g (goOn s reply)) :
    Admits (s.gateWith pass n false) (s.consult pass plan stage goOn) := by
  unfold consult
  cases s.reason? pass with
  | some reason => exact admits_close ..
  | none =>
    unfold ask
    dsimp only
    cases s.source.address (plan.expected stage).number with
    | error fault => exact hgo _ _ fun height => .fails hn ..
    | ok height =>
      have hasks : (s.gateWith pass n false).Through [.asked pass.number height]
          (s.gateWith pass (n + 1) true) := (Gate.Next.asks hn ..).through
      dsimp only
      cases s.node.immediate? height with
      | some reply => exact (hgo _ _ fun height => .hears ..).after hasks
      | none =>
        -- the pass waits inside, as the session shows
        show (s.gateWith pass n false).Through _
          ⟨s.waiting, some ⟨pass, stage.count, true⟩, s.called⟩
        rw [hstage]
        exact hasks

/-- `answerProvenance` is admitted after two lookups. -/
theorem admits_answerProvenance {reply : Reply}
    (hnext : ∀ height, g.Next (.answered pass.number height reply) (s.gateWith pass 2 false)) :
    Admits g (s.answerProvenance pass plan reply) :=
  admits_answer hnext (admits_commit ..)

/-- `answerSignal` is admitted after one lookup. -/
theorem admits_answerSignal {reply : Reply}
    (hnext : ∀ height, g.Next (.answered pass.number height reply) (s.gateWith pass 1 false)) :
    Admits g (s.answerSignal pass plan reply) := by
  apply admits_answer hnext
  exact admits_consult (by omega) rfl fun _ _ hnext => admits_answerProvenance hnext

/-- `checkSignal` is admitted after no lookup. -/
theorem admits_checkSignal (s : Session) (pass : Pass) (plan : Plan) :
    Admits (s.gateWith pass 0 false) (s.checkSignal pass plan) :=
  admits_consult (by omega) rfl fun _ _ hnext => admits_answerSignal hnext

/-! ### Moves -/

/-- `start` is admitted for the first pass in line. -/
theorem admits_start {rest : List Pass} (hf : s.flight? = none) (hw : s.waiting = pass :: rest) :
    Admits s.gate ({ s with waiting := rest }.start pass) := by
  rw [start_eq]
  let s' := { s with waiting := rest }.took pass
  have hgate : s.gate = ⟨pass :: rest, none, s.called⟩ := by rw [gate, hf, hw]; rfl
  -- the next in line goes in
  have hopening : s.gate.Through ({ s with waiting := rest }.opening pass)
      (s'.gateWith pass 0 false) := by
    rw [hgate]
    exact .cons (.enters ..) (Gate.through_noted ..)
  refine Admits.after ?_ hopening
  -- it comes out at once, or stays for its lookups
  rcases proceed_cases s' pass (s'.checkSignal pass) (s.tracker.intake pass.trigger).2 with
    ⟨ending, heq⟩ | ⟨plan, -, -, heq⟩
  · exact heq ▸ admits_close s' pass 0 ending
  · exact heq ▸ admits_checkSignal s' pass plan

/-- `resume` is admitted for the pass in flight. -/
theorem admits_resume {flight : Flight} (hf : s.flight? = some flight) (reply : Reply) :
    Admits s.gate (s.resume flight reply) := by
  have hgate : s.gate = s.gateWith flight.pass flight.stage.count true := by
    rw [gate, hf]
    rfl
  rw [hgate]
  unfold resume
  cases flight.stage with
  | signal => exact admits_answerSignal fun height => .hears ..
  | provenance => exact admits_answerProvenance fun height => .hears ..

/-- `advance` is admitted. -/
theorem admits_advance (s : Session) : Admits s.gate s.advance := by
  cases hf : s.flight? with
  | some flight =>
    cases hr : flight.reply? with
    | some reply => exact advance_resume hf hr ▸ admits_resume hf reply
    | none => exact advance_wait hf hr ▸ .nil _
  | none =>
    cases hw : s.waiting with
    | cons pass rest => exact advance_start hf hw ▸ admits_start hf hw
    | nil => exact advance_idle hf hw ▸ .nil _

/-- `act` changes the gate by the pass that it calls for. -/
theorem gate_act (s : Session) (action : Action) :
    (s.act action).1.gate =
      { s.gate with
        line := s.waiting ++ (action.pass? s.called).toList
        called := s.called + (action.pass? s.called).toList.length } := by
  have hacted := acted s action
  obtain ⟨reply?, hflight⟩ := hacted.flight
  rw [gate, hacted.waiting, hacted.called, hflight, Option.map_map]
  rfl

/-- `act` has events with `isAside` only, if it calls for no pass. -/
theorem isAside_act (s : Session) {action : Action} (h : action.pass? s.called = none) :
    ∀ e ∈ (s.act action).2, e.isAside = true := by
  -- a call is the one action that the gate sees
  cases action with
  | call label trigger token? => exact nomatch h
  | record l2 l1 => simp [act, record, Event.isAside]
  | cancel token reason =>
    have hcancel : (s.act (.cancel token reason)).2 = (s.cancel token reason).2 := rfl
    obtain ⟨cancelled, events, reply?, heq, rfl | rfl⟩ := exists_cancel_eq s token reason
    · simp [hcancel, heq]
    · simp [hcancel, heq, Event.isAside]
  | _ => simp [act, Event.isAside]

/-- `act` is admitted. -/
theorem admits_act (s : Session) (action : Action) : Admits s.gate (s.act action) := by
  have hgate := gate_act s action
  -- nobody joins the line, or a pass that is called for
  cases hpass : action.pass? s.called with
  | none =>
    have hsame : (s.act action).1.gate = s.gate := by
      rw [hgate, hpass]
      simp [gate]
    rw [Admits, hsame]
    exact Gate.through_aside _ (isAside_act s hpass)
  | some pass =>
    cases action with
    | call label trigger token? =>
      rw [Admits, hgate]
      exact (Gate.Next.joins s.gate _ rfl).through
    | _ => exact nomatch hpass

/-- `act` lets no pass in. -/
theorem begun_act (s : Session) (action : Action) : Event.begun (s.act action).2 = [] := by
  -- neither a pass that is called for nor anything else starts one
  cases hpass : action.pass? s.called with
  | some pass =>
    cases action with
    | call label trigger token? => rfl
    | _ => exact nomatch hpass
  | none =>
    apply List.filterMap_eq_nil_iff.mpr
    intro e he
    have haside := isAside_act s hpass e he
    cases e <;> simp_all [Event.isAside]

/-- `act` has the pass that it calls for join the line, and no other. -/
theorem calls_act (s : Session) (action : Action) :
    Event.calls (s.act action).2 = (action.pass? s.called).toList := by
  have hadmits : s.gate.Through (s.act action).2 (s.act action).1.gate := admits_act s action
  have hline := hadmits.line_eq
  rw [begun_act, gate_act] at hline
  exact List.append_cancel_left hline

/-- `advance` takes the passes that have `begun` from the line, and none joins it. -/
theorem begun_advance (s : Session) :
    Event.calls s.advance.2 = [] ∧ s.waiting = Event.begun s.advance.2 ++ s.advance.1.waiting := by
  have hadmits : s.gate.Through s.advance.2 s.advance.1.gate := admits_advance s
  have hcalled : s.advance.1.called = s.called + (Event.calls s.advance.2).length :=
    hadmits.numbers_eq.2
  rw [(advanced s).kept.2.2.2] at hcalled
  -- the count of calls stays, so nobody was called for
  have hcalls : Event.calls s.advance.2 = [] := List.length_eq_zero_iff.mp (by omega)
  have hline := hadmits.line_eq
  rw [hcalls, List.append_nil] at hline
  exact ⟨hcalls, hline⟩

/-- `play` goes `Through` the gate of the session, to the gate of the session that it leads to. -/
theorem through_play (s : Session) (moves : List Move) :
    s.gate.Through (s.play moves).2 (s.play moves).1.gate := by
  -- over the moves, each admitted at the gate that the one before it left
  induction moves generalizing s with
  | nil => exact .nil _
  | cons m moves ih =>
    have hmove : Admits s.gate (s.move m) := by
      cases m with
      | act action => exact admits_act s action
      | advance => exact admits_advance s
    exact hmove.append (ih (s.move m).1)

end Session

end Settlement
