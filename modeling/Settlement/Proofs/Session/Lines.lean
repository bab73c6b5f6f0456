import Settlement.Proofs.Decision

/-!
# Lines for the log

The lines of a move. Recording has a line about the newest link, unless nothing has changed, and
nothing else that somebody does has any. When the session advances, the trigger that is taken in has
its line, and then the pass has one (`Tells`): none as long as it waits, and one at most when it
ends.

Lines are of six kinds, and a level and a message tell them apart (`LineKind.tells`).

## Key results

- `LineKind.tells_eq`: the kind of a line is told by its level and message
- `notices_act`: the lines of an action
- `notices_advance`: the lines of a session that advances
-/

namespace Settlement

namespace Event

@[simp] theorem notices_append (xs ys : List Event) :
    notices (xs ++ ys) = notices xs ++ notices ys := List.filterMap_append

/-- `notices` of lines for the log are these lines. -/
@[simp] theorem notices_noted (lines : List Notice) : notices (lines.map .noted) = lines := by
  induction lines with
  | nil => rfl
  | cons line lines ih => exact congrArg (line :: ·) ih

end Event

/-! ## Kinds of lines -/

/-- The kinds of lines. -/
inductive LineKind where
  | linked
  | outdated
  | processing
  | finalized
  | discarded
  | failed
  deriving DecidableEq

namespace Notice

/-- The kind of a line. -/
def kind : Notice → LineKind
  | .extended _ | .updated _ => .linked
  | .outdated _ _ => .outdated
  | .processing _ _ _ => .processing
  | .finalized _ _ _ => .finalized
  | .discarded _ => .discarded
  | .failed _ _ => .failed

/-- The line has this level and this message. -/
def reads (level : Level) (message : String) (n : Notice) : Bool :=
  n.level == level && n.message == message

end Notice

/-- The line is of the kind, as told by its level and its message. -/
def LineKind.tells : LineKind → Notice → Bool
  | .linked, n =>
    n.reads .debug "Extended finality data" || n.reads .debug "Updated finality data"
  | .outdated, n => n.level == .error
  | .processing, n => n.reads .info "Processing L1 finality information"
  | .finalized, n => n.reads .info "Finalized L2 chain"
  | .discarded, n =>
    n.reads .debug "Discarding finalization pass, provenance was reset while verifying"
  | .failed, n => n.level == .warn

/-- `tells` decides the `kind`. -/
theorem LineKind.tells_eq (kind : LineKind) (n : Notice) : kind.tells n = (n.kind == kind) := by
  cases kind <;> cases n <;> rfl

/-- `tells` keeps all of the lines of one kind, or none. -/
theorem LineKind.filter_tells {lines : List Notice} {k : LineKind} (h : ∀ n ∈ lines, n.kind = k)
    (kind : LineKind) : lines.filter kind.tells = if k = kind then lines else [] := by
  split
  · rename_i heq
    exact List.filter_eq_self.mpr fun n hmem => by rw [tells_eq, h n hmem, heq, beq_self_eq_true]
  · rename_i hne
    refine List.filter_eq_nil_iff.mpr fun n hmem => ?_
    rw [tells_eq, h n hmem, beq_eq_false_iff_ne.mpr hne]
    exact Bool.false_ne_true

/-- The lines of a kind. -/
def Event.lines (kind : LineKind) (events : List Event) : List Notice :=
  (notices events).filter kind.tells

/-- `lines` distributes over `++`. -/
theorem Event.lines_append (kind : LineKind) (xs ys : List Event) :
    lines kind (xs ++ ys) = lines kind xs ++ lines kind ys := by
  rw [lines, notices_append, List.filter_append]
  rfl

namespace Session

variable {s : Session} {pass : Pass} {plan : Plan} {p : Progress}

/-! ## Acting -/

/-- The lines of an action. -/
def actionLines (s : Session) : Action → List Notice
  | .record l2 l1 => (s.tracker.record l2 l1).1.recordNotices (s.tracker.record l2 l1).2
  | _ => []

/-- `act` notes the `actionLines`. -/
theorem notices_act (s : Session) (action : Action) :
    Event.notices (s.act action).2 = s.actionLines action := by
  -- only a record has a line; a cancellation is an event without one
  cases action with
  | record l2 l1 => exact Event.notices_noted _
  | cancel token reason =>
    obtain ⟨cancelled, events, reply?, heq, hevents⟩ := exists_cancel_eq s token reason
    have hact : s.act (.cancel token reason) = s.cancel token reason := rfl
    rw [hact, heq]
    rcases hevents with rfl | rfl <;> rfl
  | _ => rfl

/-! ## Opening and closing -/

/-- The lines of the opening of the pass that starts at a move, if one does. -/
def openingLines (s : Session) (m : Move) : List Notice :=
  match s.starting? m with
  | some pass => s.tracker.intakeNotices pass.trigger (s.tracker.intake pass.trigger).2
  | none => []

/-- `opening` notes the `intakeNotices` of the trigger. -/
theorem notices_opening (s : Session) (pass : Pass) :
    Event.notices (s.opening pass)
      = s.tracker.intakeNotices pass.trigger (s.tracker.intake pass.trigger).2 :=
  Event.notices_noted _

/-- `close` notes the `endNotices` of the ending as it is `logged`. -/
theorem notices_close (s : Session) (pass : Pass) (ending : Ending) :
    Event.notices (s.close pass ending).2 = pass.endNotices (s.logged pass ending) := by
  show Event.notices (_ ++ [_]) = _
  rw [Event.notices_append, Event.notices_noted]
  exact List.append_nil _

theorem Hears.notices_eq {stage : Stage} {reply : Reply} {heard : List Event}
    (h : Hears s pass plan stage reply heard) : Event.notices heard = [] := by
  cases h <;> rfl

theorem Hears.endings_eq {stage : Stage} {reply : Reply} {heard : List Event}
    (h : Hears s pass plan stage reply heard) : Event.endings heard = [] := by
  cases h <;> rfl

/-! ## Turns -/

/-- The lines, the endings and the commits of a `Turn`. -/
inductive Tells (generation : Nat) (pass : Pass) (plan : Plan) :
    List Notice → List (Pass × Ending) → List (Nat × L2Block) → Prop
  /-- The pass goes on. -/
  | silent : Tells generation pass plan [] [] []
  /-- The pass ends as it would have without a reset. -/
  | closes {ending : Ending} (current : ending = .judged .ok → generation = plan.generation) :
      Tells generation pass plan (pass.endNotices ending) [(pass, ending)] []
  /-- The pass was overtaken by a reset. -/
  | discards (overtaken : generation ≠ plan.generation) :
      Tells generation pass plan [.discarded plan.candidate.toBlockId] [(pass, .judged .ok)] []
  /-- The pass commits. -/
  | finalizes (current : generation = plan.generation) :
      Tells generation pass plan
        [.finalized plan.candidate.toBlockId plan.derivedFrom plan.signal.toBlockId]
        [(pass, .judged .ok)] [(pass.number, plan.candidate)]

/-- The lines, the endings and the commits of these events are such as it `Tells`. -/
def Speaks (s : Session) (pass : Pass) (plan : Plan) (events : List Event) : Prop :=
  Tells s.tracker.generation pass plan (Event.notices events) (Event.endings events)
    (Event.commitments events)

/-- `Speaks` extends to the front by events without any of them. -/
theorem Speaks.prepend {events before : List Event} (h : Speaks s pass plan events)
    (hnotices : Event.notices before = []) (hendings : Event.endings before = [])
    (hcommitments : Event.commitments before = []) : Speaks s pass plan (before ++ events) := by
  unfold Speaks
  rwa [Event.notices_append, Event.endings_append, Event.commitments_append, hnotices, hendings,
    hcommitments]

/-- `close` speaks of the ending, if a pass that is done was not overtaken. -/
theorem speaks_close {ending : Ending}
    (hcurrent : ending = .judged .ok → s.tracker.generation = plan.generation) :
    Speaks s pass plan (s.close pass ending).2 := by
  unfold Speaks
  rw [notices_close, endings_close, (quiet_close ..).1]
  refine .closes fun hok => hcurrent ?_
  rcases logged_cases s pass ending with heq | ⟨threshold, fault, -, -, heq⟩
  · exact heq.symm.trans hok
  · exact nomatch heq.symm.trans hok

/-- `commit` speaks. -/
theorem speaks_commit (s : Session) (pass : Pass) (plan : Plan) :
    Speaks s pass plan (s.commit pass plan).2 := by
  have hsettles := commit_settles s pass plan
  generalize s.commit pass plan = p at hsettles ⊢
  cases hsettles with
  | discards overtaken =>
    unfold Speaks
    rw [Progress.snd_after, close_ok]
    exact .discards overtaken
  | reached current reached => exact speaks_close fun _ => current
  | refused current higher refusal => exact speaks_close fun _ => current
  | takes current higher refusal =>
    unfold Speaks
    rw [Progress.snd_after, close_ok]
    exact .finalizes current

/-- A `Turn` speaks. -/
theorem Turn.speaks (h : Turn s pass plan p) : Speaks s pass plan p.2 := by
  -- over the turn, where hearing a reply has no line
  induction h with
  | waits free address held => exact .silent
  | cancelled cancelled => exact speaks_close nofun
  | @blocked stage reply heard obstacle hears check =>
    have hclose : Speaks s pass plan (s.close pass (.judged (.failed obstacle.failure))).2 :=
      speaks_close nofun
    exact hclose.prepend hears.notices_eq hears.endings_eq hears.commitments_eq
  | @broken stage reply heard fault hears check =>
    have hclose : Speaks s pass plan (s.close pass (.raised (.fault fault))).2 :=
      speaks_close nofun
    exact hclose.prepend hears.notices_eq hears.endings_eq hears.commitments_eq
  | passes hears check rest ih =>
    exact ih.prepend hears.notices_eq hears.endings_eq hears.commitments_eq
  | commits hears check =>
    exact (speaks_commit ..).prepend hears.notices_eq hears.endings_eq hears.commitments_eq

/-! ## Advancing -/

/-- The lines, the endings and the commits of `advance` behind the opening of a pass. -/
inductive Closing (s : Session) :
    List Notice → List (Pass × Ending) → List (Nat × L2Block) → Prop
  /-- A pass with a plan has its turn. -/
  | turns {pass : Pass} {plan : Plan} {lines : List Notice} {endings : List (Pass × Ending)}
      {commitments : List (Nat × L2Block)} (pursues : s.Pursues pass plan)
      (tells : Tells s.tracker.generation pass plan lines endings commitments) :
      Closing s lines endings commitments
  /-- Nobody has a turn, or a pass without a plan ends at once. -/
  | stays {endings : List (Pass × Ending)} (ends : ∀ pass ending, (pass, ending) ∈ endings →
      (ending = .outdated ∨ ending = .skipped ∨ ending = .judged .ok) ∧
        ∀ plan, ¬s.Pursues pass plan) :
      Closing s [] endings []

/-- `advance` notes the `openingLines` and then what is `Closing`. -/
theorem notices_advance (h : Served s) :
    ∃ lines, Event.notices s.advance.2 = s.openingLines .advance ++ lines ∧
      Closing s lines (Event.endings s.advance.2) (Event.commitments s.advance.2) := by
  unfold openingLines starting?
  cases hf : s.flight? with
  | some flight =>
    refine ⟨_, (List.nil_append _).symm, ?_⟩
    cases hr : flight.reply? with
    | none =>
      rw [advance_wait hf hr]
      exact .stays fun _ _ hmem => absurd hmem List.not_mem_nil
    | some reply =>
      have hpursues : s.Pursues flight.pass flight.plan := .inl ⟨flight, hf, rfl, rfl⟩
      have hspeaks : Speaks s flight.pass flight.plan (s.resume flight reply).2 :=
        (resume_turn (h flight reply hf hr)).speaks
      rw [advance_resume hf hr]
      exact .turns hpursues hspeaks
  | none =>
    cases hw : s.waiting with
    | nil =>
      rw [advance_idle hf hw]
      exact ⟨[], rfl, .stays fun _ _ hmem => absurd hmem List.not_mem_nil⟩
    | cons pass rest =>
      have hnext : s.waiting.head? = some pass := by rw [hw]; rfl
      obtain ⟨hquiet, -⟩ := quiet_opening s pass
      cases hplan : s.planFor? pass with
      | some plan =>
        obtain ⟨t, halike, -, -, hadvance⟩ := advance_of_planFor? hf hnext hplan
        have hspeaks := (checkSignal_turn t pass plan).speaks
        rw [Speaks, halike.generation] at hspeaks
        rw [hadvance, Progress.snd_after, Event.notices_append, notices_opening,
          Event.endings_append, endings_opening, Event.commitments_append, hquiet]
        exact ⟨_, rfl, .turns (.inr ⟨hf, hnext, hplan⟩) hspeaks⟩
      | none =>
        obtain ⟨t, given, -, hadvance, -⟩ := exists_close_of_planFor?_none hf hnext hplan
        have hends : Event.endings s.advance.2 = [(pass, t.logged pass given)] := by
          rw [hadvance, Progress.snd_after, Event.endings_append, endings_opening, endings_close]
          rfl
        have hnot : ∀ plan, ¬s.Pursues pass plan := by
          rintro plan (⟨flight, hsome, -⟩ | ⟨-, -, hsome⟩)
          · exact nomatch hf.symm.trans hsome
          · exact nomatch hplan.symm.trans hsome
        -- without a plan there are no grounds for a failure
        have hended : .ended pass (t.logged pass given) ∈ s.advance.2 :=
          Event.mem_endings.mp (hends ▸ List.mem_singleton.mpr rfl)
        rcases grounds_of_ended h hended with hending | ⟨plan, -, hpursues, -⟩
        · refine ⟨[], ?_, ?_⟩
          · have hsilent : pass.endNotices (t.logged pass given) = [] := by
              rcases hending with heq | heq | heq <;> rw [heq] <;> exact endNotices_eq nofun
            rw [hadvance, Progress.snd_after, Event.notices_append, notices_opening, notices_close,
              hsilent]
            rfl
          · have hnone : Event.commitments s.advance.2 = [] := by
              rw [hadvance, Progress.snd_after, Event.commitments_append, hquiet,
                (quiet_close ..).1]
              rfl
            rw [hnone, hends]
            refine .stays fun other ending hmem => ?_
            obtain ⟨rfl, rfl⟩ := Prod.mk.inj (List.mem_singleton.mp hmem)
            exact ⟨hending, hnot⟩
        · exact absurd hpursues (hnot plan)

/-- `Pursues` holds of one pass at most, with one plan. -/
theorem Pursues.unique {other : Pass} {plan' : Plan} (h : s.Pursues pass plan)
    (h' : s.Pursues other plan') : pass = other ∧ plan = plan' := by
  rcases h with ⟨flight, hf, rfl, rfl⟩ | ⟨hf, hnext, hplan⟩ <;>
    rcases h' with ⟨flight', hf', rfl, rfl⟩ | ⟨hf', hnext', hplan'⟩
  -- both are in flight, or both are next in line
  · obtain rfl := Option.some.inj (hf.symm.trans hf')
    exact ⟨rfl, rfl⟩
  · exact nomatch hf.symm.trans hf'
  · exact nomatch hf.symm.trans hf'
  · obtain rfl := Option.some.inj (hnext.symm.trans hnext')
    exact ⟨rfl, Option.some.inj (hplan.symm.trans hplan')⟩

end Session

end Settlement
