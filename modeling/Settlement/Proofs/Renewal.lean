import Settlement.Proofs.Cancellation
import Settlement.Proofs.Session.Renumbered
import Settlement.Proofs.Session.Told
import Settlement.Proofs.Throttle

/-!
# Beginning anew

A reset leaves nothing of what came before but the finality signal. From then on a session whose
passes have all ended does what a new one does, with the same engine and the same node, that has
been given this signal: step by step the same notices, lookups, results and state. Only the numbers
differ by which the two count passes and resets, and nothing depends on these.

A new tracker has to take the signal over as it is, though (`Header.Adoptable`). It finds a signal
below zero outdated, and one that equals the zero header no news.

## Key results

- `watch_renumbered`: the counts of passes and resets cannot be told from outside
- `reset_renews`: a session after a reset, and a new session that was given its signal
-/

namespace Settlement

/-- The signal is one that a tracker without any takes over as it is. -/
def Header.Adoptable (signal : Header) : Prop :=
  signal = .zero ∨ ¬signal.number < 0 ∧ signal.isZero = false

variable {resets passes : Nat}

/-- `sight` does not depend on the numbers of passes and resets. -/
theorem Progress.sight_renumbered (p : Progress) :
    (p.renumbered resets passes).sight = p.sight := by
  obtain ⟨s, events⟩ := p
  -- what is seen of an event does not depend on its number, event by event
  have hnotices : Event.notices (events.map (·.renumbered passes)) = Event.notices events := by
    simp only [Event.notices, List.filterMap_map]
    congr
    funext e
    cases e <;> rfl
  have hheights : Event.heights (events.map (·.renumbered passes)) = Event.heights events := by
    simp only [Event.heights, List.filterMap_map]
    congr
    funext e
    cases e <;> rfl
  have hended : (Event.endings (events.map (·.renumbered passes))).map
        (fun ended => (ended.1.label, ended.1.report ended.2))
      = (Event.endings events).map fun ended => (ended.1.label, ended.1.report ended.2) := by
    simp only [Event.endings, List.filterMap_map, List.map_filterMap]
    congr
    funext e
    cases e <;> rfl
  simp only [Progress.renumbered, sight, hnotices, hheights, hended]
  rfl

namespace Session

/-- `watch` does not depend on the numbers of passes and resets. -/
theorem watch_renumbered (s : Session) (steps : List (List Action)) :
    (s.renumbered resets passes).watch steps = s.watch steps := by
  induction steps generalizing s with
  | nil => rfl
  | cons actions steps ih =>
    simp only [watch, step_renumbered, Progress.sight_renumbered]
    exact congrArg _ (ih _)

end Session

/-! ## Taking over a signal -/

namespace Header

theorem same_comm (a b : Header) : a.same b = b.same a := by
  simp only [same, BlockId.same, Number.equal_comm, BEq.comm]

/-- The signal that a tracker without any is left with when it takes one in. -/
def adopted (signal : Header) : Header :=
  if signal.number < 0 ∨ signal.isZero then .zero else signal

/-- `adopted` is the signal itself exactly if it is `Adoptable`. -/
theorem adopted_eq_self_iff (signal : Header) : signal.adopted = signal ↔ signal.Adoptable := by
  unfold adopted Adoptable
  -- the zero header is adopted, or the signal is
  split
  · rename_i hzero
    constructor
    · intro heq
      exact .inl heq.symm
    · rintro (heq | ⟨hnumber, hno⟩)
      · exact heq.symm
      · simp [hno, hnumber] at hzero
  · rename_i hnone
    simp at hnone
    simp [hnone]

end Header

/-- `intake` of a signal into a new tracker leaves it with what is `adopted`. -/
theorem Tracker.intake_new (capacity : Nat) (delay : Number) (signal : Header) :
    (intake { delay, links := Ring.empty capacity } (.signal signal)).1
      = { delay, links := Ring.empty capacity, signal := signal.adopted } := by
  have hsame : Header.zero.same signal = signal.isZero := Header.same_comm ..
  have hnumber : Header.zero.number = 0 := rfl
  simp only [intake, adopt, Header.adopted, hsame, hnumber]
  by_cases hbelow : signal.number < 0
  · simp [hbelow]
  · cases hzero : signal.isZero <;> simp [hbelow]

namespace Session

variable {s : Session}

/-- A session that knows nothing but its signal, and has counted nothing. -/
def bare (s : Session) : Session :=
  { s with tracker := { s.tracker.reset with generation := 0 }, called := 0 }

/-- `step` with `reset` leaves a session without passes `bare`, but for its counts. -/
theorem step_reset (hf : s.flight? = none) (hw : s.waiting = []) :
    (s.step [.reset]).1 = s.bare.renumbered (s.tracker.generation + 1) s.called := by
  simp [step, actAll, act, settle, startAll, bare, renumbered, Tracker.renumbered, hf, hw,
    Tracker.reset]

/-- `settle` with a single pass in line starts it, and is done if it does not wait. -/
theorem settle_alone {pass : Pass} (hf : s.flight? = none) (hw : s.waiting = [pass])
    (hended : ({ s with waiting := [] }.start pass).1.flight? = none) :
    s.settle.1 = ({ s with waiting := [] }.start pass).1 := by
  rw [hf] at hended
  simp [settle, startAll, hf, hw, hended]

/-- `step` with a signal no more than takes it in where there is no link to finalize. -/
theorem step_signal (hf : s.flight? = none) (hw : s.waiting = [])
    (hlinks : s.tracker.links.toList = []) (label : String) (signal : Header)
    (token? : Option String) :
    (s.step [.call label (.signal signal) token?]).1
      = { s with tracker := (s.tracker.intake (.signal signal)).1, called := s.called + 1 } := by
  let pass : Pass := { number := s.called, label, trigger := .signal signal, token? }
  let called : Session := { s with flight? := none, waiting := [], called := s.called + 1 }
  let taken : Session := { called with tracker := (s.tracker.intake (.signal signal)).1 }
  have hplan : taken.tracker.plan? taken.engine.head = none := by
    simp [taken, Tracker.plan?, hlinks]
  have hstart : (called.start pass).1 = taken := by
    rw [start_eq, Progress.fst_after]
    rcases proceed_cases taken pass (taken.checkSignal pass)
      (s.tracker.intake pass.trigger).2 with ⟨ending, heq⟩ | ⟨plan, -, hsome, -⟩
    · -- the pass ends, with nobody behind it in line
      exact congrArg Prod.fst heq
    · rw [hplan] at hsome
      cases hsome
  have hcall : s.call label (.signal signal) token?
      = ({ called with waiting := [pass] }, [.called pass]) := by
    simp [call, called, pass, hf, hw]
  have hended : (called.start pass).1.flight? = none := by rw [hstart]
  have hsettle : ({ called with waiting := [pass] } : Session).settle.1 = taken :=
    (settle_alone rfl rfl hended).trans hstart
  simp [step, actAll, act, hcall, hsettle, taken, called, hf, hw]

/-! ## After a reset -/

variable {moves : List Move}

/-- A new session in the place of another one, with its engine and its node. -/
def renewed (s old : Session) : Session := { old with tracker := s.tracker, called := s.called }

/-- `step` of a `renewed` session with the signal of the old one leaves the old one `bare`, with the
signal as it is `adopted`. -/
theorem step_renewed (h : Fresh s) (hf : (s.play moves).1.flight? = none)
    (hw : (s.play moves).1.waiting = []) (label : String) (token? : Option String) :
    ((s.renewed (s.play moves).1).step
        [.call label (.signal (s.play moves).1.tracker.signal) token?]).1
      = { (s.play moves).1.bare with
          tracker := { (s.play moves).1.bare.tracker with
            signal := (s.play moves).1.tracker.signal.adopted }
          called := s.called + 1 } := by
  obtain ⟨sizing, hsizing⟩ := h.tracker
  obtain ⟨capacity, delay, -, htracker⟩ := Tracker.exists_empty_of_ofValue hsizing
  -- the size of the ring and the delay are those of the session at its start
  have hcapacity : (s.play moves).1.tracker.links.capacity = capacity := by
    rw [capacity_play, htracker]
    rfl
  have hdelay : (s.play moves).1.tracker.delay = delay := by
    rw [delay_play, htracker]
  generalize (s.play moves).1 = old at *
  have hlinks : (s.renewed old).tracker.links.toList = [] := by
    simp only [renewed, htracker]
    rfl
  -- without links the signal is just taken in
  have hstep := step_signal (s := s.renewed old) hf hw hlinks label old.tracker.signal token?
  rw [hstep]
  simp [renewed, htracker, Tracker.intake_new, bare, Tracker.reset, Ring.clear, hcapacity, hdelay]

/-- `watch` is the same for a session without passes that was reset, and for a new one with the same
engine and node that was given its signal, exactly if the signal is `Adoptable`. If it is not, the
signal itself tells them apart. -/
theorem reset_renews (h : Fresh s) (moves : List Move)
    (hf : (s.play moves).1.flight? = none) (hw : (s.play moves).1.waiting = [])
    (label : String) (token? : Option String) :
    (∀ steps, ((s.play moves).1.step [.reset]).1.watch steps
      = ((s.renewed (s.play moves).1).step
          [.call label (.signal (s.play moves).1.tracker.signal) token?]).1.watch steps) ↔
    (s.play moves).1.tracker.signal.Adoptable := by
  rw [step_renewed h hf hw, step_reset hf hw, ← Header.adopted_eq_self_iff]
  generalize (s.play moves).1 = old at *
  constructor
  · intro hsame
    -- a step in which nothing happens shows the signal
    have hstep := hsame [[]]
    simp only [watch_renumbered] at hstep
    have hsights := congrArg (List.map Sight.signal) hstep
    have hsignal : old.tracker.signal = old.tracker.signal.adopted := by
      simpa [watch, step, actAll, settle, startAll, bare, hf, hw, Progress.sight, Tracker.reset]
        using hsights
    exact hsignal.symm
  · intro hadopted steps
    have hrenewed : ({ old.bare with
          tracker := { old.bare.tracker with signal := old.tracker.signal.adopted }
          called := s.called + 1 } : Session) = old.bare.renumbered 0 (s.called + 1) := by
      simp [hadopted, bare, renumbered, Tracker.renumbered, Tracker.reset, hf, hw]
    rw [hrenewed, watch_renumbered, watch_renumbered]

/-- A pass is cancelled while it waits for a lookup over RPC, and a boundary fails after it. No
pass is left then, but the lookup still waits at the node. -/
def forsaken : List Move :=
  [.act (.record (l2At 1) (l1At "a" 10).toBlockId),
    .act (.hold true),
    .act (.call "first" (.signal (l1At "f" 12)) (some "stop")),
    .advance,
    .act (.cancel "stop" .undefined),
    .advance,
    .act (.hold false),
    .act (.call "second" (.boundary (l1At "b" 20)) none),
    .advance]

/-- `reset_renews` after `forsaken`. -/
theorem forsaken_renews :
    remote.Fresh ∧
    (remote.play forsaken).1.flight? = none ∧ (remote.play forsaken).1.waiting = [] ∧
    (remote.play forsaken).1.tracker.lastTried = 20 ∧
    (remote.play forsaken).1.node.held.map Held.height = [12] ∧
    ∀ steps, ((remote.play forsaken).1.step [.reset]).1.watch steps
      = ((remote.renewed (remote.play forsaken).1).step
          [.call "anew" (.signal (remote.play forsaken).1.tracker.signal) none]).1.watch steps := by
  have hadoptable : (remote.play forsaken).1.tracker.signal.Adoptable :=
    .inr ⟨by decide, by decide⟩
  exact ⟨fresh_remote, by rfl, by rfl, by rfl, by rfl,
    (reset_renews fresh_remote forsaken (by rfl) (by rfl) "anew" none).mpr hadoptable⟩

/-- A signal below zero is taken over from one whose height is not a number. -/
def sinking : List Move :=
  [.act (.call "first" (.signal { l1At "n" 0 with number := .nan }) none),
    .advance,
    .act (.call "second" (.signal { l1At "m" 0 with number := .whole (-5) }) none),
    .advance]

/-- `reset_renews` after `sinking`: a new session keeps the signal from before there was one. -/
theorem sinking_told_apart :
    small.Fresh ∧
    (small.play sinking).1.flight? = none ∧ (small.play sinking).1.waiting = [] ∧
    ((small.play sinking).1.step [.reset]).1.watch [[]]
      ≠ ((small.renewed (small.play sinking).1).step
          [.call "anew" (.signal (small.play sinking).1.tracker.signal) none]).1.watch [[]] := by
  refine ⟨fresh_small, by rfl, by rfl, fun hsame => ?_⟩
  have hnumbers := congrArg (List.map fun sight => sight.signal.number) hsame
  exact absurd hnumbers (by decide)

end Session

end Settlement
