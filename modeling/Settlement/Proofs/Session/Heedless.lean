import Settlement.Proofs.Session.Moves

/-!
# Heedless passes

What is cancelled matters to a pass only through the reason that there is for it. Whatever else is
cancelled, the session advances in the same way.

## Key results

- `advance_of_reason?_eq`: what is cancelled matters only to the pass whose turn it is
-/

namespace Settlement.Session

variable {s : Session} {pass : Pass} {plan : Plan} {c : Cancellations} {go : Session → Progress}

/-- What is done for a pass is the same for any cancellations that give the pass the same reason. -/
def Heedless (pass : Pass) (c : Cancellations) (go : Session → Progress) : Prop :=
  ∀ s, c.reason? pass.token? = s.reason? pass →
    go { s with cancelled := c } = ({ (go s).1 with cancelled := c }, (go s).2)

/-- `Heedless` extends to the front by any events. -/
theorem Heedless.after (h : Heedless pass c go) (events : List Event) :
    Heedless pass c fun s => .after events (go s) := by
  intro s hreason
  show Progress.after events (go { s with cancelled := c }) = _
  rw [h s hreason]
  rfl

/-- `commit` is `Heedless`. -/
theorem heedless_commit : Heedless pass c (·.commit pass plan) := by
  intro s _
  unfold commit
  dsimp only
  -- overtaken, at or below the head, refused or taken: no token is read
  split
  · rfl
  · split
    · rfl
    · split <;> rfl

/-- `answer` is `Heedless` if what follows is. -/
theorem heedless_answer {stage : Stage} (reply : Reply) (h : Heedless pass c go) :
    Heedless pass c (·.answer pass plan stage reply go) := by
  intro s hreason
  have hsame : { s with cancelled := c }.reason? pass = s.reason? pass := hreason
  dsimp only [answer]
  rw [hsame]
  split
  · exact h.after _ s hreason
  · rfl
  · rfl

/-- `consult` is `Heedless` if what follows is. -/
theorem heedless_consult {stage : Stage} {goOn : Session → Reply → Progress}
    (h : ∀ reply, Heedless pass c (goOn · reply)) :
    Heedless pass c (·.consult pass plan stage goOn) := by
  intro s hreason
  have hsame : { s with cancelled := c }.reason? pass = s.reason? pass := hreason
  dsimp only [consult, ask]
  rw [hsame]
  -- the tokens are read only for this pass, which is the same in both
  cases s.reason? pass with
  | some reason => rfl
  | none =>
    cases s.source.address (plan.expected stage).number with
    | error fault => exact (h _).after _ s hreason
    | ok height =>
      dsimp only
      cases s.node.immediate? height with
      | some raw => exact (h _).after _ s hreason
      | none => rfl

theorem heedless_answerProvenance (reply : Reply) :
    Heedless pass c (·.answerProvenance pass plan reply) := heedless_answer reply heedless_commit

theorem heedless_answerSignal (reply : Reply) :
    Heedless pass c (·.answerSignal pass plan reply) :=
  heedless_answer reply (heedless_consult heedless_answerProvenance)

theorem heedless_checkSignal : Heedless pass c (·.checkSignal pass plan) :=
  heedless_consult heedless_answerSignal

/-- `proceed` is `Heedless`. -/
theorem heedless_proceed (intake : Intake) :
    Heedless pass c fun s => s.proceed pass (s.checkSignal pass) intake := by
  intro s hreason
  cases intake with
  | outdated | skipped => rfl
  | due =>
    simp only [proceed]
    cases s.tracker.plan? s.engine.head with
    | none => rfl
    | some plan => exact heedless_checkSignal s hreason

/-- `start` is `Heedless`. -/
theorem heedless_start : Heedless pass c (·.start pass) := by
  intro s hreason
  dsimp only
  rw [start_eq, start_eq]
  exact (heedless_proceed _).after (s.opening pass) (s.took pass) hreason

/-- The pass in flight, or the first one in line. -/
def turn? (s : Session) : Option Pass :=
  match s.flight? with
  | some flight => some flight.pass
  | none => s.waiting.head?

/-- `advance` is the same for any cancellations that give the pass in turn the same reason. -/
theorem advance_of_reason?_eq
    (h : ∀ pass, s.turn? = some pass → c.reason? pass.token? = s.reason? pass) :
    { s with cancelled := c }.advance = ({ s.advance.1 with cancelled := c }, s.advance.2) := by
  let t : Session := { s with cancelled := c }
  show t.advance = _
  -- whoever has the turn is the same in both sessions, and so is what it finds
  cases hf : s.flight? with
  | some flight =>
    cases hr : flight.reply? with
    | none =>
      have hwait : t.advance = (t, []) := advance_wait hf hr
      rw [hwait, advance_wait hf hr]
    | some reply =>
      have hreason := h flight.pass (by rw [turn?, hf])
      have hresume : t.advance = t.resume flight reply := advance_resume hf hr
      rw [hresume, advance_resume hf hr]
      unfold resume
      cases flight.stage with
      | signal => exact heedless_answerSignal reply { s with flight? := none } hreason
      | provenance => exact heedless_answerProvenance reply { s with flight? := none } hreason
  | none =>
    cases hw : s.waiting with
    | nil =>
      have hidle : t.advance = (t, []) := advance_idle hf hw
      rw [hidle, advance_idle hf hw]
    | cons pass rest =>
      have hreason := h pass (by rw [turn?, hf, hw]; rfl)
      have hstart : t.advance = { t with waiting := rest }.start pass := advance_start hf hw
      rw [hstart, advance_start hf hw]
      exact heedless_start { s with waiting := rest } hreason

end Settlement.Session
