import Settlement.Proofs.Number.Safe
import Settlement.Proofs.Session.Starting
import Settlement.Proofs.Signal

/-!
# The throttle

A boundary is let through only if it is further on than the last one by more than the delay. The
throttle is cleared by a reset, and by a pass that starts with another signal than the one known.
It remembers a single number, with zero for none, and it does so when passes start: what counts
is the order in which they start, not that of calling.

Sums of heights are rounded and may be beyond what is exact; the comparison comes out as with
exact integers all the same.

## Key results

- `lastTried_move`: a move clears the throttle, or remembers what is let through
- `throttle_spacing`: boundaries that are let through are further apart than the delay, and none
  is skipped without need
- `reset_rearms`: after a reset a boundary is held up only by one that was in line at the reset
-/

namespace Settlement

namespace Tracker

/-- `throttles` decides on the exact integers, however their sum is rounded. -/
theorem throttles_iff {t : Tracker} {x : Number} {n tried delay : Int} (hx : x.toInt? = some n)
    (htried : t.lastTried.toInt? = some tried) (hdelay : t.delay.toInt? = some delay)
    (hn : n.natAbs ≤ Number.maxSafe) (hbound : tried.natAbs ≤ Number.maxSafe)
    (hdelay' : delay.natAbs ≤ Number.maxSafe) (hnonneg : 0 ≤ delay) :
    t.throttles x = true ↔ tried ≠ 0 ∧ n ≤ tried + delay := by
  have hzero := Number.equal_zero_iff_of_toInt? htried
  have hle := Number.le_add_iff_of_toInt? hx htried hdelay hn hbound hdelay' hnonneg
  rw [throttles, Bool.and_eq_true, Bool.not_eq_true', decide_eq_true_iff, hle,
    ← Bool.not_eq_true, hzero]

/-- `intake` of a boundary skips it and leaves the tracker alone, or lets it through and remembers
it. -/
theorem intake_boundary (t : Tracker) (derivedFrom : Header) :
    t.intake (.boundary derivedFrom)
      = if t.signal.isZero || t.throttles derivedFrom.number then (t, .skipped)
        else ({ t with lastTried := derivedFrom.number }, .due) := rfl

/-- `intake` skips nothing but boundaries, and keeps the tracker where it does. -/
theorem skipped_of_intake {t : Tracker} {trigger : Trigger}
    (h : (t.intake trigger).2 = .skipped) :
    ∃ block, trigger = .boundary block ∧ t.intake trigger = (t, .skipped) := by
  cases trigger with
  | signal block =>
    unfold intake at h
    dsimp only at h
    -- a signal is outdated or due
    split at h <;> exact nomatch h
  | boundary derivedFrom =>
    refine ⟨derivedFrom, rfl, ?_⟩
    rw [intake_boundary] at h ⊢
    -- a boundary is skipped where the tracker stays as it is
    split at h
    · rename_i hskip
      exact if_pos hskip
    · exact nomatch h

end Tracker

namespace Session

variable {s : Session} {m : Move} {moves : List Move} {pass : Pass} {intake : Intake}

/-! ## What the throttle remembers -/

/-- The boundary that is let through at a move, if one is. -/
def letThrough? (s : Session) (m : Move) : Option Header :=
  match (s.starting? m).map Pass.trigger with
  | some (.boundary block) =>
    if (s.tracker.intake (.boundary block)).2 = .due then some block else none
  | _ => none

/-- Whether the throttle is cleared at a move: by a reset, or by a pass that starts with another
signal than the one known and no lower one. -/
def rearms (s : Session) (m : Move) : Bool :=
  m.isReset ||
    match (s.starting? m).map Pass.trigger with
    | some (.signal block) =>
      !(block.number < s.tracker.signal.number) && !s.tracker.signal.same block
    | _ => false

/-- A pass for this boundary starts at a move, and its boundary is taken in like this. -/
def TakesIn (s : Session) (m : Move) (block : Header) (intake : Intake) : Prop :=
  ∃ pass, .started pass intake ∈ (s.move m).2 ∧ pass.trigger = .boundary block

/-- `letThrough?` is the boundary that the move takes in as due. -/
theorem letThrough?_eq_some {block : Header} :
    s.letThrough? m = some block ↔ s.TakesIn m block .due := by
  simp only [TakesIn, started_mem_iff]
  unfold letThrough?
  cases hstarting : s.starting? m with
  | none => simp
  | some pass =>
    -- the pass that starts is for a signal, or it is the one
    cases htrigger : pass.trigger with
    | signal known => simp [htrigger]
    | boundary derivedFrom =>
      simp only [Option.map_some, htrigger, Option.ite_none_right_eq_some, Option.some.injEq]
      constructor
      · rintro ⟨hdue, rfl⟩
        exact ⟨pass, ⟨rfl, by rw [htrigger, hdue]⟩, htrigger⟩
      · rintro ⟨other, ⟨rfl, hdue⟩, hother⟩
        obtain rfl : derivedFrom = block := Trigger.boundary.inj (htrigger.symm.trans hother)
        exact ⟨by rw [hdue, htrigger], rfl⟩

/-- `move` clears the throttle where it `rearms`, and otherwise remembers what is `letThrough?`. -/
theorem lastTried_move (s : Session) (m : Move) :
    (s.move m).1.tracker.lastTried =
      if s.rearms m then 0 else ((s.letThrough? m).map (·.number)).getD s.tracker.lastTried := by
  cases m with
  | act action =>
    show (s.act action).1.tracker.lastTried = _
    -- of all who act, only a reset touches the tracker's throttle
    rw [(acted s action).tracker]
    cases action <;> rfl
  | advance =>
    show s.advance.1.tracker.lastTried = _
    cases hstarting : s.starting? .advance with
    | none =>
      rw [(advance_of_starting_none hstarting).2]
      simp [rearms, letThrough?, hstarting, Move.isReset]
    | some pass =>
      rw [(advance_of_starting hstarting).2]
      cases htrigger : pass.trigger with
      | signal block =>
        simp only [Tracker.intake, Tracker.adopt, rearms, letThrough?, hstarting, Move.isReset,
          Option.map_some, htrigger, Bool.false_or, Option.map_none, Option.getD_none]
        -- a lower signal and the same one keep the throttle
        by_cases hlt : block.number < s.tracker.signal.number
        · simp [hlt]
        · by_cases hsame : s.tracker.signal.same block = true <;> simp [hlt, hsame]
      | boundary derivedFrom =>
        simp only [Tracker.intake_boundary, rearms, letThrough?, hstarting, Move.isReset,
          Option.map_some, htrigger, Bool.false_or]
        -- what is skipped is not remembered
        by_cases hskip : (s.tracker.signal.isZero || s.tracker.throttles derivedFrom.number) = true
        · simp [hskip]
        · simp [hskip]

/-- `play` leaves the throttle at what it was, at zero, or at a boundary let through since. -/
theorem lastTried_play (s : Session) (moves : List Move) :
    (s.play moves).1.tracker.lastTried = s.tracker.lastTried ∨
    (s.play moves).1.tracker.lastTried = 0 ∨
    ∃ pass block, .started pass .due ∈ (s.play moves).2 ∧ pass.trigger = .boundary block ∧
      (s.play moves).1.tracker.lastTried = block.number := by
  induction moves using List.reverseRecOn with
  | nil => exact .inl rfl
  | append_singleton moves m ih =>
    rw [play_concat, Progress.fst_after, Progress.snd_after, lastTried_move]
    -- the last move clears it, replaces it or keeps it
    by_cases hrearms : (s.play moves).1.rearms m = true
    · exact .inr (.inl (if_pos hrearms))
    · rw [if_neg hrearms]
      cases hlet : (s.play moves).1.letThrough? m with
      | some block =>
        obtain ⟨pass, hstarted, htrigger⟩ := letThrough?_eq_some.mp hlet
        exact .inr (.inr ⟨pass, block, List.mem_append_right _ hstarted, htrigger, rfl⟩)
      | none =>
        refine ih.imp id (Or.imp id ?_)
        rintro ⟨pass, block, hstarted, htrigger, hblock⟩
        exact ⟨pass, block, List.mem_append_left _ hstarted, htrigger, hblock⟩

/-! ## Along a play -/

/-- A property of moves and the sessions that they are made from, all along a play. -/
def along (p : Session → Move → Bool) (s : Session) : List Move → Bool
  | [] => true
  | m :: rest => p s m && (s.move m).1.along p rest

/-- `play` keeps a clear throttle as long as nothing is let through. -/
theorem lastTried_of_none_through (h : s.tracker.lastTried = 0)
    (hnone : s.along (fun t m => (t.letThrough? m).isNone) moves = true) :
    (s.play moves).1.tracker.lastTried = 0 := by
  induction moves generalizing s with
  | nil => exact h
  | cons m moves ih =>
    rw [along, Bool.and_eq_true, Option.isNone_iff_eq_none] at hnone
    rw [play_cons, Progress.fst_after]
    refine ih ?_ hnone.2
    rw [lastTried_move, hnone.1]
    simp [h]

end Session

/-- Whether the height of the boundary that a move brings in, if it does, is a safe integer. -/
def Move.isMeasured : Move → Bool
  | .act (.call _ (.boundary block) _) => block.number.isSafeInteger
  | _ => true

namespace Session

/-- The delay is a safe integer from zero on, and so are the numbers that it is to stand between,
but for their sign. -/
structure Measured (s : Session) (delay : Int) : Prop where
  delay_eq : s.tracker.delay.toInt? = some delay
  nonneg : 0 ≤ delay
  bound : delay.natAbs ≤ Number.maxSafe
  tried : s.tracker.lastTried.isSafeInteger = true
  waiting : ∀ pass ∈ s.waiting, ∀ block, pass.trigger = .boundary block →
    block.number.isSafeInteger = true

variable {s : Session} {m : Move} {moves : List Move} {pass : Pass} {intake : Intake}
  {n delay : Int}

/-- `Measured` holds of a `Fresh` session, with the delay that it was made with. -/
theorem Fresh.measured (h : Fresh s) : ∃ delay, Measured s delay := by
  obtain ⟨sizing, hsizing⟩ := h.tracker
  obtain ⟨hsafe, hnonneg⟩ := Tracker.delay_of_ofValue hsizing
  obtain ⟨delay, hdelay, hbound⟩ := Number.exists_toInt?_of_isSafeInteger hsafe
  -- the delay was checked, and nothing was remembered yet
  have hnan : s.tracker.delay ≠ .nan := by
    intro hnan
    rw [hnan] at hdelay
    exact nomatch hdelay
  have hzero : (0 : Number) ≤ s.tracker.delay := Number.le_of_not_lt hnan nofun hnonneg
  obtain ⟨n, given, -, htracker⟩ := Tracker.exists_empty_of_ofValue hsizing
  refine ⟨delay, hdelay, (Number.le_iff_of_toInt? rfl hdelay).mp hzero, hbound, ?_, ?_⟩
  · rw [htracker]
    rfl
  · rw [h.waiting]
    exact fun pass hpass => absurd hpass List.not_mem_nil

/-- `move` keeps the delay. -/
theorem delay_move (s : Session) (m : Move) :
    (s.move m).1.tracker.delay = s.tracker.delay := by
  cases m with
  | act action =>
    show (s.act action).1.tracker.delay = _
    rw [(acted s action).tracker]
    cases action <;> rfl
  | advance =>
    show s.advance.1.tracker.delay = _
    -- to take in a trigger does not touch the delay
    cases hstarting : s.starting? .advance with
    | none => rw [(advance_of_starting_none hstarting).2]
    | some pass =>
      obtain ⟨kept, tried, heq, -⟩ := Tracker.intake_eq s.tracker pass.trigger
      rw [(advance_of_starting hstarting).2, heq]

/-- `TakesIn` of a `Measured` session has a boundary at a safe integer. -/
theorem Measured.height (h : Measured s delay) {block : Header}
    (htakes : s.TakesIn m block intake) : block.number.isSafeInteger = true := by
  obtain ⟨pass, hstarted, htrigger⟩ := htakes
  exact h.waiting pass (mem_waiting_of_started hstarted) block htrigger

/-- `move` keeps a session `Measured`, if the boundary that it brings in is at a safe integer. -/
theorem Measured.move (h : Measured s delay) (hm : m.isMeasured = true) :
    Measured (s.move m).1 delay := by
  refine ⟨by rw [delay_move]; exact h.delay_eq, h.nonneg, h.bound, ?_, ?_⟩
  · rw [lastTried_move]
    -- the throttle is cleared, or remembers a number from the line
    split
    · rfl
    · cases hlet : s.letThrough? m with
      | none => exact h.tried
      | some block => exact h.height (letThrough?_eq_some.mp hlet)
  · intro pass hpass block htrigger
    rcases mem_waiting_move hpass with hbefore | ⟨label, token?, rfl⟩
    · exact h.waiting pass hbefore block htrigger
    · rw [htrigger] at hm
      exact hm

/-- `play` keeps a session `Measured`, if all boundaries called for are at safe integers. -/
theorem Measured.play (h : Measured s delay) (hmoves : moves.all Move.isMeasured = true) :
    Measured (s.play moves).1 delay := by
  induction moves generalizing s with
  | nil => exact h
  | cons m moves ih =>
    rw [List.all_cons, Bool.and_eq_true] at hmoves
    exact ih (h.move hmoves.1) hmoves.2

/-- `TakesIn` of a `Measured` session skips or not as the exact integers say. -/
theorem Measured.intake_iff (h : Measured s delay) {block : Header}
    (htakes : s.TakesIn m block intake) :
    ∃ n tried : Int, block.number.toInt? = some n ∧
      s.tracker.lastTried.toInt? = some tried ∧
      (intake = .skipped ↔
        s.tracker.signal.isZero = true ∨ tried ≠ 0 ∧ n ≤ tried + delay) ∧
      (intake = .due ↔
        ¬(s.tracker.signal.isZero = true ∨ tried ≠ 0 ∧ n ≤ tried + delay)) := by
  obtain ⟨n, hn, hbound⟩ := Number.exists_toInt?_of_isSafeInteger (h.height htakes)
  obtain ⟨tried, htried, htried'⟩ := Number.exists_toInt?_of_isSafeInteger h.tried
  -- the comparison on the exact integers
  have hiff := Tracker.throttles_iff hn htried h.delay_eq hbound htried' h.bound h.nonneg
  obtain ⟨pass, hstarted, htrigger⟩ := htakes
  have hintake : intake = (s.tracker.intake (.boundary block)).2 :=
    htrigger ▸ (started_mem_iff.mp hstarted).2
  refine ⟨n, tried, hn, htried, ?_⟩
  rw [hintake, Tracker.intake_boundary, ← hiff, ← Bool.or_eq_true]
  by_cases hskip : (s.tracker.signal.isZero || s.tracker.throttles block.number) = true
  · simp [hskip]
  · simp [hskip]

/-! ## Spacing -/

/-- Whether a boundary of height zero is let through at a move. The throttle takes it for none. -/
def letsZero (s : Session) (m : Move) : Bool :=
  (s.letThrough? m).any (·.number.equal 0)

/-- The throttle remembers a number, or one that is further on by more than the delay. -/
def Beyond (s : Session) (n delay : Int) : Prop :=
  ∃ tried : Int, s.tracker.lastTried.toInt? = some tried ∧ tried ≠ 0 ∧
    (tried = n ∨ n + delay < tried)

/-- `Beyond` lets through only what is further on by more than the delay. -/
theorem Beyond.lt (hbeyond : Beyond s n delay) (h : Measured s delay) {block : Header}
    (hlet : s.TakesIn m block .due) :
    ∃ n' : Int, block.number.toInt? = some n' ∧ n + delay < n' := by
  obtain ⟨tried, htried, hzero, hfar⟩ := hbeyond
  obtain ⟨n', tried', hn', htried', -, hdue⟩ := h.intake_iff hlet
  obtain rfl : tried = tried' := Option.some.inj (htried.symm.trans htried')
  have hthrough := hdue.mp rfl
  have hnonneg := h.nonneg
  exact ⟨n', hn', by omega⟩

/-- `move` keeps a session `Beyond` a number where it does not rearm the throttle, if that number or
what is let through is not below or at zero. -/
theorem Beyond.move (hbeyond : Beyond s n delay) (h : Measured s delay)
    (hrearms : s.rearms m = false) (hzero : 0 ≤ n ∨ s.letsZero m = false) :
    Beyond (s.move m).1 n delay := by
  have hmove := lastTried_move s m
  rw [hrearms] at hmove
  cases hlet : s.letThrough? m with
  | none =>
    obtain ⟨tried, htried⟩ := hbeyond
    rw [hlet] at hmove
    exact ⟨tried, by rw [hmove]; exact htried⟩
  | some block =>
    obtain ⟨n', hn', hlt⟩ := hbeyond.lt h (letThrough?_eq_some.mp hlet)
    have hnonneg := h.nonneg
    rw [hlet] at hmove
    refine ⟨n', by rw [hmove]; exact hn', ?_, .inr hlt⟩
    -- a height from zero on is beyond zero, and any other is no zero by assumption
    rcases hzero with hzero | hzero
    · omega
    · rw [letsZero, hlet, Option.any_some] at hzero
      rw [Ne, ← Number.equal_zero_iff_of_toInt? hn', hzero]
      exact Bool.false_ne_true

/-- `play` keeps a session `Beyond` a number as long as nothing rearms the throttle. -/
theorem Beyond.play (hbeyond : Beyond s n delay) (h : Measured s delay)
    (hmoves : moves.all Move.isMeasured = true)
    (hrearms : s.along (fun t m => !t.rearms m) moves = true)
    (hzero : 0 ≤ n ∨ s.along (fun t m => !t.letsZero m) moves = true) :
    Beyond (s.play moves).1 n delay := by
  -- over the moves, with a session that stays measured
  induction moves generalizing s with
  | nil => exact hbeyond
  | cons m moves ih =>
    rw [List.all_cons, Bool.and_eq_true] at hmoves
    rw [along, Bool.and_eq_true, Bool.not_eq_true'] at hrearms
    simp only [along, Bool.and_eq_true, Bool.not_eq_true'] at hzero
    have hmove := hbeyond.move h hrearms.1 (hzero.imp id And.left)
    exact ih hmove (h.move hmoves.1) hmoves.2 hrearms.2 (hzero.imp id And.right)

/-- `Beyond` begins with a boundary that is let through, unless it is at zero. -/
theorem beyond_of_takesIn {block : Header}
    (htakes : s.TakesIn m block .due) (hn : block.number.toInt? = some n) (hzero : n ≠ 0) :
    Beyond (s.move m).1 n delay := by
  have hlet := letThrough?_eq_some.mpr htakes
  -- to let a boundary through does not clear the throttle
  have hrearms : s.rearms m = false := by
    obtain ⟨pass, hstarted, htrigger⟩ := htakes
    have hstarting := (started_mem_iff.mp hstarted).1
    cases m with
    | act action => exact nomatch hstarting
    | advance => simp [rearms, hstarting, htrigger, Move.isReset]
  refine ⟨n, ?_, hzero, .inl rfl⟩
  rw [lastTried_move, hrearms, hlet]
  exact hn

/-! ## Skipping -/

/-- `move` with a pass that is skipped ends it at once. It looks nothing up and commits nothing, and
the session is left as it was but for the pass being out of line. -/
theorem move_of_skipped (h : .started pass .skipped ∈ (s.move m).2) :
    s.move m = ({ s with waiting := s.waiting.tail },
      [.started pass .skipped, .ended pass .skipped]) ∧
    pass.report .skipped = .outcome .ok := by
  obtain ⟨hstarting, hskipped⟩ := started_mem_iff.mp h
  obtain ⟨block, htrigger, hintake⟩ := Tracker.skipped_of_intake hskipped.symm
  refine ⟨?_, by simp only [Pass.report, htrigger]⟩
  cases m with
  | act action => exact nomatch hstarting
  | advance =>
    obtain ⟨hf, rest, hw⟩ := starting?_eq_some hstarting
    let t : Session := { s with waiting := rest }
    -- taking in a boundary that is skipped leaves the tracker as it is
    have htook : t.took pass = t := by
      show { t with tracker := (s.tracker.intake pass.trigger).1 } = t
      rw [hintake]
    have hopening : t.opening pass = [.started pass .skipped] := by
      unfold opening
      show Event.started pass (s.tracker.intake pass.trigger).2 :: _ = _
      rw [hintake]
      simp [Tracker.intakeNotices, htrigger]
    have hsilent : pass.endNotices .skipped = [] := by simp [Pass.endNotices, htrigger]
    have hclose : t.close pass .skipped = (t, [.ended pass .skipped]) := by
      unfold close
      rw [logged_of_endNotices hsilent]
      simp [t, hf, hsilent]
    show s.advance = _
    rw [advance_start hf hw, start_eq, htook, hopening]
    show Progress.after _ (t.proceed pass _ (s.tracker.intake pass.trigger).2) = _
    rw [hintake]
    show Progress.after _ (t.close pass .skipped) = _
    rw [hclose, hw]
    rfl

/-! ## The law of the throttle -/

/-- The law of the throttle for the boundaries of a play. -/
structure Spaced (s : Session) (delay : Int) (moves : List Move) : Prop where
  /-- Of two boundaries that are let through with nothing in between that clears the throttle, the
  second is further on by more than the delay. That rests on the throttle not having taken a
  height in between for none, which it cannot if the first height is not below zero. -/
  apart : ∀ past m between m' future block block',
    moves = past ++ m :: between ++ m' :: future →
    (s.play past).1.TakesIn m block .due →
    (s.play (past ++ m :: between)).1.TakesIn m' block' .due →
    (s.play (past ++ [m])).1.along (fun t m => !t.rearms m) between = true →
    ∃ n n' : Int, block.number.toInt? = some n ∧ block'.number.toInt? = some n' ∧
      (n ≠ 0 →
        (0 ≤ n ∨ (s.play (past ++ [m])).1.along (fun t m => !t.letsZero m) between = true) →
        n + delay < n')
  /-- A boundary is skipped if there is no signal yet, or if it is not further on than the one
  remembered by more than the delay. -/
  skipped_iff : ∀ past m future block intake, moves = past ++ m :: future →
    (s.play past).1.TakesIn m block intake →
    ∃ n tried : Int, block.number.toInt? = some n ∧
      (s.play past).1.tracker.lastTried.toInt? = some tried ∧
      (intake = .skipped ↔
        (s.play past).1.tracker.signal.isZero = true ∨ tried ≠ 0 ∧ n ≤ tried + delay) ∧
      (intake = .due ↔
        ¬((s.play past).1.tracker.signal.isZero = true ∨ tried ≠ 0 ∧ n ≤ tried + delay))
  /-- The first boundary after the throttle was cleared is let through. -/
  first_due : ∀ past m between m' future block intake,
    moves = past ++ m :: between ++ m' :: future →
    (s.play past).1.rearms m = true →
    (s.play (past ++ [m])).1.along (fun t m => (t.letThrough? m).isNone) between = true →
    (s.play (past ++ m :: between)).1.tracker.signal.isZero = false →
    (s.play (past ++ m :: between)).1.TakesIn m' block intake → intake = .due
  /-- What is skipped ends well and leaves everything as it was. -/
  skip : ∀ past m future pass, moves = past ++ m :: future →
    .started pass .skipped ∈ ((s.play past).1.move m).2 →
    (s.play past).1.move m
      = ({ (s.play past).1 with waiting := (s.play past).1.waiting.tail },
        [.started pass .skipped, .ended pass .skipped]) ∧
    pass.report .skipped = .outcome .ok

/-- `Spaced` holds of every play of a `Fresh` session with boundaries at safe integers. -/
theorem throttle_spacing (h : Fresh s) (moves : List Move)
    (hmoves : moves.all Move.isMeasured = true) :
    ∃ delay : Int, s.tracker.delay.toInt? = some delay ∧ 0 ≤ delay ∧ s.Spaced delay moves := by
  obtain ⟨delay, hmeasured⟩ := h.measured
  -- every part of the play is measured
  have hpart : ∀ past future, moves = past ++ future → Measured (s.play past).1 delay := by
    rintro past future rfl
    rw [List.all_append, Bool.and_eq_true] at hmoves
    exact hmeasured.play hmoves.1
  have hconcat : ∀ past m between, (s.play (past ++ m :: between)).1
      = ((s.play (past ++ [m])).1.play between).1 := fun past m between => by
    rw [← fst_play_append, List.append_assoc, List.singleton_append]
  refine ⟨delay, hmeasured.delay_eq, hmeasured.nonneg, ?_, ?_, ?_,
    fun past m future pass _ => move_of_skipped⟩
  · intro past m between m' future block block' heq htakes htakes' hrearms
    have hbefore := hpart past (m :: between ++ m' :: future) (by rw [heq, List.append_assoc])
    have hafter := hpart (past ++ [m]) (between ++ m' :: future) (by rw [heq]; simp)
    have hlast := hpart (past ++ m :: between) (m' :: future) heq
    obtain ⟨n, hn, -⟩ := Number.exists_toInt?_of_isSafeInteger (hbefore.height htakes)
    obtain ⟨n', hn', -⟩ := Number.exists_toInt?_of_isSafeInteger (hlast.height htakes')
    refine ⟨n, n', hn, hn', fun hne hzero => ?_⟩
    -- from the first boundary on the throttle remembers that one or one further on
    have hbetween : between.all Move.isMeasured = true := by
      rw [heq] at hmoves
      simp only [List.all_append, List.all_cons, Bool.and_eq_true] at hmoves
      exact hmoves.1.2.2
    have hbegin : Beyond ((s.play past).1.move m).1 n delay := beyond_of_takesIn htakes hn hne
    rw [← fst_play_concat] at hbegin
    have hend := hbegin.play hafter hbetween hrearms hzero
    rw [← hconcat] at hend
    obtain ⟨last, heq', hlt⟩ := hend.lt hlast htakes'
    obtain rfl : last = n' := Option.some.inj (heq'.symm.trans hn')
    exact hlt
  · intro past m future block intake heq htakes
    exact (hpart past (m :: future) heq).intake_iff htakes
  · intro past m between m' future block intake heq hrearms hnone hsignal htakes
    have hclear : (s.play (past ++ [m])).1.tracker.lastTried = 0 := by
      rw [fst_play_concat, lastTried_move]
      exact if_pos hrearms
    -- the throttle is still clear when the boundary is taken in
    have htried := lastTried_of_none_through hclear hnone
    rw [← hconcat] at htried
    obtain ⟨n, tried, hn, htried', -, hdue⟩ :=
      (hpart (past ++ m :: between) (m' :: future) heq).intake_iff htakes
    rw [htried] at htried'
    obtain rfl : 0 = tried := Option.some.inj htried'
    exact hdue.mpr (by simp [hsignal])

/-- A boundary too near is skipped, the next one is not, and a reset lets any through. -/
def paced : List Move :=
  [.act (.call "signal" (.signal (l1At "f" 12)) none),
    .advance,
    .act (.call "first" (.boundary (l1At "a" 20)) none),
    .advance,
    .act (.call "second" (.boundary (l1At "b" 84)) none),
    .advance,
    .act (.call "third" (.boundary (l1At "c" 85)) none),
    .advance,
    .act .reset,
    .act (.call "fourth" (.boundary (l1At "d" 30)) none),
    .advance]

/-- `throttle_spacing` in `paced`, for the delay of 64. -/
theorem paced_spacing :
    small.Fresh ∧ paced.all Move.isMeasured = true ∧
    (small.play (paced.take 3)).1.TakesIn .advance (l1At "a" 20) .due ∧
    (small.play (paced.take 5)).1.TakesIn .advance (l1At "b" 84) .skipped ∧
    (small.play (paced.take 7)).1.TakesIn .advance (l1At "c" 85) .due ∧
    (small.play (paced.take 8)).1.rearms (.act .reset) = true ∧
    (small.play (paced.take 10)).1.TakesIn .advance (l1At "d" 30) .due ∧
    ∃ delay : Int, small.tracker.delay.toInt? = some delay ∧ 0 ≤ delay ∧
      small.Spaced delay paced := by
  refine ⟨fresh_small, by decide, ⟨⟨1, "first", _, none⟩, ?_, rfl⟩,
    ⟨⟨2, "second", _, none⟩, ?_, rfl⟩, ⟨⟨3, "third", _, none⟩, ?_, rfl⟩, by rfl,
    ⟨⟨4, "fourth", _, none⟩, ?_, rfl⟩,
    throttle_spacing fresh_small paced (by decide)⟩
  all_goals exact started_mem_iff.mpr ⟨rfl, by rfl⟩

/-- Boundaries below zero are called for, with the one at zero between them. -/
def retrograde : List Move :=
  [.act (.call "signal" (.signal (l1At "f" 12)) none),
    .advance,
    .act (.call "first" (.boundary { l1At "a" 0 with number := .whole (-100) }) none),
    .advance,
    .act (.call "second" (.boundary (l1At "b" 0)) none),
    .advance,
    .act (.call "third" (.boundary { l1At "c" 0 with number := .whole (-1000) }) none),
    .advance]

/-- `Spaced.apart` needs its condition on zero: here a boundary that is let through is not further
on than one before it, though nothing clears the throttle in between. The one at zero leaves nothing
to be remembered. -/
theorem retrograde_unspaced :
    small.Fresh ∧ retrograde.all Move.isMeasured = true ∧
    (small.play (retrograde.take 4)).1.along (fun t m => !t.rearms m) (retrograde.drop 4) = true ∧
    ∃ block block',
      (small.play (retrograde.take 3)).1.TakesIn .advance block .due ∧
      (small.play (retrograde.take 7)).1.TakesIn .advance block' .due ∧
      block.number.equal 0 = false ∧
      ¬∃ n n' delay : Int, block.number.toInt? = some n ∧ block'.number.toInt? = some n' ∧
        small.tracker.delay.toInt? = some delay ∧ n + delay < n' := by
  refine ⟨fresh_small, by decide, by rfl, { l1At "a" 0 with number := .whole (-100) },
    { l1At "c" 0 with number := .whole (-1000) }, ⟨⟨1, "first", _, none⟩, ?_, rfl⟩,
    ⟨⟨3, "third", _, none⟩, ?_, rfl⟩, by decide, ?_⟩
  · exact started_mem_iff.mpr ⟨rfl, by rfl⟩
  · exact started_mem_iff.mpr ⟨rfl, by rfl⟩
  -- -1000 is not further on than -100
  · rintro ⟨n, n', delay, hn, hn', hdelay, hlt⟩
    obtain rfl : -100 = n := Option.some.inj hn
    obtain rfl : -1000 = n' := Option.some.inj hn'
    obtain rfl : 64 = delay := Option.some.inj hdelay
    exact absurd hlt (by decide)

/-! ## Resets -/

/-- `intake` of a boundary is due, unless there is no signal or the tracker `throttles` it. -/
theorem due_or_throttled {block : Header} (hstarted : .started pass intake ∈ (s.move m).2)
    (htrigger : pass.trigger = .boundary block) (hsignal : s.tracker.signal.isZero = false) :
    intake = .due ∨ s.tracker.throttles block.number = true := by
  have hintake : intake = (s.tracker.intake (.boundary block)).2 :=
    htrigger ▸ (started_mem_iff.mp hstarted).2
  rw [hintake, Tracker.intake_boundary, hsignal, Bool.false_or]
  by_cases hthrottles : s.tracker.throttles block.number = true
  · exact .inr hthrottles
  · rw [if_neg hthrottles]
    exact .inl rfl

/-- `intake` after a clear throttle is due, unless a boundary let through since holds it up. -/
theorem due_or_after (hclear : s.tracker.lastTried = 0) {block : Header}
    (hstarted : .started pass intake ∈ ((s.play moves).1.move m).2)
    (htrigger : pass.trigger = .boundary block)
    (hsignal : (s.play moves).1.tracker.signal.isZero = false) :
    intake = .due ∨ ∃ other derivedFrom, .started other .due ∈ (s.play moves).2 ∧
      other.trigger = .boundary derivedFrom ∧ derivedFrom.number.equal 0 = false ∧
      block.number ≤ derivedFrom.number + (s.play moves).1.tracker.delay := by
  refine (due_or_throttled hstarted htrigger hsignal).imp id fun hthrottles => ?_
  rw [Tracker.throttles, Bool.and_eq_true, Bool.not_eq_true', decide_eq_true_iff] at hthrottles
  have hzero : (0 : Number).equal 0 = true := rfl
  -- a throttle that holds something up remembers a height, and so one that was let through
  rcases lastTried_play s moves with
    htried | htried | ⟨other, derivedFrom, hother, hboundary, htried⟩
  · rw [htried, hclear, hzero] at hthrottles
    exact nomatch hthrottles.1
  · rw [htried, hzero] at hthrottles
    exact nomatch hthrottles.1
  · rw [htried] at hthrottles
    exact ⟨other, derivedFrom, hother, hboundary, hthrottles⟩

/-- `play` keeps the delay. -/
theorem delay_play (s : Session) (moves : List Move) :
    (s.play moves).1.tracker.delay = s.tracker.delay := by
  induction moves generalizing s with
  | nil => rfl
  | cons m moves ih => rw [play_cons, Progress.fst_after, ih, delay_move]

/-- `reset` clears the throttle for what starts after it. The first boundary to start is let
through. So is the first one called for, unless it is held up by a boundary that was still in line
at the reset and was let through after it. -/
theorem reset_rearms (h : Fresh s) (past between : List Move) (m : Move) (pass : Pass)
    (intake : Intake) (block : Header) (htrigger : pass.trigger = .boundary block)
    (hstarted : .started pass intake
      ∈ (((s.play (past ++ [.act .reset])).1.play between).1.move m).2)
    (hsignal : ((s.play (past ++ [.act .reset])).1.play between).1.tracker.signal.isZero = false) :
    ((∀ other ∈ Event.begun ((s.play (past ++ [.act .reset])).1.play between).2,
        other.trigger.signal?.isSome = true) → intake = .due) ∧
    ∀ earlier later,
      Event.calls ((s.play (past ++ [.act .reset])).1.play between).2 = earlier ++ pass :: later →
      (∀ other ∈ earlier, other.trigger.signal?.isSome = true) →
      intake = .due ∨ ∃ other ∈ (s.play past).1.waiting, ∃ derivedFrom,
        other.trigger = .boundary derivedFrom ∧
        .started other .due ∈ ((s.play (past ++ [.act .reset])).1.play between).2 ∧
        derivedFrom.number.equal 0 = false ∧
        block.number ≤ derivedFrom.number + s.tracker.delay := by
  let r := (s.play (past ++ [.act .reset])).1
  have hr : r = ((s.play past).1.move (.act .reset)).1 := fst_play_concat s past (.act .reset)
  have hclear : r.tracker.lastTried = 0 := by
    rw [hr]
    rfl
  have hwaiting : r.waiting = (s.play past).1.waiting := by
    rw [hr]
    rfl
  have hcases := due_or_after hclear hstarted htrigger hsignal
  -- what holds it up started after the reset
  have hbegun : ∀ {other intake}, .started other intake ∈ (r.play between).2 →
      other ∈ Event.begun (r.play between).2 :=
    fun hmem => List.mem_filterMap.mpr ⟨_, hmem, rfl⟩
  have hboundary : ∀ {other : Pass} {derivedFrom}, other.trigger = .boundary derivedFrom →
      ¬other.trigger.signal?.isSome = true := by
    intro other derivedFrom htrigger
    rw [htrigger]
    exact Bool.false_ne_true
  constructor
  · intro hnone
    rcases hcases with hdue | ⟨other, derivedFrom, hother, hkind, -⟩
    · exact hdue
    · exact absurd (hnone other (hbegun hother)) (hboundary hkind)
  · intro earlier later hcalls hfirst
    refine hcases.imp id ?_
    rintro ⟨other, derivedFrom, hother, hkind, hzero, hle⟩
    rw [delay_play, delay_play] at hle
    have hline : other ∈ r.waiting :=
      mem_waiting_of_begun h (hbegun hother) (mem_waiting_of_started hstarted) hcalls
        fun hmem => hboundary hkind (hfirst other hmem)
    exact ⟨other, hwaiting ▸ hline, derivedFrom, hkind, hother, hzero, hle⟩

/-- A boundary is in line when a reset comes, and another one is called for after it. -/
def queued : List Move :=
  [.act (.call "signal" (.signal (l1At "f" 12)) none),
    .advance,
    .act (.call "before" (.boundary (l1At "a" 20)) none),
    .act .reset,
    .act (.call "after" (.boundary (l1At "b" 21)) none),
    .advance,
    .advance]

/-- `reset_rearms` in `queued`, for the first boundary to start and the first one called for. -/
theorem queued_rearms :
    small.Fresh ∧
    (∃ intake, .started ⟨1, "before", .boundary (l1At "a" 20), none⟩ intake
        ∈ (((small.play (queued.take 3 ++ [.act .reset])).1.play ((queued.drop 4).take 1)).1.move
          .advance).2 ∧
      intake = .due) ∧
    ∃ intake, .started ⟨2, "after", .boundary (l1At "b" 21), none⟩ intake
        ∈ (((small.play (queued.take 3 ++ [.act .reset])).1.play ((queued.drop 4).take 2)).1.move
          .advance).2 ∧
      (intake = .due ∨ ∃ other ∈ (small.play (queued.take 3)).1.waiting, ∃ derivedFrom,
        other.trigger = .boundary derivedFrom ∧
        .started other .due
          ∈ ((small.play (queued.take 3 ++ [.act .reset])).1.play ((queued.drop 4).take 2)).2 ∧
        derivedFrom.number.equal 0 = false ∧
        (l1At "b" 21).number ≤ derivedFrom.number + small.tracker.delay) := by
  have hbefore := started_mem_iff
    (s := ((small.play (queued.take 3 ++ [.act .reset])).1.play ((queued.drop 4).take 1)).1)
    (m := .advance).mpr ⟨rfl, rfl⟩
  have hafter := started_mem_iff
    (s := ((small.play (queued.take 3 ++ [.act .reset])).1.play ((queued.drop 4).take 2)).1)
    (m := .advance).mpr ⟨rfl, rfl⟩
  -- nobody starts before the first, and nobody is called for before the second
  refine ⟨fresh_small, ⟨_, hbefore, ?_⟩, _, hafter, ?_⟩
  · exact (reset_rearms fresh_small _ _ _ _ _ _ rfl hbefore (by rfl)).1
      fun other hother => absurd hother List.not_mem_nil
  · exact (reset_rearms fresh_small _ _ _ _ _ _ rfl hafter (by rfl)).2 [] [] (by rfl)
      fun other hother => absurd hother List.not_mem_nil

/-- `reset_rearms` needs its exception: here the first boundary called for after a reset is held up
by the one that was called for before it. -/
theorem queued_throttled :
    small.Fresh ∧
    Event.calls ((small.play (queued.take 4)).1.play (queued.drop 4)).2
      = [⟨2, "after", .boundary (l1At "b" 21), none⟩] ∧
    (small.play (queued.take 6)).1.tracker.signal.isZero = false ∧
    .started ⟨2, "after", .boundary (l1At "b" 21), none⟩ .skipped
      ∈ ((small.play (queued.take 6)).1.move .advance).2 :=
  ⟨fresh_small, by rfl, by rfl, started_mem_iff.mpr ⟨rfl, by rfl⟩⟩

end Session

end Settlement
