import Settlement.Proofs.Succession

/-!
# The finality signal

The signal of a tracker is a running maximum. Each pass for a finality signal takes it in when it
starts: a lower one is turned away, any other one becomes the signal of the tracker, be it of the
same height. Nothing else touches the signal. A signal that is the same in every field that counts
is not stored again, so what is stored is known up to those fields only (`Header.Agrees`).

## Key results

- `signal_play`: the signal after any moves, exactly
- `advance_outdated`: a pass for a lower signal ends at once
- `signal_running_max`: the signal is the running maximum of those taken in
-/

namespace Settlement

/-- The finality signal of a trigger, if it is one. -/
def Trigger.signal? : Trigger → Option Header
  | .signal block => some block
  | .boundary _ => none

/-- The signals that passes started with, in order. -/
def Event.signals (events : List Event) : List Header :=
  (begun events).filterMap fun pass => pass.trigger.signal?

namespace Header

/-- The next signal takes over from the known one, unless its height is lower. -/
def later (known next : Header) : Header := if next.number < known.number then known else next

/-- The next signal takes over, unless its height is lower or it is the same signal. -/
def adopt (known next : Header) : Header :=
  if next.number < known.number ∨ known.same next = true then known else next

/-- The same hash, height, parent and time. -/
structure Agrees (a b : Header) : Prop where
  hash : a.hash = b.hash
  number : a.number.sameKey b.number = true
  parentHash : a.parentHash = b.parentHash
  timestamp : a.timestamp.sameKey b.timestamp = true

theorem Agrees.refl (a : Header) : Agrees a a :=
  ⟨rfl, Number.sameKey_refl _, rfl, Number.sameKey_refl _⟩

/-- `Agrees` holds of signals that are the same. -/
theorem agrees_of_same {a b : Header} (h : a.same b = true) : Agrees a b := by
  simp only [same, BlockId.same, Bool.and_eq_true, beq_iff_eq] at h
  obtain ⟨⟨⟨hnumber, hhash⟩, hparent⟩, htime⟩ := h
  exact ⟨hhash, by simp [Number.sameKey, hnumber], hparent, by simp [Number.sameKey, htime]⟩

/-- `adopt` and `later` agree: to store a signal only if it is another one makes no difference. -/
theorem Agrees.adopt {known known' : Header} (h : Agrees known known') (next : Header) :
    Agrees (known.adopt next) (known'.later next) := by
  have hiff := Number.lt_congr_right (a := next.number) h.number
  unfold Header.adopt later
  -- a lower signal is turned away by both
  by_cases hlt : next.number < known.number
  · rw [if_pos (.inl hlt), if_pos (hiff.mp hlt)]
    exact h
  · rw [if_neg (fun hlt' => hlt (hiff.mpr hlt'))]
    by_cases hsame : known.same next = true
    · rw [if_pos (.inr hsame)]
      exact agrees_of_same hsame
    · rw [if_neg (by simp [hlt, hsame])]
      exact .refl next

/-- `adopt` and `later` of any signals agree. -/
theorem Agrees.foldl {known known' : Header} (h : Agrees known known') (signals : List Header) :
    Agrees (signals.foldl Header.adopt known) (signals.foldl later known') := by
  induction signals generalizing known known' with
  | nil => exact h
  | cons next signals ih => exact ih (h.adopt next)

/-- `adopt` of any signals never lowers the number, if all numbers can be compared. -/
theorem le_foldl_adopt {known : Header} (hknown : known.number ≠ .nan) (signals : List Header)
    (hsignals : ∀ block ∈ signals, block.number ≠ .nan) :
    known.number ≤ (signals.foldl Header.adopt known).number := by
  induction signals generalizing known with
  | nil => exact Number.le_refl hknown
  | cons next signals ih =>
    have hnext := hsignals next List.mem_cons_self
    have hrest := fun block hmem => hsignals block (List.mem_cons_of_mem _ hmem)
    rw [List.foldl_cons]
    -- the signal that is known stays, or the next one is at or above it
    by_cases hkept : next.number < known.number ∨ known.same next = true
    · have hadopt : known.adopt next = known := if_pos hkept
      rw [hadopt]
      exact ih hknown hrest
    · have hadopt : known.adopt next = next := if_neg hkept
      have hle := Number.le_of_not_lt hnext hknown fun hlt => hkept (.inl hlt)
      rw [hadopt]
      exact Number.le_trans hle (ih hnext hrest)

end Header

/-- `intake` adopts the signal of the trigger, if it has one. -/
theorem Tracker.signal_intake (t : Tracker) (trigger : Trigger) :
    (t.intake trigger).1.signal = trigger.signal?.toList.foldl Header.adopt t.signal := by
  cases trigger with
  | boundary derivedFrom =>
    simp only [intake]
    split <;> rfl
  | signal block =>
    simp only [intake, Tracker.adopt, Trigger.signal?, Option.toList, List.foldl, Header.adopt]
    -- turned away, kept or adopted, in both of them alike
    by_cases hlt : block.number < t.signal.number
    · simp [hlt]
    · by_cases hsame : t.signal.same block = true <;> simp [hlt, hsame]

namespace Session

variable {s : Session} {moves : List Move}

/-! ## The signal after any moves -/

/-- `signals` of events are those of their parts. -/
theorem signals_append (xs ys : List Event) :
    Event.signals (xs ++ ys) = Event.signals xs ++ Event.signals ys := by
  simp [Event.signals, Event.begun]

/-- `took` adopts the signal of the pass that starts. -/
private theorem signal_of_took {pass : Pass} {rest : List Pass} {p : Progress}
    (hw : s.waiting = pass :: rest) (hline : s.waiting = Event.begun p.2 ++ p.1.waiting)
    (hwaiting : p.1.waiting = rest) (htracker : p.1.tracker = (s.took pass).tracker) :
    p.1.tracker.signal = (Event.signals p.2).foldl Header.adopt s.tracker.signal := by
  rw [hw, hwaiting, ← List.singleton_append] at hline
  have hbegun : [pass] = Event.begun p.2 := List.append_cancel_right hline
  have hsignals : Event.signals p.2 = pass.trigger.signal?.toList := by
    rw [Event.signals, ← hbegun]
    cases htrigger : pass.trigger.signal? <;> simp [htrigger]
  rw [htracker, hsignals]
  exact Tracker.signal_intake ..

/-- `advance` adopts the signal of the pass that starts. -/
theorem signal_advance (s : Session) :
    s.advance.1.tracker.signal
      = (Event.signals s.advance.2).foldl Header.adopt s.tracker.signal := by
  obtain ⟨-, hline⟩ := begun_advance s
  have hadvanced := advanced s
  generalize s.advance = p at hline hadvanced
  -- only a pass that starts has its trigger taken in
  cases hadvanced with
  | stays => rfl
  | resumes flight_eq leg =>
    obtain ⟨htracker, -, hwaiting, -⟩ := (leg []).kept
    rw [hwaiting] at hline
    have hbegun : Event.begun p.2 = [] := List.self_eq_append_left.mp hline
    rw [htracker, Event.signals, hbegun]
    rfl
  | passes flight_eq waiting_eq => exact signal_of_took waiting_eq hline rfl rfl
  | starts flight_eq waiting_eq due plan_eq leg =>
    exact signal_of_took waiting_eq hline leg.kept.2.2.1 leg.kept.1

/-- `act` starts no pass, and keeps the signal. -/
theorem signals_act (s : Session) (action : Action) :
    Event.signals (s.act action).2 = [] ∧ (s.act action).1.tracker.signal = s.tracker.signal := by
  constructor
  · rw [Event.signals, begun_act]
    rfl
  · rw [(acted s action).tracker]
    cases action <;> rfl

/-- `play` adopts the signals that passes started with, and touches the signal in no other way. -/
theorem signal_play (s : Session) (moves : List Move) :
    (s.play moves).1.tracker.signal
      = (Event.signals (s.play moves).2).foldl Header.adopt s.tracker.signal := by
  -- over the moves, each of which adopts the signals of passes that start at it
  induction moves generalizing s with
  | nil => rfl
  | cons m moves ih =>
    have hmove : (s.move m).1.tracker.signal
        = (Event.signals (s.move m).2).foldl Header.adopt s.tracker.signal := by
      cases m with
      | act action =>
        obtain ⟨hsignals, hsignal⟩ := signals_act s action
        show (s.act action).1.tracker.signal = _
        rw [hsignal]
        show _ = (Event.signals (s.act action).2).foldl Header.adopt _
        rw [hsignals]
        rfl
      | advance => exact signal_advance s
    rw [play_cons, Progress.fst_after, Progress.snd_after, signals_append, List.foldl_append, ih,
      hmove]

/-! ## Heights -/

/-- `Event.calls` in a play are from its moves. -/
theorem exists_call_of_mem {pass : Pass} (h : pass ∈ Event.calls (s.play moves).2) :
    ∃ label token?, .act (.call label pass.trigger token?) ∈ moves := by
  induction moves generalizing s with
  | nil => exact absurd h List.not_mem_nil
  | cons m moves ih =>
    rw [play_cons, Progress.snd_after, Event.calls, List.filterMap_append] at h
    -- it was called for at the first move, or later
    rcases List.mem_append.mp h with h | h
    · cases m with
      | advance =>
        have hcalled : pass ∈ Event.calls s.advance.2 := h
        rw [(begun_advance s).1] at hcalled
        exact absurd hcalled List.not_mem_nil
      | act action =>
        have hcalled : pass ∈ Event.calls (s.act action).2 := h
        rw [calls_act] at hcalled
        cases action with
        | call label trigger token? =>
          obtain rfl := List.mem_singleton.mp hcalled
          exact ⟨label, token?, List.mem_cons_self⟩
        | _ => exact absurd hcalled List.not_mem_nil
    · obtain ⟨label, token?, hmem⟩ := ih h
      exact ⟨label, token?, List.mem_cons_of_mem _ hmem⟩

/-- `Event.signals` in a play were called for at its moves. -/
theorem exists_call_of_mem_signals (h : Fresh s) {block : Header}
    (hblock : block ∈ Event.signals (s.play moves).2) :
    ∃ label token?, .act (.call label (.signal block) token?) ∈ moves := by
  obtain ⟨pass, hpass, htrigger⟩ := List.mem_filterMap.mp hblock
  -- whoever starts was called for
  have hcalled : pass ∈ Event.calls (s.play moves).2 := by
    rw [← (inTurn_play h moves).begun]
    exact List.mem_append_left _ hpass
  have hsignal : pass.trigger = .signal block := by
    cases hkind : pass.trigger with
    | signal known => rw [hkind] at htrigger; exact congrArg _ (Option.some.inj htrigger)
    | boundary derivedFrom => rw [hkind] at htrigger; exact nomatch htrigger
  rw [← hsignal]
  exact exists_call_of_mem hcalled

/-! ## Lower signals -/

/-- `advance` with a lower signal next in line ends its pass at once. It looks nothing up and
commits nothing, and the session is left as it was but for the pass being out of line. -/
theorem advance_outdated {pass : Pass} {rest : List Pass} {block : Header}
    (hf : s.flight? = none) (hw : s.waiting = pass :: rest)
    (htrigger : pass.trigger = .signal block) (hlt : block.number < s.tracker.signal.number) :
    s.advance = ({ s with waiting := rest },
      [.started pass .outdated,
        .noted (.outdated s.tracker.signal.toBlockId block.toBlockId),
        .ended pass .outdated]) := by
  have hintake : s.tracker.intake pass.trigger = (s.tracker, .outdated) := by
    rw [htrigger]
    exact if_pos hlt
  have hsilent : pass.endNotices .outdated = [] := by simp [Pass.endNotices, htrigger]
  let t : Session := { s with waiting := rest }
  -- nothing is taken in
  have htook : t.took pass = t := by
    show { t with tracker := (s.tracker.intake pass.trigger).1 } = t
    rw [hintake]
  -- and all that happens is the start, a line and the end
  have hopening : t.opening pass = [.started pass .outdated,
      .noted (.outdated s.tracker.signal.toBlockId block.toBlockId)] := by
    unfold opening
    show Event.started pass (s.tracker.intake pass.trigger).2 :: _ = _
    rw [hintake]
    simp [t, Tracker.intakeNotices, htrigger]
  have hclose : t.close pass .outdated = (t, [.ended pass .outdated]) := by
    unfold close
    rw [logged_of_endNotices hsilent]
    simp [t, hf, hsilent]
  rw [advance_start hf hw, start_eq, htook, hopening]
  show Progress.after _ (t.proceed pass _ (s.tracker.intake pass.trigger).2) = _
  rw [hintake]
  show Progress.after _ (t.close pass .outdated) = _
  rw [hclose]
  rfl

/-! ## The running maximum -/

/-- `signal` of a `Fresh` session is zero. -/
theorem Fresh.signal_eq (h : Fresh s) : s.tracker.signal = .zero := by
  obtain ⟨sizing, hsizing⟩ := h.tracker
  obtain ⟨n, delay, -, htracker⟩ := Tracker.exists_empty_of_ofValue hsizing
  rw [htracker]

/-- `play` never lowers the signal, if all numbers called for can be compared. -/
theorem signal_le_play (h : Fresh s) {past future : List Move}
    (hcalled : ∀ label block token?,
      .act (.call label (.signal block) token?) ∈ past ++ future → block.number ≠ .nan) :
    (s.play past).1.tracker.signal.number
      ≤ (s.play (past ++ future)).1.tracker.signal.number := by
  have hsignals : ∀ block ∈ Event.signals (s.play (past ++ future)).2, block.number ≠ .nan := by
    intro block hblock
    obtain ⟨label, token?, hmem⟩ := exists_call_of_mem_signals h hblock
    exact hcalled label block token? hmem
  rw [play_append, Progress.snd_after, signals_append] at hsignals
  have hzero : s.tracker.signal.number ≠ .nan := by
    rw [h.signal_eq]
    nofun
  -- nothing but the first signal or one of those called for
  have hpast : (s.play past).1.tracker.signal.number ≠ .nan := by
    have hle := Header.le_foldl_adopt hzero (Event.signals (s.play past).2)
      fun block hmem => hsignals block (List.mem_append_left _ hmem)
    rw [signal_play s past]
    exact (Number.ne_nan_of_le hle).2
  rw [fst_play_append, signal_play (s.play past).1 future]
  exact Header.le_foldl_adopt hpast _ fun block hmem =>
    hsignals block (List.mem_append_right _ hmem)

/-- `signal` is the running maximum of the signals that passes started with, in the order of
calling. It never goes lower, it stays the same as long as no pass for a signal starts, and a pass
for a lower signal ends at once and leaves all as it was. -/
theorem signal_running_max (h : Fresh s) (moves : List Move) :
    Event.begun (s.play moves).2 ++ (s.play moves).1.waiting = Event.calls (s.play moves).2 ∧
    Header.Agrees (s.play moves).1.tracker.signal
      ((Event.signals (s.play moves).2).foldl Header.later .zero) ∧
    (∀ past future, moves = past ++ future →
      (Event.signals ((s.play past).1.play future).2 = [] →
        (s.play moves).1.tracker.signal = (s.play past).1.tracker.signal) ∧
      ((∀ label block token?,
          .act (.call label (.signal block) token?) ∈ moves → block.number ≠ .nan) →
        (s.play past).1.tracker.signal.number ≤ (s.play moves).1.tracker.signal.number)) ∧
    ∀ pass rest block, (s.play moves).1.flight? = none →
      (s.play moves).1.waiting = pass :: rest → pass.trigger = .signal block →
      block.number < (s.play moves).1.tracker.signal.number →
      (s.play moves).1.advance = ({ (s.play moves).1 with waiting := rest },
        [.started pass .outdated,
          .noted (.outdated (s.play moves).1.tracker.signal.toBlockId block.toBlockId),
          .ended pass .outdated]) := by
  refine ⟨(inTurn_play h moves).begun, ?_, ?_, fun pass rest block hf hw htrigger hlt =>
    advance_outdated hf hw htrigger hlt⟩
  -- what is stored agrees with the running maximum
  · rw [signal_play, h.signal_eq]
    exact Header.Agrees.foldl (.refl _) _
  -- and any part of the play can only go on from there
  · rintro past future rfl
    refine ⟨fun hnone => ?_, signal_le_play h⟩
    rw [fst_play_append, signal_play (s.play past).1 future, hnone]
    rfl

/-- Signals come in while one of them waits, and passes for them end in all kinds of ways. The
second replaces the first at the same height, though its token is cancelled already; a reset, a
derivation and a boundary that fails come and go; the third finds no block at all behind an answer.
The fourth is lower. -/
def contested : List Move :=
  [.act (.setBlock 13 .null),
    .act (.record (l2At 1) (l1At "a" 10).toBlockId),
    .act (.hold true),
    .act (.call "first" (.signal (l1At "f" 12)) none),
    .advance,
    .act (.cancel "t" .undefined),
    .act (.call "second" (.signal (l1At "g" 12)) (some "t")),
    .act .reset,
    .act (.record (l2At 2) (l1At "b" 11).toBlockId),
    .act (.release (some (.text "gone"))),
    .act (.hold false),
    .advance,
    .advance,
    .act (.call "boundary" (.boundary (l1At "b" 11)) none),
    .advance,
    .act (.call "third" (.signal (l1At "h" 13)) none),
    .advance,
    .act (.call "fourth" (.signal (l1At "g" 12)) none)]

/-- `signal_running_max` in `contested`. -/
theorem contested_running_max :
    small.Fresh ∧
    (Event.signals (small.play contested).2).map Header.toBlockId
      = [(l1At "f" 12).toBlockId, (l1At "g" 12).toBlockId, (l1At "h" 13).toBlockId] ∧
    Header.Agrees (small.play contested).1.tracker.signal
      ((Event.signals (small.play contested).2).foldl Header.later .zero) ∧
    (small.play contested).1.tracker.signal.hash = "h" ∧
    (∀ label block token?,
      .act (.call label (.signal block) token?) ∈ contested → block.number ≠ .nan) ∧
    (small.play (contested.take 5)).1.tracker.signal.number
      ≤ (small.play contested).1.tracker.signal.number ∧
    Event.signals ((small.play (contested.take 5)).1.play ((contested.drop 5).take 6)).2 = [] ∧
    (small.play ((contested.take 5) ++ (contested.drop 5).take 6)).1.tracker.signal
      = (small.play (contested.take 5)).1.tracker.signal ∧
    ((small.play contested).1.waiting.map Pass.number = [4] ∧
      Event.notices (small.play contested).1.advance.2
        = [.outdated (l1At "h" 13).toBlockId (l1At "g" 12).toBlockId]) := by
  -- all signals have numbers that can be compared
  have hnumbers : ∀ label block token?,
      .act (.call label (.signal block) token?) ∈ contested → block.number ≠ .nan := by
    intro label block token? hmem
    simp [contested] at hmem
    rcases hmem with ⟨-, rfl, -⟩ | ⟨-, rfl, -⟩ | ⟨-, rfl, -⟩ | ⟨-, rfl, -⟩ <;> nofun
  have hsplit : contested = contested.take 5 ++ contested.drop 5 :=
    (List.take_append_drop 5 contested).symm
  have hrun := signal_running_max fresh_small contested
  have hpart := signal_running_max fresh_small (contested.take 5 ++ (contested.drop 5).take 6)
  -- no pass for a signal starts in the middle part
  have hquiet :
      Event.signals ((small.play (contested.take 5)).1.play ((contested.drop 5).take 6)).2
        = [] := by rfl
  have hadvance := hrun.2.2.2 ⟨4, "fourth", .signal (l1At "g" 12), none⟩ [] (l1At "g" 12) (by rfl)
    (by rfl) rfl (by decide)
  refine ⟨fresh_small, by rfl, hrun.2.1, by rfl, hnumbers, (hrun.2.2.1 _ _ hsplit).2 hnumbers,
    hquiet, (hpart.2.2.1 _ _ rfl).1 hquiet, by rfl, ?_⟩
  rw [hadvance]
  rfl

end Session

end Settlement
