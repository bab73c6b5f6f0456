import Settlement.Proofs.Commitment
import Settlement.Proofs.Provenance.Steps
import Settlement.Proofs.Session.Forecast

/-!
# The order of finality signals

Finality signals can be sent in any order, some of them late and some of them twice, and the passes
that they call for can commit blocks in between or find nothing to do. If the node vouches for all
blocks, the head of the engine and the height of the signal known depend on the greatest height
alone.

## Key results

- `signals_confluent`: signals with the same greatest height leave the same head
- `unordered_raises`: a signal whose height is NaN does not keep a later one from moving the head
-/

namespace Settlement

/-- The greatest number of some signals. -/
structure Header.Highest (n : Number) (signals : List Header) : Prop where
  reached : ∃ block ∈ signals, block.number.equal n = true
  le : ∀ block ∈ signals, block.number ≤ n

namespace Session

variable {origin s : Session} {past moves : List Move} {signals xs ys : List Header} {n : Number}

/-- Somebody calls for passes with these signals, one after the other, and the passes run to their
ends. Nobody does anything else but make lookups wait and answer them. -/
structure Sends (s : Session) (signals : List Header) (moves : List Move) : Prop where
  only : ∀ m ∈ moves, m.IsSending s.cancelled
  signals_eq : moves.filterMap Move.signal? = signals
  landed : (s.play moves).1.flight? = none
  done : (s.play moves).1.waiting = []

/-- `Sends` is met where the node answers at once: each pass is over before the next one is called
for. -/
private theorem sends_unheld (h : s.Unheld) (hw : s.waiting = []) (signals : List Header) :
    s.Sends signals
      (signals.flatMap fun block => [.act (.call "" (.signal block) none), .advance]) := by
  induction signals generalizing s with
  | nil => exact ⟨by simp, rfl, h.flight, hw⟩
  | cons block signals ih =>
    let called := (s.call "" (.signal block) none).1
    have hcalled : called.Unheld := ⟨h.flight, h.holding⟩
    have hwaiting : called.waiting = [⟨s.called, "", .signal block, none⟩] := by
      show s.waiting ++ [_] = _
      rw [hw]
      rfl
    obtain ⟨hover, hnone⟩ := hcalled.advance
    rw [hwaiting] at hnone
    have hkept : called.advance.1.cancelled = s.cancelled := by
      rw [advance_start hcalled.flight hwaiting,
        start_of_unheld (s := { called with waiting := [] }) hcalled.flight hcalled.holding]
      rfl
    have hrest := ih hover hnone
    have hplay : ∀ moves, (s.play (.act (.call "" (.signal block) none) :: .advance :: moves)).1
        = (called.advance.1.play moves).1 := fun _ => rfl
    rw [List.flatMap_cons]
    -- the first pass has ended when the next signal is sent
    refine ⟨fun m hmem => ?_, ?_, ?_, ?_⟩
    · rcases List.mem_append.mp hmem with hmem | hmem
      · rcases List.mem_cons.mp hmem with rfl | hmem
        · rfl
        · rw [List.mem_singleton.mp hmem]
          trivial
      · exact hkept ▸ hrest.only m hmem
    · rw [List.filterMap_append, hrest.signals_eq]
      rfl
    · exact (congrArg Session.flight? (hplay _)).trans hrest.landed
    · exact (congrArg Session.waiting (hplay _)).trans hrest.done

/-- `Sends` is met by some moves for any signals, if no pass is left. -/
theorem exists_sends (hf : s.flight? = none) (hw : s.waiting = []) (signals : List Header) :
    ∃ moves, s.Sends signals moves := by
  -- lookups that were made to wait are let go first
  let prompt : Session := { s with node := { s.node with holding := false } }
  have hunheld : prompt.Unheld := ⟨hf, rfl⟩
  have hprompt := sends_unheld hunheld hw signals
  refine ⟨.act (.hold false) :: _, fun m hmem => ?_, ?_, hprompt.landed, hprompt.done⟩
  · rcases List.mem_cons.mp hmem with rfl | hmem
    · trivial
    · exact hprompt.only m hmem
  · exact hprompt.signals_eq

/-- `play` of a `Fresh` session leaves links with ascending L1 numbers. -/
theorem links_ascend (h : Fresh origin) (past : List Move) :
    (origin.play past).1.tracker.links.toList.Pairwise (·.l1.number < ·.l1.number) := by
  have hc : 0 < origin.tracker.links.capacity := Nat.zero_lt_of_lt h.holds.wellFormed.start_lt
  rw [links_play h.holds, Links.ofDerivations_eq_rtake hc]
  exact (Links.ascending_history _).sublist (List.drop_sublist _ _)

/-- `forecast` is the tracker and the head where no pass is left. -/
theorem forecast_of_idle (hf : s.flight? = none) (hw : s.waiting = []) :
    s.forecast = { tracker := s.tracker, head := s.engine.head } := by
  simp only [forecast, outlook, hf, hw]
  rfl

/-- `Sends` of signals that are all vouched for leaves the outlook that has heeded them. -/
theorem Sends.outlook_eq (h : s.Sends signals moves) (hs : s.Assured) (hf : s.flight? = none)
    (hw : s.waiting = []) (hvouched : ∀ block ∈ signals, s.Vouches block.toBlockId) :
    (⟨(s.play moves).1.tracker, (s.play moves).1.engine.head⟩ : Outlook)
      = signals.foldl (Outlook.heed s.refusal?.isNone) ⟨s.tracker, s.engine.head⟩ := by
  have hforecast := (assured_play hs h.only (h.signals_eq ▸ hvouched)).forecast
  rw [forecast_of_idle h.landed h.done, forecast_of_idle hf hw, h.signals_eq] at hforecast
  exact hforecast

/-- `Sends` of signals that are all older than the one known changes nothing. -/
theorem Sends.older (h : s.Sends signals moves) (hs : s.Assured) (hf : s.flight? = none)
    (hw : s.waiting = []) (hvouched : ∀ block ∈ signals, s.Vouches block.toBlockId)
    (hn : Header.Highest n signals) (hlt : n < s.tracker.signal.number) :
    (s.play moves).1.tracker = s.tracker ∧ (s.play moves).1.engine.head = s.engine.head := by
  have houtlook := h.outlook_eq hs hf hw hvouched
  rw [Outlook.foldl_heed_of_lt fun block hmem => Number.lt_of_le_of_lt (hn.le block hmem) hlt]
    at houtlook
  exact ⟨congrArg Outlook.tracker houtlook, congrArg Outlook.head houtlook⟩

/-- `Sends` of signals of which one is not older makes the greatest one known, and the head climbs
as far as it allows. -/
theorem Sends.newer (h : s.Sends signals moves) (hs : s.Assured) (hf : s.flight? = none)
    (hw : s.waiting = []) (hvouched : ∀ block ∈ signals, s.Vouches block.toBlockId)
    (hlinks : s.tracker.links.toList.Pairwise (·.l1.number < ·.l1.number))
    (hn : Header.Highest n signals) (hlt : ¬n < s.tracker.signal.number) :
    (s.play moves).1.tracker.signal.number.equal n = true ∧
    (s.play moves).1.engine.head
      = Outlook.reach s.refusal?.isNone s.engine.head (Links.upTo s.tracker.links.toList n) := by
  have houtlook := h.outlook_eq hs hf hw hvouched
  obtain ⟨hsignal, hhead⟩ := Outlook.foldl_heed (o := ⟨s.tracker, s.engine.head⟩)
    s.refusal?.isNone hlinks hn.le hlt (.inl hn.reached)
  rw [← houtlook] at hsignal hhead
  exact ⟨hsignal, hhead⟩

/-- `Sends` of signals with the same greatest number, all of them vouched for, leaves the same head
and a signal of the same number. Unless they are older than the one known, the head is then the
highest block there is up to that number; if they are, it stays. -/
theorem signals_confluent (h : Fresh origin) (hheld : origin.node.held = [])
    (hs : (origin.play past).1 = s) (hf : s.flight? = none) (hw : s.waiting = [])
    (hlinks : ∀ link ∈ s.tracker.links.toList, s.Vouches link.l1)
    (hxs : Header.Highest n xs) (hys : Header.Highest n ys)
    (hvouched : ∀ block ∈ xs ++ ys, s.Vouches block.toBlockId) :
    (∃ moves, s.Sends xs moves) ∧
    ∀ moves moves', s.Sends xs moves → s.Sends ys moves' →
      (s.play moves).1.engine.head = (s.play moves').1.engine.head ∧
      (s.play moves).1.tracker.signal.number.equal (s.play moves').1.tracker.signal.number = true ∧
      (¬n < s.tracker.signal.number → s.refusal? = none →
        L2Block.Peaks (s.play moves).1.engine.head s.engine.head
          (Links.upTo s.tracker.links.toList n)) ∧
      (n < s.tracker.signal.number → (s.play moves).1.engine.head = s.engine.head) := by
  have hissued : s.Issued := by
    have horigin : origin.Issued := by simp [Issued, hheld]
    exact hs ▸ issued_play horigin past
  -- no pass is left, and every link and signal is vouched for
  have hassured : s.Assured := by
    refine ⟨hlinks, fun pass hmem => ?_, hissued, awaited_of_landed hf⟩
    rw [hw] at hmem
    exact absurd hmem List.not_mem_nil
  have hascending := hs ▸ links_ascend h past
  have hvouchedx := fun block hmem => hvouched block (List.mem_append_left _ hmem)
  have hvouchedy := fun block hmem => hvouched block (List.mem_append_right _ hmem)
  refine ⟨exists_sends hf hw xs, fun moves moves' hsends hsends' => ?_⟩
  -- the closed form of what either list leaves depends on the greatest height alone
  by_cases hlt : n < s.tracker.signal.number
  · obtain ⟨hx, hxhead⟩ := hsends.older hassured hf hw hvouchedx hxs hlt
    obtain ⟨hy, hyhead⟩ := hsends'.older hassured hf hw hvouchedy hys hlt
    refine ⟨hxhead.trans hyhead.symm, ?_, fun hnot => absurd hlt hnot, fun _ => hxhead⟩
    rw [hx, hy]
    exact Number.equal_self_of_le (Number.le_refl (Number.ne_nan_of_lt hlt).2)
  · obtain ⟨hx, hxhead⟩ := hsends.newer hassured hf hw hvouchedx hascending hxs hlt
    obtain ⟨hy, hyhead⟩ := hsends'.newer hassured hf hw hvouchedy hascending hys hlt
    refine ⟨hxhead.trans hyhead.symm, Number.equal_trans hx (Number.equal_comm _ _ ▸ hy),
      fun _ hrefusal => ?_, fun hbelow => absurd hbelow hlt⟩
    rw [hxhead, hrefusal]
    exact L2Block.peaks_climb ..

/-! ### Signals in two orders -/

/-- Two L2 blocks of one number, derived from two L1 blocks. -/
def tied : List Move :=
  [.act (.record (l2At 2) (l1At "a" 10).toBlockId),
    .act (.record { l2At 2 with sequenceNumber := 1 } (l1At "b" 11).toBlockId),
    .act (.setBlock 10 (l1At "a" 10).toValue),
    .act (.setBlock 11 (l1At "b" 11).toValue),
    .act (.setBlock 12 (l1At "f" 12).toValue)]

/-- The greatest signal is sent alone. -/
def single : List Move := [.act (.call "only" (.signal (l1At "f" 12)) none), .advance]

/-- Lower signals come before it, one of which is older than the one before, and one comes again.
The first two passes are called for at once, and the first one waits for its lookups and commits. -/
def scattered : List Move :=
  [.act (.hold true),
    .act (.call "first" (.signal (l1At "b" 11)) none),
    .act (.call "second" (.signal (l1At "a" 10)) none),
    .advance,
    .act (.release none),
    .advance,
    .act (.release none),
    .advance,
    .advance,
    .act (.call "third" (.signal (l1At "f" 12)) none),
    .advance,
    .act (.call "fourth" (.signal (l1At "b" 11)) none),
    .advance]

/-- `signals_confluent` in `tied`, with signals sent as in `single` and as in `scattered`. -/
theorem tied_confluent :
    small.Fresh ∧ small.node.held = [] ∧ (small.play tied).1.flight? = none ∧
    (small.play tied).1.waiting = [] ∧
    (∀ link ∈ (small.play tied).1.tracker.links.toList, (small.play tied).1.Vouches link.l1) ∧
    Event.commits ((small.play tied).1.play single).2 = [l2At 2] ∧
    Event.commits ((small.play tied).1.play scattered).2 = [l2At 2] ∧
    ((small.play tied).1.play single).1.engine.head
      = ((small.play tied).1.play scattered).1.engine.head ∧
    L2Block.Peaks ((small.play tied).1.play single).1.engine.head .zero
      (Links.upTo (small.play tied).1.tracker.links.toList 12) := by
  let signals : List Header := [l1At "b" 11, l1At "a" 10, l1At "f" 12, l1At "b" 11]
  have hlinks : ∀ link ∈ (small.play tied).1.tracker.links.toList,
      (small.play tied).1.Vouches link.l1 := by
    have hheld : (small.play tied).1.tracker.links.toList
        = [⟨l2At 2, (l1At "a" 10).toBlockId⟩,
          ⟨{ l2At 2 with sequenceNumber := 1 }, (l1At "b" 11).toBlockId⟩] := by rfl
    rw [hheld, List.forall_mem_cons, List.forall_mem_singleton]
    exact ⟨by rfl, by rfl⟩
  -- both lists of moves send their signals and nothing else
  have hsingle : (small.play tied).1.Sends [l1At "f" 12] single :=
    ⟨by simp [single, Move.IsSending, Cancellations.reason?], rfl, by rfl, by rfl⟩
  have hscattered : (small.play tied).1.Sends signals scattered :=
    ⟨by simp [scattered, Move.IsSending, Cancellations.reason?], rfl, by rfl, by rfl⟩
  have hvouched : ∀ block ∈ [l1At "f" 12] ++ signals,
      (small.play tied).1.Vouches block.toBlockId := by
    simp only [signals, List.cons_append, List.nil_append, List.forall_mem_cons]
    exact ⟨by rfl, by rfl, by rfl, by rfl, by rfl, nofun⟩
  -- and 12 is the greatest number in both
  have hone : Header.Highest 12 [l1At "f" 12] :=
    ⟨⟨l1At "f" 12, List.mem_singleton.mpr rfl, by decide⟩, by decide⟩
  have hmany : Header.Highest 12 signals :=
    ⟨⟨l1At "f" 12, by simp [signals], by decide⟩, by decide⟩
  have hpast : (small.play tied).1 = (small.play tied).1 := rfl
  obtain ⟨-, hconfluent⟩ := signals_confluent fresh_small rfl hpast (by rfl) (by rfl) hlinks
    hone hmany hvouched
  obtain ⟨hheads, -, hpeaks, -⟩ := hconfluent single scattered hsingle hscattered
  exact ⟨fresh_small, rfl, by rfl, by rfl, hlinks, by rfl, by rfl, hheads,
    hpeaks (by decide) (by rfl)⟩

/-! ### A signal without a height -/

/-- A signal is known whose height is NaN. -/
def unordered : List Move :=
  [.act (.record (l2At 1) (l1At "a" 10).toBlockId),
    .act (.setBlock 10 (l1At "a" 10).toValue),
    .act (.setBlock 12 (l1At "f" 12).toValue),
    .act (.call "first" (.signal { l1At "n" 0 with number := .nan }) none),
    .advance]

/-- `signals_confluent` for signals whose numbers can be compared only: here the next signal is not
at or above the one known, and moves the head all the same. -/
theorem unordered_raises :
    small.Fresh ∧ (small.play unordered).1.flight? = none ∧
    (small.play unordered).1.waiting = [] ∧
    (∀ link ∈ (small.play unordered).1.tracker.links.toList,
      (small.play unordered).1.Vouches link.l1) ∧
    (small.play unordered).1.Vouches (l1At "f" 12).toBlockId ∧
    (small.play unordered).1.Sends [l1At "f" 12] single ∧
    ¬(small.play unordered).1.tracker.signal.number ≤ (l1At "f" 12).number ∧
    (small.play unordered).1.engine.head = .zero ∧
    ((small.play unordered).1.play single).1.engine.head = l2At 1 := by
  have hlinks : (small.play unordered).1.tracker.links.toList
      = [⟨l2At 1, (l1At "a" 10).toBlockId⟩] := by rfl
  have hsends : (small.play unordered).1.Sends [l1At "f" 12] single :=
    ⟨by simp [single, Move.IsSending, Cancellations.reason?], rfl, by rfl, by rfl⟩
  refine ⟨fresh_small, by rfl, by rfl, ?_, by rfl, hsends, by decide, by rfl, by rfl⟩
  rw [hlinks, List.forall_mem_singleton]
  rfl

end Session

end Settlement
