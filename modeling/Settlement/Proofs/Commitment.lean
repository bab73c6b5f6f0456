import Settlement.Proofs.Session.Underway

/-!
# Commits

What stands behind every commit of a pass, in any play from a session that nothing has happened
to: the block was recorded and not forgotten, and the chain it rests on was looked up. The moves
are cut in three for this: those before the committing pass started, those from its start to its
commit, and those after.

## Key results

- `committed_justified`: a pass commits what it held when it started, once both blocks are found
- `committed_recorded`: a block that is committed was recorded after the last reset
- `committed_stem`: the L1 block that is looked up is the one that the link was begun with
-/

namespace Settlement

namespace Session

/-- Nothing has happened to the session: its tracker is new, and no pass was called for. -/
structure Fresh (s : Session) : Prop where
  tracker : ∃ sizing, Tracker.ofValue sizing = .ok s.tracker
  flight : s.flight? = none
  waiting : s.waiting = []

end Session

/-- The pass asked for the block at the height of the identity, and one with its hash was the
answer. -/
def FoundAt (pass : Nat) (id : BlockId) (events : List Event) : Prop :=
  ∃ height block, height.equal id.number = true ∧ (block.field "hash").text? = some id.hash ∧
    events = [.asked pass height, .answered pass id.number (.block block)]

namespace Session

variable {s : Session} {moves before during : List Move} {pass : Pass} {plan : Plan}
  {mid tail : List Event}

/-! ## Sessions that nothing has happened to -/

/-- `Fresh` has a ring that `Holds` no derivations. -/
theorem Fresh.holds (h : Fresh s) : Holds s.tracker.links [] := by
  obtain ⟨sizing, hsizing⟩ := h.tracker
  obtain ⟨n, delay, hn, htracker⟩ := Tracker.exists_empty_of_ofValue hsizing
  rw [htracker]
  exact holds_empty hn

/-- `Fresh` is `Exact`. -/
theorem Fresh.exact (h : Fresh s) : Exact s := by
  obtain ⟨sizing, hsizing⟩ := h.tracker
  obtain ⟨n, delay, hn, htracker⟩ := Tracker.exists_empty_of_ofValue hsizing
  refine ⟨?_, fun pass hpass => ?_⟩
  · rw [htracker]
    rfl
  · rw [h.waiting] at hpass
    exact absurd hpass List.not_mem_nil

/-- `play` from `Fresh` commits each pass at most once. -/
theorem Fresh.nodup (h : Fresh s) (moves : List Move) :
    ((Event.commitments (s.play moves).2).map Prod.fst).Nodup := by
  have hpending : s.pending = [] := by rw [pending, h.flight, h.waiting]; rfl
  have hsublist := pending_play s (hpending ▸ List.nil_sublist _) moves
  exact List.nodup_range.sublist ((List.sublist_append_left _ _).trans hsublist)

/-! ## What a commit comes from -/

/-- The pass was `Underway` to its commit with both blocks `Verified` and no reset, and its link has
a `Stem` in the derivations since the last reset. -/
structure Commits (s : Session) (before during : List Move) (pass : Pass) (plan : Plan)
    (mid tail : List Event) : Prop where
  underway : Underway (s.play before).1 during pass plan
    (mid ++ .committed pass.number plan.candidate :: tail)
  commitments : Event.commitments mid = []
  verified : plan.Verified s.source pass.number (Event.lookups pass.number mid)
  no_reset : .act .reset ∉ during
  stem : ∃ earlier step others later, derivations before = earlier ++ step :: others ++ later ∧
    Link.Stem ⟨plan.candidate, plan.derivedFrom⟩ step others

/-- A pass that has `committed` came by `Commits`. -/
theorem exists_commits_of_mem (h : Fresh s) {number : Nat} {block : L2Block}
    (hmem : .committed number block ∈ (s.play moves).2) :
    ∃ before during after pass plan mid tail, moves = before ++ during ++ after ∧
      pass.number = number ∧ plan.candidate = block ∧
      Commits s before during pass plan mid tail := by
  obtain ⟨before, during, after, pass, plan, mid, tail, hmoves, hunderway, rfl, rfl, hcommitments,
    hverified, hreset⟩ := exists_underway_of_mem h.flight hmem
  refine ⟨before, during, after, pass, plan, mid, tail, hmoves, rfl, rfl, hunderway, hcommitments,
    hverified, hreset, ?_⟩
  -- the plan was made from the links held at the start, which derivations had left there
  obtain ⟨-, -, hlink, -, -⟩ := Tracker.plan?_eq_some hunderway.plan_eq
  rw [links_took, (holds_play h.holds before).toList_eq] at hlink
  exact Links.exists_stem_of_mem hlink

/-- `address` preserves a block number. -/
theorem equal_of_address {source : Source} {x height : Number}
    (h : source.address x = .ok height) (hx : x.isBlockNumber = true) :
    height.equal x = true := by
  have hsafe : x.isSafeInteger = true := by
    rw [Number.isBlockNumber, Bool.and_eq_true] at hx
    exact hx.1
  -- a safe integer survives the way over an exact integer
  cases source with
  | direct =>
    obtain rfl : x = height := Except.ok.inj h
    rcases Number.isSafeInteger_iff.mp hsafe with rfl | ⟨n, -, rfl⟩
    · rfl
    · exact Number.equal_whole.trans (decide_eq_true rfl)
  | rpc =>
    rcases Number.isSafeInteger_iff.mp hsafe with rfl | ⟨n, hn, rfl⟩
    · obtain rfl : Number.ofInt 0 = height := Except.ok.inj h
      rfl
    · obtain rfl : Number.ofInt n = height := Except.ok.inj h
      have hle : n.natAbs ≤ 2 ^ 53 := Nat.le_trans hn (by decide)
      rw [Number.ofInt_of_le n hle]
      exact Number.equal_whole.trans (decide_eq_true rfl)

/-- `Found` is `FoundAt` where the height is a block number. -/
theorem foundAt_of_found {source : Source} {number : Nat} {stage : Stage} {events : List Event}
    (h : plan.Found source number stage events)
    (hnumber : (plan.expected stage).number.isBlockNumber = true) :
    FoundAt number (plan.expected stage) events := by
  obtain ⟨height, block, haddress, hhash, rfl⟩ := h
  exact ⟨height, block, equal_of_address haddress hnumber, hhash, rfl⟩

/-- `Underway` has a signal whose height is a block number, in a session that is `Exact`. -/
theorem Underway.exact_signal {events : List Event}
    (h : Underway (s.play before).1 during pass plan events) (hs : Exact s)
    (hbefore : before.all Move.isExact = true) : plan.signal.number.isBlockNumber = true := by
  -- it is the one that the start of the pass left behind
  obtain ⟨rest, rfl⟩ := List.head?_eq_some_iff.mp h.begins
  have hprefix : [Move.advance] <+: .advance :: rest := ⟨rest, rfl⟩
  rw [← h.signal _ hprefix (List.cons_ne_nil _ _)]
  have hexact := exact_play hs (before ++ [.advance]) (by rw [List.all_append, hbefore]; rfl)
  rw [fst_play_append] at hexact
  exact hexact.signal

/-- `Commits` has an L1 block whose height is a block number, for moves with `isExact`. -/
theorem Commits.exact_derivedFrom (h : Commits s before during pass plan mid tail)
    (hbefore : before.all Move.isExact = true) :
    plan.derivedFrom.number.isBlockNumber = true := by
  obtain ⟨earlier, step, others, later, hds, hstem⟩ := h.stem
  have hstep : step ∈ derivations before := by rw [hds]; simp
  obtain ⟨past, future, rfl, -⟩ := mem_derivations hstep
  have hall := List.all_eq_true.mp hbefore (.act (.record step.1 step.2)) (by simp)
  have hl1 : plan.derivedFrom = step.2.bare := hstem.l1_eq
  rw [hl1]
  exact hall

/-- `isExact` moves are so before the pass. -/
private theorem exact_before {after : List Move}
    (h : (before ++ during ++ after).all Move.isExact = true) :
    before.all Move.isExact = true := by
  rw [List.all_append, List.all_append, Bool.and_eq_true, Bool.and_eq_true] at h
  exact h.1.1

/-- `Commits` has both blocks `FoundAt` their heights. -/
theorem Commits.foundAt (h : Commits s before during pass plan mid tail) (hs : Fresh s)
    (hbefore : before.all Move.isExact = true) :
    ∃ first second, Event.lookups pass.number mid = first ++ second ∧
      FoundAt pass.number plan.signal.toBlockId first ∧
      FoundAt pass.number plan.derivedFrom second := by
  obtain ⟨first, second, hlookups, hfirst, hsecond⟩ := h.verified
  exact ⟨first, second, hlookups,
    foundAt_of_found hfirst (h.underway.exact_signal hs.exact hbefore),
    foundAt_of_found hsecond (h.exact_derivedFrom hbefore)⟩

/-! ## Justification -/

/-- What justifies the commit of a pass that starts now: its link is held, reached by the signal and
above the head; the signal stays; and both blocks are `FoundAt` their heights, by the only two
lookups before the commit. -/
structure Justified (s : Session) (during : List Move) (pass : Pass) (link : Link)
    (signal : Header) : Prop where
  idle : s.flight? = none
  next : s.waiting.head? = some pass
  begins : during.head? = some .advance
  held : link ∈ s.tracker.links.toList
  final : link.l1.number ≤ signal.number
  higher : s.engine.head.number < link.l2.number
  signal_eq : ∀ past, past <+: during → past ≠ [] → (s.play past).1.tracker.signal = signal
  found : ∃ mid tail first second,
    (s.play during).2 = .started pass .due :: (mid ++ .committed pass.number link.l2 :: tail) ∧
    Event.commitments mid = [] ∧
    Event.lookups pass.number mid = first ++ second ∧
    FoundAt pass.number signal.toBlockId first ∧ FoundAt pass.number link.l1 second

/-- `Commits` is `Justified`. -/
theorem Commits.justified (h : Commits s before during pass plan mid tail) (hs : Fresh s)
    (hbefore : before.all Move.isExact = true) :
    Justified (s.play before).1 during pass ⟨plan.candidate, plan.derivedFrom⟩ plan.signal := by
  -- the plan names a link that was held and final at the start
  obtain ⟨hsignal, -, hlink, hfinal, hhigher⟩ := Tracker.plan?_eq_some h.underway.plan_eq
  -- and both lookups found the hashes that the plan expects
  obtain ⟨first, second, hlookups, hfirst, hsecond⟩ := h.foundAt hs hbefore
  rw [links_took] at hlink
  exact {
    idle := h.underway.idle
    next := h.underway.next
    begins := h.underway.begins
    held := hlink
    final := hsignal ▸ hfinal
    higher := hhigher
    signal_eq := h.underway.signal
    found := ⟨mid, tail, first, second, h.underway.events_eq, h.commitments, hlookups, hfirst,
      hsecond⟩ }

/-- Every commit is `Justified`. The engine goes through what passes commit and what others move it
to, and no pass commits twice. -/
theorem committed_justified (h : Fresh s) (moves : List Move)
    (hexact : moves.all Move.isExact = true) :
    (s.play moves).1.engine.history = s.engine.history ++ Event.heads (s.play moves).2 ∧
    ((Event.commitments (s.play moves).2).map Prod.fst).Nodup ∧
    ∀ number block, .committed number block ∈ (s.play moves).2 →
      ∃ before during after pass link signal, moves = before ++ during ++ after ∧
        pass.number = number ∧ link.l2 = block ∧
        Justified (s.play before).1 during pass link signal := by
  refine ⟨history_play s moves, h.nodup moves, fun number block hmem => ?_⟩
  obtain ⟨before, during, after, pass, plan, mid, tail, rfl, rfl, rfl, hcommits⟩ :=
    exists_commits_of_mem h hmem
  exact ⟨before, during, after, pass, _, plan.signal, rfl, rfl, rfl,
    hcommits.justified h (exact_before hexact)⟩

/-! ### A pass that waits -/

/-- The L1 block with this hash at this height. -/
def l1At (hash : String) (height : Nat) : Header :=
  { hash, number := .whole height, parentHash := "", timestamp := 0 }

/-- The L2 block at this height. -/
def l2At (height : Nat) : L2Block :=
  { hash := "", number := .whole height, parentHash := "", timestamp := 0, l1Origin := .zero,
    sequenceNumber := 0 }

/-- A session with room for two links. -/
def small : Session := { tracker := { delay := 64, links := Ring.empty 2 } }

theorem fresh_small : small.Fresh :=
  ⟨⟨.record [("defaultLookback", .number 2)], rfl⟩, rfl, rfl⟩

/-- The one pass in `commitments` has `committed`. -/
theorem mem_of_commitments_eq {events : List Event} {number : Nat} {block : L2Block}
    (h : Event.commitments events = [(number, block)]) : .committed number block ∈ events := by
  rw [← Event.mem_commitments, h]
  exact List.mem_singleton.mpr rfl

/-- A pass waits for both of its lookups. Its link is taken over in the meantime, a second pass is
called for, and L1 drops the block of the signal after it was found. -/
def waited : List Move :=
  [.act (.record (l2At 1) (l1At "a" 10).toBlockId),
    .act (.setBlock 10 (l1At "a" 10).toValue),
    .act (.setBlock 12 (l1At "f" 12).toValue),
    .act (.hold true),
    .act (.call "first" (.signal (l1At "f" 12)) none),
    .advance,
    .act (.record (l2At 2) (l1At "a" 10).toBlockId),
    .act (.call "second" (.boundary (l1At "b" 11)) none),
    .act (.release none),
    .advance,
    .act (.dropBlock 12),
    .act (.release none),
    .advance,
    .advance]

/-- `waited` meets the premises of `committed_justified`. -/
theorem waited_justified :
    small.Fresh ∧ waited.all Move.isExact = true ∧
    Event.commitments (small.play waited).2 = [(0, l2At 1)] ∧
    ∃ before during after pass link signal, waited = before ++ during ++ after ∧
      pass.number = 0 ∧ link.l2 = l2At 1 ∧
      Justified (small.play before).1 during pass link signal := by
  have hcommitments : Event.commitments (small.play waited).2 = [(0, l2At 1)] := by rfl
  have hmem := mem_of_commitments_eq hcommitments
  exact ⟨fresh_small, by decide, hcommitments,
    (committed_justified fresh_small waited (by decide)).2.2 0 (l2At 1) hmem⟩

/-! ## Forgetting -/

/-- What is `committed` was recorded after the last reset before it, and before its pass started. A
`reset` leaves the signal and the engine alone and forgets every link. -/
theorem committed_recorded (h : Fresh s) (moves : List Move) :
    (∀ number block, .committed number block ∈ (s.play moves).2 →
      ∃ earlier later during after l1 pass mid tail,
        moves = (earlier ++ .act (.record block l1) :: later) ++ during ++ after ∧
        .act .reset ∉ later ++ during ∧ pass.number = number ∧
        (s.play (earlier ++ .act (.record block l1) :: later)).1.waiting.head? = some pass ∧
        during.head? = some .advance ∧
        ((s.play (earlier ++ .act (.record block l1) :: later)).1.play during).2
          = .started pass .due :: (mid ++ .committed number block :: tail)) ∧
    ∀ t : Session,
      (t.act .reset).1.tracker.signal = t.tracker.signal ∧
      (t.act .reset).1.engine = t.engine ∧
      (t.act .reset).1.tracker.links.toList = [] ∧
      (t.act .reset).1.tracker.lastTried = 0 := by
  refine ⟨fun number block hmem => ?_, fun t => ⟨rfl, rfl, Ring.toList_clear _, rfl⟩⟩
  obtain ⟨before, during, after, pass, plan, mid, tail, rfl, rfl, rfl, hcommits⟩ :=
    exists_commits_of_mem h hmem
  obtain ⟨earlier, step, others, later, hds, hstem⟩ := hcommits.stem
  -- some derivation of the stem is that of the block, and none was forgotten before the start
  obtain ⟨d, hd, hl2⟩ := hstem.l2_mem
  have hmem : d ∈ derivations before := by
    rw [hds]
    exact List.mem_append_left _ (List.mem_append_right _ hd)
  obtain ⟨past, future, rfl, hreset⟩ := mem_derivations hmem
  obtain ⟨block, l1⟩ := d
  obtain rfl : block = plan.candidate := hl2
  refine ⟨past, future, during, after, l1, pass, mid, tail, rfl, ?_, rfl, hcommits.underway.next,
    hcommits.underway.begins, hcommits.underway.events_eq⟩
  intro hmem
  rcases List.mem_append.mp hmem with hmem | hmem
  · exact hreset hmem
  · exact hcommits.no_reset hmem

/-- A pass that waits is overtaken by a reset. What was recorded with the same L1 block after
that is for the next pass. -/
def overtaken : List Move :=
  [.act (.record (l2At 1) (l1At "a" 10).toBlockId),
    .act (.setBlock 10 (l1At "a" 10).toValue),
    .act (.setBlock 12 (l1At "f" 12).toValue),
    .act (.hold true),
    .act (.call "first" (.signal (l1At "f" 12)) none),
    .advance,
    .act (.hold false),
    .act (.release none),
    .act .reset,
    .act (.record (l2At 2) (l1At "a" 10).toBlockId),
    .advance,
    .act (.call "second" (.signal (l1At "f" 12)) none),
    .advance]

/-- `overtaken` meets the premises of `committed_recorded`. -/
theorem overtaken_recorded :
    small.Fresh ∧ Event.commitments (small.play overtaken).2 = [(1, l2At 2)] ∧
    (∃ earlier later during after l1 pass mid tail,
      overtaken = (earlier ++ .act (.record (l2At 2) l1) :: later) ++ during ++ after ∧
      .act .reset ∉ later ++ during ∧ pass.number = 1 ∧
      (small.play (earlier ++ .act (.record (l2At 2) l1) :: later)).1.waiting.head? = some pass ∧
      during.head? = some .advance ∧
      ((small.play (earlier ++ .act (.record (l2At 2) l1) :: later)).1.play during).2
        = .started pass .due :: (mid ++ .committed 1 (l2At 2) :: tail)) ∧
    (small.act .reset).1.tracker.links.toList = [] := by
  have hcommitments : Event.commitments (small.play overtaken).2 = [(1, l2At 2)] := by rfl
  have hmem := mem_of_commitments_eq hcommitments
  have hrecorded := committed_recorded fresh_small overtaken
  exact ⟨fresh_small, hcommitments, hrecorded.1 1 (l2At 2) hmem, (hrecorded.2 small).2.2.1⟩

/-! ## The L1 block of a link -/

/-- What is `committed` rests on the L1 block that its link was begun with (`Stem`), which is the
one looked up. For derivations in the order of L1 the block was recorded with that one. -/
theorem committed_stem (h : Fresh s) (moves : List Move)
    (hexact : moves.all Move.isExact = true) (number : Nat) (block : L2Block)
    (hmem : .committed number block ∈ (s.play moves).2) :
    ∃ before during after pass link signal earlier step others later,
      moves = before ++ during ++ after ∧ pass.number = number ∧ link.l2 = block ∧
      Justified (s.play before).1 during pass link signal ∧ .act .reset ∉ during ∧
      derivations before = earlier ++ step :: others ++ later ∧ link.Stem step others ∧
      (Orderly (derivations before) → ∃ l1, (block, l1) ∈ derivations before ∧
        l1.same link.l1 = true ∧ l1.number ≤ signal.number) := by
  obtain ⟨before, during, after, pass, plan, mid, tail, rfl, rfl, rfl, hcommits⟩ :=
    exists_commits_of_mem h hmem
  have hjustified := hcommits.justified h (exact_before hexact)
  -- the derivation that the candidate stems from
  obtain ⟨earlier, step, others, later, hds, hstem⟩ := hcommits.stem
  refine ⟨before, during, after, pass, _, plan.signal, earlier, step, others, later, rfl, rfl, rfl,
    hjustified, hcommits.no_reset, hds, hstem, fun horderly => ?_⟩
  -- in an orderly history the link has kept its own L1 block
  obtain ⟨l1, hl1, hsame, hle⟩ := hstem.exists_same_of_orderly (hds ▸ horderly) hjustified.final
  refine ⟨l1, ?_, hsame, hle⟩
  rw [hds]
  exact List.mem_append_left _ (List.mem_append_right _ hl1)

/-- Two blocks are recorded with L1 blocks of the same height on two forks. -/
def forked : List Move :=
  [.act (.record (l2At 1) (l1At "a" 10).toBlockId),
    .act (.record (l2At 2) (l1At "b" 10).toBlockId),
    .act (.setBlock 10 (l1At "a" 10).toValue),
    .act (.setBlock 12 (l1At "f" 12).toValue),
    .act (.call "first" (.signal (l1At "f" 12)) none),
    .advance]

/-- `forked` meets the premises of `committed_stem`. -/
theorem forked_stem :
    small.Fresh ∧ forked.all Move.isExact = true ∧
    ∃ before during after pass link signal earlier step others later,
      forked = before ++ during ++ after ∧ pass.number = 0 ∧ link.l2 = l2At 2 ∧
      Justified (small.play before).1 during pass link signal ∧ .act .reset ∉ during ∧
      derivations before = earlier ++ step :: others ++ later ∧ link.Stem step others ∧
      (Orderly (derivations before) → ∃ l1, (l2At 2, l1) ∈ derivations before ∧
        l1.same link.l1 = true ∧ l1.number ≤ signal.number) := by
  have hcommitments : Event.commitments (small.play forked).2 = [(0, l2At 2)] := by rfl
  have hmem := mem_of_commitments_eq hcommitments
  exact ⟨fresh_small, by decide, committed_stem fresh_small forked (by decide) 0 (l2At 2) hmem⟩

/-- What is `committed` need not have been recorded with a block that was looked up: in `forked` it
was recorded with that of the fork that lost. -/
theorem forked_unverified :
    small.Fresh ∧ forked.all Move.isExact = true ∧
    .committed 0 (l2At 2) ∈ (small.play forked).2 ∧
    ¬∃ l1, .act (.record (l2At 2) l1) ∈ forked ∧
      ∃ height found, .answered 0 height (.block found) ∈ (small.play forked).2 ∧
        height.equal l1.number = true ∧ (found.field "hash").text? = some l1.hash := by
  have hcommitments : Event.commitments (small.play forked).2 = [(0, l2At 2)] := by rfl
  have hlookups : Event.lookups 0 (small.play forked).2 =
      [.asked 0 12, .answered 0 12 (.block (l1At "f" 12).toValue),
        .asked 0 10, .answered 0 10 (.block (l1At "a" 10).toValue)] := by rfl
  refine ⟨fresh_small, by decide, mem_of_commitments_eq hcommitments, ?_⟩
  · rintro ⟨l1, hrecord, height, found, hanswered, hheight, hhash⟩
    have hl1 : l1 = (l1At "b" 10).toBlockId := by
      simpa [forked, l2At] using hrecord
    have hlookup : .answered 0 height (.block found) ∈ Event.lookups 0 (small.play forked).2 :=
      List.mem_filter.mpr ⟨hanswered, rfl⟩
    rw [hlookups] at hlookup
    -- no block was found at another height than 10, and the one there is not that of the record
    have hfound : (height = 12) ∨ found = (l1At "a" 10).toValue := by
      simp only [List.mem_cons, Event.answered.injEq, Reply.block.injEq, List.not_mem_nil,
        reduceCtorEq, true_and, or_false, false_or] at hlookup
      exact hlookup.imp And.left And.right
    subst hl1
    rcases hfound with rfl | rfl
    · exact absurd hheight (by decide)
    · exact absurd hhash (by decide)

end Session

end Settlement
