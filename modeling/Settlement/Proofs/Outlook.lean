import Settlement.Proofs.Signal

/-!
# Outlooks

The forecast of a tracker and the head of its engine, if every pass finds the blocks that it looks
up: a finality signal is taken in, and the head climbs over the links at or below it
(`Outlook.heed`). Where the head ends up depends on the greatest signal alone, not on the order of
the signals or on how often one of them comes: with the links ascending, those at or below a lower
signal come first among those at or below a higher one, and a head that has climbed over them
climbs on to the same block.

## Key results

- `L2Block.climb_of_prefix`: climbing over the first links before climbing over all of them makes
  no difference
- `L2Block.peaks_climb`: the head climbs to the highest block there is
- `Outlook.foldl_heed`: an outlook under signals of which the greatest is known
-/

namespace Settlement

namespace L2Block

variable {head : L2Block} {x : Number} {links : List Link}

/-- A head moves on to the block of a link above it. -/
def stepUp (head : L2Block) (link : Link) : L2Block :=
  if head.number < link.l2.number then link.l2 else head

/-- A head steps up along links, from the oldest on. -/
def climb (head : L2Block) (links : List Link) : L2Block := links.foldl stepUp head

/-- `climb` goes up one list after the other. -/
theorem climb_append (head : L2Block) (xs ys : List Link) :
    head.climb (xs ++ ys) = (head.climb xs).climb ys := List.foldl_append

/-- `climb` leaves the head no lower. -/
theorem not_climb_lt (h : ¬head.number < x) (links : List Link) :
    ¬(head.climb links).number < x := by
  induction links generalizing head with
  | nil => exact h
  | cons link links ih =>
    refine ih ?_
    unfold stepUp
    -- a step leaves the head where it is, or raises it
    split
    · rename_i habove
      exact fun hlt => h (Number.lt_trans habove hlt)
    · exact h

/-- `climb` leaves no link above the head. -/
theorem not_climb_lt_of_mem {link : Link} (hmem : link ∈ links) :
    ¬(head.climb links).number < link.l2.number := by
  induction links generalizing head with
  | nil => exact absurd hmem List.not_mem_nil
  | cons first links ih =>
    -- the head is past the first link after one step, and does not fall back
    rcases List.mem_cons.mp hmem with rfl | hmem
    · refine not_climb_lt ?_ links
      unfold stepUp
      split
      · exact Number.lt_irrefl _
      · assumption
    · exact ih hmem

/-- `climb` keeps a head that no link is above. -/
theorem climb_of_not_lt (h : ∀ link ∈ links, ¬head.number < link.l2.number) :
    head.climb links = head := by
  induction links with
  | nil => rfl
  | cons link links ih =>
    have hstays : head.stepUp link = head := if_neg (h link List.mem_cons_self)
    show (head.stepUp link).climb links = head
    rw [hstays]
    exact ih fun other hmem => h other (List.mem_cons_of_mem _ hmem)

/-- `climb` up the first links and then up all of them is `climb` up all of them. -/
theorem climb_of_prefix {low high : List Link} (h : low <+: high) :
    (head.climb low).climb high = head.climb high := by
  obtain ⟨later, rfl⟩ := h
  have hstays : (head.climb low).climb low = head.climb low :=
    climb_of_not_lt fun link hmem => not_climb_lt_of_mem hmem
  rw [climb_append, climb_append, hstays]

/-- `climb` gets to the block of a link, or stays. -/
theorem climb_mem (head : L2Block) (links : List Link) :
    head.climb links = head ∨ ∃ link ∈ links, head.climb links = link.l2 := by
  induction links generalizing head with
  | nil => exact .inl rfl
  | cons link links ih =>
    have hclimb : head.climb (link :: links) = (head.stepUp link).climb links := rfl
    rw [hclimb]
    -- it stays after the first step, or moves on to a later link
    rcases ih (head.stepUp link) with heq | ⟨other, hmem, heq⟩
    · rw [heq]
      unfold stepUp
      split
      · exact .inr ⟨link, List.mem_cons_self, rfl⟩
      · exact .inl rfl
    · exact .inr ⟨other, List.mem_cons_of_mem _ hmem, heq⟩

/-- `climb` never lowers a head that has a number. -/
theorem le_climb (h : head.number ≠ .nan) (links : List Link) :
    head.number ≤ (head.climb links).number := by
  -- over the links, for any head that has a number
  induction links generalizing head with
  | nil => exact Number.le_refl h
  | cons link links ih =>
    have hclimb : head.climb (link :: links) = (head.stepUp link).climb links := rfl
    have hstep : head.number ≤ (head.stepUp link).number := by
      unfold stepUp
      split
      · rename_i habove
        exact Number.le_of_lt habove
      · exact Number.le_refl h
    rw [hclimb]
    exact Number.le_trans hstep (ih (Number.ne_nan_of_le hstep).2)

/-- A block is the highest one of a head and of what links hold. A number that is NaN is above
nothing, and nothing is above it. -/
structure Peaks (peak head : L2Block) (links : List Link) : Prop where
  mem : peak = head ∨ ∃ link ∈ links, peak = link.l2
  head_le : head.number ≠ .nan → head.number ≤ peak.number
  le : head.number ≠ .nan → ∀ link ∈ links, link.l2.number ≠ .nan → link.l2.number ≤ peak.number
  eq_of_nan : head.number = .nan → peak = head

/-- `climb` gets to the highest block there is. -/
theorem peaks_climb (head : L2Block) (links : List Link) :
    Peaks (head.climb links) head links where
  mem := climb_mem head links
  head_le hhead := le_climb hhead links
  le hhead _ hmem hlink :=
    Number.le_of_not_lt (Number.ne_nan_of_le (le_climb hhead links)).2 hlink
      (not_climb_lt_of_mem hmem)
  eq_of_nan hnan := climb_of_not_lt fun _ _ hlt => (Number.ne_nan_of_lt hlt).1 hnan

end L2Block

/-! ## What is at or below a number -/

namespace Links

variable {links : List Link} {low high : Number}

/-- The links whose L1 block is at or below a number. -/
def upTo (links : List Link) (number : Number) : List Link :=
  links.filter (·.l1.number ≤ number)

/-- `upTo` keeps a link at or below the number. -/
theorem upTo_cons_of_le {link : Link} (links : List Link) (h : link.l1.number ≤ high) :
    upTo (link :: links) high = link :: upTo links high :=
  List.filter_cons_of_pos (decide_eq_true h)

/-- `upTo` leaves out a link above the number. -/
theorem upTo_cons_of_not_le {link : Link} (links : List Link) (h : ¬link.l1.number ≤ high) :
    upTo (link :: links) high = upTo links high :=
  List.filter_cons_of_neg (by simpa using h)

/-- `upTo` of a lower number comes first in that of a higher one, if L1 numbers ascend. -/
theorem upTo_prefix (hlinks : links.Pairwise (·.l1.number < ·.l1.number)) (h : low ≤ high) :
    upTo links low <+: upTo links high := by
  induction links with
  | nil => exact List.prefix_rfl
  | cons link links ih =>
    obtain ⟨habove, hrest⟩ := List.pairwise_cons.mp hlinks
    by_cases hle : link.l1.number ≤ low
    · rw [upTo_cons_of_le links hle, upTo_cons_of_le links (Number.le_trans hle h)]
      exact (List.prefix_cons_inj link).mpr (ih hrest)
    · -- all that come later are higher still
      have hnone : upTo links low = [] := by
        refine List.filter_eq_nil_iff.mpr fun other hmem => ?_
        have hlt := habove other hmem
        simpa using fun hother => hle (Number.le_trans (Number.le_of_lt hlt) hother)
      rw [upTo_cons_of_not_le links hle, hnone]
      exact List.nil_prefix

/-- `upTo` of equal numbers is the same. -/
theorem upTo_of_equal (links : List Link) (h : low.equal high = true) :
    upTo links low = upTo links high := by
  refine List.filter_congr fun link _ => decide_eq_decide.mpr ⟨fun hle => ?_, fun hle => ?_⟩
  · exact Number.le_of_le_of_equal hle h
  · exact Number.le_of_le_of_equal hle (Number.equal_comm low high ▸ h)

end Links

/-! ## Outlooks -/

/-- A tracker, and the head that its passes advance. -/
structure Outlook where
  tracker : Tracker
  head : L2Block

namespace Tracker

variable {t : Tracker} {head : L2Block} {block : Header}

/-- `better` scans for a candidate as `climb` goes up the links at or below the signal. -/
theorem fst_foldl_better (signal : Number) (links : List Link) (best : L2Block × Option BlockId) :
    (links.foldl (better signal) best).1 = best.1.climb (Links.upTo links signal) := by
  induction links generalizing best with
  | nil => rfl
  | cons link links ih =>
    rw [List.foldl_cons, ih]
    -- what is not final yet is passed over by both
    by_cases hle : link.l1.number ≤ signal
    · have hbetter : (better signal best link).1 = best.1.stepUp link := by
        simp only [better, hle, and_true, L2Block.stepUp]
        split <;> rfl
      rw [Links.upTo_cons_of_le links hle, hbetter]
      rfl
    · have hbetter : better signal best link = best := if_neg fun h => hle h.2
      rw [Links.upTo_cons_of_not_le links hle, hbetter]

/-- `plan?` has the candidate that the head climbs to. -/
theorem climb_of_plan? {plan : Plan} (h : t.plan? head = some plan) :
    head.climb t.finals = plan.candidate := by
  have hfold : head.climb t.finals
      = (t.links.toList.foldl (better t.signal.number) (head, none)).1 :=
    (fst_foldl_better _ _ (head, none)).symm
  rw [hfold]
  unfold plan? at h
  obtain ⟨derivedFrom, -, rfl⟩ := Option.map_eq_some_iff.mp h
  rfl

/-- `climb` stays where there is no plan. -/
theorem climb_of_plan?_eq_none (h : t.plan? head = none) : head.climb t.finals = head :=
  L2Block.climb_of_not_lt (plan?_eq_none_iff.mp h)

theorem links_adopt (t : Tracker) (block : Header) : (t.adopt block).links = t.links := by
  obtain ⟨kept, tried, heq, -⟩ := adopt_eq t block
  rw [heq]

/-- `adopt` takes the signal, or keeps one that has its number and hash. -/
theorem adopt_cases (t : Tracker) (block : Header) :
    (t.adopt block).signal = block ∨
    (t.adopt block).signal = t.signal ∧ t.signal.toBlockId.same block.toBlockId = true := by
  unfold adopt
  split
  · rename_i hsame
    simp only [Header.same, Bool.and_eq_true] at hsame
    exact .inr ⟨rfl, hsame.1.1⟩
  · exact .inl rfl

/-- `adopt` leaves the number of the signal. -/
theorem number_adopt (t : Tracker) {n : Number} (h : block.number ≤ n) :
    (t.adopt block).signal.number.equal block.number = true := by
  rcases adopt_cases t block with heq | ⟨heq, hsame⟩
  · rw [heq]
    exact Number.equal_self_of_le h
  · rw [heq]
    simp only [BlockId.same, Bool.and_eq_true] at hsame
    exact hsame.1

/-- `finals` after `adopt` are the links up to the number of the signal. -/
theorem finals_adopt (t : Tracker) {n : Number} (h : block.number ≤ n) :
    (t.adopt block).finals = Links.upTo t.links.toList block.number := by
  have hfinals : (t.adopt block).finals
      = Links.upTo (t.adopt block).links.toList (t.adopt block).signal.number := rfl
  rw [hfinals, links_adopt, Links.upTo_of_equal _ (number_adopt t h)]

end Tracker

namespace Outlook

variable {o : Outlook} {takes : Bool} {n : Number} {block : Header} {signals : List Header}

/-- The head once it has climbed over the links: it stays where it is, unless the engine takes what
is committed. -/
def reach (takes : Bool) (head : L2Block) (links : List Link) : L2Block :=
  if takes then head.climb links else head

/-- `reach` over the first links and then over all of them is `reach` over all of them. -/
theorem reach_of_prefix {low high : List Link} (takes : Bool) (head : L2Block)
    (h : low <+: high) : reach takes (reach takes head low) high = reach takes head high := by
  cases takes with
  | true => exact L2Block.climb_of_prefix h
  | false => rfl

/-- An outlook that takes in a finality signal and advances its head as far as that allows. -/
def heed (takes : Bool) (o : Outlook) (block : Header) : Outlook :=
  match o.tracker.intake (.signal block) with
  | (tracker, .due) => { tracker, head := reach takes o.head tracker.finals }
  | (tracker, _) => { o with tracker }

/-- `heed` of an older signal changes nothing. -/
theorem heed_of_lt (h : block.number < o.tracker.signal.number) : o.heed takes block = o := by
  have hintake : o.tracker.intake (.signal block) = (o.tracker, .outdated) := if_pos h
  unfold heed
  rw [hintake]

/-- `heed` of any other signal adopts it. -/
theorem heed_of_not_lt (h : ¬block.number < o.tracker.signal.number) :
    o.heed takes block = {
      tracker := o.tracker.adopt block
      head := reach takes o.head (o.tracker.adopt block).finals } := by
  have hintake : o.tracker.intake (.signal block) = (o.tracker.adopt block, .due) := if_neg h
  unfold heed
  rw [hintake]

/-- `heed` keeps the links. -/
theorem links_heed (takes : Bool) (o : Outlook) (block : Header) :
    (o.heed takes block).tracker.links = o.tracker.links := by
  by_cases hold : block.number < o.tracker.signal.number
  · rw [heed_of_lt hold]
  · rw [heed_of_not_lt hold]
    exact Tracker.links_adopt ..

/-- `heed` of a signal that is not above a number leaves what the head reaches under that number. -/
theorem reach_heed (takes : Bool)
    (hlinks : o.tracker.links.toList.Pairwise (·.l1.number < ·.l1.number))
    (hle : block.number ≤ n) :
    reach takes (o.heed takes block).head (Links.upTo o.tracker.links.toList n)
      = reach takes o.head (Links.upTo o.tracker.links.toList n) := by
  by_cases hold : block.number < o.tracker.signal.number
  · rw [heed_of_lt hold]
  · -- the links that the head has climbed over come first among those up to the greater one
    rw [heed_of_not_lt hold]
    dsimp only
    rw [Tracker.finals_adopt o.tracker hle]
    exact reach_of_prefix takes o.head (Links.upTo_prefix hlinks hle)

/-- An outlook that knows a signal of this number, with a head as far as that allows. -/
structure Attains (takes : Bool) (o : Outlook) (n : Number) : Prop where
  signal : o.tracker.signal.number.equal n = true
  head : reach takes o.head (Links.upTo o.tracker.links.toList n) = o.head

/-- `heed` of signals up to a number leaves the signal no higher than that. -/
theorem not_lt_signal_heed (hle : block.number ≤ n) (hlt : ¬n < o.tracker.signal.number) :
    ¬n < (o.heed takes block).tracker.signal.number := by
  by_cases hold : block.number < o.tracker.signal.number
  · rwa [heed_of_lt hold]
  · rw [heed_of_not_lt hold]
    have hadopted := Number.le_of_equal (Tracker.number_adopt o.tracker hle)
    exact fun hlt => Number.not_le_of_lt hlt (Number.le_trans hadopted hle)

/-- `Attains` holds after a signal of this number that is not older. -/
theorem attains_heed (hlinks : o.tracker.links.toList.Pairwise (·.l1.number < ·.l1.number))
    (hequal : block.number.equal n = true) (hnew : ¬block.number < o.tracker.signal.number) :
    Attains takes (o.heed takes block) n := by
  have hle := Number.le_of_equal hequal
  refine ⟨?_, ?_⟩
  · rw [heed_of_not_lt hnew]
    exact Number.equal_trans (Tracker.number_adopt o.tracker hle) hequal
  · rw [links_heed, reach_heed takes hlinks hle, heed_of_not_lt hnew]
    dsimp only
    rw [Tracker.finals_adopt o.tracker hle, Links.upTo_of_equal _ hequal]

/-- `heed` of a signal that is not greater keeps what `Attains` says. -/
theorem Attains.heed (h : Attains takes o n)
    (hlinks : o.tracker.links.toList.Pairwise (·.l1.number < ·.l1.number))
    (hle : block.number ≤ n) : Attains takes (o.heed takes block) n := by
  by_cases hold : block.number < o.tracker.signal.number
  · rwa [heed_of_lt hold]
  · -- a signal between the one known and the greatest one is as great as both
    have hsame : block.number < o.tracker.signal.number ↔ block.number < n :=
      Number.lt_congr_right (by simp [Number.sameKey, h.signal])
    have hequal := Number.equal_of_le_of_not_lt hle fun hlt => hold (hsame.mpr hlt)
    exact attains_heed hlinks hequal hold

/-- `heed` of signals that are all older changes nothing. -/
theorem foldl_heed_of_lt (h : ∀ block ∈ signals, block.number < o.tracker.signal.number) :
    signals.foldl (heed takes) o = o := by
  induction signals with
  | nil => rfl
  | cons block signals ih =>
    rw [List.foldl_cons, heed_of_lt (h block List.mem_cons_self)]
    exact ih fun other hmem => h other (List.mem_cons_of_mem _ hmem)

/-- `heed` of signals of which one is not older takes the head as far as the greatest of them
allows. -/
theorem foldl_heed (takes : Bool)
    (hlinks : o.tracker.links.toList.Pairwise (·.l1.number < ·.l1.number))
    (hle : ∀ block ∈ signals, block.number ≤ n) (hlt : ¬n < o.tracker.signal.number)
    (h : (∃ block ∈ signals, block.number.equal n = true) ∨ Attains takes o n) :
    (signals.foldl (heed takes) o).tracker.signal.number.equal n = true ∧
    (signals.foldl (heed takes) o).head
      = reach takes o.head (Links.upTo o.tracker.links.toList n) := by
  -- the greatest signal is still to come, or has come and the rest makes no difference
  induction signals generalizing o with
  | nil =>
    rcases h with ⟨block, hmem, -⟩ | hattains
    · exact absurd hmem List.not_mem_nil
    · exact ⟨hattains.signal, hattains.head.symm⟩
  | cons block signals ih =>
    have hblock := hle block List.mem_cons_self
    have hrest := fun other hmem => hle other (List.mem_cons_of_mem _ hmem)
    have hnext : (∃ other ∈ signals, other.number.equal n = true) ∨
        Attains takes (o.heed takes block) n := by
      rcases h with ⟨other, hmem, hequal⟩ | hattains
      · rcases List.mem_cons.mp hmem with rfl | hmem
        · have hge : n ≤ other.number := Number.le_of_equal (Number.equal_comm _ _ ▸ hequal)
          have hnew := fun hold => hlt (Number.lt_of_le_of_lt hge hold)
          exact .inr (attains_heed hlinks hequal hnew)
        · exact .inl ⟨other, hmem, hequal⟩
      · exact .inr (hattains.heed hlinks hblock)
    rw [List.foldl_cons, ← reach_heed takes hlinks hblock, ← links_heed takes o block]
    exact ih (links_heed takes o block ▸ hlinks) hrest (not_lt_signal_heed hblock hlt) hnext

end Outlook

end Settlement
