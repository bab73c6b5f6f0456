import Settlement.Proofs.Number.Order
import Settlement.Proofs.Provenance.Ring
import Settlement.Tracker

/-!
# Tracker lemmas

What the three ways of changing a tracker leave alone, what a plan consists of, and how a tracker
begins.

## Key results

- `plan?_eq_some`: a plan finalizes a link that is held, at or below the signal and above the head
- `plan?_cases`: it finalizes the oldest of the links that reach furthest, if any is above the head
- `plan?_eq_of_ascending`: if L2 heights ascend, that is the last link at or below the signal
- `links_intake`, `generation_intake`: taking in a trigger keeps provenance and resets
- `exists_empty_of_ofValue`: a new tracker has an empty ring and no signal
- `delay_of_ofValue`: its delay is a safe integer from zero on
-/

namespace Settlement.Tracker

variable {t : Tracker}

/-! ## Plans -/

/-- The fold of `better` keeps what it began with, or ends at a link that beats it. -/
private theorem foldl_better (signal : Number) (links : List Link)
    (best : L2Block × Option BlockId) :
    links.foldl (better signal) best = best ∨
    ∃ link ∈ links, links.foldl (better signal) best = (link.l2, some link.l1) ∧
      link.l1.number ≤ signal ∧ best.1.number < link.l2.number := by
  induction links generalizing best with
  | nil => exact .inl rfl
  | cons link links ih =>
    rw [List.foldl_cons]
    by_cases htake : best.1.number < link.l2.number ∧ link.l1.number ≤ signal
    · -- the scan goes on from this link, which it keeps or leaves for a later one
      have hbetter : better signal best link = (link.l2, some link.l1) := if_pos htake
      rw [hbetter]
      right
      rcases ih (link.l2, some link.l1) with heq | ⟨later, hmem, heq, hle, hlt⟩
      · exact ⟨link, List.mem_cons_self, heq, htake.2, htake.1⟩
      · exact ⟨later, List.mem_cons_of_mem _ hmem, heq, hle, Number.lt_trans htake.1 hlt⟩
    · -- this link is passed over
      have hbetter : better signal best link = best := if_neg htake
      rw [hbetter]
      rcases ih best with heq | ⟨later, hmem, heq, hle, hlt⟩
      · exact .inl heq
      · exact .inr ⟨later, List.mem_cons_of_mem _ hmem, heq, hle, hlt⟩

/-- `plan?` takes a link that the tracker holds, at or below the signal and above the head. -/
theorem plan?_eq_some {head : L2Block} {plan : Plan} (h : t.plan? head = some plan) :
    plan.signal = t.signal ∧ plan.generation = t.generation ∧
    ⟨plan.candidate, plan.derivedFrom⟩ ∈ t.links.toList ∧
    plan.derivedFrom.number ≤ t.signal.number ∧ head.number < plan.candidate.number := by
  unfold plan? at h
  -- a scan that keeps the head has found no link, and that makes no plan
  rcases foldl_better t.signal.number t.links.toList (head, none) with
    heq | ⟨link, hmem, heq, hle, hlt⟩
  · rw [heq] at h
    exact absurd h (by simp)
  · rw [heq] at h
    simp only [Option.map_some, Option.some.injEq] at h
    subst h
    exact ⟨rfl, rfl, hmem, hle, hlt⟩

/-- The links at or below the signal. -/
def finals (t : Tracker) : List Link := t.links.toList.filter (·.l1.number ≤ t.signal.number)

/-- `finals` holds the links at or below the signal. -/
theorem mem_finals {link : Link} :
    link ∈ t.finals ↔ link ∈ t.links.toList ∧ link.l1.number ≤ t.signal.number := by
  simp [finals]

/-- The last of `finals`. -/
def reached? (t : Tracker) : Option Link :=
  (t.links.toList.filter (·.l1.number ≤ t.signal.number)).getLast?

/-- The plan to finalize the L2 block of a link. -/
def planTo (t : Tracker) (link : Link) : Plan where
  candidate := link.l2
  derivedFrom := link.l1
  signal := t.signal
  generation := t.generation

/-- The link is the oldest of those with the greatest L2 number. -/
def Tops (link : Link) (links : List Link) : Prop :=
  ∃ older newer, links = older ++ link :: newer ∧
    (∀ other ∈ older, other.l2.number < link.l2.number) ∧
    ∀ other ∈ newer, other.l2.number ≤ link.l2.number

/-- `Tops` holds of a link in the row. -/
theorem Tops.mem {link : Link} {links : List Link} (h : Tops link links) : link ∈ links := by
  obtain ⟨older, newer, rfl, -⟩ := h
  simp

/-- `Tops` bounds the L2 numbers of the row. -/
theorem Tops.le {link other : Link} {links : List Link} (h : Tops link links)
    (hnumber : link.l2.number ≠ .nan) (hmem : other ∈ links) :
    other.l2.number ≤ link.l2.number := by
  obtain ⟨older, newer, rfl, holder, hnewer⟩ := h
  rcases List.mem_append.mp hmem with hmem | hmem
  · exact Number.le_of_lt (holder other hmem)
  · rcases List.mem_cons.mp hmem with rfl | hmem
    · exact Number.le_refl hnumber
    · exact hnewer other hmem

/-- `Tops` is the last link if L2 numbers ascend. -/
theorem Tops.getLast?_eq {link : Link} {links : List Link} (h : Tops link links)
    (hascending : links.Pairwise (·.l2.number < ·.l2.number)) :
    links.getLast? = some link := by
  obtain ⟨older, newer, rfl, -, hnewer⟩ := h
  obtain ⟨-, hrest, -⟩ := List.pairwise_append.mp hascending
  cases newer with
  | nil => exact List.getLast?_concat
  -- a later link would be above the top
  | cons next later =>
    have hlt : link.l2.number < next.l2.number :=
      (List.pairwise_cons.mp hrest).1 next List.mem_cons_self
    exact absurd (hnewer next List.mem_cons_self) (Number.not_le_of_lt hlt)

/-- The fold of `better` keeps the head, and no link at or below the signal is above it, or it ends
at the link that `Tops` these. -/
private theorem foldl_better_cases (signal : Number) {head : L2Block}
    (hhead : head.number ≠ .nan) {links : List Link}
    (hlinks : ∀ link ∈ links.filter (·.l1.number ≤ signal), link.l2.number ≠ .nan) :
    links.foldl (better signal) (head, none) = (head, none) ∧
      (∀ link ∈ links.filter (·.l1.number ≤ signal), link.l2.number ≤ head.number) ∨
    ∃ link, links.foldl (better signal) (head, none) = (link.l2, some link.l1) ∧
      head.number < link.l2.number ∧ Tops link (links.filter (·.l1.number ≤ signal)) := by
  -- induction from the end, where the fold adds a link
  induction links using List.reverseRecOn with
  | nil => exact .inl ⟨rfl, fun link hmem => absurd hmem List.not_mem_nil⟩
  | append_singleton links next ih =>
    rw [List.filter_append] at hlinks ⊢
    rw [List.foldl_append]
    replace ih := ih fun link hmem => hlinks link (List.mem_append_left _ hmem)
    by_cases hle : next.l1.number ≤ signal
    · have hone : [next].filter (·.l1.number ≤ signal) = [next] := by simp [hle]
      rw [hone] at hlinks ⊢
      have hnext : next.l2.number ≠ .nan :=
        hlinks next (List.mem_append_right _ (List.mem_singleton.mpr rfl))
      rcases ih with ⟨heq, hbelow⟩ | ⟨best, heq, hhigher, htops⟩
      · rw [heq]
        by_cases hlt : head.number < next.l2.number
        · -- it is the first one above the head
          refine .inr ⟨next, if_pos ⟨hlt, hle⟩, hlt, _, [], rfl, fun other hother => ?_, by simp⟩
          exact Number.lt_of_le_of_lt (hbelow other hother) hlt
        · refine .inl ⟨if_neg fun h => hlt h.1, fun link hmem => ?_⟩
          rcases List.mem_append.mp hmem with hmem | hmem
          · exact hbelow link hmem
          · obtain rfl := List.mem_singleton.mp hmem
            exact Number.le_of_not_lt hhead hnext hlt
      · rw [heq]
        have hbest := (Number.ne_nan_of_lt hhigher).2
        by_cases hlt : best.l2.number < next.l2.number
        · -- it reaches further than all before it
          refine .inr ⟨next, if_pos ⟨hlt, hle⟩, Number.lt_trans hhigher hlt, _, [], rfl,
            fun other hother => ?_, by simp⟩
          exact Number.lt_of_le_of_lt (htops.le hbest hother) hlt
        · obtain ⟨older, newer, hfinals, holder, hnewer⟩ := htops
          refine .inr ⟨best, if_neg fun h => hlt h.1, hhigher, older, newer ++ [next], ?_, holder,
            fun other hother => ?_⟩
          · rw [hfinals, List.append_assoc, List.cons_append]
          · rcases List.mem_append.mp hother with hother | hother
            · exact hnewer other hother
            · obtain rfl := List.mem_singleton.mp hother
              exact Number.le_of_not_lt hbest hnext hlt
    · have hnone : [next].filter (·.l1.number ≤ signal) = [] := by simp [hle]
      have hkept : ∀ best, better signal best next = best := fun best => if_neg fun h => hle h.2
      rw [hnone, List.append_nil, List.foldl_cons, List.foldl_nil, hkept]
      exact ih

/-- `plan?` is none if no link in `finals` is above the head, and goes to the link that `Tops` them
otherwise. -/
theorem plan?_cases {head : L2Block} (hhead : head.number ≠ .nan)
    (hlinks : ∀ link ∈ t.finals, link.l2.number ≠ .nan) :
    t.plan? head = none ∧ (∀ link ∈ t.finals, link.l2.number ≤ head.number) ∨
    ∃ link, t.plan? head = some (t.planTo link) ∧ head.number < link.l2.number ∧
      Tops link t.finals := by
  unfold plan?
  rcases foldl_better_cases t.signal.number hhead hlinks with
    ⟨heq, hbelow⟩ | ⟨link, heq, hhigher, htops⟩
  · rw [heq]
    exact .inl ⟨rfl, hbelow⟩
  · rw [heq]
    exact .inr ⟨link, rfl, hhigher, htops⟩

/-- `plan?` is none if no link in `finals` is above the head. -/
theorem plan?_eq_none {head : L2Block}
    (h : ∀ link ∈ t.finals, ¬head.number < link.l2.number) : t.plan? head = none := by
  cases hplan : t.plan? head with
  | none => rfl
  | some plan =>
    obtain ⟨-, -, hlink, hle, hhigher⟩ := plan?_eq_some hplan
    exact absurd hhigher (h _ (mem_finals.mpr ⟨hlink, hle⟩))

/-- The fold of `better` keeps a link that it has found, and finds one above the head if there is
any. -/
private theorem isSome_foldl_better {signal : Number} {links : List Link}
    {best : L2Block × Option BlockId}
    (h : best.2.isSome = true ∨
      ∃ link ∈ links, best.1.number < link.l2.number ∧ link.l1.number ≤ signal) :
    (links.foldl (better signal) best).2.isSome = true := by
  induction links generalizing best with
  | nil => exact h.resolve_right fun ⟨_, hmem, _⟩ => List.not_mem_nil hmem
  | cons link links ih =>
    rw [List.foldl_cons]
    -- once a link is taken there is a candidate for good
    by_cases htake : best.1.number < link.l2.number ∧ link.l1.number ≤ signal
    · have hbetter : better signal best link = (link.l2, some link.l1) := if_pos htake
      rw [hbetter]
      exact ih (.inl rfl)
    · have hbetter : better signal best link = best := if_neg htake
      rw [hbetter]
      refine ih (h.imp_right ?_)
      rintro ⟨other, hmem, htakes⟩
      rcases List.mem_cons.mp hmem with rfl | hmem
      · exact absurd htakes htake
      · exact ⟨other, hmem, htakes⟩

/-- `plan?` is none exactly if no link in `finals` is above the head. -/
theorem plan?_eq_none_iff {head : L2Block} :
    t.plan? head = none ↔ ∀ link ∈ t.finals, ¬head.number < link.l2.number := by
  refine ⟨fun hnone link hlink habove => ?_, plan?_eq_none⟩
  obtain ⟨hmem, hle⟩ := mem_finals.mp hlink
  -- a final link above the head makes a candidate
  have hsome : (t.links.toList.foldl (better t.signal.number) (head, none)).2.isSome = true :=
    isSome_foldl_better (.inr ⟨link, hmem, habove, hle⟩)
  unfold plan? at hnone
  rw [Option.map_eq_none_iff] at hnone
  rw [hnone] at hsome
  exact nomatch hsome

/-- `plan?` depends on the links, the signal and the head, and notes the generation. -/
theorem plan?_congr {u : Tracker} (hlinks : u.links.toList = t.links.toList)
    (hsignal : u.signal = t.signal) (head : L2Block) :
    u.plan? head = (t.plan? head).map fun plan => { plan with generation := u.generation } := by
  unfold plan?
  rw [hlinks, hsignal, Option.map_map]
  rfl

/-- The fold of `better` ends at the last link at or below the signal if L2 numbers ascend, or keeps
what it began with. -/
private theorem foldl_better_of_ascending (signal : Number) (best : L2Block × Option BlockId)
    {links : List Link} (h : links.Pairwise (·.l2.number < ·.l2.number)) :
    links.foldl (better signal) best =
      match (links.filter (·.l1.number ≤ signal)).getLast? with
      | some last => if best.1.number < last.l2.number then (last.l2, some last.l1) else best
      | none => best := by
  induction links using List.reverseRecOn with
  | nil => rfl
  | append_singleton links link ih =>
    obtain ⟨hlinks, -, hbelow⟩ := List.pairwise_append.mp h
    rw [List.foldl_append, ih hlinks, List.filter_append]
    by_cases hle : link.l1.number ≤ signal
    · -- the newest link takes over from whatever was chosen before, if from anything
      have hnewest : [link].filter (·.l1.number ≤ signal) = [link] := by simp [hle]
      rw [hnewest, List.getLast?_concat]
      cases hlast : (links.filter (·.l1.number ≤ signal)).getLast? with
      | none => simp [better, hle]
      | some last =>
        have hmem := List.mem_of_mem_filter (List.mem_of_getLast? hlast)
        have hlt : last.l2.number < link.l2.number := hbelow last hmem link List.mem_cons_self
        by_cases hbest : best.1.number < last.l2.number
        · simp [better, hle, hbest, hlt, Number.lt_trans hbest hlt]
        · simp [better, hle, hbest]
    · have hnone : [link].filter (·.l1.number ≤ signal) = [] := by simp [hle]
      rw [hnone, List.append_nil]
      simp [better, hle]

/-- `plan?` goes to `reached?` if L2 numbers ascend and that is above the head. -/
theorem plan?_eq_of_ascending (h : t.links.toList.Pairwise (·.l2.number < ·.l2.number))
    (head : L2Block) :
    t.plan? head = (t.reached?.filter (head.number < ·.l2.number)).map t.planTo := by
  unfold plan?
  rw [foldl_better_of_ascending _ _ h, reached?]
  cases (t.links.toList.filter (·.l1.number ≤ t.signal.number)).getLast? with
  | none => rfl
  | some last => by_cases hlt : head.number < last.l2.number <;> simp [Option.filter, hlt, planTo]

/-! ## What stays -/

/-- `adopt` changes the signal and the throttle at most. -/
theorem adopt_eq (t : Tracker) (signal : Header) :
    ∃ kept tried, t.adopt signal = { t with signal := kept, lastTried := tried } ∧
      (kept = t.signal ∨ kept = signal) := by
  unfold adopt
  split
  · exact ⟨t.signal, t.lastTried, rfl, .inl rfl⟩
  · exact ⟨signal, 0, rfl, .inr rfl⟩

/-- `intake` changes the signal and the throttle at most, and the signal only to that of the
trigger. -/
theorem intake_eq (t : Tracker) (trigger : Trigger) :
    ∃ kept tried, (t.intake trigger).1 = { t with signal := kept, lastTried := tried } ∧
      (kept = t.signal ∨ trigger = .signal kept) := by
  cases trigger with
  | signal block =>
    unfold intake
    dsimp only
    -- an older signal is turned away, any other is adopted
    split
    · exact ⟨t.signal, t.lastTried, rfl, .inl rfl⟩
    · obtain ⟨kept, tried, heq, hkept⟩ := adopt_eq t block
      exact ⟨kept, tried, heq, hkept.imp id fun h => by rw [h]⟩
  | boundary derivedFrom =>
    unfold intake
    dsimp only
    -- a boundary is skipped, or remembered
    split
    · exact ⟨t.signal, t.lastTried, rfl, .inl rfl⟩
    · exact ⟨t.signal, derivedFrom.number, rfl, .inl rfl⟩

/-- `intake` preserves the links. -/
@[simp] theorem links_intake (t : Tracker) (trigger : Trigger) :
    (t.intake trigger).1.links = t.links := by
  obtain ⟨_, _, heq, _⟩ := intake_eq t trigger
  rw [heq]

/-- `intake` preserves the generation. -/
@[simp] theorem generation_intake (t : Tracker) (trigger : Trigger) :
    (t.intake trigger).1.generation = t.generation := by
  obtain ⟨_, _, heq, _⟩ := intake_eq t trigger
  rw [heq]

/-- `intake` commutes with a change of the links. -/
theorem intake_with_links (t : Tracker) (links : Ring) (trigger : Trigger) :
    ({ t with links } : Tracker).intake trigger
      = ({ (t.intake trigger).1 with links }, (t.intake trigger).2) := by
  cases trigger with
  | signal block =>
    unfold intake adopt
    -- the links are not read at any branch
    by_cases hlt : block.number < t.signal.number
    · simp [hlt]
    · by_cases hsame : t.signal.same block = true <;> simp [hlt, hsame]
  | boundary derivedFrom =>
    have hthrottles : ({ t with links } : Tracker).throttles = t.throttles := rfl
    unfold intake
    dsimp only
    rw [hthrottles]
    split <;> rfl

/-! ## New trackers -/

/-- `ofValue` gives a tracker of a delay and a ring that both could be made. -/
private theorem exists_parts_of_ofValue {sizing : Value} (h : ofValue sizing = .ok t) :
    ∃ delay lookback links, delayOfValue (sizing.orElse (.record [])).delay = .ok delay ∧
      Ring.ofValue lookback = .ok links ∧ t = { delay, links } := by
  unfold ofValue at h
  -- the delay is read first, then the lookback, and then the ring is made
  cases hdelay : delayOfValue (sizing.orElse (.record [])).delay with
  | error fault =>
    simp only [hdelay, bind, Except.bind] at h
    exact nomatch h
  | ok delay =>
    cases hlookback : (sizing.orElse (.record [])).lookback with
    | error fault =>
      simp only [hdelay, hlookback, bind, Except.bind] at h
      exact nomatch h
    | ok lookback =>
      cases hring : Ring.ofValue lookback with
      | error fault =>
        simp only [hdelay, hlookback, hring, bind, Except.bind] at h
        exact nomatch h
      | ok links =>
        simp only [hdelay, hlookback, hring, bind, Except.bind, pure, Except.pure] at h
        exact ⟨delay, lookback, links, rfl, hring, (Except.ok.inj h).symm⟩

/-- `ofValue` gives a tracker with no link, no signal, no boundary and no reset. -/
theorem exists_empty_of_ofValue {sizing : Value} (h : ofValue sizing = .ok t) :
    ∃ n delay, 0 < n ∧ t = { delay, links := Ring.empty n } := by
  obtain ⟨delay, lookback, links, -, hring, rfl⟩ := exists_parts_of_ofValue h
  obtain ⟨_, n, -, -, hn, rfl⟩ := Ring.exists_empty_of_ofValue hring
  exact ⟨n, delay, hn, rfl⟩

/-- `ofValue` gives a delay that is a safe integer from zero on. -/
theorem delay_of_ofValue {sizing : Value} (h : ofValue sizing = .ok t) :
    t.delay.isSafeInteger = true ∧ ¬t.delay < 0 := by
  obtain ⟨delay, lookback, links, hdelay, -, rfl⟩ := exists_parts_of_ofValue h
  unfold delayOfValue at hdelay
  split at hdelay
  · unfold delayOf at hdelay
    split at hdelay
    · rename_i hvalid
      obtain rfl := Except.ok.inj hdelay
      exact hvalid
    · exact nomatch hdelay
  · -- what is no number is refused, whether it has a text or not
    cases htext : (sizing.orElse (.record [])).delay.toText with
    | error fault => rw [htext] at hdelay; exact nomatch hdelay
    | ok text => rw [htext] at hdelay; exact nomatch hdelay

end Settlement.Tracker
