import Settlement.Proofs.Provenance.Steps

/-!
# Walks over a ring that changes

A walk over the links of a ring knows its position and nothing else, and the position counts from
the oldest link that is there at the moment. While links are recorded, the oldest one is lost every
so often, and the position then means the link after the one that it meant before. So a walk may
skip links, as many as are lost while it stands still, but it does not come back to any of them.

## Key results

- `holds_run`: the ring holds the end of the history, and counts what it has lost
- `gives?_run`: the place in the history that a walk has reached
- `walks_advance`: walks go through the history in its order, and what they skip was lost
-/

namespace Settlement

namespace Links

variable {ds : List Derivation}

/-- `history` only ever grows at its end, as far as L1 blocks go. -/
theorem history_l1_isPrefix (ds more : List Derivation) :
    (history ds).map Link.l1 <+: (history (ds ++ more)).map Link.l1 := by
  -- over what is added: it appends a link, or keeps the L1 block of the newest
  induction more using List.reverseRecOn with
  | nil => rw [List.append_nil]
  | append_singleton more d ih =>
    refine ih.trans ?_
    rw [← List.append_assoc, history_concat]
    rcases extend_cases (history (ds ++ more)) d.1 d.2 with
      ⟨heq, -⟩ | ⟨older, newest, kept, hlinks, -, -, heq⟩
    · rw [heq, List.map_append]
      exact List.prefix_append ..
    · rw [heq, hlinks, List.map_append, List.map_append]
      exact List.prefix_refl _

/-- `history` keeps the L1 block at a place when more is derived. -/
theorem exists_history_append {i : Nat} {link : Link} (h : (history ds)[i]? = some link)
    (more : List Derivation) :
    ∃ same, (history (ds ++ more))[i]? = some same ∧ same.l1 = link.l1 := by
  obtain ⟨later, hlater⟩ := history_l1_isPrefix ds more
  have hplace : ((history ds).map Link.l1)[i]? = some link.l1 := by
    rw [List.getElem?_map, h]
    rfl
  have hmap : ((history (ds ++ more)).map Link.l1)[i]? = some link.l1 := by
    rw [← hlater, List.getElem?_append_left (List.getElem?_eq_some_iff.mp hplace).1, hplace]
  rwa [List.getElem?_map, Option.map_eq_some_iff] at hmap

/-- `history` ascends from place to place. -/
theorem lt_of_history {i j : Nat} {link later : Link} (hij : i < j)
    (hi : (history ds)[i]? = some link) (hj : (history ds)[j]? = some later) :
    link.l1.number < later.l1.number := by
  obtain ⟨hilt, rfl⟩ := List.getElem?_eq_some_iff.mp hi
  obtain ⟨hjlt, rfl⟩ := List.getElem?_eq_some_iff.mp hj
  exact List.pairwise_iff_getElem.mp (ascending_history ds) i j hilt hjlt hij

/-- `extend` adds one link where the change is `appended`. -/
theorem length_extend (links : List Link) (l2 : L2Block) (l1 : BlockId) :
    (extend links l2 l1).length
      = links.length + if Change.of links.getLast? l2 l1 = .appended then 1 else 0 := by
  unfold extend
  cases Change.of links.getLast? l2 l1 with
  | appended => simp
  | updated =>
    rcases List.eq_nil_or_concat links with rfl | ⟨older, newest, rfl⟩ <;> simp
  | unchanged => simp

end Links

/-- The edit appends to a full ring, so that the oldest link is lost. -/
def Ring.evicts (r : Ring) (e : Edit) : Bool :=
  r.size == r.capacity && (r.edit e).2 == some .appended

/-- A ring and the walks over it. A walk reads nothing before its first step, so it makes no
difference when it is opened. -/
structure Walks where
  ring : Ring
  cursor : Nat → Cursor

namespace Walks

/-- An edit of the ring, or a step of one walk. -/
inductive Act where
  | edit (e : Edit)
  | next (walk : Nat)

/-- The derivation that an act records. -/
def Act.derivation? : Act → Option Derivation
  | .edit (.record l2 l1) => some (l2, l1)
  | _ => none

/-- The derivations that acts record, in order. -/
def derived (acts : List Act) : List Derivation := acts.filterMap Act.derivation?

/-- The act is a step of this walk. -/
def Act.isStep (walk : Nat) : Act → Bool
  | .edit _ => false
  | .next other => other == walk

/-- The number of steps of a walk. -/
def steps (walk : Nat) (acts : List Act) : Nat := acts.countP (Act.isStep walk)

/-- A ring with all walks over it at `Cursor.first`. -/
def start (r : Ring) : Walks where
  ring := r
  cursor := fun _ => .first

/-- The ring and the walks after one act. -/
def act (w : Walks) : Act → Walks
  | .edit e => { w with ring := (w.ring.edit e).1 }
  | .next walk =>
    { w with cursor := Function.update w.cursor walk ((w.cursor walk).next w.ring).2 }

/-- The ring and the walks after several acts. -/
def run (w : Walks) (acts : List Act) : Walks := acts.foldl act w

/-- The link that a walk gives if its next step is now. -/
def gives? (w : Walks) (walk : Nat) : Option Link := ((w.cursor walk).next w.ring).1

/-- The links that a walk gives, one after the other. -/
def given (walk : Nat) (w : Walks) : List Act → List Link
  | [] => []
  | a :: acts =>
    (if a.isStep walk then (w.gives? walk).toList else []) ++ given walk (w.act a) acts

/-- The act loses the oldest link. -/
def evicts (w : Walks) : Act → Bool
  | .edit e => w.ring.evicts e
  | .next _ => false

/-- The number of links that acts lose. -/
def evictions (w : Walks) : List Act → Nat
  | [] => 0
  | a :: acts => (if w.evicts a then 1 else 0) + evictions (w.act a) acts

variable {w : Walks} {r : Ring} {walk n : Nat} {past future acts : List Act} {a : Act}
  {link : Link}

/-! ## Runs -/

theorem run_append (w : Walks) (past future : List Act) :
    w.run (past ++ future) = (w.run past).run future := List.foldl_append

/-- `given` distributes over `++`, from where the first acts lead. -/
theorem given_append (w : Walks) (past future : List Act) :
    w.given walk (past ++ future) = w.given walk past ++ (w.run past).given walk future := by
  induction past generalizing w with
  | nil => rfl
  | cons a past ih =>
    rw [List.cons_append, given, given, ih, List.append_assoc]
    rfl

/-- `evictions` distributes over `++`, from where the first acts lead. -/
theorem evictions_append (w : Walks) (past future : List Act) :
    w.evictions (past ++ future) = w.evictions past + (w.run past).evictions future := by
  induction past generalizing w with
  | nil => exact (Nat.zero_add _).symm
  | cons a past ih =>
    rw [List.cons_append, evictions, evictions, ih, Nat.add_assoc]
    rfl

theorem steps_append (walk : Nat) (past future : List Act) :
    steps walk (past ++ future) = steps walk past + steps walk future := List.countP_append

theorem derived_append (past future : List Act) :
    derived (past ++ future) = derived past ++ derived future := List.filterMap_append

/-- `isStep` holds of `next` on this walk only. -/
theorem isStep_iff : a.isStep walk = true ↔ a = .next walk := by
  cases a <;> simp [Act.isStep]

/-- `steps` is zero without a `next` on this walk. -/
theorem steps_eq_zero (h : .next walk ∉ acts) : steps walk acts = 0 := by
  rw [steps, List.countP_eq_zero]
  intro a ha hstep
  exact h (isStep_iff.mp hstep ▸ ha)

/-! ## One walk -/

/-- `act` leaves the cursor of a walk, unless it is a step of this walk. -/
theorem cursor_act_of_ne (h : a ≠ .next walk) : (w.act a).cursor walk = w.cursor walk := by
  cases a with
  | edit e => rfl
  | next other =>
    have hne : walk ≠ other := fun heq => h (heq ▸ rfl)
    exact Function.update_of_ne hne _ _

/-- `act` moves the cursor of a walk by `Cursor.next` at its own step. -/
theorem cursor_act_next (w : Walks) (walk : Nat) :
    (w.act (.next walk)).cursor walk = ((w.cursor walk).next w.ring).2 := Function.update_self ..

/-- `run` leaves the cursor of a walk that makes no step. -/
theorem cursor_run_of_not_mem (h : .next walk ∉ acts) :
    (w.run acts).cursor walk = w.cursor walk := by
  induction acts generalizing w with
  | nil => rfl
  | cons a acts ih =>
    rw [List.mem_cons, not_or] at h
    exact (ih h.2).trans (cursor_act_of_ne (Ne.symm h.1))

/-- `run` preserves `ended`. -/
theorem ended_run (h : w.cursor walk = .ended) (acts : List Act) :
    (w.run acts).cursor walk = .ended := by
  induction acts generalizing w with
  | nil => exact h
  | cons a acts ih =>
    apply ih
    by_cases ha : a = .next walk
    · rw [ha, cursor_act_next, h, Cursor.next_ended]
    · rw [cursor_act_of_ne ha, h]

/-- `gives?` is nothing once a walk has `ended`. -/
theorem gives?_of_ended (h : w.cursor walk = .ended) : w.gives? walk = none := by
  rw [gives?, h, Cursor.next_ended]

/-- `run` from the start has `ended` a walk, or it is at the position that its steps count. -/
theorem cursor_run (r : Ring) (walk : Nat) (acts : List Act) :
    ((start r).run acts).cursor walk = .ended ∨
    ((start r).run acts).cursor walk = .walking (steps walk acts) := by
  -- over the acts, of which only steps of this walk move its cursor
  induction acts using List.reverseRecOn with
  | nil => exact .inr rfl
  | append_singleton acts a ih =>
    rw [run_append, steps_append]
    show ((run _ acts).act a).cursor walk = _ ∨ ((run _ acts).act a).cursor walk = _
    by_cases ha : a = .next walk
    -- a step moves on, or ends the walk
    · subst ha
      have hone : steps walk [.next walk] = 1 := by simp [steps, Act.isStep]
      rw [cursor_act_next, hone]
      rcases ih with ih | ih
      · exact .inl (by rw [ih, Cursor.next_ended])
      · rw [ih, Cursor.next]
        split
        · exact .inr rfl
        · exact .inl rfl
    -- any other act leaves it where it is
    · have hnone : steps walk [a] = 0 := steps_eq_zero (by simpa using Ne.symm ha)
      rw [cursor_act_of_ne ha, hnone]
      exact ih

/-! ## The ring -/

/-- `run` preserves `WellFormed`. -/
theorem wellFormed_run (h : w.ring.WellFormed) (acts : List Act) :
    (w.run acts).ring.WellFormed := by
  induction acts generalizing w with
  | nil => exact h
  | cons a acts ih =>
    apply ih
    cases a with
    | edit e => exact (Ring.edit_eq h e).1
    | next walk => exact h

/-- `gives?` is `toList` at the position of the walk. -/
theorem gives?_of_walking (h : w.ring.WellFormed) {position : Nat}
    (hcursor : w.cursor walk = .walking position) :
    w.gives? walk = w.ring.toList[position]? := by
  rw [gives?, hcursor, Cursor.next, Ring.getElem?_toList h]
  split <;> rfl

/-- A step at which `gives?` is nothing ends the walk. -/
theorem ended_of_gives? (h : w.ring.WellFormed) (hnone : w.gives? walk = none) :
    (w.act (.next walk)).cursor walk = .ended := by
  rw [cursor_act_next]
  cases hcursor : w.cursor walk with
  | ended => rfl
  | walking position =>
    rw [gives?_of_walking h hcursor, Ring.getElem?_toList h] at hnone
    rw [Cursor.next]
    -- the walk ends at the size of the ring, below which every position holds a link
    split
    · rename_i hlt
      rw [if_pos hlt] at hnone
      exact absurd (h.occupied position hlt) (by simp [hnone])
    · rfl

/-- The ring holds the end of `history`, and the `lost` other links are those before it. -/
structure Holds (n : Nat) (r : Ring) (ds : List Derivation) (lost : Nat) : Prop where
  wellFormed : r.WellFormed
  capacity : r.capacity = n
  toList : r.toList = (Links.history ds).rtake n
  length : (Links.history ds).length = lost + r.size

/-- `Holds` fixes the size of the ring. -/
theorem Holds.size_eq {ds : List Derivation} {lost : Nat} (h : Holds n r ds lost) :
    r.size = min n (Links.history ds).length := by
  rw [← Ring.length_toList h.wellFormed, h.toList, List.rtake, List.length_drop]
  omega

/-- `Holds` makes `toList` what is left of `history` without the lost links. -/
theorem Holds.toList_eq_drop {ds : List Derivation} {lost : Nat} (h : Holds n r ds lost) :
    r.toList = (Links.history ds).drop lost := by
  have hsize := h.size_eq
  have hlength := h.length
  rw [h.toList, List.rtake]
  congr 1
  omega

/-- `record` preserves `Holds`, with one more link lost where it evicts. -/
theorem Holds.record {ds : List Derivation} {lost : Nat} (h : Holds n r ds lost) (hn : 0 < n)
    (l2 : L2Block) (l1 : BlockId) :
    Holds n (r.edit (.record l2 l1)).1 (ds ++ [(l2, l1)])
      (lost + if r.evicts (.record l2 l1) then 1 else 0) := by
  obtain ⟨hwf, hcapacity, hedit⟩ := Ring.edit_eq h.wellFormed (.record l2 l1)
  have hlist : (r.edit (.record l2 l1)).1.toList
      = (Links.history (ds ++ [(l2, l1)])).rtake n := by
    rw [Links.history_concat, ← Links.record_rtake hn, ← h.toList, ← h.capacity]
    exact (congrArg Prod.fst hedit).symm
  -- the newest link of the ring is that of the history, so the change is the same
  have hlast : r.latest? = (Links.history ds).getLast? := by
    rw [Ring.latest?_eq_getLast? h.wellFormed, h.toList, Links.getLast?_rtake hn]
  have hchange : (r.edit (.record l2 l1)).2
      = some (Change.of (Links.history ds).getLast? l2 l1) := by
    rw [← hlast, ← Ring.snd_record]
    rfl
  have hsize : (r.edit (.record l2 l1)).1.size
      = min n (Links.history (ds ++ [(l2, l1)])).length := by
    rw [← Ring.length_toList hwf, hlist, List.rtake, List.length_drop]
    omega
  refine ⟨hwf, hcapacity.trans h.capacity, hlist, ?_⟩
  have hbefore := h.size_eq
  have hlength := h.length
  have hlonger := Links.length_extend (Links.history ds) l2 l1
  rw [← Links.history_concat ds (l2, l1)] at hlonger
  rw [hsize, hlonger, Ring.evicts, hchange, h.capacity]
  -- the count of lost links grows where the history does and the ring does not
  by_cases happended : Change.of (Links.history ds).getLast? l2 l1 = .appended
  · by_cases hfull : r.size = n
    · simp only [happended, hfull, beq_self_eq_true, Bool.and_self, if_true]
      omega
    · simp only [happended, beq_eq_false_iff_ne.mpr hfull, Bool.false_and, Bool.false_eq_true,
        if_true, if_false]
      omega
  · have hno : (some (Change.of (Links.history ds).getLast? l2 l1) == some Change.appended)
        = false := by simpa using happended
    simp only [hno, Bool.and_false, Bool.false_eq_true, happended, if_false]
    omega

/-- `Holds` holds of a new ring. -/
theorem holds_empty (hn : 0 < n) : Holds n (Ring.empty n) [] 0 :=
  ⟨Ring.wellFormed_empty hn, rfl, (List.rtake_nil ..).symm, rfl⟩

/-- `run` without a clearing preserves `Holds`, with as many lost as there were `evictions`. -/
theorem holds_run (hn : 0 < n) (hr : Holds n r [] 0) (hclear : .edit .clear ∉ acts) :
    Holds n ((start r).run acts).ring (derived acts) ((start r).evictions acts) := by
  induction acts using List.reverseRecOn with
  | nil => exact hr
  | append_singleton acts a ih =>
    specialize ih fun hmem => hclear (List.mem_append_left _ hmem)
    rw [run_append, derived_append, evictions_append]
    cases a with
    | edit e =>
      cases e with
      | record l2 l1 => exact ih.record hn l2 l1
      | clear => exact absurd (List.mem_append_right _ (List.mem_singleton.mpr rfl)) hclear
    -- a step of a walk neither derives nor evicts
    | next walk =>
      have hnone : derived [.next walk] = [] := rfl
      rw [hnone, List.append_nil]
      exact ih

/-! ## The course of a walk -/

/-- A walk that gives a link has not `ended`. -/
theorem goes_of_gives? (h : w.gives? walk = some link) : w.cursor walk ≠ .ended := by
  intro hended
  exact nomatch h.symm.trans (gives?_of_ended hended)

/-- `gives?` is the oldest link until the first step of a walk. -/
theorem gives?_of_not_mem (hwf : r.WellFormed) (h : .next walk ∉ acts) :
    ((start r).run acts).gives? walk = ((start r).run acts).ring.toList.head? := by
  have hcursor : ((start r).run acts).cursor walk = .walking 0 := cursor_run_of_not_mem h
  rw [gives?_of_walking (wellFormed_run hwf acts) hcursor, List.head?_eq_getElem?]

/-- `gives?` is `toList` at the number of steps, for a walk that has not `ended`. -/
theorem gives?_of_goes (hwf : r.WellFormed)
    (hgoes : ((start r).run acts).cursor walk ≠ .ended) :
    ((start r).run acts).gives? walk
      = ((start r).run acts).ring.toList[steps walk acts]? :=
  gives?_of_walking (wellFormed_run hwf acts) ((cursor_run r walk acts).resolve_left hgoes)

/-- `gives?` is `history` at the number of evictions and of steps, for a walk that has not
`ended`. -/
theorem gives?_run (hn : 0 < n) (hr : Holds n r [] 0) (hclear : .edit .clear ∉ acts)
    (hgoes : ((start r).run acts).cursor walk ≠ .ended) :
    ((start r).run acts).gives? walk
      = (Links.history (derived acts))[(start r).evictions acts + steps walk acts]? := by
  rw [gives?_of_goes hr.wellFormed hgoes, (holds_run hn hr hclear).toList_eq_drop,
    List.getElem?_drop]

/-- `given` grows by one link at a step of the walk that finds one, and by nothing otherwise. -/
theorem given_concat (w : Walks) (walk : Nat) (acts : List Act) (a : Act) :
    (∃ link, a = .next walk ∧ (w.run acts).gives? walk = some link ∧
      w.given walk (acts ++ [a]) = w.given walk acts ++ [link]) ∨
    ((a = .next walk → (w.run acts).gives? walk = none) ∧
      w.given walk (acts ++ [a]) = w.given walk acts) := by
  have hone : w.given walk (acts ++ [a]) = w.given walk acts
      ++ if a.isStep walk then ((w.run acts).gives? walk).toList else [] := by
    rw [given_append, given, given, List.append_nil]
  rw [hone]
  by_cases ha : a = .next walk
  · rw [if_pos (isStep_iff.mpr ha)]
    -- a step gives a link, or none
    cases hgives : (w.run acts).gives? walk with
    | none => exact .inr ⟨fun _ => rfl, List.append_nil _⟩
    | some link => exact .inl ⟨link, ha, rfl, rfl⟩
  · rw [if_neg (mt isStep_iff.mp ha)]
    exact .inr ⟨fun h => absurd h ha, List.append_nil _⟩

/-- `given` is in the order of `history`, and all of it is before the place that the walk is at. -/
theorem given_run (hn : 0 < n) (hr : Holds n r [] 0) (walk : Nat)
    (hclear : .edit .clear ∉ acts) :
    (∀ link ∈ (start r).given walk acts, ∃ i < (start r).evictions acts + steps walk acts,
      ∃ same, (Links.history (derived acts))[i]? = some same ∧ same.l1 = link.l1) ∧
    ((start r).given walk acts).Pairwise (·.l1.number < ·.l1.number) := by
  induction acts using List.reverseRecOn with
  | nil => exact ⟨fun _ h => absurd h List.not_mem_nil, List.Pairwise.nil⟩
  | append_singleton acts a ih =>
    have hbefore : .edit .clear ∉ acts := fun hmem => hclear (List.mem_append_left _ hmem)
    obtain ⟨hplace, hascending⟩ := ih hbefore
    rw [evictions_append, steps_append, derived_append]
    -- what was given before keeps its place
    have hold : ∀ link ∈ (start r).given walk acts,
        ∃ i < (start r).evictions acts + steps walk acts,
          ∃ same, (Links.history (derived acts ++ derived [a]))[i]? = some same ∧
            same.l1 = link.l1 := by
      intro link hlink
      obtain ⟨i, hi, same, hsame, hl1⟩ := hplace link hlink
      obtain ⟨kept, hkept, hl1'⟩ := Links.exists_history_append hsame (derived [a])
      exact ⟨i, hi, kept, hkept, hl1'.trans hl1⟩
    rcases given_concat (start r) walk acts a with ⟨link, rfl, hgives, heq⟩ | ⟨-, heq⟩
    · have hnew := hgives
      rw [gives?_run hn hr hbefore (goes_of_gives? hgives)] at hnew
      have hone : steps walk [.next walk] = 1 := by simp [steps, Act.isStep]
      have hnone : derived [.next walk] = [] := rfl
      rw [hnone, List.append_nil] at hold ⊢
      rw [heq, hone]
      -- the new link is at the place of the walk, and all older ones are before it
      constructor
      · intro other hother
        rcases List.mem_append.mp hother with hother | hother
        · obtain ⟨i, hi, hrest⟩ := hold other hother
          exact ⟨i, by omega, hrest⟩
        · rw [List.mem_singleton.mp hother]
          exact ⟨_, by omega, link, hnew, rfl⟩
      · refine List.pairwise_append.mpr ⟨hascending, List.pairwise_singleton .., ?_⟩
        intro older holder newest hnewest
        obtain ⟨i, hi, same, hsame, hl1⟩ := hold older holder
        rw [List.mem_singleton.mp hnewest, ← hl1]
        exact Links.lt_of_history hi hsame hnew
    · rw [heq]
      refine ⟨fun link hlink => ?_, hascending⟩
      obtain ⟨i, hi, hrest⟩ := hold link hlink
      exact ⟨i, by omega, hrest⟩

/-! ## What is skipped -/

/-- Two places of a list split it in three. -/
private theorem split_between {α : Type} {l : List α} {i j : Nat} {x y : α} (hij : i < j)
    (hi : l[i]? = some x) (hj : l[j]? = some y) :
    ∃ older passed later, l = older ++ x :: passed ++ y :: later ∧ passed.length = j - i - 1 := by
  obtain ⟨hilt, rfl⟩ := List.getElem?_eq_some_iff.mp hi
  obtain ⟨hjlt, rfl⟩ := List.getElem?_eq_some_iff.mp hj
  -- what follows the first link, after the links that were passed
  have hrest : (l.drop (i + 1)).drop (j - i - 1) = l[j] :: l.drop (j + 1) := by
    rw [List.drop_drop, show i + 1 + (j - i - 1) = j by omega, List.drop_eq_getElem_cons hjlt]
  refine ⟨l.take i, (l.drop (i + 1)).take (j - i - 1), l.drop (j + 1), ?_, ?_⟩
  · rw [← hrest, List.append_assoc, List.cons_append, List.take_append_drop,
      ← List.drop_eq_getElem_cons hilt, List.take_append_drop]
  · rw [List.length_take, List.length_drop]
    omega

/-- Between two links in `given` there are as many links of `history` as were lost in between. -/
theorem exists_passed (hn : 0 < n) (hr : Holds n r [] 0) {between : List Act} {next : Link}
    (hclear : .edit .clear ∉ past ++ .next walk :: between) (hbetween : .next walk ∉ between)
    (hlink : ((start r).run past).gives? walk = some link)
    (hnext : ((start r).run (past ++ .next walk :: between)).gives? walk = some next) :
    ∃ older same passed later,
      Links.history (derived (past ++ .next walk :: between))
        = older ++ same :: passed ++ next :: later ∧
      same.l1 = link.l1 ∧
      passed.length = ((start r).run past).evictions (.next walk :: between) := by
  have hbefore : .edit .clear ∉ past := fun hmem => hclear (List.mem_append_left _ hmem)
  have hsteps : steps walk (.next walk :: between) = 1 := by
    rw [steps, List.countP_cons_of_pos (isStep_iff.mpr rfl)]
    exact congrArg (· + 1) (steps_eq_zero hbetween)
  -- both links by their places in the history
  rw [gives?_run hn hr hbefore (goes_of_gives? hlink)] at hlink
  rw [gives?_run hn hr hclear (goes_of_gives? hnext), evictions_append, steps_append, hsteps]
    at hnext
  rw [derived_append] at hnext ⊢
  obtain ⟨same, hsame, hl1⟩ := Links.exists_history_append hlink (derived (.next walk :: between))
  obtain ⟨older, passed, later, heq, hlength⟩ := split_between (by omega) hsame hnext
  exact ⟨older, same, passed, later, heq, hl1, by omega⟩

/-- `<+:` extends by the item that follows it. -/
private theorem isPrefix_concat {α : Type} {front l : List α} {x : α} (h : front <+: l)
    (hx : l[front.length]? = some x) : front ++ [x] <+: l := by
  obtain ⟨rest, rfl⟩ := h
  rw [List.getElem?_append_right (Nat.le_refl _), Nat.sub_self] at hx
  cases rest with
  | nil => exact nomatch hx
  | cons y rest =>
    obtain rfl : y = x := Option.some.inj hx
    exact ⟨rest, by simp⟩

/-- `run` without an eviction keeps the L1 blocks of the ring where they are. -/
theorem ring_isPrefix (hn : 0 < n) (hr : Holds n r [] 0) {more : List Act}
    (hclear : .edit .clear ∉ acts ++ more) (hkept : ((start r).run acts).evictions more = 0) :
    ((start r).run acts).ring.toList.map Link.l1
      <+: ((start r).run (acts ++ more)).ring.toList.map Link.l1 := by
  have hbefore : .edit .clear ∉ acts := fun hmem => hclear (List.mem_append_left _ hmem)
  rw [(holds_run hn hr hbefore).toList_eq_drop, (holds_run hn hr hclear).toList_eq_drop,
    evictions_append, hkept, derived_append, List.map_drop, List.map_drop]
  exact (Links.history_l1_isPrefix ..).drop _

/-- `given` is the front of the ring if nothing was evicted, a link for each step until the walk
ends. -/
theorem given_isPrefix (hn : 0 < n) (hr : Holds n r [] 0)
    (hclear : .edit .clear ∉ past ++ future) (hfirst : .next walk ∉ past)
    (hkept : ((start r).run past).evictions future = 0) :
    (((start r).run past).given walk future).map Link.l1
      <+: ((start r).run (past ++ future)).ring.toList.map Link.l1 ∧
    (((start r).run (past ++ future)).cursor walk ≠ .ended →
      (((start r).run past).given walk future).length = steps walk future) := by
  induction future using List.reverseRecOn with
  | nil => exact ⟨List.nil_prefix, fun _ => rfl⟩
  | append_singleton future a ih =>
    rw [← List.append_assoc] at hclear ⊢
    have hbefore : .edit .clear ∉ past ++ future := fun hmem =>
      hclear (List.mem_append_left _ hmem)
    rw [evictions_append] at hkept
    obtain ⟨hfront, hlength⟩ := ih hbefore (Nat.eq_zero_of_add_eq_zero_right hkept)
    -- the front of the ring stays what it is, so what was given before is still there
    have hgrows := ring_isPrefix hn hr hclear (by
      rw [run_append]
      exact Nat.eq_zero_of_add_eq_zero_left hkept)
    rw [steps_append]
    rcases given_concat ((start r).run past) walk future a with
      ⟨link, rfl, hgives, heq⟩ | ⟨hnone, heq⟩
    · rw [← run_append] at hgives
      have hgoes := goes_of_gives? hgives
      have hone : steps walk [.next walk] = 1 := by simp [steps, Act.isStep]
      rw [heq, List.map_append, List.length_append, hone, hlength hgoes]
      refine ⟨isPrefix_concat (hfront.trans hgrows) ?_, fun _ => rfl⟩
      rw [gives?_of_goes hr.wellFormed hgoes, steps_append, steps_eq_zero hfirst, Nat.zero_add]
        at hgives
      have hring : ((start r).run (past ++ future ++ [.next walk])).ring
          = ((start r).run (past ++ future)).ring := by rw [run_append]; rfl
      rw [List.length_map, hlength hgoes, hring, List.getElem?_map, hgives]
      rfl
    · rw [heq]
      refine ⟨hfront.trans hgrows, fun hgoes => ?_⟩
      have hact : (start r).run (past ++ future ++ [a]) = ((start r).run (past ++ future)).act a :=
        run_append ..
      rw [hact] at hgoes
      -- no link was given, so it is no step, or one that ends the walk
      by_cases ha : a = .next walk
      · -- the walk would have ended with this step
        have hwf := (holds_run hn hr hbefore).wellFormed
        have hend := hnone ha
        rw [← run_append] at hend
        rw [ha] at hgoes
        exact absurd (ended_of_gives? hwf hend) hgoes
      · have hnone : steps walk [a] = 0 := steps_eq_zero (by simpa using Ne.symm ha)
        rw [cursor_act_of_ne ha] at hgoes
        rw [hlength hgoes, hnone, Nat.add_zero]

/-- What a walk gives, for every run of a ring and the walks over it. -/
structure Advance (r : Ring) (walk : Nat) : Prop where
  /-- A link is in the ring when it is given. -/
  held : ∀ acts link, ((start r).run acts).gives? walk = some link →
    link ∈ ((start r).run acts).ring.toList
  ascending : ∀ acts, .edit .clear ∉ acts →
    ((start r).given walk acts).Pairwise (·.l1.number < ·.l1.number)
  /-- The first step is to the oldest link. -/
  oldest : ∀ acts, .next walk ∉ acts →
    ((start r).run acts).gives? walk = ((start r).run acts).ring.toList.head?
  /-- Between two steps that give a link, as many are skipped as are lost. -/
  skipped : ∀ past between link next, .edit .clear ∉ past ++ .next walk :: between →
    .next walk ∉ between → ((start r).run past).gives? walk = some link →
    ((start r).run (past ++ .next walk :: between)).gives? walk = some next →
    ∃ older same passed later,
      Links.history (derived (past ++ .next walk :: between))
        = older ++ same :: passed ++ next :: later ∧
      same.l1 = link.l1 ∧
      passed.length = ((start r).run past).evictions (.next walk :: between)
  /-- If nothing is lost since the first step, no link is skipped, and none is left out when the
  walk ends. -/
  gapless : ∀ past future, .edit .clear ∉ past ++ future → .next walk ∉ past →
    ((start r).run past).evictions future = 0 →
    (((start r).run past).given walk future).map Link.l1
      <+: ((start r).run (past ++ future)).ring.toList.map Link.l1 ∧
    (((start r).run (past ++ future)).cursor walk ≠ .ended →
      ((start r).run (past ++ future)).gives? walk = none →
      (((start r).run past).given walk future).map Link.l1
        = ((start r).run (past ++ future)).ring.toList.map Link.l1)
  /-- A walk that gives nothing once never gives anything again, whatever is done to the ring. -/
  ended : ∀ past future, ((start r).run past).gives? walk = none →
    ((start r).run (past ++ .next walk :: future)).gives? walk = none ∧
    ((start r).run (past ++ .next walk :: future)).cursor walk = .ended

/-- `Advance` holds of every walk over a new ring, however its steps are mixed with those of other
walks and with edits. -/
theorem walks_advance {capacity : Value} (h : Ring.ofValue capacity = .ok r) (walk : Nat) :
    Advance r walk := by
  obtain ⟨-, n, -, -, hn, rfl⟩ := Ring.exists_empty_of_ofValue h
  have hr := holds_empty hn
  refine {
    held := fun acts link hlink => ?_
    ascending := fun acts hclear => (given_run hn hr walk hclear).2
    oldest := fun acts hfirst => gives?_of_not_mem hr.wellFormed hfirst
    skipped := fun past between link next hclear hbetween => exists_passed hn hr hclear hbetween
    gapless := fun past future hclear hfirst hkept => ?_
    ended := fun past future hnone => ?_ }
  -- a link that is given is held
  · rw [gives?_of_goes hr.wellFormed (goes_of_gives? hlink)] at hlink
    exact List.mem_of_getElem? hlink
  -- without evictions the links given are the first ones of the history
  · obtain ⟨hfront, hlength⟩ := given_isPrefix hn hr hclear hfirst hkept
    refine ⟨hfront, fun hgoes hnone => hfront.eq_of_length_le ?_⟩
    rw [gives?_of_goes hr.wellFormed hgoes, steps_append, steps_eq_zero hfirst, Nat.zero_add,
      List.getElem?_eq_none_iff] at hnone
    rw [List.length_map, List.length_map, hlength hgoes]
    exact hnone
  -- a walk that has ended stays so
  · have hend := ended_of_gives? (wellFormed_run hr.wellFormed past) hnone
    have hended : ((start (Ring.empty n)).run (past ++ .next walk :: future)).cursor walk
        = .ended := by
      rw [run_append]
      exact ended_run hend future
    exact ⟨gives?_of_ended hended, hended⟩

/-- Two walks over two slots. A link is lost after the first step of the one walk, and another one
when it has ended. -/
def overtaking : List Act :=
  [.edit (Ring.derivedAt 1 10), .edit (Ring.derivedAt 2 11), .next 0, .edit (Ring.derivedAt 3 12),
    .next 0, .next 1, .edit (Ring.derivedAt 4 12), .next 0, .edit (Ring.derivedAt 5 13), .next 0,
    .next 1]

/-- `overtaking` meets the premise of `walks_advance`. The one walk skips the second link, and the
other one the third. -/
theorem overtaking_advance :
    Ring.ofValue (.number 2) = .ok (Ring.empty 2) ∧
    ((start (Ring.empty 2)).given 0 overtaking).map (·.l1.number) = [10, 12] ∧
    ((start (Ring.empty 2)).given 1 overtaking).map (·.l1.number) = [11, 13] ∧
    (start (Ring.empty 2)).evictions overtaking = 2 ∧
    Advance (Ring.empty 2) 0 ∧ Advance (Ring.empty 2) 1 := by
  have hring : Ring.ofValue (.number 2) = .ok (Ring.empty 2) := by rfl
  exact ⟨hring, by rfl, by rfl, by rfl, walks_advance hring 0, walks_advance hring 1⟩

end Walks

end Settlement
