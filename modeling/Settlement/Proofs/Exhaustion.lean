import Mathlib.Order.Bounds.Defs
import Settlement.Proofs.Session.Cleared

/-!
# Passes leave nothing behind

A clean pass raises the head to the highest of all links at or below the signal, whatever order
they are in. After it, a pass that brings in no higher signal has nothing to do until something is
recorded again.

## Key results

- `Passage.planFor?_none`: what has been reached is not planned for again
- `Passage.reaches`, `Passage.commits_top`: how high the head is then, and what was committed
- `clean_exhausts`: what a clean pass commits and leaves behind
-/

namespace Settlement

/-! ## The reach of a trigger -/

/-- The L1 number that is final for a pass with this trigger, if it is due. -/
def Tracker.finality (t : Tracker) : Trigger → Number
  | .signal block => block.number
  | .boundary _ => t.signal.number

/-- `finality` of a trigger that is due is not below the signal that `intake` leaves. -/
theorem Tracker.le_finality {t : Tracker} {trigger : Trigger} {n : Number}
    (hdue : (t.intake trigger).2 = .due) (h : n ≤ (t.intake trigger).1.signal.number) :
    n ≤ t.finality trigger := by
  cases trigger with
  | signal block =>
    unfold intake at hdue h
    dsimp only at hdue h
    split at hdue
    case isTrue => exact nomatch hdue
    case isFalse hlt =>
      rw [if_neg hlt] at h
      unfold adopt at h
      split at h
      case isTrue hsame =>
        -- the signal known is kept, and it is just as high
        simp only [Header.same, BlockId.same, Bool.and_eq_true] at hsame
        exact Number.le_of_le_of_equal h hsame.1.1.1
      case isFalse => exact h
  | boundary derivedFrom =>
    unfold intake at h
    dsimp only at h
    split at h <;> exact h

namespace Session

variable {s : Session} {pass later : Pass} {during between : List Move} {ending : Ending}

/-! ## Passes without a plan -/

/-- `heights` of quiet events are none. -/
theorem heights_of_quiet {events : List Event} (h : Event.Quiet events) :
    Event.heights events = [] := by
  refine List.filterMap_eq_nil_iff.mpr fun e he => ?_
  cases e with
  | asked number height =>
    exact absurd he (Event.not_mem_of_lookups (h.2.2 number) (Event.isLookupOf_asked number height))
  | _ => rfl

/-- `advance` of a pass without a plan ends it, looks nothing up and commits nothing. -/
theorem quiet_of_planFor?_none (hidle : s.flight? = none) (hnext : s.waiting.head? = some pass)
    (hplan : s.planFor? pass = none) :
    Event.heights s.advance.2 = [] ∧ Event.commitments s.advance.2 = [] ∧
    ∃ ending, .ended pass ending ∈ s.advance.2 := by
  obtain ⟨t, given, -, hadvance, -⟩ := exists_close_of_planFor?_none hidle hnext hplan
  have hquiet : Event.Quiet s.advance.2 := by
    rw [hadvance]
    exact (quiet_opening s pass).append (quiet_close t pass given)
  refine ⟨heights_of_quiet hquiet, hquiet.1, ?_⟩
  rw [hadvance]
  exact exists_ended_after _ (exists_ended_close t pass given)

/-! ## What is left -/

namespace Passage

variable (h : Passage s during pass ending)

include h

/-- `planFor?` is none for later passes at or below the signal, once the head has reached all links
at or below it. -/
theorem planFor?_none
    (hreached : ∀ link ∈ (s.took pass).tracker.finals,
      link.l2.number ≤ (s.play (during ++ [.advance])).1.engine.head.number)
    (hhead : (s.play (during ++ [.advance])).1.engine.head.number ≠ .nan)
    (hrecorded : ∀ l2 l1, .act (.record l2 l1) ∉ during ++ between)
    (hmoved : ∀ block, .act (.move block) ∉ between)
    (hfinality : (s.play (during ++ .advance :: between)).1.tracker.finality later.trigger
      ≤ (s.took pass).tracker.signal.number) :
    (s.play (during ++ .advance :: between)).1.planFor? later = none := by
  have hsplit : during ++ Move.advance :: between = (during ++ [.advance]) ++ between := by simp
  generalize ht : (s.play (during ++ .advance :: between)).1 = t at hfinality ⊢
  -- the head does not move back, and no link has come in
  have hforward : (s.play (during ++ [.advance])).1.engine.head.number ≤ t.engine.head.number := by
    have hlanded : (s.play (during ++ [.advance])).1.flight? = none := by
      rw [fst_play_concat]
      exact landed_of_ended h.served h.ends
    rw [← ht, hsplit, fst_play_append s (during ++ [Move.advance]) between]
    exact head_le_play (comparable_of_landed hlanded) hhead hmoved
  have hlinks : t.tracker.links.toList ⊆ s.tracker.links.toList := by
    rw [← ht, foldl_links_play]
    refine Move.foldl_onLinks_subset _ fun l2 l1 hmem => ?_
    simp only [List.mem_append, List.mem_cons, reduceCtorEq, false_or] at hmem
    exact hrecorded l2 l1 (List.mem_append.mpr hmem)
  -- a plan would be for one of these links, and above the head
  cases hplan : t.planFor? later with
  | none => rfl
  | some plan =>
    obtain ⟨hdue, hplan⟩ := planFor?_eq_some.mp hplan
    obtain ⟨-, -, hlink, hle, hhigher⟩ := Tracker.plan?_eq_some hplan
    have hheld : ⟨plan.candidate, plan.derivedFrom⟩ ∈ s.tracker.links.toList := by
      refine hlinks ?_
      rwa [← Tracker.links_intake t.tracker later.trigger]
    have hfinal : ⟨plan.candidate, plan.derivedFrom⟩ ∈ (s.took pass).tracker.finals := by
      refine Tracker.mem_finals.mpr ⟨?_, Number.le_trans (Tracker.le_finality hdue hle) hfinality⟩
      show _ ∈ (s.tracker.intake pass.trigger).1.links.toList
      rwa [Tracker.links_intake]
    exact absurd (Number.le_trans (hreached _ hfinal) hforward) (Number.not_le_of_lt hhigher)

/-- `Clean` passes without a plan are done at once, and do nothing. -/
theorem idles (hclean : Clean s during pass) (hplan : s.planFor? pass = none) :
    during = [] ∧ ending = .judged .ok ∧ s.advance.1.engine = s.engine ∧
    Event.heights s.advance.2 = [] ∧ Event.commitments s.advance.2 = [] := by
  -- a pass that goes on has a plan
  obtain rfl : during = [] := by
    rcases h.cases with hnil | ⟨plan, hsome, -⟩
    · exact hnil
    · cases hplan.symm.trans hsome
  obtain ⟨t, given, hengine, hadvance, hdone, -⟩ :=
    exists_close_of_planFor?_none h.idle h.next hplan
  obtain ⟨hheights, hcommitments, -⟩ := quiet_of_planFor?_none h.idle h.next hplan
  refine ⟨rfl, ?_, ?_, hheights, hcommitments⟩
  -- its ending is the last event of the turn
  · obtain rfl := hdone hclean.due
    have hends : .ended pass ending ∈ s.advance.2 := h.ends
    rw [hadvance, Progress.snd_after, close_ok] at hends
    have hended := (List.mem_append.mp hends).resolve_left (by simp [opening])
    exact (Event.ended.inj (List.mem_singleton.mp hended)).2
  · rw [hadvance]
    exact hengine

/-- `Clean` passes have no plan, and no link at or below the signal is above the head; or they
settle with the block of the oldest link that reaches furthest. -/
theorem tops_cases (hclean : Clean s during pass) (hhead : s.engine.head.number ≠ .nan)
    (hlinks : ∀ link ∈ (s.took pass).tracker.finals, link.l2.number ≠ .nan) :
    s.planFor? pass = none ∧
      (∀ link ∈ (s.took pass).tracker.finals, link.l2.number ≤ s.engine.head.number) ∨
    ∃ link, Tracker.Tops link (s.took pass).tracker.finals ∧
      if link.l2.number ≤ (s.play during).1.engine.head.number then
        Event.commitments (s.play (during ++ [.advance])).2 = [] ∧
        (s.play (during ++ [.advance])).1.engine = (s.play during).1.engine
      else
        Event.commitments (s.play (during ++ [.advance])).2 = [(pass.number, link.l2)] ∧
        (s.play (during ++ [.advance])).1.engine = (s.play during).1.engine.commit link.l2 := by
  rcases Tracker.plan?_cases hhead hlinks with ⟨hnone, hbelow⟩ | ⟨link, hsome, -, htops⟩
  · refine .inl ⟨?_, hbelow⟩
    rw [planFor?, if_pos hclean.due, hnone]
  · exact .inr ⟨link, htops, (h.settles hclean (planFor?_eq_some.mpr ⟨hclean.due, hsome⟩)).2⟩

/-- `Clean` passes leave the head at the greatest of what others have left and of all links at or
below the signal. -/
theorem reaches (hclean : Clean s during pass) (hhead : s.engine.head.number ≠ .nan)
    (hbefore : (s.play during).1.engine.head.number ≠ .nan)
    (hlinks : ∀ link ∈ (s.took pass).tracker.finals, link.l2.number ≠ .nan) :
    IsGreatest {n | n = (s.play during).1.engine.head.number ∨
        ∃ link ∈ (s.took pass).tracker.finals, n = link.l2.number}
      (s.play (during ++ [.advance])).1.engine.head.number := by
  rcases h.tops_cases hclean hhead hlinks with ⟨hplan, hbelow⟩ | ⟨link, htops, hcommits⟩
  · obtain ⟨rfl, -, hengine, -, -⟩ := h.idles hclean hplan
    rw [List.nil_append, play_advance, hengine]
    refine ⟨.inl rfl, ?_⟩
    rintro n (rfl | ⟨link, hmem, rfl⟩)
    · exact Number.le_refl hhead
    · exact hbelow link hmem
  · have hlink := hlinks link htops.mem
    have hle : ∀ other ∈ (s.took pass).tracker.finals, other.l2.number ≤ link.l2.number :=
      fun other hmem => htops.le hlink hmem
    split at hcommits
    case isTrue hreached =>
      -- others have raised the head that high
      rw [hcommits.2]
      refine ⟨.inl rfl, ?_⟩
      rintro n (rfl | ⟨other, hmem, rfl⟩)
      · exact Number.le_refl hbefore
      · exact Number.le_trans (hle other hmem) hreached
    case isFalse hnot =>
      rw [hcommits.2, Engine.head_commit]
      refine ⟨.inr ⟨link, htops.mem, rfl⟩, ?_⟩
      rintro n (rfl | ⟨other, hmem, rfl⟩)
      · exact Number.le_of_lt (Number.lt_of_not_le hbefore hlink hnot)
      · exact hle other hmem

/-- `Clean` passes with a link above the head commit the block of the oldest one that reaches
furthest, unless the engine is that far by then. -/
theorem commits_top (hclean : Clean s during pass) (hhead : s.engine.head.number ≠ .nan)
    (hlinks : ∀ link ∈ (s.took pass).tracker.finals, link.l2.number ≠ .nan)
    (habove : ∃ link ∈ (s.took pass).tracker.finals, s.engine.head.number < link.l2.number) :
    ∃ link, Tracker.Tops link (s.took pass).tracker.finals ∧
      Event.commitments (s.play (during ++ [.advance])).2 =
        if link.l2.number ≤ (s.play during).1.engine.head.number then []
        else [(pass.number, link.l2)] := by
  rcases h.tops_cases hclean hhead hlinks with ⟨-, hbelow⟩ | ⟨link, htops, hcommits⟩
  · obtain ⟨link, hmem, hhigher⟩ := habove
    exact absurd (hbelow link hmem) (Number.not_le_of_lt hhigher)
  · refine ⟨link, htops, ?_⟩
    split at hcommits
    case isTrue hreached => rw [if_pos hreached, hcommits.1]
    case isFalse hnot => rw [if_neg hnot, hcommits.1]

end Passage

/-! ## Clean passes -/

/-- `Clean` passes leave nothing behind. The head is then the highest of what others have left and
of all links at or below the signal. If one of these is above the head at the start, the block of
the oldest that reaches furthest is committed, unless others have gone as far in the meantime; that
is the newest link if L2 numbers ascend. If none is, nothing is looked up. And as long as nothing is
recorded after the start, no pass at or below the signal has anything to do. -/
theorem clean_exhausts (h : Passage s during pass ending) (hclean : Clean s during pass)
    (hhead : s.engine.head.number ≠ .nan)
    (hlinks : ∀ link ∈ s.tracker.links.toList, link.l2.number ≠ .nan)
    (hmoved : ∀ block, .act (.move block) ∈ during → block.number ≠ .nan) :
    ending = .judged .ok ∧
    (s.play during).1.engine = during.foldl Move.onEngine s.engine ∧
    ((∀ block, .act (.move block) ∉ during) → (s.play during).1.engine = s.engine) ∧
    IsGreatest {n | n = (s.play during).1.engine.head.number ∨
        ∃ link ∈ (s.took pass).tracker.finals, n = link.l2.number}
      (s.play (during ++ [.advance])).1.engine.head.number ∧
    ((∃ link ∈ (s.took pass).tracker.finals, s.engine.head.number < link.l2.number) →
      ∃ link, Tracker.Tops link (s.took pass).tracker.finals ∧
        (s.tracker.links.toList.Pairwise (·.l2.number < ·.l2.number) →
          (s.took pass).tracker.finals.getLast? = some link) ∧
        Event.commitments (s.play (during ++ [.advance])).2 =
          if link.l2.number ≤ (s.play during).1.engine.head.number then []
          else [(pass.number, link.l2)]) ∧
    ((∀ link ∈ (s.took pass).tracker.finals, link.l2.number ≤ s.engine.head.number) →
      Event.heights (s.play (during ++ [.advance])).2 = [] ∧
      Event.commitments (s.play (during ++ [.advance])).2 = []) ∧
    ∀ between t later, (s.play (during ++ .advance :: between)).1 = t →
      (∀ l2 l1, .act (.record l2 l1) ∉ during ++ between) →
      (∀ block, .act (.move block) ∉ between) →
      t.flight? = none → t.waiting.head? = some later →
      t.tracker.finality later.trigger ≤ (s.took pass).tracker.signal.number →
      Event.heights t.advance.2 = [] ∧ Event.commitments t.advance.2 = [] ∧
      ∃ ending, .ended later ending ∈ t.advance.2 := by
  have hheld : (s.took pass).tracker.links = s.tracker.links := Tracker.links_intake ..
  have hfinals : ∀ link ∈ (s.took pass).tracker.finals, link.l2.number ≠ .nan := by
    intro link hmem
    exact hlinks link (hheld ▸ (Tracker.mem_finals.mp hmem).1)
  -- others move the head to comparable numbers only
  have hbefore : (s.play during).1.engine.head.number ≠ .nan :=
    head_ne_nan_play (comparable_of_landed h.idle) hhead during hmoved
  have hreaches := h.reaches hclean hhead hbefore hfinals
  refine ⟨?_, h.engine_before, fun hnone => ?_, hreaches, fun habove => ?_, fun hbelow => ?_, ?_⟩
  · cases hplan : s.planFor? pass with
    | none => exact (h.idles hclean hplan).2.1
    | some plan => exact (h.settles hclean hplan).1
  · rw [h.engine_before, Move.foldl_onEngine_eq _ hnone]
  · obtain ⟨link, htops, hcommits⟩ := h.commits_top hclean hhead hfinals habove
    refine ⟨link, htops, fun hascending => htops.getLast?_eq ?_, hcommits⟩
    rw [← hheld] at hascending
    exact hascending.sublist List.filter_sublist
  · have hplan : s.planFor? pass = none := by
      rw [planFor?, if_pos hclean.due]
      exact Tracker.plan?_eq_none fun link hmem hlt =>
        Number.not_le_of_lt hlt (hbelow link hmem)
    obtain ⟨rfl, -, -, hheights, hcommitments⟩ := h.idles hclean hplan
    rw [List.nil_append, play_advance]
    exact ⟨hheights, hcommitments⟩
  · rintro between _ later rfl hrecorded hmoved' hidle hnext hfinality
    have hafter : (s.play (during ++ [.advance])).1.engine.head.number ≠ .nan := by
      rcases hreaches.1 with heq | ⟨link, hmem, heq⟩
      · rwa [heq]
      · rw [heq]
        exact hfinals link hmem
    have hreached : ∀ link ∈ (s.took pass).tracker.finals,
        link.l2.number ≤ (s.play (during ++ [.advance])).1.engine.head.number :=
      fun link hmem => hreaches.2 (.inr ⟨link, hmem, rfl⟩)
    exact quiet_of_planFor?_none hidle hnext
      (h.planFor?_none hreached hafter hrecorded hmoved' hfinality)

/-- A session with room for four links. -/
def roomy : Session := { tracker := { delay := 64, links := Ring.empty 4 } }

/-- The first link has to make room, two others reach equally far, and the last one is not final
yet when a pass is called for. -/
def uneven : Session :=
  (roomy.play
    [.act (.record (l2At 5) (l1At "a" 10).toBlockId),
      .act (.record (l2At 9) (l1At "b" 11).toBlockId),
      .act (.record (l2At 7) (l1At "c" 12).toBlockId),
      .act (.record (l2At 9) (l1At "d" 13).toBlockId),
      .act (.record (l2At 12) (l1At "e" 16).toBlockId),
      .act (.setBlock 11 (l1At "b" 11).toValue),
      .act (.setBlock 14 (l1At "f" 14).toValue),
      .act (.hold true),
      .act (.call "first" (.signal (l1At "f" 14)) none)]).1

/-- The pass waits for both of its lookups, and another one is called for. -/
def vetted : List Move :=
  [.advance,
    .act (.release none),
    .advance,
    .act (.call "second" (.boundary (l1At "g" 17)) none),
    .act (.release none)]

/-- `clean_exhausts` in `uneven`: the block of the older one of the two is committed, and the second
pass has nothing to do. -/
theorem uneven_exhausts :
    ∃ pass, Passage uneven vetted pass (.judged .ok) ∧ Clean uneven vetted pass ∧
      uneven.tracker.links.toList.map (·.l2) = [l2At 9, l2At 7, l2At 9, l2At 12] ∧
      (uneven.play (vetted ++ [.advance])).1.engine.history = [l2At 9] ∧
      IsGreatest {n | n = (uneven.play vetted).1.engine.head.number ∨
          ∃ link ∈ (uneven.took pass).tracker.finals, n = link.l2.number}
        (uneven.play (vetted ++ [.advance])).1.engine.head.number ∧
      Event.heights (uneven.play (vetted ++ [.advance])).1.advance.2 = [] ∧
      Event.commitments (uneven.play (vetted ++ [.advance])).1.advance.2 = [] := by
  have hpassage : Passage uneven vetted ⟨0, "first", .signal (l1At "f" 14), none⟩ (.judged .ok) :=
    .of_endings rfl rfl rfl (by rfl) (by rfl)
  -- both of its lookups find what they expect
  have hclean : Clean uneven vetted ⟨0, "first", .signal (l1At "f" 14), none⟩ := by
    have hplan : uneven.planFor? ⟨0, "first", .signal (l1At "f" 14), none⟩
        = some ⟨l2At 9, (l1At "b" 11).toBlockId, l1At "f" 14, 0⟩ := by rfl
    exact .of_answers hplan (by rfl) (by simp [vetted]) (by rfl) (by rfl)
  have hrow : uneven.tracker.links.toList.map (·.l2) = [l2At 9, l2At 7, l2At 9, l2At 12] := by rfl
  -- all L2 numbers are comparable
  have hlinks : ∀ link ∈ uneven.tracker.links.toList, link.l2.number ≠ .nan := by
    intro link hmem
    have hl2 := List.mem_map_of_mem (f := (·.l2)) hmem
    rw [hrow] at hl2
    simp only [List.mem_cons, List.not_mem_nil, or_false] at hl2
    rcases hl2 with h | h | h | h <;> rw [h] <;> nofun
  obtain ⟨-, -, -, hgreatest, -, -, hlater⟩ :=
    clean_exhausts hpassage hclean nofun hlinks (by simp [vetted])
  obtain ⟨hheights, hcommitments, -⟩ :=
    hlater [] _ ⟨1, "second", .boundary (l1At "g" 17), none⟩ rfl (by simp [vetted]) (by simp)
      (by rfl) (by rfl) (by rfl)
  exact ⟨_, hpassage, hclean, hrow, by rfl, hgreatest, hheights, hcommitments⟩

end Session

end Settlement
