import Mathlib.Data.List.DropRight
import Settlement.Proofs.Provenance.Lookback
import Settlement.Proofs.Provenance.Rows

/-!
# The history behind a row

A row that never loses a link is the whole history of what was recorded (`Links.history`). A row
of bounded length is the end of it. And the history has a closed form: a derivation is a step if
its L1 number is above those of all derivations before it, each step has one link, and the link
has the L1 block of the step and the L2 block of the last derivation before the next step
(`Link.StandsFor`).

## Key results

- `ofDerivations_eq_rtake`: a bounded row is the end of the history
- `ascending_history`: the L1 numbers of the history ascend strictly
- `standsFor_history`: the history has one link for each step, in order
- `ring_recounts`: a ring holds the last steps since it was cleared
-/

namespace Settlement

namespace Links

variable {capacity : Nat} {links : List Link} {l2 : L2Block} {l1 : BlockId}

/-! ## The whole history -/

/-- `record` in a row that never loses a link. -/
def extend (links : List Link) (l2 : L2Block) (l1 : BlockId) : List Link :=
  match Change.of links.getLast? l2 l1 with
  | .appended => links ++ [⟨l2, l1.bare⟩]
  | .updated => links.dropLast ++ links.getLast?.toList.map ({ · with l2 })
  | .unchanged => links

/-- `ofDerivations` without a bound on the length. -/
def history (ds : List Derivation) : List Link :=
  ds.foldl (fun links d => extend links d.1 d.2) []

/-- `history` takes one more derivation by `extend`. -/
theorem history_concat (ds : List Derivation) (d : Derivation) :
    history (ds ++ [d]) = extend (history ds) d.1 d.2 := by
  rw [history, List.foldl_append]
  rfl

/-- `extend` appends a link above the newest one, if there is any. Otherwise it keeps the L1 block
of the newest link, with the L2 block of the derivation or one that is the `same`. -/
theorem extend_cases (links : List Link) (l2 : L2Block) (l1 : BlockId) :
    (extend links l2 l1 = links ++ [⟨l2, l1.bare⟩] ∧
      ∀ newest, links.getLast? = some newest → newest.l1.number < l1.number) ∨
    ∃ older newest kept, links = older ++ [newest] ∧ ¬newest.l1.number < l1.number ∧
      (kept = l2 ∨ kept.same l2 = true) ∧
      extend links l2 l1 = older ++ [{ newest with l2 := kept }] := by
  unfold extend
  rcases List.eq_nil_or_concat links with rfl | ⟨older, newest, rfl⟩
  · exact .inl ⟨rfl, fun _ h => nomatch h⟩
  · rw [List.concat_eq_append, List.getLast?_concat]
    by_cases habove : newest.l1.number < l1.number
    · have hchange : Change.of (some newest) l2 l1 = .appended := if_pos habove
      rw [hchange]
      exact .inl ⟨rfl, fun _ h => Option.some.inj h ▸ habove⟩
    -- not above the newest link: the L2 block decides
    · by_cases hsame : newest.l2.same l2 = true
      · have hchange : Change.of (some newest) l2 l1 = .unchanged := by
          simp [Change.of, habove, hsame]
        rw [hchange]
        exact .inr ⟨older, newest, newest.l2, rfl, habove, .inr hsame, rfl⟩
      · have hchange : Change.of (some newest) l2 l1 = .updated := by
          simp [Change.of, habove, hsame]
        rw [hchange, List.dropLast_concat]
        exact .inr ⟨older, newest, l2, rfl, habove, .inl rfl, rfl⟩

/-- `history` is empty for no derivations only. -/
theorem history_eq_nil {ds : List Derivation} (h : history ds = []) : ds = [] := by
  rcases List.eq_nil_or_concat ds with rfl | ⟨earlier, d, rfl⟩
  · rfl
  · rw [List.concat_eq_append, history_concat] at h
    -- a derivation always leaves a link
    rcases extend_cases (history earlier) d.1 d.2 with
      ⟨heq, -⟩ | ⟨older, newest, kept, -, -, -, heq⟩
    · rw [heq] at h
      exact absurd h (List.append_ne_nil_of_right_ne_nil _ (List.cons_ne_nil _ _))
    · rw [heq] at h
      exact absurd h (List.append_ne_nil_of_right_ne_nil _ (List.cons_ne_nil _ _))

/-- `history` has strictly ascending L1 numbers. -/
theorem ascending_history (ds : List Derivation) :
    (history ds).Pairwise (·.l1.number < ·.l1.number) := by
  induction ds using List.reverseRecOn with
  | nil => exact List.Pairwise.nil
  -- induction from the end, since `extend` works there
  | append_singleton ds d ih =>
    rw [history_concat]
    rcases extend_cases (history ds) d.1 d.2 with
      ⟨heq, habove⟩ | ⟨older, newest, kept, hlinks, -, -, heq⟩
    · rw [heq]
      refine List.pairwise_append.mpr ⟨ih, List.pairwise_singleton .., ?_⟩
      intro link hlink new hnew
      rw [List.mem_singleton.mp hnew]
      -- at or before the newest link, which the new one is above
      rcases List.eq_nil_or_concat (history ds) with hnil | ⟨older, newest, hlinks⟩
      · rw [hnil] at hlink
        exact absurd hlink List.not_mem_nil
      · rw [List.concat_eq_append] at hlinks
        rw [hlinks] at ih hlink habove
        have hnewest := habove newest List.getLast?_concat
        rcases List.mem_append.mp hlink with hlink | hlink
        · exact Number.lt_trans ((List.pairwise_append.mp ih).2.2 link hlink newest
            (List.mem_singleton.mpr rfl)) hnewest
        · exact List.mem_singleton.mp hlink ▸ hnewest
    · rw [hlinks] at ih
      obtain ⟨holder, -, hbelow⟩ := List.pairwise_append.mp ih
      rw [heq]
      refine List.pairwise_append.mpr ⟨holder, List.pairwise_singleton .., ?_⟩
      intro link hlink new hnew
      rw [List.mem_singleton.mp hnew]
      exact hbelow link hlink newest (List.mem_singleton.mpr rfl)

/-! ## The end of the history -/

/-- `List.rtake` of one less is what eviction leaves. -/
private theorem evicted_rtake (n : Nat) :
    (if (links.rtake (n + 1)).length = n + 1 then (links.rtake (n + 1)).tail
      else links.rtake (n + 1)) = links.rtake n := by
  unfold List.rtake
  rw [List.length_drop]
  -- one link is evicted where there is no room, and none where there is
  split
  · rw [List.tail_drop]
    congr 1
    omega
  · congr 1
    omega

/-- `record` on the last links of a row leaves the last ones of what `extend` leaves. -/
theorem record_rtake (hc : 0 < capacity) (links : List Link) (l2 : L2Block) (l1 : BlockId) :
    (record capacity (links.rtake capacity) l2 l1).1 = (extend links l2 l1).rtake capacity := by
  -- `List.rtake_concat_succ` wants a successor
  obtain ⟨n, rfl⟩ : ∃ n, capacity = n + 1 := ⟨capacity - 1, by omega⟩
  rw [record_eq]
  unfold extend
  rcases List.eq_nil_or_concat links with rfl | ⟨older, newest, rfl⟩
  · rw [List.rtake_nil]
    exact (List.rtake_concat_succ [] n (⟨l2, l1.bare⟩ : Link)).symm ▸ by simp [Change.of]
  · -- both rows have the same newest link, so both change in the same way
    rw [List.concat_eq_append, List.getLast?_concat, List.rtake_concat_succ, List.getLast?_concat]
    cases Change.of (some newest) l2 l1 with
    | appended =>
      dsimp only
      rw [← List.rtake_concat_succ, evicted_rtake, List.rtake_concat_succ]
    | updated =>
      dsimp only
      rw [List.dropLast_concat, List.dropLast_concat]
      exact (List.rtake_concat_succ ..).symm
    | unchanged => exact (List.rtake_concat_succ ..).symm

/-- `ofDerivations` is the end of `history`. -/
theorem ofDerivations_eq_rtake (hc : 0 < capacity) (ds : List Derivation) :
    ofDerivations capacity ds = (history ds).rtake capacity := by
  induction ds using List.reverseRecOn with
  | nil => exact (List.rtake_nil ..).symm
  | append_singleton ds d ih => rw [ofDerivations_concat, history_concat, ih, record_rtake hc]

/-- `ofDerivations` is `history` where there is room for all of it. -/
theorem ofDerivations_eq_history (hc : 0 < capacity) {ds : List Derivation}
    (h : (history ds).length ≤ capacity) : ofDerivations capacity ds = history ds := by
  rw [ofDerivations_eq_rtake hc, List.rtake, Nat.sub_eq_zero_of_le h, List.drop_zero]

/-! ## Steps -/

/-- The L1 number at place `i` is above those of all derivations before it. -/
def IsStep (ds : List Derivation) (i : Nat) : Prop :=
  ∃ d, ds[i]? = some d ∧ ∀ e ∈ ds.take i, e.2.number < d.2.number

instance (ds : List Derivation) (i : Nat) : Decidable (IsStep ds i) :=
  match h : ds[i]? with
  | none => .isFalse fun ⟨_, hd, _⟩ => nomatch h.symm.trans hd
  | some d => decidable_of_iff (∀ e ∈ ds.take i, e.2.number < d.2.number)
      ⟨fun hall => ⟨d, h, hall⟩, fun ⟨_, hd, hall⟩ => Option.some.inj (hd.symm.trans h) ▸ hall⟩

/-- The places of all derivations with `IsStep`. -/
def steps (ds : List Derivation) : List Nat := (List.range ds.length).filter (IsStep ds ·)

/-- Place `k` is the last one from step `i` on before the next step. -/
structure IsLastOf (ds : List Derivation) (i k : Nat) : Prop where
  le : i ≤ k
  none_between : ∀ j, i < j → j ≤ k → ¬IsStep ds j
  next : k + 1 < ds.length → IsStep ds (k + 1)

end Links

/-- The link has the bare L1 block of step `i` and the L2 block of the last derivation before the
next step, or one that is the `same`. -/
structure Link.StandsFor (link : Link) (ds : List Derivation) (i : Nat) : Prop where
  l1_eq : ∃ d, ds[i]? = some d ∧ link.l1 = d.2.bare
  l2_eq : ∃ k d, Links.IsLastOf ds i k ∧ ds[k]? = some d ∧
    (link.l2 = d.1 ∨ link.l2.same d.1 = true)

namespace Links

variable {capacity : Nat} {ds : List Derivation} {d : Derivation} {link : Link} {i k : Nat}

/-- `IsStep` of an earlier place does not depend on the derivations after it. -/
theorem isStep_append_iff (hi : i < ds.length) : IsStep (ds ++ [d]) i ↔ IsStep ds i := by
  unfold IsStep
  rw [List.getElem?_append_left hi, List.take_append_of_le_length hi.le]

/-- `IsStep` of the last place compares with all the others. -/
theorem isStep_length_iff :
    IsStep (ds ++ [d]) ds.length ↔ ∀ e ∈ ds, e.2.number < d.2.number := by
  unfold IsStep
  rw [List.getElem?_concat_length, List.take_append_length]
  constructor
  · rintro ⟨e, he, hall⟩
    exact Option.some.inj he ▸ hall
  · exact fun hall => ⟨d, rfl, hall⟩

/-- `steps` holds the places with `IsStep`. -/
theorem mem_steps : i ∈ steps ds ↔ i < ds.length ∧ IsStep ds i := by
  unfold steps
  rw [List.mem_filter, List.mem_range, decide_eq_true_iff]

/-- `steps` ascends. -/
theorem pairwise_steps (ds : List Derivation) : (steps ds).Pairwise (· < ·) :=
  List.Pairwise.filter _ List.pairwise_lt_range

/-- `steps` grows by the last place, or not at all. -/
private theorem steps_concat (ds : List Derivation) (d : Derivation) :
    steps (ds ++ [d]) = steps ds ++ [ds.length].filter (IsStep (ds ++ [d]) ·) := by
  unfold steps
  rw [List.length_append, List.length_singleton, List.range_succ, List.filter_append]
  congr 1
  apply List.filter_congr
  intro i hi
  exact decide_eq_decide.mpr (isStep_append_iff (List.mem_range.mp hi))

/-- `steps` grows by a derivation above all others. -/
theorem steps_concat_of_step (h : ∀ e ∈ ds, e.2.number < d.2.number) :
    steps (ds ++ [d]) = steps ds ++ [ds.length] := by
  have hstep : decide (IsStep (ds ++ [d]) ds.length) = true :=
    decide_eq_true (isStep_length_iff.mpr h)
  rw [steps_concat, List.filter_singleton, hstep]
  rfl

/-- `steps` does not grow by any other derivation. -/
theorem steps_concat_of_not_step (h : ¬∀ e ∈ ds, e.2.number < d.2.number) :
    steps (ds ++ [d]) = steps ds := by
  have hnot : decide (IsStep (ds ++ [d]) ds.length) = false :=
    decide_eq_false (mt isStep_length_iff.mp h)
  rw [steps_concat, List.filter_singleton, hnot]
  exact List.append_nil _

/-! ## Links and steps -/

/-- `IsLastOf` survives a derivation, if there was a next step already or if this is it. -/
private theorem isLastOf_concat (h : IsLastOf ds i k) (hk : k < ds.length)
    (hnext : k + 1 < ds.length ∨ ∀ e ∈ ds, e.2.number < d.2.number) :
    IsLastOf (ds ++ [d]) i k where
  le := h.le
  none_between j hij hjk hj :=
    h.none_between j hij hjk ((isStep_append_iff (Nat.lt_of_le_of_lt hjk hk)).mp hj)
  next hlt := by
    rw [List.length_append, List.length_singleton] at hlt
    -- the next one is in the old list, or is the one that was added
    rcases Nat.lt_or_ge (k + 1) ds.length with hlt' | hge
    · exact (isStep_append_iff hlt').mpr (h.next hlt')
    · obtain hend : k + 1 = ds.length := by omega
      rw [hend, isStep_length_iff]
      exact hnext.resolve_left (by omega)

/-- `IsLastOf` holds of a derivation that is no step, after the last step. -/
private theorem isLastOf_length (hi : i < ds.length) (hlast : ∀ j ∈ steps ds, j ≤ i)
    (h : ¬∀ e ∈ ds, e.2.number < d.2.number) : IsLastOf (ds ++ [d]) i ds.length where
  le := hi.le
  none_between j hij hjk hj := by
    -- a step between is one of the old list, or the last place
    rcases Nat.lt_or_eq_of_le hjk with hlt | rfl
    · have hle := hlast j (mem_steps.mpr ⟨hlt, (isStep_append_iff hlt).mp hj⟩)
      omega
    · exact h (isStep_length_iff.mp hj)
  next hlt := by
    rw [List.length_append, List.length_singleton] at hlt
    omega

/-- `StandsFor` survives a derivation, if there was a next step already or if this is it. -/
private theorem standsFor_concat (h : link.StandsFor ds i)
    (hnext : (∃ j ∈ steps ds, i < j) ∨ ∀ e ∈ ds, e.2.number < d.2.number) :
    link.StandsFor (ds ++ [d]) i := by
  obtain ⟨⟨step, hstep, hl1⟩, k, last, hk, hlast, hl2⟩ := h
  have hlt := (List.getElem?_eq_some_iff.mp hlast).1
  have hgrow : ∀ {n : Nat} {e : Derivation}, ds[n]? = some e → (ds ++ [d])[n]? = some e :=
    fun he => (List.getElem?_append_left (List.getElem?_eq_some_iff.mp he).1).trans he
  refine ⟨⟨step, hgrow hstep, hl1⟩, k, last, isLastOf_concat hk hlt ?_, hgrow hlast, hl2⟩
  refine hnext.imp_left fun ⟨j, hj, hij⟩ => ?_
  obtain ⟨hjlt, hjstep⟩ := mem_steps.mp hj
  -- the next step is beyond the last derivation before it
  have hkj : k < j := Nat.lt_of_not_le fun hjk => hk.none_between j hij hjk hjstep
  omega

/-- `StandsFor` passes to the newest link with the L2 block of a derivation that is no step. -/
private theorem standsFor_taken_over (h : link.StandsFor ds i) (hlast : ∀ j ∈ steps ds, j ≤ i)
    (hno : ¬∀ e ∈ ds, e.2.number < d.2.number) {kept : L2Block}
    (hkept : kept = d.1 ∨ kept.same d.1 = true) :
    Link.StandsFor { link with l2 := kept } (ds ++ [d]) i := by
  obtain ⟨step, hstep, hl1⟩ := h.l1_eq
  have hi := (List.getElem?_eq_some_iff.mp hstep).1
  exact ⟨⟨step, (List.getElem?_append_left hi).trans hstep, hl1⟩, ds.length, d,
    isLastOf_length hi hlast hno, List.getElem?_concat_length, hkept⟩

/-- `StandsFor` holds of a new link and the step that begins it. -/
private theorem standsFor_new (ds : List Derivation) (d : Derivation) :
    Link.StandsFor ⟨d.1, d.2.bare⟩ (ds ++ [d]) ds.length := by
  have hnew : (ds ++ [d])[ds.length]? = some d := List.getElem?_concat_length
  refine ⟨⟨d, hnew, rfl⟩, ds.length, d, ⟨Nat.le_refl _, ?_, ?_⟩, hnew, .inl rfl⟩
  · intro j hij hjk
    omega
  · intro hlt
    rw [List.length_append, List.length_singleton] at hlt
    omega

/-- `history` ends in a link that no derivation is above. -/
theorem not_above_newest {ds : List Derivation} {newest : Link}
    (h : (history ds).getLast? = some newest) : ∀ d ∈ ds, ¬newest.l1.number < d.2.number := by
  induction ds using List.reverseRecOn generalizing newest with
  | nil => exact fun _ hd => absurd hd List.not_mem_nil
  | append_singleton ds d ih =>
    intro e he
    rw [history_concat] at h
    rcases extend_cases (history ds) d.1 d.2 with
      ⟨heq, habove⟩ | ⟨older, former, kept, hlinks, hnot, -, heq⟩
    -- the derivation begins the newest link
    · rw [heq, List.getLast?_concat] at h
      obtain rfl := Option.some.inj h
      rcases List.mem_append.mp he with he | he
      · intro hlt
        -- the link before the newest one is below both of them
        cases hformer : (history ds).getLast? with
        | none =>
          rw [history_eq_nil (List.getLast?_eq_none_iff.mp hformer)] at he
          exact List.not_mem_nil he
        | some former =>
          exact ih hformer e he (Number.lt_trans (habove former hformer) hlt)
      · rw [List.mem_singleton.mp he]
        exact Number.lt_irrefl _
    -- it went into the newest link, whose L1 block stays
    · rw [heq, List.getLast?_concat] at h
      obtain rfl := Option.some.inj h
      rcases List.mem_append.mp he with he | he
      · have hformer : (history ds).getLast? = some former := by
          rw [hlinks, List.getLast?_concat]
        exact ih hformer e he
      · rw [List.mem_singleton.mp he]
        exact hnot

/-- A derivation above the newest link is above all others, unless one of these is NaN. -/
private theorem above_all_of_above_newest (hnan : ∀ e ∈ ds, e.2.number ≠ .nan)
    (h : ∀ newest, (history ds).getLast? = some newest → newest.l1.number < d.2.number) :
    ∀ e ∈ ds, e.2.number < d.2.number := by
  intro e he
  cases hlast : (history ds).getLast? with
  | none =>
    rw [history_eq_nil (List.getLast?_eq_none_iff.mp hlast)] at he
    exact absurd he List.not_mem_nil
  | some newest =>
    have hlt := h newest hlast
    -- `not_above_newest` denies `<`, which is `≤` for numbers only
    have hle := Number.le_of_not_lt (Number.ne_nan_of_lt hlt).1 (hnan e he)
      (not_above_newest hlast e he)
    exact Number.lt_of_le_of_lt hle hlt

/-- `List.Forall₂` splits at the last items. -/
private theorem forall₂_concat {R : Nat → Link → Prop} {places : List Nat} {links : List Link} :
    List.Forall₂ R (places ++ [i]) (links ++ [link]) ↔ List.Forall₂ R places links ∧ R i link := by
  rw [← List.forall₂_reverse_iff, List.reverse_concat, List.reverse_concat, List.forall₂_cons,
    List.forall₂_reverse_iff, and_comm]

/-- `history` has one link with `StandsFor` for each of `steps`, in their order. -/
theorem standsFor_history (ds : List Derivation) (hnan : ∀ d ∈ ds, d.2.number ≠ .nan) :
    List.Forall₂ (fun i link => link.StandsFor ds i) (steps ds) (history ds) := by
  induction ds using List.reverseRecOn with
  | nil => exact .nil
  | append_singleton ds d ih =>
    have hearlier : ∀ e ∈ ds, e.2.number ≠ .nan := fun e he => hnan e (List.mem_append_left _ he)
    specialize ih hearlier
    rw [history_concat]
    rcases extend_cases (history ds) d.1 d.2 with
      ⟨heq, habove⟩ | ⟨older, newest, kept, hlinks, hnot, hkept, heq⟩
    · -- the derivation begins a link, and it is a step
      have hstep := above_all_of_above_newest hearlier habove
      rw [heq, steps_concat_of_step hstep]
      exact forall₂_concat.mpr
        ⟨ih.imp fun _ _ h => standsFor_concat h (.inr hstep), standsFor_new ds d⟩
    · -- the derivation goes into the newest link, and it is no step
      obtain ⟨earlier, i, hsteps⟩ : ∃ earlier i, steps ds = earlier ++ [i] := by
        rcases List.eq_nil_or_concat (steps ds) with hnil | ⟨earlier, i, hsteps⟩
        · have hlength := ih.length_eq
          simp [hnil, hlinks] at hlength
        · exact ⟨earlier, i, by rw [hsteps, List.concat_eq_append]⟩
      have hmem : i ∈ steps ds := hsteps ▸ List.mem_append_right _ (List.mem_singleton.mpr rfl)
      have hbelow : ∀ j ∈ earlier, j < i := by
        have hascending := pairwise_steps ds
        rw [hsteps] at hascending
        have hbelow := (List.pairwise_append.mp hascending).2.2
        exact fun j hj => hbelow j hj i (List.mem_singleton.mpr rfl)
      have hlast : ∀ j ∈ steps ds, j ≤ i := by
        intro j hj
        rw [hsteps] at hj
        rcases List.mem_append.mp hj with hj | hj
        · exact (hbelow j hj).le
        · exact (List.mem_singleton.mp hj).le
      rw [hlinks, hsteps] at ih
      obtain ⟨holder, hnewest⟩ := forall₂_concat.mp ih
      have hno : ¬∀ e ∈ ds, e.2.number < d.2.number := by
        obtain ⟨step, hstep, hl1⟩ := hnewest.l1_eq
        intro hall
        rw [hl1] at hnot
        exact hnot (hall step (List.mem_of_getElem? hstep))
      rw [heq, steps_concat_of_not_step hno, hsteps]
      refine forall₂_concat.mpr ⟨?_, standsFor_taken_over hnewest hlast hno hkept⟩
      exact ((List.forall₂_and_left _ _).mpr ⟨hbelow, holder⟩).imp fun j _ h =>
        standsFor_concat h.2 (.inl ⟨i, hmem, h.1⟩)

/-- `history` ends in the L2 block of the last derivation, or in one that is the `same`. -/
theorem newest_history_concat (ds : List Derivation) (d : Derivation) :
    ∃ newest, (history (ds ++ [d])).getLast? = some newest ∧
      (newest.l2 = d.1 ∨ newest.l2.same d.1 = true) := by
  rw [history_concat]
  rcases extend_cases (history ds) d.1 d.2 with ⟨heq, -⟩ | ⟨older, newest, kept, -, -, hkept, heq⟩
  · exact ⟨⟨d.1, d.2.bare⟩, by rw [heq, List.getLast?_concat], .inl rfl⟩
  · exact ⟨{ newest with l2 := kept }, by rw [heq, List.getLast?_concat], hkept⟩

/-! ## What a row recounts -/

/-- `StandsFor` between the last `capacity` steps and the links of a row, in order. -/
structure Recounts (links : List Link) (ds : List Derivation) (capacity : Nat) : Prop where
  /-- Only the oldest steps are lost. -/
  standsFor : List.Forall₂ (fun i link => link.StandsFor ds i) ((steps ds).rtake capacity) links
  length_eq : links.length = min capacity (steps ds).length
  ascending : links.Pairwise (·.l1.number < ·.l1.number)
  /-- Whatever L1 block the last derivation names, its L2 block is in the newest link. -/
  newest : ∀ d, ds.getLast? = some d → ∃ newest, links.getLast? = some newest ∧
    (newest.l2 = d.1 ∨ newest.l2.same d.1 = true)

/-- `List.rtake` of at least one keeps the last item. -/
theorem getLast?_rtake (hc : 0 < capacity) (links : List Link) :
    (links.rtake capacity).getLast? = links.getLast? := by
  obtain ⟨n, rfl⟩ : ∃ n, capacity = n + 1 := ⟨capacity - 1, by omega⟩
  rcases List.eq_nil_or_concat links with rfl | ⟨older, newest, rfl⟩
  · rw [List.rtake_nil]
  · rw [List.concat_eq_append, List.rtake_concat_succ, List.getLast?_concat, List.getLast?_concat]

/-- `Recounts` holds of the end of `history`. -/
theorem recounts_rtake (hc : 0 < capacity) (ds : List Derivation)
    (hnan : ∀ d ∈ ds, d.2.number ≠ .nan) :
    Recounts ((history ds).rtake capacity) ds capacity := by
  have hstands := standsFor_history ds hnan
  refine ⟨?_, ?_, (ascending_history ds).sublist (List.drop_sublist _ _), ?_⟩
  -- the last links stand for the last steps
  · unfold List.rtake
    rw [hstands.length_eq]
    exact List.forall₂_drop _ hstands
  · rw [List.rtake, List.length_drop, hstands.length_eq]
    omega
  -- and the newest of them is the newest of all
  · intro d hd
    obtain ⟨earlier, rfl⟩ := List.getLast?_eq_some_iff.mp hd
    rw [getLast?_rtake hc]
    exact newest_history_concat earlier d

end Links

/-! ## Rings -/

namespace Edit

/-- The derivations since the last clearing, after one more edit. -/
def since (ds : List Derivation) : Edit → List Derivation
  | .record l2 l1 => ds ++ [(l2, l1)]
  | .clear => []

/-- The derivations that were recorded since the last clearing. -/
def derivations (edits : List Edit) : List Derivation := edits.foldl since []

end Edit

/-- `editAll` leaves `ofDerivations` of what was derived since the last clearing. -/
theorem Links.editAll_ofDerivations (capacity : Nat) (ds : List Derivation) (edits : List Edit) :
    (editAll capacity (ofDerivations capacity ds) edits).1
      = ofDerivations capacity (edits.foldl Edit.since ds) := by
  -- over the edits, of which a clear forgets the derivations so far
  induction edits generalizing ds with
  | nil => rfl
  | cons e edits ih =>
    have hedit : (edit capacity (ofDerivations capacity ds) e).1
        = ofDerivations capacity (Edit.since ds e) := by
      cases e with
      | record l2 l1 => exact (ofDerivations_concat capacity ds (l2, l1)).symm
      | clear => rfl
    rw [List.foldl_cons, ← ih, ← hedit]
    rfl

namespace Ring

/-- `editAll` on `empty n` leaves the last `n` links of the `history` since the last clearing. -/
theorem toList_editAll_empty {n : Nat} (hn : 0 < n) (edits : List Edit) :
    ((empty n).editAll edits).1.toList
      = (Links.history (Edit.derivations edits)).rtake n := by
  have hrow : Links.editAll n [] edits = (_, _) := (editAll_eq (wellFormed_empty hn) edits).2
  rw [← Links.ofDerivations_eq_rtake hn, Edit.derivations, ← Links.editAll_ofDerivations]
  exact (congrArg Prod.fst hrow).symm

/-- `editAll` on a new ring leaves one that reads like a row which `Recounts` the derivations since
the last clearing, as many of their steps as its capacity. -/
theorem ring_recounts {capacity : Value} {r : Ring} (h : ofValue capacity = .ok r)
    (edits : List Edit) (hnan : ∀ d ∈ Edit.derivations edits, d.2.number ≠ .nan) :
    (∃ x : Number, capacity = .number x ∧ x.toInt? = some (r.capacity : Int)) ∧
    ∃ links, (r.editAll edits).1.Reads links ∧
      Links.Recounts links (Edit.derivations edits) r.capacity := by
  obtain ⟨x, n, rfl, hx, hn, rfl⟩ := exists_empty_of_ofValue h
  refine ⟨⟨x, rfl, hx⟩, _, .of_toList (editAll_eq (wellFormed_empty hn) edits).1 rfl, ?_⟩
  rw [toList_editAll_empty hn]
  exact Links.recounts_rtake hn _ hnan

/-- After a clearing, L1 blocks that are skipped, come back and repeat. The first step is lost. -/
def meandering : List Edit :=
  [derivedAt 7 30, .clear, derivedAt 1 10, derivedAt 2 12, derivedAt 3 11, derivedAt 4 15,
    derivedAt 5 15, derivedAt 6 10]

/-- `meandering` meets the premises of `ring_recounts` with room for two links. -/
theorem meandering_recounts :
    ofValue (.number 2) = .ok (empty 2) ∧
    (∀ d ∈ Edit.derivations meandering, d.2.number ≠ .nan) ∧
    Links.steps (Edit.derivations meandering) = [0, 1, 3] ∧
    ((empty 2).editAll meandering).1.toList.map (fun link => (link.l1.number, link.l2.number))
      = [(12, 3), (15, 6)] ∧
    ((∃ x : Number, Value.number 2 = .number x ∧ x.toInt? = some ((2 : Nat) : Int)) ∧
      ∃ links, ((empty 2).editAll meandering).1.Reads links ∧
        Links.Recounts links (Edit.derivations meandering) 2) := by
  have hring : ofValue (.number 2) = .ok (empty 2) := by rfl
  have hnan : ∀ d ∈ Edit.derivations meandering, d.2.number ≠ .nan := by decide
  exact ⟨hring, hnan, by decide, by decide, ring_recounts hring meandering hnan⟩

end Ring

end Settlement
