import Settlement.Proofs.Number.Order
import Settlement.Provenance.Link

/-!
# Where links come from

A row of links is what a series of derivations leaves (`Links.ofDerivations`). A derivation with
an L1 number above that of the newest link is a step: it begins a link. Every other derivation
goes into the link of the last step, whatever L1 block it names, so a link carries the L1 block
of its step and an L2 block of the step or of a derivation after it (`Link.Stem`).

## Key results

- `exists_stem_of_mem`: every link in a row has a stem in the derivations
- `Stem.exists_same_of_orderly`: if derivations come in the order of L1, with one block at each
  height, the L2 block of a link was recorded with the L1 block of the link
-/

namespace Settlement

/-- An L2 block and the L1 block that it is recorded with. -/
abbrev Derivation := L2Block × BlockId

/-- A link stems from a step and the derivations after it that did not go above its height. -/
structure Link.Stem (link : Link) (step : Derivation) (others : List Derivation) : Prop where
  l1_eq : link.l1 = step.2.bare
  not_above : ∀ d ∈ others, ¬step.2.number < d.2.number
  l2_mem : ∃ d ∈ step :: others, d.1 = link.l2

/-- Derivations in the order of L1: heights do not fall, and each height has one hash. -/
def Orderly (ds : List Derivation) : Prop :=
  ds.Pairwise fun d e =>
    d.2.number ≤ e.2.number ∧ (d.2.number.equal e.2.number = true → d.2.hash = e.2.hash)

namespace Links

/-- The row of links that a series of derivations leaves. -/
def ofDerivations (capacity : Nat) (ds : List Derivation) : List Link :=
  ds.foldl (fun links d => (record capacity links d.1 d.2).1) []

/-- `ofDerivations` of nothing is the empty row. -/
@[simp] theorem ofDerivations_nil (capacity : Nat) : ofDerivations capacity [] = [] := rfl

/-- `ofDerivations` takes one more derivation by `record`. -/
theorem ofDerivations_concat (capacity : Nat) (ds : List Derivation) (d : Derivation) :
    ofDerivations capacity (ds ++ [d])
      = (record capacity (ofDerivations capacity ds) d.1 d.2).1 := by
  rw [ofDerivations, List.foldl_append]
  rfl

/-! ## One more derivation -/

/-- `record` appends a link, gives the newest one another L2 block, or changes nothing. -/
theorem record_cases (capacity : Nat) (links : List Link) (l2 : L2Block) (l1 : BlockId) :
    (∃ kept, kept.Sublist links ∧ (record capacity links l2 l1).1 = kept ++ [⟨l2, l1.bare⟩]) ∨
    (∃ newest, links.getLast? = some newest ∧ ¬newest.l1.number < l1.number ∧
      ((record capacity links l2 l1).1 = links.dropLast ++ [{ newest with l2 }] ∨
        (record capacity links l2 l1).1 = links)) := by
  unfold record
  cases hlast : links.getLast? with
  -- an empty row: the first link
  | none => exact .inl ⟨[], List.nil_sublist links, rfl⟩
  | some newest =>
    dsimp only
    -- above the newest L1 block a link is appended, perhaps after an eviction
    by_cases habove : newest.l1.number < l1.number
    · rw [if_pos habove]
      refine .inl ⟨if links.length = capacity then links.tail else links, ?_, rfl⟩
      split
      · exact List.tail_sublist links
      · exact List.Sublist.refl links
    · rw [if_neg habove]
      refine .inr ⟨newest, rfl, habove, ?_⟩
      by_cases hsame : newest.l2.same l2 = true
      · rw [if_pos hsame]
        exact .inr rfl
      · rw [if_neg hsame]
        exact .inl rfl

/-! ## Stems -/

/-- The newest link has a `Stem` that reaches to the last derivation. -/
private def NewestStem (ds : List Derivation) (newest : Link) : Prop :=
  ∃ earlier step others, ds = earlier ++ step :: others ∧ newest.Stem step others

/-- `NewestStem` survives a derivation not above the newest link, with its old L2 block and with the
new one. -/
private theorem newestStem_concat {ds : List Derivation} {newest : Link}
    (h : NewestStem ds newest) {d : Derivation} (hd : ¬newest.l1.number < d.2.number) :
    NewestStem (ds ++ [d]) newest ∧ NewestStem (ds ++ [d]) { newest with l2 := d.1 } := by
  obtain ⟨earlier, step, others, rfl, hl1, hothers, e, he, hl2⟩ := h
  have hnumber : newest.l1.number = step.2.number := by rw [hl1, BlockId.bare]
  have hall : ∀ f ∈ others ++ [d], ¬step.2.number < f.2.number := by
    intro f hf
    rcases List.mem_append.mp hf with hf | hf
    · exact hothers f hf
    · rw [List.mem_singleton.mp hf, ← hnumber]
      exact hd
  have hsplit : earlier ++ step :: others ++ [d] = earlier ++ step :: (others ++ [d]) := by simp
  -- the L2 block of the link stays what it was, or becomes that of the derivation
  constructor
  · refine ⟨earlier, step, others ++ [d], hsplit, hl1, hall, e, ?_, hl2⟩
    rw [← List.cons_append]
    exact List.mem_append_left _ he
  · refine ⟨earlier, step, others ++ [d], hsplit, hl1, hall, d, ?_, rfl⟩
    rw [← List.cons_append]
    exact List.mem_append_right _ (List.mem_singleton.mpr rfl)

/-- A derivation that begins a link is the step of its `NewestStem`. -/
private theorem newestStem_step (ds : List Derivation) (d : Derivation) :
    NewestStem (ds ++ [d]) ⟨d.1, d.2.bare⟩ :=
  ⟨ds, d, [], rfl, rfl, fun _ h => absurd h List.not_mem_nil, d, List.mem_cons_self, rfl⟩

/-- `ofDerivations` gives every link a `Stem`, and the newest one a `NewestStem`. -/
private theorem stems (capacity : Nat) (ds : List Derivation) :
    (∀ link ∈ ofDerivations capacity ds, ∃ upto later, ds = upto ++ later ∧
      NewestStem upto link) ∧
    (∀ newest, (ofDerivations capacity ds).getLast? = some newest → NewestStem ds newest) := by
  induction ds using List.reverseRecOn with
  | nil => simp
  -- induction from the end: only the newest stem is still growing
  | append_singleton ds d ih =>
    obtain ⟨ihmem, ihlast⟩ := ih
    -- an older link keeps its stem, one derivation further from the end
    have hold : ∀ link ∈ ofDerivations capacity ds, ∃ upto later,
        ds ++ [d] = upto ++ later ∧ NewestStem upto link := by
      intro link hlink
      obtain ⟨upto, later, hds, hstem⟩ := ihmem link hlink
      exact ⟨upto, later ++ [d], by rw [hds, List.append_assoc], hstem⟩
    have hnew : ∀ link, NewestStem (ds ++ [d]) link → ∃ upto later,
        ds ++ [d] = upto ++ later ∧ NewestStem upto link :=
      fun link h => ⟨ds ++ [d], [], by rw [List.append_nil], h⟩
    rw [ofDerivations_concat]
    -- the derivation begins a link, changes the newest one, or changes nothing
    rcases record_cases capacity (ofDerivations capacity ds) d.1 d.2 with
      ⟨kept, hkept, heq⟩ | ⟨newest, hlast, hnot, heq | heq⟩
    · rw [heq]
      constructor
      · intro link hlink
        rcases List.mem_append.mp hlink with hlink | hlink
        · exact hold link (hkept.subset hlink)
        · rw [List.mem_singleton.mp hlink]
          exact hnew _ (newestStem_step ds d)
      · intro link hlink
        rw [List.getLast?_concat] at hlink
        rw [← Option.some.inj hlink]
        exact newestStem_step ds d
    · have hstem := (newestStem_concat (ihlast newest hlast) hnot).2
      rw [heq]
      constructor
      · intro link hlink
        rcases List.mem_append.mp hlink with hlink | hlink
        · exact hold link (List.dropLast_subset _ hlink)
        · rw [List.mem_singleton.mp hlink]
          exact hnew _ hstem
      · intro link hlink
        rw [List.getLast?_concat] at hlink
        rw [← Option.some.inj hlink]
        exact hstem
    · rw [heq]
      refine ⟨hold, fun link hlink => ?_⟩
      obtain rfl : newest = link := Option.some.inj (hlast.symm.trans hlink)
      exact (newestStem_concat (ihlast newest hlast) hnot).1

/-- `ofDerivations` gives every link a `Stem` among the derivations. -/
theorem exists_stem_of_mem {capacity : Nat} {ds : List Derivation} {link : Link}
    (h : link ∈ ofDerivations capacity ds) :
    ∃ earlier step others later, ds = earlier ++ step :: others ++ later ∧
      link.Stem step others := by
  obtain ⟨upto, later, hds, earlier, step, others, rfl, hstem⟩ := (stems capacity ds).1 link h
  exact ⟨earlier, step, others, later, hds, hstem⟩

end Links

/-- `Orderly` derivations of one `Stem` all name the L1 block of its step. -/
private theorem Link.Stem.same_of_orderly {link : Link} {earlier others later : List Derivation}
    {step : Derivation} (h : link.Stem step others)
    (ho : Orderly (earlier ++ step :: others ++ later)) {d : Derivation} (hd : d ∈ step :: others) :
    d = step ∨ (step.2.number.equal d.2.number = true ∧ step.2.hash = d.2.hash) := by
  rcases List.mem_cons.mp hd with rfl | hd
  · exact .inl rfl
  · have hpairs := (List.pairwise_append.mp (List.pairwise_append.mp ho).1).2.1
    obtain ⟨hle, hhash⟩ := (List.pairwise_cons.mp hpairs).1 d hd
    -- not above the step, and not below it either
    have hequal := Number.equal_of_le_of_not_lt hle (h.not_above d hd)
    exact .inr ⟨hequal, hhash hequal⟩

/-- `Orderly` derivations hold the L2 block of a link together with the L1 block of that link. -/
theorem Link.Stem.exists_same_of_orderly {link : Link} {earlier others later : List Derivation}
    {step : Derivation} (h : link.Stem step others)
    (ho : Orderly (earlier ++ step :: others ++ later)) {bound : Number}
    (hle : link.l1.number ≤ bound) :
    ∃ l1, (link.l2, l1) ∈ step :: others ∧ l1.same link.l1 = true ∧ l1.number ≤ bound := by
  have hstep : link.l1.number = step.2.number ∧ link.l1.hash = step.2.hash := by
    rw [h.l1_eq]
    exact ⟨rfl, rfl⟩
  obtain ⟨⟨l2, l1⟩, hd, rfl⟩ := h.l2_mem
  have hequal : step.2.number.equal l1.number = true ∧ step.2.hash = l1.hash := by
    rcases h.same_of_orderly ho hd with rfl | hsame
    · exact ⟨Number.equal_self_of_le (hstep.1 ▸ hle), rfl⟩
    · exact hsame
  -- `same` compares number and hash, each of which is that of the step
  refine ⟨l1, hd, ?_, Number.le_of_equal_of_le hequal.1 (hstep.1 ▸ hle)⟩
  show (l1.number.equal link.l1.number && l1.hash == link.l1.hash) = true
  rw [hstep.1, hstep.2, Number.equal_comm, hequal.1, hequal.2, beq_self_eq_true, Bool.and_self]

end Settlement
