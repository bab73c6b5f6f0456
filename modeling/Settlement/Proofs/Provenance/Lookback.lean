import Mathlib.Data.List.Infix
import Settlement.Proofs.Provenance.History

/-!
# Lookbacks

The lookback is how many links a row can have. The same derivations leave a shorter row under a
smaller lookback: the end of the longer one, which has lost its oldest links.

## Key results

- `ofDerivations_isSuffix`: a smaller lookback leaves the end of the row
- `ascending_ofDerivations`: if the L2 heights of the derivations ascend, so do those of the row
-/

namespace Settlement.Links

variable {capacity k n : Nat} {links short long : List Link} {l2 : L2Block} {l1 : BlockId}

/-! ## The length of a row -/

/-- `record` never leaves the row empty. -/
theorem record_ne_nil (capacity : Nat) (links : List Link) (l2 : L2Block) (l1 : BlockId) :
    (record capacity links l2 l1).1 ≠ [] := by
  -- appended, unchanged, or with a newest link that was there before
  rcases record_cases capacity links l2 l1 with ⟨kept, -, heq⟩ | ⟨newest, hlast, -, heq | heq⟩
  · rw [heq]
    simp
  · rw [heq]
    simp
  · rw [heq]
    rintro rfl
    exact nomatch hlast

/-- `ofDerivations` is empty for no derivations only. -/
theorem ofDerivations_eq_nil {ds : List Derivation} (h : ofDerivations capacity ds = []) :
    ds = [] := by
  rcases List.eq_nil_or_concat ds with rfl | ⟨earlier, d, rfl⟩
  · rfl
  · rw [List.concat_eq_append, ofDerivations_concat] at h
    exact (record_ne_nil _ _ _ _ h).elim

/-- `record` keeps the length within the capacity. -/
theorem length_record_le (hc : 0 < capacity) (h : links.length ≤ capacity) :
    (record capacity links l2 l1).1.length ≤ capacity := by
  rw [record_eq]
  cases Change.of links.getLast? l2 l1 with
  -- a full row loses its oldest link before it gains one
  | appended =>
    dsimp only
    split <;> simp <;> omega
  | updated =>
    cases hlast : links.getLast? with
    | none => simp; omega
    | some newest =>
      have hne : 0 < links.length := List.length_pos_of_mem (List.mem_of_getLast? hlast)
      simp; omega
  | unchanged => exact h

/-- `ofDerivations` keeps the length within the capacity. -/
theorem length_ofDerivations_le (hc : 0 < capacity) (ds : List Derivation) :
    (ofDerivations capacity ds).length ≤ capacity := by
  induction ds using List.reverseRecOn with
  | nil => exact Nat.zero_le _
  | append_singleton ds d ih =>
    rw [ofDerivations_concat]
    exact length_record_le hc ih

/-! ## Two rows -/

/-- A strictly shorter suffix is one of `List.tail` too. -/
private theorem isSuffix_tail (h : short <:+ long) (hlt : short.length < long.length) :
    short <:+ long.tail := by
  cases long with
  | nil => exact absurd hlt (Nat.not_lt_zero _)
  | cons oldest rest =>
    rcases List.suffix_cons_iff.mp h with rfl | h
    · exact absurd hlt (Nat.lt_irrefl _)
    · exact h

/-- Eviction preserves `<:+`: the shorter row is full no later than the longer one. -/
private theorem evicted_isSuffix (hk : 0 < k) (hle : k ≤ n) (hshort : short.length ≤ k)
    (h : short <:+ long) :
    (if short.length = k then short.tail else short) <:+
      (if long.length = n then long.tail else long) := by
  have hkept : (if short.length = k then short.tail else short) <:+ long := by
    split
    · exact (List.tail_suffix short).trans h
    · exact h
  -- if the longer row evicts, the shorter one is strictly shorter by then
  by_cases hfull : long.length = n
  · rw [if_pos hfull]
    apply isSuffix_tail hkept
    split
    · rw [List.length_tail]
      omega
    · omega
  · rw [if_neg hfull]
    exact hkept

/-- `List.dropLast` preserves `<:+`. -/
private theorem dropLast_isSuffix (hne : short ≠ []) (h : short <:+ long) :
    short.dropLast <:+ long.dropLast := by
  obtain ⟨older, rfl⟩ := h
  rw [List.dropLast_append_of_ne_nil hne]
  exact List.suffix_append older short.dropLast

/-- `record` preserves `<:+` between rows of two capacities. -/
theorem record_isSuffix (hk : 0 < k) (hle : k ≤ n) (hshort : short.length ≤ k) (hne : short ≠ [])
    (h : short <:+ long) (l2 : L2Block) (l1 : BlockId) :
    (record k short l2 l1).1 <:+ (record n long l2 l1).1 := by
  -- the newest link is the same, and so is its change
  have hlast : long.getLast? = short.getLast? := by
    obtain ⟨older, rfl⟩ := h
    exact List.getLast?_append_of_ne_nil older hne
  rw [record_eq, record_eq, hlast]
  cases Change.of short.getLast? l2 l1 with
  | appended =>
    exact (List.suffix_append_inj_of_length_eq rfl).mpr ⟨evicted_isSuffix hk hle hshort h, rfl⟩
  | updated =>
    exact (List.suffix_append_inj_of_length_eq rfl).mpr ⟨dropLast_isSuffix hne h, rfl⟩
  | unchanged => exact h

/-- `ofDerivations` under a smaller lookback is a suffix of that under a larger one. -/
theorem ofDerivations_isSuffix (hk : 0 < k) (hle : k ≤ n) (ds : List Derivation) :
    ofDerivations k ds <:+ ofDerivations n ds := by
  induction ds using List.reverseRecOn with
  | nil => exact List.suffix_refl []
  | append_singleton ds d ih =>
    rw [ofDerivations_concat, ofDerivations_concat]
    by_cases hnil : ofDerivations k ds = []
    · -- the first derivation leaves one link in both rows
      obtain rfl := ofDerivations_eq_nil hnil
      have hfirst : ∀ capacity, (record capacity [] d.1 d.2).1 = [⟨d.1, d.2.bare⟩] :=
        fun _ => rfl
      rw [ofDerivations_nil, ofDerivations_nil, hfirst, hfirst]
    · exact record_isSuffix hk hle (length_ofDerivations_le hk ds) hnil ih d.1 d.2

/-! ## L2 heights -/

/-- `ofDerivations` holds only L2 blocks that were derived. -/
theorem exists_derivation_of_mem {ds : List Derivation} {link : Link}
    (h : link ∈ ofDerivations capacity ds) : ∃ d ∈ ds, d.1 = link.l2 := by
  obtain ⟨earlier, step, others, later, rfl, hstem⟩ := exists_stem_of_mem h
  obtain ⟨d, hd, hl2⟩ := hstem.l2_mem
  exact ⟨d, List.mem_append_left _ (List.mem_append_right _ hd), hl2⟩

/-- `ofDerivations` has ascending L2 heights if the derivations have. -/
theorem ascending_ofDerivations {ds : List Derivation}
    (h : ds.Pairwise (·.1.number < ·.1.number)) :
    (ofDerivations capacity ds).Pairwise (·.l2.number < ·.l2.number) := by
  induction ds using List.reverseRecOn with
  | nil => exact List.Pairwise.nil
  | append_singleton ds d ih =>
    obtain ⟨hds, -, hbelow⟩ := List.pairwise_append.mp h
    -- one more link ascends from whatever is kept of the row
    have hconcat : ∀ kept : List Link, kept.Sublist (ofDerivations capacity ds) →
        ∀ newest : Link, newest.l2 = d.1 →
          (kept ++ [newest]).Pairwise (·.l2.number < ·.l2.number) := by
      intro kept hkept newest hl2
      refine List.pairwise_append.mpr ⟨(ih hds).sublist hkept, List.pairwise_singleton .., ?_⟩
      intro link hlink other hother
      obtain rfl := List.mem_singleton.mp hother
      obtain ⟨e, he, hel2⟩ := exists_derivation_of_mem (hkept.subset hlink)
      rw [hl2, ← hel2]
      exact hbelow e he d (List.mem_singleton.mpr rfl)
    rw [ofDerivations_concat]
    rcases record_cases capacity (ofDerivations capacity ds) d.1 d.2 with
      ⟨kept, hkept, heq⟩ | ⟨newest, -, -, heq | heq⟩
    · rw [heq]
      exact hconcat kept hkept _ rfl
    · rw [heq]
      exact hconcat _ (List.dropLast_sublist _) _ rfl
    · rw [heq]
      exact ih hds

end Settlement.Links
