import Settlement.Proofs.Provenance.Ring
import Settlement.Provenance.Cursor

/-!
# Rings and rows

A ring of links is a row of bounded length, whatever is done to it. Both are edited alike: a
derivation is recorded, or all links are cleared. Whatever has been done, everything that can be
read off the ring reads like the row: the newest link, the links in a list, a walk over them, and
the link at any index.

## Key results

- `Reads.of_toList`: a well-formed ring reads like its list
- `ring_reads_row`: a ring reads like the row that the same edits leave
-/

namespace Settlement

namespace Ring

variable {r : Ring} {links : List Link}

/-! ## Reading -/

/-- Everything that can be read off a ring reads like a row. -/
structure Reads (r : Ring) (links : List Link) : Prop where
  size : r.size = links.length
  latest : r.latest? = links.getLast?
  toList : r.toList = links
  /-- A walk gives the links one after the other, and then nothing any more. -/
  walk : ∀ n, Cursor.steps r n .first = (List.range n).map (links[·]?)
  at_whole : ∀ n : Nat, r.at? (.whole n) = links[n]?
  at_negative : ∀ n : Int, n < 0 → r.at? (.whole n) = none
  at_negativeZero : r.at? .negativeZero = links.head?
  /-- There is nothing at a fraction, at an infinity or at NaN. -/
  at_other : ∀ x : Number, x.toInt? = none → r.at? x = none

/-- `at?` is `toList` at the integer that the index converts to, if it is not negative. -/
theorem at?_eq (h : r.WellFormed) (x : Number) :
    r.at? x = x.toInt?.bind fun n => if 0 ≤ n then r.toList[n.toNat]? else none := by
  -- an index is converted to an integer first, so minus zero is the first place
  unfold at?
  cases x.toInt? with
  | none => rfl
  | some n =>
    simp only [Option.bind_some]
    rw [getElem?_toList h]
    by_cases hneg : 0 ≤ n
    · have hlt : n < r.size ↔ n.toNat < r.size := by omega
      simp only [hneg, true_and, if_true, hlt]
    · simp only [hneg, false_and, if_false]

/-- `Cursor.steps` from `ended` gives nothing. -/
theorem steps_ended (r : Ring) (n : Nat) : Cursor.steps r n .ended = List.replicate n none := by
  induction n with
  | zero => rfl
  | succ n ih => rw [Cursor.steps, Cursor.next_ended, ih, List.replicate_succ]

/-- `Cursor.steps` from a position gives `toList` from there on, and then nothing. -/
theorem steps_walking (h : r.WellFormed) (n position : Nat) :
    Cursor.steps r n (.walking position)
      = (List.range' position n).map (r.toList[·]?) := by
  induction n generalizing position with
  | zero => rfl
  -- one step reads this position; the others read those from the next one on
  | succ n ih =>
    rw [List.range'_succ, List.map_cons, Cursor.steps, Cursor.next]
    by_cases hlt : position < r.size
    · simp only [if_pos hlt, ih, getElem?_toList h]
    · -- there is no link here, and none after it
      have hnone : ∀ i, position ≤ i → r.toList[i]? = none := by
        intro i hi
        rw [getElem?_toList h, if_neg (by omega)]
      have hrest : (List.range' (position + 1) n).map (r.toList[·]?) = List.replicate n none := by
        rw [List.eq_replicate_iff]
        refine ⟨by simp, fun link? hlink => ?_⟩
        obtain ⟨i, hi, rfl⟩ := List.mem_map.mp hlink
        have := (List.mem_range'_1.mp hi).1
        exact hnone i (by omega)
      simp only [if_neg hlt, steps_ended, hnone position (Nat.le_refl _), hrest]

/-- `Reads` holds between a well-formed ring and its `toList`. -/
theorem Reads.of_toList (h : r.WellFormed) (hlinks : r.toList = links) : r.Reads links where
  size := by rw [← hlinks, length_toList h]
  latest := by rw [latest?_eq_getLast? h, hlinks]
  toList := hlinks
  -- a walk gives the links by their positions
  walk n := by
    rw [Cursor.first, steps_walking h, List.range_eq_range', hlinks]
  at_whole n := by
    rw [at?_eq h, hlinks]
    simp
  -- no index below zero is a position
  at_negative n hn := by
    rw [at?_eq h, Number.toInt?_whole, Option.bind_some, if_neg (by omega)]
  at_negativeZero := by
    rw [at?_eq h, hlinks, List.head?_eq_getElem?]
    rfl
  at_other x hx := by
    rw [at?_eq h, hx]
    rfl

/-! ## Editing -/

/-- `edit` preserves `WellFormed` and the capacity, and is `Links.edit` on `toList`. -/
theorem edit_eq (h : r.WellFormed) (e : Edit) :
    (r.edit e).1.WellFormed ∧ (r.edit e).1.capacity = r.capacity ∧
    Links.edit r.capacity r.toList e = ((r.edit e).1.toList, (r.edit e).2) := by
  cases e with
  | record l2 l1 =>
    refine ⟨wellFormed_record h l2 l1, capacity_record r l2 l1, ?_⟩
    -- `record` on the ring is `record` on the list, with the same change
    have hlist : (r.edit (.record l2 l1)).1.toList
        = (Links.record r.capacity r.toList l2 l1).1 := toList_record h l2 l1
    have hchange : (r.edit (.record l2 l1)).2
        = some (Links.record r.capacity r.toList l2 l1).2 := congrArg some (change_record h l2 l1)
    rw [hlist, hchange]
    rfl
  | clear => exact ⟨wellFormed_clear h, rfl, rfl⟩

/-- `editAll` preserves `WellFormed` and is `Links.editAll` on `toList`. -/
theorem editAll_eq (h : r.WellFormed) (edits : List Edit) :
    (r.editAll edits).1.WellFormed ∧
    Links.editAll r.capacity r.toList edits
      = ((r.editAll edits).1.toList, (r.editAll edits).2) := by
  -- an edit leaves a well-formed ring of the same capacity for the edits after it
  induction edits generalizing r with
  | nil => exact ⟨h, rfl⟩
  | cons e edits ih =>
    obtain ⟨hwf, hcapacity, hedit⟩ := edit_eq h e
    obtain ⟨hall, hedits⟩ := ih hwf
    rw [hcapacity] at hedits
    refine ⟨hall, ?_⟩
    rw [Links.editAll, hedit]
    show ((Links.editAll r.capacity (r.edit e).1.toList edits).1, _) = _
    rw [hedits]
    rfl

/-- `ofCapacity` gives `empty n` for every `n` from one to `maxCapacity`. -/
theorem ofCapacity_whole {n : Nat} (hn : 1 ≤ n) (hmax : n ≤ maxCapacity) :
    ofCapacity (.whole n) = .ok (empty n) := by
  have hsafe : n ≤ Number.maxSafe := Nat.le_trans hmax (by decide)
  have hvalid : (Number.whole n).isSafeInteger = true ∧ 1 ≤ (n : Int) :=
    ⟨by simpa using hsafe, by omega⟩
  have hmax' : (n : Int) ≤ maxCapacity := by omega
  rw [ofCapacity, Number.toInt?_whole]
  dsimp only
  rw [if_pos hvalid, if_pos hmax', Int.toNat_natCast]

/-- `editAll` on a new ring and `Links.editAll` on the empty row report the same changes, and the
ring `Reads` like the row after any edits. -/
theorem ring_reads_row {n : Nat} (hn : 1 ≤ n) (hmax : n ≤ maxCapacity) :
    ∃ r, ofCapacity (.whole n) = .ok r ∧ ∀ edits,
      (r.editAll edits).1.Reads (Links.editAll n [] edits).1 ∧
      (r.editAll edits).2 = (Links.editAll n [] edits).2 := by
  refine ⟨empty n, ofCapacity_whole hn hmax, fun edits => ?_⟩
  obtain ⟨hwf, hedits⟩ := editAll_eq (wellFormed_empty hn) edits
  have hrow : Links.editAll n [] edits
      = (((empty n).editAll edits).1.toList, ((empty n).editAll edits).2) := hedits
  rw [hrow]
  exact ⟨.of_toList hwf rfl, rfl⟩

/-- Records the L2 block of one height with the L1 block of another one. -/
def derivedAt (l2 l1 : Nat) : Edit :=
  .record { L2Block.zero with number := .whole l2 } { BlockId.zero with number := .whole l1 }

/-- Records an L2 block of another hash, with an L1 block that has a field beyond its identity. -/
def sidewaysAt (l2 l1 : Nat) : Edit :=
  .record { L2Block.zero with hash := "side", number := .whole l2 }
    { hash := "other", number := .whole l1, extra := [("logIndex", .integer 3)] }

/-- The third L1 block evicts the first one and is stored around the end of the slots, where its
link is then taken over, also by a block of the same height. The fourth L1 block evicts the second.
Clearing begins anew. -/
def wrapping : List Edit :=
  [derivedAt 1 10, derivedAt 2 11, derivedAt 3 12, derivedAt 4 12, derivedAt 4 11,
    sidewaysAt 4 12, sidewaysAt 5 13, .clear, derivedAt 1 9, derivedAt 2 13]

/-- `wrapping` meets the premises of `ring_reads_row` with room for two links. -/
theorem wrapping_reads :
    1 ≤ 2 ∧ 2 ≤ maxCapacity ∧
    ∃ r, ofCapacity (.whole (2 : Nat)) = .ok r ∧
      (r.editAll (wrapping.take 5)).2
        = [some .appended, some .appended, some .appended, some .updated, some .unchanged] ∧
      (r.editAll (wrapping.take 5)).1.start = 1 ∧
      ((r.editAll (wrapping.take 5)).1.at? 1).map (·.l2.number) = some 4 ∧
      (r.editAll (wrapping.take 5)).1.Reads (Links.editAll 2 [] (wrapping.take 5)).1 ∧
      (r.editAll (wrapping.take 7)).2.drop 5 = [some .updated, some .appended] ∧
      -- a link keeps its L1 block when another L2 block of its height takes it over
      (r.editAll (wrapping.take 6)).1.at? 1
        = some ⟨{ L2Block.zero with hash := "side", number := .whole 4 },
            { hash := zeroHash, number := .whole 12 }⟩ ∧
      -- of an L1 block only the hash and the number are stored
      (r.editAll (wrapping.take 7)).1.at? 1
        = some ⟨{ L2Block.zero with hash := "side", number := .whole 5 },
            { hash := "other", number := .whole 13 }⟩ ∧
      (r.editAll (wrapping.take 7)).1.Reads (Links.editAll 2 [] (wrapping.take 7)).1 ∧
      (r.editAll wrapping).1.Reads (Links.editAll 2 [] wrapping).1 ∧
      (r.editAll wrapping).2 = (Links.editAll 2 [] wrapping).2 := by
  have hmax : 2 ≤ maxCapacity := by decide
  obtain ⟨r, hr, hreads⟩ := ring_reads_row (n := 2) (by decide) hmax
  obtain rfl : empty 2 = r := Except.ok.inj hr
  exact ⟨by decide, hmax, empty 2, hr, by rfl, by rfl, by rfl, (hreads _).1, by rfl, by rfl, by rfl,
    (hreads _).1, hreads wrapping⟩

end Ring

end Settlement
