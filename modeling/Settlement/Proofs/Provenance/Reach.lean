import Settlement.Proofs.Number.Safe
import Settlement.Proofs.Provenance.Steps

/-!
# How far a lookback reaches

A finality signal lands on the link with the greatest L1 number at or below its height
(`Links.LandsOn`). As L1 numbers ascend strictly, fewer links than L1 blocks lie between the
signal and the newest link. So a ring that has room for as many links still has the one that a
ring without bound would have.

## Key results

- `length_le_of_ascending`: strictly ascending L1 numbers leave room for so many links only
- `ring_reaches`: the link that a near signal lands on has not been lost
-/

namespace Settlement

namespace Links

variable {links : List Link} {height : Number}

/-- A height lands on the link with the greatest L1 number at or below it. -/
structure LandsOn (links : List Link) (height : Number) (link : Link) : Prop where
  mem : link ∈ links
  le : link.l1.number ≤ height
  greatest : ∀ other ∈ links, other.l1.number ≤ height →
    other = link ∨ other.l1.number < link.l1.number

/-- L1 numbers are integers. -/
def Integral (links : List Link) : Prop := ∀ link ∈ links, ∃ n, link.l1.number.toInt? = some n

/-- `toInt?` preserves `<`. -/
private theorem lt_of_toInt? {x y : Number} {a b : Int} (hx : x.toInt? = some a)
    (hy : y.toInt? = some b) (h : x < y) : a < b :=
  Int.lt_of_not_ge fun hba => Number.not_le_of_lt h ((Number.le_iff_of_toInt? hy hx).mpr hba)

/-- Among the links at or below a height there is a last one. -/
theorem exists_last_le (h : ∃ link ∈ links, link.l1.number ≤ height) :
    ∃ older held newer, links = older ++ held :: newer ∧ held.l1.number ≤ height ∧
      ∀ link ∈ newer, ¬link.l1.number ≤ height := by
  induction links with
  | nil =>
    obtain ⟨_, hlink, _⟩ := h
    exact absurd hlink List.not_mem_nil
  | cons first rest ih =>
    -- in the rest if there is one there, else the first link itself
    by_cases hrest : ∃ link ∈ rest, link.l1.number ≤ height
    · obtain ⟨older, held, newer, rfl, hle, hnewer⟩ := ih hrest
      exact ⟨first :: older, held, newer, rfl, hle, hnewer⟩
    · have hnewer : ∀ link ∈ rest, ¬link.l1.number ≤ height :=
        fun link hlink hle => hrest ⟨link, hlink, hle⟩
      obtain ⟨link, hlink, hle⟩ := h
      rcases List.mem_cons.mp hlink with rfl | hlink
      · exact ⟨[], link, rest, rfl, hle, hnewer⟩
      · exact absurd hle (hnewer link hlink)

/-- `LandsOn` holds of the last link at or below a height, if L1 numbers ascend strictly. -/
theorem landsOn_of_last {older newer : List Link} {held : Link}
    (hascending : (older ++ held :: newer).Pairwise (·.l1.number < ·.l1.number))
    (hle : held.l1.number ≤ height) (hnewer : ∀ link ∈ newer, ¬link.l1.number ≤ height) :
    LandsOn (older ++ held :: newer) height held where
  mem := List.mem_append_right _ List.mem_cons_self
  le := hle
  -- links before it are lower, and those after it are above the height
  greatest other hother hother_le := by
    rcases List.mem_append.mp hother with hold | hnew
    · exact .inr ((List.pairwise_append.mp hascending).2.2 other hold held List.mem_cons_self)
    · rcases List.mem_cons.mp hnew with rfl | hnew
      · exact .inl rfl
      · exact absurd hother_le (hnewer other hnew)

/-- Strictly ascending integers in an interval are no more than its length. -/
theorem length_le_of_ascending {low high : Int}
    (hascending : links.Pairwise (·.l1.number < ·.l1.number)) (hint : Integral links)
    (hbounds : ∀ link ∈ links, ∀ n, link.l1.number.toInt? = some n → low < n ∧ n ≤ high)
    (hle : low ≤ high) : (links.length : Int) ≤ high - low := by
  induction links generalizing low with
  | nil =>
    rw [List.length_nil]
    omega
  | cons first rest ih =>
    obtain ⟨habove, hrest⟩ := List.pairwise_cons.mp hascending
    obtain ⟨n, hn⟩ := hint first List.mem_cons_self
    obtain ⟨hlow, hhigh⟩ := hbounds first List.mem_cons_self n hn
    -- the others lie above the first one
    have hothers : ∀ link ∈ rest, ∀ m, link.l1.number.toInt? = some m → n < m ∧ m ≤ high :=
      fun link hlink m hm => ⟨lt_of_toInt? hn hm (habove link hlink),
        (hbounds link (List.mem_cons_of_mem _ hlink) m hm).2⟩
    have hlength := ih hrest (fun link hlink => hint link (List.mem_cons_of_mem _ hlink)) hothers
      hhigh
    rw [List.length_cons]
    omega

/-- `history` is `Integral` if every derivation names an integer. -/
theorem integral_history {ds : List Derivation}
    (hint : ∀ d ∈ ds, ∃ n, d.2.number.toInt? = some n) : Integral (history ds) := by
  intro link hlink
  rw [← ofDerivations_eq_history (Nat.succ_pos _) (Nat.le_succ _)] at hlink
  obtain ⟨earlier, step, others, later, rfl, hstem⟩ := exists_stem_of_mem hlink
  rw [hstem.l1_eq]
  refine hint step ?_
  exact List.mem_append_left _ (List.mem_append_right _ List.mem_cons_self)

/-- `m - f` bounds the number of links above height `f`, if the newest one has number `m`. -/
private theorem length_newer_le {older newer : List Link} {held newest : Link} {m f : Int}
    (hascending : (older ++ held :: newer).Pairwise (·.l1.number < ·.l1.number))
    (hint : Integral (older ++ held :: newer)) (hne : newer ≠ [])
    (hnewest : (older ++ held :: newer).getLast? = some newest)
    (hm : newest.l1.number.toInt? = some m) (hf : height.toInt? = some f)
    (hnewer : ∀ link ∈ newer, ¬link.l1.number ≤ height) : (newer.length : Int) ≤ m - f := by
  obtain ⟨-, hheld, -⟩ := List.pairwise_append.mp hascending
  have hasc := (List.pairwise_cons.mp hheld).2
  have hlast : newer.getLast? = some newest := by
    rw [List.append_cons, List.getLast?_append_of_ne_nil _ hne] at hnewest
    exact hnewest
  obtain ⟨earlier, rfl⟩ := List.getLast?_eq_some_iff.mp hlast
  have habove : ∀ link ∈ earlier ++ [newest], ∀ n, link.l1.number.toInt? = some n → f < n :=
    fun link hlink n hn => Int.lt_of_not_ge fun hle =>
      hnewer link hlink ((Number.le_iff_of_toInt? hn hf).mpr hle)
  have hmem : newest ∈ earlier ++ [newest] := List.mem_append_right _ (List.mem_singleton.mpr rfl)
  -- they are all above `f`, and the last of them is at `m`
  refine length_le_of_ascending hasc (fun link hlink => hint link ?_) ?_
    (habove newest hmem m hm).le
  · exact List.mem_append_right _ (List.mem_cons_of_mem _ hlink)
  · intro link hlink n hn
    refine ⟨habove link hlink n hn, ?_⟩
    rcases List.mem_append.mp hlink with hlink | hlink
    · exact (lt_of_toInt? hn hm ((List.pairwise_append.mp hasc).2.2 link hlink newest
        (List.mem_singleton.mpr rfl))).le
    · obtain rfl := List.mem_singleton.mp hlink
      exact (Option.some.inj (hn.symm.trans hm)).le

/-- `LandsOn` carries over to the last `capacity` links, for a height nearer than that to the
newest. -/
theorem landsOn_rtake {capacity : Nat} (hc : 0 < capacity) {newest : Link} {m f : Int}
    (hascending : links.Pairwise (·.l1.number < ·.l1.number)) (hint : Integral links)
    (hnewest : links.getLast? = some newest) (hm : newest.l1.number.toInt? = some m)
    (hf : height.toInt? = some f) (hnear : m - f < capacity)
    (hbelow : ∃ link ∈ links, link.l1.number ≤ height) :
    ∃ held, LandsOn links height held ∧ LandsOn (links.rtake capacity) height held := by
  obtain ⟨older, held, newer, rfl, hle, hnewer⟩ := exists_last_le hbelow
  have hroom : newer.length < capacity := by
    by_cases hne : newer = []
    · rw [hne]
      exact hc
    · have hlength := length_newer_le hascending hint hne hnewest hm hf hnewer
      omega
  -- so the link is still there, and so are all newer ones
  have hkept : ∃ kept, (older ++ held :: newer).rtake capacity = kept ++ held :: newer := by
    refine ⟨older.drop ((older ++ held :: newer).length - capacity), ?_⟩
    apply List.drop_append_of_le_length
    rw [List.length_append, List.length_cons]
    omega
  obtain ⟨kept, hkept⟩ := hkept
  refine ⟨held, landsOn_of_last hascending hle hnewer, ?_⟩
  rw [hkept]
  refine landsOn_of_last ?_ hle hnewer
  rw [← hkept]
  exact hascending.sublist (List.drop_sublist _ _)

end Links

namespace Ring

/-- `LandsOn` gives the same link in the ring and in a ring that loses nothing, for a signal fewer
L1 blocks behind the newest link than the capacity. -/
theorem ring_reaches {capacity : Value} {r : Ring} (h : ofValue capacity = .ok r)
    (edits : List Edit)
    (hint : ∀ d ∈ Edit.derivations edits, ∃ n, d.2.number.toInt? = some n)
    {newest : Link} (hnewest : (r.editAll edits).1.latest? = some newest)
    {height : Number} {m f : Int} (hm : newest.l1.number.toInt? = some m)
    (hf : height.toInt? = some f) (hnear : m - f < r.capacity)
    (hbelow : ∃ link ∈ Links.history (Edit.derivations edits), link.l1.number ≤ height) :
    ∃ held, Links.LandsOn (Links.history (Edit.derivations edits)) height held ∧
      Links.LandsOn (r.editAll edits).1.toList height held := by
  obtain ⟨x, n, rfl, hx, hn, rfl⟩ := exists_empty_of_ofValue h
  have hwf := (editAll_eq (wellFormed_empty hn) edits).1
  rw [latest?_eq_getLast? hwf, toList_editAll_empty hn, Links.getLast?_rtake hn] at hnewest
  rw [toList_editAll_empty hn]
  exact Links.landsOn_rtake hn (Links.ascending_history _) (Links.integral_history hint) hnewest hm
    hf hnear hbelow

/-- One link more than there is room for. -/
def overflowing : List Edit := [derivedAt 1 10, derivedAt 2 11, derivedAt 3 12, derivedAt 4 12]

/-- `overflowing` meets the premises of `ring_reaches` at height 11; the link for height 10, two
blocks behind the newest, is lost. -/
theorem overflowing_reaches :
    ofValue (.number 2) = .ok (empty 2) ∧
    (∀ d ∈ Edit.derivations overflowing, ∃ n, d.2.number.toInt? = some n) ∧
    (∃ newest, ((empty 2).editAll overflowing).1.latest? = some newest ∧
      newest.l1.number.toInt? = some 12) ∧
    (∃ held, Links.LandsOn (Links.history (Edit.derivations overflowing)) 11 held ∧
      Links.LandsOn ((empty 2).editAll overflowing).1.toList 11 held) ∧
    (∃ link ∈ Links.history (Edit.derivations overflowing), link.l1.number ≤ 10) ∧
    ∀ link ∈ ((empty 2).editAll overflowing).1.toList, ¬link.l1.number ≤ 10 := by
  have hring : ofValue (.number 2) = .ok (empty 2) := by rfl
  have hint : ∀ d ∈ Edit.derivations overflowing, ∃ n, d.2.number.toInt? = some n := by
    intro d hd
    exact Option.isSome_iff_exists.mp
      ((by decide : ∀ d ∈ Edit.derivations overflowing, d.2.number.toInt?.isSome = true) d hd)
  -- the newest link is from the height of 12
  have hnewest : ∃ newest, ((empty 2).editAll overflowing).1.latest? = some newest ∧
      newest.l1.number.toInt? = some 12 := ⟨_, rfl, rfl⟩
  refine ⟨hring, hint, hnewest, ?_, by decide, by decide⟩
  obtain ⟨newest, hlatest, hnumber⟩ := hnewest
  exact ring_reaches hring overflowing hint hlatest hnumber (f := 11) rfl (by decide) (by decide)

end Ring

end Settlement
