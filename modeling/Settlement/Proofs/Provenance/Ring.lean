import Settlement.Provenance.Ring

/-!
# The ring as a list

A well-formed ring is its list of links: every operation keeps the ring well-formed and does to
`Ring.toList` what the same operation on a list of bounded length does.

## Key results

- `wellFormed_empty`, `wellFormed_record`, `wellFormed_clear`: the invariant of the slots
- `getElem?_toList`: the list read through positions
- `latest?_eq_getLast?`: the newest link is the last one
- `toList_record`, `change_record`: recording in a ring is `Links.record` on its list
- `exists_empty_of_ofValue`: the ring of a capacity
-/

namespace Settlement.Ring

variable {r : Ring}

/-! ## Slots -/

/-- `slot i` is `start + i`, less the capacity where that is past the end. -/
theorem slot_eq (hs : r.start < r.capacity) {i : Nat} (hi : i ≤ r.capacity) :
    r.slot i = if r.start + i < r.capacity then r.start + i
      else r.start + i - r.capacity := by
  unfold slot
  split
  · rename_i h
    -- no way around the end
    exact Nat.mod_eq_of_lt h
  · rename_i h
    -- one way around, and not two: both terms are at most the capacity
    rw [Nat.mod_eq_sub_mod (by omega)]
    exact Nat.mod_eq_of_lt (by omega)

/-- `slot` stays below the capacity. -/
theorem slot_lt (hs : r.start < r.capacity) (i : Nat) : r.slot i < r.capacity :=
  Nat.mod_lt _ (by omega)

/-- `slot` is injective on the positions below the capacity. -/
theorem slot_inj (hs : r.start < r.capacity) {i j : Nat} (hi : i < r.capacity)
    (hj : j < r.capacity) : r.slot i = r.slot j ↔ i = j := by
  rw [slot_eq hs (by omega), slot_eq hs (by omega)]
  split <;> split <;> omega

/-- `put i` changes what `get?` reads at position `i` and nowhere else. -/
theorem get?_put (h : r.WellFormed) (link : Link) {i j : Nat} (hi : i < r.capacity)
    (hj : j < r.capacity) :
    (r.put i link).get? j = if i = j then some link else r.get? j := by
  -- written in the slot of `i`, read in the slot of `j`
  have hslot : r.slot i < r.slots.size := h.slots_size ▸ slot_lt h.start_lt i
  have hget : (r.put i link).get? j
      = ((r.slots.setIfInBounds (r.slot i) (some link))[r.slot j]?).join := rfl
  rw [hget, Array.getElem?_setIfInBounds]
  by_cases hij : i = j
  · subst hij
    rw [if_pos rfl, if_pos hslot, if_pos rfl]
    rfl
  · have hne : r.slot i ≠ r.slot j := fun e => hij ((slot_inj h.start_lt hi hj).mp e)
    rw [if_neg hne, if_neg hij]
    rfl

/-- `dropOldest` shifts `slot` by one. -/
theorem slot_dropOldest (r : Ring) (j : Nat) : r.dropOldest.slot j = r.slot (j + 1) := by
  unfold slot dropOldest
  simp only [Nat.mod_add_mod]
  congr 1
  omega

/-- After `dropOldest`, `get?` reads at every position what the next one held, and nothing at the
last. -/
theorem get?_dropOldest (h : r.WellFormed) {j : Nat} (hj : j < r.capacity) :
    r.dropOldest.get? j = if j + 1 < r.capacity then r.get? (j + 1) else none := by
  have hslots : r.dropOldest.slots = r.slots.setIfInBounds r.start none := rfl
  have hstart : r.start < r.slots.size := h.slots_size ▸ h.start_lt
  have hlt := h.start_lt
  rw [get?, slot_dropOldest, hslots, Array.getElem?_setIfInBounds]
  by_cases hj' : j + 1 < r.capacity
  · -- the slot emptied is that of the old position zero, which no position reaches any more
    have hne : r.start ≠ r.slot (j + 1) := by
      rw [slot_eq hlt (by omega)]
      split <;> omega
    rw [if_neg hne, if_pos hj', get?]
  · -- but the last position, which has come around to it
    have he : r.start = r.slot (j + 1) := by
      rw [slot_eq hlt (by omega)]
      split <;> omega
    rw [if_pos he, if_pos hstart, if_neg hj']
    rfl

/-! ## Well-formed rings -/

/-- `get?` reads nothing in `empty`. -/
theorem get?_empty (capacity i : Nat) : (empty capacity).get? i = none := by
  simp only [get?, empty, Array.getElem?_replicate]
  split <;> rfl

/-- `empty` is well-formed if its capacity is positive. -/
theorem wellFormed_empty {capacity : Nat} (h : 0 < capacity) : (empty capacity).WellFormed where
  slots_size := Array.size_replicate
  start_lt := h
  size_le := Nat.zero_le _
  occupied i hi := absurd hi (Nat.not_lt_zero i)
  vacant i _ _ := get?_empty capacity i

/-- `clear` preserves `WellFormed`. -/
theorem wellFormed_clear (h : r.WellFormed) : r.clear.WellFormed :=
  wellFormed_empty (Nat.zero_lt_of_lt h.start_lt)

/-- `put` at a position below the size preserves `WellFormed`. -/
theorem wellFormed_put (h : r.WellFormed) (link : Link) {i : Nat} (hi : i < r.size) :
    (r.put i link).WellFormed := by
  have hcap := h.size_le
  refine ⟨?_, h.start_lt, h.size_le, ?_, ?_⟩
  · exact (Array.size_setIfInBounds ..).trans h.slots_size
  -- positions below the size stay occupied
  · intro j (hj : j < r.size)
    rw [get?_put h link (by omega) (by omega)]
    split
    · rfl
    · exact h.occupied j hj
  -- those from the size on stay vacant, as `i` is none of them
  · intro j (hj : r.size ≤ j) (hj' : j < r.capacity)
    rw [get?_put h link (by omega) hj', if_neg (by omega)]
    exact h.vacant j hj hj'

/-- `dropOldest` preserves `WellFormed`. -/
theorem wellFormed_dropOldest (h : r.WellFormed) (hne : 0 < r.size) :
    r.dropOldest.WellFormed := by
  have hcap := h.size_le
  have hpos := Nat.zero_lt_of_lt h.start_lt
  -- every position now reads what the one after it did
  refine ⟨?_, Nat.mod_lt _ hpos, Nat.le_trans (Nat.sub_le _ _) hcap, ?_, ?_⟩
  · exact (Array.size_setIfInBounds ..).trans h.slots_size
  · intro j (hj : j < r.size - 1)
    rw [get?_dropOldest h (by omega), if_pos (by omega)]
    exact h.occupied _ (by omega)
  · intro j (hj : r.size - 1 ≤ j) (hj' : j < r.capacity)
    rw [get?_dropOldest h hj']
    split
    · exact h.vacant _ (by omega) (by omega)
    · rfl

/-- `append` for a ring that is not full: the link is put after the newest one. -/
def grow (r : Ring) (link : Link) : Ring := { r.put r.size link with size := r.size + 1 }

/-- `append` is `dropOldest` where the ring is full, and then `grow`. -/
theorem append_eq (r : Ring) (link : Link) :
    r.append link = (if r.size = r.capacity then r.dropOldest else r).grow link := rfl

/-- `grow` adds the link at position `size` for `get?` and leaves the others. -/
theorem get?_grow (h : r.WellFormed) (link : Link) (hlt : r.size < r.capacity) {j : Nat}
    (hj : j < r.capacity) :
    (r.grow link).get? j = if r.size = j then some link else r.get? j :=
  get?_put h link hlt hj

/-- `grow` preserves `WellFormed` below the capacity. -/
theorem wellFormed_grow (h : r.WellFormed) (link : Link) (hlt : r.size < r.capacity) :
    (r.grow link).WellFormed := by
  refine ⟨?_, h.start_lt, hlt, ?_, ?_⟩
  · exact (Array.size_setIfInBounds ..).trans h.slots_size
  -- the new link is at the old size, which is now occupied
  · intro j (hj : j < r.size + 1)
    rw [get?_grow h link hlt (by omega)]
    split
    · rfl
    · exact h.occupied j (by omega)
  · intro j (hj : r.size + 1 ≤ j) (hj' : j < r.capacity)
    rw [get?_grow h link hlt hj', if_neg (by omega)]
    exact h.vacant j (by omega) hj'

/-- `dropOldest` in a full ring leaves a ring that is well-formed and not full. -/
private theorem room (h : r.WellFormed) :
    (if r.size = r.capacity then r.dropOldest else r).WellFormed ∧
    (if r.size = r.capacity then r.dropOldest else r).size < r.capacity := by
  have hpos := Nat.zero_lt_of_lt h.start_lt
  have hle := h.size_le
  split
  · rename_i hfull
    have hsize : r.dropOldest.size = r.size - 1 := rfl
    exact ⟨wellFormed_dropOldest h (by omega), by omega⟩
  · exact ⟨h, by omega⟩

/-- `append` preserves the capacity. -/
theorem capacity_append (r : Ring) (link : Link) : (r.append link).capacity = r.capacity := by
  rw [append_eq]
  split <;> rfl

/-- `append` preserves `WellFormed`. -/
theorem wellFormed_append (h : r.WellFormed) (link : Link) : (r.append link).WellFormed := by
  obtain ⟨hwf, hlt⟩ := room h
  rw [append_eq]
  refine wellFormed_grow hwf link ?_
  have hcap : (if r.size = r.capacity then r.dropOldest else r).capacity = r.capacity := by
    split <;> rfl
  omega

/-! ## The list of a ring -/

/-- `List.filterMap` is `List.map` where the function is defined on every item. -/
private theorem map_some_filterMap {α β : Type} (f : α → Option β) (l : List α)
    (h : ∀ a ∈ l, (f a).isSome) : (l.filterMap f).map some = l.map f := by
  induction l with
  | nil => rfl
  | cons a l ih =>
    obtain ⟨b, hb⟩ := Option.isSome_iff_exists.mp (h a List.mem_cons_self)
    rw [List.filterMap_cons_some hb, List.map_cons, List.map_cons, hb,
      ih fun x hx => h x (List.mem_cons_of_mem a hx)]

/-- `toList` at `i` is `get? i` below the size. -/
theorem getElem?_toList (h : r.WellFormed) (i : Nat) :
    r.toList[i]? = if i < r.size then r.get? i else none := by
  -- all positions below the size are occupied, so that none is skipped
  have hmap : r.toList.map some = (List.range r.size).map r.get? :=
    map_some_filterMap r.get? _ fun j hj => h.occupied j (List.mem_range.mp hj)
  have hat : r.toList[i]?.map some = ((List.range r.size).map r.get?)[i]? := by
    rw [← hmap, List.getElem?_map]
  rw [List.getElem?_map] at hat
  by_cases hi : i < r.size
  · rw [List.getElem?_range hi] at hat
    rw [if_pos hi]
    cases hget : r.toList[i]? with
    | none => simp [hget] at hat
    | some link => simpa [hget] using hat
  · rw [List.getElem?_eq_none (l := List.range r.size) (by simpa using hi)] at hat
    rw [if_neg hi]
    exact Option.map_eq_none_iff.mp hat

/-- `toList` is as long as `size` says. -/
theorem length_toList (h : r.WellFormed) : r.toList.length = r.size := by
  have hsome : ∀ j ∈ List.range r.size, (r.get? j).isSome := fun j hj =>
    h.occupied j (List.mem_range.mp hj)
  have := congrArg List.length (map_some_filterMap r.get? _ hsome)
  simpa [toList] using this

/-- `clear` empties `toList`. -/
@[simp] theorem toList_clear (r : Ring) : r.clear.toList = [] := rfl

/-- `latest?` is the last of `toList`. -/
theorem latest?_eq_getLast? (h : r.WellFormed) : r.latest? = r.toList.getLast? := by
  rw [latest?, List.getLast?_eq_getElem?, length_toList h, getElem?_toList h]
  split
  · rename_i hz
    rw [if_neg (by omega)]
  · rename_i hz
    rw [if_pos (by omega)]

/-- `dropOldest` is `List.tail` on `toList`. -/
theorem toList_dropOldest (h : r.WellFormed) (hne : 0 < r.size) :
    r.dropOldest.toList = r.toList.tail := by
  have hcap := h.size_le
  have hsize : r.dropOldest.size = r.size - 1 := rfl
  -- position by position, each shifted by one
  apply List.ext_getElem?
  intro i
  rw [getElem?_toList (wellFormed_dropOldest h hne), List.getElem?_tail, getElem?_toList h, hsize]
  by_cases hi : i + 1 < r.size
  · rw [if_pos (by omega), if_pos hi, get?_dropOldest h (by omega), if_pos (by omega)]
  · rw [if_neg (by omega), if_neg hi]

/-- `grow` appends to `toList`. -/
theorem toList_grow (h : r.WellFormed) (link : Link) (hlt : r.size < r.capacity) :
    (r.grow link).toList = r.toList ++ [link] := by
  have hsize : (r.grow link).size = r.size + 1 := rfl
  apply List.ext_getElem?
  intro i
  rw [getElem?_toList (wellFormed_grow h link hlt), hsize]
  -- a position among the old links, that of the new one, or one after it
  rcases Nat.lt_trichotomy i r.size with hi | hi | hi
  · rw [if_pos (by omega), get?_grow h link hlt (by omega), if_neg (by omega),
      List.getElem?_append_left (by rw [length_toList h]; exact hi), getElem?_toList h, if_pos hi]
  · subst hi
    rw [if_pos (by omega), get?_grow h link hlt hlt, if_pos rfl,
      List.getElem?_append_right (Nat.le_of_eq (length_toList h)), length_toList h]
    simp
  · rw [if_neg (by omega), List.getElem?_eq_none]
    rw [List.length_append, length_toList h, List.length_singleton]
    omega

/-- `append` appends to `toList`, less its head where the ring is full. -/
theorem toList_append (h : r.WellFormed) (link : Link) :
    (r.append link).toList
      = (if r.toList.length = r.capacity then r.toList.tail else r.toList) ++ [link] := by
  have hpos := Nat.zero_lt_of_lt h.start_lt
  have hle := h.size_le
  rw [append_eq, length_toList h]
  -- in a full ring the slot of the new link is the one that the oldest had
  by_cases hfull : r.size = r.capacity
  · have hsize : r.dropOldest.size = r.size - 1 := rfl
    have hcap : r.dropOldest.capacity = r.capacity := rfl
    rw [if_pos hfull, if_pos hfull,
      toList_grow (wellFormed_dropOldest h (by omega)) link (by omega),
      toList_dropOldest h (by omega)]
  · rw [if_neg hfull, if_neg hfull, toList_grow h link (by omega)]

/-- `put` at the newest position replaces the last of `toList`. -/
theorem toList_put_last (h : r.WellFormed) (link : Link) (hne : 0 < r.size) :
    (r.put (r.size - 1) link).toList = r.toList.dropLast ++ [link] := by
  have hcap := h.size_le
  have hsize : (r.put (r.size - 1) link).size = r.size := rfl
  have hlen : r.toList.dropLast.length = r.size - 1 := by
    rw [List.length_dropLast, length_toList h]
  apply List.ext_getElem?
  intro i
  rw [getElem?_toList (wellFormed_put h link (by omega)), hsize]
  -- a position before the newest link, that of the newest, or one after it
  rcases Nat.lt_trichotomy i (r.size - 1) with hi | hi | hi
  · rw [if_pos (by omega), get?_put h link (by omega) (by omega), if_neg (by omega),
      List.getElem?_append_left (by omega), List.getElem?_dropLast, length_toList h, if_pos hi,
      getElem?_toList h, if_pos (by omega)]
  · subst hi
    rw [if_pos (by omega), get?_put h link (by omega) (by omega), if_pos rfl,
      List.getElem?_append_right (by omega), hlen]
    simp
  · rw [if_neg (by omega), List.getElem?_eq_none]
    rw [List.length_append, hlen, List.length_singleton]
    omega

/-! ## Recording -/

/-- `record` preserves the capacity. -/
theorem capacity_record (r : Ring) (l2 : L2Block) (l1 : BlockId) :
    (r.record l2 l1).1.capacity = r.capacity := by
  unfold record
  split
  · exact capacity_append ..
  · split
    · exact capacity_append ..
    · rfl
    · rfl

/-- `size` is positive where `latest?` is a link. -/
theorem size_pos_of_latest? {link : Link} (h : r.latest? = some link) : 0 < r.size := by
  unfold latest? at h
  split at h
  · exact absurd h (by simp)
  · omega

/-- `record` preserves `WellFormed`. -/
theorem wellFormed_record (h : r.WellFormed) (l2 : L2Block) (l1 : BlockId) :
    (r.record l2 l1).1.WellFormed := by
  unfold record
  split
  -- the first link of all
  · exact wellFormed_append h _
  · rename_i newest hnewest
    have hpos := size_pos_of_latest? hnewest
    split
    -- an L1 block above that of the newest link
    · exact wellFormed_append h _
    · exact wellFormed_put h _ (by omega)
    · exact h

/-- `record` is `Links.record` on `toList`. -/
theorem toList_record (h : r.WellFormed) (l2 : L2Block) (l1 : BlockId) :
    (r.record l2 l1).1.toList = (Links.record r.capacity r.toList l2 l1).1 := by
  rw [Links.record_eq]
  unfold record
  rw [latest?_eq_getLast? h]
  cases hlast : r.toList.getLast? with
  -- without a newest link both append
  | none =>
    have happ : Change.of none l2 l1 = .appended := rfl
    rw [happ]
    exact toList_append h _
  | some newest =>
    have hpos := size_pos_of_latest? ((latest?_eq_getLast? h).trans hlast)
    dsimp only
    cases hchange : Change.of (some newest) l2 l1 with
    | appended => exact toList_append h _
    | updated => exact toList_put_last h _ hpos
    | unchanged => rfl

/-- `record` reports `Change.of` the newest link. -/
theorem snd_record (r : Ring) (l2 : L2Block) (l1 : BlockId) :
    (r.record l2 l1).2 = Change.of r.latest? l2 l1 := by
  unfold record
  cases r.latest? with
  | none => rfl
  | some newest =>
    dsimp only
    cases hchange : Change.of (some newest) l2 l1 <;> rfl

/-- `record` reports the change that `Links.record` reports for `toList`. -/
theorem change_record (h : r.WellFormed) (l2 : L2Block) (l1 : BlockId) :
    (r.record l2 l1).2 = (Links.record r.capacity r.toList l2 l1).2 := by
  rw [snd_record, latest?_eq_getLast? h, Links.record_eq]
  cases Change.of r.toList.getLast? l2 l1 <;> rfl

/-! ## New rings -/

/-- `ofCapacity` gives `empty n` at most, where `n` is positive and the number asked for. -/
theorem exists_empty_of_ofCapacity {capacity : Number} (h : ofCapacity capacity = .ok r) :
    ∃ n : Nat, 0 < n ∧ capacity.toInt? = some (n : Int) ∧ r = empty n := by
  unfold ofCapacity at h
  -- an integer, then a safe and positive one, then one that an array can have
  split at h
  · rename_i n hn
    split at h
    · rename_i hvalid
      split at h
      · obtain rfl := Except.ok.inj h
        refine ⟨n.toNat, by omega, ?_, rfl⟩
        rw [hn, Int.toNat_of_nonneg (by omega)]
      · exact nomatch h
    · exact nomatch h
  · exact nomatch h

/-- `ofValue` gives `empty n` at most, where the value is a number and `n` is that number. -/
theorem exists_empty_of_ofValue {capacity : Value} (h : ofValue capacity = .ok r) :
    ∃ (x : Number) (n : Nat), capacity = .number x ∧ x.toInt? = some (n : Int) ∧ 0 < n ∧
      r = empty n := by
  unfold ofValue at h
  split at h
  · rename_i x
    obtain ⟨n, hpos, hx, rfl⟩ := exists_empty_of_ofCapacity h
    exact ⟨x, n, rfl, hx, hpos, rfl⟩
  · cases htext : capacity.toText with
    -- no number: the message needs the text of the value, and either is a throw
    | error fault => rw [htext] at h; exact nomatch h
    | ok text => rw [htext] at h; exact nomatch h

end Settlement.Ring
