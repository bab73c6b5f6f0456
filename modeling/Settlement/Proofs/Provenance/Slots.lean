import Settlement.Proofs.Provenance.Rows

/-!
# The slots of a ring

Every edit of a ring touches its slots, its start and its size one after the other
(`Ring.touches`), and in between the ring need not be well-formed: in a full ring the oldest link
is gone before the start has moved on. The slots are a row that grows when something is written
beyond its end (`Ring.store`). No touch ever goes there. So the slots stay as many as the capacity
says, and after every edit those from the start on hold the links while all others are empty, those
of lost and of cleared links among them.

## Key results

- `within_touches`: every slot that an edit computes is one of the ring
- `bounded_touchAll`: touches within the ring add no slot
- `touchAll_touches`: touched one by one, a ring becomes the edited one
- `ring_keeps_slots`: the slots of a ring, whatever was done to it
-/

namespace Settlement

namespace Ring

/-! ## Touches -/

/-- One access to a part of a ring: to a slot, to `start` or to `size`. -/
inductive Touch where
  /-- The content of a slot is read. -/
  | read (slot : Nat)
  /-- A slot gets a content, or is emptied. -/
  | write (slot : Nat) (content : Option Link)
  | moveStart (slot : Nat)
  | setSize (size : Nat)
  deriving Repr

/-- The slot of a `Touch` is below the capacity, and a size is at most that. -/
def Touch.Within (capacity : Nat) : Touch → Prop
  | .read slot | .write slot _ | .moveStart slot => slot < capacity
  | .setSize size => size ≤ capacity

/-- Writes `slot`. Beyond the end the array grows as far as it has to, and no further. -/
def store (slots : Array (Option Link)) (slot : Nat) (content : Option Link) :
    Array (Option Link) :=
  (slots ++ Array.replicate (slot + 1 - slots.size) none).setIfInBounds slot content

/-- The ring after one `Touch`. -/
def touch (r : Ring) : Touch → Ring
  | .read _ => r
  | .write slot content => { r with slots := store r.slots slot content }
  | .moveStart slot => { r with start := slot }
  | .setSize size => { r with size := size }

/-- The ring after several touches, in order. -/
def touchAll (r : Ring) (touches : List Touch) : Ring := touches.foldl touch r

/-- The touches of `latest?`. -/
def latestTouches (r : Ring) : List Touch :=
  if r.size = 0 then [] else [.read (r.slot (r.size - 1))]

/-- The touches of `dropOldest`. -/
def dropTouches (r : Ring) : List Touch :=
  [.write r.start none, .moveStart ((r.start + 1) % r.capacity), .setSize (r.size - 1)]

/-- The touches of `grow`. -/
def growTouches (r : Ring) (link : Link) : List Touch :=
  [.write (r.slot r.size) (some link), .setSize (r.size + 1)]

/-- The touches of `append`. -/
def appendTouches (r : Ring) (link : Link) : List Touch :=
  if r.size = r.capacity then
    -- the slot of the new link is computed when the start has moved on
    r.dropTouches ++ (r.touchAll r.dropTouches).growTouches link
  else r.growTouches link

/-- The writes of `clear`, slot by slot. -/
def emptyTouches (r : Ring) : List Touch := (List.range r.slots.size).map (.write · none)

/-- The touches of `edit`, in order. -/
def touches (r : Ring) : Edit → List Touch
  | .record l2 l1 =>
    r.latestTouches ++
      match r.latest? with
      | none => r.appendTouches ⟨l2, l1.bare⟩
      | some newest =>
        match Change.of (some newest) l2 l1 with
        | .appended => r.appendTouches ⟨l2, l1.bare⟩
        | .updated => [.write (r.slot (r.size - 1)) (some { newest with l2 })]
        | .unchanged => []
  | .clear => r.emptyTouches ++ [.moveStart 0, .setSize 0]

variable {r : Ring} {t : Touch} {ts : List Touch} {link : Link} {n : Nat}

/-! ## Bounds -/

/-- There are as many slots as the capacity says, and start and size are within them. -/
structure Bounded (r : Ring) : Prop where
  slots_size : r.slots.size = r.capacity
  start_lt : r.start < r.capacity
  size_le : r.size ≤ r.capacity

/-- `WellFormed` implies `Bounded`. -/
theorem WellFormed.bounded (h : r.WellFormed) : r.Bounded :=
  ⟨h.slots_size, h.start_lt, h.size_le⟩

/-- `slot` is a slot of a `Bounded` ring for every position. -/
theorem Bounded.slot_lt (h : r.Bounded) (i : Nat) : r.slot i < r.slots.size := by
  rw [h.slots_size]
  exact Ring.slot_lt h.start_lt i

/-- `store` is `Array.setIfInBounds` for a slot that is there. -/
theorem store_of_lt {slots : Array (Option Link)} {slot : Nat} (h : slot < slots.size)
    (content : Option Link) : store slots slot content = slots.setIfInBounds slot content := by
  have hnone : slot + 1 - slots.size = 0 := by omega
  simp [store, hnone]

/-- `touch` preserves the capacity. -/
@[simp] theorem capacity_touch (r : Ring) (t : Touch) : (r.touch t).capacity = r.capacity := by
  cases t <;> rfl

/-- `touch` preserves `Bounded` if it is `Within` the capacity. -/
theorem bounded_touch (h : r.Bounded) (ht : t.Within r.capacity) : (r.touch t).Bounded := by
  cases t with
  | read slot => exact h
  -- the only touch that could make the array of slots longer
  | write slot content =>
    have hslot : slot < r.slots.size := h.slots_size ▸ ht
    refine ⟨?_, h.start_lt, h.size_le⟩
    simp only [touch, store_of_lt hslot, Array.size_setIfInBounds]
    exact h.slots_size
  | moveStart slot => exact ⟨h.slots_size, ht, h.size_le⟩
  | setSize size => exact ⟨h.slots_size, h.start_lt, ht⟩

/-- `touchAll` preserves `Bounded` and the capacity if every touch is `Within` it. -/
theorem bounded_touchAll (h : r.Bounded) (hts : ∀ t ∈ ts, t.Within r.capacity) :
    (r.touchAll ts).Bounded ∧ (r.touchAll ts).capacity = r.capacity := by
  -- over the touches, each within the capacity that the ones before it keep
  induction ts generalizing r with
  | nil => exact ⟨h, rfl⟩
  | cons t ts ih =>
    have hfirst := bounded_touch h (hts t List.mem_cons_self)
    have hrest : ∀ u ∈ ts, u.Within (r.touch t).capacity := by
      intro u hu
      rw [capacity_touch]
      exact hts u (List.mem_cons_of_mem t hu)
    obtain ⟨hbounded, hcapacity⟩ := ih hfirst hrest
    exact ⟨hbounded, hcapacity.trans (capacity_touch r t)⟩

theorem touchAll_append (r : Ring) (ts us : List Touch) :
    r.touchAll (ts ++ us) = (r.touchAll ts).touchAll us := List.foldl_append

/-! ## Appending and overwriting -/

/-- A write to `slot i` is `put i`. -/
theorem touch_write_slot (h : r.Bounded) (i : Nat) (link : Link) :
    r.touch (.write (r.slot i) (some link)) = r.put i link := by
  simp only [touch, put, store_of_lt (h.slot_lt i)]

/-- `growTouches` do what `grow` does. -/
theorem touchAll_growTouches (h : r.Bounded) (link : Link) :
    r.touchAll (r.growTouches link) = r.grow link := by
  have hwrite := touch_write_slot h r.size link
  simp only [touchAll, growTouches, List.foldl_cons, List.foldl_nil, hwrite]
  rfl

/-- `dropTouches` do what `dropOldest` does. -/
theorem touchAll_dropTouches (h : r.Bounded) : r.touchAll r.dropTouches = r.dropOldest := by
  have hstart : r.start < r.slots.size := by
    have := h.slots_size
    have := h.start_lt
    omega
  simp [touchAll, dropTouches, touch, dropOldest, store_of_lt hstart]

/-- `dropTouches` stay `Within` the capacity. -/
theorem within_dropTouches (h : r.Bounded) : ∀ t ∈ r.dropTouches, t.Within r.capacity := by
  have hstart := h.start_lt
  have hsize := h.size_le
  have hnext : (r.start + 1) % r.capacity < r.capacity := Nat.mod_lt _ (by omega)
  simp only [dropTouches, List.mem_cons, List.not_mem_nil, or_false]
  -- the slot, the start and the size
  rintro t (rfl | rfl | rfl)
  · exact hstart
  · exact hnext
  · show r.size - 1 ≤ r.capacity
    omega

/-- `growTouches` stay `Within` the capacity if the ring is not full. -/
theorem within_growTouches (h : r.Bounded) (hlt : r.size < r.capacity) (link : Link) :
    ∀ t ∈ r.growTouches link, t.Within r.capacity := by
  simp only [growTouches, List.mem_cons, List.not_mem_nil, or_false]
  rintro t (rfl | rfl)
  · exact slot_lt h.start_lt r.size
  · exact hlt

/-- `dropOldest` makes room in a full ring. -/
private theorem dropOldest_room (h : r.WellFormed) (hfull : r.size = r.capacity) :
    r.dropOldest.WellFormed ∧ r.dropOldest.size < r.dropOldest.capacity := by
  have hpos := h.start_lt
  refine ⟨wellFormed_dropOldest h (by omega), ?_⟩
  show r.size - 1 < r.capacity
  omega

/-- `appendTouches` do what `append` does. -/
theorem touchAll_appendTouches (h : r.WellFormed) (link : Link) :
    r.touchAll (r.appendTouches link) = r.append link := by
  rw [append_eq, appendTouches]
  -- a full ring is touched by `dropTouches` first, and then it has room
  by_cases hfull : r.size = r.capacity
  · obtain ⟨hdropped, -⟩ := dropOldest_room h hfull
    rw [if_pos hfull, if_pos hfull, touchAll_append, touchAll_dropTouches h.bounded]
    exact touchAll_growTouches hdropped.bounded link
  · rw [if_neg hfull, if_neg hfull]
    exact touchAll_growTouches h.bounded link

/-- `appendTouches` stay `Within` the capacity. -/
theorem within_appendTouches (h : r.WellFormed) (link : Link) :
    ∀ t ∈ r.appendTouches link, t.Within r.capacity := by
  intro t ht
  unfold appendTouches at ht
  -- a full ring makes room first
  by_cases hfull : r.size = r.capacity
  · obtain ⟨hdropped, hroom⟩ := dropOldest_room h hfull
    rw [if_pos hfull, touchAll_dropTouches h.bounded, List.mem_append] at ht
    rcases ht with ht | ht
    · exact within_dropTouches h.bounded t ht
    · exact within_growTouches hdropped.bounded hroom link t ht
  · have hle := h.size_le
    rw [if_neg hfull] at ht
    exact within_growTouches h.bounded (by omega) link t ht

/-! ## Clearing -/

/-- Writing `none` to the given slots empties these and no others. -/
private theorem getElem?_touchAll_empty (slots : List Nat) (h : ∀ i ∈ slots, i < r.slots.size)
    (j : Nat) :
    (r.touchAll (slots.map (.write · none))).slots[j]?
      = if j ∈ slots then some none else r.slots[j]? := by
  -- the slots are any, since in the middle of it some have been emptied already
  induction slots generalizing r with
  | nil => simp [touchAll]
  | cons i slots ih =>
    have hi : i < r.slots.size := h i List.mem_cons_self
    have hsize : (r.touch (.write i none)).slots.size = r.slots.size := by
      simp [touch, store_of_lt hi]
    have hrest : ∀ k ∈ slots, k < (r.touch (.write i none)).slots.size := by
      intro k hk
      rw [hsize]
      exact h k (List.mem_cons_of_mem i hk)
    have hstep : r.touchAll ((i :: slots).map (.write · none))
        = (r.touch (.write i none)).touchAll (slots.map (.write · none)) := rfl
    rw [hstep, ih hrest]
    simp only [touch, store_of_lt hi, Array.getElem?_setIfInBounds, List.mem_cons]
    by_cases hj : j ∈ slots
    · simp [hj]
    · by_cases hij : i = j
      · subst hij
        simp [hi]
      · simp [hj, hij, Ne.symm hij]

/-- `emptyTouches` stay `Within` the capacity. -/
theorem within_emptyTouches (h : r.Bounded) : ∀ t ∈ r.emptyTouches, t.Within r.capacity := by
  intro t ht
  obtain ⟨i, hi, rfl⟩ := List.mem_map.mp ht
  have hlt := List.mem_range.mp hi
  rw [h.slots_size] at hlt
  exact hlt

/-- The touches of `clear` leave every slot as `empty` has it. -/
theorem touchAll_clear (h : r.Bounded) : r.touchAll (r.touches .clear) = r.clear := by
  have hcapacity := (bounded_touchAll h (within_emptyTouches h)).2
  -- every slot is in `List.range`, so each of them is empty by now
  have hslots : (r.touchAll r.emptyTouches).slots = Array.replicate r.capacity none := by
    apply Array.ext_getElem?
    intro j
    rw [emptyTouches, getElem?_touchAll_empty _ (fun i hi => List.mem_range.mp hi),
      Array.getElem?_replicate, ← h.slots_size]
    by_cases hj : j < r.slots.size
    · simp [hj]
    · simp [hj]
  have hlast : r.touchAll (r.touches .clear)
      = ⟨(r.touchAll r.emptyTouches).capacity, (r.touchAll r.emptyTouches).slots, 0, 0⟩ := by
    rw [touches, touchAll_append]
    rfl
  rw [hlast, hslots, hcapacity]
  rfl

/-! ## Editing -/

/-- `touches` stay `Within` the capacity for every edit. -/
theorem within_touches (h : r.WellFormed) (e : Edit) : ∀ t ∈ r.touches e, t.Within r.capacity := by
  have hnewest : r.slot (r.size - 1) < r.capacity := slot_lt h.start_lt _
  cases e with
  | record l2 l1 =>
    intro t ht
    rcases List.mem_append.mp ht with ht | ht
    · -- the newest link is looked at first, if there is one
      unfold latestTouches at ht
      split at ht
      · exact absurd ht List.not_mem_nil
      · rw [List.mem_singleton.mp ht]
        exact hnewest
    · split at ht
      · exact within_appendTouches h _ t ht
      · split at ht
        · exact within_appendTouches h _ t ht
        · rw [List.mem_singleton.mp ht]
          exact hnewest
        · exact absurd ht List.not_mem_nil
  | clear =>
    intro t ht
    rcases List.mem_append.mp ht with ht | ht
    · exact within_emptyTouches h.bounded t ht
    · simp only [List.mem_cons, List.not_mem_nil, or_false] at ht
      rcases ht with rfl | rfl
      · exact Nat.zero_lt_of_lt h.start_lt
      · exact Nat.zero_le _

/-- `latestTouches` change nothing. -/
@[simp] theorem touchAll_latestTouches (r : Ring) : r.touchAll r.latestTouches = r := by
  unfold latestTouches
  split <;> rfl

/-- `touches` do what `edit` does. -/
theorem touchAll_touches (h : r.WellFormed) (e : Edit) :
    r.touchAll (r.touches e) = (r.edit e).1 := by
  cases e with
  | record l2 l1 =>
    show _ = (r.record l2 l1).1
    rw [touches, touchAll_append, touchAll_latestTouches, record]
    -- an empty ring takes the link; otherwise its newest link decides
    cases hlatest : r.latest? with
    | none => exact touchAll_appendTouches h _
    | some newest =>
      dsimp only
      cases hchange : Change.of (some newest) l2 l1 with
      | appended => exact touchAll_appendTouches h _
      | updated => exact touch_write_slot h.bounded _ _
      | unchanged => rfl
  | clear => exact touchAll_clear h.bounded

/-- `editAll` preserves the capacity. -/
theorem capacity_editAll (r : Ring) (edits : List Edit) :
    (r.editAll edits).1.capacity = r.capacity := by
  induction edits generalizing r with
  | nil => rfl
  | cons e edits ih =>
    have hedit : (r.edit e).1.capacity = r.capacity := by
      cases e with
      | record l2 l1 => exact capacity_record r l2 l1
      | clear => rfl
    exact (ih (r.edit e).1).trans hedit

/-! ## The slots -/

/-- `slot` is onto the slots below the capacity. -/
theorem exists_slot_eq (h : r.Bounded) (hn : n < r.capacity) : ∃ i < r.capacity, r.slot i = n := by
  have hstart := h.start_lt
  by_cases hafter : r.start ≤ n
  · refine ⟨n - r.start, by omega, ?_⟩
    rw [slot_eq hstart (by omega), if_pos (by omega)]
    omega
  · -- the positions of the slots before the start come after those of all others
    refine ⟨n + r.capacity - r.start, by omega, ?_⟩
    rw [slot_eq hstart (by omega), if_neg (by omega)]
    omega

/-- The slot of a position below the size holds the link that `get?` reads. -/
theorem exists_link_of_lt (h : r.WellFormed) (hn : n < r.size) :
    ∃ link, r.slots[(r.start + n) % r.capacity]? = some (some link) ∧ r.get? n = some link := by
  obtain ⟨link, hlink⟩ := Option.isSome_iff_exists.mp (h.occupied n hn)
  have hslot : r.slots[r.slot n]?.join = some link := hlink
  exact ⟨link, Option.join_eq_some_iff.mp hslot, hlink⟩

/-- A slot of no position below the size is empty. -/
theorem getElem?_slots_of_vacant (h : r.WellFormed) (hn : n < r.capacity)
    (hother : ∀ i < r.size, r.slot i ≠ n) : r.slots[n]? = some none := by
  obtain ⟨i, hi, rfl⟩ := exists_slot_eq h.bounded hn
  have hpast : r.size ≤ i := Nat.le_of_not_lt fun hlt => hother i hlt rfl
  have hin : r.slot i < r.slots.size := h.slots_size ▸ hn
  have hempty : r.slots[r.slot i]?.join = none := h.vacant i hpast hi
  rw [Array.getElem?_eq_getElem hin] at hempty ⊢
  exact congrArg some hempty

/-- The slots of a ring after an edit: which hold a link, which are empty, and what `at?`,
`Cursor.next` and `toList` read of them. -/
structure KeepsSlots (r : Ring) : Prop where
  start_lt : r.start < r.capacity
  size_le : r.size ≤ r.capacity
  slots_size : r.slots.size = r.capacity
  /-- From the start on there is one link in each slot, as many as the size says. -/
  held : ∀ i < r.size, ∃ link, r.slots[(r.start + i) % r.capacity]? = some (some link)
  /-- No other slot holds anything. -/
  vacant : ∀ slot < r.capacity, (∀ i < r.size, (r.start + i) % r.capacity ≠ slot) →
    r.slots[slot]? = some none
  /-- There is a link at every index that is a position. -/
  at_held : ∀ (index : Number) (n : Nat), index.toInt? = some (n : Int) → n < r.size →
    ∃ link, r.slots[(r.start + n) % r.capacity]? = some (some link) ∧ r.at? index = some link
  /-- A walk that has reached a position, whenever it was begun, gives the link there. -/
  next_held : ∀ position < r.size, ∃ link,
    r.slots[(r.start + position) % r.capacity]? = some (some link) ∧
    Cursor.next r (.walking position) = (some link, .walking (position + 1))
  /-- So no slot is passed over when all links are read. -/
  none_skipped : r.toList.map some = (List.range r.size).map r.get?

/-- Every touch of an edit stays within the capacity, and the ring is `Bounded` after each of
them. -/
structure StaysWithin (r : Ring) (e : Edit) : Prop where
  within : ∀ t ∈ r.touches e, t.Within r.capacity
  bounded : ∀ done rest, r.touches e = done ++ rest →
    (r.touchAll done).Bounded ∧ (r.touchAll done).capacity = r.capacity
  touchAll_eq : r.touchAll (r.touches e) = (r.edit e).1

/-- `WellFormed` implies `KeepsSlots`. -/
theorem keepsSlots_of_wellFormed (h : r.WellFormed) : r.KeepsSlots where
  start_lt := h.start_lt
  size_le := h.size_le
  slots_size := h.slots_size
  -- every position below the size has a link
  held i hi := by
    obtain ⟨link, hlink, -⟩ := exists_link_of_lt h hi
    exact ⟨link, hlink⟩
  vacant slot hslot hother := getElem?_slots_of_vacant h hslot hother
  at_held index n hindex hn := by
    obtain ⟨link, hlink, hget⟩ := exists_link_of_lt h hn
    refine ⟨link, hlink, ?_⟩
    rw [at?, hindex]
    simp [hn, hget]
  next_held position hposition := by
    obtain ⟨link, hlink, hget⟩ := exists_link_of_lt h hposition
    refine ⟨link, hlink, ?_⟩
    rw [Cursor.next, if_pos hposition, hget]
  -- position by position, within the size and beyond it
  none_skipped := by
    apply List.ext_getElem?
    intro i
    rw [List.getElem?_map, List.getElem?_map, getElem?_toList h]
    by_cases hi : i < r.size
    · obtain ⟨link, -, hget⟩ := exists_link_of_lt h hi
      simp [hi, hget]
    · simp [hi]

/-- `WellFormed` implies `StaysWithin` for every edit. -/
theorem staysWithin_of_wellFormed (h : r.WellFormed) (e : Edit) : r.StaysWithin e where
  within := within_touches h e
  -- also after the first touches of an edit
  bounded done rest hsplit := by
    apply bounded_touchAll h.bounded
    intro t ht
    apply within_touches h e
    rw [hsplit]
    exact List.mem_append_left rest ht
  touchAll_eq := touchAll_touches h e

/-- `editAll` on a new ring leaves one that `KeepsSlots` and `StaysWithin` its capacity at any
further edit; the capacity remains the number that the ring was made with. -/
theorem ring_keeps_slots {capacity : Value} (h : ofValue capacity = .ok r) (edits : List Edit) :
    capacity = .number (.whole r.capacity) ∧ (r.editAll edits).1.capacity = r.capacity ∧
    (r.editAll edits).1.KeepsSlots ∧ ∀ e, (r.editAll edits).1.StaysWithin e := by
  obtain ⟨x, n, rfl, hx, hpos, rfl⟩ := exists_empty_of_ofValue h
  -- minus zero also converts to an integer, but not to a positive one
  have hwhole : x = .whole n := by
    rcases Number.toInt?_eq_some_iff.mp hx with rfl | ⟨rfl, hzero⟩
    · rfl
    · omega
  obtain ⟨hwf, -⟩ := editAll_eq (wellFormed_empty hpos) edits
  exact ⟨congrArg Value.number hwhole, capacity_editAll _ edits, keepsSlots_of_wellFormed hwf,
    staysWithin_of_wellFormed hwf⟩

/-- Three derivations over a single slot. The second one evicts the first, and the third takes the
link over. -/
def cramped : List Edit := [derivedAt 1 10, derivedAt 2 11, derivedAt 3 11]

/-- `cramped` meets the premise of `ring_keeps_slots`. One more L1 block empties the only slot,
moves the start around to it and fills it again. -/
theorem cramped_keeps_slots :
    ofValue (.number 1) = .ok (empty 1) ∧
    ((empty 1).editAll cramped).1.touches (derivedAt 4 12)
      = [.read 0, .write 0 none, .moveStart 0, .setSize 0,
        .write 0 (some ⟨{ L2Block.zero with number := 4 }, { BlockId.zero with number := 12 }⟩),
        .setSize 1] ∧
    ((empty 1).editAll cramped).1.KeepsSlots ∧
    ((empty 1).editAll cramped).1.StaysWithin (derivedAt 4 12) ∧
    ((empty 1).editAll cramped).1.StaysWithin .clear := by
  have hring : ofValue (.number 1) = .ok (empty 1) := by rfl
  obtain ⟨-, -, hkeeps, hwithin⟩ := ring_keeps_slots hring cramped
  exact ⟨hring, by rfl, hkeeps, hwithin _, hwithin _⟩

end Ring

end Settlement
