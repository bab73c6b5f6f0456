import Settlement.Provenance.Link
import Settlement.Value.Conversion

/-!
# Ring of links

The links of a tracker in a fixed number of slots. The oldest link is in slot `start`, and the
others follow it around the ring, so that dropping the oldest moves nothing.

* `Ring.toList`: the links, oldest first.
* `Ring.record`, `Ring.clear`: the same as on a list of bounded length.
* `Ring.WellFormed`: the slots from `start` on hold links, as many as `size` says, and all
  others are empty.
-/

namespace Settlement

/-- Links in a fixed number of slots (`Ring.WellFormed`). -/
structure Ring where
  capacity : Nat
  slots : Array (Option Link)
  /-- The slot of the oldest link. -/
  start : Nat
  /-- How many links there are. -/
  size : Nat
  deriving Repr

namespace Ring

/-- The greatest capacity of a ring; more slots cannot be had. -/
def maxCapacity : Nat := Nat.pow 2 32 - 1

/-- The ring of a capacity without links. -/
def empty (capacity : Nat) : Ring := ⟨capacity, Array.replicate capacity none, 0, 0⟩

/-- The `empty` ring of a capacity, which has to be a safe integer from one on and at most
`maxCapacity`. -/
def ofCapacity (capacity : Number) : Except Fault Ring :=
  match capacity.toInt? with
  | some n =>
    if capacity.isSafeInteger ∧ 1 ≤ n then
      if n ≤ maxCapacity then .ok (empty n.toNat) else .error .tooManySlots
    else .error (.badCapacity capacity.text)
  | none => .error (.badCapacity capacity.text)

/-- `ofCapacity` of a value of any shape. Only a number will do. -/
def ofValue (capacity : Value) : Except Fault Ring :=
  match capacity with
  | .number capacity => ofCapacity capacity
  | other => do throw (.badCapacity (← other.toText))

/-- The slot of the link at a position, position zero being the oldest, at `start`. -/
def slot (r : Ring) (position : Nat) : Nat := (r.start + position) % r.capacity

/-- The content of the `slot` of a position. -/
def get? (r : Ring) (position : Nat) : Option Link := (r.slots[r.slot position]?).join

/-- The link at an index, if the index is an integer (`Number.toInt?`) and there is such a link. -/
def at? (r : Ring) (index : Number) : Option Link :=
  match index.toInt? with
  | some n => if 0 ≤ n ∧ n < r.size then r.get? n.toNat else none
  | none => none

/-- The newest link, if there is one. -/
def latest? (r : Ring) : Option Link := if r.size = 0 then none else r.get? (r.size - 1)

/-- The links (`get?`), oldest first. -/
def toList (r : Ring) : List Link := (List.range r.size).filterMap r.get?

/-- The ring without its oldest link: its slot is emptied, and `start` moves on. -/
def dropOldest (r : Ring) : Ring :=
  { r with
    slots := r.slots.setIfInBounds r.start none
    start := (r.start + 1) % r.capacity
    size := r.size - 1 }

/-- The ring with `link` in the `slot` of a position. -/
def put (r : Ring) (position : Nat) (link : Link) : Ring :=
  { r with slots := r.slots.setIfInBounds (r.slot position) (some link) }

/-- The ring with one more link at the newest end; a full one first drops its oldest
(`dropOldest`). -/
def append (r : Ring) (link : Link) : Ring :=
  -- in a full ring the slot of the oldest link is the one after the newest
  let r := if r.size = r.capacity then r.dropOldest else r
  { r.put r.size link with size := r.size + 1 }

/-- Records that `l2` was the last block derived from `l1`, as `Change.of` the newest link says. -/
def record (r : Ring) (l2 : L2Block) (l1 : BlockId) : Ring × Change :=
  match r.latest? with
  | none => (r.append ⟨l2, l1.bare⟩, .appended)
  | some newest =>
    match Change.of (some newest) l2 l1 with
    | .appended => (r.append ⟨l2, l1.bare⟩, .appended)
    | .updated => (r.put (r.size - 1) { newest with l2 }, .updated)
    | .unchanged => (r, .unchanged)

/-- The ring without links, with the same capacity. -/
def clear (r : Ring) : Ring := empty r.capacity

/-- The slots of the links, as many as `size` says, hold them, and every other slot is empty. -/
structure WellFormed (r : Ring) : Prop where
  slots_size : r.slots.size = r.capacity
  start_lt : r.start < r.capacity
  size_le : r.size ≤ r.capacity
  occupied : ∀ i < r.size, (r.get? i).isSome
  vacant : ∀ i, r.size ≤ i → i < r.capacity → r.get? i = none

end Ring

end Settlement
