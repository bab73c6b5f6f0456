import Settlement.Provenance.Ring

/-!
# Cursors and edits

The links of a ring are edited: a derivation is recorded, or all links are cleared (`Ring.editAll`).
A row of bounded length is edited in the same way (`Links.editAll`).

A cursor walks over the links of a ring while the ring goes on changing. It holds a position and
nothing else: each step looks at the ring as it is then, gives the link at the position and
moves on (`Cursor.next`). Where there is no link the walk ends, for good.
-/

namespace Settlement

/-! ## Edits -/

/-- What can be done to links (`Ring.edit`, `Links.edit`). -/
inductive Edit where
  | record (l2 : L2Block) (l1 : BlockId)
  | clear
  deriving Repr

namespace Links

/-- Edits a row by `Links.record`, or empties it. Recording reports its change. -/
def edit (capacity : Nat) (links : List Link) : Edit → List Link × Option Change
  | .record l2 l1 =>
    let (links, change) := record capacity links l2 l1
    (links, some change)
  | .clear => ([], none)

/-- Edits a row several times (`Links.edit`). -/
def editAll (capacity : Nat) (links : List Link) : List Edit → List Link × List (Option Change)
  | [] => (links, [])
  | e :: edits =>
    let (links, change?) := edit capacity links e
    let (links, changes) := editAll capacity links edits
    (links, change? :: changes)

end Links

namespace Ring

/-- Edits a ring by `Ring.record` or `Ring.clear`. Recording reports its change. -/
def edit (r : Ring) : Edit → Ring × Option Change
  | .record l2 l1 =>
    let (r, change) := r.record l2 l1
    (r, some change)
  | .clear => (r.clear, none)

/-- Edits a ring several times (`Ring.edit`). -/
def editAll (r : Ring) : List Edit → Ring × List (Option Change)
  | [] => (r, [])
  | e :: edits =>
    let (r, change?) := r.edit e
    let (r, changes) := r.editAll edits
    (r, change? :: changes)

end Ring

/-! ## Cursors -/

/-- A walk over the links of a ring (`Cursor.next`). -/
inductive Cursor where
  | walking (position : Nat)
  | ended
  deriving DecidableEq, Repr

namespace Cursor

/-- The walk that begins at the oldest link, whichever that is at its first step. -/
def first : Cursor := .walking 0

/-- The link at the position (`Ring.get?`), and the walk from the next one on. Past the newest link
the walk has `ended`. -/
def next (ring : Ring) : Cursor → Option Link × Cursor
  | .ended => (none, .ended)
  | .walking position =>
    if position < ring.size then (ring.get? position, .walking (position + 1))
    else (none, .ended)

/-- `Cursor.next` gives nothing once a walk has `ended`, whatever the ring. -/
@[simp] theorem next_ended (ring : Ring) : next ring .ended = (none, .ended) := rfl

/-- The links that `n` steps of a walk give (`Cursor.next`), the ring staying as it is. -/
def steps (ring : Ring) : Nat → Cursor → List (Option Link)
  | 0, _ => []
  | n + 1, c => (c.next ring).1 :: steps ring n (c.next ring).2

end Cursor

end Settlement
