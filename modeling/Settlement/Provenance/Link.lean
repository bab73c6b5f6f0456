import Settlement.Block.Basic

/-!
# Provenance links

A link says which L2 block was last derived from which L1 block. Recording one more derivation
changes a row of links, oldest first, in one of three ways (`Links.change`): a newer L1 block
appends a link, a different L2 block of the newest L1 block takes that link over, and the same
L2 block changes nothing. L1 numbers therefore grow along the row.

`Links.record` and `Links.clear` keep such a row as a plain list of bounded length.
-/

namespace Settlement

/-- An L2 block and the L1 block it was derived from (`Links.record`). -/
structure Link where
  /-- The last L2 block fully derived while at `l1`. -/
  l2 : L2Block
  /-- Where derivation was. Once it is final, the chain up to `l2` can be derived again from
  final L1 data alone. -/
  l1 : BlockId
  deriving Repr, Inhabited

/-- What recording a derivation did (`Change.of`). -/
inductive Change where
  | appended
  | updated
  | unchanged
  deriving DecidableEq, Repr

/-- The name of a change, as it is reported. -/
def Change.name : Change → String
  | .appended => "appended"
  | .updated => "updated"
  | .unchanged => "unchanged"

/-- What recording `l2` as derived from `l1` does after the newest link: `appended` if there is none
or its L1 number is lower, `unchanged` if it has the same L2 block (`L2Block.same`), and `updated`
otherwise. -/
def Change.of (newest : Option Link) (l2 : L2Block) (l1 : BlockId) : Change :=
  match newest with
  | none => .appended
  | some link =>
    if link.l1.number < l1.number then .appended
    -- any other block, an older one too, is taken for the newest L1 block
    else if link.l2.same l2 then .unchanged
    else .updated

namespace Links

/-- Records a derivation in a row of at most `capacity` links. Where the row is empty or its newest
L1 number is lower, a new link is appended with the hash and the number of `l1`, and a full row
loses its oldest link to it. Otherwise an L2 block other than the newest one takes its link over,
which keeps its L1 block. -/
def record (capacity : Nat) (links : List Link) (l2 : L2Block) (l1 : BlockId) :
    List Link × Change :=
  let fresh : Link := ⟨l2, { hash := l1.hash, number := l1.number }⟩
  match links.getLast? with
  | none => ([fresh], .appended)
  | some newest =>
    if newest.l1.number < l1.number then
      ((if links.length = capacity then links.tail else links) ++ [fresh], .appended)
    else if newest.l2.same l2 then (links, .unchanged)
    else (links.dropLast ++ [{ newest with l2 }], .updated)

/-- `Links.record` by the change that `Change.of` finds after the newest link. -/
theorem record_eq (capacity : Nat) (links : List Link) (l2 : L2Block) (l1 : BlockId) :
    record capacity links l2 l1 =
      match Change.of links.getLast? l2 l1 with
      | .appended =>
        ((if links.length = capacity then links.tail else links) ++ [⟨l2, l1.bare⟩], .appended)
      | .updated => (links.dropLast ++ links.getLast?.toList.map ({ · with l2 }), .updated)
      | .unchanged => (links, .unchanged) := by
  unfold record Change.of
  -- no link yet, the newest one unchanged, updated, or left behind
  cases hlast : links.getLast? with
  | none =>
    obtain rfl := List.getLast?_eq_none_iff.mp hlast
    simp [BlockId.bare]
  | some newest =>
    dsimp only
    split
    · rfl
    · split <;> rfl

end Links

end Settlement
