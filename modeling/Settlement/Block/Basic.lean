import Settlement.Value.Basic

/-!
# Block references

A block is named by its hash and its height. An L1 block is known by its `Header`; an L2 block
also by the L1 block that its epoch is anchored to and by its place in that epoch.

References are compared field by field: hashes verbatim, numbers as binary64 numbers, so that a
reference with a NaN in it equals nothing, itself included. Fields beyond these ride along in
`extra`; no comparison reads them and `BlockId.bare` drops them.

A value is a reference if it has the shape of one (`Value.isHeader`, `Value.isL2Block`): a height,
a time and a place are safe integers from zero on, and a hash is any text but the empty one. Nothing
is asked of the chain.
-/

namespace Settlement

/-- The identity of a block; `extra` is carried along and compared nowhere. -/
structure BlockId where
  hash : String
  number : Number
  extra : Extra := []
  deriving Repr, Inhabited

/-- A block with its parent and its time in seconds: all that is known of an L1 block beyond its
`BlockId`. -/
structure Header extends BlockId where
  parentHash : String
  timestamp : Number
  deriving Repr, Inhabited

/-- A block of the rollup chain: a `Header`, with the L1 block that its epoch is anchored to and its
place in that epoch. -/
structure L2Block extends Header where
  /-- The L1 block that the block's epoch is anchored to. -/
  l1Origin : BlockId
  /-- The place of the block in its epoch. -/
  sequenceNumber : Number
  deriving Repr, Inhabited

/-- The hash of no block, `0x` and 64 zeros. -/
def zeroHash : String := "0x" ++ String.ofList (List.replicate 64 '0')

namespace BlockId

/-- The identity before any block is known: `zeroHash` at height `0`. -/
def zero : BlockId := { hash := zeroHash, number := 0 }

/-- The identity alone, without `extra`. -/
def bare (id : BlockId) : BlockId := { hash := id.hash, number := id.number }

/-- `BlockId.same a b`: the same height (`Number.equal`) and hash. -/
def same (a b : BlockId) : Bool := a.number.equal b.number && a.hash == b.hash

/-- Whether this is `BlockId.zero`, by `BlockId.same`. -/
def isZero (id : BlockId) : Bool := id.same zero

/-- A block in a log line or a message: its hash, a colon and its height (`Number.text`). -/
def text (id : BlockId) : String := id.hash ++ ":" ++ id.number.text

end BlockId

namespace Header

/-- The finality signal before there has been one (`Tracker.signal`). -/
def zero : Header := { BlockId.zero with parentHash := zeroHash, timestamp := 0 }

/-- `Header.same a b`: `BlockId.same`, and the same parent and time. -/
def same (a b : Header) : Bool :=
  a.toBlockId.same b.toBlockId && a.parentHash == b.parentHash && a.timestamp.equal b.timestamp

/-- Whether this is `Header.zero`, by `Header.same`: no signal was given yet. -/
def isZero (header : Header) : Bool := header.same zero

end Header

namespace L2Block

/-- The finalized head before there has been one (`Engine.head`). -/
def zero : L2Block := { Header.zero with l1Origin := .zero, sequenceNumber := 0 }

/-- `L2Block.same a b`: `Header.same`, and the same origin and place; `extra` is compared
nowhere. -/
def same (a b : L2Block) : Bool :=
  a.toHeader.same b.toHeader && a.l1Origin.same b.l1Origin
    && a.sequenceNumber.equal b.sequenceNumber

end L2Block

/-! ## References as values -/

/-- A `BlockId` as a record, its `extra` after its own fields. -/
def BlockId.toValue (id : BlockId) : Value :=
  .record (("hash", .text id.hash) :: ("number", .number id.number) :: id.extra)

/-- A `Header` as a record, its `extra` after its own fields. -/
def Header.toValue (h : Header) : Value :=
  .record (("hash", .text h.hash) :: ("number", .number h.number)
    :: ("parentHash", .text h.parentHash) :: ("timestamp", .number h.timestamp) :: h.extra)

/-- An `L2Block` as a record, its `extra` after its own fields. -/
def L2Block.toValue (b : L2Block) : Value :=
  .record (("hash", .text b.hash) :: ("number", .number b.number)
    :: ("parentHash", .text b.parentHash) :: ("timestamp", .number b.timestamp)
    :: ("l1Origin", b.l1Origin.toValue) :: ("sequenceNumber", .number b.sequenceNumber)
    :: b.extra)

/-! ## Values that are references -/

/-- A safe integer (`Number.isSafeInteger`) from zero on. -/
def Number.isBlockNumber (x : Number) : Bool := x.isSafeInteger && 0 ≤ x

namespace Value

/-- A value that can be a height, a time or a place: a number with `Number.isBlockNumber`. -/
def isBlockNumber : Value → Bool
  | .number x => x.isBlockNumber
  | _ => false

/-- A value that can be a hash: a `text`, but not the empty one. -/
def isHash : Value → Bool
  | .text s => !s.isEmpty
  | _ => false

/-- A value with a `hash` and a `number` that can be those of a block. -/
def isBlockId (v : Value) : Bool := (v.field "hash").isHash && (v.field "number").isBlockNumber

/-- A value that is an L1 block reference: `isBlockId`, with a parent hash and a time. -/
def isHeader (v : Value) : Bool :=
  v.isBlockId && (v.field "parentHash").isHash && (v.field "timestamp").isBlockNumber

/-- A value that is an L2 block reference: `isHeader`, with an origin (`isBlockId`) and a place. -/
def isL2Block (v : Value) : Bool :=
  v.isHeader && (v.field "l1Origin").isBlockId && (v.field "sequenceNumber").isBlockNumber

end Value

end Settlement
