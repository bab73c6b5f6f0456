import Settlement.Block.Basic
import Settlement.Value.Conversion

/-!
# Unchecked references

References as they come, before anything is known of them. A field that is missing counts as
one that was not given, and two fields are the same if they are scalars of one kind and equal.
Only to look into nothing at all is a fault.

On values that are references this is the comparison of references
(`Value.sameIdentity_toValue`, `Value.sameHeader_toValue`, `Value.sameL2Block_toValue`).
-/

namespace Settlement.Value

/-- Whether two values that were made apart are the same scalar. Lists, records and faults never
are, and `nan` is not itself. -/
def identical : Value → Value → Bool
  | .undefined, .undefined | .null, .null => true
  | .bool a, .bool b => a == b
  | .number a, .number b => a.equal b
  | .integer a, .integer b => a == b
  | .text a, .text b => a == b
  | _, _ => false

/-- A field that is read of a value; to read one of nothing (`isNothing`) is a fault. -/
def member (v : Value) (name : String) : Except Fault Value :=
  if v.isNothing then .error (.fieldOfNothing v.kind name) else .ok (v.field name)

/-- Whether two values have the same field (`member`), by `identical`. -/
def sameMember (a b : Value) (name : String) : Except Fault Bool := do
  return (← a.member name).identical (← b.member name)

/-- The second comparison if the first one holds; otherwise it is not made, so that it raises
nothing. -/
def bothSame (first second : Except Fault Bool) : Except Fault Bool := do
  if ← first then second else return false

/-- The same `number` and `hash`, read off values. -/
def sameIdentity (a b : Value) : Except Fault Bool :=
  bothSame (a.sameMember b "number") (a.sameMember b "hash")

/-- `sameIdentity`, and the same parent and time. -/
def sameHeader (a b : Value) : Except Fault Bool :=
  bothSame (a.sameIdentity b)
    (bothSame (a.sameMember b "parentHash") (a.sameMember b "timestamp"))

/-- `sameHeader`, and the same origin and place. -/
def sameL2Block (a b : Value) : Except Fault Bool :=
  bothSame (a.sameHeader b)
    (bothSame ((a.field "l1Origin").sameIdentity (b.field "l1Origin"))
      (a.sameMember b "sequenceNumber"))

/-- The `hash` and the `number` of a value, and nothing else, as `BlockId.bare`. -/
def identity (v : Value) : Except Fault Value := do
  return .record [("hash", ← v.member "hash"), ("number", ← v.member "number")]

/-- The identity of a value, written like `BlockId.text`. -/
def identityText (v : Value) : Except Fault String :=
  match (v.field "hash").toText, (v.field "number").toText with
  | .ok name, .ok place => .ok (name ++ ":" ++ place)
  | .error f, _ | _, .error f => .error f

/-! ## Values that are references -/

/-- `bothSame` is the conjunction where neither comparison raises anything. -/
theorem bothSame_ok (a b : Bool) : bothSame (.ok a) (.ok b) = .ok (a && b) := by
  cases a <;> rfl

/-- `sameIdentity` on references is `BlockId.same`. -/
theorem sameIdentity_toValue (a b : BlockId) :
    a.toValue.sameIdentity b.toValue = .ok (a.same b) := bothSame_ok _ _

/-- `sameHeader` on references is `Header.same`. -/
theorem sameHeader_toValue (a b : Header) :
    a.toValue.sameHeader b.toValue = .ok (a.same b) := by
  have id : a.toValue.sameIdentity b.toValue = .ok (a.toBlockId.same b.toBlockId) :=
    bothSame_ok _ _
  have others : bothSame (a.toValue.sameMember b.toValue "parentHash")
      (a.toValue.sameMember b.toValue "timestamp")
        = .ok (a.parentHash == b.parentHash && a.timestamp.equal b.timestamp) := bothSame_ok _ _
  rw [sameHeader, id, others, bothSame_ok, Header.same, Bool.and_assoc]

/-- `sameL2Block` on references is `L2Block.same`. -/
theorem sameL2Block_toValue (a b : L2Block) :
    a.toValue.sameL2Block b.toValue = .ok (a.same b) := by
  have header : a.toValue.sameHeader b.toValue = .ok (a.toHeader.same b.toHeader) :=
    sameHeader_toValue a.toHeader b.toHeader
  have origin : (a.toValue.field "l1Origin").sameIdentity (b.toValue.field "l1Origin")
      = .ok (a.l1Origin.same b.l1Origin) := sameIdentity_toValue a.l1Origin b.l1Origin
  have place : a.toValue.sameMember b.toValue "sequenceNumber"
      = .ok (a.sequenceNumber.equal b.sequenceNumber) := rfl
  rw [sameL2Block, header, origin, place, bothSame_ok, bothSame_ok, L2Block.same, Bool.and_assoc]

/-- `identityText` on references is `BlockId.text`. -/
theorem identityText_toValue (id : BlockId) : id.toValue.identityText = .ok id.text := rfl

end Settlement.Value
