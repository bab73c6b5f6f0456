import Settlement.Block.Basic
import Settlement.Value.Conversion

/-!
# Replies of an L1 node

A lookup asks for the block at a height and is answered with a block or a failure. Over RPC the
height is sent as an exact integer (`Asked.height`) and the block comes back unchecked:
`Lookup.accept` takes it only if it has been mined, is the one asked for, and has the shape of
an L1 block reference. Whatever is wrong with it is said in the words of the caller
(`Asked.text`).
-/

namespace Settlement

/-- What comes back for a lookup. -/
inductive Reply where
  | block (block : Value)
  | failure (reason : Value)
  deriving Repr

/-- What a lookup asks for: a height, and the text of what stood for it. -/
structure Asked where
  text : String
  height : Int
  deriving DecidableEq, Repr

namespace Asked

/-- What a number asks for. It has to be an integer (`Number.toInt?`). -/
def ofNumber (x : Number) : Except Fault Asked :=
  match x.toInt? with
  | some height => .ok { text := x.text, height }
  | none => .error (.notAnInteger x)

/-- What a value asks for. It has to be an exact integer or to spell one (`Value.toInteger`). -/
def ofValue : Value → Except Fault Asked
  | .number x => ofNumber x
  | v => do
    let height ← v.toInteger
    return { text := ← v.toText, height }

end Asked

namespace Lookup

/-- A field that is there but `null`. -/
def isNull : Value → Bool
  | .null => true
  | _ => false

/-- The header of a block that has the number asked for, if it has the shape of one
(`Value.isHeader`). -/
def header (asked : Asked) (block : Value) : Except Fault Header :=
  match (block.field "timestamp").toNumber with
  | .error fault => .error fault
  | .ok timestamp =>
    match block.field "hash", block.field "parentHash" with
    | .text hash, .text parentHash =>
      let header : Header := { hash, number := .ofInt asked.height, parentHash, timestamp }
      if header.toValue.isHeader then .ok header else .error (.unsafeBlock asked.text)
    | _, _ => .error (.unsafeBlock asked.text)

/-- The `header` of the block that came back, if it is mined and has the number asked for; otherwise
what is wrong with it, in the words of `Asked.text`. -/
def accept (asked : Asked) (block : Value) : Except Fault Header :=
  if block.isNothing then .error (.fieldOfNothing block.kind "hash")
  else if isNull (block.field "hash") || isNull (block.field "number") then
    .error (.pendingBlock asked.text)
  else
    match block.field "number" with
    -- only an exact integer can be the number asked for
    | .integer n =>
      if n = asked.height then header asked block
      else .error (.otherBlock asked.text (toString n))
    | other =>
      match other.toText with
      | .error fault => .error fault
      | .ok returned => .error (.otherBlock asked.text returned)

/-- A reply to a number with its block checked (`accept`); a block that is not accepted becomes a
failure. -/
def verified (asked : Number) (reply : Reply) : Reply :=
  match reply with
  | .failure reason => .failure reason
  | .block block =>
    match Asked.ofNumber asked >>= (accept · block) with
    | .ok header => .block header.toValue
    | .error fault => .failure (.fault fault)

end Lookup

end Settlement
