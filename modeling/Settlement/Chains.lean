import Settlement.Lookup.Reply

/-!
# The two chains

What a session has of either chain. The L1 node is what lookups go to: which block it has at each
height, whether it fails, and whether it answers at once or lets lookups wait. A lookup that waits
is answered from what the node knows when it is released (`Node.release?`). Lookups are released in
any order: by their tickets, or one after the other, beginning with the one that has waited longest.

The execution engine holds the finalized head of the rollup chain and every head committed to it so
far, oldest first. It takes what it is given: that heads only move forward is up to its callers.
-/

namespace Settlement

/-! ## L1 node -/

/-- A node that fails every lookup, with `reason`. -/
structure Outage where
  reason : Value
  /-- Fails at once, even if lookups are made to wait. -/
  immediate : Bool
  deriving Repr

/-- A lookup that waits at the node (`Node.hold`). -/
structure Held where
  /-- Which lookup of the run this is. -/
  ticket : Nat
  height : Number
  deriving Repr

/-- The L1 node, as far as lookups can tell: which block it has at each height, whether it fails,
whether it lets lookups wait, and which of them wait. -/
structure Node where
  blocks : List (Number × Value) := []
  outage? : Option Outage := none
  holding : Bool := false
  held : List Held := []
  deriving Repr

namespace Node

/-- The node without the block at a height (`Number.sameKey`). -/
def dropBlock (n : Node) (height : Number) : Node :=
  { n with blocks := n.blocks.filter fun entry => !entry.1.sameKey height }

/-- The node with `block` at a height, in the place of any other. -/
def setBlock (n : Node) (height : Number) (block : Value) : Node :=
  { n.dropBlock height with blocks := (height, block) :: (n.dropBlock height).blocks }

/-- The reply to a lookup: the reason of the `Outage`, or the block at the height, or
`Fault.noBlock`. -/
def answer (n : Node) (height : Number) : Reply :=
  match n.outage? with
  | some outage => .failure outage.reason
  | none =>
    match n.blocks.find? fun entry => entry.1.sameKey height with
    | some entry => .block entry.2
    | none => .failure (.fault (.noBlock height))

/-- `Node.answer` to a lookup that does not have to wait. -/
def immediate? (n : Node) (height : Number) : Option Reply :=
  if n.holding ∧ ¬(n.outage?.any (·.immediate)) then none else some (n.answer height)

/-- The node with one more lookup that waits, under `ticket`. -/
def hold (n : Node) (ticket : Nat) (height : Number) : Node :=
  { n with held := n.held ++ [⟨ticket, height⟩] }

/-- The lookup that waits under a ticket, or without a ticket the one that has waited longest. -/
def next? (n : Node) : Option Nat → Option Held
  | none => n.held.head?
  | some ticket => n.held.find? (·.ticket == ticket)

/-- The node without the lookup that waits under `ticket`. -/
def forget (n : Node) (ticket : Nat) : Node :=
  { n with held := n.held.eraseP (·.ticket == ticket) }

/-- The reply to a lookup that is released: `Node.answer`, or the given reason for its failure. -/
def answerOr (n : Node) (reason? : Option Value) (height : Number) : Reply :=
  match reason? with
  | some reason => .failure reason
  | none => n.answer height

/-- Answers the lookup of `Node.next?` (`Node.answerOr`) and forgets it (`Node.forget`). -/
def release? (n : Node) (reason? : Option Value) (ticket? : Option Nat := none) :
    Option (Held × Reply × Node) :=
  (n.next? ticket?).map fun held => (held, n.answerOr reason? held.height, n.forget held.ticket)

/-- `Node.next?` is one of the lookups that wait. -/
theorem mem_of_next? {n : Node} {ticket? : Option Nat} {held : Held}
    (h : n.next? ticket? = some held) : held ∈ n.held := by
  cases ticket? with
  | none => exact List.mem_of_head? h
  | some ticket => exact List.mem_of_find?_eq_some h

/-- `Node.forget` lets no lookup wait that did not wait before. -/
theorem held_forget_subset (n : Node) (ticket : Nat) : (n.forget ticket).held ⊆ n.held :=
  List.eraseP_subset

end Node

/-! ## Execution engine -/

/-- The finalized head, and all heads committed (`Engine.commit`). -/
structure Engine where
  head : L2Block := .zero
  history : List L2Block := []
  deriving Repr, Inhabited

namespace Engine

/-- The engine after `block` was committed to it. Whether that is above the head is not asked. -/
def commit (e : Engine) (block : L2Block) : Engine :=
  { head := block, history := e.history ++ [block] }

/-- `Engine.commit` makes its block the head. -/
@[simp] theorem head_commit (e : Engine) (block : L2Block) : (e.commit block).head = block := rfl

/-- `Engine.commit` adds its block at the end of the history. -/
@[simp] theorem history_commit (e : Engine) (block : L2Block) :
    (e.commit block).history = e.history ++ [block] := rfl

end Engine

end Settlement
