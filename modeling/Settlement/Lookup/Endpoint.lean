import Settlement.Lookup.Reply

/-!
# Endpoints and sources

Where lookups go. Over RPC they go to an endpoint: an address, which has to be given, and how long a
request may take. Neither is looked into here; it is for the transport to make something of them.

A source is how lookups reach the node that is there. A direct one takes heights and blocks as they
are. Over RPC a height is sent as an exact integer (`Source.address`) and the block that comes back
is checked (`Source.deliver`).
-/

namespace Settlement

/-- The address of an L1 node and the time a request may take, in milliseconds. -/
structure Endpoint where
  url : Value
  timeout : Value
  deriving Repr

namespace Endpoint

/-- How long a request may take if nothing else is said, in milliseconds. -/
def defaultTimeout : Nat := 30000

/-- The endpoint of an address, which has to be `truthy`, with `defaultTimeout` where no time is
given. -/
def ofUrl (url timeout : Value) : Except Fault Endpoint :=
  if url.truthy then .ok { url, timeout := timeout.orElse (.number (.whole defaultTimeout)) }
  else .error .noUrl

end Endpoint

/-- How lookups reach the node (`Source.address`) and what comes back (`Source.deliver`). -/
inductive Source where
  /-- Blocks are taken as they are, and a lookup once made cannot be cancelled. -/
  | direct
  /-- Blocks come over RPC: they are checked, and a cancelled pass does not wait for them. -/
  | rpc
  deriving DecidableEq, Repr

namespace Source

/-- The height that reaches the node for a number: as it is, or over RPC as an exact integer
(`Asked.ofNumber`). -/
def address : Source → Number → Except Fault Number
  | .direct, asked => .ok asked
  | .rpc, asked => (Asked.ofNumber asked).map fun asked => .ofInt asked.height

/-- What a pass gets to see of a reply: as it is, or over RPC what `Lookup.verified` leaves of
it. -/
def deliver : Source → Number → Reply → Reply
  | .direct, _, reply => reply
  | .rpc, asked, reply => Lookup.verified asked reply

end Source

end Settlement
