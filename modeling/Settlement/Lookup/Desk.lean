import Settlement.Cancellation
import Settlement.Lookup.Reply

/-!
# Lookups over RPC

Any number of lookups wait for their replies at a desk. A lookup is opened unless its token is
cancelled already or its number is no integer; it then sends one request and is decided by what
comes first, the reply to its own request or the cancellation of its token. Later replies and
cancellations change nothing. Replies are addressed by ids: they go to the lookup that was the
last to wait under an id, and one that waited under it before can only be cancelled.

A reply takes effect only after everything that happens together with it. A cancellation in the
same moment therefore wins (`Desk.replyThenCancel`). A reply that is watched for cancellation
takes effect one turn later than one that is not.
-/

namespace Settlement

/-- A lookup that waits for its reply (`Desk.pending`). -/
structure Pending where
  id : String
  asked : Asked
  token? : Option String
  /-- Whether another lookup has waited under the same id since. -/
  superseded : Bool := false
  deriving Repr

/-- The end of a lookup: a header, or what it failed with. -/
abbrev Verdict := Except Value Header

/-- The `Verdict` of the lookup of an id. -/
structure Decision where
  id : String
  verdict : Verdict

/-- The decision of a lookup by a cancellation: it fails with `Cancellations.fault`. -/
def Decision.cancelled (id : String) (reason : Value) : Decision where
  id := id
  verdict := .error (.fault (Cancellations.fault reason))

/-- Lookups that wait, in the order in which they were opened. -/
structure Desk where
  cancelled : Cancellations := []
  pending : List Pending := []

/-- What an action at a desk gives: the heights asked for and the lookups decided, in order. -/
structure DeskNews where
  asked : List Int := []
  decided : List Decision := []

/-- The decision of a lookup by the reply to its request: a failure as it is, and a block by
`Lookup.accept`. -/
def Pending.replied (p : Pending) (reply : Reply) : Decision where
  id := p.id
  verdict := match reply with
    | .failure reason => .error reason
    | .block block => (Lookup.accept p.asked block).mapError .fault

/-- Whether replies to an id go to a lookup: it is its own id, and it was not superseded. -/
def Pending.hears (p : Pending) (id : String) : Bool := p.id == id && !p.superseded

/-- A lookup after another one began to wait under an id: it no longer `hears` replies to that. -/
def Pending.yielding (p : Pending) (id : String) : Pending :=
  { p with superseded := p.superseded || p.id == id }

namespace Desk

/-- Lets a lookup wait. It takes over its id from all others (`Pending.yielding`). -/
def enqueue (d : Desk) (p : Pending) : Desk :=
  { d with pending := d.pending.map (·.yielding p.id) ++ [p] }

/-- Sends the request of a lookup. It may be answered at once, and then it does not wait. -/
def send (d : Desk) (p : Pending) (reply? : Option Reply) : Desk × DeskNews :=
  match reply? with
  | some reply => (d, { asked := [p.asked.height], decided := [p.replied reply] })
  | none => (d.enqueue p, { asked := [p.asked.height] })

/-- Opens a lookup for a value, which has to be or to spell an integer (`Asked.ofValue`), unless its
token is cancelled already. -/
def lookup (d : Desk) (id : String) (number : Value) (token? : Option String)
    (reply? : Option Reply) : Desk × DeskNews :=
  match d.cancelled.reason? token? with
  | some reason => (d, { decided := [.cancelled id reason] })
  | none =>
    match Asked.ofValue number with
    | .error fault => (d, { decided := [⟨id, .error (.fault fault)⟩] })
    | .ok asked => d.send { id, asked, token? } reply?

/-- Answers the request of the lookup that `hears` an id, if there is one. -/
def reply (d : Desk) (id : String) (reply : Reply) : Desk × DeskNews :=
  let (own, others) := d.pending.partition (·.hears id)
  ({ d with pending := others }, { decided := own.map (·.replied reply) })

/-- Cancels a token, and with it every lookup that carries it. A token that was cancelled before is
left alone. -/
def cancel (d : Desk) (token : String) (reason : Value) : Desk × DeskNews :=
  let cancelled := d.cancelled.cancel token reason
  -- the first reason given for a token stays
  let reason := (cancelled.reason? (some token)).getD reason
  let (own, others) := d.pending.partition (·.token? == some token)
  ({ cancelled, pending := others }, { decided := own.map fun p => .cancelled p.id reason })

/-- Answers the request of a lookup and cancels a token in the same moment: the cancellation wins
over the reply. -/
def replyThenCancel (d : Desk) (id : String) (reply : Reply) (token : String)
    (reason : Value) : Desk × DeskNews :=
  -- a lookup that carries the token is decided by the cancellation
  let answered (p : Pending) : Bool := p.hears id && p.token? != some token
  let (direct, watched) := (d.pending.filter answered).partition (·.token?.isNone)
  let (d, news) := { d with pending := d.pending.filter (!answered ·) }.cancel token reason
  (d, { news with
    decided := direct.map (·.replied reply) ++ news.decided ++ watched.map (·.replied reply) })

/-! ## Runs -/

inductive Action where
  | lookup (id : String) (number : Value) (token? : Option String) (reply? : Option Reply)
  | reply (id : String) (reply : Reply)
  | cancel (token : String) (reason : Value)
  /-- A reply and a cancellation in the same moment. -/
  | replyThenCancel (id : String) (reply : Reply) (token : String) (reason : Value)
  deriving Repr

/-- Does one action at a desk. -/
def act (d : Desk) : Action → Desk × DeskNews
  | .lookup id number token? reply? => d.lookup id number token? reply?
  | .reply id reply => d.reply id reply
  | .cancel token reason => d.cancel token reason
  | .replyThenCancel id reply token reason => d.replyThenCancel id reply token reason

/-- Does one action after the other, with the news of each. -/
def run (d : Desk) : List Action → Desk × List DeskNews
  | [] => (d, [])
  | action :: rest =>
    let (d, news) := d.act action
    let (d, later) := run d rest
    (d, news :: later)

end Desk

end Settlement
