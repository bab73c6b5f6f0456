import Settlement.Environment.Settings
import Settlement.Log.Line
import Settlement.Lookup.Desk
import Settlement.Lookup.Endpoint
import Settlement.Proofs.Block.Naming
import Settlement.Proofs.Confluence
import Settlement.Proofs.Decision
import Settlement.Proofs.Environment.Faults
import Settlement.Proofs.Environment.Rereading
import Settlement.Proofs.Environment.Sizing
import Settlement.Proofs.Exhaustion
import Settlement.Proofs.Lag
import Settlement.Proofs.Lookup.Desk
import Settlement.Proofs.Lookup.Exact
import Settlement.Proofs.Lookup.Served
import Settlement.Proofs.Number.Count
import Settlement.Proofs.Provenance.Reach
import Settlement.Proofs.Provenance.Rows
import Settlement.Proofs.Provenance.Slots
import Settlement.Proofs.Provenance.Walks
import Settlement.Proofs.Rejection
import Settlement.Proofs.Renewal
import Settlement.Proofs.Session.Cleared
import Settlement.Proofs.Session.Lines
import Settlement.Proofs.Session.Passage
import Settlement.Proofs.Session.Relayed
import Settlement.Proofs.Session.Renumbered
import Settlement.Proofs.Session.Told
import Settlement.Proofs.Setback
import Settlement.Proofs.Throttle
import Settlement.Proofs.Trace
import Settlement.Proofs.Transparency
import Settlement.Provenance.Cursor
import Settlement.Session
import Settlement.Value.Reader
