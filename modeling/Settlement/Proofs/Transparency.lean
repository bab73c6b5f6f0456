import Settlement.Proofs.Commitment
import Settlement.Proofs.Session.Relayed

/-!
# Transparency of lookups over RPC

Asking a node over RPC makes no difference to a session. Its heights are sent as exact integers, and
the blocks come back with exact integers, are checked and turned back into references; but step by
step the session shows the same as one that asks the node directly: the same notices and the same
lines of a log, the same heights asked for, the same ends of passes with the same reasons, the same
signal, throttle, links and engine, and the same lookups waiting.

A height of minus zero is sent as zero, which is the same height with another sign. Where nobody
brings in minus zero not even that can be told.

## Key results

- `relayed_overRpc`: a new session and the one that asks its node over RPC
- `rpc_transparent`: both show the same at every step
-/

namespace Settlement.Session

variable {signed : Bool} {s t : Session}

/-- The session that asks its node over RPC instead. -/
def overRpc (s : Session) : Session := { s with source := .rpc, node := s.node.served }

/-- `Relayed` holds of a new session and of the same session over RPC. -/
theorem relayed_overRpc (h : Fresh s) (hdirect : s.source = .direct)
    (hnode : s.node.isOrderly = true) (hheld : s.node.held = []) :
    s.Relayed signed s.overRpc := by
  obtain ⟨sizing, hsizing⟩ := h.tracker
  obtain ⟨capacity, delay, hcapacity, htracker⟩ := Tracker.exists_empty_of_ofValue hsizing
  -- nobody is in flight, and the tracker is as it was made
  have hflight : Flight.Alike signed s.node.held s.flight? s.overRpc.flight? := by
    simp only [overRpc, h.flight]
    exact .none
  have hsignal : s.tracker.signal.number.isPlain signed = true := by
    rw [htracker]
    cases signed <;> rfl
  have hlinks : s.tracker.links.Plain signed := by
    rw [htracker]
    exact ⟨Ring.wellFormed_empty hcapacity, fun link hlink => by cases hlink⟩
  exact {
    tracker := rfl, engine := rfl, refusal := rfl, cancelled := rfl, log := rfl, waiting := rfl
    called := rfl, tickets := rfl, direct := hdirect, rpc := rfl, blocks := rfl, outage := rfl
    holding := rfl, held := rfl, flight := hflight, orderly := hnode, signal := hsignal
    signals := by simp [h.waiting], links := hlinks, issued := by simp [hheld] }

/-- `watch` of sessions that are `Relayed` is told the same, one step after the other. -/
theorem relayed_watch (h : s.Relayed signed t) {steps : List (List Action)}
    (hsteps : steps.all (·.all (Action.isOrderly signed)) = true) :
    (s.watch steps).map (Sight.told signed)
      = (t.watch (steps.map (·.map Action.served))).map (Sight.told signed) := by
  -- sessions that are alike are still alike after a step, so the rest of the run starts like this
  induction steps generalizing s t with
  | nil => rfl
  | cons actions steps ih =>
    rw [List.all_cons, Bool.and_eq_true] at hsteps
    have hstep := relayed_step h hsteps.1
    have hheld := congrArg (List.map Held.height) hstep.session.held
    have hsight := Sight.told_eq_of_told hstep.told hstep.session.tracker.symm
      hstep.session.engine.symm (by simpa [Function.comp_def, Held.told] using hheld.symm)
    simp only [List.map_cons, watch, hsight]
    exact congrArg _ (ih hstep.session hsteps.2)

/-- `watch` of a new session that asks its node directly is told the same as that of one which asks
the same node over RPC, whatever is done with both of them, if nobody cancels, heights are block
numbers, and blocks are L1 block references at their own heights. So are the lines of a log. If
nobody brings in minus zero the two are equal. -/
theorem rpc_transparent (h : Fresh s) (hdirect : s.source = .direct)
    (hnode : s.node.isOrderly = true) (hheld : s.node.held = []) (steps : List (List Action))
    (hsteps : steps.all (·.all (Action.isOrderly false)) = true) :
    (s.watch steps).map (Sight.told false)
      = (s.overRpc.watch (steps.map (·.map Action.served))).map (Sight.told false) ∧
    (∀ threshold, (s.watch steps).map (fun sight => Log.noticeLines threshold sight.notices)
      = (s.overRpc.watch (steps.map (·.map Action.served))).map
          fun sight => Log.noticeLines threshold sight.notices) ∧
    (steps.all (·.all (Action.isOrderly true)) = true →
      s.watch steps = s.overRpc.watch (steps.map (·.map Action.served))) := by
  -- the sessions are alike without the sign of a zero, and also with it where none has one
  have hwatch := relayed_watch (relayed_overRpc h hdirect hnode hheld) hsteps
  refine ⟨hwatch, fun threshold => ?_, fun hsteps => ?_⟩
  · have hlines := congrArg
      (List.map fun sight : Sight => Log.noticeLines threshold sight.notices) hwatch
    simpa [Function.comp_def, Sight.told, Log.noticeLines_told] using hlines
  · have htold : Sight.told true = id := funext Sight.told_true
    have hsame := relayed_watch (relayed_overRpc h hdirect hnode hheld) hsteps
    simpa [htold] using hsame

/-- The block of a node with this hash and height. -/
def mined (hash : String) (height : Nat) : Value :=
  Header.toValue { l1At hash height with parentHash := "p" }

/-- Passes wait for lookups and for each other, a signal is reorganized away while its block is
looked up, and lookups fail in three ways: late, at once, and because there is no block. -/
def troubled : List (List Action) :=
  [[.record (l2At 1) (l1At "a" 10).toBlockId, .setBlock 10 (mined "a" 10),
      .setBlock 12 (mined "f" 12), .hold true],
    [.call "first" (.signal (l1At "f" 12)) none, .call "second" (.boundary (l1At "b" 80)) none],
    [.setBlock 12 (mined "g" 12), .release none],
    [.release (some (.text "late"))],
    [.setOutage (some { reason := .null, immediate := true }),
      .call "third" (.signal (l1At "g" 12)) none],
    [.setOutage none, .hold false, .dropBlock 10, .call "fourth" (.boundary (l1At "c" 160)) none],
    [.setBlock 10 (mined "a" 10), .call "fifth" (.signal (l1At "g" 12)) none]]

/-- `rpc_transparent` in `troubled`. -/
theorem troubled_transparent :
    small.Fresh ∧ small.source = .direct ∧ small.node.isOrderly = true ∧ small.node.held = [] ∧
    troubled.all (·.all (Action.isOrderly false)) = true ∧
    troubled.all (·.all (Action.isOrderly true)) = true ∧
    (small.watch troubled).map Sight.heights = [[], [12], [12], [], [12], [12, 10], [12, 10]] ∧
    (small.watch troubled).map (·.engine.history.length) = [0, 0, 0, 0, 0, 0, 1] ∧
    small.watch troubled = small.overRpc.watch (troubled.map (·.map Action.served)) := by
  refine ⟨fresh_small, rfl, rfl, rfl, by decide, by decide, by rfl, by rfl, ?_⟩
  exact (rpc_transparent fresh_small rfl rfl rfl troubled (by decide)).2.2 (by decide)

/-- A height of minus zero is asked for as it is, and over RPC as zero. -/
example :
    let actions := [.record (l2At 1) (l1At "a" 0).toBlockId,
      .call "first" (.signal { l1At "a" 0 with number := .negativeZero }) none]
    (small.step actions).sight.heights = [.negativeZero] ∧
      (small.overRpc.step actions).sight.heights = [0] :=
  ⟨by rfl, by rfl⟩

end Settlement.Session
