import Settlement.Lookup.Desk
import Settlement.Proofs.Acceptance

/-!
# The course of a lookup

A lookup at a desk where any number of others come and go. One with an id of its own depends on no
other: its course is fixed by when its token is cancelled and when its own request is answered.

A lookup sends its request unless its token was cancelled before or its number is no integer. Then
it waits, unless the reply is there at once, and the first thing that concerns it decides it
(`Pending.verdict?`): a reply to its id or a cancellation of its token. If both come in the same
moment, it is the cancellation. Nothing decides it a second time.

## Key results

- `Cancellations.reason?_cancel_eq`, `reason?_run`: the first reason given for a token stays
- `act_only`: what is decided under an id depends on the lookups under it and on no others
- `Waits.decided`, `Waits.undisturbed`: an action decides a lookup that waits, or leaves it waiting
- `lookup_decided_once`: the course of a lookup, what is asked for, and whom decisions concern
-/

namespace Settlement

namespace Cancellations

/-- The reason of a cancellation. One that gives none has its own. -/
def stated : Value → Value
  | .undefined => .fault .cancelled
  | reason => reason

/-- `cancel` adds the stated reason for a token that has none. -/
theorem cancel_eq (c : Cancellations) (token : String) (reason : Value) :
    c.cancel token reason = if (c.lookup token).isSome then c else (token, stated reason) :: c := by
  cases reason <;> rfl

/-- `cancel` preserves the reason of every token that has one. -/
theorem reason?_cancel_eq (c : Cancellations) (token : String) (reason : Value)
    (token? : Option String) :
    (c.cancel token reason).reason? token?
      = (c.reason? token?).or (if token? = some token then some (stated reason) else none) := by
  rw [cancel_eq]
  cases token? with
  | none => simp [reason?]
  | some other =>
    show List.lookup other _ = (c.lookup other).or _
    -- the same token, or one that the cancellation does not name
    by_cases hother : other = token
    · subst hother
      cases hlookup : c.lookup other with
      | none => simp
      | some given => simp [hlookup]
    · have hne : (other == token) = false := by simpa using hother
      have hno : ¬some other = some token := by simpa using hother
      rw [if_neg hno, Option.or_none]
      split
      · rfl
      · rw [List.lookup_cons, hne]

end Cancellations

/-- The verdict on a lookup that is cancelled for a reason: the reason itself if it is an error,
and otherwise the error that the lookup was cancelled. -/
def Verdict.cancelled : Value → Verdict
  | .fault fault => .error (.fault fault)
  | _ => .error (.fault .lookupCancelled)

/-- `Decision.cancelled` holds the `Verdict.cancelled` of the reason. -/
theorem Decision.verdict_cancelled (id : String) (reason : Value) :
    (cancelled id reason).verdict = .cancelled reason := by
  cases reason <;> rfl

namespace Pending

/-- The verdict of `Pending.replied`. -/
def verdict (p : Pending) (reply : Reply) : Verdict := (p.replied reply).verdict

/-- The verdict that an action decides on a lookup that waits, if it concerns this lookup. A rule
gives the verdict on a reply. -/
def decides? (p : Pending) (rule : Reply → Verdict) : Desk.Action → Option Verdict
  | .lookup .. => none
  | .reply id reply => if id = p.id then some (rule reply) else none
  | .cancel token reason =>
    if p.token? = some token then some (.cancelled (Cancellations.stated reason)) else none
  | .replyThenCancel id reply token reason =>
    -- of the two the cancellation wins
    if p.token? = some token then some (.cancelled (Cancellations.stated reason))
    else if id = p.id then some (rule reply)
    else none

/-- `decides?` by the rule of `Pending.verdict`. -/
def verdict? (p : Pending) (action : Desk.Action) : Option Verdict := p.decides? p.verdict action

/-- The verdicts on a lookup that waits, action by action: none until the first action that
`decides?` it, and none after that. -/
def course (p : Pending) (rule : Reply → Verdict) : List Desk.Action → List (List Verdict)
  | [] => []
  | action :: actions =>
    match p.decides? rule action with
    | some verdict => [verdict] :: actions.map fun _ => []
    | none => [] :: p.course rule actions

end Pending

/-- What the reply to a request decides of the lookup that sent it. A failure is what the lookup
fails with, a block that is acceptable at the height asked for makes it resolve to the header of
this block, and any other block makes it fail with a fault. -/
inductive Reply.Decides (asked : Asked) : Reply → Verdict → Prop
  | failed (reason : Value) : Decides asked (.failure reason) (.error reason)
  | resolved {found : Value} {header : Header}
      (acceptable : Lookup.AcceptableAt asked.height found)
      (made : Lookup.IsHeaderOf header asked.height found) :
      Decides asked (.block found) (.ok header)
  | refused {found : Value} {fault : Fault}
      (unacceptable : ¬Lookup.AcceptableAt asked.height found) :
      Decides asked (.block found) (.error (.fault fault))

/-- `Pending.verdict` is a verdict that the reply `Decides`. -/
theorem Pending.decides_verdict (p : Pending) (reply : Reply) :
    reply.Decides p.asked (p.verdict reply) := by
  cases reply with
  | failure reason => exact .failed reason
  -- a block resolves exactly if `Lookup.accept` takes it
  | block found =>
    show Reply.Decides _ _ ((Lookup.accept p.asked found).mapError .fault)
    cases haccept : Lookup.accept p.asked found with
    | ok header =>
      have hfound := Lookup.acceptableAt_of_accept haccept
      obtain ⟨made, hmade, hheader⟩ := Lookup.accept_of_acceptableAt hfound p.asked.text
      obtain rfl := Except.ok.inj (haccept.symm.trans hmade)
      exact .resolved hfound hheader
    | error fault =>
      refine .refused fun hfound => ?_
      obtain ⟨header, hheader, -⟩ := Lookup.accept_of_acceptableAt hfound p.asked.text
      exact nomatch haccept.symm.trans hheader

/-- The verdicts on the lookups with an id. -/
def DeskNews.verdicts (id : String) (news : DeskNews) : List Verdict :=
  (news.decided.filter (·.id = id)).map Decision.verdict

namespace Desk

namespace Action

/-- The id under which an action opens a lookup. -/
def opens? : Action → Option String
  | .lookup id .. => some id
  | _ => none

/-- The reason for which an action cancels a token. -/
def reason? (token? : Option String) : Action → Option Value
  | .cancel token reason | .replyThenCancel _ _ token reason =>
    if token? = some token then some (Cancellations.stated reason) else none
  | _ => none

/-- The heights that are asked for by an action after others: that of the lookup which it opens,
unless its token was cancelled before or its number is no integer. -/
def asks (before : List Action) : Action → List Int
  | .lookup _ number token? _ =>
    match before.findSome? (reason? token?), number.toInteger with
    | none, .ok height => [height]
    | _, _ => []
  | _ => []

end Action

/-- The arguments of an action that opens a lookup. -/
structure Opening where
  id : String
  number : Value
  token? : Option String
  /-- The reply to its request that is there at once. -/
  reply? : Option Reply := none

namespace Opening

/-- The action that opens the lookup. -/
def action (o : Opening) : Action := .lookup o.id o.number o.token? o.reply?

/-- The verdicts on a lookup, from the action that opens it on. A rule gives the verdict on a
reply. -/
def course (o : Opening) (rule : Asked → Reply → Verdict) (before after : List Action) :
    List (List Verdict) :=
  match before.findSome? (Action.reason? o.token?) with
  | some reason => [.cancelled reason] :: after.map fun _ => []
  | none =>
    match Asked.ofValue o.number with
    | .error fault => [.error (.fault fault)] :: after.map fun _ => []
    | .ok asked =>
      match o.reply? with
      | some reply => [rule asked reply] :: after.map fun _ => []
      | none =>
        let waiting : Pending := { id := o.id, asked, token? := o.token? }
        [] :: waiting.course (rule asked) after

/-- The rule of `Pending.verdict`. -/
def rule (o : Opening) (asked : Asked) (reply : Reply) : Verdict :=
  Pending.verdict { id := o.id, asked, token? := o.token? } reply

end Opening

variable {d : Desk} {p : Pending} {id : String} {actions before after : List Action}

/-! ## Runs -/

/-- `run` distributes over `++`. -/
theorem run_append (d : Desk) (before after : List Action) :
    d.run (before ++ after) =
      (((d.run before).1.run after).1, (d.run before).2 ++ ((d.run before).1.run after).2) := by
  induction before generalizing d with
  | nil => rfl
  | cons action before ih =>
    show (((d.act action).1.run (before ++ after)).1,
      (d.act action).2 :: ((d.act action).1.run (before ++ after)).2) = _
    rw [ih]
    rfl

/-- `run` gives the news of every action. -/
theorem length_run (d : Desk) (actions : List Action) :
    (d.run actions).2.length = actions.length := by
  induction actions generalizing d with
  | nil => rfl
  | cons action actions ih => exact congrArg (· + 1) (ih _)

/-- `run` gives the news of `act` at the place of the action. -/
theorem getElem?_run (d : Desk) (before : List Action) (action : Action) (after : List Action) :
    (d.run (before ++ action :: after)).2[before.length]?
      = some ((d.run before).1.act action).2 := by
  rw [run_append, List.getElem?_append_right (Nat.le_of_eq (length_run d before)), length_run,
    Nat.sub_self]
  rfl

/-! ## Tokens -/

/-- `lookup` cancels no token. -/
theorem cancelled_lookup (d : Desk) (id : String) (number : Value) (token? : Option String)
    (reply? : Option Reply) : (d.lookup id number token? reply?).1.cancelled = d.cancelled := by
  unfold lookup
  split
  · rfl
  · split
    · rfl
    · cases reply? <;> rfl

/-- `act` adds the reason of the action to the reasons of the desk. -/
theorem reason?_act (d : Desk) (action : Action) (token? : Option String) :
    (d.act action).1.cancelled.reason? token?
      = (d.cancelled.reason? token?).or (action.reason? token?) := by
  cases action with
  | lookup id number other? reply? =>
    show (d.lookup id number other? reply?).1.cancelled.reason? token? = _
    rw [cancelled_lookup]
    exact (Option.or_none ..).symm
  | reply id reply => exact (Option.or_none ..).symm
  | cancel token reason => exact Cancellations.reason?_cancel_eq ..
  | replyThenCancel id reply token reason => exact Cancellations.reason?_cancel_eq ..

/-- `run` keeps the first reason for a token. -/
theorem reason?_run (d : Desk) (actions : List Action) (token? : Option String) :
    (d.run actions).1.cancelled.reason? token?
      = (d.cancelled.reason? token?).or (actions.findSome? (Action.reason? token?)) := by
  induction actions generalizing d with
  | nil => exact (Option.or_none ..).symm
  | cons action actions ih =>
    show ((d.act action).1.run actions).1.cancelled.reason? token? = _
    rw [ih, reason?_act, List.findSome?_cons, Option.or_assoc]
    cases action.reason? token? <;> rfl

/-! ## Decisions -/

/-- `verdicts` of lookups that are decided together are those of the ones with the id. -/
theorem verdicts_map {decide : Pending → Decision} (h : ∀ p, (decide p).id = p.id)
    (asked : List Int) (ps : List Pending) (id : String) :
    DeskNews.verdicts id ⟨asked, ps.map decide⟩
      = (ps.filter (·.id = id)).map fun p => (decide p).verdict := by
  simp [DeskNews.verdicts, List.filter_map, Function.comp_def, h]

/-- `verdicts` distributes over `++`. -/
theorem verdicts_append (asked : List Int) (xs ys : List Decision) (id : String) :
    DeskNews.verdicts id ⟨asked, xs ++ ys⟩
      = DeskNews.verdicts id ⟨asked, xs⟩ ++ DeskNews.verdicts id ⟨asked, ys⟩ := by
  simp [DeskNews.verdicts]

/-- The lookups that wait under an id. -/
def under (d : Desk) (id : String) : List Pending := d.pending.filter (·.id = id)

/-- The desk without the lookups under other ids. -/
def only (d : Desk) (id : String) : Desk := { d with pending := d.under id }

/-- A filter on the id commutes with any other one. -/
private theorem filter_under (f : Pending → Bool) (d : Desk) (id : String) :
    (d.pending.filter f).filter (·.id = id) = ((d.under id).filter f).filter (·.id = id) := by
  simp [under, List.filter_filter, Bool.and_comm, Bool.and_left_comm]

/-- A filter on the id commutes with any two others. -/
private theorem filter_filter_under (f g : Pending → Bool) (d : Desk) (id : String) :
    ((d.pending.filter f).filter g).filter (·.id = id)
      = (((d.under id).filter f).filter g).filter (·.id = id) := by
  simpa only [List.filter_filter] using filter_under (fun p => g p && f p) d id

/-- `enqueue` leaves the same lookups under an id as with `only` those. -/
private theorem enqueue_under (d : Desk) (p : Pending) (id : String) :
    (d.enqueue p).under id = ((d.only id).enqueue p).under id := by
  -- the pending lookups under an id yield like all others
  have hmap : ∀ ps : List Pending, (ps.map (·.yielding p.id)).filter (·.id = id)
      = (ps.filter (·.id = id)).map (·.yielding p.id) := fun ps => List.filter_map
  have htwice : (d.under id).filter (·.id = id) = d.under id := by
    simp [under, List.filter_filter]
  show (d.pending.map (·.yielding p.id) ++ [p]).filter (·.id = id)
    = ((d.under id).map (·.yielding p.id) ++ [p]).filter (·.id = id)
  rw [List.filter_append, List.filter_append, hmap, hmap, htwice]
  rfl

/-- `act` depends, in what it decides under an id and in what then waits there, on the lookups under
this id and on no others. -/
theorem act_only (d : Desk) (action : Action) (id : String) :
    (d.act action).2.verdicts id = ((d.only id).act action).2.verdicts id ∧
    (d.act action).1.under id = ((d.only id).act action).1.under id := by
  have htwice : (d.only id).under id = d.under id := by
    simp [only, under, List.filter_filter]
  cases action with
  | lookup other number token? reply? =>
    simp only [act, lookup]
    have hcancelled : (d.only id).cancelled = d.cancelled := rfl
    rw [hcancelled]
    cases d.cancelled.reason? token? with
    | some reason => exact ⟨rfl, htwice.symm⟩
    | none =>
      cases Asked.ofValue number with
      | error fault => exact ⟨rfl, htwice.symm⟩
      | ok asked =>
        cases reply? with
        | some reply => exact ⟨rfl, htwice.symm⟩
        | none => exact ⟨rfl, enqueue_under ..⟩
  | reply other reply =>
    simp only [act, Desk.reply, List.partition_eq_filter_filter]
    rw [verdicts_map fun _ => rfl, verdicts_map fun _ => rfl]
    exact ⟨congrArg _ (filter_under ..), filter_under ..⟩
  | cancel token reason =>
    simp only [act, Desk.cancel, List.partition_eq_filter_filter]
    rw [verdicts_map fun _ => rfl, verdicts_map fun _ => rfl]
    exact ⟨congrArg _ (filter_under ..), filter_under ..⟩
  -- three groups are decided one after the other: answered at once, cancelled, answered late
  | replyThenCancel other reply token reason =>
    simp only [act, replyThenCancel, Desk.cancel, List.partition_eq_filter_filter,
      verdicts_append]
    refine ⟨?_, filter_filter_under ..⟩
    rw [verdicts_map fun _ => rfl, verdicts_map fun _ => rfl, verdicts_map fun _ => rfl,
      filter_filter_under, filter_filter_under, filter_filter_under,
      verdicts_map fun _ => rfl, verdicts_map fun _ => rfl, verdicts_map fun _ => rfl]
    rfl

/-- `lookup` under one id decides nothing under another one and changes nothing there. -/
theorem lookup_other (d : Desk) {other id : String} (hother : other ≠ id) (number : Value)
    (token? : Option String) (reply? : Option Reply) :
    (d.lookup other number token? reply?).2.verdicts id = [] ∧
    (d.lookup other number token? reply?).1.under id = d.under id := by
  -- the others are asked to yield to an id that is not theirs
  have hyields : (d.pending.map (·.yielding other)).filter (·.id = id) = d.under id := by
    have hmap : (d.pending.map (·.yielding other)).filter (·.id = id)
        = (d.under id).map (·.yielding other) := List.filter_map
    have hsame : ∀ p ∈ d.under id, p.yielding other = p := by
      intro p hp
      obtain rfl : p.id = id := by simpa using (List.mem_filter.mp hp).2
      have hne : (p.id == other) = false := by simpa using hother.symm
      rw [Pending.yielding, hne, Bool.or_false]
    rw [hmap, List.map_congr_left hsame, List.map_id']
  unfold lookup
  cases d.cancelled.reason? token? with
  | some reason => simp [DeskNews.verdicts, Decision.cancelled, hother]
  | none =>
    cases Asked.ofValue number with
    | error fault => simp [DeskNews.verdicts, hother]
    | ok asked =>
      cases reply? with
      | some reply => simp [DeskNews.verdicts, send, Pending.replied, hother]
      | none =>
        refine ⟨rfl, ?_⟩
        simpa [send, enqueue, under, hother] using hyields

/-- `act` preserves that none waits under an id, and decides none there, unless it opens one. -/
theorem act_of_under_nil (h : d.under id = []) {action : Action}
    (hopens : action.opens? ≠ some id) :
    (d.act action).2.verdicts id = [] ∧ (d.act action).1.under id = [] := by
  cases action with
  | lookup other number token? reply? =>
    have hother : other ≠ id := fun heq => hopens (congrArg some heq)
    obtain ⟨hverdicts, hunder⟩ := d.lookup_other hother number token? reply?
    exact ⟨hverdicts, hunder.trans h⟩
  | _ =>
    -- with no lookup at all there is nothing to decide
    have honly : d.only id = { d with pending := [] } := by rw [only, h]
    obtain ⟨hverdicts, hunder⟩ := act_only d _ id
    rw [hverdicts, hunder, honly]
    exact ⟨rfl, rfl⟩

/-- The only lookup under its id. Its token is not cancelled. -/
structure Waits (d : Desk) (p : Pending) : Prop where
  alone : d.under p.id = [p]
  heard : p.superseded = false
  free : d.cancelled.reason? p.token? = none

/-- `cancel` of the token of a lookup in `Waits` is for the reason that it states. -/
theorem Waits.reason_cancel (h : d.Waits p) {token : String} (htoken : p.token? = some token)
    (reason : Value) :
    ((d.cancelled.cancel token reason).reason? (some token)).getD reason
      = Cancellations.stated reason := by
  have hfree : d.cancelled.reason? (some token) = none := by rw [← htoken, h.free]
  rw [Cancellations.reason?_cancel_eq, hfree]
  simp

/-- `act` decides a lookup in `Waits` with one verdict where the action concerns it. -/
theorem Waits.decided (h : d.Waits p) {action : Action} {verdict : Verdict}
    (hverdict : p.verdict? action = some verdict) :
    (d.act action).2.verdicts p.id = [verdict] ∧ (d.act action).1.under p.id = [] := by
  obtain ⟨hverdicts, hunder⟩ := act_only d action p.id
  rw [hverdicts, hunder]
  have honly : d.only p.id = { d with pending := [p] } := by rw [only, h.alone]
  rw [honly]
  cases action with
  | lookup id number token? reply? => cases hverdict
  | reply id reply =>
    obtain ⟨rfl, rfl⟩ : id = p.id ∧ p.verdict reply = verdict := by
      simpa [Pending.verdict?, Pending.decides?] using hverdict
    simp [act, Desk.reply, Pending.hears, h.heard, DeskNews.verdicts, under, Pending.replied,
      Pending.verdict]
  | cancel token reason =>
    obtain ⟨htoken, rfl⟩ : p.token? = some token
        ∧ Verdict.cancelled (Cancellations.stated reason) = verdict := by
      simpa [Pending.verdict?, Pending.decides?] using hverdict
    have hreason := h.reason_cancel htoken reason
    have hid : (Decision.cancelled p.id (Cancellations.stated reason)).id = p.id := rfl
    simp [act, Desk.cancel, htoken, hreason, DeskNews.verdicts, under, hid,
      Decision.verdict_cancelled]
  | replyThenCancel id reply token reason =>
    by_cases htoken : p.token? = some token
    · obtain rfl : Verdict.cancelled (Cancellations.stated reason) = verdict := by
        simpa [Pending.verdict?, Pending.decides?, htoken] using hverdict
      have hreason := h.reason_cancel htoken reason
      have hid : (Decision.cancelled p.id (Cancellations.stated reason)).id = p.id := rfl
      simp [act, replyThenCancel, Desk.cancel, htoken, hreason, DeskNews.verdicts, under, hid,
        Decision.verdict_cancelled]
    · obtain ⟨rfl, rfl⟩ : id = p.id ∧ p.verdict reply = verdict := by
        simpa [Pending.verdict?, Pending.decides?, htoken] using hverdict
      -- one that carries no token has its verdict one turn before one that does
      cases hnone : p.token?.isNone <;>
        simp [act, replyThenCancel, Desk.cancel, Pending.hears, h.heard, htoken, hnone,
          DeskNews.verdicts, under, Pending.replied, Pending.verdict]

/-- `act` preserves `Waits` where the action does not concern the lookup. -/
theorem Waits.undisturbed (h : d.Waits p) {action : Action} (hopens : action.opens? ≠ some p.id)
    (hverdict : p.verdict? action = none) :
    (d.act action).2.verdicts p.id = [] ∧ (d.act action).1.Waits p := by
  obtain ⟨hverdicts, hunder⟩ := act_only d action p.id
  have honly : d.only p.id = { d with pending := [p] } := by rw [only, h.alone]
  -- the reasons are those of the desk and of the action
  suffices hstays : (d.act action).2.verdicts p.id = [] ∧ (d.act action).1.under p.id = [p]
      ∧ action.reason? p.token? = none by
    refine ⟨hstays.1, hstays.2.1, h.heard, ?_⟩
    rw [reason?_act, h.free, hstays.2.2, Option.or_none]
  cases action with
  | lookup id number token? reply? =>
    have hother : id ≠ p.id := fun heq => hopens (congrArg some heq)
    obtain ⟨hnone, hsame⟩ := d.lookup_other hother number token? reply?
    exact ⟨hnone, hsame.trans h.alone, rfl⟩
  | reply id reply =>
    have hother : id ≠ p.id := by simpa [Pending.verdict?, Pending.decides?] using hverdict
    rw [hverdicts, hunder, honly]
    simp [act, Desk.reply, Pending.hears, DeskNews.verdicts, under, hother.symm, Action.reason?]
  | cancel token reason =>
    have htoken : p.token? ≠ some token := by
      simpa [Pending.verdict?, Pending.decides?] using hverdict
    rw [hverdicts, hunder, honly]
    simp [act, Desk.cancel, DeskNews.verdicts, under, htoken, Action.reason?]
  | replyThenCancel id reply token reason =>
    have htoken : p.token? ≠ some token := fun heq => by
      simp [Pending.verdict?, Pending.decides?, heq] at hverdict
    have hother : p.id ≠ id := fun heq => by
      simp [Pending.verdict?, Pending.decides?, htoken, heq] at hverdict
    rw [hverdicts, hunder, honly]
    simp [act, replyThenCancel, Desk.cancel, Pending.hears, DeskNews.verdicts, under, htoken,
      hother, Action.reason?]

/-! ## Courses -/

/-- `run` decides none under an id until one is opened there. -/
theorem run_of_under_nil (h : d.under id = [])
    (hopens : ∀ action ∈ actions, action.opens? ≠ some id) :
    (d.run actions).2.map (·.verdicts id) = actions.map (fun _ => []) ∧
    (d.run actions).1.under id = [] := by
  induction actions generalizing d with
  | nil => exact ⟨rfl, h⟩
  | cons action actions ih =>
    obtain ⟨hverdicts, hunder⟩ := act_of_under_nil h (hopens action List.mem_cons_self)
    obtain ⟨hlater, hlast⟩ := ih hunder fun other hmem => hopens other (List.mem_cons_of_mem _ hmem)
    exact ⟨congr (congrArg List.cons hverdicts) hlater, hlast⟩

/-- `run` from `Waits` gives the lookup its `Pending.course`. -/
theorem Waits.run (h : d.Waits p) (hopens : ∀ action ∈ actions, action.opens? ≠ some p.id) :
    (d.run actions).2.map (·.verdicts p.id) = p.course p.verdict actions := by
  induction actions generalizing d with
  | nil => rfl
  | cons action actions ih =>
    have hother : ∀ other ∈ actions, other.opens? ≠ some p.id :=
      fun other hother => hopens other (List.mem_cons_of_mem _ hother)
    -- it waits until the first action that concerns it, and then there is none under its id
    show (d.act action).2.verdicts p.id
      :: ((d.act action).1.run actions).2.map (·.verdicts p.id) = _
    cases hverdict : p.decides? p.verdict action with
    | some verdict =>
      obtain ⟨hdecided, hunder⟩ := h.decided hverdict
      rw [hdecided, (run_of_under_nil hunder hother).1, Pending.course, hverdict]
    | none =>
      obtain ⟨hnone, hwaits⟩ := h.undisturbed (hopens action List.mem_cons_self) hverdict
      rw [hnone, ih hwaits hother, Pending.course, hverdict]

/-- `run` from the action that opens a lookup gives it its `Opening.course`, if the id is its
own. -/
theorem run_opening {o : Opening} (h : d.under o.id = [])
    (hafter : ∀ action ∈ after, action.opens? ≠ some o.id)
    (hreason : d.cancelled.reason? o.token? = before.findSome? (Action.reason? o.token?)) :
    (d.run (o.action :: after)).2.map (·.verdicts o.id) = o.course o.rule before after := by
  have hrun : (d.run (o.action :: after)).2.map (·.verdicts o.id)
      = (d.lookup o.id o.number o.token? o.reply?).2.verdicts o.id
        :: ((d.lookup o.id o.number o.token? o.reply?).1.run after).2.map (·.verdicts o.id) := rfl
  rw [hrun, Opening.course, ← hreason]
  unfold lookup
  -- a token that is cancelled decides the lookup at once
  cases hcancelled : d.cancelled.reason? o.token? with
  | some reason =>
    refine congr (congrArg List.cons ?_) (run_of_under_nil h hafter).1
    have hid : (Decision.cancelled o.id reason).id = o.id := rfl
    simp [DeskNews.verdicts, hid, Decision.verdict_cancelled]
  | none =>
    -- so does a number that cannot be asked for
    cases Asked.ofValue o.number with
    | error fault =>
      refine congr (congrArg List.cons ?_) (run_of_under_nil h hafter).1
      simp [DeskNews.verdicts]
    | ok asked =>
      -- and so does a node that answers at once
      cases hreply : o.reply? with
      | some reply =>
        refine congr (congrArg List.cons ?_) (run_of_under_nil h hafter).1
        simp [send, DeskNews.verdicts, Opening.rule, Pending.verdict, Pending.replied]
      | none =>
        let waiting : Pending := { id := o.id, asked, token? := o.token? }
        -- otherwise it waits, alone under its name
        have hunder : (d.enqueue waiting).under o.id = [waiting] := by
          rw [enqueue_under, only, h]
          simp [enqueue, under, waiting]
        have hwaits : (d.enqueue waiting).Waits waiting := ⟨hunder, rfl, hcancelled⟩
        exact congrArg ([] :: ·) (hwaits.run hafter)

end Desk

/-- `Pending.course` has one verdict at most. -/
theorem Pending.length_flatten_course (p : Pending) (rule : Reply → Verdict)
    (actions : List Desk.Action) : (p.course rule actions).flatten.length ≤ 1 := by
  induction actions with
  | nil => exact Nat.zero_le 1
  | cons action actions ih =>
    rw [course]
    cases p.decides? rule action with
    | some verdict => simp [List.map_const']
    | none => exact ih

namespace Desk

/-- `Opening.course` has one verdict at most. -/
theorem Opening.length_flatten_course (o : Opening) (rule : Asked → Reply → Verdict)
    (before after : List Action) : (o.course rule before after).flatten.length ≤ 1 := by
  unfold course
  -- decided at once in three ways, or left to the first action that decides it
  split
  · simp [List.map_const']
  · split
    · simp [List.map_const']
    · split
      · simp [List.map_const']
      · exact Pending.length_flatten_course ..

end Desk

/-- `Asked.ofValue` asks for the height that `toInteger` reads, and for none where that fails. -/
theorem Asked.map_height_ofValue (v : Value) :
    (Asked.ofValue v).map Asked.height = v.toInteger := by
  have of_text (h : ∀ fault, v.toText = .error fault → v.toInteger = .error fault) :
      Except.map Asked.height (do
        let height ← v.toInteger
        return { text := ← v.toText, height }) = v.toInteger := by
    cases htext : v.toText with
    | error fault =>
      rw [h fault htext]
      rfl
    | ok s => cases v.toInteger <;> rfl
  cases v with
  | number x =>
    show (Asked.ofNumber x).map Asked.height = _
    cases h : x.toInt? <;> simp [Asked.ofNumber, Value.toInteger, h, Except.map]
  | undefined | null | bool | integer => rfl
  | text | list | record | fault =>
    -- an integer is read from the text, so there is none without a text
    refine of_text fun fault htext => ?_
    simp [Value.toInteger, htext, bind, Except.bind]

namespace Desk

/-- `act` asks for what `Action.asks` says. -/
theorem asked_act (d : Desk) (before : List Action) (action : Action)
    (h : ∀ token?, d.cancelled.reason? token? = before.findSome? (Action.reason? token?)) :
    (d.act action).2.asked = action.asks before := by
  cases action with
  | lookup id number token? reply? =>
    have hheight := Asked.map_height_ofValue number
    simp only [act, lookup, Action.asks, ← h, ← hheight]
    -- the three branches of `lookup`, of which one asks
    cases d.cancelled.reason? token? with
    | some reason => rfl
    | none =>
      cases Asked.ofValue number with
      | error fault => rfl
      | ok asked => cases reply? <;> rfl
  | _ => rfl

/-- `act` decides no lookup that was not opened under its id. -/
theorem opened_of_decided {past : List Action} {action : Action} {decision : Decision}
    (h : decision ∈ ((run {} past).1.act action).2.decided) :
    ∃ opening ∈ past ++ [action], opening.opens? = some decision.id := by
  refine Classical.byContradiction fun hnone => ?_
  -- nothing was ever opened under this name
  have hopens : ∀ opening ∈ past ++ [action], opening.opens? ≠ some decision.id :=
    fun opening hmem heq => hnone ⟨opening, hmem, heq⟩
  have hunder : (run {} past).1.under decision.id = [] :=
    (run_of_under_nil rfl fun opening hmem => hopens opening (List.mem_append_left _ hmem)).2
  -- and so there is no verdict under it
  have hverdicts := (act_of_under_nil hunder (hopens action (by simp))).1
  have hmem : decision.verdict ∈ ((run {} past).1.act action).2.verdicts decision.id :=
    List.mem_map_of_mem (List.mem_filter.mpr ⟨h, by simp⟩)
  rw [hverdicts] at hmem
  cases hmem

/-- A lookup with an id of its own takes its `Opening.course`, by a rule under which every reply
`Decides` its verdict. It is decided at most once, however many other lookups come and go or share
its token, and in whatever order replies and cancellations come. Each action asks for what
`Action.asks` says and for nothing else, and decides only lookups that were opened. -/
theorem lookup_decided_once (before after : List Action) (o : Opening)
    (hbefore : ∀ action ∈ before, action.opens? ≠ some o.id)
    (hafter : ∀ action ∈ after, action.opens? ≠ some o.id) :
    let actions := before ++ o.action :: after
    let news := (run {} actions).2
    (∃ rule : Asked → Reply → Verdict,
        (∀ asked (reply : Reply), reply.Decides asked (rule asked reply)) ∧
      news.map (·.verdicts o.id) = before.map (fun _ => []) ++ o.course rule before after) ∧
    (news.flatMap (·.verdicts o.id)).length ≤ 1 ∧
    ∀ past action future, actions = past ++ action :: future →
      ∃ now, news[past.length]? = some now ∧ now.asked = action.asks past ∧
        ∀ decision ∈ now.decided,
          ∃ opening ∈ past ++ [action], opening.opens? = some decision.id := by
  intro actions news
  -- a run from an empty desk knows the reasons of its own actions only
  have hreason (past : List Action) (token? : Option String) :
      (run {} past).1.cancelled.reason? token? = past.findSome? (Action.reason? token?) := by
    rw [reason?_run]
    cases token? <;> rfl
  obtain ⟨hnone, hunder⟩ := run_of_under_nil (d := {}) rfl hbefore
  have hcourse :
      news.map (·.verdicts o.id) = before.map (fun _ => []) ++ o.course o.rule before after := by
    show (run {} (before ++ o.action :: after)).2.map _ = _
    rw [run_append, List.map_append, hnone, run_opening hunder hafter (hreason before _)]
  refine ⟨⟨o.rule, fun asked reply =>
    Pending.decides_verdict { id := o.id, asked, token? := o.token? } reply, hcourse⟩, ?_,
    fun past action future hactions => ?_⟩
  · have honce := o.length_flatten_course o.rule before after
    rw [List.flatMap_def, hcourse]
    simpa [List.map_const'] using honce
  · refine ⟨_, ?_, asked_act (run {} past).1 past action (hreason past),
      fun decision => opened_of_decided⟩
    show (run {} actions).2[past.length]? = _
    rw [hactions, getElem?_run]

/-- A lookup whose token another one shares, and which is answered in the moment of its
cancellation. -/
def shared : Opening where
  id := "own"
  number := .number 7
  token? := some "stop"

/-- The lookups that wait before it: one with the same token, one without any. -/
def sharedBefore : List Action :=
  [.lookup "other" (.number 5) (some "stop") none, .lookup "free" (.text "12") none none]

def sharedAfter : List Action :=
  [.reply "other" (.failure (.text "gone")),
    .replyThenCancel "own" (.failure (.text "late")) "stop" (.text "enough"),
    .reply "own" (.failure (.text "later")),
    .cancel "stop" .undefined,
    .reply "free" (.failure (.text "gone"))]

/-- The block at height 12. -/
def twelfth : Value :=
  .record [("hash", .text "f"), ("number", .integer 12), ("parentHash", .text "p"),
    ("timestamp", .integer 3)]

/-- A lookup that asks for this block under a token that nobody else carries. -/
def lone : Opening where
  id := "lone"
  number := .text "12"
  token? := some "halt"

/-- It is answered, a second time too, and its token is cancelled when it is over. -/
def loneAfter : List Action :=
  [.cancel "stop" .undefined, .reply "lone" (.block twelfth), .reply "lone" (.block .null),
    .cancel "halt" .undefined]

/-- `shared` and `lone` meet the premises of `lookup_decided_once`: the one is decided by its
cancellation and the other by its reply. Answered with no block at all, `lone` fails. -/
theorem shared_decided :
    (∀ action ∈ sharedBefore, action.opens? ≠ some shared.id) ∧
    (∀ action ∈ sharedAfter, action.opens? ≠ some shared.id) ∧
    (run {} (sharedBefore ++ shared.action :: sharedAfter)).2.map (·.verdicts shared.id)
      = [[], [], [], [], [.error (.fault .lookupCancelled)], [], [], []] ∧
    (run {} (sharedBefore ++ lone.action :: loneAfter)).2.map (·.verdicts lone.id)
      = [[], [], [], [],
        [.ok { hash := "f", number := .ofInt 12, parentHash := "p", timestamp := .ofInt 3 }],
        [], []] ∧
    ∃ fault, (run {} (sharedBefore ++ lone.action :: [.reply "lone" (.block .null)])).2.map
        (·.verdicts lone.id) = [[], [], [], [.error (.fault fault)]] := by
  have hfound : Lookup.AcceptableAt 12 twelfth :=
    ⟨rfl, rfl, rfl, by decide, .ofInt 3, rfl, by decide⟩
  have hheader : Lookup.IsHeaderOf
      { hash := "f", number := .ofInt 12, parentHash := "p", timestamp := .ofInt 3 } 12 twelfth :=
    ⟨rfl, rfl, rfl, rfl, rfl⟩
  have hnull : ¬Lookup.AcceptableAt 12 .null := fun h => nomatch h.hash
  obtain ⟨⟨rule, -, hshared⟩, -⟩ :=
    lookup_decided_once sharedBefore sharedAfter shared (by decide) (by decide)
  obtain ⟨⟨rule₁, hrule₁, hlone⟩, -⟩ :=
    lookup_decided_once sharedBefore loneAfter lone (by decide) (by decide)
  obtain ⟨⟨rule₂, hrule₂, hfails⟩, -⟩ :=
    lookup_decided_once sharedBefore [.reply "lone" (.block .null)] lone (by decide) (by decide)
  have hcourse : lone.course rule₁ sharedBefore loneAfter
      = [[], [], [rule₁ ⟨"12", 12⟩ (.block twelfth)], [], []] := by rfl
  have hcourse' : lone.course rule₂ sharedBefore [.reply "lone" (.block .null)]
      = [[], [rule₂ ⟨"12", 12⟩ (.block .null)]] := by rfl
  refine ⟨by decide, by decide, hshared, ?_, ?_⟩
  · rw [hlone, hcourse]
    -- what the reply decides is the header of the block
    have hdecides := hrule₁ ⟨"12", 12⟩ (.block twelfth)
    generalize rule₁ ⟨"12", 12⟩ (.block twelfth) = verdict at hdecides ⊢
    cases hdecides with
    | resolved acceptable made =>
      rw [made.unique hheader]
      rfl
    | refused unacceptable => exact absurd hfound unacceptable
  · rw [hfails, hcourse']
    have hdecides := hrule₂ ⟨"12", 12⟩ (.block .null)
    generalize rule₂ ⟨"12", 12⟩ (.block .null) = verdict at hdecides ⊢
    cases hdecides with
    | resolved acceptable => exact absurd acceptable hnull
    | @refused _ fault => exact ⟨fault, rfl⟩

end Desk

end Settlement
