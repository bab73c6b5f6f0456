import Settlement.Block.Basic
import Settlement.Proofs.Session.Moves

/-!
# What can be told

What each step of a session shows is its sight (`Progress.sight`, `Session.watch`). The numbers by
which passes, resets and lookups are told apart inside are no part of it.

What can be told of events from outside is the same for passes that got different replies, as long
as the same came of them (`Event.told`).

The sign of a zero is a matter of its own. A height of minus zero is the height zero, and no text
tells the two apart; but over RPC a height is sent as an exact integer, which has no sign if it is
zero. So there are two ways to look at a height (`Number.told`): with the sign of a zero, and
without. Besides what is asked for, a height stands in one kind of fault, that there is no block at
it, and so in whatever failed because of that.

## Key results

- `Log.noticeLines_told`: the lines of a log do not show the sign of a zero
- `Sight.told_eq_of_told`: what a step shows follows from what can be told of its events
-/

namespace Settlement

/-! ## Sights -/

/-- What a step shows: the notices, the heights asked for, the reports by label, and what the
session knows afterwards. -/
structure Sight where
  notices : List Notice
  heights : List Number
  ended : List (String × Report)
  signal : Header
  lastTried : Number
  links : List Link
  engine : Engine
  /-- The heights of the lookups that wait at the node. -/
  held : List Number

/-- The `Sight` of a session and its events. -/
def Progress.sight (p : Progress) : Sight where
  notices := Event.notices p.2
  heights := Event.heights p.2
  ended := (Event.endings p.2).map fun ended => (ended.1.label, ended.1.report ended.2)
  signal := p.1.tracker.signal
  lastTried := p.1.tracker.lastTried
  links := p.1.tracker.links.toList
  engine := p.1.engine
  held := p.1.node.held.map Held.height

/-- The `Sight` of every step of a run. -/
def Session.watch (s : Session) : List (List Session.Action) → List Sight
  | [] => []
  | actions :: rest => (s.step actions).sight :: (s.step actions).1.watch rest

/-! ## Heights -/

variable {signed : Bool}

namespace Number

/-- The number without the sign of a zero. -/
def unsigned : Number → Number
  | .negativeZero => 0
  | x => x

/-- The number as it is told: with the sign of a zero if `signed`, and `unsigned` otherwise. -/
def told (signed : Bool) (x : Number) : Number := if signed then x else x.unsigned

/-- The number is a block number, and not minus zero if `signed`. -/
def isPlain (signed : Bool) (x : Number) : Bool :=
  x.isBlockNumber && (!signed || x != .negativeZero)

@[simp] theorem told_true (x : Number) : x.told true = x := rfl

/-- `text` does not show the sign of a zero. -/
@[simp] theorem text_told (x : Number) : (x.told signed).text = x.text := by
  cases signed <;> cases x <;> rfl

/-- `unsigned` forgets what `told` shows. -/
@[simp] theorem unsigned_told (x : Number) : (x.told signed).unsigned = x.unsigned := by
  cases signed <;> cases x <;> rfl

/-- `text` does not show the sign of a zero. -/
@[simp] theorem text_unsigned (x : Number) : x.unsigned.text = x.text := by
  cases x <;> rfl

/-- `sameKey` does not see the sign of a zero. -/
@[simp] theorem sameKey_unsigned (x y : Number) : x.sameKey y.unsigned = x.sameKey y := by
  cases x <;> cases y <;> rfl

/-- `unsigned` does not change how a plain number is `told`. -/
theorem told_unsigned {x : Number} (h : x.isPlain signed = true) :
    x.unsigned.told signed = x.told signed := by
  cases signed <;> cases x <;> first | rfl | cases h

/-- `told` determines `unsigned`. -/
theorem unsigned_eq_of_told {x y : Number} (h : x.told signed = y.told signed) :
    x.unsigned = y.unsigned := by
  simpa using congrArg unsigned h

/-- `isPlain` implies `isBlockNumber`. -/
theorem isBlockNumber_of_isPlain {x : Number} (h : x.isPlain signed = true) :
    x.isBlockNumber = true :=
  (Bool.and_eq_true_iff.mp h).1

end Number

namespace Fault

/-- The fault with its height as it is `Number.told`. -/
def told (signed : Bool) : Fault → Fault
  | .noBlock height => .noBlock (height.told signed)
  | fault => fault

/-- `message` is the same for a fault as it is `told`. -/
@[simp] theorem message_told (f : Fault) : (f.told signed).message = f.message := by
  unfold told
  split
  · -- of all faults this one alone has a height in its message
    rename_i height
    show "no block " ++ (height.told signed).text = "no block " ++ height.text
    rw [Number.text_told]
  · rfl

@[simp] theorem told_true (f : Fault) : f.told true = f := by
  cases f <;> rfl

end Fault

namespace Value

/-- The reason with its fault as it is `Fault.told`. -/
def told (signed : Bool) : Value → Value
  | .fault f => .fault (f.told signed)
  | v => v

/-- `errorMessage?` is the same for a reason as it is `told`. -/
@[simp] theorem errorMessage?_told (v : Value) :
    (v.told signed).errorMessage? = v.errorMessage? := by
  cases v with
  | fault f => simp [told, errorMessage?]
  | _ => rfl

/-- `errorTrace` is the same for a reason as it is `told`. -/
@[simp] theorem errorTrace_told (v : Value) : (v.told signed).errorTrace = v.errorTrace := by
  cases v with
  | fault f => simp [told, errorTrace]
  | _ => rfl

/-- `told` with the sign is the reason itself. -/
@[simp] theorem told_true (v : Value) : v.told true = v := by
  cases v with
  | fault f => simp [told]
  | _ => rfl

end Value

namespace Failure

/-- The failure with its cause as it is `Value.told`. -/
def told (signed : Bool) (f : Failure) : Failure :=
  { f with cause? := f.cause?.map (Value.told signed) }

/-- `told` goes into the cause of a failure. -/
theorem told_of (kind : FailureKind) (message : String) (cause : Value) :
    (Failure.of kind message cause).told signed = .of kind message (cause.told signed) := by
  cases cause <;> rfl

/-- `fullMessage` is the same for a failure as it is `told`. -/
@[simp] theorem fullMessage_told (f : Failure) : (f.told signed).fullMessage = f.fullMessage := by
  cases hcause : f.cause? <;> simp [told, fullMessage, hcause]

/-- `causeTraces` is the same for a failure as it is `told`. -/
@[simp] theorem causeTraces_told (f : Failure) : (f.told signed).causeTraces = f.causeTraces := by
  cases hcause : f.cause? <;> simp [told, causeTraces, Value.causeTrace?, Value.isError, hcause]

@[simp] theorem told_true (f : Failure) : f.told true = f := by
  obtain ⟨kind, message, cause?⟩ := f
  cases cause? <;> simp [told]

end Failure

/-! ## Notices -/

/-- The notice with its failure as it is `Failure.told`. -/
def Notice.told (signed : Bool) : Notice → Notice
  | .failed failure signal => .failed (failure.told signed) signal
  | notice => notice

@[simp] theorem Notice.told_true (n : Notice) : n.told true = n := by
  cases n <;> simp [told]

/-- `detailTexts` are the same for a notice as it is `told`. -/
theorem Log.detailTexts_told (n : Notice) :
    detailTexts (n.told signed).details = detailTexts n.details := by
  cases n with
  | failed failure signal =>
    have hdetail : detailValue (.failure (failure.told signed))
        = detailValue (.failure failure) := by
      simp only [detailValue, Failure.fullMessage_told, Failure.causeTraces_told]
      rfl
    simp only [Notice.told, Notice.details, detailTexts, hdetail]
    rfl
  | _ => rfl

/-- `noticeLines` are the same for notices as they are `told`. -/
theorem Log.noticeLines_told (threshold : Threshold) (notices : List Notice) :
    noticeLines threshold (notices.map (Notice.told signed)) = noticeLines threshold notices := by
  induction notices with
  | nil => rfl
  | cons n notices ih =>
    -- heights stand in the causes of failures, and these among the details only
    have hlevel : (n.told signed).level = n.level := by cases n <;> rfl
    have hmessage : (n.told signed).message = n.message := by cases n <;> rfl
    simp only [List.map_cons, noticeLines, hlevel, hmessage, detailTexts_told, ih]

/-! ## Ends of passes -/

/-- The outcome with its failure as it is `Failure.told`. -/
def Outcome.told (signed : Bool) : Outcome → Outcome
  | .ok => .ok
  | .failed failure => .failed (failure.told signed)

@[simp] theorem Outcome.told_true (o : Outcome) : o.told true = o := by
  cases o <;> simp [told]

/-- The ending with its failure or its reason as it is `told`. -/
def Ending.told (signed : Bool) : Ending → Ending
  | .judged outcome => .judged (outcome.told signed)
  | .raised reason => .raised (reason.told signed)
  | ending => ending

/-- The report with its failure or its reason as it is `told`. -/
def Report.told (signed : Bool) : Report → Report
  | .done => .done
  | .outcome o => .outcome (o.told signed)
  | .raised reason => .raised (reason.told signed)

@[simp] theorem Report.told_true (r : Report) : r.told true = r := by
  cases r <;> simp [told]

/-- `report` commutes with `told`. -/
theorem Pass.report_told (pass : Pass) (ending : Ending) :
    pass.report (ending.told signed) = (pass.report ending).told signed := by
  obtain ⟨number, label, signal | boundary, token?⟩ := pass <;> cases ending <;> rfl

/-- `endNotices` commute with `told`. -/
theorem Pass.endNotices_told (pass : Pass) (ending : Ending) :
    pass.endNotices (ending.told signed) = (pass.endNotices ending).map (Notice.told signed) := by
  obtain ⟨number, label, signal | boundary, token?⟩ := pass
  · cases ending with
    | judged outcome => cases outcome <;> rfl
    | _ => rfl
  · rfl

/-! ## Events -/

namespace Event

/-- The event as it is `told`. A reply is not told at all. -/
def told? (signed : Bool) : Event → Option Event
  | .answered _ _ _ => none
  | .asked pass height => some (.asked pass (height.told signed))
  | .ended pass ending => some (.ended pass (ending.told signed))
  | .noted notice => some (.noted (notice.told signed))
  | event => some event

/-- The events as they are told, without the replies. -/
def told (signed : Bool) (events : List Event) : List Event := events.filterMap (told? signed)

@[simp] theorem told_append (xs ys : List Event) :
    told signed (xs ++ ys) = told signed xs ++ told signed ys := List.filterMap_append

/-- `notices` commute with `told`. -/
theorem notices_told (events : List Event) :
    notices (told signed events) = (notices events).map (Notice.told signed) := by
  simp only [notices, told, List.filterMap_filterMap, List.map_filterMap]
  congr
  funext e
  cases e <;> rfl

/-- `heights` commute with `told`. -/
theorem heights_told (events : List Event) :
    heights (told signed events) = (heights events).map (Number.told signed) := by
  simp only [heights, told, List.filterMap_filterMap, List.map_filterMap]
  congr
  funext e
  cases e <;> rfl

/-- `endings` commute with `told`. -/
theorem endings_told (events : List Event) :
    endings (told signed events)
      = (endings events).map fun ended => (ended.1, ended.2.told signed) := by
  simp only [endings, told, List.filterMap_filterMap, List.map_filterMap]
  congr
  funext e
  cases e <;> rfl

end Event

/-! ## Sights -/

namespace Sight

/-- The sight with every number and every reason in it as it is `told`. -/
def told (signed : Bool) (sight : Sight) : Sight :=
  { sight with
    notices := sight.notices.map (Notice.told signed)
    heights := sight.heights.map (Number.told signed)
    ended := sight.ended.map fun ended => (ended.1, ended.2.told signed)
    held := sight.held.map (Number.told signed) }

/-- `told` with the sign is the sight itself. -/
@[simp] theorem told_true (sight : Sight) : sight.told true = sight := by
  have hnotices : Notice.told true = id := funext Notice.told_true
  have hheights : Number.told true = id := rfl
  simp [told, hnotices, hheights]

/-- `sight` depends on the events as they are `told`, the tracker, the engine and the heights that
wait. -/
theorem told_eq_of_told {p q : Progress} (h : Event.told signed p.2 = Event.told signed q.2)
    (htracker : p.1.tracker = q.1.tracker) (hengine : p.1.engine = q.1.engine)
    (hheld : p.1.node.held.map (·.height.told signed)
      = q.1.node.held.map (·.height.told signed)) :
    p.sight.told signed = q.sight.told signed := by
  have hnotices : (Event.notices p.2).map (Notice.told signed)
      = (Event.notices q.2).map (Notice.told signed) := by
    rw [← Event.notices_told, h, Event.notices_told]
  have hheights : (Event.heights p.2).map (Number.told signed)
      = (Event.heights q.2).map (Number.told signed) := by
    rw [← Event.heights_told, h, Event.heights_told]
  have hendings : (Event.endings p.2).map (fun ended => (ended.1, ended.2.told signed))
      = (Event.endings q.2).map fun ended => (ended.1, ended.2.told signed) := by
    rw [← Event.endings_told, h, Event.endings_told]
  -- what a pass reports is told of its end, so the reports agree where the ends do
  have hended : (Event.endings p.2).map
        (fun ended => (ended.1.label, (ended.1.report ended.2).told signed))
      = (Event.endings q.2).map
          fun ended => (ended.1.label, (ended.1.report ended.2).told signed) := by
    have hreports := congrArg (List.map fun ended : Pass × Ending =>
      (ended.1.label, ended.1.report ended.2)) hendings
    simpa [Function.comp_def, Pass.report_told] using hreports
  simp [told, Progress.sight, hnotices, hheights, hended, htracker, hengine, hheld,
    Function.comp_def]

end Sight

end Settlement
