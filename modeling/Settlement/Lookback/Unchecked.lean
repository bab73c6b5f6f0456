import Settlement.Lookback
import Settlement.Block.Unchecked

/-!
# Unchecked sizings

A sizing as it comes, before anything is known of it: `Value.lookback` computes the number of
links to keep from whatever stands in its fields. Without windows that is the lookback as given.
With windows it is a number, so the lookback and the sum of the windows are read as numbers;
windows that are texts are joined and not added.

On a value that is a sizing this is its lookback (`Value.lookback_toValue`).
-/

namespace Settlement

namespace Value

/-- `Sizing.lookback` from a sizing of any shape. -/
def lookback (sizing : Value) : Except Fault Value :=
  match sizing with
  | .undefined => .ok (.number (.whole defaultLookback))
  | sizing => do
    let given ← sizing.member "defaultLookback"
    let least := given.orElse (.number (.whole defaultLookback))
    match sizing.field "altDA" with
    | .undefined => return least
    | windows =>
      let challenge ← windows.member "challengeWindow"
      let resolve ← windows.member "resolveWindow"
      -- from left to right: texts are joined before the block itself is counted
      let sum ← (← challenge.add resolve).add (.number 1)
      return .number ((← least.toOperand).max (← sum.toOperand))

/-- `Sizing.delay` from a sizing of any shape, as it was given. -/
def delay (sizing : Value) : Value :=
  (sizing.field "finalityDelay").orElse (.number (.whole defaultDelay))

end Value

/-! ## Values that are sizings -/

/-- Windows as a record. -/
def Windows.toValue (w : Windows) : Value :=
  .record [("challengeWindow", .number w.challenge), ("resolveWindow", .number w.resolve)]

/-- A `number`, or `undefined`. -/
def Value.ofNumber? : Option Number → Value
  | some x => .number x
  | none => .undefined

/-- A sizing as a record. What is not given is a field that is `undefined`. -/
def Sizing.toValue (s : Sizing) : Value :=
  .record [("defaultLookback", .ofNumber? s.lookback?),
    ("altDA", match s.windows? with
      | some w => w.toValue
      | none => .undefined),
    ("finalityDelay", .ofNumber? s.delay?)]

namespace Value

/-- `Value.orElse` on an optional number is `Option.getD`. -/
theorem orElse_ofNumber? (x? : Option Number) (default : Number) :
    (ofNumber? x?).orElse (.number default) = .number (x?.getD default) := by
  cases x? <;> rfl

/-- `Value.delay` on a sizing is `Sizing.delay`. -/
theorem delay_toValue (s : Sizing) : s.toValue.delay = .number s.delay :=
  orElse_ofNumber? _ _

/-- `Value.lookback` on a sizing is `Sizing.lookback`. -/
theorem lookback_toValue (s : Sizing) : s.toValue.lookback = .ok (.number s.lookback) := by
  obtain ⟨lookback?, windows?, delay?⟩ := s
  cases lookback? <;> cases windows? <;> rfl

end Value

end Settlement
