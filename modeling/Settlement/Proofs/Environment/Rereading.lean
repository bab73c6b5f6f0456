import Settlement.Proofs.Environment.Faults
import Settlement.Proofs.Number.Numeral

/-!
# Reading an accepted environment again

What was accepted can be written as an environment again: defaults are given in it, a window that
is not set is left out or given without a value, and the numbers stand there as they are. A safe
integer may also be written in digits, with blanks around them; only a minus zero would lose its
sign that way. Reading it gives back what was accepted, and loads the same settings.

## Key results

- `toNumber_of_writtenAs`: a number is read back, in whichever way it is written
- `read_of_writtenIn`: so is an accepted environment
- `reread`: reading, writing and reading again
-/

namespace Settlement

/-- `x.WrittenAs value`: a number in an environment, as it is, or in the digits of a safe integer
between blanks. -/
inductive Number.WrittenAs (x : Number) : Value → Prop
  | number : WrittenAs x (.number x)
  | digits {before after : List Char} (safe : x.isSafeInteger = true) (signless : x ≠ .negativeZero)
      (before_blank : ∀ c ∈ before, Text.isBlank c = true)
      (after_blank : ∀ c ∈ after, Text.isBlank c = true) :
      WrittenAs x (.text (String.ofList (before ++ (x.text.toList ++ after))))

/-- Writes a number in digits between blanks, if it has digits that it can be read back from
(`Number.WrittenAs`). -/
def Number.written (before after : List Char) (x : Number) : Value :=
  if x.isSafeInteger ∧ x ≠ .negativeZero then
    .text (String.ofList (before ++ (x.text.toList ++ after)))
  else .number x

namespace Environment

/-- `w.WrittenIn v environment`: a window stands in an environment for a variable. -/
def Window.WrittenIn (v : Variable) (environment : Value) : Window → Prop
  | .unset => environment.hasField v.name = false
  | .cleared => environment.hasField v.name = true ∧ environment.field v.name = .undefined
  | .blocks x => x.WrittenAs (environment.field v.name)

/-- An environment that an accepted one is written in (`Number.WrittenAs`, `Window.WrittenIn`). It
may have other variables besides. -/
structure Accepted.WrittenIn (a : Accepted) (environment : Value) : Prop where
  object : environment.kind = "object"
  lookback : a.lookback.WrittenAs (environment.field Variable.lookback.name)
  delay : a.delay.WrittenAs (environment.field Variable.delay.name)
  challengeWindow : a.challengeWindow.WrittenIn .challengeWindow environment
  resolveWindow : a.resolveWindow.WrittenIn .resolveWindow environment
  logLevel : environment.field Variable.logLevel.name = .text a.logLevel.name
  deployment : environment.field Variable.deployment.name = .text a.deployment.name

/-- A window among the variables, with its number written by `write`. -/
def Window.print (v : Variable) (write : Number → Value) : Window → List (String × Value)
  | .unset => []
  | .cleared => [(v.name, .undefined)]
  | .blocks x => [(v.name, write x)]

/-- The variables that an accepted environment stands for, with their numbers written by `write`. -/
def Accepted.print (a : Accepted) (write : Variable → Number → Value) : Value :=
  .record (
    (Variable.lookback.name, write .lookback a.lookback)
    :: (Variable.delay.name, write .delay a.delay)
    :: (a.challengeWindow.print .challengeWindow (write .challengeWindow)
      ++ a.resolveWindow.print .resolveWindow (write .resolveWindow)
      ++ [(Variable.logLevel.name, .text a.logLevel.name),
        (Variable.deployment.name, .text a.deployment.name)]))

/-- `Accepted.toValue` is `print` with the numbers as they are. -/
theorem Accepted.toValue_eq_print (a : Accepted) : a.toValue = a.print fun _ => .number := by
  unfold toValue print
  cases a.challengeWindow <;> cases a.resolveWindow <;> rfl

end Environment

/-! ## Numbers -/

/-- `Number.written` is one of the ways that `WrittenAs` allows. -/
theorem Number.writtenAs_written {before after : List Char}
    (hbefore : ∀ c ∈ before, Text.isBlank c = true) (hafter : ∀ c ∈ after, Text.isBlank c = true)
    (x : Number) : x.WrittenAs (x.written before after) := by
  unfold Number.written
  split
  · rename_i hdigits
    exact .digits hdigits.1 hdigits.2 hbefore hafter
  · exact .number

/-- `Value.toNumber` reads a number back, in whichever way it is written. -/
theorem Number.toNumber_of_writtenAs {x : Number} {value : Value} (h : x.WrittenAs value) :
    value.toNumber = .ok x := by
  cases h with
  | number => rfl
  | digits safe signless before_blank after_blank =>
    rcases isSafeInteger_iff.mp safe with rfl | ⟨n, hn, rfl⟩
    · exact absurd rfl signless
    · exact congrArg Except.ok (Text.ofText_padded hn before_blank after_blank)

namespace Environment

variable {environment printed : Value} {a : Accepted} {v : Variable} {x : Number} {least : Nat}

/-- A number that is written in an environment was given there (`number?`). -/
theorem number?_of_writtenAs (h : x.WrittenAs (environment.field v.name)) :
    number? environment v = some x := by
  have hnumber := Number.toNumber_of_writtenAs h
  unfold number?
  generalize environment.field v.name = value at h hnumber
  cases h <;> simp only [converted?, hnumber, Except.toOption]

/-- `Value.field` is `undefined` where there is no field. -/
theorem field_of_hasField_eq_false {name : String} (h : environment.hasField name = false) :
    environment.field name = .undefined := by
  cases environment with
  | record fields =>
    have hnone : fields.lookup name = none := by
      simpa [Value.hasField] using h
    simp [Value.field, hnone]
  | _ => rfl

/-- `windowOf` reads a window back. -/
theorem windowOf_of_writtenIn {w : Window} (h : w.WrittenIn v environment) :
    windowOf environment v = w := by
  cases w with
  | unset =>
    have hnone : number? environment v = none := by
      rw [number?, field_of_hasField_eq_false h]
      rfl
    simp only [windowOf, hnone]
    rw [h]
    rfl
  -- the field is there, but no number is given in it
  | cleared =>
    have hnone : number? environment v = none := by
      rw [number?, h.2]
      rfl
    simp only [windowOf, hnone, h.1, if_true]
  | blocks x =>
    simp only [windowOf, number?_of_writtenAs h]

/-! ## Environments -/

/-- `accepted` reads an environment back from its variables, however they are written. -/
theorem accepted_of_writtenIn (h : a.WrittenIn printed) : accepted printed = a := by
  -- names are read back as they were written
  have hlevel : (text? printed .logLevel).bind Level.ofName? = some a.logLevel := by
    rw [text?, h.logLevel]
    exact Level.ofName?_name a.logLevel
  have hdeployment : (text? printed .deployment).bind Deployment.ofName? = some a.deployment := by
    rw [text?, h.deployment]
    exact Deployment.ofName?_name a.deployment
  unfold accepted
  -- and so are the numbers
  rw [number?_of_writtenAs h.lookback, number?_of_writtenAs h.delay,
    windowOf_of_writtenIn h.challengeWindow, windowOf_of_writtenIn h.resolveWindow, hlevel,
    hdeployment]
  rfl

/-- A window can be converted (`Value.toNumber`), whether it is set or not. -/
theorem exists_toNumber_of_writtenIn {w : Window} (h : w.WrittenIn v printed) :
    ∃ x, (printed.field v.name).toNumber = .ok x := by
  cases w with
  | unset => exact ⟨.nan, by rw [field_of_hasField_eq_false h]; rfl⟩
  | cleared => exact ⟨.nan, by rw [h.2]; rfl⟩
  | blocks x => exact ⟨x, Number.toNumber_of_writtenAs h⟩

/-- An environment that an accepted one is written in `Converts`. -/
theorem converts_of_writtenIn (h : a.WrittenIn printed) : Converts printed := by
  intro v least hdemand
  -- the four numbers convert, and nothing else is asked to
  cases v with
  | lookback => exact ⟨_, Number.toNumber_of_writtenAs h.lookback⟩
  | delay => exact ⟨_, Number.toNumber_of_writtenAs h.delay⟩
  | challengeWindow => exact exists_toNumber_of_writtenIn h.challengeWindow
  | resolveWindow => exact exists_toNumber_of_writtenIn h.resolveWindow
  | logLevel => exact nomatch hdemand
  | deployment => exact nomatch hdemand

/-- `Accepted.print` writes an accepted environment, in every way to write numbers. -/
theorem writtenIn_print {write : Variable → Number → Value}
    (h : ∀ (v : Variable) (x : Number), x.WrittenAs (write v x)) (a : Accepted) :
    a.WrittenIn (a.print write) := by
  obtain ⟨lookback, delay, challenge, resolve, level, deployment⟩ := a
  constructor
  case object => rfl
  case lookback => exact h .lookback lookback
  case delay => exact h .delay delay
  -- which fields there are depends on which windows are set
  case challengeWindow =>
    cases challenge <;> cases resolve <;>
      first | rfl | exact ⟨rfl, rfl⟩ | exact h .challengeWindow _
  case resolveWindow =>
    cases challenge <;> cases resolve <;>
      first | rfl | exact ⟨rfl, rfl⟩ | exact h .resolveWindow _
  case logLevel => cases challenge <;> cases resolve <;> rfl
  case deployment => cases challenge <;> cases resolve <;> rfl

/-! ## Faults -/

/-- `Demand.faults` are the same in whichever way a number is written. -/
theorem faults_of_writtenAs {value : Value} (h : x.WrittenAs value)
    (hx : numberFaults v least x = []) : (Demand.integer least).faults v value = [] := by
  have hnumber := Number.toNumber_of_writtenAs h
  cases value with
  | undefined => rfl
  | _ => simpa only [Demand.faults, hnumber] using hx

/-- A window without `numberFaults` has no `ownFaults` where it is written. -/
theorem ownFaults_of_writtenIn {w : Window} (h : w.WrittenIn v printed)
    (hdemand : v.demand = .integer least)
    (hx : ∀ x, w.blocks? = some x → numberFaults v least x = []) : ownFaults printed v = [] := by
  unfold ownFaults
  rw [hdemand]
  cases w with
  | unset => rw [field_of_hasField_eq_false h]; rfl
  | cleared => rw [h.2]; rfl
  | blocks x => exact faults_of_writtenAs h (hx x rfl)

/-- Neither a default nor a number that was given without `ownFaults` has `numberFaults`. -/
theorem numberFaults_getD (hconverts : Converts environment) (hdemand : v.demand = .integer least)
    (hown : ownFaults environment v = []) {default : Nat}
    (hdefault : numberFaults v least (.whole default) = []) :
    numberFaults v least ((number? environment v).getD (.whole default)) = [] := by
  cases hx : number? environment v with
  | none => exact hdefault
  | some x => exact numberFaults_of_number? hconverts hdemand hown hx

/-- What is `accepted` from an environment without `faults` is written without `faults`. -/
theorem faults_of_writtenIn (hconverts : Converts environment) (hnone : faults environment = [])
    (h : (accepted environment).WrittenIn printed) : faults printed = [] := by
  have hown := ownFaults_eq_nil hnone
  have hblocks : ∀ (v : Variable), v.demand = .integer 0 → ∀ x,
      (windowOf environment v).blocks? = some x → numberFaults v 0 x = [] := by
    intro v hdemand x hx
    rw [blocks?_windowOf] at hx
    exact numberFaults_of_number? hconverts hdemand (hown v) hx
  -- every variable is one that was read, or a default
  have hclean : ∀ v : Variable, ownFaults printed v = [] := by
    intro v
    cases v with
    | lookback =>
      exact faults_of_writtenAs h.lookback
        (numberFaults_getD hconverts rfl (hown .lookback) (by decide))
    | delay =>
      exact faults_of_writtenAs h.delay (numberFaults_getD hconverts rfl (hown .delay) (by decide))
    | challengeWindow => exact ownFaults_of_writtenIn h.challengeWindow rfl (hblocks _ rfl)
    | resolveWindow => exact ownFaults_of_writtenIn h.resolveWindow rfl (hblocks _ rfl)
    | logLevel =>
      rw [ownFaults, h.logLevel]
      cases (accepted environment).logLevel <;> rfl
    | deployment =>
      rw [ownFaults, h.deployment]
      cases (accepted environment).deployment <;> rfl
  have hflat : Variable.all.flatMap (ownFaults printed) = [] :=
    List.flatMap_eq_nil_iff.mpr fun v _ => hclean v
  -- the two windows are the same on both sides, so they are still set together
  have hpair : pairFaults printed = [] := by
    rw [← pairIssues_accepted (converts_of_writtenIn h), accepted_of_writtenIn h,
      pairIssues_accepted hconverts]
    exact pairFaults_eq_nil hnone
  simp only [faults, hflat, hpair, ite_self, List.append_nil]

/-- `read` accepts again what it accepted, wherever that is written. -/
theorem read_of_writtenIn (hread : read environment = .ok (.ok a)) (h : a.WrittenIn printed) :
    read printed = .ok (.ok a) := by
  obtain ⟨-, hconverts, hnone, rfl⟩ := accepted_of_read hread
  rw [read_eq h.object (converts_of_writtenIn h), if_pos (faults_of_writtenIn hconverts hnone h),
    accepted_of_writtenIn h]

/-- `read` accepts an accepted environment again as it is (`Accepted.toValue`), and it is the same
wherever it is written (`Accepted.WrittenIn`): with its numbers as they are or in digits between
blanks, and among other variables. `Settings.load` gives the same settings as well. -/
theorem reread (h : read environment = .ok (.ok a)) :
    read a.toValue = .ok (.ok a) ∧
    (∀ printed : Value, a.WrittenIn printed →
      read printed = .ok (.ok a) ∧ Settings.load printed = Settings.load environment) ∧
    ∀ before after : Variable → List Char,
      (∀ v, ∀ c ∈ before v ++ after v, Text.isBlank c = true) →
      a.WrittenIn (a.print fun v => Number.written (before v) (after v)) := by
  refine ⟨?_, fun printed hprinted => ?_, fun before after hblank => ?_⟩
  -- as plain data, in any spelling, and padded
  · rw [Accepted.toValue_eq_print]
    exact read_of_writtenIn h (writtenIn_print (fun _ _ => .number) a)
  · have hread := read_of_writtenIn h hprinted
    exact ⟨hread, by rw [Settings.load, Settings.load, hread, h]⟩
  · exact writtenIn_print (fun v => Number.writtenAs_written
      (fun c hc => hblank v c (List.mem_append_left _ hc))
      (fun c hc => hblank v c (List.mem_append_right _ hc))) a

/-- Numbers that are spelled in other ways than their digits, one of them a minus zero, next to a
window without a value. -/
def spelled : Value :=
  .record [(Variable.delay.name, .text "-0"), (Variable.lookback.name, .list [.text " 0x10 "]),
    (Variable.resolveWindow.name, .undefined), (Variable.deployment.name, .text "test")]

/-- `spelled` is read again with the minus zero written as it is, and the other number in digits. -/
theorem spelled_reread :
    ∃ a : Accepted, read spelled = .ok (.ok a) ∧ a.lookback = .whole 16 ∧
      a.delay = .negativeZero ∧ a.challengeWindow = .unset ∧ a.resolveWindow = .cleared ∧
      read a.toValue = .ok (.ok a) ∧
      (a.print fun _ => Number.written ['\t'] ['\u00a0']).field Variable.lookback.name
        = .text "\t16\u00a0" ∧
      read (a.print fun _ => Number.written ['\t'] ['\u00a0']) = .ok (.ok a) := by
  let a : Accepted := {
    lookback := .whole 16
    delay := .negativeZero
    challengeWindow := .unset
    resolveWindow := .cleared
    logLevel := .info
    deployment := .test }
  have h : read spelled = .ok (.ok a) := by rfl
  obtain ⟨hvalue, hread, hprint⟩ := reread h
  -- a tab and a no-break space are blanks
  have hblank : ∀ c ∈ ['\t'] ++ ['\u00a0'], Text.isBlank c = true :=
    List.all_eq_true.mp (by decide)
  have hprinted := hprint (fun _ => ['\t']) (fun _ => ['\u00a0']) fun _ => hblank
  have hwritten : Number.written ['\t'] ['\u00a0'] (.whole 16) = .text "\t16\u00a0" := by
    rw [Number.written, if_pos (by decide)]
    exact congrArg Value.text (by decide +kernel)
  exact ⟨a, h, rfl, rfl, rfl, rfl, hvalue, hwritten, (hread _ hprinted).1⟩

end Environment

end Settlement
