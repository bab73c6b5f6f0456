import Settlement.Environment.Settings
import Settlement.Proofs.Number.Order
import Settlement.Proofs.Number.Safe

/-!
# Faults in an environment

What is wrong with an environment, said variable by variable: each of them has its demand, and a
value that was given either meets it or has faults of its own. Some faults leave no value at all.
Where there is one for every variable, the two windows have to be set together.

Reading an environment reports exactly these faults, in this order, and accepts an environment
that has none.

## Key results

- `load_reports`: loading reports all faults, and loads what was given if there are none
- `accepted_of_read`, `exact_of_load`: nothing is accepted or loaded from other environments
-/

namespace Settlement.Environment

/-! ## Demands -/

/-- What the value of a variable has to be (`Variable.demand`). -/
inductive Demand where
  /-- An integer that is not below this one. -/
  | integer (least : Nat)
  /-- One of these texts. -/
  | oneOf (choices : List String)
  deriving DecidableEq, Repr

namespace Variable

/-- Every variable, in the order in which `faults` reports them. -/
def all : List Variable :=
  [.lookback, .delay, .challengeWindow, .resolveWindow, .logLevel, .deployment]

/-- The demand on each variable. -/
def demand : Variable → Demand
  | .lookback => .integer 1
  | .delay | .challengeWindow | .resolveWindow => .integer 0
  | .logLevel => .oneOf (Level.all.map Level.name)
  | .deployment => .oneOf (Deployment.all.map Deployment.name)

end Variable

/-- Whether a fault leaves no value of its variable (`Reading.value?`). -/
def Issue.aborts : Issue → Bool
  | .notAnInteger _ | .tooSmall _ _ | .unpaired _ => false
  | _ => true

/-- The faults of a number, which has to be an integer and not below `least`. -/
def numberFaults (v : Variable) (least : Nat) (x : Number) : List Issue :=
  if x = .nan then [.notANumber v]
  else (if x.toInt? = none then [.notAnInteger v] else [])
    ++ if x < .whole least then [.tooSmall v least] else []

/-- The faults of a value with a demand on it. One that is not given has none. -/
def Demand.faults (v : Variable) : Demand → Value → List Issue
  | _, .undefined => []
  | .integer least, value =>
    match value.toNumber with
    | .error _ => []
    | .ok x => numberFaults v least x
  | .oneOf choices, .text s => if s ∈ choices then [] else [.unknownChoice v choices s]
  | .oneOf choices, value => [.notAChoice v choices value.kind]

/-- The faults of a variable of an environment (`Variable.demand`). -/
def ownFaults (environment : Value) (v : Variable) : List Issue :=
  v.demand.faults v (environment.field v.name)

/-- The fault of the windows together: one is given, and the other is not. -/
def pairFaults (environment : Value) : List Issue :=
  match environment.given Variable.challengeWindow.name,
    environment.given Variable.resolveWindow.name with
  | true, false => [.unpaired .resolveWindow]
  | false, true => [.unpaired .challengeWindow]
  | _, _ => []

/-- Everything that is wrong with an environment: `ownFaults` of each variable, then `pairFaults`
unless one of them aborts. -/
def faults (environment : Value) : List Issue :=
  let own := Variable.all.flatMap (ownFaults environment)
  own ++ if own.any Issue.aborts then [] else pairFaults environment

/-- The numbers of an environment can be converted (`Value.toNumber`), also to NaN. -/
def Converts (environment : Value) : Prop :=
  ∀ (v : Variable) (least : Nat), v.demand = .integer least →
    ∃ x, (environment.field v.name).toNumber = .ok x

/-! ## What is loaded -/

/-- The number that a value is converted to (`Value.toNumber`), if one was given. -/
def converted? : Value → Option Number
  | .undefined => none
  | value => value.toNumber.toOption

/-- The number given for a variable (`converted?`). -/
def number? (environment : Value) (v : Variable) : Option Number :=
  converted? (environment.field v.name)

/-- The text given for a variable (`Value.text?`). -/
def text? (environment : Value) (v : Variable) : Option String := (environment.field v.name).text?

/-- `IsIntegerFrom least x`: a number is an integer, and not below `least`. -/
def IsIntegerFrom (least : Nat) (x : Number) : Prop := ∃ n : Int, x.toInt? = some n ∧ least ≤ n

/-- `Loads environment settings`: each number that was given is there, converted (`number?`), and
each other variable has its default. All of them are in their bounds. -/
structure Loads (environment : Value) (settings : Settings) : Prop where
  lookback : settings.sizing.lookback? =
    some ((number? environment .lookback).getD (.whole defaultLookback))
  delay : settings.sizing.delay? = some ((number? environment .delay).getD (.whole defaultDelay))
  windows : settings.sizing.windows? =
    (number? environment .challengeWindow).bind fun challenge =>
      (number? environment .resolveWindow).map fun resolve => { challenge, resolve }
  paired : (number? environment .challengeWindow).isSome =
    (number? environment .resolveWindow).isSome
  logLevel : settings.logLevel.name = (text? environment .logLevel).getD Level.info.name
  deployment : settings.deployment.name =
    (text? environment .deployment).getD Deployment.development.name
  lookback_from : ∀ x ∈ settings.sizing.lookback?, IsIntegerFrom 1 x
  delay_from : ∀ x ∈ settings.sizing.delay?, IsIntegerFrom 0 x
  windows_from : ∀ w ∈ settings.sizing.windows?,
    IsIntegerFrom 0 w.challenge ∧ IsIntegerFrom 0 w.resolve

/-! ## Readings -/

variable {environment : Value} {v : Variable} {least : Nat}

/-- `r.Reports issues value`: a reading has these issues, and this value unless one of them
aborts. -/
structure Reading.Reports {α : Type} (r : Reading α) (issues : List Issue) (value : α) : Prop where
  issues_eq : r.issues = issues
  value?_eq : r.value? = if issues.any Issue.aborts then none else some value

/-- `Reading.map` changes the value that is reported and leaves the issues. -/
theorem Reading.Reports.map {α β : Type} {r : Reading α} {issues : List Issue} {value : α}
    (h : r.Reports issues value) (f : α → β) : (r.map f).Reports issues (f value) := by
  obtain ⟨rfl, hvalue⟩ := h
  -- whether an issue aborts does not depend on the value
  cases r with
  | accepted given => exact ⟨rfl, congrArg (Option.map f) hvalue⟩
  | flagged given issues =>
    refine ⟨rfl, ?_⟩
    have hmap := congrArg (Option.map f) hvalue
    rw [apply_ite (Option.map f)] at hmap
    exact hmap
  | refused issues =>
    refine ⟨rfl, ?_⟩
    have hmap := congrArg (Option.map f) hvalue
    rw [apply_ite (Option.map f)] at hmap
    exact hmap

/-- `numberIssues` of a number are its `numberFaults`, unless it is `nan`. -/
theorem numberIssues_eq {x : Number} (hx : x ≠ .nan) (v : Variable) (least : Nat) :
    numberIssues v least x = numberFaults v least x := by
  -- the two conditions of an issue, in the words of a fault
  have hint : (if x.toInt?.isSome then [] else [Issue.notAnInteger v])
      = if x.toInt? = none then [.notAnInteger v] else [] := by
    cases x.toInt? <;> rfl
  have hleast : (if .whole least ≤ x then [] else [Issue.tooSmall v least])
      = if x < .whole least then [.tooSmall v least] else [] := by
    by_cases hlt : x < .whole least
    · rw [if_pos hlt, if_neg (Number.not_le_of_lt hlt)]
    · rw [if_neg hlt, if_pos (Number.le_of_not_lt hx Number.noConfusion hlt)]
  rw [numberIssues, numberFaults, if_neg hx, hint, hleast]

/-- `numberFaults` abort only for `nan`. -/
theorem not_aborts_numberFaults {x : Number} (hx : x ≠ .nan) :
    (numberFaults v least x).any Issue.aborts = false := by
  rw [numberFaults, if_neg hx]
  split <;> split <;> rfl

/-- `readNumber` reports the `numberFaults` of what the value is converted to, and reads that. -/
theorem readNumber_eq {value : Value} {x : Number} (h : value.toNumber = .ok x) (v : Variable)
    (least : Nat) :
    ∃ r, readNumber v least value = .ok r ∧ r.Reports (numberFaults v least x) x := by
  by_cases hx : x = .nan
  · subst hx
    refine ⟨.refused [.notANumber v], ?_, rfl, rfl⟩
    simp only [readNumber, h]
  · have haborts : (numberFaults v least x).any Issue.aborts = false := not_aborts_numberFaults hx
    have hread : (numberFaults v least x = [] → readNumber v least value = .ok (.accepted x)) ∧
        ∀ issue issues, numberFaults v least x = issue :: issues →
          readNumber v least value = .ok (.flagged x (issue :: issues)) := by
      rw [← numberIssues_eq hx]
      unfold readNumber
      rw [h]
      constructor
      · intro hnone
        cases x <;> first | exact absurd rfl hx | simp only [hnone]
      · intro issue issues hsome
        cases x <;> first | exact absurd rfl hx | simp only [hsome]
    -- without faults it is accepted, and with some it is flagged
    cases hfaults : numberFaults v least x with
    | nil => exact ⟨.accepted x, hread.1 hfaults, rfl, rfl⟩
    | cons issue issues =>
      rw [hfaults] at haborts
      refine ⟨.flagged x (issue :: issues), hread.2 issue issues hfaults, rfl, ?_⟩
      rw [haborts]
      rfl

/-- `readNumberOr` reports the faults of a value that is given, and reads the default otherwise. -/
theorem readNumberOr_eq {value : Value} {x : Number} (h : value.toNumber = .ok x) (default : Nat)
    (v : Variable) (least : Nat) :
    ∃ r, readNumberOr default v least value = .ok r ∧
      r.Reports ((Demand.integer least).faults v value)
        ((converted? value).getD (.whole default)) := by
  cases value with
  | undefined => exact ⟨.accepted (.whole default), rfl, rfl, rfl⟩
  | _ =>
    simp only [readNumberOr, Demand.faults, converted?, h, Except.toOption, Option.getD_some]
    exact readNumber_eq h v least

/-- The window that stands in an environment for a variable, as `readWindow` reads it. -/
def windowOf (environment : Value) (v : Variable) : Window :=
  match number? environment v with
  | some x => .blocks x
  | none => if environment.hasField v.name then .cleared else .unset

/-- `windowOf` is set to the number that is given. -/
theorem blocks?_windowOf (environment : Value) (v : Variable) :
    (windowOf environment v).blocks? = number? environment v := by
  unfold windowOf
  cases number? environment v with
  | some x => rfl
  | none =>
    dsimp only
    split <;> rfl

/-- `readWindow` reports the `ownFaults` of a window and reads `windowOf`. -/
theorem readWindow_eq {x : Number} (hdemand : v.demand = .integer 0)
    (h : (environment.field v.name).toNumber = .ok x) :
    ∃ r, readWindow v environment = .ok r ∧
      r.Reports (ownFaults environment v) (windowOf environment v) := by
  unfold readWindow ownFaults windowOf number?
  rw [hdemand]
  generalize environment.field v.name = value at h
  cases value with
  -- a window that is not given has no faults
  | undefined => exact ⟨_, rfl, rfl, rfl⟩
  | _ =>
    obtain ⟨r, hr, hreports⟩ := readNumber_eq h v 0
    refine ⟨r.map Window.blocks, ?_, ?_⟩
    · simp only [hr, Except.map]
    · simp only [Demand.faults, converted?, h, Except.toOption]
      exact hreports.map Window.blocks

/-- `readChoice` finds a choice that was given under its name, or refuses it. -/
theorem readChoice_reports {α : Type} (v : Variable) (all : List α) (name : α → String)
    (default : α) (value : Value) :
    (readChoice v (all.map name) (fun s => all.find? (name · == s)) default value).Reports
      ((Demand.oneOf (all.map name)).faults v value)
      ((value.text?.bind fun s => all.find? (name · == s)).getD default) := by
  cases value with
  | text s =>
    simp only [readChoice, Demand.faults, Value.text?, Option.bind_some]
    cases hfind : all.find? (name · == s) with
    | some choice =>
      have hmem : s ∈ all.map name :=
        List.mem_map.mpr
          ⟨choice, List.mem_of_find?_eq_some hfind, by simpa using List.find?_some hfind⟩
      -- what is found is one of the choices
      rw [if_pos hmem]
      exact ⟨rfl, rfl⟩
    | none =>
      have hmem : s ∉ all.map name := by
        simpa using List.find?_eq_none.mp hfind
      rw [if_neg hmem]
      exact ⟨rfl, rfl⟩
  | _ => exact ⟨rfl, rfl⟩

/-- A choice without faults has the name that was given, or that of the default. -/
theorem name_of_faults_eq_nil {α : Type} {all : List α} {name : α → String} {default : α}
    {value : Value} (h : (Demand.oneOf (all.map name)).faults v value = []) :
    name ((value.text?.bind fun s => all.find? (name · == s)).getD default)
      = value.text?.getD (name default) := by
  cases value with
  | text s =>
    simp only [Value.text?, Option.bind_some, Option.getD_some]
    -- a name that is found is the text, and one that is not found has a fault
    cases hfind : all.find? (name · == s) with
    | some choice => simpa using List.find?_some hfind
    | none =>
      have hmem : s ∉ all.map name := by
        simpa using List.find?_eq_none.mp hfind
      rw [Demand.faults, if_neg hmem] at h
      exact nomatch h
  | _ => rfl

/-! ## Whole environments -/

/-- What is read from an environment, if it is accepted (`Readings.values?`). -/
def accepted (environment : Value) : Accepted where
  lookback := (number? environment .lookback).getD (.whole defaultLookback)
  delay := (number? environment .delay).getD (.whole defaultDelay)
  challengeWindow := windowOf environment .challengeWindow
  resolveWindow := windowOf environment .resolveWindow
  logLevel := ((text? environment .logLevel).bind Level.ofName?).getD .info
  deployment := ((text? environment .deployment).bind Deployment.ofName?).getD .development

/-- `Reported environment r`: each reading reports the `ownFaults` of its variable. -/
structure Reported (environment : Value) (r : Readings) : Prop where
  lookback : r.lookback.Reports (ownFaults environment .lookback) (accepted environment).lookback
  delay : r.delay.Reports (ownFaults environment .delay) (accepted environment).delay
  challengeWindow : r.challengeWindow.Reports (ownFaults environment .challengeWindow)
    (accepted environment).challengeWindow
  resolveWindow : r.resolveWindow.Reports (ownFaults environment .resolveWindow)
    (accepted environment).resolveWindow
  logLevel : r.logLevel.Reports (ownFaults environment .logLevel) (accepted environment).logLevel
  deployment : r.deployment.Reports (ownFaults environment .deployment)
    (accepted environment).deployment

/-- `Readings.ofValue` reports the `ownFaults` of all variables, if the numbers can be converted. -/
theorem exists_reported (h : Converts environment) :
    ∃ r, Readings.ofValue environment = .ok r ∧ Reported environment r := by
  -- the four numbers convert
  obtain ⟨x, hx⟩ := h .lookback 1 rfl
  obtain ⟨y, hy⟩ := h .delay 0 rfl
  obtain ⟨c, hc⟩ := h .challengeWindow 0 rfl
  obtain ⟨d, hd⟩ := h .resolveWindow 0 rfl
  obtain ⟨lookback, hlookback, hlookbackReports⟩ := readNumberOr_eq hx defaultLookback .lookback 1
  obtain ⟨delay, hdelay, hdelayReports⟩ := readNumberOr_eq hy defaultDelay .delay 0
  obtain ⟨challenge, hchallenge, hchallengeReports⟩ := readWindow_eq rfl hc
  obtain ⟨resolve, hresolve, hresolveReports⟩ := readWindow_eq rfl hd
  -- the readings of all six variables
  let readings : Readings := {
    lookback, delay
    challengeWindow := challenge
    resolveWindow := resolve
    logLevel := readLevel (environment.field Variable.logLevel.name)
    deployment := readDeployment (environment.field Variable.deployment.name) }
  refine ⟨readings, ?_, hlookbackReports, hdelayReports, hchallengeReports, hresolveReports, ?_,
    ?_⟩
  · unfold Readings.ofValue
    rw [hlookback, hdelay, hchallenge, hresolve]
  · exact readChoice_reports .logLevel Level.all Level.name .info _
  · exact readChoice_reports .deployment Deployment.all Deployment.name .development _

/-- The issues of readings are the `ownFaults`, in the order of `Variable.all`. -/
theorem Reported.issues_eq {r : Readings} (h : Reported environment r) :
    r.issues = Variable.all.flatMap (ownFaults environment) := by
  simp only [Readings.issues, Variable.all, List.flatMap_cons, List.flatMap_nil, List.append_nil,
    List.append_assoc, h.lookback.issues_eq, h.delay.issues_eq, h.challengeWindow.issues_eq,
    h.resolveWindow.issues_eq, h.logLevel.issues_eq, h.deployment.issues_eq]

/-- `Readings.values?` has a value for each variable unless one of the `ownFaults` aborts. -/
theorem Reported.values?_eq {r : Readings} (h : Reported environment r) :
    r.values? = if (Variable.all.flatMap (ownFaults environment)).any Issue.aborts then none
      else some (accepted environment) := by
  simp only [Readings.values?, Variable.all, List.flatMap_cons, List.flatMap_nil, List.append_nil,
    List.any_append, h.lookback.value?_eq, h.delay.value?_eq, h.challengeWindow.value?_eq,
    h.resolveWindow.value?_eq, h.logLevel.value?_eq, h.deployment.value?_eq]
  -- the first fault that aborts leaves nothing of what comes after it
  cases (ownFaults environment .lookback).any Issue.aborts <;> try rfl
  cases (ownFaults environment .delay).any Issue.aborts <;> try rfl
  cases (ownFaults environment .challengeWindow).any Issue.aborts <;> try rfl
  cases (ownFaults environment .resolveWindow).any Issue.aborts <;> try rfl
  cases (ownFaults environment .logLevel).any Issue.aborts <;> try rfl
  cases (ownFaults environment .deployment).any Issue.aborts <;> rfl

/-- `pairIssues` checks the windows by what was given for them (`pairFaults`). -/
theorem pairIssues_accepted (h : Converts environment) :
    pairIssues (accepted environment).challengeWindow (accepted environment).resolveWindow
      = pairFaults environment := by
  -- a window is given exactly if there is a number for it
  have hgiven : ∀ v : Variable, v.demand = .integer 0 →
      environment.given v.name = (number? environment v).isSome := by
    intro v hdemand
    obtain ⟨x, hx⟩ := h v 0 hdemand
    unfold Value.given number?
    generalize environment.field v.name = value at hx
    cases value with
    | undefined => rfl
    | _ =>
      simp only [converted?, hx, Except.toOption]
      rfl
  unfold pairIssues pairFaults accepted
  rw [blocks?_windowOf, blocks?_windowOf, hgiven .challengeWindow rfl, hgiven .resolveWindow rfl]
  cases number? environment .challengeWindow <;> cases number? environment .resolveWindow <;> rfl

/-- `Readings.judge` accepts an environment without `faults`, and rejects any other with all of
them. -/
theorem judge_eq {r : Readings} (hr : Reported environment r) (h : Converts environment) :
    r.judge = if faults environment = [] then .ok (accepted environment)
      else .error (faults environment) := by
  unfold Readings.judge faults
  rw [hr.values?_eq, hr.issues_eq]
  generalize Variable.all.flatMap (ownFaults environment) = own
  -- a fault that aborts leaves no windows to compare
  by_cases haborts : own.any Issue.aborts = true
  · have hsome : own ≠ [] := by
      rintro rfl
      exact nomatch haborts
    simp only [if_pos haborts, List.append_nil, if_neg hsome]
  · simp only [if_neg haborts, pairIssues_accepted h]
    split
    · rename_i hnil
      rw [if_pos hnil]
    · rename_i hsome
      rw [if_neg hsome]

/-- `read` accepts an environment without `faults`, and rejects any other with all of them. -/
theorem read_eq (hobject : environment.kind = "object") (h : Converts environment) :
    read environment = .ok (if faults environment = [] then .ok (accepted environment)
      else .error (faults environment)) := by
  obtain ⟨r, hr, hreported⟩ := exists_reported h
  -- an environment that is an object is read and then judged
  have hread : read environment = (Readings.ofValue environment).map Readings.judge := by
    cases environment with
    | record fields => rfl
    | fault f => rfl
    | number x => by_cases hx : x = .nan <;> simp [Value.kind, hx] at hobject
    | _ => simp [Value.kind] at hobject
  rw [hread, hr]
  exact congrArg Except.ok (judge_eq hreported h)

/-! ## Environments without faults -/

/-- An environment without `faults` has no `ownFaults`. -/
theorem ownFaults_eq_nil (h : faults environment = []) (v : Variable) :
    ownFaults environment v = [] := by
  have hown : Variable.all.flatMap (ownFaults environment) = [] := (List.append_eq_nil_iff.mp h).1
  refine List.flatMap_eq_nil_iff.mp hown v ?_
  cases v <;> decide

/-- The `ownFaults` of a variable that was given are the `numberFaults` of its number. -/
theorem numberFaults_of_number? (hconverts : Converts environment)
    (hdemand : v.demand = .integer least) (hown : ownFaults environment v = []) {x : Number}
    (hx : number? environment v = some x) : numberFaults v least x = [] := by
  obtain ⟨y, hy⟩ := hconverts v least hdemand
  unfold number? at hx
  unfold ownFaults at hown
  rw [hdemand] at hown
  generalize environment.field v.name = value at hx hown hy
  -- a variable that is not set has no number
  cases value with
  | undefined => exact nomatch hx
  | _ =>
    simp only [converted?, hy, Except.toOption, Option.some.injEq] at hx
    simpa only [Demand.faults, hy, hx] using hown

/-- A number without faults is in the bounds of its variable. -/
theorem isIntegerFrom_of_number? (hconverts : Converts environment)
    (hdemand : v.demand = .integer least) (hown : ownFaults environment v = []) {x : Number}
    (hx : number? environment v = some x) : IsIntegerFrom least x := by
  have hfaults := numberFaults_of_number? hconverts hdemand hown hx
  unfold numberFaults at hfaults
  split at hfaults
  · exact nomatch hfaults
  · rename_i hnan
    obtain ⟨hint, hleast⟩ := List.append_eq_nil_iff.mp hfaults
    cases htoInt : x.toInt? with
    | none =>
      rw [if_pos htoInt] at hint
      exact nomatch hint
    | some n =>
      refine ⟨n, htoInt, ?_⟩
      -- not below `least`, as it has no fault that says so
      have hlt : ¬x < .whole least := by
        intro hlt
        rw [if_pos hlt] at hleast
        exact nomatch hleast
      have hle := Number.le_of_not_lt hnan Number.noConfusion hlt
      exact (Number.le_iff_of_toInt? (Number.toInt?_whole _) htoInt).mp hle

/-- An environment without `faults` has no `pairFaults`. -/
theorem pairFaults_eq_nil (h : faults environment = []) : pairFaults environment = [] := by
  obtain ⟨hown, hpair⟩ := List.append_eq_nil_iff.mp h
  rwa [hown] at hpair

/-- An environment without `faults` gives both windows or neither. -/
theorem isSome_eq_of_faults (hconverts : Converts environment) (h : faults environment = []) :
    (number? environment .challengeWindow).isSome
      = (number? environment .resolveWindow).isSome := by
  have hpair := pairFaults_eq_nil h
  rw [← pairIssues_accepted hconverts, pairIssues, accepted, blocks?_windowOf, blocks?_windowOf]
    at hpair
  cases hchallenge : number? environment .challengeWindow <;>
    cases hresolve : number? environment .resolveWindow <;>
    first | rfl | exact absurd hpair (by simp [hchallenge, hresolve])

/-- `Settings.ofAccepted` loads the windows that were given, if both were. -/
theorem windows?_ofAccepted (environment : Value) :
    (Settings.ofAccepted (accepted environment)).sizing.windows? =
      (number? environment .challengeWindow).bind fun challenge =>
        (number? environment .resolveWindow).map fun resolve => { challenge, resolve } := by
  have hchallenge : (accepted environment).challengeWindow.blocks?
      = number? environment .challengeWindow := blocks?_windowOf ..
  have hresolve : (accepted environment).resolveWindow.blocks?
      = number? environment .resolveWindow := blocks?_windowOf ..
  unfold Settings.ofAccepted
  dsimp only
  rw [hchallenge, hresolve]
  cases number? environment .challengeWindow <;> cases number? environment .resolveWindow <;> rfl

/-- `Settings.ofAccepted` of an environment without faults `Loads` it. -/
theorem loads (hconverts : Converts environment) (h : faults environment = []) :
    Loads environment (Settings.ofAccepted (accepted environment)) := by
  have hown := ownFaults_eq_nil h
  -- a default is in the bounds of its variable
  have hfrom : ∀ (v : Variable) (least default : Nat), v.demand = .integer least →
      least ≤ default → IsIntegerFrom least ((number? environment v).getD (.whole default)) := by
    intro v least default hdemand hle
    cases hx : number? environment v with
    | some x => exact isIntegerFrom_of_number? hconverts hdemand (hown v) hx
    | none => exact ⟨default, rfl, by exact_mod_cast hle⟩
  exact {
    lookback := rfl
    delay := rfl
    windows := windows?_ofAccepted environment
    paired := isSome_eq_of_faults hconverts h
    logLevel := name_of_faults_eq_nil (hown .logLevel)
    deployment := name_of_faults_eq_nil (hown .deployment)
    lookback_from := by
      intro x hx
      obtain rfl := Option.some.inj hx
      exact hfrom .lookback 1 defaultLookback rfl (by decide)
    delay_from := by
      intro x hx
      obtain rfl := Option.some.inj hx
      exact hfrom .delay 0 defaultDelay rfl (by decide)
    windows_from := by
      intro w hw
      rw [windows?_ofAccepted] at hw
      obtain ⟨challenge, hchallenge, hw⟩ := Option.bind_eq_some_iff.mp hw
      obtain ⟨resolve, hresolve, rfl⟩ := Option.map_eq_some_iff.mp hw
      exact ⟨isIntegerFrom_of_number? hconverts rfl (hown .challengeWindow) hchallenge,
        isIntegerFrom_of_number? hconverts rfl (hown .resolveWindow) hresolve⟩ }

/-- `Settings.load` from an environment whose numbers can be converted (`Converts`) reports all its
`faults`. If there are none, what was given is loaded, and the defaults of what was not
(`Loads`). -/
theorem load_reports (environment : Value) (hobject : environment.kind = "object")
    (h : Converts environment) :
    (faults environment ≠ [] →
      read environment = .ok (.error (faults environment)) ∧
      Settings.load environment = .ok (.error (faults environment))) ∧
    (faults environment = [] →
      read environment = .ok (.ok (accepted environment)) ∧
      ∃ settings, Settings.load environment = .ok (.ok settings) ∧
        Loads environment settings) := by
  constructor
  -- with a fault the environment is refused
  · intro hsome
    have hread : read environment = .ok (.error (faults environment)) := by
      rw [read_eq hobject h, if_neg hsome]
    refine ⟨hread, ?_⟩
    rw [Settings.load, hread]
    rfl
  -- without one it is accepted, and loads
  · intro hnone
    have hread : read environment = .ok (.ok (accepted environment)) := by
      rw [read_eq hobject h, if_pos hnone]
    refine ⟨hread, _, ?_, loads h hnone⟩
    rw [Settings.load, hread]
    rfl

/-- One window is given, which goes unnoticed next to a level that does not exist. -/
def muddled : Value :=
  .record [(Variable.lookback.name, .text "-1.5"), (Variable.delay.name, .text " "),
    (Variable.challengeWindow.name, .text "0x10"), (Variable.resolveWindow.name, .undefined),
    (Variable.logLevel.name, .text "loud")]

/-- One window is given, next to a delay that is a number. -/
def lopsided : Value :=
  .record [(Variable.delay.name, .text "1e-1"), (Variable.resolveWindow.name, .text "8")]

/-- `muddled` is faulty in two ways at once. That one window is missing in `lopsided` is told as the
other variables can be read, and nothing is wrong with no variables at all. -/
theorem muddled_reports :
    Settings.load muddled = .ok (.error [.notAnInteger .lookback, .tooSmall .lookback 1,
      .unknownChoice .logLevel (Level.all.map Level.name) "loud"]) ∧
    Settings.load lopsided = .ok (.error [.notAnInteger .delay, .unpaired .challengeWindow]) ∧
    ∃ settings, Settings.load (.record []) = .ok (.ok settings) ∧
      Loads (.record []) settings := by
  -- the faults of the two environments
  have hmuddled : faults muddled = [.notAnInteger .lookback, .tooSmall .lookback 1,
      .unknownChoice .logLevel (Level.all.map Level.name) "loud"] := by decide +kernel
  have hlopsided : faults lopsided = [.notAnInteger .delay, .unpaired .challengeWindow] := by
    decide +kernel
  have hnone : faults (.record []) = [] := by decide
  -- texts always convert
  have hconverts : Converts muddled ∧ Converts lopsided ∧ Converts (.record []) := by
    refine ⟨?_, ?_, ?_⟩ <;>
    · intro v least _
      cases v <;> exact ⟨_, rfl⟩
  refine ⟨?_, ?_, ((load_reports (.record []) rfl hconverts.2.2).2 hnone).2⟩
  · have h := (load_reports muddled rfl hconverts.1).1 (hmuddled ▸ List.cons_ne_nil _ _)
    rw [hmuddled] at h
    exact h.2
  · have h := (load_reports lopsided rfl hconverts.2.1).1 (hlopsided ▸ List.cons_ne_nil _ _)
    rw [hlopsided] at h
    exact h.2

/-! ## Environments that are loaded -/

/-- `readNumberOr` fails where the value cannot be converted. -/
theorem readNumberOr_of_error {value : Value} {f : Fault} (h : value.toNumber = .error f)
    (default : Nat) (v : Variable) (least : Nat) :
    readNumberOr default v least value = .error f := by
  cases value with
  | undefined => exact nomatch h
  | _ => simp only [readNumberOr, readNumber, h]

/-- `readWindow` fails where the value cannot be converted. -/
theorem readWindow_of_error {f : Fault} (h : (environment.field v.name).toNumber = .error f) :
    readWindow v environment = .error f := by
  unfold readWindow
  generalize environment.field v.name = value at h
  cases value with
  | undefined => exact nomatch h
  | _ =>
    simp only [readNumber, h]
    rfl

/-- An environment that `Readings.ofValue` reads can be converted. -/
theorem converts_of_ofValue {r : Readings} (h : Readings.ofValue environment = .ok r) :
    Converts environment := by
  unfold Readings.ofValue at h
  split at h
  · rename_i lookback delay challenge resolve hlookback hdelay hchallenge hresolve
    intro v least hdemand
    cases hx : (environment.field v.name).toNumber with
    | ok x => exact ⟨x, rfl⟩
    | error f =>
      -- the reading of the variable would have failed in the same way
      cases v with
      | lookback => exact nomatch (readNumberOr_of_error hx ..).symm.trans hlookback
      | delay => exact nomatch (readNumberOr_of_error hx ..).symm.trans hdelay
      | challengeWindow => exact nomatch (readWindow_of_error hx).symm.trans hchallenge
      | resolveWindow => exact nomatch (readWindow_of_error hx).symm.trans hresolve
      | logLevel => exact nomatch hdemand
      | deployment => exact nomatch hdemand
  all_goals exact nomatch h

/-- `read` accepts only environments that have no `faults`, and reads them as `accepted`. -/
theorem accepted_of_read {a : Accepted} (h : read environment = .ok (.ok a)) :
    environment.kind = "object" ∧ Converts environment ∧ faults environment = [] ∧
      a = accepted environment := by
  -- only a record can be read, and its readings are there
  have hobject : environment.kind = "object" ∧
      ∃ r, Readings.ofValue environment = .ok r := by
    cases environment with
    | record fields =>
      refine ⟨rfl, ?_⟩
      cases hr : Readings.ofValue (.record fields) with
      | ok r => exact ⟨r, rfl⟩
      | error f =>
        rw [read, hr] at h
        exact nomatch h
    | fault f => exact ⟨rfl, _, rfl⟩
    | _ => exact nomatch h
  obtain ⟨hobject, r, hr⟩ := hobject
  have hconverts := converts_of_ofValue hr
  rw [read_eq hobject hconverts] at h
  by_cases hnone : faults environment = []
  · rw [if_pos hnone] at h
    exact ⟨hobject, hconverts, hnone, (Except.ok.inj (Except.ok.inj h)).symm⟩
  · rw [if_neg hnone] at h
    exact nomatch h

/-- `Settings.load` loads only from environments that have no `faults`. -/
theorem exact_of_load {settings : Settings} (h : Settings.load environment = .ok (.ok settings)) :
    Converts environment ∧ faults environment = [] ∧
      settings = Settings.ofAccepted (accepted environment) := by
  unfold Settings.load at h
  -- of the three results of reading only one loads
  cases hread : read environment with
  | error fault =>
    rw [hread] at h
    exact nomatch h
  | ok judgement =>
    rw [hread] at h
    cases judgement with
    | error issues => exact nomatch h
    | ok a =>
      obtain ⟨-, hconverts, hnone, rfl⟩ := accepted_of_read hread
      exact ⟨hconverts, hnone, (Except.ok.inj (Except.ok.inj h)).symm⟩

end Settlement.Environment
