import Settlement.Proofs.Environment.Faults
import Settlement.Proofs.Number.Count
import Settlement.Proofs.Tracker

/-!
# From an environment to a tracker

The settings of an environment are integers, but they may be too large for a tracker: the delay has
to be safe, and so many links have to fit into an array. The number of links is a sum of numbers,
which may have been rounded or be infinite. It is exact wherever a tracker can be made.

## Key results

- `ofCapacity_of_counts`: which rings can be made
- `tracker_of_load`: which settings make a tracker, and how many links it keeps
-/

namespace Settlement

/-! ## Exact amounts -/

/-- What a sizing asks for, exactly (`Sizing.Exact`). -/
structure Amounts where
  lookback : Nat
  delay : Nat
  /-- The challenge window and the resolve window. -/
  windows? : Option (Nat × Nat) := none
  deriving DecidableEq, Repr

/-- How many links these amounts ask for: as many as the lookback, or as the windows and the block
itself take if that is more. -/
def Amounts.links (a : Amounts) : Nat :=
  match a.windows? with
  | none => a.lookback
  | some (challenge, resolve) => max a.lookback (challenge + resolve + 1)

/-- `s.Exact a`: the numbers of a sizing are exactly these amounts. -/
structure Sizing.Exact (s : Sizing) (a : Amounts) : Prop where
  lookback : s.lookback?.bind Number.toInt? = some (a.lookback : Int)
  delay : s.delay?.bind Number.toInt? = some (a.delay : Int)
  windows : s.windows?.map (fun w => (w.challenge.toInt?, w.resolve.toInt?))
    = a.windows?.map fun (challenge, resolve) => (some (challenge : Int), some (resolve : Int))

variable {s : Sizing} {a : Amounts} {x : Number} {n : Nat}

/-- `Sizing.Exact` determines the amounts. -/
theorem Sizing.Exact.unique {b : Amounts} (h : s.Exact a) (h' : s.Exact b) : a = b := by
  obtain ⟨lookback, delay, windows?⟩ := a
  obtain ⟨lookback', delay', windows'?⟩ := b
  obtain rfl : lookback = lookback' :=
    Int.ofNat.inj (Option.some.inj (h.lookback.symm.trans h'.lookback))
  obtain rfl : delay = delay' := Int.ofNat.inj (Option.some.inj (h.delay.symm.trans h'.delay))
  have hwindows := h.windows.symm.trans h'.windows
  -- windows are compared member by member
  obtain rfl : windows? = windows'? := by
    refine Option.map_injective ?_ hwindows
    rintro ⟨challenge, resolve⟩ ⟨challenge', resolve'⟩ heq
    obtain ⟨hchallenge, hresolve⟩ := Prod.mk.inj heq
    rw [Int.ofNat.inj (Option.some.inj hchallenge), Int.ofNat.inj (Option.some.inj hresolve)]
  rfl

/-- `Amounts.links` is at least the lookback. -/
theorem Amounts.lookback_le_links (a : Amounts) : a.lookback ≤ a.links := by
  unfold Amounts.links
  split
  · exact le_rfl
  · exact le_max_left _ _

/-- `Sizing.lookback` counts the `Amounts.links`, as far as that can be told (`Number.Counts`). -/
theorem Sizing.Exact.counts (h : s.Exact a) : s.lookback.Counts a.links := by
  obtain ⟨lookback, hlookback, hint⟩ := Option.bind_eq_some_iff.mp h.lookback
  have hcounts : lookback.Counts a.lookback := Number.counts_of_toInt? hint
  have hwindows := h.windows
  unfold Sizing.lookback Amounts.links
  rw [hlookback, Option.getD_some]
  -- both have windows, or neither has
  cases hs : s.windows? with
  | none =>
    cases ha : a.windows? with
    | none => exact hcounts
    | some given => rw [hs, ha] at hwindows; exact nomatch hwindows
  | some w =>
    cases ha : a.windows? with
    | none => rw [hs, ha] at hwindows; exact nomatch hwindows
    | some given =>
      rw [hs, ha] at hwindows
      obtain ⟨hchallenge, hresolve⟩ := Prod.mk.inj (Option.some.inj hwindows)
      exact hcounts.max (((Number.counts_of_toInt? hchallenge).add
        (Number.counts_of_toInt? hresolve)).add (Number.counts_whole 1))

/-- Settings that were loaded have exact amounts, and ask for a link at least. -/
theorem Environment.Loads.exists_exact {environment : Value} {settings : Settings}
    (h : Loads environment settings) :
    ∃ a, settings.sizing.Exact a ∧ 1 ≤ a.lookback := by
  -- what was checked against a least value is a natural number
  have hnat : ∀ {least : Nat} {y : Number}, IsIntegerFrom least y →
      ∃ m : Nat, y.toInt? = some (m : Int) ∧ least ≤ m := by
    rintro least y ⟨k, hk, hle⟩
    refine ⟨k.toNat, ?_, by omega⟩
    rw [hk, Int.toNat_of_nonneg (by omega)]
  obtain ⟨lookback, hlookback, hpos⟩ := hnat (h.lookback_from _ h.lookback)
  obtain ⟨delay, hdelay, -⟩ := hnat (h.delay_from _ h.delay)
  cases hwindows : settings.sizing.windows? with
  | none =>
    refine ⟨{ lookback, delay }, ⟨?_, ?_, ?_⟩, hpos⟩
    · rw [h.lookback, Option.bind_some, hlookback]
    · rw [h.delay, Option.bind_some, hdelay]
    · rw [hwindows]
      rfl
  | some w =>
    obtain ⟨hchallenge, hresolve⟩ := h.windows_from w hwindows
    obtain ⟨challenge, hchallenge, -⟩ := hnat hchallenge
    obtain ⟨resolve, hresolve, -⟩ := hnat hresolve
    refine ⟨{ lookback, delay, windows? := some (challenge, resolve) }, ⟨?_, ?_, ?_⟩, hpos⟩
    · rw [h.lookback, Option.bind_some, hlookback]
    · rw [h.delay, Option.bind_some, hdelay]
    · rw [hwindows, Option.map_some, Option.map_some, hchallenge, hresolve]

/-! ## What can be made -/

/-- `delayOf` refuses an integer from zero on exactly if it is not safe. -/
theorem Tracker.delayOf_of_toInt? (h : x.toInt? = some (n : Int)) :
    delayOf x = if n ≤ Number.maxSafe then .ok x else .error (.badDelay x.text) := by
  have hsafe : x.isSafeInteger = true ↔ n ≤ Number.maxSafe := by
    rcases Number.toInt?_eq_some_iff.mp h with rfl | ⟨rfl, hn⟩
    · rw [Number.isSafeInteger_whole, decide_eq_true_iff, Int.natAbs_natCast]
    · exact iff_of_true rfl (by omega)
  -- a natural number is never below zero
  have hneg : ¬x < 0 := by
    intro hlt
    have hle : (0 : Number) ≤ x :=
      (Number.le_iff_of_toInt? (Number.toInt?_whole 0) h).mpr (Int.natCast_nonneg n)
    exact Number.not_le_of_lt hlt hle
  unfold delayOf
  -- so only its size can make the delay invalid
  by_cases hle : n ≤ Number.maxSafe
  · rw [if_pos ⟨hsafe.mpr hle, hneg⟩, if_pos hle]
  · rw [if_neg fun hvalid => hle (hsafe.mp hvalid.1), if_neg hle]

/-- `ofCapacity` makes a ring for a number that counts no more than `maxCapacity`, and the number is
exact then. -/
theorem Ring.ofCapacity_of_counts (h : x.Counts n) (hpos : 0 < n) (hle : n ≤ maxCapacity) :
    x = .whole n ∧ ofCapacity x = .ok (empty n) := by
  have hlimit : maxCapacity < Number.countLimit := by decide
  obtain rfl := h.eq_whole hpos (by omega)
  refine ⟨rfl, ?_⟩
  have hmax : maxCapacity ≤ Number.maxSafe := by decide
  -- a count up to the capacity is a safe integer
  have hsafe : (Number.whole (n : Int)).isSafeInteger = true := by
    rw [Number.isSafeInteger_whole, decide_eq_true_iff, Int.natAbs_natCast]
    omega
  simp only [ofCapacity, Number.toInt?_whole]
  rw [if_pos ⟨hsafe, by omega⟩, if_pos (by omega), Int.toNat_natCast]

/-- `ofCapacity` fails for a number that counts more, whatever it was rounded to. -/
theorem Ring.exists_fault_of_counts (h : x.Counts n) (hlt : maxCapacity < n) :
    ∃ fault, ofCapacity x = .error fault ∧ fault.name = "RangeError" := by
  have hlimit : maxCapacity < Number.countLimit := by decide
  unfold ofCapacity
  -- the capacity is no integer, too large for a count, or larger than a ring can be
  split
  · rename_i k hk
    obtain ⟨hnonneg, hmin⟩ := h.of_toInt? hk
    split
    · rw [if_neg (by omega)]
      exact ⟨_, rfl, rfl⟩
    · exact ⟨_, rfl, rfl⟩
  · exact ⟨_, rfl, rfl⟩

/-- `ofSizing` makes a tracker for amounts that are not too large. -/
theorem Tracker.exists_ofSizing (h : s.Exact a) (hpos : 1 ≤ a.lookback)
    (hdelay : a.delay ≤ Number.maxSafe) (hlinks : a.links ≤ Ring.maxCapacity) :
    s.lookback = .whole a.links ∧ ∃ t, ofSizing s = .ok t ∧ t.links.capacity = a.links := by
  obtain ⟨delay, hgiven, hint⟩ := Option.bind_eq_some_iff.mp h.delay
  obtain ⟨hexact, hring⟩ :=
    Ring.ofCapacity_of_counts h.counts (Nat.lt_of_lt_of_le hpos a.lookback_le_links) hlinks
  refine ⟨hexact, { delay, links := Ring.empty a.links }, ?_, rfl⟩
  unfold ofSizing Sizing.delay
  rw [hgiven, Option.getD_some, delayOf_of_toInt? hint, if_pos hdelay, hring]
  rfl

/-- `ofSizing` fails for other amounts. The delay is checked before the number of links. -/
theorem Tracker.exists_fault_ofSizing (h : s.Exact a)
    (hlarge : ¬(a.delay ≤ Number.maxSafe ∧ a.links ≤ Ring.maxCapacity)) :
    ∃ fault, ofSizing s = .error fault ∧ fault.name = "RangeError" := by
  obtain ⟨delay, hgiven, hint⟩ := Option.bind_eq_some_iff.mp h.delay
  unfold ofSizing Sizing.delay
  rw [hgiven, Option.getD_some, delayOf_of_toInt? hint]
  -- the delay is checked before the links are
  by_cases hdelay : a.delay ≤ Number.maxSafe
  · have hlinks : Ring.maxCapacity < a.links := Nat.lt_of_not_le fun hle => hlarge ⟨hdelay, hle⟩
    obtain ⟨fault, hfault, hname⟩ := Ring.exists_fault_of_counts h.counts hlinks
    rw [if_pos hdelay, hfault]
    exact ⟨fault, rfl, hname⟩
  · rw [if_neg hdelay]
    exact ⟨_, rfl, rfl⟩

/-! ## Loading and making -/

/-- The settings that `Settings.load` gives have exact amounts (`Sizing.Exact`). If the delay is
safe and an array can have so many slots, `Tracker.ofValue` makes a tracker that keeps exactly as
many links. Nothing else goes wrong than that one of them is too large. -/
theorem Environment.tracker_of_load {environment : Value} {settings : Settings}
    (h : Settings.load environment = .ok (.ok settings)) :
    ∃ a : Amounts, settings.sizing.Exact a ∧ 1 ≤ a.lookback ∧
      (a.delay ≤ Number.maxSafe ∧ a.links ≤ Ring.maxCapacity →
        settings.sizing.toValue.lookback = .ok (.number (.whole a.links)) ∧
        ∃ t, Tracker.ofValue settings.sizing.toValue = .ok t ∧ t.links.capacity = a.links) ∧
      (¬(a.delay ≤ Number.maxSafe ∧ a.links ≤ Ring.maxCapacity) →
        ∃ fault, Tracker.ofValue settings.sizing.toValue = .error fault ∧
          fault.name = "RangeError") := by
  obtain ⟨hconverts, hnone, rfl⟩ := exact_of_load h
  obtain ⟨a, hexact, hpos⟩ := (loads hconverts hnone).exists_exact
  refine ⟨a, hexact, hpos, ?_, ?_⟩
  -- within the limits there is a tracker
  · rintro ⟨hdelay, hlinks⟩
    obtain ⟨hlookback, t, ht, hcapacity⟩ := Tracker.exists_ofSizing hexact hpos hdelay hlinks
    rw [Value.lookback_toValue, hlookback, Tracker.ofValue_toValue]
    exact ⟨rfl, t, ht, hcapacity⟩
  -- beyond them its constructor raises a fault
  · intro hlarge
    rw [Tracker.ofValue_toValue]
    exact Tracker.exists_fault_ofSizing hexact hlarge

/-- Windows that take all slots that an array can have (`Ring.maxCapacity`). -/
def Environment.brimful : Value :=
  .record [(Variable.challengeWindow.name, .text "4294967000"),
    (Variable.resolveWindow.name, .text "294")]

/-- The number that `1e308` is rounded to. Twice as much is infinite. -/
def Environment.huge : Nat := ((Number.ofText "1e308").toInt?.getD 0).toNat

/-- Windows whose sum is infinite. -/
def Environment.boundless : Value :=
  .record [(Variable.challengeWindow.name, .text "1e308"),
    (Variable.resolveWindow.name, .text "1e308")]

/-- The last number of links for which there is a tracker (`brimful`), and windows that are accepted
and then have none (`boundless`). -/
theorem Environment.brimful_tracker :
    (∃ settings t, Settings.load brimful = .ok (.ok settings) ∧
      settings.sizing.toValue.lookback = .ok (.number (.whole 4294967295)) ∧
      Tracker.ofValue settings.sizing.toValue = .ok t ∧ t.links.capacity = 4294967295) ∧
    ∃ settings fault, Settings.load boundless = .ok (.ok settings) ∧
      Tracker.ofValue settings.sizing.toValue = .error fault ∧ fault.name = "RangeError" := by
  -- both environments load
  have hbrimful : Settings.load brimful = .ok (.ok {
      sizing := {
        lookback? := some (.whole 129)
        windows? := some { challenge := .whole 4294967000, resolve := .whole 294 }
        delay? := some (.whole 64) }
      logLevel := .info
      deployment := .development }) := by decide +kernel
  have hboundless : Settings.load boundless = .ok (.ok {
      sizing := {
        lookback? := some (.whole 129)
        windows? := some { challenge := .ofText "1e308", resolve := .ofText "1e308" }
        delay? := some (.whole 64) }
      logLevel := .info
      deployment := .development }) := by decide +kernel
  -- and only the first has a size within the limits
  constructor
  · obtain ⟨a, hexact, -, hmade, -⟩ := tracker_of_load hbrimful
    obtain rfl : a = { lookback := 129, delay := 64, windows? := some (4294967000, 294) } :=
      hexact.unique ⟨rfl, rfl, rfl⟩
    obtain ⟨hlookback, t, ht, hcapacity⟩ := hmade ⟨by decide, by decide⟩
    exact ⟨_, t, hbrimful, hlookback, ht, hcapacity⟩
  · obtain ⟨a, hexact, -, -, hrefused⟩ := tracker_of_load hboundless
    obtain rfl : a = { lookback := 129, delay := 64, windows? := some (huge, huge) } :=
      hexact.unique ⟨rfl, rfl, by decide +kernel⟩
    obtain ⟨fault, hfault, hname⟩ := hrefused (by decide +kernel)
    exact ⟨_, fault, hboundless, hfault, hname⟩

end Settlement
