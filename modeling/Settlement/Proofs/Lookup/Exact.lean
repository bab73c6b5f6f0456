import Settlement.Proofs.Acceptance
import Settlement.Proofs.Lookup.Desk

/-!
# Blocks with exact integers

A block comes over RPC with exact integers of any size for its number and its time
(`RawBlock`), and both are rounded to numbers before their range is looked at. That range is the
one in which nothing is rounded, though: what is rounded at all stays beyond it. So a block that is
taken for the one at a height has the integers that it came with, and one whose integers are no
block numbers is never taken.

## Key results

- `Pending.verdict_of_carries`: the verdict on a lookup that a block answers
- `lookup_exact`: which blocks a lookup resolves with, now or later, and with what
-/

namespace Settlement

/-- A block as it comes over RPC. One that is still pending has no hash or no number. -/
structure RawBlock where
  hash? : Option String
  number? : Option Int
  parentHash : String
  timestamp : Int

/-- The block as a value. -/
def RawBlock.toValue (b : RawBlock) : Value :=
  .record [("hash", b.hash?.elim .null .text), ("number", b.number?.elim .null .integer),
    ("parentHash", .text b.parentHash), ("timestamp", .integer b.timestamp)]

/-- The value has the fields of the block, and any others. -/
structure Value.Carries (found : Value) (b : RawBlock) : Prop where
  hash : found.field "hash" = b.hash?.elim .null .text
  number : found.field "number" = b.number?.elim .null .integer
  parentHash : found.field "parentHash" = .text b.parentHash
  timestamp : found.field "timestamp" = .integer b.timestamp

namespace RawBlock

/-- `toValue` has the fields of the block. -/
theorem carries_toValue (b : RawBlock) : b.toValue.Carries b := ⟨rfl, rfl, rfl, rfl⟩

/-- The block is mined, it is the one at this height, and its integers are block numbers. -/
structure Fits (b : RawBlock) (height : Int) : Prop where
  hash : ∃ hash, b.hash? = some hash ∧ hash ≠ ""
  number : b.number? = some height
  parentHash : b.parentHash ≠ ""
  height_safe : 0 ≤ height ∧ height ≤ Number.maxSafe
  timestamp_safe : 0 ≤ b.timestamp ∧ b.timestamp ≤ Number.maxSafe

/-- The header of a block at a height, with the integers that the block came with. -/
def header (b : RawBlock) (height : Int) : Header where
  hash := b.hash?.getD ""
  number := .whole height
  parentHash := b.parentHash
  timestamp := .whole b.timestamp

end RawBlock

namespace Number

variable {n : Int}

/-- `ofInt` rounds no safe integer. -/
theorem ofInt_of_safe (h : 0 ≤ n ∧ n ≤ maxSafe) : ofInt n = whole n := by
  have hmax : maxSafe = 2 ^ 53 - 1 := rfl
  have hexact : n.natAbs ≤ 2 ^ 53 := by omega
  exact ofInt_of_le n hexact

end Number

namespace Value

/-- `isHash` holds of every text but the empty one. -/
theorem isHash_text (s : String) : (Value.text s).isHash = true ↔ s ≠ "" := by
  simp [isHash]

end Value

variable {x : Number} {n : Int} {found : Value} {b : RawBlock}

/-- `Acceptable` is `Fits`, for the height asked for. -/
theorem Value.Carries.acceptable_iff (h : found.Carries b) (hx : x.toInt? = some n) :
    Lookup.Acceptable x found ↔ b.Fits n := by
  constructor
  · intro ⟨hhash, hparent, ⟨height, hheight, hnumber, hsafe⟩, time, htime, hblock⟩
    obtain rfl : n = height := Option.some.inj (hx.symm.trans hheight)
    rw [h.hash] at hhash
    rw [h.parentHash] at hparent
    rw [h.number] at hnumber
    rw [h.timestamp] at htime
    obtain rfl : Number.ofInt b.timestamp = time := Except.ok.inj htime
    refine ⟨?_, ?_, (Value.isHash_text _).mp hparent, hsafe,
      (Number.isBlockNumber_ofInt _).mp hblock⟩
    -- a pending block has null for its hash, and null is no hash
    · cases hsome : b.hash? with
      | none =>
        rw [hsome] at hhash
        exact nomatch hhash
      | some hash =>
        rw [hsome] at hhash
        exact ⟨hash, rfl, (Value.isHash_text _).mp hhash⟩
    · cases hsome : b.number? with
      | none =>
        rw [hsome] at hnumber
        exact nomatch hnumber
      | some number =>
        rw [hsome] at hnumber
        exact congrArg some (Value.integer.inj hnumber)
  · intro ⟨⟨hash, hsome, hhash⟩, hnumber, hparent, hheight, htime⟩
    constructor
    · rw [h.hash, hsome]
      exact (Value.isHash_text _).mpr hhash
    · rw [h.parentHash]
      exact (Value.isHash_text _).mpr hparent
    · refine ⟨n, hx, ?_, hheight⟩
      rw [h.number, hnumber]
      rfl
    · refine ⟨.ofInt b.timestamp, ?_, (Number.isBlockNumber_ofInt _).mpr htime⟩
      rw [h.timestamp]
      rfl

/-- `accept` gives the `header` of a block that `Fits`. -/
theorem Value.Carries.accept_of_fits (h : found.Carries b) (hfits : b.Fits n) (text : String) :
    Lookup.accept { text, height := n } found = .ok (b.header n) := by
  obtain ⟨⟨hash, hsome, hhash⟩, hnumber, hparent, hheight, htime⟩ := hfits
  -- the header has the shape of one, since its integers are safe
  have hshape : (b.header n).toValue.isHeader = true := by
    have hplace := (Number.isBlockNumber_ofInt n).mpr hheight
    have hmoment := (Number.isBlockNumber_ofInt b.timestamp).mpr htime
    rw [Number.ofInt_of_safe hheight] at hplace
    rw [Number.ofInt_of_safe htime] at hmoment
    have hname : (Value.text (b.header n).hash).isHash = true := by
      rw [RawBlock.header, hsome]
      exact (Value.isHash_text _).mpr hhash
    rw [Header.isHeader_toValue, hname]
    simp only [RawBlock.header, hplace, hmoment, (Value.isHash_text _).mpr hparent, Bool.and_self]
  -- and its fields are those of the block
  refine Lookup.accept_eq_ok_iff.mpr ⟨?_, Lookup.header_eq_ok_iff.mpr ⟨?_, ?_, ?_, ?_, rfl, hshape⟩⟩
  · rw [h.number, hnumber]
    rfl
  · rw [h.timestamp]
    exact congrArg Except.ok (Number.ofInt_of_safe htime)
  · rw [h.hash, hsome]
    simp [RawBlock.header, hsome]
  · exact h.parentHash
  · exact (Number.ofInt_of_safe hheight).symm

/-- `Pending.verdict` is the `header` of a block that `Fits`, and a fault for any other. -/
theorem Pending.verdict_of_carries (h : found.Carries b) {p : Pending} (hx : x.toInt? = some n)
    (hp : p.asked = { text := x.text, height := n }) :
    (b.Fits n → p.verdict (.block found) = .ok (b.header n)) ∧
    (¬b.Fits n → ∃ fault, p.verdict (.block found) = .error (.fault fault)) := by
  have hverdict : p.verdict (.block found)
      = (Lookup.accept { text := x.text, height := n } found).mapError .fault := by
    rw [← hp]
    rfl
  rw [hverdict]
  refine ⟨fun hfits => by rw [h.accept_of_fits hfits]; rfl, fun hno => ?_⟩
  -- what is not acceptable is a failure
  obtain ⟨fault, hfailure⟩ :=
    Lookup.verified_of_not_acceptable (mt (h.acceptable_iff hx).mp hno)
  cases haccept : Lookup.accept { text := x.text, height := n } found with
  | error fault => exact ⟨fault, rfl⟩
  | ok header =>
    rw [Lookup.verified_block, Asked.ofNumber, hx] at hfailure
    simp [bind, Except.bind, haccept] at hfailure

/-- `Pending.course` is empty as long as no action concerns the lookup. -/
theorem Pending.course_append {p : Pending} {between : List Desk.Action}
    (h : ∀ action ∈ between, p.verdict? action = none) (rest : List Desk.Action) :
    p.course p.verdict (between ++ rest)
      = between.map (fun _ => []) ++ p.course p.verdict rest := by
  induction between with
  | nil => rfl
  | cons action between ih =>
    have hnone : p.decides? p.verdict action = none := h action List.mem_cons_self
    rw [List.cons_append, course, hnone, ih fun other hmem => h other (List.mem_cons_of_mem _ hmem)]
    rfl

/-- The reply that a session gets over RPC. -/
def Verdict.reply : Verdict → Reply
  | .ok header => .block header.toValue
  | .error reason => .failure reason

/-- The verdict on a lookup that a block answers: it resolves exactly if the block `Fits`, with the
hashes and the integers of the block, and fails in every other case. -/
structure Verdict.Exact (verdict : Verdict) (b : RawBlock) (height : Int) : Prop where
  resolves_iff : (∃ header, verdict = .ok header) ↔ b.Fits height
  header_eq : ∀ header, verdict = .ok header → header = b.header height ∧
    b.hash? = some header.hash ∧ header.toValue.isHeader = true
  fails : ¬b.Fits height → ∃ fault, verdict = .error (.fault fault)
  /-- No block is let through with an integer that is rounded. -/
  unrounded : (Number.ofInt height).toInt? ≠ some height ∨
    (Number.ofInt b.timestamp).toInt? ≠ some b.timestamp → ∀ header, verdict ≠ .ok header

/-- `Pending.verdict` is `Exact`. -/
theorem Pending.exact_of_carries (h : found.Carries b) {p : Pending} (hx : x.toInt? = some n)
    (hp : p.asked = { text := x.text, height := n }) :
    Verdict.Exact (p.verdict (.block found)) b n := by
  obtain ⟨hresolves, hfails⟩ := Pending.verdict_of_carries h hx hp
  have hfits : ∀ header, p.verdict (.block found) = .ok header → b.Fits n := by
    intro header hok
    by_contra hno
    obtain ⟨fault, hfault⟩ := hfails hno
    exact nomatch hok.symm.trans hfault
  refine ⟨⟨fun ⟨header, hok⟩ => hfits header hok, fun h => ⟨_, hresolves h⟩⟩, ?_, hfails, ?_⟩
  · intro header hok
    have hfit := hfits header hok
    obtain rfl : header = b.header n := Except.ok.inj (hok.symm.trans (hresolves hfit))
    obtain ⟨hash, hhash, -⟩ := hfit.hash
    have haccept : Lookup.accept { text := x.text, height := n } found = .ok (b.header n) :=
      h.accept_of_fits hfit _
    have hheader := (Lookup.accept_eq_ok_iff.mp haccept).2
    refine ⟨rfl, ?_, (Lookup.header_eq_ok_iff.mp hheader).2.2.2.2.2⟩
    rw [RawBlock.header, hhash]
    rfl
  -- a rounded integer is beyond the range, so the block does not fit
  · rintro hrounded header hok
    have hfit := hfits header hok
    rw [Number.ofInt_of_safe hfit.height_safe, Number.ofInt_of_safe hfit.timestamp_safe] at hrounded
    exact hrounded.elim (absurd rfl) (absurd rfl)

/-- `Lookup.verified` is the reply that `Pending.verdict` makes for a session. -/
theorem Lookup.verified_eq_reply {p : Pending} (hx : x.toInt? = some n)
    (hp : p.asked = { text := x.text, height := n }) :
    Lookup.verified x (.block found) = (p.verdict (.block found)).reply := by
  have hverdict : p.verdict (.block found)
      = (Lookup.accept { text := x.text, height := n } found).mapError .fault := by
    rw [← hp]
    rfl
  rw [hverdict, Lookup.verified_block, Asked.ofNumber, hx]
  -- accepted or refused, in both of them alike
  cases haccept : Lookup.accept { text := x.text, height := n } found <;>
    simp [bind, Except.bind, haccept] <;> rfl

namespace Desk

/-- A lookup for an integer whose request a block answers, at once or after any wait, gets an
`Exact` verdict, and a session that asks over RPC gets the reply of the same verdict. -/
theorem lookup_exact (hx : x.toInt? = some n) (hfound : found.Carries b) (id : String)
    (token? : Option String) :
    ∃ verdict : Verdict, verdict.Exact b n ∧ Lookup.verified x (.block found) = verdict.reply ∧
      ∀ d : Desk, d.cancelled.reason? token? = none →
        d.lookup id (.number x) token? (some (.block found))
          = (d, { asked := [n], decided := [⟨id, verdict⟩] }) ∧
        ∀ between : List Action, d.under id = [] →
          (∀ action ∈ between, action.opens? ≠ some id ∧
            Pending.verdict? { id, asked := ⟨x.text, n⟩, token? } action = none) →
          (d.run (.lookup id (.number x) token? none
              :: (between ++ [.reply id (.block found)]))).2.map (·.verdicts id)
            = [] :: (between.map (fun _ => []) ++ [[verdict]]) := by
  let p : Pending := { id, asked := ⟨x.text, n⟩, token? }
  have hasked : Asked.ofValue (.number x) = .ok p.asked := by
    show Asked.ofNumber x = _
    rw [Asked.ofNumber, hx]
  refine ⟨p.verdict (.block found), Pending.exact_of_carries hfound hx rfl,
    Lookup.verified_eq_reply hx rfl, fun d hfree => ⟨?_, fun between hunder hbetween => ?_⟩⟩
  · rw [lookup, hfree, hasked]
    rfl
  -- waiting: no action in between concerns the lookup, and then the reply does
  · let o : Opening := { id, number := .number x, token? }
    have hother : ∀ action ∈ between ++ [.reply id (.block found)], action.opens? ≠ some o.id := by
      intro action hmem
      rcases List.mem_append.mp hmem with hmem | hmem
      · exact (hbetween action hmem).1
      · rw [List.mem_singleton.mp hmem]
        exact (Option.some_ne_none _).symm
    have hcourse : o.course o.rule [] (between ++ [.reply id (.block found)])
        = [] :: p.course p.verdict (between ++ [.reply id (.block found)]) := by
      rw [Opening.course, hasked]
      rfl
    rw [Pending.course_append fun action hmem => (hbetween action hmem).2] at hcourse
    have hreply : p.course p.verdict [.reply id (.block found)] = [[p.verdict (.block found)]] := by
      simp [Pending.course, Pending.decides?, p]
    rw [hreply] at hcourse
    have hrun :
        (d.run (o.action :: (between ++ [.reply id (.block found)]))).2.map (·.verdicts o.id)
          = o.course o.rule [] (between ++ [.reply id (.block found)]) :=
        run_opening hunder hother hfree
    exact hrun.trans hcourse

/-- A block at the greatest safe height. -/
def lastSafe (timestamp : Int) : RawBlock where
  hash? := some "a"
  number? := some Number.maxSafe
  parentHash := "b"
  timestamp := timestamp

/-- `lastSafe` meets the premises of `lookup_exact`. The greatest safe integer is taken as a time,
and the one two above it, which is rounded, is not. -/
theorem lastSafe_exact :
    (Number.whole Number.maxSafe).toInt? = some (Number.maxSafe : Int) ∧
    (∀ timestamp, (lastSafe timestamp).toValue.Carries (lastSafe timestamp)) ∧
    (({} : Desk).lookup "own" (.number (.whole Number.maxSafe)) none
      (some (.block (lastSafe Number.maxSafe).toValue))).2.decided
        = [⟨"own", .ok ((lastSafe Number.maxSafe).header Number.maxSafe)⟩] ∧
    (Number.ofInt (Number.maxSafe + 2)).toInt? = some (Number.maxSafe + 1 : Int) ∧
    ∃ fault, (({} : Desk).lookup "own" (.number (.whole Number.maxSafe)) none
      (some (.block (lastSafe (Number.maxSafe + 2)).toValue))).2.decided
        = [⟨"own", .error (.fault fault)⟩] := by
  have hx : (Number.whole Number.maxSafe).toInt? = some (Number.maxSafe : Int) := rfl
  -- two further on, and no longer a safe integer once it is rounded
  have hrounded : (Number.ofInt (Number.maxSafe + 2)).toInt? = some (Number.maxSafe + 1 : Int) := by
    decide +kernel
  have hcarries := fun timestamp => RawBlock.carries_toValue (lastSafe timestamp)
  refine ⟨hx, hcarries, ?_, hrounded, ?_⟩
  -- at the last safe integer the block fits
  · obtain ⟨verdict, hexact, -, hdesk⟩ := lookup_exact hx (hcarries Number.maxSafe) "own" none
    have hfits : (lastSafe Number.maxSafe).Fits Number.maxSafe :=
      ⟨⟨"a", rfl, by decide⟩, rfl, by decide, by decide, by decide⟩
    obtain ⟨header, hok⟩ := hexact.resolves_iff.mpr hfits
    rw [(hdesk {} rfl).1, hok, (hexact.header_eq header hok).1]
  -- beyond it the timestamp does not
  · obtain ⟨verdict, hexact, -, hdesk⟩ := lookup_exact hx (hcarries (Number.maxSafe + 2)) "own" none
    have hnot : ¬(lastSafe (Number.maxSafe + 2)).Fits Number.maxSafe := by
      intro hfits
      exact absurd hfits.timestamp_safe.2 (by decide)
    obtain ⟨fault, hfault⟩ := hexact.fails hnot
    exact ⟨fault, by rw [(hdesk {} rfl).1, hfault]⟩

end Desk

end Settlement
