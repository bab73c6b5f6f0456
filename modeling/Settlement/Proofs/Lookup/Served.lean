import Settlement.Chains
import Settlement.Proofs.Acceptance
import Settlement.Proofs.Number.Order
import Settlement.Proofs.Session.Told

/-!
# Blocks served over RPC

A node can be asked directly, which gives its blocks as they are, or over RPC, which serves them
with exact integers for their numbers and times (`Value.served`). A block that is an L1 block
reference and stands at its own height (`Node.isOrderly`) is always accepted then, and a check makes
the same of it: its hash is the same, and so is the text of its identity.

## Key results

- `Reply.alike_answer`: what a node answers is alike directly and over RPC
- `Plan.check_alike`: a check makes the same of replies that are alike
-/

namespace Settlement

namespace Number

variable {x y : Number} {n : Int}

/-- `ofInt` takes a safe integer back, without the sign of a zero. -/
theorem ofInt_of_toInt? (h : x.toInt? = some n) (hsafe : n.natAbs ≤ maxSafe) :
    ofInt n = x.unsigned := by
  have hmax : maxSafe = 2 ^ 53 - 1 := rfl
  rcases toInt?_eq_some_iff.mp h with rfl | ⟨rfl, rfl⟩
  · have hexact : n.natAbs ≤ 2 ^ 53 := by omega
    exact ofInt_of_le n hexact
  · rfl

/-- `toInt?` respects `equal`. -/
theorem toInt?_of_equal (h : x.toInt? = some n) (hequal : x.equal y = true) :
    y.toInt? = some n := by
  have hwhole : (whole n).equal y = true := by
    rcases toInt?_eq_some_iff.mp h with rfl | ⟨rfl, rfl⟩
    · exact hequal
    · cases y <;> exact hequal
  cases y with
  | nan | infinite => cases hwhole
  | negativeZero =>
    have hzero : n * 1 = 0 := by simpa [equal, num, shift] using hwhole
    simp [toInt?]
    omega
  | whole m => simpa [eq_comm] using hwhole
  | fraction m k odd =>
    -- a fraction in lowest terms is no integer
    have heven : n * 2 ^ (k + 1) = m := by simpa [equal, num, shift] using hwhole
    rw [Int.pow_succ, ← Int.mul_assoc] at heven
    omega

end Number

namespace Value

/-- `integer` for a number that is one. -/
def exact : Value → Value
  | .number x =>
    match x.toInt? with
    | some n => .integer n
    | none => .number x
  | v => v

/-- A block as a node serves it over RPC: the number and the time are made `exact`. -/
def served : Value → Value
  | .record fields => .record (fields.map fun field =>
      (field.1, if field.1 = "number" ∨ field.1 = "timestamp" then field.2.exact else field.2))
  | v => v

/-- `served` changes the number and the time of a block only. -/
theorem field_served (v : Value) (name : String) :
    v.served.field name
      = if name = "number" ∨ name = "timestamp" then (v.field name).exact else v.field name := by
  cases v with
  | record fields =>
    simp only [served, field]
    -- over the fields, in their order
    induction fields with
    | nil => simp [exact]
    | cons entry fields ih =>
      obtain ⟨key, value⟩ := entry
      simp only [List.map_cons, List.lookup_cons]
      by_cases hkey : name = key
      · subst hkey
        simp
      · have hother : (name == key) = false := by simpa using hkey
        simp [hother, ih]
  | _ => simp [served, field, exact]

/-- `exact` of a number is the integer that it is. -/
theorem exact_number {x : Number} {n : Int} (h : x.toInt? = some n) :
    (Value.number x).exact = .integer n := by
  simp [exact, h]

/-- `isBlockNumber` holds of numbers only. -/
theorem exists_number_of_isBlockNumber {v : Value} (h : v.isBlockNumber = true) :
    ∃ x, v = .number x ∧ x.isBlockNumber = true := by
  cases v with
  | number x => exact ⟨x, rfl, h⟩
  | _ => cases h

/-- The block is an L1 block reference, and its number is this height. -/
def standsAt (block : Value) (height : Number) : Bool :=
  block.isHeader &&
    match block.field "number" with
    | .number x => x.equal height
    | _ => false

/-- `standsAt` as a conjunction. -/
theorem standsAt_iff {block : Value} {height : Number} :
    block.standsAt height = true ↔ block.isHeader = true ∧
      ∃ x, block.field "number" = .number x ∧ x.equal height = true := by
  rw [standsAt, Bool.and_eq_true]
  cases block.field "number" <;> simp

/-- `standsAt` respects `sameKey`. -/
theorem standsAt_of_sameKey {height asked : Number} {block : Value}
    (h : block.standsAt height = true) (hkey : height.sameKey asked = true) :
    block.standsAt asked = true := by
  obtain ⟨hshape, x, hx, hequal⟩ := standsAt_iff.mp h
  refine standsAt_iff.mpr ⟨hshape, x, hx, ?_⟩
  simp only [Number.sameKey, Bool.or_eq_true, Bool.and_eq_true, beq_iff_eq] at hkey
  -- equal numbers, or NaN twice, at which nothing stands
  rcases hkey with hsame | ⟨rfl, rfl⟩
  · obtain ⟨p, hp, hheight⟩ := Number.equal_iff.mp hequal
    obtain ⟨q, hq, hasked⟩ := Number.equal_iff.mp hsame
    rw [hheight] at hq
    cases hq
    exact Number.equal_iff.mpr ⟨p, hp, hasked⟩
  · cases x <;> cases hequal

end Value

namespace Lookup

variable {asked : Number} {found : Value}

/-- `standsAt` fixes the fields of a block, as they are and as they are `served`. -/
theorem fields_of_standsAt (h : found.standsAt asked = true) :
    ∃ (hash : String) (n : Int), found.field "hash" = .text hash ∧
      found.identityText = .ok (hash ++ ":" ++ toString n) ∧ asked.toInt? = some n ∧
      0 ≤ n ∧ n ≤ Number.maxSafe ∧ found.served.field "hash" = .text hash ∧
      found.served.field "number" = .integer n ∧ Acceptable asked found.served := by
  obtain ⟨hshape, x, hx, hequal⟩ := Value.standsAt_iff.mp h
  simp only [Value.isHeader, Value.isBlockId, Bool.and_eq_true] at hshape
  obtain ⟨⟨⟨hhash, hnumber⟩, hparent⟩, htime⟩ := hshape
  obtain ⟨hash, hhash'⟩ := Value.exists_text_of_isHash hhash
  obtain ⟨y, hy, hyblock⟩ := Value.exists_number_of_isBlockNumber htime
  rw [hx] at hnumber
  obtain ⟨n, hn, hzero, hsafe⟩ := Number.exists_toInt?_of_isBlockNumber hnumber
  obtain ⟨t, ht, htzero, htsafe⟩ := Number.exists_toInt?_of_isBlockNumber hyblock
  have hasked := Number.toInt?_of_equal hn hequal
  have hserved : found.served.field "hash" = .text hash := by simp [Value.field_served, hhash']
  have hexact : found.served.field "number" = .integer n := by
    simp [Value.field_served, hx, Value.exact_number hn]
  -- the text of the number is the same, also where it is minus zero
  have htext : x.text = toString n := Number.text_of_toInt? hn (by omega)
  refine ⟨hash, n, hhash', ?_, hasked, hzero, hsafe, hserved, hexact, ?_⟩
  · simp [Value.identityText, Value.toText, hhash', hx, htext]
  · constructor
    · rw [hserved, ← hhash']
      exact hhash
    · simpa [Value.field_served] using hparent
    · exact ⟨n, hasked, hexact, hzero, hsafe⟩
    · refine ⟨.ofInt t, ?_, (Number.isBlockNumber_ofInt t).mpr ⟨htzero, htsafe⟩⟩
      simp [Value.field_served, hy, Value.exact_number ht, Value.toNumber]

/-- `verified` takes a block that `standsAt` the height when it is `served`, with its hash and with
the same text for its identity. -/
theorem verified_served (h : found.standsAt asked = true) :
    ∃ header : Header, verified asked (.block found.served) = .block header.toValue ∧
      found.field "hash" = .text header.hash ∧ found.identityText = .ok header.toBlockId.text := by
  obtain ⟨hash, n, hhash, hidentity, hasked, hzero, hsafe, hserved, hexact, hacceptable⟩ :=
    fields_of_standsAt h
  obtain ⟨taken, -, hverified⟩ := verified_of_acceptable hacceptable
  rw [verified_block, Asked.ofNumber, hasked] at hverified
  -- an acceptable block is not refused
  cases haccept : accept { text := asked.text, height := n } found.served with
  | error fault => simp [bind, Except.bind, haccept] at hverified
  | ok header =>
    -- and its hash and height are those of the header
    obtain ⟨-, hheader⟩ := accept_eq_ok_iff.mp haccept
    obtain ⟨-, hhash', -, hnumber, -, -⟩ := header_eq_ok_iff.mp hheader
    rw [hserved] at hhash'
    cases hhash'
    have htext : header.number.text = toString n := by
      rw [hnumber, Number.ofInt_of_toInt? hasked (by omega), Number.text_unsigned]
      exact Number.text_of_toInt? hasked (by omega)
    refine ⟨header, ?_, hhash, ?_⟩
    · rw [verified_block, Asked.ofNumber, hasked]
      simp [bind, Except.bind, haccept]
    · rw [hidentity, BlockId.text, htext]

end Lookup

/-- Every check makes the same of both replies, up to the reason of a failure as it is told. -/
inductive Reply.Alike (signed : Bool) : Reply → Reply → Prop
  | failure {reason reason' : Value} (h : reason.told signed = reason'.told signed) :
    Alike signed (.failure reason) (.failure reason')
  | block {found found' : Value}
    (h : ∀ (plan : Plan) (stage : Stage), plan.compare stage found = plan.compare stage found') :
    Alike signed (.block found) (.block found')

namespace Node

/-- Every block of the node `standsAt` its own height. -/
def isOrderly (n : Node) : Bool := n.blocks.all fun entry => entry.2.standsAt entry.1

/-- The node that serves these blocks over RPC. -/
def served (n : Node) : Node :=
  { n with blocks := n.blocks.map fun entry => (entry.1, entry.2.served) }

end Node

section

variable {signed : Bool}

namespace Reply

/-- `Alike` holds between a block and the header that `verified` reads from it when it is served. -/
theorem alike_block {asked : Number} {found : Value} (h : found.standsAt asked = true) :
    Alike signed (.block found) (Lookup.verified asked (.block found.served)) := by
  obtain ⟨header, hverified, hhash, hidentity⟩ := Lookup.verified_served h
  rw [hverified]
  refine .block fun plan stage => ?_
  -- a block with a hash is not nothing
  have hsome : found.isNothing = false := by
    cases found with
    | undefined | null => cases hhash
    | _ => rfl
  rw [Plan.compare_toValue]
  simp [Plan.compare, hsome, hhash, hidentity, Value.text?]

/-- `Alike` holds between the answers of a node and of one that serves its blocks over RPC. -/
theorem alike_answer {n m : Node} (h : n.isOrderly = true) (hblocks : m.blocks = n.served.blocks)
    (houtage : m.outage? = n.outage?) {asked asked' : Number}
    (hasked : asked.told signed = asked'.told signed) :
    Alike signed (n.answer asked) (Lookup.verified asked (m.answer asked')) := by
  -- the heights asked for may differ in the sign of a zero, which no key tells apart
  have hkey (key : Number) : key.sameKey asked' = key.sameKey asked := by
    rw [← Number.sameKey_unsigned key asked', ← Number.unsigned_eq_of_told hasked,
      Number.sameKey_unsigned]
  have hfind : m.blocks.find? (fun entry => entry.1.sameKey asked')
      = (n.blocks.find? fun entry => entry.1.sameKey asked).map
          fun entry => (entry.1, entry.2.served) := by
    rw [hblocks, Node.served, List.find?_map]
    simp only [Function.comp_def, hkey]
  simp only [Node.answer, houtage, hfind]
  cases n.outage? with
  | some outage => exact .failure rfl
  | none =>
    -- a height without a block is the one place where an answer holds the height itself
    cases hfound : n.blocks.find? fun entry => entry.1.sameKey asked with
    | none =>
      have hreason : (Value.fault (.noBlock asked)).told signed
          = (Value.fault (.noBlock asked')).told signed := by
        simp [Value.told, Fault.told, hasked]
      exact .failure hreason
    | some entry =>
      have hstands := List.all_eq_true.mp h entry (List.mem_of_find?_eq_some hfound)
      have hsame : entry.1.sameKey asked = true := by simpa using List.find?_some hfound
      exact alike_block (Value.standsAt_of_sameKey hstands hsame)

end Reply

/-- `Plan.check` gives the same for `Alike` replies, up to the reason of a failure as it is told. -/
theorem Plan.check_alike {reply reply' : Reply} (h : reply.Alike signed reply') (plan : Plan)
    (stage : Stage) (cancelled? : Option Value) :
    plan.check stage reply cancelled? = plan.check stage reply' cancelled? ∨
    ∃ reason reason', reason.told signed = reason'.told signed ∧
      plan.check stage reply cancelled? = .blocked (plan.unreached stage reason) ∧
      plan.check stage reply' cancelled? = .blocked (plan.unreached stage reason') := by
  cases h with
  | failure hreason => exact .inr ⟨_, _, hreason, rfl, rfl⟩
  | block hcompare =>
    cases cancelled? with
    | some reason => exact .inl rfl
    | none => exact .inl (hcompare plan stage)

end

end Settlement
