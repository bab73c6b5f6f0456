import Settlement.Pass.Plan
import Settlement.Proofs.Number.Safe

/-!
# Acceptance

A block that comes back over RPC is taken for the one asked for if it is acceptable, which is said
field by field (`Lookup.Acceptable`), and fails if it is not. What is taken keeps the
hash of the block. A check over what was taken never breaks: the block is the one expected, or
another one.

## Key results

- `accept_eq_ok_iff`: what makes a header of a block
- `verified_of_acceptable`, `verified_of_not_acceptable`: what comes of a block that comes back
- `compare_toValue`, `unreadable_of_broken`: what comes of a check over a block
-/

namespace Settlement

/-- `Value.isHeader` of a header says of each of its fields that it can hold what it stands for. -/
theorem Header.isHeader_toValue (h : Header) : h.toValue.isHeader
    = ((Value.text h.hash).isHash && h.number.isBlockNumber && (Value.text h.parentHash).isHash
      && h.timestamp.isBlockNumber) := rfl

/-- A value with `isHash` is a text. -/
theorem Value.exists_text_of_isHash {v : Value} (h : v.isHash = true) : ∃ s, v = .text s := by
  cases v with
  | text s => exact ⟨s, rfl⟩
  | _ => exact nomatch h

namespace Lookup

/-- A block that `Lookup.verified` takes for the one at the height asked for. -/
structure Acceptable (asked : Number) (found : Value) : Prop where
  hash : (found.field "hash").isHash = true
  parentHash : (found.field "parentHash").isHash = true
  /-- The number is the height asked for, as an exact integer, and a safe one from zero on. -/
  number : ∃ height : Int, asked.toInt? = some height ∧ found.field "number" = .integer height ∧
    0 ≤ height ∧ height ≤ Number.maxSafe
  /-- The timestamp can be read as a safe integer from zero on. -/
  timestamp : ∃ time, (found.field "timestamp").toNumber = .ok time ∧ time.isBlockNumber = true

variable {asked : Number} {found : Value}

/-- `Lookup.header` is made of the fields of a block, if they can hold what they stand for. -/
theorem header_eq_ok_iff {asked : Asked} {header : Header} :
    Lookup.header asked found = .ok header ↔
      (found.field "timestamp").toNumber = .ok header.timestamp ∧
      found.field "hash" = .text header.hash ∧
      found.field "parentHash" = .text header.parentHash ∧
      header.number = .ofInt asked.height ∧ header.extra = [] ∧
      header.toValue.isHeader = true := by
  unfold Lookup.header
  constructor
  -- read off the branch that succeeds
  · intro h
    split at h
    · exact nomatch h
    · rename_i timestamp htimestamp
      split at h
      · rename_i hash parentHash hhash hparentHash
        dsimp only at h
        split at h
        · rename_i hshape
          obtain rfl := Except.ok.inj h
          exact ⟨htimestamp, hhash, hparentHash, rfl, rfl, hshape⟩
        · exact nomatch h
      · exact nomatch h
  -- and run through it with its conditions
  · obtain ⟨⟨⟨hash, number, extra⟩, parentHash, timestamp⟩⟩ := header
    rintro ⟨htimestamp, hhash, hparentHash, rfl, rfl, hshape⟩
    simp only [htimestamp, hhash, hparentHash]
    exact if_pos hshape

/-- `Lookup.accept` takes a block with the number asked for, if there is a `Lookup.header` of it. -/
theorem accept_eq_ok_iff {asked : Asked} {header : Header} :
    accept asked found = .ok header ↔
      found.field "number" = .integer asked.height ∧ Lookup.header asked found = .ok header := by
  constructor
  · intro h
    -- of all branches only that of the right number gives a header
    unfold accept at h
    split at h
    · exact nomatch h
    · split at h
      · exact nomatch h
      · split at h
        · rename_i n hnumber
          split at h
          · rename_i hsame
            exact ⟨hsame ▸ hnumber, h⟩
          · exact nomatch h
        · split at h <;> exact nomatch h
  · rintro ⟨hnumber, hheader⟩
    obtain ⟨-, hhash, -⟩ := header_eq_ok_iff.mp hheader
    -- nothing has no number, and so there is something
    have hsome : found.isNothing = false := by
      cases found with
      | undefined | null => exact nomatch hnumber
      | _ => rfl
    simp only [accept, hsome, hhash, hnumber, isNull, Bool.or_self, Bool.false_eq_true, if_false,
      if_true]
    exact hheader

/-- `Lookup.verified` of a block, unfolded. -/
theorem verified_block (asked : Number) (found : Value) :
    verified asked (.block found) =
      match Asked.ofNumber asked >>= (accept · found) with
      | .ok header => .block header.toValue
      | .error fault => .failure (.fault fault) := rfl

/-- A block that can be taken for the one at a height that is already an integer
(`Lookup.accept`). -/
structure AcceptableAt (height : Int) (found : Value) : Prop where
  hash : (found.field "hash").isHash = true
  parentHash : (found.field "parentHash").isHash = true
  number : found.field "number" = .integer height
  safe : 0 ≤ height ∧ height ≤ Number.maxSafe
  timestamp : ∃ time, (found.field "timestamp").toNumber = .ok time ∧ time.isBlockNumber = true

/-- `Acceptable` is `AcceptableAt` the integer that the number asked for stands for. -/
theorem acceptable_iff :
    Acceptable asked found ↔ ∃ height, asked.toInt? = some height ∧ AcceptableAt height found := by
  constructor
  · rintro ⟨hhash, hparentHash, ⟨height, hasked, hnumber, hsafe⟩, htime⟩
    exact ⟨height, hasked, hhash, hparentHash, hnumber, hsafe, htime⟩
  · rintro ⟨height, hasked, hhash, hparentHash, hnumber, hsafe, htime⟩
    exact ⟨hhash, hparentHash, ⟨height, hasked, hnumber, hsafe⟩, htime⟩

/-- `IsHeaderOf header height found`: a header is made of the two hashes of a block, of this height,
and of the time that can be read in the block. -/
structure IsHeaderOf (header : Header) (height : Int) (found : Value) : Prop where
  hash : found.field "hash" = .text header.hash
  parentHash : found.field "parentHash" = .text header.parentHash
  number : header.number = .ofInt height
  timestamp : (found.field "timestamp").toNumber = .ok header.timestamp
  extra : header.extra = []

/-- `IsHeaderOf` determines the header. -/
theorem IsHeaderOf.unique {height : Int} {header other : Header}
    (h : IsHeaderOf header height found) (hother : IsHeaderOf other height found) :
    header = other := by
  obtain ⟨⟨hash, number, extra⟩, parentHash, timestamp⟩ := header
  obtain ⟨⟨hash', number', extra'⟩, parentHash', timestamp'⟩ := other
  -- field by field, each of them read from the same block
  obtain rfl : hash = hash' := Value.text.inj (h.hash.symm.trans hother.hash)
  obtain rfl : parentHash = parentHash' :=
    Value.text.inj (h.parentHash.symm.trans hother.parentHash)
  obtain rfl : timestamp = timestamp' := Except.ok.inj (h.timestamp.symm.trans hother.timestamp)
  obtain rfl : number = number' := h.number.trans hother.number.symm
  obtain rfl : extra = extra' := h.extra.trans hother.extra.symm
  rfl

/-- `Lookup.accept` takes a block with `AcceptableAt`, and makes its header of it (`IsHeaderOf`). -/
theorem accept_of_acceptableAt {height : Int} (h : AcceptableAt height found) (text : String) :
    ∃ header, accept { text, height } found = .ok header ∧ IsHeaderOf header height found := by
  obtain ⟨hhash, hparentHash, hnumber, hsafe, time, htime, hblock⟩ := h
  obtain ⟨hash, hhash'⟩ := Value.exists_text_of_isHash hhash
  obtain ⟨parentHash, hparentHash'⟩ := Value.exists_text_of_isHash hparentHash
  let header : Header := { hash, number := .ofInt height, parentHash, timestamp := time }
  -- every field of the header can hold what it stands for
  have hshape : header.toValue.isHeader = true := by
    rw [hhash'] at hhash
    rw [hparentHash'] at hparentHash
    have hheight := (Number.isBlockNumber_ofInt height).mpr hsafe
    rw [Header.isHeader_toValue, hhash, hheight, hparentHash, hblock]
    rfl
  exact ⟨header, accept_eq_ok_iff.mpr ⟨hnumber,
    header_eq_ok_iff.mpr ⟨htime, hhash', hparentHash', rfl, rfl, hshape⟩⟩,
    hhash', hparentHash', rfl, htime, rfl⟩

/-- Whatever `Lookup.accept` takes has `AcceptableAt`. -/
theorem acceptableAt_of_accept {height : Int} {text : String} {header : Header}
    (h : accept { text, height } found = .ok header) : AcceptableAt height found := by
  obtain ⟨hnumber, hheader⟩ := accept_eq_ok_iff.mp h
  obtain ⟨htime, hhash, hparentHash, hheight, -, hshape⟩ := header_eq_ok_iff.mp hheader
  -- the shape of the header says what its fields can hold
  rw [Header.isHeader_toValue, ← hhash, ← hparentHash, hheight] at hshape
  simp only [Bool.and_eq_true] at hshape
  obtain ⟨⟨⟨hhash', hsafe⟩, hparentHash'⟩, hblock⟩ := hshape
  exact ⟨hhash', hparentHash', hnumber, (Number.isBlockNumber_ofInt height).mp hsafe, _, htime,
    hblock⟩

/-- `Lookup.verified` lets a block with `AcceptableAt` through, as its header. -/
theorem verified_of_acceptableAt {height : Int} (hasked : asked.toInt? = some height)
    (hfound : AcceptableAt height found) :
    ∃ header : Header, verified asked (.block found) = .block header.toValue ∧
      IsHeaderOf header height found := by
  obtain ⟨header, haccept, hheader⟩ := accept_of_acceptableAt hfound asked.text
  refine ⟨header, ?_, hheader⟩
  rw [verified_block, Asked.ofNumber, hasked]
  show (match accept { text := asked.text, height } found with
    | .ok header => Reply.block header.toValue
    | .error fault => .failure (.fault fault)) = _
  rw [haccept]

/-- `Lookup.verified` lets a block with `Acceptable` through, with its hash. -/
theorem verified_of_acceptable (h : Acceptable asked found) :
    ∃ header : Header, found.field "hash" = .text header.hash ∧
      verified asked (.block found) = .block header.toValue := by
  obtain ⟨height, hasked, hfound⟩ := acceptable_iff.mp h
  obtain ⟨header, hverified, hheader⟩ := verified_of_acceptableAt hasked hfound
  exact ⟨header, hheader.hash, hverified⟩

/-- `Lookup.verified` makes a failure of a block without `Acceptable`. -/
theorem verified_of_not_acceptable (h : ¬Acceptable asked found) :
    ∃ fault, verified asked (.block found) = .failure (.fault fault) := by
  rw [verified_block]
  cases hresult : Asked.ofNumber asked >>= (accept · found) with
  | error fault => exact ⟨fault, rfl⟩
  | ok header =>
    -- a header could only have been made of an acceptable block
    refine absurd ?_ h
    unfold Asked.ofNumber at hresult
    cases hasked : asked.toInt? with
    | none =>
      rw [hasked] at hresult
      exact nomatch hresult
    | some height =>
      rw [hasked] at hresult
      exact acceptable_iff.mpr ⟨height, hasked, acceptableAt_of_accept hresult⟩

/-- Whatever `Lookup.verified` lets through as a block was `Acceptable`, and has its hash. -/
theorem of_verified_eq_block {raw : Reply} {block : Value}
    (h : verified asked raw = .block block) :
    ∃ found, raw = .block found ∧ Acceptable asked found ∧
      ∃ header : Header, found.field "hash" = .text header.hash ∧ block = header.toValue := by
  cases raw with
  | failure reason => exact nomatch h
  | block found =>
    -- what is not acceptable is a failure, and no block
    by_cases hfound : Acceptable asked found
    · obtain ⟨header, hhash, hverified⟩ := verified_of_acceptable hfound
      exact ⟨found, rfl, hfound, header, hhash, Reply.block.inj (h.symm.trans hverified)⟩
    · obtain ⟨fault, hfault⟩ := verified_of_not_acceptable hfound
      exact nomatch h.symm.trans hfault

/-- `Lookup.verified` makes a failure of every reply but an `Acceptable` block. -/
theorem exists_failure_of_not_acceptable {raw : Reply}
    (h : ∀ found, raw = .block found → ¬Acceptable asked found) :
    ∃ reason, verified asked raw = .failure reason := by
  cases raw with
  | failure reason => exact ⟨reason, rfl⟩
  | block found =>
    obtain ⟨fault, hfault⟩ := verified_of_not_acceptable (h found rfl)
    exact ⟨_, hfault⟩

end Lookup

namespace Plan

variable {plan : Plan} {stage : Stage}

/-- `Plan.compare` finds the header of a block to be the one expected, or another one, by its
hash. -/
theorem compare_toValue (plan : Plan) (stage : Stage) (header : Header) :
    plan.compare stage header.toValue =
      if header.hash = (plan.expected stage).hash then .canonical
      else .blocked (plan.replaced stage header.toBlockId.text) := by
  have htext : (header.toValue.field "hash").text? = some header.hash := rfl
  have hidentity : header.toValue.identityText = .ok header.toBlockId.text := rfl
  have hsome : header.toValue.isNothing = false := rfl
  simp only [compare, htext, hidentity, hsome, Option.some.injEq, Bool.false_eq_true, if_false]

/-- `Plan.compare` breaks over a block only if there is none, or if its hash or its number has no
text. -/
theorem unreadable_of_broken {found : Value} {fault : Fault}
    (h : plan.compare stage found = .broken fault) :
    found.isNothing = true ∨ (∃ f, (found.field "hash").toText = .error f) ∨
      ∃ f, (found.field "number").toText = .error f := by
  unfold compare at h
  split at h
  · rename_i hnothing
    exact .inl hnothing
  · split at h
    · exact nomatch h
    · split at h
      · exact nomatch h
      · rename_i f hidentity
        -- the text of the block is made of these two
        cases hhash : (found.field "hash").toText with
        | error f => exact .inr (.inl ⟨f, rfl⟩)
        | ok name =>
          cases hnumber : (found.field "number").toText with
          | error f => exact .inr (.inr ⟨f, rfl⟩)
          | ok place =>
            rw [Value.identityText, hhash, hnumber] at hidentity
            exact nomatch hidentity

/-- `Plan.compare` is blocked by nothing but another block (`Plan.replaced`). -/
theorem replaced_of_compare {found : Value} {obstacle : Obstacle}
    (h : plan.compare stage found = .blocked obstacle) :
    ∃ actual, obstacle = plan.replaced stage actual := by
  unfold compare at h
  -- nothing found, the hash that is expected, or another one
  split at h
  · exact nomatch h
  · split at h
    · exact nomatch h
    · split at h
      · rename_i actual _
        exact ⟨actual, (Check.blocked.inj h).symm⟩
      · exact nomatch h

/-- `Plan.check` breaks only over a block that was found for a pass that is not cancelled. -/
theorem of_check_eq_broken {reply : Reply} {cancelled? : Option Value} {fault : Fault}
    (h : plan.check stage reply cancelled? = .broken fault) :
    ∃ found, reply = .block found ∧ cancelled? = none ∧
      plan.compare stage found = .broken fault := by
  cases reply with
  | failure reason => exact nomatch h
  | block found =>
    cases cancelled? with
    | some reason => exact nomatch h
    | none => exact ⟨found, rfl, rfl, h⟩

/-- `Plan.check` demands a reset only over a block that was found for a pass that is not
cancelled. -/
theorem of_check_eq_reset {reply : Reply} {cancelled? : Option Value} {obstacle : Obstacle}
    (h : plan.check stage reply cancelled? = .blocked obstacle) (hkind : obstacle.kind = .reset) :
    ∃ found, reply = .block found ∧ cancelled? = none ∧
      plan.compare stage found = .blocked obstacle := by
  cases reply with
  | failure reason =>
    -- not to reach a block is temporary
    obtain rfl := Check.blocked.inj h
    exact nomatch hkind
  | block found =>
    cases cancelled? with
    | some reason =>
      obtain rfl := Check.blocked.inj h
      exact nomatch hkind
    | none => exact ⟨found, rfl, rfl, h⟩

end Plan

end Settlement
