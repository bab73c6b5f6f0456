import Settlement.Log.Notice
import Settlement.Pass.Plan
import Settlement.Proofs.Number.Numeral
import Settlement.Proofs.Number.Safe

/-!
# Blocks told apart by their texts

A block is shown by its hash, a colon and its number. A hash can be any text, one with colons and
digits in it too, but the digits of a number have no colon. So the last colon of the text is the one
in between, and the text of a block is that of no other block.

Texts of blocks stand in the fields of notices (`Notice.shown`) and in the messages of resets
(`Mention`). A message as a whole may be read in two ways if a hash has words of the message in it;
but with all the rest of it given, it tells which block is meant.

## Key results

- `BlockId.text_eq_iff`: blocks with the same text are the same
- `Mention.message_eq_iff`: a message tells which block is meant in one place of it
- `blocks_told_apart`: what the log and the messages of resets show of different blocks is different
-/

namespace Settlement

/-! ## Numbers -/

namespace Number

variable {x y : Number}

/-- `Number.text` writes a block number with the digits of its integer, and a zero without a
sign. -/
theorem exists_text_of_isBlockNumber (h : x.isBlockNumber = true) :
    ∃ n : Nat, x.toInt? = some (n : Int) ∧ x.text.toList = Nat.toDigits 10 n := by
  obtain ⟨n, hn, hzero, hsafe⟩ := exists_toInt?_of_isBlockNumber h
  have habs : n.natAbs ≤ maxSafe := by omega
  have htext : x.text = (whole n).text := by
    rw [text_of_toInt? hn habs, text_whole n habs]
  refine ⟨n.toNat, by rw [hn, Int.toNat_of_nonneg hzero], ?_⟩
  rw [htext, Text.toList_text habs, if_pos hzero]

/-- `Number.text` writes no colon in a block number. -/
theorem colon_not_mem_text (h : x.isBlockNumber = true) : ':' ∉ x.text.toList := by
  obtain ⟨n, -, htext⟩ := exists_text_of_isBlockNumber h
  rw [htext]
  intro hcolon
  have hdigit : ':'.isDigit = true := Nat.isDigit_of_mem_toDigits (by decide) (by decide) hcolon
  exact absurd hdigit (by decide)

/-- `Number.text` is the same for block numbers that are `equal`, and for no others. -/
theorem text_eq_iff (hx : x.isBlockNumber = true) (hy : y.isBlockNumber = true) :
    x.text = y.text ↔ x.equal y = true := by
  obtain ⟨m, hm, hxtext⟩ := exists_text_of_isBlockNumber hx
  obtain ⟨n, hn, hytext⟩ := exists_text_of_isBlockNumber hy
  rw [equal_iff_of_toInt? hm hn, ← String.toList_inj, hxtext, hytext]
  constructor
  -- digits are read back as what they are the digits of
  · intro hdigits
    have hsame : m = n := by
      calc m = Nat.ofDigitChars 10 (Nat.toDigits 10 m) 0 := Nat.ofDigitChars_ten_toDigits.symm
        _ = Nat.ofDigitChars 10 (Nat.toDigits 10 n) 0 := by rw [hdigits]
        _ = n := Nat.ofDigitChars_ten_toDigits
    omega
  · intro hsame
    have : m = n := by omega
    rw [this]

end Number

/-! ## Blocks -/

/-- If `sep` does not stand in `d`, nothing stands before the `sep` that `d` follows. -/
private theorem eq_nil_of_append_cons {α : Type} {sep : α} {between d e : List α} (hd : sep ∉ d)
    (h : sep :: d = between ++ sep :: e) : between = [] ∧ d = e := by
  cases between with
  | nil => exact ⟨rfl, (List.cons.inj h).2⟩
  | cons c between =>
    have hmem : sep ∈ d := by
      rw [(List.cons.inj h).2]
      simp
    exact absurd hmem hd

/-- If `sep` stands neither in `d` nor in `e`, a list is parted before it in one way only, whatever
stands there. -/
private theorem append_cons_inj {α : Type} {sep : α} {s t d e : List α} (hd : sep ∉ d)
    (he : sep ∉ e) (h : s ++ sep :: d = t ++ sep :: e) : s = t ∧ d = e := by
  -- one of the two parts before the separators begins with the other
  rcases List.append_eq_append_iff.mp h with ⟨between, ht, hsplit⟩ | ⟨between, hs, hsplit⟩
  · obtain ⟨rfl, hrest⟩ := eq_nil_of_append_cons hd hsplit
    exact ⟨by simp [ht], hrest⟩
  · obtain ⟨rfl, hrest⟩ := eq_nil_of_append_cons he hsplit
    exact ⟨by simp [hs], hrest.symm⟩

namespace BlockId

variable {a b : BlockId}

/-- `BlockId.text` is the hash, a colon and the digits of the number. -/
theorem toList_text (id : BlockId) :
    id.text.toList = id.hash.toList ++ ':' :: id.number.text.toList := by
  simp [text]

/-- `BlockId.text` is the same for blocks that are the `same`, and for no others. -/
theorem text_eq_iff (ha : a.number.isBlockNumber = true) (hb : b.number.isBlockNumber = true) :
    a.text = b.text ↔ a.same b = true := by
  rw [same, Bool.and_eq_true, beq_iff_eq, ← Number.text_eq_iff ha hb]
  constructor
  · intro htext
    have hchars : a.hash.toList ++ ':' :: a.number.text.toList
        = b.hash.toList ++ ':' :: b.number.text.toList := by
      rw [← toList_text, ← toList_text, htext]
    -- the last colon is the one before the number, whatever the hash is
    obtain ⟨hhash, hnumber⟩ := append_cons_inj (Number.colon_not_mem_text ha)
      (Number.colon_not_mem_text hb) hchars
    exact ⟨String.toList_inj.mp hnumber, String.toList_inj.mp hhash⟩
  · rintro ⟨hnumber, hhash⟩
    rw [text, text, hhash, hnumber]

end BlockId

/-! ## Notices -/

namespace Notice

/-- The blocks that a notice shows, each with its field in `Notice.details`. -/
def shown : Notice → List (String × BlockId)
  | .extended newest | .updated newest => [("lastL1", newest.l1), ("lastL2", newest.l2.toBlockId)]
  | .outdated known signaled => [("prevFinalizedL1", known), ("signaledFinalizedL1", signaled)]
  | .processing signal derivedFrom _ => [("l1Finalized", signal), ("derivedFrom", derivedFrom)]
  | .finalized block derivedFrom signal =>
    [("l2Finalized", block), ("l1DerivedFrom", derivedFrom), ("l1Finalized", signal)]
  | .discarded candidate => [("candidate", candidate)]
  | .failed _ signal => [("l1Finalized", signal)]

/-- `Notice.details` shows a block by its `BlockId.text`. -/
theorem lookup_details {n : Notice} {field : String} {id : BlockId} (h : (field, id) ∈ n.shown) :
    n.details.lookup field = some (.text id.text) := by
  cases n <;> simp only [shown, List.mem_cons, Prod.mk.injEq, List.not_mem_nil, or_false] at h
  case extended | updated | outdated | processing =>
    rcases h with ⟨rfl, rfl⟩ | ⟨rfl, rfl⟩ <;> rfl
  case finalized => rcases h with ⟨rfl, rfl⟩ | ⟨rfl, rfl⟩ | ⟨rfl, rfl⟩ <;> rfl
  case discarded | failed => obtain ⟨rfl, rfl⟩ := h; rfl

end Notice

/-! ## Messages -/

/-- A place for one block in the message of a reset (`Mention.obstacle`), with everything else in
it. -/
inductive Mention where
  /-- The signal that was assumed. -/
  | ofSignal (actual : String)
  /-- What is there instead of the signal. -/
  | insteadOfSignal (signal : BlockId)
  /-- The block derived from. -/
  | ofDerivedFrom (actual : String) (signal : BlockId)
  /-- What is there instead of the block derived from. -/
  | insteadOfDerivedFrom (derivedFrom signal : BlockId)
  /-- The signal that the chain leads to. -/
  | towards (derivedFrom : BlockId) (actual : String)
  deriving Repr

namespace Mention

/-- The obstacle with the block `id` in the place. -/
def obstacle (id : BlockId) : Mention → Obstacle
  | .ofSignal actual => .signalReplaced id actual
  | .insteadOfSignal signal => .signalReplaced signal id.text
  | .ofDerivedFrom actual signal => .provenanceReplaced id actual signal
  | .insteadOfDerivedFrom derivedFrom signal => .provenanceReplaced derivedFrom id.text signal
  | .towards derivedFrom actual => .provenanceReplaced derivedFrom actual id

/-- With all the rest of it given, `Obstacle.message` tells which `BlockId.text` stands in the
place. -/
theorem message_eq_iff (m : Mention) (a b : BlockId) :
    (m.obstacle a).message = (m.obstacle b).message ↔ a.text = b.text := by
  -- what stands before and after the block is the same in both messages
  cases m with
  | ofSignal | insteadOfSignal =>
    simp only [obstacle, Obstacle.message_signalReplaced, String.append_left_inj,
      String.append_right_inj]
  | ofDerivedFrom | insteadOfDerivedFrom | towards =>
    simp only [obstacle, Obstacle.message_provenanceReplaced, String.append_left_inj,
      String.append_right_inj]

end Mention

/-- `v.Identifies id`: a value has the hash and the number of a block. -/
def Value.Identifies (v : Value) (id : BlockId) : Prop :=
  v.field "hash" = .text id.hash ∧ v.field "number" = .number id.number

/-- `Plan.compare` of a block that is not the expected one shows its `BlockId.text`. -/
theorem Plan.compare_of_identifies {found : Value} {id : BlockId} (h : found.Identifies id)
    (p : Plan) (stage : Stage) :
    p.compare stage found
      = if id.hash = (p.expected stage).hash then .canonical
        else .blocked (p.replaced stage id.text) := by
  obtain ⟨hhash, hnumber⟩ := h
  -- there is a hash, and so there is a value
  have hsome : found.isNothing = false := by
    cases found with
    | undefined | null => simp [Value.field] at hhash
    | _ => rfl
  have htext : found.identityText = .ok id.text := by
    rw [Value.identityText, hhash, hnumber]
    rfl
  rw [compare, hsome, hhash, htext]
  simp [Value.text?]

/-! ## Different blocks -/

/-- Where the blocks `a` and `b` are shown, they are shown alike only if they are the same
(`BlockId.same`). -/
structure ToldApart (a b : BlockId) : Prop where
  text : a.text = b.text ↔ a.same b = true
  /-- In any fields of any two notices. -/
  logged : ∀ (n m : Notice) (field other : String), (field, a) ∈ n.shown → (other, b) ∈ m.shown →
    (n.details.lookup field = m.details.lookup other ↔ a.same b = true)
  /-- In the same place of two messages. -/
  mentioned : ∀ m : Mention,
    (m.obstacle a).message = (m.obstacle b).message ↔ a.same b = true
  /-- In one message, as the block expected and the one found. -/
  replaced : ∀ (p : Plan) (stage : Stage) (found : Value) (obstacle : Obstacle),
    p.expected stage = a → found.Identifies b → p.compare stage found = .blocked obstacle →
    obstacle = p.replaced stage b.text ∧ b.text ≠ a.text

/-- `BlockId.text` tells blocks apart, whatever their hashes are: neither the log (`Notice.details`)
nor the messages of resets (`Obstacle.message`) ever show two blocks as one. -/
theorem blocks_told_apart {a b : BlockId} (ha : a.number.isBlockNumber = true)
    (hb : b.number.isBlockNumber = true) : ToldApart a b where
  text := BlockId.text_eq_iff ha hb
  logged n m field other hn hm := by
    rw [Notice.lookup_details hn, Notice.lookup_details hm, ← BlockId.text_eq_iff ha hb]
    simp
  mentioned m := (m.message_eq_iff a b).trans (BlockId.text_eq_iff ha hb)
  replaced p stage found obstacle hexpected hfound hblocked := by
    -- the failure names both blocks, and their hashes are not the same
    rw [Plan.compare_of_identifies hfound, hexpected] at hblocked
    split at hblocked
    · exact nomatch hblocked
    · rename_i hhash
      refine ⟨(Check.blocked.inj hblocked).symm, fun htext => hhash ?_⟩
      have hsame := (BlockId.text_eq_iff hb ha).mp htext
      simp only [BlockId.same, Bool.and_eq_true, beq_iff_eq] at hsame
      exact hsame.2

/-- A block with a hash that looks like a hash with a number. -/
def BlockId.disguised : BlockId := { hash := "0xa:1", number := .negativeZero }

/-- A block whose text differs from that of `BlockId.disguised` in the place of the last colon
only. -/
def BlockId.plain : BlockId := { hash := "0xa", number := 10 }

/-- `BlockId.disguised` and `BlockId.plain` are told apart in a notice and in a message. -/
theorem disguised_told_apart :
    BlockId.disguised.number.isBlockNumber = true ∧ BlockId.plain.number.isBlockNumber = true ∧
    (Notice.discarded .disguised).details.lookup "candidate" = some (.text "0xa:1:0") ∧
    ((Mention.insteadOfSignal .plain).obstacle .disguised).message
      = "need to reset, we assumed 0xa:10 is finalized, but canonical chain is 0xa:1:0" ∧
    ToldApart .disguised .plain := by
  have hdisguised : BlockId.disguised.number.isBlockNumber = true := by decide
  have hplain : BlockId.plain.number.isBlockNumber = true := by decide
  refine ⟨hdisguised, hplain, by rfl, ?_, blocks_told_apart hdisguised hplain⟩
  decide +kernel

end Settlement
