import Settlement.Number.Shortest
import Settlement.Text.Numeral

/-!
# Digits read back

A safe integer is read back from its digits, whatever blanks stand around them. Digits are no
blanks, so that trimming takes off the blanks and nothing else; they announce no base and have
neither point nor exponent; and what they stand for is small enough not to be rounded.

## Key results

- `trim_append`: trimming drops the blanks around a text without blanks
- `numeral_digits`: digits are read as what they are the digits of
- `ofText_padded`: a safe integer is read back from its text between blanks
-/

namespace Settlement

namespace Text

variable {c : Char} {cs before after : List Char}

/-! ## Blanks -/

/-- Blanks in front are dropped up to the first character that is none (`isBlank`). -/
private theorem dropWhile_blanks (hbefore : ∀ c ∈ before, isBlank c = true)
    (hcs : ∀ c, cs.head? = some c → isBlank c = false) :
    (before ++ cs).dropWhile isBlank = cs := by
  rw [List.dropWhile_append_of_pos hbefore]
  cases cs with
  | nil => rfl
  | cons first rest => exact List.dropWhile_cons_of_neg (by simp [hcs first rfl])

/-- `trim` drops the blanks around a text without blanks. -/
theorem trim_append (hbefore : ∀ c ∈ before, isBlank c = true)
    (hafter : ∀ c ∈ after, isBlank c = true) (hne : cs ≠ [])
    (hcs : ∀ c ∈ cs, isBlank c = false) : trim (before ++ (cs ++ after)) = cs := by
  -- first the blanks in front, then those behind, which are in front once the text is reversed
  have hfront : (before ++ (cs ++ after)).dropWhile isBlank = cs ++ after := by
    refine dropWhile_blanks hbefore fun c hc => hcs c ?_
    obtain ⟨first, rest, rfl⟩ := List.exists_cons_of_ne_nil hne
    obtain rfl := Option.some.inj hc
    exact List.mem_cons_self
  have hback : (after.reverse ++ cs.reverse).dropWhile isBlank = cs.reverse := by
    refine dropWhile_blanks (fun c hc => hafter c (List.mem_reverse.mp hc)) fun c hc => hcs c ?_
    exact List.mem_reverse.mp (List.mem_of_head? hc)
  rw [trim, hfront, List.reverse_append, hback, List.reverse_reverse]

/-! ## Digits -/

/-- `digitValue?` of a decimal digit is its distance from `0`. -/
theorem digitValue?_of_isDigit (h : c.isDigit = true) :
    digitValue? c = some (c.toNat - '0'.toNat) := by
  have hdigit : '0' ≤ c ∧ c ≤ '9' := by
    simpa [Char.isDigit, Char.le_def] using h
  exact if_pos hdigit

/-- A decimal digit is `isDigitOf 10`. -/
theorem isDigitOf_of_isDigit (h : c.isDigit = true) : isDigitOf 10 c = true := by
  have hdigit : '0' ≤ c ∧ c ≤ '9' := by
    simpa [Char.isDigit, Char.le_def] using h
  have htop : c.toNat ≤ '9'.toNat := hdigit.2
  rw [isDigitOf, digitValue?_of_isDigit h, Option.any_some, decide_eq_true_iff]
  have hnine : '9'.toNat = 57 := rfl
  have hzero : '0'.toNat = 48 := rfl
  omega

/-- No decimal digit is among the `blanks`. -/
theorem isBlank_of_isDigit (h : c.isDigit = true) : isBlank c = false := by
  rw [Bool.eq_false_iff]
  intro hblank
  have hmem : c ∈ blanks := by simpa [isBlank] using hblank
  have hnone : blanks.all (fun c => !c.isDigit) = true := by decide
  have hdigit := List.all_eq_true.mp hnone c hmem
  rw [h] at hdigit
  exact nomatch hdigit

/-- `digitsValue` in base ten is `Nat.ofDigitChars` of the library. -/
theorem digitsValue_eq (h : ∀ c ∈ cs, c.isDigit = true) :
    digitsValue 10 cs = Nat.ofDigitChars 10 cs 0 := by
  have hfold : ∀ value, cs.foldl (fun value c => value * 10 + (digitValue? c).getD 0) value
      = Nat.ofDigitChars 10 cs value := by
    -- the value so far is generalised: both folds start from it
    induction cs with
    | nil => exact fun _ => rfl
    | cons c cs ih =>
      intro value
      have hc := digitValue?_of_isDigit (h c List.mem_cons_self)
      rw [List.foldl_cons, ih fun d hd => h d (List.mem_cons_of_mem _ hd), hc,
        Nat.ofDigitChars_cons, Nat.mul_comm]
      rfl
  exact hfold 0

end Text

namespace Number

variable {n : Nat}

/-- `ofDecimal` without exponent is the integer itself, up to `maxSafe`. -/
theorem ofDecimal_zero (negative : Bool) (hpos : 0 < n) (h : n ≤ maxSafe) :
    ofDecimal negative n 0 = whole (signed negative n) := by
  have hmax : maxSafe = 2 ^ 53 - 1 := rfl
  have hcount : digitCount n ≤ 16 :=
    (Nat.length_toDigits_le_iff (by decide) (by decide)).mpr (by omega)
  unfold ofDecimal
  -- neither zero, nor too large, nor too small to be looked at
  rw [if_neg (by omega), if_neg (by omega), if_neg (by omega)]
  show nearest negative (n * 1) 1 = _
  unfold nearest
  have hexact : n * 1 % 1 = 0 ∧ n * 1 / 1 ≤ Nat.pow 2 53 := by
    show n * 1 % 1 = 0 ∧ n * 1 / 1 ≤ 2 ^ 53
    omega
  rw [if_neg (by omega), if_pos hexact, Nat.mul_one, Nat.div_one]

end Number

namespace Text

variable {c : Char} {cs before after : List Char}

/-- `decimal?` of digits alone has neither point nor exponent. -/
theorem decimal?_digits (hne : cs ≠ []) (hcs : ∀ c ∈ cs, c.isDigit = true) (negative : Bool) :
    decimal? negative cs = some (.ofDecimal negative (Nat.ofDigitChars 10 cs 0) 0) := by
  have hall : ∀ c ∈ cs, isDigitOf 10 c = true := fun c hc => isDigitOf_of_isDigit (hcs c hc)
  -- all of it is the whole part, and nothing is left for a fraction
  have hwhole : cs.takeWhile (isDigitOf 10) = cs := by
    rw [← List.append_nil cs, List.takeWhile_append_of_pos hall]
    rfl
  have hrest : cs.dropWhile (isDigitOf 10) = [] := by
    rw [← List.append_nil cs, List.dropWhile_append_of_pos hall]
    rfl
  have hsome : cs.isEmpty = false := List.isEmpty_eq_false_iff.mpr hne
  unfold decimal?
  rw [hwhole, hrest]
  simp only [fraction, exponent?, hsome, Bool.false_and, Bool.false_eq_true, if_false,
    Option.map_some, List.append_nil, List.length_nil, digitsValue_eq hcs]
  rfl

/-- Digits do not spell `Infinity`. -/
private theorem ne_infinity (hcs : ∀ c ∈ cs, c.isDigit = true) : cs ≠ "Infinity".toList := by
  rintro rfl
  exact absurd (hcs 'I' (by decide)) (by decide)

/-- Digits announce no base (`based?`). -/
theorem based?_digits (hcs : ∀ c ∈ cs, c.isDigit = true) : based? cs = none := by
  unfold based?
  split
  · rename_i c rest
    have hc := hcs c (by simp)
    -- the second character would have to be a letter
    have hno : ¬(c = 'x' ∨ c = 'X') ∧ ¬(c = 'o' ∨ c = 'O') ∧ ¬(c = 'b' ∨ c = 'B') := by
      refine ⟨?_, ?_, ?_⟩ <;>
      · rintro (rfl | rfl) <;> exact absurd hc (by decide)
    rw [if_neg hno.1, if_neg hno.2.1, if_neg hno.2.2]
  · rfl

/-- `numeral` reads digits as what they are the digits of. -/
theorem numeral_digits (hne : cs ≠ []) (hcs : ∀ c ∈ cs, c.isDigit = true) :
    numeral cs = .ofDecimal false (Nat.ofDigitChars 10 cs 0) 0 := by
  have hsome : cs.isEmpty = false := List.isEmpty_eq_false_iff.mpr hne
  -- a digit is no sign
  have hsign : sign cs = (false, cs) := by
    unfold sign
    split
    · exact absurd (hcs '-' List.mem_cons_self) (by decide)
    · exact absurd (hcs '+' List.mem_cons_self) (by decide)
    · rfl
  unfold numeral signedNumeral
  rw [hsome, based?_digits hcs, hsign]
  dsimp only
  rw [if_neg (ne_infinity hcs), decimal?_digits hne hcs]
  rfl

/-- `numeral` reads digits after a minus sign as the negative of what they are the digits of. -/
theorem numeral_minus_digits (hne : cs ≠ []) (hcs : ∀ c ∈ cs, c.isDigit = true) :
    numeral ('-' :: cs) = .ofDecimal true (Nat.ofDigitChars 10 cs 0) 0 := by
  have hbase : based? ('-' :: cs) = none := rfl
  have hsign : sign ('-' :: cs) = (true, cs) := rfl
  unfold numeral signedNumeral
  rw [hbase, hsign]
  dsimp only
  rw [if_neg (ne_infinity hcs), decimal?_digits hne hcs]
  rfl

/-- `Number.text` writes a safe integer with its digits, after a minus sign if it is negative. -/
theorem toList_text {n : Int} (h : n.natAbs ≤ Number.maxSafe) :
    (Number.whole n).text.toList
      = if 0 ≤ n then Nat.toDigits 10 n.toNat else '-' :: Nat.toDigits 10 (-n).toNat := by
  rw [Number.text_whole n h, Int.toString_eq_repr, Int.repr_eq_if]
  split
  · exact Nat.toList_repr
  · rw [String.toList_append, Nat.toList_repr]
    rfl

/-- `Nat.toDigits 10` writes decimal digits. -/
private theorem isDigit_of_mem {n : Nat} (h : c ∈ Nat.toDigits 10 n) : c.isDigit = true :=
  Nat.isDigit_of_mem_toDigits (by decide) (by decide) h

/-- No character that `Number.text` writes for a safe integer is a blank. -/
theorem isBlank_of_mem_text {n : Int} (h : n.natAbs ≤ Number.maxSafe)
    (hc : c ∈ (Number.whole n).text.toList) : isBlank c = false := by
  rw [toList_text h] at hc
  split at hc
  · exact isBlank_of_isDigit (isDigit_of_mem hc)
  · rcases List.mem_cons.mp hc with rfl | hc
    · decide
    · exact isBlank_of_isDigit (isDigit_of_mem hc)

/-- `Number.text` writes at least one character. -/
theorem text_ne_nil {n : Int} (h : n.natAbs ≤ Number.maxSafe) :
    (Number.whole n).text.toList ≠ [] := by
  rw [toList_text h]
  split
  · exact Nat.toDigits_ne_nil
  · exact List.cons_ne_nil _ _

/-- `numeral` reads a safe integer back from its `Number.text`. -/
theorem numeral_text {n : Int} (h : n.natAbs ≤ Number.maxSafe) :
    numeral (Number.whole n).text.toList = .whole n := by
  have hmax : Number.maxSafe = 2 ^ 53 - 1 := rfl
  have hdigits : ∀ m : Nat, ∀ c ∈ Nat.toDigits 10 m, c.isDigit = true := fun _ _ => isDigit_of_mem
  rw [toList_text h]
  split
  · rename_i hnonneg
    rw [numeral_digits Nat.toDigits_ne_nil (hdigits _), Nat.ofDigitChars_ten_toDigits]
    -- zero is read by a branch of its own
    rcases Nat.eq_zero_or_pos n.toNat with hzero | hpos
    · obtain rfl : n = 0 := by omega
      rfl
    · rw [Number.ofDecimal_zero false hpos (by omega), Number.signed, if_neg Bool.false_ne_true,
        Int.toNat_of_nonneg hnonneg]
  · rename_i hneg
    rw [numeral_minus_digits Nat.toDigits_ne_nil (hdigits _), Nat.ofDigitChars_ten_toDigits,
      Number.ofDecimal_zero true (by omega) (by omega), Number.signed, if_pos rfl]
    congr 1
    omega

/-- `Number.ofText` reads a safe integer back from its text between blanks. -/
theorem ofText_padded {n : Int} (h : n.natAbs ≤ Number.maxSafe)
    (hbefore : ∀ c ∈ before, isBlank c = true) (hafter : ∀ c ∈ after, isBlank c = true) :
    Number.ofText (String.ofList (before ++ ((Number.whole n).text.toList ++ after)))
      = .whole n := by
  rw [Number.ofText, String.toList_ofList,
    trim_append hbefore hafter (text_ne_nil h) fun c hc => isBlank_of_mem_text h hc]
  exact numeral_text h

end Text

end Settlement
