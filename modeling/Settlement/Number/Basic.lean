/-!
# Numbers

Block heights, timestamps and windows are numbers in the sense of binary64: NaN, the two
infinities, minus zero, and dyadic rationals. A rational is an integer or has an odd numerator
over a power of two, so that every value is written in one way only. Comparisons are exact on
the rational value; every operation that makes a new number rounds its exact result once
(`Settlement.Number.Rounding`).

* `Number.lt`, `Number.le`, `Number.equal`: the order and the numeric equality. NaN is
  unordered and differs from itself; minus zero equals zero.
* `Number.toInt?`: the integer that a number is.
* `Number.isSafeInteger`: integers up to `2 ^ 53 - 1` in magnitude, the range in which every
  integer is a number of its own.
-/

namespace Settlement

/-- A binary64 number. `fraction num shift` is the rational `num / 2 ^ (shift + 1)`. -/
inductive Number where
  | nan
  | infinite (negative : Bool)
  | negativeZero
  | whole (n : Int)
  | fraction (num : Int) (shift : Nat) (odd : num % 2 = 1)
  deriving DecidableEq, Repr

namespace Number

instance (n : Nat) : OfNat Number n := ⟨whole n⟩

instance : Inhabited Number := ⟨0⟩

/-- The zero of a sign: `negativeZero`, or `whole 0`. -/
def zero (negative : Bool) : Number := if negative then .negativeZero else whole 0

/-- Numerator of a finite number, over `2 ^ x.shift`. -/
def num : Number → Int
  | .whole n | .fraction n _ _ => n
  | _ => 0

/-- Exponent of the denominator of a finite number. -/
def shift : Number → Nat
  | .fraction _ k _ => k + 1
  | _ => 0

/-- `Number.lt a b`: `a` is strictly below `b`, on exact values. NaN is below nothing, and nothing
is below it. -/
def lt : Number → Number → Bool
  | .nan, _ | _, .nan => false
  | .infinite s, .infinite t => s && !t
  | .infinite s, _ => s
  | _, .infinite t => !t
  | a, b => a.num * Int.pow 2 b.shift < b.num * Int.pow 2 a.shift

/-- `Number.equal a b`: numeric equality on exact values, so that `negativeZero` equals `whole 0`,
and `nan` does not equal itself. -/
def equal : Number → Number → Bool
  | .nan, _ | _, .nan => false
  | .infinite s, .infinite t => s == t
  | .infinite _, _ | _, .infinite _ => false
  | a, b => a.num * Int.pow 2 b.shift == b.num * Int.pow 2 a.shift

/-- `Number.le a b`: `a.lt b` or `a.equal b`; false when either side is NaN. -/
def le (a b : Number) : Bool := a.lt b || a.equal b

instance : LT Number := ⟨fun a b => a.lt b = true⟩

instance : LE Number := ⟨fun a b => a.le b = true⟩

instance (a b : Number) : Decidable (a < b) := inferInstanceAs (Decidable (a.lt b = true))

instance (a b : Number) : Decidable (a ≤ b) := inferInstanceAs (Decidable (a.le b = true))

/-- The same number for a table of heights: `equal`, or both `nan`. -/
def sameKey (a b : Number) : Bool := a.equal b || (a == .nan && b == .nan)

/-- The integer a number is, if it is one; `negativeZero` is `0`. -/
def toInt? : Number → Option Int
  | .negativeZero => some 0
  | .whole n => some n
  | _ => none

/-- The greatest integer that is not above a number; `infinite` and `nan` stay what they are. -/
def floor : Number → Number
  | .fraction n k _ => whole (n / Int.pow 2 (k + 1))
  | x => x

/-- The largest integer up to which every integer is a number of its own, `2 ^ 53 - 1`. -/
def maxSafe : Nat := Nat.pow 2 53 - 1

/-- An integer of magnitude at most `maxSafe`. -/
def isSafeInteger (x : Number) : Bool :=
  match x.toInt? with
  | some n => n.natAbs ≤ maxSafe
  | none => false

/-- The greater of two numbers. `nan` wins over everything, and `whole 0` over `negativeZero`. -/
def max (a b : Number) : Number :=
  if a = .nan ∨ b = .nan then .nan
  else if a < b then b
  else if b < a then a
  -- equal numbers differ at most in the sign of zero
  else if a = .negativeZero then b
  else a

/-! ## Whole numbers -/

/-- `<` on `whole` numbers is that of integers. -/
@[simp] theorem lt_whole {m n : Int} : whole m < whole n ↔ m < n := by
  change (decide (m * 1 < n * 1) = true) ↔ _
  simp

/-- `equal` on `whole` numbers is that of integers. -/
@[simp] theorem equal_whole {m n : Int} : (whole m).equal (whole n) = decide (m = n) := by
  change (m * 1 == n * 1) = _
  by_cases h : m = n <;> simp [h]

/-- `≤` on `whole` numbers is that of integers. -/
@[simp] theorem le_whole {m n : Int} : whole m ≤ whole n ↔ m ≤ n := by
  change ((decide (m * 1 < n * 1) || (m * 1 == n * 1)) = true) ↔ _
  simp
  omega

@[simp] theorem toInt?_whole (n : Int) : (whole n).toInt? = some n := rfl

/-- `toInt?` gives `n` for `whole n`, and `0` also for `negativeZero`. -/
theorem toInt?_eq_some_iff {x : Number} {n : Int} :
    x.toInt? = some n ↔ x = whole n ∨ (x = .negativeZero ∧ n = 0) := by
  cases x <;> simp [toInt?, eq_comm]

@[simp] theorem isSafeInteger_whole (n : Int) :
    (whole n).isSafeInteger = decide (n.natAbs ≤ maxSafe) := rfl

/-- `isSafeInteger` holds of `negativeZero` and of `whole n` up to `maxSafe`. -/
theorem isSafeInteger_iff {x : Number} :
    x.isSafeInteger ↔ x = .negativeZero ∨ ∃ n : Int, n.natAbs ≤ maxSafe ∧ x = whole n := by
  cases x <;> simp [isSafeInteger, toInt?]

end Number

end Settlement
